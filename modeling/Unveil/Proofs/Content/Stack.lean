import Unveil.Proofs.Content.Trace
import Unveil.Proofs.Inline.Stack

namespace Unveil.Content

/-- What a walk has still to do: visit a node in a mode, or close the scope of a style. -/
inductive Task where
  | visit (mode : Mode) (n : Node)
  | closeStyle

namespace Task

def ofNodes (mode : Mode) (nodes : List Node) : List Task := nodes.map (visit mode)

def ofDeferred (nodes : List Deferred) : List Task := nodes.map fun d => visit d.mode d.node

def weight : Task → Nat
  | visit _ n => n.weight
  | closeStyle => 1

/-- Steps that a stack of tasks may take. -/
def total : List Task → Nat
  | [] => 0
  | task :: rest => weight task + total rest

theorem total_append (tasks more : List Task) : total (tasks ++ more) = total tasks + total more := by
  induction tasks with
  | nil => simp [total]
  | cons task rest ih => simp only [List.cons_append, total, ih, Nat.add_assoc]

theorem total_ofNodes (mode : Mode) (nodes : List Node) :
    total (ofNodes mode nodes) = Node.weightAll nodes := by
  induction nodes with
  | nil => rfl
  | cons n rest ih =>
    have step : total (ofNodes mode (n :: rest)) = n.weight + total (ofNodes mode rest) := rfl
    rw [step, ih, Node.weightAll]

end Task

namespace Trace

/-- Meets one node, without its children. -/
def enter (c : Context) (t : Trace) (mode : Mode) (n : Node) : Except DeckError (Flow × Trace) :=
  match n.kind with
  | .style _ => .ok (.completed, t.openStyle n)
  | .veil _ | .item => .ok (.completed, (t.gate n mode).2)
  | .multiColumn | .part _ | .unrecognized _ => .ok (.completed, t)
  | _ => t.meet c n mode

/-- What a node leaves to be done: its children, and for a style the closing of its scope after them. -/
def tasksBelow (t : Trace) (mode : Mode) (n : Node) : List Task :=
  match n.kind with
  | .style _ => Task.ofNodes mode n.children ++ [.closeStyle]
  | .veil _ | .item => Task.ofNodes (t.gate n mode).1 n.children
  | .multiColumn | .part _ | .unrecognized _ => Task.ofNodes mode n.children
  | _ => []

/-- A node is worth more than the tasks that it leaves, so the loop comes to an end. -/
theorem total_tasksBelow_lt (t : Trace) (mode : Mode) (n : Node) :
    Task.total (t.tasksBelow mode n) < n.weight := by
  have closing : Task.total [.closeStyle] = 1 := rfl
  have nothing : Task.total [] = 0 := rfl
  rw [Node.weight_eq]
  unfold tasksBelow
  split
  all_goals
    simp only [Task.total_append, Task.total_ofNodes, closing, nothing]
    omega

/-- Does the task on top of the stack until none is left, or a pause or an error ends the walk. -/
def loop (c : Context) (t : Trace) : List Task → Except DeckError (Flow × Trace)
  | [] => .ok (.completed, t)
  | .closeStyle :: rest => loop c t.closeStyle rest
  | .visit mode n :: rest =>
    match t.enter c mode n with
    | .ok (.completed, u) => loop c u (t.tasksBelow mode n ++ rest)
    | interrupted => interrupted
termination_by tasks => Task.total tasks
decreasing_by
  · simp [Task.total, Task.weight]
  · have less := total_tasksBelow_lt t mode n
    simp only [Task.total_append, Task.total, Task.weight]
    omega

/-- Goes on with the tasks that are left after a walk. -/
def goOn (c : Context) (rest : List Task) : Except DeckError (Flow × Trace) → Except DeckError (Flow × Trace)
  | .ok (.completed, t) => loop c t rest
  | interrupted => interrupted

theorem goOn_closeStyle (c : Context) (rest : List Task) (found : Except DeckError (Flow × Trace)) :
    goOn c (.closeStyle :: rest) found = goOn c rest (andThen closeStyle found) := by
  rcases found with error | ⟨ended, t⟩
  · rfl
  · cases ended with
    | completed => simp only [goOn, andThen, loop]
    | paused => rfl

/-- One turn of the loop. -/
theorem loop_visit_cons (c : Context) (t : Trace) (mode : Mode) (n : Node) (rest : List Task) :
    loop c t (.visit mode n :: rest) = goOn c (t.tasksBelow mode n ++ rest) (t.enter c mode n) := by
  rw [loop]
  rcases t.enter c mode n with error | ⟨ended, u⟩
  · rfl
  · cases ended <;> rfl

mutual

/-- A node on top of the stack is walked with its whole subtree before anything else is done. -/
theorem loop_visit (c : Context) (t : Trace) (mode : Mode) (rest : List Task) :
    ∀ n : Node, loop c t (.visit mode n :: rest) = goOn c rest (visit c t mode n)
  | ⟨kind, overlay, params, payload, children⟩ => by
    have below (u : Trace) (inner : Mode) (more : List Task) := loop_visitAll c u inner more children
    rw [loop_visit_cons]
    cases kind with
    | style command =>
      simp only [tasksBelow, enter, visit, List.append_assoc, List.singleton_append]
      rw [goOn, below, goOn_closeStyle]
    | veil | item | multiColumn | part | unrecognized =>
      simp only [tasksBelow, enter, visit]
      rw [goOn, below]
    | _ => rfl

/-- Nodes on top of the stack are walked as the recursion walks them; what is below them on the stack
is done afterwards, unless the walk has ended. -/
theorem loop_visitAll (c : Context) (t : Trace) (mode : Mode) (rest : List Task) :
    ∀ nodes : List Node,
      loop c t (Task.ofNodes mode nodes ++ rest) = goOn c rest (visitAll c t mode nodes)
  | [] => rfl
  | n :: more => by
    have first := loop_visit c t mode (Task.ofNodes mode more ++ rest) n
    have others (u : Trace) := loop_visitAll c u mode rest more
    simp only [Task.ofNodes, List.map_cons, List.cons_append] at first others ⊢
    rw [first, visitAll]
    rcases visit c t mode n with error | ⟨ended, u⟩
    · rfl
    · cases ended with
      | completed => exact others u
      | paused => rfl

end

/-- The loop does what the recursion over the trees does: it makes the same calls, and a pause or an error ends
both at one place. -/
theorem loop_visitEach (c : Context) (t : Trace) (nodes : List Deferred) :
    loop c t (Task.ofDeferred nodes) = visitEach c t nodes := by
  induction nodes generalizing t with
  | nil => simp only [Task.ofDeferred, List.map_nil, loop, visitEach]
  | cons d rest ih =>
    have first := loop_visit c t d.mode (Task.ofDeferred rest) d.node
    simp only [Task.ofDeferred, List.map_cons] at first ih ⊢
    rw [first, visitEach]
    rcases visit c t d.mode d.node with error | ⟨ended, u⟩
    · rfl
    · cases ended with
      | completed => exact ih u
      | paused => rfl

end Trace

end Unveil.Content
