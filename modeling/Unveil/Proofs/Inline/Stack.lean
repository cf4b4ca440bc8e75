import Unveil.Pass.Inline

namespace Unveil

namespace Node

mutual

/-- Steps that a loop over tasks may take for a tree: one for each node and one to close its scope. -/
def weight : Node → Nat
  | ⟨_, _, _, _, children⟩ => weightAll children + 2

def weightAll : List Node → Nat
  | [] => 0
  | n :: rest => weight n + weightAll rest

end

theorem weight_eq (n : Node) : n.weight = weightAll n.children + 2 := by
  cases n
  rfl

end Node

namespace Inline

/-- What a walk has still to do: visit a node in a mode, or close a scope. -/
inductive Task where
  | visit (mode : Mode) (n : Node)
  | closeStyle
  | closeList

namespace Task

def ofNodes (mode : Mode) (nodes : List Node) : List Task := nodes.map (visit mode)

def weight : Task → Nat
  | visit _ n => n.weight
  | closeStyle | closeList => 1

/-- Steps that a stack of tasks may take. -/
def total : List Task → Nat
  | [] => 0
  | task :: rest => weight task + total rest

theorem total_append (tasks more : List Task) : total (tasks ++ more) = total tasks + total more := by
  induction tasks with
  | nil => simp [total]
  | cons task rest ih => simp only [List.cons_append, total, ih, Nat.add_assoc]

theorem total_ofNodes (mode : Mode) (nodes : List Node) :
    total (ofNodes mode nodes) = Node.weightAll nodes := by
  induction nodes with
  | nil => rfl
  | cons n rest ih =>
    have step : total (ofNodes mode (n :: rest)) = n.weight + total (ofNodes mode rest) := rfl
    rw [step, ih, Node.weightAll]

end Task

/-- Meets one node. Its children are not walked but become tasks, before the task that closes the scope
of the node. -/
def enter (rules : InlineRules) (s : Inline) (mode : Mode) (n : Node) : Flow × Inline × List Task :=
  match n.kind with
  | .text => (.completed, s.append n.ownText mode, [])
  | .paragraph | .tableRow => (.completed, s.breakParagraph mode, [])
  | .tableColumn => (.completed, s.append " " mode, [])
  | .pause => (s.meetPause.1, s.meetPause.2, [])
  | .style _ => (.completed, s.openStyle n, Task.ofNodes mode n.children ++ [.closeStyle])
  | .veil _ | .multiColumn =>
    let (mode, s) := s.gate n mode
    (.completed, s, Task.ofNodes mode n.children)
  | .list list =>
    if rules.defers list then (.completed, s.deferBlock n mode, [])
    else
      let (mode, s) := s.gate n mode
      (.completed, s.openList list, Task.ofNodes mode n.children ++ [.closeList])
  | .item =>
    let (mode, s) := s.gate n mode
    (.completed, s.startItem n mode, Task.ofNodes mode n.children)
  | .tabular =>
    if rules.policy = .defer then (.completed, s.deferBlock n mode, [])
    else
      let (mode, s) := s.gate n mode
      (.completed, s.startTable mode, Task.ofNodes mode n.children)
  | .image =>
    if rules.policy = .defer then (.completed, s.deferBlock n mode, [])
    else (.completed, { s with tracker := s.tracker.observe n.overlay }, [])
  | .titlePage => (.completed, if rules.policy = .defer then s.deferBlock n mode else s, [])
  | .part _ | .unrecognized _ => (.completed, s, Task.ofNodes mode n.children)
  | .titleField _ | .graphicsPath | .path | .heading _ | .frameTitle | .frameSubtitle | .hline
  | .cline => (.completed, s, [])

/-- A node is worth more than the tasks that it leaves, so the loop comes to an end. -/
theorem total_enter_lt (rules : InlineRules) (s : Inline) (mode : Mode) (n : Node) :
    Task.total (enter rules s mode n).2.2 < n.weight := by
  rw [Node.weight_eq]
  unfold enter
  split
  all_goals
    repeat' split
    all_goals
      simp only [Task.total_append, Task.total_ofNodes, Task.total, Task.weight]
      omega

/-- Does the task on top of the stack until none is left or a pause ends the walk. The recursion over the tree
leaves nothing open when it returns; the stack holds what is still to be visited and which scopes are still to be
closed. -/
def loop (rules : InlineRules) (s : Inline) : List Task → Flow × Inline
  | [] => (.completed, s)
  | .closeStyle :: rest => loop rules s.closeStyle rest
  | .closeList :: rest => loop rules s.closeList rest
  | .visit mode n :: rest =>
    let met := enter rules s mode n
    match met.1 with
    | .paused => (.paused, met.2.1)
    | .completed => loop rules met.2.1 (met.2.2 ++ rest)
termination_by tasks => Task.total tasks
decreasing_by
  · simp [Task.total, Task.weight]
  · simp [Task.total, Task.weight]
  · have less := total_enter_lt rules s mode n
    simp only [Task.total_append, Task.total, Task.weight]
    omega

/-- Goes on with the tasks that are left after a walk. -/
def goOn (rules : InlineRules) (rest : List Task) : Flow × Inline → Flow × Inline
  | (.completed, s) => loop rules s rest
  | paused => paused

theorem goOn_closeStyle (rules : InlineRules) (rest : List Task) (found : Flow × Inline) :
    goOn rules (.closeStyle :: rest) found = goOn rules rest (andThen closeStyle found) := by
  obtain ⟨flow, s⟩ := found
  cases flow with
  | completed => simp only [goOn, andThen, loop]
  | paused => rfl

theorem goOn_closeList (rules : InlineRules) (rest : List Task) (found : Flow × Inline) :
    goOn rules (.closeList :: rest) found = goOn rules rest (andThen closeList found) := by
  obtain ⟨flow, s⟩ := found
  cases flow with
  | completed => simp only [goOn, andThen, loop]
  | paused => rfl

/-- One turn of the loop. -/
theorem loop_visit_cons (rules : InlineRules) (s : Inline) (mode : Mode) (n : Node) (rest : List Task) :
    loop rules s (.visit mode n :: rest) =
      goOn rules ((enter rules s mode n).2.2 ++ rest)
        ((enter rules s mode n).1, (enter rules s mode n).2.1) := by
  rw [loop]
  cases (enter rules s mode n).1 <;> rfl

mutual

/-- A node on top of the stack is walked with its whole subtree before anything else is done. -/
theorem loop_visit (rules : InlineRules) (s : Inline) (mode : Mode) (rest : List Task) :
    ∀ n : Node, loop rules s (.visit mode n :: rest) = goOn rules rest (visit rules s mode n)
  | ⟨kind, overlay, params, payload, children⟩ => by
    have below (t : Inline) (inner : Mode) (more : List Task) :=
      loop_visitAll rules t inner more children
    rw [loop_visit_cons]
    cases kind with
    | text | paragraph | tableRow | tableColumn | pause => rfl
    | titleField | graphicsPath | path | heading | frameTitle | frameSubtitle | hline | cline => rfl
    | titlePage => rfl
    | style command =>
      simp only [enter, visit, List.append_assoc, List.singleton_append]
      rw [goOn, below, goOn_closeStyle]
    | veil | multiColumn | item =>
      simp only [enter, visit]
      rw [goOn, below]
    | part | unrecognized =>
      simp only [enter, visit]
      rw [goOn, below]
    | list kind =>
      simp only [enter, visit]
      split
      · rfl
      · simp only [List.append_assoc, List.singleton_append]
        rw [goOn, below, goOn_closeList]
    | tabular =>
      simp only [enter, visit]
      split
      · rfl
      · rw [goOn, below]
    | image =>
      simp only [enter, visit]
      split <;> rfl

/-- Nodes on top of the stack are walked as the recursion walks them; what is below them on the stack
is done afterwards, unless a pause has ended the walk. -/
theorem loop_visitAll (rules : InlineRules) (s : Inline) (mode : Mode) (rest : List Task) :
    ∀ nodes : List Node,
      loop rules s (Task.ofNodes mode nodes ++ rest) = goOn rules rest (visitAll rules s mode nodes)
  | [] => rfl
  | n :: more => by
    have first := loop_visit rules s mode (Task.ofNodes mode more ++ rest) n
    have others (t : Inline) := loop_visitAll rules t mode rest more
    simp only [Task.ofNodes, List.map_cons, List.cons_append] at first others ⊢
    rw [first, visitAll]
    rcases visit rules s mode n with ⟨flow, t⟩
    cases flow with
    | completed => exact others t
    | paused => rfl

end

end Inline

end Unveil
