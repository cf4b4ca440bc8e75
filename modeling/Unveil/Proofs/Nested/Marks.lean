import Unveil.Proofs.Inline.Asks

namespace Unveil

/-- A block in a text, with its place: the children to take on the way down from the root of the tree. -/
structure Nested where
  place : List Nat
  block : Deferred

inductive Mark where
  | pause
  | overlay (overlay : Overlay)
  | block (b : Nested)

namespace Mark

/-- The mark of a node that may gate its content. -/
def gate (n : Node) : List Mark := if n.overlay.isUnrestricted then [] else [overlay n.overlay]

/-- The mark of a block that is put off; an omitted one leaves none. -/
def putOff (place : List Nat) (n : Node) (mode : Mode) : List Mark :=
  if mode.emits then [block ⟨place, n, mode⟩] else []

def block? : Mark → Option Nested
  | block b => some b
  | _ => none

/-- The blocks among marks, also those behind pauses. -/
def blocks (marks : List Mark) : List Nested := marks.filterMap block?

@[simp]
theorem blocks_append (first more : List Mark) : blocks (first ++ more) = blocks first ++ blocks more :=
  List.filterMap_append

@[simp]
theorem blocks_gate (n : Node) : blocks (gate n) = [] := by
  unfold gate
  split <;> rfl

/-- A gate is no block. -/
theorem blocks_gate_append (n : Node) (more : List Mark) : blocks (gate n ++ more) = blocks more := by
  rw [blocks_append, blocks_gate, List.nil_append]

end Mark

@[simp]
theorem Mode.gate_pass (m : Mode) (n : Node) (t : Tracker) : (m.gate n t).2.pass = t.pass :=
  congrArg PassState.pass (m.gate_state n t)

namespace Tracker

/-- Follows marks until a pause is not let through, and collects the blocks among them. Content leaves marks in
document order: its pauses, its overlays, and the blocks that stand in a text. -/
def follow (t : Tracker) : List Mark → Flow × Tracker × List Nested
  | [] => (.completed, t, [])
  | .pause :: rest =>
    match t.pause with
    | (.completed, t) => t.follow rest
    | (.paused, t) => (.paused, t, [])
  | .overlay o :: rest => (t.observe o).follow rest
  | .block b :: rest =>
    let (flow, u, blocks) := t.follow rest
    (flow, u, b :: blocks)

variable {t u v : Tracker} {first more marks : List Mark} {found others : List Nested} {flow : Flow}

theorem follow_append_completed (completed : t.follow first = (.completed, u, found))
    (second : u.follow more = (flow, v, others)) : t.follow (first ++ more) = (flow, v, found ++ others) := by
  induction first generalizing t found with
  | nil =>
    cases completed
    exact second
  | cons mark rest ih =>
    cases mark with
    | pause =>
      simp only [List.cons_append, follow] at completed ⊢
      generalize t.pause = met at completed ⊢
      obtain ⟨ended, w⟩ := met
      cases ended with
      | completed => exact ih completed
      | paused => cases completed
    | overlay o => exact ih completed
    | block b =>
      simp only [List.cons_append, follow] at completed ⊢
      rcases followed : t.follow rest with ⟨ended, w, blocks⟩
      rw [followed] at completed
      cases completed
      rw [ih followed, List.cons_append]

theorem follow_append_paused (paused : t.follow first = (.paused, u, found)) (more : List Mark) :
    t.follow (first ++ more) = (.paused, u, found) := by
  induction first generalizing t found with
  | nil => cases paused
  | cons mark rest ih =>
    cases mark with
    | pause =>
      simp only [List.cons_append, follow] at paused ⊢
      generalize t.pause = met at paused ⊢
      obtain ⟨ended, w⟩ := met
      cases ended with
      | completed => exact ih paused
      | paused => exact paused
    | overlay o => exact ih paused
    | block b =>
      simp only [List.cons_append, follow] at paused ⊢
      rcases followed : t.follow rest with ⟨ended, w, blocks⟩
      rw [followed] at paused
      cases paused
      rw [ih followed]

theorem follow_state (followed : t.follow marks = (flow, u, found)) : u.state = t.state := by
  induction marks generalizing t found with
  | nil =>
    cases followed
    rfl
  | cons mark rest ih =>
    cases mark with
    | pause =>
      have kept := t.pause_state
      simp only [follow] at followed
      generalize t.pause = met at followed kept
      obtain ⟨ended, w⟩ := met
      cases ended with
      | completed => exact (ih followed).trans kept
      | paused =>
        cases followed
        exact kept
    | overlay o => exact @ih (t.observe o) _ followed
    | block b =>
      simp only [follow] at followed
      rcases behind : t.follow rest with ⟨ended, w, blocks⟩
      rw [behind] at followed
      cases followed
      exact ih behind

/-- What is found on the way is among the marks, in their order. -/
theorem follow_sublist (followed : t.follow marks = (flow, u, found)) : found.Sublist (Mark.blocks marks) := by
  induction marks generalizing t found with
  | nil =>
    cases followed
    exact .slnil
  | cons mark rest ih =>
    cases mark with
    | pause =>
      simp only [follow] at followed
      generalize t.pause = met at followed
      obtain ⟨ended, w⟩ := met
      cases ended with
      | completed => exact ih followed
      | paused =>
        cases followed
        exact List.nil_sublist _
    | overlay o => exact ih followed
    | block b =>
      simp only [follow] at followed
      rcases behind : t.follow rest with ⟨ended, w, blocks⟩
      rw [behind] at followed
      cases followed
      exact (ih behind).cons_cons b

/-- A tracker that lets every pause through finds every block. -/
theorem follow_ignoring (ignores : t.ignoring = true) (marks : List Mark) :
    ∃ u, t.follow marks = (.completed, u, Mark.blocks marks) ∧ u.ignoring = true := by
  induction marks generalizing t with
  | nil => exact ⟨t, rfl, ignores⟩
  | cons mark rest ih =>
    cases mark with
    | pause =>
      simp only [follow, pause, ignores, if_true]
      exact ih ignores
    | overlay o => exact @ih (t.observe o) ignores
    | block b =>
      obtain ⟨u, followed, still⟩ := ih ignores
      refine ⟨u, ?_, still⟩
      rw [follow, followed]
      rfl

end Tracker

/-- A walk follows marks when it ends as a tracker does that follows them, and adds the blocks on the way
to those that are put off. -/
def Follows (marks : List Mark) (t : Tracker) (queue : List Deferred) (flow : Flow) (u : Tracker)
    (longer : List Deferred) : Prop :=
  ∃ found, t.follow marks = (flow, u, found) ∧ longer = queue ++ found.map Nested.block

namespace Follows

variable {t u v : Tracker} {queue longer longest : List Deferred} {first more marks : List Mark} {flow : Flow}

/-- A step that leaves no mark. -/
theorem quiet (tracker : u = t) (deferred : longer = queue) : Follows [] t queue .completed u longer := by
  subst tracker deferred
  exact ⟨[], rfl, (List.append_nil _).symm⟩

theorem append (before : Follows first t queue .completed u longer)
    (after : Follows more u longer flow v longest) : Follows (first ++ more) t queue flow v longest := by
  obtain ⟨found, followed, rfl⟩ := before
  obtain ⟨others, behind, rfl⟩ := after
  refine ⟨found ++ others, Tracker.follow_append_completed followed behind, ?_⟩
  rw [List.map_append, List.append_assoc]

theorem append_paused (before : Follows first t queue .paused u longer) (more : List Mark) :
    Follows (first ++ more) t queue .paused u longer := by
  obtain ⟨found, followed, same⟩ := before
  exact ⟨found, Tracker.follow_append_paused followed more, same⟩

theorem pause (t : Tracker) (queue : List Deferred) : Follows [.pause] t queue t.pause.1 t.pause.2 queue := by
  refine ⟨[], ?_, (List.append_nil _).symm⟩
  rw [Tracker.follow]
  rcases t.pause with ⟨ended, u⟩
  cases ended <;> rfl

theorem overlay {o : Overlay} (below : Follows marks (t.observe o) queue flow u longer) :
    Follows (.overlay o :: marks) t queue flow u longer := below

theorem gate {mode : Mode} {n : Node} (below : Follows marks (mode.gate n t).2 queue flow u longer) :
    Follows (Mark.gate n ++ marks) t queue flow u longer := by
  rw [Mode.gate_snd] at below
  unfold Mark.gate
  split at below <;> simp_all only [if_true, List.nil_append, Bool.false_eq_true, if_false]
  exact below

theorem state (follows : Follows marks t queue flow u longer) : u.state = t.state := by
  obtain ⟨_, followed, _⟩ := follows
  exact Tracker.follow_state followed

/-- A walk that lets every pause through puts off all blocks. -/
theorem ignoring (follows : Follows marks t queue flow u longer) (ignores : t.ignoring = true) :
    flow = .completed ∧ u.ignoring = true ∧ longer = queue ++ (Mark.blocks marks).map Nested.block := by
  obtain ⟨found, followed, rfl⟩ := follows
  obtain ⟨v, all, still⟩ := Tracker.follow_ignoring ignores marks
  rw [all] at followed
  cases followed
  exact ⟨rfl, still, rfl⟩

end Follows

namespace Inline

mutual

/-- The marks of a node with its subtree in a text. -/
def marks (rules : InlineRules) (pass : Nat) (place : List Nat) (mode : Mode) : Node → List Mark
  | n@⟨kind, _, _, _, children⟩ =>
    let inner := mode.max (.ofNode n pass)
    match kind with
    | .pause => [.pause]
    | .style _ => .overlay n.overlay :: marksAll rules pass place 0 mode children
    | .veil _ | .multiColumn | .item => Mark.gate n ++ marksAll rules pass place 0 inner children
    | .list list =>
      if rules.defers list then Mark.putOff place n mode
      else Mark.gate n ++ marksAll rules pass place 0 inner children
    | .tabular =>
      if rules.policy = .defer then Mark.putOff place n mode
      else Mark.gate n ++ marksAll rules pass place 0 inner children
    | .image => if rules.policy = .defer then Mark.putOff place n mode else [.overlay n.overlay]
    | .titlePage => if rules.policy = .defer then Mark.putOff place n mode else []
    | .part _ | .unrecognized _ => marksAll rules pass place 0 mode children
    | .text | .paragraph | .tableRow | .tableColumn | .titleField _ | .graphicsPath | .path | .heading _
    | .frameTitle | .frameSubtitle | .hline | .cline => []

/-- The marks of siblings at a place, the first of which is the child `i`. -/
def marksAll (rules : InlineRules) (pass : Nat) (place : List Nat) (i : Nat) (mode : Mode) :
    List Node → List Mark
  | [] => []
  | n :: rest => marks rules pass (place ++ [i]) mode n ++ marksAll rules pass place (i + 1) mode rest

end

/-- The walk of a text follows marks. -/
def Leaves (marks : List Mark) (s : Inline) (found : Flow × Inline) : Prop :=
  Follows marks s.tracker s.deferred found.1 found.2.tracker found.2.deferred

theorem Leaves.quiet {s t : Inline} (tracker : t.tracker = s.tracker) (deferred : t.deferred = s.deferred) :
    Leaves [] s (.completed, t) := Follows.quiet tracker deferred

theorem Leaves.putOff (s : Inline) (place : List Nat) (n : Node) (mode : Mode) :
    Leaves (Mark.putOff place n mode) s (.completed, s.deferBlock n mode) := by
  unfold Mark.putOff deferBlock
  split
  · exact ⟨[⟨place, n, mode⟩], rfl, rfl⟩
  · exact .quiet rfl rfl

theorem Leaves.overlay {marks : List Mark} {s t : Inline} {o : Overlay} {found : Flow × Inline}
    (below : Leaves marks t found) (tracker : t.tracker = s.tracker.observe o) (deferred : t.deferred = s.deferred) :
    Leaves (.overlay o :: marks) s found := by
  rw [Leaves, tracker, deferred] at below
  exact Follows.overlay below

/-- What stands behind a gate. -/
theorem Leaves.gate {marks : List Mark} {s t : Inline} {n : Node} {found : Flow × Inline} (mode : Mode)
    (below : Leaves marks t found) (tracker : t.tracker = (s.gate n mode).2.tracker)
    (deferred : t.deferred = s.deferred) : Leaves (Mark.gate n ++ marks) s found := by
  rw [Leaves, tracker, deferred] at below
  exact Follows.gate below

/-- Closing a scope leaves no mark. -/
theorem Leaves.andThen {marks : List Mark} {s : Inline} {found : Flow × Inline} {close : Inline → Inline}
    (leaves : Leaves marks s found) (tracker : ∀ t, (close t).tracker = t.tracker)
    (deferred : ∀ t, (close t).deferred = t.deferred) : Leaves marks s (andThen close found) := by
  obtain ⟨flow, t⟩ := found
  cases flow with
  | completed =>
    rw [Leaves, Inline.andThen, tracker, deferred]
    exact leaves
  | paused => exact leaves

mutual

/-- The walk of a node in a text follows its marks. -/
theorem visit_leaves (rules : InlineRules) (s : Inline) (place : List Nat) (mode : Mode) :
    ∀ n : Node, Leaves (marks rules s.tracker.pass place mode n) s (visit rules s mode n)
  | ⟨kind, overlay, params, payload, children⟩ => by
    have below (t : Inline) (inner : Mode) (state : t.tracker.state = s.tracker.state) :
        Leaves (marksAll rules s.tracker.pass place 0 inner children) t (visitAll rules t inner children) := by
      have pass : t.tracker.pass = s.tracker.pass := congrArg PassState.pass state
      exact pass ▸ visitAll_leaves rules t place 0 inner children
    cases kind with
    | text | paragraph | tableRow | tableColumn => exact .quiet (by simp) (by simp)
    | titleField | graphicsPath | path | heading | frameTitle | frameSubtitle | hline | cline =>
      exact .quiet rfl rfl
    | pause => exact Follows.pause s.tracker s.deferred
    | style command =>
      simp only [marks, visit]
      refine Leaves.andThen ?_ closeStyle_tracker closeStyle_deferred
      exact (below (s.openStyle _) mode rfl).overlay rfl rfl
    | veil | multiColumn =>
      simp only [marks, visit]
      rw [← Mode.gate_fst mode _ s.tracker]
      exact (below (s.gate _ mode).2 _ (by simp)).gate mode rfl rfl
    | item =>
      simp only [marks, visit]
      rw [← Mode.gate_fst mode _ s.tracker]
      exact (below ((s.gate _ mode).2.startItem _ _) _ (by simp)).gate mode (by simp) (by simp)
    | list kind =>
      simp only [marks, visit]
      split
      · exact .putOff s place _ mode
      · rw [← Mode.gate_fst mode _ s.tracker]
        refine Leaves.andThen ?_ closeList_tracker closeList_deferred
        exact (below ((s.gate _ mode).2.openList kind) _ (by simp)).gate mode rfl rfl
    | tabular =>
      simp only [marks, visit]
      split
      · exact .putOff s place _ mode
      · rw [← Mode.gate_fst mode _ s.tracker]
        exact (below ((s.gate _ mode).2.startTable _) _ (by simp)).gate mode (by simp) (by simp)
    | image =>
      simp only [marks, visit]
      split
      · exact .putOff s place _ mode
      · exact Follows.overlay (.quiet rfl rfl)
    | titlePage =>
      simp only [marks, visit]
      split
      · exact .putOff s place _ mode
      · exact .quiet rfl rfl
    | part | unrecognized =>
      simp only [marks, visit]
      exact below s mode rfl

/-- Siblings leave their marks one after the other. -/
theorem visitAll_leaves (rules : InlineRules) (s : Inline) (place : List Nat) (i : Nat) (mode : Mode) :
    ∀ nodes : List Node,
      Leaves (marksAll rules s.tracker.pass place i mode nodes) s (visitAll rules s mode nodes)
  | [] => .quiet rfl rfl
  | n :: rest => by
    have first := visit_leaves rules s (place ++ [i]) mode n
    rw [visitAll, marksAll]
    rcases found : visit rules s mode n with ⟨flow, t⟩
    rw [found] at first
    cases flow with
    | completed =>
      have pass : t.tracker.pass = s.tracker.pass := congrArg PassState.pass first.state
      exact Follows.append first (pass ▸ visitAll_leaves rules t place (i + 1) mode rest)
    | paused => exact Follows.append_paused first _

end

end Inline

end Unveil
