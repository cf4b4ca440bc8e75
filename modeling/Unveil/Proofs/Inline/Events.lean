import Mathlib.Data.List.Count
import Unveil.Proofs.Inline.Scope

namespace Unveil

namespace Tracker

/-- Pauses that are still let through. -/
def through (t : Tracker) : Nat := t.state.pauses - t.reached

/-- A pause stops a walk that lets none through any more, and uses one up otherwise. -/
theorem pause_cases {t : Tracker} (counting : t.ignoring = false) :
    (∃ u, t.pause = (.paused, u) ∧ t.through = 0) ∨
      ∃ u, t.pause = (.completed, u) ∧ u.through + 1 = t.through ∧ u.ignoring = false := by
  unfold pause
  simp only [counting, Bool.false_eq_true, if_false]
  split
  · exact .inl ⟨_, rfl, by simp only [through]; omega⟩
  · exact .inr ⟨_, rfl, by simp only [through]; omega, rfl⟩

end Tracker

theorem Mode.gate_through (mode : Mode) (n : Node) (t : Tracker) : (mode.gate n t).2.through = t.through := by
  rw [Tracker.through, gate_state, gate_reached, Tracker.through]

namespace Inline

/-- What decides which rows of a table stay when a pause ends it. -/
inductive Event where
  /-- text other than blanks, or the term of a description -/
  | note
  | pause
  deriving DecidableEq

mutual

/-- The events of a node with its subtree on a pass, read off the nodes. `within` is the kind of the list around
it. -/
def events (rules : InlineRules) (pass : Nat) (within : Option ListKind) (mode : Mode) : Node → List Event
  | n@⟨kind, _, params, _, children⟩ =>
    let inner := mode.max (.ofNode n pass)
    match kind with
    | .text => if mode.emits && !Text.allBlank n.ownText.toList then [.note] else []
    | .pause => [.pause]
    | .style _ | .part _ | .unrecognized _ => eventsAll rules pass within mode children
    | .veil _ | .multiColumn => eventsAll rules pass within inner children
    | .list list => if rules.defers list then [] else eventsAll rules pass (some list) inner children
    | .item =>
      (if inner.emits && within = some .description && !params.isEmpty then [.note] else []) ++
        eventsAll rules pass within inner children
    | .tabular => if rules.policy = .defer then [] else eventsAll rules pass within inner children
    | .paragraph | .tableRow | .tableColumn | .image | .titlePage | .titleField _ | .graphicsPath | .path
    | .heading _ | .frameTitle | .frameSubtitle | .hline | .cline => []

def eventsAll (rules : InlineRules) (pass : Nat) (within : Option ListKind) (mode : Mode) :
    List Node → List Event
  | [] => []
  | n :: rest => events rules pass within mode n ++ eventsAll rules pass within mode rest

end

/-- A walk from a state met events, all of them or those up to the pause that ended it. -/
inductive Tells (s : Inline) (es : List Event) : Flow × Inline → Prop
  | completed {t : Inline} (counting : t.tracker.ignoring = false)
    (passed : t.tracker.through + es.count .pause = s.tracker.through)
    (noted : t.emitted = (s.emitted || es.contains .note)) : Tells s es (.completed, t)
  | paused {t : Inline} {first rest : List Event} (split : es = first ++ .pause :: rest)
    (last : first.count .pause = s.tracker.through)
    (noted : t.emitted = (s.emitted || first.contains .note)) : Tells s es (.paused, t)

namespace Tells

variable {s t : Inline} {es fs : List Event} {found : Flow × Inline}

/-- A step that meets nothing. -/
theorem quiet (counting : s.tracker.ignoring = false) (ignoring : t.tracker.ignoring = s.tracker.ignoring)
    (through : t.tracker.through = s.tracker.through) (emitted : t.emitted = s.emitted) :
    Tells s [] (.completed, t) :=
  .completed (ignoring.trans counting) through (emitted.trans (Bool.or_false _).symm)

theorem counting (tells : Tells s es (.completed, t)) : t.tracker.ignoring = false := by
  cases tells with
  | completed counting passed noted => exact counting

/-- A step after it that meets nothing. -/
theorem andQuiet (first : Tells s es (.completed, t)) {u : Inline} (tracker : u.tracker = t.tracker)
    (emitted : u.emitted = t.emitted) : Tells s es (.completed, u) := by
  cases first with
  | completed counting passed noted =>
    exact .completed (by rw [tracker, counting]) (by rw [tracker, passed]) (by rw [emitted, noted])

theorem append (first : Tells s es (.completed, t)) (rest : Tells t fs found) : Tells s (es ++ fs) found := by
  obtain ⟨_, passed, noted⟩ := first
  cases rest with
  | completed counting more also =>
    refine .completed counting ?_ ?_
    · rw [List.count_append, ← passed, ← more]
      omega
    · rw [also, noted, List.contains_append, Bool.or_assoc]
  | @paused _ left right split last also =>
    refine .paused (by rw [split, List.append_assoc]) ?_ ?_
    · rw [List.count_append, last, ← passed, Nat.add_comm]
    · rw [also, noted, List.contains_append, Bool.or_assoc]

theorem before (first : Tells s es (.paused, t)) (fs : List Event) : Tells s (es ++ fs) (.paused, t) := by
  cases first with
  | paused split last noted => exact .paused (by rw [split, List.append_assoc, List.cons_append]) last noted

theorem close (tells : Tells s es found) {close : Inline → Inline} (tracker : ∀ t, (close t).tracker = t.tracker)
    (emitted : ∀ t, (close t).emitted = t.emitted) : Tells s es (andThen close found) := by
  cases tells with
  | completed counting passed noted =>
    exact .completed (by rw [tracker, counting]) (by rw [tracker, passed]) (by rw [emitted, noted])
  | paused split last noted => exact .paused split last noted

end Tells

variable {s : Inline}

theorem breakParagraph_emitted (s : Inline) (mode : Mode) : (s.breakParagraph mode).emitted = s.emitted := by
  unfold breakParagraph
  split <;> rfl

theorem startTable_emitted (s : Inline) (mode : Mode) : (s.startTable mode).emitted = s.emitted := by
  unfold startTable
  split <;> rfl

theorem deferBlock_emitted (s : Inline) (n : Node) (mode : Mode) : (s.deferBlock n mode).emitted = s.emitted := by
  unfold deferBlock
  split <;> rfl

/-- The mode inside of a gate. -/
theorem gate_fst (s : Inline) (n : Node) (mode : Mode) :
    (s.gate n mode).1 = mode.max (.ofNode n s.tracker.pass) := mode.gate_fst n s.tracker

/-- Text is noted if it shows and is not blank. -/
theorem append_tells (counting : s.tracker.ignoring = false) (text : String) (mode : Mode) :
    Tells s (if mode.emits && !Text.allBlank text.toList then [.note] else []) (.completed, s.append text mode) := by
  have tracker := s.append_tracker mode text
  have noted : (s.append text mode).emitted = (s.emitted || (mode.emits && !Text.allBlank text.toList)) := by
    unfold append
    split
    · rename_i silent
      rw [Bool.or_eq_true, Bool.not_eq_true', String.isEmpty_iff] at silent
      rcases silent with omitted | rfl
      · simp [omitted]
      · simp [Text.allBlank]
    · rename_i written
      rw [Bool.or_eq_true, not_or, Bool.not_eq_true', Bool.not_eq_false] at written
      simp [written.1]
  refine .completed (by rw [tracker, counting]) ?_ ?_
  · rw [tracker]
    split <;> rfl
  · rw [noted]
    cases mode.emits && !Text.allBlank text.toList <;> rfl

theorem gate_tells (counting : s.tracker.ignoring = false) (n : Node) (mode : Mode) :
    Tells s [] (.completed, (s.gate n mode).2) := by
  refine .quiet counting ?_ ?_ rfl
  · rw [gate_tracker, Mode.gate_ignoring]
  · rw [gate_tracker, Mode.gate_through]

/-- An item that shows notes its term, if a description is around it. -/
theorem startItem_tells (counting : s.tracker.ignoring = false) (n : Node) (mode : Mode) :
    Tells s (if mode.emits && s.listKind? = some .description && !n.params.isEmpty then [.note] else [])
      (.completed, s.startItem n mode) := by
  have tracker := s.startItem_tracker n mode
  have noted : (s.startItem n mode).emitted =
      (s.emitted || (mode.emits && s.listKind? = some .description && !n.params.isEmpty)) := by
    unfold startItem listKind?
    cases mode.emits with
    | false => simp
    | true =>
      cases s.lists with
      | nil => simp
      | cons l outer =>
        unfold writeTerm
        by_cases described : l.kind = .description
        · cases n.params.isEmpty <;> simp [described]
        · simp [described]
  refine .completed (by rw [tracker, counting]) ?_ ?_
  · rw [tracker]
    split <;> rfl
  · rw [noted]
    cases mode.emits && s.listKind? = some .description && !n.params.isEmpty <;> rfl

mutual

/-- A node meets its events in order and ends at the first pause that is not let through. -/
theorem visit_tells (rules : InlineRules) (mode : Mode) {s : Inline} (counting : s.tracker.ignoring = false) :
    ∀ n : Node, Tells s (events rules s.tracker.pass s.listKind? mode n) (visit rules s mode n)
  | ⟨kind, overlay, params, payload, children⟩ => by
    have still : Tells s [] (.completed, s) := .quiet counting rfl rfl rfl
    have below {t : Inline} {es : List Event} (inner : Mode) (first : Tells s es (.completed, t))
        (pass : t.tracker.state = s.tracker.state) :
        Tells s (es ++ eventsAll rules s.tracker.pass t.listKind? inner children)
          (visitAll rules t inner children) := by
      have same : s.tracker.pass = t.tracker.pass := congrArg PassState.pass pass.symm
      rw [same]
      cases first with
      | completed counting passed noted =>
        exact (Tells.completed counting passed noted).append (visitAll_tells rules inner counting children)
    have gated (n : Node) {t : Inline} {es : List Event} (first : Tells s es (.completed, t))
        (tracker : t.tracker = (s.gate n mode).2.tracker) :
        Tells s (es ++ eventsAll rules s.tracker.pass t.listKind? (mode.max (.ofNode n s.tracker.pass)) children)
          (visitAll rules t (s.gate n mode).1 children) := by
      rw [gate_fst]
      exact below _ first ((congrArg Tracker.state tracker).trans (mode.gate_state n s.tracker))
    cases kind with
    | text => exact append_tells counting _ mode
    | tableColumn =>
      have blank := append_tells counting " " mode
      have all : Text.allBlank " ".toList = true := by decide
      rwa [all, Bool.not_true, Bool.and_false] at blank
    | paragraph | tableRow => exact still.andQuiet (s.breakParagraph_tracker mode) (breakParagraph_emitted s mode)
    | pause =>
      simp only [events, visit, meetPause]
      rcases Tracker.pause_cases counting with ⟨u, stops, silent⟩ | ⟨u, passes, one, counts⟩
      · rw [stops]
        exact .paused (List.nil_append _).symm silent.symm (Bool.or_false _).symm
      · rw [passes]
        exact .completed counts one (Bool.or_false _).symm
    | style command =>
      have opened : Tells s [] (.completed, s.openStyle ⟨.style command, overlay, params, payload, children⟩) :=
        .quiet counting rfl rfl rfl
      exact (below mode opened rfl).close (fun _ => rfl) fun _ => rfl
    | veil v => exact gated ⟨.veil v, overlay, params, payload, children⟩ (gate_tells counting _ mode) rfl
    | multiColumn =>
      exact gated ⟨.multiColumn, overlay, params, payload, children⟩ (gate_tells counting _ mode) rfl
    | list kind =>
      simp only [events, visit]
      split
      · exact still.andQuiet (deferBlock_tracker s _ mode) (deferBlock_emitted s _ mode)
      · have opened := (gate_tells counting ⟨.list kind, overlay, params, payload, children⟩ mode).andQuiet
          (openList_tracker _ kind) rfl
        exact (gated _ opened rfl).close (fun _ => rfl) fun _ => rfl
    | item =>
      have started (n : Node) := (gate_tells counting n mode).append
        (startItem_tells (gate_tells counting n mode).counting n (s.gate n mode).1)
      have inside := gated _ (started ⟨.item, overlay, params, payload, children⟩) (startItem_tracker _ _ _)
      rw [(Restored.startItem _ _ _).listKind?] at inside
      simp only [events, visit, gate_fst] at inside ⊢
      exact inside
    | tabular =>
      simp only [events, visit]
      split
      · exact still.andQuiet (deferBlock_tracker s _ mode) (deferBlock_emitted s _ mode)
      · have started (n : Node) := (gate_tells counting n mode).andQuiet
          (startTable_tracker _ (s.gate n mode).1) (startTable_emitted _ _)
        have inside := gated _ (started ⟨.tabular, overlay, params, payload, children⟩) (startTable_tracker _ _)
        rw [(Restored.startTable _ _).listKind?] at inside
        exact inside
    | image =>
      simp only [events, visit]
      split
      · exact still.andQuiet (deferBlock_tracker s _ mode) (deferBlock_emitted s _ mode)
      · exact .quiet counting rfl rfl rfl
    | titlePage =>
      simp only [events, visit]
      split
      · exact still.andQuiet (deferBlock_tracker s _ mode) (deferBlock_emitted s _ mode)
      · exact still
    | part | unrecognized => exact below mode still rfl
    | titleField | graphicsPath | path | heading | frameTitle | frameSubtitle | hline | cline => exact still

/-- A walk has noted that something shows just if an event in front of the pause that ends it says so. -/
theorem visitAll_tells (rules : InlineRules) (mode : Mode) {s : Inline} (counting : s.tracker.ignoring = false) :
    ∀ nodes : List Node,
      Tells s (eventsAll rules s.tracker.pass s.listKind? mode nodes) (visitAll rules s mode nodes)
  | [] => .quiet counting rfl rfl rfl
  | n :: rest => by
    have first := visit_tells rules mode counting n
    have restored := visit_restored rules s mode n
    rw [eventsAll, visitAll]
    rcases found : visit rules s mode n with ⟨flow, t⟩
    rw [found] at first restored
    cases flow with
    | completed =>
      have restored := restored rfl
      have pass : t.tracker.pass = s.tracker.pass := congrArg PassState.pass restored.state
      have kind := restored.listKind?
      cases first with
      | completed counts passed noted =>
        have later := visitAll_tells rules mode counts rest
        rw [pass, kind] at later
        exact (Tells.completed counts passed noted).append later
    | paused => exact first.before _

end

end Inline

end Unveil
