import Unveil.Proofs.Inline.Asks
import Unveil.Proofs.Inline.Scope
import Unveil.Proofs.Reveal.Basic
import Unveil.Proofs.Reveal.Chars

namespace Unveil

namespace Inline

/-- All that one text holds is also held by the other, and comes first there. -/
structure Behind (s t : Inline) : Prop where
  body : s.body.chars <+: t.body.chars
  emitted : s.emitted = true → t.emitted = true
  deferred : s.deferred <+: t.deferred

namespace Behind

variable {s t u : Inline}

theorem refl (s : Inline) : Behind s s := ⟨List.prefix_rfl, id, List.prefix_rfl⟩

theorem trans (first : Behind s t) (second : Behind t u) : Behind s u :=
  ⟨first.body.trans second.body, fun shows => second.emitted (first.emitted shows),
    first.deferred.trans second.deferred⟩

/-- A step that writes nothing. -/
theorem quiet (body : t.body.chars = s.body.chars) (emitted : t.emitted = s.emitted)
    (deferred : t.deferred = s.deferred) : Behind s t :=
  ⟨body ▸ List.prefix_rfl, fun shows => emitted.trans shows, deferred ▸ List.prefix_rfl⟩

theorem resume (s : Inline) : Behind s s.resume := by
  refine quiet ?_ (by simp) (by simp)
  unfold Inline.resume
  split
  · exact TextBody.startParagraph_chars _ _ _ _
  · rfl

theorem append (s : Inline) (text : String) (mode : Mode) : Behind s (s.append text mode) := by
  unfold Inline.append
  split
  · exact refl s
  · refine (resume s).trans ⟨TextBody.append_prefix _ _ _ _, fun shows => ?_, List.prefix_rfl⟩
    simp only [shows, Bool.true_or]

theorem writeTerm (s : Inline) (term : String) (hidden : Bool) :
    Behind s (s.writeTerm term hidden) := by
  unfold Inline.writeTerm
  split
  · exact refl s
  · exact ⟨(TextBody.append_prefix _ _ _ _).trans (TextBody.append_prefix _ _ _ _), fun _ => rfl,
      List.prefix_rfl⟩

theorem startItem (s : Inline) (n : Node) (mode : Mode) : Behind s (s.startItem n mode) := by
  unfold Inline.startItem
  split
  · exact refl s
  · split
    · exact quiet (TextBody.startParagraph_chars _ _ _ _) rfl rfl
    · rename_i l outer _
      have started : Behind s { s with
          body := s.body.startParagraph
            (l.mark?.map fun mark => ⟨mark, mode.isHidden⟩) l.level s.face.size
          lists := { l with count := l.count + 1 } :: outer
          continuation := false } := quiet (TextBody.startParagraph_chars _ _ _ _) rfl rfl
      simp only
      split
      · exact started.trans (writeTerm _ _ _)
      · exact started

theorem breakParagraph (s : Inline) (mode : Mode) : Behind s (s.breakParagraph mode) := by
  unfold Inline.breakParagraph
  split
  · exact quiet (TextBody.breakParagraph_chars _) rfl rfl
  · exact refl s

theorem startTable (s : Inline) (mode : Mode) : Behind s (s.startTable mode) := by
  unfold Inline.startTable
  split
  · exact quiet (TextBody.breakParagraph_chars _) rfl rfl
  · exact refl s

theorem openList (s : Inline) (kind : ListKind) : Behind s (s.openList kind) := by
  refine quiet ?_ rfl rfl
  unfold Inline.openList
  simp only
  split
  · rfl
  · have keeps (p : Paragraph) :
        (if p.isEmpty then { p with bullet := none } else p).chars = p.chars ++ [] := by
      split <;> exact (List.append_nil _).symm
    rw [s.body.mapCurrent_chars keeps, List.append_nil]

theorem deferBlock (s : Inline) (n : Node) (mode : Mode) : Behind s (s.deferBlock n mode) := by
  unfold Inline.deferBlock
  split
  · exact ⟨List.prefix_rfl, id, List.prefix_append _ _⟩
  · exact refl s

theorem closing {close : Inline → Inline} {found : Flow × Inline} (before : Behind s found.2)
    (closed : ∀ t, Behind t (close t)) : Behind s (andThen close found).2 := by
  obtain ⟨flow, t⟩ := found
  cases flow with
  | completed => exact before.trans (closed t)
  | paused => exact before

end Behind

mutual

/-- A walk only adds to what was written before it. -/
theorem behind_visit (rules : InlineRules) (s : Inline) (mode : Mode) :
    ∀ n : Node, Behind s (visit rules s mode n).2
  | ⟨kind, overlay, params, payload, children⟩ => by
    have below (t : Inline) (inner : Mode) (before : Behind s t) :
        Behind s (visitAll rules t inner children).2 :=
      before.trans (behind_visitAll rules t inner children)
    have style : Behind s (s.openStyle ⟨kind, overlay, params, payload, children⟩) := .quiet rfl rfl rfl
    have gate : Behind s (s.gate ⟨kind, overlay, params, payload, children⟩ mode).2 :=
      .quiet rfl rfl rfl
    cases kind with
    | text => exact .append s _ mode
    | tableColumn => exact .append s " " mode
    | paragraph | tableRow => exact .breakParagraph s mode
    | pause => exact .quiet rfl rfl rfl
    | style => exact (below _ mode style).closing fun _ => .quiet rfl rfl rfl
    | veil | multiColumn => exact below _ _ gate
    | item => exact below _ _ (gate.trans (.startItem _ _ _))
    | list kind =>
      simp only [visit]
      split
      · exact .deferBlock s _ mode
      · exact (below _ _ (gate.trans (.openList _ kind))).closing fun _ => .quiet rfl rfl rfl
    | tabular =>
      simp only [visit]
      split
      · exact .deferBlock s _ mode
      · exact below _ _ (gate.trans (.startTable _ _))
    | image =>
      simp only [visit]
      split
      · exact .deferBlock s _ mode
      · exact .quiet rfl rfl rfl
    | titlePage =>
      simp only [visit]
      split
      · exact .deferBlock s _ mode
      · exact .refl s
    | part | unrecognized => exact below s mode (.refl s)
    | titleField | graphicsPath | path | heading | frameTitle | frameSubtitle | hline | cline => exact .refl s

theorem behind_visitAll (rules : InlineRules) (s : Inline) (mode : Mode) :
    ∀ nodes : List Node, Behind s (visitAll rules s mode nodes).2
  | [] => .refl s
  | n :: rest => by
    have first := behind_visit rules s mode n
    rw [visitAll]
    rcases found : visit rules s mode n with ⟨flow, t⟩
    rw [found] at first
    cases flow with
    | completed => exact first.trans (behind_visitAll rules t mode rest)
    | paused => exact first

end

/-- The same text in a walk that lets so many pauses through. -/
def allow (pauses : Nat) (s : Inline) : Inline := { s with tracker := s.tracker.allow pauses }

section

variable (s : Inline) (n : Node) (mode : Mode) (pauses : Nat)

theorem append_allow (text : String) : (s.allow pauses).append text mode = (s.append text mode).allow pauses :=
  append_aside s mode (·.allow pauses) id text

theorem startItem_allow : (s.allow pauses).startItem n mode = (s.startItem n mode).allow pauses :=
  startItem_aside s n mode (·.allow pauses) id

theorem breakParagraph_allow : (s.allow pauses).breakParagraph mode = (s.breakParagraph mode).allow pauses :=
  breakParagraph_aside s mode (·.allow pauses) id

theorem startTable_allow : (s.allow pauses).startTable mode = (s.startTable mode).allow pauses :=
  startTable_aside s mode (·.allow pauses) id

theorem deferBlock_allow : (s.allow pauses).deferBlock n mode = (s.deferBlock n mode).allow pauses := by
  unfold deferBlock
  split <;> rfl

theorem gate_allow :
    (s.allow pauses).gate n mode = ((s.gate n mode).1, (s.gate n mode).2.allow pauses) := by
  simp only [gate, allow, Mode.gate_allow]

end

theorem reveals_andThen {pauses : Nat} {close : Inline → Inline} {found more : Flow × Inline}
    (reveals : Reveals (allow pauses) Behind found more) (closed : ∀ t, Behind t (close t))
    (still : ∀ t, close (t.allow pauses) = (close t).allow pauses) :
    Reveals (allow pauses) Behind (andThen close found) (andThen close more) := by
  cases reveals with
  | completed s =>
    simp only [Inline.andThen, still]
    exact .completed (close s)
  | @paused s t flow behind =>
    cases flow with
    | completed => exact .paused (behind.trans (closed t))
    | paused => exact .paused behind

mutual

/-- Where more pauses are let through, a text holds what it held, and what is written in addition comes after
it. -/
theorem visit_reveals (rules : InlineRules) (s : Inline) (mode : Mode) {pauses : Nat}
    (more : s.tracker.state.pauses ≤ pauses) :
    ∀ n : Node, Reveals (allow pauses) Behind (visit rules s mode n)
      (visit rules (s.allow pauses) mode n)
  | ⟨kind, overlay, params, payload, children⟩ => by
    have below (t : Inline) (inner : Mode) (state : t.tracker.state = s.tracker.state) :
        Reveals (allow pauses) Behind (visitAll rules t inner children)
          (visitAll rules (t.allow pauses) inner children) :=
      visitAll_reveals rules t inner (state ▸ more) children
    cases kind with
    | text | tableColumn =>
      simp only [visit, append_allow]
      exact .completed _
    | paragraph | tableRow =>
      simp only [visit, breakParagraph_allow]
      exact .completed _
    | pause =>
      simp only [visit, meetPause]
      rcases paused : s.tracker.pause with ⟨flow, t⟩
      cases flow with
      | completed =>
        have through : (s.allow pauses).tracker.pause = (.completed, t.allow pauses) :=
          Tracker.pause_allow more paused
        rw [through]
        exact .completed { s with tracker := t }
      | paused => exact .paused (.quiet rfl rfl rfl)
    | style =>
      simp only [visit]
      exact reveals_andThen (below (s.openStyle _) mode rfl) (fun _ => .quiet rfl rfl rfl) fun _ => rfl
    | veil | multiColumn =>
      simp only [visit, gate_allow]
      exact below _ _ (by simp)
    | item =>
      simp only [visit, gate_allow, startItem_allow]
      exact below _ _ (by simp)
    | list kind =>
      simp only [visit]
      split
      · rw [deferBlock_allow]
        exact .completed _
      · rw [gate_allow]
        exact reveals_andThen (below _ _ (by simp)) (fun _ => .quiet rfl rfl rfl) fun _ => rfl
    | tabular =>
      simp only [visit]
      split
      · rw [deferBlock_allow]
        exact .completed _
      · simp only [gate_allow, startTable_allow]
        exact below _ _ (by simp)
    | image =>
      simp only [visit]
      split
      · rw [deferBlock_allow]
        exact .completed _
      · exact .completed _
    | titlePage =>
      simp only [visit]
      split
      · rw [deferBlock_allow]
        exact .completed _
      · exact .completed s
    | part | unrecognized =>
      simp only [visit]
      exact below s mode rfl
    | titleField | graphicsPath | path | heading | frameTitle | frameSubtitle | hline | cline =>
      exact .completed s

theorem visitAll_reveals (rules : InlineRules) (s : Inline) (mode : Mode) {pauses : Nat}
    (more : s.tracker.state.pauses ≤ pauses) :
    ∀ nodes : List Node, Reveals (allow pauses) Behind (visitAll rules s mode nodes)
      (visitAll rules (s.allow pauses) mode nodes)
  | [] => .completed s
  | n :: rest => by
    have first := visit_reveals rules s mode more n
    have restored := visit_restored rules s mode n
    rw [visitAll, visitAll]
    generalize visit rules s mode n = found at first restored
    generalize visit rules (s.allow pauses) mode n = foundMore at first
    cases first with
    | completed t => exact visitAll_reveals rules t mode ((restored rfl).state ▸ more) rest
    | @paused t u flow behind =>
      cases flow with
      | completed => exact .paused (behind.trans (behind_visitAll rules u mode rest))
      | paused => exact .paused behind

end

end Inline

end Unveil
