import Unveil.Proofs.Nested.Unpaused

namespace Unveil

/-- What a walk may stand in: its own surroundings, or a block that is put off if no pause counts. -/
def Surroundings.Fit (own q : Surroundings) (t : Tracker) : Prop := q = own ∨ q = .putOff ∧ t.ignoring = true

namespace Surroundings.Fit

variable {own inner q : Surroundings} {t u : Tracker}

/-- The same holds of the children. -/
theorem inside (fit : Fit own q t) {kind : NodeKind} (below : own.inside kind = some inner) :
    ∃ r, q.inside kind = some r ∧ Fit inner r t := by
  rcases fit with rfl | ⟨rfl, ignores⟩
  · exact ⟨inner, below, .inl rfl⟩
  · exact ⟨.putOff, rfl, .inr ⟨rfl, ignores⟩⟩

theorem tracker (fit : Fit own q t) (still : t.ignoring = true → u.ignoring = true) : Fit own q u :=
  fit.imp_right fun off => ⟨off.1, still off.2⟩

/-- No pause counts in a block that is put off. -/
theorem ignores {rules : InlineRules} (fit : Fit (.text rules) q t) (off : q = .putOff) : t.ignoring = true := by
  rcases fit with rfl | ⟨_, ignores⟩
  · cases off
  · exact ignores

theorem gate (fit : Fit own q t) (mode : Mode) (n : Node) : Fit own q (mode.gate n t).2 :=
  fit.tracker fun ignores => (mode.gate_ignoring n t).trans ignores

/-- The children of a node that a text walks into stand in the same. -/
theorem walked {rules : InlineRules} (fit : Fit (.text rules) q t) {kind : NodeKind}
    (walks : rules.putsOff kind = false) : q.inside kind = some q := by
  rcases fit with rfl | ⟨rfl, _⟩
  · rw [Surroundings.inside, walks]
    rfl
  · rfl

/-- A block that a text puts off has no pauses left. -/
theorem unpaused_putOff {rules : InlineRules} (fit : Fit (.text rules) q t) {n : Node}
    (puts : rules.putsOff n.kind = true) : n.unpaused q = n.unpaused .putOff := by
  rcases fit with rfl | ⟨rfl, _⟩
  · refine Node.unpaused_congr ?_
    rw [Surroundings.inside, puts]
    rfl
  · rfl

end Surroundings.Fit

open Surroundings (Fit)

/-- A pause that is not counted leaves no trace. -/
theorem Tracker.pause_ignoring {t : Tracker} (ignores : t.ignoring = true) : t.pause = (.completed, t) := by
  rw [pause, if_pos ignores]

/-- The block as it is put off from a tree without the pauses. -/
def Deferred.unpaused (d : Deferred) : Deferred := { d with node := d.node.unpaused .putOff }

theorem Mode.gate_unpaused (mode : Mode) (n : Node) (q : Surroundings) (t : Tracker) :
    mode.gate (n.unpaused q) t = mode.gate n t := by
  simp only [gate, veiled, Node.unpaused_overlay, Node.unpaused_kind]

theorem FaceStack.enter_unpaused (faces : FaceStack) (n : Node) (q : Surroundings) (apply : Bool) :
    faces.enter (n.unpaused q) apply = faces.enter n apply := by
  simp only [enter, Face.apply, Node.unpaused_kind, Node.unpaused_params, Node.unpaused_content?]

namespace Inline

/-- The text as it is written from a tree without the pauses. -/
def unpaused (s : Inline) : Inline := { s with deferred := s.deferred.map Deferred.unpaused }

section
variable (s : Inline) (q : Surroundings) (n : Node) (mode : Mode)

theorem append_unpaused (text : String) : s.unpaused.append text mode = (s.append text mode).unpaused :=
  append_aside s mode id (List.map Deferred.unpaused) text

theorem breakParagraph_unpaused : s.unpaused.breakParagraph mode = (s.breakParagraph mode).unpaused :=
  breakParagraph_aside s mode id (List.map Deferred.unpaused)

theorem startTable_unpaused : s.unpaused.startTable mode = (s.startTable mode).unpaused :=
  startTable_aside s mode id (List.map Deferred.unpaused)

theorem gate_unpaused : s.unpaused.gate (n.unpaused q) mode = ((s.gate n mode).1, (s.gate n mode).2.unpaused) := by
  unfold gate
  rw [Mode.gate_unpaused]
  rfl

theorem openStyle_unpaused : s.unpaused.openStyle (n.unpaused q) = (s.openStyle n).unpaused := by
  unfold openStyle
  rw [Node.unpaused_overlay]
  simp only [FaceStack.enter_unpaused]
  rfl

theorem startItem_unpaused : s.unpaused.startItem (n.unpaused q) mode = (s.startItem n mode).unpaused := by
  have sameTerm : s.unpaused.startItem (n.unpaused q) mode = s.unpaused.startItem n mode := by
    unfold startItem
    rw [Node.unpaused_params]
  rw [sameTerm]
  exact startItem_aside s n mode id (List.map Deferred.unpaused)

theorem ofFaces_unpaused (tracker : Tracker) (faces : FaceStack) (body : TextBody) :
    (ofFaces tracker faces body).unpaused = ofFaces tracker faces body := rfl

theorem closeStyle_unpaused : s.unpaused.closeStyle = s.closeStyle.unpaused := rfl

theorem openList_unpaused (kind : ListKind) : s.unpaused.openList kind = (s.openList kind).unpaused := rfl

theorem closeList_unpaused : s.unpaused.closeList = s.closeList.unpaused := rfl

theorem deferBlock_unpaused : s.unpaused.deferBlock (n.unpaused .putOff) mode = (s.deferBlock n mode).unpaused := by
  unfold deferBlock
  by_cases emits : mode.emits
  · rw [if_pos emits, if_pos emits, unpaused, unpaused, List.map_append]
    rfl
  · rw [if_neg emits, if_neg emits]

theorem andThen_unpaused {close : Inline → Inline} (closes : ∀ t, close (unpaused t) = (close t).unpaused)
    (found : Flow × Inline) :
    andThen close (Prod.map id unpaused found) = Prod.map id unpaused (andThen close found) := by
  obtain ⟨flow, t⟩ := found
  cases flow with
  | completed => exact congrArg (Flow.completed, ·) (closes t)
  | paused => rfl

/-- A pause that is not counted does not end the walk. -/
theorem meetPause_ignoring {s : Inline} (ignores : s.tracker.ignoring = true) : s.meetPause = (.completed, s) := by
  unfold meetPause
  rw [Tracker.pause_ignoring ignores]

theorem visit_pause {rules : InlineRules} {s : Inline} {n : Node} (kind : n.kind = .pause)
    (ignores : s.tracker.ignoring = true) : visit rules s mode n = (.completed, s) := by
  obtain ⟨_, _, _, _, _⟩ := n
  obtain rfl : _ = NodeKind.pause := kind
  exact meetPause_ignoring ignores

theorem meetPause_unpaused : s.unpaused.meetPause = Prod.map id unpaused s.meetPause := rfl

/-- A walk counts no pauses if it did not before. -/
theorem visit_ignoring {rules : InlineRules} (ignores : s.tracker.ignoring = true) :
    (visit rules s mode n).2.tracker.ignoring = true :=
  (Follows.ignoring (visit_leaves rules s [] mode n) ignores).2.1

theorem visitAll_ignoring {rules : InlineRules} (nodes : List Node) (ignores : s.tracker.ignoring = true) :
    (visitAll rules s mode nodes).2.tracker.ignoring = true :=
  (Follows.ignoring (visitAll_leaves rules s [] 0 mode nodes) ignores).2.1

end

mutual

/-- A node is walked in the same way without the pauses in blocks that are put off, and puts off the same blocks
without their pauses. -/
theorem visit_unpaused (rules : InlineRules) {q : Surroundings} (s : Inline) (mode : Mode)
    (fit : Fit (.text rules) q s.tracker) :
    ∀ n : Node, visit rules s.unpaused mode (n.unpaused q) = Prod.map id unpaused (visit rules s mode n)
  | ⟨kind, overlay, params, payload, children⟩ => by
    have own : Surroundings.inside (.text rules) kind =
        some (if rules.putsOff kind then .putOff else .text rules) := rfl
    obtain ⟨r, inside, _⟩ := fit.inside own
    have same := Node.unpaused_mk inside overlay params payload children
    -- a block that is put off is not walked here
    have off (puts : rules.putsOff kind = true) :
        s.unpaused.deferBlock (Node.unpaused q ⟨kind, overlay, params, payload, children⟩) mode =
          (s.deferBlock ⟨kind, overlay, params, payload, children⟩ mode).unpaused := by
      rw [fit.unpaused_putOff puts, deferBlock_unpaused]
    have below (walks : rules.putsOff kind = false) (t : Inline) (inner : Mode)
        (still : s.tracker.ignoring = true → t.tracker.ignoring = true) :
        visitAll rules t.unpaused inner (Node.unpausedAll r children) =
          Prod.map id unpaused (visitAll rules t inner children) := by
      obtain rfl : q = r := Option.some.inj ((fit.walked walks).symm.trans inside)
      exact visitAll_unpaused rules t inner (fit.tracker still) children
    have gated := gate_unpaused s q ⟨kind, overlay, params, payload, children⟩ mode
    have counts (t : Inline) (tracker : t.tracker = (mode.gate ⟨kind, overlay, params, payload, children⟩ s.tracker).2)
        (ignores : s.tracker.ignoring = true) : t.tracker.ignoring = true := by
      rw [tracker, Mode.gate_ignoring, ignores]
    rw [same] at off gated
    rw [same]
    cases kind with
    | text => exact congrArg (Flow.completed, ·) (append_unpaused s mode _)
    | paragraph | tableRow => exact congrArg (Flow.completed, ·) (breakParagraph_unpaused s mode)
    | tableColumn => exact congrArg (Flow.completed, ·) (append_unpaused s mode _)
    | titleField | graphicsPath | path | heading | frameTitle | frameSubtitle | hline | cline => rfl
    | pause => exact meetPause_unpaused s
    | style command =>
      have opened := openStyle_unpaused s q ⟨.style command, overlay, params, payload, children⟩
      rw [same] at opened
      simp only [visit]
      rw [opened, below rfl (s.openStyle _) mode id, andThen_unpaused closeStyle_unpaused]
    | veil | multiColumn =>
      simp only [visit]
      rw [gated]
      exact below rfl _ _ (counts _ rfl)
    | item =>
      have started := startItem_unpaused (s.gate ⟨.item, overlay, params, payload, children⟩ mode).2 q
        ⟨.item, overlay, params, payload, children⟩
      rw [same] at started
      simp only [visit]
      rw [gated, started]
      exact below rfl _ _ (counts _ (startItem_tracker _ _ _))
    | list kind =>
      simp only [visit]
      by_cases puts : rules.defers kind
      · rw [if_pos puts, if_pos puts, off puts]
        rfl
      · rw [if_neg puts, if_neg puts, gated, openList_unpaused, below (Bool.eq_false_iff.mpr puts) _ _ (counts _ rfl),
          andThen_unpaused closeList_unpaused]
    | tabular =>
      simp only [visit]
      by_cases puts : rules.policy = .defer
      · rw [if_pos puts, if_pos puts, off (decide_eq_true puts)]
        rfl
      · rw [if_neg puts, if_neg puts, gated]
        simp only [startTable_unpaused]
        exact below (decide_eq_false puts) _ _ (counts _ (startTable_tracker _ _))
    | image =>
      simp only [visit]
      by_cases puts : rules.policy = .defer
      · rw [if_pos puts, if_pos puts, off (decide_eq_true puts)]
        rfl
      · rw [if_neg puts, if_neg puts]
        rfl
    | titlePage =>
      simp only [visit]
      by_cases puts : rules.policy = .defer
      · rw [if_pos puts, if_pos puts, off (decide_eq_true puts)]
        rfl
      · rw [if_neg puts, if_neg puts]
        rfl
    | part | unrecognized =>
      simp only [visit]
      exact below rfl s mode id

theorem visitAll_unpaused (rules : InlineRules) {q : Surroundings} (s : Inline) (mode : Mode)
    (fit : Fit (.text rules) q s.tracker) :
    ∀ nodes : List Node,
      visitAll rules s.unpaused mode (Node.unpausedAll q nodes) = Prod.map id unpaused (visitAll rules s mode nodes)
  | [] => rfl
  | n :: rest => by
    by_cases left : q = .putOff ∧ n.kind = .pause
    · have met : visit rules s mode n = (.completed, s) := visit_pause mode left.2 (fit.ignores left.1)
      rw [left.1, Node.unpausedAll_pause left.2, ← left.1, visitAll, met]
      exact visitAll_unpaused rules s mode fit rest
    · rw [Node.unpausedAll_kept left, visitAll, visitAll, visit_unpaused rules s mode fit n]
      have after : Fit (.text rules) q (visit rules s mode n).2.tracker := fit.tracker (visit_ignoring s n mode)
      generalize visit rules s mode n = found at after
      obtain ⟨flow, t⟩ := found
      cases flow with
      | completed => exact visitAll_unpaused rules t mode after rest
      | paused => rfl

end

end Inline

end Unveil
