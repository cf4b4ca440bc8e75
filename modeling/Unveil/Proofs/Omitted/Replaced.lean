import Mathlib.Data.List.Forall2
import Unveil.Pass.Title
import Unveil.Proofs.Nested.Unpaused
import Unveil.Proofs.Omitted.Husk

namespace Unveil

/-- `true` for a node whose children are content of the slide where the node is. -/
def NodeKind.holdsContent : NodeKind → Bool
  | .style _ | .veil _ | .item | .multiColumn | .part _ | .unrecognized _ => true
  | _ => false

/-- The rules for text in a node of the slide. -/
def NestedPolicy.rulesIn (policy : NestedPolicy) : NodeKind → InlineRules
  | .list .bullet | .list .numbered => ⟨policy, true⟩
  | .titleField _ => titleRules
  | _ => ⟨policy, false⟩

/-- The rules for text in a node of a text. -/
def InlineRules.below (rules : InlineRules) (kind : NodeKind) : InlineRules :=
  if rules.putsOff kind then rules.policy.rulesIn kind else rules

theorem Overlay.restricted_of_unseen {overlay : Overlay} {pass : Nat} (unseen : overlay.visible pass = false) :
    overlay.isUnrestricted = false := by
  cases free : overlay.isUnrestricted with
  | false => rfl
  | true =>
    have shown : overlay.visible pass = true := by
      simp only [isUnrestricted] at free
      simp [visible, OverlaySet.visible, free]
    exact absurd (shown.symm.trans unseen) (by decide)

theorem Tracker.note_pass (t : Tracker) (overlay : Overlay) : (t.note overlay).pass = t.pass := by
  unfold note
  split <;> rfl

theorem Mode.gate_unseen {n : Node} {t : Tracker} (only : n.kind = .veil .only)
    (unseen : n.overlay.visible t.pass = false) (mode : Mode) : (mode.gate n t).1 = .omitted := by
  rw [gate_fst, ofNode, unseen, veiled, only]
  cases mode <;> rfl

namespace Inline

mutual

/-- Nodes of a text of which the second is the first with husks instead of content that is omitted on a pass. -/
inductive Replaced (pass : Nat) : InlineRules → Node → Node → Prop
  | omitted {rules : InlineRules} {n : Node} (only : n.kind = .veil .only) (unseen : n.overlay.visible pass = false) :
    Replaced pass rules n (.scope .none (.bound n.overlay :: huskAll rules n.children))
  | within {rules : InlineRules} {kind : NodeKind} {overlay : Overlay} {params : String} {payload : Option Payload}
    {children others : List Node} (inside : ReplacedAll pass (rules.below kind) children others) :
    Replaced pass rules ⟨kind, overlay, params, payload, children⟩ ⟨kind, overlay, params, payload, others⟩

inductive ReplacedAll (pass : Nat) : InlineRules → List Node → List Node → Prop
  | nil {rules : InlineRules} : ReplacedAll pass rules [] []
  | cons {rules : InlineRules} {n n' : Node} {rest rest' : List Node} (first : Replaced pass rules n n')
    (others : ReplacedAll pass rules rest rest') : ReplacedAll pass rules (n :: rest) (n' :: rest')

end

mutual

theorem Replaced.refl (pass : Nat) : ∀ (rules : InlineRules) (n : Node), Replaced pass rules n n
  | rules, ⟨kind, _, _, _, children⟩ => .within (ReplacedAll.refl pass (rules.below kind) children)

theorem ReplacedAll.refl (pass : Nat) : ∀ (rules : InlineRules) (nodes : List Node), ReplacedAll pass rules nodes nodes
  | _, [] => .nil
  | rules, n :: rest => .cons (Replaced.refl pass rules n) (ReplacedAll.refl pass rules rest)

end

end Inline

/-- Blocks of which the second is the first with husks instead of content that is omitted on a pass. -/
inductive BlockReplaced (pass : Nat) (policy : NestedPolicy) : Node → Node → Prop
  | mk {kind : NodeKind} {overlay : Overlay} {params : String} {payload : Option Payload} {children others : List Node}
    (block : kind.holdsContent = false) (inside : Inline.ReplacedAll pass (policy.rulesIn kind) children others) :
    BlockReplaced pass policy ⟨kind, overlay, params, payload, children⟩ ⟨kind, overlay, params, payload, others⟩

/-- Blocks that are put off in the same mode. -/
def Deferred.Replaced (pass : Nat) (policy : NestedPolicy) (d d' : Deferred) : Prop :=
  d.mode = d'.mode ∧ BlockReplaced pass policy d.node d'.node

namespace Inline

/-- Texts that are the same but for husks in the blocks that they have put off. -/
structure Beside (pass : Nat) (policy : NestedPolicy) (s s' : Inline) : Prop where
  same : s' = s.aside id fun _ => s'.deferred
  deferred : List.Forall₂ (Deferred.Replaced pass policy) s.deferred s'.deferred

/-- Walks that end in the same way. -/
def EndBeside (pass : Nat) (policy : NestedPolicy) (found other : Flow × Inline) : Prop :=
  found.1 = other.1 ∧ Beside pass policy found.2 other.2

variable {pass : Nat} {policy : NestedPolicy} {s s' t : Inline}

/-- A step that does not look at what was put off. -/
theorem Beside.step (step : Inline → Inline)
    (commutes : ∀ q, step (s.aside id fun _ => q) = (step s).aside id fun _ => q)
    (still : (step s).deferred = s.deferred) (beside : Beside pass policy s s') :
    Beside pass policy (step s) (step s') := by
  have moved := commutes s'.deferred
  rw [← beside.same] at moved
  refine ⟨?_, ?_⟩
  · rw [moved]
    rfl
  · rw [moved, still]
    exact beside.deferred

theorem Beside.tracker (beside : Beside pass policy s s') : s'.tracker = s.tracker := by
  rw [beside.same]
  rfl

theorem Beside.note (beside : Beside pass policy s s') (overlay : Overlay) :
    Beside pass policy (s.note overlay) (s'.note overlay) :=
  Beside.step (Inline.note · overlay) (fun _ => rfl) rfl beside

/-- A gate depends on the kind and the overlay of its node only. -/
theorem Beside.gate (beside : Beside pass policy s s') {n n' : Node} (kind : n'.kind = n.kind)
    (overlay : n'.overlay = n.overlay) (mode : Mode) :
    (s'.gate n' mode).1 = (s.gate n mode).1 ∧ Beside pass policy (s.gate n mode).2 (s'.gate n' mode).2 := by
  rw [gate_eq, gate_eq, beside.tracker, Mode.gate_fst, Mode.gate_fst, Mode.ofNode, Mode.ofNode, Mode.veiled,
    Mode.veiled, kind, overlay]
  exact ⟨rfl, beside.note n.overlay⟩

theorem gate_pass (s : Inline) (n : Node) (mode : Mode) : (s.gate n mode).2.tracker.pass = s.tracker.pass := by
  rw [gate_eq]
  exact s.tracker.note_pass n.overlay

/-- A pause is met by the tracker. -/
theorem Beside.meetPause (beside : Beside pass policy s s') : EndBeside pass policy s.meetPause s'.meetPause := by
  unfold Inline.meetPause
  rw [beside.tracker]
  exact ⟨rfl, beside.step (fun t => { t with tracker := s.tracker.pause.2 }) (fun _ => rfl) rfl⟩

theorem Beside.startItem (beside : Beside pass policy s s') (n : Node) (mode : Mode) :
    Beside pass policy (s.startItem n mode) (s'.startItem n mode) :=
  Beside.step (Inline.startItem · n mode) (fun _ => startItem_aside ..) (startItem_deferred ..) beside

theorem Beside.startTable (beside : Beside pass policy s s') (mode : Mode) :
    Beside pass policy (s.startTable mode) (s'.startTable mode) :=
  Beside.step (Inline.startTable · mode) (fun _ => startTable_aside ..) (startTable_deferred ..) beside

theorem EndBeside.andThen {close : Inline → Inline} {found other : Flow × Inline}
    (closes : ∀ {t u}, Beside pass policy t u → Beside pass policy (close t) (close u))
    (ends : EndBeside pass policy found other) : EndBeside pass policy (andThen close found) (andThen close other) := by
  obtain ⟨flow, t⟩ := found
  obtain ⟨_, u⟩ := other
  obtain ⟨rfl, beside⟩ := ends
  cases flow with
  | completed => exact ⟨rfl, closes beside⟩
  | paused => exact ⟨rfl, beside⟩

theorem Beside.deferBlock (beside : Beside pass policy s s') {n n' : Node} (block : BlockReplaced pass policy n n')
    (mode : Mode) : Beside pass policy (s.deferBlock n mode) (s'.deferBlock n' mode) := by
  unfold Inline.deferBlock
  split
  · refine ⟨?_, List.rel_append beside.deferred (.cons ⟨rfl, block⟩ .nil)⟩
    conv => lhs; rw [beside.same]
    rfl
  · exact beside

/-- Husks in place of omitted content are walked as this content is. -/
theorem visit_husks (rules : InlineRules) (s : Inline) (mode : Mode) {overlay : Overlay}
    (restricted : overlay.isUnrestricted = false) (children : List Node) :
    visit rules s mode (.scope .none (.bound overlay :: huskAll rules children)) =
      visitAll rules (s.note overlay) .omitted children := by
  have noted : s.note overlay = { s with tracker := s.tracker.observe overlay } := by
    rw [note, Tracker.note, restricted]
    rfl
  rw [noted, ← visitAll_huskAll rules _ mode]
  rfl

/-- A walk stays on its pass. -/
theorem visit_pass (rules : InlineRules) (s : Inline) (mode : Mode) (n : Node) :
    (visit rules s mode n).2.tracker.pass = s.tracker.pass :=
  congrArg PassState.pass (Tracker.answer_state (answer_asks rules s mode n))

mutual

/-- A node with husks is walked in the same way. -/
theorem visit_replaced {rules : InlineRules} {s s' : Inline} (mode : Mode)
    (beside : Beside s.tracker.pass rules.policy s s') :
    ∀ {n n' : Node}, Replaced s.tracker.pass rules n n' →
      EndBeside s.tracker.pass rules.policy (visit rules s mode n) (visit rules s' mode n')
  | ⟨kind, overlay, params, payload, children⟩, _, replaced => by
    cases replaced with
    | omitted only unseen =>
      -- both walk the children omitted, the one as they are and the other as husks
      obtain ⟨_, rfl⟩ : ∃ veil, kind = .veil veil := ⟨_, only⟩
      have gated := Mode.gate_unseen only unseen mode
      have same := ReplacedAll.refl s.tracker.pass rules children
      have state := s.tracker.note_pass overlay
      rw [visit_husks rules s' mode (Overlay.restricted_of_unseen unseen)]
      simp only [visit, gate_eq, gated]
      rw [← state] at same ⊢
      exact visitAll_replaced .omitted (state ▸ beside.note overlay) same
    | within inside =>
      rename_i others
      have putOff (puts : rules.putsOff kind = true) (block : kind.holdsContent = false) :
          Beside s.tracker.pass rules.policy (s.deferBlock ⟨kind, overlay, params, payload, children⟩ mode)
            (s'.deferBlock ⟨kind, overlay, params, payload, others⟩ mode) := by
        rw [InlineRules.below, if_pos puts] at inside
        exact beside.deferBlock (.mk block inside) mode
      have below (walks : rules.putsOff kind = false) {t t' : Inline} (inner : Mode)
          (still : Beside s.tracker.pass rules.policy t t') (state : t.tracker.pass = s.tracker.pass) :
          EndBeside s.tracker.pass rules.policy (visitAll rules t inner children) (visitAll rules t' inner others) := by
        rw [InlineRules.below, if_neg (Bool.eq_false_iff.mp walks)] at inside
        rw [← state] at inside still ⊢
        exact visitAll_replaced inner still inside
      have gate := @Beside.gate _ _ s s' beside ⟨kind, overlay, params, payload, children⟩
        ⟨kind, overlay, params, payload, others⟩ rfl rfl mode
      have state := gate_pass s ⟨kind, overlay, params, payload, children⟩ mode
      cases kind with
      | text | tableColumn =>
        exact ⟨rfl, beside.step (·.append _ mode) (fun _ => append_aside ..) (append_deferred ..)⟩
      | paragraph | tableRow =>
        exact ⟨rfl, beside.step (·.breakParagraph mode) (fun _ => breakParagraph_aside ..) (breakParagraph_deferred ..)⟩
      | titleField | graphicsPath | path | heading | frameTitle | frameSubtitle | hline | cline => exact ⟨rfl, beside⟩
      | pause => exact beside.meetPause
      | style command =>
        have opened := beside.step (·.openStyle ⟨.style command, overlay, params, payload, children⟩) (fun _ => rfl) rfl
        simp only [visit]
        exact (below rfl mode opened rfl).andThen fun still => still.step closeStyle (fun _ => rfl) rfl
      | veil | multiColumn =>
        simp only [visit, gate.1]
        exact below rfl _ gate.2 state
      | item =>
        simp only [visit, gate.1]
        exact below rfl _ (gate.2.startItem _ _) ((congrArg Tracker.pass (startItem_tracker ..)).trans state)
      | list kind =>
        simp only [visit, gate.1]
        split
        · rename_i puts
          exact ⟨rfl, putOff puts rfl⟩
        · rename_i walks
          have opened := gate.2.step (·.openList kind) (fun _ => rfl) rfl
          exact (below (Bool.eq_false_iff.mpr walks) _ opened state).andThen fun still =>
            still.step closeList (fun _ => rfl) rfl
      | tabular =>
        simp only [visit, gate.1]
        split
        · rename_i puts
          exact ⟨rfl, putOff (decide_eq_true puts) rfl⟩
        · rename_i walks
          exact below (decide_eq_false walks) _ (gate.2.startTable _)
            ((congrArg Tracker.pass (startTable_tracker ..)).trans state)
      | image =>
        simp only [visit, beside.tracker]
        split
        · rename_i puts
          exact ⟨rfl, putOff (decide_eq_true puts) rfl⟩
        · exact ⟨rfl, beside.step (fun t => { t with tracker := s.tracker.observe overlay }) (fun _ => rfl) rfl⟩
      | titlePage =>
        simp only [visit]
        split
        · rename_i puts
          exact ⟨rfl, putOff (decide_eq_true puts) rfl⟩
        · exact ⟨rfl, beside⟩
      | part | unrecognized => exact below rfl mode beside rfl

/-- A text with husks is walked in the same way, and so are the blocks that it puts off. -/
theorem visitAll_replaced {rules : InlineRules} {s s' : Inline} (mode : Mode)
    (beside : Beside s.tracker.pass rules.policy s s') :
    ∀ {nodes others : List Node}, ReplacedAll s.tracker.pass rules nodes others →
      EndBeside s.tracker.pass rules.policy (visitAll rules s mode nodes) (visitAll rules s' mode others)
  | [], _, replaced => by
    cases replaced
    exact ⟨rfl, beside⟩
  | n :: rest, _, replaced => by
    cases replaced with
    | cons first others =>
      have here := visit_replaced mode beside first
      have state := visit_pass rules s mode n
      rw [visitAll, visitAll]
      generalize visit rules s mode n = found at here state
      generalize visit rules s' mode _ = other at here
      obtain ⟨flow, t⟩ := found
      obtain ⟨_, u⟩ := other
      obtain ⟨rfl, still⟩ := here
      cases flow with
      | completed =>
        rw [← state] at still others ⊢
        exact visitAll_replaced mode still others
      | paused => exact ⟨rfl, still⟩

end

end Inline

end Unveil
