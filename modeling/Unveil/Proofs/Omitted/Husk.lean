import Unveil.Proofs.Inline.Asks

namespace Unveil

@[simp]
theorem Mode.omitted_max (m : Mode) : Mode.omitted.max m = .omitted := by cases m <;> rfl

/-- The tracker behind a gate, which does not depend on the mode. -/
def Tracker.note (t : Tracker) (overlay : Overlay) : Tracker :=
  if overlay.isUnrestricted then t else t.observe overlay

namespace Node

/-- An overlay of which the bound is noted, without any content. -/
def bound (overlay : Overlay) : Node := ⟨.style .bold, overlay, "", none, []⟩

/-- Content under an overlay. -/
def scope (overlay : Overlay) (children : List Node) : Node := ⟨.veil .uncover, overlay, "", none, children⟩

mutual

/-- `true` for a pause, and for a style or an overlay with nothing else in it. -/
def isBare : Node → Bool
  | ⟨kind, _, _, _, children⟩ =>
    match kind with
    | .pause => true
    | .style _ | .veil _ => areBare children
    | _ => false

def areBare : List Node → Bool
  | [] => true
  | n :: rest => isBare n && areBare rest

end

theorem areBare_append (nodes more : List Node) : areBare (nodes ++ more) = (areBare nodes && areBare more) := by
  induction nodes with
  | nil => rfl
  | cons n rest ih => rw [List.cons_append, areBare, areBare, ih, Bool.and_assoc]

end Node

namespace TextBody

theorem mapLast_untouched {f : Paragraph → Paragraph} (still : ∀ p, p.isUntouched = true → (f p).isUntouched = true)
    {ps : List Paragraph} (untouched : ps.all Paragraph.isUntouched = true) :
    (mapLast f ps).all Paragraph.isUntouched = true := by
  induction ps with
  | nil => rfl
  | cons p rest ih =>
    obtain ⟨first, others⟩ := Bool.and_eq_true_iff.mp (List.all_cons ▸ untouched)
    cases rest with
    | nil => exact Bool.and_eq_true_iff.mpr ⟨still p first, rfl⟩
    | cons => exact Bool.and_eq_true_iff.mpr ⟨first, ih others⟩

theorem mapCurrent_blank {f : Paragraph → Paragraph} (still : ∀ p, p.isUntouched = true → (f p).isUntouched = true)
    {b : TextBody} (blank : b.isBlank = true) : (b.mapCurrent f).isBlank = true := by
  refine mapLast_untouched still ?_
  obtain ⟨paragraphs⟩ := b
  cases paragraphs with
  | nil => rfl
  | cons => exact blank

end TextBody

namespace Inline

mutual

/-- The pauses and overlays of a node and the lists that are open around them. -/
def husk (rules : InlineRules) : Node → List Node
  | n@⟨kind, overlay, params, payload, children⟩ =>
    match kind with
    | .pause => [n]
    | .style _ => [⟨kind, overlay, params, payload, huskAll rules children⟩]
    | .veil _ | .multiColumn | .item => [.scope overlay (huskAll rules children)]
    | .list list => if rules.defers list then [] else [⟨.list list, overlay, "", none, huskAll rules children⟩]
    | .tabular => if rules.policy = .defer then [] else [.scope overlay (huskAll rules children)]
    | .image => if rules.policy = .defer then [] else [.bound overlay]
    | .part _ | .unrecognized _ => huskAll rules children
    | .text | .paragraph | .tableRow | .tableColumn | .titlePage | .titleField _ | .graphicsPath
    | .path | .heading _ | .frameTitle | .frameSubtitle | .hline | .cline => []

def huskAll (rules : InlineRules) : List Node → List Node
  | [] => []
  | n :: rest => husk rules n ++ huskAll rules rest

end

/-- The walk behind a gate. -/
def note (s : Inline) (overlay : Overlay) : Inline := { s with tracker := s.tracker.note overlay }

theorem gate_eq (s : Inline) (n : Node) (mode : Mode) :
    s.gate n mode = ((mode.gate n s.tracker).1, s.note n.overlay) := by
  rw [gate, note, Tracker.note, ← Mode.gate_snd mode]

theorem gate_omitted (s : Inline) (n : Node) : s.gate n .omitted = (.omitted, s.note n.overlay) := by
  rw [gate_eq, Mode.gate_fst, Mode.omitted_max]

/-- Nothing that is written changes an omitted text. -/
theorem startItem_omitted (s : Inline) (n : Node) : s.startItem n .omitted = s := rfl

mutual

/-- An omitted node does what its husk does in any mode: its pauses and overlays are met in their scopes, and its
lists are opened around them. -/
theorem visitAll_husk (rules : InlineRules) (s : Inline) (mode : Mode) :
    ∀ n : Node, visitAll rules s mode (husk rules n) = visit rules s .omitted n
  | ⟨kind, overlay, params, payload, children⟩ => by
    have inScope : visitAll rules s mode [.scope overlay (huskAll rules children)] =
        visitAll rules (s.note overlay) .omitted children := by
      rw [visitAll_singleton]
      simp only [Node.scope, visit, gate_eq]
      exact visitAll_huskAll rules (s.note overlay) _ children
    cases kind with
    | text | paragraph | tableRow | tableColumn => rfl
    | titleField | graphicsPath | path | heading | frameTitle | frameSubtitle | hline | cline => rfl
    | titlePage =>
      simp only [husk, visit, deferBlock]
      split <;> rfl
    | pause => exact visitAll_singleton ..
    | style command =>
      simp only [husk, visitAll_singleton, visit]
      exact congrArg (andThen closeStyle) (visitAll_huskAll rules _ mode children)
    | veil | multiColumn =>
      simp only [visit, gate_omitted]
      exact inScope
    | item =>
      simp only [visit, gate_omitted, startItem_omitted]
      exact inScope
    | list kind =>
      simp only [husk, visit]
      split
      · rfl
      · rename_i walks
        simp only [visitAll_singleton, visit, walks, gate_omitted]
        simp only [gate_eq]
        exact congrArg (andThen closeList) (visitAll_huskAll rules _ _ children)
    | tabular =>
      simp only [husk, visit, gate_omitted]
      split
      · rfl
      · exact inScope
    | image =>
      simp only [husk, visit]
      split
      · rfl
      · exact visitAll_singleton ..
    | part | unrecognized => exact visitAll_huskAll rules s mode children

theorem visitAll_huskAll (rules : InlineRules) (s : Inline) (mode : Mode) :
    ∀ nodes : List Node, visitAll rules s mode (huskAll rules nodes) = visitAll rules s .omitted nodes
  | [] => rfl
  | n :: rest => by
    rw [huskAll, visitAll_append, visitAll_husk rules s mode n, visitAll]
    rcases visit rules s .omitted n with ⟨flow, t⟩
    cases flow with
    | completed => exact visitAll_huskAll rules t mode rest
    | paused => rfl

end

/-- A list that opens in a blank text leaves it blank. -/
theorem openList_blank {s : Inline} (blank : s.body.isBlank = true) (kind : ListKind) :
    (s.openList kind).body.isBlank = true := by
  unfold openList
  dsimp only
  split
  · exact blank
  · refine TextBody.mapCurrent_blank (fun p untouched => ?_) blank
    split
    · rename_i empty
      exact Bool.and_eq_true_iff.mpr ⟨empty, rfl⟩
    · exact untouched

theorem andThen_body {close : Inline → Inline} (still : ∀ s, (close s).body = s.body) (found : Flow × Inline) :
    (andThen close found).2.body = found.2.body := by
  obtain ⟨flow, s⟩ := found
  cases flow with
  | completed => exact still s
  | paused => rfl

mutual

/-- A blank text in which everything is omitted stays blank. -/
theorem visit_omitted_blank (rules : InlineRules) {s : Inline} (blank : s.body.isBlank = true) :
    ∀ n : Node, (visit rules s .omitted n).2.body.isBlank = true
  | ⟨kind, overlay, params, payload, children⟩ => by
    cases kind with
    | style command =>
      simp only [visit]
      rw [@andThen_body closeStyle fun _ => rfl]
      exact visitAll_omitted_blank rules (s := s.openStyle _) blank children
    | veil | multiColumn | item =>
      simp only [visit, gate_omitted]
      exact visitAll_omitted_blank rules (s := s.note overlay) blank children
    | list kind =>
      simp only [visit, gate_omitted]
      split
      · exact blank
      · rw [@andThen_body closeList fun _ => rfl]
        exact visitAll_omitted_blank rules (openList_blank (s := s.note overlay) blank kind) children
    | tabular =>
      simp only [visit, gate_omitted]
      split
      · exact blank
      · exact visitAll_omitted_blank rules (s := s.note overlay) blank children
    | image | titlePage =>
      simp only [visit]
      split <;> exact blank
    | part | unrecognized => exact visitAll_omitted_blank rules blank children
    | _ => exact blank

theorem visitAll_omitted_blank (rules : InlineRules) {s : Inline} (blank : s.body.isBlank = true) :
    ∀ nodes : List Node, (visitAll rules s .omitted nodes).2.body.isBlank = true
  | [] => blank
  | n :: rest => by
    have first := visit_omitted_blank rules blank n
    rw [visitAll]
    generalize visit rules s .omitted n = found at first
    obtain ⟨flow, t⟩ := found
    cases flow with
    | completed => exact visitAll_omitted_blank rules first rest
    | paused => exact first

end

end Inline

end Unveil
