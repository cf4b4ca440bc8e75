import Unveil.Pass.Title
import Unveil.Proofs.Inline.Asks

namespace Unveil

namespace FrameTitle

/-- What a frame title asks: the overlay of each part before its text. -/
def asks (f : FrameTitle) : List Ask :=
  .part f.titleOverlay :: Inline.asksAll titleRules f.title ++
    match f.subtitle with
    | none => []
    | some nodes => .part f.subtitleOverlay :: Inline.asksAll titleRules nodes

theorem walkPart_answers (tracker : Tracker) (body : TextBody) (size : Float32) (overlay : Overlay)
    (nodes : List Node) :
    tracker.answer (.part overlay :: Inline.asksAll titleRules nodes) =
      some (Inline.verdict (walkPart tracker body size overlay nodes)) :=
  Inline.answer_asksAll titleRules (.ofFaces (tracker.observe overlay) (.ofBase size) body) _ nodes

theorem walk_answers (f : FrameTitle) (scale : Float32) (tracker : Tracker) :
    tracker.answer f.asks = some (Inline.verdict (f.walk scale tracker)) := by
  have title := walkPart_answers tracker (.ofSize (titleSize * scale)) (titleSize * scale)
    f.titleOverlay f.title
  unfold walk asks
  rcases found : walkPart tracker (.ofSize (titleSize * scale))
    (titleSize * scale) f.titleOverlay f.title
    with ⟨flow, text⟩
  rw [found] at title
  cases flow with
  | paused => exact Tracker.answer_append_paused title _
  | completed =>
    rw [Tracker.answer_append_completed title]
    cases f.subtitle with
    | none => rfl
    | some nodes => exact walkPart_answers _ _ _ _ nodes

/-- A frame title asks of a tracker of its own. -/
theorem render_answers (f : FrameTitle) (settings : Settings) (state : PassState) :
    (Tracker.ofState state).answer f.asks =
      some ((f.render settings state).flow, (f.render settings state).tracker) :=
  f.walk_answers settings.scale (.ofState state)

end FrameTitle

namespace TitlePage

def asksOf (parts : List (Option (List Node) × Float32)) : List Ask :=
  parts.flatMap fun part => (part.1.map (Inline.asksAll titleRules)).getD []

/-- What a title page asks, without the overlay of the node that places it. -/
def asks (p : TitlePage) : List Ask := asksOf p.parts

theorem walkPart_answers (w : Walk) (size width : Float32) (mode : Mode) (nodes : List Node) :
    w.tracker.answer (Inline.asksAll titleRules nodes) =
      some ((walkPart w size width mode nodes).1, (walkPart w size width mode nodes).2.tracker) := by
  have answer := Inline.answer_asksAll titleRules
    (.ofFaces w.tracker (.ofBase size) ((TextBody.ofSize size).setAlign .center)) mode nodes
  unfold walkPart
  refine answer.trans ?_
  simp only [Inline.verdict]
  split <;> rfl

theorem walk_answers (w : Walk) (base width : Float32) (mode : Mode)
    (parts : List (Option (List Node) × Float32)) :
    w.tracker.answer (asksOf parts) =
      some ((walk w base width mode parts).1, (walk w base width mode parts).2.tracker) := by
  induction parts generalizing w with
  | nil => rfl
  | cons part rest ih =>
    obtain ⟨nodes?, factor⟩ := part
    simp only [asksOf, List.flatMap_cons] at ih ⊢
    cases nodes? with
    | none => exact ih w
    | some nodes =>
      have first := walkPart_answers w (base * factor) width mode nodes
      simp only [Option.map_some, Option.getD_some, walk]
      rcases found : walkPart w (base * factor) width mode nodes with ⟨flow, v⟩
      rw [found] at first
      cases flow with
      | completed => exact (Tracker.answer_append_completed first _).trans (ih v)
      | paused => exact Tracker.answer_append_paused first _

/-- A title page asks of the tracker of the slide. -/
theorem render_answers (p : TitlePage) (tracker : Tracker) (base width : Float32) (mode : Mode) :
    tracker.answer p.asks =
      some ((p.render tracker base width mode).2.1, (p.render tracker base width mode).2.2) :=
  walk_answers ⟨[], 0.0, tracker⟩ base width mode p.parts

end TitlePage

end Unveil
