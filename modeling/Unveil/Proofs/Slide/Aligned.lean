import Mathlib.Data.List.Forall2
import Unveil.Proofs.Except
import Unveil.Proofs.Single.Sum
import Unveil.Proofs.Slot.Slide

namespace Unveil

namespace Pass

/-- All shapes end at or above the bottom of an area. -/
def EndsInside (area : Rect) (p : Pass) : Prop := ∀ s ∈ p.shapes, s.bounds.bottom ≤ area.bottom

instance (area : Rect) (p : Pass) : Decidable (p.EndsInside area) := by
  unfold EndsInside
  infer_instance

/-- The content of a pass moved down; the title stays. -/
def moveDown (p : Pass) (dy : Float32) : Pass := { p with shapes := p.shapes.map fun s => s.moveDown dy }

end Pass

theorem Shape.bottom_moveDown (s : Shape) (dy : Float32) :
    (s.moveDown dy).bounds.bottom = s.bounds.top + dy + s.bounds.height := by
  cases s <;> rfl

namespace Pass

theorem endsInside_moveDown {area : Rect} {p : Pass} {dy : Float32} :
    (p.moveDown dy).EndsInside area ↔ ∀ s ∈ p.shapes, s.bounds.top + dy + s.bounds.height ≤ area.bottom := by
  refine List.forall_mem_map.trans (forall₂_congr fun s _ => ?_)
  rw [s.bottom_moveDown]

/-- Where the shapes stand decides, not what they show. -/
theorem endsInside_congr {area : Rect} {p q : Pass}
    (same : p.shapes.map Shape.outline = q.shapes.map Shape.outline) : p.EndsInside area ↔ q.EndsInside area := by
  have drawn (p : Pass) : p.EndsInside area ↔ ∀ s ∈ p.shapes.map Shape.outline, s.bounds.bottom ≤ area.bottom := by
    refine Iff.trans ?_ List.forall_mem_map.symm
    simp only [EndsInside, Shape.outline_bounds]
  rw [drawn, drawn, same]

end Pass

/-- A shape that starts no lower than another and is no higher. -/
structure Shape.Within (s t : Shape) : Prop where
  top : s.bounds.top ≤ t.bounds.top
  height : s.bounds.height ≤ t.bounds.height
  finiteTop : s.bounds.top.isFinite = true
  finiteHeight : s.bounds.height.isFinite = true

instance (s t : Shape) : Decidable (s.Within t) :=
  decidable_of_iff (s.bounds.top ≤ t.bounds.top ∧ s.bounds.height ≤ t.bounds.height ∧
      s.bounds.top.isFinite = true ∧ s.bounds.height.isFinite = true)
    ⟨fun ⟨top, height, finiteTop, finiteHeight⟩ => ⟨top, height, finiteTop, finiteHeight⟩,
      fun within => ⟨within.top, within.height, within.finiteTop, within.finiteHeight⟩⟩

namespace Shape.Within

variable {s t : Shape} {limit dy : Float32}

theorem numbers (within : s.Within t) : Size.Number s.bounds.top ∧ Size.Number s.bounds.height :=
  ⟨(Size.numbers_of_le within.top).1, (Size.numbers_of_le within.height).1⟩

theorem bottom_le (within : s.Within t) (inside : t.bounds.bottom ≤ limit) : s.bounds.bottom ≤ limit := by
  have number : Size.Number (s.bounds.top + s.bounds.height) :=
    Size.number_add within.numbers.1 within.numbers.2 (.inl within.finiteTop)
  calc s.bounds.bottom ≤ t.bounds.bottom :=
        Size.add_mono within.top within.height number (Size.numbers_of_le inside).1
    _ ≤ limit := inside

/-- Moved down by the same, two shapes stay in their order, because rounding a sum keeps the order. -/
theorem bottom_moveDown_le (within : s.Within t) (inside : (t.moveDown dy).bounds.bottom ≤ limit) :
    (s.moveDown dy).bounds.bottom ≤ limit := by
  rw [bottom_moveDown] at inside ⊢
  obtain ⟨moved, -⟩ := Size.numbers_of_add (Size.numbers_of_le inside).1
  obtain ⟨-, shift⟩ := Size.numbers_of_add moved
  have number : Size.Number (s.bounds.top + dy) := Size.number_add within.numbers.1 shift (.inl within.finiteTop)
  have number' : Size.Number (s.bounds.top + dy + s.bounds.height) :=
    Size.number_add number within.numbers.2 (.inr within.finiteHeight)
  have tops : s.bounds.top + dy ≤ t.bounds.top + dy := Size.add_mono within.top (Size.le_self shift) number moved
  calc s.bounds.top + dy + s.bounds.height ≤ t.bounds.top + dy + t.bounds.height :=
        Size.add_mono tops within.height number' (Size.numbers_of_le inside).1
    _ ≤ limit := inside

end Shape.Within

namespace Pass

/-- Every shape stands within one of another pass. -/
def Within (p q : Pass) : Prop := ∀ s ∈ p.shapes, ∃ t ∈ q.shapes, s.Within t

instance (p q : Pass) : Decidable (p.Within q) := by
  unfold Within
  infer_instance

variable {area : Rect} {p q : Pass}

theorem Within.endsInside (within : p.Within q) (inside : q.EndsInside area) : p.EndsInside area := by
  intro s atS
  obtain ⟨t, atT, shapes⟩ := within s atS
  exact shapes.bottom_le (inside t atT)

theorem Within.endsInside_moveDown {dy : Float32} (within : p.Within q) (inside : (q.moveDown dy).EndsInside area) :
    (p.moveDown dy).EndsInside area := by
  refine List.forall_mem_map.mpr fun s atS => ?_
  obtain ⟨t, atT, shapes⟩ := within s atS
  exact shapes.bottom_moveDown_le (List.forall_mem_map.mp inside t atT)

end Pass

namespace SlideJob

variable {j : SlideJob} {settings : Settings} {findImage : ImageFinder}

/-- A run that ends has a last pass. -/
theorem exists_last (state : PassState) (maxPass : Nat) {passes : List Pass}
    (ran : j.passesFrom settings findImage state maxPass = .ok passes) : ∃ last, passes.getLast? = some last := by
  refine ⟨_, List.getLast?_eq_some_getLast ?_⟩
  rintro rfl
  fun_induction j.passesFrom settings findImage state maxPass with
  | case4 =>
    obtain ⟨_, _, made⟩ := map_eq_ok_iff.mp ran
    cases made
  | _ => cases ran

/-- All passes move down by the room that the last of them leaves, so that a shape keeps its place from pass
to pass. -/
theorem alignPasses_of_last (area : Rect) (align : VerticalAlign) {passes : List Pass} {last : Pass}
    (isLast : passes.getLast? = some last) :
    (freeShift? area align last = none → alignPasses area align passes = passes) ∧
      ∀ dy, freeShift? area align last = some dy →
        alignPasses area align passes = passes.map fun p => p.moveDown dy := by
  unfold alignPasses
  rw [isLast, Option.bind_some]
  constructor
  · intro still
    rw [still]
  · intro dy moved
    rw [moved]
    rfl

/-- A pass stays inside the area of the content unless the room of the last pass pushes one of its shapes
past the bottom. Alignment to the top pushes nothing. -/
theorem compose_keepsInside {slide : ComposedSlide} (composed : j.compose settings findImage = .ok slide) :
    ∃ passes last, j.passesFrom settings findImage .first 1 = .ok passes ∧ passes.getLast? = some last ∧
      List.Forall₂
        (fun before after =>
          Pass.EndsInside (j.contentArea settings) after ↔
            (freeShift? (j.contentArea settings) j.align last = none →
              Pass.EndsInside (j.contentArea settings) before) ∧
            ∀ dy, freeShift? (j.contentArea settings) j.align last = some dy →
              ∀ s ∈ before.shapes, s.bounds.top + dy + s.bounds.height ≤ (j.contentArea settings).bottom)
        passes slide.passes := by
  obtain ⟨passes, ran, rfl⟩ := map_eq_ok_iff.mp composed
  obtain ⟨last, isLast⟩ := exists_last .first 1 ran
  obtain ⟨still, moved⟩ := alignPasses_of_last (j.contentArea settings) j.align isLast
  refine ⟨passes, last, ran, isLast, ?_⟩
  dsimp only
  cases shift : freeShift? (j.contentArea settings) j.align last with
  | none =>
    rw [still shift, List.forall₂_same]
    exact fun p _ => ⟨fun inside => ⟨fun _ => inside, nofun⟩, fun ⟨inside, _⟩ => inside rfl⟩
  | some dy =>
    rw [moved dy shift, List.forall₂_map_right_iff, List.forall₂_same]
    intro p _
    rw [Pass.endsInside_moveDown]
    exact ⟨fun inside => ⟨nofun, fun _ same => Option.some.inj same ▸ inside⟩, fun ⟨_, inside⟩ => inside dy rfl⟩

/-- A page in its own size, with 500 points of content between margins of 20. -/
def plainPage : Settings := { Settings.standard with adjustSize := false, geometry := ⟨720, 540, 20, 28⟩ }

/-- Every picture is found. -/
def allPictures : ImageFinder := fun name => .ok (name ++ ".png")

/-- A small picture on the first pass only and a tall one on the second, at the bottom of the page. -/
def tallLast : SlideJob :=
  .ofNode 1 ⟨.part .slide, .none, "b", none,
    [⟨.veil .only, .ofSpec "1", "", none,
        [⟨.image, .none, "width=40pt,height=100pt", some (.text "a"), []⟩]⟩,
      ⟨.veil .only, .ofSpec "2", "", none,
        [⟨.image, .none, "width=40pt,height=200pt", some (.text "b"), []⟩]⟩]⟩

theorem tallLast_passes : ∃ passes, tallLast.passesFrom plainPage allPictures .first 1 = .ok passes ∧
    passes.getLast?.bind (freeShift? (tallLast.contentArea plainPage) tallLast.align) = some 300.0 ∧
    ∀ p ∈ passes, ∀ s ∈ p.shapes,
      s.bounds.top + 300.0 + s.bounds.height ≤ (tallLast.contentArea plainPage).bottom :=
  exists_ok_of_decide (by decide +kernel)

/-- All passes move down by 300 points and stay inside. -/
theorem compose_keepsInside_tallLast :
    ∃ passes last slide, tallLast.passesFrom plainPage allPictures .first 1 = .ok passes ∧
      passes.getLast? = some last ∧
      freeShift? (tallLast.contentArea plainPage) tallLast.align last = some 300.0 ∧
      tallLast.compose plainPage allPictures = .ok slide ∧
      List.Forall₂ (fun _ after => Pass.EndsInside (tallLast.contentArea plainPage) after) passes slide.passes := by
  obtain ⟨passes, ran, shift, room⟩ := tallLast_passes
  obtain ⟨slide, composed⟩ : ∃ slide, tallLast.compose plainPage allPictures = .ok slide :=
    ⟨_, by rw [compose, ran]; rfl⟩
  obtain ⟨_, last, ran', isLast, kept⟩ := compose_keepsInside composed
  cases Except.ok.inj (ran.symm.trans ran')
  rw [isLast, Option.bind_some] at shift
  refine ⟨passes, last, slide, ran, isLast, shift, composed, ?_⟩
  refine ((List.forall₂_and_left _ _).mpr ⟨room, kept⟩).imp fun before after both => both.2.mpr ?_
  rw [shift]
  exact ⟨fun still => absurd still (Option.some_ne_none _), fun dy same => Option.some.inj same ▸ both.1⟩

/-- A pass is safe where its shapes stand within those of the last pass: it stays inside if the last one does. -/
theorem compose_within {slide : ComposedSlide} (composed : j.compose settings findImage = .ok slide) :
    ∃ passes last aligned, j.passesFrom settings findImage .first 1 = .ok passes ∧
      passes.getLast? = some last ∧ slide.passes.getLast? = some aligned ∧
      (aligned.EndsInside (j.contentArea settings) →
        List.Forall₂ (fun before after => before.Within last → after.EndsInside (j.contentArea settings))
          passes slide.passes) := by
  obtain ⟨passes, ran, rfl⟩ := map_eq_ok_iff.mp composed
  obtain ⟨last, isLast⟩ := exists_last .first 1 ran
  obtain ⟨still, moved⟩ := alignPasses_of_last (j.contentArea settings) j.align isLast
  dsimp only
  cases shift : freeShift? (j.contentArea settings) j.align last with
  | none =>
    refine ⟨passes, last, last, ran, isLast, ?_⟩
    rw [still shift, List.forall₂_same]
    exact ⟨isLast, fun inside p _ within => within.endsInside inside⟩
  | some dy =>
    refine ⟨passes, last, last.moveDown dy, ran, isLast, ?_⟩
    rw [moved dy shift, List.getLast?_map, isLast, List.forall₂_map_right_iff, List.forall₂_same]
    exact ⟨rfl, fun inside p _ within => within.endsInside_moveDown inside⟩

example : ∃ passes, tallLast.passesFrom plainPage allPictures .first 1 = .ok passes ∧
    ∀ last ∈ passes.getLast?, ∀ p ∈ passes, p.Within last :=
  exists_ok_of_decide (by decide +kernel)

/-- Two passes that let the same pauses through and agree on what decides stay inside together. -/
theorem endsInside_iff_of_agree {slide : ComposedSlide} (composed : j.compose settings findImage = .ok slide)
    {state state' : PassState} {a b : Pass} (first : j.RenderedIn settings findImage slide state a)
    (second : j.RenderedIn settings findImage slide state' b) (pauses : state.pauses = state'.pauses)
    (agree : AgreeOn state.pass state'.pass (j.met settings findImage state)) (area : Rect) :
    a.EndsInside area ↔ b.EndsInside area := by
  obtain ⟨f, still, source⟩ := compose_source composed
  obtain ⟨o, rendered, -, shapes⟩ := source first
  obtain ⟨o', rendered', -, shapes'⟩ := source second
  obtain ⟨-, contents⟩ := render_alike pauses agree rendered rendered'
  refine Pass.endsInside_congr ?_
  rw [shapes, shapes', still, still, contents]

/-- A tall picture on the first pass only and a small one on the second, at the bottom of the page. -/
def tallFirst : SlideJob :=
  .ofNode 1 ⟨.part .slide, .none, "b", none,
    [⟨.veil .only, .ofSpec "1", "", none,
        [⟨.image, .none, "width=40pt,height=200pt", some (.text "a"), []⟩]⟩,
      ⟨.veil .only, .ofSpec "2", "", none,
        [⟨.image, .none, "width=40pt,height=100pt", some (.text "b"), []⟩]⟩]⟩

/-- A pass that reaches lower than the last one is moved out. Both passes stand inside the area, and the aligned
slide has a pass that ends below it. -/
theorem compose_pushesOut :
    (∃ passes, tallFirst.passesFrom plainPage allPictures .first 1 = .ok passes ∧
      ∀ p ∈ passes, p.EndsInside (tallFirst.contentArea plainPage)) ∧
    ∃ slide, tallFirst.compose plainPage allPictures = .ok slide ∧
      ∃ p ∈ slide.passes, ¬ p.EndsInside (tallFirst.contentArea plainPage) :=
  ⟨exists_ok_of_decide (by decide +kernel), exists_ok_of_decide (by decide +kernel)⟩

end SlideJob

end Unveil
