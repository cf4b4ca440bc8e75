import Unveil.Proofs.Markup.Borders
import Unveil.Proofs.Markup.Emitted
import Unveil.Proofs.Slide.PassCount
import Unveil.Proofs.Slide.Tables

namespace Unveil

namespace Grid.Intact

variable {g : Grid}

theorem regular (intact : g.Intact) : g.Regular :=
  ⟨intact.shape, intact.declared, fun m inside => by
    have span := (intact.merges m inside).2.1
    omega⟩

theorem inRange (intact : g.Intact) : g.InRange :=
  inRange_of_inside intact.shape intact.declared (fun l inside => (intact.partials l inside).2.2)
    fun m inside => by
      have declared := intact.declared
      have merge := intact.merges m inside
      omega

end Grid.Intact

namespace SlideJob

open Markup Markup.State Calls

/-- Slides that were composed, from whatever trees and with whatever settings, are accepted by a fresh
receiver: every slide, shape, column and cell that a call names is there. The receiver then has as many
slides as there are passes. -/
theorem compose_accepted (config : Config) (format : SaveFormat) {slides : List ComposedSlide}
    (composed : ∀ slide ∈ slides, ∃ (j : SlideJob) (settings : Settings) (findImage : ImageFinder),
      j.compose settings findImage = .ok slide) :
    ∃ s, Gives (emitSlides sink format slides) (ofConfig config) () s ∧
      s.slides.size = (slides.flatMap ComposedSlide.passes).length := by
  have intact : ∀ slide ∈ slides, ∀ g ∈ slide.grids, g.Intact := by
    intro slide inSlides g inSlide
    obtain ⟨j, settings, findImage, made⟩ := composed slide inSlides
    obtain ⟨pass, inPasses, inPass⟩ := List.mem_flatMap.mp inSlide
    obtain ⟨shape, inShapes, inShape⟩ := Shape.mem_gridsAll.mp inPass
    exact compose_intact made pass inPasses shape inShapes g inShape
  obtain ⟨s, given, count, _⟩ := emitSlides_accepted config format fun slide inSlides g inSlide =>
    ⟨(intact slide inSlides g inSlide).regular, (intact slide inSlides g inSlide).inRange⟩
  exact ⟨s, given, count⟩

/-- A description list of two items with a pause between them. -/
def pausedList : SlideJob :=
  .ofNode 1 ⟨.part .slide, .none, "", none,
    [⟨.list .description, .none, "", none,
      [⟨.item, .none, "one", none, [.ofText "1"]⟩, ⟨.pause, .none, "", none, []⟩,
        ⟨.item, .none, "two", none, [.ofText "2"]⟩]⟩]⟩

theorem compose_accepted_pausedList :
    ∃ slide s, pausedList.compose .standard noPictures = .ok slide ∧
      Gives (emitSlides sink .markup [slide]) (ofConfig .debug) () s ∧ s.slides.size = 2 := by
  have count : pausedList.passCount .standard = 2 := by decide
  have plain : pausedList.node.isPlain := by decide
  have safe (state : PassState) (maxPass : Nat) (_ : pausedList.Visits .standard noPictures state maxPass) :
      ∃ o, pausedList.render .standard noPictures state = .ok o := render_succeeds rfl plain state
  obtain ⟨enough, _⟩ := passesFrom_counted rfl safe .first
  obtain ⟨passes, ran, counted⟩ := enough (by rw [count]; decide)
  obtain ⟨slide, composed, numbers⟩ : ∃ slide, pausedList.compose .standard noPictures = .ok slide ∧
      slide.passes.map Pass.number = [1, 2] := by
    refine ⟨_, by rw [compose, ran]; rfl, ?_⟩
    rw [alignPasses_map _ _ _ _ fun _ _ => rfl, counted.numbers, count]
    rfl
  have each : ∀ s ∈ [slide], ∃ (j : SlideJob) (settings : Settings) (findImage : ImageFinder),
      j.compose settings findImage = .ok s :=
    List.forall_mem_singleton.mpr ⟨pausedList, .standard, noPictures, composed⟩
  obtain ⟨s, given, size⟩ := compose_accepted .debug .markup each
  have two : slide.passes.length = 2 := by simpa using congrArg List.length numbers
  exact ⟨slide, s, composed, given, by rw [size]; simp [two]⟩

end SlideJob

end Unveil
