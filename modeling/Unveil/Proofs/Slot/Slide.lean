import Unveil.Proofs.Slide.PassCount
import Unveil.Proofs.Slot.Content

namespace Unveil.SlideJob

open Float.Model.UnpackedFloat (Sign)

variable {j : SlideJob} {settings : Settings} {findImage : ImageFinder}

/-- The nodes that are met in what was put off. -/
def deferredMet (j : SlideJob) (c : Context) (state : PassState) :
    Nat → ShapeFlow → List Deferred → List Node
  | 0, _, _ => []
  | rounds + 1, flow, pending =>
    if pending.isEmpty then []
    else
      let start := Content.Walk.start c (.ignoringPauses state) j.titlePage flow
      start.tracker.met (Content.Walk.asksAll c.policy j.titlePage (pending.map Deferred.node)) ++
        match start.run c pending with
        | .ok (_, w) => deferredMet j c state rounds w.flow w.deferred
        | .error _ => []

/-- The nodes that a pass meets in the frame title, in the content, and in what was put off. -/
def met (j : SlideJob) (settings : Settings) (findImage : ImageFinder) (state : PassState) :
    List Node :=
  (Tracker.ofState state).met j.titleAsks ++ (Tracker.ofState state).met (j.contentAsks settings) ++
    match j.runContent settings findImage state with
    | .ok (_, w) => j.deferredMet (j.context settings findImage) state j.node.height w.flow w.deferred
    | .error _ => []

variable {sign : Sign} {state state' : PassState}

/-- What was put off is placed alike, round by round. -/
theorem placeDeferred_alike {c : Context} (sized : Size.Sized sign c.settings.fontSize)
    (pauses : state.pauses = state'.pauses) (rounds : Nat) {flow flow' : ShapeFlow}
    {pending pending' : List Deferred} {maxPass maxPass' : Nat} (flows : flow.Alike sign flow')
    (same : List.Forall₂ Deferred.Alike pending pending')
    (agree : AgreeOn state.pass state'.pass (j.deferredMet c state rounds flow pending))
    {placed placed' : ShapeFlow × Nat}
    (done : j.placeDeferred c state rounds flow pending maxPass = .ok placed)
    (done' : j.placeDeferred c state' rounds flow' pending' maxPass' = .ok placed') :
    placed.1.Alike sign placed'.1 := by
  induction rounds generalizing flow flow' pending pending' maxPass maxPass' with
  | zero =>
    cases Except.ok.inj done
    cases Except.ok.inj done'
    exact flows
  | succ rounds ih =>
    have empty : pending.isEmpty = pending'.isEmpty := by
      cases same <;> rfl
    rw [placeDeferred] at done done'
    rw [deferredMet] at agree
    rw [← empty] at done'
    split at done
    · rename_i empty
      rw [if_pos empty] at done'
      cases Except.ok.inj done
      cases Except.ok.inj done'
      exact flows
    · rename_i nonempty
      rw [if_neg nonempty] at agree done'
      simp only at done done' agree
      have start : Content.Walk.Alike sign state.pass state'.pass
          (.start c (.ignoringPauses state) j.titlePage flow)
          (.start c (.ignoringPauses state') j.titlePage flow') :=
        Content.Walk.start_alike c (Tracker.ignoringPauses_alike pauses) j.titlePage flows sized
      rcases ran : (Content.Walk.start c (.ignoringPauses state) j.titlePage flow).run c pending with
        error | ⟨ended, w⟩
      · rw [ran] at done
        cases done
      · rw [ran] at done agree
        obtain ⟨here, later⟩ := agree.parts
        obtain ⟨w', ran', alike⟩ := Content.Walk.run_alike same start here ran
        rw [ran'] at done'
        exact ih alike.flow alike.deferred later done done'

/-- Two renderings of a slide that let the same pauses through. -/
theorem render_alike (pauses : state.pauses = state'.pauses)
    (agree : AgreeOn state.pass state'.pass (j.met settings findImage state)) {o o' : Outcome}
    (rendered : j.render settings findImage state = .ok o)
    (rendered' : j.render settings findImage state' = .ok o') :
    o.title.map Shape.outline = o'.title.map Shape.outline ∧
      o.shapes.map Shape.outline = o'.shapes.map Shape.outline := by
  obtain ⟨flow, w, placed, ran, done, title, shapes, _, _⟩ := render_ok rendered
  obtain ⟨flow', w', placed', ran', done', title', shapes', _, _⟩ := render_ok rendered'
  obtain ⟨sign, sized⟩ := Size.Sized.self settings.fontSize
  obtain ⟨agreeParts, agreeDeferred⟩ := agree.parts
  obtain ⟨agreeTitle, agreeContent⟩ := agreeParts.parts
  rw [ran] at agreeDeferred
  have start : Content.Walk.Alike sign state.pass state'.pass (j.contentStart settings findImage state)
      (j.contentStart settings findImage state') :=
    Content.Walk.start_alike _ (Tracker.ofState_alike pauses) j.titlePage (.ofArea _) sized
  have visible : List.Forall₂ Deferred.Alike (j.node.children.map fun n => (⟨n, .visible⟩ : Deferred))
      (j.node.children.map fun n => ⟨n, .visible⟩) := List.forall₂_same.mpr fun _ _ => ⟨rfl, rfl⟩
  have nodes :
      (j.node.children.map fun n => (⟨n, .visible⟩ : Deferred)).map Deferred.node =
        j.node.children := by
    rw [List.map_map]
    exact List.map_id _
  obtain ⟨x, ranAlike, alike⟩ :=
    Content.Walk.run_alike visible start (by rw [nodes]; exact agreeContent) ran
  cases Except.ok.inj (ranAlike.symm.trans ran')
  have flows : placed.1.Alike sign placed'.1 :=
    placeDeferred_alike (c := j.context settings findImage) sized pauses _ alike.flow alike.deferred
      agreeDeferred done done'
  rw [title, title', shapes, shapes']
  refine ⟨?_, flows.shapes⟩
  unfold titleAsks at agreeTitle
  cases atTitle : j.frameTitle with
  | none => rfl
  | some f =>
    rw [atTitle] at agreeTitle
    exact f.render_alike settings pauses agreeTitle

/-- Aligning moves the shapes of all passes alike. -/
theorem alignPasses_eq (area : Rect) (align : VerticalAlign) (passes : List Pass) :
    ∃ f : Shape → Shape, (∀ s, (f s).outline = f s.outline) ∧
      alignPasses area align passes = passes.map fun p => { p with shapes := p.shapes.map f } := by
  unfold alignPasses
  split
  · exact ⟨id, fun _ => rfl, by simp⟩
  · rename_i dy _
    exact ⟨fun s => s.moveDown dy, fun s => (Shape.move_outline 0.0 dy s).symm, rfl⟩

/-- A pass of a composed slide and the state in which it was rendered. -/
structure RenderedIn (j : SlideJob) (settings : Settings) (findImage : ImageFinder)
  (slide : ComposedSlide) (state : PassState) (a : Pass) : Prop where
  member : a ∈ slide.passes
  number : a.number = state.pass
  visits : ∃ maxPass, j.Visits settings findImage state maxPass

/-- A pass of a composed slide comes from the rendering in its state. Its content was moved, and that of all
passes alike. -/
theorem compose_source {slide : ComposedSlide} (composed : j.compose settings findImage = .ok slide) :
    ∃ f : Shape → Shape,
      (∀ shapes : List Shape, (shapes.map f).map Shape.outline = (shapes.map Shape.outline).map f) ∧
      ∀ {state : PassState} {a : Pass}, j.RenderedIn settings findImage slide state a →
        ∃ o, j.render settings findImage state = .ok o ∧ a.title = o.title ∧ a.shapes = o.shapes.map f := by
  obtain ⟨passes, ran, rfl⟩ := map_eq_ok_iff.mp composed
  obtain ⟨f, still, aligned⟩ := alignPasses_eq (j.contentArea settings) j.align passes
  refine ⟨f, fun shapes => ?_, ?_⟩
  · simp only [List.map_map, Function.comp_def, still]
  · intro state a found
    obtain ⟨member, number, maxPass, visits⟩ := found
    simp only [aligned] at member
    obtain ⟨x, atX, rfl⟩ := List.mem_map.mp member
    obtain ⟨reached, before, o, visits', rendered, rfl⟩ := passesFrom_visits .first ran x atX
    obtain ⟨rfl, _⟩ := visits'.unique visits number
    exact ⟨o, rendered, rfl, rfl⟩

/-- Every pass of a composed slide has its state. -/
theorem compose_renderedIn {slide : ComposedSlide}
    (composed : j.compose settings findImage = .ok slide) {a : Pass}
    (member : a ∈ slide.passes) : ∃ state, j.RenderedIn settings findImage slide state a := by
  rcases ran : j.passesFrom settings findImage .first 1 with error | passes
  · rw [compose, ran] at composed
    cases composed
  · rw [compose, ran] at composed
    cases Except.ok.inj composed
    obtain ⟨f, _, aligned⟩ := alignPasses_eq (j.contentArea settings) j.align passes
    have moved := member
    simp only [aligned] at moved
    obtain ⟨x, atX, rfl⟩ := List.mem_map.mp moved
    obtain ⟨state, before, _, visits, _, rfl⟩ := passesFrom_visits .first ran x atX
    exact ⟨state, member, rfl, before, visits⟩

/-- Slots are stable. On two passes that were rendered with the same pauses and agree on every node whose
overlay decides, the title and the other shapes are the same letter by letter, before the content is
aligned and after it. -/
theorem compose_slots {slide : ComposedSlide} (composed : j.compose settings findImage = .ok slide)
    {a b : Pass} (first : j.RenderedIn settings findImage slide state a)
    (second : j.RenderedIn settings findImage slide state' b) (pauses : state.pauses = state'.pauses)
    (agree : AgreeOn state.pass state'.pass (j.met settings findImage state)) :
    (∃ o o', j.render settings findImage state = .ok o ∧ j.render settings findImage state' = .ok o' ∧
      o.title.map Shape.outline = o'.title.map Shape.outline ∧
      o.shapes.map Shape.outline = o'.shapes.map Shape.outline) ∧
    a.title.map Shape.outline = b.title.map Shape.outline ∧
    a.shapes.map Shape.outline = b.shapes.map Shape.outline := by
  obtain ⟨f, still, source⟩ := compose_source composed
  obtain ⟨o, rendered, title, shapes⟩ := source first
  obtain ⟨o', rendered', title', shapes'⟩ := source second
  obtain ⟨titles, contents⟩ := render_alike pauses agree rendered rendered'
  refine ⟨⟨o, o', rendered, rendered', titles, contents⟩, ?_, ?_⟩
  · rw [title, title', titles]
  · rw [shapes, shapes', still, still, contents]

/-- Where blocks become text, nothing is put off. -/
theorem met_asText (asText : settings.nestedAsText = true) (state : PassState) :
    j.met settings findImage state =
      (Tracker.ofState state).met j.titleAsks ++
        (Tracker.ofState state).met (j.contentAsks settings) := by
  have nothing (rounds : Nat) (flow : ShapeFlow) :
      j.deferredMet (j.context settings findImage) state rounds flow [] = [] := by
    cases rounds <;> rfl
  unfold met
  rcases ran : j.runContent settings findImage state with error | ⟨flow, w⟩
  · exact List.append_nil _
  · simp only [(runContent_answers ran).2 asText, nothing]
    exact List.append_nil _

/-- Bold text, and text that is uncovered on the second pass. -/
def uncoveredLater : SlideJob :=
  .ofNode 1 ⟨.part .slide, .none, "", none,
    [.ofText "a ", ⟨.style .bold, .none, "", none, [.ofText "b "]⟩,
      ⟨.veil .uncover, .ofSpec "2", "", none, [.ofText "c"]⟩]⟩

theorem compose_slots_uncoveredLater :
    ∃ slide a b, uncoveredLater.compose .standard noPictures = .ok slide ∧ slide.passes = [a, b] ∧
      a.shapes.map Shape.outline = b.shapes.map Shape.outline := by
  have count : uncoveredLater.passCount .standard = 2 := by decide
  have pauseless : uncoveredLater.pauseCount .standard = 0 := by decide
  have plain : uncoveredLater.node.isPlain := by decide
  have safe (state : PassState) (maxPass : Nat)
    (_ : uncoveredLater.Visits .standard noPictures state maxPass) :
      ∃ o, uncoveredLater.render .standard noPictures state = .ok o := render_succeeds rfl plain state
  obtain ⟨enough, _⟩ := passesFrom_counted rfl safe .first
  obtain ⟨passes, ran, counted⟩ := enough (by rw [count]; decide)
  obtain ⟨slide, composed, numbers⟩ : ∃ slide, uncoveredLater.compose .standard noPictures = .ok slide ∧
      slide.passes.map Pass.number = [1, 2] := by
    refine ⟨_, by rw [compose, ran]; rfl, ?_⟩
    rw [alignPasses_map _ _ _ _ fun _ _ => rfl, counted.numbers, count]
    rfl
  have state {s : PassState} {a : Pass}
    (found : uncoveredLater.RenderedIn .standard noPictures slide s a) :
      s = ⟨a.number, 0⟩ := by
    obtain ⟨maxPass, visits⟩ := found.visits
    have pauses := (visits.counting rfl).pauses
    rw [pauseless, Nat.min_zero] at pauses
    rw [found.number, ← pauses]
  obtain ⟨a, rest, passes_eq, one, more⟩ := List.map_eq_cons_iff.mp numbers
  obtain ⟨b, last, rest_eq, two, pauseless⟩ := List.map_eq_cons_iff.mp more
  cases List.map_eq_nil_iff.mp pauseless
  rw [rest_eq] at passes_eq
  obtain ⟨s, first⟩ := compose_renderedIn (a := a) composed (by simp [passes_eq])
  obtain ⟨t, second⟩ := compose_renderedIn (a := b) composed (by simp [passes_eq])
  have atS := state first
  have atT := state second
  rw [one] at atS
  rw [two] at atT
  subst atS atT
  have agree : AgreeOn 1 2 (uncoveredLater.met .standard noPictures ⟨1, 0⟩) := by
    rw [met_asText rfl]
    unfold AgreeOn
    decide
  exact ⟨slide, a, b, composed, passes_eq, (compose_slots composed first second rfl agree).2.2⟩

end Unveil.SlideJob
