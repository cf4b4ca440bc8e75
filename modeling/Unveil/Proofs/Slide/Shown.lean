import Unveil.Proofs.Nested.Rounds
import Unveil.Proofs.Overlay.Bound
import Unveil.Proofs.Slot.Slide

namespace Unveil

open Nested

namespace Ask

/-- The overlay that is asked about. -/
def overlay? : Ask → Option Overlay
  | pause => none
  | node n => some n.overlay
  | part overlay => some overlay
  | fault => none

end Ask

namespace Tracker

/-- The overlays that are noted before the walk ends. -/
def noted (t : Tracker) : List Ask → List Overlay
  | [] => []
  | .pause :: rest =>
    match t.pause with
    | (.completed, t) => t.noted rest
    | (.paused, _) => []
  | .node n :: rest => n.overlay :: (t.observe n.overlay).noted rest
  | .part overlay :: rest => overlay :: (t.observe overlay).noted rest
  | .fault :: _ => []

theorem pause_le (t : Tracker) : t.maxPass ≤ t.pause.2.maxPass := by
  unfold pause
  dsimp only
  split
  · exact Nat.le_refl _
  · split
    · exact Nat.le_max_left _ _
    · exact Nat.le_refl _

/-- Answering takes no pass back. -/
theorem answer_le {t u : Tracker} {asks : List Ask} {flow : Flow} (answered : t.answer asks = some (flow, u)) :
    t.maxPass ≤ u.maxPass := by
  induction asks generalizing t with
  | nil =>
    cases answered
    exact Nat.le_refl _
  | cons ask rest ih =>
    cases ask with
    | pause =>
      have here := t.pause_le
      simp only [answer] at answered
      rcases met : t.pause with ⟨ended, v⟩
      rw [met] at answered here
      cases ended with
      | completed => exact Nat.le_trans here (ih answered)
      | paused =>
        cases answered
        exact here
    | node | part => exact Nat.le_trans (Nat.le_max_left _ _) (ih answered)
    | fault => cases answered

/-- A tracker asks for the passes of all overlays that it has noted. -/
theorem answer_notes {t u : Tracker} {asks : List Ask} {flow : Flow} (answered : t.answer asks = some (flow, u)) :
    ∀ o ∈ t.noted asks, o.maxBound ≤ u.maxPass := by
  induction asks generalizing t with
  | nil => exact List.forall_mem_nil _
  | cons ask rest ih =>
    cases ask with
    | pause =>
      simp only [answer] at answered
      simp only [noted]
      rcases met : t.pause with ⟨ended, v⟩
      rw [met] at answered
      cases ended with
      | completed => exact ih answered
      | paused => exact List.forall_mem_nil _
    | node | part =>
      have here := answer_le (t := t.observe _) answered
      refine List.forall_mem_cons.mpr ⟨?_, ih answered⟩
      exact Nat.le_trans (Nat.le_max_right _ _) here
    | fault => cases answered

/-- Where every pause is let through, all overlays are noted. -/
theorem noted_ignoring {t u : Tracker} {asks : List Ask} {flow : Flow} (ignores : t.ignoring = true)
    (answered : t.answer asks = some (flow, u)) {ask : Ask} (asked : ask ∈ asks) {o : Overlay}
    (about : ask.overlay? = some o) : o ∈ t.noted asks := by
  induction asks generalizing t with
  | nil => cases asked
  | cons first rest ih =>
    cases first with
    | pause =>
      have through : t.pause = (.completed, t) := by rw [pause, if_pos ignores]
      simp only [answer, through] at answered
      simp only [noted, through]
      rcases List.mem_cons.mp asked with rfl | later
      · cases about
      · exact ih ignores answered later
    | node | part =>
      rcases List.mem_cons.mp asked with rfl | later
      · cases Option.some.inj about
        exact List.mem_cons_self
      · exact List.mem_cons_of_mem _ (ih ignores answered later)
    | fault => cases answered

end Tracker

namespace Content.Walk

/-- Blocks leave the title page as it is. -/
theorem titled_block {n : Node} (isBlock : n.kind.isBlock) (p : TitlePage) : titled p n = p := by
  obtain ⟨kind, overlay, params, payload, children⟩ := n
  cases kind with
  | list | tabular | image | titlePage => rfl
  | _ => cases isBlock

/-- Blocks that are placed together ask what each of them asks. -/
theorem asks_subset_asksAll (policy : NestedPolicy) (p : TitlePage) {nodes : List Node}
    (isBlock : ∀ n ∈ nodes, n.kind.isBlock) {n : Node} (member : n ∈ nodes) :
    asks policy p n ⊆ asksAll policy p nodes := by
  induction nodes with
  | nil => cases member
  | cons first rest ih =>
    obtain ⟨here, later⟩ := List.forall_mem_cons.mp isBlock
    rw [asksAll, titled_block here]
    rcases List.mem_cons.mp member with rfl | below
    · exact List.subset_append_left _ _
    · exact List.Subset.trans (ih later below) (List.subset_append_right _ _)

end Content.Walk

namespace SlideJob

variable {j : SlideJob} {settings : Settings} {findImage : ImageFinder} {state : PassState}

/-- The overlays that a pass consults: those in the frame title and in the content before the pauses that
end them, and all of those in the blocks that are put off. -/
inductive Consults (j : SlideJob) (settings : Settings) (state : PassState) : Overlay → Prop
  | title {o : Overlay} (noted : o ∈ (Tracker.ofState state).noted j.titleAsks) : Consults j settings state o
  | content {o : Overlay} (noted : o ∈ (Tracker.ofState state).noted (j.contentAsks settings)) :
    Consults j settings state o
  | block {b : Nested} {ask : Ask} {o : Overlay}
    (reached : Reached (.ofSettings settings) state.pass (j.putOff settings state) b)
    (asked : ask ∈ Content.Walk.asks (.ofSettings settings) j.titlePage b.block.node)
    (about : ask.overlay? = some o) : Consults j settings state o

/-- A round asks for the passes of all overlays in its blocks. -/
theorem runRound_notes {c : Context} {flow : ShapeFlow} {bs : List Nested} {ended : Flow} {w : Content.Walk}
    (isBlock : ∀ b ∈ bs, b.block.node.kind.isBlock) (ran : j.runRound c state flow bs = .ok (ended, w))
    {b : Nested} (inBs : b ∈ bs) {ask : Ask} (asked : ask ∈ Content.Walk.asks c.policy j.titlePage b.block.node)
    {o : Overlay} (about : ask.overlay? = some o) : o.maxBound ≤ w.tracker.maxPass := by
  obtain ⟨answered, _⟩ := Content.Walk.run_answers ran
  rw [List.map_map] at answered
  have isBlock' : ∀ n ∈ bs.map (Deferred.node ∘ Nested.block), n.kind.isBlock := List.forall_mem_map.mpr isBlock
  have member := Content.Walk.asks_subset_asksAll c.policy j.titlePage isBlock' (List.mem_map_of_mem inBs) asked
  exact Tracker.answer_notes answered o (Tracker.noted_ignoring rfl answered member about)

/-- Placing what was put off asks for the passes of all overlays in it. -/
theorem Placing.notes {c : Context} {flow : ShapeFlow} {bs : List Nested} {maxPass : Nat}
    {rounds : List (List Nested)} {result : Except DeckError (ShapeFlow × Nat)} {region : List Nat → Prop}
    (placing : j.Placing c state flow bs maxPass rounds result) (scattered : Scattered j.node region bs)
    {placed : ShapeFlow × Nat} (ok : result = .ok placed) :
    maxPass ≤ placed.2 ∧ ∀ b ∈ rounds.flatten, ∀ ask ∈ Content.Walk.asks c.policy j.titlePage b.block.node,
      ∀ o, ask.overlay? = some o → o.maxBound ≤ placed.2 := by
  induction placing generalizing region with
  | done =>
    cases ok
    exact ⟨Nat.le_refl _, nofun⟩
  | failed => cases ok
  | @round _ bs next _ _ _ _ _ ran inTexts _ _ ih =>
    have below : Scattered j.node (fun p => ∃ b ∈ bs, BelowFrom b.place 0 p) next :=
      inTexts ▸ scattered.flatMap fun b inBs => inner_scattered (scattered.found b inBs) c.policy state.pass
    obtain ⟨most, later⟩ := ih below ok
    obtain ⟨before, here⟩ := Nat.max_le.mp most
    rw [List.flatten_cons]
    refine ⟨before, List.forall_mem_append.mpr ⟨fun b inBs ask asked o about => ?_, later⟩⟩
    exact Nat.le_trans (runRound_notes scattered.isBlock ran inBs asked about) here

/-- A pass asks for as many passes as each overlay that it consults. -/
theorem render_notes {out : Outcome} (rendered : j.render settings findImage state = .ok out) {o : Overlay}
    (consults : j.Consults settings state o) : o.maxBound ≤ out.maxPass := by
  obtain ⟨flow, w, placed, ran, done, _, _, _, asked⟩ := render_ok rendered
  have scattered := j.putOff_scattered settings state
  rw [runContent_deferred ran] at done
  obtain ⟨rounds, placing, _⟩ := j.exists_placing _ state scattered (fun _ _ => Nat.le_add_left _ _) w.flow _
  obtain ⟨most, inBlocks⟩ := placing.notes scattered done
  obtain ⟨fromTitle, fromContent⟩ := Nat.max_le.mp most
  rw [asked]
  cases consults with
  | title noted =>
    refine Nat.le_trans ?_ fromTitle
    unfold titleAsks at noted
    cases atTitle : j.frameTitle with
    | none =>
      rw [atTitle] at noted
      cases noted
    | some f =>
      rw [atTitle] at noted
      exact Tracker.answer_notes (f.render_answers settings state) o noted
  | content noted => exact Nat.le_trans (Tracker.answer_notes (runContent_answers ran).1 o noted) fromContent
  | block reached asked about => exact inBlocks _ (placing.complete done reached) _ asked o about

/-- A run goes up to the last pass that any of its passes asks for. -/
theorem passesFrom_reaches {state : PassState} {maxPass : Nat} {passes : List Pass}
    (ran : j.passesFrom settings findImage state maxPass = .ok passes) :
    ∃ last, state.pass ≤ last ∧ maxPass ≤ last ∧
      passes.map Pass.number = List.range' state.pass (last + 1 - state.pass) ∧
      ∀ pass ∈ passes, pass.maxPass ≤ last := by
  cases rendered : j.render settings findImage state with
  | error error =>
    rw [passesFrom, rendered] at ran
    cases ran
  | ok o =>
    cases last : isLast state maxPass o with
    | true =>
      rw [passesFrom_last rendered last] at ran
      cases Except.ok.inj ran
      simp only [isLast, Bool.and_eq_true, decide_eq_true_eq] at last
      refine ⟨state.pass, Nat.le_refl _, Nat.le_trans (Nat.le_max_left _ _) last.2, ?_, ?_⟩
      · simp [passOf, List.range'_one]
      · simpa [passOf] using last.2
    | false =>
      by_cases room : state.pass < settings.maxPasses
      · rw [passesFrom_next rendered last room] at ran
        rcases later : j.passesFrom settings findImage
          ⟨state.pass + 1, state.pauses + if o.paused then 1 else 0⟩
          (max maxPass o.maxPass) with error | rest
        · rw [later] at ran
          cases ran
        · rw [later] at ran
          cases Except.ok.inj ran
          obtain ⟨final, after, most, numbers, asked⟩ := passesFrom_reaches later
          simp only at after numbers
          have count : final + 1 - state.pass = final + 1 - (state.pass + 1) + 1 := by omega
          refine ⟨final, by omega, Nat.le_trans (Nat.le_max_left _ _) most, ?_, ?_⟩
          · rw [List.map_cons, numbers, count, List.range'_succ]
            rfl
          · exact List.forall_mem_cons.mpr ⟨most, asked⟩
      · rw [passesFrom_limit rendered last (Nat.le_of_not_lt room)] at ran
        cases ran
termination_by settings.maxPasses - state.pass

/-- The passes of a composed slide come from those of the run; aligning changes neither their numbers nor
what they ask for. -/
theorem compose_passes {slide : ComposedSlide} (composed : j.compose settings findImage = .ok slide) :
    ∃ passes, j.passesFrom settings findImage .first 1 = .ok passes ∧
      slide.passes.map (fun pass => (pass.number, pass.maxPass)) =
        passes.map fun pass => (pass.number, pass.maxPass) := by
  rcases ran : j.passesFrom settings findImage .first 1 with error | passes
  · rw [compose, ran] at composed
    cases composed
  · rw [compose, ran] at composed
    cases Except.ok.inj composed
    exact ⟨passes, rfl, alignPasses_map _ _ _ _ fun _ _ => rfl⟩

theorem compose_numbers {slide : ComposedSlide} (composed : j.compose settings findImage = .ok slide) :
    ∃ last, 1 ≤ last ∧ slide.passes.map Pass.number = List.range' 1 last ∧
      ∀ pass ∈ slide.passes, pass.maxPass ≤ last := by
  obtain ⟨passes, ran, same⟩ := compose_passes composed
  obtain ⟨last, started, _, numbers, asked⟩ := passesFrom_reaches ran
  refine ⟨last, started, ?_, fun pass member => ?_⟩
  · have firsts := congrArg (List.map Prod.fst) same
    simp only [List.map_map, Function.comp_def] at firsts
    exact firsts.trans numbers
  · obtain ⟨x, atX, equal⟩ := List.mem_map.mp (same ▸ List.mem_map_of_mem member)
    exact (Prod.mk.inj equal).2 ▸ asked x atX

/-- A composed slide has a first pass. -/
theorem compose_first {slide : ComposedSlide} (composed : j.compose settings findImage = .ok slide) :
    ∃ a, j.RenderedIn settings findImage slide .first a := by
  obtain ⟨last, started, numbers, _⟩ := compose_numbers composed
  have first : 1 ∈ slide.passes.map Pass.number := by
    rw [numbers, List.mem_range'_1]
    omega
  obtain ⟨a, member, number⟩ := List.mem_map.mp first
  exact ⟨a, member, number, 1, .first⟩

/-- A pass asks for what its rendering does. -/
theorem RenderedIn.asks {slide : ComposedSlide} (composed : j.compose settings findImage = .ok slide) {a : Pass}
    (found : j.RenderedIn settings findImage slide state a) :
    ∃ out, j.render settings findImage state = .ok out ∧ out.maxPass ≤ a.maxPass := by
  obtain ⟨passes, ran, same⟩ := compose_passes composed
  obtain ⟨member, number, _, visits⟩ := found
  obtain ⟨x, atX, equal⟩ := List.mem_map.mp (same ▸ List.mem_map_of_mem member)
  obtain ⟨sameNumber, sameMax⟩ := Prod.mk.inj equal
  obtain ⟨reached, _, out, visits', rendered, rfl⟩ := passesFrom_visits .first ran x atX
  obtain ⟨rfl, _⟩ := visits'.unique visits (sameNumber.trans number)
  exact ⟨out, rendered, sameMax ▸ Nat.le_max_right _ _⟩

/-- A slide has a pass for every number up to the bound of an overlay that one of its passes consults. -/
theorem compose_reaches {slide : ComposedSlide} (composed : j.compose settings findImage = .ok slide) {a : Pass}
    (found : j.RenderedIn settings findImage slide state a) {o : Overlay} (consults : j.Consults settings state o)
    {q : Nat} (positive : 1 ≤ q) (within : q ≤ o.maxBound) : ∃ b ∈ slide.passes, b.number = q := by
  obtain ⟨last, _, numbers, asked⟩ := compose_numbers composed
  obtain ⟨out, rendered, least⟩ := found.asks composed
  have noted := render_notes rendered consults
  have most := asked a found.member
  have inRun : q ∈ slide.passes.map Pass.number := by
    rw [numbers, List.mem_range'_1]
    omega
  exact List.mem_map.mp inRun

/-- The bound of an overlay reaches far enough, unless all that the overlay says is that content shows
after some pass. Then it shows from the pass behind the bound on; otherwise it shows on a pass within the
bound, and a slide that consults the overlay has such a pass. -/
theorem overlay_shows_within_bound (spec : String) {pass : Nat} (positive : 1 ≤ pass)
    (shown : (OverlaySet.read spec.toList).visible pass = true) :
    let set := OverlaySet.read spec.toList
    ((∃ q, 1 ≤ q ∧ q ≤ set.maxBound ∧ set.visible q = true) ↔ ¬OverlaySet.OnlyAfter spec) ∧
      (OverlaySet.OnlyAfter spec → ∀ q, 1 ≤ q → (set.visible q = true ↔ set.maxBound < q)) ∧
      (¬OverlaySet.OnlyAfter spec →
        ∀ (j : SlideJob) (settings : Settings) (findImage : ImageFinder) (slide : ComposedSlide),
          j.compose settings findImage = .ok slide →
          ∀ (state : PassState) (a : Pass), j.RenderedIn settings findImage slide state a →
          ∀ o : Overlay, o.spec = spec → j.Consults settings state o →
            ∃ b ∈ slide.passes, b.number ≤ set.maxBound ∧ o.visible b.number = true) := by
  intro set
  refine ⟨⟨?_, OverlaySet.exists_visible_le_maxBound positive shown⟩, fun only q => only.visible_iff, ?_⟩
  · rintro ⟨q, first, within, visible⟩ only
    exact absurd ((only.visible_iff first).mp visible) (Nat.not_lt.mpr within)
  · intro more j settings findImage slide composed state a found o written consults
    obtain ⟨q, first, within, visible⟩ := OverlaySet.exists_visible_le_maxBound positive shown more
    have same : o.set = set := by rw [o.set_eq, written]
    have bound : q ≤ o.maxBound := by rw [Overlay.maxBound, same]; exact within
    obtain ⟨b, member, rfl⟩ := compose_reaches composed found consults first bound
    exact ⟨b, member, within, by rw [Overlay.visible, same]; exact visible⟩

theorem overlay_shows_within_bound_uncoveredLater :
    1 ≤ 2 ∧ (OverlaySet.read "2".toList).visible 2 = true ∧
      ∃ slide, uncoveredLater.compose .standard noPictures = .ok slide ∧
        ∃ b ∈ slide.passes, b.number ≤ 2 ∧ (Overlay.ofSpec "2").visible b.number = true := by
  have shown : (OverlaySet.read "2".toList).visible 2 = true := by decide
  have bound : (OverlaySet.read "2".toList).maxBound = 2 := by decide
  obtain ⟨within, _, reaches⟩ := overlay_shows_within_bound "2" (by decide) shown
  rw [bound] at within reaches
  have more : ¬OverlaySet.OnlyAfter "2" := within.mp ⟨2, by decide, Nat.le_refl 2, shown⟩
  obtain ⟨slide, composed⟩ : ∃ slide, uncoveredLater.compose .standard noPictures = .ok slide :=
    compose_succeeds rfl (by decide) (by decide)
  obtain ⟨a, found⟩ := compose_first composed
  have consults : uncoveredLater.Consults .standard .first (.ofSpec "2") := .content (.tail _ (.head _))
  exact ⟨by decide, shown, slide, composed, reaches more _ _ _ slide composed _ a found _ rfl consults⟩

/-- Text that is uncovered after the first pass. -/
def uncoveredAfter : SlideJob :=
  .ofNode 1 ⟨.part .slide, .none, "", none, [⟨.veil .uncover, .ofSpec "1-0", "", none, [.ofText "a"]⟩]⟩

/-- A range that descends from 1 shows its content from the second pass on, but asks for one pass only. -/
theorem overlay_shows_past_bound :
    (OverlaySet.read "1-0".toList).visible 2 = true ∧
      (¬∃ q, 1 ≤ q ∧ q ≤ (OverlaySet.read "1-0".toList).maxBound ∧
        (OverlaySet.read "1-0".toList).visible q = true) ∧
      uncoveredAfter.Consults .standard .first (.ofSpec "1-0") ∧
      ∃ slide, uncoveredAfter.compose .standard noPictures = .ok slide ∧ slide.passes.map Pass.number = [1] := by
  have count : uncoveredAfter.passCount .standard = 1 := by decide
  have safe (state : PassState) (maxPass : Nat) (_ : uncoveredAfter.Visits .standard noPictures state maxPass) :
      ∃ o, uncoveredAfter.render .standard noPictures state = .ok o := render_succeeds rfl (by decide) state
  obtain ⟨enough, _⟩ := passesFrom_counted rfl safe .first
  obtain ⟨passes, ran, counted⟩ := enough (by rw [count]; decide)
  refine ⟨by decide, ?_, .content (.head _), _, by rw [compose, ran]; rfl, ?_⟩
  · rintro ⟨q, positive, within, visible⟩
    have bound : (OverlaySet.read "1-0".toList).maxBound = 1 := by decide
    obtain rfl : q = 1 := by omega
    exact absurd visible (by decide)
  · rw [alignPasses_map _ _ _ _ fun _ _ => rfl, counted.numbers, count]
    rfl

end SlideJob

end Unveil
