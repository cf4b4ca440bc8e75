import Unveil.Proofs.Content.Asks
import Unveil.Proofs.Content.Total
import Unveil.Proofs.Slide.Run

namespace Unveil.SlideJob

variable {j : SlideJob} {settings : Settings} {findImage : ImageFinder}

/-- What the content of a slide asks. -/
def contentAsks (j : SlideJob) (settings : Settings) : List Ask :=
  Content.Walk.asksAll (.ofSettings settings) j.titlePage j.node.children

/-- What the frame title asks, nothing without one. -/
def titleAsks (j : SlideJob) : List Ask := (j.frameTitle.map FrameTitle.asks).getD []

/-- Pauses that the passes reveal one by one: content and title share the counter. -/
def pauseCount (j : SlideJob) (settings : Settings) : Nat :=
  max (Ask.pauses (j.contentAsks settings)) (Ask.pauses j.titleAsks)

/-- The last pass that an overlay asks for. -/
def overlayBound (j : SlideJob) (settings : Settings) : Nat :=
  max (Ask.bound (j.contentAsks settings)) (Ask.bound j.titleAsks)

def passCount (j : SlideJob) (settings : Settings) : Nat :=
  max (1 + j.pauseCount settings) (j.overlayBound settings)

theorem runContent_answers {state : PassState} {flow : Flow} {w : Content.Walk}
    (ran : j.runContent settings findImage state = .ok (flow, w)) :
    (Tracker.ofState state).answer (j.contentAsks settings) = some (flow, w.tracker) ∧
      (settings.nestedAsText = true → w.deferred = []) := by
  obtain ⟨answer, deferred⟩ := Content.Walk.run_answers ran
  rw [List.map_map] at answer
  refine ⟨(congrArg _ (congrArg _ (List.map_id _).symm)).trans answer, fun asText => deferred ?_⟩
  simp [Context.policy, NestedPolicy.ofSettings, context, asText]

/-- A part of a pass with its own tracker. It stops at the first new pause; only a part that has ended has
noted all of its overlays. -/
inductive PartPass (state : PassState) (asks : List Ask) : Flow → Nat → Prop
  | ended (few : Ask.pauses asks ≤ state.pauses) : PartPass state asks .completed (Ask.bound asks)
  | stopped {maxPass : Nat} (many : state.pauses < Ask.pauses asks) (next : state.pass + 1 ≤ maxPass)
    (most : maxPass ≤ max (state.pass + 1) (Ask.bound asks)) : PartPass state asks .paused maxPass

theorem PartPass.of_answer {state : PassState} {asks : List Ask} {flow : Flow} {t : Tracker}
    (answer : (Tracker.ofState state).answer asks = some (flow, t)) :
    PartPass state asks flow t.maxPass := by
  have least := Ask.one_le_bound asks
  cases flow with
  | completed =>
    obtain ⟨few, _, most⟩ := Tracker.answer_completed answer rfl (Nat.le_refl 1) (Nat.zero_le _)
    simp only [Tracker.ofState] at few most
    rw [most, Nat.max_eq_right least]
    exact .ended (by omega)
  | paused =>
    obtain ⟨many, _, next, most⟩ := Tracker.answer_paused answer rfl (Nat.zero_le _)
    simp only [Tracker.ofState, Tracker.pass] at many next most
    exact .stopped (by omega) next (by omega)

/-- What a pass finds out from both parts. -/
inductive FindsOut (j : SlideJob) (settings : Settings) (state : PassState) (o : Outcome) : Prop
  | ended (paused : o.paused = false) (few : j.pauseCount settings ≤ state.pauses)
    (all : o.maxPass = j.overlayBound settings)
  | stopped (paused : o.paused = true) (many : state.pauses < j.pauseCount settings)
    (next : state.pass + 1 ≤ o.maxPass)
    (most : o.maxPass ≤ max (state.pass + 1) (j.overlayBound settings))

theorem FindsOut.of_parts {state : PassState} {o : Outcome} {titleFlow flow : Flow}
    {titleMax contentMax : Nat} (title : PartPass state j.titleAsks titleFlow titleMax)
    (content : PartPass state (j.contentAsks settings) flow contentMax)
    (paused : o.paused = (titleFlow == .paused || flow == .paused))
    (maxPass : o.maxPass = max titleMax contentMax) : j.FindsOut settings state o := by
  have titleCount : Ask.pauses j.titleAsks ≤ j.pauseCount settings := Nat.le_max_right _ _
  have contentCount : Ask.pauses (j.contentAsks settings) ≤ j.pauseCount settings := Nat.le_max_left _ _
  cases title with
  | ended titleFew =>
    cases content with
    | ended contentFew =>
      exact .ended paused (Nat.max_le.mpr ⟨contentFew, titleFew⟩) (maxPass.trans (Nat.max_comm _ _))
    | stopped many next most =>
      exact .stopped paused (by omega) (by omega) (by unfold overlayBound; omega)
  | stopped many next most =>
    cases content with
    | ended contentFew => exact .stopped paused (by omega) (by omega) (by unfold overlayBound; omega)
    | stopped => exact .stopped paused (by omega) (by omega) (by unfold overlayBound; omega)

/-- The frame title of a pass, a part that ends at once without one. -/
theorem title_partPass (j : SlideJob) (settings : Settings) (state : PassState) :
    PartPass state j.titleAsks
      ((j.frameTitle.map fun f => (f.render settings state).flow).getD .completed)
      ((j.frameTitle.map fun f => (f.render settings state).tracker.maxPass).getD 1) := by
  unfold titleAsks
  cases j.frameTitle with
  | none => exact .ended (Nat.zero_le _)
  | some f => exact .of_answer (f.render_answers settings state)

/-- A pass finds out what its title and its content ask. -/
theorem render_findsOut {state : PassState} {o : Outcome} (asText : settings.nestedAsText = true)
    (rendered : j.render settings findImage state = .ok o) : j.FindsOut settings state o := by
  obtain ⟨flow, w, placed, ran, done, _, _, paused, maxPass⟩ := render_ok rendered
  obtain ⟨answer, deferred⟩ := runContent_answers ran
  -- nothing is put off, so nothing is placed after the content
  rw [deferred asText, placeDeferred_nil] at done
  cases Except.ok.inj done
  refine .of_parts (j.title_partPass settings state) (.of_answer answer) (paused.trans ?_) maxPass
  cases j.frameTitle <;> rfl

/-- What a state of a run and the passes before it know of the counts. A run learns of the pauses one by one, and
of an overlay behind a pause only later. -/
structure Counting (j : SlideJob) (settings : Settings) (state : PassState) (maxPass : Nat) : Prop where
  started : 1 ≤ state.pass
  inCount : state.pass ≤ j.passCount settings
  pauses : state.pauses = min (state.pass - 1) (j.pauseCount settings)
  least : min state.pass (1 + j.pauseCount settings) ≤ maxPass
  most : maxPass ≤ j.passCount settings

theorem counting_first (j : SlideJob) (settings : Settings) : j.Counting settings .first 1 := by
  have one : 1 ≤ j.passCount settings := Nat.le_trans (Nat.le_add_right 1 _) (Nat.le_max_left _ _)
  exact ⟨Nat.le_refl 1, one, by simp [PassState.first], Nat.min_le_left _ _, one⟩

/-- A pass raises the number of passes asked for, but not above the count. -/
theorem Counting.maxPass {state : PassState} {maxPass : Nat} {o : Outcome}
    (counting : j.Counting settings state maxPass) (found : j.FindsOut settings state o) :
    max maxPass o.maxPass ≤ j.passCount settings ∧
      min (state.pass + 1) (1 + j.pauseCount settings) ≤ max maxPass o.maxPass := by
  obtain ⟨started, _, pauses, least, most⟩ := counting
  unfold passCount at most ⊢
  cases found with
  | ended paused few all => omega
  | stopped paused many next atMost => omega

/-- A run ends with the pass whose number is the count. -/
theorem Counting.last {state : PassState} {maxPass : Nat} {o : Outcome}
    (counting : j.Counting settings state maxPass) (found : j.FindsOut settings state o)
    (last : isLast state maxPass o = true) :
    state.pass = j.passCount settings ∧ max maxPass o.maxPass = j.passCount settings := by
  obtain ⟨_, inCount, pauses, least, most⟩ := counting
  simp only [isLast, Bool.and_eq_true, Bool.not_eq_true', decide_eq_true_eq] at last
  obtain ⟨ends, reached⟩ := last
  unfold passCount at inCount most ⊢
  cases found with
  | ended paused few all => omega
  | stopped paused => exact absurd (ends.symm.trans paused) (by decide)

/-- A pass that is not the last leads to a state that counts. -/
theorem Counting.next {state : PassState} {maxPass : Nat} {o : Outcome}
    (counting : j.Counting settings state maxPass) (found : j.FindsOut settings state o)
    (more : isLast state maxPass o = false) :
    j.Counting settings ⟨state.pass + 1, state.pauses + if o.paused then 1 else 0⟩
      (max maxPass o.maxPass) := by
  obtain ⟨most, least⟩ := counting.maxPass found
  have goesOn := isLast_eq_false.mp more
  have pauses := counting.pauses
  have started := counting.started
  refine ⟨Nat.le_add_left _ _, ?_, ?_, least, most⟩
  · cases found with
    | ended paused few all =>
      rw [paused] at goesOn
      simp only [Bool.false_eq_true, false_or] at goesOn
      exact Nat.le_trans goesOn most
    | stopped paused many next atMost =>
      simp only [passCount]
      omega
  · cases found with
    | ended paused few all =>
      simp only [paused, Bool.false_eq_true, if_false]
      omega
    | stopped paused many next atMost =>
      simp only [paused, if_true]
      omega

/-- Every state of a run counts. -/
theorem Visits.counting {state : PassState} {maxPass : Nat} (asText : settings.nestedAsText = true)
    (visits : j.Visits settings findImage state maxPass) : j.Counting settings state maxPass := by
  induction visits with
  | first => exact j.counting_first settings
  | next _ rendered more _ ih => exact ih.next (render_findsOut asText rendered) (isLast_eq_false.mpr more)

/-- The passes of a run from a state on: numbered without gap up to the count, each rendered with one
more pause than the one before it while there are any, and asking for more and more passes. -/
structure Counted (j : SlideJob) (settings : Settings) (findImage : ImageFinder) (state : PassState)
    (maxPass : Nat) (passes : List Pass) : Prop where
  numbers : passes.map Pass.number = List.range' state.pass (j.passCount settings + 1 - state.pass)
  rendered : ∀ pass ∈ passes, ∃ o,
    j.render settings findImage ⟨pass.number, min (pass.number - 1) (j.pauseCount settings)⟩ = .ok o ∧
      pass.title = o.title ∧ pass.shapes = o.shapes
  above : ∀ asked ∈ passes.map Pass.maxPass, maxPass ≤ asked
  ascending : (passes.map Pass.maxPass).Pairwise (· ≤ ·)
  last : (passes.map Pass.maxPass).getLast? = some (j.passCount settings)

theorem Counted.single {state : PassState} {maxPass : Nat} {o : Outcome}
    (here : j.render settings findImage
      ⟨state.pass, min (state.pass - 1) (j.pauseCount settings)⟩ = .ok o)
    (atCount : state.pass = j.passCount settings)
    (asked : max maxPass o.maxPass = j.passCount settings) :
    j.Counted settings findImage state maxPass [passOf state maxPass o] := by
  refine ⟨?_, ?_, ?_, ?_, ?_⟩
  · have one : state.pass + 1 - state.pass = 1 := Nat.add_sub_cancel_left ..
    rw [← atCount, one]
    rfl
  · simpa [passOf] using ⟨o, here, rfl, rfl⟩
  · exact List.forall_mem_singleton.mpr (Nat.le_max_left maxPass o.maxPass)
  · simp
  · simp [passOf, asked]

theorem Counted.cons {state : PassState} {pauses maxPass : Nat} {o : Outcome} {rest : List Pass}
    (here : j.render settings findImage
      ⟨state.pass, min (state.pass - 1) (j.pauseCount settings)⟩ = .ok o)
    (inCount : state.pass + 1 ≤ j.passCount settings)
    (counted : j.Counted settings findImage ⟨state.pass + 1, pauses⟩ (max maxPass o.maxPass) rest) :
    j.Counted settings findImage state maxPass (passOf state maxPass o :: rest) := by
  refine ⟨?_, ?_, ?_, ?_, ?_⟩
  · have left :
        j.passCount settings + 1 - state.pass = j.passCount settings + 1 - (state.pass + 1) + 1 := by
      omega
    rw [List.map_cons, counted.numbers, left, List.range'_succ]
    rfl
  · intro pass atPass
    rcases List.mem_cons.mp atPass with rfl | later
    · exact ⟨o, here, rfl, rfl⟩
    · exact counted.rendered pass later
  · intro asked atAsked
    rcases List.mem_cons.mp atAsked with rfl | later
    · exact Nat.le_max_left _ _
    · exact Nat.le_trans (Nat.le_max_left _ _) (counted.above asked later)
  · exact List.pairwise_cons.mpr ⟨counted.above, counted.ascending⟩
  · rw [List.map_cons, List.getLast?_cons, counted.last]
    rfl

/-- A run that never fails goes on to the pass whose number is the count, or to the limit of passes. -/
theorem passesFrom_counted {state : PassState} {maxPass : Nat} (asText : settings.nestedAsText = true)
    (safe : ∀ reached before, j.Visits settings findImage reached before →
      ∃ o, j.render settings findImage reached = .ok o)
    (visits : j.Visits settings findImage state maxPass) :
    (j.passCount settings ≤ settings.maxPasses → ∃ passes,
      j.passesFrom settings findImage state maxPass = .ok passes ∧
        j.Counted settings findImage state maxPass passes) ∧
    (settings.maxPasses < j.passCount settings → state.pass ≤ settings.maxPasses →
      j.passesFrom settings findImage state maxPass =
        .error (.passLimit j.index settings.maxPasses)) := by
  obtain ⟨o, rendered⟩ := safe state maxPass visits
  have counting := visits.counting asText
  have found := render_findsOut asText rendered
  have here :
      j.render settings findImage ⟨state.pass, min (state.pass - 1) (j.pauseCount settings)⟩ =
        .ok o := by
    rw [← counting.pauses]
    exact rendered
  cases last : isLast state maxPass o with
  | true =>
    obtain ⟨atCount, asked⟩ := counting.last found last
    exact ⟨fun _ => ⟨_, passesFrom_last rendered last, .single here atCount asked⟩,
      fun exceeds within => by omega⟩
  | false =>
    have inCount : state.pass + 1 ≤ j.passCount settings := (counting.next found last).inCount
    by_cases room : state.pass < settings.maxPasses
    · obtain ⟨enough, tooMany⟩ := passesFrom_counted asText safe
        (visits.next rendered (isLast_eq_false.mp last) room)
      rw [passesFrom_next rendered last room]
      refine ⟨fun allowed => ?_, fun exceeds _ => by rw [tooMany exceeds room]; rfl⟩
      obtain ⟨rest, ran, counted⟩ := enough allowed
      exact ⟨passOf state maxPass o :: rest, by rw [ran]; rfl, .cons here inCount counted⟩
    · refine ⟨fun allowed => by omega, fun _ _ => ?_⟩
      exact passesFrom_limit rendered last (Nat.le_of_not_lt room)
termination_by settings.maxPasses - state.pass

/-- Aligning the content moves shapes and leaves what the passes count alone. -/
theorem alignPasses_map {α : Type} (area : Rect) (align : VerticalAlign) (passes : List Pass)
    (f : Pass → α) (still : ∀ (p : Pass) (shapes : List Shape), f { p with shapes } = f p) :
    (alignPasses area align passes).map f = passes.map f := by
  unfold alignPasses
  split
  · rfl
  · simp [Function.comp_def, still]

/-- Walks that let every pause through come to their end and count what the lists of asks tell. -/
structure FullWalks (j : SlideJob) (settings : Settings) (findImage : ImageFinder) : Prop where
  content : ∀ state flow w, Ask.pauses (j.contentAsks settings) ≤ state.pauses →
    j.runContent settings findImage state = .ok (flow, w) →
      flow = .completed ∧ w.tracker.reached = Ask.pauses (j.contentAsks settings) ∧
        w.tracker.maxPass = Ask.bound (j.contentAsks settings)
  title : ∀ state f, Ask.pauses j.titleAsks ≤ state.pauses → j.frameTitle = some f →
    (f.render settings state).flow = .completed ∧
      (f.render settings state).tracker.reached = Ask.pauses j.titleAsks ∧
      (f.render settings state).tracker.maxPass = Ask.bound j.titleAsks

theorem fullWalks (j : SlideJob) (settings : Settings) (findImage : ImageFinder) :
    j.FullWalks settings findImage := by
  refine ⟨fun state flow w through ran => ?_, fun state f through atTitle => ?_⟩
  · exact Tracker.answer_through (runContent_answers ran).1 through
  · have asks : j.titleAsks = f.asks := by simp [titleAsks, atTitle]
    rw [asks] at through ⊢
    exact Tracker.answer_through (f.render_answers settings state) through

/-- The number of passes of a slide. It is one more than there are pauses, unless an overlay asks for
more, and the pauses are revealed one by one. -/
theorem compose_passCount (asText : settings.nestedAsText = true) (allowed : 1 ≤ settings.maxPasses)
    (safe : ∀ state maxPass, j.Visits settings findImage state maxPass →
      ∃ o, j.render settings findImage state = .ok o) :
    j.FullWalks settings findImage ∧
    ((∃ slide, j.compose settings findImage = .ok slide) ↔ j.passCount settings ≤ settings.maxPasses) ∧
    (∀ slide, j.compose settings findImage = .ok slide →
      slide.passes.map Pass.number = List.range' 1 (j.passCount settings) ∧
      (slide.passes.map Pass.maxPass).Pairwise (· ≤ ·) ∧
      (slide.passes.map Pass.maxPass).getLast? = some (j.passCount settings) ∧
      ∃ passes, slide.passes = alignPasses (j.contentArea settings) j.align passes ∧
        ∀ pass ∈ passes, ∃ o,
          j.render settings findImage
            ⟨pass.number, min (pass.number - 1) (j.pauseCount settings)⟩ = .ok o ∧
            pass.title = o.title ∧ pass.shapes = o.shapes) ∧
    (settings.maxPasses < j.passCount settings →
      j.compose settings findImage = .error (.passLimit j.index settings.maxPasses)) := by
  obtain ⟨enough, tooMany⟩ := passesFrom_counted asText safe .first
  have fails (exceeds : settings.maxPasses < j.passCount settings) :
      j.compose settings findImage = .error (.passLimit j.index settings.maxPasses) := by
    rw [compose, tooMany exceeds allowed]
    rfl
  have composes (within : j.passCount settings ≤ settings.maxPasses) : ∃ passes,
      j.compose settings findImage =
        .ok ⟨j.index, j.align, alignPasses (j.contentArea settings) j.align passes⟩ ∧
      j.Counted settings findImage .first 1 passes := by
    obtain ⟨passes, ran, counted⟩ := enough within
    exact ⟨passes, by rw [compose, ran]; rfl, counted⟩
  refine ⟨j.fullWalks settings findImage, ⟨fun ⟨slide, composed⟩ => ?_, fun within => ?_⟩, ?_, fails⟩
  · refine Nat.le_of_not_lt fun exceeds => ?_
    rw [fails exceeds] at composed
    cases composed
  · obtain ⟨passes, composed, _⟩ := composes within
    exact ⟨_, composed⟩
  · intro slide composed
    by_cases within : j.passCount settings ≤ settings.maxPasses
    · obtain ⟨passes, composed', counted⟩ := composes within
      cases Except.ok.inj (composed.symm.trans composed')
      simp only
      rw [alignPasses_map _ _ _ _ fun _ _ => rfl, alignPasses_map _ _ _ _ fun _ _ => rfl]
      exact ⟨counted.numbers, counted.ascending, counted.last, passes, rfl, counted.rendered⟩
    · rw [fails (Nat.lt_of_not_le within)] at composed
      cases composed

/-- The content of a slide without pictures and tables is walked on every pass. -/
theorem runContent_succeeds (plain : j.node.isPlain) (state : PassState) :
    ∃ flow w, j.runContent settings findImage state = .ok (flow, w) := by
  obtain ⟨flow, v, found⟩ := Content.Walk.visitAll_succeeds (j.context settings findImage)
    (j.contentStart settings findImage state) .visible j.node.children fun m atM => by
      refine plain m ?_
      rw [Node.preorder_eq_cons]
      exact .tail _ atM
  refine ⟨flow, v.close, ?_⟩
  rw [runContent, Content.Walk.run, Content.Walk.visitEach_visible, found]
  rfl

/-- A slide without pictures and tables is rendered on every pass. -/
theorem render_succeeds (asText : settings.nestedAsText = true) (plain : j.node.isPlain)
    (state : PassState) :
    ∃ o, j.render settings findImage state = .ok o := by
  obtain ⟨flow, w, ran⟩ : ∃ flow w, j.runContent settings findImage state = .ok (flow, w) :=
    runContent_succeeds plain state
  have deferred := (runContent_answers ran).2 asText
  refine ⟨j.outcomeOf settings state flow (w.flow, max (j.titlePasses settings state) w.tracker.maxPass), ?_⟩
  rw [render_eq, ran]
  simp only [bind, Except.bind, deferred, placeDeferred_nil]

/-- A slide without pictures and tables is composed if it has few enough passes. -/
theorem compose_succeeds (asText : settings.nestedAsText = true) (plain : j.node.isPlain)
    (within : j.passCount settings ≤ settings.maxPasses) :
    ∃ slide, j.compose settings findImage = .ok slide := by
  have safe (state : PassState) (maxPass : Nat) (_ : j.Visits settings findImage state maxPass) :
      ∃ o, j.render settings findImage state = .ok o := render_succeeds asText plain state
  obtain ⟨enough, _⟩ := passesFrom_counted asText safe .first
  obtain ⟨passes, ran, _⟩ := enough within
  exact ⟨_, by rw [compose, ran]; rfl⟩

/-- Two pauses, the second of them in content for the third pass only. -/
def pausedTwice : SlideJob :=
  .ofNode 1 ⟨.part .slide, .none, "", none,
    [.ofText "a", ⟨.pause, .none, "", none, []⟩,
      ⟨.veil .only, .ofSpec "3", "", none, [.ofText "b", ⟨.pause, .none, "", none, []⟩]⟩, .ofText "c"]⟩

/-- No picture is found. -/
def noPictures : ImageFinder := fun name => .error (.imageNotFound name [])

theorem compose_passCount_pausedTwice :
    ∃ slide, pausedTwice.compose .standard noPictures = .ok slide ∧
      slide.passes.map Pass.number = [1, 2, 3] := by
  have count : pausedTwice.passCount .standard = 3 := by decide
  have plain : pausedTwice.node.isPlain := by decide
  have safe (state : PassState) (maxPass : Nat)
      (_ : pausedTwice.Visits .standard noPictures state maxPass) :
      ∃ o, pausedTwice.render .standard noPictures state = .ok o := render_succeeds rfl plain state
  obtain ⟨_, composes, passes, _⟩ := compose_passCount rfl (by decide) safe
  obtain ⟨slide, composed⟩ := composes.mpr (by rw [count]; decide)
  exact ⟨slide, composed, by rw [(passes slide composed).1, count]; rfl⟩

end Unveil.SlideJob
