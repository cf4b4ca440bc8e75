import Unveil.Proofs.Except
import Unveil.Slide

namespace Unveil.SlideJob

/-- The states of a run in which its passes are rendered, one after the other, each with the number of passes that
the passes before it ask for. -/
inductive Visits (j : SlideJob) (settings : Settings) (findImage : ImageFinder) : PassState → Nat → Prop
  | first : Visits j settings findImage .first 1
  | next {state : PassState} {maxPass : Nat} {o : Outcome} (before : Visits j settings findImage state maxPass)
    (rendered : j.render settings findImage state = .ok o)
    (more : o.paused = true ∨ state.pass < max maxPass o.maxPass)
    (room : state.pass < settings.maxPasses) :
    Visits j settings findImage ⟨state.pass + 1, state.pauses + if o.paused then 1 else 0⟩
      (max maxPass o.maxPass)

variable {j : SlideJob} {settings : Settings} {findImage : ImageFinder}

theorem Visits.one_le_pass {state : PassState} {maxPass : Nat}
    (visits : j.Visits settings findImage state maxPass) :
    1 ≤ state.pass := by
  cases visits with
  | first => exact Nat.le_refl 1
  | next => exact Nat.le_add_left _ _

/-- There is one state for each pass. -/
theorem Visits.unique {state other : PassState} {maxPass otherMax : Nat}
    (visits : j.Visits settings findImage state maxPass)
    (others : j.Visits settings findImage other otherMax) (same : state.pass = other.pass) :
    state = other ∧ maxPass = otherMax := by
  induction visits generalizing other otherMax with
  | first =>
    cases others with
    | first => exact ⟨rfl, rfl⟩
    | next before =>
      have positive := before.one_le_pass
      simp only [PassState.first] at same
      omega
  | next before rendered _ _ ih =>
    cases others with
    | first =>
      have positive := before.one_le_pass
      simp only [PassState.first] at same
      omega
    | next otherBefore otherRendered =>
      obtain ⟨rfl, rfl⟩ := ih otherBefore (Nat.succ.inj same)
      cases Except.ok.inj (rendered.symm.trans otherRendered)
      exact ⟨rfl, rfl⟩

/-- A pass as it stands in the run, before its content is aligned. -/
def passOf (state : PassState) (maxPass : Nat) (o : Outcome) : Pass :=
  ⟨state.pass, max maxPass o.maxPass, o.title, o.shapes⟩

/-- A pass after which the run ends. -/
def isLast (state : PassState) (maxPass : Nat) (o : Outcome) : Bool :=
  !o.paused && max maxPass o.maxPass ≤ state.pass

theorem isLast_eq_false {state : PassState} {maxPass : Nat} {o : Outcome} :
    isLast state maxPass o = false ↔ o.paused = true ∨ state.pass < max maxPass o.maxPass := by
  cases paused : o.paused with
  | true => simp [isLast, paused]
  | false =>
    simp only [isLast, paused, Bool.not_false, Bool.true_and, decide_eq_false_iff_not,
      Bool.false_eq_true, false_or]
    omega

theorem passesFrom_last {state : PassState} {maxPass : Nat} {o : Outcome}
    (rendered : j.render settings findImage state = .ok o) (last : isLast state maxPass o = true) :
    j.passesFrom settings findImage state maxPass = .ok [passOf state maxPass o] := by
  rw [passesFrom, rendered]
  exact if_pos last

theorem passesFrom_limit {state : PassState} {maxPass : Nat} {o : Outcome}
    (rendered : j.render settings findImage state = .ok o) (more : isLast state maxPass o = false)
    (full : settings.maxPasses ≤ state.pass) :
    j.passesFrom settings findImage state maxPass = .error (.passLimit j.index settings.maxPasses) := by
  rw [passesFrom, rendered]
  exact (if_neg (Bool.eq_false_iff.mp more)).trans (if_pos full)

theorem passesFrom_next {state : PassState} {maxPass : Nat} {o : Outcome}
    (rendered : j.render settings findImage state = .ok o) (more : isLast state maxPass o = false)
    (room : state.pass < settings.maxPasses) :
    j.passesFrom settings findImage state maxPass =
      (j.passesFrom settings findImage ⟨state.pass + 1, state.pauses + if o.paused then 1 else 0⟩
        (max maxPass o.maxPass)).map (passOf state maxPass o :: ·) := by
  rw [passesFrom, rendered]
  exact (if_neg (Bool.eq_false_iff.mp more)).trans (if_neg (Nat.not_le.mpr room))

/-- Slides that are rendered in the same way have the same passes. -/
theorem passesFrom_congr {k : SlideJob} (index : k.index = j.index)
    (same : ∀ state, k.render settings findImage state = j.render settings findImage state) (state : PassState)
    (maxPass : Nat) :
    k.passesFrom settings findImage state maxPass = j.passesFrom settings findImage state maxPass := by
  fun_induction j.passesFrom settings findImage state maxPass with
  | case1 state maxPass error failed => rw [passesFrom, same, failed]
  | case2 state _ o rendered _ _ last => exact passesFrom_last ((same state).trans rendered) last
  | case3 state _ o rendered _ more full =>
    rw [passesFrom_limit ((same state).trans rendered) (Bool.eq_false_iff.mpr more) full, index]
  | case4 state _ o rendered _ _ more room ih =>
    rw [passesFrom_next ((same state).trans rendered) (Bool.eq_false_iff.mpr more) (Nat.lt_of_not_le room)]
    exact congrArg (Except.map _) ih

/-- Every pass of a run was rendered in one of its states. -/
theorem passesFrom_visits {state : PassState} {maxPass : Nat} {passes : List Pass}
    (visits : j.Visits settings findImage state maxPass)
    (ran : j.passesFrom settings findImage state maxPass = .ok passes) :
    ∀ pass ∈ passes, ∃ reached before o, j.Visits settings findImage reached before ∧
      j.render settings findImage reached = .ok o ∧ pass = passOf reached before o := by
  cases rendered : j.render settings findImage state with
  | error error =>
    rw [passesFrom, rendered] at ran
    cases ran
  | ok o =>
    have here : ∃ reached before o', j.Visits settings findImage reached before ∧
        j.render settings findImage reached = .ok o' ∧ passOf state maxPass o = passOf reached before o' :=
      ⟨state, maxPass, o, visits, rendered, rfl⟩
    cases last : isLast state maxPass o with
    | true =>
      rw [passesFrom_last rendered last] at ran
      cases Except.ok.inj ran
      simpa using here
    | false =>
      by_cases room : state.pass < settings.maxPasses
      · rw [passesFrom_next rendered last room] at ran
        rcases later : j.passesFrom settings findImage
          ⟨state.pass + 1, state.pauses + if o.paused then 1 else 0⟩
          (max maxPass o.maxPass) with error | rest
        · rw [later] at ran
          cases ran
        · rw [later] at ran
          cases Except.ok.inj ran
          have others := passesFrom_visits (visits.next rendered (isLast_eq_false.mp last) room) later
          intro pass atPass
          rcases List.mem_cons.mp atPass with rfl | below
          · exact here
          · exact others pass below
      · rw [passesFrom_limit rendered last (Nat.le_of_not_lt room)] at ran
        cases ran
termination_by settings.maxPasses - state.pass

/-- The area, the size and the pictures that content is rendered with do not change during a run; this
is where the walk over the content of a pass starts. -/
def contentStart (j : SlideJob) (settings : Settings) (findImage : ImageFinder) (state : PassState) :
    Content.Walk :=
  .start (j.context settings findImage) (.ofState state) j.titlePage (.ofArea (j.contentArea settings))

/-- The walk over the content of a pass. -/
def runContent (j : SlideJob) (settings : Settings) (findImage : ImageFinder) (state : PassState) :
    Except DeckError (Flow × Content.Walk) :=
  (j.contentStart settings findImage state).run (j.context settings findImage)
    (j.node.children.map fun n => ⟨n, .visible⟩)

/-- Passes that the frame title of a pass asks for. -/
def titlePasses (j : SlideJob) (settings : Settings) (state : PassState) : Nat :=
  (j.frameTitle.map fun f => (f.render settings state).tracker.maxPass).getD 1

/-- What a pass makes of the end of the walk over its content and of the shapes that were placed. -/
def outcomeOf (j : SlideJob) (settings : Settings) (state : PassState) (flow : Flow) (placed : ShapeFlow × Nat) :
    Outcome where
  title := j.frameTitle.bind fun f => (f.render settings state).shape
  shapes := placed.1.shapes
  paused := (j.frameTitle.map fun f => (f.render settings state).flow == .paused).getD false || flow == .paused
  maxPass := placed.2

/-- What a pass is made of: the title, the content, and what was put off. -/
theorem render_eq (j : SlideJob) (settings : Settings) (findImage : ImageFinder) (state : PassState) :
    j.render settings findImage state =
      j.runContent settings findImage state >>= fun found =>
        j.placeDeferred (j.context settings findImage) state j.node.height found.2.flow found.2.deferred
            (max (j.titlePasses settings state) found.2.tracker.maxPass) >>= fun placed =>
          .ok (j.outcomeOf settings state found.1 placed) := by
  unfold render titlePasses outcomeOf
  cases j.frameTitle <;> rfl

/-- What one rendering consists of. -/
theorem render_ok {state : PassState} {o : Outcome}
    (rendered : j.render settings findImage state = .ok o) :
    ∃ flow w placed, j.runContent settings findImage state = .ok (flow, w) ∧
      j.placeDeferred (j.context settings findImage) state j.node.height w.flow w.deferred
        (max ((j.frameTitle.map fun f => (f.render settings state).tracker.maxPass).getD 1)
          w.tracker.maxPass) = .ok placed ∧
      o.title = j.frameTitle.bind (fun f => (f.render settings state).shape) ∧
        o.shapes = placed.1.shapes ∧
      o.paused = ((j.frameTitle.map fun f => (f.render settings state).flow == .paused).getD false ||
        flow == .paused) ∧
      o.maxPass = placed.2 := by
  rw [render_eq] at rendered
  obtain ⟨⟨flow, w⟩, ran, rendered⟩ := bind_eq_ok_iff.mp rendered
  obtain ⟨placed, done, made⟩ := bind_eq_ok_iff.mp rendered
  obtain rfl := Except.ok.inj made
  exact ⟨flow, w, placed, ran, done, rfl, rfl, rfl, rfl⟩

/-- Where nothing was put off, nothing is placed. -/
theorem placeDeferred_nil (j : SlideJob) (c : Context) (state : PassState) (rounds : Nat)
    (flow : ShapeFlow) (maxPass : Nat) :
    j.placeDeferred c state rounds flow [] maxPass = .ok (flow, maxPass) := by
  cases rounds <;> rfl

end Unveil.SlideJob
