import Unveil.Proofs.Ask

namespace Unveil

namespace Tracker

/-- The tracker of a walk that lets so many pauses through. -/
def allow (pauses : Nat) (t : Tracker) : Tracker := { t with state := { t.state with pauses } }

/-- A pause that is let through is let through where more are. -/
theorem pause_allow {t u : Tracker} {pauses : Nat} (more : t.state.pauses ≤ pauses)
    (through : t.pause = (.completed, u)) : (t.allow pauses).pause = (.completed, u.allow pauses) := by
  unfold pause at through ⊢
  cases ignoring : t.ignoring with
  | true =>
    simp only [ignoring, if_true] at through
    cases through
    simp only [allow, ignoring, if_true]
  | false =>
    simp only [ignoring, Bool.false_eq_true, if_false] at through
    split at through
    · cases through
    · rename_i passed
      cases through
      have passes : ¬pauses < t.reached + 1 := by omega
      simp only [allow, ignoring, Bool.false_eq_true, if_false, passes]

/-- No answer changes the pass that is rendered. -/
theorem answer_state {t u : Tracker} {asks : List Ask} {flow : Flow}
    (answered : t.answer asks = some (flow, u)) : u.state = t.state := by
  induction asks generalizing t with
  | nil =>
    cases answered
    rfl
  | cons ask rest ih =>
    cases ask with
    | pause =>
      have state := t.pause_state
      rw [answer] at answered
      rcases paused : t.pause with ⟨ended, v⟩
      rw [paused] at answered state
      cases ended with
      | completed => exact (ih answered).trans state
      | paused =>
        cases answered
        exact state
    | node n => exact (ih answered).trans (t.observe_state n.overlay)
    | part overlay => exact (ih answered).trans (t.observe_state overlay)
    | fault => cases answered

end Tracker

theorem Mode.gate_allow (mode : Mode) (n : Node) (t : Tracker) (pauses : Nat) :
    mode.gate n (t.allow pauses) = ((mode.gate n t).1, (mode.gate n t).2.allow pauses) := by
  refine Prod.ext ?_ ?_
  · rw [gate_fst, gate_fst]
    rfl
  · rw [gate_snd, gate_snd]
    split <;> rfl

variable {σ τ ε : Type}

/-- Two walks over the same content on one pass, the second with more pauses let through. A walk that is completed
comes out the same; after one that is paused, `Behind` says how what the second goes on to do relates to what the
first has done. -/
inductive Reveals (allow : σ → σ) (Behind : σ → σ → Prop) : Flow × σ → Flow × σ → Prop
  | completed (s : σ) : Reveals allow Behind (.completed, s) (.completed, allow s)
  | paused {s t : σ} {flow : Flow} (behind : Behind s t) : Reveals allow Behind (.paused, s) (flow, t)

/-- The same for walks that may fail. Nothing is said of the other when the first one fails. -/
inductive RevealsOk (allow : σ → σ) (Behind : σ → σ → Prop) :
    Except ε (Flow × σ) → Except ε (Flow × σ) → Prop
  | completed (s : σ) : RevealsOk allow Behind (.ok (.completed, s)) (.ok (.completed, allow s))
  | paused {s : σ} {more : Except ε (Flow × σ)} (behind : ∀ flow t, more = .ok (flow, t) → Behind s t) :
    RevealsOk allow Behind (.ok (.paused, s)) more
  | failed (error : ε) (more : Except ε (Flow × σ)) : RevealsOk allow Behind (.error error) more

variable {allow : σ → σ} {Behind : σ → σ → Prop}

theorem Reveals.ok {found more : Flow × σ} (reveals : Reveals allow Behind found more) :
    RevealsOk (ε := ε) allow Behind (.ok found) (.ok more) := by
  cases reveals with
  | completed s => exact .completed s
  | paused behind =>
    refine .paused fun flow t eq => ?_
    cases Except.ok.inj eq
    exact behind

/-- Looking at a part of the state, or putting the state into a larger one. -/
theorem Reveals.map {found more : Flow × σ} {larger : τ → τ} {Below : τ → τ → Prop}
    {f g : Flow → σ → τ} (reveals : Reveals allow Behind found more)
    (still : ∀ s, g .completed (allow s) = larger (f .completed s))
    (below : ∀ flow s t, Behind s t → Below (f .paused s) (g flow t)) :
    Reveals larger Below (found.1, f found.1 found.2) (more.1, g more.1 more.2) := by
  cases reveals with
  | completed s =>
    simp only [still]
    exact .completed (f .completed s)
  | paused behind => exact .paused (below _ _ _ behind)

theorem RevealsOk.map {found more : Except ε (Flow × σ)} {larger : τ → τ} {Below : τ → τ → Prop}
    {f g : Flow → σ → τ} (reveals : RevealsOk allow Behind found more)
    (still : ∀ s, g .completed (allow s) = larger (f .completed s))
    (below : ∀ flow s t, Behind s t → Below (f .paused s) (g flow t)) :
    RevealsOk larger Below (found.map fun r => (r.1, f r.1 r.2))
      (more.map fun r => (r.1, g r.1 r.2)) := by
  cases reveals with
  | completed s =>
    simp only [Except.map, still]
    exact .completed (f .completed s)
  | @paused s more behind =>
    refine .paused fun flow t eq => ?_
    rcases more with error | ⟨ended, u⟩
    · cases eq
    · cases Except.ok.inj eq
      exact below _ _ _ (behind _ _ rfl)
  | failed error more => exact .failed error _

end Unveil
