import Unveil.Proofs.Inline.Frame

namespace Unveil

/-- One thing that content asks of the tracker of its walk. A walk meets pauses and overlays in an order that
depends on the content alone. -/
inductive Ask where
  | pause
  /-- the overlay of a node -/
  | node (n : Node)
  /-- the overlay of a part that is no node -/
  | part (overlay : Overlay)
  /-- nothing is asked any more: the walk has failed -/
  | fault

namespace Ask

/-- What a node asks that may gate its content. -/
def gate (n : Node) : List Ask := if n.overlay.isUnrestricted then [] else [node n]

/-- Pauses that are met when every pause is let through. -/
def pauses : List Ask → Nat
  | [] => 0
  | pause :: rest => pauses rest + 1
  | node _ :: rest => pauses rest
  | part _ :: rest => pauses rest
  | fault :: _ => 0

/-- The largest bound of the overlays that are met when every pause is let through, at least 1. -/
def bound : List Ask → Nat
  | [] => 1
  | pause :: rest => bound rest
  | node n :: rest => max n.overlay.maxBound (bound rest)
  | part overlay :: rest => max overlay.maxBound (bound rest)
  | fault :: _ => 1

theorem one_le_bound (asks : List Ask) : 1 ≤ bound asks := by
  induction asks with
  | nil => exact Nat.le_refl 1
  | cons ask rest ih =>
    cases ask with
    | pause => exact ih
    | node n => exact Nat.le_trans ih (Nat.le_max_right _ _)
    | part overlay => exact Nat.le_trans ih (Nat.le_max_right _ _)
    | fault => exact Nat.le_refl 1

end Ask

namespace Tracker

/-- Answers what is asked, one thing after the other, until a pause is not let through; `none` when the walk fails
before. -/
def answer (t : Tracker) : List Ask → Option (Flow × Tracker)
  | [] => some (.completed, t)
  | .pause :: rest =>
    match t.pause with
    | (.completed, t) => t.answer rest
    | paused => some paused
  | .node n :: rest => (t.observe n.overlay).answer rest
  | .part overlay :: rest => (t.observe overlay).answer rest
  | .fault :: _ => none

/-- What stands behind a pause that is not let through is not asked. -/
theorem answer_append (t : Tracker) (first more : List Ask) :
    t.answer (first ++ more) =
      match t.answer first with
      | some (.completed, t) => t.answer more
      | ended => ended := by
  induction first generalizing t with
  | nil => rfl
  | cons ask rest ih =>
    cases ask with
    | pause =>
      simp only [List.cons_append, answer]
      rcases t.pause with ⟨flow, t⟩
      cases flow with
      | completed => exact ih t
      | paused => rfl
    | node n => exact ih _
    | part overlay => exact ih _
    | fault => rfl

theorem answer_append_completed {t u : Tracker} {first : List Ask}
    (answered : t.answer first = some (.completed, u)) (more : List Ask) :
    t.answer (first ++ more) = u.answer more := by
  rw [answer_append, answered]

theorem answer_append_paused {t u : Tracker} {first : List Ask}
    (answered : t.answer first = some (.paused, u)) (more : List Ask) :
    t.answer (first ++ more) = some (.paused, u) := by
  rw [answer_append, answered]

theorem answer_pause (t : Tracker) : t.answer [.pause] = some t.pause := by
  simp only [answer]
  rcases t.pause with ⟨flow, t⟩
  cases flow <;> rfl

/-- A gate asks what it notes. -/
theorem answer_gate (t : Tracker) (mode : Mode) (n : Node) :
    t.answer (Ask.gate n) = some (.completed, (mode.gate n t).2) := by
  rw [Mode.gate_snd]
  unfold Ask.gate
  split <;> rfl

theorem answer_gate_append (t : Tracker) (mode : Mode) (n : Node) (more : List Ask) :
    t.answer (Ask.gate n ++ more) = (mode.gate n t).2.answer more :=
  answer_append_completed (answer_gate t mode n) more

/-- A pause that is let through is counted. -/
theorem answer_pause_through {t : Tracker} (counting : t.ignoring = false)
    (passed : t.reached + 1 ≤ t.state.pauses) (more : List Ask) :
    t.answer (.pause :: more) = { t with reached := t.reached + 1 }.answer more := by
  have earlier : ¬t.state.pauses < t.reached + 1 := by omega
  simp only [answer, pause, counting, Bool.false_eq_true, if_false, earlier]

/-- A new pause ends the walk and asks for the next pass. -/
theorem answer_pause_stop {t : Tracker} (counting : t.ignoring = false)
    (new : t.state.pauses < t.reached + 1) (more : List Ask) :
    t.answer (.pause :: more) =
      some (.paused, { t with reached := t.reached + 1, maxPass := max t.maxPass (t.pass + 1) }) := by
  simp only [answer, pause, counting, Bool.false_eq_true, if_false, new, if_true, pass]

/-- A walk that comes to its end has met every pause and noted every overlay. -/
theorem answer_completed {t u : Tracker} {asks : List Ask}
    (answered : t.answer asks = some (.completed, u)) (counting : t.ignoring = false)
    (started : 1 ≤ t.maxPass) (passed : t.reached ≤ t.state.pauses) :
    t.reached + Ask.pauses asks ≤ t.state.pauses ∧ u.reached = t.reached + Ask.pauses asks ∧
      u.maxPass = max t.maxPass (Ask.bound asks) := by
  induction asks generalizing t with
  | nil =>
    cases answered
    exact ⟨passed, rfl, (Nat.max_eq_left started).symm⟩
  | cons ask rest ih =>
    cases ask with
    | pause =>
      by_cases new : t.state.pauses < t.reached + 1
      · rw [answer_pause_stop counting new] at answered
        cases answered
      · have through : t.reached + 1 ≤ t.state.pauses := by omega
        rw [answer_pause_through counting through] at answered
        obtain ⟨few, reached, most⟩ := ih answered counting started through
        simp only [Ask.pauses, Ask.bound] at few reached ⊢
        exact ⟨by omega, by omega, most⟩
    | node n =>
      have noted : 1 ≤ (t.observe n.overlay).maxPass := Nat.le_trans started (Nat.le_max_left _ _)
      obtain ⟨few, reached, most⟩ := ih answered counting noted passed
      refine ⟨few, reached, ?_⟩
      rw [most, Ask.bound, observe, Nat.max_assoc]
    | part overlay =>
      have noted : 1 ≤ (t.observe overlay).maxPass := Nat.le_trans started (Nat.le_max_left _ _)
      obtain ⟨few, reached, most⟩ := ih answered counting noted passed
      refine ⟨few, reached, ?_⟩
      rw [most, Ask.bound, observe, Nat.max_assoc]
    | fault => cases answered

/-- A walk that is paused has met one pause more than are let through. It asks for the next pass, and
for no more than that and the overlays it may have met. -/
theorem answer_paused {t u : Tracker} {asks : List Ask}
    (answered : t.answer asks = some (.paused, u)) (counting : t.ignoring = false)
    (passed : t.reached ≤ t.state.pauses) :
    t.state.pauses < t.reached + Ask.pauses asks ∧ u.reached = t.state.pauses + 1 ∧
      t.pass + 1 ≤ u.maxPass ∧ u.maxPass ≤ max t.maxPass (max (t.pass + 1) (Ask.bound asks)) := by
  induction asks generalizing t with
  | nil => cases answered
  | cons ask rest ih =>
    cases ask with
    | pause =>
      by_cases new : t.state.pauses < t.reached + 1
      · rw [answer_pause_stop counting new] at answered
        cases answered
        simp only [Ask.pauses]
        omega
      · have through : t.reached + 1 ≤ t.state.pauses := by omega
        rw [answer_pause_through counting through] at answered
        obtain ⟨many, reached, next, most⟩ := ih answered counting through
        simp only [Ask.pauses, Ask.bound, pass] at many most next ⊢
        exact ⟨by omega, reached, next, most⟩
    | node n =>
      obtain ⟨many, reached, next, most⟩ := ih answered counting passed
      simp only [Ask.bound, observe, pass] at most next ⊢
      exact ⟨many, reached, next, by omega⟩
    | part overlay =>
      obtain ⟨many, reached, next, most⟩ := ih answered counting passed
      simp only [Ask.bound, observe, pass] at most next ⊢
      exact ⟨many, reached, next, by omega⟩
    | fault => cases answered

/-- A walk whose pauses are all let through comes to its end. -/
theorem answer_through {state : PassState} {asks : List Ask} {flow : Flow} {u : Tracker}
    (answered : (ofState state).answer asks = some (flow, u))
    (through : Ask.pauses asks ≤ state.pauses) :
    flow = .completed ∧ u.reached = Ask.pauses asks ∧ u.maxPass = Ask.bound asks := by
  cases flow with
  | completed =>
    obtain ⟨_, reached, most⟩ := answer_completed answered rfl (Nat.le_refl 1) (Nat.zero_le _)
    rw [reached, most]
    exact ⟨rfl, Nat.zero_add _, Nat.max_eq_right (Ask.one_le_bound asks)⟩
  | paused =>
    have many := (answer_paused answered rfl (Nat.zero_le _)).1
    simp only [ofState] at many
    omega

end Tracker

end Unveil
