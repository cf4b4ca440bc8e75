import Mathlib.Data.List.Forall2
import Unveil.Proofs.Ask
import Unveil.Proofs.Slot.Size

namespace Unveil

namespace Tracker

/-- The nodes that are asked about before the walk ends. -/
def met (t : Tracker) : List Ask → List Node
  | [] => []
  | .pause :: rest =>
    match t.pause with
    | (.completed, t) => t.met rest
    | (.paused, _) => []
  | .node n :: rest => n :: (t.observe n.overlay).met rest
  | .part overlay :: rest => (t.observe overlay).met rest
  | .fault :: _ => []

theorem met_append_completed {t u : Tracker} {first : List Ask}
    (answered : t.answer first = some (.completed, u)) (more : List Ask) :
    t.met (first ++ more) = t.met first ++ u.met more := by
  induction first generalizing t with
  | nil =>
    cases answered
    rfl
  | cons ask rest ih =>
    cases ask with
    | pause =>
      simp only [answer] at answered
      simp only [List.cons_append, met]
      rcases atPause : t.pause with ⟨flow, v⟩
      rw [atPause] at answered
      cases flow with
      | completed => exact ih answered
      | paused => cases answered
    | node n => exact congrArg (n :: ·) (ih answered)
    | part overlay => exact ih answered
    | fault => cases answered

/-- What is met of the first content is met in any case. -/
theorem met_append_subset (t : Tracker) (first more : List Ask) :
    t.met first ⊆ t.met (first ++ more) := by
  induction first generalizing t with
  | nil => exact List.nil_subset _
  | cons ask rest ih =>
    cases ask with
    | pause =>
      simp only [List.cons_append, met]
      rcases t.pause with ⟨flow, v⟩
      cases flow with
      | completed => exact ih v
      | paused => exact List.nil_subset _
    | node n => exact List.cons_subset_cons n (ih _)
    | part overlay => exact ih _
    | fault => exact List.nil_subset _

/-- Trackers of two passes that have met the same pauses and let the same through. -/
structure Alike (p q : Nat) (t u : Tracker) : Prop where
  left : t.pass = p
  right : u.pass = q
  pauses : t.state.pauses = u.state.pauses
  reached : t.reached = u.reached
  ignoring : t.ignoring = u.ignoring

end Tracker

/-- A node is decisive if its overlay may leave its content out or change its face. -/
def Node.isDecisive (n : Node) : Bool := n.kind = .veil .only || n.kind.isStyle

/-- Two passes agree on nodes if every decisive one is visible on both or on none of them. What is only hidden on
one of them takes its room on both. -/
def AgreeOn (p q : Nat) (nodes : List Node) : Prop :=
  ∀ n ∈ nodes, n.isDecisive = true → n.overlay.visible p = n.overlay.visible q

theorem AgreeOn.mono {p q : Nat} {nodes more : List Node} (agree : AgreeOn p q more)
    (among : nodes ⊆ more) :
    AgreeOn p q nodes := fun n atN => agree n (among atN)

theorem AgreeOn.parts {p q : Nat} {first more : List Node} (agree : AgreeOn p q (first ++ more)) :
    AgreeOn p q first ∧ AgreeOn p q more :=
  ⟨agree.mono (List.subset_append_left _ _), agree.mono (List.subset_append_right _ _)⟩

/-- Two walks that end alike. -/
structure EndAlike {σ : Type} (Alike : σ → σ → Prop) (found other : Flow × σ) : Prop where
  flow : found.1 = other.1
  state : Alike found.2 other.2

section

variable {p q : Nat} {t u : Tracker}

theorem AgreeOn.append (first : List Ask) {more : List Ask}
    (agree : AgreeOn p q (t.met (first ++ more))) :
    AgreeOn p q (t.met first) ∧
      ∀ v, t.answer first = some (.completed, v) → AgreeOn p q (v.met more) := by
  refine ⟨agree.mono (t.met_append_subset first more), fun v answered => agree.mono ?_⟩
  rw [t.met_append_completed answered]
  exact List.subset_append_right _ _

theorem Tracker.ofState_alike {state state' : PassState} (pauses : state.pauses = state'.pauses) :
    (Tracker.ofState state).Alike state.pass state'.pass (.ofState state') :=
  ⟨rfl, rfl, pauses, rfl, rfl⟩

theorem Tracker.ignoringPauses_alike {state state' : PassState}
    (pauses : state.pauses = state'.pauses) :
    (Tracker.ignoringPauses state).Alike state.pass state'.pass (.ignoringPauses state') :=
  ⟨rfl, rfl, pauses, rfl, rfl⟩

theorem Tracker.Alike.observe (alike : t.Alike p q u) (o : Overlay) :
    (t.observe o).Alike p q (u.observe o) :=
  ⟨alike.left, alike.right, alike.pauses, alike.reached, alike.ignoring⟩

/-- A pause stops both walks or none. -/
theorem Tracker.Alike.pause (alike : t.Alike p q u) : EndAlike (Tracker.Alike p q) t.pause u.pause := by
  obtain ⟨left, right, pauses, reached, ignoring⟩ := alike
  unfold Tracker.pause
  cases counts : t.ignoring with
  | true =>
    have counts' : u.ignoring = true := ignoring.symm.trans counts
    rw [counts']
    exact ⟨rfl, ⟨left, right, pauses, reached, ignoring⟩⟩
  | false =>
    have counts' : u.ignoring = false := ignoring.symm.trans counts
    simp only [counts', pauses, reached, Bool.false_eq_true, if_false]
    split
    · exact ⟨rfl, ⟨left, right, pauses, rfl, rfl⟩⟩
    · exact ⟨rfl, ⟨left, right, pauses, rfl, rfl⟩⟩

theorem Tracker.Alike.gate (alike : t.Alike p q u) (mode mode' : Mode) (n : Node) :
    (mode.gate n t).2.Alike p q (mode'.gate n u).2 := by
  rw [Mode.gate_snd, Mode.gate_snd]
  split
  · exact alike
  · exact alike.observe _

/-- Only the gate of an `only` node leaves content out. -/
theorem Mode.gate_emits (alike : t.Alike p q u) {mode mode' : Mode} (emits : mode.emits = mode'.emits)
    {n : Node} (agree : AgreeOn p q (t.met (Ask.gate n))) :
    (mode.gate n t).1.emits = (mode'.gate n u).1.emits := by
  have own : (ofNode n p).emits = (ofNode n q).emits := by
    unfold ofNode veiled
    by_cases only : n.kind = .veil .only
    · by_cases free : n.overlay.isUnrestricted
      · have shown (pass : Nat) : n.overlay.visible pass = true := by
          simp only [Overlay.isUnrestricted] at free
          simp [Overlay.visible, OverlaySet.visible, free]
        rw [shown, shown]
      · have met : t.met (Ask.gate n) = [n] := by
          rw [Ask.gate, if_neg free]
          rfl
        rw [met] at agree
        rw [agree n (.head _) (by simp [Node.isDecisive, only])]
    · rw [if_neg only]
      cases n.overlay.visible p <;> cases n.overlay.visible q <;> rfl
  rw [gate_fst, gate_fst, max_emits, max_emits, alike.left, alike.right, emits, own]

/-- What a gate lets in, and what is still met behind it. -/
theorem Mode.gate_agree (alike : t.Alike p q u) {mode mode' : Mode} (emits : mode.emits = mode'.emits)
    {n : Node} {more : List Ask} (agree : AgreeOn p q (t.met (Ask.gate n ++ more))) :
    (mode.gate n t).1.emits = (mode'.gate n u).1.emits ∧ AgreeOn p q ((mode.gate n t).2.met more) := by
  obtain ⟨here, below⟩ := agree.append _
  exact ⟨gate_emits alike emits here, below _ (Tracker.answer_gate t mode n)⟩

end

end Unveil
