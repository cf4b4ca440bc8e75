import Mathlib.Tactic.Common

namespace Unveil

variable {ε α β : Type} {found : Except ε α}

/-- Two steps give a result if both of them do. -/
theorem bind_eq_ok_iff {f : α → Except ε β} {b : β} :
    found >>= f = .ok b ↔ ∃ a, found = .ok a ∧ f a = .ok b := by
  cases found with
  | error fault => exact iff_of_false nofun nofun
  | ok a => exact ⟨fun read => ⟨a, rfl, read⟩, fun ⟨_, same, read⟩ => by cases same; exact read⟩

theorem map_eq_ok_iff {f : α → β} {b : β} : found.map f = .ok b ↔ ∃ a, found = .ok a ∧ f a = b := by
  cases found with
  | error fault => exact iff_of_false nofun nofun
  | ok a => simp [Except.map]

theorem map_eq_error_iff {f : α → β} {fault : ε} : found.map f = .error fault ↔ found = .error fault := by
  cases found with
  | error other => simp [Except.map]
  | ok a => exact iff_of_false nofun nofun

/-- An error of two steps comes from one of them. -/
theorem bind_eq_error {f : α → Except ε β} {fault : ε} (failed : found >>= f = .error fault) :
    found = .error fault ∨ ∃ a, found = .ok a ∧ f a = .error fault := by
  cases found with
  | error other => exact .inl (congrArg Except.error (Except.error.inj failed))
  | ok a => exact .inr ⟨a, rfl, failed⟩

/-- What can be evaluated shows that there is a result with a property. -/
theorem exists_ok_of_decide {p : α → Prop} [DecidablePred p]
    (evaluated : found.toOption.map (fun a => decide (p a)) = some true) : ∃ a, found = .ok a ∧ p a := by
  cases found with
  | error fault => cases evaluated
  | ok a => exact ⟨a, rfl, of_decide_eq_true (Option.some.inj evaluated)⟩

end Unveil
