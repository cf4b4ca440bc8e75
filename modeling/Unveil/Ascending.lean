namespace Unveil.Ascending

variable {α : Type} [LT α] [DecidableLT α]

/-- Puts a number into an ascending list, at its place; the list stays as it is when the number is there. So a
set of numbers has one list, and equal sets are equal values. -/
def insert (x : α) : List α → List α
  | [] => [x]
  | y :: ys =>
    if x < y then x :: y :: ys
    else if y < x then y :: insert x ys
    else y :: ys

variable {x z : α} {xs : List α}

/-- Inserting adds one member. -/
theorem mem_insert (total : ∀ a b : α, a < b ∨ a = b ∨ b < a) :
    z ∈ insert x xs ↔ z = x ∨ z ∈ xs := by
  induction xs with
  | nil => simp [insert]
  | cons y ys ih =>
    unfold insert
    split
    · simp
    · split
      · simp only [List.mem_cons, ih, or_left_comm]
      · have same : x = y := by
          rcases total x y with below | same | above
          · contradiction
          · exact same
          · contradiction
        simp [same]

/-- Inserting keeps the order. -/
theorem pairwise_insert (total : ∀ a b : α, a < b ∨ a = b ∨ b < a)
    (trans : ∀ {a b c : α}, a < b → b < c → a < c) (ordered : xs.Pairwise (· < ·)) :
    (insert x xs).Pairwise (· < ·) := by
  induction xs with
  | nil => simp [insert]
  | cons y ys ih =>
    obtain ⟨first, rest⟩ := List.pairwise_cons.mp ordered
    unfold insert
    split
    · rename_i below
      refine List.pairwise_cons.mpr ⟨fun z inside => ?_, ordered⟩
      rcases List.mem_cons.mp inside with rfl | later
      · exact below
      · exact trans below (first z later)
    · split
      · rename_i above
        refine List.pairwise_cons.mpr ⟨fun z inside => ?_, ih rest⟩
        rcases (mem_insert total).mp inside with rfl | later
        · exact above
        · exact first z later
      · exact ordered

end Unveil.Ascending
