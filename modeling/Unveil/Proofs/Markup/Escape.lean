import Unveil.Markup.Element

namespace Unveil.Markup

/-- A character other than the ampersand stands for itself. -/
theorem unescape_cons {c : Char} (plain : c ≠ '&') (rest : List Char) :
    unescape (c :: rest) = c :: unescape rest := by
  rw [unescape] <;> simp [plain]

theorem unescape_escapeChar (c : Char) (rest : List Char) :
    unescape (escapeChar c ++ rest) = c :: unescape rest := by
  unfold escapeChar
  split
  · subst c; simp [unescape]
  · rename_i plain
    split
    · subst c; simp [unescape]
    · split
      · subst c; simp [unescape]
      · exact unescape_cons plain rest

theorem unescape_escapeValueChar (c : Char) (rest : List Char) :
    unescape (escapeValueChar c ++ rest) = c :: unescape rest := by
  unfold escapeValueChar
  split
  · subst c; simp [unescape]
  · exact unescape_escapeChar c rest

/-- Reading undoes any way of writing that it undoes character by character. -/
theorem unescape_flatMap {write : Char → List Char}
    (undone : ∀ c rest, unescape (write c ++ rest) = c :: unescape rest) (cs : List Char) :
    unescape (cs.flatMap write) = cs := by
  induction cs with
  | nil => rfl
  | cons c rest ih => rw [List.flatMap_cons, undone, ih]

/-- Reading gives back a text that was written. -/
theorem unescape_escapeText (s : String) : unescape (escapeText s).toList = s.toList := by
  rw [escapeText, String.toList_ofList]
  exact unescape_flatMap unescape_escapeChar s.toList

/-- Reading gives back a value that was written. -/
theorem unescape_escapeValue (s : String) : unescape (escapeValue s).toList = s.toList := by
  rw [escapeValue, String.toList_ofList]
  exact unescape_flatMap unescape_escapeValueChar s.toList

theorem escapeChar_clean (c : Char) : '<' ∉ escapeChar c ∧ '>' ∉ escapeChar c := by
  unfold escapeChar
  split
  · decide
  · split
    · decide
    · split
      · decide
      · rename_i less greater
        exact ⟨by simpa using Ne.symm less, by simpa using Ne.symm greater⟩

theorem escapeValueChar_clean (c : Char) :
    '<' ∉ escapeValueChar c ∧ '>' ∉ escapeValueChar c ∧ '"' ∉ escapeValueChar c := by
  unfold escapeValueChar
  split
  · decide
  · rename_i quote
    obtain ⟨less, greater⟩ := escapeChar_clean c
    refine ⟨less, greater, ?_⟩
    unfold escapeChar
    split
    · decide
    · split
      · decide
      · split
        · decide
        · simpa using Ne.symm quote

/-- The angles that stand around tags stand in no text. -/
theorem escapeText_clean (s : String) : '<' ∉ (escapeText s).toList ∧ '>' ∉ (escapeText s).toList := by
  simp only [escapeText, String.toList_ofList, List.mem_flatMap, not_exists, not_and]
  exact ⟨fun c _ => (escapeChar_clean c).1, fun c _ => (escapeChar_clean c).2⟩

/-- Neither angles nor quotes stand in a value. -/
theorem escapeValue_clean (s : String) :
    '<' ∉ (escapeValue s).toList ∧ '>' ∉ (escapeValue s).toList ∧ '"' ∉ (escapeValue s).toList := by
  simp only [escapeValue, String.toList_ofList, List.mem_flatMap, not_exists, not_and]
  exact ⟨fun c _ => (escapeValueChar_clean c).1, fun c _ => (escapeValueChar_clean c).2.1,
    fun c _ => (escapeValueChar_clean c).2.2⟩

end Unveil.Markup
