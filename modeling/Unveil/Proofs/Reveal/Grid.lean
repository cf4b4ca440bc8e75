import Unveil.Proofs.Reveal.Inline
import Unveil.Proofs.Table.Shape

namespace Unveil

/-- Where nothing comes after an entry, a change of it shows at the end. -/
theorem flatMap_modify_last {α β : Type} (p : α → List β) (f : α → α) {l : List α} {i : Nat} {x : α}
    (atI : l[i]? = some x) (after : ∀ j y, i < j → l[j]? = some y → p y = []) :
    (l.modify i f).flatMap p = (l.take i).flatMap p ++ p (f x) := by
  obtain ⟨inside, rfl⟩ := List.getElem?_eq_some_iff.mp atI
  have nothing : (l.drop (i + 1)).flatMap p = [] := by
    refine List.flatMap_eq_nil_iff.mpr fun y atY => ?_
    obtain ⟨j, eq⟩ := List.getElem?_of_mem atY
    rw [List.getElem?_drop] at eq
    exact after _ y (by omega) eq
  rw [List.modify_eq_take_cons_drop inside, List.flatMap_append, List.flatMap_cons, nothing, List.append_nil]

/-- Of two changes of such an entry, one shows no more than the other. -/
theorem flatMap_modify_prefix {α β : Type} (p : α → List β) {f g : α → α} (l : List α) (i : Nat)
    (here : ∀ x, l[i]? = some x → p (f x) <+: p (g x))
    (after : ∀ j x, i < j → l[j]? = some x → p x = []) :
    (l.modify i f).flatMap p <+: (l.modify i g).flatMap p := by
  cases atI : l[i]? with
  | none => simp [List.modify_eq_self (List.getElem?_eq_none_iff.mp atI)]
  | some x =>
    rw [flatMap_modify_last p f atI after, flatMap_modify_last p g atI after]
    exact (List.prefix_append_right_inj _).mpr (here x atI)

/-- Writing at the end of such an entry writes at the end of all. -/
theorem flatMap_modify_append {α β : Type} (p : α → List β) {f : α → α} {l : List α} {i : Nat} {x : α}
    {more : List β} (atI : l[i]? = some x) (here : p (f x) = p x ++ more)
    (after : ∀ j y, i < j → l[j]? = some y → p y = []) : (l.modify i f).flatMap p = l.flatMap p ++ more := by
  have before := flatMap_modify_last p id atI after
  rw [List.modify_id, id] at before
  rw [flatMap_modify_last p f atI after, before, here, List.append_assoc]

namespace Grid

/-- Every number of rows holds no more in the one grid than in the other, and it comes first there. -/
def Behind (g h : Grid) : Prop := ∀ n, charsOf (g.rows.take n) <+: charsOf (h.rows.take n)

/-- Nothing was written behind a place. While that is so, writing adds characters at the end of the table, also of
the rows that a pause leaves. -/
def EmptyAfter (g : Grid) (row col : Nat) : Prop :=
  ∀ r c cell, g.cell? r c = some cell → row < r ∨ row = r ∧ col < c → cell.body.chars = []

variable {g h : Grid} {row col : Nat}

theorem Behind.refl (g : Grid) : Behind g g := fun _ => List.prefix_rfl

theorem Behind.trans {k : Grid} (first : Behind g h) (second : Behind h k) : Behind g k :=
  fun n => (first n).trans (second n)

theorem Behind.of_rows (same : h.rows = g.rows) : Behind g h := by
  have equal (n : Nat) : charsOf (g.rows.take n) = charsOf (h.rows.take n) := by rw [same]
  exact fun n => equal n ▸ List.prefix_rfl

/-- Rows that are left away make a grid shorter. -/
theorem Behind.take_le (behind : Behind g h) {n m : Nat} (fewer : n ≤ m) :
    charsOf (g.rows.take n) <+: charsOf (h.rows.take m) := by
  refine (behind n).trans ?_
  obtain ⟨more, rfl⟩ := Nat.le.dest fewer
  rw [List.take_add, charsOf, charsOf, List.flatMap_append]
  exact List.prefix_append _ _

theorem cell?_mapCell (g : Grid) (row col : Nat) (f : Cell → Cell) (r c : Nat) :
    (g.mapCell row col f).cell? r c =
      if row = r ∧ col = c then (g.cell? r c).map f else g.cell? r c := by
  unfold cell? mapCell
  simp only [List.getElem?_modify]
  cases g.rows[r]? with
  | none => simp
  | some cells =>
    by_cases inRow : row = r
    · by_cases inCol : col = c
      · simp [inRow, inCol]
      · simp [inRow, inCol]
    · simp [inRow]

theorem EmptyAfter.mono (empty : g.EmptyAfter row col) {row' col' : Nat}
    (later : row < row' ∨ row = row' ∧ col ≤ col') : g.EmptyAfter row' col' :=
  fun r c cell atCell after => empty r c cell atCell (by omega)

/-- Writing into a cell leaves those behind it empty. -/
theorem EmptyAfter.mapCell (empty : g.EmptyAfter row col) (f : Cell → Cell) :
    (g.mapCell row col f).EmptyAfter row col := by
  intro r c cell atCell after
  rw [cell?_mapCell, if_neg (by omega)] at atCell
  exact empty r c cell atCell after

/-- Two texts for the same cell, of which one is behind the other. -/
theorem EmptyAfter.behind_mapCell (empty : g.EmptyAfter row col) {f f' : Cell → Cell}
    (here : ∀ cell, g.cell? row col = some cell → (f cell).body.chars <+: (f' cell).body.chars) :
    Behind (g.mapCell row col f) (g.mapCell row col f') := by
  intro n
  have inTake (r : Nat) (cells : List Cell) (atRow : (g.rows.take n)[r]? = some cells) :
      g.rows[r]? = some cells := by
    rw [List.getElem?_take] at atRow
    split at atRow
    · exact atRow
    · cases atRow
  unfold Grid.mapCell charsOf
  rw [List.take_modify, List.take_modify]
  refine flatMap_modify_prefix _ _ row (fun cells atRow => ?_) fun r cells later atRow => ?_
  · refine flatMap_modify_prefix _ _ col (fun cell atCell => here cell ?_) fun c cell later atCell => ?_
    · simp [cell?, inTake row cells atRow, atCell]
    · exact empty row c cell (by simp [cell?, inTake row cells atRow, atCell]) (.inr ⟨rfl, later⟩)
  · refine List.flatMap_eq_nil_iff.mpr fun cell member => ?_
    obtain ⟨c, atCell⟩ := List.getElem?_of_mem member
    exact empty r c cell (by simp [cell?, inTake r cells atRow, atCell]) (.inl later)

/-- Writing at the end of a cell. -/
theorem EmptyAfter.behind_write (empty : g.EmptyAfter row col) {f : Cell → Cell}
    (here : ∀ cell, g.cell? row col = some cell → cell.body.chars <+: (f cell).body.chars) :
    Behind g (g.mapCell row col f) := by
  have still : g.mapCell row col id = g := by
    have rows : (fun cells : List Cell => cells.modify col id) = id := by
      funext cells
      exact List.modify_id col cells
    rw [Grid.mapCell, rows, List.modify_id]
  have behind := empty.behind_mapCell (f := id) here
  rwa [still] at behind

theorem empty_cell_chars {columns : List Column} {rows : Nat} {size : Float32} {r c : Nat} {cell : Cell}
    (atCell : (Grid.empty columns rows size).cell? r c = some cell) : cell.body.chars = [] := by
  rw [empty_cell? atCell]
  rfl

theorem keepRows_rows (g : Grid) (count : Nat) : (g.keepRows count).rows = g.rows.take count := by
  unfold keepRows
  by_cases all : g.rowCount ≤ count
  · rw [if_pos all]
    exact (List.take_of_length_le all).symm
  · rw [if_neg all]

/-- The rows that a walk leaves. -/
def kept (pausedAt : Option RowCursor) (g : Grid) : Nat :=
  (pausedAt.map RowCursor.keptRows).getD g.rows.length

theorem toShape?_none_chars (g : Grid) (mode : Mode) :
    ((g.toShape? none mode).map Shape.chars).getD [] = if mode.emits then g.chars else [] := by
  unfold toShape?
  cases mode.emits with
  | false => rfl
  | true =>
    cases nothing : g.rowCount == 0 with
    | true =>
      have rows : g.rows = [] := by simpa [rowCount] using nothing
      simp [chars, charsOf, rows, nothing]
    | false =>
      simp only [nothing]
      rfl

/-- The characters of a table that is cut off are those of the rows that it keeps. -/
theorem toShape?_chars (g : Grid) (pausedAt : Option RowCursor) (mode : Mode) :
    ((g.toShape? pausedAt mode).map Shape.chars).getD [] =
      if mode.emits then charsOf (g.rows.take (kept pausedAt g)) else [] := by
  cases pausedAt with
  | none =>
    rw [toShape?_none_chars, kept, Option.map_none, Option.getD_none, List.take_length]
    rfl
  | some cursor =>
    refine ((g.keepRows cursor.keptRows).toShape?_none_chars mode).trans ?_
    rw [chars, keepRows_rows]
    rfl

/-- A grid that is cut off at a row shows no more than one that is cut off later or not at all. -/
theorem Behind.toShape? (behind : Behind g h) {cursor : RowCursor} {other : Option RowCursor}
    (later : ∀ stop, other = some stop → cursor.keptRows ≤ stop.keptRows) (mode : Mode) :
    ((g.toShape? (some cursor) mode).map Shape.chars).getD [] <+:
      ((h.toShape? other mode).map Shape.chars).getD [] := by
  rw [toShape?_chars, toShape?_chars]
  split
  · cases other with
    | none =>
      have all := behind.take_le (Nat.le_max_left cursor.keptRows h.rows.length)
      rw [List.take_of_length_le (Nat.le_max_right _ _)] at all
      rwa [kept, kept, Option.map_none, Option.getD_none, List.take_length]
    | some stop => exact behind.take_le (later stop rfl)
  · exact List.prefix_rfl

end Grid

end Unveil
