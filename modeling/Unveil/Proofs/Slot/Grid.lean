import Unveil.Proofs.Reveal.Grid
import Unveil.Proofs.Slot.Layout

namespace Unveil

open Float.Model.UnpackedFloat (Sign)

theorem forall₂_modify {α β : Type} {R : α → β → Prop} {xs : List α} {ys : List β}
    (same : List.Forall₂ R xs ys)
    {f : α → α} {g : β → β} (changes : ∀ x y, R x y → R (f x) (g y)) (i : Nat) :
    List.Forall₂ R (xs.modify i f) (ys.modify i g) := by
  induction same generalizing i with
  | nil => simp
  | cons first rest ih =>
    cases i with
    | zero => exact .cons (changes _ _ first) rest
    | succ i => exact .cons first (ih i)

theorem map_eq_of_forall₂ {α β : Type} {R : α → α → Prop} {f : α → β} {xs ys : List α}
    (same : List.Forall₂ R xs ys) (equal : ∀ x y, R x y → f x = f y) : xs.map f = ys.map f := by
  induction same with
  | nil => rfl
  | cons first rest ih => rw [List.map_cons, List.map_cons, equal _ _ first, ih]

theorem rel_getElem? {α β : Type} {R : α → β → Prop} {xs : List α} {ys : List β}
    (same : List.Forall₂ R xs ys) (i : Nat) : Option.Rel R xs[i]? ys[i]? := by
  induction same generalizing i with
  | nil => exact .none
  | cons first rest ih =>
    cases i with
    | zero => exact .some first
    | succ i => simpa using ih i

namespace Cell

def outline (c : Cell) : Cell := { c with body := c.body.outline }

/-- Cells of the same look with alike texts. -/
structure Alike (s : Sign) (c d : Cell) : Prop where
  body : c.body.Alike s d.body
  align : c.align = d.align
  borders : c.borders = d.borders

theorem Alike.outline {s : Sign} {c d : Cell} (alike : Alike s c d) : c.outline = d.outline := by
  obtain ⟨body, align, borders⟩ := alike
  simp only [Cell.outline, body.outline, align, borders]

end Cell

namespace Grid

def outline (g : Grid) : Grid := { g with rows := g.rows.map (List.map Cell.outline) }

/-- Tables of the same structure with alike texts. -/
structure Alike (s : Sign) (g h : Grid) : Prop where
  rows : List.Forall₂ (List.Forall₂ (Cell.Alike s)) g.rows h.rows
  rest : { g with rows := [] } = { h with rows := [] }

/-- Tables that are alike have the same outline. -/
theorem Alike.outline {s : Sign} {g h : Grid} (alike : Alike s g h) : g.outline = h.outline := by
  have rows : g.rows.map (List.map Cell.outline) = h.rows.map (List.map Cell.outline) :=
    map_eq_of_forall₂ alike.rows fun _ _ cells => map_eq_of_forall₂ cells fun _ _ same => same.outline
  have whole :=
    congrArg (fun k : Grid => { k with rows := g.rows.map (List.map Cell.outline) }) alike.rest
  rw [Grid.outline, Grid.outline, ← rows]
  exact whole

theorem rowHeight_outline (g : Grid) (row : Nat) (cells : List Cell) :
    g.outline.rowHeight row (cells.map Cell.outline) = g.rowHeight row cells := by
  unfold rowHeight
  rw [List.zipIdx_map, List.filterMap_map]
  have same : ∀ p ∈ cells.zipIdx,
      (if g.outline.isCovered row p.2 then none
        else some ((Cell.outline p.1).body.heightAt (g.outline.cellWidth row p.2))) =
      if g.isCovered row p.2 then none else some (p.1.body.heightAt (g.cellWidth row p.2)) := by
    intro p _
    rw [← TextBody.heightAt_outline p.1.body]
    rfl
  exact congrArg (fun heights => Numeral.largest 0.0 heights + 2.0 * Metrics.padding)
    (List.filterMap_congr same)

/-- A table is measured by the lines of its texts, so it is as high as its outline. -/
theorem height_outline (g : Grid) : g.outline.height = g.height := by
  have heights : g.outline.rowHeights = g.rowHeights := by
    unfold rowHeights
    have rows : g.outline.rows = g.rows.map (List.map Cell.outline) := rfl
    rw [rows, List.zipIdx_map, List.map_map]
    exact List.map_congr_left fun p _ => g.rowHeight_outline p.2 p.1
  rw [height, height, heights]

theorem requiredWidth_outline (g : Grid) (col : Nat) :
    g.outline.requiredWidth col = g.requiredWidth col := by
  unfold requiredWidth
  have rows : g.outline.rows = g.rows.map (List.map Cell.outline) := rfl
  rw [rows, List.zipIdx_map, List.filterMap_map]
  have same : ∀ p ∈ g.rows.zipIdx,
      (if g.outline.isCovered p.2 col ||
        ((g.outline.mergeAt? p.2 col).map fun m => m.span != 1).getD false then none
        else (p.1.map Cell.outline)[col]?.map fun cell => Line.maxWidth (cell.body.layout unbounded)) =
      if g.isCovered p.2 col || ((g.mergeAt? p.2 col).map fun m => m.span != 1).getD false then none
        else p.1[col]?.map fun cell => Line.maxWidth (cell.body.layout unbounded) := by
    intro p _
    have widths :
        (p.1.map Cell.outline)[col]?.map (fun cell => Line.maxWidth (cell.body.layout unbounded)) =
        p.1[col]?.map fun cell => Line.maxWidth (cell.body.layout unbounded) := by
      rw [List.getElem?_map, Option.map_map]
      exact Option.map_congr fun cell _ => cell.body.maxWidth_outline unbounded
    rw [widths]
    rfl
  exact congrArg (fun widths => Numeral.largest 0.0 widths + 2.0 * Metrics.padding)
    (List.filterMap_congr same)

namespace Alike

variable {s : Sign} {g h : Grid}

theorem rowCount (alike : Alike s g h) : g.rowCount = h.rowCount := alike.rows.length_eq

theorem cell? (alike : Alike s g h) (row col : Nat) :
    Option.Rel (Cell.Alike s) (g.cell? row col) (h.cell? row col) := by
  unfold Grid.cell?
  have rows := rel_getElem? alike.rows row
  generalize g.rows[row]? = found at rows ⊢
  generalize h.rows[row]? = other at rows ⊢
  cases rows with
  | none => exact .none
  | some cells => exact rel_getElem? cells col

theorem mapCell (alike : Alike s g h) {e f : Cell → Cell}
    (changes : ∀ c d, c.Alike s d → (e c).Alike s (f d)) (row col : Nat) :
    Alike s (g.mapCell row col e) (h.mapCell row col f) :=
  ⟨forall₂_modify alike.rows (fun _ _ cells => forall₂_modify cells changes col) row, alike.rest⟩

theorem mapBody (alike : Alike s g h) {e f : Cell → TextBody}
    (bodies : ∀ c d, c.Alike s d → (e c).Alike s (f d)) (row col : Nat) :
    Alike s (g.mapCell row col fun cell => { cell with body := e cell })
      (h.mapCell row col fun cell => { cell with body := f cell }) := by
  refine alike.mapCell (fun c d same => ?_) row col
  exact { same with body := bodies c d same }

theorem addHorizontal (alike : Alike s g h) (i : Nat) :
    Alike s (g.addHorizontal i) (h.addHorizontal i) :=
  ⟨alike.rows, congrArg (·.addHorizontal i) alike.rest⟩

theorem addPartial (alike : Alike s g h) (line : PartialLine) :
    Alike s (g.addPartial line) (h.addPartial line) :=
  ⟨alike.rows, congrArg (·.addPartial line) alike.rest⟩

theorem addMerge (alike : Alike s g h) (m : Merge) : Alike s (g.addMerge m) (h.addMerge m) :=
  ⟨alike.rows, congrArg (·.addMerge m) alike.rest⟩

theorem keepRows (alike : Alike s g h) (count : Nat) :
    Alike s (g.keepRows count) (h.keepRows count) := by
  unfold Grid.keepRows
  rw [alike.rowCount]
  split
  · exact alike
  · exact ⟨List.forall₂_take count alike.rows, congrArg (fun k : Grid =>
      { k with
        merges := k.merges.filter (·.row < count)
        horizontals := k.horizontals.filter (· ≤ count)
        partials := k.partials.filter (·.row ≤ count) }) alike.rest⟩

theorem fitColumns (alike : Alike s g h) : Alike s g.fitColumns h.fitColumns := by
  have required (col : Nat) : g.requiredWidth col = h.requiredWidth col := by
    rw [← requiredWidth_outline g, alike.outline, requiredWidth_outline]
  refine ⟨alike.rows, ?_⟩
  unfold Grid.fitColumns
  simp only [required]
  exact congrArg (fun k : Grid =>
    { k with
      columns := k.columns.zipIdx.map fun ((column, col) : Column × Nat) =>
        if column.fixed then column
        else { column with width := Numeral.smaller column.width (h.requiredWidth col) } }) alike.rest

end Alike

theorem empty_alike (s : Sign) (columns : List Column) (rows : Nat) (size : Float32) :
    Alike s (Grid.empty columns rows size) (Grid.empty columns rows size) := by
  refine ⟨?_, rfl⟩
  refine List.forall₂_same.mpr fun cells atCells => List.forall₂_same.mpr fun cell atCell => ?_
  rw [List.eq_of_mem_replicate atCells] at atCell
  rw [List.eq_of_mem_replicate atCell]
  exact ⟨.refl (TextBody.ofSize_sound s size), rfl, rfl⟩

end Grid

end Unveil
