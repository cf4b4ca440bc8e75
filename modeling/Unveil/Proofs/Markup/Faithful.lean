import Unveil.Proofs.Markup.Emitted

namespace Unveil

namespace Grid

/-- The table without the rows that were taken away. -/
def undeclared (g : Grid) : Grid := { g with declaredRows := g.rowCount }

/-- Only merges can lie below the rows that are kept. -/
theorem row_lt_or_merge {g : Grid} {k : Stroke} (inside : k ∈ g.strokes) :
    k.row < g.rowCount ∨ ∃ m ∈ g.merges, k = ⟨m.row, m.col, .span m.span⟩ := by
  rcases mem_strokes inside with ⟨cells, atRow, _⟩ | line | merge
  · exact .inl (List.getElem?_eq_some_iff.mp atRow).1
  · exact .inl (mem_lineStrokes line).1
  · exact .inr (mem_mergeStrokes merge)

/-- Without merges below the rows that are kept, the strokes lie in these rows. -/
theorem InRange.undeclared {g : Grid} (inRange : g.InRange) (merges : ∀ m ∈ g.merges, m.row < g.rowCount) :
    g.undeclared.InRange := by
  intro k inside
  refine ⟨?_, (inRange k inside).2⟩
  rcases row_lt_or_merge inside with kept | ⟨m, inMerges, rfl⟩
  · exact kept
  · exact merges m inMerges

theorem Regular.undeclared {g : Grid} (regular : g.Regular) : g.undeclared.Regular :=
  ⟨⟨regular.shape.rows, regular.shape.cols⟩, Nat.le_refl _, regular.spans⟩

/-- A table that fits still does without the rows that were taken away. -/
theorem fits_cut {g h : Grid} (fits : g.Regular ∧ g.InRange)
    (cut : h = g ∨ h = g.undeclared ∧ ∀ m ∈ g.merges, m.row < g.rowCount) : h.Regular ∧ h.InRange := by
  rcases cut with rfl | ⟨rfl, merges⟩
  · exact fits
  · exact ⟨fits.1.undeclared, fits.2.undeclared merges⟩

end Grid

namespace Shape

mutual

/-- The shape with its tables changed. -/
def mapGrids (f : Grid → Grid) : Shape → Shape
  | single bounds (.table g) hidden => single bounds (.table (f g)) hidden
  | single bounds content hidden => single bounds content hidden
  | group bounds members hidden => group bounds (mapGridsAll f members) hidden

def mapGridsAll (f : Grid → Grid) : List Shape → List Shape
  | [] => []
  | s :: rest => mapGrids f s :: mapGridsAll f rest

end

mutual

theorem mapGrids_grids (f : Grid → Grid) : ∀ s : Shape, (s.mapGrids f).grids = s.grids.map f
  | single _ (.text _) _ => rfl
  | single _ (.image _) _ => rfl
  | single _ (.table _) _ => rfl
  | group _ members _ => mapGridsAll_grids f members

theorem mapGridsAll_grids (f : Grid → Grid) :
    ∀ shapes : List Shape, gridsAll (mapGridsAll f shapes) = (gridsAll shapes).map f
  | [] => rfl
  | s :: rest => by
    rw [mapGridsAll, gridsAll, mapGrids_grids f s, mapGridsAll_grids f rest, gridsAll, List.map_append]

end

mutual

theorem mapGrids_frame (f : Grid → Grid) : ∀ s : Shape, (s.mapGrids f).frame = s.frame
  | single _ (.text _) _ => rfl
  | single _ (.image _) _ => rfl
  | single _ (.table _) _ => rfl
  | group _ members _ => by rw [mapGrids, frame, frame, mapGridsAll_frames f members]

theorem mapGridsAll_frames (f : Grid → Grid) :
    ∀ shapes : List Shape, frames (mapGridsAll f shapes) = frames shapes
  | [] => rfl
  | s :: rest => by rw [mapGridsAll, frames, frames, mapGrids_frame f s, mapGridsAll_frames f rest]

end

theorem mapGridsAll_eq (f : Grid → Grid) (shapes : List Shape) : mapGridsAll f shapes = shapes.map (mapGrids f) := by
  induction shapes with
  | nil => rfl
  | cons s rest ih => rw [mapGridsAll, ih, List.map_cons]

end Shape

def Pass.mapGrids (f : Grid → Grid) (p : Pass) : Pass :=
  { p with title := p.title.map (Shape.mapGrids f), shapes := p.shapes.map (Shape.mapGrids f) }

def ComposedSlide.mapGrids (f : Grid → Grid) (slide : ComposedSlide) : ComposedSlide :=
  { slide with passes := slide.passes.map (Pass.mapGrids f) }

theorem Pass.mapGrids_allShapes (f : Grid → Grid) (p : Pass) :
    (p.mapGrids f).allShapes = Shape.mapGridsAll f p.allShapes := by
  rw [Shape.mapGridsAll_eq, allShapes, allShapes, List.map_append]
  rcases p with ⟨number, maxPass, _ | title, shapes⟩ <;> rfl

theorem ComposedSlide.mapGrids_grids (f : Grid → Grid) (slide : ComposedSlide) :
    (slide.mapGrids f).grids = slide.grids.map f := by
  rw [grids, grids, mapGrids, List.flatMap_map, List.map_flatMap]
  refine List.flatMap_congr fun p _ => ?_
  rw [Pass.grids, Pass.mapGrids_allShapes, Shape.mapGridsAll_grids, Pass.grids]

namespace Markup

variable {attributes : Grid → Nat → Nat → List Attribute} {f : Grid → Grid}

mutual

/-- Shapes are seen alike when their tables are. -/
theorem shapeOf_mapGrids :
    ∀ s : Shape, (∀ g ∈ s.grids, (f g).columns = g.columns ∧ gridRows attributes (f g) = gridRows attributes g) →
      shapeOf attributes (s.mapGrids f) = shapeOf attributes s
  | .single _ (.text _) _ => fun _ => rfl
  | .single _ (.image _) _ => fun _ => rfl
  | .single _ (.table g) _ => fun same => by
    obtain ⟨columns, rows⟩ := same g (by simp [Shape.grids])
    rw [Shape.mapGrids, shapeOf, shapeOf, columns, rows]
  | .group bounds members hidden => fun same => by
    have frame := Shape.mapGrids_frame f (.group bounds members hidden)
    rw [Shape.mapGrids] at frame ⊢
    rw [shapeOf, shapeOf, frame, shapesOf_mapGrids members same]

theorem shapesOf_mapGrids :
    ∀ shapes : List Shape,
      (∀ g ∈ Shape.gridsAll shapes, (f g).columns = g.columns ∧
        gridRows attributes (f g) = gridRows attributes g) →
      shapesOf attributes (Shape.mapGridsAll f shapes) = shapesOf attributes shapes
  | [] => fun _ => rfl
  | s :: rest => fun same => by
    obtain ⟨here, others⟩ := List.forall_mem_append.mp same
    rw [Shape.mapGridsAll, shapesOf, shapesOf, shapeOf_mapGrids s here, shapesOf_mapGrids rest others]

end

/-- The rows that are kept do not tell how many were declared. -/
theorem gridRows_cut {g h : Grid} (cut : h = g ∨ h = g.undeclared ∧ ∀ m ∈ g.merges, m.row < g.rowCount) :
    h.columns = g.columns ∧ gridRows drawnAttributes h = gridRows drawnAttributes g := by
  rcases cut with rfl | ⟨rfl, _⟩ <;> exact ⟨rfl, rfl⟩

theorem deckOf_mapGrids {digest : Pass → Option UInt64} {slides : List ComposedSlide}
    (same : ∀ slide ∈ slides, ∀ g ∈ slide.grids, (f g).columns = g.columns ∧
      gridRows attributes (f g) = gridRows attributes g) :
    deckOf attributes digest (slides.map (ComposedSlide.mapGrids f)) =
      deckOf attributes (fun p => digest (p.mapGrids f)) slides := by
  have passes : ((slides.map (ComposedSlide.mapGrids f)).flatMap fun slide => slide.passes.map (slide, ·)) =
      (slides.flatMap fun slide => slide.passes.map (slide, ·)).map fun p =>
        (p.1.mapGrids f, p.2.mapGrids f) := by
    rw [List.flatMap_map, List.map_flatMap]
    simp only [ComposedSlide.mapGrids, List.map_map]
    rfl
  rw [deckOf, deckOf, passes, List.length_map, List.map_map]
  refine congrArg (Element.node "deck" _) (List.map_congr_left fun p inside => ?_)
  obtain ⟨slide, pass⟩ := p
  obtain ⟨_, inSlides, atPass⟩ := List.mem_flatMap.mp inside
  obtain ⟨_, inPasses, mapped⟩ := List.mem_map.mp atPass
  cases mapped
  have shapes : shapesOf attributes (Shape.mapGridsAll f pass.allShapes) = shapesOf attributes pass.allShapes :=
    shapesOf_mapGrids pass.allShapes fun g inPass => same slide inSlides g (State.mem_grids inPasses inPass)
  simp only [Function.comp_apply, passOf, Pass.mapGrids_allShapes, shapes]
  rfl

namespace State

open Calls

/-- Slides that are accepted are seen in the finished markup, pass by pass, the title before the other shapes and
every shape in its place; of a table, the kept rows with the paragraphs of the cells that are not covered. Tables
may as well be handed over without the rows they declare beyond the kept ones, if no merge lies in these: the
markup is the same but for digests. The rows that a table declares beyond those it keeps leave no trace, as long
as no merge lies in them. -/
theorem emitSlides_faithful (config : Config) (format : SaveFormat) {slides : List ComposedSlide} {s : State}
    (regular : ∀ slide ∈ slides, ∀ g ∈ slide.grids, g.Regular)
    (accepted : Gives (emitSlides sink format slides) (ofConfig config) () s) :
    s.output = Element.printed config.pretty (deckOf drawnAttributes (digestFor config) slides) ∧
      ∀ f : Grid → Grid, (∀ slide ∈ slides, ∀ g ∈ slide.grids,
          f g = g ∨ f g = g.undeclared ∧ ∀ m ∈ g.merges, m.row < g.rowCount) →
        ∃ t digest, Gives (emitSlides sink format (slides.map (ComposedSlide.mapGrids f))) (ofConfig config) () t ∧
          t.output = Element.printed config.pretty (deckOf drawnAttributes digest slides) ∧
          (config.digests = false → t.output = s.output) := by
  have inRange := emitSlides_inRange accepted fun slide inSlides g inSlide =>
    (regular slide inSlides g inSlide).kept
  have fits : ∀ slide ∈ slides, ∀ g ∈ slide.grids, g.Regular ∧ g.InRange := fun slide inSlides g inSlide =>
    ⟨regular slide inSlides g inSlide, inRange slide inSlides g inSlide⟩
  obtain ⟨made, given, _, seen, written⟩ := emitSlides_accepted config format fits
  obtain ⟨_, rfl⟩ := given.unique accepted
  rw [seen] at written
  refine ⟨written, fun f cuts => ?_⟩
  have fitsCut : ∀ slide ∈ slides.map (ComposedSlide.mapGrids f), ∀ g ∈ slide.grids, g.Regular ∧ g.InRange := by
    intro _ inMapped g inSlide
    obtain ⟨slide, inSlides, rfl⟩ := List.mem_map.mp inMapped
    rw [ComposedSlide.mapGrids_grids] at inSlide
    obtain ⟨g, inGrids, rfl⟩ := List.mem_map.mp inSlide
    exact Grid.fits_cut (fits slide inSlides g inGrids) (cuts slide inSlides g inGrids)
  have same : ∀ slide ∈ slides, ∀ g ∈ slide.grids, (f g).columns = g.columns ∧
      gridRows drawnAttributes (f g) = gridRows drawnAttributes g :=
    fun slide inSlides g inSlide => gridRows_cut (cuts slide inSlides g inSlide)
  obtain ⟨t, givenT, _, seenT, writtenT⟩ := emitSlides_accepted config format fitsCut
  rw [seenT, deckOf_mapGrids same] at writtenT
  refine ⟨t, _, givenT, writtenT, fun off => ?_⟩
  rw [writtenT, written]
  congr
  funext p
  simp only [digestFor, off, Bool.false_eq_true, if_false]

/-- A table of two columns that keeps two of its three rows, with a merge in the row `row`. -/
def cutTable (row : Nat) : Grid :=
  ⟨[⟨.left, 5, true⟩, ⟨.right, 5, true⟩], List.replicate 2 (List.replicate 2 (.empty 10)), 3, [1], [0, 2], [],
    [⟨row, 0, 2⟩]⟩

/-- A slide with a title, and such a table in a group. -/
def cutSlide (row : Nat) : ComposedSlide :=
  ⟨1, .top, [⟨1, 1, some (.ofBody .zero (.ofSize 12)),
    [.group .zero [.ofBody .zero (.ofSize 10), .single .zero (.table (cutTable row)) false] false]⟩]⟩

theorem cutTable_regular (row : Nat) : (cutTable row).Regular :=
  ⟨⟨rfl, fun cells inside => by rw [List.eq_of_mem_replicate inside]; rfl⟩, by simp [Grid.rowCount, cutTable],
    by simp [cutTable]⟩

theorem cutSlide_grids {row : Nat} {g : Grid} {slide : ComposedSlide} (inSlides : slide ∈ [cutSlide row])
    (inSlide : g ∈ slide.grids) : g = cutTable row := by
  obtain rfl := List.mem_singleton.mp inSlides
  exact List.mem_singleton.mp inSlide

/-- A table is accepted with a merge below the rows it keeps, but not without the rows declared there. -/
theorem undeclared_refused :
    (∀ slide ∈ [cutSlide 2], ∀ g ∈ slide.grids, g.Regular) ∧
      (∃ s, Gives (emitSlides sink .markup [cutSlide 2]) (ofConfig .compact) () s) ∧
      ¬∃ t, Gives (emitSlides sink .markup [(cutSlide 2).mapGrids Grid.undeclared]) (ofConfig .compact) () t := by
  have regular : ∀ slide ∈ [cutSlide 2], ∀ g ∈ slide.grids, g.Regular := fun slide inSlides g inSlide => by
    rw [cutSlide_grids inSlides inSlide]
    exact cutTable_regular 2
  have inRange : (cutTable 2).InRange := by
    unfold Grid.InRange
    decide
  have outside : ¬(cutTable 2).undeclared.InRange := by
    unfold Grid.InRange
    decide
  refine ⟨regular, ?_, fun ⟨t, given⟩ => outside ?_⟩
  · have fits : ∀ slide ∈ [cutSlide 2], ∀ g ∈ slide.grids, g.Regular ∧ g.InRange := by
      intro slide inSlides g inSlide
      rw [cutSlide_grids inSlides inSlide]
      exact ⟨cutTable_regular 2, inRange⟩
    obtain ⟨s, given, _⟩ := emitSlides_accepted .compact .markup fits
    exact ⟨s, given⟩
  · refine emitSlides_inRange given (fun slide inSlides g inSlide => ?_) _ (.head _) _ (.head _)
    obtain rfl := List.mem_singleton.mp inSlides
    obtain rfl := List.mem_singleton.mp inSlide
    exact Nat.le_refl _

theorem emitSlides_faithful_cutSlide :
    ∃ s digest t, Gives (emitSlides sink .markup [cutSlide 0]) (ofConfig .debug) () s ∧
      s.output = Element.printed true (deckOf drawnAttributes (digestFor .debug) [cutSlide 0]) ∧
      Gives (emitSlides sink .markup [(cutSlide 0).mapGrids Grid.undeclared]) (ofConfig .debug) () t ∧
      t.output = Element.printed true (deckOf drawnAttributes digest [cutSlide 0]) := by
  have regular : ∀ slide ∈ [cutSlide 0], ∀ g ∈ slide.grids, g.Regular := fun slide inSlides g inSlide => by
    rw [cutSlide_grids inSlides inSlide]
    exact cutTable_regular 0
  have inRange : (cutTable 0).InRange := by
    unfold Grid.InRange
    decide
  have fits : ∀ slide ∈ [cutSlide 0], ∀ g ∈ slide.grids, g.Regular ∧ g.InRange := by
    intro slide inSlides g inSlide
    rw [cutSlide_grids inSlides inSlide]
    exact ⟨cutTable_regular 0, inRange⟩
  obtain ⟨s, accepted, _⟩ := emitSlides_accepted .debug .markup fits
  obtain ⟨written, cut⟩ := emitSlides_faithful .debug .markup regular accepted
  obtain ⟨t, digest, given, same, _⟩ := cut Grid.undeclared fun slide inSlides g inSlide => by
    rw [cutSlide_grids inSlides inSlide]
    exact .inr ⟨rfl, by decide⟩
  exact ⟨s, digest, t, accepted, written, given, same⟩

end State

end Markup

end Unveil
