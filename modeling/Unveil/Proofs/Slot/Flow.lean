import Unveil.Pass.Table
import Unveil.Proofs.Slot.Grid

namespace Unveil

open Float.Model.UnpackedFloat (Sign)

def Content.outline : Content → Content
  | .text body => .text body.outline
  | .image picture => .image picture
  | .table grid => .table grid.outline

namespace Shape

mutual

/-- A shape letter by letter, without the flags that hide it or its text. -/
def outline : Shape → Shape
  | single bounds content _ => single bounds content.outline false
  | group bounds members _ => group bounds (outlineAll members) false

def outlineAll : List Shape → List Shape
  | [] => []
  | s :: rest => outline s :: outlineAll rest

end

theorem outlineAll_eq (shapes : List Shape) : outlineAll shapes = shapes.map outline := by
  induction shapes with
  | nil => rfl
  | cons s rest ih => rw [outlineAll, ih, List.map_cons]

@[simp]
theorem outline_bounds (s : Shape) : s.outline.bounds = s.bounds := by cases s <;> rfl

@[simp]
theorem outline_role (s : Shape) : s.outline.role = s.role := by
  cases s with
  | single bounds content => cases content <;> rfl
  | group => rfl

@[simp]
theorem withBounds_outline (bounds : Rect) (s : Shape) :
    s.outline.withBounds bounds = (s.withBounds bounds).outline := by
  cases s <;> rfl

@[simp]
theorem withHidden_outline (hidden : Bool) (s : Shape) : (s.withHidden hidden).outline = s.outline := by
  cases s <;> rfl

@[simp]
theorem ofBody_outline (bounds : Rect) (body : TextBody) :
    (ofBody bounds body).outline = ofBody bounds body.outline :=
  rfl

@[simp]
theorem fitHeight_outline (s : Shape) : s.outline.fitHeight = s.fitHeight.outline := by
  cases s with
  | single bounds content =>
    cases content with
    | text body => simp only [outline, Content.outline, fitHeight, body.heightAt_outline]
    | image | table => rfl
  | group => rfl

mutual

@[simp]
theorem move_outline (dx dy : Float32) : ∀ s : Shape, s.outline.move dx dy = (s.move dx dy).outline
  | single _ _ _ => rfl
  | group _ members _ => by simp only [outline, move, moveAll_outline dx dy members]

theorem moveAll_outline (dx dy : Float32) :
    ∀ shapes : List Shape, moveAll dx dy (outlineAll shapes) = outlineAll (moveAll dx dy shapes)
  | [] => rfl
  | s :: rest => by
    simp only [outlineAll, moveAll, move_outline dx dy s, moveAll_outline dx dy rest]

end

@[simp]
theorem moveTo_outline (s : Shape) (left top : Float32) :
    s.outline.moveTo left top = (s.moveTo left top).outline := by
  simp only [moveTo, move_outline, outline_bounds]

/-- A text shape has a body as it is written. -/
def Sound (sign : Sign) (s : Shape) : Prop := ∀ body, s.body? = some body → body.Sound sign

theorem sound_of_body? {sign : Sign} {s t : Shape} (sound : s.Sound sign) (same : t.body? = s.body?) :
    t.Sound sign := fun body atBody => sound body (same ▸ atBody)

end Shape

namespace ShapeFlow

@[simp]
theorem textAt_outline (left top width : Float32) (body : TextBody) :
    textAt left top width body.outline = (textAt left top width body).outline := by
  rw [textAt, textAt, ← Shape.fitHeight_outline, Shape.ofBody_outline]

@[simp]
theorem narrowed_outline (s : Shape) (width : Float32) :
    narrowed s.outline width = (narrowed s width).outline := by
  simp only [narrowed, Shape.outline_bounds, Shape.withBounds_outline, Shape.fitHeight_outline]

@[simp]
theorem withBody_outline (body : TextBody) (s : Shape) :
    withBody body.outline s.outline = (withBody body s).outline := by
  cases s with
  | single bounds content hidden =>
    exact Shape.fitHeight_outline (.single bounds (.text body) hidden)
  | group => rfl

@[simp]
theorem beside_outline (area : Rect) (float : Shape) :
    beside area float.outline = beside area float := by
  simp only [beside, Shape.outline_bounds]

theorem textThenFloat_outline {sign : Sign} {body : TextBody} (sound : body.Sound sign) (area : Rect)
    (text float : Shape) :
    textThenFloat area text.outline body.outline float.outline =
      (textThenFloat area text body float).map Shape.outline := by
  unfold textThenFloat
  simp only [Shape.outline_bounds, beside_outline, body.layout_outline, List.getLast?_map,
    List.length_map]
  cases last : (body.layout text.bounds.width).getLast? with
  | none => rfl
  | some l =>
    have cut := TextBody.splitAt_outline sound (List.mem_of_getLast? last)
    have width : (l.relocate body.relocate).width = l.width := rfl
    have start : (l.relocate body.relocate).start = body.relocate l.start := rfl
    simp only [Option.map_some, width, start, cut]
    split
    · rfl
    · split
      · simp only [withBody_outline, textAt_outline, Shape.moveTo_outline, Shape.outline_bounds,
          List.map_cons, List.map_nil]
      · simp only [narrowed_outline, Shape.moveTo_outline, Shape.outline_bounds, List.map_cons,
          List.map_nil]

theorem floatThenFloat_outline (area : Rect) (first second : Shape) :
    floatThenFloat area first.outline second.outline =
      (floatThenFloat area first second).map Shape.outline := by
  unfold floatThenFloat
  simp only [Shape.outline_bounds]
  split
  · simp only [Shape.moveTo_outline, List.map_cons, List.map_nil]
  · rfl

/-- The place found is where a line starts. -/
theorem lineBelow?_relocate (locate : TextPos → TextPos) (height y : Float32) (lines : List Line) :
    lineBelow? height y (lines.map (Line.relocate locate)) = (lineBelow? height y lines).map locate ∧
      ∀ pos, lineBelow? height y lines = some pos → ∃ l ∈ lines, l.start = pos := by
  induction lines generalizing y with
  | nil => exact ⟨rfl, nofun⟩
  | cons line rest ih =>
    rw [List.map_cons, lineBelow?, lineBelow?]
    split
    · exact ⟨rfl, fun pos found => ⟨line, .head _, Option.some.inj found⟩⟩
    · obtain ⟨same, starts⟩ := ih (y + line.height)
      refine ⟨same, fun pos found => ?_⟩
      obtain ⟨l, atL, start⟩ := starts pos found
      exact ⟨l, .tail _ atL, start⟩

theorem splitBelow?_relocate (locate : TextPos → TextPos) (height : Float32) (lines : List Line) :
    splitBelow? height (lines.map (Line.relocate locate)) = (splitBelow? height lines).map locate ∧
      ∀ pos, splitBelow? height lines = some pos → ∃ l ∈ lines, l.start = pos := by
  cases lines with
  | nil => exact ⟨rfl, nofun⟩
  | cons first rest =>
    obtain ⟨same, starts⟩ := lineBelow?_relocate locate height (0.0 + first.height) rest
    refine ⟨same, fun pos found => ?_⟩
    obtain ⟨l, atL, start⟩ := starts pos found
    exact ⟨l, .tail _ atL, start⟩

theorem floatThenText_outline {sign : Sign} {body : TextBody} (sound : body.Sound sign) (area : Rect)
    (float text : Shape) :
    floatThenText area float.outline text.outline body.outline =
      (floatThenText area float text body).map Shape.outline := by
  have indent : (body.outline.paragraphs.head?.map Paragraph.indent).getD 0.0 =
      (body.paragraphs.head?.map Paragraph.indent).getD 0.0 := by
    rw [TextBody.outline, List.head?_map, Option.map_map]
    exact congrArg (Option.getD · 0.0) (Option.map_congr fun p _ => p.indent_outline)
  obtain ⟨place, starts⟩ := splitBelow?_relocate body.relocate float.bounds.height
    (body.layout (beside area float))
  unfold floatThenText
  simp only [Shape.outline_bounds, beside_outline, body.layout_outline, indent,
    body.firstWordWidth_outline, place]
  split
  · rfl
  · cases found : splitBelow? float.bounds.height (body.layout (beside area float)) with
    | none =>
      simp only [Option.map_none, withBody_outline, Shape.moveTo_outline, narrowed_outline,
        List.map_cons, List.map_nil]
    | some pos =>
      obtain ⟨l, atLine, rfl⟩ := starts pos found
      have cut := TextBody.splitAt_outline sound atLine
      simp only [Option.map_some, cut, withBody_outline, Shape.moveTo_outline, narrowed_outline,
        Shape.outline_bounds, textAt_outline, List.map_cons, List.map_nil]

/-- Shapes are arranged by what they measure, so their outlines are arranged in the same way. -/
theorem arrange_outline {sign : Sign} {first second : Shape} (left : first.Sound sign)
    (right : second.Sound sign) (area : Rect) :
    arrange area first.outline second.outline = (arrange area first second).map Shape.outline := by
  cases first with
  | group => cases second <;> rfl
  | single bounds content hidden =>
    cases second with
    | group => cases content <;> rfl
    | single bounds' content' hidden' =>
      cases content with
      | text body =>
        have sound := left body rfl
        cases content' with
        | text => rfl
        | image | table => exact textThenFloat_outline sound area _ _
      | image | table =>
        cases content' with
        | text body => exact floatThenText_outline (right body rfl) area _ _
        | image | table => exact floatThenFloat_outline area _ _

def outline (f : ShapeFlow) : ShapeFlow :=
  { f with group := f.group.map Shape.outline, placed := f.placed.map Shape.outline }

theorem flush_outline (f : ShapeFlow) : f.outline.flush = f.flush.outline := by
  simp only [flush, outline, List.foldl_map, Shape.outline_bounds, List.map_append, List.map_nil]

theorem shapes_outline (f : ShapeFlow) : f.outline.shapes = f.shapes.map Shape.outline := by
  rw [shapes, flush_outline]
  rfl

theorem below_outline (f : ShapeFlow) (s : Shape) :
    f.outline.below s.outline = (f.below s).outline := by
  unfold below
  simp only [outline, List.getLast?_map, Option.map_map, Shape.moveTo_outline, Shape.outline_role,
    narrowed_outline]
  have top : (Option.map ((fun last : Shape => last.bounds.bottom) ∘ Shape.outline) f.group.getLast?) =
      f.group.getLast?.map fun last => last.bounds.bottom :=
    Option.map_congr fun s _ => by simp
  rw [top]
  split <;> rfl

theorem below_body? (f : ShapeFlow) (s : Shape) : (f.below s).body? = s.body? := by
  unfold below
  simp only
  cases s with
  | single bounds content => cases content <;> rfl
  | group => rfl

/-- Texts that may still be arranged have bodies as they are written. -/
def Sound (sign : Sign) (f : ShapeFlow) : Prop := ∀ s ∈ f.group, s.Sound sign

/-- A flow looks at outlines only: it cuts a text where a line starts, and moves and narrows shapes by what it
measures. -/
theorem push_outline {sign : Sign} {f : ShapeFlow} {s : Shape} (sound : f.Sound sign)
    (added : s.Sound sign) :
    f.outline.push s.outline = (f.push s).outline ∧ (f.push s).Sound sign := by
  have below : (f.below s).Sound sign := Shape.sound_of_body? added (f.below_body? s)
  have group : f.outline.group = f.group.map Shape.outline := rfl
  unfold push
  rw [below_outline, group]
  cases atGroup : f.group with
  | nil =>
    refine ⟨by simp only [outline, List.map_nil, List.nil_append, List.map_cons], ?_⟩
    exact List.forall_mem_singleton.mpr below
  | cons first rest =>
    cases rest with
    | nil =>
      have arranged := arrange_outline (sound first (atGroup ▸ .head _)) below f.area
      refine ⟨?_, nofun⟩
      simp only [List.map_cons, List.map_nil]
      rw [← flush_outline]
      simp only [outline, arranged]
    | cons second more =>
      refine ⟨by simp only [outline, List.map_cons, List.map_append, List.map_nil], ?_⟩
      exact List.forall_mem_append.mpr ⟨atGroup ▸ sound, List.forall_mem_singleton.mpr below⟩

theorem pushBlock_outline (f : ShapeFlow) (s : Shape) :
    f.outline.pushBlock s.outline = (f.pushBlock s).outline := by
  unfold pushBlock
  rw [flush_outline]
  simp only [outline, Shape.outline_bounds, Shape.moveTo_outline, List.map_append, List.map_cons,
    List.map_nil]

end ShapeFlow

/-- Shapes of the same kind and place whose texts are alike. -/
structure Shape.Alike (sign : Sign) (s t : Shape) : Prop where
  outline : s.outline = t.outline
  left : s.Sound sign
  right : t.Sound sign

theorem Shape.Alike.ofBody {sign : Sign} {b d : TextBody} (alike : b.Alike sign d) (bounds : Rect) :
    Alike sign (ofBody bounds b) (ofBody bounds d) := by
  refine ⟨?_, fun body atBody => ?_, fun body atBody => ?_⟩
  · rw [ofBody_outline, ofBody_outline, alike.outline]
  · cases Option.some.inj atBody
    exact alike.left
  · cases Option.some.inj atBody
    exact alike.right

/-- Shapes that are no texts. -/
theorem Shape.Alike.of_outline {sign : Sign} {s t : Shape} (outline : s.outline = t.outline)
    (left : s.body? = none) (right : t.body? = none) : Alike sign s t := by
  refine ⟨outline, fun body atBody => ?_, fun body atBody => ?_⟩
  · rw [left] at atBody
    cases atBody
  · rw [right] at atBody
    cases atBody

/-- The shape of a table in two passes. -/
theorem Grid.Alike.toShape? {sign : Sign} {g h : Grid} (alike : g.Alike sign h)
    (pausedAt : Option RowCursor) {mode mode' : Mode} (emits : mode.emits = mode'.emits) :
    Option.Rel (Shape.Alike sign) (g.toShape? pausedAt mode) (h.toShape? pausedAt mode') := by
  have shown {g h : Grid} (alike : g.Alike sign h) :
      Option.Rel (Shape.Alike sign) (g.toShape? none mode) (h.toShape? none mode') := by
    unfold Grid.toShape?
    simp only [emits, alike.rowCount]
    split
    · exact .none
    · refine .some (.of_outline ?_ rfl rfl)
      have outlines := congrArg Grid.width alike.outline
      have width : g.width = h.width := outlines
      have height : g.height = h.height := by
        rw [← height_outline, alike.outline, height_outline]
      simp only [Shape.outline, Content.outline, width, height, alike.outline]
  cases pausedAt with
  | none => exact shown alike
  | some cursor => exact shown (alike.keepRows cursor.keptRows)

namespace ShapeFlow

/-- Flows of alike shapes. -/
structure Alike (sign : Sign) (f g : ShapeFlow) : Prop where
  outline : f.outline = g.outline
  left : f.Sound sign
  right : g.Sound sign

namespace Alike

variable {sign : Sign} {f g : ShapeFlow} {s t : Shape}

theorem ofArea (area : Rect) : Alike sign (ofArea area) (ofArea area) := ⟨rfl, nofun, nofun⟩

theorem flush (alike : Alike sign f g) : Alike sign f.flush g.flush := by
  refine ⟨?_, nofun, nofun⟩
  rw [← flush_outline, alike.outline, flush_outline]

/-- Alike shapes are placed alike. -/
theorem push (alike : Alike sign f g) (same : s.Alike sign t) : Alike sign (f.push s) (g.push t) := by
  obtain ⟨first, left⟩ := push_outline alike.left same.left
  obtain ⟨second, right⟩ := push_outline alike.right same.right
  refine ⟨?_, left, right⟩
  rw [← first, ← second, alike.outline, same.outline]

theorem pushBlock (alike : Alike sign f g) (same : s.outline = t.outline) :
    Alike sign (f.pushBlock s) (g.pushBlock t) := by
  refine ⟨?_, nofun, nofun⟩
  rw [← pushBlock_outline, ← pushBlock_outline, alike.outline, same]

theorem shapes (alike : Alike sign f g) : f.shapes.map Shape.outline = g.shapes.map Shape.outline := by
  rw [← shapes_outline, alike.outline, shapes_outline]

end Alike

end ShapeFlow

end Unveil
