import Unveil.ShapeFlow

namespace Unveil

namespace Text

/-- All but the blanks of a text. -/
def ink (cs : List Char) : List Char := cs.filter fun c => !isBlank c

theorem ink_append (cs more : List Char) : ink (cs ++ more) = ink cs ++ ink more := List.filter_append _ _

theorem ink_cons (c : Char) (cs : List Char) : ink (c :: cs) = ink [c] ++ ink cs := ink_append [c] cs

theorem ink_reverse (cs : List Char) : ink cs.reverse = (ink cs).reverse := List.filter_reverse

theorem allBlank_eq (cs : List Char) : allBlank cs = (ink cs).isEmpty := by
  rw [Bool.eq_iff_iff, List.isEmpty_iff, ink, List.filter_eq_nil_iff, allBlank, List.all_eq_true]
  simp

end Text

namespace Run

def chars (r : Run) : List Char := r.text.toList

end Run

namespace Paragraph

def chars (p : Paragraph) : List Char := p.runs.flatMap Run.chars

/-- A run is joined to the last one if that is like it, and else stands behind it. -/
theorem extend_cases (runs : List Run) (run : Run) :
    (∃ before last, runs = before ++ [last] ∧ (last.hidden == run.hidden && last.face == run.face) = true ∧
      extend runs run = before ++ [{ last with text := last.text ++ run.text }]) ∨
    ((∀ last ∈ runs.getLast?, (last.hidden == run.hidden && last.face == run.face) = false) ∧
      extend runs run = runs ++ [run]) := by
  induction runs with
  | nil => exact .inr ⟨nofun, rfl⟩
  | cons first rest ih =>
    cases rest with
    | nil =>
      rw [extend]
      split
      · rename_i joins
        exact .inl ⟨[], first, rfl, joins, rfl⟩
      · rename_i apart
        exact .inr ⟨by simpa using apart, rfl⟩
    | cons second more =>
      rw [extend]
      · rcases ih with ⟨before, last, split, joins, joined⟩ | ⟨apart, joined⟩
        · exact .inl ⟨first :: before, last, congrArg (first :: ·) split, joins, congrArg (first :: ·) joined⟩
        · exact .inr ⟨by simpa using apart, congrArg (first :: ·) joined⟩
      · exact List.cons_ne_nil _ _

theorem extend_chars (runs : List Run) (run : Run) :
    (extend runs run).flatMap Run.chars = runs.flatMap Run.chars ++ run.chars := by
  rcases extend_cases runs run with ⟨before, last, rfl, _, joined⟩ | ⟨_, joined⟩ <;>
    simp [joined, Run.chars]

theorem push_chars (p : Paragraph) (text : String) (face : Face) (hidden : Bool) :
    (p.push text face hidden).chars = p.chars ++ text.toList := by
  unfold push
  split
  · rename_i empty
    have empty : text = "" := String.isEmpty_iff.mp empty
    simp [empty]
  · exact extend_chars p.runs ⟨text, face, hidden⟩

theorem chars_eq_nil {p : Paragraph} (empty : p.isEmpty = true) : p.chars = [] := by
  rw [isEmpty, List.all_eq_true] at empty
  refine List.flatMap_eq_nil_iff.mpr fun run atRun => ?_
  have empty : run.text = "" := String.isEmpty_iff.mp (empty run atRun)
  simp [Run.chars, empty]

end Paragraph

namespace TextBody

def chars (b : TextBody) : List Char := b.paragraphs.flatMap Paragraph.chars

/-- What shows of the characters when none of them is hidden. -/
def ink (b : TextBody) : List Char := Text.ink b.chars

@[simp]
theorem ofSize_chars (size : Float32) : (ofSize size).chars = [] := rfl

theorem writable_chars (b : TextBody) : b.writable.flatMap Paragraph.chars = b.chars := by
  unfold writable chars
  split
  · rename_i empty
    rw [empty]
    rfl
  · rfl

theorem writable_ne_nil (b : TextBody) : b.writable ≠ [] := by
  unfold writable
  split
  · exact List.cons_ne_nil _ _
  · rename_i nonempty
    exact nonempty

theorem mapLast_ne_nil (f : Paragraph → Paragraph) {ps : List Paragraph} (nonempty : ps ≠ []) : mapLast f ps ≠ [] := by
  cases ps with
  | nil => exact absurd rfl nonempty
  | cons p rest => cases rest <;> exact List.cons_ne_nil _ _

theorem mapLast_chars {f : Paragraph → Paragraph} {more : List Char}
    (adds : ∀ p : Paragraph, (f p).chars = p.chars ++ more) {ps : List Paragraph} (nonempty : ps ≠ []) :
    (mapLast f ps).flatMap Paragraph.chars = ps.flatMap Paragraph.chars ++ more := by
  induction ps with
  | nil => exact absurd rfl nonempty
  | cons p rest ih =>
    cases rest with
    | nil => simp [mapLast, adds]
    | cons second others =>
      rw [mapLast, List.flatMap_cons, ih (List.cons_ne_nil _ _), ← List.append_assoc]
      · rfl
      · exact List.cons_ne_nil _ _

theorem mapCurrent_chars (b : TextBody) {f : Paragraph → Paragraph} {more : List Char}
    (adds : ∀ p : Paragraph, (f p).chars = p.chars ++ more) :
    (b.mapCurrent f).chars = b.chars ++ more := by
  rw [mapCurrent, chars, mapLast_chars adds b.writable_ne_nil, writable_chars]

/-- Writing into a body adds characters at its end. -/
theorem push_chars (b : TextBody) (text : String) (face : Face) (hidden : Bool) :
    (b.push text face hidden).chars = b.chars ++ text.toList :=
  b.mapCurrent_chars fun p => p.push_chars text face hidden

theorem breakParagraph_chars (b : TextBody) : b.breakParagraph.chars = b.chars := by
  rw [breakParagraph, chars, List.flatMap_append, writable_chars]
  exact List.append_nil _

theorem startParagraph_chars (b : TextBody) (bullet : Option Bullet) (level : Nat) (size : Float32) :
    (b.startParagraph bullet level size).chars = b.chars := by
  have keeps (p : Paragraph) : ({ p with bullet, level, size } : Paragraph).chars = p.chars ++ [] :=
    (List.append_nil _).symm
  rw [startParagraph, chars]
  split
  · rw [mapLast_chars keeps b.writable_ne_nil, List.append_nil, writable_chars]
  · rw [mapLast_chars keeps (List.append_ne_nil_of_right_ne_nil _ (List.cons_ne_nil _ _)),
      List.append_nil, List.flatMap_append, writable_chars]
    exact List.append_nil _

/-- A line break at the start is a piece without text. -/
theorem dropLineBreak_pieces (cs : List Char) :
    (Text.pieces '\n' (dropLineBreak cs)).flatMap dropReturns = (Text.pieces '\n' cs).flatMap dropReturns := by
  unfold dropLineBreak
  split
  · rename_i rest
    have first : Text.pieces '\n' ('\r' :: '\n' :: rest) = ['\r'] :: Text.pieces '\n' rest := rfl
    rw [first, List.flatMap_cons]
    rfl
  · rename_i rest
    have first : Text.pieces '\n' ('\n' :: rest) = [] :: Text.pieces '\n' rest := rfl
    rw [first, List.flatMap_cons]
    rfl
  · rfl

/-- The pieces of a text that is written come behind what is there, without the returns at their ends. -/
theorem append_chars (b : TextBody) (text : String) (face : Face) (hidden : Bool) :
    (b.append text face hidden).chars = b.chars ++ (Text.pieces '\n' text.toList).flatMap dropReturns := by
  have afterBreak (b : TextBody) (piece : List Char) :
      (b.pushPiece face hidden piece).chars = b.chars ++ dropReturns piece := by
    rw [pushPiece, push_chars, String.toList_ofList]
  have folded (pieces : List (List Char)) (b : TextBody) :
      (pieces.foldl (fun b piece => b.breakParagraph.pushPiece face hidden piece) b).chars =
        b.chars ++ pieces.flatMap dropReturns := by
    induction pieces generalizing b with
    | nil => simp
    | cons piece rest ih =>
      rw [List.foldl_cons, ih, afterBreak, breakParagraph_chars, List.flatMap_cons, List.append_assoc]
  have start : (Text.pieces '\n' (if b.current.isEmpty then dropLineBreak text.toList else text.toList)).flatMap
      dropReturns = (Text.pieces '\n' text.toList).flatMap dropReturns := by
    split
    · exact dropLineBreak_pieces _
    · rfl
  rw [← start]
  unfold append
  simp only
  cases Text.pieces '\n' (if b.current.isEmpty then dropLineBreak text.toList else text.toList) with
  | nil => exact (List.append_nil _).symm
  | cons first rest => simp only [folded, afterBreak, List.flatMap_cons, List.append_assoc]

/-- Text goes to the end of what is there. -/
theorem append_prefix (b : TextBody) (text : String) (face : Face) (hidden : Bool) :
    b.chars <+: (b.append text face hidden).chars := ⟨_, (b.append_chars text face hidden).symm⟩

theorem dropReturns_ink (cs : List Char) : Text.ink (dropReturns cs) = Text.ink cs := by
  have returns : Text.ink (cs.reverse.takeWhile (· = '\r')) = [] := by
    rw [Text.ink, List.filter_eq_nil_iff]
    intro c inside
    rw [of_decide_eq_true (List.all_eq_true.mp List.all_takeWhile c inside)]
    decide
  have whole := congrArg Text.ink (List.takeWhile_append_dropWhile (p := (· = '\r')) (l := cs.reverse))
  rw [Text.ink_append, returns, List.nil_append] at whole
  rw [dropReturns, Text.ink_reverse, whole, ← Text.ink_reverse, List.reverse_reverse]

theorem pieces_ink (cs : List Char) : (Text.pieces '\n' cs).flatMap Text.ink = Text.ink cs := by
  induction cs with
  | nil => rfl
  | cons c rest ih =>
    unfold Text.pieces
    split
    · rename_i newline
      rw [List.flatMap_cons, ih, newline]
      rfl
    · cases found : Text.pieces '\n' rest with
      | nil => exact absurd found (Text.pieces_ne_nil _ _)
      | cons piece more =>
        rw [found, List.flatMap_cons] at ih
        rw [List.flatMap_cons, Text.ink_cons c piece, Text.ink_cons c rest, ← ih, List.append_assoc]

/-- Of a text that is written, all but the blanks comes behind what is there. -/
theorem append_ink (b : TextBody) (text : String) (face : Face) (hidden : Bool) :
    (b.append text face hidden).ink = b.ink ++ Text.ink text.toList := by
  have kept : Text.ink ((Text.pieces '\n' text.toList).flatMap dropReturns) =
      (Text.pieces '\n' text.toList).flatMap Text.ink := by
    rw [Text.ink, List.filter_flatMap]
    exact congrArg (fun f => (Text.pieces '\n' text.toList).flatMap f) (funext dropReturns_ink)
  rw [ink, append_chars, Text.ink_append, kept, pieces_ink]
  rfl

/-- A text that was blank stays blank if blanks are written into it, and only then. -/
theorem append_blank (b : TextBody) (text : String) (face : Face) (hidden : Bool) :
    Text.allBlank (b.append text face hidden).chars =
      (Text.allBlank b.chars && Text.allBlank text.toList) := by
  have written := b.append_ink text face hidden
  rw [ink, ink, ← Text.ink_append] at written
  rw [Text.allBlank_eq, written, ← Text.allBlank_eq, Text.allBlank, List.all_append]
  rfl

/-- Nothing was written into a blank body. -/
theorem chars_eq_nil {b : TextBody} (blank : b.isBlank = true) : b.chars = [] := by
  rw [isBlank, List.all_eq_true] at blank
  refine List.flatMap_eq_nil_iff.mpr fun p atP => Paragraph.chars_eq_nil ?_
  have untouched := blank p atP
  rw [Paragraph.isUntouched, Bool.and_eq_true] at untouched
  exact untouched.1

theorem cutBytes_append (offset : Nat) (cs : List Char) :
    (cutBytes offset cs).1 ++ (cutBytes offset cs).2 = cs := by
  induction cs generalizing offset with
  | nil => rfl
  | cons c rest ih =>
    rw [cutBytes]
    split
    · rfl
    · simp [ih]

/-- Cutting runs keeps whatever is made of their characters one after the other. -/
theorem cutRuns_flatMap {α : Type} {f : Run → List α}
    (joins : ∀ (r : Run) (before after : List Char), before ++ after = r.text.toList →
      f { r with text := String.ofList before } ++ f { r with text := String.ofList after } = f r)
    (runs : List Run) (run offset : Nat) :
    (cutRuns runs run offset).1.flatMap f ++ (cutRuns runs run offset).2.flatMap f =
      runs.flatMap f := by
  have whole : (runs.take run).flatMap f ++ (runs.drop run).flatMap f = runs.flatMap f := by
    rw [← List.flatMap_append, List.take_append_drop]
  unfold cutRuns
  simp only
  split
  · rename_i empty
    rw [empty] at whole
    exact whole
  · rename_i r rest nonempty
    rw [nonempty] at whole
    split
    · exact whole
    · rw [List.flatMap_cons, ← joins r _ _ (cutBytes_append offset r.text.toList)] at whole
      rw [← whole]
      simp

/-- Cutting a body at any place keeps whatever is made of its characters one after the other. -/
theorem splitAt_flatMap {α : Type} {f : Run → List α}
    (joins : ∀ (r : Run) (before after : List Char), before ++ after = r.text.toList →
      f { r with text := String.ofList before } ++ f { r with text := String.ofList after } = f r)
    (b : TextBody) (pos : TextPos) :
    (b.splitAt pos).1.runs.flatMap f ++ (b.splitAt pos).2.runs.flatMap f = b.runs.flatMap f := by
  have whole : (b.paragraphs.take pos.paragraph).flatMap (fun p => p.runs.flatMap f) ++
      (b.paragraphs.drop pos.paragraph).flatMap (fun p => p.runs.flatMap f) = b.runs.flatMap f := by
    rw [← List.flatMap_append, List.take_append_drop, runs, List.flatMap_assoc]
  unfold splitAt
  split
  · simp [runs, ofSize, Paragraph.empty]
  · rename_i p rest nonempty
    rw [nonempty] at whole
    simp only
    split
    · split
      · rename_i empty
        rw [List.isEmpty_iff.mp empty] at whole
        rw [← whole, runs, runs, List.flatMap_assoc, List.flatMap_assoc]
        rfl
      · rw [← whole, runs, runs, List.flatMap_assoc, List.flatMap_assoc]
    · have cut := cutRuns_flatMap joins p.runs pos.run pos.offset
      rw [← whole, List.flatMap_cons, ← cut]
      simp [runs, List.flatMap_assoc]

theorem chars_eq_runs (b : TextBody) : b.chars = b.runs.flatMap Run.chars := List.flatMap_assoc.symm

/-- Cutting a body at any place keeps its characters. -/
theorem splitAt_chars (b : TextBody) (pos : TextPos) :
    (b.splitAt pos).1.chars ++ (b.splitAt pos).2.chars = b.chars := by
  rw [chars_eq_runs, chars_eq_runs, chars_eq_runs]
  exact splitAt_flatMap (fun r before after cut => by simp [Run.chars, cut]) b pos

end TextBody

def Grid.charsOf (rows : List (List Cell)) : List Char :=
  rows.flatMap fun cells => cells.flatMap fun cell => cell.body.chars

/-- The characters of a table, row by row. -/
def Grid.chars (g : Grid) : List Char := charsOf g.rows

def Content.chars : Content → List Char
  | .text body => body.chars
  | .image _ => []
  | .table grid => grid.chars

namespace Shape

mutual

/-- The characters of a shape with its members. -/
def chars : Shape → List Char
  | single _ content _ => content.chars
  | group _ members _ => charsAll members

def charsAll : List Shape → List Char
  | [] => []
  | s :: rest => chars s ++ charsAll rest

end

theorem charsAll_append (first second : List Shape) :
    charsAll (first ++ second) = charsAll first ++ charsAll second := by
  induction first with
  | nil => rfl
  | cons s rest ih => simp only [List.cons_append, charsAll, ih, List.append_assoc]

@[simp]
theorem withBounds_chars (bounds : Rect) (s : Shape) : (s.withBounds bounds).chars = s.chars := by
  cases s <;> rfl

@[simp]
theorem withHidden_chars (hidden : Bool) (s : Shape) : (s.withHidden hidden).chars = s.chars := by
  cases s <;> rfl

@[simp]
theorem ofBody_chars (bounds : Rect) (body : TextBody) : (ofBody bounds body).chars = body.chars := rfl

@[simp]
theorem fitHeight_chars (s : Shape) : s.fitHeight.chars = s.chars := by
  unfold fitHeight
  split <;> rfl

mutual

@[simp]
theorem move_chars (dx dy : Float32) : ∀ s : Shape, (s.move dx dy).chars = s.chars
  | single _ _ _ => rfl
  | group _ members _ => moveAll_chars dx dy members

@[simp]
theorem moveAll_chars (dx dy : Float32) :
    ∀ shapes : List Shape, charsAll (moveAll dx dy shapes) = charsAll shapes
  | [] => rfl
  | s :: rest => by rw [moveAll, charsAll, charsAll, move_chars dx dy s, moveAll_chars dx dy rest]

end

@[simp]
theorem moveTo_chars (s : Shape) (left top : Float32) :
    (s.moveTo left top).chars = s.chars := move_chars _ _ s

end Shape

namespace ShapeFlow

@[simp]
theorem textAt_chars (left top width : Float32) (body : TextBody) :
    (textAt left top width body).chars = body.chars := rfl

@[simp]
theorem narrowed_chars (s : Shape) (width : Float32) : (narrowed s width).chars = s.chars := by
  simp [narrowed]

theorem withBody_chars {s : Shape} {old : TextBody} (body : TextBody) (text : s.body? = some old) :
    (withBody body s).chars = body.chars := by
  cases s with
  | single => rfl
  | group => cases text

theorem textThenFloat_chars (area : Rect) {text : Shape} {body : TextBody} (float : Shape)
    (atText : text.body? = some body) (same : text.chars = body.chars) :
    Shape.charsAll (textThenFloat area text body float) = text.chars ++ float.chars := by
  unfold textThenFloat
  simp only
  split
  · simp [Shape.charsAll]
  · split
    · simp [Shape.charsAll]
    · split
      · simp only [Shape.charsAll, withBody_chars _ atText, textAt_chars, Shape.moveTo_chars,
          List.append_nil]
        rw [← List.append_assoc, TextBody.splitAt_chars, same]
      · simp [Shape.charsAll]

theorem floatThenText_chars (area : Rect) (float : Shape) {text : Shape} {body : TextBody}
    (atText : text.body? = some body) (same : text.chars = body.chars) :
    Shape.charsAll (floatThenText area float text body) = float.chars ++ text.chars := by
  unfold floatThenText
  simp only
  split
  · simp [Shape.charsAll]
  · split
    · simp [Shape.charsAll, withBody_chars _ atText, same]
    · simp only [Shape.charsAll, narrowed_chars, Shape.moveTo_chars, withBody_chars _ atText,
        textAt_chars, List.append_nil]
      rw [TextBody.splitAt_chars, same]

/-- Arranging shapes neither adds nor loses nor moves a character. -/
theorem arrange_chars (area : Rect) (first second : Shape) :
    Shape.charsAll (arrange area first second) = first.chars ++ second.chars := by
  unfold arrange
  split
  · split
    · simp [Shape.charsAll]
    · exact textThenFloat_chars area _ rfl rfl
  · exact floatThenText_chars area _ rfl rfl
  · unfold floatThenFloat
    split <;> simp [Shape.charsAll]
  · simp [Shape.charsAll]

/-- The characters of all shapes of a flow. -/
def chars (f : ShapeFlow) : List Char := Shape.charsAll f.placed ++ Shape.charsAll f.group

@[simp]
theorem flush_chars (f : ShapeFlow) : f.flush.chars = f.chars := by
  simp [flush, chars, Shape.charsAll_append, Shape.charsAll]

/-- The shapes of a flow have its characters. -/
theorem shapes_chars (f : ShapeFlow) : Shape.charsAll f.shapes = f.chars := by
  rw [← flush_chars]
  exact (List.append_nil _).symm

@[simp]
theorem below_chars (f : ShapeFlow) (s : Shape) : (f.below s).chars = s.chars := by
  unfold below
  simp only
  split <;> simp

/-- A shape comes after all shapes so far, in whatever way it is arranged with the last of them. -/
@[simp]
theorem push_chars (f : ShapeFlow) (s : Shape) : (f.push s).chars = f.chars ++ s.chars := by
  unfold push
  simp only
  split
  · rename_i first one
    rw [flush_chars]
    simp [chars, one, arrange_chars, Shape.charsAll]
  · simp [chars, Shape.charsAll_append, Shape.charsAll]

@[simp]
theorem pushBlock_chars (f : ShapeFlow) (s : Shape) : (f.pushBlock s).chars = f.chars ++ s.chars := by
  have flushed : f.flush.chars = f.chars := f.flush_chars
  simp only [chars] at flushed
  simp only [pushBlock, chars, Shape.charsAll_append, ← flushed]
  simp [flush, Shape.charsAll]

end ShapeFlow

end Unveil
