import Unveil.Proofs.Body.Lines
import Unveil.Proofs.Text

namespace Unveil

namespace Run

/-- A run with text, all of it in one line. -/
structure InLine (r : Run) : Prop where
  nonempty : r.text ≠ ""
  unbroken : '\n' ∉ r.text.toList

/-- A run that takes up text like that of `s`. -/
def Joins (r s : Run) : Prop := (r.hidden == s.hidden && r.face == s.face) = true

/-- Runs in lines, of which no two side by side could be one, unless some were hidden: runs that are hidden later
on may become alike. -/
structure Tidy (hid : Bool) (runs : List Run) : Prop where
  inLine : ∀ r ∈ runs, r.InLine
  apart : hid = false → runs.IsChain fun r s => ¬r.Joins s

theorem InLine.of_infix {r : Run} (line : r.InLine) {cs : List Char} (nonempty : cs ≠ [])
    (part : cs ⊆ r.text.toList) : ({ r with text := String.ofList cs } : Run).InLine := by
  refine ⟨fun empty => nonempty ?_, fun inside => line.unbroken (part ?_)⟩
  · have chars := congrArg String.toList empty
    rwa [String.toList_ofList] at chars
  · rwa [String.toList_ofList] at inside

namespace Tidy

variable {hid : Bool} {runs : List Run}

theorem nil : Tidy hid [] := ⟨nofun, fun _ => .nil⟩

/-- Text goes into the last run if it may, and so runs side by side stay apart. -/
theorem extend (tidy : Tidy hid runs) {run : Run} (line : run.InLine) :
    Tidy hid (Paragraph.extend runs run) := by
  rcases Paragraph.extend_cases runs run with ⟨before, last, rfl, _, joined⟩ | ⟨differs, joined⟩ <;>
    rw [joined]
  · have whole := tidy.inLine last (by simp)
    refine ⟨fun r atR => ?_, fun shown => ?_⟩
    · rcases List.mem_append.mp atR with there | here
      · exact tidy.inLine r (List.mem_append_left _ there)
      · cases List.mem_singleton.mp here
        exact ⟨fun empty => line.nonempty (String.append_eq_empty_iff.mp empty).2, by
          simp [whole.unbroken, line.unbroken]⟩
    · obtain ⟨first, _, between⟩ := List.isChain_append.mp (tidy.apart shown)
      exact List.isChain_append.mpr ⟨first, .singleton _, fun r atR s atS =>
        Option.some.inj atS ▸ between r atR last rfl⟩
  · refine ⟨fun r atR => ?_, fun shown => ?_⟩
    · rcases List.mem_append.mp atR with there | here
      · exact tidy.inLine r there
      · exact List.mem_singleton.mp here ▸ line
    · refine List.isChain_append.mpr ⟨tidy.apart shown, .singleton _, fun r atR s atS => ?_⟩
      rw [← Option.some.inj atS, Joins, differs r atR]
      exact Bool.false_ne_true

/-- Hidden runs stay in lines, but two side by side may be alike. -/
theorem hide (tidy : Tidy hid runs) : Tidy true (runs.map fun run => { run with hidden := true }) := by
  refine ⟨fun r atR => ?_, nofun⟩
  obtain ⟨s, atS, rfl⟩ := List.mem_map.mp atR
  exact ⟨(tidy.inLine s atS).nonempty, (tidy.inLine s atS).unbroken⟩

/-- A run that is cut keeps what it could be one with. -/
theorem cut {s : Spot} (tidy : Tidy hid s.runs) : Tidy hid s.head ∧ Tidy hid s.tail := by
  have whole : s.run.InLine := tidy.inLine s.run (by simp [Spot.runs])
  have left : s.left ⊆ s.run.text.toList := s.text_eq ▸ List.subset_append_left _ _
  have right : s.char :: s.right ⊆ s.run.text.toList := s.text_eq ▸ List.subset_append_right _ _
  refine ⟨⟨fun r atR => ?_, fun shown => ?_⟩, ⟨fun r atR => ?_, fun shown => ?_⟩⟩
  · rcases List.mem_append.mp atR with there | here
    · exact tidy.inLine r (List.mem_append_left _ there)
    · split at here
      · cases here
      · rename_i nonempty
        exact List.mem_singleton.mp here ▸ whole.of_infix nonempty left
  · obtain ⟨first, _, between⟩ := List.isChain_append.mp (tidy.apart shown)
    unfold Spot.head
    split
    · rwa [List.append_nil]
    · exact List.isChain_append.mpr ⟨first, .singleton _, fun r atR t atT =>
        Option.some.inj atT ▸ between r atR s.run rfl⟩
  · rcases List.mem_cons.mp atR with rfl | there
    · exact whole.of_infix (List.cons_ne_nil _ _) right
    · exact tidy.inLine r (List.mem_append_right _ (.tail _ there))
  · have after := (List.isChain_append.mp (tidy.apart shown)).2.1
    exact List.isChain_cons.mpr (List.isChain_cons.mp after)

end Tidy

end Run

namespace TextBody

/-- A body with a paragraph at least, in which all runs are tidy. -/
structure Tidy (hid : Bool) (b : TextBody) : Prop where
  nonempty : b.paragraphs ≠ []
  runs : ∀ p ∈ b.paragraphs, Run.Tidy hid p.runs

theorem mem_mapLast {f : Paragraph → Paragraph} {ps : List Paragraph} {p : Paragraph}
    (atP : p ∈ mapLast f ps) : p ∈ ps ∨ ∃ q ∈ ps, p = f q := by
  induction ps with
  | nil => cases atP
  | cons first rest ih =>
    cases rest with
    | nil => exact .inr ⟨first, .head _, List.mem_singleton.mp atP⟩
    | cons second more =>
      rw [mapLast] at atP
      · rcases List.mem_cons.mp atP with rfl | later
        · exact .inl (.head _)
        · rcases ih later with old | ⟨q, atQ, same⟩
          · exact .inl (.tail _ old)
          · exact .inr ⟨q, .tail _ atQ, same⟩
      · exact List.cons_ne_nil _ _

namespace Tidy

variable {hid : Bool} {b : TextBody}

theorem writable (tidy : b.Tidy hid) : b.writable = b.paragraphs := by
  unfold TextBody.writable
  split
  · rename_i empty
    exact absurd empty tidy.nonempty
  · rfl

/-- A change of the last paragraph that leaves its runs tidy. -/
theorem mapLast (tidy : b.Tidy hid) {f : Paragraph → Paragraph}
    (keeps : ∀ p, Run.Tidy hid p.runs → Run.Tidy hid (f p).runs) : Tidy hid ⟨mapLast f b.paragraphs⟩ := by
  refine ⟨mapLast_ne_nil f tidy.nonempty, fun p atP => ?_⟩
  rcases mem_mapLast atP with same | ⟨q, atQ, rfl⟩
  · exact tidy.runs p same
  · exact keeps q (tidy.runs q atQ)

theorem mapCurrent (tidy : b.Tidy hid) {f : Paragraph → Paragraph}
    (keeps : ∀ p, Run.Tidy hid p.runs → Run.Tidy hid (f p).runs) : (b.mapCurrent f).Tidy hid := by
  rw [TextBody.mapCurrent, tidy.writable]
  exact tidy.mapLast keeps

theorem concat (tidy : b.Tidy hid) {p : Paragraph} (runless : p.runs = []) : Tidy hid ⟨b.paragraphs ++ [p]⟩ := by
  refine ⟨List.append_ne_nil_of_right_ne_nil _ (List.cons_ne_nil _ _), fun q atQ => ?_⟩
  rcases List.mem_append.mp atQ with there | here
  · exact tidy.runs q there
  · rw [List.mem_singleton.mp here, runless]
    exact .nil

theorem breakParagraph (tidy : b.Tidy hid) : b.breakParagraph.Tidy hid := by
  rw [TextBody.breakParagraph, tidy.writable]
  exact tidy.concat rfl

theorem pushPiece (tidy : b.Tidy hid) (face : Face) (hidden : Bool) {piece : List Char} (line : '\n' ∉ piece) :
    (b.pushPiece face hidden piece).Tidy hid := by
  refine tidy.mapCurrent fun p tidy => ?_
  unfold Paragraph.push
  split
  · exact tidy
  · rename_i nonempty
    refine tidy.extend ⟨fun empty => nonempty (String.isEmpty_iff.mpr empty), fun inside => line ?_⟩
    rw [String.toList_ofList, dropReturns, List.mem_reverse] at inside
    exact List.mem_reverse.mp ((List.dropWhile_sublist _).subset inside)

theorem append (tidy : b.Tidy hid) (text : String) (face : Face) (hidden : Bool) :
    (b.append text face hidden).Tidy hid := by
  have folded (pieces : List (List Char)) (lines : ∀ piece ∈ pieces, '\n' ∉ piece) (b : TextBody)
      (tidy : b.Tidy hid) :
      (pieces.foldl (fun b piece => b.breakParagraph.pushPiece face hidden piece) b).Tidy hid := by
    induction pieces generalizing b with
    | nil => exact tidy
    | cons piece rest ih =>
      obtain ⟨first, later⟩ := List.forall_mem_cons.mp lines
      exact ih later _ (tidy.breakParagraph.pushPiece face hidden first)
  unfold TextBody.append
  simp only
  cases found : Text.pieces '\n' (if b.current.isEmpty then dropLineBreak text.toList else text.toList) with
  | nil => exact tidy
  | cons first rest =>
    have lines (piece : List Char) (atPiece : piece ∈ first :: rest) : '\n' ∉ piece :=
      Text.notMem_of_mem_pieces (found ▸ atPiece)
    exact folded rest (fun piece later => lines piece (.tail _ later)) _
      (tidy.pushPiece face hidden (lines first (.head _)))

/-- A new paragraph has no runs, and one that is taken over keeps its own. -/
theorem startParagraph (tidy : b.Tidy hid) (bullet : Option Bullet) (level : Nat) (size : Float32) :
    (b.startParagraph bullet level size).Tidy hid := by
  rw [TextBody.startParagraph, tidy.writable]
  split
  · exact tidy.mapLast fun _ runs => runs
  · exact (tidy.concat rfl).mapLast fun _ runs => runs

theorem setAlign (tidy : b.Tidy hid) (align : Align) : (b.setAlign align).Tidy hid :=
  tidy.mapCurrent fun _ runs => runs

theorem hide (tidy : b.Tidy hid) : b.hide.Tidy true := by
  refine ⟨List.map_eq_nil_iff.not.mpr tidy.nonempty, fun p atP => ?_⟩
  obtain ⟨q, atQ, rfl⟩ := List.mem_map.mp atP
  exact (tidy.runs q atQ).hide

/-- Both parts of a body that is cut where a line starts. -/
theorem splitAt (tidy : b.Tidy hid) {width : Float32} {l : Line} (atLine : l ∈ b.layout width) :
    (b.splitAt l.start).1.Tidy hid ∧ (b.splitAt l.start).2.Tidy hid := by
  obtain ⟨before, p, after, paragraphs, starts⟩ :=
    layout_start (fun p atP r atR => ((tidy.runs p atP).inLine r atR).nonempty) atLine
  have runs := tidy.runs
  rw [paragraphs, List.forall_mem_append, List.forall_mem_cons] at runs
  obtain ⟨earlier, here, later⟩ := runs
  rcases starts with start | ⟨s, inside, word, start⟩
  · rw [start, splitAt_start paragraphs]
    refine ⟨?_, List.cons_ne_nil _ _, List.forall_mem_cons.mpr ⟨here, later⟩⟩
    split
    · exact ⟨List.cons_ne_nil _ _, List.forall_mem_singleton.mpr .nil⟩
    · rename_i nonempty
      exact ⟨fun empty => nonempty (List.isEmpty_iff.mpr empty), earlier⟩
  · rw [inside] at here
    obtain ⟨left, right⟩ := here.cut
    rw [start, splitAt_spot paragraphs inside word]
    refine ⟨⟨List.append_ne_nil_of_right_ne_nil _ (List.cons_ne_nil _ _), ?_⟩, List.cons_ne_nil _ _, ?_⟩
    · exact List.forall_mem_append.mpr ⟨earlier, List.forall_mem_singleton.mpr left⟩
    · exact List.forall_mem_cons.mpr ⟨right, later⟩

end Tidy

/-- The bodies that are written call by call, from an empty one on, and those that they are cut into where
a line starts. The flag says that `hide` was used. -/
inductive Built : Bool → TextBody → Prop
  | ofSize (size : Float32) : Built false (ofSize size)
  | append {hid : Bool} {b : TextBody} (text : String) (face : Face) (hidden : Bool) :
      Built hid b → Built hid (b.append text face hidden)
  | breakParagraph {hid : Bool} {b : TextBody} : Built hid b → Built hid b.breakParagraph
  | startParagraph {hid : Bool} {b : TextBody} (bullet : Option Bullet) (level : Nat) (size : Float32) :
      Built hid b → Built hid (b.startParagraph bullet level size)
  | setAlign {hid : Bool} {b : TextBody} (align : Align) : Built hid b → Built hid (b.setAlign align)
  | hide {hid : Bool} {b : TextBody} : Built hid b → Built true b.hide
  | head {hid : Bool} {b : TextBody} {width : Float32} {l : Line} :
      Built hid b → l ∈ b.layout width → Built hid (b.splitAt l.start).1
  | tail {hid : Bool} {b : TextBody} {width : Float32} {l : Line} :
      Built hid b → l ∈ b.layout width → Built hid (b.splitAt l.start).2

/-- Every body that is built is tidy, and takes up all of a text but its line breaks and the returns at the
ends of its lines. -/
theorem tidy_of_built {hid : Bool} {b : TextBody} (built : Built hid b) :
    b.Tidy hid ∧ ∀ text face hidden, (b.append text face hidden).chars =
      b.chars ++ (text.toList.splitOn '\n').flatMap (List.rdropWhile (· = '\r')) := by
  refine ⟨?_, fun text face hidden => ?_⟩
  · induction built with
    | ofSize size => exact ⟨List.cons_ne_nil _ _, List.forall_mem_singleton.mpr .nil⟩
    | append text face hidden _ ih => exact ih.append text face hidden
    | breakParagraph _ ih => exact ih.breakParagraph
    | startParagraph bullet level size _ ih => exact ih.startParagraph bullet level size
    | setAlign align _ ih => exact ih.setAlign align
    | hide _ ih => exact ih.hide
    | head _ atLine ih => exact (ih.splitAt atLine).1
    | tail _ atLine ih => exact (ih.splitAt atLine).2
  · rw [append_chars, Text.pieces_eq_splitOn]
    rfl

/-- A list item that goes on in the next paragraph. -/
def note : TextBody :=
  (((ofSize 20).startParagraph (some ⟨.symbol '•', false⟩) 1 20).append "\nred " (.plain 20) false).append
    "green\r\nblue" { Face.plain 20 with bold := true } false

/-- What is behind the first line of it, hidden and written on. -/
theorem tidy_of_built_hiddenRest :
    ∃ l ∈ note.layout 60, Built true (note.splitAt l.start).2.hide ∧ (note.splitAt l.start).2.hide.Tidy true ∧
      (note.splitAt l.start).2.hide.runs.map Run.text = ["green", "blue"] ∧
      ((note.splitAt l.start).2.hide.append "!\r\n\r?\r" (.plain 20) true).chars = "greenblue!\r?".toList := by
  have built : Built false note := .append _ _ _ (.append _ _ _ (.startParagraph _ _ _ (.ofSize 20)))
  have second : ((note.layout 60)[1]?).map Line.start = some ⟨0, 1, 0⟩ := by decide +kernel
  obtain ⟨l, atLine, start⟩ := Option.map_eq_some_iff.mp second
  have inside : l ∈ note.layout 60 := List.mem_of_getElem? atLine
  have rest : Built true (note.splitAt l.start).2.hide := .hide (.tail built inside)
  obtain ⟨tidy, takes⟩ := tidy_of_built rest
  refine ⟨l, inside, rest, tidy, ?_, (takes _ _ _).trans ?_⟩ <;> rw [start] <;> decide +kernel

end TextBody

end Unveil
