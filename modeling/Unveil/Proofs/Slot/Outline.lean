import Mathlib.Data.List.Forall2
import Unveil.Proofs.Reveal.Chars
import Unveil.Proofs.Slot.Size

namespace Unveil

open Float.Model.UnpackedFloat (Sign)
open Size (Sized)

theorem Face.eq_of_beq {s : Sign} {f g : Face} (left : Sized s f.size) (right : Sized s g.size)
    (same : (f == g) = true) : f = g := by
  obtain ⟨font, size, color, bold, italic, underline, smallCaps⟩ := f
  obtain ⟨font', size', color', bold', italic', underline', smallCaps'⟩ := g
  have parts : (font == font' && (size == size' && (color == color' && (bold == bold' &&
      (italic == italic' && (underline == underline' && smallCaps == smallCaps')))))) = true := same
  simp only [Bool.and_eq_true, beq_iff_eq] at parts
  obtain ⟨rfl, sizes, rfl, rfl, rfl, rfl, rfl⟩ := parts
  cases left.eq right sizes
  rfl

/-- A letter in a face, as it shows. -/
def Face.letter (face : Face) (c : Char) : Run := ⟨String.singleton c, face, false⟩

namespace Run

/-- A run cut into its letters. -/
def letters (r : Run) : List Run := r.text.toList.map r.face.letter

/-- A run as it is written: with some text, in a face of the sign of its body. -/
structure Sound (s : Sign) (r : Run) : Prop where
  nonempty : r.text ≠ ""
  sized : Sized s r.face.size

end Run

namespace Paragraph

def letters (p : Paragraph) : List Run := p.runs.flatMap Run.letters

/-- Bodies that are alike have the same outline. -/
def outline (p : Paragraph) : Paragraph :=
  { p with runs := p.letters, bullet := p.bullet.map fun b => { b with hidden := false } }

def Sound (s : Sign) (p : Paragraph) : Prop := ∀ r ∈ p.runs, r.Sound s

theorem extend_letters {s : Sign} {runs : List Run} {run : Run} (sound : ∀ r ∈ runs, r.Sound s)
    (sized : Sized s run.face.size) :
    (extend runs run).flatMap Run.letters = runs.flatMap Run.letters ++ run.letters := by
  rcases extend_cases runs run with ⟨before, last, rfl, joins, joined⟩ | ⟨_, joined⟩
  · rw [Bool.and_eq_true] at joins
    have face : last.face = run.face := Face.eq_of_beq (sound last (by simp)).sized sized joins.2
    simp [joined, Run.letters, face]
  · simp [joined]

theorem extend_sound {s : Sign} {runs : List Run} {run : Run} (sound : ∀ r ∈ runs, r.Sound s)
    (added : run.Sound s) : ∀ r ∈ extend runs run, r.Sound s := by
  intro r atR
  rcases extend_cases runs run with ⟨before, last, rfl, _, joined⟩ | ⟨_, joined⟩ <;>
    rw [joined] at atR <;> rcases List.mem_append.mp atR with there | here
  · exact sound r (List.mem_append_left _ there)
  · cases List.mem_singleton.mp here
    have whole := sound last (by simp)
    refine ⟨fun empty => whole.nonempty ?_, whole.sized⟩
    exact (String.append_eq_empty_iff.mp empty).1
  · exact sound r there
  · exact List.mem_singleton.mp here ▸ added

theorem push_letters {s : Sign} {p : Paragraph} {face : Face} (sound : p.Sound s)
    (sized : Sized s face.size) (text : String) (hidden : Bool) :
    (p.push text face hidden).letters = p.letters ++ text.toList.map face.letter := by
  unfold push
  split
  · rename_i empty
    simp [String.isEmpty_iff.mp empty]
  · exact extend_letters sound sized

theorem push_sound {s : Sign} {p : Paragraph} {face : Face} (sound : p.Sound s)
    (sized : Sized s face.size) (text : String) (hidden : Bool) :
    (p.push text face hidden).Sound s := by
  unfold push
  split
  · exact sound
  · rename_i nonempty
    exact extend_sound sound ⟨fun empty => nonempty (String.isEmpty_iff.mpr empty), sized⟩

/-- Two paragraphs that differ in what is hidden and in where their runs are cut. They have the same letters, each
with its face. -/
structure Alike (s : Sign) (p q : Paragraph) : Prop where
  outline : p.outline = q.outline
  left : p.Sound s
  right : q.Sound s

theorem outline_eq {p q : Paragraph} (letters : p.letters = q.letters)
    (bullet : p.bullet.map Bullet.mark = q.bullet.map Bullet.mark) (level : p.level = q.level)
    (align : p.align = q.align) (size : p.size = q.size) : p.outline = q.outline := by
  have cleared (b : Option Bullet) : b.map (fun b => { b with hidden := false }) =
      (b.map Bullet.mark).map fun mark => (⟨mark, false⟩ : Bullet) := by
    cases b <;> rfl
  simp only [outline, letters, level, align, size, cleared, bullet]

theorem isEmpty_iff (p : Paragraph) : p.isEmpty = true ↔ p.letters = [] := by
  simp [isEmpty, letters, Run.letters]

namespace Alike

variable {s : Sign} {p q : Paragraph}

theorem refl (sound : p.Sound s) : Alike s p p := ⟨rfl, sound, sound⟩

theorem letters (alike : Alike s p q) : p.letters = q.letters := congrArg runs alike.outline

theorem bullet (alike : Alike s p q) : p.bullet.map Bullet.mark = q.bullet.map Bullet.mark := by
  have marks := congrArg (fun p : Paragraph => p.bullet.map Bullet.mark) alike.outline
  simpa [Paragraph.outline, Function.comp_def] using marks

theorem level (alike : Alike s p q) : p.level = q.level := by
  injection alike.outline

theorem align (alike : Alike s p q) : p.align = q.align := by
  injection alike.outline

theorem size (alike : Alike s p q) : p.size = q.size := by
  injection alike.outline

theorem isEmpty (alike : Alike s p q) : p.isEmpty = q.isEmpty := by
  rw [Bool.eq_iff_iff, isEmpty_iff, isEmpty_iff, alike.letters]

theorem isUntouched (alike : Alike s p q) : p.isUntouched = q.isUntouched := by
  have bullets := congrArg Option.isNone alike.bullet
  simp only [Option.isNone_map] at bullets
  rw [Paragraph.isUntouched, Paragraph.isUntouched, alike.isEmpty, bullets]

theorem push (alike : Alike s p q) {face : Face} (sized : Sized s face.size) (text : String)
    (hidden hidden' : Bool) : Alike s (p.push text face hidden) (q.push text face hidden') := by
  have still (p : Paragraph) (hidden : Bool) : (p.push text face hidden).bullet = p.bullet ∧
      (p.push text face hidden).level = p.level ∧ (p.push text face hidden).align = p.align ∧
      (p.push text face hidden).size = p.size := by
    unfold Paragraph.push
    split <;> exact ⟨rfl, rfl, rfl, rfl⟩
  obtain ⟨bullet, level, align, size⟩ := still p hidden
  obtain ⟨bullet', level', align', size'⟩ := still q hidden'
  refine ⟨outline_eq ?_ ?_ ?_ ?_ ?_, push_sound alike.left sized _ _, push_sound alike.right sized _ _⟩
  · rw [push_letters alike.left sized, push_letters alike.right sized, alike.letters]
  · rw [bullet, bullet', alike.bullet]
  · rw [level, level', alike.level]
  · rw [align, align', alike.align]
  · rw [size, size', alike.size]

theorem successor (alike : Alike s p q) : Alike s p.successor q.successor :=
  ⟨outline_eq rfl rfl alike.level alike.align alike.size, nofun, nofun⟩

end Alike

end Paragraph

namespace TextBody

def outline (b : TextBody) : TextBody := ⟨b.paragraphs.map Paragraph.outline⟩

def Sound (s : Sign) (b : TextBody) : Prop := ∀ p ∈ b.paragraphs, p.Sound s

/-- Two bodies that differ in what is hidden and in where their runs are cut. -/
def Alike (s : Sign) (b d : TextBody) : Prop :=
  List.Forall₂ (Paragraph.Alike s) b.paragraphs d.paragraphs

theorem mapLast_alike {s : Sign} {f g : Paragraph → Paragraph} {ps qs : List Paragraph}
    (alike : List.Forall₂ (Paragraph.Alike s) ps qs)
    (changes : ∀ p q, p.Alike s q → (f p).Alike s (g q)) :
    List.Forall₂ (Paragraph.Alike s) (mapLast f ps) (mapLast g qs) := by
  induction alike with
  | nil => exact .nil
  | cons first rest ih =>
    cases rest with
    | nil => exact .cons (changes _ _ first) .nil
    | cons => exact .cons first ih

theorem getLastD_alike {s : Sign} {ps qs : List Paragraph}
    (alike : List.Forall₂ (Paragraph.Alike s) ps qs)
    {p q : Paragraph} (otherwise : p.Alike s q) : (ps.getLastD p).Alike s (qs.getLastD q) := by
  induction alike generalizing p q with
  | nil => exact otherwise
  | cons first rest ih =>
    rw [List.getLastD_cons, List.getLastD_cons]
    exact ih first

theorem ofSize_sound (s : Sign) (size : Float32) : (ofSize size).Sound s := by
  intro p atP
  cases List.mem_singleton.mp atP
  exact nofun

namespace Alike

variable {s : Sign} {b d : TextBody}

theorem refl (sound : b.Sound s) : Alike s b b :=
  List.forall₂_same.mpr fun p atP => .refl (sound p atP)

theorem outline (alike : Alike s b d) : b.outline = d.outline := by
  refine congrArg TextBody.mk (List.forall₂_eq_eq_eq ▸ ?_)
  rw [List.forall₂_map_left_iff, List.forall₂_map_right_iff]
  exact alike.imp fun _ _ same => same.outline

theorem left (alike : Alike s b d) : b.Sound s := by
  intro p atP
  obtain ⟨i, bound, rfl⟩ := List.mem_iff_getElem.mp atP
  exact (alike.get bound (alike.length_eq ▸ bound)).left

theorem right (alike : Alike s b d) : d.Sound s := by
  intro q atQ
  obtain ⟨i, bound, rfl⟩ := List.mem_iff_getElem.mp atQ
  exact (alike.get (alike.length_eq.symm ▸ bound) bound).right

theorem writable (alike : Alike s b d) : List.Forall₂ (Paragraph.Alike s) b.writable d.writable := by
  obtain ⟨ps⟩ := b
  obtain ⟨qs⟩ := d
  cases alike with
  | nil => exact .cons (.refl nofun) .nil
  | cons first rest => exact .cons first rest

theorem current (alike : Alike s b d) : b.current.Alike s d.current :=
  getLastD_alike alike.writable (.refl nofun)

theorem mapCurrent {f g : Paragraph → Paragraph} (alike : Alike s b d)
    (changes : ∀ p q, p.Alike s q → (f p).Alike s (g q)) : Alike s (b.mapCurrent f) (d.mapCurrent g) :=
  mapLast_alike alike.writable changes

theorem breakParagraph (alike : Alike s b d) : Alike s b.breakParagraph d.breakParagraph :=
  List.rel_append alike.writable (.cons alike.current.successor .nil)

/-- Bullets with the same mark, of which one may be hidden. -/
theorem startParagraph (alike : Alike s b d) {bullet bullet' : Option Bullet}
    (marks : bullet.map Bullet.mark = bullet'.map Bullet.mark) (level : Nat) (size : Float32) :
    Alike s (b.startParagraph bullet level size) (d.startParagraph bullet' level size) := by
  have started (p q : Paragraph) (same : p.Alike s q) : Paragraph.Alike s
      { p with bullet, level, size } { q with bullet := bullet', level, size } :=
    ⟨Paragraph.outline_eq same.letters marks rfl same.align rfl, same.left, same.right⟩
  unfold TextBody.startParagraph
  simp only [alike.current.isUntouched]
  split
  · exact mapLast_alike alike.writable started
  · exact mapLast_alike (List.rel_append alike.writable (.cons (.refl nofun) .nil)) started

/-- Text in the same face, hidden or not. -/
theorem append (alike : Alike s b d) {face : Face} (sized : Sized s face.size) (text : String)
    (hidden hidden' : Bool) : Alike s (b.append text face hidden) (d.append text face hidden') := by
  have afterBreak {b d : TextBody} (alike : Alike s b d) (piece : List Char) :
      Alike s (b.pushPiece face hidden piece) (d.pushPiece face hidden' piece) :=
    alike.mapCurrent fun p q same => same.push sized _ _ _
  have folded (pieces : List (List Char)) {b d : TextBody} (alike : Alike s b d) :
      Alike s (pieces.foldl (fun b piece => b.breakParagraph.pushPiece face hidden piece) b)
        (pieces.foldl (fun b piece => b.breakParagraph.pushPiece face hidden' piece) d) := by
    induction pieces generalizing b d with
    | nil => exact alike
    | cons piece rest ih => exact ih (afterBreak alike.breakParagraph piece)
  unfold TextBody.append
  simp only [alike.current.isEmpty]
  split
  · exact alike
  · exact folded _ (afterBreak alike _)

theorem isBlank (alike : Alike s b d) : b.isBlank = d.isBlank := by
  unfold TextBody.isBlank
  unfold Alike at alike
  generalize b.paragraphs = ps at *
  generalize d.paragraphs = qs at *
  induction alike with
  | nil => rfl
  | cons first rest ih => rw [List.all_cons, List.all_cons, ih, first.isUntouched]

end Alike

theorem outline_chars (b : TextBody) : b.outline.chars = b.chars := by
  have run (r : Run) : r.letters.flatMap Run.chars = r.chars := by
    simp [Run.letters, Run.chars, Face.letter, List.flatMap_map]
  have paragraph (p : Paragraph) : p.outline.chars = p.chars := by
    simp only [Paragraph.outline, Paragraph.chars, Paragraph.letters, List.flatMap_assoc, run]
  simp only [outline, chars, List.flatMap_map, paragraph]

end TextBody

end Unveil
