import Mathlib.Data.List.SplitBy
import Unveil.Proofs.Reveal.Chars

namespace Unveil

theorem splitBy_loop_map {α β : Type} (f : α → β) (R : β → β → Bool) (l : List α) (a : α) (g : List α)
    (gs : List (List α)) :
    List.splitBy.loop R (l.map f) (f a) (g.map f) (gs.map (List.map f)) =
      (List.splitBy.loop (fun a b => R (f a) (f b)) l a g gs).map (List.map f) := by
  induction l generalizing a g gs with
  | nil => simp [List.splitBy.loop]
  | cons b rest ih =>
    rw [List.map_cons, List.splitBy.loop, List.splitBy.loop]
    cases R (f a) (f b) with
    | true => exact ih b (a :: g) gs
    | false => simpa using ih b [] ((a :: g).reverse :: gs)

/-- A list is cut in the same places before and after it is mapped. -/
theorem splitBy_map {α β : Type} (f : α → β) (R : β → β → Bool) (l : List α) :
    (l.map f).splitBy R = (l.splitBy fun a b => R (f a) (f b)).map (List.map f) := by
  cases l with
  | nil => rfl
  | cons a rest => exact splitBy_loop_map f R rest a [] []

/-- The first entries of lists stand in their order among all entries. -/
theorem filterMap_head?_sublist {α : Type} (ls : List (List α)) :
    (ls.filterMap List.head?).Sublist ls.flatten := by
  induction ls with
  | nil => exact .slnil
  | cons l rest ih =>
    rw [List.flatten_cons]
    cases l with
    | nil => exact ih
    | cons a more => exact (ih.trans (List.sublist_append_right more _)).cons_cons a

namespace TextBody

def byteCount : List Char → Nat
  | [] => 0
  | c :: rest => c.utf8Size + byteCount rest

theorem byteCount_append (before after : List Char) :
    byteCount (before ++ after) = byteCount before + byteCount after := by
  induction before with
  | nil => exact (Nat.zero_add _).symm
  | cons c rest ih => rw [List.cons_append, byteCount, byteCount, ih, Nat.add_assoc]

theorem byteCount_concat (before : List Char) (c : Char) :
    byteCount (before ++ [c]) = byteCount before + c.utf8Size := by
  rw [byteCount_append]
  rfl

theorem byteCount_cons_ne_zero (c : Char) (rest : List Char) : byteCount (c :: rest) ≠ 0 := by
  have positive := c.utf8Size_pos
  rw [byteCount]
  omega

theorem byteCount_eq_zero {cs : List Char} : byteCount cs = 0 ↔ cs = [] := by
  cases cs with
  | nil => exact iff_of_true rfl rfl
  | cons c rest => exact iff_of_false (byteCount_cons_ne_zero c rest) (List.cons_ne_nil c rest)

theorem utf8ByteSize_ofList (cs : List Char) : (String.ofList cs).utf8ByteSize = byteCount cs := by
  induction cs with
  | nil => rfl
  | cons c rest ih =>
    rw [String.ofList_cons, String.utf8ByteSize_append, ih, String.utf8ByteSize_singleton, byteCount]

/-- A number of bytes is cut off where the letters before it take as many. -/
theorem cutBytes_byteCount (before after : List Char) :
    cutBytes (byteCount before) (before ++ after) = (before, after) := by
  induction before with
  | nil => cases after <;> rfl
  | cons c rest ih =>
    rw [List.cons_append, cutBytes, if_neg (byteCount_cons_ne_zero c rest), byteCount,
      Nat.add_sub_cancel_left, ih]

end TextBody

/-- The order of places in a body. -/
def TextPos.Before (a b : TextPos) : Prop :=
  a.paragraph < b.paragraph ∨
    a.paragraph = b.paragraph ∧ (a.run < b.run ∨ a.run = b.run ∧ a.offset < b.offset)

instance : DecidableRel TextPos.Before := fun _ _ => inferInstanceAs (Decidable (_ ∨ _))

def Glyph.pos (paragraph : Nat) (g : Glyph) : TextPos := ⟨paragraph, g.run, g.offset⟩

def Word.pos (paragraph : Nat) (w : Word) : TextPos := ⟨paragraph, w.run, w.offset⟩

/-- The same glyph at another place. -/
def Glyph.placed (place : Nat → Nat → Nat × Nat) (g : Glyph) : Glyph :=
  { g with run := (place g.run g.offset).1, offset := (place g.run g.offset).2 }

namespace Word

/-- The same word at another place. -/
def placed (place : Nat → Nat → Nat × Nat) (w : Word) : Word :=
  { w with run := (place w.run w.offset).1, offset := (place w.run w.offset).2 }

theorem foldl_add_placed (place : Nat → Nat → Nat × Nat) (gs : List Glyph) (w : Word) :
    (gs.map (Glyph.placed place)).foldl add (w.placed place) = (gs.foldl add w).placed place := by
  induction gs generalizing w with
  | nil => rfl
  | cons g rest ih => exact ih (w.add g)

theorem ofGlyphs?_placed (place : Nat → Nat → Nat × Nat) (gs : List Glyph) :
    ofGlyphs? (gs.map (Glyph.placed place)) = (ofGlyphs? gs).map (placed place) := by
  cases gs with
  | nil => rfl
  | cons g rest => exact congrArg some (foldl_add_placed place (g :: rest) (start g))

theorem foldl_add_start (gs : List Glyph) (w : Word) :
    (gs.foldl add w).run = w.run ∧ (gs.foldl add w).offset = w.offset := by
  induction gs generalizing w with
  | nil => exact ⟨rfl, rfl⟩
  | cons g rest ih => exact ih (w.add g)

/-- A word starts where the first of its glyphs stands. -/
theorem ofGlyphs?_cons (g : Glyph) (gs : List Glyph) :
    ∃ w, ofGlyphs? (g :: gs) = some w ∧ w.run = g.run ∧ w.offset = g.offset :=
  ⟨_, rfl, foldl_add_start (g :: gs) (start g)⟩

end Word

namespace Glyph

/-- The words that glyphs in a row make up. -/
def words (gs : List Glyph) : List Word :=
  (gs.splitBy fun a b => !a.blank || b.blank).filterMap Word.ofGlyphs?

theorem words_placed (place : Nat → Nat → Nat × Nat) (gs : List Glyph) :
    words (gs.map (placed place)) = (words gs).map (Word.placed place) := by
  unfold words
  rw [splitBy_map, List.filterMap_map, List.map_filterMap]
  exact List.filterMap_congr fun gs _ => Word.ofGlyphs?_placed place gs

/-- A word ends where a glyph that is not blank follows a blank. -/
theorem words_append {before : List Glyph} {g : Glyph} (blank : ∀ a ∈ before.getLast?, a.blank = true)
    (dark : g.blank = false) (after : List Glyph) :
    words (before ++ g :: after) = words before ++ words (g :: after) := by
  rw [words, List.splitBy_append_cons, List.filterMap_append]
  · rfl
  · intro a last
    rw [blank a last, dark]
    rfl

/-- Glyphs of one word each, of which no two make up one word. -/
theorem words_flatten {groups : List (List Glyph)} (nonempty : [] ∉ groups)
    (whole : ∀ group ∈ groups, group.IsChain fun a b => !a.blank || b.blank)
    (apart : groups.IsChain fun a b => ∃ ha hb, (!(a.getLast ha).blank || (b.head hb).blank) = false) :
    words groups.flatten = groups.filterMap Word.ofGlyphs? := by
  rw [words, List.splitBy_flatten nonempty whole apart]

theorem words_eq_nil {gs : List Glyph} : words gs = [] ↔ gs = [] := by
  refine ⟨fun empty => List.eq_nil_iff_forall_not_mem.mpr fun g atG => ?_, fun empty => empty ▸ rfl⟩
  rw [← List.flatten_splitBy (fun a b : Glyph => !a.blank || b.blank) gs] at atG
  obtain ⟨group, atGroup, atG⟩ := List.mem_flatten.mp atG
  have unmade := List.filterMap_eq_nil_iff.mp empty group atGroup
  cases group with
  | nil => cases atG
  | cons => cases unmade

theorem words_pos (paragraph : Nat) (gs : List Glyph) :
    ((words gs).map (Word.pos paragraph)).Sublist (gs.map (pos paragraph)) := by
  have starts (group : List Glyph) :
      (Word.ofGlyphs? group).map (Word.pos paragraph) = group.head?.map (pos paragraph) := by
    cases group with
    | nil => rfl
    | cons g rest =>
      obtain ⟨w, made, run, offset⟩ := Word.ofGlyphs?_cons g rest
      rw [made, List.head?_cons, Option.map_some, Option.map_some, Word.pos, run, offset, pos]
  have heads := filterMap_head?_sublist (gs.splitBy fun a b => !a.blank || b.blank)
  rw [List.flatten_splitBy] at heads
  have places := heads.map (pos paragraph)
  rwa [List.map_filterMap, ← List.filterMap_congr fun group _ => starts group, ← List.map_filterMap] at places

/-- Glyphs can be cut in front of the first one of a word. -/
theorem exists_of_words {gs : List Glyph} {first rest : List Word} {w : Word}
    (cut : words gs = first ++ w :: rest) :
    ∃ before g after, gs = before ++ g :: after ∧ words before = first ∧
      w.run = g.run ∧ w.offset = g.offset ∧
      (first ≠ [] → g.blank = false ∧ ∃ a, before.getLast? = some a ∧ a.blank = true) := by
  have flat := List.flatten_splitBy (fun a b : Glyph => !a.blank || b.blank) gs
  have nonempty := List.nil_notMem_splitBy (fun a b : Glyph => !a.blank || b.blank) gs
  have whole (group : List Glyph) (inside : group ∈ gs.splitBy fun a b => !a.blank || b.blank) :=
    List.isChain_of_mem_splitBy inside
  have apart := List.isChain_getLast_head_splitBy (fun a b : Glyph => !a.blank || b.blank) gs
  obtain ⟨left, right, groups, atFirst, atRest⟩ := List.filterMap_eq_append_iff.mp cut
  rw [groups] at flat nonempty whole apart
  obtain ⟨leftApart, _, between⟩ := List.isChain_append.mp apart
  rw [List.mem_append, not_or] at nonempty
  have before : words left.flatten = first :=
    (words_flatten nonempty.1 (fun group inside => whole group (List.mem_append_left _ inside)) leftApart).trans
      atFirst
  rcases right with _ | ⟨_ | ⟨g, later⟩, more⟩
  · cases atRest
  · exact absurd List.mem_cons_self nonempty.2
  · obtain ⟨v, made, run, offset⟩ := Word.ofGlyphs?_cons g later
    rw [List.filterMap_cons_some made] at atRest
    cases (List.cons.inj atRest).1
    refine ⟨left.flatten, g, later ++ more.flatten, by simpa using flat.symm, before, run, offset,
      fun behind => ?_⟩
    rcases List.eq_nil_or_concat' left with empty | ⟨init, group, ends⟩
    · rw [empty] at atFirst
      exact absurd atFirst.symm behind
    · subst ends
      obtain ⟨last, _, differ⟩ := between group List.getLast?_concat (g :: later) rfl
      simp only [List.head_cons, Bool.or_eq_false_iff, Bool.not_eq_false'] at differ
      refine ⟨differ.2, group.getLast last, ?_, differ.1⟩
      rw [List.flatten_append, List.flatten_singleton, List.getLast?_append_of_ne_nil _ last]
      exact List.getLast?_eq_some_getLast last

end Glyph

namespace Paragraph

theorem glyphsFrom_placed {place : Nat → Nat → Nat × Nat} {run run' back : Nat} (advance size : Float32)
    (counts : ∀ offset, place run offset = (run', back + offset)) (offset : Nat) (cs : List Char) :
    glyphsFrom run' advance size (back + offset) cs =
      (glyphsFrom run advance size offset cs).map (Glyph.placed place) := by
  induction cs generalizing offset with
  | nil => rfl
  | cons c rest ih =>
    rw [glyphsFrom, glyphsFrom, List.map_cons, ← ih, Glyph.placed, counts, Nat.add_assoc]

theorem glyphsOf_placed {place : Nat → Nat → Nat × Nat} {back index : Nat} {runs : List Run}
    (counts : ∀ run offset, index ≤ run → place run offset = (back + run, offset)) :
    glyphsOf (back + index) runs = (glyphsOf index runs).map (Glyph.placed place) := by
  induction runs generalizing index with
  | nil => rfl
  | cons r rest ih =>
    have here (offset : Nat) : place index offset = (back + index, 0 + offset) := by
      rw [counts index offset (Nat.le_refl _), Nat.zero_add]
    rw [glyphsOf, glyphsOf, List.map_append, ← glyphsFrom_placed _ _ here, Nat.add_assoc back index,
      ih fun run offset later => counts run offset (by omega)]

theorem glyphsFrom_append (run offset : Nat) (advance size : Float32) (before after : List Char) :
    glyphsFrom run advance size offset (before ++ after) = glyphsFrom run advance size offset before ++
      glyphsFrom run advance size (offset + TextBody.byteCount before) after := by
  induction before generalizing offset with
  | nil => rfl
  | cons c rest ih =>
    rw [List.cons_append, glyphsFrom, glyphsFrom, ih, TextBody.byteCount, Nat.add_assoc, List.cons_append]

theorem glyphsOf_append (index : Nat) (first rest : List Run) :
    glyphsOf index (first ++ rest) = glyphsOf index first ++ glyphsOf (index + first.length) rest := by
  induction first generalizing index with
  | nil => rfl
  | cons r more ih =>
    rw [List.cons_append, glyphsOf, glyphsOf, ih, List.append_assoc, List.length_cons, Nat.add_right_comm,
      Nat.add_assoc]

theorem glyphsFrom_run {run offset : Nat} {advance size : Float32} {cs : List Char} {g : Glyph}
    (atG : g ∈ glyphsFrom run advance size offset cs) : g.run = run ∧ offset ≤ g.offset := by
  induction cs generalizing offset with
  | nil => cases atG
  | cons c rest ih =>
    rcases List.mem_cons.mp atG with rfl | later
    · exact ⟨rfl, Nat.le_refl _⟩
    · obtain ⟨same, bound⟩ := ih later
      exact ⟨same, by omega⟩

theorem glyphsOf_run {index : Nat} {runs : List Run} {g : Glyph} (atG : g ∈ glyphsOf index runs) :
    index ≤ g.run ∧ g.run < index + runs.length := by
  induction runs generalizing index with
  | nil => cases atG
  | cons r rest ih =>
    rw [List.length_cons]
    rcases List.mem_append.mp atG with here | later
    · have same := (glyphsFrom_run here).1
      omega
    · have bounds := ih later
      omega

theorem glyphsFrom_ascending (paragraph run offset : Nat) (advance size : Float32) (cs : List Char) :
    ((glyphsFrom run advance size offset cs).map (Glyph.pos paragraph)).Pairwise TextPos.Before := by
  induction cs generalizing offset with
  | nil => exact .nil
  | cons c rest ih =>
    refine List.pairwise_cons.mpr ⟨fun pos later => ?_, ih _⟩
    obtain ⟨g, atG, rfl⟩ := List.mem_map.mp later
    obtain ⟨same, bound⟩ := glyphsFrom_run atG
    have positive := c.utf8Size_pos
    exact .inr ⟨rfl, .inr ⟨same.symm, by simp only [Glyph.pos]; omega⟩⟩

theorem glyphsOf_ascending (paragraph index : Nat) (runs : List Run) :
    ((glyphsOf index runs).map (Glyph.pos paragraph)).Pairwise TextPos.Before := by
  induction runs generalizing index with
  | nil => exact .nil
  | cons r rest ih =>
    rw [glyphsOf, List.map_append]
    refine List.pairwise_append.mpr ⟨glyphsFrom_ascending _ _ _ _ _ _, ih _, fun a atA b atB => ?_⟩
    obtain ⟨g, atG, rfl⟩ := List.mem_map.mp atA
    obtain ⟨h, atH, rfl⟩ := List.mem_map.mp atB
    have first := (glyphsFrom_run atG).1
    have second := (glyphsOf_run atH).1
    exact .inr ⟨rfl, .inl (by simp only [Glyph.pos]; omega)⟩

/-- A glyph is blank if its character is. -/
theorem glyphsFrom_blank (run offset : Nat) (advance size : Float32) (cs : List Char) :
    (glyphsFrom run advance size offset cs).map Glyph.blank = cs.map Text.isBlank := by
  induction cs generalizing offset with
  | nil => rfl
  | cons c rest ih => rw [glyphsFrom, List.map_cons, List.map_cons, ih]

/-- There is a glyph for each character. -/
theorem glyphsOf_blank (index : Nat) (runs : List Run) :
    (glyphsOf index runs).map Glyph.blank = (runs.flatMap Run.chars).map Text.isBlank := by
  induction runs generalizing index with
  | nil => rfl
  | cons r rest ih =>
    rw [glyphsOf, List.map_append, glyphsFrom_blank, ih, List.flatMap_cons, List.map_append]
    rfl

end Paragraph

namespace Run

/-- A character of a run, and what is around it. -/
structure Spot where
  first : List Run
  run : Run
  rest : List Run
  left : List Char
  char : Char
  right : List Char
  text_eq : run.text.toList = left ++ char :: right

namespace Spot

variable (s : Spot)

/-- The runs in which the character is. -/
def runs : List Run := s.first ++ s.run :: s.rest

def index : Nat := s.first.length

def offset : Nat := (String.ofList s.left).utf8ByteSize

/-- The characters of all runs before this one. -/
def before : List Char := s.first.flatMap Run.chars ++ s.left

/-- The runs up to the character. -/
def head : List Run := s.first ++ if s.left = [] then [] else [{ s.run with text := String.ofList s.left }]

/-- The runs from the character on. -/
def tail : List Run := { s.run with text := String.ofList (s.char :: s.right) } :: s.rest

/-- A word that is not the first one starts here. -/
def StartsWord : Prop :=
  Text.isBlank s.char = false ∧ ∃ c, s.before.getLast? = some c ∧ Text.isBlank c = true

/-- The place in the runs of a place in their tail. -/
def behind (run offset : Nat) : Nat × Nat := (s.index + run, if run = 0 then s.offset + offset else offset)

theorem offset_eq : s.offset = TextBody.byteCount s.left := TextBody.utf8ByteSize_ofList s.left

theorem run_eq : { s.run with text := String.ofList (s.left ++ s.char :: s.right) } = s.run := by
  rw [← s.text_eq, String.ofList_toList]

theorem head_chars : s.head.flatMap Run.chars = s.before := by
  unfold head before
  split
  · rename_i empty
    simp [empty]
  · simp [Run.chars]

theorem cutRuns_runs : TextBody.cutRuns s.runs s.index s.offset = (s.head, s.tail) := by
  have before : s.runs.take s.index = s.first := List.take_left
  have after : s.runs.drop s.index = s.run :: s.rest := List.drop_left
  unfold TextBody.cutRuns
  simp only [before, after]
  rw [s.offset_eq, s.text_eq, TextBody.cutBytes_byteCount, head, tail]
  by_cases empty : s.left = []
  · have whole := s.run_eq
    rw [empty, List.nil_append] at whole
    rw [if_pos (TextBody.byteCount_eq_zero.mpr empty), if_pos empty, whole, List.append_nil]
  · rw [if_neg (mt TextBody.byteCount_eq_zero.mp empty), if_neg empty]

/-- The glyphs of the runs are those up to the character and those from it on. -/
theorem glyphs_runs : Paragraph.glyphsOf 0 s.runs =
    Paragraph.glyphsOf 0 s.head ++ (Paragraph.glyphsOf 0 s.tail).map (Glyph.placed s.behind) := by
  have here (offset : Nat) : s.behind 0 offset = (s.index, s.offset + offset) := rfl
  have later (run offset : Nat) (after : 1 ≤ run) : s.behind run offset = (s.index + run, offset) := by
    rw [behind, if_neg (by omega)]
  have left : Paragraph.glyphsOf 0 s.head = Paragraph.glyphsOf 0 s.first ++ Paragraph.glyphsFrom s.index
      (Metrics.glyphWidth s.run.face) s.run.face.size 0 s.left := by
    rw [head, Paragraph.glyphsOf_append]
    split
    · rename_i empty
      rw [empty]
      rfl
    · simp [Paragraph.glyphsOf, index]
  rw [left, tail, runs, Paragraph.glyphsOf_append, Paragraph.glyphsOf, Paragraph.glyphsOf, s.text_eq,
    Paragraph.glyphsFrom_append, ← s.offset_eq, List.map_append, ← Paragraph.glyphsFrom_placed _ _ here,
    ← Paragraph.glyphsOf_placed later, String.toList_ofList]
  simp only [Nat.zero_add, Nat.add_zero, List.append_assoc, index]

theorem exists_tail_glyph : ∃ g after, Paragraph.glyphsOf 0 s.tail = g :: after ∧
    g.run = 0 ∧ g.offset = 0 ∧ g.blank = Text.isBlank s.char := by
  rw [tail, Paragraph.glyphsOf, String.toList_ofList]
  exact ⟨_, _, rfl, rfl, rfl, rfl⟩

/-- A word starts at a glyph that is not blank and comes after a blank. -/
theorem startsWord_iff : s.StartsWord ↔
    Text.isBlank s.char = false ∧ ∃ g, (Paragraph.glyphsOf 0 s.head).getLast? = some g ∧ g.blank = true := by
  have same : (Paragraph.glyphsOf 0 s.head).getLast?.map Glyph.blank = s.before.getLast?.map Text.isBlank := by
    rw [← List.getLast?_map, ← List.getLast?_map, Paragraph.glyphsOf_blank, head_chars]
  refine and_congr_right fun _ => ?_
  cases last : s.before.getLast? <;> cases last' : (Paragraph.glyphsOf 0 s.head).getLast? <;> simp_all

/-- Where a word starts behind another one, the words before the place and those from it on are the words. -/
theorem words_runs (start : s.StartsWord) : Glyph.words (Paragraph.glyphsOf 0 s.runs) =
    Glyph.words (Paragraph.glyphsOf 0 s.head) ++
      (Glyph.words (Paragraph.glyphsOf 0 s.tail)).map (Word.placed s.behind) := by
  obtain ⟨dark, a, last, blank⟩ := s.startsWord_iff.mp start
  obtain ⟨g, after, tail, _, _, same⟩ := s.exists_tail_glyph
  have char : (g.placed s.behind).blank = false := same.trans dark
  have blanks (b : Glyph) (atLast : b ∈ (Paragraph.glyphsOf 0 s.head).getLast?) : b.blank = true := by
    rw [last] at atLast
    cases atLast
    exact blank
  rw [s.glyphs_runs, ← Glyph.words_placed, tail, List.map_cons]
  exact Glyph.words_append blanks char _

end Spot

theorem exists_spot {runs : List Run} {before after : List Char} {c : Char}
    (cut : runs.flatMap Run.chars = before ++ c :: after) :
    ∃ s : Spot, runs = s.runs ∧ s.before = before ∧ s.char = c := by
  induction runs generalizing before with
  | nil => exact absurd cut.symm (List.append_ne_nil_of_right_ne_nil _ (List.cons_ne_nil _ _))
  | cons r rest ih =>
    rw [List.flatMap_cons, List.append_eq_append_iff] at cut
    have later {before : List Char} (cut : rest.flatMap Run.chars = before ++ c :: after) :
        ∃ s : Spot, r :: rest = s.runs ∧ s.before = r.chars ++ before ∧ s.char = c := by
      obtain ⟨s, runs, before, char⟩ := ih cut
      refine ⟨{ s with first := r :: s.first }, ?_, ?_, char⟩
      · rw [runs]
        rfl
      · rw [← before, Spot.before, Spot.before, List.flatMap_cons, List.append_assoc]
    rcases cut with ⟨more, split, cut⟩ | ⟨cs, split, cut⟩
    · rw [split]
      exact later cut
    · cases cs with
      | nil =>
        rw [List.append_nil] at split
        rw [← split, ← r.chars.append_nil]
        exact later cut.symm
      | cons d ds =>
        obtain ⟨rfl, _⟩ := List.cons.inj cut
        exact ⟨⟨[], r, rest, before, c, ds, split⟩, rfl, rfl, rfl⟩

/-- Each glyph of runs is that of a character. -/
theorem exists_spot_of_glyphs {runs : List Run} {before after : List Glyph} {g : Glyph}
    (cut : Paragraph.glyphsOf 0 runs = before ++ g :: after) :
    ∃ s : Spot, runs = s.runs ∧ Paragraph.glyphsOf 0 s.head = before ∧
      s.index = g.run ∧ s.offset = g.offset ∧ Text.isBlank s.char = g.blank := by
  have blanks := Paragraph.glyphsOf_blank 0 runs
  rw [cut, List.map_append, List.map_cons] at blanks
  obtain ⟨first, others, split, atFirst, atOthers⟩ := List.map_eq_append_iff.mp blanks.symm
  obtain ⟨c, rest, rfl, char, _⟩ := List.map_eq_cons_iff.mp atOthers
  obtain ⟨s, runs, ahead, rfl⟩ := exists_spot split
  obtain ⟨h, later, tail, run, offset, blank⟩ := s.exists_tail_glyph
  have same := s.glyphs_runs
  rw [← runs, cut, tail, List.map_cons] at same
  have long : before.length = (Paragraph.glyphsOf 0 s.head).length := by
    have first' := congrArg List.length atFirst
    have head := congrArg List.length (Paragraph.glyphsOf_blank 0 s.head)
    rw [s.head_chars, ahead] at head
    simp only [List.length_map] at first' head
    omega
  obtain ⟨head, glyph⟩ := List.append_inj same long
  obtain ⟨rfl, _⟩ := List.cons.inj glyph
  refine ⟨s, runs, head.symm, ?_, ?_, char⟩
  · rw [Glyph.placed, run]
    rfl
  · rw [Glyph.placed, run, offset]
    rfl

end Run

namespace Paragraph

/-- A word behind others starts at a character behind a blank. -/
theorem exists_spot_of_words {p : Paragraph} {first rest : List Word} {w : Word}
    (cut : p.words = first ++ w :: rest) (behind : first ≠ []) :
    ∃ s : Run.Spot, p.runs = s.runs ∧ s.StartsWord ∧ w.run = s.index ∧ w.offset = s.offset ∧
      ({ p with runs := s.head } : Paragraph).words = first := by
  obtain ⟨before, g, after, glyphs, words, run, offset, starts⟩ := Glyph.exists_of_words cut
  obtain ⟨dark, a, last, blank⟩ := starts behind
  obtain ⟨s, runs, head, run', offset', char⟩ := Run.exists_spot_of_glyphs glyphs
  refine ⟨s, runs, s.startsWord_iff.mpr ⟨char.trans dark, a, head ▸ last, blank⟩, run.trans run'.symm,
    offset.trans offset'.symm, ?_⟩
  rw [← words, ← head]
  rfl

/-- The first word starts at the first character. -/
theorem words_cons {p : Paragraph} (nonempty : ∀ r ∈ p.runs, r.text ≠ "") {w : Word} {rest : List Word}
    (cut : p.words = w :: rest) : w.run = 0 ∧ w.offset = 0 := by
  obtain ⟨before, g, after, glyphs, words, run, offset, _⟩ :=
    Glyph.exists_of_words (cut.trans (List.nil_append _).symm)
  rw [Glyph.words_eq_nil.mp words, List.nil_append, Paragraph.glyphs] at glyphs
  cases runs : p.runs with
  | nil =>
    rw [runs] at glyphs
    cases glyphs
  | cons r more =>
    have text := nonempty r (by rw [runs]; exact .head _)
    rw [runs, glyphsOf] at glyphs
    cases letters : r.text.toList with
    | nil => exact absurd (String.toList_eq_nil_iff.mp letters) text
    | cons c cs =>
      rw [letters] at glyphs
      obtain ⟨rfl, _⟩ := List.cons.inj glyphs
      exact ⟨run, offset⟩

end Paragraph

end Unveil
