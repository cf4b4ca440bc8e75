import Mathlib.Data.List.Induction
import Unveil.Proofs.ColumnSpec.Grammar

namespace Unveil.ColumnPlan

open ColumnItem (maxColumns list next group reading copiesOf readCount)
open ColumnText (Sequence Item Closing Copies NoCopies Balanced enclose marked)
open ColumnMark (Draws draws_concat)

def addMark (p : ColumnPlan) : ColumnMark → Except ColumnFault ColumnPlan
  | .border => .ok p.addBorder
  | .column spec => p.addColumn spec.align spec.width

def addMarks (p : ColumnPlan) (marks : List ColumnMark) : Except ColumnFault ColumnPlan :=
  marks.foldlM addMark p

@[simp] theorem addMarks_nil (p : ColumnPlan) : p.addMarks [] = .ok p := rfl

theorem addMarks_append (p : ColumnPlan) (marks more : List ColumnMark) :
    p.addMarks (marks ++ more) = p.addMarks marks >>= fun p => p.addMarks more :=
  List.foldlM_append

@[simp] theorem addMarks_singleton (p : ColumnPlan) (mark : ColumnMark) :
    p.addMarks [mark] = p.addMark mark := by
  simp [addMarks]

section
variable {repetition : ColumnPlan → Except ColumnFault (Nat × List Char) → Except ColumnFault ColumnPlan}
  {copies : List Char → List ColumnMark → Prop}

/-- Adds the items of a text with some braces open around it. -/
def addText (repetition : ColumnPlan → Except ColumnFault (Nat × List Char) → Except ColumnFault ColumnPlan)
    (s : ColumnPlan × Nat) (cs : List Char) : Except ColumnFault (ColumnPlan × Nat) :=
  (list cs).foldlM (addItem repetition) s

theorem addText_nil (s : ColumnPlan × Nat) : addText repetition s [] = .ok s := by
  simp [addText, list, pure, Except.pure]

theorem addText_cons (s : ColumnPlan × Nat) (c : Char) (rest : List Char) :
    addText repetition s (c :: rest) =
      addItem repetition s (next c rest).1 >>= fun s => addText repetition s (next c rest).2 := by
  rw [addText, list, List.foldlM_cons]
  rfl

theorem next_sized {owner : Char} (sized : owner ∈ ['p', 'm', 'b']) (rest : List Char) :
    next owner rest = reading .sized (group owner rest) := by
  simp only [List.mem_cons, List.not_mem_nil, or_false] at sized
  rcases sized with rfl | rfl | rfl <;> rfl

theorem next_material {owner : Char} (material : owner ∈ ['@', '!', '>', '<']) (rest : List Char) :
    next owner rest = reading .material (group owner rest) := by
  simp only [List.mem_cons, List.not_mem_nil, or_false] at material
  rcases material with rfl | rfl | rfl | rfl <;> rfl

theorem next_other {c : Char} (other : c ∉ marked) (rest : List Char) : next c rest = (.other c, rest) := by
  simp only [marked, List.mem_cons, List.not_mem_nil, or_false, not_or] at other
  unfold next
  split <;> simp_all

/-- How a way to add repetitions goes with what may stand behind a star. -/
structure Reads
    (repetition : ColumnPlan → Except ColumnFault (Nat × List Char) → Except ColumnFault ColumnPlan)
    (copies : List Char → List ColumnMark → Prop) : Prop where
  adds : ∀ {text marks}, copies text marks → ∃ content,
    (∀ rest, copiesOf (text ++ rest) = .ok (content, rest)) ∧ ∀ p, repetition p (.ok content) = p.addMarks marks
  found : ∀ {p q cs}, repetition p ((copiesOf cs).map Prod.fst) = .ok q →
    ∃ text rest content marks, copiesOf cs = .ok (content, rest) ∧ cs = text ++ rest ∧ copies text marks

/-- An item adds its marks. -/
theorem addText_item (reads : Reads repetition copies) {first : List Char} {marks : List ColumnMark}
    (item : Item copies first marks) (p : ColumnPlan) (depth : Nat) (rest : List Char) :
    addText repetition (p, depth) (first ++ rest) =
      p.addMarks marks >>= fun p => addText repetition (p, depth) rest := by
  have step (c : Char) (text : List Char) (item : ColumnItem) {rest : List Char} {marks : List ColumnMark}
      (read : next c (text ++ rest) = (item, rest))
      (adds : addItem repetition (p, depth) item = (p.addMarks marks).map fun p => (p, depth)) :
      addText repetition (p, depth) (c :: text ++ rest) =
        p.addMarks marks >>= fun p => addText repetition (p, depth) rest := by
    rw [List.cons_append, addText_cons, read, adds]
    cases p.addMarks marks <;> rfl
  have grouped {owner : Char} {text : List Char} (balanced : Balanced text) :
      group owner (enclose text ++ rest) = .ok (text, rest) :=
    ColumnText.group_eq_ok_iff.mpr ⟨balanced, rfl⟩
  have column (align : Align) : addItem repetition (p, depth) (.column align) =
      (p.addMarks [.column ⟨align, none⟩]).map fun p => (p, depth) := by
    rw [addMarks_singleton]
    rfl
  cases item with
  | border => exact step '|' [] .border rfl rfl
  | left => exact step 'l' [] (.column .left) rfl (column .left)
  | center => exact step 'c' [] (.column .center) rfl (column .center)
  | right => exact step 'r' [] (.column .right) rfl (column .right)
  | @sized owner width length sized balanced read =>
    refine step owner (enclose width) (.sized (.ok width)) ?_ ?_
    · rw [next_sized sized, grouped balanced]
      rfl
    · rw [addMarks_singleton]
      simp only [addItem, Except.bind, addSized, read]
      rfl
  | @material owner text material balanced =>
    refine step owner (enclose text) (.material (.ok text)) ?_ rfl
    rw [next_material material, grouped balanced]
    rfl
  | copies found =>
    obtain ⟨content, read, adds⟩ := reads.adds found
    refine step '*' _ (.copies (.ok content)) ?_ ?_
    · change reading _ (copiesOf _) = _
      rw [read]
      rfl
    · exact congrArg (Except.map fun p => (p, depth)) (adds p)
  | @other c other => exact step c [] (.other c) (next_other other rest) rfl

/-- A sequence of items adds its marks, with braces open around it or not. -/
theorem addText_sequence (reads : Reads repetition copies) {cs : List Char} {marks : List ColumnMark}
    (sequence : Sequence (Item copies) cs marks) (p : ColumnPlan) (depth : Nat) (rest : List Char) :
    addText repetition (p, depth) (cs ++ rest) =
      p.addMarks marks >>= fun p => addText repetition (p, depth) rest := by
  induction sequence generalizing p depth rest with
  | nil => rfl
  | piece item _ ih =>
    rw [List.append_assoc, addText_item reads item, addMarks_append, bind_assoc]
    exact congrArg _ (funext fun p => ih p depth rest)
  | @braces inner after marks more _ _ ihInner ihAfter =>
    have opening (cs : List Char) :
        addText repetition (p, depth) ('\x7b' :: cs) = addText repetition (p, depth + 1) cs := addText_cons ..
    have closing (p : ColumnPlan) (cs : List Char) :
        addText repetition (p, depth + 1) ('\x7d' :: cs) = addText repetition (p, depth) cs := addText_cons ..
    rw [List.append_assoc, ColumnText.enclose_append, opening, ihInner, addMarks_append, bind_assoc]
    refine congrArg _ (funext fun p => ?_)
    rw [closing, ihAfter]

theorem addSized_ok {p q : ColumnPlan} {width : List Char} (added : p.addSized width = .ok q) :
    ∃ length, Length.read? width = some length := by
  unfold addSized at added
  split at added
  · exact ⟨_, ‹_›⟩
  · cases added

/-- An item that is one group adds something only if the group is there. -/
theorem addItem_group {owner : Char} {item : Group → ColumnItem} {cs : List Char} {s s' : ColumnPlan × Nat}
    (faulty : ∀ fault, addItem repetition s (item (.error fault)) ≠ .ok s')
    (added : addItem repetition s (reading item (group owner cs)).1 = .ok s') :
    ∃ text rest, Balanced text ∧ cs = enclose text ++ rest ∧ addItem repetition s (item (.ok text)) = .ok s' ∧
      (reading item (group owner cs)).2 = rest := by
  cases read : group owner cs with
  | error fault =>
    rw [read] at added
    exact absurd added (faulty fault)
  | ok found =>
    obtain ⟨text, rest⟩ := found
    rw [read] at added
    obtain ⟨balanced, rfl⟩ := ColumnText.group_eq_ok_iff.mp read
    exact ⟨text, rest, balanced, rfl, added, rfl⟩

/-- What the first character does when all is well: it opens a brace, closes one, or starts an item. -/
theorem addText_cons_cases (reads : Reads repetition copies) {p : ColumnPlan} {depth : Nat} {c : Char}
    {cs : List Char} {s : ColumnPlan × Nat} (added : addText repetition (p, depth) (c :: cs) = .ok s) :
    (c = '\x7b' ∧ addText repetition (p, depth + 1) cs = .ok s) ∨
    (c = '\x7d' ∧ ∃ fewer, depth = fewer + 1 ∧ addText repetition (p, fewer) cs = .ok s) ∨
    ∃ first rest marks q, cs = first ++ rest ∧ Item copies (c :: first) marks ∧
      addText repetition (q, depth) rest = .ok s := by
  rw [addText_cons] at added
  obtain ⟨s', item, later⟩ := bind_eq_ok_iff.mp added
  by_cases sized : c ∈ ['p', 'm', 'b']
  · rw [next_sized sized] at item later
    obtain ⟨width, rest, balanced, rfl, read, more⟩ := addItem_group (fun _ added => by cases added) item
    obtain ⟨q, grown, rfl⟩ := map_eq_ok_iff.mp read
    obtain ⟨length, measured⟩ := addSized_ok grown
    rw [more] at later
    exact .inr (.inr ⟨enclose width, rest, _, q, rfl, .sized sized balanced measured, later⟩)
  by_cases material : c ∈ ['@', '!', '>', '<']
  · rw [next_material material] at item later
    obtain ⟨text, rest, balanced, rfl, read, more⟩ := addItem_group (fun _ added => by cases added) item
    cases read
    rw [more] at later
    exact .inr (.inr ⟨enclose text, rest, _, p, rfl, .material material balanced, later⟩)
  by_cases other : c ∉ marked
  · rw [next_other other] at item later
    cases item
    exact .inr (.inr ⟨[], cs, [], p, rfl, .other other, later⟩)
  have remaining : c = '|' ∨ c = 'l' ∨ c = 'c' ∨ c = 'r' ∨ c = '*' ∨ c = '\x7b' ∨ c = '\x7d' := by
    simp only [marked, List.mem_cons, List.not_mem_nil, or_false, not_or] at sized material other
    grind
  rcases remaining with rfl | rfl | rfl | rfl | rfl | rfl | rfl
  · cases item
    exact .inr (.inr ⟨[], cs, _, _, rfl, .border, later⟩)
  · obtain ⟨q, grown, rfl⟩ := map_eq_ok_iff.mp item
    exact .inr (.inr ⟨[], cs, _, q, rfl, .left, later⟩)
  · obtain ⟨q, grown, rfl⟩ := map_eq_ok_iff.mp item
    exact .inr (.inr ⟨[], cs, _, q, rfl, .center, later⟩)
  · obtain ⟨q, grown, rfl⟩ := map_eq_ok_iff.mp item
    exact .inr (.inr ⟨[], cs, _, q, rfl, .right, later⟩)
  · have starred : next '*' cs = reading .copies (copiesOf cs) := rfl
    rw [starred] at item later
    have repeated : ∃ q, repetition p ((copiesOf cs).map Prod.fst) = .ok q ∧ s' = (q, depth) := by
      cases read : copiesOf cs with
      | error fault =>
        rw [read] at item
        obtain ⟨q, grown, rfl⟩ := map_eq_ok_iff.mp item
        exact ⟨q, grown, rfl⟩
      | ok found =>
        rw [read] at item
        obtain ⟨q, grown, rfl⟩ := map_eq_ok_iff.mp item
        exact ⟨q, grown, rfl⟩
    obtain ⟨q, grown, rfl⟩ := repeated
    obtain ⟨text, rest, content, marks, read, rfl, copied⟩ := reads.found grown
    rw [read] at later
    exact .inr (.inr ⟨text, rest, marks, q, rfl, .copies copied, later⟩)
  · cases item
    exact .inl ⟨rfl, later⟩
  · cases depth with
    | zero => cases item
    | succ fewer =>
      cases item
      exact .inr (.inl ⟨rfl, fewer, rfl, later⟩)

/-- Text that is added to its end closes every brace that was open before it. -/
theorem closing_of_addText (reads : Reads repetition copies) {p q : ColumnPlan} {depth : Nat} {cs : List Char}
    (added : addText repetition (p, depth) cs = .ok (q, 0)) : ∃ marks, Closing (Item copies) depth cs marks := by
  induction size : cs.length using Nat.strong_induction_on generalizing p depth cs with
  | _ size ih =>
    subst size
    cases cs with
    | nil =>
      rw [addText_nil] at added
      cases added
      exact ⟨[], .last .nil⟩
    | cons c cs =>
      obtain ⟨rfl, later⟩ | ⟨rfl, fewer, rfl, later⟩ | ⟨first, rest, marks, p', rfl, item, later⟩ :=
        addText_cons_cases reads added
      · obtain ⟨marks, closing⟩ := ih _ (Nat.lt_succ_self _) later rfl
        exact ⟨marks, closing.opening⟩
      · obtain ⟨marks, closing⟩ := ih _ (Nat.lt_succ_self _) later rfl
        exact ⟨marks, closing.closing⟩
      · have shorter : rest.length < (c :: (first ++ rest)).length := by
          simp only [List.length_cons, List.length_append]
          omega
        obtain ⟨more, closing⟩ := ih _ shorter later rfl
        exact ⟨marks ++ more, closing.prepend_piece item⟩

/-- The items of a sequence add the marks of the sequence. -/
theorem addAll_sequence (reads : Reads repetition copies) {cs : List Char} {marks : List ColumnMark}
    (sequence : Sequence (Item copies) cs marks) (p : ColumnPlan) :
    p.addAll repetition (list cs) = p.addMarks marks := by
  have added := addText_sequence reads sequence p 0 []
  simp only [List.append_nil, addText_nil] at added
  change addText repetition (p, 0) cs >>= _ = _
  rw [added, bind_assoc]
  cases p.addMarks marks <;> rfl

/-- All items of a text are added exactly when it is a sequence and there is room for its columns. -/
theorem addAll_eq_ok_iff (reads : Reads repetition copies) {p q : ColumnPlan} {cs : List Char} :
    p.addAll repetition (list cs) = .ok q ↔
      ∃ marks, Sequence (Item copies) cs marks ∧ p.addMarks marks = .ok q := by
  constructor
  · intro added
    obtain ⟨⟨p', depth⟩, read, closed⟩ := bind_eq_ok_iff.mp added
    cases depth with
    | succ depth => cases closed
    | zero =>
      obtain ⟨marks, closing⟩ := closing_of_addText reads read
      exact ⟨marks, closing.sequence, (addAll_sequence reads closing.sequence p).symm.trans added⟩
  · rintro ⟨marks, sequence, added⟩
    rw [addAll_sequence reads sequence, added]

end

theorem reads_refuseCopies : Reads refuseCopies NoCopies where
  adds := nofun
  found := nofun

/-- Copies of a sequence add its marks as often. -/
theorem addTimes_sequence {inner : List Char} {once : List ColumnMark}
    (sequence : Sequence (Item NoCopies) inner once) (n : Nat) (p : ColumnPlan) :
    addTimes (list inner) n p = p.addMarks (List.replicate n once).flatten := by
  induction n generalizing p with
  | zero => rfl
  | succ n ih =>
    rw [addTimes, addAll_sequence reads_refuseCopies sequence, List.replicate_succ, List.flatten_cons,
      addMarks_append]
    exact congrArg _ (funext ih)

/-- Outside of repetitions, a repetition adds the marks of its copies. -/
theorem reads_addCopies : Reads addCopies Copies where
  adds := by
    rintro _ _ (@⟨count, inner, n, once, balanced, unsigned, small, balancedInner, sequence⟩)
    refine ⟨(n, inner), fun rest => ?_, fun p => ?_⟩
    · rw [List.append_assoc, ColumnText.copiesOf_eq_ok_iff]
      exact ⟨count, balanced, ColumnText.readCount_eq_ok_iff.mpr ⟨unsigned, small⟩, balancedInner, rfl⟩
    · cases n with
      | zero => rfl
      | succ n => exact addTimes_sequence (sequence (Nat.succ_pos n)) (n + 1) p
  found := by
    intro p q cs added
    cases read : copiesOf cs with
    | error fault =>
      rw [read] at added
      cases added
    | ok found =>
      obtain ⟨⟨n, inner⟩, rest⟩ := found
      rw [read] at added
      obtain ⟨count, balanced, number, balancedInner, rfl⟩ := ColumnText.copiesOf_eq_ok_iff.mp read
      obtain ⟨unsigned, small⟩ := ColumnText.readCount_eq_ok_iff.mp number
      have repeated : ∃ once, 0 < n → Sequence (Item NoCopies) inner once := by
        cases n with
        | zero => exact ⟨[], fun positive => absurd positive (Nat.lt_irrefl 0)⟩
        | succ n =>
          change addTimes (list inner) (n + 1) p = .ok q at added
          obtain ⟨p', first, _⟩ := bind_eq_ok_iff.mp added
          obtain ⟨once, sequence, _⟩ := (addAll_eq_ok_iff reads_refuseCopies).mp first
          exact ⟨once, fun _ => sequence⟩
      obtain ⟨once, sequence⟩ := repeated
      exact ⟨_, rest, _, _, rfl, (List.append_assoc ..).symm,
        .intro balanced unsigned small balancedInner sequence⟩

/-- The plan that marks make. -/
structure BuiltFrom (marks : List ColumnMark) (p : ColumnPlan) : Prop where
  columns : p.columns = ColumnMark.columns marks
  /-- the lines are a set -/
  ordered : p.borders.Pairwise (· < ·)
  drawn : ∀ k, k ∈ p.borders ↔ Draws marks k

theorem BuiltFrom.concat_border {marks : List ColumnMark} {p : ColumnPlan} (built : BuiltFrom marks p) :
    BuiltFrom (marks ++ [.border]) p.addBorder where
  columns := by simp [addBorder, built.columns]
  ordered := Ascending.pairwise_insert Nat.lt_trichotomy Nat.lt_trans built.ordered
  drawn k := by
    rw [draws_concat, addBorder, Ascending.mem_insert Nat.lt_trichotomy, built.drawn, built.columns, or_comm]
    simp [eq_comm]

theorem BuiltFrom.concat_column {marks : List ColumnMark} {p : ColumnPlan} (built : BuiltFrom marks p)
    (spec : ColumnSpec) : BuiltFrom (marks ++ [.column spec]) { p with columns := p.columns ++ [spec] } where
  columns := by simp [built.columns]
  ordered := built.ordered
  drawn k := by
    rw [draws_concat]
    simpa using built.drawn k

/-- Marks are added from the start as long as there is room for their columns. -/
theorem addMarks_empty (marks : List ColumnMark) :
    (∃ p, empty.addMarks marks = .ok p ∧ BuiltFrom marks p ∧ (ColumnMark.columns marks).length ≤ maxColumns) ∨
      (∃ fault, empty.addMarks marks = .error fault) ∧ maxColumns < (ColumnMark.columns marks).length := by
  induction marks using List.reverseRecOn with
  | nil => exact .inl ⟨empty, rfl, ⟨rfl, .nil, fun k => by simp [empty, Draws]⟩, Nat.zero_le _⟩
  | append_singleton marks mark ih =>
    rw [addMarks_append, ColumnMark.columns_append, List.length_append]
    rcases ih with ⟨p, added, built, room⟩ | ⟨⟨fault, added⟩, full⟩
    · have last : empty.addMarks marks >>= (fun p => p.addMarks [mark]) = p.addMark mark := by
        rw [added]
        exact addMarks_singleton p mark
      rw [last]
      cases mark with
      | border => exact .inl ⟨p.addBorder, rfl, built.concat_border, room⟩
      | column spec =>
        rw [ColumnMark.columns_column, List.length_singleton]
        by_cases full : maxColumns ≤ p.columns.length
        · refine .inr ⟨⟨_, if_pos full⟩, ?_⟩
          rw [built.columns] at full
          omega
        · refine .inl ⟨_, if_neg full, built.concat_column spec, ?_⟩
          rw [built.columns] at full
          omega
    · exact .inr ⟨⟨fault, by rw [added]; rfl⟩, Nat.lt_add_right _ full⟩

/-- The text of a specification. -/
def text (spec : String) : List Char := spec.toList.filter fun c => !Text.isBlank c

/-- A specification is read exactly when its text is a sequence with room for its columns. Then it has the
columns that the text writes, with every repetition written out, and a line at each border. -/
theorem read_sequence (spec : String) :
    ((∃ plan, read spec = .ok plan) ↔ ∃ marks, Sequence (Item Copies) (text spec) marks ∧
        (ColumnMark.columns marks).length ≤ maxColumns) ∧
      ∀ plan marks, read spec = .ok plan → Sequence (Item Copies) (text spec) marks → BuiltFrom marks plan := by
  have reads {marks : List ColumnMark} (sequence : Sequence (Item Copies) (text spec) marks) :
      read spec = empty.addMarks marks := addAll_sequence reads_addCopies sequence empty
  refine ⟨⟨?_, ?_⟩, ?_⟩
  · rintro ⟨plan, found⟩
    obtain ⟨marks, sequence, added⟩ := (addAll_eq_ok_iff reads_addCopies).mp found
    refine ⟨marks, sequence, ?_⟩
    rcases addMarks_empty marks with ⟨_, _, _, room⟩ | ⟨⟨fault, refused⟩, _⟩
    · exact room
    · rw [added] at refused
      cases refused
  · rintro ⟨marks, sequence, room⟩
    rw [reads sequence]
    rcases addMarks_empty marks with ⟨plan, added, _⟩ | ⟨_, full⟩
    · exact ⟨plan, added⟩
    · omega
  · intro plan marks found sequence
    rw [reads sequence] at found
    rcases addMarks_empty marks with ⟨_, added, built, _⟩ | ⟨⟨fault, refused⟩, _⟩
    · rw [added] at found
      cases found
      exact built
    · rw [refused] at found
      cases found

end Unveil.ColumnPlan
