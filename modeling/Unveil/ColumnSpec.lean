import Unveil.Error
import Unveil.Grid
import Unveil.Length

namespace Unveil

structure ColumnSpec where
  align : Align
  /-- a given width -/
  width : Option Length
  deriving Repr, BEq

/-- What a column specification such as `l|c|p{3cm}` stands for: the columns of a table and the vertical lines
between them. -/
structure ColumnPlan where
  columns : List ColumnSpec
  /-- `i` is the line left of column `i` -/
  borders : List Nat
  deriving Repr, BEq

/-- The text of a group, or why there is none. -/
abbrev Group := Except ColumnFault (List Char)

inductive ColumnItem where
  | border
  | column (align : Align)
  /-- a column of given width, with the text of the width -/
  | sized (width : Group)
  /-- a count and the text that is repeated -/
  | copies (content : Except ColumnFault (Nat × List Char))
  /-- material between columns, which is dropped -/
  | material (text : Group)
  | opening
  | closing
  /-- any other character; it has no effect -/
  | other (c : Char)

namespace ColumnItem

def maxColumns : Nat := 256

/-- The text up to the brace that closes the group, and what follows; `depth` groups are open inside. -/
def closeGroup : Nat → List Char → Option (List Char × List Char)
  | _, [] => none
  | depth, c :: rest =>
    if c = '\x7d' then
      match depth with
      | 0 => some ([], rest)
      | depth + 1 => (closeGroup depth rest).map fun (text, rest) => (c :: text, rest)
    else
      (closeGroup (if c = '\x7b' then depth + 1 else depth) rest).map fun (text, rest) =>
        (c :: text, rest)

/-- The group after `owner`, and what follows. -/
def group (owner : Char) : List Char → Except ColumnFault (List Char × List Char)
  | '\x7b' :: rest =>
    match closeGroup 0 rest with
    | some found => .ok found
    | none => .error (.openGroup owner)
  | _ => .error (.missingGroup owner)

/-- The count of copies, which has an upper limit. -/
def readCount (text : List Char) : Except ColumnFault Nat :=
  match Numeral.count? text with
  | none => .error (.badCount (String.ofList text))
  | some n => if maxColumns < n then .error (.countTooLarge n maxColumns) else .ok n

/-- The two groups of a repetition. -/
def copiesOf (rest : List Char) : Except ColumnFault ((Nat × List Char) × List Char) := do
  let (text, rest) ← group '*' rest
  let count ← readCount text
  let (inner, rest) ← group '*' rest
  return ((count, inner), rest)

/-- An item that reads on after its first character. Nothing is read after a fault. -/
def reading {α : Type} (item : Except ColumnFault α → ColumnItem) :
    Except ColumnFault (α × List Char) → ColumnItem × List Char
  | .ok (a, rest) => (item (.ok a), rest)
  | .error fault => (item (.error fault), [])

/-- The item that starts with a character, and what follows it. -/
def next (c : Char) (rest : List Char) : ColumnItem × List Char :=
  match c with
  | '|' => (border, rest)
  | 'l' => (column .left, rest)
  | 'c' => (column .center, rest)
  | 'r' => (column .right, rest)
  | 'p' | 'm' | 'b' => reading sized (group c rest)
  | '*' => reading copies (copiesOf rest)
  | '@' | '!' | '>' | '<' => reading material (group c rest)
  | '\x7b' => (opening, rest)
  | '\x7d' => (closing, rest)
  | _ => (other c, rest)

theorem length_closeGroup {depth : Nat} {cs text rest : List Char}
    (h : closeGroup depth cs = some (text, rest)) : rest.length < cs.length := by
  induction cs generalizing depth text with
  | nil => simp [closeGroup] at h
  | cons c cs ih =>
    unfold closeGroup at h
    split at h
    · split at h
      · cases h; simp
      · obtain ⟨⟨text', rest'⟩, found, same⟩ := Option.map_eq_some_iff.mp h
        cases same
        exact Nat.lt_succ_of_lt (ih found)
    · obtain ⟨⟨text', rest'⟩, found, same⟩ := Option.map_eq_some_iff.mp h
      cases same
      exact Nat.lt_succ_of_lt (ih found)

theorem length_group {owner : Char} {cs text rest : List Char}
    (h : group owner cs = .ok (text, rest)) : rest.length < cs.length := by
  unfold group at h
  split at h
  · split at h
    · rename_i found
      cases h
      exact Nat.lt_succ_of_lt (length_closeGroup found)
    · cases h
  · cases h

theorem length_copiesOf {cs rest : List Char} {content : Nat × List Char}
    (h : copiesOf cs = .ok (content, rest)) : rest.length < cs.length := by
  unfold copiesOf at h
  cases first : group '*' cs with
  | error fault => simp [first, bind, Except.bind] at h
  | ok found =>
    obtain ⟨text, after⟩ := found
    cases count : readCount text with
    | error fault => simp [first, count, bind, Except.bind] at h
    | ok n =>
      cases second : group '*' after with
      | error fault => simp [first, count, second, bind, Except.bind] at h
      | ok found =>
        obtain ⟨inner, final⟩ := found
        simp [first, count, second, bind, Except.bind, pure, Except.pure] at h
        obtain ⟨_, rfl⟩ := h
        exact Nat.lt_trans (length_group second) (length_group first)

theorem length_reading {α : Type} {item : Except ColumnFault α → ColumnItem} {cs : List Char}
    {found : Except ColumnFault (α × List Char)}
    (h : ∀ a rest, found = .ok (a, rest) → rest.length < cs.length) :
    (reading item found).2.length ≤ cs.length := by
  cases found with
  | error fault => simp [reading]
  | ok found => exact Nat.le_of_lt (h found.1 found.2 rfl)

/-- What follows an item is no longer than what follows its first character, so that a text is cut into items to
its end. -/
theorem length_next (c : Char) (rest : List Char) : (next c rest).2.length ≤ rest.length := by
  unfold next
  split
  all_goals first
    | exact Nat.le_refl _
    | exact length_reading fun _ _ h => length_group h
    | exact length_reading fun _ _ h => length_copiesOf h

/-- The items of a text. They add their columns and borders later, in order. -/
def list : List Char → List ColumnItem
  | [] => []
  | c :: rest =>
    let found := next c rest
    found.1 :: list found.2
termination_by cs => cs.length
decreasing_by exact Nat.lt_succ_of_le (length_next c rest)

end ColumnItem

namespace ColumnPlan

def empty : ColumnPlan := ⟨[], []⟩

instance : Inhabited ColumnPlan := ⟨empty⟩

/-- A line after the columns so far. -/
def addBorder (p : ColumnPlan) : ColumnPlan :=
  { p with borders := Ascending.insert p.columns.length p.borders }

/-- One more column, if there may be one. -/
def addColumn (p : ColumnPlan) (align : Align) (width : Option Length) : Except ColumnFault ColumnPlan :=
  if ColumnItem.maxColumns ≤ p.columns.length then .error (.tooManyColumns ColumnItem.maxColumns)
  else .ok { p with columns := p.columns ++ [⟨align, width⟩] }

/-- A column whose width is written in a group. -/
def addSized (p : ColumnPlan) (width : List Char) : Except ColumnFault ColumnPlan :=
  match Length.read? width with
  | some length => p.addColumn .left (some length)
  | none => .error (.badWidth (String.ofList width))

/-- Adds an item with `depth` braces open around it. What is repeated is added by `repetition`. -/
def addItem (repetition : ColumnPlan → Except ColumnFault (Nat × List Char) → Except ColumnFault ColumnPlan)
    (s : ColumnPlan × Nat) (item : ColumnItem) : Except ColumnFault (ColumnPlan × Nat) :=
  let (p, depth) := s
  match item with
  | .border => .ok (p.addBorder, depth)
  | .column align => (p.addColumn align none).map fun p => (p, depth)
  | .sized width => (width.bind p.addSized).map fun p => (p, depth)
  | .copies content => (repetition p content).map fun p => (p, depth)
  | .material text => text.map fun _ => (p, depth)
  | .opening => .ok (p, depth + 1)
  | .closing =>
    match depth with
    | 0 => .error .unbalancedClose
    | depth + 1 => .ok (p, depth)
  | .other _ => .ok (p, depth)

/-- Adds items, between which every brace has to be closed. -/
def addAll (repetition : ColumnPlan → Except ColumnFault (Nat × List Char) → Except ColumnFault ColumnPlan)
    (p : ColumnPlan) (items : List ColumnItem) : Except ColumnFault ColumnPlan := do
  let (p, depth) ← items.foldlM (addItem repetition) (p, 0)
  if 0 < depth then .error .unbalancedOpen else .ok p

/-- A repetition has no place inside a repetition, whatever follows it. -/
def refuseCopies (_ : ColumnPlan) (_ : Except ColumnFault (Nat × List Char)) :
    Except ColumnFault ColumnPlan := .error .nestedRepeat

/-- Adds the same items `count` times. -/
def addTimes (items : List ColumnItem) : Nat → ColumnPlan → Except ColumnFault ColumnPlan
  | 0, p => .ok p
  | count + 1, p => (p.addAll refuseCopies items).bind (addTimes items count)

/-- Adds the copies of a repetition; the text of no copies is not looked at. -/
def addCopies (p : ColumnPlan) (content : Except ColumnFault (Nat × List Char)) :
    Except ColumnFault ColumnPlan :=
  content.bind fun (count, inner) => addTimes (ColumnItem.list inner) count p

/-- Reads a specification. Blanks have no meaning in it. -/
def read (spec : String) : Except ColumnFault ColumnPlan :=
  empty.addAll addCopies (ColumnItem.list (spec.toList.filter fun c => !Text.isBlank c))

/-- Reads the specification of one cell: its first column and the lines beside it. -/
def readCell (spec : String) : Except ColumnFault (ColumnSpec × CellBorders) := do
  let plan ← read spec
  match plan.columns with
  | [] => .error (.noCellColumn spec)
  | column :: _ => .ok (column, ⟨some (plan.borders.contains 0), some (plan.borders.contains 1)⟩)

end ColumnPlan

end Unveil
