import Unveil.Ascending
import Unveil.Numeral.Read
import Unveil.Text.Blank

namespace Unveil

/-- An item of an overlay specification: `2`, `3-5` or `4-`. -/
inductive OverlayItem where
  /-- `n` alone, or `-n` -/
  | single (n : Nat)
  /-- `n-`: from pass `n` on -/
  | onward (n : Nat)
  /-- `a-b` with `a ≤ b` -/
  | span (a b : Nat)
  /-- `a-b` with `b < a`: every pass after `a` -/
  | after (a : Nat)
  deriving Repr, DecidableEq

namespace OverlayItem

/-- Longest span whose ends may differ. -/
def maxSpan : Nat := 1024

/-- A number above zero, without the blanks around it. -/
def positive? (cs : List Char) : Option Nat :=
  ((Numeral.int32? (Text.trim cs)).filter (0 < ·)).map Int.toNat

/-- Two ends in ascending order make a span, in descending order only the first end counts. -/
def between? (a b : Nat) : Option OverlayItem :=
  if b < a then some (.after a)
  else if maxSpan < b - a then none
  else some (.span a b)

/-- Reads a nonempty item without blanks at its ends; `none` when it is malformed. -/
def read? (item : List Char) : Option OverlayItem :=
  if '-' ∉ item then (Numeral.int32? item).map fun n => .single n.toNat
  else if item.head? = some '-' then (positive? item.tail).map .single
  else if item.getLast? = some '-' then (positive? item.dropLast).map .onward
  else
    match Text.entries '-' item with
    | [a, b] =>
      match Numeral.int32? a, Numeral.int32? b with
      | some a, some b => between? a.toNat b.toNat
      | _, _ => none
    | _ => none

def members : OverlayItem → List Int
  | .single n => [(n : Int)]
  | .onward n => [(n : Int), -(n : Int)]
  | .span a b => (List.range (b + 1 - a)).map fun i => ((a + i : Nat) : Int)
  | .after a => [-(a : Int)]

end OverlayItem

/-- The passes of a slide that a specification allows, as a set of numbers in which a negative number `-n`
stands for every pass after `n`. The empty set allows every pass. -/
structure OverlaySet where
  members : List Int
  deriving Repr, DecidableEq

namespace OverlaySet

def empty : OverlaySet := ⟨[]⟩

instance : Inhabited OverlaySet := ⟨empty⟩

def insert (set : OverlaySet) (v : Int) : OverlaySet := ⟨Ascending.insert v set.members⟩

def ofList (vs : List Int) : OverlaySet := vs.foldl insert empty

def contains (set : OverlaySet) (v : Int) : Bool := set.members.contains v

def isEmpty (set : OverlaySet) : Bool := set.members.isEmpty

def size (set : OverlaySet) : Nat := set.members.length

/-- The items of a specification that are well formed, in order. -/
def items (spec : List Char) : List OverlayItem :=
  (Text.entries ',' spec).filterMap OverlayItem.read?

/-- Reads a specification; malformed items are dropped. -/
def read (spec : List Char) : OverlaySet := ofList ((items spec).flatMap OverlayItem.members)

/-- A pass is allowed by the empty set, by its own number, and by `-m` when it comes after `m`. Past
32 bits no number can be meant, so only the open markers count there. -/
def visible (set : OverlaySet) (pass : Nat) : Bool :=
  set.isEmpty ||
    if Numeral.bound32 ≤ pass then set.members.any (· < 0)
    else set.contains pass || set.members.any fun v => v < 0 && -v < pass

/-- The largest number that the set mentions, at least 1. -/
def maxBound (set : OverlaySet) : Nat := set.members.foldl (fun m v => max m v.natAbs) 1

end OverlaySet

/-- A specification as written, together with the set that it reads as. -/
structure Overlay where
  spec : String
  set : OverlaySet
  set_eq : set = OverlaySet.read spec.toList

namespace Overlay

def ofSpec (spec : String) : Overlay := ⟨spec, OverlaySet.read spec.toList, rfl⟩

def none : Overlay := ofSpec ""

instance : Inhabited Overlay := ⟨none⟩

/-- Overlays are compared as they are written: `1-` and `1-,2` differ. -/
instance : BEq Overlay := ⟨fun a b => a.spec == b.spec⟩

/-- `true` when the content is visible on every pass. -/
def isUnrestricted (o : Overlay) : Bool := o.set.isEmpty

def visible (o : Overlay) (pass : Nat) : Bool := o.set.visible pass

def maxBound (o : Overlay) : Nat := o.set.maxBound

end Overlay

end Unveil
