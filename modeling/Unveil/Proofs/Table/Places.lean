import Unveil.Proofs.Nested.Walks
import Unveil.Proofs.Reveal.Grid

namespace Unveil

namespace TableWalk

/-- The cells over which a child of a table stands. -/
structure Place where
  row : Nat
  /-- the first of its columns, in which it is written -/
  col : Nat
  span : Nat
  deriving Repr, DecidableEq

def Place.merge (p : Place) : Merge := ⟨p.row, p.col, p.span⟩

/-- Where children stand of which the first is met in a row and a column. All that comes behind the last column
stands in it; a pause writes nothing and stands nowhere. What is merged and what is written in a grid is told by
these places. -/
def places (lastCol : Nat) : Nat → Nat → List Node → List Place
  | _, _, [] => []
  | row, col, n :: rest =>
    match n.kind with
    | .tableColumn => places lastCol row (col + 1) rest
    | .tableRow => places lastCol (row + 1) 0 rest
    | .hline | .cline | .pause => places lastCol row col rest
    | .multiColumn =>
      let span := min (max n.columnSpan 1) (lastCol - min col lastCol + 1)
      ⟨row, min col lastCol, span⟩ :: places lastCol row (col + (span - 1)) rest
    | _ => ⟨row, min col lastCol, 1⟩ :: places lastCol row col rest

theorem places_cell {lastCol row col : Nat} {n : Node} (noRuling : n.kind.isRuling = false)
    (noSpan : n.kind ≠ .multiColumn) (noPause : n.kind ≠ .pause) (rest : List Node) :
    places lastCol row col (n :: rest) = ⟨row, min col lastCol, 1⟩ :: places lastCol row col rest := by
  rw [places]
  cases kind : n.kind <;> simp_all [NodeKind.isRuling]

/-- A place behind another one. It may stand on the last cell of that one. -/
def Place.Follows (later first : Place) : Prop :=
  first.row < later.row ∨ first.row = later.row ∧ first.col + first.span ≤ later.col + 1

theorem places_behind {lastCol row col : Nat} {nodes : List Node} :
    ∀ p ∈ places lastCol row col nodes, 1 ≤ p.span ∧ (row < p.row ∨ row = p.row ∧ min col lastCol ≤ p.col) := by
  induction nodes generalizing row col with
  | nil => exact nofun
  | cons n rest ih =>
    have later {row' col' : Nat} (behind : row < row' ∨ row = row' ∧ col ≤ col') :
        ∀ p ∈ places lastCol row' col' rest, 1 ≤ p.span ∧ (row < p.row ∨ row = p.row ∧ min col lastCol ≤ p.col) := by
      intro p inRest
      obtain ⟨positive, place⟩ := ih p inRest
      exact ⟨positive, by omega⟩
    have here : row < row ∨ row = row ∧ min col lastCol ≤ min col lastCol := .inr ⟨rfl, Nat.le_refl _⟩
    have span : 1 ≤ min (max n.columnSpan 1) (lastCol - min col lastCol + 1) := by omega
    rw [places]
    split
    · exact later (.inr ⟨rfl, Nat.le_succ col⟩)
    · exact later (.inl (Nat.lt_succ_self row))
    · exact later (.inr ⟨rfl, Nat.le_refl col⟩)
    · exact later (.inr ⟨rfl, Nat.le_refl col⟩)
    · exact later (.inr ⟨rfl, Nat.le_refl col⟩)
    · exact List.forall_mem_cons.mpr ⟨⟨span, here⟩, later (.inr ⟨rfl, Nat.le_add_right col _⟩)⟩
    · exact List.forall_mem_cons.mpr ⟨⟨Nat.le_refl 1, here⟩, later (.inr ⟨rfl, Nat.le_refl col⟩)⟩

/-- Columns are counted on, so the children stand from left to right. -/
theorem places_ordered {lastCol row col : Nat} {nodes : List Node} :
    (places lastCol row col nodes).Pairwise fun first later => later.Follows first := by
  induction nodes generalizing row col with
  | nil => exact .nil
  | cons n rest ih =>
    rw [places]
    split
    case _ => exact ih
    case _ => exact ih
    case _ => exact ih
    case _ => exact ih
    case _ => exact ih
    case _ =>
      refine .cons (fun later inRest => ?_) ih
      obtain ⟨_, behind⟩ := places_behind later inRest
      simp only [Place.Follows]
      omega
    case _ =>
      refine .cons (fun later inRest => ?_) ih
      obtain ⟨_, behind⟩ := places_behind later inRest
      simp only [Place.Follows]
      omega

/-- A place behind a merged one in its row shares at most so many cells with it. -/
def Place.SharesAtMost (shared : Nat) (first later : Place) : Prop :=
  first.row = later.row → 1 < first.span → first.col + first.span ≤ later.col + shared

instance (shared : Nat) (first later : Place) : Decidable (first.SharesAtMost shared later) :=
  inferInstanceAs (Decidable (_ → _))

/-- Children that follow each other share at most one cell, the last one of the first. -/
theorem Place.Follows.sharesAtMost_one {later first : Place} (follows : later.Follows first) :
    first.SharesAtMost 1 later := by
  intro inRow _
  rcases follows with below | ⟨_, behind⟩
  · exact absurd inRow (Nat.ne_of_lt below)
  · exact behind

/-- Between places that follow each other, sharing does not depend on which of them is met first. -/
theorem sharesAtMost_of_ordered {shared : Nat} {ps : List Place} (positive : ∀ p ∈ ps, 1 ≤ p.span)
    (ordered : ps.Pairwise fun first later => later.Follows first) (share : ps.Pairwise (Place.SharesAtMost shared)) :
    ∀ p ∈ ps, ∀ q ∈ ps, p.col < q.col → p.SharesAtMost shared q := by
  have rightwards : ps.Pairwise fun p q => p.col < q.col → p.SharesAtMost shared q :=
    share.imp fun {p q} here (_ : p.col < q.col) => here
  refine rightwards.forall_of_forall_of_flip (fun p _ less => absurd less (Nat.lt_irrefl _)) ?_
  refine ordered.imp_of_mem fun {p q} inP _ behind left inRow _ => ?_
  have span := positive p inP
  rcases behind with below | ⟨_, behind⟩ <;> omega

end TableWalk

/-- The children of a table stand apart: none of them is written in cells over which an earlier one is merged. -/
def Node.StandsApart (n : Node) (lastCol : Nat) : Prop :=
  (TableWalk.places lastCol 0 0 n.children).Pairwise (TableWalk.Place.SharesAtMost 0)

instance (n : Node) (lastCol : Nat) : Decidable (n.StandsApart lastCol) :=
  inferInstanceAs (Decidable (List.Pairwise _ _))

end Unveil
