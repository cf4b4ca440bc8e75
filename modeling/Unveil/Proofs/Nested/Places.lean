import Unveil.Proofs.Nested.Walks

namespace Unveil

namespace Node

/-- The node at a place below a node. -/
def subtreeAt? (n : Node) : List Nat → Option Node
  | [] => some n
  | i :: rest => n.children[i]?.bind fun child => child.subtreeAt? rest

theorem subtreeAt?_concat (n : Node) (place : List Nat) (i : Nat) :
    n.subtreeAt? (place ++ [i]) = (n.subtreeAt? place).bind fun m => m.children[i]? := by
  induction place generalizing n with
  | nil => simp [subtreeAt?]
  | cons j rest ih =>
    simp only [List.cons_append, subtreeAt?, Option.bind_assoc]
    congr
    funext child
    exact ih child

theorem height_le_heightAll {nodes : List Node} {i : Nat} {child : Node} (atI : nodes[i]? = some child) :
    child.height ≤ heightAll nodes := by
  induction nodes generalizing i with
  | nil => cases atI
  | cons n rest ih =>
    cases i with
    | zero =>
      obtain rfl := Option.some.inj atI
      exact Nat.le_max_left _ _
    | succ i => exact Nat.le_trans (ih atI) (Nat.le_max_right _ _)

theorem height_eq (n : Node) : n.height = heightAll n.children + 1 := by
  obtain ⟨_, _, _, _, _⟩ := n
  rfl

/-- No place lies as deep as the tree is high. -/
theorem length_lt_height {n m : Node} {place : List Nat} (found : n.subtreeAt? place = some m) :
    place.length < n.height := by
  induction place generalizing n with
  | nil =>
    rw [height_eq]
    exact Nat.succ_pos _
  | cons i rest ih =>
    obtain ⟨child, atI, below⟩ := Option.bind_eq_some_iff.mp found
    have deeper := ih below
    have higher := height_le_heightAll atI
    rw [height_eq, List.length_cons]
    omega

/-- Some siblings are the children of a place from the child `i` on. -/
def ChildrenFrom (root : Node) (place : List Nat) (i : Nat) (nodes : List Node) : Prop :=
  ∀ k n, nodes[k]? = some n → root.subtreeAt? (place ++ [i + k]) = some n

theorem childrenFrom_zero {root n : Node} {place : List Nat} (here : root.subtreeAt? place = some n) :
    root.ChildrenFrom place 0 n.children := by
  intro k child atK
  rw [subtreeAt?_concat, here, Nat.zero_add]
  exact atK

theorem ChildrenFrom.head {root n : Node} {place : List Nat} {i : Nat} {rest : List Node}
    (children : root.ChildrenFrom place i (n :: rest)) : root.subtreeAt? (place ++ [i]) = some n :=
  children 0 n rfl

theorem ChildrenFrom.tail {root n : Node} {place : List Nat} {i : Nat} {rest : List Node}
    (children : root.ChildrenFrom place i (n :: rest)) : root.ChildrenFrom place (i + 1) rest := by
  intro k m atK
  rw [Nat.add_right_comm]
  exact children (k + 1) m atK

end Node

namespace Nested

/-- Neither of two places lies at or below the other. -/
def Apart (p q : List Nat) : Prop := ¬p <+: q ∧ ¬q <+: p

theorem Apart.below {p q p' q' : List Nat} (apart : Apart p q) (left : p <+: p') (right : q <+: q') :
    Apart p' q' := by
  constructor
  · intro inside
    rcases List.prefix_or_prefix_of_prefix (left.trans inside) right with above | above
    · exact apart.1 above
    · exact apart.2 above
  · intro inside
    rcases List.prefix_or_prefix_of_prefix left (right.trans inside) with above | above
    · exact apart.1 above
    · exact apart.2 above

/-- What lies below two children is apart. -/
theorem apart_children (place : List Nat) {i j : Nat} (other : i ≠ j) : Apart (place ++ [i]) (place ++ [j]) := by
  constructor <;> intro above <;> simp_all [List.prefix_append_right_inj]

/-- The places below a place, through its children from the child `i` on. -/
def BelowFrom (place : List Nat) (i : Nat) (p : List Nat) : Prop := ∃ j, i ≤ j ∧ place ++ [j] <+: p

theorem BelowFrom.proper {place p : List Nat} {i : Nat} (below : BelowFrom place i p) :
    place <+: p ∧ place.length < p.length := by
  obtain ⟨j, _, above⟩ := below
  have length := above.length_le
  rw [List.length_append, List.length_singleton] at length
  exact ⟨(List.prefix_append place [j]).trans above, length⟩

/-- Blocks of a tree at places of a region, none of which lies in another: a node that is put off is not
walked. -/
structure Scattered (root : Node) (region : List Nat → Prop) (bs : List Nested) : Prop where
  found : ∀ b ∈ bs, root.subtreeAt? b.place = some b.block.node
  isBlock : ∀ b ∈ bs, b.block.node.kind.isBlock
  inside : ∀ b ∈ bs, region b.place
  apart : bs.Pairwise fun b c => Apart b.place c.place

namespace Scattered

variable {root : Node} {region other whole : List Nat → Prop} {bs cs : List Nested}

theorem nil (root : Node) (region : List Nat → Prop) : Scattered root region [] := ⟨nofun, nofun, nofun, .nil⟩

theorem mono (scattered : Scattered root region bs) (larger : ∀ p, region p → whole p) :
    Scattered root whole bs :=
  { scattered with inside := fun b inBs => larger _ (scattered.inside b inBs) }

theorem sublist (scattered : Scattered root region bs) (fewer : cs.Sublist bs) : Scattered root region cs where
  found b inCs := scattered.found b (fewer.subset inCs)
  isBlock b inCs := scattered.isBlock b (fewer.subset inCs)
  inside b inCs := scattered.inside b (fewer.subset inCs)
  apart := scattered.apart.sublist fewer

theorem append (left : Scattered root region bs) (right : Scattered root other cs)
    (away : ∀ p q, region p → other q → Apart p q) :
    Scattered root (fun p => region p ∨ other p) (bs ++ cs) where
  found := List.forall_mem_append.mpr ⟨left.found, right.found⟩
  isBlock := List.forall_mem_append.mpr ⟨left.isBlock, right.isBlock⟩
  inside := List.forall_mem_append.mpr
    ⟨fun b inBs => .inl (left.inside b inBs), fun c inCs => .inr (right.inside c inCs)⟩
  apart := List.pairwise_append.mpr
    ⟨left.apart, right.apart, fun b inBs c inCs => away _ _ (left.inside b inBs) (right.inside c inCs)⟩

/-- A block that lies at or above another is at its place. -/
theorem eq_of_prefix (scattered : Scattered root region bs) {b d : Nested} (inB : b ∈ bs) (inD : d ∈ bs)
    (above : b.place <+: d.place) : b.place = d.place := by
  obtain ⟨i, iBound, rfl⟩ := List.mem_iff_getElem.mp inB
  obtain ⟨k, kBound, rfl⟩ := List.mem_iff_getElem.mp inD
  have apart := List.pairwise_iff_getElem.mp scattered.apart
  rcases Nat.lt_trichotomy i k with before | rfl | after
  · exact absurd above (apart i k iBound kBound before).1
  · rfl
  · exact absurd above (apart k i kBound iBound after).2

/-- No place comes up twice. -/
theorem nodup (scattered : Scattered root region bs) : (bs.map Nested.place).Nodup := by
  refine List.pairwise_map.mpr (scattered.apart.imp fun apart same => apart.1 ?_)
  exact same ▸ List.prefix_refl _

/-- The first of some siblings, and the others. -/
theorem cons {place : List Nat} {i : Nat} (first : Scattered root (place ++ [i] <+: ·) bs)
    (others : Scattered root (BelowFrom place (i + 1)) cs) : Scattered root (BelowFrom place i) (bs ++ cs) := by
  refine (first.append others ?_).mono ?_
  · rintro p q inFirst ⟨j, later, inOther⟩
    exact (apart_children place (by omega)).below inFirst inOther
  · rintro p (inFirst | ⟨j, later, inOther⟩)
    · exact ⟨i, Nat.le_refl i, inFirst⟩
    · exact ⟨j, by omega, inOther⟩

/-- What lies below blocks none of which lies in another. -/
theorem flatMap {f : Nested → List Nested} (scattered : Scattered root region bs)
    (below : ∀ b ∈ bs, Scattered root (BelowFrom b.place 0) (f b)) :
    Scattered root (fun p => ∃ b ∈ bs, BelowFrom b.place 0 p) (bs.flatMap f) := by
  induction bs with
  | nil => exact nil root _
  | cons b rest ih =>
    obtain ⟨here, later⟩ := List.forall_mem_cons.mp below
    have others := ih (scattered.sublist (List.sublist_cons_self b rest)) later
    rw [List.flatMap_cons]
    refine (here.append others ?_).mono ?_
    · rintro p q inHere ⟨c, inRest, inOther⟩
      have apart := (List.pairwise_cons.mp scattered.apart).1 c inRest
      exact apart.below inHere.proper.1 inOther.proper.1
    · rintro p (inHere | ⟨c, inRest, inOther⟩)
      · exact ⟨b, .head rest, inHere⟩
      · exact ⟨c, .tail b inRest, inOther⟩

/-- What is put off is a block of the tree. -/
theorem putOff {place : List Nat} {n : Node} (here : root.subtreeAt? place = some n) (isBlock : n.kind.isBlock)
    (mode : Mode) : Scattered root (place <+: ·) (Mark.blocks (Mark.putOff place n mode)) := by
  unfold Mark.putOff
  split
  · exact ⟨List.forall_mem_singleton.mpr here, List.forall_mem_singleton.mpr isBlock,
      List.forall_mem_singleton.mpr (List.prefix_refl place), List.pairwise_singleton _ _⟩
  · exact nil root _

end Scattered

end Nested

open Nested

variable {root : Node}

mutual

/-- The blocks of a text lie below its nodes. -/
theorem Inline.marks_scattered (rules : InlineRules) (pass : Nat) {place : List Nat} (mode : Mode) :
    ∀ n : Node, root.subtreeAt? place = some n →
      Scattered root (place <+: ·) (Mark.blocks (marks rules pass place mode n))
  | ⟨kind, overlay, params, payload, children⟩ => fun here => by
    have below (inner : Mode) :
        Scattered root (place <+: ·) (Mark.blocks (marksAll rules pass place 0 inner children)) :=
      (Inline.marksAll_scattered rules pass inner children (Node.childrenFrom_zero here)).mono fun _ inside =>
        inside.proper.1
    cases kind with
    | text | paragraph | tableRow | tableColumn | titleField | graphicsPath | path | heading | frameTitle
    | frameSubtitle | hline | cline | pause => exact .nil root _
    | style => exact below mode
    | veil | multiColumn | item =>
      rw [marks, Mark.blocks_gate_append]
      exact below _
    | list kind =>
      simp only [marks]
      split
      · exact .putOff here rfl mode
      · rw [Mark.blocks_gate_append]
        exact below _
    | tabular =>
      simp only [marks]
      split
      · exact .putOff here rfl mode
      · rw [Mark.blocks_gate_append]
        exact below _
    | image | titlePage =>
      simp only [marks]
      split
      · exact .putOff here rfl mode
      · exact .nil root _
    | part | unrecognized => exact below mode

theorem Inline.marksAll_scattered (rules : InlineRules) (pass : Nat) {place : List Nat} {i : Nat} (mode : Mode) :
    ∀ nodes : List Node, root.ChildrenFrom place i nodes →
      Scattered root (BelowFrom place i) (Mark.blocks (marksAll rules pass place i mode nodes))
  | [] => fun _ => .nil root _
  | n :: rest => fun children => by
    rw [marksAll, Mark.blocks_append]
    exact (Inline.marks_scattered rules pass mode n children.head).cons
      (Inline.marksAll_scattered rules pass mode rest children.tail)

end

theorem TableWalk.marksAll_scattered (rules : InlineRules) (pass : Nat) {place : List Nat} {i : Nat} (mode : Mode)
    {nodes : List Node} (children : root.ChildrenFrom place i nodes) :
    Scattered root (BelowFrom place i) (Mark.blocks (marksAll rules pass place i mode nodes)) := by
  induction nodes generalizing i with
  | nil => exact .nil root _
  | cons n rest ih =>
    rw [marksAll, Mark.blocks_append]
    refine .cons ?_ (ih children.tail)
    split
    · exact .nil root _
    · exact Inline.marks_scattered rules pass mode n children.head

theorem DescriptionWalk.marksAll_scattered (rules : InlineRules) (pass : Nat) {place : List Nat} {i : Nat}
    (mode : Mode) {nodes : List Node} (children : root.ChildrenFrom place i nodes) :
    Scattered root (BelowFrom place i) (Mark.blocks (marksAll rules pass place i mode nodes)) := by
  induction nodes generalizing i with
  | nil => exact .nil root _
  | cons n rest ih =>
    rw [marksAll, Mark.blocks_append]
    refine .cons ?_ (ih children.tail)
    split
    · rw [Mark.blocks_gate_append]
      refine (Inline.marksAll_scattered rules pass _ n.children (Node.childrenFrom_zero children.head)).mono ?_
      exact fun _ inside => inside.proper.1
    · exact .nil root _
    · exact .nil root _

/-- What a block puts off lies properly below it. -/
theorem Node.blockMarks_scattered (policy : NestedPolicy) (pass : Nat) {place : List Nat} (mode : Mode) {n : Node}
    (here : root.subtreeAt? place = some n) :
    Scattered root (BelowFrom place 0) (Mark.blocks (n.blockMarks policy pass place mode)) := by
  unfold blockMarks
  split
  · rw [Mark.blocks_gate_append]
    exact DescriptionWalk.marksAll_scattered _ pass _ (childrenFrom_zero here)
  · rw [Mark.blocks_gate_append]
    exact Inline.marksAll_scattered _ pass _ n.children (childrenFrom_zero here)
  · rw [Mark.blocks_gate_append]
    exact TableWalk.marksAll_scattered _ pass _ (childrenFrom_zero here)
  · rw [Mark.blocks_gate]
    exact .nil root _
  · exact .nil root _

theorem Mark.blocks_ofAsks (asks : List Ask) : blocks (ofAsks asks) = [] := by
  induction asks with
  | nil => rfl
  | cons ask rest ih => cases ask <;> exact ih

mutual

theorem Content.marks_scattered (policy : NestedPolicy) (pass : Nat) (p : TitlePage) {place : List Nat} (mode : Mode) :
    ∀ n : Node, root.subtreeAt? place = some n →
      Scattered root (place <+: ·) (Mark.blocks (marks policy pass p place mode n))
  | ⟨kind, overlay, params, payload, children⟩ => fun here => by
    have below (inner : Mode) :
        Scattered root (place <+: ·) (Mark.blocks (marksAll policy pass p place 0 inner children)) :=
      (Content.marksAll_scattered policy pass p inner children (Node.childrenFrom_zero here)).mono fun _ inside =>
        inside.proper.1
    cases kind with
    | style | multiColumn | part | unrecognized => exact below mode
    | veil | item =>
      rw [marks, Mark.blocks_gate_append]
      exact below _
    | list | tabular | image =>
      exact (Node.blockMarks_scattered policy pass mode here).mono fun _ inside => inside.proper.1
    | titlePage =>
      rw [marks, Mark.blocks_gate_append, Mark.blocks_ofAsks]
      exact .nil root _
    | pause | text | paragraph | titleField | tableColumn | tableRow | hline | cline | frameTitle | frameSubtitle
    | heading | graphicsPath | path => exact .nil root _

/-- The blocks of the content of a slide lie below its nodes. -/
theorem Content.marksAll_scattered (policy : NestedPolicy) (pass : Nat) (p : TitlePage) {place : List Nat} {i : Nat}
    (mode : Mode) :
    ∀ nodes : List Node, root.ChildrenFrom place i nodes →
      Scattered root (BelowFrom place i) (Mark.blocks (marksAll policy pass p place i mode nodes))
  | [] => fun _ => .nil root _
  | n :: rest => fun children => by
    rw [marksAll, Mark.blocks_append]
    exact (Content.marks_scattered policy pass p mode n children.head).cons
      (Content.marksAll_scattered policy pass (Walk.titled p n) mode rest children.tail)

end

end Unveil
