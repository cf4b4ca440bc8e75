import Unveil.Proofs.Nested.Places

namespace Unveil.Node

mutual

/-- The places of a tree: its root, then those below its children from left to right. -/
def places : Node → List (List Nat)
  | ⟨_, _, _, _, children⟩ => [] :: placesFrom 0 children

/-- The places of some siblings of which the first is the child `i`. -/
def placesFrom : Nat → List Node → List (List Nat)
  | _, [] => []
  | i, n :: rest => (places n).map (i :: ·) ++ placesFrom (i + 1) rest

end

/-- A place comes before those below it, and what is below a child before what is below the next ones. -/
def Precedes (p q : List Nat) : Prop := List.Lex (· < ·) p q

/-- Nodes visited in document order: one for every place of the tree, in the order of the places. -/
def DocumentOrder (root : Node) (visited : List Node) : Prop :=
  ∃ places : List (List Nat), places.Pairwise Precedes ∧
    (∀ place, place ∈ places ↔ (root.subtreeAt? place).isSome) ∧
    places.map root.subtreeAt? = visited.map some

/-- The node at the first place of the tree whose node has a property. -/
def IsFirst (root : Node) (p : Node → Prop) (n : Node) : Prop :=
  ∃ place, root.subtreeAt? place = some n ∧ p n ∧
    ∀ before m, Precedes before place → root.subtreeAt? before = some m → ¬p m

theorem Precedes.asymm {p q : List Nat} (before : Precedes p q) : ¬Precedes q p :=
  List.lex_asymm (fun {_ _} => Nat.lt_asymm) before

theorem head_of_mem_placesFrom {place : List Nat} {i : Nat} {ns : List Node} (inside : place ∈ placesFrom i ns) :
    ∃ j rest, place = j :: rest ∧ i ≤ j := by
  induction ns generalizing i with
  | nil => cases inside
  | cons n more ih =>
    rcases List.mem_append.mp inside with first | later
    · obtain ⟨rest, _, rfl⟩ := List.mem_map.mp first
      exact ⟨i, rest, rfl, Nat.le_refl i⟩
    · obtain ⟨j, rest, rfl, above⟩ := ih later
      exact ⟨j, rest, rfl, Nat.le_of_succ_le above⟩

mutual

/-- The places of a tree are listed in document order. -/
theorem places_ordered : ∀ n : Node, n.places.Pairwise Precedes
  | ⟨kind, overlay, params, payload, children⟩ => by
    refine List.pairwise_cons.mpr ⟨fun place inside => ?_, placesFrom_ordered 0 children⟩
    obtain ⟨j, rest, rfl, _⟩ := head_of_mem_placesFrom inside
    exact .nil

theorem placesFrom_ordered : ∀ (i : Nat) (ns : List Node), (placesFrom i ns).Pairwise Precedes
  | _, [] => .nil
  | i, n :: rest => by
    refine List.pairwise_append.mpr ⟨?_, placesFrom_ordered (i + 1) rest, ?_⟩
    · exact List.pairwise_map.mpr ((places_ordered n).imp .cons)
    · intro p first q later
      obtain ⟨_, _, rfl⟩ := List.mem_map.mp first
      obtain ⟨j, _, rfl, above⟩ := head_of_mem_placesFrom later
      exact .rel above

end

mutual

/-- The places have the nodes of the preorder. -/
theorem map_places : ∀ n : Node, n.places.map n.subtreeAt? = n.preorder.map some
  | ⟨kind, overlay, params, payload, children⟩ => by
    rw [preorder_eq_cons, List.map_cons, places, List.map_cons]
    exact congrArg _ (map_placesFrom children _ 0 rfl)

/-- Each place below some siblings has its node. -/
theorem map_placesFrom : ∀ (ns : List Node) (root : Node) (i : Nat), root.children.drop i = ns →
    (placesFrom i ns).map root.subtreeAt? = (preorderAll ns).map some
  | [], _, _, _ => rfl
  | n :: rest, root, i, siblings => by
    have atI : root.children[i]? = some n := by rw [← List.head?_drop, siblings]; rfl
    have later : root.children.drop (i + 1) = rest := by rw [← List.tail_drop, siblings]; rfl
    have below : (n.places.map (i :: ·)).map root.subtreeAt? = n.places.map n.subtreeAt? := by
      rw [List.map_map]
      refine List.map_congr_left fun place _ => ?_
      rw [Function.comp_apply, subtreeAt?, atI, Option.bind_some]
    rw [placesFrom, List.map_append, below, map_places n, map_placesFrom rest root (i + 1) later,
      preorderAll_cons, List.map_append]

end

theorem mem_placesFrom {ns : List Node} {n : Node} {place : List Nat} {i k : Nat} (atK : ns[k]? = some n)
    (inside : place ∈ n.places) : (i + k) :: place ∈ placesFrom i ns := by
  induction ns generalizing i k with
  | nil => cases atK
  | cons first rest ih =>
    cases k with
    | zero =>
      obtain rfl := Option.some.inj atK
      exact List.mem_append_left _ (List.mem_map_of_mem inside)
    | succ k =>
      have later : (i + 1 + k) :: place ∈ placesFrom (i + 1) rest := ih atK
      rw [Nat.add_assoc, Nat.add_comm 1 k] at later
      exact List.mem_append_right _ later

theorem places_eq (n : Node) : n.places = [] :: placesFrom 0 n.children := by
  cases n
  rfl

/-- The places are those that lead to a node. -/
theorem mem_places_iff {root : Node} {place : List Nat} :
    place ∈ root.places ↔ (root.subtreeAt? place).isSome := by
  constructor
  · intro inside
    have found : root.subtreeAt? place ∈ root.preorder.map some := map_places root ▸ List.mem_map_of_mem inside
    obtain ⟨n, _, same⟩ := List.mem_map.mp found
    exact Option.isSome_iff_exists.mpr ⟨n, same.symm⟩
  · induction place generalizing root with
    | nil => exact fun _ => places_eq root ▸ List.mem_cons_self
    | cons i rest ih =>
      intro found
      obtain ⟨n, below⟩ := Option.isSome_iff_exists.mp found
      obtain ⟨child, atI, below⟩ := Option.bind_eq_some_iff.mp below
      rw [places_eq, ← Nat.zero_add i]
      exact .tail _ (mem_placesFrom atI (ih (Option.isSome_iff_exists.mpr ⟨n, below⟩)))

/-- The preorder of a tree has the node of every place once, in document order. -/
theorem preorder_documentOrder (root : Node) : root.DocumentOrder root.preorder :=
  ⟨root.places, places_ordered root, fun _ => mem_places_iff, map_places root⟩

namespace DocumentOrder

variable {root n : Node} {visited : List Node}

theorem mem_iff (order : root.DocumentOrder visited) : n ∈ visited ↔ ∃ place, root.subtreeAt? place = some n := by
  obtain ⟨places, _, complete, same⟩ := order
  have found : n ∈ visited ↔ some n ∈ places.map root.subtreeAt? := by simp [same]
  rw [found, List.mem_map]
  constructor
  · rintro ⟨place, _, atPlace⟩
    exact ⟨place, atPlace⟩
  · rintro ⟨place, atPlace⟩
    exact ⟨place, (complete place).mpr (Option.isSome_iff_exists.mpr ⟨n, atPlace⟩), atPlace⟩

/-- The places before one of them are those that precede it. -/
theorem mem_before_iff {before after : List (List Nat)} {place q : List Nat}
    (ordered : (before ++ place :: after).Pairwise Precedes)
    (complete : ∀ p, p ∈ before ++ place :: after ↔ (root.subtreeAt? p).isSome) :
    q ∈ before ↔ Precedes q place ∧ (root.subtreeAt? q).isSome := by
  obtain ⟨_, later, across⟩ := List.pairwise_append.mp ordered
  constructor
  · intro inside
    exact ⟨across q inside place List.mem_cons_self, (complete q).mp (List.mem_append_left _ inside)⟩
  · rintro ⟨precedes, found⟩
    rcases List.mem_append.mp ((complete q).mpr found) with inside | rest
    · exact inside
    · rcases List.mem_cons.mp rest with rfl | behind
      · exact absurd precedes precedes.asymm
      · exact absurd precedes ((List.pairwise_cons.mp later).1 q behind).asymm

/-- The first of the visited nodes that passes a test stands at the first place whose node passes it. -/
theorem find?_eq_some_iff (order : root.DocumentOrder visited) {p : Node → Bool} :
    visited.find? p = some n ↔ root.IsFirst (p · = true) n := by
  obtain ⟨places, ordered, complete, same⟩ := order
  rw [List.find?_eq_some_iff_append]
  constructor
  · rintro ⟨passes, first, last, rfl, fail⟩
    rw [List.map_append, List.map_cons] at same
    obtain ⟨before, rest, rfl, firsts, others⟩ := List.map_eq_append_iff.mp same
    obtain ⟨place, after, rfl, atPlace, _⟩ := List.map_eq_cons_iff.mp others
    refine ⟨place, atPlace, passes, fun q m precedes atQ passesToo => ?_⟩
    have inside := (mem_before_iff ordered complete).mpr ⟨precedes, Option.isSome_iff_exists.mpr ⟨m, atQ⟩⟩
    have among : some m ∈ first.map some := firsts ▸ atQ ▸ List.mem_map_of_mem inside
    have fails := fail m (by simpa using among)
    rw [passesToo] at fails
    cases fails
  · rintro ⟨place, atPlace, passes, unpassed⟩
    obtain ⟨before, after, rfl⟩ := List.append_of_mem ((complete place).mpr (Option.isSome_iff_exists.mpr ⟨n, atPlace⟩))
    rw [List.map_append, List.map_cons, atPlace] at same
    obtain ⟨first, rest, rfl, firsts, others⟩ := List.map_eq_append_iff.mp same.symm
    obtain ⟨m, last, rfl, atM, _⟩ := List.map_eq_cons_iff.mp others
    obtain rfl := Option.some.inj atM
    refine ⟨passes, first, last, rfl, fun m inFirst => ?_⟩
    have among : some m ∈ before.map root.subtreeAt? := firsts ▸ List.mem_map_of_mem inFirst
    obtain ⟨q, inside, atQ⟩ := List.mem_map.mp among
    have fails := unpassed q m ((mem_before_iff ordered complete).mp inside).1 atQ
    simpa using fails

/-- A search finds nothing if no node of the tree passes. -/
theorem find?_eq_none_iff (order : root.DocumentOrder visited) {p : Node → Bool} :
    visited.find? p = none ↔ ∀ place n, root.subtreeAt? place = some n → p n = false := by
  simp only [List.find?_eq_none, Bool.not_eq_true]
  constructor
  · exact fun fail place n atPlace => fail n (order.mem_iff.mpr ⟨place, atPlace⟩)
  · intro fail n inside
    obtain ⟨place, atPlace⟩ := order.mem_iff.mp inside
    exact fail place n atPlace

end DocumentOrder

end Unveil.Node
