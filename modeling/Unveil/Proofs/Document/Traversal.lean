import Unveil.Proofs.Document.Order
import Unveil.Record

namespace Unveil

namespace Node

mutual

/-- The number of nodes of a tree. -/
def size : Node → Nat
  | ⟨_, _, _, _, children⟩ => sizeAll children + 1

def sizeAll : List Node → Nat
  | [] => 0
  | n :: rest => size n + sizeAll rest

end

mutual

/-- The text of a node, then the texts below it. -/
def spelled : Node → String
  | ⟨kind, overlay, params, payload, children⟩ =>
    ownText ⟨kind, overlay, params, payload, children⟩ ++ spelledAll children

def spelledAll : List Node → String
  | [] => ""
  | n :: rest => spelled n ++ spelledAll rest

end

theorem size_eq (n : Node) : n.size = sizeAll n.children + 1 := by
  rcases n with ⟨_, _, _, _, _⟩
  rfl

theorem sizeAll_append (ns more : List Node) : sizeAll (ns ++ more) = sizeAll ns + sizeAll more := by
  induction ns with
  | nil => exact (Nat.zero_add _).symm
  | cons n rest ih => simp only [List.cons_append, sizeAll, ih, Nat.add_assoc]

theorem sizeAll_reverse (ns : List Node) : sizeAll ns.reverse = sizeAll ns := by
  induction ns with
  | nil => rfl
  | cons n rest ih =>
    rw [List.reverse_cons, sizeAll_append, ih]
    exact Nat.add_comm _ _

theorem preorderAll_append (ns more : List Node) :
    preorderAll (ns ++ more) = preorderAll ns ++ preorderAll more := by
  induction ns with
  | nil => rfl
  | cons n rest ih => rw [List.cons_append, preorderAll_cons, preorderAll_cons, ih, List.append_assoc]

mutual

/-- Every node of a tree is visited once. -/
theorem length_preorder : ∀ n : Node, n.preorder.length = n.size
  | ⟨kind, overlay, params, payload, children⟩ => by
    rw [preorder_eq_cons, List.length_cons, length_preorderAll children, size]

theorem length_preorderAll : ∀ ns : List Node, (preorderAll ns).length = sizeAll ns
  | [] => rfl
  | n :: rest => by
    rw [preorderAll_cons, List.length_append, length_preorder n, length_preorderAll rest, sizeAll]

end

mutual

/-- The texts of the nodes, one after the other, are the text of the tree. -/
theorem join_preorder : ∀ n : Node, String.join (n.preorder.map ownText) = n.spelled
  | ⟨kind, overlay, params, payload, children⟩ => by
    rw [preorder_eq_cons, List.map_cons, String.join_cons, join_preorderAll children, spelled]

theorem join_preorderAll : ∀ ns : List Node, String.join ((preorderAll ns).map ownText) = spelledAll ns
  | [] => rfl
  | n :: rest => by
    rw [preorderAll_cons, List.map_append, String.join_append, join_preorder n, join_preorderAll rest, spelledAll]

end

end Node

/-- A traversal under way: the nodes that are still to be visited, of which the last is the next. When a node is
visited, its children are put there. -/
structure Traversal where
  pending : List Node

namespace Traversal

def ofNode (root : Node) : Traversal := ⟨[root]⟩

/-- Takes the next node off the stack and puts its children there, the first of them on top. -/
def next? (t : Traversal) : Option (Node × Traversal) :=
  t.pending.getLast?.map fun n => (n, ⟨t.pending.dropLast ++ n.children.reverse⟩)

/-- The nodes ahead of a traversal, in the order in which it comes to them. -/
def ahead (t : Traversal) : List Node := Node.preorderAll t.pending.reverse

variable {t rest : Traversal} {n : Node}

theorem next?_eq_some_iff :
    t.next? = some (n, rest) ↔ ∃ stack, t.pending = stack ++ [n] ∧ rest = ⟨stack ++ n.children.reverse⟩ := by
  simp only [next?, Option.map_eq_some_iff, Prod.mk.injEq, List.getLast?_eq_some_iff]
  constructor
  · rintro ⟨_, ⟨stack, pending⟩, rfl, rfl⟩
    exact ⟨stack, pending, by rw [pending, List.dropLast_concat]⟩
  · rintro ⟨stack, pending, rfl⟩
    exact ⟨n, ⟨stack, pending⟩, rfl, by rw [pending, List.dropLast_concat]⟩

/-- A visit leaves fewer nodes ahead, so a traversal comes to its end. -/
theorem size_lt (next : t.next? = some (n, rest)) : Node.sizeAll rest.pending < Node.sizeAll t.pending := by
  obtain ⟨stack, pending, rfl⟩ := next?_eq_some_iff.mp next
  rw [pending, Node.sizeAll_append, Node.sizeAll_append, Node.sizeAll_reverse, Node.sizeAll, Node.sizeAll,
    Node.size_eq]
  omega

/-- Visits the nodes one after the other until none is left. -/
def fold {β : Type} (visit : β → Node → β) (start : β) (t : Traversal) : β :=
  match _next : t.next? with
  | none => start
  | some (n, rest) => rest.fold visit (visit start n)
termination_by Node.sizeAll t.pending
decreasing_by exact size_lt _next

/-- Visits the nodes one after the other up to the first that passes a test. -/
def find? (test : Node → Bool) (t : Traversal) : Option Node :=
  match _next : t.next? with
  | none => none
  | some (n, rest) => if test n then some n else rest.find? test
termination_by Node.sizeAll t.pending
decreasing_by exact size_lt _next

theorem ahead_ofNode (root : Node) : (ofNode root).ahead = root.preorder := by
  rw [ahead, ofNode, List.reverse_singleton, Node.preorderAll_cons, Node.preorderAll_nil, List.append_nil]

theorem ahead_of_none (finished : t.next? = none) : t.ahead = [] := by
  rw [next?, Option.map_eq_none_iff, List.getLast?_eq_none_iff] at finished
  rw [ahead, finished]
  rfl

/-- The stack stands for the same nodes when the next one is visited: it comes first, then its children
with all that is below them. -/
theorem ahead_of_next (next : t.next? = some (n, rest)) : t.ahead = n :: rest.ahead := by
  obtain ⟨stack, pending, rfl⟩ := next?_eq_some_iff.mp next
  have after : n.children.reverse.reverse ++ stack.reverse = n.children ++ stack.reverse := by
    rw [List.reverse_reverse]
  rw [ahead, ahead, pending, List.reverse_append, List.reverse_append, after, List.reverse_singleton,
    List.singleton_append, Node.preorderAll_cons, Node.preorder_eq_cons, List.cons_append, Node.preorderAll_append]

/-- Folding over a traversal goes over the tree in preorder. -/
theorem fold_eq {β : Type} (visit : β → Node → β) (start : β) (t : Traversal) :
    t.fold visit start = t.ahead.foldl visit start := by
  fun_induction fold visit start t with
  | case1 start t finished => rw [ahead_of_none finished, List.foldl_nil]
  | case2 start t n rest next ih => rw [ahead_of_next next, List.foldl_cons, ih]

/-- Searching a traversal goes over the tree in preorder. -/
theorem find?_eq (test : Node → Bool) (t : Traversal) : t.find? test = t.ahead.find? test := by
  fun_induction find? test t with
  | case1 t finished => rw [ahead_of_none finished, List.find?_nil]
  | case2 t n rest next passes => rw [ahead_of_next next, List.find?_cons_of_pos passes]
  | case3 t n rest next fails ih => rw [ahead_of_next next, List.find?_cons_of_neg fails, ih]

end Traversal

namespace Document

variable {d : Document} {p : Part} {n : Node}

/-- A part of a document is its first node of that kind. -/
theorem part_eq_ok_iff : d.part p = .ok n ↔ d.root.IsFirst (·.kind = .part p) n := by
  have first := d.root.preorder_documentOrder.find?_eq_some_iff (n := n) (p := (·.kind = .part p))
  simp only [decide_eq_true_eq] at first
  rw [← first, part, first?, nodes]
  cases d.root.preorder.find? (·.kind = .part p) with
  | none => exact iff_of_false nofun nofun
  | some m => simp

/-- A part is missing if no node of the tree is of that kind. -/
theorem part_eq_error_iff {error : DeckError} :
    d.part p = .error error ↔ error = .missingNode (NodeKind.part p).tag ∧
      ∀ place n, d.root.subtreeAt? place = some n → n.kind ≠ .part p := by
  have absent := d.root.preorder_documentOrder.find?_eq_none_iff (p := (·.kind = .part p))
  simp only [decide_eq_false_iff_not] at absent
  simp only [ne_eq, ← absent, part, first?, nodes]
  cases d.root.preorder.find? (·.kind = .part p) with
  | none => simp [eq_comm]
  | some m => simp

/-- A traversal of a document visits the node of every place once, in document order. So its nodes are as many
as the tree has, the texts of a tree are strung together in document order, and a search gives the first node
in that order which passes its test, as the preamble and the body are found. -/
theorem traversal_inDocumentOrder (d : Document) :
    d.root.DocumentOrder ((Traversal.ofNode d.root).fold (fun seen n => seen ++ [n]) []) ∧
    (Traversal.ofNode d.root).fold (fun seen n => seen ++ [n]) [] = d.nodes ∧
    (Traversal.ofNode d.root).fold (fun count _ => count + 1) 0 = d.root.size ∧
    (∀ n, (Traversal.ofNode n).fold (fun text m => text ++ m.ownText) "" = n.textContent ∧
      n.textContent = n.spelled) ∧
    (∀ test n, (Traversal.ofNode d.root).find? test = some n ↔ d.root.IsFirst (test · = true) n) ∧
    (∀ test, (Traversal.ofNode d.root).find? test = none ↔
      ∀ place n, d.root.subtreeAt? place = some n → test n = false) ∧
    (∀ kind, (Traversal.ofNode d.root).find? (·.kind = kind) = d.first? kind) ∧
    (∀ n, d.preamble = .ok n ↔ d.root.IsFirst (·.kind = .part .preamble) n) ∧
    (∀ n, d.body = .ok n ↔ d.root.IsFirst (·.kind = .part .body) n) ∧
    (∀ error, d.preamble = .error error ↔ error = .missingNode "preambule" ∧
      ∀ place n, d.root.subtreeAt? place = some n → n.kind ≠ .part .preamble) ∧
    ∀ error, d.body = .error error ↔ error = .missingNode "body" ∧
      ∀ place n, d.root.subtreeAt? place = some n → n.kind ≠ .part .body := by
  have visited : (Traversal.ofNode d.root).fold (fun seen n => seen ++ [n]) [] = d.root.preorder := by
    rw [Traversal.fold_eq, Traversal.ahead_ofNode, List.foldl_append_eq_append, List.nil_append,
      ← List.flatMap_def, List.flatMap_singleton']
  have order := d.root.preorder_documentOrder
  refine ⟨visited ▸ order, visited, ?_, fun n => ⟨?_, n.join_preorder⟩, fun test n => ?_, fun test => ?_,
    fun kind => ?_, fun n => part_eq_ok_iff, fun n => part_eq_ok_iff, fun error => part_eq_error_iff,
    fun error => part_eq_error_iff⟩
  · rw [Traversal.fold_eq, Traversal.ahead_ofNode, List.foldl_add_const, ← Node.length_preorder]
    omega
  · rw [Traversal.fold_eq, Traversal.ahead_ofNode, Node.textContent, String.join, List.foldl_map]
  · rw [Traversal.find?_eq, Traversal.ahead_ofNode, order.find?_eq_some_iff]
  · rw [Traversal.find?_eq, Traversal.ahead_ofNode, order.find?_eq_none_iff]
  · rw [Traversal.find?_eq, Traversal.ahead_ofNode, first?, nodes]

end Document

end Unveil
