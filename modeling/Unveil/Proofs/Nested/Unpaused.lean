import Unveil.Proofs.Nested.Rounds

namespace Unveil

/-- `true` for a block that a text puts off. -/
def InlineRules.putsOff (rules : InlineRules) : NodeKind → Bool
  | .list kind => rules.defers kind
  | .tabular | .image | .titlePage => rules.policy = .defer
  | _ => false

/-- What a node stands in. It decides how the node is walked, and is handed down from the slide to its nodes; in a
block that is put off no pause counts. -/
inductive Surroundings where
  /-- among slides; what is in them depends on the policy for blocks in texts -/
  | deck (policy : NestedPolicy)
  | content (policy : NestedPolicy)
  | text (rules : InlineRules)
  /-- a block that is put off, or anything in it -/
  | putOff
  deriving DecidableEq

/-- What the children of a node stand in, if they are walked at all. -/
def Surroundings.inside : Surroundings → NodeKind → Option Surroundings
  | deck policy, _ => some (content policy)
  | content policy, kind =>
    match kind with
    | .list .description | .tabular => some (text ⟨policy, false⟩)
    | .list _ => some (text ⟨policy, true⟩)
    | .style _ | .veil _ | .item | .multiColumn | .part _ | .unrecognized _ => some (content policy)
    | _ => none
  | text rules, kind => some (if rules.putsOff kind then putOff else text rules)
  | putOff, _ => some putOff

namespace Node

mutual

/-- The tree without the pauses in blocks that are put off. -/
def unpaused (q : Surroundings) : Node → Node
  | ⟨kind, overlay, params, payload, children⟩ =>
    match q.inside kind with
    | some r => ⟨kind, overlay, params, payload, unpausedAll r children⟩
    | none => ⟨kind, overlay, params, payload, children⟩

def unpausedAll (q : Surroundings) : List Node → List Node
  | [] => []
  | n :: rest =>
    if q = .putOff ∧ n.kind = .pause then unpausedAll q rest else unpaused q n :: unpausedAll q rest

end

mutual

/-- The tree without the nodes at some places below its root. -/
def without (drop : List Nat → Bool) : Node → Node
  | ⟨kind, overlay, params, payload, children⟩ => ⟨kind, overlay, params, payload, withoutAll drop 0 children⟩

/-- Siblings, the first of which is the child `i`, without the nodes at some places. -/
def withoutAll (drop : List Nat → Bool) (i : Nat) : List Node → List Node
  | [] => []
  | n :: rest =>
    (if drop [i] then [] else [without (fun below => drop (i :: below)) n]) ++ withoutAll drop (i + 1) rest

end

/-- What the node at a place stands in. -/
def standsIn? (q : Surroundings) (n : Node) : List Nat → Option Surroundings
  | [] => some q
  | i :: rest => (q.inside n.kind).bind fun r => n.children[i]?.bind fun child => child.standsIn? r rest

section

variable (q : Surroundings) (n : Node)

@[simp]
theorem unpaused_kind : (n.unpaused q).kind = n.kind := by
  obtain ⟨kind, _, _, _, _⟩ := n
  unfold unpaused
  cases q.inside kind <;> rfl

@[simp]
theorem unpaused_overlay : (n.unpaused q).overlay = n.overlay := by
  obtain ⟨kind, _, _, _, _⟩ := n
  unfold unpaused
  cases q.inside kind <;> rfl

@[simp]
theorem unpaused_params : (n.unpaused q).params = n.params := by
  obtain ⟨kind, _, _, _, _⟩ := n
  unfold unpaused
  cases q.inside kind <;> rfl

@[simp]
theorem unpaused_payload : (n.unpaused q).payload = n.payload := by
  obtain ⟨kind, _, _, _, _⟩ := n
  unfold unpaused
  cases q.inside kind <;> rfl

@[simp]
theorem unpaused_content? : (n.unpaused q).content? = n.content? := by
  rw [content?, unpaused_payload, content?]

end

theorem unpaused_children {q r : Surroundings} {n : Node} (inside : q.inside n.kind = some r) :
    (n.unpaused q).children = unpausedAll r n.children := by
  obtain ⟨kind, _, _, _, _⟩ := n
  unfold unpaused
  rw [inside]

theorem unpaused_mk {q r : Surroundings} {kind : NodeKind} (inside : q.inside kind = some r) (overlay : Overlay)
    (params : String) (payload : Option Payload) (children : List Node) :
    unpaused q ⟨kind, overlay, params, payload, children⟩ =
      ⟨kind, overlay, params, payload, unpausedAll r children⟩ := by
  rw [unpaused, inside]

/-- A node whose children are not walked stays as it is. -/
theorem unpaused_eq_self {q : Surroundings} {n : Node} (inside : q.inside n.kind = none) : n.unpaused q = n := by
  obtain ⟨kind, overlay, params, payload, children⟩ := n
  rw [unpaused, show q.inside kind = none from inside]

/-- A tree is the same in all surroundings of which its children do not tell the difference. -/
theorem unpaused_congr {q r : Surroundings} {n : Node} (same : q.inside n.kind = r.inside n.kind) :
    n.unpaused q = n.unpaused r := by
  obtain ⟨kind, overlay, params, payload, children⟩ := n
  rw [unpaused, unpaused, show q.inside kind = r.inside kind from same]

theorem unpausedAll_pause {n : Node} (kind : n.kind = .pause) (rest : List Node) :
    unpausedAll .putOff (n :: rest) = unpausedAll .putOff rest := by
  rw [unpausedAll, if_pos ⟨rfl, kind⟩]

theorem unpausedAll_kept {q : Surroundings} {n : Node} (kept : ¬(q = .putOff ∧ n.kind = .pause))
    (rest : List Node) : unpausedAll q (n :: rest) = n.unpaused q :: unpausedAll q rest := by
  rw [unpausedAll, if_neg kept]

/-- Nothing is left out among nodes of the slide. -/
theorem unpausedAll_content (policy : NestedPolicy) (n : Node) (rest : List Node) :
    unpausedAll (.content policy) (n :: rest) = n.unpaused (.content policy) :: unpausedAll (.content policy) rest := by
  refine unpausedAll_kept (fun left => ?_) rest
  cases left.1

/-- Only pauses are left out. -/
theorem unpausedAll_filter (q : Surroundings) {kind : NodeKind} (other : kind ≠ .pause) (nodes : List Node) :
    ((unpausedAll q nodes).filter (·.kind = kind)).length = (nodes.filter (·.kind = kind)).length := by
  induction nodes with
  | nil => rfl
  | cons n rest ih =>
    by_cases left : q = .putOff ∧ n.kind = .pause
    · obtain ⟨rfl, isPause⟩ := left
      have no : ¬n.kind = kind := fun same => other (same.symm.trans isPause)
      rw [unpausedAll_pause isPause, ih, List.filter_cons_of_neg (by simpa using no)]
    · rw [unpausedAll_kept left]
      by_cases here : n.kind = kind
      · rw [List.filter_cons_of_pos (by simpa using here), List.filter_cons_of_pos (by simpa using here),
          List.length_cons, List.length_cons, ih]
      · rw [List.filter_cons_of_neg (by simpa using here), List.filter_cons_of_neg (by simpa using here), ih]

@[simp]
theorem without_kind (drop : List Nat → Bool) (n : Node) : (n.without drop).kind = n.kind := by
  obtain ⟨_, _, _, _, _⟩ := n
  rfl

mutual

/-- Nothing is left out where no place is named. -/
theorem without_eq_self (drop : List Nat → Bool) :
    ∀ n : Node, (∀ i rest, drop (i :: rest) = false) → n.without drop = n
  | ⟨kind, overlay, params, payload, children⟩ => fun kept => by
    rw [without, withoutAll_eq_self drop 0 children fun k rest => kept _ rest]

theorem withoutAll_eq_self (drop : List Nat → Bool) (i : Nat) :
    ∀ nodes : List Node, (∀ k rest, drop ((i + k) :: rest) = false) → withoutAll drop i nodes = nodes
  | [] => fun _ => rfl
  | n :: rest => fun kept => by
    have later := withoutAll_eq_self drop (i + 1) rest fun k below => by
      rw [Nat.add_right_comm]
      exact kept (k + 1) below
    have here := without_eq_self (fun below => drop (i :: below)) n fun j below => kept 0 (j :: below)
    have kept : drop [i] = false := kept 0 []
    rw [withoutAll, later, here, kept]
    rfl

end

/-- A pause in a block that is put off. -/
def IgnoredPause (q : Surroundings) (n : Node) (place : List Nat) : Prop :=
  n.standsIn? q place = some .putOff ∧ ∃ m, n.subtreeAt? place = some m ∧ m.kind = .pause

/-- It is one of the child through which its place leads. -/
theorem IgnoredPause.child {q r : Surroundings} {n : Node} {i : Nat} {rest : List Nat}
    (ignored : n.IgnoredPause q (i :: rest)) (inside : q.inside n.kind = some r) {child : Node}
    (atI : n.children[i]? = some child) : child.IgnoredPause r rest := by
  obtain ⟨stands, found⟩ := ignored
  simp only [standsIn?, subtreeAt?, inside, atI, Option.bind_some] at stands found
  exact ⟨stands, found⟩

mutual

/-- Trees with the same pauses outside of blocks that are put off are the same without the others. -/
theorem unpaused_without (q : Surroundings) (drop : List Nat → Bool) :
    ∀ n : Node, (∀ i rest, drop (i :: rest) = true → n.IgnoredPause q (i :: rest)) →
      (n.without drop).unpaused q = n.unpaused q
  | ⟨kind, overlay, params, payload, children⟩ => fun dropped => by
    cases inside : q.inside kind with
    | none =>
      have kept : ∀ i rest, drop (i :: rest) = false := by
        intro i rest
        refine Bool.eq_false_iff.mpr fun gone => ?_
        have stands := (dropped i rest gone).1
        simp only [standsIn?, inside, Option.bind_none] at stands
        cases stands
      rw [without_eq_self drop _ kept]
    | some r =>
      rw [without, unpaused_mk inside, unpaused_mk inside, unpausedAll_without r drop 0 children]
      intro k m atK rest gone
      rw [Nat.zero_add] at gone
      exact (dropped k rest gone).child inside atK

theorem unpausedAll_without (q : Surroundings) (drop : List Nat → Bool) (i : Nat) :
    ∀ nodes : List Node,
      (∀ k n, nodes[k]? = some n → ∀ rest, drop ((i + k) :: rest) = true → n.IgnoredPause q rest) →
      unpausedAll q (withoutAll drop i nodes) = unpausedAll q nodes
  | [] => fun _ => rfl
  | n :: rest => fun dropped => by
    have later : unpausedAll q (withoutAll drop (i + 1) rest) = unpausedAll q rest := by
      refine unpausedAll_without q drop (i + 1) rest fun k m atK below gone => ?_
      rw [Nat.add_right_comm] at gone
      exact dropped (k + 1) m atK below gone
    rw [withoutAll]
    split
    · rename_i gone
      obtain ⟨stands, m, found, isPause⟩ := dropped 0 n rfl [] gone
      obtain rfl : q = .putOff := Option.some.inj stands
      obtain rfl : n = m := Option.some.inj found
      rw [unpausedAll_pause isPause, List.nil_append, later]
    · have here : (without (fun below => drop (i :: below)) n).unpaused q = n.unpaused q :=
        unpaused_without q _ n fun j below gone => dropped 0 n rfl (j :: below) gone
      rw [List.singleton_append, unpausedAll, unpausedAll, without_kind, here, later]

end

/-- A node at a place of a tree, and what it stands in. -/
structure StandsAt (root : Node) (q : Surroundings) (place : List Nat) (n : Node) (r : Surroundings) : Prop where
  found : root.subtreeAt? place = some n
  stands : root.standsIn? q place = some r

/-- Some siblings that are the children of a place from the child `i` on, and what they stand in. -/
def ChildrenStand (root : Node) (q : Surroundings) (place : List Nat) (i : Nat) (nodes : List Node)
    (r : Surroundings) : Prop :=
  ∀ k n, nodes[k]? = some n → root.StandsAt q (place ++ [i + k]) n r

/-- What stands below a place is told from there. -/
theorem StandsAt.below {root n : Node} {q r : Surroundings} {place : List Nat} (standing : root.StandsAt q place n r)
    (rest : List Nat) :
    root.subtreeAt? (place ++ rest) = n.subtreeAt? rest ∧ root.standsIn? q (place ++ rest) = n.standsIn? r rest := by
  obtain ⟨found, stands⟩ := standing
  induction place generalizing root q with
  | nil =>
    obtain rfl := Option.some.inj found
    obtain rfl := Option.some.inj stands
    exact ⟨rfl, rfl⟩
  | cons i place ih =>
    obtain ⟨child, atI, found⟩ := Option.bind_eq_some_iff.mp found
    obtain ⟨s, inside, stands⟩ := Option.bind_eq_some_iff.mp stands
    rw [atI] at stands
    obtain ⟨subtree, surroundings⟩ := ih found stands
    constructor
    · rw [List.cons_append, subtreeAt?, atI, Option.bind_some, subtree]
    · rw [List.cons_append, standsIn?, inside, Option.bind_some, atI, Option.bind_some, surroundings]

theorem StandsAt.children {root n : Node} {q r s : Surroundings} {place : List Nat} (standing : root.StandsAt q place n r)
    (inside : r.inside n.kind = some s) : root.ChildrenStand q place 0 n.children s := by
  intro k child atK
  obtain ⟨subtree, surroundings⟩ := standing.below [k]
  rw [Nat.zero_add]
  refine ⟨subtree.trans ?_, surroundings.trans ?_⟩
  · rw [subtreeAt?, atK]
    rfl
  · rw [standsIn?, inside, Option.bind_some, atK]
    rfl

theorem ChildrenStand.head {root n : Node} {q r : Surroundings} {place : List Nat} {i : Nat} {rest : List Node}
    (children : root.ChildrenStand q place i (n :: rest) r) : root.StandsAt q (place ++ [i]) n r :=
  children 0 n rfl

theorem ChildrenStand.tail {root n : Node} {q r : Surroundings} {place : List Nat} {i : Nat} {rest : List Node}
    (children : root.ChildrenStand q place i (n :: rest) r) : root.ChildrenStand q place (i + 1) rest r := by
  intro k m atK
  rw [Nat.add_right_comm]
  exact children (k + 1) m atK

/-- Everything in a block that is put off stands in it. -/
theorem standsIn?_putOff {n m : Node} {place : List Nat} (found : n.subtreeAt? place = some m) :
    n.standsIn? .putOff place = some .putOff := by
  induction place generalizing n with
  | nil => rfl
  | cons i rest ih =>
    obtain ⟨child, atI, found⟩ := Option.bind_eq_some_iff.mp found
    rw [standsIn?, Surroundings.inside, Option.bind_some, atI, Option.bind_some, ih found]

end Node

/-- A block stands in something that puts it off. -/
def Nested.IsPutOff (root : Node) (q : Surroundings) (b : Nested) : Prop :=
  ∃ r, root.StandsAt q b.place b.block.node r ∧ r.inside b.block.node.kind = some .putOff

/-- A pause in such a block is ignored. -/
theorem Nested.IsPutOff.ignoredPause {root n : Node} {q : Surroundings} {b : Nested} {place : List Nat}
    (put : b.IsPutOff root q) (isBlock : b.block.node.kind.isBlock) (inside : b.place <+: place)
    (found : root.subtreeAt? place = some n) (isPause : n.kind = .pause) : root.IgnoredPause q place := by
  obtain ⟨r, standing, off⟩ := put
  obtain ⟨rest, rfl⟩ := inside
  obtain ⟨subtree, surroundings⟩ := standing.below rest
  refine ⟨?_, n, found, isPause⟩
  rw [subtree] at found
  cases rest with
  | nil =>
    obtain rfl := Option.some.inj found
    rw [isPause] at isBlock
    cases isBlock
  | cons i rest =>
    obtain ⟨child, atI, found⟩ := Option.bind_eq_some_iff.mp found
    rw [surroundings, Node.standsIn?, off, Option.bind_some, atI, Option.bind_some, Node.standsIn?_putOff found]

namespace Nested

variable {root : Node} {q : Surroundings}

theorem isPutOff_nil : ∀ b ∈ Mark.blocks [], b.IsPutOff root q := fun _ inNil => absurd inNil List.not_mem_nil

theorem isPutOff_append {first more : List Mark} (left : ∀ b ∈ Mark.blocks first, b.IsPutOff root q)
    (right : ∀ b ∈ Mark.blocks more, b.IsPutOff root q) : ∀ b ∈ Mark.blocks (first ++ more), b.IsPutOff root q := by
  rw [Mark.blocks_append]
  exact List.forall_mem_append.mpr ⟨left, right⟩

theorem isPutOff_putOff {r : Surroundings} {place : List Nat} {n : Node} (standing : root.StandsAt q place n r)
    (off : r.inside n.kind = some .putOff) (mode : Mode) :
    ∀ b ∈ Mark.blocks (Mark.putOff place n mode), b.IsPutOff root q := by
  unfold Mark.putOff
  split
  · exact List.forall_mem_singleton.mpr ⟨r, standing, off⟩
  · exact isPutOff_nil

end Nested

open Nested

variable {root : Node} {q : Surroundings}

mutual

/-- What the walk of a text puts off stands in a text that does so. -/
theorem Inline.marks_putOff (rules : InlineRules) (pass : Nat) {place : List Nat} (mode : Mode) :
    ∀ n : Node, root.StandsAt q place n (.text rules) →
      ∀ b ∈ Mark.blocks (marks rules pass place mode n), b.IsPutOff root q
  | ⟨kind, overlay, params, payload, children⟩ => fun here => by
    have below (inner : Mode) (walked : rules.putsOff kind = false) :
        ∀ b ∈ Mark.blocks (marksAll rules pass place 0 inner children), b.IsPutOff root q := by
      refine Inline.marksAll_putOff rules pass inner children (here.children ?_)
      rw [Surroundings.inside, show rules.putsOff kind = false from walked]
      rfl
    have off (puts : rules.putsOff kind = true) : Surroundings.inside (.text rules) kind = some .putOff := by
      rw [Surroundings.inside, puts]
      rfl
    cases kind with
    | text | paragraph | tableRow | tableColumn | titleField | graphicsPath | path | heading | frameTitle
    | frameSubtitle | hline | cline | pause => exact isPutOff_nil
    | style => exact below mode rfl
    | veil | multiColumn | item =>
      rw [marks, Mark.blocks_gate_append]
      exact below _ rfl
    | list kind =>
      simp only [marks]
      split
      · rename_i puts
        exact isPutOff_putOff here (off puts) mode
      · rename_i walked
        rw [Mark.blocks_gate_append]
        exact below _ (Bool.eq_false_iff.mpr walked)
    | tabular =>
      simp only [marks]
      split
      · rename_i puts
        exact isPutOff_putOff here (off (decide_eq_true puts)) mode
      · rename_i walked
        rw [Mark.blocks_gate_append]
        exact below _ (decide_eq_false walked)
    | image | titlePage =>
      simp only [marks]
      split
      · rename_i puts
        exact isPutOff_putOff here (off (decide_eq_true puts)) mode
      · exact isPutOff_nil
    | part | unrecognized => exact below mode rfl

theorem Inline.marksAll_putOff (rules : InlineRules) (pass : Nat) {place : List Nat} {i : Nat} (mode : Mode) :
    ∀ nodes : List Node, root.ChildrenStand q place i nodes (.text rules) →
      ∀ b ∈ Mark.blocks (marksAll rules pass place i mode nodes), b.IsPutOff root q
  | [] => fun _ => isPutOff_nil
  | n :: rest => fun children => by
    rw [marksAll]
    exact isPutOff_append (Inline.marks_putOff rules pass mode n children.head)
      (Inline.marksAll_putOff rules pass mode rest children.tail)

end

theorem TableWalk.marksAll_putOff (rules : InlineRules) (pass : Nat) {place : List Nat} {i : Nat} (mode : Mode)
    {nodes : List Node} (children : root.ChildrenStand q place i nodes (.text rules)) :
    ∀ b ∈ Mark.blocks (marksAll rules pass place i mode nodes), b.IsPutOff root q := by
  induction nodes generalizing i with
  | nil => exact isPutOff_nil
  | cons n rest ih =>
    rw [marksAll]
    refine isPutOff_append ?_ (ih children.tail)
    split
    · exact isPutOff_nil
    · exact Inline.marks_putOff rules pass mode n children.head

theorem DescriptionWalk.marksAll_putOff (rules : InlineRules) (pass : Nat) {place : List Nat} {i : Nat} (mode : Mode)
    {nodes : List Node} (children : root.ChildrenStand q place i nodes (.text rules)) :
    ∀ b ∈ Mark.blocks (marksAll rules pass place i mode nodes), b.IsPutOff root q := by
  induction nodes generalizing i with
  | nil => exact isPutOff_nil
  | cons n rest ih =>
    rw [marksAll]
    refine isPutOff_append ?_ (ih children.tail)
    split
    · rename_i isItem
      rw [Mark.blocks_gate_append]
      refine Inline.marksAll_putOff rules pass _ n.children (children.head.children ?_)
      rw [isItem]
      rfl
    · exact isPutOff_nil
    · exact isPutOff_nil

/-- What a block of the slide puts off stands in its text. -/
theorem Node.blockMarks_putOff (policy : NestedPolicy) (pass : Nat) {place : List Nat} (mode : Mode) {n : Node}
    (here : root.StandsAt q place n (.content policy)) :
    ∀ b ∈ Mark.blocks (n.blockMarks policy pass place mode), b.IsPutOff root q := by
  obtain ⟨kind, overlay, params, payload, children⟩ := n
  cases kind with
  | list kind =>
    cases kind with
    | description =>
      rw [blockMarks, Mark.blocks_gate_append]
      exact DescriptionWalk.marksAll_putOff ⟨policy, false⟩ pass _ (here.children rfl)
    | bullet | numbered =>
      rw [blockMarks, Mark.blocks_gate_append]
      exact Inline.marksAll_putOff ⟨policy, true⟩ pass _ children (here.children rfl)
  | tabular =>
    rw [blockMarks, Mark.blocks_gate_append]
    exact TableWalk.marksAll_putOff ⟨policy, false⟩ pass _ (here.children rfl)
  | image =>
    rw [blockMarks, Mark.blocks_gate]
    exact isPutOff_nil
  | _ => exact isPutOff_nil

mutual

theorem Content.marks_putOff (policy : NestedPolicy) (pass : Nat) (p : TitlePage) {place : List Nat} (mode : Mode) :
    ∀ n : Node, root.StandsAt q place n (.content policy) →
      ∀ b ∈ Mark.blocks (marks policy pass p place mode n), b.IsPutOff root q
  | ⟨kind, overlay, params, payload, children⟩ => fun here => by
    have below (inner : Mode) (walked : Surroundings.inside (.content policy) kind = some (.content policy)) :
        ∀ b ∈ Mark.blocks (marksAll policy pass p place 0 inner children), b.IsPutOff root q :=
      Content.marksAll_putOff policy pass p inner children (here.children walked)
    cases kind with
    | style | multiColumn | part | unrecognized => exact below mode rfl
    | veil | item =>
      rw [marks, Mark.blocks_gate_append]
      exact below _ rfl
    | list | tabular | image => exact Node.blockMarks_putOff policy pass mode here
    | titlePage =>
      rw [marks, Mark.blocks_gate_append, Mark.blocks_ofAsks]
      exact isPutOff_nil
    | pause | text | paragraph | titleField | tableColumn | tableRow | hline | cline | frameTitle | frameSubtitle
    | heading | graphicsPath | path => exact isPutOff_nil

/-- What the content of a slide puts off stands in texts that do so. -/
theorem Content.marksAll_putOff (policy : NestedPolicy) (pass : Nat) (p : TitlePage) {place : List Nat} {i : Nat}
    (mode : Mode) :
    ∀ nodes : List Node, root.ChildrenStand q place i nodes (.content policy) →
      ∀ b ∈ Mark.blocks (marksAll policy pass p place i mode nodes), b.IsPutOff root q
  | [] => fun _ => isPutOff_nil
  | n :: rest => fun children => by
    rw [marksAll]
    exact isPutOff_append (Content.marks_putOff policy pass p mode n children.head)
      (Content.marksAll_putOff policy pass (Walk.titled p n) mode rest children.tail)

end

namespace SlideJob

/-- The blocks that the content of a slide puts off stand in texts. -/
theorem putOff_isPutOff (j : SlideJob) (settings : Settings) (state : PassState) :
    ∀ b ∈ j.putOff settings state, b.IsPutOff j.node (.deck (.ofSettings settings)) := by
  intro b inBlocks
  have inMarks := (Tracker.follow_sublist (Prod.ext rfl (Prod.ext rfl rfl))).subset inBlocks
  have root : j.node.StandsAt (.deck (.ofSettings settings)) [] j.node (.deck (.ofSettings settings)) := ⟨rfl, rfl⟩
  exact Content.marksAll_putOff _ _ _ _ j.node.children (root.children rfl) b inMarks

/-- Without some pauses in blocks that are put off the slide is the same but for such pauses. -/
theorem unpaused_without (j : SlideJob) (settings : Settings) {drop : List Nat → Bool}
    (pauses : ∀ place, drop place = true → ∃ n, j.node.subtreeAt? place = some n ∧ n.kind = .pause)
    (inside : ∀ place, drop place = true → ∃ state, ∃ b ∈ j.putOff settings state, b.place <+: place) :
    (j.node.without drop).unpaused (.deck (.ofSettings settings)) =
      j.node.unpaused (.deck (.ofSettings settings)) := by
  refine Node.unpaused_without _ drop j.node fun i rest gone => ?_
  obtain ⟨n, found, isPause⟩ := pauses _ gone
  obtain ⟨state, b, inBlocks, below⟩ := inside _ gone
  have isBlock := (j.putOff_scattered settings state).isBlock b inBlocks
  exact (j.putOff_isPutOff settings state b inBlocks).ignoredPause isBlock below found isPause

end SlideJob

end Unveil
