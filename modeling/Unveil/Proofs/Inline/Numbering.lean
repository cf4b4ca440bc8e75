import Unveil.Proofs.Inline.Script

namespace Unveil

/-- A list at its place: the numbers of the children on the way to it, the last one first. -/
structure ListPlace where
  kind : ListKind
  place : List Nat
  deriving DecidableEq

namespace Inline

/-- An act with the lists around it, innermost first. -/
structure Step where
  within : List ListPlace
  act : Act

/-- The kind of the list that a node opens. One that is put off is not opened. -/
def listOpened? (rules : InlineRules) (n : Node) : Option ListKind :=
  match n.kind with
  | .list kind => if rules.defers kind then none else some kind
  | _ => none

/-- What is done at a node before its children are met. -/
def entering (rules : InlineRules) (o : Outset) (ancestors : List Node) (n : Node) : List Act :=
  let face := o.faceBelow ancestors
  let mode := o.modeBelow ancestors
  let inner := o.modeBelow (ancestors ++ [n])
  match n.kind with
  | .text => [.write n.ownText face mode]
  | .paragraph | .tableRow => [.breakParagraph mode]
  | .tableColumn => [.write " " face mode]
  | .pause => [.pause]
  | .style _ => [.consult n.overlay]
  | .veil _ | .multiColumn => Act.gate n
  | .list kind => if rules.defers kind then [.deferBlock n mode] else Act.gate n ++ [.openList kind]
  | .item => Act.gate n ++ [.startItem n face inner]
  | .tabular => if rules.policy = .defer then [.deferBlock n mode] else Act.gate n ++ [.startTable inner]
  | .image => if rules.policy = .defer then [.deferBlock n mode] else [.consult n.overlay]
  | .titlePage => if rules.policy = .defer then [.deferBlock n mode] else []
  | .part _ | .unrecognized _ | .titleField _ | .graphicsPath | .path | .heading _ | .frameTitle | .frameSubtitle
  | .hline | .cline => []

/-- Whether the children of a node are met. -/
def descends (rules : InlineRules) (n : Node) : Bool :=
  match n.kind with
  | .style _ | .veil _ | .multiColumn | .item | .part _ | .unrecognized _ => true
  | .list kind => !rules.defers kind
  | .tabular => rules.policy ≠ .defer
  | _ => false

/-- What is done at a node behind its children. -/
def leaving (rules : InlineRules) (n : Node) : List Act := if (listOpened? rules n).isSome then [.closeList] else []

/-- The lists around the children of a node. -/
def inside (rules : InlineRules) (place : List Nat) (within : List ListPlace) (n : Node) : List ListPlace :=
  match listOpened? rules n with
  | some kind => ⟨kind, place⟩ :: within
  | none => within

mutual

/-- What the walk of a node at a place does, with the lists around it. Both are read off the tree. -/
def steps (rules : InlineRules) (o : Outset) (ancestors : List Node) (place : List Nat) (within : List ListPlace) :
    Node → List Step
  | n@⟨_, _, _, _, children⟩ =>
    let inner := inside rules place within n
    (entering rules o ancestors n).map (.mk within) ++
      ((if descends rules n then stepsAll rules o (ancestors ++ [n]) place inner 0 children else []) ++
        (leaving rules n).map (.mk inner))

/-- The same for siblings, of which the first is child number `i`. -/
def stepsAll (rules : InlineRules) (o : Outset) (ancestors : List Node) (place : List Nat)
    (within : List ListPlace) (i : Nat) : List Node → List Step
  | [] => []
  | n :: rest =>
    steps rules o ancestors (i :: place) within n ++ stepsAll rules o ancestors place within (i + 1) rest

end

/-- What a walk of nodes does from a state on that is in no list. -/
def trace (rules : InlineRules) (s : Inline) (mode : Mode) (nodes : List Node) : List Step :=
  stepsAll rules ⟨s.tracker.pass, s.faces.base, s.face, mode⟩ [] [] [] 0 nodes

theorem acts_eq (rules : InlineRules) (o : Outset) (ancestors : List Node) (n : Node) :
    acts rules o ancestors n = entering rules o ancestors n ++
      ((if descends rules n then actsAll rules o (ancestors ++ [n]) n.children else []) ++ leaving rules n) := by
  rcases n with ⟨kind, overlay, params, payload, children⟩
  cases kind with
  | list kind => by_cases put : rules.defers kind <;> simp [acts, entering, descends, leaving, listOpened?, put]
  | tabular | image | titlePage =>
    by_cases put : rules.policy = .defer <;> simp [acts, entering, descends, leaving, listOpened?, put]
  | _ => simp [acts, entering, descends, leaving, listOpened?]

mutual

/-- Without the lists, the steps are the acts of the script. -/
theorem steps_act (rules : InlineRules) (o : Outset) (ancestors : List Node) (place : List Nat)
    (within : List ListPlace) :
    ∀ n : Node, (steps rules o ancestors place within n).map Step.act = acts rules o ancestors n
  | ⟨kind, overlay, params, payload, children⟩ => by
    rw [acts_eq, steps]
    simp only [List.map_append, List.map_map, Function.comp_def, List.map_id']
    split
    · rw [stepsAll_act rules o _ place _ 0 children]
    · rfl

theorem stepsAll_act (rules : InlineRules) (o : Outset) (ancestors : List Node) (place : List Nat)
    (within : List ListPlace) (i : Nat) :
    ∀ nodes : List Node, (stepsAll rules o ancestors place within i nodes).map Step.act = actsAll rules o ancestors nodes
  | [] => rfl
  | n :: rest => by
    rw [stepsAll, actsAll, List.map_append, steps_act rules o ancestors _ within n,
      stepsAll_act rules o ancestors place within (i + 1) rest]

end

theorem trace_act (rules : InlineRules) (s : Inline) (mode : Mode) (nodes : List Node) :
    (s.trace rules mode nodes).map Step.act = script rules s mode nodes := stepsAll_act rules _ [] [] [] 0 nodes

/-- The open lists after an act. -/
def Act.onLists (lists : List OpenList) : Act → List OpenList
  | .openList kind => ⟨kind, 0, min ((lists.head?.map OpenList.level).getD 0 + 1) maxLevel⟩ :: lists
  | .closeList => lists.tail
  | .startItem _ _ mode => if mode.emits then OpenList.countOn 1 lists else lists
  | _ => lists

theorem startItem_countOn (s : Inline) (n : Node) (mode : Mode) :
    (s.startItem n mode).lists = if mode.emits then OpenList.countOn 1 s.lists else s.lists := by
  unfold startItem
  cases mode.emits with
  | false => rfl
  | true =>
    cases lists : s.lists with
    | nil => simp [OpenList.countOn]
    | cons l outer =>
      simp only [Bool.not_true, Bool.false_eq_true, if_false, if_true, OpenList.countOn]
      split <;> simp

theorem perform_lists (s : Inline) (act : Act) : (s.perform act).2.lists = act.onLists s.lists := by
  cases act with
  | write text face mode => simp [perform, inFace, withFaces, Act.onLists]
  | startItem item face mode => simp [perform, inFace, withFaces, Act.onLists, startItem_countOn]
  | breakParagraph mode | startTable mode | deferBlock n mode => simp [perform, Act.onLists]
  | openList kind | closeList | consult overlay | pause => rfl

theorem play_cons_completed {s t : Inline} {act : Act} {rest : List Act} :
    s.play (act :: rest) = (.completed, t) ↔
      ∃ u, s.perform act = (.completed, u) ∧ u.play rest = (.completed, t) := by
  rw [play]
  rcases s.perform act with ⟨flow, u⟩
  cases flow <;> simp

theorem play_append_completed {s t : Inline} {first more : List Act} :
    s.play (first ++ more) = (.completed, t) ↔ ∃ u, s.play first = (.completed, u) ∧ u.play more = (.completed, t) := by
  rw [play_append]
  rcases s.play first with ⟨flow, u⟩
  cases flow <;> simp

theorem play_lists {s t : Inline} {acts : List Act} (played : s.play acts = (.completed, t)) :
    t.lists = acts.foldl Act.onLists s.lists := by
  induction acts generalizing s with
  | nil =>
    cases played
    rfl
  | cons act rest ih =>
    obtain ⟨u, here, later⟩ := play_cons_completed.mp played
    have lists := perform_lists s act
    rw [here] at lists
    rw [List.foldl_cons, ← lists, ih later]

/-- An item of a list that is written. -/
def Step.isItemOf (l : ListPlace) (step : Step) : Bool :=
  match step.act with
  | .startItem _ _ mode => mode.emits && step.within.head? == some l
  | _ => false

/-- How many items of a list were written. -/
def itemsIn (l : ListPlace) (done : List Step) : Nat := done.countP (Step.isItemOf l)

theorem itemsIn_append (l : ListPlace) (done xs : List Step) : itemsIn l (done ++ xs) = itemsIn l done + itemsIn l xs :=
  List.countP_append

/-- The level inside of some lists: their number, up to the greatest level that there is. -/
def levelWithin (within : List ListPlace) : Nat := min within.length maxLevel

/-- How lists stand after some steps. -/
def openedAt (done : List Step) : List ListPlace → List OpenList
  | [] => []
  | l :: outer => ⟨l.kind, itemsIn l done, levelWithin (l :: outer)⟩ :: openedAt done outer

/-- Steps that find the lists around them open, with their items counted. -/
def Tracks (done : List Step) (lists : List OpenList) : List Step → Prop
  | [] => True
  | step :: rest => lists = openedAt done step.within ∧ Tracks (done ++ [step]) (step.act.onLists lists) rest

/-- The open lists after some steps. -/
def listsAfter (lists : List OpenList) (xs : List Step) : List OpenList :=
  (xs.map Step.act).foldl Act.onLists lists

theorem tracks_append {done : List Step} {lists : List OpenList} {xs ys : List Step} :
    Tracks done lists (xs ++ ys) ↔ Tracks done lists xs ∧ Tracks (done ++ xs) (listsAfter lists xs) ys := by
  induction xs generalizing done lists with
  | nil => simp [Tracks, listsAfter]
  | cons x rest ih =>
    rw [List.cons_append, Tracks, Tracks, ih, and_assoc, List.append_assoc, List.singleton_append]
    rfl

/-- Steps that track the lists and leave the same lists open that were open before. -/
structure Balanced (within : List ListPlace) (done xs : List Step) : Prop where
  tracks : Tracks done (openedAt done within) xs
  after : listsAfter (openedAt done within) xs = openedAt (done ++ xs) within

namespace Balanced

variable {within : List ListPlace} {done xs ys : List Step}

theorem nil : Balanced within done [] := ⟨trivial, by rw [List.append_nil]; rfl⟩

theorem append (first : Balanced within done xs) (later : Balanced within (done ++ xs) ys) :
    Balanced within done (xs ++ ys) where
  tracks := tracks_append.mpr ⟨first.tracks, first.after ▸ later.tracks⟩
  after := by
    rw [← List.append_assoc, ← later.after, ← first.after]
    simp only [listsAfter, List.map_append, List.foldl_append]

end Balanced

/-- Lists are counted as before if no item was started in any of them. -/
theorem openedAt_append {within : List ListPlace} (done : List Step) {xs : List Step}
    (others : ∀ l ∈ within, ∀ x ∈ xs, x.isItemOf l = false) :
    openedAt (done ++ xs) within = openedAt done within := by
  induction within with
  | nil => rfl
  | cons l outer ih =>
    obtain ⟨here, further⟩ := List.forall_mem_cons.mp others
    have nothing : itemsIn l xs = 0 := List.countP_eq_zero.mpr fun x inside => Bool.eq_false_iff.mp (here x inside)
    rw [openedAt, openedAt, ih further, itemsIn_append, nothing, Nat.add_zero]

/-- An act that is no matter of lists. -/
def Act.isPlain : Act → Bool
  | .openList _ | .closeList => false
  | .startItem .. => false
  | _ => true

theorem Balanced.plain {within : List ListPlace} {done : List Step} {act : Act} (plain : act.isPlain = true) :
    Balanced within done [⟨within, act⟩] where
  tracks := ⟨rfl, trivial⟩
  after := by
    rw [openedAt_append]
    · cases act <;> first | rfl | cases plain
    · intro l _ x inside
      obtain rfl := List.mem_singleton.mp inside
      cases act <;> first | rfl | cases plain

theorem Balanced.plainAll {within : List ListPlace} {done : List Step} {acts : List Act}
    (plain : ∀ act ∈ acts, act.isPlain = true) : Balanced within done (acts.map (.mk within)) := by
  induction acts generalizing done with
  | nil => exact .nil
  | cons act rest ih =>
    obtain ⟨here, later⟩ := List.forall_mem_cons.mp plain
    exact (Balanced.plain here).append (ih later)

theorem openedAt_head (done : List Step) (within : List ListPlace) :
    ((openedAt done within).head?.map OpenList.level).getD 0 = levelWithin within := by
  cases within with
  | nil => simp [openedAt, levelWithin]
  | cons l outer => rfl

/-- An item is counted in the innermost list. -/
theorem Balanced.item {within : List ListPlace} {done : List Step} (apart : within.Nodup) (n : Node) (face : Face)
    (mode : Mode) : Balanced within done [⟨within, .startItem n face mode⟩] where
  tracks := ⟨rfl, trivial⟩
  after := by
    cases emits : mode.emits with
    | false =>
      rw [openedAt_append _ fun l _ x inside => ?_]
      · simp [listsAfter, Act.onLists, emits]
      · obtain rfl := List.mem_singleton.mp inside
        simp [Step.isItemOf, emits]
    | true =>
      cases within with
      | nil => simp [listsAfter, Act.onLists, openedAt, OpenList.countOn]
      | cons l outer =>
        have others : openedAt (done ++ [⟨l :: outer, .startItem n face mode⟩]) outer = openedAt done outer := by
          refine openedAt_append _ fun other inOuter x inside => ?_
          obtain rfl := List.mem_singleton.mp inside
          have away : l ≠ other := fun same => (List.nodup_cons.mp apart).1 (same ▸ inOuter)
          simp [Step.isItemOf, away]
        rw [openedAt, openedAt, others, itemsIn_append]
        simp [listsAfter, Act.onLists, emits, OpenList.countOn, Step.isItemOf, itemsIn]

/-- No list at a place or below it was met. -/
def Unmet (place : List Nat) (done : List Step) : Prop := ∀ x ∈ done, ∀ l ∈ x.within, ¬place <:+ l.place

/-- Lists that stand around a place. -/
structure Around (place : List Nat) (within : List ListPlace) : Prop where
  above : ∀ l ∈ within, l.place.length ≤ place.length
  apart : within.Nodup

/-- A list that was not met has no items yet. -/
theorem Unmet.itemsIn {place : List Nat} {done : List Step} (unmet : Unmet place done) (kind : ListKind) :
    itemsIn ⟨kind, place⟩ done = 0 := by
  refine List.countP_eq_zero.mpr fun x inside counted => ?_
  unfold Step.isItemOf at counted
  split at counted
  · have head : x.within.head? = some ⟨kind, place⟩ := by simpa using (Bool.and_eq_true_iff.mp counted).2
    exact unmet x inside _ (List.mem_of_head? head) (List.suffix_refl place)
  · cases counted

theorem Unmet.append {place : List Nat} {done xs : List Step} (first : Unmet place done) (later : Unmet place xs) :
    Unmet place (done ++ xs) := List.forall_mem_append.mpr ⟨first, later⟩

theorem Unmet.below {place : List Nat} {done : List Step} (unmet : Unmet place done) (j : Nat) :
    Unmet (j :: place) done :=
  fun x inside l around below => unmet x inside l around ((List.suffix_cons j place).trans below)

/-- Lists around a place are not below it. -/
theorem Around.unmet {place : List Nat} {within : List ListPlace} (around : Around place within) (j : Nat)
    (acts : List Act) : Unmet (j :: place) (acts.map (.mk within)) := by
  intro x inside l inLists below
  obtain ⟨_, _, rfl⟩ := List.mem_map.mp inside
  have longer := below.length_le
  have shorter := around.above l inLists
  rw [List.length_cons] at longer
  omega

theorem Around.cons {place : List Nat} {within : List ListPlace} (around : Around place within) (i : Nat)
    (kind : ListKind) : Around (i :: place) (⟨kind, i :: place⟩ :: within) where
  above := List.forall_mem_cons.mpr ⟨Nat.le_refl _, fun l inside => Nat.le_succ_of_le (around.above l inside)⟩
  apart := List.nodup_cons.mpr ⟨fun inside => absurd (around.above _ inside) (by simp), around.apart⟩

theorem Around.down {place : List Nat} {within : List ListPlace} (around : Around place within) (i : Nat) :
    Around (i :: place) within :=
  ⟨fun l inside => Nat.le_succ_of_le (around.above l inside), around.apart⟩

/-- A list is opened with no items, and closed at the end. -/
theorem Balanced.list {within : List ListPlace} {done xs : List Step} {kind : ListKind} {place : List Nat}
    (unmet : Unmet place done)
    (inside : Balanced (⟨kind, place⟩ :: within) (done ++ [⟨within, .openList kind⟩]) xs) :
    Balanced within done
      (⟨within, .openList kind⟩ :: (xs ++ [⟨⟨kind, place⟩ :: within, .closeList⟩])) := by
  have opened : (Act.openList kind).onLists (openedAt done within) =
      openedAt (done ++ [⟨within, .openList kind⟩]) (⟨kind, place⟩ :: within) := by
    have others : openedAt (done ++ [⟨within, .openList kind⟩]) within = openedAt done within := by
      refine openedAt_append _ fun l _ x inside => ?_
      obtain rfl := List.mem_singleton.mp inside
      rfl
    have level : min (levelWithin within + 1) maxLevel = levelWithin (⟨kind, place⟩ :: within) := by
      simp only [levelWithin, List.length_cons]
      omega
    rw [Act.onLists, openedAt_head, level, openedAt, others, itemsIn_append, unmet.itemsIn]
    rfl
  have closed : listsAfter (openedAt done within)
      (⟨within, .openList kind⟩ :: (xs ++ [⟨⟨kind, place⟩ :: within, .closeList⟩])) =
        openedAt (done ++ [⟨within, .openList kind⟩] ++ xs) within := by
    have ended := inside.after
    rw [← opened] at ended
    simp only [listsAfter, List.map_cons, List.map_append, List.foldl_cons, List.foldl_append, List.map_nil,
      List.foldl_nil] at ended ⊢
    rw [ended]
    rfl
  have last : openedAt (done ++ [⟨within, .openList kind⟩] ++ xs ++ [⟨⟨kind, place⟩ :: within, .closeList⟩]) within =
      openedAt (done ++ [⟨within, .openList kind⟩] ++ xs) within := by
    refine openedAt_append _ fun l _ x inside => ?_
    obtain rfl := List.mem_singleton.mp inside
    rfl
  constructor
  · refine ⟨rfl, tracks_append.mpr ⟨opened ▸ inside.tracks, ?_, trivial⟩⟩
    rw [opened, inside.after]
  · rw [closed, ← last]
    simp only [List.append_assoc, List.cons_append, List.nil_append]

/-- What is entered is a gate, which is no matter of lists, and at most one act behind it. -/
theorem entering_cases (rules : InlineRules) (o : Outset) (ancestors : List Node) (n : Node) :
    (∃ kind acts, listOpened? rules n = some kind ∧ (∀ act ∈ acts, act.isPlain = true) ∧
        entering rules o ancestors n = acts ++ [.openList kind]) ∨
      (listOpened? rules n = none ∧ ∃ acts, (∀ act ∈ acts, act.isPlain = true) ∧
        (entering rules o ancestors n = acts ∨
          ∃ face mode, entering rules o ancestors n = acts ++ [.startItem n face mode])) := by
  have gate : ∀ act ∈ Act.gate n, act.isPlain = true := by
    intro act inside
    unfold Act.gate at inside
    split at inside
    · cases inside
    · obtain rfl := List.mem_singleton.mp inside
      rfl
  rcases n with ⟨kind, overlay, params, payload, children⟩
  cases kind with
  | list kind =>
    by_cases put : rules.defers kind
    · refine .inr ⟨by simp [listOpened?, put], _, ?_, .inl rfl⟩
      simp [entering, put, Act.isPlain]
    · exact .inl ⟨kind, _, by simp [listOpened?, put], gate, by simp [entering, put]⟩
  | item => exact .inr ⟨rfl, _, gate, .inr ⟨_, _, rfl⟩⟩
  | tabular =>
    refine .inr ⟨rfl, _, ?_, .inl rfl⟩
    by_cases put : rules.policy = .defer
    · simp [entering, put, Act.isPlain]
    · simp only [entering, put, if_false]
      exact List.forall_mem_append.mpr ⟨gate, by simp [Act.isPlain]⟩
  | image | titlePage =>
    refine .inr ⟨rfl, _, ?_, .inl rfl⟩
    by_cases put : rules.policy = .defer <;> simp [entering, put, Act.isPlain]
  | veil v | multiColumn => exact .inr ⟨rfl, _, gate, .inl rfl⟩
  | _ => exact .inr ⟨rfl, _, by simp [entering, Act.isPlain], .inl rfl⟩

theorem descends_of_opened {rules : InlineRules} {n : Node} {kind : ListKind} (opens : listOpened? rules n = some kind) :
    descends rules n = true := by
  unfold listOpened? at opens
  split at opens
  · rename_i list
    split at opens
    · cases opens
    · rename_i here
      simp [descends, list, here]
  · cases opens

mutual

theorem steps_within (rules : InlineRules) (o : Outset) (ancestors : List Node) (place : List Nat)
    (within : List ListPlace) :
    ∀ n : Node, ∀ x ∈ steps rules o ancestors place within n, ∀ l ∈ x.within, l ∈ within ∨ place <:+ l.place
  | ⟨kind, overlay, params, payload, children⟩ => by
    have inner : ∀ l ∈ inside rules place within ⟨kind, overlay, params, payload, children⟩,
        l ∈ within ∨ place <:+ l.place := by
      intro l inLists
      unfold inside at inLists
      split at inLists
      · rcases List.mem_cons.mp inLists with rfl | outer
        · exact .inr (List.suffix_refl place)
        · exact .inl outer
      · exact .inl inLists
    intro x inSteps l around
    rw [steps] at inSteps
    simp only [List.mem_append] at inSteps
    rcases inSteps with entered | below | left
    · obtain ⟨_, _, rfl⟩ := List.mem_map.mp entered
      exact .inl around
    · split at below
      · rcases stepsAll_within rules o _ place _ 0 children x below l around with outer | ⟨j, _, deeper⟩
        · exact inner l outer
        · exact .inr ((List.suffix_cons j place).trans deeper)
      · cases below
    · obtain ⟨_, _, rfl⟩ := List.mem_map.mp left
      exact inner l around

/-- The lists around what is done for siblings are those around all of them, or below one of them. -/
theorem stepsAll_within (rules : InlineRules) (o : Outset) (ancestors : List Node) (place : List Nat)
    (within : List ListPlace) (i : Nat) :
    ∀ nodes : List Node, ∀ x ∈ stepsAll rules o ancestors place within i nodes, ∀ l ∈ x.within,
      l ∈ within ∨ ∃ j, i ≤ j ∧ (j :: place) <:+ l.place
  | [] => nofun
  | n :: rest => by
    intro x inSteps l around
    rw [stepsAll] at inSteps
    rcases List.mem_append.mp inSteps with here | later
    · rcases steps_within rules o ancestors _ within n x here l around with outer | below
      · exact .inl outer
      · exact .inr ⟨i, Nat.le_refl i, below⟩
    · rcases stepsAll_within rules o ancestors place within (i + 1) rest x later l around with outer | ⟨j, after, below⟩
      · exact .inl outer
      · exact .inr ⟨j, Nat.le_of_succ_le after, below⟩

end

/-- A node does not meet the places of its later siblings. -/
theorem Around.steps_unmet {place : List Nat} {within : List ListPlace} (around : Around place within)
    (rules : InlineRules) (o : Outset) (ancestors : List Node) (n : Node) {i j : Nat} (later : i < j) :
    Unmet (j :: place) (steps rules o ancestors (i :: place) within n) := by
  intro x inside l inLists below
  rcases steps_within rules o ancestors _ within n x inside l inLists with outer | here
  · have longer := below.length_le
    have shorter := around.above l outer
    rw [List.length_cons] at longer
    omega
  · have same := List.suffix_of_suffix_length_le here below (Nat.le_refl _)
    have same := same.eq_of_length rfl
    injection same
    omega

mutual

/-- A node tracks the lists around it, and leaves them as it found them but for its items. -/
theorem steps_balanced (rules : InlineRules) (o : Outset) (ancestors : List Node) {place : List Nat} {i : Nat}
    {within : List ListPlace} {done : List Step} (around : Around place within) (unmet : Unmet (i :: place) done) :
    ∀ n : Node, Balanced within done (steps rules o ancestors (i :: place) within n)
  | ⟨kind, overlay, params, payload, children⟩ => by
    -- no list below the node was met before it, so that a list that opens there counts from the start
    have below (acts : List Act) (j : Nat) : Unmet (j :: i :: place) (done ++ acts.map (.mk within)) :=
      (unmet.below j).append ((around.down i).unmet j acts)
    rw [steps]
    rcases entering_cases rules o ancestors ⟨kind, overlay, params, payload, children⟩ with
      ⟨list, acts, opens, plain, entered⟩ | ⟨nothing, acts, plain, entered⟩
    · have gate : Balanced within done (acts.map (.mk within)) := .plainAll plain
      have fresh : Unmet (i :: place) (done ++ acts.map (.mk within)) := unmet.append (around.unmet i acts)
      have between := stepsAll_balanced rules o (ancestors ++ [⟨kind, overlay, params, payload, children⟩])
        (around.cons i list) (fun j (_ : 0 ≤ j) => below (acts ++ [.openList list]) j) children
      rw [List.map_append, ← List.append_assoc] at between
      have all := gate.append (Balanced.list fresh between)
      rw [entered, descends_of_opened opens, leaving, inside, opens, List.map_append, List.append_assoc]
      exact all
    · have enters : Balanced within done ((entering rules o ancestors ⟨kind, overlay, params, payload, children⟩).map
          (.mk within)) := by
        rcases entered with same | ⟨face, mode, same⟩ <;> rw [same]
        · exact .plainAll plain
        · rw [List.map_append]
          exact (Balanced.plainAll plain).append (.item around.apart _ face mode)
      have all := enters.append (stepsAll_balanced rules o (ancestors ++ [⟨kind, overlay, params, payload, children⟩])
        (around.down i) (fun j (_ : 0 ≤ j) => below _ j) children)
      rw [leaving, inside, nothing]
      dsimp only
      split
      · simpa using all
      · simpa using enters

theorem stepsAll_balanced (rules : InlineRules) (o : Outset) (ancestors : List Node) {place : List Nat} {i : Nat}
    {within : List ListPlace} {done : List Step} (around : Around place within)
    (unmet : ∀ j, i ≤ j → Unmet (j :: place) done) :
    ∀ nodes : List Node, Balanced within done (stepsAll rules o ancestors place within i nodes)
  | [] => .nil
  | n :: rest => by
    have here := steps_balanced rules o ancestors around (unmet i (Nat.le_refl i)) n
    have later (j : Nat) (after : i + 1 ≤ j) :
        Unmet (j :: place) (done ++ steps rules o ancestors (i :: place) within n) :=
      (unmet j (Nat.le_of_succ_le after)).append (around.steps_unmet rules o ancestors n after)
    exact here.append (stepsAll_balanced rules o ancestors around later rest)

end

/-- Wherever a walk has come to that was in no list at first, the open lists are those around the place, each with
the items that were written in it. So the lists around a node, and the items started before it in the innermost of
them, tell its number. -/
theorem play_openedAt {rules : InlineRules} {s t : Inline} {mode : Mode} {nodes : List Node} (outside : s.lists = [])
    {before after : List Step} {step : Step} (split : s.trace rules mode nodes = before ++ step :: after)
    (played : s.play (before.map Step.act) = (.completed, t)) : t.lists = openedAt before step.within := by
  have balanced : Balanced [] [] (s.trace rules mode nodes) :=
    stepsAll_balanced rules _ [] ⟨List.forall_mem_nil _, List.nodup_nil⟩ (fun _ _ => List.forall_mem_nil _) nodes
  have tracks := balanced.tracks
  rw [split] at tracks
  obtain ⟨_, here, _⟩ := tracks_append.mp tracks
  rw [play_lists played, outside]
  exact here

end Inline

end Unveil
