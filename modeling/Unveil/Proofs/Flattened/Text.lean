import Unveil.Proofs.Reveal.Inline

namespace Unveil

namespace Node

mutual

/-- The tree without the terms of items that stand in no list; `inList` tells whether a list is open
around it. -/
def loosened (inList : Bool) : Node → Node
  | ⟨kind, overlay, params, payload, children⟩ =>
    match kind with
    | .list list => ⟨.list list, overlay, params, payload, loosenedAll true children⟩
    | .item => ⟨.item, overlay, if inList then params else "", payload, loosenedAll inList children⟩
    | kind => ⟨kind, overlay, params, payload, loosenedAll inList children⟩

def loosenedAll (inList : Bool) : List Node → List Node
  | [] => []
  | n :: rest => loosened inList n :: loosenedAll inList rest

end

mutual

/-- All items in a list keep their terms. -/
theorem loosened_inList : ∀ n : Node, loosened true n = n
  | ⟨kind, overlay, params, payload, children⟩ => by
    cases kind <;> simp only [loosened, loosenedAll_inList children, if_true]

theorem loosenedAll_inList : ∀ nodes : List Node, loosenedAll true nodes = nodes
  | [] => rfl
  | n :: rest => by rw [loosenedAll, loosened_inList n, loosenedAll_inList rest]

end

mutual

/-- Only items in lists have terms. -/
def termsInLists : Node → Bool
  | ⟨kind, _, params, _, children⟩ =>
    match kind with
    | .list _ => true
    | .item => params.isEmpty && termsInListsAll children
    | _ => termsInListsAll children

def termsInListsAll : List Node → Bool
  | [] => true
  | n :: rest => termsInLists n && termsInListsAll rest

end

mutual

/-- A tree whose items all stand in lists stays as it is. -/
theorem loosened_of_termsInLists : ∀ n : Node, n.termsInLists = true → n.loosened false = n
  | ⟨kind, overlay, params, payload, children⟩, only => by
    cases kind with
    | list => rw [loosened, loosenedAll_inList]
    | item =>
      obtain ⟨empty, below⟩ := Bool.and_eq_true_iff.mp only
      rw [loosened, loosenedAll_of_termsInLists children below, String.isEmpty_iff.mp empty]
      rfl
    | _ => simp only [loosened, loosenedAll_of_termsInLists children only]

theorem loosenedAll_of_termsInLists :
    ∀ nodes : List Node, termsInListsAll nodes = true → loosenedAll false nodes = nodes
  | [], _ => rfl
  | n :: rest, only => by
    obtain ⟨here, after⟩ := Bool.and_eq_true_iff.mp only
    rw [loosenedAll, loosened_of_termsInLists n here, loosenedAll_of_termsInLists rest after]

end

end Node

namespace Inline

variable {mode inner : Mode} {a b u v x y : Inline} {inList : Bool}

/-- Two texts in which the same nodes are walked, but that items outside of lists lose their terms for the second:
the second has the description list open around them. The one is a definition in a table, the other a whole
description list. -/
structure Stands (inList : Bool) (a b : Inline) : Prop where
  tracker : b.tracker = a.tracker
  outside : inList = false → a.lists = []
  kind : b.listKind? = if inList then a.listKind? else some .description

/-- What is restored stands as before. -/
theorem Stands.restored (stands : Stands inList a b) (first : Restored a u) (second : Restored b v)
    (tracker : v.tracker = u.tracker) : Stands inList u v where
  tracker := tracker
  outside loose := by
    obtain ⟨items, lists⟩ := first.lists
    rw [lists, stands.outside loose]
    rfl
  kind := by rw [second.listKind?, first.listKind?, stands.kind]

/-- Two texts went on and wrote the same, of which the first has a note unless it is blank. -/
structure Echo (mode : Mode) (a b u v : Inline) : Prop where
  tracker : v.tracker = u.tracker
  lasting : a.emitted = true → u.emitted = true
  wrote : ∃ more, u.body.ink = a.body.ink ++ more ∧ v.body.ink = b.body.ink ++ more ∧
    (more ≠ [] → u.emitted = true ∧ mode.emits = true)

namespace Echo

/-- Steps that write nothing. -/
theorem quiet (tracker : v.tracker = u.tracker) (emitted : u.emitted = a.emitted)
    (first : u.body.ink = a.body.ink) (second : v.body.ink = b.body.ink) : Echo mode a b u v :=
  ⟨tracker, fun shows => emitted.trans shows, [],
    first.trans (List.append_nil _).symm, second.trans (List.append_nil _).symm, absurd rfl⟩

theorem trans (first : Echo mode a b u v) (second : Echo mode u v x y) : Echo mode a b x y := by
  obtain ⟨more, atU, atV, noted⟩ := first.wrote
  obtain ⟨rest, atX, atY, notedLater⟩ := second.wrote
  refine ⟨second.tracker, fun shows => second.lasting (first.lasting shows), more ++ rest, ?_, ?_, fun shows => ?_⟩
  · rw [atX, atU, List.append_assoc]
  · rw [atY, atV, List.append_assoc]
  · by_cases empty : more = []
    · rw [empty, List.nil_append] at shows
      exact notedLater shows
    · exact ⟨second.lasting (noted empty).1, (noted empty).2⟩

theorem mono (echo : Echo inner a b u v) (weaker : inner.emits = true → mode.emits = true) : Echo mode a b u v := by
  obtain ⟨more, atU, atV, noted⟩ := echo.wrote
  exact ⟨echo.tracker, echo.lasting, more, atU, atV, fun shows => (noted shows).imp_right weaker⟩

end Echo

theorem resume_ink (s : Inline) : s.resume.body.ink = s.body.ink := by
  unfold resume
  split
  · exact congrArg Text.ink (TextBody.startParagraph_chars _ _ _ _)
  · rfl

theorem breakParagraph_ink (s : Inline) (mode : Mode) : (s.breakParagraph mode).body.ink = s.body.ink := by
  unfold breakParagraph
  split
  · exact congrArg Text.ink (TextBody.breakParagraph_chars _)
  · rfl

theorem startTable_ink (s : Inline) (mode : Mode) : (s.startTable mode).body.ink = s.body.ink := by
  unfold startTable
  split
  · exact congrArg Text.ink (TextBody.breakParagraph_chars _)
  · rfl

theorem openList_ink (s : Inline) (kind : ListKind) : (s.openList kind).body.ink = s.body.ink := by
  have keeps (p : Paragraph) : (if p.isEmpty then { p with bullet := none } else p).chars = p.chars ++ [] := by
    split <;> exact (List.append_nil _).symm
  unfold openList
  dsimp only
  split
  · rfl
  · rw [TextBody.ink, s.body.mapCurrent_chars keeps, List.append_nil]
    rfl

/-- The text that is written, with its note. -/
theorem append_ink (s : Inline) (text : String) (mode : Mode) :
    (s.append text mode).body.ink = s.body.ink ++ if mode.emits then Text.ink text.toList else [] := by
  unfold append
  cases emits : mode.emits with
  | false => simp
  | true =>
    cases empty : text.isEmpty with
    | true => simp [String.isEmpty_iff.mp empty, Text.ink]
    | false => simp [TextBody.append_ink, resume_ink]

/-- Text that is not blank is noted where content is emitted. -/
theorem append_emitted (s : Inline) {text : String} {mode : Mode} (emits : mode.emits = true)
    (inked : Text.ink text.toList ≠ []) : (s.append text mode).emitted = true := by
  have dark : Text.allBlank text.toList = false := by simpa [Text.allBlank_eq] using inked
  have nonempty : text.isEmpty = false := by
    rw [Bool.eq_false_iff]
    intro empty
    exact inked (by rw [String.isEmpty_iff.mp empty]; rfl)
  simp [append, emits, nonempty, dark]

/-- The term that an item gets where it stands. -/
def termOf (s : Inline) (n : Node) (mode : Mode) : String :=
  if mode.emits ∧ s.listKind? = some .description then n.params else ""

theorem writeTerm_ink (s : Inline) (term : String) (hidden : Bool) :
    (s.writeTerm term hidden).body.ink = s.body.ink ++ Text.ink term.toList := by
  unfold writeTerm
  split
  · rename_i empty
    simp [String.isEmpty_iff.mp empty, Text.ink]
  · have blank : Text.ink " ".toList = [] := rfl
    simp only [TextBody.append_ink, blank, List.append_nil]

theorem startItem_ink (s : Inline) (n : Node) (mode : Mode) :
    (s.startItem n mode).body.ink = s.body.ink ++ Text.ink (s.termOf n mode).toList := by
  have started (bullet : Option Bullet) (level : Nat) :
      (s.body.startParagraph bullet level s.face.size).ink = s.body.ink :=
    congrArg Text.ink (TextBody.startParagraph_chars _ _ _ _)
  have nothing : s.body.ink = s.body.ink ++ Text.ink "".toList := (List.append_nil _).symm
  unfold startItem termOf listKind?
  cases emits : mode.emits with
  | false => simpa using nothing
  | true =>
    cases atLists : s.lists with
    | nil => simpa [started] using nothing
    | cons l outer =>
      by_cases description : l.kind = .description
      · simp [description, writeTerm_ink, started]
      · simpa [description, started] using nothing

theorem startItem_emitted {s : Inline} {n : Node} {mode : Mode} (inked : Text.ink (s.termOf n mode).toList ≠ []) :
    (s.startItem n mode).emitted = true ∧ mode.emits = true := by
  unfold termOf at inked
  split at inked
  · rename_i written
    have nonempty : n.params.isEmpty = false := by
      rw [Bool.eq_false_iff]
      intro empty
      exact inked (by rw [String.isEmpty_iff.mp empty]; rfl)
    obtain ⟨l, atHead, description⟩ := Option.map_eq_some_iff.mp written.2
    obtain ⟨outer, atLists⟩ := List.head?_eq_some_iff.mp atHead
    simp [startItem, written.1, atLists, description, writeTerm, nonempty]
  · exact absurd rfl inked

/-- How a node is walked in both texts. -/
structure EndsEcho (mode : Mode) (a b : Inline) (found other : Flow × Inline) : Prop where
  flow : other.1 = found.1
  echo : Echo mode a b found.2 other.2

namespace EndsEcho

variable {found other : Flow × Inline}

/-- What is walked behind a step that both texts take. -/
theorem after (step : Echo mode a b u v) (ends : EndsEcho inner u v found other)
    (weaker : inner.emits = true → mode.emits = true) : EndsEcho mode a b found other :=
  ⟨ends.flow, step.trans (ends.echo.mono weaker)⟩

theorem closing {close close' : Inline → Inline} (ends : EndsEcho mode a b found other)
    (closed : ∀ s t : Inline, t.tracker = s.tracker → Echo mode s t (close s) (close' t)) :
    EndsEcho mode a b (andThen close found) (andThen close' other) := by
  obtain ⟨flow, u⟩ := found
  obtain ⟨flow', v⟩ := other
  obtain ⟨same, echo⟩ := ends
  simp only at same
  subst same
  cases flow' with
  | completed => exact ⟨rfl, echo.trans (closed u v echo.tracker)⟩
  | paused => exact ⟨rfl, echo⟩

end EndsEcho

theorem Stands.of_lists (stands : Stands inList a b) (first : u.lists = a.lists) (second : v.lists = b.lists)
    (tracker : v.tracker = u.tracker) : Stands inList u v where
  tracker := tracker
  outside loose := first.trans (stands.outside loose)
  kind := by simpa only [listKind?, first, second] using stands.kind

/-- In a list that opens in both texts, nothing is outside of lists. -/
theorem Stands.openList (tracker : b.tracker = a.tracker) (kind : ListKind) :
    Stands true (a.openList kind) (b.openList kind) := ⟨tracker, nofun, rfl⟩

/-- The gates of a node are the same in both texts. -/
theorem Stands.gate (stands : Stands inList a b) {n m : Node} (overlay : m.overlay = n.overlay)
    (kind : m.kind = n.kind) (mode : Mode) :
    (b.gate m mode).1 = (a.gate n mode).1 ∧ Stands inList (a.gate n mode).2 (b.gate m mode).2 := by
  have same : mode.gate m b.tracker = mode.gate n a.tracker := by
    rw [stands.tracker, Mode.gate, Mode.gate, Mode.veiled, Mode.veiled, overlay, kind]
  refine ⟨?_, stands.of_lists rfl rfl ?_⟩
  · rw [Inline.gate, same, Inline.gate]
  · rw [gate_tracker, same, gate_tracker]

theorem gate_emits {s : Inline} {n : Node} (emits : (s.gate n mode).1.emits = true) : mode.emits = true := by
  rw [Inline.gate, Mode.gate_fst, Mode.max_emits, Bool.and_eq_true] at emits
  exact emits.1

/-- The same text is written by both. -/
theorem Echo.append (tracker : b.tracker = a.tracker) (text : String) :
    Echo mode a b (a.append text mode) (b.append text mode) := by
  refine ⟨by simpa using tracker, (Behind.append a text mode).emitted, _, append_ink a text mode,
    append_ink b text mode, fun shows => ?_⟩
  cases emits : mode.emits with
  | false => simp [emits] at shows
  | true =>
    rw [emits, if_pos rfl] at shows
    exact ⟨append_emitted a emits shows, rfl⟩

/-- An item has the same term in both texts: outside of lists, none. -/
theorem Echo.startItem (stands : Stands inList a b) {n m : Node} (params : m.params = if inList then n.params else "") :
    Echo mode a b (a.startItem n mode) (b.startItem m mode) := by
  have same : b.termOf m mode = a.termOf n mode := by
    unfold termOf
    cases inList with
    | true => rw [stands.kind, params, if_pos rfl, if_pos rfl]
    | false =>
      have outside : a.listKind? = none := by rw [listKind?, stands.outside rfl]; rfl
      rw [params, outside, if_neg Bool.false_ne_true, ite_self]
      exact (if_neg fun both => Option.some_ne_none _ both.2.symm).symm
  refine ⟨by simpa using stands.tracker, (Behind.startItem a n mode).emitted, _, startItem_ink a n mode, ?_,
    startItem_emitted⟩
  rw [startItem_ink, same]

theorem Echo.breakParagraph (tracker : b.tracker = a.tracker) :
    Echo mode a b (a.breakParagraph mode) (b.breakParagraph mode) := by
  refine .quiet (by simpa using tracker) ?_ (breakParagraph_ink a mode) (breakParagraph_ink b mode)
  unfold Inline.breakParagraph
  split <;> rfl

theorem Echo.startTable (tracker : b.tracker = a.tracker) (inner : Mode) :
    Echo mode a b (a.startTable inner) (b.startTable inner) := by
  refine .quiet (by simpa using tracker) ?_ (startTable_ink a inner) (startTable_ink b inner)
  unfold Inline.startTable
  split <;> rfl

theorem Echo.openList (tracker : b.tracker = a.tracker) (kind : ListKind) :
    Echo mode a b (a.openList kind) (b.openList kind) :=
  .quiet tracker rfl (openList_ink a kind) (openList_ink b kind)

mutual

/-- A node is walked alike in both texts and writes the same. -/
theorem visit_loosened {rules other : InlineRules} (asText : rules.policy = .asText)
    (otherAsText : other.policy = .asText) (mode : Mode) {inList : Bool} {a b : Inline} (stands : Stands inList a b) :
    ∀ n : Node, EndsEcho mode a b (visit rules a mode n) (visit other b mode (n.loosened inList))
  | ⟨kind, overlay, params, payload, children⟩ => by
    have quiet : EndsEcho mode a b (.completed, a) (.completed, b) := ⟨rfl, .quiet stands.tracker rfl rfl rfl⟩
    have below {u v : Inline} {within : Bool} {inner : Mode} (step : Echo mode a b u v) (stands : Stands within u v)
        (weaker : inner.emits = true → mode.emits = true) :
        EndsEcho mode a b (visitAll rules u inner children) (visitAll other v inner (Node.loosenedAll within children)) :=
      .after step (visitAll_loosened asText otherAsText inner stands children) weaker
    have gate (term : String) (nodes : List Node) :
        (b.gate ⟨kind, overlay, term, payload, nodes⟩ mode).1 =
            (a.gate ⟨kind, overlay, params, payload, children⟩ mode).1 ∧
          Stands inList (a.gate ⟨kind, overlay, params, payload, children⟩ mode).2
            (b.gate ⟨kind, overlay, term, payload, nodes⟩ mode).2 := stands.gate rfl rfl mode
    cases kind with
    | text => exact ⟨rfl, .append stands.tracker _⟩
    | tableColumn => exact ⟨rfl, .append stands.tracker " "⟩
    | paragraph | tableRow => exact ⟨rfl, .breakParagraph stands.tracker⟩
    | pause =>
      simp only [visit, Node.loosened, meetPause]
      rw [stands.tracker]
      exact ⟨rfl, .quiet rfl rfl rfl rfl⟩
    | style command =>
      simp only [visit, Node.loosened]
      refine .closing (below (.quiet ?_ rfl rfl rfl) (stands.of_lists rfl rfl ?_) id) fun s t tracker => ?_
      · simp [stands.tracker]
      · simp [stands.tracker]
      · exact .quiet tracker rfl rfl rfl
    | veil | multiColumn =>
      simp only [visit, Node.loosened]
      obtain ⟨same, behind⟩ := gate params (Node.loosenedAll inList children)
      rw [same]
      exact below (.quiet behind.tracker rfl rfl rfl) behind gate_emits
    | item =>
      simp only [visit, Node.loosened]
      obtain ⟨same, behind⟩ := gate (if inList then params else "") (Node.loosenedAll inList children)
      rw [same]
      have step : Echo mode a b _ _ := .quiet behind.tracker rfl rfl rfl
      refine below (step.trans (.mono (.startItem behind rfl) gate_emits)) ?_ gate_emits
      exact behind.restored (.startItem _ _ _) (.startItem _ _ _) (by simpa using behind.tracker)
    | list kind =>
      simp only [visit, Node.loosened, defers_asText asText, defers_asText otherAsText, Bool.false_eq_true, if_false]
      obtain ⟨same, behind⟩ := gate params (Node.loosenedAll true children)
      rw [same]
      have step : Echo mode a b _ _ := .quiet behind.tracker rfl rfl rfl
      refine .closing (below (step.trans (.openList behind.tracker kind)) (.openList behind.tracker kind) gate_emits)
        fun s t tracker => ?_
      exact .quiet tracker rfl rfl rfl
    | tabular =>
      simp only [visit, Node.loosened, asText, otherAsText, reduceCtorEq, if_false]
      obtain ⟨same, behind⟩ := gate params (Node.loosenedAll inList children)
      rw [same]
      have step : Echo mode a b _ _ := .quiet behind.tracker rfl rfl rfl
      refine below (step.trans (.startTable behind.tracker _)) ?_ gate_emits
      exact behind.restored (.startTable _ _) (.startTable _ _) (by simpa using behind.tracker)
    | image =>
      simp only [visit, Node.loosened, asText, otherAsText, reduceCtorEq, if_false]
      exact ⟨rfl, .quiet (by simp [stands.tracker]) rfl rfl rfl⟩
    | titlePage =>
      simp only [visit, Node.loosened, asText, otherAsText, reduceCtorEq, if_false]
      exact quiet
    | part | unrecognized => exact below (.quiet stands.tracker rfl rfl rfl) stands id
    | titleField | graphicsPath | path | heading | frameTitle | frameSubtitle | hline | cline => exact quiet

/-- The same content in both texts writes the same but for blanks: blocks in it become text in both, and lists
that open in it close in it. -/
theorem visitAll_loosened {rules other : InlineRules} (asText : rules.policy = .asText)
    (otherAsText : other.policy = .asText) (mode : Mode) {inList : Bool} {a b : Inline} (stands : Stands inList a b) :
    ∀ nodes : List Node,
      EndsEcho mode a b (visitAll rules a mode nodes) (visitAll other b mode (Node.loosenedAll inList nodes))
  | [] => ⟨rfl, .quiet stands.tracker rfl rfl rfl⟩
  | n :: rest => by
    have first := visit_loosened asText otherAsText mode stands n
    have restored := visit_restored rules a mode n
    have restored' := visit_restored other b mode (n.loosened inList)
    rw [visitAll, Node.loosenedAll, visitAll]
    generalize visit rules a mode n = found at first restored
    generalize visit other b mode (n.loosened inList) = found' at first restored'
    obtain ⟨flow, u⟩ := found
    obtain ⟨flow', v⟩ := found'
    obtain ⟨same, echo⟩ := first
    simp only at same
    subst same
    cases flow' with
    | completed =>
      have standsLater := stands.restored (restored rfl) (restored' rfl) echo.tracker
      exact .after echo (visitAll_loosened asText otherAsText mode standsLater rest) id
    | paused => exact ⟨rfl, echo⟩

end

end Inline

end Unveil
