import Unveil.Proofs.Markup.Handles

namespace Unveil.Markup

open Calls

namespace ShapeEntry

/-- The handles that a group holds; other shapes hold none. -/
def members (entry : ShapeEntry) : List Nat :=
  match entry.body with
  | .group members => members
  | _ => []

/-- The element of a shape, of which the elements of the members are known. -/
def element (entry : ShapeEntry) (inside : List Element) : Element :=
  let attributes := State.boundsAttributes entry.bounds entry.hidden
  match entry.body with
  | .text paragraphs => .node "text" attributes (paragraphs.map State.paragraphElement)
  | .image path => .empty "image" (attributes ++ [("src", path)])
  | .table widths rows =>
    .node "table" (attributes ++ [("columns", " ".intercalate (widths.map Numeral.oneDecimal))])
      (rows.map State.rowElement)
  | .group _ => .node "group" attributes inside

end ShapeEntry

namespace State

theorem shapeElement_eq_none {s : State} {id : Nat} : s.shapeElement id = none ↔ s.shapes.size ≤ id := by
  rw [shapeElement, Option.map_eq_none_iff, Array.getElem?_eq_none_iff]

/-- The element of a shape looks at the elements of shapes before it only. -/
theorem shapeElement_step (s : State) (id : Nat) :
    s.shapeElement id = s.shapes[id]?.map fun entry => entry.element (entry.members.filterMap fun member =>
      if member < id then s.shapeElement member else none) := by
  rw [shapeElement]
  congr
  funext ⟨slide, bounds, hidden, body, grouped⟩
  cases body <;> rfl

/-- The element of a shape is made of those of all its members. -/
theorem shapeElement_eq {s : State} (earlier : s.MembersEarlier) {id : Nat} {entry : ShapeEntry}
    (atId : s.shapes[id]? = some entry) :
    s.shapeElement id = some (entry.element (entry.members.filterMap s.shapeElement)) := by
  have below : ∀ member ∈ entry.members,
      (if member < id then s.shapeElement member else none) = s.shapeElement member := by
    intro member inside
    refine if_pos ?_
    unfold ShapeEntry.members at inside
    split at inside
    · rename_i members isGroup
      exact earlier id members (by rw [body?, atId, ← isGroup]; rfl) member inside
    · cases inside
  rw [shapeElement_step, atId, Option.map_some, List.filterMap_congr below]

/-- Every member of a group has an element of its own. -/
theorem map_shapeElement {s : State} {ids : List Nat} (exist : ∀ id ∈ ids, id < s.shapes.size) :
    ids.map s.shapeElement = (ids.filterMap s.shapeElement).map some := by
  induction ids with
  | nil => rfl
  | cons id rest ih =>
    obtain ⟨here, later⟩ := List.forall_mem_cons.mp exist
    rcases element : s.shapeElement id with _ | e
    · exact absurd (shapeElement_eq_none.mp element) (by omega)
    · rw [List.map_cons, List.filterMap_cons_some element, ih later, element, List.map_cons]

/-- The shapes up to a shape, marks aside, say what its element is. -/
theorem shapeElement_congr {s t : State} {count : Nat}
    (same : ∀ id < count, s.shapes[id]?.map (fun e => { e with grouped := false }) =
      t.shapes[id]?.map fun e => { e with grouped := false }) :
    ∀ id < count, s.shapeElement id = t.shapeElement id := by
  intro id
  induction id using Nat.strongRecOn with
  | ind id ih =>
    intro inside
    have members : (fun member => if member < id then s.shapeElement member else none) =
        fun member => if member < id then t.shapeElement member else none := by
      funext member
      split
      · rename_i below
        exact ih member below (below.trans inside)
      · rfl
    have unmarked := congrArg (Option.map fun entry : ShapeEntry =>
      entry.element (entry.members.filterMap fun member => if member < id then s.shapeElement member else none))
      (same id inside)
    rw [Option.map_map, Option.map_map] at unmarked
    rw [shapeElement_step s, shapeElement_step t, ← members]
    exact unmarked

theorem finish_deckElement (s : State) : s.finish.deckElement = s.deckElement := by
  have shape : s.finish.shapeElement = s.shapeElement :=
    funext fun id => shapeElement_congr (s := s.finish) (t := s) (fun _ _ => rfl) id (Nat.lt_succ_self id)
  have slide : s.finish.slideElement = s.slideElement := by
    funext id entry
    rw [slideElement, slideElement, shape]
    rfl
  rw [deckElement, deckElement, slide]
  rfl

/-- The names of all attributes are names. -/
def Named (attributes : List Attribute) : Prop := ∀ a ∈ attributes, isName a.1 = true

theorem Named.append {attributes more : List Attribute} (first : Named attributes) (later : Named more) :
    Named (attributes ++ more) := List.forall_mem_append.mpr ⟨first, later⟩

theorem Named.single {key value : String} (name : isName key = true) : Named [(key, value)] := by
  simpa [Named] using name

theorem Named.nil : Named [] := nofun

theorem Named.flag {name : String} (plain : isName name = true) (on : Bool) : Named (flag name on) := by
  cases on
  · exact .nil
  · exact .single plain

theorem Named.ite {p : Prop} [Decidable p] {attributes more : List Attribute} (first : Named attributes)
    (other : Named more) : Named (if p then attributes else more) := by
  split
  · exact first
  · exact other

theorem boundsAttributes_named (r : Rect) (hidden : Bool) : Named (boundsAttributes r hidden) := by
  refine .append ?_ (.ite (.single (by decide)) .nil)
  simp only [Named, List.forall_mem_cons]
  decide

theorem runElement_plain (r : Run) : (runElement r).Plain := by
  have face : Named [("font", r.face.font), ("size", Numeral.oneDecimal r.face.size),
      ("color", r.face.color.toHex)] := by
    simp only [Named, List.forall_mem_cons]
    decide
  exact ⟨⟨by decide, ((((face.append (.flag (by decide) _)).append (.flag (by decide) _)).append
    (.flag (by decide) _)).append (.flag (by decide) _)).append (.flag (by decide) _)⟩, rfl⟩

theorem plain_node {name : String} {attributes : List Attribute} {children : List Element}
    (plain : isName name = true ∧ holdsText name = false) (named : Named attributes)
    (below : ∀ e ∈ children, e.Plain) : (Element.node name attributes children).Plain :=
  ⟨⟨plain.1, named⟩, plain.2, Element.plainAll_iff.mpr below⟩

theorem paragraphElement_plain (p : ParagraphEntry) : (paragraphElement p).Plain := by
  have bullet : Named (bulletAttributes p.bullet) := by
    rcases p.bullet with _ | ⟨label, hidden⟩
    · exact .nil
    · exact .append (.single (by decide) : Named [("bullet", label)]) (.flag (by decide) hidden)
  refine plain_node (by decide) (.append (.append (.ite (.single (by decide)) .nil)
    (.ite .nil (.single (by decide)))) bullet) ?_
  exact List.forall_mem_map.mpr fun r _ => runElement_plain r

theorem cellElement_plain (c : CellEntry) : (cellElement c).Plain :=
  plain_node (by decide) (.append (.ite (.single (by decide)) .nil) (.ite .nil (.single (by decide))))
    (List.forall_mem_map.mpr fun p _ => paragraphElement_plain p)

theorem rowElement_plain (cells : List CellEntry) : (rowElement cells).Plain :=
  plain_node (by decide) .nil (List.forall_mem_map.mpr fun c _ => cellElement_plain c)

theorem element_plain (entry : ShapeEntry) {inside : List Element} (below : ∀ e ∈ inside, e.Plain) :
    (entry.element inside).Plain := by
  have bounds := boundsAttributes_named entry.bounds entry.hidden
  unfold ShapeEntry.element
  dsimp only
  split
  · exact plain_node (by decide) bounds (List.forall_mem_map.mpr fun p _ => paragraphElement_plain p)
  · exact ⟨by decide, bounds.append (.single (by decide))⟩
  · exact plain_node (by decide) (bounds.append (.single (by decide)))
      (List.forall_mem_map.mpr fun cells _ => rowElement_plain cells)
  · exact plain_node (by decide) bounds below

theorem shapeElement_plain {s : State} (earlier : s.MembersEarlier) (id : Nat) {e : Element}
    (atId : s.shapeElement id = some e) : e.Plain := by
  induction id using Nat.strongRecOn generalizing e with
  | ind id ih =>
    rcases found : s.shapes[id]? with _ | entry
    · rw [shapeElement, found] at atId
      cases atId
    · rw [shapeElement_eq earlier found] at atId
      cases atId
      refine element_plain entry fun e inside => ?_
      obtain ⟨member, isMember, atMember⟩ := List.mem_filterMap.mp inside
      refine ih member ?_ atMember
      rcases entry with ⟨slide, bounds, hidden, _ | _ | _ | members, grouped⟩
      · cases isMember
      · cases isMember
      · cases isMember
      · exact earlier id members (by rw [body?, found]; rfl) member isMember

/-- All names in the markup are names, and texts stand in the elements that hold texts. -/
theorem deckElement_plain {s : State} (earlier : s.MembersEarlier) : s.deckElement.Plain := by
  refine plain_node (by decide) (.single (by decide)) (List.forall_mem_map.mpr fun ⟨entry, id⟩ _ => ?_)
  refine plain_node (by decide) (.append ?_ ?_) fun e inside => ?_
  · simp only [Named, List.forall_mem_cons]
    decide
  · rcases entry.digest with _ | digest
    · exact .nil
    · exact .single (by decide)
  · obtain ⟨shape, _, atShape⟩ := List.mem_filterMap.mp inside
    exact shapeElement_plain earlier shape atShape

/-- Whatever calls are accepted and then finished, the members of a group come before it and all have
their elements in the group's, and the text reads back as the element of everything received: its tags
are nested, no angle or quote stands in a value, no angle in a text, and what was written for values and
texts is undone. -/
theorem finished_readable (config : Config) (calls : List Call) (format : SaveFormat) {s : State}
    (accepted : Gives (forEach (tell sink) (calls ++ [.finish format])) (ofConfig config) () s) :
    (∀ id entry members, s.shapes[id]? = some entry → entry.body = .group members →
      (∀ member ∈ members, member < id) ∧
        ∃ elements, members.map s.shapeElement = elements.map some ∧
          s.shapeElement id =
            some (.node "group" (boundsAttributes entry.bounds entry.hidden) elements)) ∧
      ∃ tokens, scan s.output.toList = some tokens ∧ (∀ t ∈ tokens, t.Clean) ∧
        Element.ofTokens? tokens = some s.deckElement := by
  have start : (ofConfig config).MembersEarlier := by
    intro id members atId
    cases atId
  have earlier : s.MembersEarlier := start.run accepted
  refine ⟨fun id entry members atId isGroup => ?_, ?_⟩
  · have below : ∀ member ∈ members, member < id := earlier id members (by rw [body?, atId, ← isGroup]; rfl)
    have size := (Array.getElem?_eq_some_iff.mp atId).1
    refine ⟨below, members.filterMap s.shapeElement,
      map_shapeElement fun member inside => (below member inside).trans size, ?_⟩
    rw [shapeElement_eq earlier atId, ShapeEntry.element, ShapeEntry.members, isGroup]
  · obtain ⟨t, _, last⟩ := gives_forEach_append.mp accepted
    obtain ⟨_, finished, same⟩ := gives_forEach_cons.mp last
    obtain ⟨_, made⟩ := gives_tell.mp finished
    have written : s = t.finish := by
      rw [← gives_forEach_nil.mp same]
      exact (Prod.mk.inj made).2.symm
    have printed : s.output = Element.printed t.config.pretty s.deckElement := by
      rw [written, finish_deckElement]
      rfl
    rw [printed]
    exact Element.scan_printed _ (deckElement_plain earlier)

/-- A text that looks like a tag and an entity, in a group. -/
def groupedQuote : List Call :=
  [.slide ⟨1, .top, []⟩ ⟨1, 1, none, []⟩, .text 0 .zero false, .paragraph 0 (.empty 12),
    .run 0 ⟨"</run> &amp; \"quoted\"", .plain 12, false⟩, .group 0 [0]]

theorem finished_readable_groupedQuote :
    ∃ s, Gives (forEach (tell sink) (groupedQuote ++ [.finish .markup])) (ofConfig .debug) () s ∧
      (∃ elements : List Element, [0].map s.shapeElement = elements.map some) ∧
      ∃ tokens, scan s.output.toList = some tokens ∧ Element.ofTokens? tokens = some s.deckElement := by
  refine ⟨_, rfl, ?_⟩
  obtain ⟨groups, tokens, scanned, _, built⟩ := finished_readable .debug groupedQuote .markup rfl
  obtain ⟨_, elements, all, _⟩ := groups 1 _ [0] rfl rfl
  exact ⟨⟨elements, all⟩, tokens, scanned, built⟩

end State

end Unveil.Markup
