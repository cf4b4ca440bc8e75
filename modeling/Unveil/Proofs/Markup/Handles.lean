import Unveil.Markup.Sink
import Unveil.Proofs.Markup.Reader
import Unveil.Proofs.Output.Gives

namespace Unveil.Markup.State

open Calls

def body? (s : State) (id : Nat) : Option ShapeBody := s.shapes[id]?.map ShapeEntry.body

/-- The members of every group were made before it, so that the element of a group holds those of all its
members. -/
def MembersEarlier (s : State) : Prop :=
  ∀ id members, s.body? id = some (.group members) → ∀ member ∈ members, member < id

theorem MembersEarlier.of_body? {s t : State} (earlier : s.MembersEarlier)
    (groups : ∀ id members, t.body? id = some (.group members) → s.body? id = some (.group members)) :
    t.MembersEarlier := fun id members atId => earlier id members (groups id members atId)

theorem body?_push {s : State} {entry : ShapeEntry} {id : Nat} :
    { s with shapes := s.shapes.push entry }.body? id =
      if id = s.shapes.size then some entry.body else s.body? id := by
  simp only [body?, Array.getElem?_push]
  split <;> rfl

theorem body?_modify {s : State} {shape id : Nat} {f : ShapeEntry → ShapeEntry} :
    { s with shapes := s.shapes.modify shape f }.body? id =
      if shape = id then s.shapes[id]?.map fun entry => (f entry).body else s.body? id := by
  simp only [body?, Array.getElem?_modify]
  split <;> simp [Function.comp_def]

theorem addShape_ok {s t : State} {slide : Nat} {bounds : Rect} {hidden : Bool} {body : ShapeBody}
    {id : Option Nat} : s.addShape slide bounds hidden body = .ok (id, t) ↔
      slide < s.slides.size ∧ id = some s.shapes.size ∧
        t = { s with shapes := s.shapes.push ⟨slide, bounds, hidden, body, false⟩ } := by
  unfold addShape
  split <;> rename_i known <;> simp [known, eq_comm]

/-- A shape that is added is a group of shapes that exist, or no group at all. -/
theorem MembersEarlier.addShape {s t : State} {slide : Nat} {bounds : Rect} {hidden : Bool}
    {body : ShapeBody} {id : Option Nat} (earlier : s.MembersEarlier)
    (exist : ∀ members, body = .group members → ∀ member ∈ members, member < s.shapes.size)
    (added : s.addShape slide bounds hidden body = .ok (id, t)) : t.MembersEarlier := by
  obtain ⟨_, _, rfl⟩ := addShape_ok.mp added
  intro id members atId
  rw [body?_push] at atId
  split at atId
  · subst id
    exact exist members (Option.some.inj atId)
  · exact earlier id members atId

theorem changeBody_ok {s t : State} {shape : Nat} {f : ShapeBody → Except Fault ShapeBody}
    {id : Option Nat} : s.changeBody shape f = .ok (id, t) ↔
      id = none ∧ ∃ entry body, s.shapes[shape]? = some entry ∧ f entry.body = .ok body ∧
        t = { s with shapes := s.shapes.modify shape fun entry => { entry with body } } := by
  unfold changeBody
  rcases s.shapes[shape]? with _ | entry
  · simp
  · rcases made : f entry.body with fault | body
    · simp [Except.map, made]
    · simp [Except.map, made, eq_comm]

/-- Bodies are changed into bodies that are no groups. -/
theorem MembersEarlier.changeBody {s t : State} {shape : Nat} {f : ShapeBody → Except Fault ShapeBody}
    {id : Option Nat} (earlier : s.MembersEarlier)
    (noGroup : ∀ body members, f body ≠ .ok (.group members))
    (changed : s.changeBody shape f = .ok (id, t)) : t.MembersEarlier := by
  obtain ⟨_, entry, body, _, made, rfl⟩ := changeBody_ok.mp changed
  refine earlier.of_body? fun other members atOther => ?_
  rw [body?_modify] at atOther
  split at atOther
  · obtain ⟨_, _, same⟩ := Option.map_eq_some_iff.mp atOther
    exact absurd (made.trans (congrArg Except.ok same)) (noGroup entry.body members)
  · exact atOther

/-- A change to a text, to a cell, to a width or to the number of rows leads to no group. -/
theorem MembersEarlier.change {s t : State} {call : Call} {id : Option Nat} (earlier : s.MembersEarlier)
    (changed : s.change call = .ok (id, t)) : t.MembersEarlier := by
  have ofText {shape : Nat} {f : List ParagraphEntry → List ParagraphEntry}
      (made : s.changeText shape f = .ok (id, t)) : t.MembersEarlier := by
    refine earlier.changeBody (fun body members same => ?_) made
    cases body <;> simp at same
  have ofCell {table row col : Nat} {f : CellEntry → CellEntry}
      (made : s.changeCell table row col f = .ok (id, t)) : t.MembersEarlier := by
    refine earlier.changeBody (fun body members same => ?_) made
    cases body with
    | table widths rows =>
      dsimp only at same
      split at same <;> cases same
    | _ => cases same
  have ofWidth {table col : Nat} {width : Float32}
      (made : s.setWidth table col width = .ok (id, t)) : t.MembersEarlier := by
    refine earlier.changeBody (fun body members same => ?_) made
    cases body with
    | table widths rows =>
      dsimp only at same
      split at same <;> cases same
    | _ => cases same
  have ofRows {table count : Nat} (made : s.keepRows table count = .ok (id, t)) : t.MembersEarlier := by
    refine earlier.changeBody (fun body members same => ?_) made
    cases body <;> simp at same
  cases call with
  | slide slide pass =>
    cases changed
    exact earlier
  | text slide bounds hidden => exact earlier.addShape (fun _ same => by cases same) changed
  | paragraph shape p => exact ofText changed
  | run shape run => exact ofText changed
  | image slide path bounds hidden => exact earlier.addShape (fun _ same => by cases same) changed
  | table slide rows cols bounds hidden => exact earlier.addShape (fun _ same => by cases same) changed
  | columnWidth table col width => exact ofWidth changed
  | cellParagraph table row col p => exact ofCell changed
  | cellRun table row col run => exact ofCell changed
  | border table row col side visible => exact ofCell changed
  | merge table row col span => exact ofCell changed
  | keepRows table count => exact ofRows changed
  | group slide members =>
    cases changed
    exact earlier
  | finish format =>
    cases changed
    exact earlier

def mark (s : State) (id : Nat) : State :=
  { s with shapes := s.shapes.modify id fun entry => { entry with grouped := true } }

/-- A shape that exists is marked, and the bounds grow by its own. -/
theorem markGrouped_cons {s : State} {id : Nat} {entry : ShapeEntry} (atId : s.shapes[id]? = some entry)
    (bounds : Option Rect) (rest : List Nat) :
    s.markGrouped bounds (id :: rest) =
      (s.mark id).markGrouped (some ((bounds.map fun b => b.union entry.bounds).getD entry.bounds)) rest := by
  rw [markGrouped, atId]
  cases bounds <;> rfl

theorem mark_body? (s : State) (id other : Nat) : (s.mark id).body? other = s.body? other := by
  rw [mark, body?_modify]
  split <;> rfl

theorem mark_size (s : State) (id : Nat) : (s.mark id).shapes.size = s.shapes.size := Array.size_modify

/-- Marks change no bodies, and all are made only when every shape exists. -/
theorem markGrouped_body? (s : State) (bounds : Option Rect) (ids : List Nat) :
    (∀ id, (s.markGrouped bounds ids).2.body? id = s.body? id) ∧
      (s.markGrouped bounds ids).2.shapes.size = s.shapes.size ∧
      ∀ around, (s.markGrouped bounds ids).1 = .ok around → ∀ id ∈ ids, id < s.shapes.size := by
  induction ids generalizing s bounds with
  | nil => exact ⟨fun _ => rfl, rfl, fun _ _ _ inNil => nomatch inNil⟩
  | cons id rest ih =>
    rcases atId : s.shapes[id]? with _ | entry
    · rw [markGrouped, atId]
      exact ⟨fun _ => rfl, rfl, fun _ same => by cases same⟩
    · obtain ⟨bodies, size, exist⟩ := ih (s.mark id)
        (some ((bounds.map fun b => b.union entry.bounds).getD entry.bounds))
      rw [mark_size] at size exist
      rw [markGrouped_cons atId]
      refine ⟨fun other => by rw [bodies, mark_body?], size, fun around ok => ?_⟩
      exact List.forall_mem_cons.mpr ⟨(Array.getElem?_eq_some_iff.mp atId).1, exist around ok⟩

/-- A group is accepted if all its members exist, and so does its slide. -/
theorem group_ok {s t : State} {slide : Nat} {members : List Nat} {id : Option Nat} :
    s.group slide members = (.ok id, t) ↔
      ∃ around marked, s.markGrouped none members = (.ok around, marked) ∧
        marked.addShape slide (around.getD .zero) false (.group members) = .ok (id, t) := by
  unfold State.group
  rcases s.markGrouped none members with ⟨fault | around, marked⟩
  · simp
  · rcases added : marked.addShape slide (around.getD .zero) false (.group members) with fault | ⟨made, u⟩
    · simp [added]
    · simp [added]

/-- A group is made of shapes that exist. -/
theorem MembersEarlier.group {s t : State} {slide : Nat} {members : List Nat} {id : Option Nat}
    (earlier : s.MembersEarlier) (grouped : s.group slide members = (.ok id, t)) : t.MembersEarlier := by
  obtain ⟨around, marked, found, added⟩ := group_ok.mp grouped
  obtain ⟨bodies, size, exist⟩ := markGrouped_body? s none members
  rw [found] at bodies size exist
  have atMarked : marked.MembersEarlier := earlier.of_body? fun id _ atId => (bodies id).symm.trans atId
  refine atMarked.addShape (fun _ same => ?_) added
  cases same
  exact fun member inMembers => size.symm ▸ exist around rfl member inMembers

theorem sink_group {s t : State} {slide : Nat} {members : List Nat} {id : Option Nat} :
    sink s (.group slide members) = (.ok id, t) ↔ s.group slide members = (.ok id, t) := by
  unfold sink
  dsimp only
  rcases s.group slide members with ⟨fault | made, u⟩ <;> simp

/-- Calls other than those for groups do all or nothing. -/
theorem sink_of_error {s : State} {call : Call} {fault : Fault}
    (noGroup : ∀ slide members, call ≠ .group slide members) (refused : s.change call = .error fault) :
    sink s call = (.error (.sink fault.message), s) := by
  cases call with
  | group slide members => exact absurd rfl (noGroup slide members)
  | _ => simp only [sink, refused]

theorem sink_change {s t : State} {call : Call} {id : Option Nat}
    (noGroup : ∀ slide members, call ≠ .group slide members) :
    sink s call = (.ok id, t) ↔ s.change call = .ok (id, t) := by
  rcases changed : s.change call with fault | ⟨made, u⟩
  · simp [sink_of_error noGroup changed]
  · have answer : sink s call = (.ok made, u) := by
      cases call with
      | group slide members => exact absurd rfl (noGroup slide members)
      | _ => simp only [sink, changed]
    simp [answer]

/-- A call that is accepted keeps the order of groups and members. -/
theorem MembersEarlier.step {s t : State} {call : Call} {id : Option Nat} (earlier : s.MembersEarlier)
    (accepted : sink s call = (.ok id, t)) : t.MembersEarlier := by
  by_cases isGroup : ∃ slide members, call = .group slide members
  · obtain ⟨slide, members, rfl⟩ := isGroup
    exact earlier.group (sink_group.mp accepted)
  · exact earlier.change ((sink_change fun slide members same => isGroup ⟨slide, members, same⟩).mp accepted)

/-- However many calls are accepted, members come before their groups. -/
theorem MembersEarlier.run {s t : State} {calls : List Call} (earlier : s.MembersEarlier)
    (accepted : Gives (forEach (tell sink) calls) s () t) : t.MembersEarlier :=
  accepted.forEach_keeps (fun _ _ _ _ before given => before.step (gives_tell.mp given).choose_spec) earlier

end Unveil.Markup.State
