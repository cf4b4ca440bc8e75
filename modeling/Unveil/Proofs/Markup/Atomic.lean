import Unveil.Proofs.Markup.Emitted
import Unveil.Proofs.Markup.Finished

namespace Unveil.Markup.State

variable {s t : State} {ids : List Nat}

/-- The answers to a series of calls, accepted or refused. -/
def answers (s : State) : List Call → List Answer
  | [] => []
  | call :: rest => (sink s call).1 :: (sink s call).2.answers rest

/-- The receiver after a series of calls, accepted or refused. -/
def after (s : State) (calls : List Call) : State := calls.foldl (fun s call => (sink s call).2) s

/-- The shapes that a group marks before one of its members is missing. -/
def marks (s : State) : Call → List Nat
  | .group _ members => members.takeWhile (· < s.shapes.size)
  | _ => []

theorem sink_group_eq (s : State) (slide : Nat) (members : List Nat) :
    sink s (.group slide members) =
      ((s.group slide members).1.mapError fun fault => .sink fault.message, (s.group slide members).2) := by
  unfold sink
  dsimp only
  rcases s.group slide members with ⟨fault | id, u⟩ <;> rfl

/-- A call other than for a slide, a group or a finish adds a shape or changes the body of one. -/
theorem change_cases (call : Call) :
    (∃ slide pass, call = .slide slide pass) ∨ (∃ slide members, call = .group slide members) ∨
      (∃ format, call = .finish format) ∨
      (∃ slide bounds hidden body, ∀ s : State, s.change call = s.addShape slide bounds hidden body) ∨
      ∃ shape f, ∀ s : State, s.change call = s.changeBody shape f := by
  have text {f : List ParagraphEntry → List ParagraphEntry} {shape : Nat}
      (asked : ∀ s : State, s.change call = s.changeText shape f) :
      ∃ shape f, ∀ s : State, s.change call = s.changeBody shape f := ⟨shape, _, asked⟩
  have cell {f : CellEntry → CellEntry} {table row col : Nat}
      (asked : ∀ s : State, s.change call = s.changeCell table row col f) :
      ∃ shape f, ∀ s : State, s.change call = s.changeBody shape f := ⟨table, _, asked⟩
  have width {table col : Nat} {width : Float32} (asked : ∀ s : State, s.change call = s.setWidth table col width) :
      ∃ shape f, ∀ s : State, s.change call = s.changeBody shape f := ⟨table, _, asked⟩
  have rows {table count : Nat} (asked : ∀ s : State, s.change call = s.keepRows table count) :
      ∃ shape f, ∀ s : State, s.change call = s.changeBody shape f := ⟨table, _, asked⟩
  cases call with
  | slide slide pass => exact .inl ⟨slide, pass, rfl⟩
  | group slide members => exact .inr (.inl ⟨slide, members, rfl⟩)
  | finish format => exact .inr (.inr (.inl ⟨format, rfl⟩))
  | text slide bounds hidden | image slide path bounds hidden | table slide rows cols bounds hidden =>
    exact .inr (.inr (.inr (.inl ⟨slide, bounds, hidden, _, fun _ => rfl⟩)))
  | paragraph shape p | run shape run => exact .inr (.inr (.inr (.inr (text fun _ => rfl))))
  | columnWidth table col size => exact .inr (.inr (.inr (.inr (width fun _ => rfl))))
  | keepRows table count => exact .inr (.inr (.inr (.inr (rows fun _ => rfl))))
  | cellParagraph table row col p | cellRun table row col run | border table row col side visible
  | merge table row col span => exact .inr (.inr (.inr (.inr (cell fun _ => rfl))))

theorem group_or_noGroup (call : Call) :
    (∃ slide members, call = .group slide members) ∨ ∀ slide members, call ≠ .group slide members := by
  by_cases isGroup : ∃ slide members, call = .group slide members
  · exact .inl isGroup
  · exact .inr fun slide members same => isGroup ⟨slide, members, same⟩

/-- Receivers that differ in marks on some shapes only, and in the text of the last finish. A group that is
refused leaves such marks. -/
structure Strays (s : State) (ids : List Nat) (t : State) : Prop where
  config : t.config = s.config
  slides : t.slides = s.slides
  size : t.shapes.size = s.shapes.size
  entries : ∀ id, t.shapes[id]? = s.shapes[id]?.map fun e => if id ∈ ids then { e with grouped := true } else e
  known : ∀ id ∈ ids, id < s.shapes.size

/-- Changes that are refused alike, or leave receivers that differ in marks only. -/
inductive Alike (ids : List Nat) : Change → Change → Prop
  | refused (fault : Fault) : Alike ids (.error fault) (.error fault)
  | made (id : Option Nat) {s t : State} (strays : Strays s ids t) : Alike ids (.ok (id, s)) (.ok (id, t))

namespace Strays

theorem addSlide (strays : Strays s ids t) (slide : ComposedSlide) (pass : Pass) :
    Alike ids (s.addSlide slide pass) (t.addSlide slide pass) := by
  unfold State.addSlide
  rw [strays.config, strays.slides]
  exact .made _ ⟨rfl, rfl, strays.size, strays.entries, strays.known⟩

theorem addShape (strays : Strays s ids t) (slide : Nat) (bounds : Rect) (hidden : Bool) (body : ShapeBody) :
    Alike ids (s.addShape slide bounds hidden body) (t.addShape slide bounds hidden body) := by
  unfold State.addShape
  rw [strays.slides, strays.size]
  split
  · refine .made _ ⟨strays.config, rfl, by simp [strays.size], fun id => ?_, fun id inside => ?_⟩
    · simp only [Array.getElem?_push, strays.size, strays.entries id]
      split
      · rename_i last
        have fresh : id ∉ ids := fun inside => absurd (strays.known id inside) (by omega)
        simp [fresh]
      · rfl
    · rw [Array.size_push]
      exact Nat.lt_succ_of_lt (strays.known id inside)
  · exact .refused _

/-- What is done to an entry, marks aside, is done to both. -/
theorem modify (strays : Strays s ids t) (shape : Nat) {f : ShapeEntry → ShapeEntry}
    (blind : ∀ e : ShapeEntry, f { e with grouped := true } = { f e with grouped := true }) :
    Strays { s with shapes := s.shapes.modify shape f } ids { t with shapes := t.shapes.modify shape f } := by
  refine ⟨strays.config, strays.slides, by simp [strays.size], fun id => ?_, fun id inside => ?_⟩
  · simp only [Array.getElem?_modify, strays.entries id]
    rcases s.shapes[id]? with _ | e
    · simp
    · by_cases here : shape = id <;> by_cases inside : id ∈ ids <;> simp [here, inside, blind]
  · rw [Array.size_modify]
    exact strays.known id inside

theorem changeBody (strays : Strays s ids t) (shape : Nat) (f : ShapeBody → Except Fault ShapeBody) :
    Alike ids (s.changeBody shape f) (t.changeBody shape f) := by
  unfold State.changeBody
  rw [strays.entries]
  rcases s.shapes[shape]? with _ | entry
  · exact .refused _
  · have body : (if shape ∈ ids then { entry with grouped := true } else entry).body = entry.body := by
      split <;> rfl
    simp only [Option.map_some, body]
    rcases f entry.body with fault | body
    · exact .refused fault
    · exact .made none (strays.modify shape fun _ => rfl)

theorem finish (strays : Strays s ids t) : Strays s.finish ids t.finish :=
  ⟨strays.config, strays.slides, strays.size, strays.entries, strays.known⟩

theorem change (strays : Strays s ids t) (call : Call) : Alike ids (s.change call) (t.change call) := by
  rcases change_cases call with ⟨slide, pass, rfl⟩ | ⟨slide, members, rfl⟩ | ⟨format, rfl⟩ |
    ⟨slide, bounds, hidden, body, asked⟩ | ⟨shape, f, asked⟩
  · exact strays.addSlide slide pass
  · exact .made none strays
  · exact .made none strays.finish
  · rw [asked, asked]
    exact strays.addShape slide bounds hidden body
  · rw [asked, asked]
    exact strays.changeBody shape f

theorem markGrouped (strays : Strays s ids t) (bounds : Option Rect) (members : List Nat) :
    (t.markGrouped bounds members).1 = (s.markGrouped bounds members).1 ∧
      Strays (s.markGrouped bounds members).2 ids (t.markGrouped bounds members).2 := by
  induction members generalizing s t bounds with
  | nil => exact ⟨rfl, strays⟩
  | cons id rest ih =>
    have atId := strays.entries id
    rcases found : s.shapes[id]? with _ | entry
    · rw [found] at atId
      rw [State.markGrouped, State.markGrouped, found, atId]
      exact ⟨rfl, strays⟩
    · rw [found, Option.map_some] at atId
      have frame : (if id ∈ ids then { entry with grouped := true } else entry).bounds = entry.bounds := by
        split <;> rfl
      rw [markGrouped_cons found, markGrouped_cons atId, frame]
      exact ih (strays.modify id fun _ => rfl) _

theorem group (strays : Strays s ids t) (slide : Nat) (members : List Nat) :
    (t.group slide members).1 = (s.group slide members).1 ∧
      Strays (s.group slide members).2 ids (t.group slide members).2 := by
  obtain ⟨same, marked⟩ := strays.markGrouped none members
  unfold State.group
  rcases first : s.markGrouped none members with ⟨bounds, u⟩
  rcases second : t.markGrouped none members with ⟨others, v⟩
  rw [first, second] at same marked
  obtain rfl : others = bounds := same
  rcases others with fault | bounds
  · exact ⟨rfl, marked⟩
  · have added := marked.addShape slide (bounds.getD .zero) false (.group members)
    dsimp only
    generalize u.addShape slide (bounds.getD .zero) false (.group members) = one at added
    generalize v.addShape slide (bounds.getD .zero) false (.group members) = other at added
    cases added with
    | refused fault => exact ⟨rfl, marked⟩
    | made id grown => exact ⟨rfl, grown⟩

/-- A call is answered alike, and marks stay the only difference. -/
theorem sink (strays : Strays s ids t) (call : Call) :
    (sink t call).1 = (sink s call).1 ∧ Strays (sink s call).2 ids (sink t call).2 := by
  rcases group_or_noGroup call with ⟨slide, members, rfl⟩ | noGroup
  · obtain ⟨same, grouped⟩ := strays.group slide members
    rw [sink_group_eq, sink_group_eq, same]
    exact ⟨rfl, grouped⟩
  · have alike := strays.change call
    generalize one : s.change call = first at alike
    generalize other : t.change call = second at alike
    cases alike with
    | refused fault =>
      rw [sink_of_error noGroup one, sink_of_error noGroup other]
      exact ⟨rfl, strays⟩
    | made id changed =>
      rw [(sink_change noGroup).mpr one, (sink_change noGroup).mpr other]
      exact ⟨rfl, changed⟩

/-- A series of calls is answered alike. -/
theorem run (strays : Strays s ids t) (calls : List Call) :
    t.answers calls = s.answers calls ∧ Strays (s.after calls) ids (t.after calls) := by
  induction calls generalizing s t with
  | nil => exact ⟨rfl, strays⟩
  | cons call rest ih =>
    obtain ⟨answer, strays⟩ := strays.sink call
    obtain ⟨later, ended⟩ := ih strays
    exact ⟨by rw [answers, answers, answer, later], ended⟩

end Strays

/-- What is marked before a member is missing. -/
theorem markGrouped_marked (s : State) (bounds : Option Rect) (members : List Nat) :
    Marked s (members.takeWhile (· < s.shapes.size)) (s.markGrouped bounds members).2 := by
  induction members generalizing s bounds with
  | nil => exact ⟨rfl, rfl, fun id => by simp [markGrouped]⟩
  | cons id rest ih =>
    rcases found : s.shapes[id]? with _ | entry
    · have missing := Array.getElem?_eq_none_iff.mp found
      rw [markGrouped, found, List.takeWhile_cons_of_neg (by simpa using missing)]
      exact ⟨rfl, rfl, fun id => by simp⟩
    · have bound := (Array.getElem?_eq_some_iff.mp found).1
      have later := ih (s.mark id) (some ((bounds.map fun b => b.union entry.bounds).getD entry.bounds))
      rw [mark_size] at later
      rw [markGrouped_cons found, List.takeWhile_cons_of_pos (by simpa using bound)]
      exact (mark_marked s id).cons later

/-- A call that is refused leaves marks, and nothing else. -/
theorem marked_of_refused {call : Call} {error : DeckError} (refused : sink s call = (.error error, t)) :
    Marked s (s.marks call) t := by
  rcases group_or_noGroup call with ⟨slide, members, rfl⟩ | noGroup
  · have marked := markGrouped_marked s none members
    rw [sink_group_eq, State.group] at refused
    rcases found : s.markGrouped none members with ⟨fault | bounds, u⟩ <;> rw [found] at refused marked
    · obtain ⟨_, rfl⟩ := Prod.mk.inj refused
      exact marked
    · dsimp only at refused
      rcases added : u.addShape slide (bounds.getD .zero) false (.group members) with fault | ⟨id, v⟩
      · rw [added] at refused
        obtain ⟨_, rfl⟩ := Prod.mk.inj refused
        exact marked
      · rw [added] at refused
        cases refused
  · have unmarked : s.marks call = [] := by
      cases call with
      | group slide members => exact absurd rfl (noGroup slide members)
      | _ => rfl
    rcases changed : s.change call with fault | ⟨id, u⟩
    · rw [sink_of_error noGroup changed] at refused
      obtain ⟨_, rfl⟩ := Prod.mk.inj refused
      rw [unmarked]
      exact ⟨rfl, rfl, fun id => by simp⟩
    · rw [(sink_change noGroup).mpr changed] at refused
      cases refused

theorem marks_lt {call : Call} : ∀ id ∈ s.marks call, id < s.shapes.size := by
  intro id inside
  cases call with
  | group slide members => simpa using List.mem_takeWhile_imp inside
  | _ => cases inside

/-- A call that is refused leaves a receiver that differs in marks only. -/
theorem strays_of_refused {call : Call} {error : DeckError} (refused : sink s call = (.error error, t)) :
    Strays s (s.marks call) t := by
  have marked := marked_of_refused refused
  exact ⟨by rw [marked.rest], by rw [marked.rest], marked.size, marked.entries, marks_lt⟩

/-- All that a call other than for a group can change. -/
inductive Changed (s : State) : State → Prop
  | slide (entry : SlideEntry) : Changed s { s with slides := s.slides.push entry }
  | shape {slide : Nat} (known : slide < s.slides.size) (bounds : Rect) (hidden : Bool) (body : ShapeBody) :
    Changed s (s.adding ⟨slide, bounds, hidden, body, false⟩)
  | body (shape : Nat) (body : ShapeBody) :
    Changed s { s with shapes := s.shapes.modify shape fun entry => { entry with body } }
  | output (output : String) : Changed s { s with output }

theorem change_changed {call : Call} {id : Option Nat} (changed : s.change call = .ok (id, t)) : Changed s t := by
  rcases change_cases call with ⟨slide, pass, rfl⟩ | ⟨slide, members, rfl⟩ | ⟨format, rfl⟩ |
    ⟨slide, bounds, hidden, body, asked⟩ | ⟨shape, f, asked⟩
  · cases changed
    exact .slide _
  · cases changed
    exact .output s.output
  · cases changed
    exact .output _
  · rw [asked] at changed
    obtain ⟨known, _, rfl⟩ := addShape_ok.mp changed
    exact .shape known bounds hidden body
  · rw [asked] at changed
    obtain ⟨_, _, body, _, _, rfl⟩ := changeBody_ok.mp changed
    exact .body shape body

/-- Members come before their groups, and shapes stand on slides that exist. -/
structure Sound (s : State) : Prop where
  earlier : s.MembersEarlier
  placed : ∀ (id : Nat) (entry : ShapeEntry), s.shapes[id]? = some entry → entry.slide < s.slides.size

namespace Sound

theorem ofConfig (config : Config) : (ofConfig config).Sound :=
  ⟨fun _ _ atId => (by cases atId), fun _ _ atId => by cases atId⟩

theorem marked (sound : s.Sound) (marked : Marked s ids t) : t.Sound where
  earlier := sound.earlier.of_body? fun id members atId => by
    rw [← atId, body?, body?]
    exact (marked.map_eq (fun _ => rfl) id).symm
  placed id entry atId := by
    rw [marked.entries] at atId
    obtain ⟨old, atOld, rfl⟩ := Option.map_eq_some_iff.mp atId
    have known := sound.placed id old atOld
    rw [marked.rest]
    split <;> exact known

theorem adding (sound : s.Sound) {slide : Nat} (known : slide < s.slides.size) (bounds : Rect) (hidden : Bool)
    (body : ShapeBody) (id : Nat) (entry : ShapeEntry)
    (atId : (s.adding ⟨slide, bounds, hidden, body, false⟩).shapes[id]? = some entry) :
    entry.slide < s.slides.size := by
  rw [State.adding, Array.getElem?_push] at atId
  split at atId
  · cases atId
    exact known
  · exact sound.placed id entry atId

theorem changed (sound : s.Sound) (changed : Changed s t) (id : Nat) (entry : ShapeEntry)
    (atId : t.shapes[id]? = some entry) : entry.slide < t.slides.size := by
  cases changed with
  | slide other =>
    rw [Array.size_push]
    exact Nat.lt_succ_of_lt (sound.placed id entry atId)
  | shape known bounds hidden body => exact sound.adding known bounds hidden body id entry atId
  | body shape body =>
    rw [Array.getElem?_modify] at atId
    split at atId
    · obtain ⟨old, atOld, rfl⟩ := Option.map_eq_some_iff.mp atId
      exact sound.placed id old atOld
    · exact sound.placed id entry atId
  | output output => exact sound.placed id entry atId

/-- A call keeps the members before their groups, accepted or refused. -/
theorem call (sound : s.Sound) (call : Call) : (sink s call).2.Sound := by
  rcases answered : sink s call with ⟨error | id, t⟩
  · exact sound.marked (marked_of_refused answered)
  · refine ⟨sound.earlier.step answered, ?_⟩
    rcases group_or_noGroup call with ⟨slide, members, rfl⟩ | noGroup
    · obtain ⟨around, u, found, added⟩ := group_ok.mp (sink_group.mp answered)
      have marked := markGrouped_marked s none members
      rw [found] at marked
      obtain ⟨known, _, rfl⟩ := addShape_ok.mp added
      exact (sound.marked marked).adding known _ false _
    · exact sound.changed (change_changed ((sink_change noGroup).mp answered))

theorem after (sound : s.Sound) (calls : List Call) : (s.after calls).Sound := by
  induction calls generalizing s with
  | nil => exact sound
  | cons call rest ih => exact ih (sound.call call)

end Sound

theorem shapeElement_length {shapes : List Nat} (exist : ∀ id ∈ shapes, id < s.shapes.size) :
    (shapes.filterMap s.shapeElement).length = shapes.length := by
  simpa only [List.length_map] using (congrArg List.length (map_shapeElement exist)).symm

theorem slideShapes_lt (s : State) (slide : Nat) : ∀ id ∈ s.slideShapes slide, id < s.shapes.size :=
  fun _ inside => List.mem_range.mp (List.mem_of_mem_filter inside)

theorem isTop_of_isShown {slide id : Nat} (shown : s.isShown slide id = true) : s.isTop id = true := by
  unfold isShown at shown
  unfold isTop
  rcases atId : s.shapes[id]? with _ | entry <;> rw [atId] at shown
  · cases shown
  · exact (Bool.and_eq_true_iff.mp shown).2

namespace Strays

/-- Marks do not show in the element of a shape. -/
theorem shapeElement (strays : Strays s ids t) : t.shapeElement = s.shapeElement := by
  funext id
  refine shapeElement_congr (fun other _ => ?_) id (Nat.lt_succ_self id)
  rw [strays.entries, Option.map_map]
  congr
  funext entry
  dsimp only [Function.comp_apply]
  split <;> rfl

/-- The marked shapes are no longer written on their slide. -/
theorem slideShapes (strays : Strays s ids t) (slide : Nat) :
    t.slideShapes slide = (s.slideShapes slide).filter (· ∉ ids) := by
  rw [slideShapes_eq, slideShapes_eq, strays.size, List.filter_filter]
  refine List.filter_congr fun id _ => ?_
  rw [isShown, isShown, strays.entries]
  rcases s.shapes[id]? with _ | entry
  · simp
  · by_cases inside : id ∈ ids <;> simp [inside]

/-- What is to be seen is the same exactly when all marked shapes are in a group anyway. -/
theorem deckElement_eq_iff (strays : Strays s ids t) (sound : s.Sound) :
    t.deckElement = s.deckElement ↔ ∀ id ∈ ids, s.isTop id = false := by
  constructor
  · intro same id marked
    by_contra top
    rw [Bool.not_eq_false, isTop] at top
    obtain ⟨entry, atId, shown⟩ : ∃ entry, s.shapes[id]? = some entry ∧ entry.grouped = false := by
      rcases atId : s.shapes[id]? with _ | entry
      · rw [atId] at top
        cases top
      · rw [atId] at top
        exact ⟨entry, rfl, by simpa using top⟩
    have known := sound.placed id entry atId
    have onSlide : id ∈ s.slideShapes entry.slide := by
      rw [slideShapes_eq, List.mem_filter, isShown, atId]
      exact ⟨List.mem_range.mpr (strays.known id marked), by simp [shown]⟩
    have slides : ∀ p ∈ s.slides.toList.zipIdx, t.slideElement p.2 p.1 = s.slideElement p.2 p.1 := by
      obtain ⟨_, _, children⟩ := Element.node.inj same
      rw [strays.slides] at children
      exact List.map_inj_left.mp children
    have inSlides : (s.slides[entry.slide], entry.slide) ∈ s.slides.toList.zipIdx := by
      rw [List.mem_zipIdx_iff_getElem?]
      simp [known]
    obtain ⟨_, _, shapes⟩ := Element.node.inj (slides _ inSlides)
    -- without the marked shape its slide has one element less
    have fewer : ((s.slideShapes entry.slide).filter (· ∉ ids)).length < (s.slideShapes entry.slide).length :=
      List.length_filter_lt_length_iff_exists.mpr ⟨id, onSlide, by simp [marked]⟩
    have lengths := congrArg List.length shapes
    dsimp only at lengths
    rw [strays.shapeElement, strays.slideShapes, shapeElement_length (slideShapes_lt s _),
      shapeElement_length fun other inside => slideShapes_lt s _ other (List.mem_of_mem_filter inside)] at lengths
    omega
  · intro grouped
    have shapes (slide : Nat) : t.slideShapes slide = s.slideShapes slide := by
      rw [strays.slideShapes, List.filter_eq_self]
      intro id inside
      have top := isTop_of_isShown (List.mem_filter.mp inside).2
      refine decide_eq_true fun marked => ?_
      rw [grouped id marked] at top
      cases top
    have slide : t.slideElement = s.slideElement := by
      funext id entry
      rw [slideElement, slideElement, shapes, strays.shapeElement]
    rw [deckElement, deckElement, strays.slides, slide]

end Strays

/-- Texts tell elements apart. -/
theorem printed_inj {indent : Bool} {e other : Element} (plain : e.Plain) (otherPlain : other.Plain) :
    Element.printed indent e = Element.printed indent other ↔ e = other := by
  refine ⟨fun same => ?_, congrArg _⟩
  obtain ⟨tokens, scanned, _, built⟩ := Element.scan_printed indent plain
  obtain ⟨others, otherScanned, _, otherBuilt⟩ := Element.scan_printed indent otherPlain
  rw [same, otherScanned] at scanned
  obtain rfl := Option.some.inj scanned
  exact Option.some.inj (built.symm.trans otherBuilt)

theorem after_append (s : State) (calls more : List Call) : s.after (calls ++ more) = (s.after calls).after more :=
  List.foldl_append

/-- A call that is refused, at any time, changes no later answer. The text of a later finish is as if the call had
not been made exactly if the shapes that it marked are by then in a group anyway. Only a group with a member that
exists, in front of all that do not, marks anything; any other call that is refused changes nothing. Calls other
than for groups leave no marks, so that they change nothing at all. -/
theorem refused_atomic_iff {config : Config} {before : List Call} {s t : State} {call : Call} {error : DeckError}
    (reached : (ofConfig config).after before = s) (refused : sink s call = (.error error, t)) (later : List Call)
    (format : SaveFormat) :
    (s.marks call = [] → t = s) ∧ t.answers later = s.answers later ∧
      ((t.after (later ++ [.finish format])).output = (s.after (later ++ [.finish format])).output ↔
        ∀ id ∈ s.marks call, (s.after later).isTop id = false) := by
  have sound : s.Sound := reached ▸ (Sound.ofConfig config).after before
  have strays := strays_of_refused refused
  have soundAfter : t.Sound := sound.marked (marked_of_refused refused)
  obtain ⟨answers, ended⟩ := strays.run later
  refine ⟨fun unmarked => ?_, answers, ?_⟩
  · have marked := marked_of_refused refused
    rw [unmarked] at marked
    have shapes : t.shapes = s.shapes := Array.ext_getElem? fun id => by simp [marked.entries]
    rw [marked.rest, shapes]
  · rw [after_append, after_append]
    have text (u : State) : (u.after [.finish format]).output = Element.printed u.config.pretty u.deckElement := rfl
    rw [text, text, ended.config, printed_inj (deckElement_plain (soundAfter.after later).earlier)
      (deckElement_plain (sound.after later).earlier), ended.deckElement_eq_iff (sound.after later)]

/-- A receiver that has made a text on a slide. -/
def oneText : State :=
  (ofConfig .compact).after [.slide ⟨1, .top, []⟩ ⟨1, 1, none, []⟩, .text 0 ⟨0, 0, 10, 10⟩ false]

/-- The text is put into another group later, as it would have been without the group that is refused. -/
theorem refused_atomic_iff_groupedLater :
    ∃ error t, sink oneText (.group 0 [0, 7]) = (.error error, t) ∧ oneText.marks (.group 0 [0, 7]) = [0] ∧
      (t.after ([.group 0 [0]] ++ [.finish .markup])).output =
        (oneText.after ([.group 0 [0]] ++ [.finish .markup])).output := by
  obtain ⟨error, t, refused⟩ : ∃ error t, sink oneText (.group 0 [0, 7]) = (.error error, t) := ⟨_, _, rfl⟩
  obtain ⟨_, _, same⟩ := refused_atomic_iff rfl refused [.group 0 [0]] .markup
  cases refused
  exact ⟨_, _, rfl, rfl, same.mpr (by decide)⟩

/-- Without another group the text is gone, though no group holds it. -/
theorem refused_group_losesText :
    ∃ error t, sink oneText (.group 0 [0, 7]) = (.error error, t) ∧
      (oneText.after [.finish .markup]).output = "<deck slides=\"1\"><slide index=\"1\" pass=\"1\">" ++
        "<text x=\"0.0\" y=\"0.0\" w=\"10.0\" h=\"10.0\"></text></slide></deck>" ∧
      (t.after [.finish .markup]).output = "<deck slides=\"1\"><slide index=\"1\" pass=\"1\"></slide></deck>" :=
  ⟨_, _, rfl, by decide +kernel, by decide +kernel⟩

end Unveil.Markup.State
