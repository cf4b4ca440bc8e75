import Unveil.Proofs.Markup.Depiction

namespace Unveil.Markup.State

open Calls

/-- A shape that is in no group. -/
def isTop (s : State) (id : Nat) : Bool := (s.shapes[id]?.map fun entry => !entry.grouped).getD false

/-- Shapes were added on a slide behind those that exist, of which `ids` are in no group; nothing else changed. -/
structure Grown (s : State) (slide : Nat) (ids : List Nat) (t : State) : Prop where
  rest : t = { s with shapes := t.shapes }
  size : s.shapes.size ≤ t.shapes.size
  kept : ∀ id < s.shapes.size, t.shapes[id]? = s.shapes[id]?
  slide : ∀ id entry, s.shapes.size ≤ id → t.shapes[id]? = some entry → entry.slide = slide
  tops : (List.range' s.shapes.size (t.shapes.size - s.shapes.size)).filter t.isTop = ids
  earlier : s.MembersEarlier → t.MembersEarlier

namespace Grown

variable {s t u : State} {slide : Nat} {ids more : List Nat}

theorem refl (s : State) (slide : Nat) : Grown s slide [] s :=
  ⟨rfl, Nat.le_refl _, fun _ _ => rfl,
    fun id _ outside atId => absurd (Array.getElem?_eq_some_iff.mp atId).1 (Nat.not_lt.mpr outside),
    by rw [Nat.sub_self]; rfl, id⟩

theorem slides (grown : Grown s slide ids t) : t.slides = s.slides := by rw [grown.rest]

theorem config (grown : Grown s slide ids t) : t.config = s.config := by rw [grown.rest]

theorem isTop (grown : Grown s slide ids t) {id : Nat} (old : id < s.shapes.size) : t.isTop id = s.isTop id := by
  rw [State.isTop, State.isTop, grown.kept id old]

/-- The new shapes in no group are shapes. -/
theorem ids_lt (grown : Grown s slide ids t) : ∀ id ∈ ids, s.shapes.size ≤ id ∧ id < t.shapes.size := by
  intro id inside
  rw [← grown.tops] at inside
  have bounds := List.mem_range'_1.mp (List.mem_of_mem_filter inside)
  have size := grown.size
  omega

theorem trans (first : Grown s slide ids t) (second : Grown t slide more u) : Grown s slide (ids ++ more) u where
  rest := second.rest.trans (by rw [first.rest])
  size := first.size.trans second.size
  kept id old := (second.kept id (old.trans_le first.size)).trans (first.kept id old)
  slide id entry new atId := by
    rcases Nat.lt_or_ge id t.shapes.size with middle | last
    · exact first.slide id entry new ((second.kept id middle).symm.trans atId)
    · exact second.slide id entry last atId
  tops := by
    have sizes := first.size
    have laterSizes := second.size
    have cut : u.shapes.size - s.shapes.size =
        (t.shapes.size - s.shapes.size) + (u.shapes.size - t.shapes.size) := by omega
    have front : (List.range' s.shapes.size (t.shapes.size - s.shapes.size)).filter u.isTop = ids := by
      rw [← first.tops]
      refine List.filter_congr fun id inside => second.isTop ?_
      have := List.mem_range'_1.mp inside
      omega
    have next : s.shapes.size + (t.shapes.size - s.shapes.size) = t.shapes.size := by omega
    rw [cut, ← List.range'_append_1, List.filter_append, front, next, second.tops]
  earlier := second.earlier ∘ first.earlier

/-- The elements of older shapes stay as they are. -/
theorem shapeElement (grown : Grown s slide ids t) {id : Nat} (old : id < s.shapes.size) :
    t.shapeElement id = s.shapeElement id :=
  shapeElement_congr (fun other below => by rw [grown.kept other below]) id old

theorem adding {entry : ShapeEntry} (onSlide : entry.slide = slide) (top : entry.grouped = false)
    (exist : ∀ members, entry.body = .group members → ∀ member ∈ members, member < s.shapes.size) :
    Grown s slide [s.shapes.size] (s.adding entry) where
  rest := rfl
  size := by simp [State.adding]
  kept id old := by simp [State.adding, Array.getElem?_push, Nat.ne_of_lt old]
  slide id other new atId := by
    have bound := (Array.getElem?_eq_some_iff.mp atId).1
    have last : id = s.shapes.size := by
      simp only [State.adding, Array.size_push] at bound
      omega
    subst last
    rw [State.adding, Array.getElem?_push_size] at atId
    cases atId
    exact onSlide
  tops := by
    have isTop : (s.adding entry).isTop s.shapes.size = true := by
      simp [State.isTop, State.adding, top]
    simp [State.adding] at isTop ⊢
    simp [isTop]
  earlier earlier := by
    intro id members atId
    rw [State.adding, body?_push] at atId
    split at atId
    · subst id
      exact exist members (Option.some.inj atId)
    · exact earlier id members atId

end Grown

/-- The entries of shapes, given by their elements and bounds. -/
structure Shows (s : State) (ids : List Nat) (elements : List Element) (frames : List Rect) : Prop where
  elements : ids.map s.shapeElement = elements.map some
  frames : ids.map (fun id => s.shapes[id]?.map ShapeEntry.bounds) = frames.map some

theorem Shows.nil (s : State) : Shows s [] [] [] := ⟨rfl, rfl⟩

theorem Shows.single {s : State} {id : Nat} {entry : ShapeEntry} {e : Element} {frame : Rect}
    (atId : s.shapes[id]? = some entry) (framed : entry.bounds = frame)
    (element : s.shapeElement id = some e) : Shows s [id] [e] [frame] :=
  ⟨by rw [List.map_singleton, element, List.map_singleton],
    by rw [List.map_singleton, atId, Option.map_some, framed, List.map_singleton]⟩

theorem Shows.append {s : State} {ids more : List Nat} {elements later : List Element}
    {frames laterFrames : List Rect} (first : Shows s ids elements frames)
    (second : Shows s more later laterFrames) :
    Shows s (ids ++ more) (elements ++ later) (frames ++ laterFrames) :=
  ⟨by rw [List.map_append, first.elements, second.elements, List.map_append],
    by rw [List.map_append, first.frames, second.frames, List.map_append]⟩

/-- What was to be seen is still to be seen when more shapes were added. -/
theorem Shows.grown {s t : State} {slide : Nat} {ids new : List Nat} {elements : List Element}
    {frames : List Rect} (shown : Shows s ids elements frames) (old : ∀ id ∈ ids, id < s.shapes.size)
    (grown : Grown s slide new t) : Shows t ids elements frames where
  elements := by
    rw [← shown.elements]
    exact List.map_congr_left fun id inside => grown.shapeElement (old id inside)
  frames := by
    rw [← shown.frames]
    exact List.map_congr_left fun id inside => by rw [grown.kept id (old id inside)]

/-- Some shapes were marked as members of a group; nothing else changed. -/
structure Marked (s : State) (ids : List Nat) (t : State) : Prop where
  rest : t = { s with shapes := t.shapes }
  size : t.shapes.size = s.shapes.size
  entries : ∀ id, t.shapes[id]? = s.shapes[id]?.map fun e => if id ∈ ids then { e with grouped := true } else e

/-- All that does not tell members from others is the same with marks. -/
theorem Marked.map_eq {s t : State} {ids : List Nat} {β : Type} {f : ShapeEntry → β} (marked : Marked s ids t)
    (blind : ∀ e : ShapeEntry, f { e with grouped := true } = f e) (id : Nat) :
    t.shapes[id]?.map f = s.shapes[id]?.map f := by
  rw [marked.entries]
  rcases s.shapes[id]? with _ | e
  · rfl
  · simp only [Option.map_some]
    split
    · rw [blind]
    · rfl

theorem mark_marked (s : State) (id : Nat) : Marked s [id] (s.mark id) where
  rest := rfl
  size := mark_size s id
  entries other := by
    rw [mark, Array.getElem?_modify]
    rcases eq_or_ne id other with rfl | away
    · simp
    · simp [away, away.symm]

theorem Marked.cons {s t u : State} {id : Nat} {ids : List Nat} (first : Marked s [id] t) (others : Marked t ids u) :
    Marked s (id :: ids) u where
  rest := others.rest.trans (by rw [first.rest])
  size := others.size.trans first.size
  entries other := by
    rw [others.entries, first.entries, Option.map_map]
    congr
    funext e
    by_cases same : other = id <;> by_cases inside : other ∈ ids <;> simp [same, inside]

/-- Marks on shapes that exist, with the rectangle around them. -/
theorem markGrouped_ok {s : State} {ids : List Nat} {frames : List Rect}
    (exist : ids.map (fun id => s.shapes[id]?.map ShapeEntry.bounds) = frames.map some) (bounds : Option Rect) :
    ∃ t, s.markGrouped bounds ids = (.ok (Shape.around bounds frames), t) ∧ Marked s ids t := by
  induction ids generalizing s frames bounds with
  | nil =>
    obtain rfl := List.map_eq_nil_iff.mp exist.symm
    exact ⟨s, rfl, rfl, rfl, fun id => by simp⟩
  | cons id rest ih =>
    rcases frames with _ | ⟨frame, others⟩
    · cases exist
    · obtain ⟨here, later⟩ := List.cons.inj exist
      obtain ⟨entry, atId, rfl⟩ := Option.map_eq_some_iff.mp here
      have remain : rest.map (fun other => (s.mark id).shapes[other]?.map ShapeEntry.bounds) = others.map some := by
        rw [← later]
        exact List.map_congr_left fun other _ => (mark_marked s id).map_eq (fun _ => rfl) other
      obtain ⟨t, made, marked⟩ := ih remain (some ((bounds.map fun b => b.union entry.bounds).getD entry.bounds))
      exact ⟨t, (markGrouped_cons atId bounds rest).trans made, (mark_marked s id).cons marked⟩

theorem filterMap_of_map {α β : Type} {f : α → Option β} {xs : List α} {ys : List β}
    (found : xs.map f = ys.map some) : xs.filterMap f = ys := by
  calc xs.filterMap f = (xs.map f).filterMap id := by rw [List.filterMap_map]; rfl
    _ = ys := by rw [found, List.filterMap_map]; exact List.filterMap_some

/-- With marks on all new shapes that are in no group, no new shape is on its own. -/
theorem Grown.marked {s t m : State} {slide : Nat} {ids : List Nat} (grown : Grown s slide ids t)
    (marked : Marked t ids m) : Grown s slide [] m where
  rest := by rw [marked.rest, grown.rest]
  size := marked.size ▸ grown.size
  kept id old := by
    have unmarked : id ∉ ids := fun inside => Nat.not_lt.mpr (grown.ids_lt id inside).1 old
    rw [marked.entries, grown.kept id old]
    simp [unmarked]
  slide id e new atId := by
    rw [marked.entries] at atId
    obtain ⟨before, atBefore, rfl⟩ := Option.map_eq_some_iff.mp atId
    have onSlide := grown.slide id before new atBefore
    split <;> exact onSlide
  tops := by
    refine List.filter_eq_nil_iff.mpr fun id inside top => ?_
    rw [State.isTop, marked.entries] at top
    rcases atId : t.shapes[id]? with _ | e
    · rw [atId] at top
      cases top
    · by_cases joined : id ∈ ids
      · simp [atId, joined] at top
      · refine joined ?_
        rw [← grown.tops, List.mem_filter, State.isTop, atId, ← marked.size]
        exact ⟨inside, by simpa [atId, joined] using top⟩
  earlier earlier := (grown.earlier earlier).of_body? fun id members atId => by
    rw [← atId, body?, body?]
    exact (marked.map_eq (fun _ => rfl) id).symm

/-- Shapes that are joined are no longer on their own; the group is. -/
theorem Grown.group {s t : State} {slide : Nat} {ids : List Nat} {elements : List Element}
    {frames : List Rect} (earlier : s.MembersEarlier) (grown : Grown s slide ids t)
    (known : slide < s.slides.size) (shown : Shows t ids elements frames) :
    ∃ u, sink t (.group slide ids) = (.ok (some t.shapes.size), u) ∧ Grown s slide [t.shapes.size] u ∧
      Shows u [t.shapes.size]
        [.node "group" (boundsAttributes ((Shape.around none frames).getD .zero) false) elements]
        [(Shape.around none frames).getD .zero] := by
  obtain ⟨m, made, marked⟩ := markGrouped_ok shown.frames none
  let entry : ShapeEntry := ⟨slide, (Shape.around none frames).getD .zero, false, .group ids, false⟩
  have slides : m.slides = s.slides := by rw [marked.rest]; exact grown.slides
  have called : t.group slide ids = (.ok (some t.shapes.size), m.adding entry) :=
    group_ok.mpr ⟨_, m, made, addShape_ok.mpr ⟨by rw [slides]; exact known, by rw [marked.size], rfl⟩⟩
  have exist : ∀ id ∈ ids, id < t.shapes.size := fun id inside => (grown.ids_lt id inside).2
  have added : Grown m slide [m.shapes.size] (m.adding entry) :=
    .adding rfl rfl fun members isGroup => by cases isGroup; exact marked.size.symm ▸ exist
  have grownU := (grown.marked marked).trans added
  rw [List.nil_append, marked.size] at grownU
  have atGroup : (m.adding entry).shapes[t.shapes.size]? = some entry := by
    rw [← marked.size]
    exact Array.getElem?_push_size
  refine ⟨m.adding entry, sink_group.mpr called, grownU, .single atGroup rfl ?_⟩
  rw [shapeElement_eq (grownU.earlier earlier) atGroup]
  refine congrArg (fun inside => some (Element.node "group" _ inside)) (filterMap_of_map ?_)
  rw [← shown.elements]
  refine List.map_congr_left fun id inside => ?_
  refine shapeElement_congr (fun other below => ?_) id (exist id inside)
  have size := marked.size
  rw [State.adding, Array.getElem?_push, if_neg (by omega)]
  exact marked.map_eq (fun _ => rfl) other

variable {slide : Nat}

mutual

/-- A shape whose tables are in range is accepted, and is seen as it is to be. It adds entries of which its own is
the only one that is in no group. -/
theorem emit_accepted {s : State} (known : slide < s.slides.size) (earlier : s.MembersEarlier) :
    ∀ shape : Shape, (∀ g ∈ shape.grids, g.Regular ∧ g.InRange) →
      ∃ id t, Gives (shape.emit sink slide) s id t ∧ Grown s slide [id] t ∧
        Shows t [id] [shapeOf drawnAttributes shape] [shape.frame]
  | .single bounds (.text body) hidden => fun _ => by
    have grown : Grown s slide [s.shapes.size]
        (s.adding ⟨slide, bounds, hidden, .text (body.paragraphs.map .whole), false⟩) :=
      .adding rfl rfl (by simp)
    refine ⟨_, _, gives_text.mpr ⟨known, rfl, rfl⟩, grown, .single Array.getElem?_push_size rfl ?_⟩
    rw [shapeElement_eq (grown.earlier earlier) Array.getElem?_push_size, shapeOf]
    simp only [ShapeEntry.element, List.map_map]
    rfl
  | .single bounds (.image picture) hidden => fun _ => by
    have grown : Grown s slide [s.shapes.size]
        (s.adding ⟨slide, bounds, hidden, .image picture.path, false⟩) := .adding rfl rfl (by simp)
    refine ⟨_, _, (gives_handle_addShape (by simp) rfl).mpr ⟨known, rfl, rfl⟩, grown,
      .single Array.getElem?_push_size rfl ?_⟩
    rw [shapeElement_eq (grown.earlier earlier) Array.getElem?_push_size, shapeOf]
    rfl
  | .single bounds (.table g) hidden => fun fits => by
    obtain ⟨regular, inRange⟩ := fits g (by simp [Shape.grids])
    have grown : Grown s slide [s.shapes.size] (s.adding ⟨slide, bounds, hidden, g.drawnBody, false⟩) :=
      .adding rfl rfl (by simp [Grid.drawnBody])
    refine ⟨_, _, (Grid.gives_emit regular.kept).mpr ⟨known, inRange, rfl, rfl⟩, grown,
      .single Array.getElem?_push_size rfl ?_⟩
    rw [shapeElement_eq (grown.earlier earlier) Array.getElem?_push_size, shapeOf, ← map_rowElement_cells regular]
    simp only [ShapeEntry.element, Grid.drawnBody, List.map_map]
    rfl
  | .group bounds members hidden => fun fits => by
    obtain ⟨ids, t, given, grown, shown⟩ := emitAll_accepted known earlier members fits
    obtain ⟨u, called, grownU, showsU⟩ := grown.group earlier known shown
    refine ⟨_, u, ?_, grownU, showsU⟩
    rw [Shape.emit]
    exact gives_bind.mpr ⟨ids, t, given, gives_bind.mpr ⟨_, u, gives_make.mpr called, gives_pure.mpr ⟨rfl, rfl⟩⟩⟩

/-- The shapes of a slide are accepted when the strokes of their tables are in range. -/
theorem emitAll_accepted {s : State} (known : slide < s.slides.size) (earlier : s.MembersEarlier) :
    ∀ shapes : List Shape, (∀ g ∈ Shape.gridsAll shapes, g.Regular ∧ g.InRange) →
      ∃ ids t, Gives (Shape.emitAll sink slide shapes) s ids t ∧ Grown s slide ids t ∧
        Shows t ids (shapesOf drawnAttributes shapes) (Shape.frames shapes)
  | [] => fun _ => ⟨[], s, gives_pure.mpr ⟨rfl, rfl⟩, .refl s slide, .nil s⟩
  | shape :: rest => fun fits => by
    obtain ⟨here, others⟩ := List.forall_mem_append.mp fits
    obtain ⟨id, t, given, grown, shown⟩ := emit_accepted known earlier shape here
    have knownT : slide < t.slides.size := grown.slides ▸ known
    obtain ⟨ids, u, more, grownU, showsU⟩ := emitAll_accepted knownT (grown.earlier earlier) rest others
    refine ⟨id :: ids, u, ?_, grown.trans grownU,
      .append (shown.grown (fun id inside => (grown.ids_lt id inside).2) grownU) showsU⟩
    rw [Shape.emitAll]
    exact gives_bind.mpr ⟨id, t, given, gives_bind.mpr ⟨ids, u, more, gives_pure.mpr ⟨rfl, rfl⟩⟩⟩

end

mutual

/-- Only shapes whose tables are in range are accepted. -/
theorem emit_inRange {s t : State} {id : Nat} :
    ∀ shape : Shape, Gives (shape.emit sink slide) s id t →
      (∀ g ∈ shape.grids, g.rowCount ≤ g.declaredRows) → ∀ g ∈ shape.grids, g.InRange
  | .single _ (.text _) _ => fun _ _ _ inside => nomatch inside
  | .single _ (.image _) _ => fun _ _ _ inside => nomatch inside
  | .single _ (.table g) _ => fun given kept other inside => by
    obtain rfl := List.mem_singleton.mp inside
    exact ((Grid.gives_emit (kept other inside)).mp given).2.1
  | .group _ members _ => fun given kept => by
    obtain ⟨_, _, given, _⟩ := gives_bind.mp given
    exact emitAll_inRange members given kept

theorem emitAll_inRange {s t : State} {ids : List Nat} :
    ∀ shapes : List Shape, Gives (Shape.emitAll sink slide shapes) s ids t →
      (∀ g ∈ Shape.gridsAll shapes, g.rowCount ≤ g.declaredRows) → ∀ g ∈ Shape.gridsAll shapes, g.InRange
  | [] => fun _ _ _ inside => nomatch inside
  | shape :: rest => fun given kept => by
    obtain ⟨here, others⟩ := List.forall_mem_append.mp kept
    obtain ⟨_, _, first, more⟩ := gives_bind.mp given
    obtain ⟨_, _, later, _⟩ := gives_bind.mp more
    exact List.forall_mem_append.mpr ⟨emit_inRange shape first here, emitAll_inRange rest later others⟩

end

/-- Whether a shape is written on a slide. -/
def isShown (s : State) (slide id : Nat) : Bool :=
  (s.shapes[id]?.map fun entry => entry.slide == slide && !entry.grouped).getD false

theorem slideShapes_eq (s : State) (slide : Nat) :
    s.slideShapes slide = (List.range s.shapes.size).filter (s.isShown slide) := rfl

/-- The shapes of the other slides are those of before; a slide that had none has the new ones. -/
theorem Grown.slideShapes {s t : State} {ids : List Nat} (grown : Grown s slide ids t) :
    (∀ other ≠ slide, t.slideShapes other = s.slideShapes other) ∧
      (s.slideShapes slide = [] → t.slideShapes slide = ids) := by
  have size := grown.size
  have cut : List.range t.shapes.size =
      List.range s.shapes.size ++ List.range' s.shapes.size (t.shapes.size - s.shapes.size) := by
    rw [List.range_eq_range', List.range_eq_range', ← Nat.add_sub_of_le size, ← List.range'_append_1,
      Nat.zero_add, Nat.add_sub_cancel_left]
  have old (other : Nat) : (List.range s.shapes.size).filter (t.isShown other) = s.slideShapes other := by
    rw [slideShapes_eq]
    refine List.filter_congr fun id inside => ?_
    rw [isShown, isShown, grown.kept id (List.mem_range.mp inside)]
  have new {id : Nat} (inside : id ∈ List.range' s.shapes.size (t.shapes.size - s.shapes.size)) (other : Nat) :
      t.isShown other id = (slide == other && t.isTop id) := by
    rw [isShown, State.isTop]
    rcases atId : t.shapes[id]? with _ | entry
    · simp
    · simp [grown.slide id entry (List.mem_range'_1.mp inside).1 atId]
  refine ⟨fun other away => ?_, fun bare => ?_⟩
  · rw [slideShapes_eq, cut, List.filter_append, old, List.filter_congr fun id inside => new inside other]
    simp [away.symm]
  · rw [slideShapes_eq, cut, List.filter_append, old, bare, ← grown.tops,
      List.filter_congr fun id inside => new inside slide]
    simp

/-- The other slides are to be seen as before. -/
theorem Grown.slideElement {s t : State} {ids : List Nat} (grown : Grown s slide ids t) {other : Nat}
    (away : other ≠ slide) (entry : SlideEntry) : t.slideElement other entry = s.slideElement other entry := by
  rw [State.slideElement, State.slideElement, grown.slideShapes.1 other away]
  refine congrArg (Element.node "slide" _) (List.filterMap_congr fun id inside => ?_)
  exact grown.shapeElement (List.mem_range.mp (List.mem_of_mem_filter inside))

/-- A slide shows its shapes, whatever other slides there are. -/
theorem slideElement_slides (s : State) (slides : Array SlideEntry) (id : Nat) (entry : SlideEntry) :
    { s with slides }.slideElement id entry = s.slideElement id entry := by
  let t : State := { s with slides }
  have shapes : t.slideShapes id = s.slideShapes id := rfl
  have elements : ∀ shape < s.shapes.size, t.shapeElement shape = s.shapeElement shape :=
    shapeElement_congr fun _ _ => rfl
  change t.slideElement id entry = _
  rw [State.slideElement, State.slideElement, shapes]
  refine congrArg (Element.node "slide" _) (List.filterMap_congr fun shape inside => ?_)
  exact elements shape (List.mem_range.mp (List.mem_of_mem_filter inside))

theorem gives_forEach_emit {s t : State} {index : Nat} {shapes : List Shape} :
    Gives (forEach (fun shape : Shape => inSlide index do
        let _ ← shape.emit sink slide) shapes) s () t ↔
      ∃ ids, Gives (Shape.emitAll sink slide shapes) s ids t := by
  induction shapes generalizing s with
  | nil =>
    refine gives_forEach_nil.trans ⟨fun same => ⟨[], gives_pure.mpr ⟨rfl, same⟩⟩, fun ⟨_, given⟩ => ?_⟩
    exact (gives_pure.mp given).2
  | cons shape rest ih =>
    simp only [gives_forEach_cons, gives_inSlide, gives_bind, gives_pure, true_and, Shape.emitAll, ih]
    constructor
    · rintro ⟨_, ⟨id, u, given, rfl⟩, ids, later⟩
      exact ⟨id :: ids, id, u, given, ids, t, later, rfl, rfl⟩
    · rintro ⟨_, id, u, given, ids, _, later, _, rfl⟩
      exact ⟨u, ⟨id, u, given, rfl⟩, ids, later⟩

def digestFor (config : Config) (pass : Pass) : Option UInt64 := if config.digests then some pass.digest else none

/-- A state in which the slides are to be seen as some elements. -/
structure Holds (config : Config) (elements : List Element) (s : State) : Prop where
  config : s.config = config
  earlier : s.MembersEarlier
  known : ∀ (id : Nat) (entry : ShapeEntry), s.shapes[id]? = some entry → entry.slide < s.slides.size
  slides : (s.slides.toList.zipIdx.map fun (slide, id) => s.slideElement id slide) = elements

theorem ofConfig_holds (config : Config) : Holds config [] (ofConfig config) where
  config := rfl
  earlier _ _ atId := by cases atId
  known _ _ atId := by cases atId
  slides := rfl

/-- A pass whose tables are in range is accepted, and adds its element behind the others. -/
theorem Holds.pass {config : Config} {elements : List Element} {s : State} (holds : Holds config elements s)
    (slide : ComposedSlide) (pass : Pass) (fits : ∀ g ∈ pass.grids, g.Regular ∧ g.InRange) :
    ∃ t, Gives (pass.emit sink slide) s () t ∧
      Holds config (elements ++ [passOf drawnAttributes (digestFor config) slide pass]) t := by
  let entry : SlideEntry := ⟨slide.index, pass.number, digestFor s.config pass⟩
  let start : State := { s with slides := s.slides.push entry }
  have made : Gives (handle sink (.slide slide pass)) s s.slides.size start :=
    gives_handle.mpr ⟨_, rfl, rfl⟩
  have earlier : start.MembersEarlier := holds.earlier
  have known : s.slides.size < start.slides.size := by simp [start]
  obtain ⟨ids, t, given, grown, shown⟩ := emitAll_accepted known earlier pass.allShapes fits
  refine ⟨t, gives_bind.mpr ⟨_, start, made, gives_forEach_emit.mpr ⟨ids, given⟩⟩,
    grown.config.trans holds.config, grown.earlier earlier, fun id e atId => ?_, ?_⟩
  · rw [grown.slides]
    rcases Nat.lt_or_ge id start.shapes.size with old | new
    · exact (holds.known id e ((grown.kept id old).symm.trans atId)).trans known
    · exact (grown.slide id e new atId).symm ▸ known
  · have bare : start.slideShapes s.slides.size = [] := by
      refine List.filter_eq_nil_iff.mpr fun id _ isShown => ?_
      rcases atId : start.shapes[id]? with _ | e
      · simp [atId] at isShown
      · have := holds.known id e atId
        simp [atId] at isShown
        omega
    have before : ∀ p ∈ s.slides.toList.zipIdx, t.slideElement p.2 p.1 = s.slideElement p.2 p.1 := by
      intro p inside
      have earlierSlide : p.2 < s.slides.size := by simpa using List.snd_lt_of_mem_zipIdx inside
      rw [grown.slideElement (Nat.ne_of_lt earlierSlide), s.slideElement_slides]
    have after : t.slideElement s.slides.size entry =
        passOf drawnAttributes (digestFor config) slide pass := by
      have inside : ids.filterMap t.shapeElement = shapesOf drawnAttributes pass.allShapes :=
        filterMap_of_map shown.elements
      rw [slideElement, grown.slideShapes.2 bare, inside, passOf, ← holds.config]
    rw [grown.slides, Array.toList_push, List.zipIdx_append, List.map_append, List.map_congr_left before,
      holds.slides]
    simp only [List.zipIdx_singleton, List.map_singleton, Nat.zero_add, Array.length_toList, after]

/-- What each entry adds is added by all of them, in order. -/
theorem Holds.forEach {β : Type} {f : β → Calls State Unit} {added : β → List Element} {config : Config}
    {bs : List β} (step : ∀ b ∈ bs, ∀ elements s, Holds config elements s →
      ∃ t, Gives (f b) s () t ∧ Holds config (elements ++ added b) t)
    {elements : List Element} {s : State} (holds : Holds config elements s) :
    ∃ t, Gives (forEach f bs) s () t ∧ Holds config (elements ++ bs.flatMap added) t := by
  induction bs generalizing elements s with
  | nil => exact ⟨s, gives_forEach_nil.mpr rfl, by rwa [List.flatMap_nil, List.append_nil]⟩
  | cons b rest ih =>
    obtain ⟨here, later⟩ := List.forall_mem_cons.mp step
    obtain ⟨t, given, holdsT⟩ := here elements s holds
    obtain ⟨u, more, holdsU⟩ := ih later holdsT
    exact ⟨u, gives_forEach_cons.mpr ⟨t, given, more⟩, by rwa [List.flatMap_cons, ← List.append_assoc]⟩

theorem mem_grids {slide : ComposedSlide} {pass : Pass} {g : Grid} (inSlide : pass ∈ slide.passes)
    (inPass : g ∈ pass.grids) : g ∈ slide.grids := List.mem_flatMap.mpr ⟨pass, inSlide, inPass⟩

/-- Slides whose tables are in range are accepted by a fresh receiver, which then holds one slide for each
pass, and writes what is to be seen. -/
theorem emitSlides_accepted (config : Config) (format : SaveFormat) {slides : List ComposedSlide}
    (fits : ∀ slide ∈ slides, ∀ g ∈ slide.grids, g.Regular ∧ g.InRange) :
    ∃ s, Gives (emitSlides sink format slides) (ofConfig config) () s ∧
      s.slides.size = (slides.flatMap ComposedSlide.passes).length ∧
      s.deckElement = deckOf drawnAttributes (digestFor config) slides ∧
      s.output = Element.printed config.pretty s.deckElement := by
  let added (slide : ComposedSlide) (pass : Pass) := [passOf drawnAttributes (digestFor config) slide pass]
  have step : ∀ slide ∈ slides, ∀ elements s, Holds config elements s →
      ∃ t, Gives (slide.emit sink) s () t ∧ Holds config (elements ++ slide.passes.flatMap (added slide)) t :=
    fun slide inSlides _ _ before => before.forEach fun pass inSlide _ _ before =>
      before.pass slide pass fun g inPass => fits slide inSlides g (mem_grids inSlide inPass)
  obtain ⟨t, given, holds⟩ := (ofConfig_holds config).forEach step
  have slidesOf : (t.slides.toList.zipIdx.map fun (slide, id) => t.slideElement id slide) =
      slides.flatMap fun slide => slide.passes.map fun pass =>
        passOf drawnAttributes (digestFor config) slide pass := by
    rw [holds.slides, List.nil_append]
    simp only [added, ← List.map_eq_flatMap]
  have count : t.slides.size = (slides.flatMap ComposedSlide.passes).length := by
    have lengths := congrArg List.length slidesOf
    simpa [List.length_flatMap] using lengths
  refine ⟨t.finish, ?_, ?_, ?_, ?_⟩
  · exact gives_bind.mpr ⟨(), t, given, gives_tell.mpr ⟨_, rfl⟩⟩
  · exact count
  · have length : (slides.flatMap fun slide => slide.passes.map fun pass => (slide, pass)).length =
        t.slides.size := by
      rw [count]
      simp [List.length_flatMap]
    rw [finish_deckElement, deckElement, slidesOf, deckOf, length]
    simp only [List.map_flatMap, List.map_map]
    rfl
  · rw [finish_deckElement, ← holds.config]
    rfl

/-- Slides that are accepted have tables in range. -/
theorem emitSlides_inRange {format : SaveFormat} {slides : List ComposedSlide} {s t : State}
    (given : Gives (emitSlides sink format slides) s () t)
    (kept : ∀ slide ∈ slides, ∀ g ∈ slide.grids, g.rowCount ≤ g.declaredRows) :
    ∀ slide ∈ slides, ∀ g ∈ slide.grids, g.InRange := by
  obtain ⟨_, _, all, _⟩ := gives_bind.mp given
  intro slide inSlides g inSlide
  obtain ⟨pass, inPasses, inPass⟩ := List.mem_flatMap.mp inSlide
  obtain ⟨_, _, passes⟩ := all.of_forEach slide inSlides
  obtain ⟨_, _, emitted⟩ := Gives.of_forEach passes pass inPasses
  obtain ⟨id, _, _, shapes⟩ := gives_bind.mp emitted
  obtain ⟨_, givenAll⟩ := gives_forEach_emit.mp shapes
  exact emitAll_inRange pass.allShapes givenAll
    (fun g inPass => kept slide inSlides g (mem_grids inPasses inPass)) g inPass

end Unveil.Markup.State
