import Unveil.Proofs.Inline.Events
import Unveil.Proofs.Table.Description

namespace Unveil

open Inline (Event)

/-- The events of a text in a row. -/
def inRow (row : Nat) (es : List Event) : List (Nat × Event) := es.map (Prod.mk row)

def pausesIn (es : List (Nat × Event)) : Nat := (es.map Prod.snd).count .pause

/-- Where a walk over events ends that lets so many pauses through: in the row of the next pause, which has
content if something shows there in front of the pause. -/
def PausesAt (es : List (Nat × Event)) (through : Nat) (stop : RowCursor) : Prop :=
  ∃ first rest, es = first ++ (stop.row, .pause) :: rest ∧ pausesIn first = through ∧
    stop.hasContent = first.contains (stop.row, .note)

section Rows

variable {row other through : Nat} {es fs : List (Nat × Event)}

@[simp]
theorem pausesIn_append (es fs : List (Nat × Event)) : pausesIn (es ++ fs) = pausesIn es + pausesIn fs := by
  rw [pausesIn, List.map_append, List.count_append, pausesIn, pausesIn]

@[simp]
theorem pausesIn_inRow (row : Nat) (es : List Event) : pausesIn (inRow row es) = es.count .pause := by
  have events : (inRow row es).map Prod.snd = es := (List.map_map).trans (List.map_id es)
  rw [pausesIn, events]

theorem inRow_append (row : Nat) (es fs : List Event) : inRow row (es ++ fs) = inRow row es ++ inRow row fs :=
  List.map_append

@[simp]
theorem contains_inRow (row : Nat) (es : List Event) (e : Event) :
    (inRow row es).contains (row, e) = es.contains e := by
  rw [Bool.eq_iff_iff]
  simp [inRow]

/-- Nothing shows in the rows from one on. -/
def QuietFrom (row : Nat) (es : List (Nat × Event)) : Prop := ∀ r, row ≤ r → es.contains (r, .note) = false

theorem QuietFrom.mono (quiet : QuietFrom row es) (later : row ≤ other) : QuietFrom other es :=
  fun r atLeast => quiet r (Nat.le_trans later atLeast)

theorem QuietFrom.append (quiet : QuietFrom row es) (more : QuietFrom row fs) : QuietFrom row (es ++ fs) := by
  intro r later
  rw [List.contains_append, quiet r later, more r later, Bool.or_false]

theorem quietFrom_inRow (row : Nat) (es : List Event) : QuietFrom (row + 1) (inRow row es) := by
  intro r later
  rw [Bool.eq_false_iff]
  intro shows
  obtain ⟨_, _, same⟩ := List.mem_map.mp (List.contains_iff_mem.mp shows)
  have here : row = r := congrArg Prod.fst same
  omega

theorem quietFrom_pause (row other : Nat) : QuietFrom row [(other, .pause)] := by
  intro r _
  simp

theorem PausesAt.append {stop : RowCursor} (stops : PausesAt es through stop) (fs : List (Nat × Event)) :
    PausesAt (es ++ fs) through stop := by
  obtain ⟨first, rest, rfl, passed, content⟩ := stops
  exact ⟨first, rest ++ fs, by rw [List.append_assoc, List.cons_append], passed, content⟩

/-- Before a pause that is not let through there are as many pauses as are. -/
theorem PausesAt.lt_pausesIn {stop : RowCursor} (stops : PausesAt es through stop) : through < pausesIn es := by
  obtain ⟨first, rest, rfl, rfl, _⟩ := stops
  rw [pausesIn_append, pausesIn, pausesIn, List.map_cons, List.count_cons_self]
  omega

/-- What holds no pause and yet comes in front of a pause is empty. -/
theorem eq_of_pause_cons {more : List (Nat × Event)} (tail : (row, .pause) :: es = more ++ (other, .pause) :: fs)
    (pauseless : pausesIn more = 0) : more = [] ∧ row = other := by
  cases more with
  | nil => exact ⟨rfl, congrArg Prod.fst (List.cons.inj tail).1⟩
  | cons e more =>
    obtain rfl := (List.cons.inj tail).1
    rw [pausesIn, List.map_cons, List.count_cons_self] at pauseless
    omega

/-- As many pauses are let through at one place only. -/
theorem PausesAt.unique {stop stop' : RowCursor} (stops : PausesAt es through stop) (stops' : PausesAt es through stop') :
    stop = stop' := by
  obtain ⟨first, rest, split, passed, content⟩ := stops
  obtain ⟨first', rest', split', passed', content'⟩ := stops'
  have same : first = first' ∧ stop.row = stop'.row := by
    rcases List.append_eq_append_iff.mp (split.symm.trans split') with ⟨more, rfl, tail⟩ | ⟨more, rfl, tail⟩
    · rw [pausesIn_append] at passed'
      obtain ⟨rfl, row⟩ := eq_of_pause_cons tail (by omega)
      exact ⟨(List.append_nil _).symm, row⟩
    · rw [pausesIn_append] at passed
      obtain ⟨rfl, row⟩ := eq_of_pause_cons tail (by omega)
      exact ⟨List.append_nil _, row.symm⟩
  obtain ⟨rfl, row⟩ := same
  rw [row, ← content'] at content
  obtain ⟨_, _⟩ := stop
  obtain ⟨_, _⟩ := stop'
  exact congrArg₂ RowCursor.mk row content

end Rows

namespace Inline

/-- The text of a walk between two cells. No list is open, nothing is noted, and the pauses seen so far and
those that are still let through make up `through`. -/
structure Noted (seen : List (Nat × Event)) (pass through : Nat) (s : Inline) : Prop where
  counting : s.tracker.ignoring = false
  pass : s.tracker.pass = pass
  lists : s.listKind? = none
  silent : s.emitted = false
  passed : s.tracker.through + pausesIn seen = through

/-- What walking nodes into a cell of a row comes to, if `shown` tells whether something showed there before. -/
inductive Wrote (seen : List (Nat × Event)) (pass through row : Nat) (shown : Bool) : Flow × Inline → Prop
  | completed {t : Inline} (noted : Noted seen pass through { t with emitted := false })
    (content : (shown || t.emitted) = seen.contains (row, .note)) : Wrote seen pass through row shown (.completed, t)
  | paused {t : Inline} (stops : PausesAt seen through ⟨row, shown || t.emitted⟩) :
    Wrote seen pass through row shown (.paused, t)

variable {seen : List (Nat × Event)} {pass through : Nat} {s : Inline}

theorem Noted.gate (noted : Noted seen pass through s) (n : Node) (mode : Mode) :
    Noted seen pass through (s.gate n mode).2 where
  counting := by rw [gate_tracker, Mode.gate_ignoring, noted.counting]
  pass := by rw [Tracker.pass, gate_tracker, Mode.gate_state, ← noted.pass, Tracker.pass]
  lists := noted.lists
  silent := noted.silent
  passed := by rw [gate_tracker, Mode.gate_through, noted.passed]

theorem Noted.withBody (noted : Noted seen pass through s) (body : TextBody) :
    Noted seen pass through { s with body } :=
  ⟨noted.counting, noted.pass, noted.lists, noted.silent, noted.passed⟩

/-- Walking nodes into a cell of a row meets their events. -/
theorem Noted.visitAll (noted : Noted seen pass through s) (row : Nat) (rules : InlineRules) (mode : Mode)
    (nodes : List Node) :
    Wrote (seen ++ inRow row (eventsAll rules pass none mode nodes)) pass through row (seen.contains (row, .note))
      (Inline.visitAll rules s mode nodes) := by
  have tells := visitAll_tells rules mode noted.counting nodes
  have restored := visitAll_restored rules s mode nodes
  rw [noted.pass, noted.lists] at tells
  generalize eventsAll rules pass none mode nodes = es at tells
  generalize Inline.visitAll rules s mode nodes = found at tells restored
  cases tells with
  | completed counting passed shows =>
    have restored := restored rfl
    rw [noted.silent, Bool.false_or] at shows
    refine .completed ⟨counting, ?_, restored.listKind?.trans noted.lists, rfl, ?_⟩ ?_
    · exact (congrArg PassState.pass restored.state).trans noted.pass
    · have before := noted.passed
      rw [pausesIn_append, pausesIn_inRow]
      dsimp only
      omega
    · rw [List.contains_append, contains_inRow, shows]
  | @paused _ first rest split last shows =>
    have before := noted.passed
    rw [noted.silent, Bool.false_or] at shows
    refine .paused ⟨seen ++ inRow row first, inRow row rest, ?_, ?_, ?_⟩
    · rw [split, inRow_append, List.append_assoc]
      rfl
    · rw [pausesIn_append, pausesIn_inRow]
      omega
    · rw [List.contains_append, contains_inRow, shows]

end Inline

namespace TableWalk

/-- The events of the children of a table from a row on. -/
def events (rules : InlineRules) (pass : Nat) (mode : Mode) : Nat → List Node → List (Nat × Event)
  | _, [] => []
  | row, n :: rest =>
    inRow row (Inline.events rules pass none mode n) ++
      events rules pass mode (if n.kind = .tableRow then row + 1 else row) rest

/-- A walk over a table between two children, after the events seen so far. -/
structure Stands (t : TableWalk) (seen : List (Nat × Event)) (pass through : Nat) : Prop where
  text : t.text.Noted seen pass through
  content : t.cursor.hasContent = seen.contains (t.cursor.row, .note)
  below : QuietFrom (t.cursor.row + 1) seen

/-- What a step comes to that ends in a row, with the events of it included in those seen. -/
inductive Meets (seen : List (Nat × Event)) (pass through row : Nat) : Flow × TableWalk → Prop
  | completed {u : TableWalk} (stands : u.Stands seen pass through) (atRow : u.cursor.row = row) :
    Meets seen pass through row (.completed, u)
  | paused {u : TableWalk} (stops : PausesAt seen through u.cursor) : Meets seen pass through row (.paused, u)

variable {t u : TableWalk} {seen : List (Nat × Event)} {pass through rows lastCol : Nat} {rules : InlineRules}
  {mode : Mode} {n : Node} {left : List Node} {flow : Flow}

theorem Stands.writeCell (stands : t.Stands seen pass through) {col : Nat} {cell : Cell}
    (atCell : t.grid.cell? t.cursor.row col = some cell) (rules : InlineRules) (mode : Mode) (n : Node) :
    Meets (seen ++ inRow t.cursor.row (Inline.events rules pass none mode n)) pass through t.cursor.row
      (t.writeCell rules mode col [n]) := by
  have wrote := (stands.text.withBody cell.body).visitAll t.cursor.row rules mode [n]
  have only : Inline.eventsAll rules pass none mode [n] = Inline.events rules pass none mode n := List.append_nil _
  rw [only, ← stands.content] at wrote
  rw [writeCell_eq rules mode [n] atCell]
  generalize Inline.visitAll rules { t.text with body := cell.body } mode [n] = found at wrote
  cases wrote with
  | completed noted content => exact .completed ⟨noted, content, stands.below.append (quietFrom_inRow _ _)⟩ rfl
  | paused stops => exact .paused stops

/-- A step that moves the cursor within its row, or draws a line. -/
theorem Stands.quiet (stands : t.Stands seen pass through) (text : u.text = t.text) (cursor : u.cursor = t.cursor) :
    Meets (seen ++ inRow t.cursor.row []) pass through t.cursor.row (.completed, u) := by
  rw [inRow, List.map_nil, List.append_nil]
  refine .completed ⟨?_, ?_, ?_⟩ (by rw [cursor])
  · rw [text]
    exact stands.text
  · rw [cursor]
    exact stands.content
  · rw [cursor]
    exact stands.below

/-- Children of a table that are no cells have no events. -/
theorem events_of_isRuling (ruling : n.kind.isRuling = true) : Inline.events rules pass none mode n = [] := by
  obtain ⟨kind, overlay, params, payload, children⟩ := n
  cases kind with
  | tableColumn | tableRow | hline | cline => rfl
  | _ => cases ruling

/-- A step meets the events of its child in the row in which it starts. -/
theorem step_meets (fits : t.Fits rows lastCol (n :: left)) (stands : t.Stands seen pass through)
    (stepped : t.step rules mode lastCol n = .ok (flow, u)) :
    Meets (seen ++ inRow t.cursor.row (Inline.events rules pass none mode n)) pass through
      (if n.kind = .tableRow then t.cursor.row + 1 else t.cursor.row) (flow, u) := by
  have last : min t.col lastCol ≤ lastCol := Nat.min_le_right _ _
  have quiet (kind : n.kind.isRuling = true) : Inline.events rules pass none mode n = [] := events_of_isRuling kind
  cases step_cases stepped with
  | column kind | line kind | partialLine kind | noLine kind =>
    rw [quiet (by rw [kind]; rfl), if_neg (by rw [kind]; decide)]
    exact stands.quiet rfl rfl
  | row kind =>
    rw [quiet (by rw [kind]; rfl), if_pos kind, inRow, List.map_nil, List.append_nil]
    have next := stands.below (t.cursor.row + 1) (Nat.le_refl _)
    exact .completed ⟨stands.text, next.symm, stands.below.mono (Nat.le_succ _)⟩ rfl
  | span kind before spanned =>
    rw [if_neg (by rw [kind]; decide)]
    obtain ⟨same, text, cursor⟩ := fits.spanCell spanned
    obtain ⟨cell, atCell⟩ := same.cell?_isSome last
    have stood : before.Stands seen pass through :=
      ⟨text ▸ stands.text, cursor ▸ stands.content, cursor ▸ stands.below⟩
    rw [← cursor]
    exact stood.writeCell atCell rules mode n
  | cell noRuling =>
    have plain : n.kind ≠ .tableRow := by
      intro kind
      rw [kind] at noRuling
      cases noRuling
    rw [if_neg plain]
    obtain ⟨cell, atCell⟩ := fits.cell?_isSome last
    exact stands.writeCell atCell rules mode n

/-- A pause that ends the walk over a table leaves the cursor where the events say. -/
theorem steps_pausesAt {nodes : List Node} (fits : t.Fits rows lastCol nodes) (stands : t.Stands seen pass through)
    (ran : t.steps rules mode lastCol nodes = .ok (.paused, u)) :
    PausesAt (seen ++ events rules pass mode t.cursor.row nodes) through u.cursor := by
  -- each child adds its events to those seen, in the row to which the children before it have led
  induction nodes generalizing t seen with
  | nil => cases ran
  | cons n rest ih =>
    rw [events, ← List.append_assoc]
    rcases steps_cons ran with ⟨v, stepped, ran⟩ | ⟨stepped, _⟩
    · cases step_meets fits stands stepped with
      | completed stood atRow =>
        rw [← atRow]
        exact ih (step_answers fits stepped).fits stood ran
    · cases step_meets fits stands stepped with
      | paused stops => exact stops.append _

theorem start_stands (n : Node) (plan : ColumnPlan) (c : Context) {tracker : Tracker} (faces : FaceStack)
    (counting : tracker.ignoring = false) :
    (start n plan c tracker faces).Stands [] tracker.pass tracker.through :=
  ⟨⟨counting, rfl, rfl, rfl, rfl⟩, rfl, fun _ _ => rfl⟩

end TableWalk

namespace DescriptionWalk

/-- The events of the term of an item. -/
def termEvents (mode : Mode) (n : Node) : List Event := if mode.emits && !n.params.isEmpty then [.note] else []

/-- The events of an item: its term, then its text. -/
def itemEvents (rules : InlineRules) (pass : Nat) (mode : Mode) (n : Node) : List Event :=
  let inner := mode.max (.ofNode n pass)
  termEvents inner n ++ Inline.eventsAll rules pass none inner n.children

/-- The events of the children of a description list, with the rows of the items from one on. -/
def events (rules : InlineRules) (pass : Nat) (mode : Mode) : Nat → List Node → List (Nat × Event)
  | _, [] => []
  | row, n :: rest =>
    match n.kind with
    | .item => inRow row (itemEvents rules pass mode n) ++ events rules pass mode (row + 1) rest
    | .pause => (row, .pause) :: events rules pass mode row rest
    | _ => events rules pass mode row rest

theorem events_of_not_isEntry (rules : InlineRules) (pass : Nat) (mode : Mode) (row : Nat) {n : Node}
    (noEntry : isEntry n = false) (rest : List Node) :
    events rules pass mode row (n :: rest) = events rules pass mode row rest := by
  rw [events]
  cases kind : n.kind
  case item | pause => simp [isEntry, kind] at noEntry
  all_goals rfl

/-- A walk over a description list between two children, after the events seen so far. -/
structure Stands (d : DescriptionWalk) (seen : List (Nat × Event)) (pass through : Nat) : Prop where
  text : d.text.Noted seen pass through
  below : QuietFrom d.nextRow seen

/-- What an item comes to in front of a row, with the events of it included in those seen. -/
inductive Meets (seen : List (Nat × Event)) (pass through row : Nat) : Flow × DescriptionWalk → Prop
  | completed {d : DescriptionWalk} (stands : d.Stands seen pass through) (nextRow : d.nextRow = row) :
    Meets seen pass through row (.completed, d)
  | paused {d : DescriptionWalk} {stop : RowCursor} (cursor : d.cursor = some stop)
    (stops : PausesAt seen through stop) : Meets seen pass through row (.paused, d)

variable {d : DescriptionWalk} {seen : List (Nat × Event)} {pass through rows : Nat} {n : Node} {left : List Node}

/-- A term that is not empty is written where it shows. -/
theorem writeTerm_fst {row : Nat} (shape : d.grid.HasShape rows 2) (inRow : row < rows) (face : Face) (term : String)
    (mode : Mode) : (d.writeTerm face row term mode).1 = (mode.emits && !term.isEmpty) := by
  obtain ⟨cell, atCell⟩ := shape.cell?_isSome inRow (by decide : 0 < 2)
  rw [writeTerm, atCell, Option.isSome_some, Bool.and_true]
  cases mode.emits && !term.isEmpty <;> rfl

/-- The term of an item shows in a row in which nothing has. -/
theorem Stands.term (stands : d.Stands seen pass through) (fits : d.Fits rows (n :: left)) (kind : n.kind = .item)
    (face : Face) (mode : Mode) :
    d.text.Noted (seen ++ inRow d.nextRow (termEvents mode n)) pass through ∧
      (seen ++ inRow d.nextRow (termEvents mode n)).contains (d.nextRow, .note) =
        (d.writeTerm face d.nextRow n.params mode).1 := by
  have before := stands.text
  refine ⟨⟨before.counting, before.pass, before.lists, before.silent, ?_⟩, ?_⟩
  · have silent : (termEvents mode n).count .pause = 0 := by
      rw [termEvents]
      split <;> rfl
    rw [pausesIn_append, pausesIn_inRow, silent]
    exact before.passed
  · rw [List.contains_append, stands.below _ (Nat.le_refl _), Bool.false_or, contains_inRow, termEvents,
      writeTerm_fst fits.shape (fits.inRow kind)]
    cases mode.emits && !n.params.isEmpty <;> rfl

/-- An item meets its events in the next row. -/
theorem item_meets (fits : d.Fits rows (n :: left)) (kind : n.kind = .item) (stands : d.Stands seen pass through)
    (rules : InlineRules) (face : Face) (mode : Mode) :
    Meets (seen ++ inRow d.nextRow (itemEvents rules pass mode n)) pass through (d.nextRow + 1)
      (d.item rules face mode n) := by
  obtain ⟨cell, _, ran⟩ := item_eq fits.shape (fits.inRow kind) rules face mode n
  have inner : (d.text.gate n mode).1 = mode.max (.ofNode n pass) := by rw [Inline.gate_fst, stands.text.pass]
  obtain ⟨termed, shown⟩ := stands.term fits kind face (d.text.gate n mode).1
  have wrote := ((termed.gate n mode).withBody cell.body).visitAll d.nextRow rules (d.text.gate n mode).1 n.children
  rw [shown, List.append_assoc, ← inRow_append, inner] at wrote
  change Inline.Wrote (seen ++ inRow d.nextRow (itemEvents rules pass mode n)) _ _ _ _ _ at wrote
  rw [ran, inner]
  dsimp only
  generalize Inline.visitAll rules _ (mode.max (.ofNode n pass)) n.children = found at wrote ⊢
  cases wrote with
  | completed noted =>
    have below := stands.below.mono (Nat.le_succ _)
    exact .completed ⟨noted, below.append (quietFrom_inRow _ _)⟩ rfl
  | paused stops => exact .paused rfl stops

/-- A pause between items is in the row after them. -/
theorem Stands.meetPause (stands : d.Stands seen pass through) :
    (∃ text, d.text.meetPause = (.paused, text) ∧
        PausesAt (seen ++ [(d.nextRow, .pause)]) through ⟨d.nextRow, false⟩) ∨
      ∃ text, d.text.meetPause = (.completed, text) ∧
        Stands { d with text } (seen ++ [(d.nextRow, .pause)]) pass through := by
  have before := stands.text
  have state := d.text.tracker.pause_state
  unfold Inline.meetPause
  rcases Tracker.pause_cases before.counting with ⟨u, met, pauseless⟩ | ⟨u, met, fewer, counting⟩
  · rw [met]
    refine .inl ⟨_, rfl, seen, [], rfl, ?_, (stands.below _ (Nat.le_refl _)).symm⟩
    rw [← before.passed, pauseless, Nat.zero_add]
  · rw [met] at state ⊢
    have below := stands.below.append (quietFrom_pause _ d.nextRow)
    refine .inr ⟨_, rfl, ⟨counting, ?_, before.lists, before.silent, ?_⟩, below⟩
    · exact (congrArg PassState.pass state).trans before.pass
    · have passed := before.passed
      rw [pausesIn_append]
      change u.through + (pausesIn seen + 1) = through
      omega

/-- A pause that ends the walk over a description list leaves the cursor where the events say. -/
theorem steps_pausesAt {nodes : List Node} (rules : InlineRules) (face : Face) (mode : Mode) (fits : d.Fits rows nodes)
    (stands : d.Stands seen pass through) {stop : RowCursor} (ended : (d.steps rules face mode nodes).1 = some stop) :
    PausesAt (seen ++ events rules pass mode d.nextRow nodes) through stop := by
  induction nodes generalizing d seen with
  | nil => cases ended
  | cons n rest ih =>
    have goes := d.steps_goes rules face mode n rest
    generalize d.steps rules face mode (n :: rest) = found at goes ended
    cases goes with
    | item kind ran =>
      have meets := item_meets fits kind stands rules face mode
      have after := (fits.item kind rules face mode).1
      rw [ran] at meets after
      simp only [events, kind]
      rw [← List.append_assoc]
      cases meets with
      | completed stood nextRow =>
        rw [← nextRow]
        exact ih after stood ended
    | cut kind ran =>
      have meets := item_meets fits kind stands rules face mode
      rw [ran] at meets
      simp only [events, kind]
      rw [← List.append_assoc]
      cases meets with
      | paused cursor stops =>
        cases Option.some.inj (cursor.symm.trans ended)
        exact stops.append _
    | @pause text kind met =>
      simp only [events, kind]
      rw [List.append_cons]
      rcases stands.meetPause with ⟨_, cut, _⟩ | ⟨_, passed, stood⟩
      · cases met.symm.trans cut
      · cases met.symm.trans passed
        exact ih (d := { d with text }) (fits.skip (by simp [kind]) text) stood ended
    | stop kind met =>
      simp only [events, kind]
      rw [List.append_cons]
      rcases stands.meetPause with ⟨_, _, stops⟩ | ⟨_, passed, _⟩
      · cases Option.some.inj ended
        exact stops.append _
      · cases met.symm.trans passed
    | other noEntry =>
      rw [events_of_not_isEntry _ _ _ _ noEntry]
      exact ih (fits.skip (ne_item_of_not_isEntry noEntry) d.text) stands ended

theorem start_stands (n : Node) (c : Context) {tracker : Tracker} (faces : FaceStack)
    (counting : tracker.ignoring = false) : (start n c tracker faces).Stands [] tracker.pass tracker.through :=
  ⟨⟨counting, rfl, rfl, rfl, rfl⟩, fun _ _ => rfl⟩

theorem itemsLeft_cons (n : Node) (rest : List Node) :
    itemsLeft (n :: rest) = (if n.kind = .item then 1 else 0) + itemsLeft rest := by
  unfold itemsLeft
  rw [List.filter_cons]
  split <;> simp_all [Nat.add_comm]

/-- Every item has its own row, and nothing shows below the last. -/
theorem events_quiet (rules : InlineRules) (pass : Nat) (mode : Mode) (row : Nat) (nodes : List Node) :
    QuietFrom (row + itemsLeft nodes) (events rules pass mode row nodes) := by
  induction nodes generalizing row with
  | nil => exact fun _ _ => rfl
  | cons n rest ih =>
    rw [events, itemsLeft_cons]
    cases kind : n.kind
    case item =>
      rw [if_pos rfl, ← Nat.add_assoc]
      exact ((quietFrom_inRow row _).mono (Nat.le_add_right _ _)).append (ih (row + 1))
    case pause =>
      rw [if_neg (by decide), Nat.zero_add]
      exact (quietFrom_pause _ row).append (ih row)
    all_goals
      rw [if_neg (by simp), Nat.zero_add]
      exact ih row

theorem events_append (rules : InlineRules) (pass : Nat) (mode : Mode) (row : Nat) (before after : List Node) :
    events rules pass mode row (before ++ after) =
      events rules pass mode row before ++ events rules pass mode (row + itemsLeft before) after := by
  induction before generalizing row with
  | nil => rfl
  | cons n rest ih =>
    rw [List.cons_append, events, events, itemsLeft_cons]
    cases kind : n.kind
    case item =>
      rw [if_pos rfl, ← Nat.add_assoc]
      simp only [ih, List.append_assoc]
    all_goals
      rw [if_neg (by simp), Nat.zero_add]
      simp only [ih, List.cons_append]

/-- A pause between items stops in the row after them, in which nothing shows. -/
theorem pausesAt_between (rules : InlineRules) (pass : Nat) (mode : Mode) {before after : List Node} {p : Node}
    (kind : p.kind = .pause) :
    PausesAt (events rules pass mode 0 (before ++ p :: after)) (pausesIn (events rules pass mode 0 before))
      ⟨itemsLeft before, false⟩ := by
  have quiet := events_quiet rules pass mode 0 before
  have here : events rules pass mode (0 + itemsLeft before) (p :: after) =
      (itemsLeft before, .pause) :: events rules pass mode (itemsLeft before) after := by
    rw [events, Nat.zero_add]
    simp only [kind]
  rw [events_append, here]
  refine ⟨_, _, rfl, rfl, (quiet _ ?_).symm⟩
  exact Nat.le_of_eq (Nat.zero_add _)

end DescriptionWalk

end Unveil
