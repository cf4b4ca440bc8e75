import Unveil.Proofs.Flattened.Text
import Unveil.Proofs.Reveal.Blocks

namespace Unveil

namespace Grid

variable {g : Grid} {row col : Nat}

/-- All but the blanks of a table, row by row. -/
def ink (g : Grid) : List Char := Text.ink g.chars

theorem ink_rows (rows : List (List Cell)) :
    Text.ink (charsOf rows) = rows.flatMap fun cells => cells.flatMap fun cell => cell.body.ink := by
  simp only [Text.ink, charsOf, List.filter_flatMap]
  rfl

/-- No row from this one on shows anything. -/
def BlankFrom (g : Grid) (row : Nat) : Prop := ∀ r c cell, g.cell? r c = some cell → row ≤ r → cell.body.ink = []

/-- Writing into a cell behind which there is nothing adds to the end of the table. -/
theorem EmptyAfter.ink_mapCell (empty : g.EmptyAfter row col) {cell : Cell} (atCell : g.cell? row col = some cell)
    {f : Cell → Cell} {more : List Char} (adds : (f cell).body.ink = cell.body.ink ++ more) :
    (g.mapCell row col f).ink = g.ink ++ more := by
  obtain ⟨cells, atRow, atCol⟩ := Option.bind_eq_some_iff.mp atCell
  rw [ink, chars, ink_rows, ink, chars, ink_rows]
  have blank {r c : Nat} {other : Cell} (atCell : g.cell? r c = some other) (after : row < r ∨ row = r ∧ col < c) :
      other.body.ink = [] := congrArg Text.ink (empty r c other atCell after)
  refine flatMap_modify_append _ atRow ?_ fun r others later atOthers => ?_
  · refine flatMap_modify_append _ atCol adds fun c other later atOther => ?_
    exact blank (by rw [cell?, atRow]; exact atOther) (.inr ⟨rfl, later⟩)
  · refine List.flatMap_eq_nil_iff.mpr fun other member => ?_
    obtain ⟨c, atOther⟩ := List.getElem?_of_mem member
    exact blank (by rw [cell?, atOthers]; exact atOther) (.inl later)

/-- Rows that show nothing may be taken away. -/
theorem BlankFrom.ink_take (blank : g.BlankFrom row) : Text.ink (charsOf (g.rows.take row)) = g.ink := by
  have rest : (g.rows.drop row).flatMap (fun cells => cells.flatMap fun cell => cell.body.ink) = [] := by
    refine List.flatMap_eq_nil_iff.mpr fun cells atRows => List.flatMap_eq_nil_iff.mpr fun cell atCells => ?_
    obtain ⟨i, atI⟩ := List.getElem?_of_mem atRows
    obtain ⟨c, atC⟩ := List.getElem?_of_mem atCells
    rw [List.getElem?_drop] at atI
    exact blank (row + i) c cell (by rw [cell?, atI]; exact atC) (Nat.le_add_right _ _)
  have whole := congrArg (List.flatMap fun cells => cells.flatMap fun cell => cell.body.ink)
    (List.take_append_drop row g.rows)
  rw [List.flatMap_append, rest, List.append_nil] at whole
  rw [ink, chars, ink_rows, ink_rows, whole]

theorem BlankFrom.mapCell (blank : g.BlankFrom row) {r c : Nat} {f : Cell → Cell}
    (still : ∀ cell, g.cell? r c = some cell → (f cell).body.ink = []) : (g.mapCell r c f).BlankFrom row := by
  intro r' c' cell atCell below
  rw [cell?_mapCell] at atCell
  split at atCell
  · rename_i here
    obtain ⟨old, atOld, rfl⟩ := Option.map_eq_some_iff.mp atCell
    exact still old (by rw [here.1, here.2, atOld])
  · exact blank r' c' cell atCell below

end Grid

namespace DescriptionWalk

variable {mode : Mode} {before : List Char} {d : DescriptionWalk} {b : Inline} {rows : Nat} {n : Node}
  {left nodes : List Node}

/-- A child as it is met in a text; the definition loses the terms of its loose items. -/
def tidiedChild (n : Node) : Node := { n with children := Node.loosenedAll false n.children }

def tidiedAll (nodes : List Node) : List Node := (nodes.filter isEntry).map tidiedChild

/-- The walk over the table and the text beside it have come to the same. The text has `before` in front. -/
structure Tells (mode : Mode) (before : List Char) (d : DescriptionWalk) (b : Inline) : Prop where
  tracker : b.tracker = d.text.tracker
  clean : d.Clean
  ink : b.body.ink = before ++ d.grid.ink
  omitted : mode.emits = false → d.grid.ink = []

/-- The same between two children of the list. -/
structure Matches (mode : Mode) (before : List Char) (d : DescriptionWalk) (b : Inline) : Prop
    extends Tells mode before d b where
  outside : d.text.lists = []
  kind : b.listKind? = some .description

theorem Clean.blankFrom (clean : d.Clean) : d.grid.BlankFrom d.nextRow :=
  fun r c cell atCell below => congrArg Text.ink (clean r c cell atCell below)

/-- What is written for a term. -/
def termText (mode : Mode) (term : String) : String := if mode.emits then term else ""

theorem writeTerm_ink (shape : d.grid.HasShape rows 2) (inRow : d.nextRow < rows) (clean : d.Clean) (face : Face)
    (term : String) (mode : Mode) :
    (d.writeTerm face d.nextRow term mode).2.ink = d.grid.ink ++ Text.ink (termText mode term).toList ∧
      ((d.writeTerm face d.nextRow term mode).1 = false → (d.writeTerm face d.nextRow term mode).2 = d.grid) := by
  obtain ⟨cell, atCell⟩ := shape.cell?_isSome inRow (by decide : 0 < 2)
  have empty : d.grid.EmptyAfter d.nextRow 0 := fun r c other atOther after => clean r c other atOther (by omega)
  have nothing : d.grid.ink = d.grid.ink ++ Text.ink "".toList := (List.append_nil _).symm
  unfold DescriptionWalk.writeTerm termText
  rw [atCell]
  cases emits : mode.emits with
  | false => exact ⟨nothing, fun _ => rfl⟩
  | true =>
    cases termless : term.isEmpty with
    | true =>
      rw [String.isEmpty_iff.mp termless]
      exact ⟨nothing, fun _ => rfl⟩
    | false =>
      refine ⟨?_, nofun⟩
      exact empty.ink_mapCell atCell (TextBody.append_ink _ _ _ _)

/-- What an item writes into its row: its term and the text of its definition. -/
theorem filled_ink (shape : d.grid.HasShape rows 2) (inRow : d.nextRow < rows) (clean : d.Clean) (face : Face)
    {term : String} {inner : Mode} {cell : Cell} {text : Inline} {more : List Char}
    (atCell : (d.writeTerm face d.nextRow term inner).2.cell? d.nextRow 1 = some cell)
    (wrote : text.body.ink = cell.body.ink ++ more) :
    (filled d.nextRow (d.writeTerm face d.nextRow term inner) text).grid.ink =
      d.grid.ink ++ (Text.ink (termText inner term).toList ++ more) := by
  have empty : Grid.EmptyAfter _ d.nextRow 1 :=
    (clean.writeTerm face term inner).2.mono (.inr ⟨rfl, Nat.zero_le 1⟩)
  rw [filled, empty.ink_mapCell atCell wrote, (writeTerm_ink shape inRow clean face term inner).1, List.append_assoc]

/-- A row stays only if something was written into it. -/
theorem filled_blankFrom (shape : d.grid.HasShape rows 2) (inRow : d.nextRow < rows) (clean : d.Clean) (face : Face)
    {term : String} {inner : Mode} {cell : Cell} {text : Inline} {more : List Char}
    (atCell : (d.writeTerm face d.nextRow term inner).2.cell? d.nextRow 1 = some cell)
    (wrote : text.body.ink = cell.body.ink ++ more) (noted : more ≠ [] → text.emitted = true)
    (cleanLater : (filled d.nextRow (d.writeTerm face d.nextRow term inner) text).Clean) {cursor : RowCursor}
    (stands : (filled d.nextRow (d.writeTerm face d.nextRow term inner) text).cursor = some cursor) :
    (filled d.nextRow (d.writeTerm face d.nextRow term inner) text).grid.BlankFrom cursor.keptRows := by
  cases Option.some.inj stands
  cases shows : (d.writeTerm face d.nextRow term inner).1 || text.emitted with
  | true => simpa [RowCursor.keptRows, shows] using cleanLater.blankFrom
  | false =>
    obtain ⟨noTerm, noText⟩ := Bool.or_eq_false_iff.mp shows
    have untouched := (writeTerm_ink shape inRow clean face term inner).2 noTerm
    have nothing : more = [] :=
      Decidable.byContradiction fun written => Bool.false_ne_true (noText.symm.trans (noted written))
    have blank : d.grid.BlankFrom d.nextRow := clean.blankFrom
    rw [untouched] at atCell
    rw [nothing, List.append_nil] at wrote
    simp only [filled, untouched, shows, RowCursor.keptRows]
    refine blank.mapCell fun old atOld => ?_
    cases Option.some.inj (atCell.symm.trans atOld)
    exact wrote.trans (blank _ _ _ atCell (Nat.le_refl _))

theorem Matches.stands (matching : Matches mode before d b) : Inline.Stands false d.text b where
  tracker := matching.tracker
  outside _ := matching.outside
  kind := matching.kind

/-- An item is walked in the text as its children are, behind its term. -/
theorem visit_tidiedChild (kind : n.kind = .item) (rules : InlineRules) (b : Inline) (mode : Mode) :
    Inline.visit rules b mode (tidiedChild n) =
      Inline.visitAll rules ((b.gate (tidiedChild n) mode).2.startItem (tidiedChild n) (b.gate (tidiedChild n) mode).1)
        (b.gate (tidiedChild n) mode).1 (Node.loosenedAll false n.children) := by
  obtain ⟨_, overlay, params, payload, children⟩ := n
  cases kind
  rfl

/-- The definition starts behind the term in the text, and in its cell in the table. -/
theorem startItem_tidiedChild {text s : Inline} (gated : Inline.Stands false text s) (body : TextBody) (n : Node)
    (inner : Mode) :
    Inline.Stands false { text with body } (s.startItem (tidiedChild n) inner) ∧
      (s.startItem (tidiedChild n) inner).body.ink = s.body.ink ++ Text.ink (termText inner n.params).toList := by
  have restored : Inline.Restored s (s.startItem (tidiedChild n) inner) := .startItem s (tidiedChild n) inner
  refine ⟨⟨by simpa using gated.tracker, gated.outside, restored.listKind?.trans gated.kind⟩, ?_⟩
  rw [Inline.startItem_ink, Inline.termOf, gated.kind]
  simp [termText, tidiedChild]

/-- How an item ends in the table and in the text. -/
structure ItemTells (mode : Mode) (before : List Char) (found : Flow × DescriptionWalk) (other : Flow × Inline) :
    Prop where
  flow : other.1 = found.1
  tells : Tells mode before found.2 other.2
  level : found.1 = .completed → found.2.text.lists = [] ∧ other.2.listKind? = some .description
  blank : ∀ cursor, found.2.cursor = some cursor → found.2.grid.BlankFrom cursor.keptRows

/-- An item shows the same in its row of the table and in the text. -/
theorem item_tells {rules other : InlineRules} (asText : rules.policy = .asText)
    (otherAsText : other.policy = .asText) (fits : d.Fits rows (n :: left)) (kind : n.kind = .item)
    (matching : Matches mode before d b) (face : Face) :
    ItemTells mode before (d.item rules face mode n) (Inline.visit other b mode (tidiedChild n)) := by
  have cleanLater := (item_advanced fits kind matching.clean rules face mode).clean
  obtain ⟨cell, atCell, ran⟩ := item_eq fits.shape (fits.inRow kind) rules face mode n
  obtain ⟨sameMode, gated⟩ := matching.stands.gate (n := n) (m := tidiedChild n) rfl rfl mode
  have weaker : (d.text.gate n mode).1.emits = true → mode.emits = true := Inline.gate_emits
  -- from here on, only the results of the gates matter
  rw [visit_tidiedChild kind, sameMode]
  rw [ran] at cleanLater ⊢
  generalize (d.text.gate n mode).1 = inner at atCell ran cleanLater weaker ⊢
  generalize (d.text.gate n mode).2 = text at gated ran cleanLater ⊢
  obtain ⟨stands, termInk⟩ := startItem_tidiedChild gated cell.body n inner
  rw [Inline.gate_body] at termInk
  have below := Inline.visitAll_loosened asText otherAsText inner stands n.children
  have after := Inline.visitAll_restored rules { text with body := cell.body } inner n.children
  have afterOther := Inline.visitAll_restored other ((b.gate (tidiedChild n) mode).2.startItem (tidiedChild n) inner)
    inner (Node.loosenedAll false n.children)
  generalize Inline.visitAll rules { text with body := cell.body } inner n.children = found
    at ran cleanLater below after ⊢
  generalize Inline.visitAll other _ inner (Node.loosenedAll false n.children) = found' at below afterOther ⊢
  obtain ⟨more, wrote, wroteOther, noted⟩ := below.echo.wrote
  have inRow := fits.inRow kind
  have written := filled_ink fits.shape inRow matching.clean face atCell wrote
  refine ⟨below.flow, ⟨below.echo.tracker, cleanLater, ?_, fun omitted => ?_⟩, fun completed => ?_,
    fun cursor => ?_⟩
  · rw [wroteOther, termInk, matching.ink, written]
    simp only [List.append_assoc]
  · have omittedInner : inner.emits = false := by
      rw [Bool.eq_false_iff]
      exact fun emits => absurd (weaker emits) (by simp [omitted])
    have nothing : more = [] :=
      Decidable.byContradiction fun shows => Bool.false_ne_true (omittedInner.symm.trans (noted shows).2)
    rw [written, matching.omitted omitted, nothing, termText, if_neg (by simp [omittedInner])]
    rfl
  · have standsLater :=
      stands.restored (after completed) (afterOther (below.flow.trans completed)) below.echo.tracker
    exact ⟨standsLater.outside rfl, standsLater.kind⟩
  · exact filled_blankFrom fits.shape inRow matching.clean face atCell wrote (fun shows => (noted shows).1) cleanLater

theorem tidiedAll_entry (entry : isEntry n = true) (rest : List Node) :
    tidiedAll (n :: rest) = tidiedChild n :: tidiedAll rest := by
  rw [tidiedAll, List.filter_cons_of_pos entry, List.map_cons]
  rfl

theorem tidiedAll_other (other : isEntry n = false) (rest : List Node) : tidiedAll (n :: rest) = tidiedAll rest := by
  rw [tidiedAll, List.filter_cons_of_neg (by simp [other])]
  rfl

/-- A pause is walked in the text as in the table. -/
theorem visit_tidiedPause (kind : n.kind = .pause) (rules : InlineRules) (b : Inline) (mode : Mode) :
    Inline.visit rules b mode (tidiedChild n) = b.meetPause := by
  obtain ⟨_, overlay, params, payload, children⟩ := n
  cases kind
  rfl

/-- How the walk over the children ends in the table and in the text. -/
structure ListTells (mode : Mode) (before : List Char) (found : Option RowCursor × DescriptionWalk)
    (other : Flow × Inline) : Prop where
  flow : other.1 = DescriptionWalk.flow found.1
  tells : Tells mode before found.2 other.2
  blank : ∀ cursor, found.1 = some cursor → found.2.grid.BlankFrom cursor.keptRows

/-- Children of the list that stay are walked alike, and the others are passed over by the table and are not in
the text. -/
theorem steps_tells {rules other : InlineRules} (asText : rules.policy = .asText)
    (otherAsText : other.policy = .asText) (face : Face) (fits : d.Fits rows nodes)
    (matching : Matches mode before d b) :
    ListTells mode before (d.steps rules face mode nodes) (Inline.visitAll other b mode (tidiedAll nodes)) := by
  induction nodes generalizing d b with
  | nil => exact ⟨rfl, matching.toTells, nofun⟩
  | cons n rest ih =>
    rw [steps]
    cases kind : n.kind
    case item =>
      have item := item_tells asText otherAsText fits kind matching face
      obtain ⟨after, stands, _, _⟩ := fits.item kind rules face mode
      rw [tidiedAll_entry (by simp [isEntry, kind]), Inline.visitAll]
      simp only
      generalize d.item rules face mode n = found at item after stands
      generalize Inline.visit other b mode (tidiedChild n) = found' at item
      obtain ⟨flow, e⟩ := found
      obtain ⟨flow', t⟩ := found'
      cases item.flow
      cases flow with
      | completed =>
        obtain ⟨outside, innermost⟩ := item.level rfl
        exact ih after ⟨item.tells, outside, innermost⟩
      | paused =>
        refine ⟨?_, item.tells, item.blank⟩
        simp only at stands
        simp only [DescriptionWalk.flow, stands, if_true]
    case pause =>
      rw [tidiedAll_entry (by simp [isEntry, kind]), Inline.visitAll, visit_tidiedPause kind]
      simp only [Inline.meetPause, matching.tracker]
      rcases d.text.tracker.pause with ⟨flow, tracker⟩
      have met : Tells mode before { d with text := { d.text with tracker } } { b with tracker } :=
        ⟨rfl, matching.clean, matching.ink, matching.omitted⟩
      cases flow with
      | completed =>
        exact ih (fits.skip (by simp [kind]) { d.text with tracker }) ⟨met, matching.outside, matching.kind⟩
      | paused =>
        refine ⟨rfl, met, fun cursor atCursor => ?_⟩
        cases Option.some.inj atCursor
        exact matching.clean.blankFrom
    all_goals
      rw [tidiedAll_other (by simp [isEntry, kind])]
      exact ih (fits.skip (by simp [kind]) d.text) matching

/-- Before the first child, nothing is written in the table. -/
theorem start_matches (n : Node) (c : Context) (mode : Mode) (faces : FaceStack) {t : Tracker} {b : Inline}
    (tracker : b.tracker = t) (kind : b.listKind? = some .description) :
    Matches mode b.body.ink (start n c t faces) b := by
  have blank : (start n c t faces).grid.BlankFrom 0 :=
    fun r c' cell atCell _ => congrArg Text.ink (Grid.empty_cell_chars atCell)
  have nothing : (start n c t faces).grid.ink = [] := blank.ink_take.symm
  exact ⟨⟨tracker, start_clean n c t faces, by rw [nothing, List.append_nil], fun _ => nothing⟩, rfl, kind⟩

end DescriptionWalk

namespace Node

/-- A description list without what its table leaves out: children that are neither items nor pauses, and
the terms of items that stand in a definition outside of any list. -/
def tidied (n : Node) : Node := { n with children := DescriptionWalk.tidiedAll n.children }

/-- The table of the list leaves nothing out. -/
def isTidy (n : Node) : Bool :=
  n.children.all fun child => DescriptionWalk.isEntry child && termsInListsAll child.children

/-- A list of which the table leaves nothing out is tidied as it is. -/
theorem tidied_of_isTidy {n : Node} (tidy : n.isTidy = true) : n.tidied = n := by
  obtain ⟨kind, overlay, params, payload, children⟩ := n
  have tidyChildren : DescriptionWalk.tidiedAll children = children := by
    induction children with
    | nil => rfl
    | cons child rest ih =>
      obtain ⟨here, after⟩ := Bool.and_eq_true_iff.mp tidy
      obtain ⟨entry, only⟩ := Bool.and_eq_true_iff.mp here
      rw [DescriptionWalk.tidiedAll_entry entry, ih after, DescriptionWalk.tidiedChild,
        loosenedAll_of_termsInLists _ only]
      cases child
      rfl
  rw [tidied, tidyChildren]

variable {n : Node} {c : Context} {rules : InlineRules}

/-- What shows of a table as a walk over the list left it. -/
theorem descriptionBlock_ink {before : List Char} {mode : Mode} {found : Option RowCursor × DescriptionWalk}
    {other : Flow × Inline} (told : DescriptionWalk.ListTells mode before found other) :
    Text.ink (descriptionBlock mode found).chars = found.2.grid.ink := by
  rw [descriptionBlock, Block.chars, Grid.toShape?_chars]
  cases emits : mode.emits with
  | false => exact (told.tells.omitted emits).symm
  | true =>
    cases pausedAt : found.1 with
    | none => simp [Grid.kept, Grid.ink, Grid.chars]
    | some cursor => exact (told.blank cursor pausedAt).ink_take

/-- The walk over the text goes on to close the list. -/
theorem descriptionBlock_told {before : List Char} {mode : Mode} {found : Option RowCursor × DescriptionWalk}
    {other : Flow × Inline} (told : DescriptionWalk.ListTells mode before found other) :
    let block := descriptionBlock mode found
    let closed := Inline.andThen Inline.closeList other
    block.flow = closed.1 ∧ block.tracker = closed.2.tracker ∧ closed.2.body.ink = before ++ Text.ink block.chars := by
  intro block closed
  have shown : Text.ink block.chars = found.2.grid.ink := descriptionBlock_ink told
  have kept : closed.1 = other.1 ∧ closed.2.tracker = other.2.tracker ∧ closed.2.body = other.2.body := by
    obtain ⟨flow, t⟩ := other
    cases flow <;> exact ⟨rfl, rfl, rfl⟩
  rw [kept.1, kept.2.1, kept.2.2, shown]
  exact ⟨told.flow.symm, told.tells.tracker.symm, told.tells.ink⟩

theorem visit_tidied (list : n.kind = .list .description) (asText : rules.policy = .asText) (s : Inline) (mode : Mode) :
    Inline.visit rules s mode n.tidied =
      Inline.andThen Inline.closeList
        (Inline.visitAll rules ((s.gate n mode).2.openList .description) (s.gate n mode).1
          (DescriptionWalk.tidiedAll n.children)) := by
  obtain ⟨_, overlay, params, payload, children⟩ := n
  cases list
  simp only [tidied, Inline.visit, Inline.defers_asText asText, Bool.false_eq_true, if_false]
  rfl

/-- The table of a description list and its text agree, once the list is tidied. Of the children of the list, the
table has only items and pauses, and an item that stands loose in a definition has no term there; the tidied list
is without them. -/
theorem renderDescription_flattened (list : n.kind = .list .description) (asText : c.policy = .asText)
    (otherAsText : rules.policy = .asText) (s : Inline) (faces : FaceStack) (mode : Mode) :
    let block := n.renderDescription c s.tracker faces mode
    let found := Inline.visit rules s mode n.tidied
    block.flow = found.1 ∧ block.tracker = found.2.tracker ∧
      found.2.body.ink = s.body.ink ++ Text.ink block.chars ∧ (n.isTidy = true → n.tidied = n) := by
  intro block found
  have cells : c.cellRules.policy = .asText := asText
  have start := DescriptionWalk.start_matches n c (s.gate n mode).1 faces
    (b := (s.gate n mode).2.openList .description) (Inline.gate_tracker s n mode) rfl
  have told :=
    DescriptionWalk.steps_tells cells otherAsText faces.current (DescriptionWalk.start_fits n c _ faces) start
  have walked : found = Inline.andThen Inline.closeList _ := visit_tidied list otherAsText s mode
  obtain ⟨flow, tracker, ink⟩ := descriptionBlock_told told
  rw [← walked, Inline.openList_ink, Inline.gate_body] at ink
  rw [← walked] at flow tracker
  exact ⟨flow, tracker, ink, tidied_of_isTidy⟩

/-- A list of two items with a pause between them. -/
def pausedGlossary : Node :=
  ⟨.list .description, .none, "", none,
    [⟨.item, .none, "T", none, [.ofText "x"]⟩, ⟨.pause, .none, "", none, []⟩,
      ⟨.item, .none, "U", none, [.ofText "y"]⟩]⟩

/-- A tidy list whose pause ends the walk in both forms. -/
theorem renderDescription_flattened_pausedGlossary :
    let c : Context := ⟨.standard, fun name => .error (.imageNotFound name []), .zero⟩
    let s : Inline := .ofFaces (.ofState .first) (.ofBase 11) default
    let block := pausedGlossary.renderDescription c s.tracker (.ofBase 11) .visible
    let found := Inline.visit c.cellRules s .visible pausedGlossary
    pausedGlossary.kind = .list .description ∧ c.policy = .asText ∧ c.cellRules.policy = .asText ∧
      pausedGlossary.isTidy = true ∧ block.flow = .paused ∧ found.1 = .paused ∧ block.tracker = found.2.tracker ∧
      Text.ink block.chars = ['T', 'x'] ∧ found.2.body.ink = ['T', 'x'] := by
  intro c s block found
  have asText : c.policy = .asText := by decide
  have cells : c.cellRules.policy = .asText := asText
  have tidy : pausedGlossary.isTidy = true := by decide
  have ended : block.flow = .paused := by decide
  have shown : Text.ink block.chars = ['T', 'x'] := by decide
  obtain ⟨flow, tracker, ink, same⟩ :=
    renderDescription_flattened (n := pausedGlossary) (c := c) rfl asText cells s (.ofBase 11) .visible
  rw [same tidy] at flow tracker ink
  exact ⟨rfl, asText, cells, tidy, ended, flow.symm.trans ended, tracker, shown, ink.trans shown⟩

/-- A list whose only item holds another one outside of any list, with a pause behind it in content that
is uncovered on the third pass. -/
def untidyGlossary : Node :=
  ⟨.list .description, .none, "", none,
    [⟨.item, .none, "a", none, [⟨.item, .none, "b", none, [.ofText "c"]⟩]⟩,
      ⟨.veil .uncover, .ofSpec "3", "", none, [⟨.pause, .none, "", none, []⟩]⟩]⟩

/-- Of a list that is not tidy, the table and the text disagree in all respects. -/
theorem renderDescription_untidyGlossary :
    let c : Context := ⟨.standard, fun name => .error (.imageNotFound name []), .zero⟩
    let s : Inline := .ofFaces (.ofState .first) (.ofBase 11) default
    let block := untidyGlossary.renderDescription c s.tracker (.ofBase 11) .visible
    let found := Inline.visit c.cellRules s .visible untidyGlossary
    c.policy = .asText ∧ block.flow = .completed ∧ found.1 = .paused ∧
      block.tracker.reached = 0 ∧ found.2.tracker.reached = 1 ∧
      block.tracker.maxPass = 1 ∧ found.2.tracker.maxPass = 3 ∧
      Text.ink block.chars = ['a', 'c'] ∧ found.2.body.ink = ['a', 'b', 'c'] := by
  decide

end Node

end Unveil
