import Unveil.Proofs.Content.Asks
import Unveil.Proofs.Reveal.Blocks

namespace Unveil

/-- Line breaks between paragraphs make no difference to whether a text is blank. -/
theorem TextBody.plainText_blank (b : TextBody) :
    Text.allBlank b.plainText.toList = Text.allBlank b.chars := by
  have paragraph (p : Paragraph) : p.text.toList = p.chars := by
    simp only [Paragraph.text, Paragraph.chars, String.toList_join, List.flatMap_map]
    rfl
  unfold plainText chars Text.allBlank
  rw [String.toList_intercalate, List.map_map]
  induction b.paragraphs with
  | nil => rfl
  | cons p rest ih =>
    cases rest with
    | nil => simp [List.intercalate, paragraph]
    | cons q more =>
      simp only [List.map_cons, List.intercalate_cons_cons, List.all_append, List.flatMap_cons] at ih ⊢
      rw [ih]
      simp [paragraph, Text.isBlank]

namespace Content.Walk

/-- The characters of a text that is placed when it is closed. -/
def pending : Option TextBody → List Char
  | none => []
  | some body => if Text.allBlank body.chars then [] else body.chars

/-- The characters that a walk shows when it ends. -/
def shown (w : Walk) : List Char := w.flow.chars ++ pending w.text

/-- All that one walk shows and puts off is also shown and put off by the other, and comes first there. -/
structure Behind (w v : Walk) : Prop where
  shown : w.shown <+: v.shown
  deferred : w.deferred <+: v.deferred

def allow (pauses : Nat) (w : Walk) : Walk := { w with tracker := w.tracker.allow pauses }

theorem pending_prefix {b d : TextBody} (grown : b.chars <+: d.chars) :
    pending (some b) <+: pending (some d) := by
  simp only [pending]
  by_cases blank : Text.allBlank b.chars
  · rw [if_pos blank]
    exact List.nil_prefix
  · have visible : ¬Text.allBlank d.chars := by
      obtain ⟨more, eq⟩ := grown
      rw [← eq, Text.allBlank, List.all_append, Bool.and_eq_true]
      exact fun both => blank both.1
    rw [if_neg blank, if_neg visible]
    exact grown

theorem closeText_text (w : Walk) : w.closeText.text = none := by
  unfold closeText
  split
  · rename_i closed
    exact closed
  · simp only
    split <;> rfl

@[simp]
theorem closeText_shown (w : Walk) : w.closeText.shown = w.shown := by
  unfold closeText
  split
  · rfl
  · rename_i body opened
    simp only [TextBody.plainText_blank]
    split
    · rename_i blank
      simp [shown, opened, pending, blank]
    · rename_i visible
      simp [shown, push, opened, pending, visible]

/-- What a walk shows is what the shapes of its flow have when it ends. -/
theorem close_chars (w : Walk) : Shape.charsAll w.close.flow.shapes = w.shown := by
  rw [ShapeFlow.shapes_chars, close, ShapeFlow.flush_chars, ← w.closeText_shown, shown, closeText_text]
  exact (List.append_nil _).symm

theorem placeBlock_shown {w : Walk} (closed : w.text = none) (b : Block) :
    (w.placeBlock b).2.shown = w.shown ++ b.chars := by
  unfold placeBlock Block.chars
  cases b.shape with
  | none => simp [shown]
  | some s => simp [shown, push, closed, pending]

theorem placeBlock_deferred (w : Walk) (b : Block) :
    (w.placeBlock b).2.deferred = w.deferred ++ b.deferred := by
  unfold placeBlock
  cases b.shape <;> rfl

/-- The content after the text of a list was written. -/
def enlisted (w : Walk) (text : Inline) : Walk :=
  let w := { w with tracker := text.tracker, deferred := w.deferred ++ text.deferred }
  if text.body.isBlank then w else w.push (.ofBody .zero text.body)

/-- The text of a list before its first node. -/
def listStart (w : Walk) : Inline := .ofFaces w.tracker w.faces (.ofSize w.faces.current.size)

theorem list_eq (w : Walk) (c : Context) (n : Node) (mode : Mode) :
    w.list c n mode =
      ((Inline.visit c.listRules w.closeText.listStart mode n).1,
        w.closeText.enlisted (Inline.visit c.listRules w.closeText.listStart mode n).2) := rfl

theorem enlisted_shown {w : Walk} (closed : w.text = none) (text : Inline) :
    (w.enlisted text).shown = w.shown ++ text.body.chars := by
  unfold enlisted
  cases blank : text.body.isBlank with
  | true => simp [shown, TextBody.chars_eq_nil blank]
  | false => simp [shown, push, closed, pending]

theorem enlisted_deferred (w : Walk) (text : Inline) :
    (w.enlisted text).deferred = w.deferred ++ text.deferred := by
  unfold enlisted
  simp only
  split <;> rfl

namespace Behind

variable {w v u : Walk}

theorem refl (w : Walk) : Behind w w := ⟨List.prefix_rfl, List.prefix_rfl⟩

theorem trans (first : Behind w v) (second : Behind v u) : Behind w u :=
  ⟨first.shown.trans second.shown, first.deferred.trans second.deferred⟩

/-- A step that shows nothing. -/
theorem quiet (shown : v.shown = w.shown) (deferred : v.deferred = w.deferred) : Behind w v :=
  ⟨shown ▸ List.prefix_rfl, deferred ▸ List.prefix_rfl⟩

theorem closeText (w : Walk) : Behind w w.closeText := .quiet w.closeText_shown w.closeText_deferred

theorem push (closed : w.text = none) (s : Shape) : Behind w (w.push s) := by
  refine ⟨?_, List.prefix_rfl⟩
  simp only [Walk.shown, Walk.push, closed, pending, List.append_nil, ShapeFlow.push_chars]
  exact List.prefix_append _ _

theorem append (w : Walk) (text : String) (mode : Mode) : Behind w (w.append text mode) := by
  unfold Walk.append
  split
  · refine ⟨(List.prefix_append_right_inj _).mpr ?_, List.prefix_rfl⟩
    cases w.text with
    | none => exact List.nil_prefix
    | some body => exact pending_prefix (TextBody.append_prefix _ _ _ _)
  · exact refl w

theorem breakParagraph (w : Walk) (mode : Mode) : Behind w (w.breakParagraph mode) := by
  unfold Walk.breakParagraph
  split
  · refine (closeText w).trans (quiet ?_ rfl)
    simp [Walk.shown]
  · exact refl w

theorem placeBlock (closed : w.text = none) (b : Block) : Behind w (w.placeBlock b).2 := by
  refine ⟨?_, ?_⟩
  · rw [placeBlock_shown closed]
    exact List.prefix_append _ _
  · rw [placeBlock_deferred]
    exact List.prefix_append _ _

theorem list (w : Walk) (c : Context) (n : Node) (mode : Mode) : Behind w (w.list c n mode).2 := by
  rw [list_eq]
  refine (closeText w).trans ⟨?_, ?_⟩
  · rw [enlisted_shown w.closeText_text]
    exact List.prefix_append _ _
  · rw [enlisted_deferred]
    exact List.prefix_append _ _

theorem image {c : Context} {n : Node} {mode : Mode} (placed : w.image c n mode = .ok u) :
    Behind w u := by
  refine (closeText w).trans ?_
  have closed : (w.closeText.gate n mode).2.text = none := w.closeText_text
  have gate : Behind w.closeText (w.closeText.gate n mode).2 := .quiet rfl rfl
  unfold Walk.image at placed
  simp only at placed
  split at placed
  · cases found : c.findImage (String.ofList (Text.trim (n.content?.getD "").toList)) with
    | error error =>
      rw [found] at placed
      cases placed
    | ok path =>
      rw [found] at placed
      cases Except.ok.inj placed
      exact gate.trans (push closed _)
  · cases Except.ok.inj placed
    exact gate

end Behind

/-- The content after its title page was walked. -/
def entitled (w : Walk) (mode : Mode) (page : TitlePage.Walk) : Walk :=
  match TitlePage.group? page.members with
  | some s => { w with tracker := page.tracker, flow := w.flow.pushBlock (s.withHidden mode.isHidden) }
  | none => { w with tracker := page.tracker }

theorem title_eq (w : Walk) (c : Context) (n : Node) (mode : Mode) :
    w.title c n mode =
      let gated := w.closeText.gate n mode
      let page :=
        TitlePage.walk ⟨[], 0.0, gated.2.tracker⟩ w.faces.base c.area.width gated.1 w.titlePage.parts
      (page.1, gated.2.entitled gated.1 page.2) := by
  have titlePage : (w.closeText.gate n mode).2.titlePage = w.titlePage := w.closeText_titlePage
  have faces : (w.closeText.gate n mode).2.faces = w.faces := w.closeText_faces
  unfold title entitled
  simp only [titlePage, faces, TitlePage.render]
  generalize TitlePage.walk _ _ _ _ _ = page
  cases TitlePage.group? page.2.members <;> rfl

theorem entitled_shown {w : Walk} (closed : w.text = none) (mode : Mode) (page : TitlePage.Walk) :
    (w.entitled mode page).shown = w.shown ++ Shape.charsAll page.members := by
  unfold entitled
  rw [← TitlePage.group?_chars]
  cases TitlePage.group? page.members with
  | none => simp [shown]
  | some s => simp [shown, closed, pending]

theorem entitled_deferred (w : Walk) (mode : Mode) (page : TitlePage.Walk) :
    (w.entitled mode page).deferred = w.deferred := by
  unfold entitled
  split <;> rfl

theorem Behind.title (w : Walk) (c : Context) (n : Node) (mode : Mode) :
    Behind w (w.title c n mode).2 := by
  rw [title_eq]
  have closed : (w.closeText.gate n mode).2.text = none := w.closeText_text
  refine (Behind.closeText w).trans ⟨?_, ?_⟩
  · rw [entitled_shown closed]
    exact List.prefix_append _ _
  · rw [entitled_deferred]
    exact List.prefix_rfl

theorem Behind.andThen {w : Walk} {found : Except DeckError (Flow × Walk)} {flow : Flow} {u : Walk}
    (inside : ∀ flow v, found = .ok (flow, v) → Behind w v)
    (closed : andThen closeStyle found = .ok (flow, u)) :
    Behind w u := by
  rcases found with error | ⟨ended, v⟩
  · cases closed
  · have behind := inside ended v rfl
    cases ended with
    | completed =>
      cases Except.ok.inj closed
      exact behind.trans (.quiet rfl rfl)
    | paused =>
      cases Except.ok.inj closed
      exact behind

mutual

/-- A walk only adds to what is shown and put off. -/
theorem behind_visit {c : Context} {w u : Walk} {mode : Mode} {flow : Flow} :
    ∀ n : Node, visit c w mode n = .ok (flow, u) → Behind w u
  | ⟨kind, overlay, params, payload, children⟩ => fun visited => by
    cases kind with
    | text =>
      simp only [visit] at visited
      split at visited
      · cases Except.ok.inj visited
        exact .append w _ mode
      · cases Except.ok.inj visited
        exact .refl _
    | paragraph =>
      cases Except.ok.inj visited
      exact .breakParagraph w mode
    | pause =>
      simp only [visit, Except.ok.injEq, Prod.mk.injEq, meetPause] at visited
      obtain ⟨rfl, rfl⟩ := visited
      exact .quiet rfl rfl
    | style command =>
      simp only [visit] at visited
      refine Behind.andThen (fun flow v inside => ?_) visited
      have behind := behind_visitAll children inside
      exact ⟨behind.shown, behind.deferred⟩
    | veil | item =>
      simp only [visit] at visited
      have behind := behind_visitAll children visited
      exact ⟨behind.shown, behind.deferred⟩
    | list kind =>
      cases kind with
      | description =>
        have behind := Behind.placeBlock w.closeText_text (Node.renderDescription
          ⟨.list .description, overlay, params, payload, children⟩ c w.closeText.tracker
            w.closeText.faces mode)
        simp only [visit, Except.ok.injEq] at visited
        rw [visited] at behind
        exact (Behind.closeText w).trans behind
      | bullet | numbered =>
        simp only [visit, Except.ok.injEq] at visited
        have left : _ = u := congrArg Prod.snd visited
        rw [← left]
        exact .list w c _ mode
    | tabular =>
      simp only [visit] at visited
      cases rendered : (⟨.tabular, overlay, params, payload, children⟩ : Node).renderTable c
        w.closeText.tracker w.closeText.faces mode with
      | error error =>
        rw [rendered] at visited
        cases visited
      | ok block =>
        rw [rendered] at visited
        cases Except.ok.inj visited
        exact (Behind.closeText w).trans (.placeBlock w.closeText_text block)
    | image =>
      simp only [visit] at visited
      cases placed : w.image c ⟨.image, overlay, params, payload, children⟩ mode with
      | error error =>
        rw [placed] at visited
        cases visited
      | ok v =>
        rw [placed] at visited
        cases Except.ok.inj visited
        exact .image placed
    | titlePage =>
      have behind := Behind.title w c ⟨.titlePage, overlay, params, payload, children⟩ mode
      simp only [visit, Except.ok.injEq] at visited
      rwa [visited] at behind
    | titleField =>
      cases Except.ok.inj visited
      exact .quiet rfl rfl
    | multiColumn | part | unrecognized =>
      simp only [visit] at visited
      exact behind_visitAll children visited
    | tableColumn | tableRow | hline | cline | frameTitle | frameSubtitle | heading | graphicsPath | path =>
      cases Except.ok.inj visited
      exact .refl _

theorem behind_visitAll {c : Context} {w u : Walk} {mode : Mode} {flow : Flow} :
    ∀ nodes : List Node, visitAll c w mode nodes = .ok (flow, u) → Behind w u
  | [] => fun visited => by
    cases Except.ok.inj visited
    exact .refl _
  | n :: rest => fun visited => by
    rw [visitAll] at visited
    rcases found : visit c w mode n with error | ⟨ended, v⟩
    · rw [found] at visited
      cases visited
    · rw [found] at visited
      have first := behind_visit n found
      cases ended with
      | paused =>
        cases Except.ok.inj visited
        exact first
      | completed => exact first.trans (behind_visitAll rest visited)

end

section

variable (w : Walk) (n : Node) (mode : Mode) (pauses : Nat)

theorem closeText_allow : (w.allow pauses).closeText = w.closeText.allow pauses := by
  cases text : w.text with
  | none => simp only [closeText, allow, text]
  | some body =>
    simp only [closeText, allow, text]
    split <;> rfl

theorem append_allow (text : String) :
    (w.allow pauses).append text mode = (w.append text mode).allow pauses := by
  unfold append
  split <;> rfl

theorem breakParagraph_allow :
    (w.allow pauses).breakParagraph mode = (w.breakParagraph mode).allow pauses := by
  unfold breakParagraph
  split
  · rw [closeText_allow]
    rfl
  · rfl

theorem gate_allow :
    (w.allow pauses).gate n mode = ((w.gate n mode).1, (w.gate n mode).2.allow pauses) := by
  simp only [gate, allow, Mode.gate_allow]

theorem image_allow (c : Context) :
    (w.allow pauses).image c n mode = (w.image c n mode).map (allow pauses) := by
  unfold image
  rw [closeText_allow, gate_allow]
  simp only
  split
  · cases c.findImage (String.ofList (Text.trim (n.content?.getD "").toList)) <;> rfl
  · rfl

end

variable {w : Walk} {pauses : Nat}

/-- A block takes its tracker along. -/
theorem placeBlock_reveals (found more : Except DeckError Block) (closed : w.text = none)
    (reveals : RevealsOk (Block.allow pauses) Block.Behind (found.map Block.ended)
      (more.map Block.ended)) :
    RevealsOk (allow pauses) Behind (found.map w.placeBlock)
      (more.map (w.allow pauses).placeBlock) := by
  have ended (v : Walk) (rendered : Except DeckError Block) :
      rendered.map v.placeBlock = (rendered.map Block.ended).map fun r =>
        (r.1, (v.placeBlock r.2).2) := by
    cases rendered <;> rfl
  rw [ended, ended]
  refine reveals.map (f := fun _ b => (w.placeBlock b).2)
    (g := fun _ b => ((w.allow pauses).placeBlock b).2)
    (fun b => ?_) fun _ b d behind => ⟨?_, ?_⟩
  · unfold placeBlock
    simp only [Block.allow]
    cases b.shape <;> rfl
  · rw [placeBlock_shown closed, placeBlock_shown (w := w.allow pauses) closed]
    exact (List.prefix_append_right_inj _).mpr behind.chars
  · rw [placeBlock_deferred, placeBlock_deferred]
    exact (List.prefix_append_right_inj _).mpr behind.deferred

theorem list_reveals (c : Context) (n : Node) (mode : Mode) (more : w.tracker.state.pauses ≤ pauses) :
    Reveals (allow pauses) Behind (w.list c n mode) ((w.allow pauses).list c n mode) := by
  rw [list_eq, list_eq, closeText_allow]
  have state : w.closeText.listStart.tracker.state.pauses ≤ pauses := by
    rw [listStart, Inline.ofFaces, closeText_tracker]
    exact more
  have walked := Inline.visit_reveals c.listRules w.closeText.listStart mode state n
  refine walked.map (f := fun _ => w.closeText.enlisted)
    (g := fun _ => (w.closeText.allow pauses).enlisted)
    (fun text => ?_) fun _ text other behind => ⟨?_, ?_⟩
  · cases blank : text.body.isBlank <;>
      simp only [enlisted, Inline.allow, blank, Bool.false_eq_true, if_false, if_true] <;> rfl
  · rw [enlisted_shown w.closeText_text,
      enlisted_shown (w := w.closeText.allow pauses) w.closeText_text]
    exact (List.prefix_append_right_inj _).mpr behind.body
  · rw [enlisted_deferred, enlisted_deferred]
    exact (List.prefix_append_right_inj _).mpr behind.deferred

theorem title_reveals (c : Context) (n : Node) (mode : Mode) (more : w.tracker.state.pauses ≤ pauses) :
    Reveals (allow pauses) Behind (w.title c n mode) ((w.allow pauses).title c n mode) := by
  rw [title_eq, title_eq, closeText_allow, gate_allow]
  have closed : (w.closeText.gate n mode).2.text = none := w.closeText_text
  have state : (w.closeText.gate n mode).2.tracker.state.pauses ≤ pauses := by simpa [gate] using more
  have walked :=
    TitlePage.walk_reveals (w := ⟨[], 0.0, (w.closeText.gate n mode).2.tracker⟩) w.faces.base
      c.area.width (w.closeText.gate n mode).1 w.titlePage.parts state
  refine walked.map (f := fun _ => (w.closeText.gate n mode).2.entitled (w.closeText.gate n mode).1)
    (g := fun _ => ((w.closeText.gate n mode).2.allow pauses).entitled (w.closeText.gate n mode).1)
    (fun page => ?_) fun _ page other behind => ⟨?_, ?_⟩
  · unfold entitled
    simp only [TitlePage.Walk.allow]
    split <;> rfl
  · rw [entitled_shown closed, entitled_shown (w := (w.closeText.gate n mode).2.allow pauses) closed]
    exact (List.prefix_append_right_inj _).mpr behind
  · rw [entitled_deferred, entitled_deferred]
    exact List.prefix_rfl

theorem andThen_reveals {found more : Except DeckError (Flow × Walk)}
    (reveals : RevealsOk (allow pauses) Behind found more) :
    RevealsOk (allow pauses) Behind (andThen closeStyle found) (andThen closeStyle more) := by
  cases reveals with
  | completed w => exact .completed w.closeStyle
  | @paused w more behind =>
    refine .paused fun flow u closed => ?_
    exact Behind.andThen (fun ended v eq => behind ended v eq) closed
  | failed error => exact .failed error _

mutual

/-- Of two walks over a node, the one that lets more pauses through shows what the other shows, and more after
it. -/
theorem visit_reveals {c : Context} {w : Walk} (mode : Mode) (more : w.tracker.state.pauses ≤ pauses) :
    ∀ n : Node, RevealsOk (allow pauses) Behind (visit c w mode n) (visit c (w.allow pauses) mode n)
  | ⟨kind, overlay, params, payload, children⟩ => by
    cases kind with
    | text =>
      simp only [visit]
      split
      · rw [append_allow]
        exact .completed _
      · exact .completed w
    | paragraph =>
      simp only [visit, breakParagraph_allow]
      exact .completed _
    | pause =>
      simp only [visit, meetPause]
      rcases paused : w.tracker.pause with ⟨flow, t⟩
      cases flow with
      | completed =>
        have through : (w.allow pauses).tracker.pause = (.completed, t.allow pauses) :=
          Tracker.pause_allow more paused
        rw [through]
        exact .completed { w with tracker := t }
      | paused =>
        refine .paused fun flow u eq => ?_
        cases Except.ok.inj eq
        exact .quiet rfl rfl
    | style command =>
      simp only [visit]
      exact andThen_reveals (visitAll_reveals (w := w.openStyle _) mode more children)
    | veil | item =>
      simp only [visit, gate_allow]
      have state (n : Node) : (w.gate n mode).2.tracker.state.pauses ≤ pauses := by
        simpa [gate] using more
      exact visitAll_reveals _ (state _) children
    | list kind =>
      cases kind with
      | description =>
        have state : w.closeText.tracker.state.pauses ≤ pauses := by rwa [closeText_tracker]
        have block :=
          Node.renderDescription_reveals ⟨.list .description, overlay, params, payload, children⟩ c
            w.closeText.faces mode state
        simp only [visit, closeText_allow]
        exact placeBlock_reveals (.ok _) (.ok _) w.closeText_text block.ok
      | bullet | numbered => exact (list_reveals c _ mode more).ok
    | tabular =>
      have state : w.closeText.tracker.state.pauses ≤ pauses := by rwa [closeText_tracker]
      simp only [visit, closeText_allow]
      exact placeBlock_reveals _ _ w.closeText_text
        (Node.renderTable_reveals _ c w.closeText.faces mode state)
    | image =>
      simp only [visit, image_allow]
      cases w.image c ⟨.image, overlay, params, payload, children⟩ mode with
      | error error => exact .failed error _
      | ok v => exact .completed v
    | titlePage => exact (title_reveals c _ mode more).ok
    | titleField => exact .completed _
    | multiColumn | part | unrecognized => exact visitAll_reveals mode more children
    | tableColumn | tableRow | hline | cline | frameTitle | frameSubtitle | heading | graphicsPath | path =>
      exact .completed w

theorem visitAll_reveals {c : Context} {w : Walk} (mode : Mode)
    (more : w.tracker.state.pauses ≤ pauses) :
    ∀ nodes : List Node,
      RevealsOk (allow pauses) Behind (visitAll c w mode nodes) (visitAll c (w.allow pauses) mode nodes)
  | [] => .completed w
  | n :: rest => by
    have first := visit_reveals (c := c) mode more n
    have state {u : Walk} {flow : Flow} (visited : visit c w mode n = .ok (flow, u)) :=
      Tracker.answer_state (visit_answers n visited).answer
    rw [visitAll, visitAll]
    generalize visit c w mode n = found at first state
    generalize visit c (w.allow pauses) mode n = foundMore at first
    cases first with
    | completed v => exact visitAll_reveals mode (state rfl ▸ more) rest
    | @paused v _ behind =>
      refine .paused fun flow u visited => ?_
      rcases foundMore with error | ⟨ended, before⟩
      · cases visited
      · have grown := behind ended before rfl
        cases ended with
        | completed => exact grown.trans (behind_visitAll rest visited)
        | paused =>
          cases Except.ok.inj visited
          exact grown
    | failed error => exact .failed error _

end

theorem behind_visitEach {c : Context} {w u : Walk} {flow : Flow} {nodes : List Deferred}
    (visited : visitEach c w nodes = .ok (flow, u)) : Behind w u := by
  induction nodes generalizing w with
  | nil =>
    cases Except.ok.inj visited
    exact .refl _
  | cons d rest ih =>
    rw [visitEach] at visited
    rcases found : visit c w d.mode d.node with error | ⟨ended, v⟩
    · rw [found] at visited
      cases visited
    · rw [found] at visited
      have first := behind_visit d.node found
      cases ended with
      | paused =>
        cases Except.ok.inj visited
        exact first
      | completed => exact first.trans (ih visited)

theorem visitEach_reveals {c : Context} {w : Walk} (more : w.tracker.state.pauses ≤ pauses)
    (nodes : List Deferred) :
    RevealsOk (allow pauses) Behind (visitEach c w nodes) (visitEach c (w.allow pauses) nodes) := by
  induction nodes generalizing w with
  | nil => exact .completed w
  | cons d rest ih =>
    have first := visit_reveals (c := c) d.mode more d.node
    have state {u : Walk} {flow : Flow} (visited : visit c w d.mode d.node = .ok (flow, u)) :=
      Tracker.answer_state (visit_answers d.node visited).answer
    rw [visitEach, visitEach]
    generalize visit c w d.mode d.node = found at first state
    generalize visit c (w.allow pauses) d.mode d.node = foundMore at first
    cases first with
    | completed v => exact ih (state rfl ▸ more)
    | @paused v _ behind =>
      refine .paused fun flow u visited => ?_
      rcases foundMore with error | ⟨ended, before⟩
      · cases visited
      · have grown := behind ended before rfl
        cases ended with
        | completed => exact grown.trans (behind_visitEach visited)
        | paused =>
          cases Except.ok.inj visited
          exact grown
    | failed error => exact .failed error _

/-- A pass on which more pauses are let through shows the same text and more after it, and puts off the
same blocks and more after them. -/
theorem run_prefix_of_pauses_le (c : Context) (titlePage : TitlePage) (flow : ShapeFlow)
    (nodes : List Deferred)
    (pass : Nat) {pauses more : Nat} (le : pauses ≤ more) {ended endedMore : Flow} {w v : Walk}
    (ran : (start c (.ofState ⟨pass, pauses⟩) titlePage flow).run c nodes = .ok (ended, w))
    (ranMore : (start c (.ofState ⟨pass, more⟩) titlePage flow).run c nodes = .ok (endedMore, v)) :
    Shape.charsAll w.flow.shapes <+: Shape.charsAll v.flow.shapes ∧ w.deferred <+: v.deferred := by
  have reveals : RevealsOk (allow more) Behind
      (visitEach c (start c (.ofState ⟨pass, pauses⟩) titlePage flow) nodes)
      (visitEach c (start c (.ofState ⟨pass, more⟩) titlePage flow) nodes) := visitEach_reveals le nodes
  have behind : ∃ x y, w = close x ∧ v = close y ∧ Behind x y := by
    unfold run at ran ranMore
    generalize visitEach c (start c (.ofState ⟨pass, pauses⟩) titlePage flow) nodes = found
      at reveals ran
    generalize visitEach c (start c (.ofState ⟨pass, more⟩) titlePage flow) nodes = foundMore
      at reveals ranMore
    cases reveals with
    | completed x =>
      cases Except.ok.inj ran
      cases Except.ok.inj ranMore
      exact ⟨x, x.allow more, rfl, rfl, .quiet rfl rfl⟩
    | @paused x _ behind =>
      rcases foundMore with error | ⟨last, y⟩
      · cases ranMore
      · cases Except.ok.inj ran
        cases Except.ok.inj ranMore
        exact ⟨x, y, rfl, rfl, behind _ y rfl⟩
    | failed error => cases ran
  obtain ⟨x, y, rfl, rfl, behind⟩ := behind
  rw [close_chars, close_chars]
  refine ⟨behind.shown, ?_⟩
  simpa [close] using behind.deferred

/-- Text before and after a pause. -/
def greeting : List Deferred :=
  [⟨.ofText "Hello ", .visible⟩, ⟨⟨.pause, .none, "", none, []⟩, .visible⟩, ⟨.ofText "World", .visible⟩]

theorem run_prefix_of_pauses_le_greeting :
    ∃ w v : Walk,
      (start ⟨.standard, fun name => .error (.imageNotFound name []), .zero⟩
        (.ofState ⟨2, 0⟩) .empty default).run
        ⟨.standard, fun name => .error (.imageNotFound name []), .zero⟩ greeting = .ok (.paused, w) ∧
      (start ⟨.standard, fun name => .error (.imageNotFound name []), .zero⟩
        (.ofState ⟨2, 1⟩) .empty default).run
        ⟨.standard, fun name => .error (.imageNotFound name []), .zero⟩ greeting = .ok (.completed, v) ∧
      Shape.charsAll w.flow.shapes = "Hello ".toList ∧
        Shape.charsAll v.flow.shapes = "Hello World".toList ∧
      Shape.charsAll w.flow.shapes <+: Shape.charsAll v.flow.shapes := by
  refine ⟨_, _, rfl, rfl, rfl, rfl, ?_⟩
  exact (run_prefix_of_pauses_le _ _ _ greeting 2 (Nat.zero_le 1) rfl rfl).1

end Content.Walk

end Unveil
