import Unveil.Pass.Content
import Unveil.Proofs.Table.Description
import Unveil.Proofs.Title

namespace Unveil

namespace Content.Walk

variable (w : Walk) (mode : Mode)

@[simp]
theorem closeText_tracker : w.closeText.tracker = w.tracker := by
  unfold closeText
  split
  · rfl
  · simp only; split <;> rfl

@[simp]
theorem closeText_titlePage : w.closeText.titlePage = w.titlePage := by
  unfold closeText
  split
  · rfl
  · simp only; split <;> rfl

@[simp]
theorem closeText_deferred : w.closeText.deferred = w.deferred := by
  unfold closeText
  split
  · rfl
  · simp only; split <;> rfl

@[simp]
theorem closeText_faces : w.closeText.faces = w.faces := by
  unfold closeText
  split
  · rfl
  · simp only; split <;> rfl

mutual

/-- The title page after a node was walked. A title page asks what its values ask, and those may be set by the
content before it. -/
def titled (p : TitlePage) : Node → TitlePage
  | n@⟨kind, _, _, _, children⟩ =>
    match kind with
    | .titleField _ => p.update n
    | .style _ | .veil _ | .item | .multiColumn | .part _ | .unrecognized _ => titledAll p children
    | .text | .paragraph | .pause | .list _ | .tabular | .image | .titlePage | .tableColumn | .tableRow
    | .hline | .cline | .frameTitle | .frameSubtitle | .heading _ | .graphicsPath | .path => p

def titledAll (p : TitlePage) : List Node → TitlePage
  | [] => p
  | n :: rest => titledAll (titled p n) rest

end

mutual

/-- What a node with its subtree asks, in the order of the walk. -/
def asks (policy : NestedPolicy) (p : TitlePage) : Node → List Ask
  | n@⟨kind, _, _, _, children⟩ =>
    match kind with
    | .pause => [.pause]
    | .style _ => .node n :: asksAll policy p children
    | .veil _ | .item => Ask.gate n ++ asksAll policy p children
    | .list .description => n.descriptionAsks policy
    | .list _ => Inline.asks ⟨policy, true⟩ n
    | .tabular => n.tableAsks policy
    | .image => Ask.gate n
    | .titlePage => Ask.gate n ++ p.asks
    | .multiColumn | .part _ | .unrecognized _ => asksAll policy p children
    | .text | .paragraph | .titleField _ | .tableColumn | .tableRow | .hline | .cline | .frameTitle
    | .frameSubtitle | .heading _ | .graphicsPath | .path => []

def asksAll (policy : NestedPolicy) (p : TitlePage) : List Node → List Ask
  | [] => []
  | n :: rest => asks policy p n ++ asksAll policy (titled p n) rest

end

/-- How a walk that did not fail came out, as far as the tracker and the rest of the slide go. -/
structure Answers (policy : NestedPolicy) (asked : List Ask) (titlePage : TitlePage) (w : Walk)
    (flow : Flow) (u : Walk) : Prop where
  answer : w.tracker.answer asked = some (flow, u.tracker)
  titlePage : flow = .completed → u.titlePage = titlePage
  deferred : policy = .asText → u.deferred = w.deferred

namespace Answers

variable {policy : NestedPolicy} {asked more : List Ask} {p q : TitlePage} {w v u : Walk} {flow : Flow}

/-- A step that asks nothing. -/
theorem quiet (tracker : u.tracker = w.tracker) (titlePage : u.titlePage = p)
    (deferred : u.deferred = w.deferred) : Answers policy [] p w .completed u :=
  ⟨by rw [tracker]; rfl, fun _ => titlePage, fun _ => deferred⟩

theorem append (first : Answers policy asked p w .completed v)
    (second : Answers policy more q v flow u) : Answers policy (asked ++ more) q w flow u :=
  ⟨(Tracker.answer_append_completed first.answer more).trans second.answer, second.titlePage,
    fun asText => (second.deferred asText).trans (first.deferred asText)⟩

/-- Nothing is asked behind a pause that ends the walk. -/
theorem append_paused (first : Answers policy asked p w .paused u) (more : List Ask) (q : TitlePage) :
    Answers policy (asked ++ more) q w .paused u :=
  ⟨Tracker.answer_append_paused first.answer more, nofun, first.deferred⟩

/-- What stands behind a gate. -/
theorem below_gate (n : Node) (mode : Mode) (inside : Answers policy asked p (w.gate n mode).2 flow u) :
    Answers policy (Ask.gate n ++ asked) p w flow u :=
  ⟨(Tracker.answer_gate_append w.tracker mode n asked).trans inside.answer, inside.titlePage,
    inside.deferred⟩

/-- A walk whose text is closed first asks the same. -/
theorem of_closeText (inside : Answers policy asked p w.closeText flow u) :
    Answers policy asked p w flow u :=
  ⟨by simpa using inside.answer, inside.titlePage, by simpa using inside.deferred⟩

/-- Closing a style leaves all of it alone. -/
theorem closeStyle {found : Except DeckError (Flow × Walk)}
    (inside : ∀ flow u, found = .ok (flow, u) → Answers policy asked p w flow u)
    (closed : andThen Walk.closeStyle found = .ok (flow, u)) : Answers policy asked p w flow u := by
  rcases found with error | ⟨ended, v⟩
  · cases closed
  · have answers := inside ended v rfl
    cases ended with
    | completed =>
      cases Except.ok.inj closed
      exact ⟨answers.answer, answers.titlePage, answers.deferred⟩
    | paused =>
      cases Except.ok.inj closed
      exact answers

end Answers

/-- A block asks what its renderer does. -/
theorem placeBlock_answers {policy : NestedPolicy} {asked : List Ask} {b : Block}
    (answer : w.tracker.answer asked = some (b.flow, b.tracker))
    (deferred : policy = .asText → b.deferred = []) :
    Answers policy asked w.titlePage w (w.placeBlock b).1 (w.placeBlock b).2 := by
  refine ⟨answer, fun _ => ?_, fun asText => ?_⟩
  · simp only [placeBlock]
    split <;> rfl
  · simp only [placeBlock, deferred asText, List.append_nil]
    split <;> rfl

theorem list_answers (c : Context) (n : Node) :
    Answers c.policy (Inline.asks c.listRules n) w.titlePage w (w.list c n mode).1
      (w.list c n mode).2 := by
  let start : Inline :=
    .ofFaces w.closeText.tracker w.closeText.faces (.ofSize w.closeText.faces.current.size)
  have answer := Inline.answer_asks c.listRules start mode n
  have deferred (asText : c.listRules.policy = .asText) := Inline.visit_deferred asText start mode n
  refine .of_closeText ⟨answer.trans ?_, fun _ => ?_, fun asText => ?_⟩
  · simp only [Inline.verdict, list]
    split <;> rfl
  · simp only [list]
    split <;> exact w.closeText_titlePage
  · have nothing : (Inline.visit c.listRules start mode n).2.deferred = [] := deferred asText
    simp only [list]
    split <;> simp only [push, nothing, start, List.append_nil]

theorem image_answers {policy : NestedPolicy} {c : Context} {n : Node} {u : Walk}
    (placed : w.image c n mode = .ok u) :
    Answers policy (Ask.gate n) w.titlePage w .completed u := by
  refine .of_closeText ?_
  have gated :
      Answers policy (Ask.gate n) w.titlePage w.closeText .completed (w.closeText.gate n mode).2 :=
    ⟨Tracker.answer_gate _ mode n, fun _ => w.closeText_titlePage, fun _ => rfl⟩
  unfold image at placed
  simp only at placed
  split at placed
  · cases found : c.findImage (String.ofList (Text.trim (n.content?.getD "").toList)) with
    | error error =>
      rw [found] at placed
      cases placed
    | ok path =>
      rw [found] at placed
      cases Except.ok.inj placed
      exact ⟨gated.answer, gated.titlePage, gated.deferred⟩
  · cases Except.ok.inj placed
    exact gated

theorem title_answers (c : Context) (n : Node) :
    Answers c.policy (Ask.gate n ++ w.titlePage.asks) w.titlePage w (w.title c n mode).1
      (w.title c n mode).2 := by
  refine .of_closeText (.below_gate n mode ?_)
  have answer := TitlePage.render_answers w.titlePage (w.closeText.gate n mode).2.tracker w.faces.base
    c.area.width (w.closeText.gate n mode).1
  have page : (w.closeText.gate n mode).2.titlePage = w.titlePage := w.closeText_titlePage
  have base : (w.closeText.gate n mode).2.faces = w.faces := w.closeText_faces
  unfold title
  simp only [page, base]
  split <;> exact ⟨answer, fun _ => rfl, fun _ => rfl⟩

mutual

/-- A node asks the same in every mode, and the tracker's answers end its walk. -/
theorem visit_answers {c : Context} {w u : Walk} {mode : Mode} {flow : Flow} :
    ∀ n : Node, visit c w mode n = .ok (flow, u) →
      Answers c.policy (asks c.policy w.titlePage n) (titled w.titlePage n) w flow u
  | ⟨kind, overlay, params, payload, children⟩ => fun visited => by
    cases kind with
    | text =>
      simp only [visit] at visited
      split at visited
      · cases Except.ok.inj visited
        exact .quiet (by unfold append; split <;> rfl) (by unfold append; split <;> rfl)
          (by unfold append; split <;> rfl)
      · cases Except.ok.inj visited
        exact .quiet rfl rfl rfl
    | paragraph =>
      cases Except.ok.inj visited
      unfold breakParagraph
      split
      · exact .quiet w.closeText_tracker w.closeText_titlePage w.closeText_deferred
      · exact .quiet rfl rfl rfl
    | pause =>
      simp only [visit, Except.ok.injEq, Prod.mk.injEq, meetPause] at visited
      obtain ⟨rfl, rfl⟩ := visited
      exact ⟨w.tracker.answer_pause, fun _ => rfl, fun _ => rfl⟩
    | style command =>
      simp only [visit] at visited
      refine Answers.closeStyle (fun ended v inside => ?_) visited
      have answers := visitAll_answers children inside
      exact ⟨answers.answer, answers.titlePage, answers.deferred⟩
    | veil | item =>
      simp only [visit] at visited
      exact (visitAll_answers children visited).below_gate _ mode
    | list kind =>
      cases kind with
      | description =>
        cases Except.ok.inj visited
        obtain ⟨answer, deferred⟩ := Node.renderDescription_answers
          ⟨.list .description, overlay, params, payload, children⟩ c w.closeText.tracker
            w.closeText.faces mode
        have placed := placeBlock_answers w.closeText answer deferred
        rw [closeText_titlePage] at placed
        exact .of_closeText placed
      | bullet | numbered =>
        cases Except.ok.inj visited
        exact list_answers w mode c _
    | tabular =>
      simp only [visit] at visited
      cases rendered : (⟨.tabular, overlay, params, payload, children⟩ : Node).renderTable c
        w.closeText.tracker w.closeText.faces mode with
      | error error =>
        rw [rendered] at visited
        cases visited
      | ok block =>
        rw [rendered] at visited
        cases Except.ok.inj visited
        obtain ⟨answer, deferred⟩ := Node.renderTable_answers rendered
        have placed := placeBlock_answers w.closeText answer deferred
        rw [closeText_titlePage] at placed
        exact .of_closeText placed
    | image =>
      simp only [visit] at visited
      cases placed : w.image c ⟨.image, overlay, params, payload, children⟩ mode with
      | error error =>
        rw [placed] at visited
        cases visited
      | ok v =>
        rw [placed] at visited
        cases Except.ok.inj visited
        exact image_answers w mode placed
    | titlePage =>
      have answers := title_answers w mode c ⟨.titlePage, overlay, params, payload, children⟩
      simp only [visit, Except.ok.injEq] at visited
      rw [visited] at answers
      exact answers
    | titleField =>
      cases Except.ok.inj visited
      exact .quiet rfl rfl rfl
    | multiColumn | part | unrecognized =>
      simp only [visit] at visited
      exact visitAll_answers children visited
    | tableColumn | tableRow | hline | cline | frameTitle | frameSubtitle | heading | graphicsPath | path =>
      cases Except.ok.inj visited
      exact .quiet rfl rfl rfl

theorem visitAll_answers {c : Context} {w u : Walk} {mode : Mode} {flow : Flow} :
    ∀ nodes : List Node, visitAll c w mode nodes = .ok (flow, u) →
      Answers c.policy (asksAll c.policy w.titlePage nodes) (titledAll w.titlePage nodes) w flow u
  | [] => fun visited => by
    cases Except.ok.inj visited
    exact .quiet rfl rfl rfl
  | n :: rest => fun visited => by
    rw [visitAll] at visited
    rcases found : visit c w mode n with error | ⟨ended, v⟩
    · rw [found] at visited
      cases visited
    · rw [found] at visited
      have first := visit_answers n found
      cases ended with
      | paused =>
        cases Except.ok.inj visited
        exact first.append_paused _ _
      | completed =>
        have page : v.titlePage = titled w.titlePage n := first.titlePage rfl
        have others := visitAll_answers rest visited
        rw [page] at others
        exact first.append others

end

/-- A list of nodes without restriction is walked as siblings are. -/
theorem visitEach_visible (c : Context) (w : Walk) (nodes : List Node) :
    visitEach c w (nodes.map fun n => ⟨n, .visible⟩) = visitAll c w .visible nodes := by
  induction nodes generalizing w with
  | nil => rfl
  | cons n rest ih =>
    simp only [List.map_cons, visitEach, visitAll]
    rcases visit c w .visible n with error | ⟨flow, v⟩
    · rfl
    · cases flow with
      | completed => exact ih v
      | paused => rfl

/-- Nodes that have a mode each ask the same as siblings do. -/
theorem visitEach_answers {c : Context} {w u : Walk} {pending : List Deferred} {flow : Flow}
    (visited : visitEach c w pending = .ok (flow, u)) :
    Answers c.policy (asksAll c.policy w.titlePage (pending.map Deferred.node))
      (titledAll w.titlePage (pending.map Deferred.node)) w flow u := by
  induction pending generalizing w with
  | nil =>
    cases Except.ok.inj visited
    exact .quiet rfl rfl rfl
  | cons d rest ih =>
    rw [visitEach] at visited
    rcases found : visit c w d.mode d.node with error | ⟨ended, v⟩
    · rw [found] at visited
      cases visited
    · rw [found] at visited
      have first := visit_answers d.node found
      cases ended with
      | paused =>
        cases Except.ok.inj visited
        exact first.append_paused _ _
      | completed =>
        have page : v.titlePage = titled w.titlePage d.node := first.titlePage rfl
        have others := ih visited
        rw [page] at others
        exact first.append others

/-- A walk over the content of a slide ends as the tracker answers, and puts nothing off where blocks become
text. -/
theorem run_answers {c : Context} {w u : Walk} {pending : List Deferred} {flow : Flow}
    (ran : w.run c pending = .ok (flow, u)) :
    w.tracker.answer (asksAll c.policy w.titlePage (pending.map Deferred.node)) =
        some (flow, u.tracker) ∧
      (c.policy = .asText → u.deferred = w.deferred) := by
  rw [run] at ran
  rcases found : visitEach c w pending with error | ⟨ended, v⟩
  · rw [found] at ran
    cases ran
  · rw [found] at ran
    cases Except.ok.inj ran
    have answers := visitEach_answers found
    exact ⟨answers.answer.trans (by simp [close]),
      fun asText => by simp [close, answers.deferred asText]⟩

end Content.Walk

end Unveil
