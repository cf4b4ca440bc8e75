import Unveil.Proofs.Content.Asks
import Unveil.Proofs.Flow.Calls
import Unveil.Proofs.Reveal.Basic

namespace Unveil

namespace Node

/-- A bullet or numbered list as a text of its own. -/
def renderList (n : Node) (c : Context) (tracker : Tracker) (faces : FaceStack) (mode : Mode) : Block :=
  let (flow, text) :=
    Inline.visit c.listRules (.ofFaces tracker faces (.ofSize faces.current.size)) mode n
  ⟨if text.body.isBlank then none else some (.ofBody .zero text.body), flow, text.deferred, text.tracker⟩

/-- An image in its place; the file of an omitted one is not searched. -/
def renderImage (n : Node) (c : Context) (tracker : Tracker) (mode : Mode) : Except DeckError Block := do
  let (mode, tracker) := mode.gate n tracker
  if mode.emits then
    let name := String.ofList (Text.trim (n.content?.getD "").toList)
    let path ← c.findImage name
    let (width, height) := Content.Walk.imageSize (.read n.params) c.measure c.area.width
    return ⟨some (.single ⟨0.0, 0.0, width, height⟩ (.image ⟨path, name⟩) mode.isHidden), .completed, [],
      tracker⟩
  else return ⟨none, .completed, [], tracker⟩

/-- An image is rendered to a picture or, where it is omitted, to nothing. -/
theorem renderImage_ok {n : Node} {c : Context} {tracker : Tracker} {mode : Mode} {block : Block}
    (rendered : n.renderImage c tracker mode = .ok block) :
    (block.shape = none ∨ ∃ bounds image hidden, block.shape = some (.single bounds (.image image) hidden)) ∧
      block.flow = .completed ∧ block.deferred = [] ∧ block.tracker = (mode.gate n tracker).2 := by
  unfold renderImage at rendered
  dsimp only at rendered
  split at rendered
  · generalize c.findImage (String.ofList (Text.trim (n.content?.getD "").toList)) = found at rendered
    rcases found with error | path
    · cases rendered
    · obtain rfl := Except.ok.inj rendered
      exact ⟨.inr ⟨_, _, _, rfl⟩, rfl, rfl, rfl⟩
  · obtain rfl := Except.ok.inj rendered
    exact ⟨.inl rfl, rfl, rfl, rfl⟩

/-- What a node is rendered to. Nodes that are no blocks are rendered to nothing. -/
def renderBlock (n : Node) (c : Context) (tracker : Tracker) (faces : FaceStack) (mode : Mode) :
    Except DeckError Block :=
  match n.kind with
  | .list .description => .ok (n.renderDescription c tracker faces mode)
  | .list _ => .ok (n.renderList c tracker faces mode)
  | .tabular => n.renderTable c tracker faces mode
  | .image => n.renderImage c tracker mode
  | _ => .ok ⟨none, .completed, [], tracker⟩

end Node

namespace Content

/-- The content of a slide as it is being rendered, with what was asked of the flow so far. The calls are kept as
a list. -/
structure Trace where
  tracker : Tracker
  faces : FaceStack
  /-- text that no block has ended yet -/
  text : Option TextBody
  calls : List ShapeFlow.Call
  deferred : List Deferred
  titlePage : TitlePage

namespace Trace

def start (c : Context) (tracker : Tracker) (titlePage : TitlePage) : Trace :=
  ⟨tracker, .ofBase c.settings.fontSize, none, [], [], titlePage⟩

def call (t : Trace) (call : ShapeFlow.Call) : Trace := { t with calls := t.calls ++ [call] }

/-- Makes a shape of the text so far; text of blanks only is dropped. -/
def closeText (t : Trace) : Trace :=
  match t.text with
  | none => t
  | some body =>
    let t := { t with text := none }
    if Text.allBlank body.plainText.toList then t else t.call (.push (.ofBody .zero body))

def append (t : Trace) (text : String) (mode : Mode) : Trace :=
  if mode.emits then
    let body := t.text.getD (.ofSize t.faces.current.size)
    { t with text := some (body.append text t.faces.current mode.isHidden) }
  else t

def breakParagraph (t : Trace) (mode : Mode) : Trace :=
  if mode.emits then t.closeText.call .flush else t

def meetPause (t : Trace) : Flow × Trace := (t.tracker.pause.1, { t with tracker := t.tracker.pause.2 })

def gate (t : Trace) (n : Node) (mode : Mode) : Mode × Trace :=
  ((mode.gate n t.tracker).1, { t with tracker := (mode.gate n t.tracker).2 })

def openStyle (t : Trace) (n : Node) : Trace :=
  { t with tracker := t.tracker.observe n.overlay, faces := t.faces.enter n (n.overlay.visible t.tracker.pass) }

def closeStyle (t : Trace) : Trace := { t with faces := t.faces.leave }

def placeBlock (t : Trace) (b : Block) : Flow × Trace :=
  (b.flow, { t with
    calls := t.calls ++ b.shape.toList.map .push, deferred := t.deferred ++ b.deferred, tracker := b.tracker })

/-- Renders a node that is a block. -/
def block (t : Trace) (c : Context) (n : Node) (mode : Mode) : Except DeckError (Flow × Trace) :=
  (n.renderBlock c t.tracker t.faces mode).map t.closeText.placeBlock

/-- Renders the title page on a row of its own. -/
def title (t : Trace) (c : Context) (n : Node) (mode : Mode) : Flow × Trace :=
  let (mode, t) := t.closeText.gate n mode
  let (shape, flow, tracker) := t.titlePage.render t.tracker t.faces.base c.area.width mode
  (flow, { t with
    calls := t.calls ++ (shape.map (·.withHidden mode.isHidden)).toList.map .pushBlock, tracker })

/-- Meets a node whose children are not walked. -/
def meet (t : Trace) (c : Context) (n : Node) (mode : Mode) : Except DeckError (Flow × Trace) :=
  match n.kind with
  | .text =>
    match n.content? with
    | some text => .ok (.completed, t.append text mode)
    | none => .ok (.completed, t)
  | .paragraph => .ok (.completed, t.breakParagraph mode)
  | .pause => .ok t.meetPause
  | .list _ | .tabular | .image => t.block c n mode
  | .titlePage => .ok (t.title c n mode)
  | .titleField _ => .ok (.completed, { t with titlePage := t.titlePage.update n })
  | _ => .ok (.completed, t)

/-- Goes on after a walk that was not interrupted. -/
def andThen (close : Trace → Trace) : Except DeckError (Flow × Trace) → Except DeckError (Flow × Trace)
  | .ok (.completed, t) => .ok (.completed, close t)
  | interrupted => interrupted

mutual

def visit (c : Context) (t : Trace) (mode : Mode) : Node → Except DeckError (Flow × Trace)
  | n@⟨kind, _, _, _, children⟩ =>
    match kind with
    | .style _ => andThen closeStyle (visitAll c (t.openStyle n) mode children)
    | .veil _ | .item => visitAll c (t.gate n mode).2 (t.gate n mode).1 children
    | .multiColumn | .part _ | .unrecognized _ => visitAll c t mode children
    | _ => t.meet c n mode

/-- Walks nodes in order, until a pause or an error ends the walk. -/
def visitAll (c : Context) (t : Trace) (mode : Mode) : List Node → Except DeckError (Flow × Trace)
  | [] => .ok (.completed, t)
  | n :: rest =>
    match visit c t mode n with
    | .ok (.completed, t) => visitAll c t mode rest
    | interrupted => interrupted

end

/-- Walks nodes that have a mode each. -/
def visitEach (c : Context) (t : Trace) : List Deferred → Except DeckError (Flow × Trace)
  | [] => .ok (.completed, t)
  | d :: rest =>
    match visit c t d.mode d.node with
    | .ok (.completed, t) => visitEach c t rest
    | interrupted => interrupted

/-- The walk that has made its calls on a flow. -/
def onto (flow : ShapeFlow) (t : Trace) : Walk :=
  ⟨t.tracker, t.faces, t.text, flow.performAll t.calls, t.deferred, t.titlePage⟩

/-- The result of a walk with its calls made on a flow. -/
def settle (flow : ShapeFlow) (found : Except DeckError (Flow × Trace)) : Except DeckError (Flow × Walk) :=
  found.map fun (ended, t) => (ended, t.onto flow)

section
variable (flow : ShapeFlow) (t : Trace)

theorem call_onto (call : ShapeFlow.Call) :
    (t.call call).onto flow = { t.onto flow with flow := (t.onto flow).flow.perform call } := by
  simp only [onto, Trace.call, ShapeFlow.performAll_concat]

theorem closeText_onto : (t.onto flow).closeText = t.closeText.onto flow := by
  cases text : t.text with
  | none => simp only [Walk.closeText, closeText, onto, text]
  | some body =>
    simp only [Walk.closeText, closeText, onto, text]
    split
    · rfl
    · exact (call_onto flow { t with text := none } (.push (.ofBody .zero body))).symm

theorem append_onto (text : String) (mode : Mode) :
    (t.onto flow).append text mode = (t.append text mode).onto flow := by
  unfold Walk.append append
  split <;> rfl

theorem breakParagraph_onto (mode : Mode) :
    (t.onto flow).breakParagraph mode = (t.breakParagraph mode).onto flow := by
  unfold Walk.breakParagraph breakParagraph
  split
  · rw [closeText_onto, call_onto]
    rfl
  · rfl

theorem placeBlock_onto (b : Block) :
    (t.onto flow).placeBlock b = ((t.placeBlock b).1, (t.placeBlock b).2.onto flow) := by
  unfold Walk.placeBlock placeBlock onto
  cases b.shape with
  | none => simp
  | some s =>
    simp only [Option.toList_some, List.map_cons, List.map_nil, ShapeFlow.performAll_concat]
    rfl

theorem andThen_onto (found : Except DeckError (Flow × Trace)) :
    Walk.andThen Walk.closeStyle (settle flow found) = settle flow (andThen closeStyle found) := by
  rcases found with error | ⟨ended, t⟩
  · rfl
  · cases ended <;> rfl

theorem title_onto (c : Context) (n : Node) (mode : Mode) :
    (t.onto flow).title c n mode = ((t.title c n mode).1, (t.title c n mode).2.onto flow) := by
  unfold Walk.title title
  rw [closeText_onto]
  simp only [onto, Walk.gate, gate]
  rcases t.closeText.titlePage.render (mode.gate n t.closeText.tracker).2 t.closeText.faces.base c.area.width
    (mode.gate n t.closeText.tracker).1 with ⟨shape, ended, tracker⟩
  cases shape with
  | none => simp
  | some s =>
    simp only [Option.map_some, Option.toList_some, List.map_cons, List.map_nil, ShapeFlow.performAll_concat]
    rfl

/-- A list is placed as every block is. -/
theorem list_eq_placeBlock (w : Walk) (c : Context) (n : Node) (mode : Mode) :
    w.list c n mode = w.closeText.placeBlock (n.renderList c w.closeText.tracker w.closeText.faces mode) := by
  unfold Walk.list Walk.placeBlock Node.renderList
  simp only
  split <;> rfl

theorem image_eq_placeBlock (w : Walk) (c : Context) (n : Node) (mode : Mode) :
    (w.image c n mode).map (fun w => (Flow.completed, w)) =
      (n.renderImage c w.closeText.tracker mode).map w.closeText.placeBlock := by
  unfold Walk.image Node.renderImage
  by_cases shown : (mode.gate n w.closeText.tracker).1.emits
  · simp only [Walk.gate, shown, if_true]
    cases c.findImage (String.ofList (Text.trim (n.content?.getD "").toList)) with
    | error error => rfl
    | ok path =>
      simp only [Except.map, bind, Except.bind, pure, Except.pure, Walk.placeBlock, Walk.push, List.append_nil]
  · simp only [Walk.gate, shown, if_false, Except.map, pure, Except.pure, Walk.placeBlock, List.append_nil,
      Bool.false_eq_true]

/-- A block is placed below the text before it. -/
theorem block_onto (c : Context) (mode : Mode) (n : Node) :
    settle flow (t.block c n mode) =
      (n.renderBlock c (t.onto flow).closeText.tracker (t.onto flow).closeText.faces mode).map
        (t.onto flow).closeText.placeBlock := by
  have place : (t.onto flow).closeText.placeBlock = fun b =>
      ((t.closeText.placeBlock b).1, (t.closeText.placeBlock b).2.onto flow) := by
    funext b
    rw [closeText_onto, placeBlock_onto]
  rw [place, Walk.closeText_tracker, Walk.closeText_faces]
  change settle flow ((n.renderBlock c t.tracker t.faces mode).map t.closeText.placeBlock) =
    (n.renderBlock c t.tracker t.faces mode).map _
  cases n.renderBlock c t.tracker t.faces mode <;> rfl

mutual

/-- The walk makes the calls of its trace on whatever flow it was started with, and does nothing else to it. -/
theorem visit_onto (c : Context) (t : Trace) (mode : Mode) :
    ∀ n : Node, Walk.visit c (t.onto flow) mode n = settle flow (visit c t mode n)
  | ⟨kind, overlay, params, payload, children⟩ => by
    have block := block_onto flow t c mode ⟨kind, overlay, params, payload, children⟩
    cases kind with
    | text =>
      simp only [Walk.visit, visit, meet]
      cases Node.content? ⟨.text, overlay, params, payload, children⟩ with
      | none => rfl
      | some text =>
        simp only [append_onto]
        rfl
    | paragraph =>
      simp only [Walk.visit, breakParagraph_onto]
      rfl
    | pause => rfl
    | style command =>
      simp only [Walk.visit, visit]
      rw [← andThen_onto, ← visitAll_onto]
      rfl
    | veil | item =>
      simp only [Walk.visit, visit]
      rw [← visitAll_onto]
      rfl
    | list kind =>
      cases kind with
      | description => exact block.symm
      | bullet | numbered =>
        simp only [Walk.visit, list_eq_placeBlock]
        exact block.symm
    | tabular => exact block.symm
    | image =>
      simp only [Walk.visit, image_eq_placeBlock]
      exact block.symm
    | titlePage =>
      simp only [Walk.visit, title_onto]
      rfl
    | titleField => rfl
    | multiColumn | part | unrecognized =>
      simp only [Walk.visit, visit]
      exact visitAll_onto c t mode children
    | tableColumn | tableRow | hline | cline | frameTitle | frameSubtitle | heading | graphicsPath | path => rfl

theorem visitAll_onto (c : Context) (t : Trace) (mode : Mode) :
    ∀ nodes : List Node, Walk.visitAll c (t.onto flow) mode nodes = settle flow (visitAll c t mode nodes)
  | [] => rfl
  | n :: rest => by
    rw [Walk.visitAll, visitAll, visit_onto c t mode n]
    rcases visit c t mode n with error | ⟨ended, u⟩
    · rfl
    · cases ended with
      | completed => exact visitAll_onto c u mode rest
      | paused => rfl

end

theorem visitEach_onto (c : Context) (t : Trace) (nodes : List Deferred) :
    Walk.visitEach c (t.onto flow) nodes = settle flow (visitEach c t nodes) := by
  induction nodes generalizing t with
  | nil => rfl
  | cons d rest ih =>
    rw [Walk.visitEach, visitEach, visit_onto]
    rcases visit c t d.mode d.node with error | ⟨ended, u⟩
    · rfl
    · cases ended with
      | completed => exact ih u
      | paused => rfl

end

/-- A walk from a start that does not fail is its trace on the flow, with what is left open closed. -/
theorem run_ok {c : Context} {tracker : Tracker} {titlePage : TitlePage} {flow : ShapeFlow}
    {nodes : List Deferred} {ended : Flow} {w : Walk}
    (ran : (Walk.start c tracker titlePage flow).run c nodes = .ok (ended, w)) :
    ∃ t, visitEach c (start c tracker titlePage) nodes = .ok (ended, t) ∧ w = (t.onto flow).close := by
  have made : Walk.visitEach c (Walk.start c tracker titlePage flow) nodes =
      settle flow (visitEach c (start c tracker titlePage) nodes) :=
    visitEach_onto flow c (start c tracker titlePage) nodes
  rw [Walk.run, made] at ran
  rcases found : visitEach c (start c tracker titlePage) nodes with error | ⟨ended, t⟩
  · rw [found] at ran
    cases ran
  · rw [found] at ran
    obtain ⟨rfl, rfl⟩ := Prod.mk.inj (Except.ok.inj ran)
    exact ⟨t, rfl, rfl⟩

/-- A walk stays on its pass. -/
theorem visit_state {c : Context} {t u : Trace} {mode : Mode} {n : Node} {ended : Flow}
    (visited : visit c t mode n = .ok (ended, u)) : u.tracker.state = t.tracker.state := by
  have onto := visit_onto default c t mode n
  rw [visited] at onto
  exact Tracker.answer_state (Walk.visit_answers n onto).answer

end Trace

end Content

end Unveil
