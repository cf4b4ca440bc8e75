import Unveil.Proofs.Content.Stack
import Unveil.Proofs.Inline.Script
import Unveil.Proofs.Reveal.Content

namespace Unveil

/-- Kinds whose overlay restricts the mode of what they hold in the content of a slide. -/
def NodeKind.isContentGate : NodeKind → Bool
  | .veil _ | .item | .titlePage => true
  | _ => false

namespace Content

open Inline (Outset)

def restrict (o : Outset) (mode : Mode) (n : Node) : Mode :=
  if n.kind.isContentGate then mode.max (.ofNode n o.pass) else mode

/-- The mode below nodes that stand in each other, the outermost first. -/
def modeBelow (o : Outset) (ancestors : List Node) : Mode := ancestors.foldl (restrict o) o.mode

/-- The faces below a node: a style node opens a scope, which shows if its overlay does. -/
def nestFaces (o : Outset) (faces : FaceStack) (n : Node) : FaceStack :=
  if n.kind.isStyle then faces.enter n (n.overlay.visible o.pass) else faces

/-- The faces below nodes that stand in each other, the outermost first. -/
def facesBelow (o : Outset) (ancestors : List Node) : FaceStack :=
  ancestors.foldl (nestFaces o) ⟨o.base, o.face, []⟩

theorem modeBelow_concat (o : Outset) (ancestors : List Node) (n : Node) :
    modeBelow o (ancestors ++ [n]) = restrict o (modeBelow o ancestors) n := by
  simp only [modeBelow, List.foldl_append, List.foldl_cons, List.foldl_nil]

theorem facesBelow_concat (o : Outset) (ancestors : List Node) (n : Node) :
    facesBelow o (ancestors ++ [n]) = nestFaces o (facesBelow o ancestors) n := by
  simp only [facesBelow, List.foldl_append, List.foldl_cons, List.foldl_nil]

/-- The face in effect is the one that the visible style nodes make. -/
theorem facesBelow_eq (o : Outset) (ancestors : List Node) :
    (facesBelow o ancestors).current = o.faceBelow ancestors ∧ (facesBelow o ancestors).base = o.base := by
  have nested (faces : FaceStack) (base : faces.base = o.base) :
      (ancestors.foldl (nestFaces o) faces).current = ancestors.foldl o.restyle faces.current ∧
        (ancestors.foldl (nestFaces o) faces).base = o.base := by
    induction ancestors generalizing faces with
    | nil => exact ⟨rfl, base⟩
    | cons n rest ih =>
      obtain ⟨current, base⟩ : (nestFaces o faces n).current = o.restyle faces.current n ∧
          (nestFaces o faces n).base = o.base := by
        unfold nestFaces Outset.restyle FaceStack.enter
        cases style : n.kind <;> simp [NodeKind.isStyle, base]
      rw [List.foldl_cons, List.foldl_cons, ← current]
      exact ih _ base
  exact nested _ rfl

/-- One thing that a walk does, with the faces and the mode in which it is done. -/
inductive Act where
  | write (string : String) (face : Face) (mode : Mode)
  | breakParagraph (mode : Mode)
  | consult (overlay : Overlay)
  | pause
  | placeBlock (n : Node) (faces : FaceStack) (mode : Mode)
  | placeTitle (base : Float32) (mode : Mode)
  | setTitleField (n : Node)

/-- A gate consults the overlay of its node, if there is one. -/
def Act.gate (n : Node) : List Act := if n.overlay.isUnrestricted then [] else [.consult n.overlay]

mutual

/-- What the walk of a node does below its ancestors. -/
def acts (o : Outset) (ancestors : List Node) : Node → List Act
  | n@⟨kind, _, _, _, children⟩ =>
    let mode := modeBelow o ancestors
    let below := actsAll o (ancestors ++ [n]) children
    match kind with
    | .text => n.content?.toList.map fun string => .write string (o.faceBelow ancestors) mode
    | .paragraph => [.breakParagraph mode]
    | .pause => [.pause]
    | .style _ => .consult n.overlay :: below
    | .veil _ | .item => Act.gate n ++ below
    | .list _ | .tabular | .image => [.placeBlock n (facesBelow o ancestors) mode]
    | .titlePage => Act.gate n ++ [.placeTitle o.base (modeBelow o (ancestors ++ [n]))]
    | .titleField _ => [.setTitleField n]
    | .multiColumn | .part _ | .unrecognized _ => below
    | .tableColumn | .tableRow | .hline | .cline | .frameTitle | .frameSubtitle | .heading _
    | .graphicsPath | .path => []

def actsAll (o : Outset) (ancestors : List Node) : List Node → List Act
  | [] => []
  | n :: rest => acts o ancestors n ++ actsAll o ancestors rest

end

/-- What a walk of nodes does on a pass. The face and the mode of every act are read off the ancestors of its
node, so nothing is entered or left. -/
def script (c : Context) (pass : Nat) (nodes : List Deferred) : List Act :=
  nodes.flatMap fun d =>
    acts ⟨pass, c.settings.fontSize, .plain c.settings.fontSize, d.mode⟩ [] d.node

/-- The text of strings written one after the other. -/
def written : List Run → Option TextBody
  | [] => none
  | first :: rest =>
    some ((first :: rest).foldl (fun body s => body.append s.text s.face s.hidden) (.ofSize first.face.size))

/-- Strings form one text shape, unless they are blank. -/
def shape? (strings : List Run) : Option Shape :=
  if strings.all fun s => Text.allBlank s.text.toList then none else (written strings).map (.ofBody .zero)

/-- What was done so far. -/
structure Record where
  tracker : Tracker
  /-- strings after the last block -/
  strings : List Run
  calls : List ShapeFlow.Call
  deferred : List Deferred
  titlePage : TitlePage

namespace Record

def start (tracker : Tracker) (titlePage : TitlePage) : Record := ⟨tracker, [], [], [], titlePage⟩

def closeText (r : Record) : Record :=
  { r with strings := [], calls := r.calls ++ (shape? r.strings).toList.map .push }

def flush (r : Record) : Record := { r.closeText with calls := r.closeText.calls ++ [.flush] }

def placeBlock (r : Record) (b : Block) : Flow × Record :=
  (b.flow, { r.closeText with
    calls := r.closeText.calls ++ b.shape.toList.map .push
    deferred := r.deferred ++ b.deferred
    tracker := b.tracker })

def placeTitle (r : Record) (c : Context) (base : Float32) (mode : Mode) : Flow × Record :=
  let (shape, flow, tracker) := r.titlePage.render r.tracker base c.area.width mode
  (flow, { r.closeText with
    calls := r.closeText.calls ++ (shape.map (·.withHidden mode.isHidden)).toList.map .pushBlock
    tracker })

/-- Does one thing. -/
def perform (c : Context) (r : Record) : Act → Except DeckError (Flow × Record)
  | .write string face mode =>
    .ok (.completed, if mode.emits then { r with strings := r.strings ++ [⟨string, face, mode.isHidden⟩] } else r)
  | .breakParagraph mode => .ok (.completed, if mode.emits then r.flush else r)
  | .consult overlay => .ok (.completed, { r with tracker := r.tracker.observe overlay })
  | .pause => .ok (r.tracker.pause.1, { r with tracker := r.tracker.pause.2 })
  | .placeBlock n faces mode => (n.renderBlock c r.tracker faces mode).map r.placeBlock
  | .placeTitle base mode => .ok (r.placeTitle c base mode)
  | .setTitleField n => .ok (.completed, { r with titlePage := r.titlePage.update n })

/-- Does things in order, until a pause or an error ends it. -/
def play (c : Context) (r : Record) : List Act → Except DeckError (Flow × Record)
  | [] => .ok (.completed, r)
  | act :: rest =>
    match r.perform c act with
    | .ok (.completed, r) => r.play c rest
    | interrupted => interrupted

theorem play_append (c : Context) (r : Record) (first more : List Act) :
    r.play c (first ++ more) =
      match r.play c first with
      | .ok (.completed, r) => r.play c more
      | interrupted => interrupted := by
  induction first generalizing r with
  | nil => rfl
  | cons act rest ih =>
    simp only [List.cons_append, play]
    rcases r.perform c act with error | ⟨ended, s⟩
    · rfl
    · cases ended with
      | completed => exact ih s
      | paused => rfl

theorem play_singleton (c : Context) (r : Record) (act : Act) : r.play c [act] = r.perform c act := by
  rw [play]
  rcases r.perform c act with error | ⟨ended, s⟩
  · rfl
  · cases ended <;> rfl

/-- The trace with this record, inside given faces. -/
def within (r : Record) (faces : FaceStack) : Trace :=
  ⟨r.tracker, faces, written r.strings, r.calls, r.deferred, r.titlePage⟩

end Record

theorem written_concat (strings : List Run) (s : Run) :
    written (strings ++ [s]) =
      some (((written strings).getD (.ofSize s.face.size)).append s.text s.face s.hidden) := by
  cases strings with
  | nil => rfl
  | cons first rest =>
    simp only [written, List.cons_append, List.foldl_append, List.foldl_cons, List.foldl_nil, Option.getD_some]

/-- A text is blank if all its strings are. -/
theorem written_blank {strings : List Run} {body : TextBody} (eq : written strings = some body) :
    Text.allBlank body.plainText.toList = strings.all fun s => Text.allBlank s.text.toList := by
  have onto (more : List Run) (body : TextBody) :
      Text.allBlank (more.foldl (fun body s => body.append s.text s.face s.hidden) body).chars =
        (Text.allBlank body.chars && more.all fun s => Text.allBlank s.text.toList) := by
    induction more generalizing body with
    | nil => simp
    | cons s rest ih => rw [List.foldl_cons, ih, TextBody.append_blank, List.all_cons, Bool.and_assoc]
  cases strings with
  | nil => cases eq
  | cons first rest =>
    cases eq
    rw [TextBody.plainText_blank, onto]
    rfl

namespace Record

/-- The strings between two blocks are kept as they are until they form one text. -/
theorem closeText_within (r : Record) (faces : FaceStack) :
    (r.within faces).closeText = r.closeText.within faces := by
  obtain ⟨tracker, strings, calls, deferred, titlePage⟩ := r
  cases eq : written strings with
  | none =>
    cases strings with
    | nil => simp [Trace.closeText, closeText, within, shape?, written]
    | cons first rest => cases eq
  | some body =>
    simp only [Trace.closeText, closeText, within, shape?, eq, written_blank eq]
    split <;> simp [Trace.call, written]

theorem flush_within (r : Record) (faces : FaceStack) :
    (r.within faces).closeText.call .flush = r.flush.within faces := by
  rw [closeText_within]
  rfl

theorem append_within (r : Record) {faces : FaceStack} {face : Face} (current : faces.current = face)
    (string : String) (mode : Mode) :
    (r.within faces).append string mode =
      (if mode.emits then { r with strings := r.strings ++ [⟨string, face, mode.isHidden⟩] } else r).within
        faces := by
  subst current
  unfold Trace.append
  split
  · simp only [within, written_concat]
  · rfl

/-- Playing a gate leaves the record that the walk goes on with. -/
theorem play_gate (c : Context) (r : Record) (n : Node) (mode : Mode) (more : List Act) :
    r.play c (Act.gate n ++ more) = { r with tracker := (mode.gate n r.tracker).2 }.play c more := by
  rw [Mode.gate_snd]
  unfold Act.gate
  split <;> rfl

end Record

/-- Acts that were played and a walk that went the same way. After a pause the faces make no difference. -/
inductive Told (faces : FaceStack) : Except DeckError (Flow × Record) → Except DeckError (Flow × Trace) → Prop
  | completed (r : Record) : Told faces (.ok (.completed, r)) (.ok (.completed, r.within faces))
  | paused (r : Record) (inner : FaceStack) : Told faces (.ok (.paused, r)) (.ok (.paused, r.within inner))
  | failed (error : DeckError) : Told faces (.error error) (.error error)

namespace Told

variable {faces : FaceStack} {r : Record}

theorem step (faces : FaceStack) (ended : Flow) (r : Record) :
    Told faces (.ok (ended, r)) (.ok (ended, r.within faces)) := by
  cases ended with
  | completed => exact .completed r
  | paused => exact .paused r faces

theorem closeStyle {inner : FaceStack} {played : Except DeckError (Flow × Record)}
    {visited : Except DeckError (Flow × Trace)} (told : Told inner played visited) (left : inner.leave = faces) :
    Told faces played (Trace.andThen Trace.closeStyle visited) := by
  subst left
  cases told with
  | completed r => exact .completed r
  | paused r other => exact .paused r other
  | failed error => exact .failed error

/-- What follows a walk that has come to its end goes the same way too. -/
theorem andThen {played : Except DeckError (Flow × Record)} {visited : Except DeckError (Flow × Trace)}
    {more : Record → Except DeckError (Flow × Record)} {goOn : Trace → Except DeckError (Flow × Trace)} :
    Told faces played visited →
    (∀ s : Record, visited = .ok (.completed, s.within faces) → Told faces (more s) (goOn (s.within faces))) →
    Told faces
      (match played with
        | .ok (.completed, r) => more r
        | interrupted => interrupted)
      (match visited with
        | .ok (.completed, t) => goOn t
        | interrupted => interrupted) := by
  intro told later
  cases told with
  | completed s => exact later s rfl
  | paused s inner => exact .paused s inner
  | failed error => exact .failed error

theorem placeBlock (c : Context) (n : Node) (mode : Mode) :
    Told faces (r.perform c (.placeBlock n faces mode)) ((r.within faces).block c n mode) := by
  unfold Trace.block
  rw [Record.closeText_within]
  change Told faces ((n.renderBlock c r.tracker faces mode).map r.placeBlock)
    ((n.renderBlock c r.tracker faces mode).map _)
  cases n.renderBlock c r.tracker faces mode with
  | error error => exact .failed error
  | ok block => exact .step faces block.flow _

theorem placeTitle (c : Context) (n : Node) (mode : Mode) :
    Told faces
      ({ r with tracker := (mode.gate n r.tracker).2 }.perform c
        (.placeTitle faces.base (mode.gate n r.tracker).1))
      (.ok ((r.within faces).title c n mode)) := by
  unfold Trace.title
  rw [Record.closeText_within]
  exact .step faces _ _

end Told

/-- The mode below a gate is the one that the walk goes on with. -/
theorem gate_eq {o : Outset} {ancestors : List Node} {t : Tracker} (pass : t.pass = o.pass) {n : Node}
    (gate : n.kind.isContentGate = true) :
    ((modeBelow o ancestors).gate n t).1 = modeBelow o (ancestors ++ [n]) := by
  rw [Mode.gate_fst, modeBelow_concat, restrict, if_pos gate, pass]

theorem modeBelow_plain (o : Outset) (ancestors : List Node) {n : Node}
    (plain : n.kind.isContentGate = false) : modeBelow o (ancestors ++ [n]) = modeBelow o ancestors := by
  rw [modeBelow_concat, restrict]
  simp [plain]

theorem facesBelow_plain (o : Outset) (ancestors : List Node) {n : Node} (plain : n.kind.isStyle = false) :
    facesBelow o (ancestors ++ [n]) = facesBelow o ancestors := by
  rw [facesBelow_concat, nestFaces]
  simp [plain]

mutual

/-- The acts of a node make the calls that its walk makes. -/
theorem play_acts (c : Context) (o : Outset) (ancestors : List Node) {r : Record} (pass : r.tracker.pass = o.pass) :
    ∀ n : Node, Told (facesBelow o ancestors) (r.play c (acts o ancestors n))
      (Trace.visit c (r.within (facesBelow o ancestors)) (modeBelow o ancestors) n)
  | ⟨kind, overlay, params, payload, children⟩ => by
    have below {r : Record} (pass : r.tracker.pass = o.pass) :=
      play_actsAll c o (ancestors ++ [⟨kind, overlay, params, payload, children⟩]) pass children
    have gated (gate : kind.isContentGate = true) (plain : kind.isStyle = false) :
        Told (facesBelow o ancestors)
          (r.play c (Act.gate ⟨kind, overlay, params, payload, children⟩ ++
            actsAll o (ancestors ++ [⟨kind, overlay, params, payload, children⟩]) children))
          (Trace.visitAll c
            ((r.within (facesBelow o ancestors)).gate ⟨kind, overlay, params, payload, children⟩
              (modeBelow o ancestors)).2
            ((r.within (facesBelow o ancestors)).gate ⟨kind, overlay, params, payload, children⟩
              (modeBelow o ancestors)).1 children) := by
      have same : ((modeBelow o ancestors).gate ⟨kind, overlay, params, payload, children⟩ r.tracker).2.pass =
          o.pass := (congrArg PassState.pass (Mode.gate_state _ _ _)).trans pass
      have told := @below { r with
        tracker := ((modeBelow o ancestors).gate ⟨kind, overlay, params, payload, children⟩ r.tracker).2 } same
      rw [facesBelow_plain o ancestors plain, ← gate_eq pass gate] at told
      rw [Record.play_gate c r _ (modeBelow o ancestors)]
      exact told
    cases kind with
    | text =>
      simp only [acts, Trace.visit, Trace.meet]
      cases Node.content? ⟨.text, overlay, params, payload, children⟩ with
      | none => exact .completed r
      | some string =>
        simp only [Option.toList_some, List.map_cons, List.map_nil, Record.play_singleton]
        rw [Record.append_within r (facesBelow_eq o ancestors).1]
        exact .completed _
    | paragraph =>
      simp only [acts, Trace.visit, Trace.meet, Record.play_singleton, Trace.breakParagraph, Record.flush_within,
        Record.perform]
      split <;> exact .completed _
    | pause =>
      simp only [acts, Trace.visit, Trace.meet, Record.play_singleton]
      exact .step _ _ _
    | style command =>
      have nested : facesBelow o (ancestors ++ [⟨.style command, overlay, params, payload, children⟩]) =
          (facesBelow o ancestors).enter ⟨.style command, overlay, params, payload, children⟩
            (overlay.visible r.tracker.pass) := by
        rw [facesBelow_concat, pass]
        rfl
      have told := @below { r with tracker := r.tracker.observe overlay } pass
      rw [modeBelow_plain o ancestors rfl, nested] at told
      exact told.closeStyle (FaceStack.leave_enter _ _ _)
    | veil | item => exact gated rfl rfl
    | list kind =>
      simp only [acts, Trace.visit, Trace.meet, Record.play_singleton]
      exact .placeBlock c _ _
    | tabular | image =>
      simp only [acts, Trace.visit, Trace.meet, Record.play_singleton]
      exact .placeBlock c _ _
    | titlePage =>
      simp only [acts, Trace.visit, Trace.meet]
      rw [Record.play_gate c r _ (modeBelow o ancestors), Record.play_singleton, ← gate_eq pass rfl,
        ← (facesBelow_eq o ancestors).2]
      exact .placeTitle c _ _
    | titleField =>
      simp only [acts, Trace.visit, Trace.meet, Record.play_singleton]
      exact .completed _
    | multiColumn | part | unrecognized =>
      have told := below pass
      rw [modeBelow_plain o ancestors rfl, facesBelow_plain o ancestors rfl] at told
      exact told
    | tableColumn | tableRow | hline | cline | frameTitle | frameSubtitle | heading | graphicsPath | path =>
      exact .completed r

theorem play_actsAll (c : Context) (o : Outset) (ancestors : List Node) {r : Record} (pass : r.tracker.pass = o.pass) :
    ∀ nodes : List Node, Told (facesBelow o ancestors) (r.play c (actsAll o ancestors nodes))
      (Trace.visitAll c (r.within (facesBelow o ancestors)) (modeBelow o ancestors) nodes)
  | [] => .completed r
  | n :: rest => by
    rw [actsAll, Record.play_append, Trace.visitAll]
    refine (play_acts c o ancestors pass n).andThen fun s visited => ?_
    have kept := Trace.visit_state visited
    exact play_actsAll c o ancestors ((congrArg PassState.pass kept).trans pass) rest

end

/-- The acts of a whole script make the calls that the walk of its nodes makes. -/
theorem play_script (c : Context) {pass : Nat} {r : Record} (same : r.tracker.pass = pass)
    (nodes : List Deferred) : Told (.ofBase c.settings.fontSize) (r.play c (script c pass nodes))
      (Trace.visitEach c (r.within (.ofBase c.settings.fontSize)) nodes) := by
  induction nodes generalizing r with
  | nil => exact .completed r
  | cons d rest ih =>
    rw [script, List.flatMap_cons, Record.play_append, Trace.visitEach]
    refine (play_acts c ⟨pass, c.settings.fontSize, .plain c.settings.fontSize, d.mode⟩ [] same d.node).andThen
      fun s visited => ?_
    have kept := Trace.visit_state visited
    exact ih ((congrArg PassState.pass kept).trans same)

/-- What is left of a walk when it has ended. -/
structure Outcome where
  flow : Flow
  calls : List ShapeFlow.Call
  deferred : List Deferred
  tracker : Tracker

/-- Ends the text and the row of shapes, also after a pause. -/
def Trace.finish (found : Flow × Trace) : Outcome :=
  let t := found.2.closeText.call .flush
  ⟨found.1, t.calls, t.deferred, t.tracker⟩

def Record.finish (found : Flow × Record) : Outcome :=
  ⟨found.1, found.2.flush.calls, found.2.flush.deferred, found.2.flush.tracker⟩

theorem Told.finish {faces : FaceStack} {played : Except DeckError (Flow × Record)}
    {visited : Except DeckError (Flow × Trace)} (told : Told faces played visited) :
    played.map Record.finish = visited.map Trace.finish := by
  have same (ended : Flow) (r : Record) (inner : FaceStack) :
      Record.finish (ended, r) = Trace.finish (ended, r.within inner) := by
    simp only [Record.finish, Trace.finish, Record.flush_within]
    rfl
  cases told with
  | completed r => exact congrArg Except.ok (same _ r faces)
  | paused r inner => exact congrArg Except.ok (same _ r inner)
  | failed error => rfl

/-- What a walk hands on when its calls are made on a flow. -/
def Outcome.onto (flow : ShapeFlow) (o : Outcome) : Flow × ShapeFlow × List Deferred × Tracker :=
  (o.flow, flow.performAll o.calls, o.deferred, o.tracker)

/-- The loop over a stack of tasks walks the content of a slide as the recursion over the trees does: the
calls to the flow of shapes, the nodes put off, the tracker, the pause and the error are the same. Both do
what the script says, in which the face and the mode of every string are read off its ancestors and the
strings between two blocks form one text. On a flow of shapes the walk makes these calls and no others. -/
theorem loop_plays_script (c : Context) (tracker : Tracker) (titlePage : TitlePage) (nodes : List Deferred) :
    let start := Trace.start c tracker titlePage
    let walked := (Trace.loop c start (Task.ofDeferred nodes)).map Trace.finish
    walked = (Trace.visitEach c start nodes).map Trace.finish ∧
      walked = ((Record.start tracker titlePage).play c (script c tracker.pass nodes)).map Record.finish ∧
      ∀ flow : ShapeFlow, ((Walk.start c tracker titlePage flow).run c nodes).map
          (fun (ended, w) => (ended, w.flow, w.deferred, w.tracker)) = walked.map (Outcome.onto flow) := by
  intro start walked
  have recursion : walked = (Trace.visitEach c start nodes).map Trace.finish :=
    congrArg (Except.map Trace.finish) (Trace.loop_visitEach c start nodes)
  refine ⟨recursion, ?_, fun flow => ?_⟩
  · rw [recursion]
    exact (@play_script c tracker.pass (.start tracker titlePage) rfl nodes).finish.symm
  · have made : Walk.visitEach c (Walk.start c tracker titlePage flow) nodes =
        Trace.settle flow (Trace.visitEach c start nodes) := Trace.visitEach_onto flow c start nodes
    rw [recursion, Walk.run, made]
    rcases Trace.visitEach c start nodes with error | ⟨ended, t⟩
    · rfl
    · have close : (t.onto flow).close = (t.closeText.call .flush).onto flow := by
        rw [Walk.close, Trace.closeText_onto, Trace.call_onto]
        rfl
      simp only [Trace.settle, Except.map, close]
      rfl

end Content

end Unveil
