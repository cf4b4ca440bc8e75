import Unveil.Proofs.Inline.Scope
import Unveil.Proofs.Inline.Stack

namespace Unveil

/-- Kinds whose overlay restricts the mode of what is below them. -/
def NodeKind.isGate : NodeKind → Bool
  | .veil _ | .multiColumn | .list _ | .item | .tabular => true
  | _ => false

namespace Inline

/-- What holds around the nodes of a walk. The face and the mode of every act are told by it and by the ancestors
of its node. -/
structure Outset where
  pass : Nat
  /-- size that relative sizes refer to -/
  base : Float32
  face : Face
  mode : Mode

namespace Outset

/-- The face below a node: another one only below a style node that shows on the pass. -/
def restyle (o : Outset) (face : Face) (n : Node) : Face :=
  match n.kind with
  | .style command => if n.overlay.visible o.pass then face.apply o.base n command else face
  | _ => face

/-- The mode below a node. -/
def restrict (o : Outset) (mode : Mode) (n : Node) : Mode :=
  if n.kind.isGate then mode.max (.ofNode n o.pass) else mode

/-- The face below nodes that stand in each other, the outermost first: the one that the visible style nodes among
them make. -/
def faceBelow (o : Outset) (ancestors : List Node) : Face := ancestors.foldl o.restyle o.face

/-- The mode below nodes that stand in each other, the outermost first: the strongest of the gates among them. -/
def modeBelow (o : Outset) (ancestors : List Node) : Mode := ancestors.foldl o.restrict o.mode

theorem faceBelow_concat (o : Outset) (ancestors : List Node) (n : Node) :
    o.faceBelow (ancestors ++ [n]) = o.restyle (o.faceBelow ancestors) n := by
  simp only [faceBelow, List.foldl_append, List.foldl_cons, List.foldl_nil]

theorem modeBelow_concat (o : Outset) (ancestors : List Node) (n : Node) :
    o.modeBelow (ancestors ++ [n]) = o.restrict (o.modeBelow ancestors) n := by
  simp only [modeBelow, List.foldl_append, List.foldl_cons, List.foldl_nil]

end Outset

/-- One thing that a walk does, with the face and the mode in which it is done. -/
inductive Act where
  | write (text : String) (face : Face) (mode : Mode)
  | breakParagraph (mode : Mode)
  | startTable (mode : Mode)
  | openList (kind : ListKind)
  | closeList
  | startItem (item : Node) (face : Face) (mode : Mode)
  | consult (overlay : Overlay)
  | pause
  | deferBlock (n : Node) (mode : Mode)

/-- A gate consults the overlay of its node, if there is one. -/
def Act.gate (n : Node) : List Act := if n.overlay.isUnrestricted then [] else [.consult n.overlay]

/-- The state with other faces. -/
def withFaces (s : Inline) (faces : FaceStack) : Inline := { s with faces }

/-- Does something in a given face, whatever face is in effect. -/
def inFace (s : Inline) (face : Face) (f : Inline → Inline) : Inline :=
  (f (s.withFaces { s.faces with current := face })).withFaces s.faces

/-- Does one thing. The faces of the state have no part in it. -/
def perform (s : Inline) : Act → Flow × Inline
  | .write text face mode => (.completed, s.inFace face fun s => s.append text mode)
  | .breakParagraph mode => (.completed, s.breakParagraph mode)
  | .startTable mode => (.completed, s.startTable mode)
  | .openList kind => (.completed, s.openList kind)
  | .closeList => (.completed, s.closeList)
  | .startItem item face mode => (.completed, s.inFace face fun s => s.startItem item mode)
  | .consult overlay => (.completed, { s with tracker := s.tracker.observe overlay })
  | .pause => s.meetPause
  | .deferBlock n mode => (.completed, s.deferBlock n mode)

/-- Does things in order, until a pause ends it. -/
def play (s : Inline) : List Act → Flow × Inline
  | [] => (.completed, s)
  | act :: rest =>
    match s.perform act with
    | (.completed, s) => s.play rest
    | paused => paused

mutual

/-- What the walk of a node does below its ancestors. -/
def acts (rules : InlineRules) (o : Outset) (ancestors : List Node) : Node → List Act
  | n@⟨kind, _, _, _, children⟩ =>
    let face := o.faceBelow ancestors
    let mode := o.modeBelow ancestors
    let inner := o.modeBelow (ancestors ++ [n])
    let below := actsAll rules o (ancestors ++ [n]) children
    match kind with
    | .text => [.write n.ownText face mode]
    | .paragraph | .tableRow => [.breakParagraph mode]
    | .tableColumn => [.write " " face mode]
    | .pause => [.pause]
    | .style _ => .consult n.overlay :: below
    | .veil _ | .multiColumn => Act.gate n ++ below
    | .list list =>
      if rules.defers list then [.deferBlock n mode]
      else Act.gate n ++ .openList list :: (below ++ [.closeList])
    | .item => Act.gate n ++ .startItem n face inner :: below
    | .tabular =>
      if rules.policy = .defer then [.deferBlock n mode]
      else Act.gate n ++ .startTable inner :: below
    | .image => if rules.policy = .defer then [.deferBlock n mode] else [.consult n.overlay]
    | .titlePage => if rules.policy = .defer then [.deferBlock n mode] else []
    | .part _ | .unrecognized _ => below
    | .titleField _ | .graphicsPath | .path | .heading _ | .frameTitle | .frameSubtitle | .hline
    | .cline => []

def actsAll (rules : InlineRules) (o : Outset) (ancestors : List Node) : List Node → List Act
  | [] => []
  | n :: rest => acts rules o ancestors n ++ actsAll rules o ancestors rest

end

/-- What a walk of nodes does from a state on. -/
def script (rules : InlineRules) (s : Inline) (mode : Mode) (nodes : List Node) : List Act :=
  actsAll rules ⟨s.tracker.pass, s.faces.base, s.face, mode⟩ [] nodes

theorem play_append (s : Inline) (first more : List Act) :
    s.play (first ++ more) =
      match s.play first with
      | (.completed, t) => t.play more
      | paused => paused := by
  induction first generalizing s with
  | nil => rfl
  | cons act rest ih =>
    simp only [List.cons_append, play]
    rcases s.perform act with ⟨flow, t⟩
    cases flow with
    | completed => exact ih t
    | paused => rfl

theorem resume_withFaces (s : Inline) (faces : FaceStack) (same : faces.current = s.faces.current) :
    (s.withFaces faces).resume = s.resume.withFaces faces := by
  cases due : s.continuation <;> simp [resume, withFaces, due, face, level, same]

/-- Text is written in the current face only. -/
theorem append_withFaces (s : Inline) (text : String) (mode : Mode) (faces : FaceStack)
    (same : faces.current = s.faces.current) :
    (s.withFaces faces).append text mode = (s.append text mode).withFaces faces := by
  have current : faces.current = s.resume.faces.current := by rw [resume_faces, same]
  unfold append
  split
  · rfl
  · rw [resume_withFaces s faces same]
    simp only [withFaces, face, current]

/-- Items are started in the current face only. -/
theorem startItem_withFaces (s : Inline) (n : Node) (mode : Mode) (faces : FaceStack)
    (same : faces.current = s.faces.current) :
    (s.withFaces faces).startItem n mode = (s.startItem n mode).withFaces faces := by
  obtain ⟨base, current, outer⟩ := faces
  cases same
  unfold startItem
  split
  · rfl
  · cases lists : s.lists with
    | nil => simp only [withFaces, lists, face]
    | cons l outer =>
      simp only [withFaces, lists, face]
      split
      · unfold writeTerm
        split <;> rfl
      · rfl

theorem startTable_withFaces (s : Inline) (mode : Mode) (faces : FaceStack) :
    (s.withFaces faces).startTable mode = (s.startTable mode).withFaces faces := by
  by_cases room : mode.emits && !s.body.current.isEmpty <;> simp [startTable, withFaces, room]

/-- What depends on the current face only is done in the same way in the face of an act. -/
theorem inFace_withFaces {s : Inline} {face : Face} {f : Inline → Inline} (faces : FaceStack)
    (current : s.faces.current = face)
    (fromCurrent : ∀ other : FaceStack, other.current = s.faces.current →
      f (s.withFaces other) = (f s).withFaces other) :
    (s.withFaces faces).inFace face f = (f s).withFaces faces := by
  have inside := fromCurrent { faces with current := face } current.symm
  exact congrArg (fun t => t.withFaces faces) inside

/-- A state inside the ancestors that it is walked below. -/
structure Below (o : Outset) (ancestors : List Node) (s : Inline) : Prop where
  face : s.faces.current = o.faceBelow ancestors
  base : s.faces.base = o.base
  pass : s.tracker.pass = o.pass

theorem Below.of_eq {o : Outset} {ancestors : List Node} {s t : Inline} (below : Below o ancestors s)
    (faces : t.faces = s.faces) (state : t.tracker.state = s.tracker.state) : Below o ancestors t :=
  ⟨faces ▸ below.face, faces ▸ below.base, (congrArg PassState.pass state).trans below.pass⟩

/-- Nodes that are no styles keep the face of what is below them. -/
theorem Below.inside {o : Outset} {ancestors : List Node} {s : Inline} (below : Below o ancestors s)
    (n : Node) (plain : n.kind.isStyle = false) : Below o (ancestors ++ [n]) s := by
  refine ⟨?_, below.base, below.pass⟩
  rw [below.face, Outset.faceBelow_concat]
  unfold Outset.restyle
  split
  · rename_i style
    simp [style, NodeKind.isStyle] at plain
  · rfl

theorem Below.gate {o : Outset} {ancestors : List Node} {s : Inline} (below : Below o ancestors s)
    (n : Node) (mode : Mode) : Below o ancestors (s.gate n mode).2 :=
  below.of_eq rfl (by simp)

/-- A style node changes the face of what is below it if its overlay shows it. -/
theorem Below.openStyle {o : Outset} {ancestors : List Node} {s : Inline} (below : Below o ancestors s)
    (n : Node) {command : StyleCommand} (style : n.kind = .style command) :
    Below o (ancestors ++ [n]) (s.openStyle n) := by
  refine ⟨?_, below.base, below.pass⟩
  rw [Outset.faceBelow_concat]
  simp only [Inline.openStyle, Tracker.reveal, FaceStack.enter, Outset.restyle, style, below.face,
    below.base, below.pass]

/-- The mode below a gate is the one that the walk goes on with. -/
theorem Below.gate_fst {o : Outset} {ancestors : List Node} {s : Inline} {n : Node}
    (below : Below o ancestors s) (gate : n.kind.isGate = true) :
    (s.gate n (o.modeBelow ancestors)).1 = o.modeBelow (ancestors ++ [n]) := by
  have own : (s.gate n (o.modeBelow ancestors)).1 =
      (o.modeBelow ancestors).max (.ofNode n s.tracker.pass) := Mode.gate_fst _ n s.tracker
  rw [own, Outset.modeBelow_concat, below.pass]
  simp only [Outset.restrict, gate, if_true]

/-- Nodes that are no gates keep the mode of what is below them. -/
theorem modeBelow_plain (o : Outset) (ancestors : List Node) (n : Node)
    (plain : n.kind.isGate = false) : o.modeBelow (ancestors ++ [n]) = o.modeBelow ancestors := by
  rw [Outset.modeBelow_concat]
  simp [Outset.restrict, plain]

/-- Playing a gate leaves the state that the walk goes on with. -/
theorem play_gate (s : Inline) (n : Node) (mode : Mode) (faces : FaceStack) (more : List Act) :
    (s.withFaces faces).play (Act.gate n ++ more) = ((s.gate n mode).2.withFaces faces).play more := by
  have noted : (s.gate n mode).2 = { s with tracker := (mode.gate n s.tracker).2 } := rfl
  rw [noted, Mode.gate_snd]
  unfold Act.gate
  split <;> rfl

/-- The result of a walk with other faces. -/
def settle (faces : FaceStack) (found : Flow × Inline) : Flow × Inline :=
  (found.1, found.2.withFaces faces)

theorem play_closeList (faces : FaceStack) (s : Inline) (first : List Act) (found : Flow × Inline)
    (played : s.play first = settle faces found) :
    s.play (first ++ [.closeList]) = settle faces (andThen closeList found) := by
  obtain ⟨flow, t⟩ := found
  rw [play_append, played]
  cases flow <;> rfl

theorem settle_closeStyle (faces : FaceStack) (found : Flow × Inline) :
    settle faces (andThen closeStyle found) = settle faces found := by
  obtain ⟨flow, t⟩ := found
  cases flow <;> rfl

mutual

/-- The acts of a node write what its walk writes, whatever faces the state has that performs them. -/
theorem play_acts (rules : InlineRules) (o : Outset) (faces : FaceStack) {ancestors : List Node}
    {s : Inline} (below : Below o ancestors s) :
    ∀ n : Node, (s.withFaces faces).play (acts rules o ancestors n) =
      settle faces (visit rules s (o.modeBelow ancestors) n)
  | ⟨kind, overlay, params, payload, children⟩ => by
    have postponed : (s.withFaces faces).play
        [.deferBlock ⟨kind, overlay, params, payload, children⟩ (o.modeBelow ancestors)] =
          settle faces (.completed,
            s.deferBlock ⟨kind, overlay, params, payload, children⟩ (o.modeBelow ancestors)) := by
      simp only [play, perform, settle, Inline.deferBlock]
      split <;> rfl
    cases kind with
    | text | tableColumn =>
      simp only [acts, play, perform, visit, settle]
      rw [inFace_withFaces faces below.face fun other same => append_withFaces s _ _ other same]
    | paragraph | tableRow =>
      simp only [acts, play, perform, visit, settle, breakParagraph]
      split <;> rfl
    | pause =>
      simp only [acts, play, perform, visit, settle, meetPause, withFaces]
      rcases s.tracker.pause with ⟨flow, tracker⟩
      cases flow <;> rfl
    | style command =>
      simp only [acts, play, perform, visit]
      rw [settle_closeStyle, ← modeBelow_plain o ancestors ⟨.style command, _, _, _, _⟩ rfl]
      exact play_actsAll rules o faces (below.openStyle ⟨.style command, _, _, _, _⟩ rfl) children
    | veil veil =>
      simp only [acts, visit]
      rw [play_gate s _ (o.modeBelow ancestors), below.gate_fst rfl]
      exact play_actsAll rules o faces ((below.gate _ _).inside ⟨.veil veil, _, _, _, _⟩ rfl) children
    | multiColumn =>
      simp only [acts, visit]
      rw [play_gate s _ (o.modeBelow ancestors), below.gate_fst rfl]
      exact play_actsAll rules o faces ((below.gate _ _).inside ⟨.multiColumn, _, _, _, _⟩ rfl) children
    | list kind =>
      simp only [acts, visit]
      split
      · exact postponed
      · rw [play_gate s _ (o.modeBelow ancestors), below.gate_fst rfl]
        have opened := ((below.gate ⟨.list kind, overlay, params, payload, children⟩
          (o.modeBelow ancestors)).of_eq (openList_faces _ kind) rfl).inside
            ⟨.list kind, overlay, params, payload, children⟩ rfl
        exact play_closeList faces _ _ _ (play_actsAll rules o faces opened children)
    | item =>
      simp only [acts, visit]
      rw [play_gate s _ (o.modeBelow ancestors), below.gate_fst rfl]
      simp only [play, perform]
      rw [inFace_withFaces faces (below.gate _ _).face fun other same =>
        startItem_withFaces _ _ _ other same]
      exact play_actsAll rules o faces
        ((below.of_eq (by simp) (by simp)).inside ⟨.item, _, _, _, _⟩ rfl) children
    | tabular =>
      simp only [acts, visit]
      split
      · exact postponed
      · rw [play_gate s _ (o.modeBelow ancestors), below.gate_fst rfl]
        simp only [play, perform]
        rw [startTable_withFaces]
        exact play_actsAll rules o faces
          ((below.of_eq (by simp) (by simp)).inside ⟨.tabular, _, _, _, _⟩ rfl) children
    | image =>
      simp only [acts, visit]
      split
      · exact postponed
      · rfl
    | titlePage =>
      simp only [acts, visit]
      split
      · exact postponed
      · rfl
    | part part =>
      simp only [acts, visit]
      rw [← modeBelow_plain o ancestors ⟨.part part, _, _, _, _⟩ rfl]
      exact play_actsAll rules o faces (below.inside ⟨.part part, _, _, _, _⟩ rfl) children
    | unrecognized tag =>
      simp only [acts, visit]
      rw [← modeBelow_plain o ancestors ⟨.unrecognized tag, _, _, _, _⟩ rfl]
      exact play_actsAll rules o faces (below.inside ⟨.unrecognized tag, _, _, _, _⟩ rfl) children
    | titleField | graphicsPath | path | heading | frameTitle | frameSubtitle | hline | cline => rfl

theorem play_actsAll (rules : InlineRules) (o : Outset) (faces : FaceStack) {ancestors : List Node}
    {s : Inline} (below : Below o ancestors s) :
    ∀ nodes : List Node, (s.withFaces faces).play (actsAll rules o ancestors nodes) =
      settle faces (visitAll rules s (o.modeBelow ancestors) nodes)
  | [] => rfl
  | n :: rest => by
    have kept := visit_restored rules s (o.modeBelow ancestors) n
    rw [actsAll, play_append, play_acts rules o faces below n, visitAll]
    rcases found : visit rules s (o.modeBelow ancestors) n with ⟨flow, t⟩
    rw [found] at kept
    cases flow with
    | completed => exact play_actsAll rules o faces (below.of_eq (kept rfl).faces (kept rfl).state) rest
    | paused => rfl

end

/-- The script of a walk writes what the walk writes, up to the faces that a pause may leave entered. Nothing is
entered or left, so there is nothing to restore. -/
theorem play_script (rules : InlineRules) (s : Inline) (mode : Mode) (nodes : List Node) :
    s.play (script rules s mode nodes) = settle s.faces (visitAll rules s mode nodes) :=
  play_actsAll rules ⟨s.tracker.pass, s.faces.base, s.face, mode⟩ s.faces ⟨rfl, rfl, rfl⟩ nodes

/-- The loop over a stack of tasks walks as the recursion over the trees does: what it writes, where it
stops and what it hands on are the same. Both write what the script says, in which the face and the mode
of every text are read off its ancestors, and a walk that is completed gives its scopes back. -/
theorem loop_script (rules : InlineRules) (tracker : Tracker) (faces : FaceStack) (body : TextBody)
    (mode : Mode) (nodes : List Node) :
    let s := Inline.ofFaces tracker faces body
    let found := loop rules s (Task.ofNodes mode nodes)
    found = visitAll rules s mode nodes ∧
      s.play (script rules s mode nodes) = (found.1, { found.2 with faces }) ∧
      (found.1 = .completed → found.2.faces = faces ∧ found.2.faces.depth = faces.depth ∧
        found.2.lists = []) := by
  intro s found
  have same : found = visitAll rules s mode nodes := by
    have run := loop_visitAll rules s mode [] nodes
    rw [List.append_nil] at run
    refine run.trans ?_
    rcases visitAll rules s mode nodes with ⟨flow, t⟩
    cases flow with
    | completed => simp only [goOn, loop]
    | paused => rfl
  refine ⟨same, ?_, fun completed => ?_⟩
  · rw [same, play_script]
    rfl
  · rw [same] at completed ⊢
    obtain ⟨kept, _, items, lists⟩ := visitAll_restored rules s mode nodes completed
    exact ⟨kept, congrArg FaceStack.depth kept, lists⟩

end Inline

end Unveil
