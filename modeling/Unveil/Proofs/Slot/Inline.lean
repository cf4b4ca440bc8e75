import Unveil.Proofs.Inline.Asks
import Unveil.Proofs.Slot.Agree
import Unveil.Proofs.Slot.Outline

namespace Unveil

open Float.Model.UnpackedFloat (Sign)
open Size (Sized)

namespace FaceStack

/-- All sizes come from the base size and have its sign. -/
structure Sized (sign : Sign) (f : FaceStack) : Prop where
  base : Size.Sized sign f.base
  current : Size.Sized sign f.current.size
  outer : ∀ face ∈ f.outer, Size.Sized sign face.size

theorem ofBase_sized {sign : Sign} {base : Float32} (sized : Size.Sized sign base) :
    (ofBase base).Sized sign :=
  ⟨sized, sized, nofun⟩

theorem Sized.enter {sign : Sign} {f : FaceStack} (sized : f.Sized sign) (n : Node) (apply : Bool) :
    (f.enter n apply).Sized sign := by
  refine ⟨sized.base, ?_, List.forall_mem_cons.mpr ⟨sized.current, sized.outer⟩⟩
  unfold FaceStack.enter
  simp only
  split
  · rename_i command _
    split
    · cases command with
      | size factor => exact sized.base.mul (Size.factor_positive factor)
      | color =>
        simp only [Face.apply]
        split <;> exact sized.current
      | bold | italic | underline | smallCaps | typewriter | alert => exact sized.current
    · exact sized.current
  · exact sized.current

theorem Sized.leave {sign : Sign} {f : FaceStack} (sized : f.Sized sign) : f.leave.Sized sign := by
  obtain ⟨base, current, outer⟩ := f
  cases outer with
  | nil => exact sized
  | cons face rest =>
    obtain ⟨first, others⟩ := List.forall_mem_cons.mp sized.outer
    exact ⟨sized.base, first, others⟩

end FaceStack

/-- The same block put off, left out on both passes or on none. -/
structure Deferred.Alike (d e : Deferred) : Prop where
  node : d.node = e.node
  emits : d.mode.emits = e.mode.emits

namespace Inline

/-- Texts that differ in what is hidden only. -/
structure Alike (sign : Sign) (p q : Nat) (s t : Inline) : Prop where
  body : s.body.Alike sign t.body
  tracker : s.tracker.Alike p q t.tracker
  faces : s.faces = t.faces
  sized : s.faces.Sized sign
  lists : s.lists = t.lists
  continuation : s.continuation = t.continuation
  emitted : s.emitted = t.emitted
  deferred : List.Forall₂ Deferred.Alike s.deferred t.deferred

theorem ofFaces_alike {sign : Sign} {p q : Nat} {t u : Tracker} (tracker : t.Alike p q u)
    {faces : FaceStack} (sized : faces.Sized sign) {body : TextBody} (sound : body.Sound sign) :
    Alike sign p q (.ofFaces t faces body) (.ofFaces u faces body) :=
  ⟨.refl sound, tracker, rfl, sized, rfl, rfl, rfl, .nil⟩

namespace Alike

variable {sign : Sign} {p q : Nat} {s t : Inline} {mode mode' : Mode}

theorem face (alike : Alike sign p q s t) : s.face = t.face := congrArg FaceStack.current alike.faces

theorem level (alike : Alike sign p q s t) : s.level = t.level := by
  rw [Inline.level, Inline.level, alike.lists]

theorem resume (alike : Alike sign p q s t) : Alike sign p q s.resume t.resume := by
  unfold Inline.resume
  rw [alike.continuation, alike.level, alike.face]
  split
  · exact { alike with body := alike.body.startParagraph rfl _ _, continuation := rfl }
  · exact alike

/-- Text that is hidden on one pass only takes its room on both. -/
theorem append (alike : Alike sign p q s t) (text : String) (emits : mode.emits = mode'.emits) :
    Alike sign p q (s.append text mode) (t.append text mode') := by
  have resumed := alike.resume
  unfold Inline.append
  rw [emits]
  split
  · exact alike
  · simp only [resumed.face, resumed.emitted]
    exact { resumed with
      body := resumed.body.append (resumed.face ▸ resumed.sized.current) text _ _
      emitted := rfl }

theorem openList (alike : Alike sign p q s t) (kind : ListKind) :
    Alike sign p q (s.openList kind) (t.openList kind) := by
  have taken (x y : Paragraph) (same : x.Alike sign y) : Paragraph.Alike sign
      (if x.isEmpty then { x with bullet := none } else x)
        (if y.isEmpty then { y with bullet := none } else y) := by
    rw [same.isEmpty]
    split
    · exact ⟨Paragraph.outline_eq same.letters rfl same.level same.align same.size, same.left,
        same.right⟩
    · exact same
  unfold Inline.openList
  rw [alike.lists, alike.level]
  refine { alike with body := ?_, lists := rfl, continuation := rfl }
  simp only
  split
  · exact alike.body
  · exact alike.body.mapCurrent taken

theorem closeList (alike : Alike sign p q s t) : Alike sign p q s.closeList t.closeList :=
  { alike with lists := congrArg List.tail alike.lists, continuation := rfl }

theorem writeTerm (alike : Alike sign p q s t) (term : String) (hidden hidden' : Bool) :
    Alike sign p q (s.writeTerm term hidden) (t.writeTerm term hidden') := by
  have sized : Sized sign t.face.size := alike.face ▸ alike.sized.current
  have bold : Sized sign ({ t.face with bold := true } : Face).size := sized
  unfold Inline.writeTerm
  rw [alike.face]
  split
  · exact alike
  · exact { alike with
      body := (alike.body.append bold term hidden hidden').append sized " " hidden hidden'
      emitted := rfl }

theorem startItem (alike : Alike sign p q s t) (item : Node) (emits : mode.emits = mode'.emits) :
    Alike sign p q (s.startItem item mode) (t.startItem item mode') := by
  unfold Inline.startItem
  rw [emits, alike.lists, alike.face]
  split
  · exact alike
  · split
    · exact { alike with body := alike.body.startParagraph rfl _ _, lists := rfl }
    · rename_i l outer _
      have marks : (l.mark?.map fun mark => (⟨mark, mode.isHidden⟩ : Bullet)).map Bullet.mark =
          (l.mark?.map fun mark => (⟨mark, mode'.isHidden⟩ : Bullet)).map Bullet.mark := by
        simp only [Option.map_map, Function.comp_def]
      have started : Alike sign p q
          { s with
            body := s.body.startParagraph
              (l.mark?.map fun mark => ⟨mark, mode.isHidden⟩) l.level t.face.size
            lists := { l with count := l.count + 1 } :: outer
            continuation := false }
          { t with
            body := t.body.startParagraph
              (l.mark?.map fun mark => ⟨mark, mode'.isHidden⟩) l.level t.face.size
            lists := { l with count := l.count + 1 } :: outer
            continuation := false } :=
        { alike with body := alike.body.startParagraph marks _ _, lists := rfl, continuation := rfl }
      simp only
      split
      · exact started.writeTerm _ _ _
      · exact started

theorem deferBlock (alike : Alike sign p q s t) (n : Node) (emits : mode.emits = mode'.emits) :
    Alike sign p q (s.deferBlock n mode) (t.deferBlock n mode') := by
  unfold Inline.deferBlock
  rw [emits]
  split
  · exact { alike with deferred := List.rel_append alike.deferred (.cons ⟨rfl, emits⟩ .nil) }
  · exact alike

theorem breakParagraph (alike : Alike sign p q s t) (emits : mode.emits = mode'.emits) :
    Alike sign p q (s.breakParagraph mode) (t.breakParagraph mode') := by
  unfold Inline.breakParagraph
  rw [emits]
  split
  · exact { alike with body := alike.body.breakParagraph }
  · exact alike

theorem startTable (alike : Alike sign p q s t) (emits : mode.emits = mode'.emits) :
    Alike sign p q (s.startTable mode) (t.startTable mode') := by
  unfold Inline.startTable
  rw [emits, alike.body.current.isEmpty]
  split
  · exact { alike with body := alike.body.breakParagraph }
  · exact alike

theorem gate (alike : Alike sign p q s t) (n : Node) (mode mode' : Mode) :
    Alike sign p q (s.gate n mode).2 (t.gate n mode').2 :=
  { alike with tracker := alike.tracker.gate mode mode' n }

/-- A style shows on both passes or on none. -/
theorem openStyle (alike : Alike sign p q s t) {n : Node}
    (agree : n.overlay.visible p = n.overlay.visible q) :
    Alike sign p q (s.openStyle n) (t.openStyle n) := by
  have shown : n.overlay.visible s.tracker.pass = n.overlay.visible t.tracker.pass := by
    rw [alike.tracker.left, alike.tracker.right, agree]
  refine { alike with
    tracker := alike.tracker.observe n.overlay
    faces := ?_
    sized := alike.sized.enter n _ }
  simp only [Inline.openStyle, Tracker.reveal, shown, alike.faces]

theorem closeStyle (alike : Alike sign p q s t) : Alike sign p q s.closeStyle t.closeStyle :=
  { alike with faces := congrArg FaceStack.leave alike.faces, sized := alike.sized.leave }

theorem meetPause (alike : Alike sign p q s t) : EndAlike (Alike sign p q) s.meetPause t.meetPause :=
  have paused := alike.tracker.pause
  ⟨paused.flow, { alike with tracker := paused.state }⟩

theorem andThen {close : Inline → Inline} {found other : Flow × Inline}
    (ends : EndAlike (Alike sign p q) found other)
    (closed : ∀ s t, Alike sign p q s t → Alike sign p q (close s) (close t)) :
    EndAlike (Alike sign p q) (andThen close found) (andThen close other) := by
  obtain ⟨flow, s⟩ := found
  obtain ⟨flow', t⟩ := other
  obtain ⟨rfl, alike⟩ := ends
  cases flow with
  | completed => exact ⟨rfl, closed s t alike⟩
  | paused => exact ⟨rfl, alike⟩

end Alike

variable {sign : Sign} {p q : Nat}

mutual

/-- A text on two passes that agree on what decides is written piece by piece into alike bodies, in the same faces
and lists. -/
theorem visit_alike (rules : InlineRules) {s t : Inline} {mode mode' : Mode}
    (alike : Alike sign p q s t) (emits : mode.emits = mode'.emits) :
    ∀ n : Node, AgreeOn p q (s.tracker.met (asks rules n)) →
      EndAlike (Alike sign p q) (visit rules s mode n) (visit rules t mode' n)
  | ⟨kind, overlay, params, payload, children⟩ => fun agree => by
    have gate := alike.gate ⟨kind, overlay, params, payload, children⟩ mode mode'
    cases kind with
    | text => exact ⟨rfl, alike.append _ emits⟩
    | tableColumn => exact ⟨rfl, alike.append " " emits⟩
    | paragraph | tableRow => exact ⟨rfl, alike.breakParagraph emits⟩
    | pause => exact alike.meetPause
    | style command =>
      have opened := alike.openStyle (agree _ (.head _) rfl)
      have below := visitAll_alike rules opened emits children (agree.mono (List.subset_cons_self _ _))
      exact Alike.andThen below fun _ _ closed => closed.closeStyle
    | veil | multiColumn =>
      obtain ⟨inner, below⟩ := Mode.gate_agree alike.tracker emits agree
      exact visitAll_alike rules gate inner children below
    | item =>
      obtain ⟨inner, below⟩ := Mode.gate_agree alike.tracker emits agree
      refine visitAll_alike rules (gate.startItem _ inner) inner children ?_
      rwa [startItem_tracker]
    | list kind =>
      simp only [visit, asks] at agree ⊢
      split
      · exact ⟨rfl, alike.deferBlock _ emits⟩
      · rename_i native
        rw [if_neg native] at agree
        obtain ⟨inner, below⟩ := Mode.gate_agree alike.tracker emits agree
        have inside := visitAll_alike rules (gate.openList kind) inner children below
        exact Alike.andThen inside fun _ _ closed => closed.closeList
    | tabular =>
      simp only [visit, asks] at agree ⊢
      split
      · exact ⟨rfl, alike.deferBlock _ emits⟩
      · rename_i asText
        rw [if_neg asText] at agree
        obtain ⟨inner, below⟩ := Mode.gate_agree alike.tracker emits agree
        refine visitAll_alike rules (gate.startTable inner) inner children ?_
        rwa [startTable_tracker]
    | image =>
      simp only [visit]
      split
      · exact ⟨rfl, alike.deferBlock _ emits⟩
      · exact ⟨rfl, { alike with tracker := alike.tracker.observe _ }⟩
    | titlePage =>
      simp only [visit]
      split
      · exact ⟨rfl, alike.deferBlock _ emits⟩
      · exact ⟨rfl, alike⟩
    | part | unrecognized => exact visitAll_alike rules alike emits children agree
    | titleField | graphicsPath | path | heading | frameTitle | frameSubtitle | hline | cline => exact ⟨rfl, alike⟩

theorem visitAll_alike (rules : InlineRules) {s t : Inline} {mode mode' : Mode}
    (alike : Alike sign p q s t) (emits : mode.emits = mode'.emits) :
    ∀ nodes : List Node, AgreeOn p q (s.tracker.met (asksAll rules nodes)) →
      EndAlike (Alike sign p q) (visitAll rules s mode nodes) (visitAll rules t mode' nodes)
  | [] => fun _ => ⟨rfl, alike⟩
  | n :: rest => fun agree => by
    obtain ⟨here, later⟩ := agree.append _
    have first := visit_alike rules alike emits n here
    have answered := answer_asks rules s mode n
    rw [visitAll, visitAll]
    generalize visit rules s mode n = found at first answered
    generalize visit rules t mode' n = other at first
    obtain ⟨flow, u⟩ := found
    obtain ⟨flow', v⟩ := other
    obtain ⟨rfl, state⟩ := first
    cases flow with
    | completed => exact visitAll_alike rules state emits rest (later _ answered)
    | paused => exact ⟨rfl, state⟩

end

end Inline

end Unveil
