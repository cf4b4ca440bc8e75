import Unveil.Proofs.Reveal.Blocks
import Unveil.Proofs.Slot.Table

namespace Unveil

open Float.Model.UnpackedFloat (Sign)

variable {sign : Sign} {p q : Nat} {mode mode' : Mode}

namespace DescriptionWalk

/-- Lists that differ in what is hidden only. -/
structure Alike (sign : Sign) (p q : Nat) (d e : DescriptionWalk) : Prop where
  grid : d.grid.Alike sign e.grid
  text : d.text.Alike sign p q e.text
  cursor : d.cursor = e.cursor

variable {d e : DescriptionWalk} {rules : InlineRules} {face : Face} {rows : Nat}

theorem Alike.nextRow (alike : d.Alike sign p q e) : d.nextRow = e.nextRow := by
  rw [DescriptionWalk.nextRow, DescriptionWalk.nextRow, alike.cursor]

theorem writeTerm_alike (alike : d.Alike sign p q e) (sized : Size.Sized sign face.size) (row : Nat)
    (term : String) (emits : mode.emits = mode'.emits) :
    (d.writeTerm face row term mode).1 = (e.writeTerm face row term mode').1 ∧
      (d.writeTerm face row term mode).2.Alike sign (e.writeTerm face row term mode').2 := by
  have bold : Size.Sized sign ({ face with bold := true } : Face).size := sized
  have cells := alike.grid.cell? row 0
  have sameCells : (d.grid.cell? row 0).isSome = (e.grid.cell? row 0).isSome := by
    generalize d.grid.cell? row 0 = found at cells ⊢
    generalize e.grid.cell? row 0 = other at cells ⊢
    cases cells <;> rfl
  unfold writeTerm
  rw [emits, sameCells]
  split
  · exact ⟨rfl, alike.grid.mapBody (fun _ _ old => old.body.append bold term _ _) row 0⟩
  · exact ⟨rfl, alike.grid⟩

theorem item_alike (alike : d.Alike sign p q e) (sized : Size.Sized sign face.size)
    (emits : mode.emits = mode'.emits) {n : Node}
    (agree : AgreeOn p q (d.text.tracker.met (Ask.gate n ++ Inline.asksAll rules n.children))) :
    EndAlike (Alike sign p q) (d.item rules face mode n) (e.item rules face mode' n) := by
  obtain ⟨lets, inside⟩ := Mode.gate_agree alike.text.tracker emits agree
  have inner : (d.text.gate n mode).1.emits = (e.text.gate n mode').1.emits := lets
  have gated := alike.text.gate n mode mode'
  obtain ⟨hasTerm, grid⟩ := writeTerm_alike alike sized d.nextRow n.params inner
  have cells := grid.cell? d.nextRow 1
  unfold item
  simp only [← alike.nextRow]
  generalize (d.writeTerm face d.nextRow n.params (d.text.gate n mode).1).2.cell? d.nextRow 1 = found
    at cells ⊢
  generalize (e.writeTerm face d.nextRow n.params (e.text.gate n mode').1).2.cell? d.nextRow 1 = other
    at cells ⊢
  cases cells with
  | none => exact ⟨rfl, grid, gated, alike.cursor⟩
  | @some cell cell' same =>
    have start : Inline.Alike sign p q { (d.text.gate n mode).2 with body := cell.body }
      { (e.text.gate n mode').2 with body := cell'.body } := { gated with body := same.body }
    have written := Inline.visitAll_alike rules start inner n.children inside
    refine ⟨written.flow, ?_, { written.state with emitted := rfl }, ?_⟩
    · exact grid.mapBody (fun _ _ _ => written.state.body) _ _
    · simp only [hasTerm, written.state.emitted]

theorem steps_alike (rules : InlineRules) {nodes : List Node} (fits : d.Fits rows nodes)
    (alike : d.Alike sign p q e) (sized : Size.Sized sign face.size) (emits : mode.emits = mode'.emits)
    (agree : AgreeOn p q (d.text.tracker.met (asksAll rules nodes))) :
    (d.steps rules face mode nodes).1 = (e.steps rules face mode' nodes).1 ∧
      (d.steps rules face mode nodes).2.Alike sign p q (e.steps rules face mode' nodes).2 := by
  induction nodes generalizing d e with
  | nil => exact ⟨rfl, alike⟩
  | cons n rest ih =>
    obtain ⟨here, later⟩ := agree.append (asks rules n)
    rw [steps, steps]
    cases kind : n.kind
    case item =>
      have asked : asks rules n = Ask.gate n ++ Inline.asksAll rules n.children := by
        simp only [asks, kind]
      have first := item_alike alike sized emits (asked ▸ here)
      obtain ⟨after, _, answer, _⟩ := fits.item kind rules face mode
      simp only
      generalize d.item rules face mode n = found at first after answer
      generalize e.item rules face mode' n = other at first
      obtain ⟨flow, d'⟩ := found
      obtain ⟨flow', e'⟩ := other
      obtain ⟨rfl, state⟩ := first
      cases flow with
      | completed => exact ih after state (later _ answer)
      | paused => exact ⟨state.cursor, state⟩
    case pause =>
      have asked : asks rules n = [.pause] := by simp only [asks, kind]
      have answer := d.text.tracker.answer_pause
      have paused := alike.text.tracker.pause
      simp only [Inline.meetPause]
      rw [asked, answer] at later
      generalize d.text.tracker.pause = found at paused later
      generalize e.text.tracker.pause = other at paused
      obtain ⟨flow, tracker⟩ := found
      obtain ⟨flow', tracker'⟩ := other
      obtain ⟨rfl, trackers⟩ := paused
      cases flow with
      | completed =>
        exact ih (fits.skip (by simp [kind]) { d.text with tracker })
          ⟨alike.grid, { alike.text with tracker := trackers }, alike.cursor⟩ (later _ rfl)
      | paused =>
        refine ⟨?_, alike.grid, { alike.text with tracker := trackers }, alike.cursor⟩
        simp only [alike.nextRow]
    all_goals
      have asked : asks rules n = [] := by simp only [asks, kind]
      rw [asked] at later
      exact ih (fits.skip (by simp [kind]) d.text) alike (later _ rfl)

end DescriptionWalk

namespace Node

theorem descriptionBlock_alike (emits : mode.emits = mode'.emits)
    {found other : Option RowCursor × DescriptionWalk}
    (pausedAt : found.1 = other.1) (alike : found.2.Alike sign p q other.2) :
    (descriptionBlock mode found).Alike sign p q (descriptionBlock mode' other) := by
  refine ⟨?_, congrArg DescriptionWalk.flow pausedAt, alike.text.deferred, alike.text.tracker⟩
  rw [descriptionBlock, pausedAt]
  exact alike.grid.toShape? other.1 emits

/-- A description list on two passes that agree on what decides. -/
theorem renderDescription_alike (n : Node) (c : Context) {tracker tracker' : Tracker}
    {faces : FaceStack} (trackers : tracker.Alike p q tracker') (sized : faces.Sized sign)
    (emits : mode.emits = mode'.emits)
    (agree : AgreeOn p q (tracker.met (descriptionAsks c.policy n))) :
    (n.renderDescription c tracker faces mode).Alike sign p q
      (n.renderDescription c tracker' faces mode') := by
  obtain ⟨inner, inside⟩ := Mode.gate_agree trackers emits agree
  have gated := trackers.gate mode mode' n
  have start : DescriptionWalk.Alike sign p q (.start n c (mode.gate n tracker).2 faces)
      (.start n c (mode'.gate n tracker').2 faces) :=
    ⟨Grid.empty_alike sign _ _ _, Inline.ofFaces_alike gated sized (TextBody.ofSize_sound sign 0), rfl⟩
  obtain ⟨pausedAt, alike⟩ := DescriptionWalk.steps_alike c.cellRules
    (DescriptionWalk.start_fits n c (mode.gate n tracker).2 faces) start sized.current inner
    inside
  exact descriptionBlock_alike inner pausedAt alike

end Node

namespace TitlePage

/-- Title pages that differ in what is hidden only. -/
structure Walk.Alike (p q : Nat) (w v : Walk) : Prop where
  members : w.members.map Shape.outline = v.members.map Shape.outline
  top : w.top = v.top
  tracker : w.tracker.Alike p q v.tracker

variable {w v : Walk}

theorem Walk.Alike.placed (alike : w.Alike p q v) (size width : Float32)
    (emits : mode.emits = mode'.emits) {s t : Inline} (texts : s.Alike sign p q t) :
    (w.placed size width mode s).Alike p q (v.placed size width mode' t) := by
  have shape : ((Shape.ofBody ⟨0.0, w.top, width, 0.0⟩ s.body).fitHeight).outline =
      ((Shape.ofBody ⟨0.0, v.top, width, 0.0⟩ t.body).fitHeight).outline := by
    rw [← Shape.fitHeight_outline, ← Shape.fitHeight_outline, Shape.ofBody_outline,
      Shape.ofBody_outline, texts.body.outline, alike.top]
  have bounds := congrArg Shape.bounds shape
  rw [Shape.outline_bounds, Shape.outline_bounds] at bounds
  unfold Walk.placed
  rw [emits, texts.body.isBlank]
  split
  · refine ⟨?_, ?_, texts.tracker⟩
    · rw [List.map_append, List.map_append, alike.members, List.map_singleton,
        List.map_singleton, shape]
    · simp only [bounds]
  · exact { alike with tracker := texts.tracker }

theorem setAlign_sound (size : Float32) (align : Align) :
    ((TextBody.ofSize size).setAlign align).Sound sign := by
  intro x atX
  cases List.mem_singleton.mp atX
  exact nofun

theorem walkPart_alike (alike : w.Alike p q v) {size : Float32} (sized : Size.Sized sign size)
    (width : Float32) (emits : mode.emits = mode'.emits) (nodes : List Node)
    (agree : AgreeOn p q (w.tracker.met (Inline.asksAll titleRules nodes))) :
    EndAlike (Walk.Alike p q) (walkPart w size width mode nodes)
      (walkPart v size width mode' nodes) := by
  have start : (partStart w size).Alike sign p q (partStart v size) :=
    Inline.ofFaces_alike alike.tracker (FaceStack.ofBase_sized sized) (setAlign_sound size .center)
  have written := Inline.visitAll_alike titleRules start emits nodes agree
  rw [walkPart_eq, walkPart_eq]
  exact ⟨written.flow, alike.placed size width emits written.state⟩

/-- A title page on two passes that agree on what decides. -/
theorem walk_alike (alike : w.Alike p q v) {base : Float32} (sized : Size.Sized sign base)
    (width : Float32) (emits : mode.emits = mode'.emits) {parts : List (Option (List Node) × Float32)}
    (positive : ∀ part ∈ parts, Size.sign part.2 = some .positive)
    (agree : AgreeOn p q (w.tracker.met (asksOf parts))) :
    EndAlike (Walk.Alike p q) (walk w base width mode parts) (walk v base width mode' parts) := by
  induction parts generalizing w v with
  | nil => exact ⟨rfl, alike⟩
  | cons part rest ih =>
    obtain ⟨nodes?, factor⟩ := part
    obtain ⟨first, others⟩ := List.forall_mem_cons.mp positive
    cases nodes? with
    | none => exact ih alike others agree
    | some nodes =>
      obtain ⟨here, later⟩ := agree.append (Inline.asksAll titleRules nodes)
      have written := walkPart_alike alike (sized.mul first) width emits nodes here
      have answer := walkPart_answers w (base * factor) width mode nodes
      simp only [walk]
      generalize walkPart w (base * factor) width mode nodes = found at written answer
      generalize walkPart v (base * factor) width mode' nodes = other at written
      obtain ⟨flow, w'⟩ := found
      obtain ⟨flow', v'⟩ := other
      obtain ⟨rfl, state⟩ := written
      cases flow with
      | completed => exact ih state others (later _ answer)
      | paused => exact ⟨rfl, state⟩

theorem parts_positive (page : TitlePage) : ∀ part ∈ page.parts, Size.sign part.2 = some .positive := by
  intro part atPart
  simp only [parts, List.mem_cons, List.not_mem_nil, or_false] at atPart
  rcases atPart with rfl | rfl | rfl
  · exact (rfl : Size.sign 1.44 = some .positive)
  · exact (rfl : Size.sign 1.0 = some .positive)
  · exact (rfl : Size.sign 0.9 = some .positive)

theorem group?_outline (members : List Shape) :
    group? (members.map Shape.outline) = (group? members).map Shape.outline := by
  cases members with
  | nil => rfl
  | cons first rest =>
    simp only [group?, Option.map_some, Shape.outline, Shape.outlineAll_eq, List.map_cons,
      Shape.outline_bounds, List.foldl_cons, List.foldl_map]

end TitlePage

namespace FrameTitle

theorem walkPart_alike {tracker tracker' : Tracker} (trackers : tracker.Alike p q tracker')
    {body body' : TextBody} (bodies : body.Alike sign body') {size : Float32}
    (sized : Size.Sized sign size) (overlay : Overlay) (nodes : List Node)
    (agree : AgreeOn p q (tracker.met (.part overlay :: Inline.asksAll titleRules nodes))) :
    EndAlike (Inline.Alike sign p q) (walkPart tracker body size overlay nodes)
      (walkPart tracker' body' size overlay nodes) := by
  have start : Inline.Alike sign p q (.ofFaces (tracker.observe overlay) (.ofBase size) body)
      (.ofFaces (tracker'.observe overlay) (.ofBase size) body') :=
    ⟨bodies, trackers.observe overlay, rfl, FaceStack.ofBase_sized sized, rfl, rfl, rfl, .nil⟩
  -- a part that is not shown is hidden, never left out
  have emits (shown shown' : Bool) :
      (if shown then Mode.visible else .hidden).emits =
        (if shown' then Mode.visible else .hidden).emits := by
    cases shown <;> cases shown' <;> rfl
  exact Inline.visitAll_alike titleRules start (emits _ _) nodes agree

theorem walk_alike (f : FrameTitle) {tracker tracker' : Tracker} (trackers : tracker.Alike p q tracker')
    {scale : Float32} (positive : Size.sign scale = some .positive)
    (agree : AgreeOn p q (tracker.met f.asks)) :
    EndAlike (Inline.Alike .positive p q) (f.walk scale tracker) (f.walk scale tracker') := by
  have sized (size : Float32) (own : Size.sign size = some .positive) :
      Size.Sized .positive (size * scale) :=
    Size.Sized.mul (fun t eq => Option.some.inj (eq.symm.trans own)) positive
  obtain ⟨here, later⟩ := agree.append (.part f.titleOverlay :: Inline.asksAll titleRules f.title)
  have title := walkPart_alike trackers (.refl (TextBody.ofSize_sound .positive (titleSize * scale)))
    (sized titleSize rfl) f.titleOverlay f.title here
  have answer :=
    walkPart_answers tracker (.ofSize (titleSize * scale)) (titleSize * scale) f.titleOverlay f.title
  unfold walk
  generalize walkPart tracker (.ofSize (titleSize * scale))
    (titleSize * scale) f.titleOverlay f.title = found
    at title answer
  generalize walkPart tracker' (.ofSize (titleSize * scale))
    (titleSize * scale) f.titleOverlay f.title = other
    at title
  obtain ⟨flow, s⟩ := found
  obtain ⟨flow', t⟩ := other
  obtain ⟨rfl, state⟩ := title
  cases flow with
  | paused => exact ⟨rfl, state⟩
  | completed =>
    have below := later _ answer
    cases atSubtitle : f.subtitle with
    | none => exact ⟨rfl, state⟩
    | some nodes =>
      rw [atSubtitle] at below
      exact walkPart_alike state.tracker (state.body.startParagraph rfl 0 _) (sized subtitleSize rfl)
        f.subtitleOverlay nodes below

/-- The frame title on two passes that let the same pauses through. -/
theorem render_alike (f : FrameTitle) (settings : Settings) {state state' : PassState}
    (pauses : state.pauses = state'.pauses)
    (agree : AgreeOn state.pass state'.pass ((Tracker.ofState state).met f.asks)) :
    (f.render settings state).shape.map Shape.outline =
      (f.render settings state').shape.map Shape.outline := by
  have positive : Size.sign settings.scale = some .positive := by
    unfold Settings.scale
    split <;> rfl
  have walked := f.walk_alike (Tracker.ofState_alike pauses) positive agree
  unfold render
  simp only [walked.state.body.isBlank]
  split
  · rfl
  · simp only [Option.map_some, Shape.ofBody_outline, walked.state.body.outline]

end FrameTitle

end Unveil
