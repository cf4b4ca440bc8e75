import Unveil.Proofs.Reveal.Content
import Unveil.Proofs.Slot.Blocks

namespace Unveil

open Float.Model.UnpackedFloat (Sign)

namespace Content.Walk

/-- Contents that differ in what is hidden only. -/
structure Alike (sign : Sign) (p q : Nat) (w v : Walk) : Prop where
  tracker : w.tracker.Alike p q v.tracker
  faces : w.faces = v.faces
  sized : w.faces.Sized sign
  text : Option.Rel (TextBody.Alike sign) w.text v.text
  flow : w.flow.Alike sign v.flow
  deferred : List.Forall₂ Deferred.Alike w.deferred v.deferred
  titlePage : w.titlePage = v.titlePage

variable {sign : Sign} {p q : Nat} {w v : Walk} {mode mode' : Mode}

namespace Alike

theorem push (alike : Alike sign p q w v) {s t : Shape} (same : s.Alike sign t) :
    Alike sign p q (w.push s) (v.push t) := { alike with flow := alike.flow.push same }

theorem closeText (alike : Alike sign p q w v) : Alike sign p q w.closeText v.closeText := by
  have texts := alike.text
  unfold Walk.closeText
  cases atW : w.text with
  | none =>
    cases atV : v.text with
    | none => exact alike
    | some d =>
      rw [atW, atV] at texts
      cases texts
  | some b =>
    cases atV : v.text with
    | none =>
      rw [atW, atV] at texts
      cases texts
    | some d =>
      rw [atW, atV] at texts
      cases texts with
      | some same =>
        have chars : b.chars = d.chars := by
          rw [← b.outline_chars, same.outline, d.outline_chars]
        have closed : Alike sign p q { w with text := none } { v with text := none } :=
          { alike with text := .none }
        simp only [TextBody.plainText_blank, chars]
        split
        · exact closed
        · exact closed.push (.ofBody same .zero)

theorem append (alike : Alike sign p q w v) (text : String) (emits : mode.emits = mode'.emits) :
    Alike sign p q (w.append text mode) (v.append text mode') := by
  have sized : Size.Sized sign v.faces.current.size := alike.faces ▸ alike.sized.current
  have bodies :
      (w.text.getD (.ofSize v.faces.current.size)).Alike sign
        (v.text.getD (.ofSize v.faces.current.size)) := by
    have texts := alike.text
    generalize w.text = b at texts ⊢
    generalize v.text = d at texts ⊢
    cases texts with
    | none => exact .refl (TextBody.ofSize_sound sign _)
    | some same => exact same
  unfold Walk.append
  rw [emits, alike.faces]
  split
  · exact { alike with
      faces := rfl
      text := .some (bodies.append sized text _ _)
      sized := alike.faces ▸ alike.sized }
  · exact alike

theorem breakParagraph (alike : Alike sign p q w v) (emits : mode.emits = mode'.emits) :
    Alike sign p q (w.breakParagraph mode) (v.breakParagraph mode') := by
  have closed := alike.closeText
  unfold Walk.breakParagraph
  rw [emits]
  split
  · exact { closed with flow := closed.flow.flush }
  · exact alike

theorem meetPause (alike : Alike sign p q w v) : EndAlike (Alike sign p q) w.meetPause v.meetPause :=
  have paused := alike.tracker.pause
  ⟨paused.flow, { alike with tracker := paused.state }⟩

theorem gate (alike : Alike sign p q w v) (n : Node) (mode mode' : Mode) :
    Alike sign p q (w.gate n mode).2 (v.gate n mode').2 :=
  { alike with tracker := alike.tracker.gate mode mode' n }

/-- A style shows on both passes or on none. -/
theorem openStyle (alike : Alike sign p q w v) {n : Node}
    (agree : n.overlay.visible p = n.overlay.visible q) :
    Alike sign p q (w.openStyle n) (v.openStyle n) := by
  have shown : n.overlay.visible w.tracker.pass = n.overlay.visible v.tracker.pass := by
    rw [alike.tracker.left, alike.tracker.right, agree]
  refine { alike with
    tracker := alike.tracker.observe n.overlay
    faces := ?_
    sized := alike.sized.enter n _ }
  simp only [Walk.openStyle, Tracker.reveal, shown, alike.faces]

theorem closeStyle (alike : Alike sign p q w v) : Alike sign p q w.closeStyle v.closeStyle :=
  { alike with faces := congrArg FaceStack.leave alike.faces, sized := alike.sized.leave }

theorem placeBlock (alike : Alike sign p q w v) {b d : Block} (blocks : b.Alike sign p q d) :
    EndAlike (Alike sign p q) (w.placeBlock b) (v.placeBlock d) := by
  have deferred := List.rel_append alike.deferred blocks.deferred
  have shapes := blocks.shape
  unfold Walk.placeBlock
  generalize b.shape = s at shapes ⊢
  generalize d.shape = t at shapes ⊢
  cases shapes with
  | none => exact ⟨blocks.flow, { alike with tracker := blocks.tracker, deferred }⟩
  | some same =>
    exact ⟨blocks.flow, { alike with
      tracker := blocks.tracker
      flow := alike.flow.push same
      deferred }⟩

theorem list (alike : Alike sign p q w v) (c : Context) {n : Node} (emits : mode.emits = mode'.emits)
    (agree : AgreeOn p q (w.tracker.met (Inline.asks c.listRules n))) :
    EndAlike (Alike sign p q) (w.list c n mode) (v.list c n mode') := by
  have closed := alike.closeText
  have start : Inline.Alike sign p q w.closeText.listStart v.closeText.listStart := by
    rw [listStart, listStart, closed.faces]
    exact Inline.ofFaces_alike closed.tracker (closed.faces ▸ closed.sized)
      (TextBody.ofSize_sound sign _)
  rw [← closeText_tracker] at agree
  have written := Inline.visit_alike c.listRules start emits n agree
  rw [list_eq, list_eq]
  refine ⟨written.flow, ?_⟩
  have text := written.state
  have placed : Alike sign p q
      { w.closeText with
        tracker := (Inline.visit c.listRules w.closeText.listStart mode n).2.tracker
        deferred := w.closeText.deferred ++
          (Inline.visit c.listRules w.closeText.listStart mode n).2.deferred }
      { v.closeText with
        tracker := (Inline.visit c.listRules v.closeText.listStart mode' n).2.tracker
        deferred := v.closeText.deferred ++
          (Inline.visit c.listRules v.closeText.listStart mode' n).2.deferred } :=
    { closed with tracker := text.tracker, deferred := List.rel_append closed.deferred text.deferred }
  unfold enlisted
  simp only [text.body.isBlank]
  split
  · exact placed
  · exact placed.push (.ofBody text.body .zero)

theorem image (alike : Alike sign p q w v) {c : Context} {n : Node} (emits : mode.emits = mode'.emits)
    (agree : AgreeOn p q (w.tracker.met (Ask.gate n))) {u : Walk} (placed : w.image c n mode = .ok u) :
    ∃ u', v.image c n mode' = .ok u' ∧ Alike sign p q u u' := by
  have gated := alike.closeText.gate n mode mode'
  have inner : (w.closeText.gate n mode).1.emits = (v.closeText.gate n mode').1.emits := by
    rw [← closeText_tracker] at agree
    exact Mode.gate_emits alike.closeText.tracker emits agree
  unfold Walk.image at placed ⊢
  simp only [inner] at placed ⊢
  split at placed
  · rename_i shown
    rw [if_pos shown]
    cases found : c.findImage (String.ofList (Text.trim (n.content?.getD "").toList)) with
    | error error =>
      rw [found] at placed
      cases placed
    | ok path =>
      rw [found] at placed
      cases Except.ok.inj placed
      exact ⟨_, rfl, gated.push (.of_outline rfl rfl rfl)⟩
  · rename_i omitted
    rw [if_neg omitted]
    cases Except.ok.inj placed
    exact ⟨_, rfl, gated⟩

theorem entitled (alike : Alike sign p q w v) {page page' : TitlePage.Walk}
    (pages : page.Alike p q page') :
    Alike sign p q (w.entitled mode page) (v.entitled mode' page') := by
  have groups :
      (TitlePage.group? page.members).map Shape.outline =
        (TitlePage.group? page'.members).map Shape.outline := by
    rw [← TitlePage.group?_outline, pages.members, TitlePage.group?_outline]
  unfold Walk.entitled
  cases atPage : TitlePage.group? page.members with
  | none =>
    cases atPage' : TitlePage.group? page'.members with
    | none => exact { alike with tracker := pages.tracker }
    | some =>
      rw [atPage, atPage'] at groups
      cases groups
  | some s =>
    cases atPage' : TitlePage.group? page'.members with
    | none =>
      rw [atPage, atPage'] at groups
      cases groups
    | some t =>
      rw [atPage, atPage'] at groups
      have same : (s.withHidden mode.isHidden).outline = (t.withHidden mode'.isHidden).outline := by
        rw [Shape.withHidden_outline, Shape.withHidden_outline]
        exact Option.some.inj groups
      exact { alike with tracker := pages.tracker, flow := alike.flow.pushBlock same }

theorem title (alike : Alike sign p q w v) (c : Context) {n : Node} (emits : mode.emits = mode'.emits)
    (agree : AgreeOn p q (w.tracker.met (Ask.gate n ++ w.titlePage.asks))) :
    EndAlike (Alike sign p q) (w.title c n mode) (v.title c n mode') := by
  have closed := alike.closeText
  rw [← closeText_tracker] at agree
  obtain ⟨inner, inside⟩ := Mode.gate_agree closed.tracker emits agree
  have gated := closed.gate n mode mode'
  have start : TitlePage.Walk.Alike p q ⟨[], 0.0, (w.closeText.gate n mode).2.tracker⟩
      ⟨[], 0.0, (v.closeText.gate n mode').2.tracker⟩ := ⟨rfl, rfl, gated.tracker⟩
  have page :=
    TitlePage.walk_alike start alike.sized.base c.area.width inner w.titlePage.parts_positive inside
  rw [title_eq, title_eq, ← alike.titlePage, ← alike.faces]
  exact ⟨page.flow, gated.entitled page.state⟩

end Alike

/-- A walk that comes to an end, and one that ends alike. -/
def EndsAs (sign : Sign) (p q : Nat) (other : Except DeckError (Flow × Walk)) (flow : Flow)
    (u : Walk) : Prop :=
  ∃ u', other = .ok (flow, u') ∧ u.Alike sign p q u'

theorem EndsAs.of_end {found other : Flow × Walk} {flow : Flow} {u : Walk}
    (ends : EndAlike (Alike sign p q) found other)
    (visited : (.ok found : Except DeckError (Flow × Walk)) = .ok (flow, u)) :
    EndsAs sign p q (.ok other) flow u := by
  cases Except.ok.inj visited
  obtain ⟨ended, v⟩ := other
  obtain ⟨rfl, state⟩ := ends
  exact ⟨v, rfl, state⟩

theorem EndsAs.of_completed {u u' v : Walk} {flow : Flow} (alike : u.Alike sign p q u')
    (visited : (.ok (.completed, u) : Except DeckError (Flow × Walk)) = .ok (flow, v)) :
    EndsAs sign p q (.ok (.completed, u')) flow v := by
  have ends : EndAlike (Alike sign p q) (Flow.completed, u) (Flow.completed, u') := ⟨rfl, alike⟩
  exact .of_end ends visited

theorem EndsAs.andThen {found other : Except DeckError (Flow × Walk)} {flow : Flow} {u : Walk}
    (inside : ∀ flow u, found = .ok (flow, u) → EndsAs sign p q other flow u)
    (closed : andThen closeStyle found = .ok (flow, u)) :
    EndsAs sign p q (Walk.andThen closeStyle other) flow u := by
  rcases found with error | ⟨ended, x⟩
  · cases closed
  · obtain ⟨y, rfl, alike⟩ := inside ended x rfl
    cases ended with
    | completed =>
      cases Except.ok.inj closed
      exact ⟨y.closeStyle, rfl, alike.closeStyle⟩
    | paused =>
      cases Except.ok.inj closed
      exact ⟨y, rfl, alike⟩

mutual

/-- The content of a slide on two passes that agree on what decides: alike shapes go into alike flows. -/
theorem visit_alike {c : Context} {w v u : Walk} {mode mode' : Mode} {flow : Flow}
    (alike : w.Alike sign p q v) (emits : mode.emits = mode'.emits) :
    ∀ n : Node, AgreeOn p q (w.tracker.met (asks c.policy w.titlePage n)) →
      visit c w mode n = .ok (flow, u) →
      EndsAs sign p q (visit c v mode' n) flow u
  | ⟨kind, overlay, params, payload, children⟩ => fun agree visited => by
    cases kind with
    | text =>
      simp only [visit] at visited ⊢
      split at visited
      · exact .of_completed (alike.append _ emits) visited
      · exact .of_completed alike visited
    | paragraph => exact .of_completed (alike.breakParagraph emits) visited
    | pause => exact .of_end alike.meetPause visited
    | style command =>
      simp only [visit] at visited ⊢
      have opened := alike.openStyle (agree _ (.head _) rfl)
      refine EndsAs.andThen (fun flow u inside => ?_) visited
      exact visitAll_alike opened emits children (agree.mono (List.subset_cons_self _ _)) inside
    | veil | item =>
      simp only [visit] at visited ⊢
      obtain ⟨inner, inside⟩ := Mode.gate_agree alike.tracker emits agree
      exact visitAll_alike (alike.gate _ mode mode') inner children inside visited
    | list kind =>
      cases kind with
      | description =>
        simp only [visit] at visited ⊢
        have closed := alike.closeText
        rw [← closeText_tracker] at agree
        have block :=
          Node.renderDescription_alike ⟨.list .description, overlay, params, payload, children⟩ c
            closed.tracker closed.sized emits agree
        rw [← closed.faces]
        exact .of_end (closed.placeBlock block) visited
      | bullet | numbered => exact .of_end (alike.list c emits agree) visited
    | tabular =>
      simp only [visit] at visited ⊢
      have closed := alike.closeText
      rw [← closeText_tracker] at agree
      cases rendered : Node.renderTable ⟨.tabular, overlay, params, payload, children⟩ c
        w.closeText.tracker w.closeText.faces mode with
      | error error =>
        rw [rendered] at visited
        cases visited
      | ok block =>
        rw [rendered] at visited
        obtain ⟨other, rendered', same⟩ :=
          Node.renderTable_alike closed.tracker closed.sized emits agree rendered
        rw [← closed.faces, rendered']
        exact .of_end (closed.placeBlock same) visited
    | image =>
      simp only [visit] at visited ⊢
      cases placed : w.image c ⟨.image, overlay, params, payload, children⟩ mode with
      | error error =>
        rw [placed] at visited
        cases visited
      | ok x =>
        rw [placed] at visited
        obtain ⟨y, placed', same⟩ := alike.image emits agree placed
        rw [placed']
        exact .of_completed same visited
    | titlePage => exact .of_end (alike.title c emits agree) visited
    | titleField field =>
      refine .of_completed ?_ visited
      exact { alike with titlePage := by simp only [alike.titlePage] }
    | multiColumn | part | unrecognized =>
      simp only [visit] at visited ⊢
      exact visitAll_alike alike emits children agree visited
    | tableColumn | tableRow | hline | cline | frameTitle | frameSubtitle | heading | graphicsPath | path =>
      exact .of_completed alike visited

theorem visitAll_alike {c : Context} {w v u : Walk} {mode mode' : Mode} {flow : Flow}
    (alike : w.Alike sign p q v) (emits : mode.emits = mode'.emits) :
    ∀ nodes : List Node, AgreeOn p q (w.tracker.met (asksAll c.policy w.titlePage nodes)) →
      visitAll c w mode nodes = .ok (flow, u) → EndsAs sign p q (visitAll c v mode' nodes) flow u
  | [] => fun _ visited => .of_completed alike visited
  | n :: rest => fun agree visited => by
    obtain ⟨here, later⟩ := agree.append _
    rw [visitAll] at visited ⊢
    rcases found : visit c w mode n with error | ⟨ended, x⟩
    · rw [found] at visited
      cases visited
    · rw [found] at visited
      obtain ⟨y, found', state⟩ := visit_alike alike emits n here found
      have answers := visit_answers n found
      rw [found']
      cases ended with
      | paused =>
        cases Except.ok.inj visited
        exact ⟨y, rfl, state⟩
      | completed =>
        have below := later _ answers.answer
        rw [← answers.titlePage rfl] at below
        exact visitAll_alike state emits rest below visited

end

/-- Nodes with modes of their own, which may be hidden on one pass and show on the other. -/
theorem visitEach_alike {c : Context} {w v u : Walk} {flow : Flow} {nodes others : List Deferred}
    (same : List.Forall₂ Deferred.Alike nodes others) (alike : w.Alike sign p q v)
    (agree : AgreeOn p q (w.tracker.met (asksAll c.policy w.titlePage (nodes.map Deferred.node))))
    (visited : visitEach c w nodes = .ok (flow, u)) :
    EndsAs sign p q (visitEach c v others) flow u := by
  induction same generalizing w v with
  | nil => exact .of_completed alike visited
  | @cons d e ds es first rest ih =>
    obtain ⟨here, later⟩ := agree.append _
    rw [visitEach] at visited ⊢
    rcases found : visit c w d.mode d.node with error | ⟨ended, x⟩
    · rw [found] at visited
      cases visited
    · rw [found] at visited
      obtain ⟨y, found', state⟩ := visit_alike alike first.emits d.node here found
      have answers := visit_answers d.node found
      rw [← first.node, found']
      cases ended with
      | paused =>
        cases Except.ok.inj visited
        exact ⟨y, rfl, state⟩
      | completed =>
        have below := later _ answers.answer
        rw [← answers.titlePage rfl] at below
        exact ih state below visited

theorem run_alike {c : Context} {w v u : Walk} {flow : Flow} {nodes others : List Deferred}
    (same : List.Forall₂ Deferred.Alike nodes others) (alike : w.Alike sign p q v)
    (agree : AgreeOn p q (w.tracker.met (asksAll c.policy w.titlePage (nodes.map Deferred.node))))
    (ran : w.run c nodes = .ok (flow, u)) : EndsAs sign p q (v.run c others) flow u := by
  unfold run at ran ⊢
  rcases visited : visitEach c w nodes with error | ⟨ended, x⟩
  · rw [visited] at ran
    cases ran
  · rw [visited] at ran
    cases Except.ok.inj ran
    obtain ⟨y, visited', state⟩ := visitEach_alike same alike agree visited
    have closed := state.closeText
    rw [visited']
    exact ⟨y.close, rfl, { closed with flow := closed.flow.flush }⟩

theorem start_alike (c : Context) {tracker tracker' : Tracker} (trackers : tracker.Alike p q tracker')
    (titlePage : TitlePage) {flow flow' : ShapeFlow} (flows : flow.Alike sign flow')
    (sized : Size.Sized sign c.settings.fontSize) :
    (start c tracker titlePage flow).Alike sign p q (start c tracker' titlePage flow') :=
  ⟨trackers, rfl, FaceStack.ofBase_sized sized, .none, flows, .nil, rfl⟩

end Content.Walk

end Unveil
