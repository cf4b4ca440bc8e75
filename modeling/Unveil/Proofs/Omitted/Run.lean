import Unveil.Proofs.Omitted.Content

namespace Unveil

namespace Content

open Walk (titled)

mutual

/-- Nodes of the content of a slide of which the second is the first with husks instead of content that is omitted
on a pass, where a title page is in force. -/
inductive Replaced (policy : NestedPolicy) (pass : Nat) : TitlePage → Node → Node → Prop
  | omitted {p : TitlePage} {n : Node} (only : n.kind = .veil .only) (unseen : n.overlay.visible pass = false) :
    Replaced policy pass p n (.scope .none (.bound n.overlay :: huskAll policy p n.children))
  | within {p : TitlePage} {kind : NodeKind} {overlay : Overlay} {params : String} {payload : Option Payload}
    {children others : List Node} (holds : kind.holdsContent = true)
    (inside : ReplacedAll policy pass p children others) :
    Replaced policy pass p ⟨kind, overlay, params, payload, children⟩ ⟨kind, overlay, params, payload, others⟩
  | block {p : TitlePage} {n n' : Node} (same : BlockReplaced pass policy n n') : Replaced policy pass p n n'

inductive ReplacedAll (policy : NestedPolicy) (pass : Nat) : TitlePage → List Node → List Node → Prop
  | nil {p : TitlePage} : ReplacedAll policy pass p [] []
  | cons {p : TitlePage} {n n' : Node} {rest rest' : List Node} (first : Replaced policy pass p n n')
    (others : ReplacedAll policy pass (titled p n) rest rest') : ReplacedAll policy pass p (n :: rest) (n' :: rest')

end

/-- The same of nodes that have a mode each. -/
inductive ReplacedEach (policy : NestedPolicy) (pass : Nat) : TitlePage → List Deferred → List Deferred → Prop
  | nil {p : TitlePage} : ReplacedEach policy pass p [] []
  | cons {p : TitlePage} {n n' : Node} {mode : Mode} {rest rest' : List Deferred} (first : Replaced policy pass p n n')
    (others : ReplacedEach policy pass (titled p n) rest rest') :
    ReplacedEach policy pass p (⟨n, mode⟩ :: rest) (⟨n', mode⟩ :: rest')

mutual

theorem Replaced.refl (policy : NestedPolicy) (pass : Nat) (p : TitlePage) : ∀ n : Node, Replaced policy pass p n n
  | ⟨kind, _, _, _, children⟩ => by
    cases holds : kind.holdsContent with
    | true => exact .within holds (ReplacedAll.refl policy pass p children)
    | false => exact .block (.mk holds (.refl pass (policy.rulesIn kind) children))

theorem ReplacedAll.refl (policy : NestedPolicy) (pass : Nat) (p : TitlePage) :
    ∀ nodes : List Node, ReplacedAll policy pass p nodes nodes
  | [] => .nil
  | n :: rest => .cons (Replaced.refl policy pass p n) (ReplacedAll.refl policy pass (titled p n) rest)

end

/-- Blocks that were put off may be walked as content. -/
theorem ReplacedEach.ofDeferred {policy : NestedPolicy} {pass : Nat} {queue other : List Deferred}
    (replaced : List.Forall₂ (Deferred.Replaced pass policy) queue other) (p : TitlePage) :
    ReplacedEach policy pass p queue other := by
  induction replaced generalizing p with
  | nil => exact .nil
  | @cons d d' _ _ first _ ih =>
    obtain ⟨_, mode⟩ := d
    obtain ⟨_, _⟩ := d'
    obtain ⟨rfl, same⟩ : mode = _ ∧ _ := first
    exact .cons (.block same) (ih _)

namespace Trace

/-- The walk with other blocks put off and another title page. -/
def withAside (t : Trace) (deferred : List Deferred) (titlePage : TitlePage) : Trace := { t with deferred, titlePage }

/-- Walks that are the same but for husks in the blocks that they have put off and in the title page. -/
structure Beside (pass : Nat) (policy : NestedPolicy) (t t' : Trace) : Prop where
  same : t' = t.withAside t'.deferred t'.titlePage
  deferred : List.Forall₂ (Deferred.Replaced pass policy) t.deferred t'.deferred
  titlePage : t.titlePage.Replaced pass t'.titlePage

/-- A walk that does not fail ends as another one does. -/
def EndBeside (pass : Nat) (policy : NestedPolicy) (found other : Except DeckError (Flow × Trace)) : Prop :=
  ∀ ended u, found = .ok (ended, u) → ∃ u', other = .ok (ended, u') ∧ Beside pass policy u u'

variable {pass : Nat} {policy : NestedPolicy} {c : Context} {t t' : Trace}

/-- A step that looks neither at what was put off nor at the title page. -/
theorem Beside.step (step : Trace → Trace)
    (commutes : ∀ deferred page, step (t.withAside deferred page) = (step t).withAside deferred page)
    (deferred : (step t).deferred = t.deferred) (titlePage : (step t).titlePage = t.titlePage)
    (beside : Beside pass policy t t') : Beside pass policy (step t) (step t') := by
  have moved := commutes t'.deferred t'.titlePage
  rw [← beside.same] at moved
  refine ⟨?_, ?_, ?_⟩
  · rw [moved]
    rfl
  · rw [moved, deferred]
    exact beside.deferred
  · rw [moved, titlePage]
    exact beside.titlePage

theorem Beside.tracker (beside : Beside pass policy t t') : t'.tracker = t.tracker := by
  rw [beside.same]
  rfl

theorem Beside.note (beside : Beside pass policy t t') (overlay : Overlay) :
    Beside pass policy (t.note overlay) (t'.note overlay) :=
  beside.step (Trace.note · overlay) (fun _ _ => rfl) rfl rfl

theorem closeText_withAside (t : Trace) (deferred : List Deferred) (titlePage : TitlePage) :
    (t.withAside deferred titlePage).closeText = t.closeText.withAside deferred titlePage := by
  obtain ⟨_, _, text, _, _, _⟩ := t
  unfold closeText
  cases text with
  | none => rfl
  | some body =>
    dsimp only [withAside]
    split <;> rfl

theorem closeText_deferred (t : Trace) : t.closeText.deferred = t.deferred := by rw [closeText_eq]

theorem closeText_titlePage (t : Trace) : t.closeText.titlePage = t.titlePage := by rw [closeText_eq]

theorem Beside.closeText (beside : Beside pass policy t t') : Beside pass policy t.closeText t'.closeText :=
  beside.step Trace.closeText t.closeText_withAside t.closeText_deferred t.closeText_titlePage

theorem Beside.append (beside : Beside pass policy t t') (text : String) (mode : Mode) :
    Beside pass policy (t.append text mode) (t'.append text mode) := by
  refine beside.step (Trace.append · text mode) (fun _ _ => ?_) ?_ ?_
  all_goals
    unfold Trace.append
    split <;> rfl

theorem Beside.breakParagraph (beside : Beside pass policy t t') (mode : Mode) :
    Beside pass policy (t.breakParagraph mode) (t'.breakParagraph mode) := by
  unfold Trace.breakParagraph
  split
  · exact beside.closeText.step (·.call .flush) (fun _ _ => rfl) rfl rfl
  · exact beside

theorem Beside.placeBlock (beside : Beside pass policy t t') {b b' : Block} (same : b.Beside pass policy b') :
    (t'.placeBlock b').1 = (t.placeBlock b).1 ∧ Beside pass policy (t.placeBlock b).2 (t'.placeBlock b').2 := by
  refine ⟨same.flow, ?_, List.rel_append beside.deferred same.deferred, beside.titlePage⟩
  unfold Trace.placeBlock
  rw [same.shape, same.tracker, beside.same]
  rfl

theorem EndBeside.closeStyle {found other : Except DeckError (Flow × Trace)}
    (ends : EndBeside pass policy found other) :
    EndBeside pass policy (andThen closeStyle found) (andThen closeStyle other) := by
  intro ended u closed
  rcases found with error | ⟨flow, v⟩
  · cases closed
  · obtain ⟨v', rfl, beside⟩ := ends flow v rfl
    cases flow with
    | completed =>
      obtain ⟨rfl, rfl⟩ := Prod.mk.inj (Except.ok.inj closed)
      exact ⟨_, rfl, beside.step Trace.closeStyle (fun _ _ => rfl) rfl rfl⟩
    | paused =>
      obtain ⟨rfl, rfl⟩ := Prod.mk.inj (Except.ok.inj closed)
      exact ⟨_, rfl, beside⟩

theorem EndBeside.next {found other : Except DeckError (Flow × Trace)}
    {later later' : Trace → Except DeckError (Flow × Trace)} (ends : EndBeside pass policy found other)
    (rest : ∀ v v', found = .ok (.completed, v) → Beside pass policy v v' →
      EndBeside pass policy (later v) (later' v')) :
    EndBeside pass policy (next later found) (next later' other) := by
  intro ended u reached
  rcases next_ok reached with ⟨paused, rfl⟩ | ⟨v, completed, behind⟩
  · obtain ⟨u', rfl, beside⟩ := ends _ _ paused
    exact ⟨u', rfl, beside⟩
  · obtain ⟨v', rfl, beside⟩ := ends _ _ completed
    exact rest v v' completed beside ended u behind

/-- A step that does not fail. -/
theorem EndBeside.ofStep {found other : Flow × Trace} (flow : other.1 = found.1)
    (beside : Beside pass policy found.2 other.2) : EndBeside pass policy (.ok found) (.ok other) := by
  intro ended u reached
  obtain rfl := Except.ok.inj reached
  exact ⟨other.2, congrArg Except.ok (Prod.ext flow rfl), beside⟩

/-- Husks in place of omitted content are walked as this content is. -/
theorem visit_husks (c : Context) (t : Trace) (mode : Mode) {overlay : Overlay}
    (restricted : overlay.isUnrestricted = false) (nodes : List Node) :
    visit c t mode (.scope .none (.bound overlay :: nodes)) = visitAll c (t.note overlay) mode nodes := by
  have noted : t.note overlay = { t with tracker := t.tracker.observe overlay } := by
    rw [note, Tracker.note, restricted]
    rfl
  rw [noted]
  rfl

theorem block_replaced (beside : Beside t.tracker.pass c.policy t t') {n n' : Node}
    (same : BlockReplaced t.tracker.pass c.policy n n') (mode : Mode) :
    EndBeside t.tracker.pass c.policy (t.block c n mode) (t'.block c n' mode) := by
  intro ended u met
  have faces : t'.faces = t.faces := by
    rw [beside.same]
    rfl
  unfold block at met ⊢
  rcases rendered : n.renderBlock c t.tracker t.faces mode with error | b
  · rw [rendered] at met
    cases met
  · rw [rendered] at met
    obtain ⟨b', rendered', blocks⟩ := Node.renderBlock_replaced same rendered
    obtain ⟨flow, placed⟩ := beside.closeText.placeBlock blocks
    rw [beside.tracker, faces, rendered']
    exact EndBeside.ofStep flow placed ended u met

theorem title_replaced (beside : Beside t.tracker.pass c.policy t t') (n : Node) (others : List Node) (mode : Mode) :
    EndBeside t.tracker.pass c.policy (.ok (t.title c n mode))
      (.ok (t'.title c { n with children := others } mode)) := by
  obtain ⟨closed, deferred, page⟩ := beside.closeText
  generalize t'.closeText.deferred = queue at closed deferred
  generalize t'.closeText.titlePage = p at closed page
  have state : (mode.gate n t.closeText.tracker).2.pass = t.tracker.pass := by
    rw [Mode.gate_pass, closeText_tracker]
  have rendered := (state.symm ▸ page).render t.closeText.faces.base c.area.width (mode.gate n t.closeText.tracker).1
  have same : t'.title c { n with children := others } mode =
      ((t.title c n mode).1, (t.title c n mode).2.withAside queue p) := by
    have gated : mode.gate { n with children := others } t.closeText.tracker = mode.gate n t.closeText.tracker := rfl
    unfold title
    rw [closed]
    simp only [gate, withAside, gated, rendered]
  rw [same]
  exact .ofStep rfl ⟨rfl, deferred, page⟩

/-- A node that is no scope of content is met in the same way. -/
theorem meet_replaced (beside : Beside t.tracker.pass c.policy t t') {n n' : Node}
    (same : BlockReplaced t.tracker.pass c.policy n n') (mode : Mode) :
    EndBeside t.tracker.pass c.policy (t.meet c n mode) (t'.meet c n' mode) := by
  have step {v v' : Trace} (still : Beside t.tracker.pass c.policy v v') :
      EndBeside t.tracker.pass c.policy (.ok (.completed, v)) (.ok (.completed, v')) := .ofStep rfl still
  have block := block_replaced beside same mode
  have value := same
  obtain ⟨_, inside⟩ := same
  rename_i kind overlay params payload children others _
  cases kind with
  | text =>
    have content : Node.content? ⟨.text, overlay, params, payload, others⟩ =
      Node.content? ⟨.text, overlay, params, payload, children⟩ := rfl
    simp only [meet, content]
    split
    · exact step (beside.append _ mode)
    · exact step beside
  | paragraph => exact step (beside.breakParagraph mode)
  | pause =>
    refine .ofStep ?_ (beside.step (fun v => v.meetPause.2) (fun _ _ => rfl) rfl rfl)
    rw [meetPause, meetPause, beside.tracker]
  | list | tabular | image => exact block
  | titlePage => exact title_replaced beside ⟨.titlePage, overlay, params, payload, children⟩ others mode
  | titleField => exact step ⟨by rw [beside.same]; rfl, beside.deferred, beside.titlePage.update value⟩
  | _ => exact step beside

mutual

/-- A node with husks is walked in the same way. -/
theorem visit_replaced {c : Context} {t t' : Trace} (beside : Beside t.tracker.pass c.policy t t') (mode : Mode) :
    ∀ {n n' : Node}, Replaced c.policy t.tracker.pass t.titlePage n n' →
      EndBeside t.tracker.pass c.policy (visit c t mode n) (visit c t' mode n')
  | ⟨kind, overlay, params, payload, children⟩, _, replaced => by
    have state := t.tracker.note_pass overlay
    have noted : Beside (t.note overlay).tracker.pass c.policy (t.note overlay) (t'.note overlay) :=
      state.symm ▸ beside.note overlay
    have gated (mode : Mode) {others : List Node}
        (inside : ReplacedAll c.policy t.tracker.pass t.titlePage children others) :
        EndBeside t.tracker.pass c.policy (visitAll c (t.note overlay) mode children)
          (visitAll c (t'.note overlay) mode others) := by
      have walked := @visitAll_replaced c _ _ noted mode children others (state.symm ▸ inside)
      exact state ▸ walked
    cases replaced with
    | omitted only unseen =>
      -- both walk the children omitted, the one as they are and the other as husks
      obtain ⟨_, rfl⟩ : ∃ veil, kind = .veil veil := ⟨_, only⟩
      intro ended u visited
      rw [visit, gate_eq, Mode.gate_unseen only unseen] at visited
      obtain ⟨u', walked, after⟩ := gated .omitted (.refl ..) ended u visited
      have page := noted.titlePage
      rw [← noted.tracker] at page
      refine ⟨u', ?_, after⟩
      rw [visit_husks c t' mode (Overlay.restricted_of_unseen unseen)]
      exact visitAll_huskAll page mode children walked
    | within holds inside =>
      rename_i others
      have gate : (mode.gate ⟨kind, overlay, params, payload, others⟩ t'.tracker).1 =
          (mode.gate ⟨kind, overlay, params, payload, children⟩ t.tracker).1 := by
        rw [beside.tracker]
        rfl
      cases kind with
      | style command =>
        have opened := beside.step (·.openStyle ⟨.style command, overlay, params, payload, children⟩) (fun _ _ => rfl)
          rfl rfl
        exact (@visitAll_replaced c (t.openStyle _) _ opened mode children others inside).closeStyle
      | veil | item =>
        simp only [visit, gate_eq, gate]
        exact gated _ inside
      | multiColumn | part | unrecognized => exact visitAll_replaced beside mode inside
      | _ => cases holds
    | block same =>
      have met := meet_replaced beside same mode
      obtain ⟨block, _⟩ := same
      cases kind with
      | style | veil | item | multiColumn | part | unrecognized => cases block
      | _ => exact met

theorem visitAll_replaced {c : Context} {t t' : Trace} (beside : Beside t.tracker.pass c.policy t t') (mode : Mode) :
    ∀ {nodes others : List Node}, ReplacedAll c.policy t.tracker.pass t.titlePage nodes others →
      EndBeside t.tracker.pass c.policy (visitAll c t mode nodes) (visitAll c t' mode others)
  | [], _, replaced => by
    cases replaced
    exact .ofStep rfl beside
  | n :: rest, _, replaced => by
    cases replaced with
    | cons first others =>
      rw [visitAll_cons, visitAll_cons]
      refine (visit_replaced beside mode first).next fun v v' found still => ?_
      have state : v.tracker.pass = t.tracker.pass := congrArg PassState.pass (visit_state found)
      rw [← state] at still others ⊢
      rw [← titled_visit found] at others
      exact visitAll_replaced still mode others

end

theorem visitEach_replaced (beside : Beside t.tracker.pass c.policy t t') {nodes others : List Deferred}
    (replaced : ReplacedEach c.policy t.tracker.pass t.titlePage nodes others) :
    EndBeside t.tracker.pass c.policy (visitEach c t nodes) (visitEach c t' others) := by
  induction nodes generalizing t t' others with
  | nil =>
    cases replaced
    exact .ofStep rfl beside
  | cons d rest ih =>
    cases replaced with
    | @cons _ n n' mode _ _ first others =>
      rw [visitEach_cons, visitEach_cons]
      refine (visit_replaced beside mode first).next fun v v' found still => ?_
      have state : v.tracker.pass = t.tracker.pass := congrArg PassState.pass (visit_state found)
      rw [← state] at still others ⊢
      rw [← titled_visit found] at others
      exact ih still others

end Trace

namespace Walk

variable {c : Context} {tracker : Tracker} {titlePage : TitlePage} {flow : ShapeFlow}

/-- Content that is omitted on a pass may be replaced by its husk, wherever it stands: each shape has the place that
it had, and the same pauses and overlays are met. What is put off is replaced in the same way. The husk of plain content
is pauses and overlays only (`huskAll_bare`). -/
theorem run_replaced {nodes others : List Deferred} {ended : Flow} {w : Walk}
    (replaced : ReplacedEach c.policy tracker.pass titlePage nodes others)
    (ran : (start c tracker titlePage flow).run c nodes = .ok (ended, w)) :
    ∃ v, (start c tracker titlePage flow).run c others = .ok (ended, v) ∧ v.flow = w.flow ∧ v.tracker = w.tracker ∧
      ∀ p, ReplacedEach c.policy tracker.pass p w.deferred v.deferred := by
  have begun : Trace.Beside tracker.pass c.policy (.start c tracker titlePage) (.start c tracker titlePage) :=
    ⟨rfl, .nil, .refl _ _⟩
  obtain ⟨t, visited, rfl⟩ := Trace.run_ok ran
  obtain ⟨u, visited', beside⟩ := Trace.visitEach_replaced begun replaced ended t visited
  have walked : (start c tracker titlePage flow).visitEach c others = .ok (ended, u.onto flow) :=
    (Trace.visitEach_onto flow c (.start c tracker titlePage) others).trans (by rw [visited']; rfl)
  have closed := beside.closeText
  have same : (u.onto flow).closeText.flow = (t.onto flow).closeText.flow := by
    rw [Trace.closeText_onto, Trace.closeText_onto, closed.same]
    rfl
  refine ⟨(u.onto flow).close, by rw [run, walked]; rfl, congrArg ShapeFlow.flush same, ?_, fun p => ?_⟩
  · simp only [close, closeText_tracker]
    exact beside.tracker
  · simp only [close, closeText_deferred]
    exact .ofDeferred beside.deferred p

/-- What a slide without images is rendered with. -/
def withoutImages : Context := ⟨.standard, fun name => .error (.imageNotFound name []), .zero⟩

/-- Text around content for the second pass. -/
def aroundOmitted (nodes : List Node) : List Deferred :=
  [⟨.ofText "before ", .visible⟩, ⟨⟨.veil .only, .ofSpec "2", "", none, nodes⟩, .visible⟩, ⟨.ofText "after", .visible⟩]

/-- Text around what is left of content for the second pass. -/
def aroundHusk (nodes : List Node) : List Deferred :=
  [⟨.ofText "before ", .visible⟩, ⟨.scope .none (.bound (.ofSpec "2") :: nodes), .visible⟩, ⟨.ofText "after", .visible⟩]

def pausedText : List Node :=
  [.ofText "x", ⟨.pause, .none, "", none, []⟩, ⟨.veil .uncover, .ofSpec "4", "", none, [.ofText "y"]⟩]

/-- Text before and after omitted text forms one shape. -/
theorem run_replaced_pausedText :
    ∃ w v : Walk,
      (start withoutImages (.ofState ⟨3, 1⟩) .empty default).run withoutImages
        (aroundOmitted pausedText) = .ok (.completed, w) ∧
      (start withoutImages (.ofState ⟨3, 1⟩) .empty default).run withoutImages
        (aroundHusk [⟨.pause, .none, "", none, []⟩, .scope (.ofSpec "4") []]) = .ok (.completed, v) ∧
      v.flow = w.flow ∧ v.tracker.maxPass = 4 ∧ w.flow.shapes.map Shape.chars = ["before after".toList] := by
  have replaced : ReplacedEach withoutImages.policy 3 .empty (aroundOmitted pausedText)
      (aroundHusk [⟨.pause, .none, "", none, []⟩, .scope (.ofSpec "4") []]) :=
    .cons (.refl ..) (.cons (.omitted rfl (by decide)) (.cons (.refl ..) .nil))
  obtain ⟨v, ran, flow, tracker, _⟩ := @run_replaced withoutImages (.ofState ⟨3, 1⟩) .empty default _ _ _ _ replaced rfl
  exact ⟨_, v, rfl, ran, flow, by rw [tracker]; rfl, rfl⟩

/-- An omitted image cuts the text around it, which is one shape without the image. -/
theorem run_replaced_cutsText :
    ∃ w v : Walk,
      (start withoutImages (.ofState .first) .empty default).run withoutImages
        (aroundOmitted [⟨.image, .none, "", some (.text "logo"), []⟩]) = .ok (.completed, w) ∧
      (start withoutImages (.ofState .first) .empty default).run withoutImages (aroundHusk []) = .ok (.completed, v) ∧
      w.flow.shapes.map Shape.chars = ["before ".toList, "after".toList] ∧
      v.flow.shapes.map Shape.chars = ["before after".toList] :=
  ⟨_, _, rfl, rfl, rfl, rfl⟩

end Walk

end Content

end Unveil
