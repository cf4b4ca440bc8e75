import Unveil.Proofs.Omitted.Blocks

namespace Unveil

/-- What is asked of a tracker, as nodes without content. -/
def Ask.nodes : List Ask → List Node
  | [] => []
  | .pause :: rest => ⟨.pause, .none, "", none, []⟩ :: nodes rest
  | .node n :: rest => .bound n.overlay :: nodes rest
  | .part overlay :: rest => .bound overlay :: nodes rest
  | .fault :: _ => []

section

variable (rules : InlineRules) (pass : Nat)

mutual

/-- An omitted text puts nothing off. -/
theorem Inline.blocks_marks_omitted (place : List Nat) :
    ∀ n : Node, Mark.blocks (marks rules pass place .omitted n) = []
  | ⟨kind, overlay, params, payload, children⟩ => by
    have below := Inline.blocks_marksAll_omitted place 0 children
    have putOff (n : Node) : Mark.blocks (Mark.putOff place n .omitted) = [] := rfl
    cases kind with
    | list | tabular =>
      simp only [marks, Mode.omitted_max]
      split
      · exact putOff _
      · rw [Mark.blocks_gate_append, below]
    | image | titlePage =>
      simp only [marks]
      split
      · exact putOff _
      · rfl
    | veil | multiColumn | item =>
      simp only [marks, Mode.omitted_max]
      rw [Mark.blocks_gate_append, below]
    | style | part | unrecognized => exact below
    | _ => rfl

theorem Inline.blocks_marksAll_omitted (place : List Nat) (i : Nat) :
    ∀ nodes : List Node, Mark.blocks (marksAll rules pass place i .omitted nodes) = []
  | [] => rfl
  | n :: rest => by
    rw [marksAll, Mark.blocks_append, Inline.blocks_marks_omitted, Inline.blocks_marksAll_omitted]
    rfl

end

theorem TableWalk.blocks_marksAll_omitted (place : List Nat) (i : Nat) (nodes : List Node) :
    Mark.blocks (marksAll rules pass place i .omitted nodes) = [] := by
  induction nodes generalizing i with
  | nil => rfl
  | cons n rest ih =>
    rw [marksAll, Mark.blocks_append, ih]
    split
    · rfl
    · rw [Inline.blocks_marks_omitted]
      rfl

theorem DescriptionWalk.blocks_marksAll_omitted (place : List Nat) (i : Nat) (nodes : List Node) :
    Mark.blocks (marksAll rules pass place i .omitted nodes) = [] := by
  induction nodes generalizing i with
  | nil => rfl
  | cons n rest ih =>
    rw [marksAll, Mark.blocks_append, ih]
    split
    · rw [Mode.omitted_max, Mark.blocks_gate_append, Inline.blocks_marksAll_omitted]
      rfl
    · rfl
    · rfl

end

namespace Node

variable {n : Node} {c : Context} {tracker : Tracker} {faces : FaceStack} {block : Block}

theorem blocks_blockMarks_omitted (policy : NestedPolicy) (pass : Nat) (place : List Nat) (n : Node) :
    Mark.blocks (n.blockMarks policy pass place .omitted) = [] := by
  unfold blockMarks
  split
  · rw [Mode.omitted_max, Mark.blocks_gate_append, DescriptionWalk.blocks_marksAll_omitted]
  · rw [Mode.omitted_max, Mark.blocks_gate_append, Inline.blocks_marksAll_omitted]
  · rw [Mode.omitted_max, Mark.blocks_gate_append, TableWalk.blocks_marksAll_omitted]
  · exact Mark.blocks_gate n
  · rfl

/-- An omitted block puts nothing off. -/
theorem renderBlock_omitted_deferred (rendered : n.renderBlock c tracker faces .omitted = .ok block) :
    block.deferred = [] := by
  obtain ⟨found, followed, put⟩ := renderBlock_leaves rendered []
  have nothing := Tracker.follow_sublist followed
  rw [blocks_blockMarks_omitted, List.sublist_nil] at nothing
  rw [put, nothing]
  rfl

/-- An omitted block is not shown. -/
theorem renderBlock_omitted_shape (rendered : n.renderBlock c tracker faces .omitted = .ok block) :
    block.shape = none := by
  have gated : (Mode.omitted.gate n tracker).1 = .omitted := by rw [Mode.gate_fst, Mode.omitted_max]
  have unseen (g : Grid) (pausedAt : Option RowCursor) : g.toShape? pausedAt .omitted = none := rfl
  unfold renderBlock at rendered
  split at rendered
  · cases Except.ok.inj rendered
    unfold renderDescription
    dsimp only
    rw [gated, unseen]
  · cases Except.ok.inj rendered
    have blank := Inline.visit_omitted_blank c.listRules
      (s := .ofFaces tracker faces (.ofSize faces.current.size)) rfl n
    unfold renderList
    dsimp only
    rw [blank]
    rfl
  · obtain ⟨_, _, _, _, _, _, rfl⟩ := renderTable_ok rendered
    dsimp only
    rw [gated, unseen]
  · unfold renderImage at rendered
    simp only [gated] at rendered
    cases rendered
    rfl
  · cases rendered
    rfl

end Node

namespace TitlePage

theorem walk_omitted_members (w : Walk) (base width : Float32) (parts : List (Option (List Node) × Float32)) :
    (walk w base width .omitted parts).2.members = w.members := by
  induction parts generalizing w with
  | nil => rfl
  | cons part rest ih =>
    obtain ⟨value, factor⟩ := part
    cases value with
    | none => exact ih w
    | some nodes =>
      rw [walk, walkPart_eq]
      generalize Inline.visitAll titleRules (partStart w (base * factor)) .omitted nodes = found
      obtain ⟨ended, t⟩ := found
      cases ended with
      | completed => exact ih _
      | paused => rfl

/-- An omitted title page is not shown. -/
theorem render_omitted (p : TitlePage) (tracker : Tracker) (base width : Float32) :
    (p.render tracker base width .omitted).1 = none := by
  have members := walk_omitted_members ⟨[], 0.0, tracker⟩ base width p.parts
  unfold render
  dsimp only
  rw [members]
  rfl

end TitlePage

namespace Content

open Walk (asks titled titledAll)

/-- An empty list, which ends the text before it. -/
def cut : Node := ⟨.list .bullet, .none, "", none, []⟩

mutual

/-- What a node leaves where it is omitted: pauses and overlays in their scopes, and values of the title page. A list,
a table, an image and a title page leave a cut with what they ask. -/
def husk (policy : NestedPolicy) (p : TitlePage) : Node → List Node
  | n@⟨kind, overlay, params, payload, children⟩ =>
    match kind with
    | .pause | .titleField _ => [n]
    | .style _ => [⟨kind, overlay, params, payload, huskAll policy p children⟩]
    | .veil _ | .item => [.scope overlay (huskAll policy p children)]
    | .list _ | .tabular | .image | .titlePage => cut :: Ask.nodes (asks policy p n)
    | .multiColumn | .part _ | .unrecognized _ => huskAll policy p children
    | .text | .paragraph | .tableColumn | .tableRow | .hline | .cline | .frameTitle | .frameSubtitle | .heading _
    | .graphicsPath | .path => []

def huskAll (policy : NestedPolicy) (p : TitlePage) : List Node → List Node
  | [] => []
  | n :: rest => husk policy p n ++ huskAll policy (titled p n) rest

end

mutual

/-- `true` for content with neither a block nor a value of the title page. -/
def isPlain : Node → Bool
  | ⟨kind, _, _, _, children⟩ =>
    match kind with
    | .list _ | .tabular | .image | .titlePage | .titleField _ => false
    | .style _ | .veil _ | .item | .multiColumn | .part _ | .unrecognized _ => arePlain children
    | .text | .paragraph | .pause | .tableColumn | .tableRow | .hline | .cline | .frameTitle | .frameSubtitle
    | .heading _ | .graphicsPath | .path => true

def arePlain : List Node → Bool
  | [] => true
  | n :: rest => isPlain n && arePlain rest

end

mutual

/-- Plain content leaves nothing but pauses and overlays. -/
theorem husk_bare {policy : NestedPolicy} {p : TitlePage} :
    ∀ n : Node, isPlain n = true → Node.areBare (husk policy p n) = true
  | ⟨kind, overlay, params, payload, children⟩ => fun plain => by
    have below : ∀ plain, Node.areBare (huskAll policy p children) = true := huskAll_bare children
    cases kind with
    | list | tabular | image | titlePage | titleField => cases plain
    | style | veil | item => exact Bool.and_eq_true_iff.mpr ⟨below plain, rfl⟩
    | multiColumn | part | unrecognized => exact below plain
    | _ => rfl

theorem huskAll_bare {policy : NestedPolicy} {p : TitlePage} :
    ∀ nodes : List Node, arePlain nodes = true → Node.areBare (huskAll policy p nodes) = true
  | [], _ => rfl
  | n :: rest, plain => by
    obtain ⟨first, others⟩ := Bool.and_eq_true_iff.mp plain
    rw [huskAll, Node.areBare_append, husk_bare n first, huskAll_bare rest others]
    rfl

end

mutual

/-- Title pages that are the same but for husks are so behind a node. -/
theorem titled_replaced {pass : Nat} {p q : TitlePage} (page : p.Replaced pass q) :
    ∀ n : Node, (titled p n).Replaced pass (titled q n)
  | ⟨kind, overlay, params, payload, children⟩ => by
    cases kind with
    | titleField field =>
      exact page.update (@BlockReplaced.mk pass .asText (.titleField field) overlay params payload _ _ rfl
        (.refl pass titleRules children))
    | style | veil | item | multiColumn | part | unrecognized => exact titledAll_replaced page children
    | _ => exact page

theorem titledAll_replaced {pass : Nat} {p q : TitlePage} (page : p.Replaced pass q) :
    ∀ nodes : List Node, (titledAll p nodes).Replaced pass (titledAll q nodes)
  | [] => page
  | n :: rest => titledAll_replaced (titled_replaced page n) rest

end

namespace Trace

variable {c : Context} {t u : Trace} {mode : Mode} {ended : Flow} {p : TitlePage}

theorem visitAll_singleton (c : Context) (t : Trace) (mode : Mode) (n : Node) :
    visitAll c t mode [n] = visit c t mode n := by
  rw [visitAll]
  rcases visit c t mode n with error | ⟨flow, u⟩
  · rfl
  · cases flow <;> rfl

/-- Goes on after a walk that was not interrupted. -/
def next (later : Trace → Except DeckError (Flow × Trace)) :
    Except DeckError (Flow × Trace) → Except DeckError (Flow × Trace)
  | .ok (.completed, t) => later t
  | interrupted => interrupted

theorem visitAll_cons (c : Context) (t : Trace) (mode : Mode) (n : Node) (rest : List Node) :
    visitAll c t mode (n :: rest) = next (visitAll c · mode rest) (visit c t mode n) := by
  rw [visitAll]
  rfl

theorem visitEach_cons (c : Context) (t : Trace) (d : Deferred) (rest : List Deferred) :
    visitEach c t (d :: rest) = next (visitEach c · rest) (visit c t d.mode d.node) := rfl

theorem visitAll_append (c : Context) (t : Trace) (mode : Mode) (nodes more : List Node) :
    visitAll c t mode (nodes ++ more) = next (visitAll c · mode more) (visitAll c t mode nodes) := by
  induction nodes generalizing t with
  | nil => rfl
  | cons n rest ih =>
    rw [List.cons_append, visitAll_cons, visitAll_cons]
    rcases visit c t mode n with error | ⟨flow, u⟩
    · rfl
    · cases flow with
      | completed => exact ih u
      | paused => rfl

theorem next_ok {found : Except DeckError (Flow × Trace)} {later : Trace → Except DeckError (Flow × Trace)}
    (reached : next later found = .ok (ended, u)) :
    found = .ok (.paused, u) ∧ ended = .paused ∨ ∃ v, found = .ok (.completed, v) ∧ later v = .ok (ended, u) := by
  rcases found with error | ⟨flow, v⟩
  · cases reached
  · cases flow with
    | completed => exact .inr ⟨v, rfl, reached⟩
    | paused =>
      cases reached
      exact .inl ⟨rfl, rfl⟩

/-- The walk behind a gate. -/
def note (t : Trace) (overlay : Overlay) : Trace := { t with tracker := t.tracker.note overlay }

theorem gate_eq (t : Trace) (n : Node) (mode : Mode) :
    t.gate n mode = ((mode.gate n t.tracker).1, t.note n.overlay) := by
  rw [gate, note, Tracker.note, ← Mode.gate_snd mode]

theorem gate_omitted (t : Trace) (n : Node) : t.gate n .omitted = (.omitted, t.note n.overlay) := by
  rw [gate_eq, Mode.gate_fst, Mode.omitted_max]

theorem closeText_tracker (t : Trace) : t.closeText.tracker = t.tracker := by rw [closeText_eq]

theorem visit_cut (c : Context) (t : Trace) (mode : Mode) : visit c t mode cut = .ok (.completed, t.closeText) := by
  have empty : cut.renderBlock c t.tracker t.faces mode = .ok ⟨none, .completed, [], t.tracker⟩ := rfl
  have placed : t.closeText.placeBlock ⟨none, .completed, [], t.tracker⟩ = (.completed, t.closeText) := by
    rw [placeBlock, ← t.closeText_tracker]
    simp only [Option.toList_none, List.map_nil, List.append_nil]
  change (cut.renderBlock c t.tracker t.faces mode).map t.closeText.placeBlock = _
  rw [empty]
  exact congrArg Except.ok placed

/-- The nodes of what is asked do nothing else than ask it. -/
theorem visitAll_nodes (c : Context) (mode : Mode) {asked : List Ask} {v : Tracker}
    (answered : t.tracker.answer asked = some (ended, v)) :
    visitAll c t mode (Ask.nodes asked) = .ok (ended, { t with tracker := v }) := by
  induction asked generalizing t with
  | nil =>
    cases answered
    rfl
  | cons ask rest ih =>
    cases ask with
    | pause =>
      rcases met : t.tracker.pause with ⟨flow, w⟩
      have paused : visit c t mode ⟨.pause, .none, "", none, []⟩ = .ok (flow, { t with tracker := w }) :=
        congrArg Except.ok (show t.meetPause = _ by rw [meetPause, met])
      rw [Tracker.answer, met] at answered
      rw [Ask.nodes, visitAll, paused]
      cases flow with
      | completed => exact @ih { t with tracker := w } answered
      | paused =>
        cases answered
        rfl
    | node n => exact @ih { t with tracker := t.tracker.observe n.overlay } answered
    | part overlay => exact @ih { t with tracker := t.tracker.observe overlay } answered
    | fault => cases answered

/-- What a node asks is answered when it is met. -/
theorem visit_asks {n : Node} (visited : visit c t mode n = .ok (ended, u)) :
    t.tracker.answer (asks c.policy t.titlePage n) = some (ended, u.tracker) := by
  have onto := visit_onto default c t mode n
  rw [visited] at onto
  exact (Walk.visit_answers n onto).answer

/-- An omitted block ends the text and does nothing else that shows. -/
theorem block_omitted {n : Node} (met : t.block c n .omitted = .ok (ended, u)) :
    u = { t.closeText with tracker := u.tracker } := by
  unfold block at met
  rcases rendered : n.renderBlock c t.tracker t.faces .omitted with error | b
  · rw [rendered] at met
    cases met
  · rw [rendered] at met
    obtain ⟨rfl, rfl⟩ := Prod.mk.inj (Except.ok.inj met)
    simp only [Node.renderBlock_omitted_shape rendered, Node.renderBlock_omitted_deferred rendered,
      Option.toList_none, List.map_nil, List.append_nil]

theorem title_omitted (c : Context) (t : Trace) (n : Node) :
    (t.title c n .omitted).2 = { t.closeText with tracker := (t.title c n .omitted).2.tracker } := by
  unfold title
  simp only [gate_omitted, TitlePage.render_omitted, Option.map_none, Option.toList_none, List.map_nil,
    List.append_nil]
  rfl

/-- A cut with what is asked does what an omitted block does. -/
theorem visitAll_cut (asked : List Ask) (answered : t.tracker.answer asked = some (ended, u.tracker))
    (same : u = { t.closeText with tracker := u.tracker }) (mode : Mode) :
    visitAll c t mode (cut :: Ask.nodes asked) = .ok (ended, u) := by
  rw [← t.closeText_tracker] at answered
  rw [visitAll, visit_cut, same]
  exact visitAll_nodes c mode answered

theorem andThen_ok {found other : Except DeckError (Flow × Trace)} (close : Trace → Trace)
    (same : ∀ ended u, found = .ok (ended, u) → other = .ok (ended, u))
    (closed : andThen close found = .ok (ended, u)) : andThen close other = .ok (ended, u) := by
  rcases found with error | ⟨flow, v⟩
  · cases closed
  · rw [same flow v rfl]
    exact closed

mutual

/-- An omitted node does what its husk does in any mode. -/
theorem visitAll_husk {c : Context} {t u : Trace} {ended : Flow} {p : TitlePage}
    (page : p.Replaced t.tracker.pass t.titlePage) (mode : Mode) :
    ∀ n : Node, visit c t .omitted n = .ok (ended, u) → visitAll c t mode (husk c.policy p n) = .ok (ended, u)
  | ⟨kind, overlay, params, payload, children⟩ => fun visited => by
    have inScope (visited : visitAll c (t.note overlay) .omitted children = .ok (ended, u)) :
        visitAll c t mode [.scope overlay (huskAll c.policy p children)] = .ok (ended, u) := by
      have state := t.tracker.note_pass overlay
      rw [visitAll_singleton]
      simp only [Node.scope, visit, gate_eq]
      exact visitAll_huskAll (t := t.note overlay) (state.symm ▸ page) _ children visited
    have asked := visit_asks visited
    cases kind with
    | text =>
      simp only [visit, meet] at visited
      split at visited
      · exact visited
      · exact visited
    | pause | titleField => exact (visitAll_singleton c t mode _).trans visited
    | style command =>
      simp only [husk, visitAll_singleton, visit] at visited ⊢
      exact andThen_ok closeStyle (fun _ _ => visitAll_huskAll (t := t.openStyle _) page mode children) visited
    | veil | item =>
      simp only [visit, gate_omitted] at visited
      exact inScope visited
    | list kind =>
      refine visitAll_cut _ ?_ (block_omitted visited) mode
      cases kind <;> exact asked
    | tabular | image => exact visitAll_cut _ asked (block_omitted visited) mode
    | titlePage =>
      have same := title_omitted c t ⟨.titlePage, overlay, params, payload, children⟩
      rw [Except.ok.inj visited] at same
      refine visitAll_cut _ ?_ same mode
      have behind := page
      rw [← Mode.omitted.gate_pass ⟨.titlePage, overlay, params, payload, children⟩ t.tracker] at behind
      simp only [asks] at asked ⊢
      rw [Tracker.answer_gate_append t.tracker .omitted] at asked ⊢
      rw [← behind.answer]
      exact asked
    | multiColumn | part | unrecognized => exact visitAll_huskAll page mode children visited
    | _ => exact visited

theorem visitAll_huskAll {c : Context} {t u : Trace} {ended : Flow} {p : TitlePage}
    (page : p.Replaced t.tracker.pass t.titlePage) (mode : Mode) :
    ∀ nodes : List Node, visitAll c t .omitted nodes = .ok (ended, u) →
      visitAll c t mode (huskAll c.policy p nodes) = .ok (ended, u)
  | [] => id
  | n :: rest => fun visited => by
    rw [visitAll_cons] at visited
    rw [huskAll, visitAll_append]
    rcases next_ok visited with ⟨paused, rfl⟩ | ⟨v, found, later⟩
    · rw [visitAll_husk page mode n paused]
      rfl
    · have state : v.tracker.pass = t.tracker.pass := congrArg PassState.pass (visit_state found)
      have behind : (titled p n).Replaced v.tracker.pass v.titlePage := by
        rw [state, titled_visit found]
        exact titled_replaced page n
      rw [visitAll_husk page mode n found]
      exact visitAll_huskAll behind mode rest later

end

end Trace

end Content

end Unveil
