import Unveil.Proofs.Nested.Blocks

namespace Unveil

open Surroundings (Fit)
open Nested

namespace Content.Trace

/-- The walk as it goes over a tree without the pauses. -/
def unpaused (t : Trace) : Trace := { t with deferred := t.deferred.map Deferred.unpaused }

section
variable (t : Trace) (q : Surroundings) (n : Node) (mode : Mode)

theorem closeText_unpaused : t.unpaused.closeText = t.closeText.unpaused := by
  unfold closeText
  cases text : t.text with
  | none =>
    rw [show t.unpaused.text = none from text]
  | some body =>
    rw [show t.unpaused.text = some body from text]
    dsimp only
    split <;> rfl

theorem append_unpaused (text : String) : t.unpaused.append text mode = (t.append text mode).unpaused := by
  unfold append
  split <;> rfl

theorem breakParagraph_unpaused : t.unpaused.breakParagraph mode = (t.breakParagraph mode).unpaused := by
  unfold breakParagraph
  rw [closeText_unpaused]
  split <;> rfl

theorem gate_unpaused : t.unpaused.gate (n.unpaused q) mode = ((t.gate n mode).1, (t.gate n mode).2.unpaused) := by
  unfold gate
  rw [Mode.gate_unpaused]
  rfl

theorem openStyle_unpaused : t.unpaused.openStyle (n.unpaused q) = (t.openStyle n).unpaused := by
  unfold openStyle
  rw [Node.unpaused_overlay, FaceStack.enter_unpaused]
  rfl

theorem placeBlock_unpaused (b : Block) :
    t.unpaused.placeBlock b.unpaused = Prod.map id unpaused (t.placeBlock b) := by
  have queue : (t.deferred ++ b.deferred).map Deferred.unpaused =
      t.unpaused.deferred ++ b.unpaused.deferred := List.map_append
  unfold placeBlock
  rw [← queue]
  rfl

theorem title_unpaused (c : Context) :
    t.unpaused.title c (n.unpaused q) mode = Prod.map id unpaused (t.title c n mode) := by
  unfold title
  rw [closeText_unpaused, gate_unpaused]
  rfl

/-- A block is met in the same way without the pauses. -/
theorem block_unpaused {q : Surroundings} {c : Context} (fit : Fit (.content c.policy) q t.tracker) :
    t.unpaused.block c (n.unpaused q) mode = (t.block c n mode).map (Prod.map id unpaused) := by
  have rendered := @Node.renderBlock_unpaused q n c t.tracker fit t.faces mode
  unfold block
  rw [closeText_unpaused, show t.unpaused.tracker = t.tracker from rfl, show t.unpaused.faces = t.faces from rfl,
    rendered]
  cases n.renderBlock c t.tracker t.faces mode with
  | error error => rfl
  | ok b => exact congrArg Except.ok (placeBlock_unpaused t.closeText b)

end

theorem andThen_unpaused (found : Except DeckError (Flow × Trace)) :
    andThen closeStyle (found.map (Prod.map id unpaused)) = (andThen closeStyle found).map (Prod.map id unpaused) := by
  rcases found with error | ⟨ended, t⟩
  · rfl
  · cases ended <;> rfl

/-- A node that is met without its children has the same effect whatever these are. -/
theorem visit_leaf {c : Context} {t : Trace} {mode : Mode} {n : Node}
    (leaf : Surroundings.inside (.content c.policy) n.kind ≠ some (.content c.policy)) :
    visit c t mode n = t.meet c n mode := by
  obtain ⟨kind, overlay, params, payload, children⟩ := n
  cases kind with
  | style | veil | item | multiColumn | part | unrecognized => exact absurd rfl leaf
  | _ => rfl

theorem inside_block {policy : NestedPolicy} {kind : NodeKind} (isBlock : kind.isBlock) :
    Surroundings.inside (.content policy) kind ≠ some (.content policy) := by
  intro walked
  cases kind with
  | list kind =>
    cases kind with
    | bullet | numbered | description => cases walked
  | tabular | image | titlePage => cases walked
  | _ => cases isBlock

/-- A block that was put off is met in the same way without the pauses in it. -/
theorem meet_unpaused {q : Surroundings} {c : Context} {t : Trace} {n : Node} (mode : Mode)
    (fit : Fit (.content c.policy) q t.tracker) (own : q = .content c.policy ∨ n.kind.isBlock) :
    t.unpaused.meet c (n.unpaused q) mode = (t.meet c n mode).map (Prod.map id unpaused) := by
  have block := t.block_unpaused n mode fit
  unfold meet
  rw [Node.unpaused_kind, Node.unpaused_content?]
  cases kind : n.kind with
  | text =>
    cases n.content? with
    | none => rfl
    | some text => exact congrArg (fun u => Except.ok (Flow.completed, u)) (t.append_unpaused mode text)
  | paragraph => exact congrArg (fun u => Except.ok (Flow.completed, u)) (t.breakParagraph_unpaused mode)
  | list | tabular | image => exact block
  | titlePage => exact congrArg Except.ok (t.title_unpaused _ n mode c)
  | titleField =>
    -- the title page keeps what stands in the node
    have content : q = .content c.policy := own.resolve_right (by simp [kind, NodeKind.isBlock])
    have same : n.unpaused q = n := by
      refine Node.unpaused_eq_self ?_
      rw [content, kind]
      rfl
    rw [same]
    rfl
  | _ => rfl

mutual

/-- A node of the slide is walked in the same way without the pauses in blocks that are put off. -/
theorem visit_unpaused (c : Context) (t : Trace) (mode : Mode) :
    ∀ n : Node, visit c t.unpaused mode (n.unpaused (.content c.policy)) =
      (visit c t mode n).map (Prod.map id unpaused)
  | ⟨kind, overlay, params, payload, children⟩ => by
    by_cases walked : Surroundings.inside (.content c.policy) kind = some (.content c.policy)
    · have same := Node.unpaused_mk walked overlay params payload children
      have gated := t.gate_unpaused (.content c.policy) ⟨kind, overlay, params, payload, children⟩ mode
      have opened := t.openStyle_unpaused (.content c.policy) ⟨kind, overlay, params, payload, children⟩
      rw [same] at gated opened
      rw [same]
      cases kind with
      | style command =>
        simp only [visit]
        rw [opened, visitAll_unpaused c _ mode children, andThen_unpaused]
      | veil | item =>
        simp only [visit]
        rw [gated]
        exact visitAll_unpaused c _ _ children
      | multiColumn | part | unrecognized => exact visitAll_unpaused c t mode children
      | list kind =>
        cases kind with
        | bullet | numbered | description => cases walked
      | _ => cases walked
    · have walked' : Surroundings.inside (.content c.policy)
          (Node.unpaused (.content c.policy) ⟨kind, overlay, params, payload, children⟩).kind ≠
            some (.content c.policy) := by
        rw [Node.unpaused_kind]
        exact walked
      rw [visit_leaf walked', meet_unpaused mode (.inl rfl) (.inl rfl), visit_leaf walked]

theorem visitAll_unpaused (c : Context) (t : Trace) (mode : Mode) :
    ∀ nodes : List Node, visitAll c t.unpaused mode (Node.unpausedAll (.content c.policy) nodes) =
      (visitAll c t mode nodes).map (Prod.map id unpaused)
  | [] => rfl
  | n :: rest => by
    rw [Node.unpausedAll_content, visitAll, visitAll, visit_unpaused c t mode n]
    rcases visit c t mode n with error | ⟨ended, u⟩
    · rfl
    · cases ended with
      | completed => exact visitAll_unpaused c u mode rest
      | paused => rfl

end

/-- Blocks that were put off are walked in the same way without the pauses in them. -/
theorem visitEach_unpaused {c : Context} {t : Trace} {blocks : List Deferred}
    (isBlock : ∀ d ∈ blocks, d.node.kind.isBlock) (ignores : t.tracker.ignoring = true) :
    visitEach c t.unpaused (blocks.map Deferred.unpaused) = (visitEach c t blocks).map (Prod.map id unpaused) := by
  induction blocks generalizing t with
  | nil => rfl
  | cons d rest ih =>
    obtain ⟨here, later⟩ := List.forall_mem_cons.mp isBlock
    have visited : visit c t.unpaused d.mode (d.node.unpaused .putOff) =
        (visit c t d.mode d.node).map (Prod.map id unpaused) := by
      have here' : (d.node.unpaused .putOff).kind.isBlock := by
        rw [Node.unpaused_kind]
        exact here
      rw [visit_leaf (inside_block here'), visit_leaf (inside_block here)]
      exact meet_unpaused d.mode (.inr ⟨rfl, ignores⟩) (.inr here)
    rw [List.map_cons, visitEach, visitEach, show d.unpaused.mode = d.mode from rfl,
      show d.unpaused.node = d.node.unpaused .putOff from rfl, visited]
    rcases found : visit c t d.mode d.node with error | ⟨ended, u⟩
    · rfl
    · cases ended with
      | completed => exact ih later ((visit_leaves [] d.node found).ignoring ignores).2.1
      | paused => rfl

end Content.Trace

namespace Content.Walk

/-- The walk as it goes over a tree without the pauses. -/
def unpaused (w : Walk) : Walk := { w with deferred := w.deferred.map Deferred.unpaused }

theorem settle_unpaused (flow : ShapeFlow) (found : Except DeckError (Flow × Trace)) :
    Trace.settle flow (found.map (Prod.map id Trace.unpaused)) =
      (Trace.settle flow found).map (Prod.map id unpaused) := by
  cases found <;> rfl

/-- The trace of a walk that has made no calls yet. -/
def fresh (w : Walk) : Trace := ⟨w.tracker, w.faces, w.text, [], w.deferred, w.titlePage⟩

theorem close_unpaused (w : Walk) : w.unpaused.close = w.close.unpaused := by
  have whole := Trace.closeText_onto w.flow w.fresh
  have thinned := Trace.closeText_onto w.flow w.fresh.unpaused
  rw [Trace.closeText_unpaused] at thinned
  have text : w.unpaused.closeText = w.closeText.unpaused := thinned.trans (congrArg unpaused whole.symm)
  rw [close, text]
  rfl

/-- What is left open after a walk is closed in the same way. -/
theorem run_unpaused {c : Context} {w : Walk} {nodes others : List Deferred}
    (visited : visitEach c w.unpaused others = (visitEach c w nodes).map (Prod.map id unpaused)) :
    w.unpaused.run c others = (w.run c nodes).map (Prod.map id unpaused) := by
  rw [run, visited, run]
  rcases visitEach c w nodes with error | ⟨ended, u⟩
  · rfl
  · exact congrArg (fun v => Except.ok (ended, v)) u.close_unpaused

theorem runAll_unpaused (c : Context) (w : Walk) (nodes : List Node) :
    w.unpaused.run c ((Node.unpausedAll (.content c.policy) nodes).map fun n => ⟨n, .visible⟩) =
      (w.run c (nodes.map fun n => ⟨n, .visible⟩)).map (Prod.map id unpaused) := by
  refine run_unpaused ?_
  have traced := Trace.visitAll_unpaused c w.fresh .visible nodes
  have whole := Trace.visitAll_onto w.flow c w.fresh .visible nodes
  have thinned := Trace.visitAll_onto w.flow c w.fresh.unpaused .visible (Node.unpausedAll (.content c.policy) nodes)
  rw [traced, settle_unpaused, ← whole] at thinned
  rw [visitEach_visible, visitEach_visible]
  exact thinned

theorem runEach_unpaused {c : Context} {w : Walk} {blocks : List Deferred}
    (isBlock : ∀ d ∈ blocks, d.node.kind.isBlock) (ignores : w.tracker.ignoring = true) :
    w.unpaused.run c (blocks.map Deferred.unpaused) = (w.run c blocks).map (Prod.map id unpaused) := by
  refine run_unpaused ?_
  have traced := @Trace.visitEach_unpaused c w.fresh blocks isBlock ignores
  have whole := Trace.visitEach_onto w.flow c w.fresh blocks
  have thinned := Trace.visitEach_onto w.flow c w.fresh.unpaused (blocks.map Deferred.unpaused)
  rw [traced, settle_unpaused, ← whole] at thinned
  exact thinned

end Content.Walk

/-- A child of a kind whose children are not walked is found as it is. -/
theorem Node.firstChild?_unpaused {policy : NestedPolicy} {kind : NodeKind}
    (leaf : Surroundings.inside (.content policy) kind = none) (n : Node) :
    (n.unpaused (.deck policy)).firstChild? kind = n.firstChild? kind := by
  rw [firstChild?, unpaused_children rfl, firstChild?]
  induction n.children with
  | nil => rfl
  | cons child rest ih =>
    rw [unpausedAll_content]
    by_cases here : child.kind = kind
    · have same : child.unpaused (.content policy) = child := unpaused_eq_self (by rw [here, leaf])
      rw [same, List.find?_cons_of_pos (by simpa using here), List.find?_cons_of_pos (by simpa using here)]
    · rw [List.find?_cons_of_neg (by simpa using here), List.find?_cons_of_neg (by simpa using here), ih]

/-- A frame title does not stand in a block that is put off. -/
theorem FrameTitle.ofSlide?_unpaused (policy : NestedPolicy) (slide : Node) :
    ofSlide? (slide.unpaused (.deck policy)) = ofSlide? slide := by
  rw [ofSlide?, Node.firstChild?_unpaused rfl, Node.firstChild?_unpaused rfl]
  rfl

namespace SlideJob

variable {j : SlideJob} {settings : Settings} {findImage : ImageFinder} {c : Context} {state : PassState}

/-- The slide without the pauses in blocks that are put off. -/
def unpaused (j : SlideJob) (settings : Settings) : SlideJob :=
  { j with node := j.node.unpaused (.deck (.ofSettings settings)) }

/-- The content is walked in the same way. -/
theorem runContent_unpaused (j : SlideJob) (settings : Settings) (findImage : ImageFinder) (state : PassState) :
    (j.unpaused settings).runContent settings findImage state =
      (j.runContent settings findImage state).map (Prod.map id Content.Walk.unpaused) := by
  have children : (j.unpaused settings).node.children =
      Node.unpausedAll (.content (.ofSettings settings)) j.node.children := Node.unpaused_children rfl
  rw [runContent, children]
  exact Content.Walk.runAll_unpaused (j.context settings findImage) (j.contentStart settings findImage state)
    j.node.children

/-- The blocks of a round are placed in the same way without the pauses in them. -/
theorem runRound_unpaused {region : List Nat → Prop} {flow : ShapeFlow} {bs : List Nested}
    (scattered : Scattered j.node region bs) :
    (Content.Walk.start c (.ignoringPauses state) j.titlePage flow).run c
        ((bs.map Nested.block).map Deferred.unpaused) =
      (j.runRound c state flow bs).map (Prod.map id Content.Walk.unpaused) := by
  have isBlock : ∀ d ∈ bs.map Nested.block, d.node.kind.isBlock := List.forall_mem_map.mpr scattered.isBlock
  exact Content.Walk.runEach_unpaused (w := Content.Walk.start c (.ignoringPauses state) j.titlePage flow) isBlock rfl

namespace Placing

variable {flow : ShapeFlow} {bs : List Nested} {maxPass : Nat} {rounds : List (List Nested)}
  {result : Except DeckError (ShapeFlow × Nat)}

/-- And so are those of all rounds. -/
theorem placeDeferred_unpaused {region : List Nat → Prop}
    (placing : j.Placing c state flow bs maxPass rounds result) (scattered : Scattered j.node region bs)
    {levels : Nat} (enough : rounds.length ≤ levels) :
    j.placeDeferred c state levels flow ((bs.map Nested.block).map Deferred.unpaused) maxPass = result := by
  induction placing generalizing levels region with
  | done => exact j.placeDeferred_nil c state levels _ _
  | failed nonempty ran =>
    obtain ⟨more, rfl⟩ := Nat.exists_eq_add_of_le' enough
    rw [List.length_singleton, placeDeferred_succ (by simpa using nonempty), runRound_unpaused scattered, ran]
    rfl
  | @round _ bs next _ _ _ _ nonempty ran inTexts queued rest ih =>
    have below : Scattered j.node (fun p => ∃ b ∈ bs, BelowFrom b.place 0 p) next :=
      inTexts ▸ scattered.flatMap fun b inBs => inner_scattered (scattered.found b inBs) c.policy state.pass
    obtain ⟨more, rfl⟩ := Nat.exists_eq_add_of_le' enough
    rw [List.length_cons, ← Nat.add_assoc, placeDeferred_succ (by simpa using nonempty), runRound_unpaused scattered,
      ran]
    have later := ih below (Nat.le_add_left _ more)
    rw [← queued] at later
    exact later

end Placing

/-- Which rounds there are depends on the title page and on what was put off only. -/
theorem placeDeferred_sameTitle {k : SlideJob} (title : k.titlePage = j.titlePage) (levels : Nat) (flow : ShapeFlow)
    (pending : List Deferred) (maxPass : Nat) :
    k.placeDeferred c state levels flow pending maxPass = j.placeDeferred c state levels flow pending maxPass := by
  induction levels generalizing flow pending maxPass with
  | zero => rfl
  | succ levels ih => simp only [placeDeferred, title, ih]

/-- What the content puts off is placed in the same way, however high the trees are. -/
theorem placeDeferred_unpaused {flow : Flow} {w : Content.Walk}
    (ran : j.runContent settings findImage state = .ok (flow, w)) (maxPass : Nat) :
    (j.unpaused settings).placeDeferred (j.context settings findImage) state (j.unpaused settings).node.height w.flow
        w.unpaused.deferred maxPass =
      j.placeDeferred (j.context settings findImage) state j.node.height w.flow w.deferred maxPass := by
  have ran' : (j.unpaused settings).runContent settings findImage state = .ok (flow, w.unpaused) := by
    rw [runContent_unpaused, ran]
    rfl
  have put := runContent_deferred ran
  have put' := runContent_deferred ran'
  obtain ⟨rounds, placing, few⟩ := j.exists_placing (j.context settings findImage) state
    (j.putOff_scattered settings state) (fun _ _ => Nat.le_add_left _ _) w.flow maxPass
  obtain ⟨rounds', placing', few'⟩ := (j.unpaused settings).exists_placing (j.context settings findImage) state
    ((j.unpaused settings).putOff_scattered settings state) (fun _ _ => Nat.le_add_left _ _) w.flow maxPass
  -- both loops end within the levels of the higher tree
  have enough := Nat.le_trans few (Nat.le_max_left j.node.height (j.unpaused settings).node.height)
  have enough' := Nat.le_trans few' (Nat.le_max_right j.node.height (j.unpaused settings).node.height)
  have whole := placing.placeDeferred_unpaused (j.putOff_scattered settings state) enough
  have thinned := placing'.eq_placeDeferred enough'
  rw [← put] at whole
  rw [← put'] at thinned
  rw [← thinned]
  exact (placeDeferred_sameTitle (j := j) (k := j.unpaused settings) rfl _ w.flow _ maxPass).trans whole

/-- A pass is rendered in the same way without the pauses. -/
theorem render_unpaused (j : SlideJob) (settings : Settings) (findImage : ImageFinder) (state : PassState) :
    (j.unpaused settings).render settings findImage state = j.render settings findImage state := by
  rw [render_eq, render_eq, runContent_unpaused]
  rcases ran : j.runContent settings findImage state with error | ⟨flow, w⟩
  · rfl
  · have placed := placeDeferred_unpaused ran (max (j.titlePasses settings state) w.tracker.maxPass)
    exact congrArg (fun found => found.bind fun placed => Except.ok (j.outcomeOf settings state flow placed)) placed

/-- Pauses in blocks that are put off have no effect on the slide: the walk over the content puts off the same
blocks without them, and every round places the same shapes. -/
theorem compose_unpaused (j : SlideJob) (settings : Settings) (findImage : ImageFinder) :
    (j.unpaused settings).compose settings findImage = j.compose settings findImage := by
  have same := @passesFrom_congr j settings findImage (j.unpaused settings) rfl
    (j.render_unpaused settings findImage) .first 1
  rw [compose, same]
  rfl

/-- Without some pauses that lie in blocks which the walk over the content puts off, on whatever pass, a slide has
the same passes. Neither is its frame title another one, should it be read from the tree. -/
theorem compose_without (j : SlideJob) {settings : Settings} (findImage : ImageFinder) {drop : List Nat → Bool}
    (pauses : ∀ place, drop place = true → ∃ n, j.node.subtreeAt? place = some n ∧ n.kind = .pause)
    (inside : ∀ place, drop place = true → ∃ state, ∃ b ∈ j.putOff settings state, b.place <+: place) :
    ({ j with node := j.node.without drop } : SlideJob).compose settings findImage = j.compose settings findImage ∧
      FrameTitle.ofSlide? (j.node.without drop) = FrameTitle.ofSlide? j.node := by
  have same := j.unpaused_without settings pauses inside
  constructor
  · rw [← compose_unpaused j, ← compose_unpaused { j with node := j.node.without drop }, unpaused, same]
    rfl
  · rw [← FrameTitle.ofSlide?_unpaused (.ofSettings settings) (j.node.without drop), same,
      FrameTitle.ofSlide?_unpaused]

/-- A pause in a description list in a bullet list, and one in a table in the description. -/
def pausedBelow : SlideJob :=
  .ofNode 1 ⟨.part .slide, .none, "", none,
    [⟨.list .bullet, .none, "", none,
      [⟨.item, .none, "", none,
        [.ofText "a", ⟨.list .description, .none, "", none,
          [⟨.item, .none, "b", none,
            [⟨.pause, .none, "", none, []⟩, ⟨.tabular, .none, "l", none,
              [.ofText "c", ⟨.pause, .none, "", none, []⟩, .ofText "d"]⟩]⟩]⟩]⟩]⟩]⟩

theorem compose_without_pausedBelow :
    let drop : List Nat → Bool := fun place => place = [0, 0, 1, 0, 0] ∨ place = [0, 0, 1, 0, 1, 1]
    (∀ place, drop place = true → ∃ n, pausedBelow.node.subtreeAt? place = some n ∧ n.kind = .pause) ∧
      ({ pausedBelow with node := pausedBelow.node.without drop } : SlideJob).compose deferring noPictures =
        pausedBelow.compose deferring noPictures := by
  intro drop
  have pauses : ∀ place, drop place = true → ∃ n, pausedBelow.node.subtreeAt? place = some n ∧ n.kind = .pause := by
    intro place gone
    rcases of_decide_eq_true gone with rfl | rfl
    · exact ⟨_, rfl, rfl⟩
    · exact ⟨_, rfl, rfl⟩
  have put : [0, 0, 1] ∈ (pausedBelow.putOff deferring .first).map Nested.place := by decide
  obtain ⟨b, inFirst, atPlace⟩ := List.mem_map.mp put
  refine ⟨pauses, (compose_without pausedBelow noPictures pauses fun place gone => ⟨.first, b, inFirst, ?_⟩).1⟩
  rw [atPlace]
  rcases of_decide_eq_true gone with rfl | rfl
  · exact ⟨[0, 0], rfl⟩
  · exact ⟨[0, 1, 1], rfl⟩

end SlideJob

end Unveil
