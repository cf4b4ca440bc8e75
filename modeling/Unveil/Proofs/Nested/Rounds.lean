import Unveil.Proofs.Nested.Places
import Unveil.Proofs.Slide.PassCount

namespace Unveil

namespace Nested

/-- What a block puts off when it is rendered on a pass. -/
def inner (policy : NestedPolicy) (pass : Nat) (b : Nested) : List Nested :=
  Mark.blocks (b.block.node.blockMarks policy pass b.place b.block.mode)

/-- Blocks that were put off, and the blocks in their texts, and so on. -/
inductive Reached (policy : NestedPolicy) (pass : Nat) (first : List Nested) : Nested → Prop
  | content {b : Nested} (inFirst : b ∈ first) : Reached policy pass first b
  | inner {b d : Nested} (reached : Reached policy pass first b) (inB : d ∈ b.inner policy pass) :
    Reached policy pass first d

theorem inner_scattered {root : Node} {b : Nested} (here : root.subtreeAt? b.place = some b.block.node)
    (policy : NestedPolicy) (pass : Nat) : Scattered root (BelowFrom b.place 0) (b.inner policy pass) :=
  Node.blockMarks_scattered policy pass b.block.mode here

/-- A block puts off the same wherever it is rendered, and whatever the title page holds. -/
theorem blocks_marks {b : Nested} (isBlock : b.block.node.kind.isBlock) (policy : NestedPolicy) (pass : Nat)
    (p : TitlePage) :
    Mark.blocks (Content.marks policy pass p b.place b.block.mode b.block.node) = b.inner policy pass := by
  obtain ⟨place, ⟨kind, overlay, params, payload, children⟩, mode⟩ := b
  cases kind with
  | list | tabular | image => rfl
  | titlePage =>
    simp only [Content.marks]
    rw [Mark.blocks_gate_append, Mark.blocks_ofAsks]
    rfl
  | _ => cases isBlock

end Nested

open Nested

namespace Content.Trace

/-- A round in which every pause is let through comes to its end and puts off what its blocks do. -/
theorem visitEach_blocks {c : Context} {pass : Nat} {t u : Trace} {ended : Flow} {bs : List Nested}
    (isBlock : ∀ b ∈ bs, b.block.node.kind.isBlock) (ignores : t.tracker.ignoring = true)
    (onPass : t.tracker.pass = pass) (visited : visitEach c t (bs.map Nested.block) = .ok (ended, u)) :
    ended = .completed ∧ u.deferred = t.deferred ++ (bs.flatMap (inner c.policy pass)).map Nested.block := by
  induction bs generalizing t with
  | nil =>
    obtain ⟨rfl, rfl⟩ := Prod.mk.inj (Except.ok.inj visited)
    exact ⟨rfl, (List.append_nil _).symm⟩
  | cons b rest ih =>
    obtain ⟨here, later⟩ := List.forall_mem_cons.mp isBlock
    rw [List.map_cons, visitEach] at visited
    rcases found : visit c t b.block.mode b.block.node with error | ⟨flow, v⟩
    · rw [found] at visited
      cases visited
    · rw [found] at visited
      have follows := visit_leaves b.place b.block.node found
      obtain ⟨rfl, still, put⟩ := follows.ignoring ignores
      rw [onPass, blocks_marks here] at put
      have samePass : v.tracker.pass = pass := (congrArg PassState.pass follows.state).trans onPass
      obtain ⟨completed, others⟩ := ih later still samePass visited
      refine ⟨completed, ?_⟩
      rw [others, put, List.flatMap_cons, List.map_append, List.append_assoc]

end Content.Trace

namespace SlideJob

variable {j : SlideJob} {settings : Settings} {findImage : ImageFinder} {c : Context} {state : PassState}

/-- The marks of the content of a slide on a pass. -/
def contentMarks (j : SlideJob) (settings : Settings) (pass : Nat) : List Mark :=
  Content.marksAll (.ofSettings settings) pass j.titlePage [] 0 .visible j.node.children

/-- The blocks that the content of a slide puts off on a pass: those in texts, up to the first pause that
is not let through. -/
def putOff (j : SlideJob) (settings : Settings) (state : PassState) : List Nested :=
  ((Tracker.ofState state).follow (j.contentMarks settings state.pass)).2.2

theorem putOff_scattered (j : SlideJob) (settings : Settings) (state : PassState) :
    Scattered j.node (BelowFrom [] 0) (j.putOff settings state) := by
  refine Scattered.sublist ?_ (Tracker.follow_sublist (Prod.ext rfl (Prod.ext rfl rfl)))
  exact Content.marksAll_scattered _ _ _ _ j.node.children (Node.childrenFrom_zero rfl)

/-- The content puts off the blocks among its marks up to the pause. -/
theorem runContent_deferred {flow : Flow} {w : Content.Walk}
    (ran : j.runContent settings findImage state = .ok (flow, w)) :
    w.deferred = (j.putOff settings state).map Nested.block := by
  let start := Content.Trace.start (j.context settings findImage) (.ofState state) j.titlePage
  have made : Content.Walk.visitAll (j.context settings findImage) (j.contentStart settings findImage state) .visible
      j.node.children = _ :=
    Content.Trace.visitAll_onto (.ofArea (j.contentArea settings)) _ start .visible j.node.children
  rw [runContent, Content.Walk.run, Content.Walk.visitEach_visible, made] at ran
  rcases found : Content.Trace.visitAll (j.context settings findImage) start .visible j.node.children with
    error | ⟨ended, t⟩
  · rw [found] at ran
    cases ran
  · rw [found] at ran
    obtain ⟨rfl, rfl⟩ := Prod.mk.inj (Except.ok.inj ran)
    obtain ⟨blocks, followed, put⟩ := Content.Trace.visitAll_leaves [] 0 j.node.children found
    have first : j.putOff settings state = blocks := congrArg (fun found => found.2.2) followed
    rw [first, Content.Walk.close, Content.Walk.closeText_deferred]
    exact put

/-- The walk over the blocks of a round, which lets every pause through. -/
def runRound (j : SlideJob) (c : Context) (state : PassState) (flow : ShapeFlow) (bs : List Nested) :
    Except DeckError (Flow × Content.Walk) :=
  (Content.Walk.start c (.ignoringPauses state) j.titlePage flow).run c (bs.map Nested.block)

/-- A round that does not fail comes to its end, and puts off what its blocks do. -/
theorem runRound_ok {flow : ShapeFlow} {bs : List Nested} {ended : Flow} {w : Content.Walk}
    (isBlock : ∀ b ∈ bs, b.block.node.kind.isBlock) (ran : j.runRound c state flow bs = .ok (ended, w)) :
    ended = .completed ∧ w.deferred = (bs.flatMap (inner c.policy state.pass)).map Nested.block := by
  obtain ⟨t, visited, rfl⟩ := Content.Trace.run_ok ran
  obtain ⟨completed, put⟩ := Content.Trace.visitEach_blocks isBlock rfl rfl visited
  refine ⟨completed, ?_⟩
  rw [Content.Walk.close, Content.Walk.closeText_deferred]
  exact put

/-- One round of the loop. -/
theorem placeDeferred_succ {pending : List Deferred} (nonempty : pending ≠ []) (levels : Nat) (flow : ShapeFlow)
    (maxPass : Nat) :
    j.placeDeferred c state (levels + 1) flow pending maxPass =
      ((Content.Walk.start c (.ignoringPauses state) j.titlePage flow).run c pending).bind fun found =>
        j.placeDeferred c state levels found.2.flow found.2.deferred (max maxPass found.2.tracker.maxPass) := by
  have more : pending.isEmpty = false := by simpa using nonempty
  rw [placeDeferred, more]
  rfl

theorem placeDeferred_round {bs : List Nested} (nonempty : bs ≠ []) (levels : Nat) (flow : ShapeFlow) (maxPass : Nat) :
    j.placeDeferred c state (levels + 1) flow (bs.map Nested.block) maxPass =
      (j.runRound c state flow bs).bind fun found =>
        j.placeDeferred c state levels found.2.flow found.2.deferred (max maxPass found.2.tracker.maxPass) :=
  placeDeferred_succ (by simpa using nonempty) levels flow maxPass

/-- The loop over the blocks that were put off, round by round. No walk is paused, and what the blocks of a
round put off makes up the next one. -/
inductive Placing (j : SlideJob) (c : Context) (state : PassState) :
    ShapeFlow → List Nested → Nat → List (List Nested) → Except DeckError (ShapeFlow × Nat) → Prop
  | done {flow : ShapeFlow} {maxPass : Nat} : Placing j c state flow [] maxPass [] (.ok (flow, maxPass))
  | failed {flow : ShapeFlow} {bs : List Nested} {maxPass : Nat} {error : DeckError} (nonempty : bs ≠ [])
    (ran : j.runRound c state flow bs = .error error) : Placing j c state flow bs maxPass [bs] (.error error)
  | round {flow : ShapeFlow} {bs next : List Nested} {maxPass : Nat} {w : Content.Walk}
    {rounds : List (List Nested)} {result : Except DeckError (ShapeFlow × Nat)} (nonempty : bs ≠ [])
    (ran : j.runRound c state flow bs = .ok (.completed, w))
    (inTexts : next = bs.flatMap (inner c.policy state.pass)) (queued : w.deferred = next.map Nested.block)
    (rest : Placing j c state w.flow next (max maxPass w.tracker.maxPass) rounds result) :
    Placing j c state flow bs maxPass (bs :: rounds) result

/-- The loop ends: it needs no more rounds than there are levels below the blocks that it starts with. A block
lies properly below the one that puts it off. -/
theorem exists_placing (j : SlideJob) (c : Context) (state : PassState) {region : List Nat → Prop} {levels : Nat}
    {bs : List Nested} (scattered : Scattered j.node region bs)
    (deep : ∀ b ∈ bs, j.node.height ≤ b.place.length + levels) (flow : ShapeFlow) (maxPass : Nat) :
    ∃ rounds, j.Placing c state flow bs maxPass rounds
        (j.placeDeferred c state levels flow (bs.map Nested.block) maxPass) ∧
      rounds.length ≤ levels := by
  induction levels generalizing bs region flow maxPass with
  | zero =>
    -- no block lies as deep as the tree is high
    have empty : bs = [] := by
      refine List.eq_nil_iff_forall_not_mem.mpr fun b inBs => ?_
      have low := Node.length_lt_height (scattered.found b inBs)
      have high := deep b inBs
      omega
    subst empty
    exact ⟨[], .done, Nat.le_refl 0⟩
  | succ levels ih =>
    by_cases empty : bs = []
    · subst empty
      exact ⟨[], .done, Nat.zero_le _⟩
    · rw [placeDeferred_round empty]
      rcases ran : j.runRound c state flow bs with error | ⟨ended, w⟩
      · exact ⟨[bs], .failed empty ran, Nat.succ_le_succ (Nat.zero_le _)⟩
      · obtain ⟨rfl, queued⟩ := runRound_ok scattered.isBlock ran
        have below := scattered.flatMap fun b inBs => inner_scattered (scattered.found b inBs) c.policy state.pass
        have deeper : ∀ d ∈ bs.flatMap (inner c.policy state.pass), j.node.height ≤ d.place.length + levels := by
          intro d inNext
          obtain ⟨above, inBs, lower⟩ := below.inside d inNext
          have high := deep above inBs
          have longer := lower.proper.2
          omega
        obtain ⟨rounds, placing, few⟩ := ih below deeper w.flow (max maxPass w.tracker.maxPass)
        rw [← queued] at placing
        exact ⟨bs :: rounds, .round empty ran rfl queued placing, Nat.succ_le_succ few⟩

namespace Placing

variable {flow : ShapeFlow} {bs : List Nested} {maxPass : Nat} {rounds : List (List Nested)}
  {result : Except DeckError (ShapeFlow × Nat)}

/-- The result does not depend on the number of rounds that are allowed, if there are enough. -/
theorem eq_placeDeferred (placing : j.Placing c state flow bs maxPass rounds result) {levels : Nat}
    (enough : rounds.length ≤ levels) :
    j.placeDeferred c state levels flow (bs.map Nested.block) maxPass = result := by
  induction placing generalizing levels with
  | done => exact j.placeDeferred_nil c state levels _ _
  | failed nonempty ran =>
    obtain ⟨more, rfl⟩ := Nat.exists_eq_add_of_le' enough
    rw [List.length_singleton, placeDeferred_round nonempty, ran]
    rfl
  | round nonempty ran inTexts queued rest ih =>
    obtain ⟨more, rfl⟩ := Nat.exists_eq_add_of_le' enough
    rw [List.length_cons, ← Nat.add_assoc, placeDeferred_round nonempty, ran, Except.bind, queued]
    exact ih (Nat.le_add_left _ _)

/-- The blocks of all rounds lie at or below those of the first, and at different places of the tree. -/
theorem places {region : List Nat → Prop} (placing : j.Placing c state flow bs maxPass rounds result)
    (scattered : Scattered j.node region bs) :
    (∀ b ∈ rounds.flatten, j.node.subtreeAt? b.place = some b.block.node ∧ ∃ d ∈ bs, d.place <+: b.place) ∧
      (rounds.flatten.map Nested.place).Nodup := by
  induction placing generalizing region with
  | done => exact ⟨nofun, .nil⟩
  | failed =>
    rw [List.flatten_singleton]
    exact ⟨fun b inBs => ⟨scattered.found b inBs, b, inBs, List.prefix_refl _⟩, scattered.nodup⟩
  | @round _ bs next _ _ rounds _ _ _ inTexts _ _ ih =>
    have below : Scattered j.node (fun p => ∃ b ∈ bs, BelowFrom b.place 0 p) next :=
      inTexts ▸ scattered.flatMap fun b inBs => inner_scattered (scattered.found b inBs) c.policy state.pass
    obtain ⟨later, nodup⟩ := ih below
    have deeper : ∀ d ∈ rounds.flatten, ∃ b ∈ bs, b.place <+: d.place ∧ b.place.length < d.place.length := by
      intro d inRounds
      obtain ⟨_, e, inNext, under⟩ := later d inRounds
      obtain ⟨b, inBs, lower⟩ := below.inside e inNext
      exact ⟨b, inBs, lower.proper.1.trans under, Nat.lt_of_lt_of_le lower.proper.2 under.length_le⟩
    rw [List.flatten_cons]
    refine ⟨List.forall_mem_append.mpr ⟨fun b inBs => ?_, fun d inRounds => ?_⟩, ?_⟩
    · exact ⟨scattered.found b inBs, b, inBs, List.prefix_refl _⟩
    · obtain ⟨b, inBs, above, _⟩ := deeper d inRounds
      exact ⟨(later d inRounds).1, b, inBs, above⟩
    · rw [List.map_append]
      refine List.nodup_append.mpr ⟨scattered.nodup, nodup, fun p inFirst q inOthers same => ?_⟩
      obtain ⟨b, inBs, rfl⟩ := List.mem_map.mp inFirst
      obtain ⟨d, inRounds, rfl⟩ := List.mem_map.mp inOthers
      -- a block of this round would lie in another one of it
      obtain ⟨e, inBs', above, shorter⟩ := deeper d inRounds
      have equal := scattered.eq_of_prefix inBs' inBs (same ▸ above)
      rw [equal, same] at shorter
      exact Nat.lt_irrefl _ shorter

theorem reached (placing : j.Placing c state flow bs maxPass rounds result) {first : List Nested}
    (before : ∀ b ∈ bs, Reached c.policy state.pass first b) :
    ∀ b ∈ rounds.flatten, Reached c.policy state.pass first b := by
  induction placing with
  | done => exact nofun
  | failed =>
    rw [List.flatten_singleton]
    exact before
  | round _ _ inTexts _ _ ih =>
    rw [List.flatten_cons]
    refine List.forall_mem_append.mpr ⟨before, ih fun d inNext => ?_⟩
    rw [inTexts] at inNext
    obtain ⟨b, inBs, inB⟩ := List.mem_flatMap.mp inNext
    exact .inner (before b inBs) inB

theorem first_mem (placing : j.Placing c state flow bs maxPass rounds result) : ∀ b ∈ bs, b ∈ rounds.flatten := by
  intro b inBs
  cases placing with
  | done => cases inBs
  | failed => exact List.mem_flatten_of_mem (.head _) inBs
  | round => exact List.mem_flatten_of_mem (.head _) inBs

/-- What a block of some round puts off is in the next one, if the loop does not fail. -/
theorem closed (placing : j.Placing c state flow bs maxPass rounds result) {placed : ShapeFlow × Nat}
    (ok : result = .ok placed) : ∀ b ∈ rounds.flatten, ∀ d ∈ b.inner c.policy state.pass, d ∈ rounds.flatten := by
  induction placing with
  | done => exact nofun
  | failed => cases ok
  | round _ _ inTexts _ rest ih =>
    rw [List.flatten_cons]
    refine List.forall_mem_append.mpr ⟨fun b inBs d inB => ?_, fun b inRounds d inB => ?_⟩
    · have inNext := List.mem_flatMap.mpr ⟨b, inBs, inB⟩
      exact List.mem_append_right _ (rest.first_mem d (inTexts ▸ inNext))
    · exact List.mem_append_right _ (ih ok b inRounds d inB)

/-- A loop that does not fail renders all that is reached. -/
theorem complete (placing : j.Placing c state flow bs maxPass rounds result) {placed : ShapeFlow × Nat}
    (ok : result = .ok placed) {b : Nested} (reached : Reached c.policy state.pass bs b) : b ∈ rounds.flatten := by
  induction reached with
  | content inFirst => exact placing.first_mem _ inFirst
  | inner _ inB ih => exact placing.closed ok _ ih _ inB

end Placing

/-- Blocks in texts are rendered once each. The content puts off the blocks that it meets in texts, and the
loop over what is put off ends within as many rounds as the slide is high. A block puts off blocks properly
below it only; no place of the slide comes up twice, in one round or in two; and if nothing fails, the
blocks of all rounds are those of the content, the blocks in their texts, and so on. -/
theorem placeDeferred_once (j : SlideJob) {settings : Settings} {findImage : ImageFinder} {state : PassState}
    {flow : Flow} {w : Content.Walk} (ran : j.runContent settings findImage state = .ok (flow, w)) (maxPass : Nat) :
    let c := j.context settings findImage
    let first := j.putOff settings state
    let result := j.placeDeferred c state j.node.height w.flow w.deferred maxPass
    w.deferred = first.map Nested.block ∧
      ∃ rounds, j.Placing c state w.flow first maxPass rounds result ∧ rounds.length ≤ j.node.height ∧
        (∀ b ∈ rounds.flatten, j.node.subtreeAt? b.place = some b.block.node ∧
          ∀ d ∈ b.inner c.policy state.pass, b.place <+: d.place ∧ b.place.length < d.place.length) ∧
        (rounds.flatten.map Nested.place).Nodup ∧
        (∀ b ∈ rounds.flatten, Reached c.policy state.pass first b) ∧
        ∀ placed, result = .ok placed → ∀ b, Reached c.policy state.pass first b → b ∈ rounds.flatten := by
  intro c first result
  have deferred : w.deferred = first.map Nested.block := runContent_deferred ran
  have scattered : Scattered j.node (BelowFrom [] 0) first := j.putOff_scattered settings state
  obtain ⟨rounds, placing, few⟩ := j.exists_placing c state scattered (fun _ _ => Nat.le_add_left _ _) w.flow maxPass
  rw [← deferred] at placing
  obtain ⟨found, nodup⟩ := placing.places scattered
  refine ⟨deferred, rounds, placing, few, fun b inRounds => ?_, nodup, ?_, fun placed ok b => placing.complete ok⟩
  · have here := (found b inRounds).1
    exact ⟨here, fun d inB => ((inner_scattered here c.policy state.pass).inside d inB).proper⟩
  · exact placing.reached fun b inFirst => .content inFirst

/-- A description list in a bullet list, and another one in its text. -/
def listsInLists : SlideJob :=
  .ofNode 1 ⟨.part .slide, .none, "", none,
    [⟨.list .bullet, .none, "", none,
      [⟨.item, .none, "", none,
        [.ofText "a", ⟨.list .description, .none, "", none,
          [⟨.item, .none, "b", none, [⟨.list .description, .none, "", none, []⟩]⟩]⟩]⟩]⟩]⟩

/-- Settings under which blocks in texts are put off. -/
def deferring : Settings := { Settings.standard with nestedAsText := false }

theorem placeDeferred_once_listsInLists :
    ∃ flow w rounds, listsInLists.runContent deferring noPictures .first = .ok (flow, w) ∧
      listsInLists.Placing (listsInLists.context deferring noPictures) .first w.flow
        (listsInLists.putOff deferring .first) 1 rounds
        (listsInLists.placeDeferred (listsInLists.context deferring noPictures) .first 6 w.flow w.deferred 1) ∧
      rounds.length ≤ 6 ∧ (rounds.flatten.map Nested.place).Nodup ∧ [0, 0, 1] ∈ rounds.flatten.map Nested.place := by
  have plain : listsInLists.node.isPlain := by decide
  obtain ⟨flow, w, ran⟩ : ∃ flow w, listsInLists.runContent deferring noPictures .first = .ok (flow, w) :=
    runContent_succeeds plain .first
  obtain ⟨_, rounds, placing, few, _, nodup, _⟩ := placeDeferred_once listsInLists ran 1
  have inside : [0, 0, 1] ∈ (listsInLists.putOff deferring .first).map Nested.place := by decide
  obtain ⟨b, inFirst, atPlace⟩ := List.mem_map.mp inside
  exact ⟨flow, w, rounds, ran, placing, few, nodup, List.mem_map.mpr ⟨b, placing.first_mem b inFirst, atPlace⟩⟩

end SlideJob

end Unveil
