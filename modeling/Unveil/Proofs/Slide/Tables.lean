import Unveil.Proofs.Content.Trace
import Unveil.Proofs.Flow.Order
import Unveil.Proofs.Slide.Run
import Unveil.Proofs.Table.Intact

namespace Unveil

namespace Shape

theorem mem_gridsAll {shapes : List Shape} {g : Grid} : g ∈ gridsAll shapes ↔ ∃ s ∈ shapes, g ∈ s.grids := by
  induction shapes with
  | nil => simp [gridsAll]
  | cons s rest ih => simp [gridsAll, ih]

mutual

theorem unplaced_grids : ∀ s : Shape, s.unplaced.grids = s.grids
  | single _ (.text _) _ => rfl
  | single _ (.image _) _ => rfl
  | single _ (.table _) _ => rfl
  | group _ members _ => unplacedAll_grids members

theorem unplacedAll_grids : ∀ shapes : List Shape, gridsAll (unplacedAll shapes) = gridsAll shapes
  | [] => rfl
  | s :: rest => by rw [unplacedAll, gridsAll, gridsAll, unplaced_grids s, unplacedAll_grids rest]

end

theorem Intact.of_body? {s : Shape} {body : TextBody} (text : s.body? = some body) : s.Intact := by
  rcases s with ⟨bounds, _ | _ | _, hidden⟩ | _
  · exact nofun
  · cases text
  · cases text
  · cases text

theorem Intact.moved {s t : Shape} (intact : s.Intact) (moved : s.Moved t) : t.Intact := by
  have same : t.grids = s.grids := by rw [← unplaced_grids t, moved.unplaced, unplaced_grids s]
  intro g inside
  exact intact g (same ▸ inside)

/-- Tables stay intact however a shape is placed. -/
theorem Intact.becomes {s : Shape} {parts : List Shape} (intact : s.Intact) (becomes : s.Becomes parts) :
    ∀ t ∈ parts, t.Intact := by
  cases becomes with
  | moved _ moved => exact List.forall_mem_singleton.mpr (intact.moved moved)
  | text _ placed => exact List.forall_mem_singleton.mpr (.of_body? placed)
  | cut _ head tail => exact List.forall_mem_cons.mpr ⟨.of_body? head, List.forall_mem_singleton.mpr (.of_body? tail)⟩

theorem Intact.withHidden {s : Shape} (intact : s.Intact) (hidden : Bool) : (s.withHidden hidden).Intact := by
  rcases s with ⟨bounds, _ | _ | _, _⟩ | _ <;> exact intact

end Shape

namespace ShapeFlow

/-- A flow in which all tables are intact. It moves the tables that it is given but never changes them. -/
def Intact (f : ShapeFlow) : Prop := ∀ s ∈ f.placed ++ f.group, s.Intact

def Call.Intact : Call → Prop
  | .push s | .pushBlock s => s.Intact
  | .flush => True

theorem ofArea_intact (area : Rect) : (ofArea area).Intact := nofun

theorem Intact.flush {f : ShapeFlow} (intact : f.Intact) : f.flush.Intact := by
  intro s inside
  rw [ShapeFlow.flush, List.append_nil] at inside
  exact intact s inside

theorem Intact.push {f : ShapeFlow} (intact : f.Intact) {s : Shape} (new : s.Intact) : (f.push s).Intact := by
  have below := new.becomes (f.below_becomes s) _ (.head _)
  unfold ShapeFlow.push
  dsimp only
  split
  · rename_i first one
    obtain ⟨left, right, cut, atFirst, atSecond⟩ := arrange_arranged f.area first (f.below s)
    refine Intact.flush fun t inside => ?_
    dsimp only at inside
    rw [cut, List.mem_append, List.mem_append] at inside
    rcases inside with old | inLeft | inRight
    · exact intact t (List.mem_append_left _ old)
    · exact (intact first (by simp [one])).becomes atFirst t inLeft
    · exact below.becomes atSecond t inRight
  · intro t inside
    dsimp only at inside
    rw [← List.append_assoc, List.mem_append] at inside
    rcases inside with old | last
    · exact intact t old
    · exact List.mem_singleton.mp last ▸ below

theorem Intact.pushBlock {f : ShapeFlow} (intact : f.Intact) {s : Shape} (new : s.Intact) : (f.pushBlock s).Intact := by
  intro t inside
  rcases List.mem_append.mp inside with placed | shapeless
  · rcases List.mem_append.mp placed with old | last
    · exact intact.flush t (List.mem_append_left _ old)
    · exact List.mem_singleton.mp last ▸ new.moved (.moveTo s _ _)
  · cases shapeless

theorem Intact.performAll {f : ShapeFlow} (intact : f.Intact) {calls : List Call} (new : ∀ call ∈ calls, call.Intact) :
    (f.performAll calls).Intact := by
  induction calls generalizing f with
  | nil => exact intact
  | cons call rest ih =>
    obtain ⟨here, later⟩ := List.forall_mem_cons.mp new
    refine ih ?_ later
    cases call with
    | push s => exact intact.push here
    | pushBlock s => exact intact.pushBlock here
    | flush => exact intact.flush

end ShapeFlow

namespace TitlePage

theorem walkPart_intact {w : Walk} (intact : ∀ s ∈ w.members, s.Intact) (size width : Float32) (mode : Mode)
    (nodes : List Node) : ∀ s ∈ (walkPart w size width mode nodes).2.members, s.Intact := by
  unfold walkPart
  dsimp only
  split
  · refine List.forall_mem_append.mpr ⟨intact, List.forall_mem_singleton.mpr ?_⟩
    exact .of_body? (rfl : Shape.body? _ = some _)
  · exact intact

theorem walk_intact {w : Walk} (intact : ∀ s ∈ w.members, s.Intact) (base width : Float32) (mode : Mode)
    (parts : List (Option (List Node) × Float32)) : ∀ s ∈ (walk w base width mode parts).2.members, s.Intact := by
  induction parts generalizing w with
  | nil => exact intact
  | cons part rest ih =>
    obtain ⟨_ | nodes, factor⟩ := part
    · exact ih intact
    · have here := walkPart_intact intact (base * factor) width mode nodes
      rw [walk]
      rcases found : walkPart w (base * factor) width mode nodes with ⟨_ | _, v⟩
      · rw [found] at here
        exact ih here
      · rw [found] at here
        exact here

theorem render_intact (p : TitlePage) (tracker : Tracker) (base width : Float32) (mode : Mode) {s : Shape}
    (made : (p.render tracker base width mode).1 = some s) : s.Intact := by
  have members := walk_intact (w := ⟨[], 0.0, tracker⟩) nofun base width mode p.parts
  have group (shapes : List Shape) (all : ∀ s ∈ shapes, s.Intact) (made : group? shapes = some s) : s.Intact := by
    cases shapes with
    | nil => cases made
    | cons first rest =>
      obtain rfl := Option.some.inj made
      intro g inside
      obtain ⟨t, member, inT⟩ := Shape.mem_gridsAll.mp inside
      exact all t member g inT
  exact group _ members made

end TitlePage

theorem FrameTitle.render_intact (f : FrameTitle) (settings : Settings) (state : PassState) {s : Shape}
    (made : (f.render settings state).shape = some s) : s.Intact := by
  unfold render at made
  dsimp only at made
  split at made
  · cases made
  · obtain rfl := Option.some.inj made
    exact nofun

theorem Node.renderBlock_intact {n : Node} {c : Context} {tracker : Tracker} {faces : FaceStack} {mode : Mode}
    {block : Block} (rendered : n.renderBlock c tracker faces mode = .ok block) : block.Intact := by
  unfold renderBlock at rendered
  split at rendered
  · obtain rfl := Except.ok.inj rendered
    exact n.renderDescription_intact c tracker faces mode
  · obtain rfl := Except.ok.inj rendered
    intro s made
    unfold renderList at made
    dsimp only at made
    split at made
    · cases made
    · obtain rfl := Option.some.inj made
      exact nofun
  · exact renderTable_intact rendered
  · intro s made
    obtain ⟨shapeless | ⟨_, _, _, shown⟩, _⟩ := renderImage_ok rendered
    · rw [shapeless] at made
      cases made
    · obtain rfl := Option.some.inj (shown.symm.trans made)
      exact nofun
  · obtain rfl := Except.ok.inj rendered
    exact nofun

namespace Content

namespace Trace

/-- A walk that has given intact tables to the flow. -/
def Intact (t : Trace) : Prop := ∀ call ∈ t.calls, call.Intact

theorem Intact.call {t : Trace} (intact : t.Intact) {call : ShapeFlow.Call} (new : call.Intact) : (t.call call).Intact :=
  List.forall_mem_append.mpr ⟨intact, List.forall_mem_singleton.mpr new⟩

theorem Intact.closeText {t : Trace} (intact : t.Intact) : t.closeText.Intact := by
  unfold Trace.closeText
  split
  · exact intact
  · dsimp only
    split
    · exact intact
    · exact Intact.call (t := { t with text := none }) intact (.of_body? rfl)

theorem Intact.placeBlock {t : Trace} (intact : t.Intact) {b : Block} (new : b.Intact) : (t.placeBlock b).2.Intact := by
  refine List.forall_mem_append.mpr ⟨intact, fun call inside => ?_⟩
  obtain ⟨s, made, rfl⟩ := List.mem_map.mp inside
  exact new s (Option.mem_toList.mp made)

theorem Intact.block {t u : Trace} {c : Context} {n : Node} {mode : Mode} {ended : Flow} (intact : t.Intact)
    (met : t.block c n mode = .ok (ended, u)) : u.Intact := by
  unfold Trace.block at met
  rcases rendered : n.renderBlock c t.tracker t.faces mode with error | b
  · rw [rendered] at met
    cases met
  · rw [rendered] at met
    cases met
    exact intact.closeText.placeBlock (Node.renderBlock_intact rendered)

theorem Intact.title {t : Trace} (intact : t.Intact) (c : Context) (n : Node) (mode : Mode) :
    (t.title c n mode).2.Intact := by
  refine List.forall_mem_append.mpr ⟨intact.closeText, fun call inside => ?_⟩
  obtain ⟨s, made, rfl⟩ := List.mem_map.mp inside
  obtain ⟨page, rendered, rfl⟩ := Option.map_eq_some_iff.mp (Option.mem_toList.mp made)
  exact (TitlePage.render_intact _ _ _ _ _ rendered).withHidden _

theorem Intact.meet {t u : Trace} {c : Context} {n : Node} {mode : Mode} {ended : Flow} (intact : t.Intact)
    (met : t.meet c n mode = .ok (ended, u)) : u.Intact := by
  unfold Trace.meet at met
  split at met
  · split at met
    · obtain ⟨_, rfl⟩ := Prod.mk.inj (Except.ok.inj met)
      unfold Trace.append
      split <;> exact intact
    · obtain ⟨_, rfl⟩ := Prod.mk.inj (Except.ok.inj met)
      exact intact
  · obtain ⟨_, rfl⟩ := Prod.mk.inj (Except.ok.inj met)
    unfold Trace.breakParagraph
    split
    · exact intact.closeText.call trivial
    · exact intact
  · obtain ⟨_, rfl⟩ := Prod.mk.inj (Except.ok.inj met)
    exact intact
  · exact intact.block met
  · exact intact.block met
  · exact intact.block met
  · obtain ⟨_, rfl⟩ := Prod.mk.inj (Except.ok.inj met)
    exact intact.title c n mode
  · obtain ⟨_, rfl⟩ := Prod.mk.inj (Except.ok.inj met)
    exact intact
  · obtain ⟨_, rfl⟩ := Prod.mk.inj (Except.ok.inj met)
    exact intact

theorem Intact.closeStyle {u : Trace} {ended : Flow} {found : Except DeckError (Flow × Trace)}
    (inside : ∀ ended v, found = .ok (ended, v) → v.Intact)
    (closed : andThen Trace.closeStyle found = .ok (ended, u)) : u.Intact := by
  rcases found with error | ⟨_ | _, v⟩
  · cases closed
  · cases closed
    exact inside _ v rfl
  · cases closed
    exact inside _ _ rfl

mutual

/-- A walk gives intact tables to the flow. -/
theorem Intact.visit {t u : Trace} {c : Context} {mode : Mode} {ended : Flow} (intact : t.Intact) :
    ∀ n : Node, visit c t mode n = .ok (ended, u) → u.Intact
  | ⟨kind, overlay, params, payload, children⟩ => fun visited => by
    unfold Trace.visit at visited
    split at visited
    · refine Intact.closeStyle (fun ended v found => ?_) visited
      exact Intact.visitAll (t := t.openStyle _) intact children found
    · exact Intact.visitAll (t := (t.gate _ mode).2) intact children visited
    · exact Intact.visitAll (t := (t.gate _ mode).2) intact children visited
    · exact intact.visitAll children visited
    · exact intact.visitAll children visited
    · exact intact.visitAll children visited
    · exact intact.meet visited

theorem Intact.visitAll {t u : Trace} {c : Context} {mode : Mode} {ended : Flow} (intact : t.Intact) :
    ∀ nodes : List Node, visitAll c t mode nodes = .ok (ended, u) → u.Intact
  | [] => fun visited => by
    cases visited
    exact intact
  | n :: rest => fun visited => by
    rw [Trace.visitAll] at visited
    rcases found : Trace.visit c t mode n with error | ⟨_ | _, v⟩
    · rw [found] at visited
      cases visited
    · rw [found] at visited
      exact (intact.visit n found).visitAll rest visited
    · rw [found] at visited
      cases visited
      exact intact.visit n found

end

theorem Intact.visitEach {t u : Trace} {c : Context} {nodes : List Deferred} {ended : Flow} (intact : t.Intact)
    (visited : visitEach c t nodes = .ok (ended, u)) : u.Intact := by
  induction nodes generalizing t with
  | nil =>
    cases visited
    exact intact
  | cons d rest ih =>
    rw [Trace.visitEach] at visited
    rcases found : Trace.visit c t d.mode d.node with error | ⟨_ | _, v⟩
    · rw [found] at visited
      cases visited
    · rw [found] at visited
      exact ih (intact.visit d.node found) visited
    · rw [found] at visited
      cases visited
      exact intact.visit d.node found

end Trace

/-- A walk leaves an intact flow intact. -/
theorem Walk.run_intact {c : Context} {tracker : Tracker} {titlePage : TitlePage} {flow : ShapeFlow}
    {nodes : List Deferred} {ended : Flow} {w : Walk} (intact : flow.Intact)
    (ran : (Walk.start c tracker titlePage flow).run c nodes = .ok (ended, w)) : w.flow.Intact := by
  obtain ⟨t, visited, rfl⟩ := Trace.run_ok ran
  have start : (Trace.start c tracker titlePage).Intact := List.forall_mem_nil _
  rw [Walk.close, Trace.closeText_onto]
  exact (intact.performAll (start.visitEach visited).closeText).flush

end Content

namespace SlideJob

variable {j : SlideJob} {settings : Settings} {findImage : ImageFinder}

theorem placeDeferred_intact {c : Context} {state : PassState} {rounds maxPass : Nat} {flow : ShapeFlow}
    {pending : List Deferred} {placed : ShapeFlow × Nat} (intact : flow.Intact)
    (done : j.placeDeferred c state rounds flow pending maxPass = .ok placed) : placed.1.Intact := by
  induction rounds generalizing flow pending maxPass with
  | zero =>
    cases done
    exact intact
  | succ rounds ih =>
    rw [placeDeferred] at done
    split at done
    · cases done
      exact intact
    · simp only [bind, Except.bind] at done
      rcases ran : (Content.Walk.start c (.ignoringPauses state) j.titlePage flow).run c pending with
        error | ⟨ended, w⟩
      · rw [ran] at done
        cases done
      · rw [ran] at done
        exact ih (Content.Walk.run_intact intact ran) done

/-- All tables of a pass are intact. -/
theorem render_intact {state : PassState} {o : Outcome} (rendered : j.render settings findImage state = .ok o) :
    ∀ s ∈ o.title.toList ++ o.shapes, s.Intact := by
  obtain ⟨flow, w, placed, ran, done, title, shapes, _⟩ := render_ok rendered
  have content : w.flow.Intact := Content.Walk.run_intact (ShapeFlow.ofArea_intact _) ran
  refine List.forall_mem_append.mpr ⟨fun s inside => ?_, fun s inside => ?_⟩
  · rw [title] at inside
    obtain ⟨f, _, made⟩ := Option.bind_eq_some_iff.mp (Option.mem_toList.mp inside)
    exact f.render_intact settings state made
  · rw [shapes] at inside
    exact (placeDeferred_intact content done).flush s (List.mem_append_left _ inside)

/-- All tables of a composed slide are intact. -/
theorem compose_intact {slide : ComposedSlide} (composed : j.compose settings findImage = .ok slide) :
    ∀ pass ∈ slide.passes, ∀ s ∈ pass.allShapes, s.Intact := by
  unfold compose at composed
  rcases ran : j.passesFrom settings findImage .first 1 with error | passes
  · rw [ran] at composed
    cases composed
  · rw [ran] at composed
    cases composed
    have each : ∀ pass ∈ passes, ∀ s ∈ pass.allShapes, s.Intact := by
      intro pass inPasses
      obtain ⟨reached, before, o, _, rendered, rfl⟩ := passesFrom_visits .first ran pass inPasses
      exact render_intact rendered
    intro pass inSlide
    unfold alignPasses at inSlide
    dsimp only at inSlide
    split at inSlide
    · exact each pass inSlide
    · rename_i dy _
      obtain ⟨before, inPasses, rfl⟩ := List.mem_map.mp inSlide
      obtain ⟨title, shapes⟩ := List.forall_mem_append.mp (each before inPasses)
      refine List.forall_mem_append.mpr ⟨title, fun s inside => ?_⟩
      obtain ⟨old, inShapes, rfl⟩ := List.mem_map.mp inside
      exact (shapes old inShapes).moved ⟨Shape.move_unplaced _ _ old, [(0.0, dy)], rfl⟩

end SlideJob

end Unveil
