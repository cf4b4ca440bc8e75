import Unveil.Proofs.Body.Settled
import Unveil.Proofs.Inline.Numbering

namespace Unveil

/-- The mark of an item of a list, given its number in the list and the depth of the list. -/
def ListPlace.mark? (l : ListPlace) (number depth : Nat) : Option BulletMark :=
  match l.kind with
  | .bullet => some (.symbol (OpenList.symbolAt depth))
  | .numbered => some (.number number)
  | .description => none

namespace Inline

variable {rules : InlineRules} {s t : Inline} {mode : Mode} {nodes : List Node}

/-- A point that a walk comes to, with what was done before it and what is left, and the state at it. -/
structure Reached (rules : InlineRules) (s : Inline) (mode : Mode) (nodes : List Node) where
  before : List Step
  step : Step
  after : List Step
  state : Inline
  split : s.trace rules mode nodes = before ++ step :: after
  played : s.play (before.map Step.act) = (.completed, state)

/-- An act after which text no longer goes on behind a list. -/
def Act.settles : Act → Bool
  | .write text _ mode => mode.emits && !text.isEmpty
  | .startItem _ _ mode => mode.emits
  | .openList _ => true
  | _ => false

namespace Reached

/-- The point at a place of the trace, if the walk comes so far. -/
def ofIndex (k : Nat) (inside : k < (s.trace rules mode nodes).length)
    (goesOn : (s.play (((s.trace rules mode nodes).take k).map Step.act)).1 = .completed) :
    Reached rules s mode nodes where
  before := (s.trace rules mode nodes).take k
  step := (s.trace rules mode nodes)[k]
  after := (s.trace rules mode nodes).drop (k + 1)
  state := (s.play (((s.trace rules mode nodes).take k).map Step.act)).2
  split := by rw [List.getElem_cons_drop, List.take_append_drop]
  played := Prod.ext goesOn rfl

/-- The state behind the point. -/
def next (r : Reached rules s mode nodes) : Inline := (r.state.perform r.step.act).2

/-- Whenever a list opens in another one behind the point, paragraph `i` has text, or a paragraph behind it. -/
def Undisturbed (r : Reached rules s mode nodes) (i : Nat) : Prop :=
  ∀ (later : Reached rules s mode nodes) (kind : ListKind), r.before ++ [r.step] <+: later.before →
    later.step.act = .openList kind → later.step.within ≠ [] → later.state.body.paragraphs.length = i + 1 →
    later.state.body.current.isEmpty = false

/-- A list was closed, and nothing was written or started since. -/
def FollowsList (r : Reached rules s mode nodes) : Prop :=
  ∃ done inner quiet, r.before = done ++ ⟨inner, .closeList⟩ :: quiet ∧ ∀ x ∈ quiet, x.act.settles = false

end Reached

section Settled

variable {i level : Nat} {bullet : Option Bullet}

/-- Text leaves a settled paragraph as it is. -/
theorem append_settled (settled : s.body.Settled i bullet level) (text : String) (mode : Mode) :
    (s.append text mode).body.Settled i bullet level := by
  have resumed : s.resume.body.Settled i bullet level := by
    unfold resume
    split
    · exact settled.startParagraph none s.level s.face.size
    · exact settled
  unfold append
  split
  · exact settled
  · exact resumed.keeps (.append _ text _ _)

theorem startItem_settled (settled : s.body.Settled i bullet level) (n : Node) (mode : Mode) :
    (s.startItem n mode).body.Settled i bullet level := by
  unfold startItem
  split
  · exact settled
  · split
    · exact settled.startParagraph none 0 s.face.size
    · dsimp only
      split
      · unfold writeTerm
        split
        · exact settled.startParagraph _ _ _
        · exact (settled.startParagraph _ _ _).keeps ((TextBody.Keeps.append _ _ _ _).trans (.append _ " " _ _))
      · exact settled.startParagraph _ _ _

/-- A list that opens in another one takes the bullet of the last paragraph if that is empty. All else leaves a
settled paragraph alone. -/
theorem perform_settled (settled : s.body.Settled i bullet level) (act : Act)
    (text : ∀ kind, act = .openList kind → bullet ≠ none → s.lists ≠ [] → s.body.paragraphs.length = i + 1 →
      s.body.current.isEmpty = false) :
    (s.perform act).2.body.Settled i bullet level := by
  cases act with
  | write written face mode =>
    exact append_settled (s := s.withFaces { s.faces with current := face }) settled written mode
  | startItem item face mode =>
    exact startItem_settled (s := s.withFaces { s.faces with current := face }) settled item mode
  | breakParagraph mode =>
    unfold perform breakParagraph
    dsimp only
    split
    · exact settled.keeps (.breakParagraph _)
    · exact settled
  | startTable mode =>
    unfold perform startTable
    dsimp only
    split
    · exact settled.keeps (.breakParagraph _)
    · exact settled
  | openList kind =>
    unfold perform openList
    dsimp only
    split
    · exact settled
    · rename_i nonempty
      rw [List.isEmpty_iff] at nonempty
      exact settled.mapCurrent_unmarked fun marked last => text kind rfl marked nonempty last
  | deferBlock n mode =>
    unfold perform deferBlock
    dsimp only
    split <;> exact settled
  | closeList | consult overlay | pause => exact settled

/-- Acts keep a paragraph settled unless a list takes its bullet. -/
theorem play_settled {acts : List Act} (settled : s.body.Settled i bullet level)
    (text : ∀ first kind rest u, acts = first ++ .openList kind :: rest → s.play first = (.completed, u) →
      bullet ≠ none → u.lists ≠ [] → u.body.paragraphs.length = i + 1 → u.body.current.isEmpty = false) :
    (s.play acts).2.body.Settled i bullet level := by
  induction acts generalizing s with
  | nil => exact settled
  | cons act rest ih =>
    have here := perform_settled settled act fun kind same => text [] kind rest s (same ▸ rfl) rfl
    rw [play]
    rcases performed : s.perform act with ⟨flow, t⟩
    rw [performed] at here
    cases flow with
    | paused => exact here
    | completed =>
      refine ih here fun first kind later u same played => ?_
      exact text (act :: first) kind later u (same ▸ rfl) (play_cons_completed.mpr ⟨t, performed, played⟩)

end Settled

/-- Where nothing is written behind a list, the text to come still goes on in a new paragraph. -/
theorem play_continuation {acts : List Act} (quiet : ∀ act ∈ acts, act.settles = false) (due : s.continuation = true)
    (played : s.play acts = (.completed, t)) : t.continuation = true := by
  induction acts generalizing s with
  | nil =>
    cases played
    exact due
  | cons act rest ih =>
    obtain ⟨here, later⟩ := List.forall_mem_cons.mp quiet
    obtain ⟨u, performed, goesOn⟩ := play_cons_completed.mp played
    refine ih later ?_ goesOn
    have still : (s.perform act).2.continuation = true := by
      cases act with
      | write text face mode =>
        have nothing : (!mode.emits || text.isEmpty) = true := by
          have unwritten : (mode.emits && !text.isEmpty) = false := here
          rw [← Bool.not_not (_ || _), Bool.not_or, Bool.not_not, unwritten, Bool.not_false]
        simp [perform, inFace, withFaces, append, nothing, due]
      | startItem item face mode =>
        have omitted : mode.emits = false := here
        simp [perform, inFace, withFaces, startItem, omitted, due]
      | breakParagraph mode | startTable mode | deferBlock n mode =>
        simp only [perform, breakParagraph, startTable, deferBlock]
        split <;> exact due
      | openList kind => cases here
      | closeList => rfl
      | consult overlay | pause => exact due
    rwa [performed] at still

namespace Reached

/-- At a point of a walk, the open lists are those that stand around it. -/
theorem lists_eq (r : Reached rules s mode nodes) (outside : s.lists = []) :
    r.state.lists = openedAt r.before r.step.within := play_openedAt outside r.split r.played

theorem level_eq (r : Reached rules s mode nodes) (outside : s.lists = []) :
    r.state.level = levelWithin r.step.within := by
  rw [Inline.level, r.lists_eq outside, openedAt_head]

/-- The walk writes what is written from the point on. -/
theorem finish (r : Reached rules s mode nodes) (goesOn : (r.state.perform r.step.act).1 = .completed) :
    (visitAll rules s mode nodes).2.body = (r.next.play (r.after.map Step.act)).2.body := by
  have here : r.state.perform r.step.act = (.completed, r.next) := Prod.ext goesOn rfl
  have whole := play_script rules s mode nodes
  rw [← trace_act, r.split, List.map_append, List.map_cons, play_append, r.played] at whole
  dsimp only at whole
  rw [play, here] at whole
  exact congrArg (fun found => found.2.body) whole.symm

/-- A paragraph that is settled behind the point stays so to the end of the walk. -/
theorem settled (r : Reached rules s mode nodes) (outside : s.lists = []) {i level : Nat} {bullet : Option Bullet}
    (goesOn : (r.state.perform r.step.act).1 = .completed) (here : r.next.body.Settled i bullet level)
    (undisturbed : bullet ≠ none → r.Undisturbed i) :
    (visitAll rules s mode nodes).2.body.Labelled i bullet level := by
  rw [r.finish goesOn]
  refine (play_settled here fun first kind rest u split played marked nonempty last => ?_).labelled
  -- the list that opens in the rest of the acts is a later point of the walk
  obtain ⟨xs, others, after, rfl, more⟩ := List.map_eq_append_iff.mp split
  obtain ⟨x, ys, rfl, opens, rfl⟩ := List.map_eq_cons_iff.mp more
  have reached : s.play ((r.before ++ r.step :: xs).map Step.act) = (.completed, u) := by
    rw [List.map_append, List.map_cons, play_append_completed]
    exact ⟨r.state, r.played, play_cons_completed.mpr ⟨r.next, Prod.ext goesOn rfl, played⟩⟩
  let later : Reached rules s mode nodes :=
    ⟨r.before ++ r.step :: xs, x, ys, u, by rw [r.split, after, List.append_assoc, List.cons_append], reached⟩
  have within : x.within ≠ [] := fun atTop => nonempty <| by
    have lists := later.lists_eq outside
    rwa [show later.step.within = [] from atTop] at lists
  exact undisturbed marked later kind ⟨xs, by simp [later]⟩ opens within last

theorem continuation (r : Reached rules s mode nodes) (follows : r.FollowsList) : r.state.continuation = true := by
  obtain ⟨done, inner, quiet, before, still⟩ := follows
  have played := r.played
  rw [before, List.map_append, List.map_cons, play_append_completed] at played
  obtain ⟨u, _, later⟩ := played
  obtain ⟨v, closed, later⟩ := play_cons_completed.mp later
  cases closed
  refine play_continuation (fun act inside => ?_) rfl later
  obtain ⟨x, atX, rfl⟩ := List.mem_map.mp inside
  exact still x atX

/-- Where no list opens later on, no bullet is taken. -/
theorem undisturbed (r : Reached rules s mode nodes) (opensNone : ∀ x ∈ r.after, ∀ kind, x.act ≠ .openList kind) (i : Nat) :
    r.Undisturbed i := by
  rintro later kind ⟨xs, before⟩ opens
  have same : r.after = xs ++ later.step :: later.after := by
    have whole := r.split.symm.trans later.split
    rw [← before] at whole
    simpa using whole
  exact absurd opens (opensNone _ (by simp [same]) kind)

end Reached

/-- An item of a list with marks starts on an empty paragraph with its mark. -/
theorem startItem_body {l : OpenList} {outer : List OpenList} (lists : s.lists = l :: outer) (n : Node)
    (emits : mode.emits = true) {mark : BulletMark} (marked : l.mark? = some mark) :
    (s.startItem n mode).body = s.body.startParagraph (some ⟨mark, mode.isHidden⟩) l.level s.face.size := by
  have other : l.kind ≠ .description := by
    intro same
    rw [OpenList.mark?, same] at marked
    cases marked
  rw [startItem, emits, lists]
  simp only [Bool.not_true, Bool.false_eq_true, if_false, marked, other, Option.map_some]

/-- Text behind a nested list starts a paragraph without a bullet. -/
theorem append_body (due : s.continuation = true) (emits : mode.emits = true) {text : String} (nonempty : text ≠ "") :
    (s.append text mode).body = (s.body.startParagraph none s.level s.face.size).append text s.face mode.isHidden := by
  have written : text.isEmpty = false := by simpa [String.isEmpty_iff] using nonempty
  simp [append, emits, written, resume, due, face]

/-- An item is numbered by the items that were written before it in the innermost list around it, and the text
that comes behind a list in it goes on without a bullet. An item of a numbered list gets the next number there,
one of a bullet list the symbol of its depth, both on an empty paragraph of this depth. The paragraph keeps them,
unless a list opens in another one while it is the last one and still empty. Text behind a list goes on in a
paragraph without bullet, of the depth of the lists around the text. Depths end at `maxLevel`. -/
theorem visitAll_bullets (outside : s.lists = []) (r : Reached rules s mode nodes) :
    (∀ l outer item face m mark, r.step = ⟨l :: outer, .startItem item face m⟩ → m.emits = true →
      l.mark? (itemsIn l r.before + 1) (levelWithin (l :: outer)) = some mark →
      ∃ i, r.next.body.StartsAt i (some ⟨mark, m.isHidden⟩) (levelWithin (l :: outer)) ∧
        (r.Undisturbed i → (visitAll rules s mode nodes).2.body.Labelled i (some ⟨mark, m.isHidden⟩)
          (levelWithin (l :: outer)))) ∧
    (∀ within text face m, r.step = ⟨within, .write text face m⟩ → m.emits = true → text ≠ "" → r.FollowsList →
      ∃ i, (r.state.body.startParagraph none (levelWithin within) face.size).StartsAt i none (levelWithin within) ∧
        r.next.body = (r.state.body.startParagraph none (levelWithin within) face.size).append text face m.isHidden ∧
        ((∃ c ∈ text.toList, c ≠ '\n' ∧ c ≠ '\r') →
          (visitAll rules s mode nodes).2.body.Labelled i none (levelWithin within))) := by
  have level := r.level_eq outside
  have lists := r.lists_eq outside
  constructor
  · intro l outer item face m mark here emits marked
    rw [here] at level lists
    have own : OpenList.mark? ⟨l.kind, itemsIn l r.before, levelWithin (l :: outer)⟩ = some mark := marked
    have body : r.next.body =
        r.state.body.startParagraph (some ⟨mark, m.isHidden⟩) (levelWithin (l :: outer)) face.size := by
      rw [Reached.next, here]
      exact startItem_body (s := r.state.withFaces { r.state.faces with current := face }) lists item emits own
    obtain ⟨i, starts⟩ := r.state.body.startParagraph_starts (some ⟨mark, m.isHidden⟩) (levelWithin (l :: outer)) face.size
    rw [← body] at starts
    exact ⟨i, starts, fun undisturbed => r.settled outside (by rw [here]; rfl) starts.settled fun _ => undisturbed⟩
  · intro within text face m here emits nonempty follows
    rw [here] at level
    have body : r.next.body =
        (r.state.body.startParagraph none (levelWithin within) face.size).append text face m.isHidden := by
      rw [Reached.next, here, ← level]
      exact append_body (s := r.state.withFaces { r.state.faces with current := face }) (r.continuation follows) emits
        nonempty
    obtain ⟨i, starts⟩ := r.state.body.startParagraph_starts none (levelWithin within) face.size
    refine ⟨i, starts, body, fun more => ?_⟩
    refine r.settled outside (by rw [here]; rfl) ?_ fun marked => absurd rfl marked
    rw [body]
    exact starts.append more face m.isHidden

/-- Two items of a numbered list, the first with a list and with text behind it. Between them are an item that is left
out and a pause. -/
def twoItems : List Node :=
  [⟨.list .numbered, .none, "", none,
    [⟨.item, .none, "", none,
        [.ofText "one", ⟨.list .bullet, .none, "", none, [⟨.item, .none, "", none, [.ofText "inner"]⟩]⟩,
          .ofText "tail"]⟩,
      ⟨.veil .only, .ofSpec "3", "", none, [⟨.item, .none, "", none, [.ofText "left out"]⟩]⟩,
      ⟨.pause, .none, "", none, []⟩, ⟨.item, .none, "", none, [.ofText "two"]⟩]⟩]

theorem visitAll_bullets_twoItems :
    ∃ (rules : InlineRules) (s : Inline), s.lists = [] ∧
      (visitAll rules s .visible twoItems).2.body.Labelled 2 none 1 ∧
      (visitAll rules s .visible twoItems).2.body.Labelled 3 (some ⟨.number 2, false⟩) 1 := by
  let rules : InlineRules := ⟨.asText, true⟩
  let s := ofFaces (.ofState ⟨2, 1⟩) default default
  let tail : Reached rules s .visible twoItems := .ofIndex 7 (by decide +kernel) (by decide +kernel)
  let second : Reached rules s .visible twoItems := .ofIndex 12 (by decide +kernel) (by decide +kernel)
  have atTail : tail.step = ⟨[⟨.numbered, [0]⟩], .write "tail" default .visible⟩ := rfl
  have atSecond : second.step =
      ⟨[⟨.numbered, [0]⟩], .startItem ⟨.item, .none, "", none, [.ofText "two"]⟩ default .visible⟩ := rfl
  refine ⟨rules, s, rfl, ?_, ?_⟩
  · have follows : tail.FollowsList :=
      ⟨(s.trace rules .visible twoItems).take 6, [⟨.bullet, [1, 0, 0]⟩, ⟨.numbered, [0]⟩], [], rfl, List.forall_mem_nil _⟩
    obtain ⟨i, starts, _, stays⟩ := (visitAll_bullets rfl tail).2 _ _ _ _ atTail rfl (by decide) follows
    have count : (tail.state.body.startParagraph none 1 (default : Face).size).paragraphs.length = 3 := by decide +kernel
    obtain rfl : i = 2 := Nat.succ.inj (starts.last.symm.trans count)
    exact stays ⟨'t', by decide, by decide⟩
  · obtain ⟨i, starts, stays⟩ := (visitAll_bullets rfl second).1 _ _ _ _ _ (.number 2) atSecond rfl (by decide +kernel)
    have count : second.next.body.paragraphs.length = 4 := by decide +kernel
    obtain rfl : i = 3 := Nat.succ.inj (starts.last.symm.trans count)
    have rest : second.after =
        [⟨[⟨.numbered, [0]⟩], .write "two" default .visible⟩, ⟨[⟨.numbered, [0]⟩], .closeList⟩] := rfl
    refine stays (second.undisturbed ?_ 3)
    rw [rest]
    exact List.forall_mem_cons.mpr ⟨nofun, List.forall_mem_singleton.mpr nofun⟩

end Inline

end Unveil
