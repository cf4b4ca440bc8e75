import Unveil.Proofs.Inline.Scope
import Unveil.Proofs.Omitted.Husk
import Unveil.Proofs.Reveal.Chars

namespace Unveil

namespace Tracker

/-- The tracker with another number of passes asked for. -/
def withBound (t : Tracker) (bound : Nat) : Tracker := { t with maxPass := bound }

theorem pause_withBound (t : Tracker) (bound : Nat) :
    ∃ other, (t.withBound bound).pause = (t.pause.1, t.pause.2.withBound other) := by
  unfold pause withBound
  dsimp only
  split
  · exact ⟨bound, rfl⟩
  · split
    · exact ⟨_, rfl⟩
    · exact ⟨bound, rfl⟩

/-- A pause that is let through asks for no pass. -/
theorem pause_withBound_completed {t u : Tracker} (through : t.pause = (.completed, u)) (bound : Nat) :
    (t.withBound bound).pause = (.completed, u.withBound bound) := by
  unfold pause withBound at *
  dsimp only at *
  split at through
  · rename_i ignores
    cases through
    rw [if_pos ignores]
  · rename_i counts
    rw [if_neg counts]
    split at through
    · cases through
    · rename_i early
      cases through
      rw [if_neg early]

/-- Of all that is asked before a walk is completed, the pauses alone are answered in the same way. -/
theorem answer_pauses {t u : Tracker} {asks : List Ask} (answered : t.answer asks = some (.completed, u))
    (bound : Nat) :
    (t.withBound bound).answer (List.replicate (Ask.pauses asks) .pause) = some (.completed, u.withBound bound) := by
  induction asks generalizing t with
  | nil =>
    cases answered
    rfl
  | cons ask rest ih =>
    cases ask with
    | pause =>
      rw [answer] at answered
      rcases met : t.pause with ⟨flow, v⟩
      rw [met] at answered
      cases flow with
      | completed =>
        rw [Ask.pauses, List.replicate_succ, answer, pause_withBound_completed met]
        exact ih answered
      | paused => cases answered
    | node n =>
      have later := ih (show (t.observe n.overlay).answer rest = some (.completed, u) from answered)
      exact later
    | part overlay =>
      have later := ih (show (t.observe overlay).answer rest = some (.completed, u) from answered)
      exact later
    | fault => cases answered

end Tracker

/-- What a list that opens in a list makes of the paragraph in which it does. -/
def Paragraph.unmarked (p : Paragraph) : Paragraph := if p.isEmpty then { p with bullet := none } else p

theorem Paragraph.unmarked_unmarked (p : Paragraph) : p.unmarked.unmarked = p.unmarked := by
  by_cases empty : p.isEmpty
  · have gone : p.unmarked = { p with bullet := none } := if_pos empty
    rw [gone]
    exact if_pos empty
  · have kept : p.unmarked = p := if_neg empty
    rw [kept, kept]

namespace TextBody

theorem mapLast_cons (f : Paragraph → Paragraph) (p : Paragraph) {rest : List Paragraph} (nonempty : rest ≠ []) :
    mapLast f (p :: rest) = p :: mapLast f rest := by
  cases rest with
  | nil => exact absurd rfl nonempty
  | cons => rfl

/-- A change of the last paragraph that changes nothing when it is made again. -/
theorem mapLast_mapLast {f : Paragraph → Paragraph} (again : ∀ p, f (f p) = f p) (ps : List Paragraph) :
    mapLast f (mapLast f ps) = mapLast f ps := by
  induction ps with
  | nil => rfl
  | cons p rest ih =>
    cases rest with
    | nil => exact congrArg (fun q => [q]) (again p)
    | cons second others =>
      have nonempty : second :: others ≠ [] := List.cons_ne_nil _ _
      rw [mapLast_cons f p nonempty, mapLast_cons f p (mapLast_ne_nil f nonempty), ih]

theorem mapCurrent_mapCurrent {f : Paragraph → Paragraph} (again : ∀ p, f (f p) = f p) (b : TextBody) :
    (b.mapCurrent f).mapCurrent f = b.mapCurrent f := by
  have whole {ps : List Paragraph} (nonempty : ps ≠ []) : writable ⟨ps⟩ = ps := by
    cases ps with
    | nil => exact absurd rfl nonempty
    | cons => rfl
  rw [mapCurrent, mapCurrent, whole (mapLast_ne_nil f b.writable_ne_nil), mapLast_mapLast again]

end TextBody

namespace Inline

mutual

/-- `true` for content with a list that is not put off. -/
def opensList (rules : InlineRules) : Node → Bool
  | ⟨kind, _, _, _, children⟩ =>
    match kind with
    | .list list => !rules.defers list
    | .tabular => rules.policy ≠ .defer && opensListAny rules children
    | .style _ | .veil _ | .multiColumn | .item | .part _ | .unrecognized _ => opensListAny rules children
    | .text | .paragraph | .pause | .image | .tableRow | .tableColumn | .titlePage | .titleField _ | .graphicsPath
    | .path | .heading _ | .frameTitle | .frameSubtitle | .hline | .cline => false

def opensListAny (rules : InlineRules) : List Node → Bool
  | [] => false
  | n :: rest => opensList rules n || opensListAny rules rest

end

mutual

/-- Without lists nothing but pauses and overlays is left. -/
theorem husk_bare {rules : InlineRules} : ∀ n : Node, opensList rules n = false → Node.areBare (husk rules n) = true
  | ⟨kind, overlay, params, payload, children⟩ => fun listless => by
    have below : ∀ listless, Node.areBare (huskAll rules children) = true := huskAll_bare children
    cases kind with
    | list kind =>
      have putOff : rules.defers kind = true := by simpa only [opensList, Bool.not_eq_false'] using listless
      simp only [husk, putOff, if_true, Node.areBare]
    | tabular =>
      simp only [husk]
      split
      · rfl
      · rename_i walks
        simp only [opensList, decide_eq_true walks, Bool.true_and] at listless
        exact Bool.and_eq_true_iff.mpr ⟨below listless, rfl⟩
    | image =>
      simp only [husk]
      split <;> rfl
    | style | veil | multiColumn | item => exact Bool.and_eq_true_iff.mpr ⟨below listless, rfl⟩
    | part | unrecognized => exact below listless
    | _ => rfl

theorem huskAll_bare {rules : InlineRules} :
    ∀ nodes : List Node, opensListAny rules nodes = false → Node.areBare (huskAll rules nodes) = true
  | [], _ => rfl
  | n :: rest, listless => by
    obtain ⟨first, others⟩ := Bool.or_eq_false_iff.mp listless
    rw [huskAll, Node.areBare_append, husk_bare n first, huskAll_bare rest others]
    rfl

end

/-- What an omitted walk leaves if it comes to its end, with or without lists. A list that is opened in a list
takes the bullet of a paragraph that is still empty, and text behind a list goes on in a paragraph of its own. -/
structure Omitted (lists : Bool) (s t : Inline) : Prop where
  rest : t = { s with tracker := t.tracker, body := t.body, continuation := t.continuation }
  body : t.body = s.body ∨ lists = true ∧ t.body = s.body.mapCurrent Paragraph.unmarked
  continuation : lists = false → t.continuation = s.continuation

namespace Omitted

variable {s t u : Inline} {lists more : Bool}

theorem of_tracker (s : Inline) (lists : Bool) (tracker : Tracker) : Omitted lists s { s with tracker } :=
  ⟨rfl, .inl rfl, fun _ => rfl⟩

theorem trans (first : Omitted lists s t) (second : Omitted more t u) : Omitted (lists || more) s u := by
  refine ⟨?_, ?_, fun listless => ?_⟩
  · rw [second.rest, first.rest]
  · rcases first.body with same | ⟨opens, taken⟩
    · rcases second.body with same' | ⟨open', taken'⟩
      · exact .inl (same'.trans same)
      · exact .inr ⟨by rw [open', Bool.or_true], by rw [taken', same]⟩
    · refine .inr ⟨by rw [opens, Bool.true_or], ?_⟩
      rcases second.body with same' | ⟨_, taken'⟩
      · rw [same', taken]
      · rw [taken', taken, TextBody.mapCurrent_mapCurrent Paragraph.unmarked_unmarked]
  · obtain ⟨one, other⟩ := Bool.or_eq_false_iff.mp listless
    exact (second.continuation other).trans (first.continuation one)

theorem ofStyle {n : Node} (inside : Omitted lists (s.openStyle n) t) : Omitted lists s t.closeStyle := by
  refine ⟨?_, inside.body, inside.continuation⟩
  rw [inside.rest]
  rfl

theorem ofList {kind : ListKind} (inside : Omitted lists (s.openList kind) t) : Omitted true s t.closeList := by
  refine ⟨?_, ?_, nofun⟩
  · rw [inside.rest]
    rfl
  · have opened : (s.openList kind).body = s.body ∨ (s.openList kind).body = s.body.mapCurrent Paragraph.unmarked := by
      unfold openList
      dsimp only
      split
      · exact .inl rfl
      · exact .inr rfl
    rcases opened with same | taken
    · exact inside.body.imp (·.trans same) fun later => ⟨rfl, later.2.trans (by rw [same])⟩
    · refine .inr ⟨rfl, ?_⟩
      rcases inside.body with still | ⟨_, again⟩
      · exact still.trans taken
      · rw [closeList, again, taken, TextBody.mapCurrent_mapCurrent Paragraph.unmarked_unmarked]

theorem note (s : Inline) (overlay : Overlay) {t : Inline} (inside : Omitted lists (s.note overlay) t) :
    Omitted lists s t :=
  ⟨inside.rest, inside.body, inside.continuation⟩

end Omitted

mutual

/-- An omitted walk that comes to its end writes nothing and leaves no scope open. -/
theorem visit_ends_omitted (rules : InlineRules) (s : Inline) :
    ∀ n : Node, Ends (Omitted (opensList rules n) s) (visit rules s .omitted n)
  | ⟨kind, overlay, params, payload, children⟩ => by
    have below := visitAll_ends_omitted rules (s.note overlay) children
    have noted := below.mono fun _ => Omitted.note s overlay
    cases kind with
    | text | paragraph | tableRow | tableColumn | titleField | graphicsPath | path | heading | frameTitle
    | frameSubtitle | hline | cline => exact fun _ => .of_tracker s false s.tracker
    | titlePage =>
      simp only [visit, deferBlock]
      split <;> exact fun _ => .of_tracker s false s.tracker
    | pause => exact fun _ => .of_tracker s false _
    | style command =>
      simp only [visit]
      exact (visitAll_ends_omitted rules _ children).andThen fun _ => .ofStyle
    | veil | multiColumn =>
      simp only [visit, gate_omitted]
      exact noted
    | item =>
      simp only [visit, gate_omitted]
      exact noted
    | list kind =>
      simp only [visit, opensList, gate_omitted]
      split
      · exact fun _ => .of_tracker s _ s.tracker
      · rename_i walks
        rw [Bool.eq_false_iff.mpr walks]
        exact (visitAll_ends_omitted rules _ children).andThen fun _ inside => inside.ofList.note s overlay
    | tabular =>
      simp only [visit, opensList, gate_omitted]
      split
      · exact fun _ => .of_tracker s _ s.tracker
      · rename_i walks
        rw [decide_eq_true walks, Bool.true_and]
        exact noted
    | image =>
      simp only [visit]
      split
      · exact fun _ => .of_tracker s _ s.tracker
      · exact fun _ => .of_tracker s _ _
    | part | unrecognized => exact visitAll_ends_omitted rules s children

/-- Omitted siblings leave the traces of their lists. -/
theorem visitAll_ends_omitted (rules : InlineRules) (s : Inline) :
    ∀ nodes : List Node, Ends (Omitted (opensListAny rules nodes) s) (visitAll rules s .omitted nodes)
  | [] => fun _ => .of_tracker s false s.tracker
  | n :: rest => by
    have first := visit_ends_omitted rules s n
    rw [visitAll]
    rcases found : visit rules s .omitted n with ⟨flow, t⟩
    rw [found] at first
    cases flow with
    | completed => exact (visitAll_ends_omitted rules t rest).mono fun _ => (first rfl).trans
    | paused => exact fun completed => nomatch completed

end

/-- The text with another number of passes asked for. -/
abbrev withBound (s : Inline) (bound : Nat) : Inline := s.aside (·.withBound bound) id

section

variable (s : Inline) (n : Node) (mode : Mode) (bound : Nat)

theorem deferBlock_withBound : (s.withBound bound).deferBlock n mode = (s.deferBlock n mode).withBound bound := by
  unfold deferBlock
  split <;> rfl

theorem gate_withBound :
    ∃ other, (s.withBound bound).gate n mode = ((s.gate n mode).1, (s.gate n mode).2.withBound other) := by
  rw [gate_eq, gate_eq, Mode.gate_fst, Mode.gate_fst]
  unfold note Tracker.note
  split
  · exact ⟨bound, rfl⟩
  · exact ⟨_, rfl⟩

theorem meetPause_withBound :
    ∃ other, (s.withBound bound).meetPause = Prod.map id (withBound · other) s.meetPause := by
  obtain ⟨other, met⟩ := s.tracker.pause_withBound bound
  have same : (s.withBound bound).tracker = s.tracker.withBound bound := rfl
  refine ⟨other, ?_⟩
  rw [meetPause, same, met]
  rfl

theorem closeStyle_withBound : (s.withBound bound).closeStyle = s.closeStyle.withBound bound := rfl

theorem closeList_withBound : (s.withBound bound).closeList = s.closeList.withBound bound := rfl

end

theorem andThen_withBound {close : Inline → Inline}
    (closes : ∀ t bound, close (withBound t bound) = (close t).withBound bound) (bound : Nat) (found : Flow × Inline) :
    andThen close (Prod.map id (withBound · bound) found) = Prod.map id (withBound · bound) (andThen close found) := by
  obtain ⟨flow, t⟩ := found
  cases flow with
  | completed => exact congrArg (Flow.completed, ·) (closes t bound)
  | paused => rfl

mutual

/-- How many passes were asked for does not change what is written. -/
theorem visit_withBound (rules : InlineRules) (s : Inline) (mode : Mode) (bound : Nat) :
    ∀ n : Node, ∃ other, visit rules (s.withBound bound) mode n = Prod.map id (withBound · other) (visit rules s mode n)
  | ⟨kind, overlay, params, payload, children⟩ => by
    have step {t u : Inline} (same : t = u.withBound bound) : ∃ other,
        ((.completed, t) : Flow × Inline) = Prod.map id (withBound · other) (.completed, u) :=
      ⟨bound, congrArg (Flow.completed, ·) same⟩
    have put := deferBlock_withBound s ⟨kind, overlay, params, payload, children⟩ mode bound
    obtain ⟨noted, gated⟩ := gate_withBound s ⟨kind, overlay, params, payload, children⟩ mode bound
    cases kind with
    | text | tableColumn => exact step (append_aside ..)
    | paragraph | tableRow => exact step (breakParagraph_aside ..)
    | titleField | graphicsPath | path | heading | frameTitle | frameSubtitle | hline | cline => exact ⟨bound, rfl⟩
    | pause =>
      obtain ⟨other, met⟩ := meetPause_withBound s bound
      exact ⟨other, met⟩
    | style command =>
      obtain ⟨other, inside⟩ := visitAll_withBound rules
        (s.openStyle ⟨.style command, overlay, params, payload, children⟩) mode (max bound overlay.maxBound) children
      refine ⟨other, ?_⟩
      simp only [visit]
      rw [← andThen_withBound closeStyle_withBound, ← inside]
      rfl
    | veil | multiColumn =>
      simp only [visit]
      rw [gated]
      exact visitAll_withBound rules _ _ noted children
    | item =>
      simp only [visit]
      rw [gated]
      dsimp only
      rw [startItem_aside]
      exact visitAll_withBound rules _ _ noted children
    | list kind =>
      simp only [visit]
      split
      · exact step put
      · rw [gated]
        obtain ⟨other, inside⟩ := visitAll_withBound rules
          ((s.gate ⟨.list kind, overlay, params, payload, children⟩ mode).2.openList kind)
          (s.gate ⟨.list kind, overlay, params, payload, children⟩ mode).1 noted children
        exact ⟨other, (congrArg (andThen closeList) inside).trans (andThen_withBound closeList_withBound other _)⟩
    | tabular =>
      simp only [visit]
      split
      · exact step put
      · rw [gated]
        dsimp only
        rw [startTable_aside]
        exact visitAll_withBound rules _ _ noted children
    | image =>
      simp only [visit]
      split
      · exact step put
      · exact ⟨_, rfl⟩
    | titlePage =>
      simp only [visit]
      split
      · exact step put
      · exact ⟨bound, rfl⟩
    | part | unrecognized => exact visitAll_withBound rules s mode bound children

theorem visitAll_withBound (rules : InlineRules) (s : Inline) (mode : Mode) (bound : Nat) :
    ∀ nodes : List Node,
      ∃ other, visitAll rules (s.withBound bound) mode nodes =
        Prod.map id (withBound · other) (visitAll rules s mode nodes)
  | [] => ⟨bound, rfl⟩
  | n :: rest => by
    obtain ⟨other, first⟩ := visit_withBound rules s mode bound n
    rw [visitAll, visitAll, first]
    rcases visit rules s mode n with ⟨flow, t⟩
    cases flow with
    | completed => exact visitAll_withBound rules t mode other rest
    | paused => exact ⟨other, rfl⟩

end

/-- The pauses among what is asked, as nodes. -/
def pauses (rules : InlineRules) (nodes : List Node) : List Node :=
  List.replicate (Ask.pauses (asksAll rules nodes)) ⟨.pause, .none, "", none, []⟩

theorem visitAll_replicate_pause (rules : InlineRules) (s : Inline) (mode : Mode) {k : Nat} {tracker : Tracker}
    (answered : s.tracker.answer (List.replicate k .pause) = some (.completed, tracker)) :
    visitAll rules s mode (List.replicate k ⟨.pause, .none, "", none, []⟩) = (.completed, { s with tracker }) := by
  induction k generalizing s with
  | zero =>
    cases answered
    rfl
  | succ k ih =>
    rw [List.replicate_succ, Tracker.answer] at answered
    rcases met : s.tracker.pause with ⟨flow, t⟩
    have paused : s.meetPause = (flow, { s with tracker := t }) := by rw [meetPause, met]
    rw [met] at answered
    rw [List.replicate_succ, visitAll, visit, paused]
    cases flow with
    | completed => exact ih { s with tracker := t } answered
    | paused => cases answered

/-- A later walk, into the same body or into one of its own. -/
structure Later where
  body? : Option TextBody
  mode : Mode
  nodes : List Node

/-- How later walks end, and the bodies that they write. -/
def written (rules : InlineRules) (s : Inline) : List Later → List (Flow × TextBody)
  | [] => []
  | l :: rest =>
    let (flow, t) := visitAll rules { s with body := l.body?.getD s.body } l.mode l.nodes
    (flow, t.body) :: written rules t rest

theorem written_withBound (rules : InlineRules) (s : Inline) (bound : Nat) (later : List Later) :
    written rules (s.withBound bound) later = written rules s later := by
  induction later generalizing s bound with
  | nil => rfl
  | cons l rest ih =>
    obtain ⟨other, same⟩ := visitAll_withBound rules { s with body := l.body?.getD s.body } l.mode bound l.nodes
    have walked : visitAll rules { s.withBound bound with body := l.body?.getD (s.withBound bound).body } l.mode
        l.nodes = Prod.map id (withBound · other) (visitAll rules { s with body := l.body?.getD s.body } l.mode l.nodes) := same
    rw [written, written, walked]
    exact congrArg (_ :: ·) (ih _ other)

/-- An omitted walk that comes to its end puts nothing off and writes nothing; a list in it may only take the
bullet of a paragraph that is still empty. It is as good as its husk, and without lists it is as good as its
pauses: it leaves the body as it was, and all that is written later is the same. -/
theorem visitAll_omitted {rules : InlineRules} {s t : Inline} {nodes : List Node}
    (completed : visitAll rules s .omitted nodes = (.completed, t)) :
    t.deferred = s.deferred ∧ t.emitted = s.emitted ∧
      (t.body = s.body ∨ opensListAny rules nodes = true ∧ t.body = s.body.mapCurrent Paragraph.unmarked) ∧
      (∀ mode, visitAll rules s mode (huskAll rules nodes) = (.completed, t)) ∧
      (opensListAny rules nodes = false → ∀ mode, ∃ u, visitAll rules s mode (pauses rules nodes) = (.completed, u) ∧
        t.body = s.body ∧ u.body = s.body ∧ ∀ later, written rules t later = written rules u later) := by
  have ends := visitAll_ends_omitted rules s nodes
  rw [completed] at ends
  have left : Omitted (opensListAny rules nodes) s t := ends rfl
  have deferred : t.deferred = s.deferred := by rw [left.rest]
  have emitted : t.emitted = s.emitted := by rw [left.rest]
  refine ⟨deferred, emitted, left.body, fun mode => (visitAll_huskAll rules s mode nodes).trans completed, ?_⟩
  intro listless mode
  have body : t.body = s.body := left.body.resolve_right fun lists => Bool.false_ne_true (listless.symm.trans lists.1)
  have same : t = { s with tracker := t.tracker } := by
    conv => lhs; rw [left.rest, body, left.continuation listless]
  have asked := answer_asksAll rules s .omitted nodes
  rw [completed] at asked
  have paused := visitAll_replicate_pause rules s mode (Tracker.answer_pauses asked s.tracker.maxPass)
  refine ⟨_, paused, body, rfl, fun later => ?_⟩
  rw [same]
  exact (written_withBound rules _ s.tracker.maxPass later).symm

/-- A walk that lets one pause through and has written a letter. -/
def afterLetter : Inline := (ofFaces (.ofState ⟨2, 1⟩) (.ofBase 11) (.ofSize 11)).append "a" .visible

/-- Bold text with a pause in it, for the third pass. -/
def pausedText : List Node :=
  [⟨.style .bold, .ofSpec "3", "", none, [.ofText "x", ⟨.pause, .none, "", none, []⟩]⟩, .ofText "y"]

/-- Text behind omitted text goes on in the same paragraph. -/
theorem visitAll_omitted_pausedText :
    ∃ t u, visitAll ⟨.asText, true⟩ afterLetter .omitted pausedText = (.completed, t) ∧
      visitAll ⟨.asText, true⟩ afterLetter .visible (pauses ⟨.asText, true⟩ pausedText) = (.completed, u) ∧
      t.body = afterLetter.body ∧ t.deferred = [] ∧
      written ⟨.asText, true⟩ t [⟨none, .visible, [.ofText "b"]⟩] =
        written ⟨.asText, true⟩ u [⟨none, .visible, [.ofText "b"]⟩] ∧
      (written ⟨.asText, true⟩ t [⟨none, .visible, [.ofText "b"]⟩]).map (·.2.plainText) = ["ab"] := by
  have completed : visitAll ⟨.asText, true⟩ afterLetter .omitted pausedText =
      (.completed, (visitAll ⟨.asText, true⟩ afterLetter .omitted pausedText).2) :=
    Prod.ext (by decide +kernel) rfl
  obtain ⟨deferred, _, _, _, same⟩ := visitAll_omitted completed
  obtain ⟨u, paused, body, _, later⟩ := same (by decide) .visible
  exact ⟨_, u, completed, paused, body, deferred, later _, by decide +kernel⟩

/-- A list of one item. -/
def oneItem : Node := ⟨.list .bullet, .none, "", none, [⟨.item, .none, "", none, [.ofText "x"]⟩]⟩

/-- An item of a list in which nothing is written yet. -/
def inItem : Inline := ((ofFaces default (.ofBase 11) (.ofSize 11)).openList .bullet).startItem default .visible

/-- An omitted list takes the bullet of an item that is still empty, and text behind it goes on in a paragraph of
its own. -/
theorem visitAll_omitted_takesBullet :
    (∃ t, visitAll ⟨.asText, true⟩ inItem .omitted [oneItem] = (.completed, t) ∧
      inItem.body.paragraphs.map Paragraph.bullet = [some ⟨.symbol '•', false⟩] ∧
      t.body.paragraphs.map Paragraph.bullet = [none]) ∧
    ∃ t, visitAll ⟨.asText, true⟩ afterLetter .omitted [oneItem] = (.completed, t) ∧
      pauses ⟨.asText, true⟩ [oneItem] = [] ∧
      (written ⟨.asText, true⟩ t [⟨none, .visible, [.ofText "b"]⟩]).map (·.2.plainText) = ["a\nb"] ∧
      (written ⟨.asText, true⟩ afterLetter [⟨none, .visible, [.ofText "b"]⟩]).map (·.2.plainText) = ["ab"] :=
  ⟨⟨_, Prod.ext (by decide +kernel) rfl, by decide +kernel, by decide +kernel⟩,
    _, Prod.ext (by decide +kernel) rfl, rfl, by decide +kernel, by decide +kernel⟩

end Inline

end Unveil
