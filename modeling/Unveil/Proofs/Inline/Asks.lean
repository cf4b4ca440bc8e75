import Unveil.Proofs.Ask

namespace Unveil.Inline

mutual

/-- What a node with its subtree asks, in the order of the walk. The list depends on the nodes and on the rules
for blocks only. -/
def asks (rules : InlineRules) : Node → List Ask
  | n@⟨kind, _, _, _, children⟩ =>
    match kind with
    | .pause => [.pause]
    | .style _ => .node n :: asksAll rules children
    | .veil _ | .multiColumn | .item => Ask.gate n ++ asksAll rules children
    | .list list => if rules.defers list then [] else Ask.gate n ++ asksAll rules children
    | .tabular => if rules.policy = .defer then [] else Ask.gate n ++ asksAll rules children
    | .image => if rules.policy = .defer then [] else [.node n]
    | .part _ | .unrecognized _ => asksAll rules children
    | .text | .paragraph | .tableRow | .tableColumn | .titlePage | .titleField _ | .graphicsPath
    | .path | .heading _ | .frameTitle | .frameSubtitle | .hline | .cline => []

def asksAll (rules : InlineRules) : List Node → List Ask
  | [] => []
  | n :: rest => asks rules n ++ asksAll rules rest

end

/-- How a walk ended and the tracker that it leaves. -/
def verdict (found : Flow × Inline) : Flow × Tracker := (found.1, found.2.tracker)

/-- Closing a scope asks nothing. -/
theorem verdict_andThen {close : Inline → Inline} (quiet : ∀ s, (close s).tracker = s.tracker)
    (found : Flow × Inline) : verdict (andThen close found) = verdict found := by
  obtain ⟨flow, s⟩ := found
  cases flow with
  | completed => simp only [verdict, andThen, quiet]
  | paused => rfl

mutual

/-- A node asks the same whether it shows, is hidden or is left out, in whatever face and list it stands, and the
tracker's answers end its walk. -/
theorem answer_asks (rules : InlineRules) (s : Inline) (mode : Mode) :
    ∀ n : Node, s.tracker.answer (asks rules n) = some (verdict (visit rules s mode n))
  | ⟨kind, overlay, params, payload, children⟩ => by
    have quiet (t : Inline) (same : t.tracker = s.tracker) :
        s.tracker.answer [] = some (verdict (.completed, t)) := by rw [verdict, same]; rfl
    cases kind with
    | text | paragraph | tableRow | tableColumn => exact quiet _ (by simp)
    | titleField | graphicsPath | path | heading | frameTitle | frameSubtitle | hline | cline => rfl
    | titlePage =>
      simp only [asks, visit]
      split
      · exact quiet _ (by simp)
      · rfl
    | pause => exact s.tracker.answer_pause
    | style command =>
      simp only [asks, visit]
      rw [verdict_andThen closeStyle_tracker]
      exact answer_asksAll rules (s.openStyle _) mode children
    | veil | multiColumn =>
      simp only [asks, visit]
      rw [Tracker.answer_gate_append _ mode]
      exact answer_asksAll rules (s.gate _ mode).2 _ children
    | item =>
      simp only [asks, visit]
      rw [Tracker.answer_gate_append _ mode, ← gate_tracker, ← startItem_tracker]
      exact answer_asksAll rules _ _ children
    | list kind =>
      simp only [asks, visit]
      split
      · exact quiet _ (by simp)
      · rw [verdict_andThen closeList_tracker, Tracker.answer_gate_append _ mode]
        exact answer_asksAll rules ((s.gate _ mode).2.openList kind) _ children
    | tabular =>
      simp only [asks, visit]
      split
      · exact quiet _ (by simp)
      · rw [Tracker.answer_gate_append _ mode, ← gate_tracker, ← startTable_tracker]
        exact answer_asksAll rules _ _ children
    | image =>
      simp only [asks, visit]
      split
      · exact quiet _ (by simp)
      · rfl
    | part | unrecognized =>
      simp only [asks, visit]
      exact answer_asksAll rules s mode children

theorem answer_asksAll (rules : InlineRules) (s : Inline) (mode : Mode) :
    ∀ nodes : List Node,
      s.tracker.answer (asksAll rules nodes) = some (verdict (visitAll rules s mode nodes))
  | [] => rfl
  | n :: rest => by
    rw [asksAll, Tracker.answer_append, answer_asks rules s mode n, visitAll]
    rcases visit rules s mode n with ⟨flow, t⟩
    cases flow with
    | completed => exact answer_asksAll rules t mode rest
    | paused => rfl

end

/-- Where blocks become text, no list and no table is put off. -/
theorem defers_asText {rules : InlineRules} (asText : rules.policy = .asText) (kind : ListKind) :
    rules.defers kind = false := by
  simp [InlineRules.defers, asText]

/-- Closing a scope puts nothing off. -/
theorem andThen_deferred {close : Inline → Inline} (quiet : ∀ s, (close s).deferred = s.deferred)
    (found : Flow × Inline) : (andThen close found).2.deferred = found.2.deferred := by
  obtain ⟨flow, s⟩ := found
  cases flow with
  | completed => exact quiet s
  | paused => rfl

mutual

/-- Where blocks become text, nothing is put off. -/
theorem visit_deferred {rules : InlineRules} (asText : rules.policy = .asText) (s : Inline)
    (mode : Mode) :
    ∀ n : Node, (visit rules s mode n).2.deferred = s.deferred
  | ⟨kind, overlay, params, payload, children⟩ => by
    have below (t : Inline) (inner : Mode) (same : t.deferred = s.deferred) :
        (visitAll rules t inner children).2.deferred = s.deferred :=
      (visitAll_deferred asText t inner children).trans same
    cases kind with
    | text | paragraph | tableRow | tableColumn => simp [visit]
    | titleField | graphicsPath | path | heading | frameTitle | frameSubtitle | hline | cline => rfl
    | titlePage | image => simp [visit, asText]
    | pause => rfl
    | style command =>
      simp only [visit]
      rw [andThen_deferred closeStyle_deferred]
      exact below _ _ rfl
    | veil | multiColumn => exact below _ _ rfl
    | item => exact below _ _ (by simp)
    | list kind =>
      simp only [visit, defers_asText asText, Bool.false_eq_true, if_false]
      rw [andThen_deferred closeList_deferred]
      exact below _ _ rfl
    | tabular =>
      simp only [visit, asText, reduceCtorEq, if_false]
      exact below _ _ (by simp)
    | part | unrecognized => exact below _ _ rfl

theorem visitAll_deferred {rules : InlineRules} (asText : rules.policy = .asText) (s : Inline)
    (mode : Mode) : ∀ nodes : List Node, (visitAll rules s mode nodes).2.deferred = s.deferred
  | [] => rfl
  | n :: rest => by
    have first := visit_deferred asText s mode n
    rw [visitAll]
    rcases found : visit rules s mode n with ⟨flow, t⟩
    rw [found] at first
    cases flow with
    | completed => exact (visitAll_deferred asText t mode rest).trans first
    | paused => exact first

end

end Unveil.Inline
