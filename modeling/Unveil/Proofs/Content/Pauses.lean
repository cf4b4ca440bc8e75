import Unveil.Proofs.Content.Asks

namespace Unveil

namespace Ask

theorem pauses_append_le (first more : List Ask) :
    pauses (first ++ more) ≤ pauses first + pauses more := by
  induction first with
  | nil => exact Nat.le_of_eq (Nat.zero_add _).symm
  | cons ask rest ih =>
    cases ask <;> simp only [List.cons_append, pauses] <;> omega

theorem pauses_append {first : List Ask} (safe : fault ∉ first) (more : List Ask) :
    pauses (first ++ more) = pauses first + pauses more := by
  induction first with
  | nil => exact (Nat.zero_add _).symm
  | cons ask rest ih =>
    have others := ih (List.not_mem_of_not_mem_cons safe)
    cases ask with
    | pause | node | part => simp only [List.cons_append, pauses, others] <;> omega
    | fault => exact absurd List.mem_cons_self safe

/-- The pauses among what is asked, of which a walk that fails leaves some out. -/
structure Counts (asks : List Ask) (count : Nat) : Prop where
  le : pauses asks ≤ count
  eq : fault ∉ asks → pauses asks = count

namespace Counts

variable {asks more : List Ask} {count others : Nat}

theorem nil : Counts [] 0 := ⟨Nat.le_refl 0, fun _ => rfl⟩

theorem pause : Counts [.pause] 1 := ⟨Nat.le_refl 1, fun _ => rfl⟩

/-- A part that fails may leave out any number of pauses. -/
theorem fault : Counts [.fault] count := ⟨Nat.zero_le count, fun safe => absurd List.mem_cons_self safe⟩

theorem append (first : Counts asks count) (second : Counts more others) :
    Counts (asks ++ more) (count + others) where
  le := Nat.le_trans (pauses_append_le asks more) (Nat.add_le_add first.le second.le)
  eq safe := by
    simp only [List.mem_append, not_or] at safe
    rw [pauses_append safe.1, first.eq safe.1, second.eq safe.2]

/-- An overlay is no pause. -/
theorem node (n : Node) (below : Counts asks count) : Counts (.node n :: asks) count :=
  ⟨below.le, fun safe => below.eq (List.not_mem_of_not_mem_cons safe)⟩

theorem gate (n : Node) (below : Counts asks count) : Counts (Ask.gate n ++ asks) count := by
  unfold Ask.gate
  split
  · exact below
  · exact below.node n

end Counts

end Ask

namespace Tracker

/-- A walk that comes to its end has not failed. -/
theorem answer_completed_safe {t u : Tracker} {asks : List Ask}
    (answered : t.answer asks = some (.completed, u)) : Ask.fault ∉ asks := by
  induction asks generalizing t with
  | nil => exact List.not_mem_nil
  | cons ask rest ih =>
    cases ask with
    | pause =>
      simp only [answer] at answered
      rcases met : t.pause with ⟨flow, v⟩
      rw [met] at answered
      cases flow with
      | completed => simpa using ih answered
      | paused => cases answered
    | node | part => simpa using ih answered
    | fault => cases answered

/-- Whether a walk stops, and how many pauses it has met, read off their number. -/
theorem answer_counts {state : PassState} {asks : List Ask} {count : Nat} {flow : Flow} {u : Tracker}
    (counts : Ask.Counts asks count) (answered : (ofState state).answer asks = some (flow, u)) :
    (flow = .paused ↔ state.pauses < count) ∧ u.reached = min count (state.pauses + 1) := by
  cases flow with
  | completed =>
    obtain ⟨few, reached, _⟩ := answer_completed answered rfl (Nat.le_refl 1) (Nat.zero_le _)
    have all := counts.eq (answer_completed_safe answered)
    simp only [ofState, all, Nat.zero_add] at few reached
    refine ⟨⟨fun ends => ?_, fun many => ?_⟩, ?_⟩
    · cases ends
    · omega
    · omega
  | paused =>
    obtain ⟨many, reached, _⟩ := answer_paused answered rfl (Nat.zero_le _)
    have most := counts.le
    simp only [ofState, Nat.zero_add] at many reached
    have less : state.pauses < count := Nat.lt_of_lt_of_le many most
    exact ⟨⟨fun _ => less, fun _ => rfl⟩, by omega⟩

end Tracker

namespace Inline

mutual

/-- Pauses in a text. A block that is put off keeps its own to itself. -/
def pauseCount (rules : InlineRules) : Node → Nat
  | ⟨kind, _, _, _, children⟩ =>
    match kind with
    | .pause => 1
    | .style _ | .veil _ | .multiColumn | .item | .part _ | .unrecognized _ =>
      pauseCountAll rules children
    | .list list => if rules.defers list then 0 else pauseCountAll rules children
    | .tabular => if rules.policy = .defer then 0 else pauseCountAll rules children
    | .image | .text | .paragraph | .tableRow | .tableColumn | .titlePage | .titleField _
    | .graphicsPath | .path | .heading _ | .frameTitle | .frameSubtitle | .hline | .cline => 0

def pauseCountAll (rules : InlineRules) : List Node → Nat
  | [] => 0
  | n :: rest => pauseCount rules n + pauseCountAll rules rest

end

theorem pauseCountAll_append (rules : InlineRules) (first more : List Node) :
    pauseCountAll rules (first ++ more) = pauseCountAll rules first + pauseCountAll rules more := by
  induction first with
  | nil => exact (Nat.zero_add _).symm
  | cons n rest ih =>
    simp only [List.cons_append, pauseCountAll, ih]
    omega

mutual

/-- A text asks for its pauses. -/
theorem counts_asks (rules : InlineRules) :
    ∀ n : Node, Ask.Counts (asks rules n) (pauseCount rules n)
  | ⟨kind, overlay, params, payload, children⟩ => by
    have below := counts_asksAll rules children
    cases kind with
    | pause => exact .pause
    | style => exact below.node _
    | veil | multiColumn | item => exact below.gate _
    | list | tabular =>
      simp only [asks, pauseCount]
      split
      · exact .nil
      · exact below.gate _
    | image =>
      simp only [asks, pauseCount]
      split
      · exact .nil
      · exact Ask.Counts.nil.node _
    | part | unrecognized => exact below
    | text | paragraph | tableRow | tableColumn | titlePage | titleField | graphicsPath | path | heading
    | frameTitle | frameSubtitle | hline | cline => exact .nil

theorem counts_asksAll (rules : InlineRules) :
    ∀ nodes : List Node, Ask.Counts (asksAll rules nodes) (pauseCountAll rules nodes)
  | [] => .nil
  | n :: rest => (counts_asks rules n).append (counts_asksAll rules rest)

end

end Inline

/-- A line or the end of a column or row holds no pause. -/
theorem Node.pauseCount_of_isRuling {n : Node} (rules : InlineRules) (ruling : n.kind.isRuling = true) :
    Inline.pauseCount rules n = 0 := by
  obtain ⟨kind, overlay, params, payload, children⟩ := n
  cases kind with
  | tableColumn | tableRow | hline | cline => rfl
  | _ => cases ruling

theorem TableWalk.counts_asksAll (rules : InlineRules) (nodes : List Node) :
    Ask.Counts (asksAll rules nodes) (Inline.pauseCountAll rules nodes) := by
  induction nodes with
  | nil => exact .nil
  | cons n rest ih =>
    simp only [asksAll, List.flatMap_cons]
    refine .append ?_ ih
    unfold asks
    split
    · exact .fault
    · split
      · rename_i ruling
        rw [Node.pauseCount_of_isRuling rules ruling]
        exact .nil
      · simpa [Inline.pauseCountAll] using Inline.counts_asksAll rules [n]

theorem Node.counts_tableAsks (policy : NestedPolicy) (n : Node) :
    Ask.Counts (n.tableAsks policy) (Inline.pauseCountAll ⟨policy, false⟩ n.children) := by
  refine .gate n ?_
  split
  · exact .fault
  · split
    · exact .fault
    · exact TableWalk.counts_asksAll _ _

namespace DescriptionWalk

theorem counts_asks (rules : InlineRules) (n : Node) (entry : isEntry n = true) :
    Ask.Counts (asks rules n) (Inline.pauseCount rules n) := by
  obtain ⟨kind, overlay, params, payload, children⟩ := n
  cases kind with
  | item => exact (Inline.counts_asksAll rules children).gate _
  | pause => exact .pause
  | _ => cases entry

theorem counts_asksAll (rules : InlineRules) (nodes : List Node) :
    Ask.Counts (asksAll rules nodes) (Inline.pauseCountAll rules (nodes.filter isEntry)) := by
  induction nodes with
  | nil => exact .nil
  | cons n rest ih =>
    simp only [asksAll, List.flatMap_cons]
    cases entry : isEntry n with
    | true =>
      rw [List.filter_cons_of_pos entry]
      exact (counts_asks rules n entry).append ih
    | false =>
      rw [List.filter_cons_of_neg (by simp [entry]), asks_of_not_isEntry rules entry]
      exact ih

end DescriptionWalk

namespace TitlePage

/-- The values that a title page shows, in a row. -/
def values (p : TitlePage) : List Node := p.parts.flatMap fun part => part.1.getD []

theorem counts_asksOf (parts : List (Option (List Node) × Float32)) :
    Ask.Counts (asksOf parts)
      (Inline.pauseCountAll titleRules (parts.flatMap fun part => part.1.getD [])) := by
  induction parts with
  | nil => exact .nil
  | cons part rest ih =>
    simp only [asksOf, List.flatMap_cons] at ih ⊢
    rw [Inline.pauseCountAll_append]
    refine .append ?_ ih
    cases part.1 with
    | none => exact .nil
    | some nodes => exact Inline.counts_asksAll titleRules nodes

end TitlePage

namespace Content

mutual

/-- Pauses in the content of a slide, with the title page in force before it. A cell, an item, a
definition and a value of the title page count for what is written in them, whatever shows of it. -/
def pauseCount (policy : NestedPolicy) (p : TitlePage) : Node → Nat
  | n@⟨kind, _, _, _, children⟩ =>
    match kind with
    | .pause => 1
    | .style _ | .veil _ | .item | .multiColumn | .part _ | .unrecognized _ =>
      pauseCountAll policy p children
    | .list .description =>
      Inline.pauseCountAll ⟨policy, false⟩ (children.filter DescriptionWalk.isEntry)
    | .list _ => Inline.pauseCount ⟨policy, true⟩ n
    | .tabular => Inline.pauseCountAll ⟨policy, false⟩ children
    | .titlePage => Inline.pauseCountAll titleRules p.values
    | .image | .text | .paragraph | .titleField _ | .tableColumn | .tableRow | .hline | .cline
    | .frameTitle | .frameSubtitle | .heading _ | .graphicsPath | .path => 0

def pauseCountAll (policy : NestedPolicy) (p : TitlePage) : List Node → Nat
  | [] => 0
  | n :: rest => pauseCount policy p n + pauseCountAll policy (Walk.titled p n) rest

end

namespace Walk

mutual

/-- Content asks for its pauses; the count reads no mode, no pass and no overlay. -/
theorem counts_asks (policy : NestedPolicy) (p : TitlePage) :
    ∀ n : Node, Ask.Counts (asks policy p n) (pauseCount policy p n)
  | ⟨kind, overlay, params, payload, children⟩ => by
    have below := counts_asksAll policy p children
    cases kind with
    | pause => exact .pause
    | style => exact below.node _
    | veil | item => exact below.gate _
    | list kind =>
      cases kind with
      | description => exact .gate _ (DescriptionWalk.counts_asksAll ⟨policy, false⟩ children)
      | bullet | numbered => exact Inline.counts_asks ⟨policy, true⟩ _
    | tabular => exact Node.counts_tableAsks policy _
    | image =>
      have gated := Ask.Counts.nil.gate ⟨.image, overlay, params, payload, children⟩
      rwa [List.append_nil] at gated
    | titlePage => exact .gate _ (TitlePage.counts_asksOf p.parts)
    | multiColumn | part | unrecognized => exact below
    | text | paragraph | titleField | tableColumn | tableRow | hline | cline | frameTitle
    | frameSubtitle | heading | graphicsPath | path => exact .nil

theorem counts_asksAll (policy : NestedPolicy) (p : TitlePage) :
    ∀ nodes : List Node, Ask.Counts (asksAll policy p nodes) (pauseCountAll policy p nodes)
  | [] => .nil
  | n :: rest => (counts_asks policy p n).append (counts_asksAll policy (titled p n) rest)

end

/-- The number of pauses is a matter of the nodes and the title page alone: whatever the pass, the pauses
that it lets through and the modes that the nodes start in, the walk stops when some are left and has met
all of them up to the first one that it does not let through. -/
theorem run_paused_iff_lt_pauseCount (c : Context) (p : TitlePage) (nodes : List Node)
    (state : PassState) (flow : ShapeFlow) {pending : List Deferred}
    (moded : pending.map Deferred.node = nodes) {ended : Flow} {w : Walk}
    (ran : (start c (.ofState state) p flow).run c pending = .ok (ended, w)) :
    (ended = .paused ↔ state.pauses < pauseCountAll c.policy p nodes) ∧
      w.tracker.reached = min (pauseCountAll c.policy p nodes) (state.pauses + 1) := by
  have answered := (run_answers ran).1
  rw [moded] at answered
  exact Tracker.answer_counts (counts_asksAll c.policy p nodes) answered

/-- A pause in content for the third pass only, one in the definition of an omitted description list and
one in a cell. -/
def pausedThrice : List Deferred :=
  [⟨⟨.veil .only, .ofSpec "3", "", none, [.ofText "a", ⟨.pause, .none, "", none, []⟩]⟩, .visible⟩,
    ⟨⟨.list .description, .none, "", none,
      [⟨.item, .none, "b", none, [⟨.pause, .none, "", none, []⟩]⟩]⟩, .omitted⟩,
    ⟨⟨.tabular, .none, "c", none, [⟨.pause, .none, "", none, []⟩]⟩, .hidden⟩]

theorem run_paused_iff_lt_pauseCount_pausedThrice :
    ∃ w : Walk,
      (start ⟨.standard, fun name => .error (.imageNotFound name []), .zero⟩
        (.ofState ⟨2, 1⟩) .empty default).run
        ⟨.standard, fun name => .error (.imageNotFound name []), .zero⟩ pausedThrice =
          .ok (.paused, w) ∧
      pauseCountAll (.ofSettings .standard) .empty (pausedThrice.map Deferred.node) = 3 ∧
      1 < 3 ∧ w.tracker.reached = min 3 (1 + 1) := by
  refine ⟨_, rfl, rfl, ?_⟩
  have counted := run_paused_iff_lt_pauseCount
    ⟨.standard, fun name => .error (.imageNotFound name []), .zero⟩ .empty
    (pausedThrice.map Deferred.node) ⟨2, 1⟩ default rfl rfl
  exact ⟨counted.1.mp rfl, counted.2⟩

end Walk

end Content

end Unveil
