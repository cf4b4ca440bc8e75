import Unveil.Pass.Content

namespace Unveil

/-- No node of the tree is a picture or a table. -/
def Node.isPlain (n : Node) : Prop := ∀ m ∈ n.preorder, m.kind ≠ .image ∧ m.kind ≠ .tabular

instance (n : Node) : Decidable n.isPlain := by
  unfold Node.isPlain
  infer_instance

namespace Content.Walk

/-- The walk did not fail. -/
def Succeeds (found : Except DeckError (Flow × Walk)) : Prop := ∃ flow w, found = .ok (flow, w)

theorem Succeeds.andThen {close : Walk → Walk} {found : Except DeckError (Flow × Walk)}
    (succeeds : Succeeds found) : Succeeds (andThen close found) := by
  obtain ⟨flow, w, rfl⟩ := succeeds
  cases flow with
  | completed => exact ⟨.completed, close w, rfl⟩
  | paused => exact ⟨.paused, w, rfl⟩

mutual

/-- Only pictures and tables can fail: a picture may not be found, and the columns of a table may not be read. -/
theorem visit_succeeds (c : Context) (w : Walk) (mode : Mode) :
    ∀ n : Node, n.isPlain → Succeeds (visit c w mode n)
  | ⟨kind, overlay, params, payload, children⟩ => fun plain => by
    have here :=
      plain ⟨kind, overlay, params, payload, children⟩ (by rw [Node.preorder_eq_cons]; exact .head _)
    have below (v : Walk) (inner : Mode) : Succeeds (visitAll c v inner children) := by
      refine visitAll_succeeds c v inner children fun m atM => plain m ?_
      rw [Node.preorder_eq_cons]
      exact .tail _ atM
    cases kind with
    | image => exact absurd rfl here.1
    | tabular => exact absurd rfl here.2
    | text =>
      simp only [visit]
      split <;> exact ⟨_, _, rfl⟩
    | style => exact (below _ mode).andThen
    | veil | item => exact below _ _
    | list kind => cases kind <;> exact ⟨_, _, rfl⟩
    | multiColumn | part | unrecognized => exact below w mode
    | _ => exact ⟨_, _, rfl⟩

/-- Content without pictures and tables is rendered on every pass. -/
theorem visitAll_succeeds (c : Context) (w : Walk) (mode : Mode) :
    ∀ nodes : List Node, (∀ m ∈ Node.preorderAll nodes, m.kind ≠ .image ∧ m.kind ≠ .tabular) →
      Succeeds (visitAll c w mode nodes)
  | [] => fun _ => ⟨.completed, w, rfl⟩
  | n :: rest => fun plain => by
    rw [Node.preorderAll_cons] at plain
    obtain ⟨flow, v, found⟩ := visit_succeeds c w mode n fun m atM =>
      plain m (List.mem_append_left _ atM)
    rw [visitAll, found]
    cases flow with
    | completed => exact visitAll_succeeds c v mode rest fun m atM => plain m (List.mem_append_right _ atM)
    | paused => exact ⟨.paused, v, rfl⟩

end

end Content.Walk

end Unveil
