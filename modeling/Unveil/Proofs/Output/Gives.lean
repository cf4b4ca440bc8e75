import Unveil.Output.Call

namespace Unveil.Calls

variable {σ α β : Type}

/-- No call of the series is refused: it ends with `a`, and leaves the receiver as `t`. -/
def Gives (calls : Calls σ α) (s : σ) (a : α) (t : σ) : Prop :=
  @Eq (Except DeckError α × σ) (calls.run s) (.ok a, t)

theorem gives_pure {a b : α} {s t : σ} : Gives (pure a) s b t ↔ a = b ∧ s = t := by
  change ((Except.ok a, s) : Except DeckError α × σ) = (.ok b, t) ↔ _
  simp

/-- Calls in a row are accepted if all of them are. -/
theorem gives_bind {calls : Calls σ α} {next : α → Calls σ β} {s u : σ} {b : β} :
    Gives (calls >>= next) s b u ↔ ∃ a t, Gives calls s a t ∧ Gives (next a) t b u := by
  have run : (calls >>= next).run s =
      match calls.run s with
      | (.ok a, t) => (next a).run t
      | (.error error, t) => (.error error, t) := by
    change (ExceptT.bindCont next (calls.run s).1).run (calls.run s).2 = _
    rcases calls.run s with ⟨_ | a, t⟩ <;> rfl
  rw [Gives, run]
  simp only [Gives]
  rcases calls.run s with ⟨error | a, t⟩
  · simp
  · simp only [Prod.mk.injEq, Except.ok.injEq]
    exact ⟨fun later => ⟨a, t, ⟨rfl, rfl⟩, later⟩, fun ⟨_, _, ⟨rfl, rfl⟩, later⟩ => later⟩

/-- A series of calls has one end. -/
theorem Gives.unique {calls : Calls σ α} {s t u : σ} {a b : α} (one : Gives calls s a t)
    (other : Gives calls s b u) : a = b ∧ t = u := by
  have same := one.symm.trans other
  exact ⟨Except.ok.inj (Prod.mk.inj same).1, (Prod.mk.inj same).2⟩

theorem gives_make {sink : Sink σ} {call : Call} {s t : σ} {id : Option Nat} :
    Gives (make sink call) s id t ↔ sink s call = (.ok id, t) := Iff.rfl

theorem gives_tell {sink : Sink σ} {call : Call} {s t : σ} :
    Gives (tell sink call) s () t ↔ ∃ id, sink s call = (.ok id, t) := by
  rw [tell, gives_bind]
  simp only [gives_make, gives_pure, true_and]
  exact ⟨fun ⟨id, _, accepted, same⟩ => ⟨id, same ▸ accepted⟩,
    fun ⟨id, accepted⟩ => ⟨id, t, accepted, rfl⟩⟩

theorem gives_handle {sink : Sink σ} {call : Call} {s t : σ} {id : Nat} :
    Gives (handle sink call) s id t ↔ ∃ made, sink s call = (.ok made, t) ∧ made.getD 0 = id := by
  rw [handle, gives_bind]
  simp only [gives_make, gives_pure]
  exact ⟨fun ⟨made, _, accepted, same, rfl⟩ => ⟨made, accepted, same⟩,
    fun ⟨made, accepted, same⟩ => ⟨made, t, accepted, same, rfl⟩⟩

variable {f : β → Calls σ Unit}

theorem gives_forEach_nil {s t : σ} : Gives (forEach f []) s () t ↔ s = t := by
  rw [forEach, gives_pure]
  exact ⟨And.right, fun same => ⟨rfl, same⟩⟩

theorem gives_forEach_cons {b : β} {rest : List β} {s u : σ} :
    Gives (forEach f (b :: rest)) s () u ↔ ∃ t, Gives (f b) s () t ∧ Gives (forEach f rest) t () u := by
  rw [forEach, gives_bind]
  exact ⟨fun ⟨_, t, here, later⟩ => ⟨t, here, later⟩, fun ⟨t, here, later⟩ => ⟨(), t, here, later⟩⟩

theorem gives_forEach_append {bs more : List β} {s u : σ} :
    Gives (forEach f (bs ++ more)) s () u ↔
      ∃ t, Gives (forEach f bs) s () t ∧ Gives (forEach f more) t () u := by
  induction bs generalizing s with
  | nil => simp [gives_forEach_nil]
  | cons b rest ih =>
    simp only [List.cons_append, gives_forEach_cons, ih]
    exact ⟨fun ⟨t, here, v, later, ended⟩ => ⟨v, ⟨t, here, later⟩, ended⟩,
      fun ⟨v, ⟨t, here, later⟩, ended⟩ => ⟨t, here, v, later, ended⟩⟩

/-- What was accepted for all entries was accepted for each of them. -/
theorem Gives.of_forEach {bs : List β} {s t : σ} (given : Gives (forEach f bs) s () t) :
    ∀ b ∈ bs, ∃ u v, Gives (f b) u () v := by
  induction bs generalizing s with
  | nil => exact nofun
  | cons b rest ih =>
    obtain ⟨u, here, later⟩ := gives_forEach_cons.mp given
    exact List.forall_mem_cons.mpr ⟨⟨s, u, here⟩, ih later⟩

/-- What every entry keeps is kept by all of them. -/
theorem Gives.forEach_keeps {kept : σ → Prop} {bs : List β}
    (step : ∀ b ∈ bs, ∀ s t, kept s → Gives (f b) s () t → kept t) {s t : σ} (before : kept s)
    (given : Gives (forEach f bs) s () t) : kept t := by
  induction bs generalizing s with
  | nil => exact gives_forEach_nil.mp given ▸ before
  | cons b rest ih =>
    obtain ⟨u, here, later⟩ := gives_forEach_cons.mp given
    exact ih (fun b' inRest => step b' (.tail _ inRest)) (step b (.head _) s u before here) later

theorem gives_inSlide {index : Nat} {calls : Calls σ α} {s t : σ} {a : α} :
    Gives (inSlide index calls) s a t ↔ Gives calls s a t := by
  simp only [Gives, inSlide, ExceptT.run_mk]
  rcases calls.run s with ⟨_ | b, u⟩ <;> simp

end Unveil.Calls
