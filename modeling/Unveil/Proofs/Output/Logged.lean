import Unveil.Proofs.Output.Gives
import Unveil.Proofs.Output.Strokes

namespace Unveil

/-- A receiver that answers as another one and keeps every call made to it. -/
def Sink.logged {σ : Type} (sink : Sink σ) : Sink (σ × List Call) := fun (s, calls) call =>
  let (answer, s) := sink s call
  (answer, s, calls ++ [call])

/-- Takes every call and makes nothing that has a handle. -/
def Sink.accepting : Sink Unit := fun s _ => (.ok none, s)

namespace Calls

variable {σ β : Type} {sink : Sink σ} {call : Call} {s t : σ × List Call}

theorem Gives.make_logged {id : Option Nat} (given : Gives (make sink.logged call) s id t) : t.2 = s.2 ++ [call] :=
  (congrArg (fun answered => answered.2.2) (gives_make.mp given)).symm

theorem Gives.tell_logged (given : Gives (tell sink.logged call) s () t) : t.2 = s.2 ++ [call] := by
  obtain ⟨_, accepted⟩ := gives_tell.mp given
  exact Gives.make_logged (gives_make.mpr accepted)

theorem Gives.handle_logged {id : Nat} (given : Gives (handle sink.logged call) s id t) : t.2 = s.2 ++ [call] := by
  obtain ⟨_, accepted, _⟩ := gives_handle.mp given
  exact Gives.make_logged (gives_make.mpr accepted)

theorem Gives.forEach_logged {asked : β → Call} {bs : List β}
    (given : Gives (forEach (fun b => tell sink.logged (asked b)) bs) s () t) : t.2 = s.2 ++ bs.map asked := by
  induction bs generalizing s with
  | nil => simp [gives_forEach_nil.mp given]
  | cons b rest ih =>
    obtain ⟨u, here, later⟩ := gives_forEach_cons.mp given
    rw [ih later, here.tell_logged, List.append_assoc, List.map_cons, List.singleton_append]

theorem gives_forEach_accepting (asked : β → Call) (bs : List β) (calls : List Call) :
    Gives (forEach (fun b => tell Sink.accepting.logged (asked b)) bs) ((), calls) () ((), calls ++ bs.map asked) := by
  induction bs generalizing calls with
  | nil => exact gives_forEach_nil.mpr (by rw [List.map_nil, List.append_nil])
  | cons b rest ih =>
    have later := ih (calls ++ [asked b])
    rw [List.append_assoc, List.singleton_append] at later
    exact gives_forEach_cons.mpr ⟨((), calls ++ [asked b]), rfl, later⟩

end Calls

open Calls

namespace Grid

variable {σ : Type} {sink : Sink σ}

/-- What is asked for to make a table that gets a handle. -/
def calls (g : Grid) (slide : Nat) (bounds : Rect) (hidden : Bool) (table : Nat) : List Call :=
  .table slide g.declaredRows g.columns.length bounds hidden ::
    (g.columns.zipIdx.map (fun (column, col) => Call.columnWidth table col column.width) ++
      g.strokes.map (Stroke.call table) ++
      if g.rowCount < g.declaredRows then [.keepRows table g.rowCount] else [])

/-- A table is handed over as one list of calls, whatever the receiver answers. -/
theorem emit_logged {g : Grid} {slide : Nat} {bounds : Rect} {hidden : Bool} {s t : σ × List Call} {table : Nat}
    (given : Gives (g.emit sink.logged slide bounds hidden) s table t) :
    t.2 = s.2 ++ g.calls slide bounds hidden table := by
  rw [emit_eq] at given
  simp only [gives_bind] at given
  obtain ⟨made, u, new, _, v, widths, _, w, drawn, rest⟩ := given
  have before : w.2 = s.2 ++ (.table slide g.declaredRows g.columns.length bounds hidden ::
      (g.columns.zipIdx.map (fun (column, col) => Call.columnWidth made col column.width) ++
        g.strokes.map (Stroke.call made))) := by
    rw [Gives.forEach_logged drawn, Gives.forEach_logged widths, new.handle_logged, List.append_assoc,
      List.append_assoc, List.singleton_append]
  unfold calls
  split at rest
  · rename_i cut
    obtain ⟨_, x, keep, ended⟩ := gives_bind.mp rest
    obtain ⟨rfl, rfl⟩ := gives_pure.mp ended
    rw [keep.tell_logged, before, if_pos cut, List.append_assoc, List.cons_append]
  · rename_i whole
    obtain ⟨rfl, rfl⟩ := gives_pure.mp rest
    rw [before, if_neg whole, List.append_nil]

/-- The receiver that takes every call gets the calls of a table in order. -/
theorem emit_accepting (g : Grid) (slide : Nat) (bounds : Rect) (hidden : Bool) :
    Gives (g.emit Sink.accepting.logged slide bounds hidden) ((), []) 0 ((), g.calls slide bounds hidden 0) := by
  rw [emit_eq]
  simp only [gives_bind]
  refine ⟨0, ((), [_]), rfl, (), _, gives_forEach_accepting _ _ _, (), _, gives_forEach_accepting _ _ _, ?_⟩
  unfold calls
  split
  · exact gives_bind.mpr ⟨(), _, rfl, gives_pure.mpr ⟨rfl, by simp⟩⟩
  · exact gives_pure.mpr ⟨rfl, by simp⟩

end Grid

end Unveil
