import Unveil.Proofs.Table.Shape
import Unveil.Slide

namespace Unveil

/-- Where an error in the content of a slide comes from: the columns of a table, an image that is not found, or a
difference below zero. -/
inductive Cause (findImage : ImageFinder) : DeckError → Prop
  | columns (fault : ColumnFault) : Cause findImage (.columns fault)
  | aborted : Cause findImage .aborted
  | image {name : String} {error : DeckError} (missing : findImage name = .error error) : Cause findImage error

theorem Cause.of_columns {α : Type} {read : Except ColumnFault α} {findImage : ImageFinder} {error : DeckError}
    (failed : read.mapError DeckError.columns = .error error) : Cause findImage error := by
  cases read with
  | error fault =>
    obtain rfl := Except.error.inj failed
    exact .columns fault
  | ok _ => cases failed

theorem Cause.of_difference {a b : Nat} {findImage : ImageFinder} {error : DeckError}
    (failed : difference a b = .error error) : Cause findImage error := by
  unfold difference at failed
  split at failed
  · cases failed
  · cases failed
    exact .aborted

namespace TableWalk

variable {findImage : ImageFinder} {t : TableWalk} {rules : InlineRules} {mode : Mode} {lastCol : Nat}
  {error : DeckError}

theorem spanCell_cause {n : Node} {col : Nat} (failed : t.spanCell n col lastCol = .error error) :
    Cause findImage error := by
  rcases bind_eq_error failed with counted | ⟨_, _, failed⟩
  · exact .of_difference counted
  · rcases bind_eq_error failed with read | ⟨_, _, failed⟩
    · exact .of_columns read
    · rcases bind_eq_error failed with counted | ⟨_, _, made⟩
      · exact .of_difference counted
      · cases made

theorem partialLine_cause {n : Node} {row : Nat} (failed : n.partialLine row lastCol = .error error) :
    Cause findImage error := by
  by_cases zero : n.NamesZero
  · rw [Node.partialLine_of_namesZero zero] at failed
    cases failed
    exact .aborted
  · rw [Node.partialLine_of_not zero] at failed
    cases failed

theorem step_cause {n : Node} (failed : t.step rules mode lastCol n = .error error) : Cause findImage error := by
  unfold step at failed
  split at failed
  case h_4 => exact partialLine_cause (map_eq_error_iff.mp failed)
  case h_5 => exact spanCell_cause (map_eq_error_iff.mp failed)
  all_goals cases failed

theorem steps_cause {nodes : List Node} (failed : t.steps rules mode lastCol nodes = .error error) :
    Cause findImage error := by
  induction nodes generalizing t with
  | nil => cases failed
  | cons n rest ih =>
    rw [steps] at failed
    rcases found : t.step rules mode lastCol n with failure | ⟨_ | _, u⟩
    · rw [found] at failed
      exact step_cause (found.trans (congrArg Except.error (Except.error.inj failed)))
    · rw [found] at failed
      exact ih failed
    · rw [found] at failed
      cases failed

end TableWalk

theorem Node.renderTable_cause {findImage : ImageFinder} {n : Node} {c : Context} {tracker : Tracker}
    {faces : FaceStack} {mode : Mode} {error : DeckError}
    (failed : n.renderTable c tracker faces mode = .error error) : Cause findImage error := by
  rcases bind_eq_error failed with read | ⟨plan, _, failed⟩
  · exact .of_columns read
  · split at failed
    · obtain rfl := Except.error.inj failed
      exact .columns _
    · rcases bind_eq_error failed with counted | ⟨_, _, failed⟩
      · exact .of_difference counted
      · rcases bind_eq_error failed with walked | ⟨_, _, made⟩
        · exact TableWalk.steps_cause walked
        · cases made

namespace Content.Walk

variable {c : Context} {mode : Mode} {error : DeckError}

theorem image_cause {w : Walk} {n : Node} (failed : w.image c n mode = .error error) : Cause c.findImage error := by
  unfold image at failed
  dsimp only at failed
  split at failed
  · rcases bind_eq_error failed with missing | ⟨_, _, made⟩
    · exact .image missing
    · cases made
  · cases failed

theorem andThen_eq_error_iff {close : Walk → Walk} {found : Except DeckError (Flow × Walk)} :
    andThen close found = .error error ↔ found = .error error := by
  rcases found with _ | ⟨_ | _, _⟩ <;> simp [andThen]

mutual

/-- A walk fails over one of these. -/
theorem visit_cause (w : Walk) (mode : Mode) :
    ∀ n : Node, visit c w mode n = .error error → Cause c.findImage error
  | ⟨kind, overlay, params, payload, children⟩ => fun failed => by
    cases kind with
    | text =>
      simp only [visit] at failed
      split at failed <;> cases failed
    | style => exact visitAll_cause _ mode children (andThen_eq_error_iff.mp failed)
    | veil | item => exact visitAll_cause _ _ children failed
    | list kind => cases kind <;> cases failed
    | tabular => exact Node.renderTable_cause (map_eq_error_iff.mp failed)
    | image => exact image_cause (map_eq_error_iff.mp failed)
    | multiColumn | part | unrecognized => exact visitAll_cause w mode children failed
    | paragraph | pause | titlePage | titleField | tableColumn | tableRow | hline | cline | frameTitle
    | frameSubtitle | heading | graphicsPath | path => cases failed

theorem visitAll_cause (w : Walk) (mode : Mode) :
    ∀ nodes : List Node, visitAll c w mode nodes = .error error → Cause c.findImage error
  | [] => nofun
  | n :: rest => fun failed => by
    rw [visitAll] at failed
    rcases found : visit c w mode n with failure | ⟨_ | _, v⟩
    · rw [found] at failed
      exact visit_cause w mode n (found.trans failed)
    · rw [found] at failed
      exact visitAll_cause v mode rest failed
    · rw [found] at failed
      cases failed

end

theorem run_cause {w : Walk} {nodes : List Deferred} (failed : w.run c nodes = .error error) :
    Cause c.findImage error := by
  have inside := map_eq_error_iff.mp failed
  clear failed
  induction nodes generalizing w with
  | nil => cases inside
  | cons d rest ih =>
    rw [visitEach] at inside
    rcases found : visit c w d.mode d.node with failure | ⟨_ | _, v⟩
    · rw [found] at inside
      exact visit_cause w d.mode d.node (found.trans inside)
    · rw [found] at inside
      exact ih inside
    · rw [found] at inside
      cases inside

end Content.Walk

namespace SlideJob

variable {j : SlideJob} {settings : Settings} {findImage : ImageFinder} {error : DeckError}

theorem placeDeferred_cause {c : Context} {state : PassState} {rounds maxPass : Nat} {flow : ShapeFlow}
    {pending : List Deferred} (failed : j.placeDeferred c state rounds flow pending maxPass = .error error) :
    Cause c.findImage error := by
  induction rounds generalizing flow pending maxPass with
  | zero => cases failed
  | succ rounds ih =>
    rw [placeDeferred] at failed
    split at failed
    · cases failed
    · rcases bind_eq_error failed with ran | ⟨_, _, later⟩
      · exact Content.Walk.run_cause ran
      · exact ih later

theorem render_cause {state : PassState} (failed : j.render settings findImage state = .error error) :
    Cause findImage error := by
  rcases bind_eq_error failed with ran | ⟨_, _, failed⟩
  · exact Content.Walk.run_cause (c := j.context settings findImage) ran
  · rcases bind_eq_error failed with placed | ⟨_, _, made⟩
    · exact placeDeferred_cause (c := j.context settings findImage) placed
    · cases made

/-- The passes of a slide end early over their content, or at the limit. -/
theorem passesFrom_error (state : PassState) (maxPass : Nat)
    (failed : j.passesFrom settings findImage state maxPass = .error error) :
    Cause findImage error ∨ error = .passLimit j.index settings.maxPasses := by
  fun_induction j.passesFrom settings findImage state maxPass with
  | case1 _ _ _ rendered => exact .inl (render_cause (rendered.trans (congrArg Except.error (Except.error.inj failed))))
  | case2 => cases failed
  | case3 => exact .inr (Except.error.inj failed).symm
  | case4 _ _ _ _ _ _ _ _ later => exact later (map_eq_error_iff.mp failed)

/-- A slide that cannot be rendered. -/
theorem compose_error (failed : j.compose settings findImage = .error error) :
    Cause findImage error ∨ error = .passLimit j.index settings.maxPasses :=
  passesFrom_error .first 1 (map_eq_error_iff.mp failed)

end SlideJob

end Unveil
