import Unveil.Pass.Inline

namespace Unveil

namespace Mode

@[simp]
theorem max_visible (m : Mode) : m.max visible = m := by cases m <;> rfl

theorem max_emits (m n : Mode) : (m.max n).emits = (m.emits && n.emits) := by
  cases m <;> cases n <;> rfl

/-- The mode that the overlay of a node asks for on a pass. -/
def ofNode (n : Node) (pass : Nat) : Mode := if n.overlay.visible pass then visible else veiled n

/-- A gate takes the stronger of the mode around it and the node's own. -/
theorem gate_fst (m : Mode) (n : Node) (t : Tracker) : (m.gate n t).1 = m.max (ofNode n t.pass) := by
  unfold gate ofNode
  split
  · rename_i free
    have shown : n.overlay.visible t.pass = true := by
      simp only [Overlay.isUnrestricted] at free
      simp [Overlay.visible, OverlaySet.visible, free]
    simp [shown]
  · simp only [Tracker.reveal]
    cases n.overlay.visible t.pass <;> simp

/-- A gate notes the overlay of its node, if there is one. -/
theorem gate_snd (m : Mode) (n : Node) (t : Tracker) :
    (m.gate n t).2 = if n.overlay.isUnrestricted then t else t.observe n.overlay := by
  unfold gate
  split
  · rfl
  · simp only [Tracker.reveal]
    cases n.overlay.visible t.pass <;> rfl

@[simp]
theorem gate_state (m : Mode) (n : Node) (t : Tracker) : (m.gate n t).2.state = t.state := by
  rw [gate_snd]
  split <;> rfl

/-- A gate neither starts nor stops to count pauses. -/
theorem gate_ignoring (m : Mode) (n : Node) (t : Tracker) : (m.gate n t).2.ignoring = t.ignoring := by
  rw [gate_snd]
  split <;> rfl

theorem gate_reached (m : Mode) (n : Node) (t : Tracker) : (m.gate n t).2.reached = t.reached := by
  rw [gate_snd]
  split <;> rfl

end Mode

namespace Tracker

@[simp]
theorem observe_state (t : Tracker) (o : Overlay) : (t.observe o).state = t.state := rfl

@[simp]
theorem pause_state (t : Tracker) : t.pause.2.state = t.state := by
  unfold pause
  split
  · rfl
  · simp only
    split <;> rfl

end Tracker

namespace Inline

variable (s : Inline) (n : Node) (mode : Mode)

/-- Starting the paragraph that is due touches the body only. The steps of a walk write to few parts of the state;
the lemmas on them say what each leaves alone. -/
@[simp]
theorem resume_faces : s.resume.faces = s.faces := by unfold resume; split <;> rfl

@[simp]
theorem resume_tracker : s.resume.tracker = s.tracker := by unfold resume; split <;> rfl

@[simp]
theorem resume_lists : s.resume.lists = s.lists := by unfold resume; split <;> rfl

@[simp]
theorem resume_deferred : s.resume.deferred = s.deferred := by unfold resume; split <;> rfl

@[simp]
theorem resume_emitted : s.resume.emitted = s.emitted := by unfold resume; split <;> rfl

@[simp]
theorem append_faces (text : String) : (s.append text mode).faces = s.faces := by
  unfold append; split <;> simp

@[simp]
theorem append_tracker (text : String) : (s.append text mode).tracker = s.tracker := by
  unfold append; split <;> simp

@[simp]
theorem append_lists (text : String) : (s.append text mode).lists = s.lists := by
  unfold append; split <;> simp

@[simp]
theorem append_deferred (text : String) : (s.append text mode).deferred = s.deferred := by
  unfold append; split <;> simp

@[simp]
theorem writeTerm_faces (term : String) (hidden : Bool) :
    (s.writeTerm term hidden).faces = s.faces := by
  unfold writeTerm; split <;> rfl

@[simp]
theorem writeTerm_tracker (term : String) (hidden : Bool) :
    (s.writeTerm term hidden).tracker = s.tracker := by
  unfold writeTerm; split <;> rfl

@[simp]
theorem writeTerm_lists (term : String) (hidden : Bool) :
    (s.writeTerm term hidden).lists = s.lists := by
  unfold writeTerm; split <;> rfl

@[simp]
theorem writeTerm_deferred (term : String) (hidden : Bool) :
    (s.writeTerm term hidden).deferred = s.deferred := by
  unfold writeTerm; split <;> rfl

@[simp]
theorem startItem_faces : (s.startItem n mode).faces = s.faces := by
  unfold startItem
  split
  · rfl
  · split
    · rfl
    · simp only; split <;> simp

@[simp]
theorem startItem_tracker : (s.startItem n mode).tracker = s.tracker := by
  unfold startItem
  split
  · rfl
  · split
    · rfl
    · simp only; split <;> simp

@[simp]
theorem startItem_deferred : (s.startItem n mode).deferred = s.deferred := by
  unfold startItem
  split
  · rfl
  · split
    · rfl
    · simp only; split <;> simp

@[simp]
theorem breakParagraph_faces : (s.breakParagraph mode).faces = s.faces := by
  unfold breakParagraph; split <;> rfl

@[simp]
theorem breakParagraph_tracker : (s.breakParagraph mode).tracker = s.tracker := by
  unfold breakParagraph; split <;> rfl

@[simp]
theorem breakParagraph_lists : (s.breakParagraph mode).lists = s.lists := by
  unfold breakParagraph; split <;> rfl

@[simp]
theorem breakParagraph_deferred : (s.breakParagraph mode).deferred = s.deferred := by
  unfold breakParagraph; split <;> rfl

@[simp]
theorem startTable_faces : (s.startTable mode).faces = s.faces := by
  unfold startTable; split <;> rfl

@[simp]
theorem startTable_tracker : (s.startTable mode).tracker = s.tracker := by
  unfold startTable; split <;> rfl

@[simp]
theorem startTable_lists : (s.startTable mode).lists = s.lists := by
  unfold startTable; split <;> rfl

@[simp]
theorem startTable_deferred : (s.startTable mode).deferred = s.deferred := by
  unfold startTable; split <;> rfl

@[simp]
theorem deferBlock_faces : (s.deferBlock n mode).faces = s.faces := by
  unfold deferBlock; split <;> rfl

@[simp]
theorem deferBlock_tracker : (s.deferBlock n mode).tracker = s.tracker := by
  unfold deferBlock; split <;> rfl

@[simp]
theorem deferBlock_lists : (s.deferBlock n mode).lists = s.lists := by
  unfold deferBlock; split <;> rfl

@[simp]
theorem gate_tracker : (s.gate n mode).2.tracker = (mode.gate n s.tracker).2 := rfl

@[simp]
theorem gate_faces : (s.gate n mode).2.faces = s.faces := rfl

@[simp]
theorem gate_lists : (s.gate n mode).2.lists = s.lists := rfl

@[simp]
theorem gate_body : (s.gate n mode).2.body = s.body := rfl

@[simp]
theorem gate_deferred : (s.gate n mode).2.deferred = s.deferred := rfl

@[simp]
theorem meetPause_faces : s.meetPause.2.faces = s.faces := rfl

@[simp]
theorem meetPause_lists : s.meetPause.2.lists = s.lists := rfl

@[simp]
theorem openList_faces (kind : ListKind) : (s.openList kind).faces = s.faces := rfl

@[simp]
theorem openList_tracker (kind : ListKind) : (s.openList kind).tracker = s.tracker := rfl

@[simp]
theorem openList_deferred (kind : ListKind) : (s.openList kind).deferred = s.deferred := rfl

@[simp]
theorem closeList_tracker : s.closeList.tracker = s.tracker := rfl

@[simp]
theorem closeList_deferred : s.closeList.deferred = s.deferred := rfl

@[simp]
theorem closeStyle_tracker : s.closeStyle.tracker = s.tracker := rfl

@[simp]
theorem closeStyle_deferred : s.closeStyle.deferred = s.deferred := rfl

@[simp]
theorem openStyle_tracker : (s.openStyle n).tracker = s.tracker.observe n.overlay := rfl

/-- The text with another tracker and with other blocks put off. What is written depends on neither. -/
def aside (f : Tracker → Tracker) (g : List Deferred → List Deferred) (s : Inline) : Inline :=
  { s with tracker := f s.tracker, deferred := g s.deferred }

section

variable (f : Tracker → Tracker) (g : List Deferred → List Deferred)

theorem append_aside (text : String) : (s.aside f g).append text mode = (s.append text mode).aside f g := by
  unfold append
  split
  · rfl
  · unfold resume
    split <;> split <;> first | rfl | contradiction

theorem breakParagraph_aside : (s.aside f g).breakParagraph mode = (s.breakParagraph mode).aside f g := by
  unfold breakParagraph
  split <;> rfl

theorem startTable_aside : (s.aside f g).startTable mode = (s.startTable mode).aside f g := by
  unfold startTable
  split <;> split <;> first | rfl | contradiction

theorem startItem_aside : (s.aside f g).startItem n mode = (s.startItem n mode).aside f g := by
  unfold startItem
  split
  · rfl
  · rcases s with ⟨body, tracker, faces, lists, continuation, emitted, deferred⟩
    cases lists with
    | nil => rfl
    | cons l outer =>
      dsimp only [aside]
      split
      · unfold writeTerm
        split <;> rfl
      · rfl

end

theorem visitAll_singleton (rules : InlineRules) : visitAll rules s mode [n] = visit rules s mode n := by
  rw [visitAll]
  rcases visit rules s mode n with ⟨flow, t⟩
  cases flow <;> rfl

theorem visitAll_append (rules : InlineRules) (nodes more : List Node) :
    visitAll rules s mode (nodes ++ more) =
      match visitAll rules s mode nodes with
      | (.completed, t) => visitAll rules t mode more
      | paused => paused := by
  induction nodes generalizing s with
  | nil => rfl
  | cons n rest ih =>
    rw [List.cons_append, visitAll, visitAll]
    rcases visit rules s mode n with ⟨flow, t⟩
    cases flow with
    | completed => exact ih t
    | paused => rfl

end Inline

end Unveil
