import Unveil.Proofs.Inline.Frame

namespace Unveil

namespace OpenList

/-- The innermost list with more items counted. -/
def countOn (items : Nat) : List OpenList → List OpenList
  | [] => []
  | l :: outer => { l with count := l.count + items } :: outer

@[simp]
theorem countOn_zero (lists : List OpenList) : countOn 0 lists = lists := by
  cases lists <;> rfl

theorem countOn_countOn (items more : Nat) (lists : List OpenList) :
    countOn more (countOn items lists) = countOn (items + more) lists := by
  cases lists with
  | nil => rfl
  | cons l outer => simp only [countOn, Nat.add_assoc]

end OpenList

namespace Inline

/-- The kind of the innermost open list. -/
def listKind? (s : Inline) : Option ListKind := s.lists.head?.map OpenList.kind

/-- What a walk gives back as it found it: the faces, and of the open lists all but the innermost one, which has
counted the items that the walk met in it. -/
structure Restored (s t : Inline) : Prop where
  faces : t.faces = s.faces
  state : t.tracker.state = s.tracker.state
  lists : ∃ items, t.lists = OpenList.countOn items s.lists

theorem Restored.refl (s : Inline) : Restored s s := ⟨rfl, rfl, 0, by simp⟩

theorem Restored.trans {s t u : Inline} (first : Restored s t) (second : Restored t u) :
    Restored s u := by
  obtain ⟨items, atT⟩ := first.lists
  obtain ⟨more, atU⟩ := second.lists
  refine ⟨second.faces.trans first.faces, second.state.trans first.state, items + more, ?_⟩
  rw [atU, atT, OpenList.countOn_countOn]

/-- A step that touches neither faces nor lists gives them back. -/
theorem Restored.of_eq {s t : Inline} (faces : t.faces = s.faces)
    (state : t.tracker.state = s.tracker.state) (lists : t.lists = s.lists) : Restored s t :=
  ⟨faces, state, 0, by simp [lists]⟩

theorem Restored.append (s : Inline) (text : String) (mode : Mode) : Restored s (s.append text mode) :=
  .of_eq (by simp) (by simp) (by simp)

theorem Restored.breakParagraph (s : Inline) (mode : Mode) : Restored s (s.breakParagraph mode) :=
  .of_eq (by simp) (by simp) (by simp)

theorem Restored.deferBlock (s : Inline) (n : Node) (mode : Mode) : Restored s (s.deferBlock n mode) :=
  .of_eq (by simp) (by simp) (by simp)

theorem Restored.startTable (s : Inline) (mode : Mode) : Restored s (s.startTable mode) :=
  .of_eq (by simp) (by simp) (by simp)

theorem Restored.gate (s : Inline) (n : Node) (mode : Mode) : Restored s (s.gate n mode).2 :=
  .of_eq (by simp) (by simp) (by simp)

/-- An item counts in the list in which it stands. -/
theorem Restored.startItem (s : Inline) (n : Node) (mode : Mode) : Restored s (s.startItem n mode) := by
  refine ⟨by simp, by simp, ?_⟩
  unfold Inline.startItem
  split
  · exact ⟨0, by simp⟩
  · cases atLists : s.lists with
    | nil => exact ⟨0, by simp⟩
    | cons l outer =>
      refine ⟨1, ?_⟩
      simp only
      split <;> simp [OpenList.countOn]

/-- The scope of a style ends with its subtree. -/
theorem Restored.ofStyle {s t : Inline} {n : Node} (inside : Restored (s.openStyle n) t) :
    Restored s t.closeStyle := by
  refine ⟨?_, by simpa [closeStyle] using inside.state, ?_⟩
  · have entered := inside.faces
    simp only [closeStyle, openStyle] at entered ⊢
    rw [entered, FaceStack.leave_enter]
  · simpa [closeStyle, openStyle] using inside.lists

/-- The scope of a list ends with its subtree. -/
theorem Restored.ofList {s t : Inline} {kind : ListKind} (inside : Restored (s.openList kind) t) :
    Restored s t.closeList := by
  obtain ⟨items, atT⟩ := inside.lists
  refine ⟨by simpa [closeList] using inside.faces, by simpa [closeList] using inside.state, 0, ?_⟩
  rw [OpenList.countOn_zero]
  simp only [closeList, atT, openList, OpenList.countOn, List.tail_cons]

theorem Restored.listKind? {s t : Inline} (restored : Restored s t) : t.listKind? = s.listKind? := by
  obtain ⟨items, lists⟩ := restored.lists
  rw [Inline.listKind?, lists, Inline.listKind?]
  cases s.lists <;> rfl

/-- What a completed walk satisfies; a walk that a pause has ended may leave scopes open. -/
def Ends (P : Inline → Prop) (found : Flow × Inline) : Prop := found.1 = .completed → P found.2

theorem Ends.andThen {P Q : Inline → Prop} {close : Inline → Inline} {found : Flow × Inline}
    (ends : Ends P found) (closed : ∀ t, P t → Q (close t)) : Ends Q (andThen close found) := by
  obtain ⟨flow, t⟩ := found
  cases flow with
  | completed => exact fun _ => closed t (ends rfl)
  | paused => exact fun completed => nomatch completed

theorem Ends.mono {P Q : Inline → Prop} {found : Flow × Inline} (ends : Ends P found)
    (weaker : ∀ t, P t → Q t) : Ends Q found :=
  fun completed => weaker _ (ends completed)

mutual

/-- A node whose walk is completed leaves no scope open. -/
theorem visit_restored (rules : InlineRules) (s : Inline) (mode : Mode) :
    ∀ n : Node, Ends (Restored s) (visit rules s mode n)
  | ⟨kind, overlay, params, payload, children⟩ => by
    have below (t : Inline) (inner : Mode) (before : Restored s t) :
        Ends (Restored s) (visitAll rules t inner children) :=
      (visitAll_restored rules t inner children).mono fun _ => before.trans
    cases kind with
    | text => exact fun _ => .append s _ mode
    | paragraph | tableRow => exact fun _ => .breakParagraph s mode
    | tableColumn => exact fun _ => .append s " " mode
    | pause => exact fun _ => .of_eq rfl (by simp [visit, meetPause]) rfl
    | style command =>
      simp only [visit]
      exact (visitAll_restored rules _ mode children).andThen fun _ => .ofStyle
    | veil | multiColumn =>
      simp only [visit]
      exact below _ _ (.gate s _ mode)
    | list kind =>
      simp only [visit]
      split
      · exact fun _ => .deferBlock s _ mode
      · exact (visitAll_restored rules _ _ children).andThen fun _ inside =>
          (Restored.gate s _ mode).trans inside.ofList
    | item =>
      simp only [visit]
      exact below _ _ ((Restored.gate s _ mode).trans (.startItem _ _ _))
    | tabular =>
      simp only [visit]
      split
      · exact fun _ => .deferBlock s _ mode
      · exact below _ _ ((Restored.gate s _ mode).trans (.startTable _ _))
    | image =>
      simp only [visit]
      split
      · exact fun _ => .deferBlock s _ mode
      · exact fun _ => .of_eq rfl (by simp) rfl
    | titlePage =>
      simp only [visit]
      split
      · exact fun _ => .deferBlock s _ mode
      · exact fun _ => .refl s
    | part | unrecognized =>
      simp only [visit]
      exact below _ _ (.refl s)
    | titleField | graphicsPath | path | heading | frameTitle | frameSubtitle | hline | cline =>
      exact fun _ => .refl s

theorem visitAll_restored (rules : InlineRules) (s : Inline) (mode : Mode) :
    ∀ nodes : List Node, Ends (Restored s) (visitAll rules s mode nodes)
  | [] => fun _ => .refl s
  | n :: rest => by
    have first := visit_restored rules s mode n
    rw [visitAll]
    rcases found : visit rules s mode n with ⟨flow, t⟩
    rw [found] at first
    cases flow with
    | completed => exact (visitAll_restored rules t mode rest).mono fun _ => (first rfl).trans
    | paused => exact fun completed => nomatch completed

end

end Inline

end Unveil
