import Mathlib.Data.List.Forall2
import Unveil.Proofs.Flow.Calls
import Unveil.Proofs.Reveal.Chars

namespace Unveil

/-- The characters of a run, each with its face and with whether it is hidden. -/
def Run.styled (r : Run) : List (Char × Face × Bool) := r.text.toList.map fun c => (c, r.face, r.hidden)

def TextBody.styled (b : TextBody) : List (Char × Face × Bool) := b.runs.flatMap Run.styled

/-- A text that is cut loses no character. -/
theorem TextBody.splitAt_styled (b : TextBody) (pos : TextPos) :
    (b.splitAt pos).1.styled ++ (b.splitAt pos).2.styled = b.styled :=
  splitAt_flatMap (fun r before after cut => by simp [Run.styled, ← cut]) b pos

namespace Shape

mutual

/-- The shape without its place and without the places of its members. -/
def unplaced : Shape → Shape
  | single bounds content hidden => single { bounds with left := 0.0, top := 0.0 } content hidden
  | group bounds members hidden =>
    group { bounds with left := 0.0, top := 0.0 } (unplacedAll members) hidden

def unplacedAll : List Shape → List Shape
  | [] => []
  | s :: rest => unplaced s :: unplacedAll rest

end

mutual

/-- Moving a shape changes its place only. -/
theorem move_unplaced (dx dy : Float32) : ∀ s : Shape, (s.move dx dy).unplaced = s.unplaced
  | single _ _ _ => rfl
  | group _ members _ => by simp only [move, unplaced, Rect.move, moveAll_unplaced dx dy members]

theorem moveAll_unplaced (dx dy : Float32) :
    ∀ shapes : List Shape, unplacedAll (moveAll dx dy shapes) = unplacedAll shapes
  | [] => rfl
  | s :: rest => by simp only [moveAll, unplacedAll, move_unplaced dx dy s, moveAll_unplaced dx dy rest]

end

/-- The shape `t` is `s` at another place: moved as a whole, and otherwise unchanged. -/
structure Moved (s t : Shape) : Prop where
  unplaced : t.unplaced = s.unplaced
  steps : ∃ steps : List (Float32 × Float32), t = steps.foldl (fun u offset => u.move offset.1 offset.2) s

theorem Moved.refl (s : Shape) : Moved s s := ⟨rfl, [], rfl⟩

theorem Moved.trans {s t u : Shape} (first : Moved s t) (second : Moved t u) : Moved s u := by
  obtain ⟨steps, atT⟩ := first.steps
  obtain ⟨more, atU⟩ := second.steps
  exact ⟨second.unplaced.trans first.unplaced, steps ++ more, by rw [atU, atT, List.foldl_append]⟩

theorem Moved.moveTo (s : Shape) (left top : Float32) : Moved s (s.moveTo left top) :=
  ⟨move_unplaced _ _ s, [(left - s.bounds.left, top - s.bounds.top)], rfl⟩

@[simp]
theorem unplaced_body? (s : Shape) : s.unplaced.body? = s.body? := by
  cases s with
  | single bounds content => cases content <;> rfl
  | group => rfl

theorem Moved.body? {s t : Shape} (moved : Moved s t) : t.body? = s.body? := by
  rw [← unplaced_body?, moved.unplaced, unplaced_body?]

@[simp]
theorem fitHeight_body? (s : Shape) : s.fitHeight.body? = s.body? := by
  unfold fitHeight
  split <;> rfl

@[simp]
theorem withBounds_body? (bounds : Rect) (s : Shape) : (s.withBounds bounds).body? = s.body? := by
  cases s with
  | single _ content => cases content <;> rfl
  | group => rfl

/-- What a pushed shape becomes: a text becomes one text or two, any other shape is moved. -/
inductive Becomes (s : Shape) : List Shape → Prop
  | moved {t : Shape} : s.body? = none → Moved s t → Becomes s [t]
  | text {t : Shape} {body placed : TextBody} : s.body? = some body → t.body? = some placed →
      placed.styled = body.styled → Becomes s [t]
  | cut {t u : Shape} {body head tail : TextBody} : s.body? = some body → t.body? = some head →
      u.body? = some tail → head.styled ++ tail.styled = body.styled → Becomes s [t, u]

variable {s t : Shape} {body : TextBody}

/-- A text stays a text with the same characters. -/
theorem Becomes.of_body? (text : s.body? = some body) (same : t.body? = some body) : s.Becomes [t] :=
  .text text same rfl

theorem Becomes.of_moved (moved : Moved s t) : s.Becomes [t] := by
  cases text : s.body? with
  | none => exact .moved text moved
  | some body => exact .of_body? text (moved.body?.trans text)

theorem Becomes.trans {parts : List Shape} (first : s.Becomes [t]) (second : t.Becomes parts) :
    s.Becomes parts := by
  cases first with
  | moved other moved =>
    have nonePending : t.body? = none := moved.body?.trans other
    cases second with
    | moved _ again => exact .moved other (moved.trans again)
    | text text | cut text => cases nonePending.symm.trans text
  | text text placed same =>
    cases second with
    | moved other => cases other.symm.trans placed
    | text again atOnce kept =>
      cases Option.some.inj (placed.symm.trans again)
      exact .text text atOnce (kept.trans same)
    | cut again head tail kept =>
      cases Option.some.inj (placed.symm.trans again)
      exact .cut text head tail (kept.trans same)

end Shape

namespace ShapeFlow

@[simp]
theorem narrowed_body? (s : Shape) (width : Float32) : (narrowed s width).body? = s.body? := by
  simp [narrowed]

theorem textAt_body? (left top width : Float32) (body : TextBody) :
    (textAt left top width body).body? = some body := rfl

theorem withBody_body? {s : Shape} {old : TextBody} (text : s.body? = some old) (body : TextBody) :
    (withBody body s).body? = some body := by
  cases s with
  | single => rfl
  | group => cases text

/-- Two shapes in a row become what they become one after the other. -/
def Arranged (first second : Shape) (shapes : List Shape) : Prop :=
  ∃ before after, shapes = before ++ after ∧ first.Becomes before ∧ second.Becomes after

theorem arranged_stay (first second : Shape) : Arranged first second [first, second] :=
  ⟨[first], [second], rfl, .of_moved (.refl first), .of_moved (.refl second)⟩

/-- A text may be cut in front of its last line, for the float to stand beside that line. -/
theorem textThenFloat_arranged (area : Rect) {text : Shape} {body : TextBody} (atText : text.body? = some body)
    (float : Shape) : Arranged text float (textThenFloat area text body float) := by
  unfold textThenFloat
  simp only
  split
  · exact arranged_stay text float
  · rename_i last _
    split
    · exact arranged_stay text float
    · split
      · refine ⟨[_, _], [_], rfl, ?_, .of_moved (.moveTo float _ _)⟩
        exact .cut atText (withBody_body? atText _) (textAt_body? _ _ _ _) (body.splitAt_styled last.start)
      · exact ⟨[_], [_], rfl, .of_body? atText (by simp [atText]), .of_moved (.moveTo float _ _)⟩

theorem floatThenFloat_arranged (area : Rect) (first second : Shape) :
    Arranged first second (floatThenFloat area first second) := by
  unfold floatThenFloat
  split
  · exact ⟨[first], [_], rfl, .of_moved (.refl first), .of_moved (.moveTo second _ _)⟩
  · exact arranged_stay first second

/-- A text may be cut below the float that it starts beside. -/
theorem floatThenText_arranged (area : Rect) (float : Shape) {text : Shape} {body : TextBody}
    (atText : text.body? = some body) : Arranged float text (floatThenText area float text body) := by
  have placed (head : TextBody) (left top width : Float32) :
      (narrowed ((withBody head text).moveTo left top) width).body? = some head := by
    rw [narrowed_body?, (Shape.Moved.moveTo _ left top).body?, withBody_body? atText]
  unfold floatThenText
  simp only
  split
  · exact arranged_stay float text
  · split
    · exact ⟨[float], [_], rfl, .of_moved (.refl float), .of_body? atText (placed body _ _ _)⟩
    · rename_i pos _
      refine ⟨[float], [_, _], rfl, .of_moved (.refl float), ?_⟩
      exact .cut atText (placed _ _ _ _) (textAt_body? _ _ _ _) (body.splitAt_styled pos)

/-- However two shapes share a row, they keep their order and what they are. -/
theorem arrange_arranged (area : Rect) (first second : Shape) :
    Arranged first second (arrange area first second) := by
  unfold arrange
  split
  · split
    · exact arranged_stay _ _
    · exact textThenFloat_arranged area rfl _
  · exact floatThenText_arranged area _ rfl
  · exact floatThenFloat_arranged area _ _
  · exact arranged_stay _ _

/-- Being put below the shapes so far leaves a shape what it is. -/
theorem below_becomes (f : ShapeFlow) (s : Shape) : s.Becomes [f.below s] := by
  cases s with
  | single bounds content hidden =>
    cases content with
    | text body => exact .of_body? rfl rfl
    | image | table => exact .of_moved (.moveTo _ _ _)
  | group => exact .of_moved (.moveTo _ _ _)

/-- What comes of a call. A shape on a row of its own is only moved. -/
inductive Call.Yields : Call → List Shape → Prop
  | push {s : Shape} {parts : List Shape} : s.Becomes parts → Yields (.push s) parts
  | pushBlock {s t : Shape} : s.Moved t → Yields (.pushBlock s) [t]
  | flush : Yields .flush []

/-- Shapes that come of calls, in the order of the calls. -/
def InOrder (calls : List Call) (shapes : List Shape) : Prop :=
  ∃ parts, List.Forall₂ Call.Yields calls parts ∧ shapes = parts.flatten

theorem InOrder.concat {calls : List Call} {shapes : List Shape} (before : InOrder calls shapes)
    {call : Call} {parts : List Shape} (yields : call.Yields parts) :
    InOrder (calls ++ [call]) (shapes ++ parts) := by
  obtain ⟨earlier, each, rfl⟩ := before
  exact ⟨earlier ++ [parts], List.rel_append each (.cons yields .nil), by simp⟩

/-- A flow after some calls: the last shape may still wait for one to share its row. -/
inductive Holds (calls : List Call) (f : ShapeFlow) : Prop
  | settled : f.group = [] → InOrder calls f.placed → Holds calls f
  | waiting {before : List Call} {s t : Shape} : calls = before ++ [.push s] → f.group = [t] →
      s.Becomes [t] → InOrder before f.placed → Holds calls f

variable {calls : List Call} {f : ShapeFlow}

theorem Holds.placed_flush (holds : Holds calls f) : InOrder calls f.flush.placed := by
  cases holds with
  | settled nonePending before => simpa [flush, nonePending] using before
  | waiting last one becomes before =>
    rw [last]
    simpa [flush, one] using before.concat (.push becomes)

/-- A shape that is pushed waits in a group of its own, or shares the row of the one before. -/
theorem Holds.push (holds : Holds calls f) (s : Shape) : Holds (calls ++ [.push s]) (f.push s) := by
  cases holds with
  | settled nonePending before =>
    refine .waiting rfl ?_ (f.below_becomes s) ?_
    · simp [ShapeFlow.push, nonePending]
    · simpa [ShapeFlow.push, nonePending] using before
  | @waiting earlier first t last one becomes before =>
    obtain ⟨left, right, cut, atFirst, atSecond⟩ := arrange_arranged f.area t (f.below s)
    refine .settled ?_ ?_
    · simp [ShapeFlow.push, one, flush]
    · have placed := (before.concat (.push (becomes.trans atFirst))).concat
        (.push ((f.below_becomes s).trans atSecond))
      rw [last]
      simpa [ShapeFlow.push, one, flush, cut] using placed

theorem Holds.pushBlock (holds : Holds calls f) (s : Shape) :
    Holds (calls ++ [.pushBlock s]) (f.pushBlock s) :=
  .settled rfl (holds.placed_flush.concat (.pushBlock (.moveTo s _ _)))

theorem Holds.flush (holds : Holds calls f) : Holds (calls ++ [.flush]) f.flush := by
  refine .settled rfl ?_
  simpa using holds.placed_flush.concat .flush

theorem Holds.perform (holds : Holds calls f) (call : Call) :
    Holds (calls ++ [call]) (f.perform call) := by
  cases call with
  | push s => exact holds.push s
  | pushBlock s => exact holds.pushBlock s
  | flush => exact holds.flush

theorem Holds.performAll (holds : Holds calls f) (more : List Call) :
    Holds (calls ++ more) (f.performAll more) := by
  induction more generalizing calls f with
  | nil => simpa [ShapeFlow.performAll] using holds
  | cons call rest ih =>
    have later := ih (holds.perform call)
    rwa [List.append_assoc, List.singleton_append] at later

/-- At most one shape waits. -/
theorem Holds.group_length (holds : Holds calls f) : f.group.length ≤ 1 := by
  cases holds with
  | settled nonePending => simp [nonePending]
  | waiting _ one => simp [one]

/-- After any calls, the shapes of a flow are those that it was given, in the order of the calls: texts in
one piece or in two, all others moved only. At most one shape waits between calls. -/
theorem shapes_inOrder (area : Rect) (calls : List Call) :
    let f := (ofArea area).performAll calls
    InOrder calls f.shapes ∧ f.group.length ≤ 1 := by
  intro f
  have start : Holds [] (ofArea area) := .settled rfl ⟨[], .nil, rfl⟩
  have holds := start.performAll calls
  exact ⟨holds.placed_flush, holds.group_length⟩

end ShapeFlow

end Unveil
