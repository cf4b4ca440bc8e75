import Unveil.Output.Emission
import Unveil.Proofs.Output.Logged

namespace Unveil

/-- Answers as another receiver and keeps every call, but refuses the `n`-th one. -/
def Sink.refusing {σ : Type} (sink : Sink σ) (n : Nat) (reason : String) : Sink (σ × List Call) := fun s call =>
  if s.2.length + 1 = n then (.error (.sink reason), s.1, s.2 ++ [call]) else sink.logged s call

namespace Call

/-- The call is made for a shape of a slide. -/
def isOfShape : Call → Bool
  | .slide _ _ | .finish _ => false
  | .text .. | .paragraph .. | .run .. | .image .. | .table .. | .columnWidth .. | .cellParagraph .. | .cellRun ..
  | .border .. | .merge .. | .keepRows .. | .group .. => true

def isFinish : Call → Bool
  | .finish _ => true
  | _ => false

/-- The output is not finished by these calls. -/
def Unfinished (calls : List Call) : Prop := ∀ call ∈ calls, call.isFinish = false

def AllOfShapes (calls : List Call) : Prop := ∀ call ∈ calls, call.isOfShape = true

theorem AllOfShapes.append {calls more : List Call} (first : AllOfShapes calls) (second : AllOfShapes more) :
    AllOfShapes (calls ++ more) := List.forall_mem_append.mpr ⟨first, second⟩

theorem AllOfShapes.unfinished {calls : List Call} (ofShapes : AllOfShapes calls) : Unfinished calls := by
  intro call member
  have ofShape := ofShapes call member
  cases call with
  | finish => cases ofShape
  | _ => rfl

theorem Unfinished.append {calls more : List Call} (first : Unfinished calls) (second : Unfinished more) :
    Unfinished (calls ++ more) := List.forall_mem_append.mpr ⟨first, second⟩

end Call

open Call (Unfinished AllOfShapes)

namespace Calls

section Runs

variable {σ α β : Type}

theorem run_bind_ok {calls : Calls σ α} {next : α → Calls σ β} {s t : σ} {a : α}
    (ran : @Eq (Except DeckError α × σ) (calls.run s) (.ok a, t)) :
    @Eq (Except DeckError β × σ) ((calls >>= next).run s) ((next a).run t) := by
  change (ExceptT.bindCont next (calls.run s).1).run (calls.run s).2 = _
  rw [ran]
  rfl

theorem run_bind_error {calls : Calls σ α} {next : α → Calls σ β} {s t : σ} {error : DeckError}
    (ran : @Eq (Except DeckError α × σ) (calls.run s) (.error error, t)) :
    @Eq (Except DeckError β × σ) ((calls >>= next).run s) (.error error, t) := by
  change (ExceptT.bindCont next (calls.run s).1).run (calls.run s).2 = _
  rw [ran]
  rfl

/-- A run and the same run with its `n`-th call refused. They are the same if they end before; else the
second is told the refusal, and is left with what the first had called by then. -/
inductive Beside (n : Nat) (done : List Call → Prop) (told : List Call → DeckError → Prop) (made : List Call) :
    Except DeckError α × σ × List Call → Except DeckError α × σ × List Call → Prop
  | apart {result : Except DeckError α} {t : σ} {added : List Call} (before : made.length + added.length < n)
    (ended : ∀ a, result = .ok a → done added) :
    Beside n done told made (result, t, made ++ added) (result, t, made ++ added)
  | refused {result : Except DeckError α} {error : DeckError} {t u : σ} {added all : List Call}
    (last : made.length + added.length = n) (tells : told added error) (longer : made ++ added <+: all) :
    Beside n done told made (result, t, all) (.error error, u, made ++ added)

/-- Whichever of its calls is refused, the series ends with it. The calls of a series that comes to its end
satisfy `done`, and those up to a refusal and the error satisfy `told`. -/
def Stops (sink : Sink σ) (reason : String) (done : List Call → Prop) (told : List Call → DeckError → Prop)
    (calls : Sink (σ × List Call) → Calls (σ × List Call) α) : Prop :=
  ∀ n s made, made.length < n →
    Beside n done told made ((calls sink.logged).run (s, made)) ((calls (sink.refusing n reason)).run (s, made))

end Runs

namespace Stops

variable {σ α β : Type} {sink : Sink σ} {reason : String} {done done' whole : List Call → Prop}
  {told told' tells : List Call → DeckError → Prop} {calls : Sink (σ × List Call) → Calls (σ × List Call) α}
  {next : α → Sink (σ × List Call) → Calls (σ × List Call) β}

/-- A run only adds to the calls. -/
theorem grown (stops : Stops sink reason done told calls) (s : σ) (made : List Call) :
    ∃ result t all, @Eq (Except DeckError α × σ × List Call) ((calls sink.logged).run (s, made)) (result, t, all) ∧
      made <+: all := by
  have beside := stops (made.length + 1) s made (Nat.lt_succ_self _)
  generalize (calls sink.logged).run (s, made) = full at beside
  generalize (calls (sink.refusing (made.length + 1) reason)).run (s, made) = cut at beside
  cases beside with
  | apart => exact ⟨_, _, _, rfl, List.prefix_append _ _⟩
  | refused _ _ longer => exact ⟨_, _, _, rfl, (List.prefix_append _ _).trans longer⟩

theorem mono (stops : Stops sink reason done told calls) (ends : ∀ added, done added → done' added)
    (refuses : ∀ added error, told added error → told' added error) : Stops sink reason done' told' calls := by
  intro n s made before
  have beside := stops n s made before
  generalize (calls sink.logged).run (s, made) = full at beside ⊢
  generalize (calls (sink.refusing n reason)).run (s, made) = cut at beside ⊢
  cases beside with
  | apart before ended => exact .apart before fun a ok => ends _ (ended a ok)
  | refused last tells longer => exact .refused last (refuses _ _ tells) longer

theorem pure (a : α) (atStart : done []) : Stops sink reason done told fun _ => Pure.pure a := by
  intro n s made before
  have ran (t : σ) : @Eq (Except DeckError α × σ × List Call) ((Pure.pure a : Calls _ α).run (t, made))
      (.ok a, t, made ++ []) := by
    rw [List.append_nil]
    rfl
  rw [ran]
  exact .apart (by simpa using before) fun _ _ => atStart

/-- One call is either the one that is refused or answered as it was. -/
theorem make (call : Call) :
    Stops sink reason (· = [call]) (fun added error => added = [call] ∧ error = .sink reason)
      fun sink => Calls.make sink call := by
  intro n s made before
  have full : @Eq (Answer × σ × List Call) ((Calls.make sink.logged call).run (s, made))
      ((sink s call).1, (sink s call).2, made ++ [call]) := rfl
  have cut : @Eq (Answer × σ × List Call) ((Calls.make (sink.refusing n reason) call).run (s, made))
      (if made.length + 1 = n then (.error (.sink reason), s, made ++ [call])
        else ((sink s call).1, (sink s call).2, made ++ [call])) := rfl
  rw [full, cut]
  by_cases here : made.length + 1 = n
  · rw [if_pos here]
    exact .refused (by rwa [List.length_singleton]) ⟨rfl, rfl⟩ (List.prefix_refl _)
  · rw [if_neg here]
    exact .apart (by rw [List.length_singleton]; omega) fun _ _ => rfl

/-- Calls in a row. A refusal strikes the first series or, once that has ended, the second. -/
theorem bind (first : Stops sink reason done told calls) (second : ∀ a, Stops sink reason done' told' (next a))
    (here : ∀ added error, told added error → tells added error)
    (later : ∀ added more error, done added → told' more error → tells (added ++ more) error)
    (both : ∀ added more, done added → done' more → whole (added ++ more)) :
    Stops sink reason whole tells fun sink => calls sink >>= fun a => next a sink := by
  intro n s made before
  have beside := first n s made before
  generalize full : (calls sink.logged).run (s, made) = x at beside
  generalize cut : (calls (sink.refusing n reason)).run (s, made) = y at beside
  cases beside with
  | @apart result t added before ended =>
    cases result with
    | error error =>
      rw [run_bind_error full, run_bind_error cut]
      exact .apart before nofun
    | ok a =>
      rw [run_bind_ok full, run_bind_ok cut]
      have ends := ended a rfl
      have beside := second a n t (made ++ added) (by rwa [List.length_append])
      generalize (next a sink.logged).run (t, made ++ added) = x at beside ⊢
      generalize (next a (sink.refusing n reason)).run (t, made ++ added) = y at beside ⊢
      cases beside with
      | @apart result t more before ended' =>
        rw [List.append_assoc]
        refine .apart ?_ fun b ok => both _ _ ends (ended' b ok)
        rw [List.length_append] at before ⊢
        omega
      | @refused result error t u more all last tells' longer =>
        rw [List.append_assoc] at longer ⊢
        refine .refused ?_ (later _ _ _ ends tells') longer
        rw [List.length_append] at last ⊢
        omega
  | @refused result error t u added all last tells' longer =>
    rw [run_bind_error cut]
    cases result with
    | error error =>
      rw [run_bind_error full]
      exact .refused last (here _ _ tells') longer
    | ok a =>
      -- what the first run does after the call that is refused in the other does not matter
      rw [run_bind_ok full]
      obtain ⟨result, v, rest, ran, grows⟩ := (second a).grown t all
      rw [ran]
      exact .refused last (here _ _ tells') (longer.trans grows)

/-- The number of the slide does not change when a refusal strikes. -/
theorem inSlide (index : Nat) (stops : Stops sink reason done told calls)
    (refuses : ∀ added error, told added error → told' added (error.inSlide index)) :
    Stops sink reason done told' fun sink => Calls.inSlide index (calls sink) := by
  intro n s made before
  have beside := stops n s made before
  simp only [Calls.inSlide, ExceptT.run_mk]
  generalize (calls sink.logged).run (s, made) = full at beside ⊢
  generalize (calls (sink.refusing n reason)).run (s, made) = cut at beside ⊢
  cases beside with
  | @apart result t added before ended =>
    cases result with
    | error error =>
      refine .apart before fun a ok => ?_
      cases ok
    | ok a => exact .apart before ended
  | @refused result error t u added all last tells longer =>
    cases result with
    | error _ => exact .refused last (refuses _ _ tells) longer
    | ok a => exact .refused last (refuses _ _ tells) longer

theorem forEach {f : β → Sink (σ × List Call) → Calls (σ × List Call) Unit} {bs : List β}
    (each : ∀ b ∈ bs, Stops sink reason done told (f b)) (atStart : done [])
    (append : ∀ added more, done added → done more → done (added ++ more))
    (later : ∀ added more error, done added → told more error → told (added ++ more) error) :
    Stops sink reason done told fun sink => Calls.forEach (fun b => f b sink) bs := by
  induction bs with
  | nil => exact .pure () atStart
  | cons b rest ih =>
    obtain ⟨first, others⟩ := List.forall_mem_cons.mp each
    exact first.bind (fun _ => ih others) (fun _ _ => id) later append

/-- What is made of the answer to a call calls nothing more. -/
theorem answered (call : Call) (f : Option Nat → α) :
    Stops sink reason (· = [call]) (fun added error => added = [call] ∧ error = .sink reason)
      fun sink => Calls.make sink call >>= fun id => Pure.pure (f id) := by
  have nothing (id : Option Nat) :
      Stops sink reason (· = []) (fun _ _ => False) fun _ => Pure.pure (f id) := .pure _ rfl
  refine (make call).bind nothing (fun _ _ => id) (fun _ _ _ _ => False.elim) ?_
  rintro _ _ rfl rfl
  exact List.append_nil _

theorem tell (call : Call) :
    Stops sink reason (· = [call]) (fun added error => added = [call] ∧ error = .sink reason)
      fun sink => Calls.tell sink call := answered call fun _ => ()

theorem handle (call : Call) :
    Stops sink reason (· = [call]) (fun added error => added = [call] ∧ error = .sink reason)
      fun sink => Calls.handle sink call := answered call fun id => id.getD 0

end Stops

/-- Calls for shapes of a slide; a refusal of any of them is told as `error`. -/
def StopsOnShapes {σ α : Type} (sink : Sink σ) (reason : String) (error : DeckError)
    (calls : Sink (σ × List Call) → Calls (σ × List Call) α) : Prop :=
  Stops sink reason AllOfShapes (fun added told => AllOfShapes added ∧ added ≠ [] ∧ told = error) calls

namespace StopsOnShapes

variable {σ α β : Type} {sink : Sink σ} {reason : String} {error : DeckError}
  {calls : Sink (σ × List Call) → Calls (σ × List Call) α}
  {next : α → Sink (σ × List Call) → Calls (σ × List Call) β}

theorem of_call {call : Call} (ofShape : call.isOfShape = true)
    (stops : Stops sink reason (· = [call]) (fun added error => added = [call] ∧ error = .sink reason) calls) :
    StopsOnShapes sink reason (.sink reason) calls := by
  have single : AllOfShapes [call] := List.forall_mem_singleton.mpr ofShape
  refine stops.mono ?_ ?_
  · rintro _ rfl
    exact single
  · rintro _ _ ⟨rfl, rfl⟩
    exact ⟨single, List.cons_ne_nil _ _, rfl⟩

theorem make {call : Call} (ofShape : call.isOfShape = true) :
    StopsOnShapes sink reason (.sink reason) fun sink => Calls.make sink call := .of_call ofShape (.make call)

theorem tell {call : Call} (ofShape : call.isOfShape = true) :
    StopsOnShapes sink reason (.sink reason) fun sink => Calls.tell sink call := .of_call ofShape (.tell call)

theorem handle {call : Call} (ofShape : call.isOfShape = true) :
    StopsOnShapes sink reason (.sink reason) fun sink => Calls.handle sink call := .of_call ofShape (.handle call)

theorem pure (a : α) : StopsOnShapes sink reason error fun _ => Pure.pure a := Stops.pure a nofun

theorem bind (first : StopsOnShapes sink reason error calls)
    (second : ∀ a, StopsOnShapes sink reason error (next a)) :
    StopsOnShapes sink reason error fun sink => calls sink >>= fun a => next a sink := by
  refine Stops.bind first second (fun _ _ => id) ?_ fun _ _ => Call.AllOfShapes.append
  rintro _ _ _ before ⟨ofShapes, nonempty, told⟩
  exact ⟨before.append ofShapes, List.append_ne_nil_of_right_ne_nil _ nonempty, told⟩

theorem forEach {f : β → Sink (σ × List Call) → Calls (σ × List Call) Unit} {bs : List β}
    (each : ∀ b ∈ bs, StopsOnShapes sink reason error (f b)) :
    StopsOnShapes sink reason error fun sink => Calls.forEach (fun b => f b sink) bs := by
  refine Stops.forEach each nofun (fun _ _ => Call.AllOfShapes.append) ?_
  rintro _ _ _ before ⟨ofShapes, nonempty, told⟩
  exact ⟨before.append ofShapes, List.append_ne_nil_of_right_ne_nil _ nonempty, told⟩

theorem inSlide (index : Nat) (stops : StopsOnShapes sink reason error calls) :
    StopsOnShapes sink reason (error.inSlide index) fun sink => Calls.inSlide index (calls sink) :=
  Stops.inSlide index stops fun _ _ ⟨ofShapes, nonempty, told⟩ => ⟨ofShapes, nonempty, told ▸ rfl⟩

end StopsOnShapes

end Calls

open Calls

variable {σ : Type} {sink : Sink σ} {reason : String}

theorem TextBody.emit_stops (shape : Nat) (b : TextBody) :
    StopsOnShapes sink reason (.sink reason) fun sink => b.emit sink shape :=
  .forEach fun _ _ => .bind (.tell rfl) fun _ => .forEach fun _ _ => .tell rfl

namespace Grid

variable (table : Nat) (g : Grid)

theorem emitCell_stops (row col : Nat) (cell : Cell) :
    StopsOnShapes sink reason (.sink reason) fun sink => emitCell sink table g row col cell :=
  .bind (.forEach fun _ _ => .bind (.tell rfl) fun _ => .forEach fun _ _ => .tell rfl)
    fun _ => .bind (.tell rfl) fun _ => .tell rfl

theorem emitRow_stops (row : Nat) (cells : List Cell) :
    StopsOnShapes sink reason (.sink reason) fun sink => emitRow sink table g row cells := by
  refine .forEach fun entry _ => ?_
  by_cases covered : g.isCovered row entry.2 = true
  · simp only [covered, if_true]
    exact .pure ()
  · simp only [covered]
    exact emitCell_stops table g row entry.2 entry.1

theorem emitLines_stops :
    StopsOnShapes sink reason (.sink reason) fun sink => emitLines sink table g := by
  unfold emitLines
  split
  · exact .pure ()
  · exact .bind (.forEach fun _ _ => .forEach fun _ _ => .tell rfl)
      fun _ => .forEach fun _ _ => .forEach fun _ _ => .tell rfl

/-- Handing a table over ends with a call that is refused. -/
theorem emit_stops (slide : Nat) (bounds : Rect) (hidden : Bool) :
    StopsOnShapes sink reason (.sink reason) fun sink => g.emit sink slide bounds hidden := by
  unfold emit
  refine .bind (.handle rfl) fun table => .bind (.forEach fun _ _ => .tell rfl) fun _ =>
    .bind (.forEach fun _ _ => emitRow_stops table g _ _) fun _ => .bind (emitLines_stops table g) fun _ =>
      .bind (.forEach fun _ _ => .tell rfl) fun _ => ?_
  split
  · exact .bind (.tell rfl) fun _ => .pure table
  · exact .pure table

end Grid

namespace Shape

mutual

theorem emit_stops (slide : Nat) :
    ∀ s : Shape, StopsOnShapes sink reason (.sink reason) fun sink => s.emit sink slide
  | .single bounds kind hidden => by
    cases kind with
    | text body => exact .bind (.handle rfl) fun shape => .bind (body.emit_stops shape) fun _ => .pure shape
    | image picture => exact .handle rfl
    | table grid => exact grid.emit_stops slide bounds hidden
  | .group _ members _ => by
    exact .bind (emitAll_stops slide members) fun ids => .bind (.make rfl) fun _ => .pure _

theorem emitAll_stops (slide : Nat) :
    ∀ shapes : List Shape, StopsOnShapes sink reason (.sink reason) fun sink => emitAll sink slide shapes
  | [] => .pure []
  | s :: rest =>
    .bind (emit_stops slide s) fun id => .bind (emitAll_stops slide rest) fun ids => .pure (id :: ids)

end

end Shape

/-- How a refusal is told that strikes a slide: with its number if it strikes a call for one of its shapes,
which come after the call that makes the slide. -/
def ToldIn (slides : List ComposedSlide) (reason : String) (added : List Call) (error : DeckError) : Prop :=
  ∃ before slide pass shapes, added = before ++ Call.slide slide pass :: shapes ∧ slide ∈ slides ∧
    pass ∈ slide.passes ∧ Unfinished before ∧ AllOfShapes shapes ∧
    error = if shapes.isEmpty then .sink reason else .slide slide.index (.sink reason)

theorem ToldIn.append {slides : List ComposedSlide} {added more : List Call} {error : DeckError}
    (first : Unfinished added) (told : ToldIn slides reason more error) :
    ToldIn slides reason (added ++ more) error := by
  obtain ⟨before, slide, pass, shapes, rfl, inSlides, inPasses, unfinished, ofShapes, rfl⟩ := told
  exact ⟨added ++ before, slide, pass, shapes, (List.append_assoc _ _ _).symm, inSlides, inPasses,
    first.append unfinished, ofShapes, rfl⟩

theorem Pass.emit_stops {slides : List ComposedSlide} {slide : ComposedSlide} {pass : Pass}
    (inSlides : slide ∈ slides) (inPasses : pass ∈ slide.passes) :
    Stops sink reason Unfinished (ToldIn slides reason) fun sink => pass.emit sink slide := by
  have shapes (id : Nat) : StopsOnShapes sink reason (.slide slide.index (.sink reason)) fun sink =>
      forEach (fun s : Shape => inSlide slide.index do
        let _ ← s.emit sink id) pass.allShapes :=
    .forEach fun s _ => .inSlide slide.index (.bind (s.emit_stops id) fun _ => .pure ())
  have atStart : Unfinished [] := nofun
  refine (Stops.handle (.slide slide pass)).bind shapes ?_ ?_ ?_
  · rintro _ _ ⟨rfl, rfl⟩
    exact ⟨[], slide, pass, [], rfl, inSlides, inPasses, atStart, nofun, rfl⟩
  · rintro _ more _ rfl ⟨ofShapes, nonempty, rfl⟩
    refine ⟨[], slide, pass, more, rfl, inSlides, inPasses, atStart, ofShapes, ?_⟩
    rw [if_neg (by simpa using nonempty)]
  · rintro _ more rfl ofShapes
    exact List.forall_mem_cons.mpr ⟨rfl, ofShapes.unfinished⟩

theorem ComposedSlide.emit_stops {slides : List ComposedSlide} {slide : ComposedSlide} (inSlides : slide ∈ slides) :
    Stops sink reason Unfinished (ToldIn slides reason) fun sink => slide.emit sink :=
  .forEach (fun _ inPasses => Pass.emit_stops inSlides inPasses) nofun (fun _ _ => Unfinished.append)
    fun _ _ _ => ToldIn.append

/-- How a refusal is told in a whole run. That of the last call, which finishes the output, has no slide. -/
def ToldOf (slides : List ComposedSlide) (format : SaveFormat) (reason : String) (made : List Call)
    (error : DeckError) : Prop :=
  ToldIn slides reason made error ∨
    ∃ before, made = before ++ [Call.finish format] ∧ Unfinished before ∧ error = .sink reason

theorem ToldIn.unfinished {slides : List ComposedSlide} {made : List Call} {error : DeckError}
    (told : ToldIn slides reason made error) : Unfinished made := by
  obtain ⟨before, slide, pass, shapes, rfl, _, _, unfinished, ofShapes, _⟩ := told
  exact unfinished.append (List.forall_mem_cons.mpr ⟨rfl, ofShapes.unfinished⟩)

/-- Only the last call can be the one that finishes the output. -/
theorem ToldOf.unfinished {slides : List ComposedSlide} {format : SaveFormat} {made : List Call} {error : DeckError}
    (told : ToldOf slides format reason made error) : Unfinished made.dropLast := by
  rcases told with told | ⟨before, rfl, unfinished, _⟩
  · exact fun call member => told.unfinished call ((List.dropLast_sublist made).subset member)
  · rwa [List.dropLast_concat]

theorem ToldOf.rootCause {slides : List ComposedSlide} {format : SaveFormat} {made : List Call} {error : DeckError}
    (told : ToldOf slides format reason made error) : error.rootCause = .sink reason := by
  rcases told with ⟨_, _, _, shapes, _, _, _, _, _, rfl⟩ | ⟨_, _, _, rfl⟩
  · split <;> rfl
  · rfl

/-- Handing slides over ends with a call that is refused. -/
theorem emitSlides_stops (format : SaveFormat) (slides : List ComposedSlide) :
    Stops sink reason (fun _ => True) (ToldOf slides format reason) fun sink => emitSlides sink format slides := by
  have bodies : Stops sink reason Unfinished (ToldIn slides reason) fun sink =>
      forEach (ComposedSlide.emit sink) slides :=
    .forEach (fun _ inSlides => ComposedSlide.emit_stops inSlides) nofun (fun _ _ => Unfinished.append)
      fun _ _ _ => ToldIn.append
  refine bodies.bind (fun _ => .tell (.finish format)) (fun _ _ => .inl) ?_ fun _ _ _ _ => trivial
  rintro before _ _ unfinished ⟨rfl, rfl⟩
  exact .inr ⟨before, rfl, unfinished, rfl⟩

/-- A receiver that refuses its `n`-th call ends the output at once. If there is such a call, the calls are
the first `n` that it would have had without the refusal, and the output is not finished before the last
of them. The error is the refusal; it bears the number of a slide, and only one, if the call was made for
a shape of that slide. -/
theorem emitSlides_refused (sink : Sink σ) (s : σ) (format : SaveFormat) (slides : List ComposedSlide)
    (reason : String) {n : Nat} (positive : 0 < n) :
    let full : Except DeckError Unit × σ × List Call := (emitSlides sink.logged format slides).run (s, [])
    let cut : Except DeckError Unit × σ × List Call :=
      (emitSlides (sink.refusing n reason) format slides).run (s, [])
    (n ≤ full.2.2.length → cut.2.2 = full.2.2.take n ∧ Unfinished cut.2.2.dropLast ∧
      ∃ error, cut.1 = .error error ∧ error.rootCause = .sink reason ∧
        ToldOf slides format reason cut.2.2 error) ∧
      (full.2.2.length < n → cut = full) := by
  intro full cut
  have beside : Beside n (fun _ => True) (ToldOf slides format reason) [] full cut :=
    emitSlides_stops format slides n s [] positive
  generalize full = x at beside ⊢
  generalize cut = y at beside ⊢
  cases beside with
  | apart before => exact ⟨fun reached => absurd reached (by simpa using before), fun _ => rfl⟩
  | @refused result error t u added all last told longer =>
    rw [List.nil_append] at longer ⊢
    rw [List.length_nil, Nat.zero_add] at last
    refine ⟨fun _ => ⟨?_, told.unfinished, error, rfl, told.rootCause, told⟩, fun short => ?_⟩
    · rw [← last]
      exact List.prefix_iff_eq_take.mp longer
    · have least := longer.length_le
      simp only at short
      omega

/-- A slide with the number 7 that holds a line of text. -/
def oneLine : List ComposedSlide :=
  [⟨7, .top, [⟨1, 1, none, [.single .zero (.text ((TextBody.ofSize 1.0).append "a" (.plain 1.0) false)) false]⟩]⟩]

theorem emitSlides_refused_oneLine :
    let full : Except DeckError Unit × Unit × List Call :=
      (emitSlides Sink.accepting.logged .markup oneLine).run ((), [])
    let cut : Except DeckError Unit × Unit × List Call :=
      (emitSlides (Sink.accepting.refusing 3 "full") .markup oneLine).run ((), [])
    0 < 3 ∧ full.2.2.length = 5 ∧ cut.2.2 = full.2.2.take 3 ∧ cut.1 = .error (.slide 7 (.sink "full")) := by
  intro full cut
  have reached : full.2.2.length = 5 := rfl
  obtain ⟨calls, _⟩ := (emitSlides_refused Sink.accepting () .markup oneLine "full" (by decide : 0 < 3)).1
    (by rw [reached]; decide)
  exact ⟨by decide, reached, calls, rfl⟩

end Unveil
