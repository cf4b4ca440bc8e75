import Unveil.Slide

namespace Unveil

inductive CellSide where
  | left | right | top | bottom
  deriving Repr, DecidableEq

/-- A call to a receiver. Slides and shapes are named by the handles of the calls that made them. -/
inductive Call where
  | slide (slide : ComposedSlide) (pass : Pass)
  | text (slide : Nat) (bounds : Rect) (hidden : Bool)
  | paragraph (shape : Nat) (paragraph : Paragraph)
  | run (shape : Nat) (run : Run)
  | image (slide : Nat) (path : String) (bounds : Rect) (hidden : Bool)
  | table (slide rows cols : Nat) (bounds : Rect) (hidden : Bool)
  | columnWidth (table col : Nat) (width : Float32)
  | cellParagraph (table row col : Nat) (paragraph : Paragraph)
  | cellRun (table row col : Nat) (run : Run)
  | border (table row col : Nat) (side : CellSide) (visible : Bool)
  | merge (table row col span : Nat)
  | keepRows (table count : Nat)
  | group (slide : Nat) (members : List Nat)
  | finish (format : SaveFormat)

/-- The answer to a call: a handle if the call made something that has one. -/
abbrev Answer := Except DeckError (Option Nat)

/-- A receiver whose state is of type `σ`. Slides are handed over to it as a series of calls; it answers a call
with a handle for what the call made, or refuses it. -/
abbrev Sink (σ : Type) := σ → Call → Answer × σ

/-- A series of calls that ends at the first one that is refused. -/
abbrev Calls (σ α : Type) := ExceptT DeckError (StateM σ) α

namespace Calls

variable {σ α : Type}

def make (sink : Sink σ) (call : Call) : Calls σ (Option Nat) := ExceptT.mk fun s => sink s call

/-- Makes a call that has no handle. -/
def tell (sink : Sink σ) (call : Call) : Calls σ Unit := do
  let _ ← make sink call

/-- Makes a call and takes its handle. -/
def handle (sink : Sink σ) (call : Call) : Calls σ Nat := do
  return (← make sink call).getD 0

def forEach {β : Type} (f : β → Calls σ Unit) : List β → Calls σ Unit
  | [] => pure ()
  | b :: rest => do
    f b
    forEach f rest

/-- A refusal is told with the number of the slide. -/
def inSlide (index : Nat) (calls : Calls σ α) : Calls σ α :=
  ExceptT.mk fun s =>
    match calls.run s with
    | (.error error, s) => (.error (error.inSlide index), s)
    | done => done

end Calls

end Unveil
