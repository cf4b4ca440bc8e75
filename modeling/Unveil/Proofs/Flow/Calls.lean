import Unveil.ShapeFlow

namespace Unveil.ShapeFlow

/-- What may be asked of a flow of shapes. -/
inductive Call where
  /-- adds a shape, which may share a row with the one before it -/
  | push (s : Shape)
  /-- adds a shape on a row of its own -/
  | pushBlock (s : Shape)
  /-- ends the row -/
  | flush

def perform (f : ShapeFlow) : Call → ShapeFlow
  | .push s => f.push s
  | .pushBlock s => f.pushBlock s
  | .flush => f.flush

def performAll (f : ShapeFlow) (calls : List Call) : ShapeFlow := calls.foldl perform f

theorem performAll_append (f : ShapeFlow) (calls more : List Call) :
    f.performAll (calls ++ more) = (f.performAll calls).performAll more := List.foldl_append

theorem performAll_concat (f : ShapeFlow) (calls : List Call) (call : Call) :
    f.performAll (calls ++ [call]) = (f.performAll calls).perform call := by
  rw [performAll_append]
  rfl

end Unveil.ShapeFlow
