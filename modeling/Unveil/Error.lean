import Unveil.Text.Quoted

namespace Unveil

inductive ColumnFault where
  /-- a cell over several columns names none -/
  | noCellColumn (spec : String)
  | noColumns (spec : String)
  | badWidth (text : String)
  | nestedRepeat
  | badCount (text : String)
  | countTooLarge (count limit : Nat)
  | tooManyColumns (limit : Nat)
  | unbalancedClose
  | unbalancedOpen
  | missingGroup (owner : Char)
  | openGroup (owner : Char)
  /-- a reason in the caller's words -/
  | stated (reason : String)
  deriving Repr, DecidableEq

namespace ColumnFault

/-- How a fault in a column specification is told. -/
def message : ColumnFault → String
  | noCellColumn spec => "multicolumn specification " ++ Text.quoted spec.toList ++ " has no column"
  | noColumns spec => "table specification " ++ Text.quoted spec.toList ++ " has no columns"
  | badWidth text => "invalid column width " ++ Text.quoted text.toList
  | nestedRepeat => "nested repeat group"
  | badCount text => "invalid repeat count " ++ Text.quoted text.toList
  | countTooLarge count limit => "repeat count " ++ toString count ++ " exceeds " ++ toString limit
  | tooManyColumns limit => "more than " ++ toString limit ++ " columns"
  | unbalancedClose => "unbalanced '\x7d'"
  | unbalancedOpen => "unbalanced '\x7b'"
  | missingGroup owner => "expected '\x7b' after '" ++ String.singleton owner ++ "'"
  | openGroup owner => "unterminated group after '" ++ String.singleton owner ++ "'"
  | stated reason => reason

end ColumnFault

/-- Why a document gives no output. -/
inductive DeckError where
  | columns (fault : ColumnFault)
  | imageNotFound (name : String) (searched : List String)
  | missingNode (name : String)
  | emptyPresentation
  | passLimit (slide limit : Nat)
  /-- a cause met in the slide of this number -/
  | slide (index : Nat) (cause : DeckError)
  /-- the receiver of the output refused a call -/
  | sink (reason : String)
  /-- a count would fall below zero, which ends the run at once -/
  | aborted
  deriving Repr, DecidableEq

namespace DeckError

/-- How an error is told. -/
def message : DeckError → String
  | columns fault => "invalid table column definition: " ++ fault.message
  | imageNotFound name searched =>
    "image \"" ++ name ++ "\" not found (" ++ toString searched.length ++ " search path(s))"
  | missingNode name => "document has no " ++ name ++ " node"
  | emptyPresentation => "empty presentation - output omitted"
  | passLimit index limit =>
    "slide " ++ toString index ++ " exceeded the limit of " ++ toString limit ++ " passes"
  | slide index cause => "slide " ++ toString index ++ ": " ++ cause.message
  | sink reason => "shape sink error: " ++ reason
  | aborted => "attempt to subtract with overflow"

/-- The error with its slide. An error that names its slide stays as it is, and so does the end of the run. -/
def inSlide (index : Nat) : DeckError → DeckError
  | slide i cause => slide i cause
  | passLimit i limit => passLimit i limit
  | aborted => aborted
  | error => slide index error

/-- The cause below all slides. -/
def rootCause : DeckError → DeckError
  | slide _ cause => cause.rootCause
  | error => error

end DeckError

/-- The difference of two counts; the run ends if it is below zero. -/
def difference (a b : Nat) : Except DeckError Nat := if b ≤ a then .ok (a - b) else .error .aborted

end Unveil
