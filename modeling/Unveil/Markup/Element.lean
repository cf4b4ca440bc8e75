namespace Unveil.Markup

abbrev Attribute := String × String

/-- A tree of elements and their text. -/
inductive Element where
  /-- an element around others -/
  | node (name : String) (attributes : List Attribute) (children : List Element)
  /-- an element around a text -/
  | leaf (name : String) (attributes : List Attribute) (text : String)
  /-- an element with nothing inside -/
  | empty (name : String) (attributes : List Attribute)
  deriving Repr

/-- How a character of a text is written. -/
def escapeChar (c : Char) : List Char :=
  if c = '&' then "&amp;".toList
  else if c = '<' then "&lt;".toList
  else if c = '>' then "&gt;".toList
  else [c]

/-- How a character of an attribute's value is written; a quote would end the value. -/
def escapeValueChar (c : Char) : List Char := if c = '"' then "&quot;".toList else escapeChar c

def escapeText (s : String) : String := String.ofList (s.toList.flatMap escapeChar)

def escapeValue (s : String) : String := String.ofList (s.toList.flatMap escapeValueChar)

/-- Reads what `escapeText` and `escapeValue` write. -/
def unescape : List Char → List Char
  | '&' :: 'a' :: 'm' :: 'p' :: ';' :: rest => '&' :: unescape rest
  | '&' :: 'l' :: 't' :: ';' :: rest => '<' :: unescape rest
  | '&' :: 'g' :: 't' :: ';' :: rest => '>' :: unescape rest
  | '&' :: 'q' :: 'u' :: 'o' :: 't' :: ';' :: rest => '"' :: unescape rest
  | c :: rest => c :: unescape rest
  | [] => []

/-- Name and attributes, without the angle at the end. -/
def tagText (name : String) (attributes : List Attribute) : String :=
  "<" ++ name ++ String.join (attributes.map fun (key, value) =>
    " " ++ key ++ "=\"" ++ escapeValue value ++ "\"")

def closeText (name : String) : String := "</" ++ name ++ ">"

/-- A line of the output with the number of elements that are open around it. -/
structure TextLine where
  depth : Nat
  text : String
  deriving Repr, DecidableEq

namespace Element

mutual

/-- The lines of an element, of which `depth` are open around it. -/
def lines (depth : Nat) : Element → List TextLine
  | node name attributes children =>
    ⟨depth, tagText name attributes ++ ">"⟩ :: linesAll (depth + 1) children ++
      [⟨depth, closeText name⟩]
  | leaf name attributes text =>
    [⟨depth, tagText name attributes ++ ">" ++ escapeText text ++ closeText name⟩]
  | empty name attributes => [⟨depth, tagText name attributes ++ " />"⟩]

def linesAll (depth : Nat) : List Element → List TextLine
  | [] => []
  | e :: rest => lines depth e ++ linesAll depth rest

end

/-- The text of an element on one line. -/
def compact (e : Element) : String := String.join ((e.lines 0).map TextLine.text)

/-- Two spaces for each open element. -/
def indented (l : TextLine) : String := String.join (List.replicate l.depth "  ") ++ l.text

/-- The text of an element, indented: every element stands on lines of its own. -/
def pretty (e : Element) : String := "\n".intercalate ((e.lines 0).map indented)

end Element

end Unveil.Markup
