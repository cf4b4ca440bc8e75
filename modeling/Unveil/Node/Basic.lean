import Unveil.Node.Kind
import Unveil.Overlay

namespace Unveil

inductive Payload where
  | text (text : String)
  | number (value : Float)

namespace Payload

def text? : Payload → Option String
  | text s => some s
  | number _ => none

/-- A text counts as the number that it spells. -/
def number? : Payload → Option Float
  | number x => some x
  | text s => Numeral.float? (Text.trim s.toList)

end Payload

/-- A node of a slide tree, with the nodes below it from left to right. -/
structure Node where
  kind : NodeKind
  /-- the passes of the content -/
  overlay : Overlay
  /-- optional parameters, as written -/
  params : String
  payload : Option Payload
  children : List Node

namespace Node

instance : Inhabited Node := ⟨⟨.text, .none, "", none, []⟩⟩

def ofText (s : String) : Node := ⟨.text, .none, "", some (.text s), []⟩

/-- The text that the node itself carries. -/
def content? (n : Node) : Option String := n.payload.bind Payload.text?

def firstChild? (n : Node) (kind : NodeKind) : Option Node := n.children.find? (·.kind = kind)

mutual

/-- The nodes of a tree in document order, and `after` behind them. -/
def preorderOnto : Node → List Node → List Node
  | ⟨kind, overlay, params, payload, children⟩, after =>
    ⟨kind, overlay, params, payload, children⟩ :: preorderAllOnto children after

def preorderAllOnto : List Node → List Node → List Node
  | [], after => after
  | n :: rest, after => preorderOnto n (preorderAllOnto rest after)

end

/-- The nodes of a tree in document order, which is preorder: a node comes before its children. -/
def preorder (n : Node) : List Node := n.preorderOnto []

def preorderAll (ns : List Node) : List Node := preorderAllOnto ns []

mutual

/-- Collecting onto a list gives the nodes in document order in front of it. -/
theorem preorderOnto_eq : ∀ (n : Node) (after : List Node), n.preorderOnto after = n.preorder ++ after
  | ⟨kind, overlay, params, payload, children⟩, after => by
    simp only [preorder, preorderOnto, List.cons_append]
    rw [preorderAllOnto_eq children after, preorderAll]

theorem preorderAllOnto_eq :
    ∀ (ns after : List Node), preorderAllOnto ns after = preorderAll ns ++ after
  | [], after => rfl
  | n :: rest, after => by
    simp only [preorderAll, preorderAllOnto]
    rw [preorderOnto_eq n, preorderOnto_eq n (preorderAllOnto rest []), preorderAllOnto_eq rest after,
      preorderAll, List.append_assoc]

end

/-- A node stands before the nodes below it. -/
theorem preorder_eq_cons : ∀ n : Node, n.preorder = n :: preorderAll n.children
  | ⟨_, _, _, _, _⟩ => rfl

theorem preorderAll_nil : preorderAll [] = [] := rfl

/-- Siblings follow each other with all that is below them. -/
theorem preorderAll_cons (n : Node) (rest : List Node) :
    preorderAll (n :: rest) = n.preorder ++ preorderAll rest := preorderOnto_eq n _

mutual

/-- The number of nodes on the longest way down. -/
def height : Node → Nat
  | ⟨_, _, _, _, children⟩ => heightAll children + 1

def heightAll : List Node → Nat
  | [] => 0
  | n :: rest => max (height n) (heightAll rest)

end

/-- The text of a text node, nothing for other kinds. -/
def ownText (n : Node) : String := if n.kind = .text then n.content?.getD "" else ""

/-- The texts of the tree in document order. -/
def textContent (n : Node) : String := String.join (n.preorder.map ownText)

end Node

end Unveil
