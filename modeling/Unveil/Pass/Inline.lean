import Unveil.Body.Basic
import Unveil.Pass.Tracker

namespace Unveil

/-- What becomes of a block (an image, a table, a list) inside a text. -/
inductive NestedPolicy where
  /-- its text, overlays and pauses are kept -/
  | asText
  /-- it is placed after the text, and its pauses are ignored -/
  | defer
  deriving Repr, DecidableEq

/-- A block that is placed later, with its mode. -/
structure Deferred where
  node : Node
  mode : Mode

/-- A list that is open at some place of a walk. -/
structure OpenList where
  kind : ListKind
  /-- items so far, as an unbounded number: a list of 2 ^ 32 items, past which 32 bits would not do, is not reached -/
  count : Nat
  level : Nat
  deriving Repr, DecidableEq

namespace OpenList

/-- The bullets of the levels, used again from the start at deeper levels. -/
def symbols : List Char := ['•', '–', '∗']

def symbolAt (level : Nat) : Char := symbols.getD ((level - 1) % symbols.length) '•'

/-- The bullet of the next item of a list; items of a description have none. -/
def mark? (l : OpenList) : Option BulletMark :=
  match l.kind with
  | .bullet => some (.symbol (symbolAt l.level))
  | .numbered => some (.number (l.count + 1))
  | .description => none

end OpenList

/-- What stays the same during a walk. -/
structure InlineRules where
  policy : NestedPolicy
  /-- bullet and numbered lists are written as lists, whatever the policy says -/
  nativeLists : Bool
  deriving Repr, DecidableEq

/-- `true` for a list that is put off as a block. Only the table of a description list is a block in a
walk with native lists. -/
def InlineRules.defers (rules : InlineRules) (kind : ListKind) : Bool :=
  (!rules.nativeLists || kind = .description) && rules.policy = .defer

/-- A text that is being written. -/
structure Inline where
  body : TextBody
  tracker : Tracker
  faces : FaceStack
  /-- the open lists, innermost first -/
  lists : List OpenList
  /-- the next text goes on after a nested list -/
  continuation : Bool
  /-- text other than blanks was written -/
  emitted : Bool
  deferred : List Deferred

namespace Inline

def ofFaces (tracker : Tracker) (faces : FaceStack) (body : TextBody) : Inline :=
  ⟨body, tracker, faces, [], false, false, []⟩

instance : Inhabited Inline := ⟨ofFaces default default default⟩

def maxLevel : Nat := 255

def level (s : Inline) : Nat := (s.lists.head?.map OpenList.level).getD 0

def face (s : Inline) : Face := s.faces.current

/-- Starts the paragraph that goes on after a nested list, if one is due. -/
def resume (s : Inline) : Inline :=
  if s.continuation then
    { s with body := s.body.startParagraph none s.level s.face.size, continuation := false }
  else s

def append (s : Inline) (text : String) (mode : Mode) : Inline :=
  if !mode.emits || text.isEmpty then s
  else
    let s := s.resume
    { s with
      body := s.body.append text s.face mode.isHidden
      emitted := s.emitted || !Text.allBlank text.toList }

/-- A list that opens in a list takes over a paragraph that is still empty. -/
def openList (s : Inline) (kind : ListKind) : Inline :=
  let body :=
    if s.lists.isEmpty then s.body
    else s.body.mapCurrent fun p => if p.isEmpty then { p with bullet := none } else p
  { s with
    body
    lists := ⟨kind, 0, min (s.level + 1) maxLevel⟩ :: s.lists
    continuation := false }

/-- After a list, text goes on in a paragraph of its own. -/
def closeList (s : Inline) : Inline := { s with lists := s.lists.tail, continuation := true }

/-- Writes the term of an item of a description: bold, with a space after it. -/
def writeTerm (s : Inline) (term : String) (hidden : Bool) : Inline :=
  if term.isEmpty then s
  else
    { s with
      body := (s.body.append term { s.face with bold := true } hidden).append " " s.face hidden
      emitted := true }

def startItem (s : Inline) (item : Node) (mode : Mode) : Inline :=
  if !mode.emits then s
  else
    match s.lists with
    | [] => { s with body := s.body.startParagraph none 0 s.face.size }
    | l :: outer =>
      let bullet := l.mark?.map fun mark => ⟨mark, mode.isHidden⟩
      let s := { s with
        body := s.body.startParagraph bullet l.level s.face.size
        lists := { l with count := l.count + 1 } :: outer
        continuation := false }
      if l.kind = .description then s.writeTerm item.params mode.isHidden else s

/-- Keeps a block for later; an omitted one is gone. -/
def deferBlock (s : Inline) (n : Node) (mode : Mode) : Inline :=
  if mode.emits then { s with deferred := s.deferred ++ [⟨n, mode⟩] } else s

def gate (s : Inline) (n : Node) (mode : Mode) : Mode × Inline :=
  let (mode, tracker) := mode.gate n s.tracker
  (mode, { s with tracker })

/-- Opens the scope of a style, which shows if the overlay of its node does. -/
def openStyle (s : Inline) (n : Node) : Inline :=
  let (apply, tracker) := s.tracker.reveal n.overlay
  { s with tracker, faces := s.faces.enter n apply }

def closeStyle (s : Inline) : Inline := { s with faces := s.faces.leave }

/-- Starts a paragraph, unless the content is omitted. -/
def breakParagraph (s : Inline) (mode : Mode) : Inline :=
  if mode.emits then { s with body := s.body.breakParagraph } else s

/-- Text of a table starts on a paragraph of its own. -/
def startTable (s : Inline) (mode : Mode) : Inline :=
  if mode.emits && !s.body.current.isEmpty then { s with body := s.body.breakParagraph } else s

/-- Does `close` after a walk that was not interrupted. -/
def andThen (close : Inline → Inline) : Flow × Inline → Flow × Inline
  | (.completed, s) => (.completed, close s)
  | paused => paused

/-- Meets a pause, which may end the walk. -/
def meetPause (s : Inline) : Flow × Inline :=
  let (flow, tracker) := s.tracker.pause
  (flow, { s with tracker })

mutual

/-- Walks one node. A style holds for the subtree of its node, a list numbers its items, and the first pause
that is not let through ends the walk. -/
def visit (rules : InlineRules) (s : Inline) (mode : Mode) : Node → Flow × Inline
  | n@⟨kind, _, _, _, children⟩ =>
    match kind with
    | .text => (.completed, s.append n.ownText mode)
    | .paragraph | .tableRow => (.completed, s.breakParagraph mode)
    | .tableColumn => (.completed, s.append " " mode)
    | .pause => s.meetPause
    | .style _ => andThen closeStyle (visitAll rules (s.openStyle n) mode children)
    | .veil _ | .multiColumn =>
      let (mode, s) := s.gate n mode
      visitAll rules s mode children
    | .list list =>
      if rules.defers list then (.completed, s.deferBlock n mode)
      else
        let (mode, s) := s.gate n mode
        andThen closeList (visitAll rules (s.openList list) mode children)
    | .item =>
      let (mode, s) := s.gate n mode
      visitAll rules (s.startItem n mode) mode children
    | .tabular =>
      if rules.policy = .defer then (.completed, s.deferBlock n mode)
      else
        let (mode, s) := s.gate n mode
        visitAll rules (s.startTable mode) mode children
    | .image =>
      if rules.policy = .defer then (.completed, s.deferBlock n mode)
      else (.completed, { s with tracker := s.tracker.observe n.overlay })
    | .titlePage =>
      (.completed, if rules.policy = .defer then s.deferBlock n mode else s)
    | .part _ | .unrecognized _ => visitAll rules s mode children
    | .titleField _ | .graphicsPath | .path | .heading _ | .frameTitle | .frameSubtitle | .hline
    | .cline => (.completed, s)

/-- Walks nodes in order, until a pause ends the walk. -/
def visitAll (rules : InlineRules) (s : Inline) (mode : Mode) : List Node → Flow × Inline
  | [] => (.completed, s)
  | n :: rest =>
    match visit rules s mode n with
    | (.completed, s) => visitAll rules s mode rest
    | paused => paused

end

end Inline

end Unveil
