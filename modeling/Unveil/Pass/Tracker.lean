import Unveil.Node.Basic

namespace Unveil

/-- Which pass is rendered. -/
structure PassState where
  /-- number of the pass, from 1 -/
  pass : Nat
  /-- pauses that are let through -/
  pauses : Nat
  deriving Repr, DecidableEq

def PassState.first : PassState := ⟨1, 0⟩

/-- Counts the pauses that a walk meets and notes how many passes the content asks for. A slide is walked once a
pass; a walk lets the pauses of earlier passes through and ends at the first new one. -/
structure Tracker where
  state : PassState
  /-- pauses met in this walk -/
  reached : Nat
  /-- number of passes asked for so far -/
  maxPass : Nat
  /-- every pause is let through and none is counted -/
  ignoring : Bool
  deriving Repr, DecidableEq

inductive Flow where
  | completed | paused
  deriving Repr, DecidableEq, Inhabited

namespace Tracker

def ofState (state : PassState) : Tracker := ⟨state, 0, 1, false⟩

/-- The tracker of content outside of the walk. -/
def ignoringPauses (state : PassState) : Tracker := ⟨state, 0, 1, true⟩

instance : Inhabited Tracker := ⟨ofState .first⟩

def pass (t : Tracker) : Nat := t.state.pass

/-- Meets a pause. One that is not let through asks for one more pass. -/
def pause (t : Tracker) : Flow × Tracker :=
  if t.ignoring then (.completed, t)
  else
    let t := { t with reached := t.reached + 1 }
    if t.state.pauses < t.reached then (.paused, { t with maxPass := max t.maxPass (t.state.pass + 1) })
    else (.completed, t)

/-- Notes the passes that an overlay asks for. -/
def observe (t : Tracker) (o : Overlay) : Tracker := { t with maxPass := max t.maxPass o.maxBound }

/-- Notes an overlay and tells whether it shows its content on this pass. -/
def reveal (t : Tracker) (o : Overlay) : Bool × Tracker := (o.visible t.pass, t.observe o)

end Tracker

/-- Visibility of content on a pass, from the most to the least visible. -/
inductive Mode where
  | visible
  /-- takes its room but does not show -/
  | hidden
  /-- walked for its pauses and overlays only -/
  | omitted
  deriving Repr, DecidableEq, Inhabited

namespace Mode

def isHidden (m : Mode) : Bool := m = .hidden

def emits (m : Mode) : Bool := m ≠ .omitted

def max : Mode → Mode → Mode
  | omitted, _ => omitted
  | _, omitted => omitted
  | hidden, _ => hidden
  | _, hidden => hidden
  | visible, visible => visible

/-- What a node is on a pass on which its overlay does not show it. -/
def veiled (n : Node) : Mode := if n.kind = .veil .only then .omitted else .hidden

/-- The mode of a node's content. The overlay of the node can only restrict the mode around it. -/
def gate (m : Mode) (n : Node) (t : Tracker) : Mode × Tracker :=
  if n.overlay.isUnrestricted then (m, t)
  else
    match t.reveal n.overlay with
    | (true, t) => (m, t)
    | (false, t) => (m.max (veiled n), t)

end Mode

end Unveil
