import Storyworld.Transition
import Storyworld.Turn

/-! Replaying a history: the state after a turn is the initial one with the command source of every
turn up to it applied in order. A checkpoint spares the turns up to its index. It is passed over
when it no longer belongs to the history. -/

namespace Storyworld

def replay (card : Card) (s : State) (turns : List Turn) : Except Fault State :=
  turns.foldlM (fun s t => s.applyText card t.commandSource) s

/-- The position of an index in a history. -/
def position? (turns : List Turn) (index : Int) : Option Nat :=
  if 0 ≤ index ∧ index < turns.length then some index.toNat else none

/-- The state after the turn at an index: the initial one with the command sources up to it applied in
order. -/
def plainStateAt (card : Card) (initial : State) (turns : List Turn) (index : Int) :
    Except Fault State :=
  match position? turns index with
  | none => .error (.outsideHistory index turns.length)
  | some i =>
    ((turns.take (i + 1)).map (·.commandSource)).foldlM (fun s text => s.applyText card text) initial

/-- Whether a checkpoint belongs to a history with these fingerprints: it lies within, and its
digest, if it has one, is the one at its index. -/
def Checkpoint.isFresh (c : Checkpoint) (prints : List Text) : Bool :=
  match prints[c.index]? with
  | none => false
  | some print => c.digest.isNone || c.digest == some print

/-- Where replay starts for the turn at position `i`: the number of turns already in the base state,
that state, and whether a fresh checkpoint at or behind the turn stays in place. -/
def replayStart (initial : State) (prints : List Text) (slot : Option Checkpoint) (i : Nat) :
    Nat × State × Bool :=
  match slot with
  | none => (0, initial, false)
  | some c =>
    if !c.isFresh prints then (0, initial, false)
    else if i < c.index then (0, initial, true)
    else (c.index + 1, c.state, i == c.index)

/-- The state after the turn at an index, and a new checkpoint of it unless a fresh one at or behind
the turn is in place. -/
def stateAt (card : Card) (initial : State) (turns : List Turn) (slot : Option Checkpoint)
    (index : Int) : Except Fault (State × Option Checkpoint) :=
  match position? turns index with
  | none => .error (.outsideHistory index turns.length)
  | some i =>
    let prints := fingerprints turns
    let (start, base, kept) := replayStart initial prints slot i
    match replay card base ((turns.take (i + 1)).drop start) with
    | .error fault => .error fault
    | .ok s => .ok (s, if kept then none else some ⟨i, s, prints[i]?⟩)

/-- The state after the last turn, or the initial one for an empty history. -/
def latestState (card : Card) (initial : State) (turns : List Turn) (slot : Option Checkpoint) :
    Except Fault (State × Option Checkpoint) :=
  if turns.isEmpty then .ok (initial, none)
  else stateAt card initial turns slot (turns.length - 1 : Nat)

def stateWhen (card : Card) (initial : State) (turns : List Turn) (slot : Option Checkpoint) :
    Option Int → Except Fault (State × Option Checkpoint)
  | some index => stateAt card initial turns slot index
  | none => latestState card initial turns slot

end Storyworld
