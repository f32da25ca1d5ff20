import Storyworld.Replay

/-! Sessions: a history in memory that is changed and asked for states in any order, with the one
checkpoint that the answers leave behind. -/

namespace Storyworld

structure Session where
  card : Card
  initial : State
  turns : List Turn
  slot : Option Checkpoint

namespace Session

/-- A session over a history, if the card has a state to start from. -/
def start (card : Card) (turns : List Turn) (slot : Option Checkpoint) :
    Except Fault Session := do
  .ok ⟨card, ← card.initialState, turns, slot⟩

def append (x : Session) (role : Role) (text : Text) (parseOutput : Option Text) : Session :=
  { x with turns := x.turns ++ [⟨x.turns.length, role, text, parseOutput⟩] }

/-- Puts a turn in the place of the one at an index, if there is one. -/
def replace? (x : Session) (index : Int) (t : Turn) : Option Session :=
  (position? x.turns index).map fun i => { x with turns := x.turns.set i t }

def truncate (x : Session) (length : Nat) : Session := { x with turns := x.turns.take length }

/-- The state at an index, or the latest one, with the session as the answer leaves it. -/
def stateWhen (x : Session) (index : Option Int) : Except Fault (State × Session) :=
  match Storyworld.stateWhen x.card x.initial x.turns x.slot index with
  | .ok (s, kept) => .ok (s, { x with slot := kept.orElse fun _ => x.slot })
  | .error f => .error f

def plainStateAt (x : Session) (index : Int) : Except Fault State :=
  Storyworld.plainStateAt x.card x.initial x.turns index

end Session

end Storyworld
