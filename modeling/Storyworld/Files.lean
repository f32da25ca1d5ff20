import Storyworld.Archive

/-! An archive as files. Each conversation has a document for its card, and a folder with one for its
history and at most one for a checkpoint. Work on them goes one file after another: what was written
before an error stays written. -/

namespace Storyworld

/-- What is in the folder of a conversation. -/
structure Folder where
  history : History Value
  checkpoint : Option Value

/-- The cards and the folders of conversations, by their slugs. -/
structure Files where
  cards : Entries String Value
  folders : Entries String Folder

/-- Work on files, which an error ends without undoing any of it. -/
abbrev Filing := EStateM ArchiveError Files

namespace Filing

variable {α β : Type}

@[simp] theorem run_map (h : α → β) (x : Filing α) (f : Files) :
    (h <$> x).run f = match x.run f with
      | .ok a g => .ok (h a) g
      | .error e g => .error e g := by
  simp only [EStateM.run, Functor.map, EStateM.map]
  cases x f <;> rfl

@[simp] theorem run_throw (e : ArchiveError) (f : Files) :
    (throw e : Filing α).run f = .error e f := rfl

@[simp] theorem run_observing (x : Filing α) (f : Files) :
    (observing x).run f = match x.run f with
      | .ok a g => .ok (.ok a) g
      | .error e g => .ok (.error e) g := by
  simp only [observing, EStateM.run, tryCatch, tryCatchThe, MonadExceptOf.tryCatch, bind]
  delta EStateM.tryCatch
  simp only [EStateM.bind]
  cases x f <;> rfl

def ofChecked : Checked α → Filing α
  | .accepted a => pure a
  | .refused problems => throw (.invalid problems)

@[simp] theorem ofChecked_accepted (a : α) : ofChecked (.accepted a) = pure a := rfl

@[simp] theorem ofChecked_refused (problems : List Problem) :
    (ofChecked (.refused problems) : Filing α) = throw (.invalid problems) := rfl

def ofFaulty : Except Fault α → Filing α
  | .ok a => pure a
  | .error f => throw (.fault f)

@[simp] theorem ofFaulty_ok (a : α) : ofFaulty (.ok a) = pure a := rfl

@[simp] theorem ofFaulty_error (f : Fault) :
    (ofFaulty (.error f) : Filing α) = throw (.fault f) := rfl

end Filing

namespace Files

def empty : Files := ⟨[], []⟩

def historyOf (f : Files) (slug : String) : History Value :=
  match f.folders.get? slug with
  | some d => d.history
  | none => .unwritten

def checkpointOf (f : Files) (slug : String) : Option Value :=
  (f.folders.get? slug).bind (·.checkpoint)

def putCard (slug : String) (card : Value) (f : Files) : Files :=
  { f with cards := f.cards.put slug card }

def removeCard (slug : String) (f : Files) : Files := { f with cards := f.cards.erase slug }

/-- A folder that is there already is left as it is. -/
def makeFolder (slug : String) (f : Files) : Files :=
  if (f.folders.get? slug).isSome then f
  else { f with folders := f.folders.put slug ⟨.unwritten, none⟩ }

@[simp] theorem cards_makeFolder (slug : String) (f : Files) :
    (f.makeFolder slug).cards = f.cards := by
  unfold makeFolder
  split <;> rfl

def removeFolder (slug : String) (f : Files) : Files := { f with folders := f.folders.erase slug }

def inFolder (slug : String) (change : Folder → Folder) (f : Files) : Files :=
  match f.folders.get? slug with
  | some d => { f with folders := f.folders.put slug (change d) }
  | none => f

@[simp] theorem cards_inFolder (f : Files) (slug : String) (change : Folder → Folder) :
    (f.inFolder slug change).cards = f.cards := by
  unfold inFolder
  split <;> rfl

theorem get?_inFolder (f : Files) (slug other : String) (change : Folder → Folder) :
    (f.inFolder slug change).folders.get? other =
      if slug = other then (f.folders.get? slug).map change else f.folders.get? other := by
  unfold inFolder
  cases hd : f.folders.get? slug with
  | some d => simp [Entries.get?_put]
  | none =>
    by_cases ho : slug = other
    · simp [← ho, hd]
    · simp [ho]

/-- Writes into a folder, which has to be there. -/
def writeInto (slug : String) (change : Folder → Folder) : Filing Unit := do
  if ((← get).folders.get? slug).isNone then throw .noConversation
  modify (inFolder slug change)

/-- The slugs of all conversations in order. -/
def list : Filing (List String) := return (← get).cards.keys.mergeSort

def create (name : Text) (card : Card) : Filing String := do
  let s := slug name
  if ((← get).cards.get? s).isSome then throw (.taken s)
  if !card.isPlain then throw .unserializable
  modify (putCard s (Card.codec.dump card).finiteOnly)
  modify (makeFolder s)
  return s

theorem run_create {f : Files} {name : Text} {card : Card}
    (h : f.cards.get? (Storyworld.slug name) = none) (hplain : card.isPlain = true) :
    (create name card).run f = .ok (Storyworld.slug name)
      ((f.putCard (Storyworld.slug name) (Card.codec.dump card).finiteOnly).makeFolder
        (Storyworld.slug name)) := by
  simp [create, h, hplain]

def card? (slug : String) : Filing (Option Card) := do
  match (← get).cards.get? slug with
  | none => return none
  | some v => return some (← Filing.ofChecked (Card.codec.load v))

/-- Whether there was a conversation to delete. -/
def delete (slug : String) : Filing Bool := do
  if ((← get).cards.get? slug).isNone then return false
  modify (removeCard slug)
  modify (removeFolder slug)
  return true

def turns (slug : String) : Filing (List Turn) := do
  match (← get).historyOf slug with
  | .unwritten => return []
  | .emptied => throw .unreadable
  | .written v => Filing.ofChecked ((Codec.list Turn.codec).load v)

/-- The history is emptied before it is known that its text can be encoded. -/
def writeTurns (slug : String) (turns : List Turn) : Filing Unit := do
  let document := (Codec.list Turn.codec).dump turns
  writeInto slug fun d => { d with history := .emptied }
  if !document.isPlain then throw .unencodable
  writeInto slug fun d => { d with history := .written document }

def checkpoint? (slug : String) : Filing (Option Checkpoint) := do
  match (← get).checkpointOf slug with
  | none => return none
  | some v => return some (← Filing.ofChecked (Checkpoint.codec.load v))

def saveCheckpoint (slug : String) (p : Checkpoint) : Filing Unit := do
  if !p.isPlain then throw .unserializable
  writeInto slug fun d => { d with checkpoint := some (Checkpoint.codec.dump p).finiteOnly }

def clearCheckpoint (slug : String) : Filing Unit :=
  modify (inFolder slug fun d => { d with checkpoint := none })

/-- Drops a checkpoint whose index is at least a given one. -/
def dropFrom (slug : String) (index : Nat) : Filing Unit := do
  match ← checkpoint? slug with
  | some p => if index ≤ p.index then clearCheckpoint slug
  | none => return ()

def append (slug : String) (role text parseOutput : Value) : Filing Turn := do
  let ts ← turns slug
  let t ← Filing.ofChecked (Turn.check ts.length role text parseOutput)
  writeTurns slug (ts ++ [t])
  return t

def update (slug : String) (index : Int) (changes : Entries Text Value) : Filing Turn := do
  let ts ← turns slug
  match position? ts index with
  | none => throw (.noTurn index)
  | some i =>
    match ts[i]? with
    | none => throw (.noTurn index)
    | some old =>
      let t ← Filing.ofChecked (Archive.amended old changes)
      writeTurns slug (ts.set i t)
      dropFrom slug i
      return t

/-- Keeps the first turns, none for a negative length. -/
def truncate (slug : String) (length : Int) : Filing (List Turn) := do
  let kept := (← turns slug).take length.toNat
  writeTurns slug kept
  dropFrom slug kept.length
  return kept

/-- The card of a conversation and the state it starts from. -/
def opened (slug : String) : Filing (Option (Card × State)) := do
  match ← card? slug with
  | none => return none
  | some card => return some (card, ← Filing.ofFaulty card.initialState)

/-- The state of an opened conversation at an index or at its end. A new checkpoint of it is
written. -/
def stateOf (slug : String) (card : Card) (initial : State) (index : Option Int) :
    Filing State := do
  let ts ← turns slug
  let slot ← checkpoint? slug
  let (s, left) ← Filing.ofFaulty (stateWhen card initial ts slot index)
  if let some p := left then saveCheckpoint slug p
  return s

/-- The state of a conversation, none if there is no such conversation. -/
def state (slug : String) (index : Option Int) : Filing (Option State) := do
  match ← opened slug with
  | none => return none
  | some (card, initial) => return some (← stateOf slug card initial index)

/-- The value of a parameter in the state of a conversation. -/
def parameterValue (slug : String) (name : Text) (subject target : Option Text) (index : Option Int) :
    Filing (Option Value) := do
  match ← opened slug with
  | none => return none
  | some (card, initial) =>
    let s ← stateOf slug card initial index
    return some (← Filing.ofFaulty (s.parameterValue card name subject target))

end Files

end Storyworld
