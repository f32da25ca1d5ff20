import Storyworld.Card.Document
import Storyworld.Replay
import Storyworld.Slug
import Storyworld.Value.Stored

/-! The archive: conversations under their slugs, each with a card, a history and at most one
checkpoint. Cards and checkpoints are kept as documents, in which numbers that are not finite have
become null. Changes to a history drop a checkpoint that they could concern. What cannot be encoded is
not stored; a history is emptied before that shows, a card and a checkpoint are not. -/

namespace Storyworld

/-- A history as it is stored: none before the first turn is written, and an empty one where the writing
of it broke off. -/
inductive History (α : Type) where
  | unwritten
  | emptied
  | written (content : α)

def History.map {α β : Type} (f : α → β) : History α → History β
  | unwritten => unwritten
  | emptied => emptied
  | written content => written (f content)

/-- What is kept of a conversation. -/
structure Conversation where
  card : Value
  history : History (List Turn)
  checkpoint : Option Value

/-- Conversations in the order of their slugs. -/
abbrev Archive := Entries String Conversation

/-- Why work on conversations fails. An emptied history is unreadable. A history or a response is
unencodable, a card or a checkpoint unserializable if a half is in one of its texts. -/
inductive ArchiveError where
  | taken (slug : String)
  | noConversation
  | noTurn (index : Int)
  | invalid (problems : List Problem)
  | fault (f : Fault)
  | unreadable
  | unencodable
  | unserializable
  | notFinite

def ArchiveError.message? : ArchiveError → Option Text
  | taken slug => some ("conversation " ++ displayed slug ++ " already exists")
  | noTurn index => some ("turn " ++ toString index ++ " out of range")
  | invalid problems => some (problemsMessage problems)
  | fault f => f.message?
  | _ => none

/-- Whether the document of the card can be encoded. -/
def Card.isPlain (card : Card) : Bool := (Card.codec.dump card).isPlain

def State.isPlain (s : State) : Bool := (State.codec.dump s).isPlain

def Checkpoint.isPlain (p : Checkpoint) : Bool := (Checkpoint.codec.dump p).isPlain

namespace Conversation

def turns (c : Conversation) : Except ArchiveError (List Turn) :=
  match c.history with
  | .unwritten => .ok []
  | .emptied => .error .unreadable
  | .written turns => .ok turns

def checkpoint? (c : Conversation) : Option Checkpoint :=
  c.checkpoint.bind fun v => (Checkpoint.codec.load v).toOption

def setCheckpoint (c : Conversation) (p : Checkpoint) : Conversation :=
  { c with checkpoint := some (Checkpoint.codec.dump p).finiteOnly }

/-- Drops the checkpoint if its index is at least a given one. -/
def dropFrom (c : Conversation) (index : Nat) : Conversation :=
  match c.checkpoint? with
  | some p => if index ≤ p.index then { c with checkpoint := none } else c
  | none => c

end Conversation

namespace Archive

def empty : Archive := []

def slugs (a : Archive) : List String := a.map (·.1)

def insert (slug : String) (c : Conversation) : Archive → Archive
  | [] => [(slug, c)]
  | (s, d) :: a => if slug < s then (slug, c) :: (s, d) :: a else (s, d) :: insert slug c a

def erase (a : Archive) (slug : String) : Archive := a.filter (·.1 ≠ slug)

theorem get?_insert {a : Archive} {slug : String} (h : Entries.get? slug a = none)
    (c : Conversation) (other : String) :
    Entries.get? other (insert slug c a) =
      if slug = other then some c else Entries.get? other a := by
  induction a with
  | nil => rfl
  | cons e a ih =>
    by_cases hs : e.1 = slug
    · simp [Entries.get?, hs] at h
    · simp only [Entries.get?, hs, if_false] at h
      unfold insert
      split
      · rfl
      · by_cases ho : e.1 = other
        · subst ho
          simp [Entries.get?, Ne.symm hs]
        · simp [Entries.get?, ho, ih h]

theorem get?_erase (a : Archive) (slug other : String) :
    Entries.get? other (a.erase slug) =
      if slug = other then none else Entries.get? other a :=
  Entries.get?_erase a slug other

def turns (a : Archive) (slug : String) : Except ArchiveError (List Turn) :=
  match Entries.get? slug a with
  | some c => c.turns
  | none => .ok []

/-- The card of a conversation, if there is one and its document still reads as a card. -/
def card? (a : Archive) (slug : String) : Except ArchiveError (Option Card) :=
  match Entries.get? slug a with
  | none => .ok none
  | some c =>
    match Card.codec.load c.card with
    | .accepted card => .ok (some card)
    | .refused problems => .error (.invalid problems)

def checkpoint? (a : Archive) (slug : String) : Option Checkpoint :=
  (Entries.get? slug a).bind Conversation.checkpoint?

def create (a : Archive) (name : Text) (card : Card) : Except ArchiveError (String × Archive) :=
  let s := slug name
  if (Entries.get? s a).isSome then .error (.taken s)
  else if !card.isPlain then .error .unserializable
  else .ok (s, insert s ⟨(Card.codec.dump card).finiteOnly, .unwritten, none⟩ a)

def delete (a : Archive) (slug : String) : Bool × Archive :=
  ((Entries.get? slug a).isSome, a.erase slug)

def modify (a : Archive) (slug : String) (f : Conversation → Conversation) :
    Except ArchiveError Archive :=
  match Entries.get? slug a with
  | none => .error .noConversation
  | some c => .ok (Entries.put slug (f c) a)

/-- Writes a history anew and then settles the rest. The history is emptied before it is written, and
stays so if one of its turns cannot be encoded. -/
def rewrite {α : Type} (a : Archive) (slug : String) (turns : List Turn)
    (settle : Conversation → Conversation) (answer : α) : Except ArchiveError α × Archive :=
  match Entries.get? slug a with
  | none => (.error .noConversation, a)
  | some c =>
    if turns.all (·.isPlain) then
      (.ok answer, Entries.put slug (settle { c with history := .written turns }) a)
    else (.error .unencodable, Entries.put slug { c with history := .emptied } a)

def append (a : Archive) (slug : String) (role text parseOutput : Value) :
    Except ArchiveError Turn × Archive :=
  match a.turns slug with
  | .error e => (.error e, a)
  | .ok turns =>
    match Turn.check turns.length role text parseOutput with
    | .refused problems => (.error (.invalid problems), a)
    | .accepted t => a.rewrite slug (turns ++ [t]) id t

/-- A turn with some of its parts replaced. Only text and parse output can be. -/
def amended (t : Turn) (changes : Entries Text Value) : Checked Turn :=
  let old : Entries Text Value := [("index", .int t.index), ("role", .text t.role.name),
    ("text", .text t.text), ("parse_output", (Codec.optional .text).dump t.parseOutput)]
  Turn.codec.load <| .object <| changes.foldl
    (fun fields (key, v) =>
      if key = "text" ∨ key = "parse_output" then Entries.put key v fields else fields) old

def update (a : Archive) (slug : String) (index : Int) (changes : Entries Text Value) :
    Except ArchiveError Turn × Archive :=
  match a.turns slug with
  | .error e => (.error e, a)
  | .ok turns =>
    match position? turns index with
    | none => (.error (.noTurn index), a)
    | some i =>
      match turns[i]? with
      | none => (.error (.noTurn index), a)
      | some old =>
        match amended old changes with
        | .refused problems => (.error (.invalid problems), a)
        | .accepted t => a.rewrite slug (turns.set i t) (·.dropFrom i) t

/-- Keeps the first turns, none for a negative length. -/
def truncate (a : Archive) (slug : String) (length : Int) :
    Except ArchiveError (List Turn) × Archive :=
  match a.turns slug with
  | .error e => (.error e, a)
  | .ok turns =>
    let kept := turns.take length.toNat
    a.rewrite slug kept (·.dropFrom kept.length) kept

def saveCheckpoint (a : Archive) (slug : String) (p : Checkpoint) : Except ArchiveError Archive :=
  if p.isPlain then a.modify slug (·.setCheckpoint p) else .error .unserializable

def clearCheckpoint (a : Archive) (slug : String) : Archive :=
  match Entries.get? slug a with
  | some c => Entries.put slug { c with checkpoint := none } a
  | none => a

def opened (a : Archive) (slug : String) : Except ArchiveError (Option (Card × State)) :=
  match a.card? slug with
  | .error e => .error e
  | .ok none => .ok none
  | .ok (some card) =>
    match card.initialState with
    | .ok s => .ok (some (card, s))
    | .error f => .error (.fault f)

/-- The state of an opened conversation at an index or at its end, with the checkpoint kept
afterwards. -/
def stateOf (a : Archive) (slug : String) (card : Card) (initial : State) (index : Option Int) :
    Except ArchiveError State × Archive :=
  match a.turns slug with
  | .error e => (.error e, a)
  | .ok turns =>
    match stateWhen card initial turns (a.checkpoint? slug) index with
    | .error f => (.error (.fault f), a)
    | .ok (s, none) => (.ok s, a)
    | .ok (s, some p) =>
      match a.saveCheckpoint slug p with
      | .ok next => (.ok s, next)
      | .error e => (.error e, a)

/-- The state of a conversation, none if there is no such conversation. -/
def state (a : Archive) (slug : String) (index : Option Int) :
    Except ArchiveError (Option State) × Archive :=
  match a.opened slug with
  | .error e => (.error e, a)
  | .ok none => (.ok none, a)
  | .ok (some (card, initial)) =>
    match a.stateOf slug card initial index with
    | (.ok s, next) => (.ok (some s), next)
    | (.error e, next) => (.error e, next)

/-- The value of a parameter in the state of a conversation. -/
def parameterValue (a : Archive) (slug : String) (name : Text) (subject target : Option Text)
    (index : Option Int) : Except ArchiveError (Option Value) × Archive :=
  match a.opened slug with
  | .error e => (.error e, a)
  | .ok none => (.ok none, a)
  | .ok (some (card, initial)) =>
    match a.stateOf slug card initial index with
    | (.error e, next) => (.error e, next)
    | (.ok s, next) =>
      match s.parameterValue card name subject target with
      | .ok v => (.ok (some v), next)
      | .error f => (.error (.fault f), next)

end Archive

end Storyworld
