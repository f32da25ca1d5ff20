import Storyworld.Document.Record
import Storyworld.Sha256
import Storyworld.State.Document

/-! The turns of a history, the checkpoints taken of it, and its fingerprints. -/

namespace Storyworld

open Record (make)

inductive Role where
  | user
  | assistant
  | system
deriving DecidableEq

namespace Role

def all : List Role := [user, assistant, system]

def name : Role → Text
  | user => "user"
  | assistant => "assistant"
  | system => "system"

def codec : Codec Role := .choice all name

end Role

structure Turn where
  index : Nat
  role : Role
  text : Text
  parseOutput : Option Text
deriving DecidableEq

namespace Turn

def codec : Codec Turn :=
  ((make Turn.mk)
    |>.field (.plain "index") .count none (·.index)
    |>.field (.plain "role") Role.codec none (·.role)
    |>.field (.plain "text") .text none (·.text)
    |>.field ⟨"parseOutput", "parse_output"⟩ (.optional .text) (some none)
      (·.parseOutput)).codec .accepted

def commandSource (t : Turn) : Text := t.parseOutput.getD t.text

/-- Whether the turn can be encoded. -/
def isPlain (t : Turn) : Bool := t.text.isPlain && t.parseOutput.all (·.isPlain)

def check (index : Int) (role text parseOutput : Value) : Checked Turn :=
  codec.load (.object [("index", .int index), ("role", role), ("text", text),
    ("parse_output", parseOutput)])

/-- What a turn adds to the fingerprint of its history: role and command source as a JSON list in
ASCII. -/
def transcript (t : Turn) : Text :=
  "[" ++ quotedAscii t.role.name ++ ", " ++ quotedAscii t.commandSource ++ "]"

end Turn

/-- The state after the turn at an index, with the fingerprint of the turns up to it. -/
structure Checkpoint where
  index : Nat
  state : State
  digest : Option Text

def Checkpoint.codec : Codec Checkpoint :=
  ((make Checkpoint.mk)
    |>.field (.plain "index") .count none (·.index)
    |>.field (.plain "state") State.codec none (·.state)
    |>.field (.plain "digest") (.optional .text) (some none) (·.digest)).codec .accepted

/-- A checkpoint of an index and a digest that are still to be checked. -/
def Checkpoint.check (index : Value) (state : State) (digest : Value) : Checked Checkpoint :=
  codec.load (.object [("index", index), ("state", State.codec.dump state), ("digest", digest)])

def asciiBytes (s : Text) : List UInt8 := s.toList.map fun c => UInt8.ofNat c.toNat

/-- The bytes that the fingerprint of a history is taken of. -/
def historyBytes (turns : List Turn) : List UInt8 := turns.flatMap fun t => asciiBytes t.transcript

def fingerprint (bytes : List UInt8) : Text :=
  Text.ofList ((Sha256.digest bytes).flatMap fun b => hexDigits 2 b.toNat)

/-- The fingerprints of the turns up to each one, after bytes already taken. -/
def fingerprintsAfter (bytes : List UInt8) : List Turn → List Text
  | [] => []
  | t :: ts =>
    let more := bytes ++ asciiBytes t.transcript
    fingerprint more :: fingerprintsAfter more ts

/-- The fingerprints of a history, one for the turns up to each. -/
def fingerprints (turns : List Turn) : List Text := fingerprintsAfter [] turns

end Storyworld
