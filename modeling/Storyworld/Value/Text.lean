import Storyworld.Text.Quoted
import Storyworld.Value

/-! Values as text: on one line, in the spelling of messages or of JSON, and as indented
documents. -/

namespace Storyworld

/-- How the parts of a value are spelled. -/
structure Spelling where
  null : String
  yes : String
  no : String
  nan : String
  infinity : String
  layout : Layout
  text : Text → Text

def Spelling.message : Spelling :=
  ⟨"None", "True", "False", "nan", "inf", .plain, displayed⟩

def Spelling.json : Spelling :=
  ⟨"null", "true", "false", "NaN", "Infinity", .plain, quoted⟩

/-- The spelling of stored documents, in which numbers that are not finite read as null. -/
def Spelling.stored : Spelling :=
  ⟨"null", "true", "false", "null", "null", .stored, quoted⟩

def Spelling.number (s : Spelling) : Number → Text
  | .int n => toString n
  | .float x => x.text s.layout s.nan s.infinity

def joined (separator : Text) : List Text → Text
  | [] => ""
  | [p] => p
  | p :: ps => p ++ separator ++ joined separator ps

mutual

def Value.inline (s : Spelling) : Value → Text
  | .null => s.null
  | .bool b => if b then s.yes else s.no
  | .number n => s.number n
  | .text t => s.text t
  | .list items => "[" ++ joined ", " (inlineItems s items) ++ "]"
  | .object fields => "\x7b" ++ joined ", " (inlineFields s fields) ++ "\x7d"

def inlineItems (s : Spelling) : List Value → List Text
  | [] => []
  | v :: vs => v.inline s :: inlineItems s vs

def inlineFields (s : Spelling) : List (Text × Value) → List Text
  | [] => []
  | (k, v) :: fs => (s.text k ++ ": " ++ v.inline s) :: inlineFields s fs

end

def lineAt (depth : Nat) : Text := "\n" ++ Text.ofList (List.replicate (2 * depth) ' ')

/-- Parts on lines of their own between brackets; no parts, no lines. -/
def block (opening closing : Text) (depth : Nat) (parts : List Text) : Text :=
  if parts.isEmpty then opening ++ closing
  else opening ++ lineAt (depth + 1) ++ joined ("," ++ lineAt (depth + 1)) parts ++
    lineAt depth ++ closing

mutual

def Value.document (s : Spelling) (depth : Nat) : Value → Text
  | .null => s.null
  | .bool b => if b then s.yes else s.no
  | .number n => s.number n
  | .text t => s.text t
  | .list items => block "[" "]" depth (documentItems s (depth + 1) items)
  | .object fields => block "\x7b" "\x7d" depth (documentFields s (depth + 1) fields)

def documentItems (s : Spelling) (depth : Nat) : List Value → List Text
  | [] => []
  | v :: vs => v.document s depth :: documentItems s depth vs

def documentFields (s : Spelling) (depth : Nat) : List (Text × Value) → List Text
  | [] => []
  | (k, v) :: fs => (s.text k ++ ": " ++ v.document s depth) :: documentFields s depth fs

end

def Value.shown (v : Value) : Text := v.inline .message

/-- A text as it is, any other value as messages show it. -/
def Value.plainText : Value → Text
  | .text s => s
  | v => v.shown

def Value.jsonText : Value → Text
  | .text s => s
  | v => v.inline .json

end Storyworld
