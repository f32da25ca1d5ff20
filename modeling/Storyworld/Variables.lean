import Storyworld.Card
import Storyworld.Text.Quoted

/-! The values of parameters, in nested buckets: by parameter for the world and the scene, by
subject and parameter for characters, by subject, parameter and target for relationships. -/

namespace Storyworld

/-- The buckets by scope name. -/
abbrev Variables := Entries Text (Entries Text Value)

/-- Where one value is. -/
inductive Address where
  | global (parameter : Text)
  | scene (parameter : Text)
  | character (subject parameter : Text)
  | relationship (subject parameter target : Text)
deriving DecidableEq

/-- Why coordinates give no address. -/
inductive AddressError where
  | unknownScope (name : Text)
  | noSubject (scope : Scope)
  | noTarget
deriving DecidableEq

def AddressError.message : AddressError → Text
  | unknownScope name => "unknown scope " ++ displayed name
  | noSubject scope => scope.name ++ " scope needs a subject"
  | noTarget => "relationship scope needs a target"

namespace Address

def scopeOf : Address → Scope
  | global _ => .global
  | scene _ => .scene
  | character _ _ => .character
  | relationship _ _ _ => .relationship

/-- A name that is given and not empty. -/
def given? (name : Option Text) : Option Text := name.filter (· ≠ "")

/-- The address of a value. Characters need a subject, relationships a target besides. -/
def resolve (scope : Scope) (parameter : Text) (subject target : Option Text) :
    Except AddressError Address :=
  match scope with
  | .global => .ok (global parameter)
  | .scene => .ok (scene parameter)
  | .character =>
    match given? subject with
    | some s => .ok (character s parameter)
    | none => .error (.noSubject .character)
  | .relationship =>
    match given? subject, given? target with
    | some s, some t => .ok (relationship s parameter t)
    | none, _ => .error (.noSubject .relationship)
    | some _, none => .error .noTarget

/-- The address of a value in a scope given by name. -/
def resolveNamed (scope parameter : Text) (subject target : Option Text) :
    Except AddressError Address :=
  match Scope.ofName? scope with
  | some s => resolve s parameter subject target
  | none => .error (.unknownScope scope)

end Address

/-- What stands in the way of a write: something that is not an object where one is needed, in the
place of a subject's values or of a parameter's targets. -/
inductive WriteError where
  | subjectNoObject (scope : Scope)
  | targetsNoObject
deriving DecidableEq

def Value.fields? : Value → Option (Entries Text Value)
  | .object fields => some fields
  | _ => none

namespace Variables

def empty : Variables := Scope.all.map fun s => (s.name, [])

def complete (v : Variables) : Variables :=
  Scope.all.foldl (fun v s => if (Entries.get? s.name v).isSome then v else v ++ [(s.name, [])]) v

def bucket (v : Variables) (scope : Scope) : Entries Text Value := (Entries.get? scope.name v).getD []

/-- The value at an address, null where there is none. -/
def read (v : Variables) : Address → Value
  | .global p => ((v.bucket .global).get? p).getD .null
  | .scene p => ((v.bucket .scene).get? p).getD .null
  | .character s p =>
    match ((v.bucket .character).get? s).bind Value.fields? with
    | some fields => (fields.get? p).getD .null
    | none => .null
  | .relationship s p t =>
    match ((v.bucket .relationship).get? s).bind Value.fields? with
    | some fields =>
      match (fields.get? p).bind Value.fields? with
      | some targets => (targets.get? t).getD .null
      | none => .null
    | none => .null

/-- The fields of the object under a key, none if the key is missing. -/
def fieldsUnder? (es : Entries Text Value) (key : Text) : Option (Entries Text Value) :=
  match es.get? key with
  | none => some []
  | some v => v.fields?

def putBucket (v : Variables) (scope : Scope) (b : Entries Text Value) : Variables :=
  Entries.put scope.name b v

/-- Puts a value at an address; objects on the way are made as needed. -/
def write (v : Variables) (a : Address) (value : Value) : Except WriteError Variables :=
  let b := v.bucket a.scopeOf
  match a with
  | .global p => .ok (v.putBucket .global (b.put p value))
  | .scene p => .ok (v.putBucket .scene (b.put p value))
  | .character s p =>
    match fieldsUnder? b s with
    | none => .error (.subjectNoObject .character)
    | some fields => .ok (v.putBucket .character (b.put s (.object (fields.put p value))))
  | .relationship s p t =>
    match fieldsUnder? b s with
    | none => .error (.subjectNoObject .relationship)
    | some fields =>
      match fieldsUnder? fields p with
      | none => .error .targetsNoObject
      | some targets =>
        .ok (v.putBucket .relationship
          (b.put s (.object (fields.put p (.object (targets.put t value))))))

end Variables

end Storyworld
