import Storyworld.Fault

/-! A store of values that is read and written in place. A write makes the objects that are missing on
its way inwards, and what it has made would stay if it failed further on. -/

namespace Storyworld

/-- Where a value is, as it is asked for. -/
structure Coordinates where
  scope : Text
  parameter : Text
  subject : Option Text
  target : Option Text

def Coordinates.address (c : Coordinates) : Except AddressError Address :=
  Address.resolveNamed c.scope c.parameter c.subject c.target

/-- Work on the fields of an object, which an error ends without undoing any of it. -/
abbrev Editing := EStateM WriteError (Entries Text Value)

namespace Editing

def assign (key : Text) (value : Value) : Editing Unit := modify (·.put key value)

/-- Makes an object under a key that is missing. -/
def provide (key : Text) : Editing Unit :=
  modify fun fields => if (fields.get? key).isSome then fields else fields.put key (.object [])

/-- Work on the object under a key, where nothing else may be. -/
def within (key : Text) (e : WriteError) (work : Editing Unit) : Editing Unit := fun fields =>
  match (fields.get? key).bind Value.fields? with
  | none => .error e fields
  | some inner =>
    match work inner with
    | .ok a next => .ok a (fields.put key (.object next))
    | .error e next => .error e (fields.put key (.object next))

/-- Puts a value at an address, in the bucket of its scope. -/
def assignAt (value : Value) : Address → Editing Unit
  | .global p => assign p value
  | .scene p => assign p value
  | .character s p => do
    provide s
    within s (.subjectNoObject .character) (assign p value)
  | .relationship s p t => do
    provide s
    within s (.subjectNoObject .relationship) do
      provide p
      within p .targetsNoObject (assign t value)

end Editing

/-- Work on a store, which an error ends without undoing any of it. -/
abbrev Storing := EStateM Fault Variables

/-- The buckets as one object. -/
def Variables.asValue (v : Variables) : Value := .object (v.mapValues .object)

namespace Store

/-- What a store begins with: the buckets that it is given, completed, or else empty ones. -/
def start (given : Option Variables) : Variables := (given.map Variables.complete).getD .empty

def locate (c : Coordinates) : Storing Address :=
  match c.address with
  | .ok a => pure a
  | .error e => throw (.address e)

def inBucket (scope : Scope) (work : Editing Unit) : Storing Unit := fun v =>
  match work (v.bucket scope) with
  | .ok a b => .ok a (v.putBucket scope b)
  | .error e b => .error (.write e) (v.putBucket scope b)

def read (c : Coordinates) : Storing Value := do
  let a ← locate c
  return (← get).read a

def write (c : Coordinates) (value : Value) : Storing Unit := do
  let a ← locate c
  inBucket a.scopeOf (Editing.assignAt value a)

def snapshot : Storing Value := return (← get).asValue

end Store

end Storyworld
