import Storyworld.Document.Codec

/-! Records in documents. One declaration of the fields of a record, in order, gives both its
reading and its writing. A key has two spellings; either is read, the first is preferred and
written. -/

namespace Storyworld

structure Key where
  camel : Text
  snake : Text

/-- A key of one word, which both spellings share. -/
def Key.plain (word : Text) : Key := ⟨word, word⟩

/-- The field under the preferred spelling that is present. -/
def Key.find? (key : Key) (fields : Entries Text Value) : Option (Text × Value) :=
  match fields.get? key.camel with
  | some v => some (key.camel, v)
  | none => (fields.get? key.snake).map fun v => (key.snake, v)

/-- A partial description of a record `σ`: how the fields so far are read into an `α`, and how they
are written. -/
structure Record (σ α : Type) where
  load : Entries Text Value → Checked α
  dump : σ → Entries Text Value

namespace Record

variable {σ α β : Type}

def make (build : α) : Record σ α := ⟨fun _ => .accepted build, fun _ => []⟩

/-- Adds a field. Without a default its absence is a problem. -/
def field (r : Record σ (α → β)) (key : Key) (codec : Codec α) (default : Option α)
    (get : σ → α) : Record σ β where
  load fields := (r.load fields).ap <|
    match key.find? fields with
    | some (spelling, v) => (codec.load v).under spelling
    | none =>
      match default with
      | some a => .accepted a
      | none => .refused [⟨[key.camel], .missing⟩]
  dump s := r.dump s ++ [(key.camel, codec.dump (get s))]

/-- The codec of a record whose fields are all described, with a check of the whole. -/
def codec (r : Record σ σ) (check : σ → Checked σ) : Codec σ where
  load
    | .object fields => (r.load fields).andThen check
    | _ => .fail .notRecord
  dump s := .object (r.dump s)

end Record

end Storyworld
