import Storyworld.Document.Checked
import Storyworld.Document.Numeral
import Storyworld.Value

/-! Reading parts of documents and writing them back. Reading is lenient about numbers, which may
be truth values or texts; writing is always in one form. -/

namespace Storyworld

structure Codec (α : Type) where
  load : Value → Checked α
  dump : α → Value

namespace Codec

variable {α : Type}

def text : Codec Text where
  load
    | .text s => .accepted s
    | _ => .fail .notText
  dump := .text

def any : Codec Value where
  load := .accepted
  dump v := v

def integer : Codec Int where
  load
    | .bool b => .accepted (if b then 1 else 0)
    | .number (.int n) => .accepted n
    | .number (.float x) =>
      if !x.isFinite then .fail .notFinite
      else match x.whole? with
        | none => .fail .notWhole
        | some n => if n.natAbs < Nat.pow 2 63 then .accepted n else .fail .overlongInteger
    | .text s =>
      match looseInteger? s with
      | some n => .accepted n
      | none => .fail (if startsOverlong s.toList then .overlongInteger else .unreadableInteger)
    | _ => .fail .noInteger
  dump := .int

def count : Codec Nat where
  load v := (integer.load v).andThen fun n =>
    if n < 0 then .fail .negative else .accepted n.toNat
  dump n := .int n

def real : Codec Double where
  load
    | .bool b => .accepted (.ofInt (if b then 1 else 0))
    | .number n =>
      match n.toDouble? with
      | some x => .accepted x
      | none => .fail .noNumber
    | .text s =>
      match looseDouble? s with
      | some x => .accepted x
      | none => .fail .unreadableNumber
    | _ => .fail .noNumber
  dump := .float

def choice (all : List α) (name : α → Text) : Codec α where
  load
    | .text s =>
      match all.find? (name · == s) with
      | some a => .accepted a
      | none => .fail .notChoice
    | _ => .fail .notChoice
  dump a := .text (name a)

def optional (c : Codec α) : Codec (Option α) where
  load
    | .null => .accepted none
    | v => (c.load v).map some
  dump
    | none => .null
    | some a => c.dump a

def list (c : Codec α) : Codec (List α) where
  load
    | .list items => Checked.all (items.mapIdx fun i v => (c.load v).under (toString i))
    | _ => .fail .notList
  dump items := .list (items.map c.dump)

def entries (c : Codec α) : Codec (Entries Text α) where
  load
    | .object fields => Checked.all
        (fields.map fun (key, v) => ((c.load v).under key).map fun a => (key, a))
    | _ => .fail .notMap
  dump es := .object (es.mapValues c.dump)

def pair (c : Codec α) : Codec (α × α) where
  load
    | .list [] => .refused [⟨["0"], .missing⟩, ⟨["1"], .missing⟩]
    | .list [v] => (((c.load v).under "0").map Prod.mk).ap (.refused [⟨["1"], .missing⟩])
    | .list [v, w] => (((c.load v).under "0").map Prod.mk).ap ((c.load w).under "1")
    | .list _ => .fail .tooLong
    | _ => .fail .notPair
  dump p := .list [c.dump p.1, c.dump p.2]

end Codec

end Storyworld
