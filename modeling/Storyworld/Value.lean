import Storyworld.Entries
import Storyworld.Number
import Storyworld.Text

/-! Free-form values: what parameters hold, what documents are made of, and what texts decode to.
The fields of an object keep the order in which they were written. -/

namespace Storyworld

inductive Value where
  | null
  | bool (b : Bool)
  | number (n : Number)
  | text (s : Text)
  | list (items : List Value)
  | object (fields : List (Text × Value))

namespace Value

instance : Inhabited Value := ⟨null⟩

def int (n : Int) : Value := number (.int n)

def float (x : Double) : Value := number (.float x)

def text? : Value → Option Text
  | text s => some s
  | _ => none

/-- What kind of value it is, in the words of messages. -/
def kindName : Value → String
  | null => "NoneType"
  | bool _ => "bool"
  | number (.int _) => "int"
  | number (.float _) => "float"
  | text _ => "str"
  | list _ => "list"
  | object _ => "dict"

end Value

/-- Not-a-numbers are one thing when both were written as such. -/
def Number.same : Number → Number → Bool
  | .float (.nan true), .float (.nan true) => true
  | a, b => a.eq b

def ofBool (b : Bool) : Number := .int (if b then 1 else 0)

mutual

/-- Equality of parts. Numbers are compared by value, truth values count as one and zero, and the
order of fields does not matter. -/
def Value.same : Value → Value → Bool
  | .null, .null => true
  | .bool a, .bool b => a == b
  | .bool a, .number n => (ofBool a).eq n
  | .number n, .bool b => n.eq (ofBool b)
  | .number m, .number n => m.same n
  | .text s, .text t => s == t
  | .list xs, .list ys => sameItems xs ys
  | .object fs, .object gs => fs.length == gs.length && sameFields fs gs
  | _, _ => false

def sameItems : List Value → List Value → Bool
  | [], [] => true
  | x :: xs, y :: ys => x.same y && sameItems xs ys
  | _, _ => false

def sameFields : List (Text × Value) → List (Text × Value) → Bool
  | [], _ => true
  | (k, v) :: fs, gs =>
    (match Entries.get? k gs with
      | some w => v.same w
      | none => false) && sameFields fs gs

end

end Storyworld
