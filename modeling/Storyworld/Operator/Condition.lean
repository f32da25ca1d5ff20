import Storyworld.Number.Reading
import Storyworld.Operator.Error

/-! Conditions on the items of an array. The examined value decides how the expected one is
understood: beside a number a text is read as a number, beside a text other values are taken in
their JSON spelling. -/

namespace Storyworld

inductive Relation where
  | equals
  | notEquals
  | contains
  | notContains
  | greater
  | atLeast
  | less
  | atMost
deriving DecidableEq

def relationNames : List (Text × Relation) := [
  ("equals", .equals), ("==", .equals), ("not_equals", .notEquals), ("!=", .notEquals),
  ("contains", .contains), ("not_contains", .notContains), ("gt", .greater), (">", .greater),
  ("gte", .atLeast), (">=", .atLeast), ("lt", .less), ("<", .less), ("lte", .atMost),
  ("<=", .atMost)]

def Relation.ofName? (name : Text) : Option Relation := relationNames.lookup name

/-- The relation with a name that is no sign; any other text stands for the last one. -/
def Relation.named (name : Text) : Relation :=
  match name.plain? with
  | some "equals" => equals
  | some "not_equals" => notEquals
  | some "contains" => contains
  | some "not_contains" => notContains
  | some "gt" => greater
  | some "gte" => atLeast
  | some "lt" => less
  | _ => atMost

def toDouble (n : Number) : Except OperatorError Double :=
  match n.toDouble? with
  | some x => .ok x
  | none => .error .tooLarge

/-- A number, or a text that reads as one, as a double. -/
def Value.asDouble : Value → Except OperatorError (Option Double)
  | .number n => (toDouble n).map some
  | .text s =>
    match readNumber? s with
    | some n => (toDouble n).map some
    | none => .ok none
  | _ => .ok none

def Value.asBool? : Value → Option Bool
  | .bool b => some b
  | .text s =>
    match (lowered (trimmed s)).plain? with
    | some "true" => some true
    | some "false" => some false
    | _ => none
  | _ => none

def looseEqual (actual expected : Value) : Except OperatorError Bool :=
  match actual with
  | .bool b => .ok (expected.asBool? == some b)
  | .number n => do
    let right ← expected.asDouble
    let left ← toDouble n
    match right with
    | some x => .ok ((Number.float x).eq (.float left))
    | none => .ok false
  | .text s => .ok (s == expected.jsonText)
  | v => .ok (v.same expected)

def occursIn (needle : List Code) : List Code → Bool
  | [] => needle.isEmpty
  | c :: cs => needle.isPrefixOf (c :: cs) || occursIn needle cs

def anyEqual (expected : Value) : List Value → Except OperatorError Bool
  | [] => .ok false
  | v :: vs => do if ← looseEqual v expected then .ok true else anyEqual expected vs

/-- Whether a text or a list contains a value; other values contain nothing and lack nothing. -/
def containment? (actual expected : Value) : Except OperatorError (Option Bool) :=
  match actual with
  | .text s => .ok (some (occursIn expected.jsonText.toList s.toList))
  | .list items => (anyEqual expected items).map some
  | _ => .ok none

def ordering (holds : Number → Number → Bool) (actual expected : Value) :
    Except OperatorError Bool := do
  let left ← actual.asDouble
  let right ← expected.asDouble
  match left, right with
  | some x, some y => .ok (holds (.float x) (.float y))
  | _, _ => .ok false

def Relation.holds (r : Relation) (actual expected : Value) : Except OperatorError Bool :=
  match r with
  | equals => looseEqual actual expected
  | notEquals => (looseEqual actual expected).map not
  | contains => (containment? actual expected).map (· == some true)
  | notContains => (containment? actual expected).map (· == some false)
  | greater => ordering (fun x y => y.lt x) actual expected
  | atLeast => ordering (fun x y => y.le x) actual expected
  | less => ordering (fun x y => x.lt y) actual expected
  | atMost => ordering (fun x y => x.le y) actual expected

/-- Whether an item, or a field of it, stands in a relation to a value. An item without the field
matches nothing. -/
def matchesCondition (item : Value) (field : Option Text) (r : Relation) (expected : Value) :
    Except OperatorError Bool :=
  match (field.filter (· ≠ "") : Option Text) with
  | none => r.holds item expected
  | some name =>
    match item with
    | .object fields =>
      match Entries.get? name fields with
      | some v => r.holds v expected
      | none => .ok false
    | _ => .ok false

end Storyworld
