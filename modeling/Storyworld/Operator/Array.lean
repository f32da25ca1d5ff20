import Storyworld.Json.Reader
import Storyworld.Operator.Condition

/-! Operators on array parameters: adding, updating and removing items, by position or by a
condition, and setting the whole array. Beyond the declared length the oldest items are dropped. -/

namespace Storyworld

inductive ArrayOperator where
  | addItem
  | removeAt
  | removeWhere
  | updateAt
  | clear
  | set
deriving DecidableEq

namespace ArrayOperator

def ofName? (name : Text) : Option ArrayOperator :=
  match name.plain? with
  | some "add_item" => some addItem
  | some "remove_at" => some removeAt
  | some "remove_where" => some removeWhere
  | some "update_at" => some updateAt
  | some "clear" => some clear
  | some "set" => some set
  | _ => none

def takesValue : ArrayOperator → Bool
  | addItem | removeWhere | updateAt | set => true
  | removeAt | clear => false

/-- An operator and its argument, written after a colon. -/
def ofText (text : Text) : Option ArrayOperator × Text :=
  let (name, argument) := cutAtMark ':' (trim text.toList)
  (ofName? (lowered (trimmed (Text.ofList name))), trimmed (Text.ofList argument))

end ArrayOperator

def refuse {α : Type} (why : Refusal) : Except OperatorError α := .error (.refused why)

def decodeLiteral : Option Text → Except OperatorError Value
  | none => refuse .valueMissing
  | some literal =>
    match Json.read literal with
    | .ok v => .ok v
    | .error .malformed => refuse .malformedValue
    | .error .overlong => .error .overlong

/-- The first declared field that an item has with a value of another type. -/
def wrongField? (declared : Entries Text ItemType) (item : Entries Text Value) :
    Option (Text × ItemType) :=
  declared.find? fun (field, type) =>
    match item.get? field with
    | some v => !type.admits v
    | none => false

def ArrayConfig.checkItem (c : ArrayConfig) (v : Value) : Except OperatorError Value :=
  if !c.itemType.admits v then refuse (.wrongItem v c.itemType)
  else match v, c.itemFields with
    | .object item, some declared =>
      match wrongField? declared item with
      | some (field, type) => refuse (.wrongField field v type)
      | none => .ok v
    | _, _ => .ok v

/-- The newest items, as many as the array may hold. -/
def ArrayConfig.fit (c : ArrayConfig) (items : List Value) : List Value :=
  match c.maxLength with
  | none => items
  | some n => items.drop (items.length - n)

def readIndex (text : Text) : Except OperatorError Int :=
  match readInt? (trim text.toList) with
  | some i => .ok i
  | none => refuse (.notIndex text)

/-- The items with the one at a position removed; a position outside them removes nothing. -/
def removeAt (items : List Value) (i : Int) : List Value :=
  if i < 0 then items else items.eraseIdx i.toNat

/-- The items with the one at a position replaced; a position outside them replaces nothing. -/
def replaceAt (items : List Value) (i : Int) (v : Value) : List Value :=
  if i < 0 then items else items.set i.toNat v

/-- A condition from its JSON literal: the field, the relation and the expected value. -/
def decodeCondition (literal : Option Text) :
    Except OperatorError (Option Text × Relation × Value) := do
  let data ← decodeLiteral literal
  let .object fields := data | refuse (.noCondition data)
  let some expected := Entries.get? ("value" : Text) fields | refuse (.noCondition data)
  let name := (Entries.get? ("op" : Text) fields).getD (.text "")
  let some relation := Relation.ofName? (lowered (trimmed name.plainText))
    | refuse (.unknownRelation ((Entries.get? ("op" : Text) fields).getD .null))
  match Entries.get? ("field" : Text) fields with
  | none | some .null => .ok (none, relation, expected)
  | some (.text field) => .ok (some field, relation, expected)
  | some other => refuse (.fieldNotText other)

def dropMatching (field : Option Text) (r : Relation) (expected : Value) :
    List Value → Except OperatorError (List Value)
  | [] => .ok []
  | v :: vs => do
    let hit ← matchesCondition v field r expected
    let rest ← dropMatching field r expected vs
    .ok (if hit then rest else v :: rest)

def ArrayConfig.checkItems (c : ArrayConfig) : List Value → Except OperatorError (List Value)
  | [] => .ok []
  | v :: vs => do .ok ((← c.checkItem v) :: (← c.checkItems vs))

/-- The items that an operator works on: the current ones, else the default ones, else none. -/
def startItems (current default : Value) : List Value :=
  match current, default with
  | .list items, _ => items
  | _, .list items => items
  | _, _ => []

def ArrayConfig.run (c : ArrayConfig) (items : List Value) (operator : Text)
    (literal : Option Text) : Except OperatorError (List Value) :=
  match ArrayOperator.ofText operator with
  | (some .addItem, _) => do .ok (items ++ [← c.checkItem (← decodeLiteral literal)])
  | (some .removeAt, argument) => do .ok (removeAt items (← readIndex argument))
  | (some .updateAt, argument) => do
    let i ← readIndex argument
    let v ← c.checkItem (← decodeLiteral literal)
    .ok (replaceAt items i v)
  | (some .removeWhere, _) => do
    let (field, relation, expected) ← decodeCondition literal
    dropMatching field relation expected items
  | (some .clear, _) => .ok []
  | (some .set, _) => do
    match ← decodeLiteral literal with
    | .list decoded => c.checkItems decoded
    | other => refuse (.notArray other)
  | (none, _) => refuse (.unknownArrayOperator operator)

def applyArray (p : Parameter) (current : Value) (operator : Text) (literal : Option Text) :
    Except OperatorError Value := do
  let items ← p.arrayConfig.run (startItems current p.default) operator literal
  .ok (.list (p.arrayConfig.fit items))

end Storyworld
