import Storyworld.Operator.Array

/-! Operators: the command language of single parameters. Each parameter type has its own operators,
which compute a new value from the current one or are refused. -/

namespace Storyworld

def symbolicDelta? (name : Text) : Option Int :=
  match name.plain? with
  | some "up_small" => some 2
  | some "up_medium" => some 5
  | some "up_large" => some 10
  | some "down_small" => some (-2)
  | some "down_medium" => some (-5)
  | some "down_large" => some (-10)
  | _ => none

namespace Parameter

/-- A value below the least or above the greatest declared one becomes that one. -/
def clamp (p : Parameter) (n : Number) : Number :=
  let raised := match p.min with
    | some low => if n.lt (.float low) then .simplest low else n
    | none => n
  match p.max with
  | some high => if (Number.float high).lt raised then .simplest high else raised
  | none => raised

/-- The number that a step starts from: the current one, else the default one, else zero. -/
def baseNumber (p : Parameter) (current : Value) : Number :=
  match current, p.default with
  | .number n, _ => n
  | _, .number n => n
  | _, _ => .int 0

def applyNumber (p : Parameter) (current : Value) (operator : Text) :
    Except OperatorError Value :=
  match symbolicDelta? (lowered (trimmed operator)) with
  | some delta => .ok (.number (p.clamp ((p.baseNumber current).shift delta)))
  | none =>
    match readNumber? operator with
    | some n => .ok (.number (p.clamp n))
    | none => refuse (.notNumeric operator)

def enumPlace? (p : Parameter) (current : Value) : Option Nat :=
  match current with
  | .text s => p.enumValues.findIdx? (· == s)
  | _ => none

/-- The declared value one step on or back, staying at the ends; the first one if the current value
is not declared. -/
def step (p : Parameter) (current : Value) (forward : Bool) : Text :=
  match p.enumPlace? current with
  | none => p.enumValues.headD ""
  | some i =>
    let place := if forward then Nat.min (i + 1) (p.enumValues.length - 1) else i - 1
    p.enumValues.getD place ""

def applyEnum (p : Parameter) (current : Value) (operator : Text) :
    Except OperatorError Value :=
  let key := trimmed operator
  let low := lowered key
  match low.plain? with
  | some "next" => .ok (.text (p.step current true))
  | some "prev" => .ok (.text (p.step current false))
  | _ =>
    if p.enumValues.contains key then .ok (.text key)
    else match p.enumValues.find? (lowered · == low) with
      | some v => .ok (.text v)
      | none => refuse (.notDeclared operator p.enumValues)

def applyBoolean (operator : Text) : Except OperatorError Value :=
  match (lowered (trimmed operator)).plain? with
  | some "true" => .ok (.bool true)
  | some "false" => .ok (.bool false)
  | _ => refuse (.notBoolean operator)

/-- The new value that an operator computes from the current one. -/
def apply (p : Parameter) (current : Value) (operator : Text) (literal : Option Text) :
    Except OperatorError Value :=
  match p.type with
  | .number => p.applyNumber current operator
  | .enum => p.applyEnum current operator
  | .boolean => applyBoolean operator
  | .text => .ok (.text operator)
  | .array => applyArray p current operator literal

/-- Whether an operator on the parameter is followed by a value. -/
def takesValue (p : Parameter) (operator : Text) : Bool :=
  match p.type, ArrayOperator.ofText operator with
  | .array, (some op, _) => op.takesValue
  | _, _ => false

/-- The name of the first phase band that covers a number. -/
def phase? (p : Parameter) (v : Value) : Option Text :=
  match v with
  | .number n =>
    (p.phases.find? fun b =>
      (Number.float b.range.1).le n && n.le (.float b.range.2)).map (·.name)
  | _ => none

end Parameter

end Storyworld
