import Storyworld.Double.Layout

/-! Numbers as values hold them: integers of any size and doubles, compared exactly. -/

namespace Storyworld

inductive Number where
  | int (n : Int)
  | float (x : Double)
deriving DecidableEq

/-- Where a number stands: at an exact value in units, or beyond all of them. -/
inductive Extent where
  | below
  | units (u : Int)
  | above
deriving DecidableEq

def Extent.le : Extent → Extent → Bool
  | below, _ => true
  | _, above => true
  | units u, units v => u ≤ v
  | _, _ => false

namespace Number

/-- The place of a number; a not-a-number has none. -/
def extent? : Number → Option Extent
  | int n => some (.units (n * unitsPerOne))
  | float (.nan _) => none
  | float (.infinite negative) => some (if negative then .below else .above)
  | float (.finite negative rank) =>
    some (.units (if negative then -(unitsAt rank : Int) else unitsAt rank))

/-- At most, exactly; false beside a not-a-number. -/
def le (a b : Number) : Bool :=
  match a.extent?, b.extent? with
  | some x, some y => x.le y
  | _, _ => false

/-- Less than, exactly; false beside a not-a-number. -/
def lt (a b : Number) : Bool :=
  match a.extent?, b.extent? with
  | some x, some y => !y.le x
  | _, _ => false

/-- The same value, exactly; false beside a not-a-number. -/
def eq (a b : Number) : Bool :=
  match a.extent?, b.extent? with
  | some x, some y => x == y
  | _, _ => false

/-- The number moved by an integer. Integers move exactly, doubles round once. -/
def shift (a : Number) (delta : Int) : Number :=
  match a with
  | int n => int (n + delta)
  | float x => float (x.add (Double.ofInt delta))

/-- The nearest double; none for an integer beyond the range of doubles. -/
def toDouble? : Number → Option Double
  | int n => Double.ofInt? n
  | float x => some x

def simplest (x : Double) : Number :=
  match x.whole? with
  | some n => int n
  | none => float x

end Number

end Storyworld
