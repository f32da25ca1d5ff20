/-! Binary floating-point numbers of 64 bits as exact data. The finite ones of a sign are counted
upwards from zero, so that a number is its place in that order, and all arithmetic is done on whole
multiples of the least positive one. -/

namespace Storyworld

/-- How many finite numbers there are of each sign. -/
def rankLimit : Nat := 2047 * Nat.pow 2 52

/-- A number, by its sign and its place among the finite numbers of that sign. Not-a-numbers differ
in whether they were written as such or came out of arithmetic. -/
inductive Double where
  | nan (written : Bool)
  | infinite (negative : Bool)
  | finite (negative : Bool) (rank : Fin rankLimit)
deriving DecidableEq

/-- One, in multiples of the least positive number. -/
def unitsPerOne : Nat := Nat.pow 2 1074

/-- The magnitude at a rank, in multiples of the least positive number. -/
def unitsAt (rank : Nat) : Nat :=
  let count := Nat.pow 2 52
  if rank < count then rank else (count + rank % count) * Nat.pow 2 (rank / count - 1)

/-- The quotient to the nearest whole number, a half to the even one. -/
def roundDiv (num den : Nat) : Nat :=
  let twice := 2 * (num % den)
  if twice < den || (twice == den && num / den % 2 == 0) then num / den else num / den + 1

/-- The rank nearest to a quotient of units, a half to the even one; it may pass the limit. -/
def rankOf (num den : Nat) : Nat :=
  let scale := Nat.log2 (num / den) - 52
  scale * Nat.pow 2 52 + roundDiv num (den * Nat.pow 2 scale)

namespace Double

def zero (negative : Bool) : Double := finite negative ⟨0, by decide⟩

/-- The number nearest to a quotient of units; beyond the largest it is infinite. -/
def ofUnits (negative : Bool) (num den : Nat) : Double :=
  let rank := rankOf num den
  if h : rank < rankLimit then finite negative ⟨rank, h⟩ else infinite negative

def ofInt (n : Int) : Double := ofUnits (n < 0) (n.natAbs * unitsPerOne) 1

/-- The nearest number, if the integer is within range. -/
def ofInt? (n : Int) : Option Double :=
  match ofInt n with
  | infinite _ => none
  | x => some x

/-- The number nearest to `digits * 10 ^ exponent`. Exponents that decide the answer by themselves
are settled without their power. -/
def ofDecimal (negative : Bool) (digits : Nat) (exponent : Int) : Double :=
  if digits = 0 then zero negative
  else if 400 ≤ exponent then infinite negative
  else if exponent ≤ -(Nat.log2 digits + 400 : Nat) then zero negative
  else if 0 ≤ exponent then ofUnits negative (digits * Nat.pow 10 exponent.toNat * unitsPerOne) 1
  else ofUnits negative (digits * unitsPerOne) (Nat.pow 10 (-exponent).toNat)

def units? : Double → Option Int
  | finite negative rank => some (if negative then -(unitsAt rank : Int) else unitsAt rank)
  | _ => none

def whole? (x : Double) : Option Int := do
  let u ← x.units?
  if u % unitsPerOne = 0 then some (u / unitsPerOne) else none

def isFinite : Double → Bool
  | finite _ _ => true
  | _ => false

def add (x y : Double) : Double :=
  match x, y with
  | nan _, _ => nan false
  | _, nan _ => nan false
  | infinite a, infinite b => if a = b then infinite a else nan false
  | infinite a, _ => infinite a
  | _, infinite b => infinite b
  | finite a i, finite b j =>
    let sum := (if a then -(unitsAt i : Int) else unitsAt i) +
      (if b then -(unitsAt j : Int) else unitsAt j)
    if sum = 0 then zero (a && b) else ofUnits (sum < 0) sum.natAbs 1

end Double

end Storyworld
