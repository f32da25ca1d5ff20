import Storyworld.Double

/-! The fewest decimal digits that read back. On each decimal grid, from one digit on, the two
neighbours of the number are tried; the first grid on which one reads back gives the digits, and of
two that do the nearer is taken, at equal distance the even one. -/

namespace Storyworld

def decimalText (n : Nat) : List Char := Nat.toDigits 10 n

/-- The exponent of the leading decimal digit of a positive number of units. -/
def leadingExponent (units : Nat) : Int :=
  if unitsPerOne ≤ units then (decimalText (units / unitsPerOne)).length - 1
  else -(decimalText (unitsPerOne / units)).length

/-- The number of units over the step of a decimal grid, as a quotient. -/
def onGrid (units : Nat) (exponent : Int) : Nat × Nat :=
  if 0 ≤ exponent then (units, unitsPerOne * Nat.pow 10 exponent.toNat)
  else (units * Nat.pow 10 (-exponent).toNat, unitsPerOne)

/-- The rank that the grid point `digits * 10 ^ exponent` reads back to. -/
def readBack (digits : Nat) (exponent : Int) : Nat :=
  if 0 ≤ exponent then rankOf (digits * Nat.pow 10 exponent.toNat * unitsPerOne) 1
  else rankOf (digits * unitsPerOne) (Nat.pow 10 (-exponent).toNat)

/-- The neighbour of the number on a grid that reads back to it, the nearer if both do. -/
def gridPoint? (rank : Nat) (exponent : Int) : Option Nat :=
  let (num, den) := onGrid (unitsAt rank) exponent
  let low := num / den
  match readBack low exponent == rank, readBack (low + 1) exponent == rank with
  | true, true => some (roundDiv num den)
  | true, false => some low
  | false, true => some (low + 1)
  | false, false => none

/-- The first of the grids with the given digit counts on which the number has a neighbour that
reads back; seventeen digits always suffice. -/
def shortestOn (rank : Nat) (leading : Int) : List Nat → Nat × Int
  | [] =>
    let (num, den) := onGrid (unitsAt rank) (leading - 16)
    (roundDiv num den, leading - 16)
  | count :: counts =>
    match gridPoint? rank (leading + 1 - count) with
    | some digits => (digits, leading + 1 - count)
    | none => shortestOn rank leading counts

/-- Digits and exponent of the shortest decimal that reads back to a positive rank. -/
def shortest (rank : Nat) : Nat × Int :=
  shortestOn rank (leadingExponent (unitsAt rank))
    [1, 2, 3, 4, 5, 6, 7, 8, 9, 10, 11, 12, 13, 14, 15, 16, 17]

end Storyworld
