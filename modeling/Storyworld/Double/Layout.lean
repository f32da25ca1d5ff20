import Storyworld.Double.Shortest

/-! How the digits of a number are laid out: where positional notation begins and ends, and how an
exponent is written. -/

namespace Storyworld

/-- The decisions of a written form. The point may stand up to `leadingZeros` places before the
first digit, and an exponent has at least `exponentWidth` digits. -/
structure Layout where
  leadingZeros : Nat
  exponentWidth : Nat

def Layout.plain : Layout := ⟨3, 2⟩

def Layout.stored : Layout := ⟨4, 1⟩

def padStart (width : Nat) (pad : Char) (cs : List Char) : List Char :=
  List.replicate (width - cs.length) pad ++ cs

def Layout.exponent (l : Layout) (e : Int) : List Char :=
  'e' :: (if e < 0 then '-' else '+') :: padStart l.exponentWidth '0' (decimalText e.natAbs)

/-- Significant digits whose first stands `point` places left of the decimal point, if `point` is
positive. Up to sixteen places are written out; there is always a fraction or an exponent. -/
def Layout.digits (l : Layout) (ds : List Char) (point : Int) : List Char :=
  if point ≤ -(l.leadingZeros + 1 : Nat) || 16 < point then
    match ds with
    | [] => []
    | [d] => d :: l.exponent (point - 1)
    | d :: rest => d :: '.' :: rest ++ l.exponent (point - 1)
  else if point ≤ 0 then '0' :: '.' :: List.replicate (-point).toNat '0' ++ ds
  else if ds.length ≤ point.toNat then
    ds ++ List.replicate (point.toNat - ds.length) '0' ++ ['.', '0']
  else ds.take point.toNat ++ '.' :: ds.drop point.toNat

def Layout.magnitude (l : Layout) (rank : Nat) : List Char :=
  if rank = 0 then ['0', '.', '0']
  else
    let (digits, exponent) := shortest rank
    let text := decimalText digits
    l.digits (trimEnd0 text) (exponent + text.length)
where
  trimEnd0 (ds : List Char) : List Char := (ds.reverse.dropWhile (· == '0')).reverse

/-- The text of a finite number; infinities and not-a-numbers have the texts given for them. -/
def Double.text (l : Layout) (nan infinity : String) (x : Double) : String :=
  match x with
  | .nan _ => nan
  | .infinite negative => if negative then "-" ++ infinity else infinity
  | .finite negative rank =>
    String.ofList ((if negative then ['-'] else []) ++ l.magnitude rank)

end Storyworld
