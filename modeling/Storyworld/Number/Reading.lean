import Storyworld.Number
import Storyworld.Text.Case
import Storyworld.Text.Trim

/-! Numbers written in texts: integers and decimals with digits of any script, grouped by single
underscores, and the words for infinity and not-a-number. -/

namespace Storyworld

/-- Integers with more digits than this are not read. -/
def digitLimit : Nat := 4300

def ofDigits (ds : List Nat) : Nat := ds.foldl (fun n d => n * 10 + d) 0

/-- Digits of any script, single underscores between some of them. -/
def groupedDigits : List Code → Option (List Nat)
  | [] => none
  | [c] => (decimalValue? c).map ([·])
  | c :: '_' :: cs => do some ((← decimalValue? c) :: (← groupedDigits cs))
  | c :: cs => do some ((← decimalValue? c) :: (← groupedDigits cs))

def signOf : List Code → Bool × List Code
  | '-' :: cs => (true, cs)
  | '+' :: cs => (false, cs)
  | cs => (false, cs)

def signed (negative : Bool) (n : Nat) : Int := if negative then -(n : Int) else n

/-- An integer within the digit limit, leading zeros counted. -/
def readInt? (cs : List Code) : Option Int := do
  let (negative, rest) := signOf cs
  let ds ← groupedDigits rest
  if ds.length ≤ digitLimit then some (signed negative (ofDigits ds)) else none

/-- The text without its underscores, all of which must stand between ASCII digits. -/
def ungroup (afterDigit : Bool) : List Code → Option (List Code)
  | [] => some []
  | '_' :: c :: cs =>
    if afterDigit && c.isDigit then (ungroup true cs).map (c :: ·) else none
  | ['_'] => none
  | c :: cs => (ungroup c.isDigit cs).map (c :: ·)

def digitsValue (cs : List Code) : Nat := ofDigits (cs.map fun c => c.toNat - 48)

/-- An exponent mark with an optional sign and digits, or nothing at all. -/
def readExponent? : List Code → Option Int
  | [] => some 0
  | e :: cs =>
    let (negative, ds) := signOf cs
    if (e == 'e' || e == 'E') && !ds.isEmpty && ds.all Code.isDigit then
      some (signed negative (digitsValue ds))
    else none

/-- An unsigned decimal in ASCII: digits, a fraction and an exponent, with a digit on at least one
side of the point. -/
def readDecimal? (negative : Bool) (cs : List Code) : Option Double := do
  let whole := cs.takeWhile Code.isDigit
  let afterWhole := cs.dropWhile Code.isDigit
  let fraction := match afterWhole with
    | '.' :: rest => rest.takeWhile Code.isDigit
    | _ => []
  let afterFraction := match afterWhole with
    | '.' :: rest => rest.dropWhile Code.isDigit
    | rest => rest
  if whole.isEmpty && fraction.isEmpty then none
  else
    let exponent ← readExponent? afterFraction
    some (.ofDecimal negative (digitsValue (whole ++ fraction)) (exponent - fraction.length))

/-- A decimal in ASCII with an optional sign, or a word for infinity or not-a-number in any case. -/
def readPlainDouble? (cs : List Code) : Option Double :=
  let (negative, rest) := signOf cs
  let word := Text.ofList (rest.map Code.toLower)
  if word == "inf" || word == "infinity" then some (.infinite negative)
  else if word == "nan" then some (.nan false)
  else readDecimal? negative rest

def asciiDigit (c : Code) : Code :=
  match decimalValue? c with
  | some d => Code.ofNat (48 + d)
  | none => c

/-- A decimal with digits of any script and underscores between digits. -/
def readDouble? (cs : List Code) : Option Double := do
  readPlainDouble? (← ungroup false (cs.map asciiDigit))

/-- The number that a text names: an integer if it reads as one, else a finite double. -/
def readNumber? (s : Text) : Option Number :=
  let cs := trim s.toList
  match readInt? cs with
  | some n => some (.int n)
  | none =>
    match readDouble? cs with
    | some x => if x.isFinite then some (.float x) else none
    | none => none

end Storyworld
