import Storyworld.Number.Reading

/-! Numbers that documents give as texts. An integer may have a sign, zeros in front, a fraction of
zeros and single underscores; a decimal may have single underscores when no blanks are around it. -/

namespace Storyworld

/-- The text without its underscores, none of which may stand at an end or beside another. -/
def dropUnderscores? (afterOther : Bool) : List Code → Option (List Code)
  | [] => some []
  | ['_'] => none
  | '_' :: cs => if afterOther then dropUnderscores? false cs else none
  | c :: cs => (dropUnderscores? true cs).map (c :: ·)

/-- The text without a fraction that consists of zeros, at least one. -/
def dropZeroFraction (cs : List Code) : List Code :=
  let isPoint (c : Code) : Bool := c == '.'
  match cs.dropWhile (!isPoint ·) with
  | '.' :: '0' :: zeros => if zeros.all (· == .char '0') then cs.takeWhile (!isPoint ·) else cs
  | _ => cs

/-- What may follow the zeros in front: a digit from one on, or a minus sign. -/
def leadsNumber (c : Code) : Bool := ('1' ≤ c && c ≤ '9') || c == '-'

/-- The text from where it begins to count, behind a zero. Further zeros and underscores are passed;
before a point and at the end the last of them stays. -/
def afterZeros? (last : Code) : List Code → Option (List Code)
  | [] => some [last]
  | c :: cs =>
    if c == '0' || c == '_' then afterZeros? c cs
    else if c == '.' then some (last :: c :: cs)
    else if leadsNumber c then some (c :: cs)
    else none

def dropZeros? : List Code → Option (List Code)
  | [] => none
  | c :: cs =>
    if c == '0' then afterZeros? c cs
    else if leadsNumber c then some (c :: cs)
    else none

def plainDigits? (cs : List Code) : Option (List Code) := do
  dropUnderscores? false (dropZeroFraction (← dropZeros? cs))

/-- The plain form of an integer in a document, without blanks around it and without a plus sign. -/
def plainForm? (cs : List Code) : Option (List Code) :=
  match trimWith isWhite cs with
  | '+' :: '-' :: _ => none
  | '+' :: rest => plainDigits? rest
  | '-' :: rest => (plainDigits? rest).map ('-' :: ·)
  | rest => plainDigits? rest

/-- A minus sign, if there is one, and what follows it. -/
def minusOf : List Code → Bool × List Code
  | '-' :: cs => (true, cs)
  | cs => (false, cs)

/-- An integer in plain form: zero, or digits that start with another one, within the limit. -/
def readPlainInteger? (cs : List Code) : Option Int :=
  let (negative, ds) := minusOf cs
  if ds = [.char '0'] then some 0
  else if !ds.isEmpty && ds.all Code.isDigit && ds.head? != some (.char '0') &&
      ds.length ≤ digitLimit then
    some (signed negative (digitsValue ds))
  else none

/-- Whether a text starts with the digits of an integer beyond the limit. -/
def startsOverlong (cs : List Code) : Bool :=
  let ds := (minusOf cs).2.takeWhile Code.isDigit
  ds.head? != some (.char '0') && digitLimit < ds.length

def looseInteger? (s : Text) : Option Int := (plainForm? s.toList).bind readPlainInteger?

def looseDouble? (s : Text) : Option Double :=
  match readPlainDouble? (trimWith isWhite s.toList) with
  | some x => some x
  | none => (dropUnderscores? false s.toList).bind readPlainDouble?

end Storyworld
