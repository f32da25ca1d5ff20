import Storyworld.Number.Reading
import Storyworld.Value

/-! The lexemes of JSON text. Besides the standard ones there are the words for infinities and
not-a-number. What is no lexeme becomes a token that fits nowhere. -/

namespace Storyworld.Json

inductive Token where
  | openList
  | closeList
  | openObject
  | closeObject
  | comma
  | colon
  | text (s : Text)
  | literal (v : Value)
  | overlong
  | stray

def hexDigitValue? (c : Code) : Option Nat :=
  if c.isDigit then some (c.toNat - 48)
  else if 'a' ≤ c ∧ c ≤ 'f' then some (c.toNat - 87)
  else if 'A' ≤ c ∧ c ≤ 'F' then some (c.toNat - 55)
  else none

def hexValue? (cs : List Code) : Option Nat :=
  cs.foldlM (fun n c => (hexDigitValue? c).map (n * 16 + ·)) 0

def escaped? : Code → Option Code
  | '\x22' => some '\x22'
  | '\\' => some '\\'
  | '/' => some '/'
  | 'b' => some '\x08'
  | 'f' => some '\x0c'
  | 'n' => some '\n'
  | 'r' => some '\r'
  | 't' => some '\t'
  | _ => none

/-- A part of a string: a code point as it stands or by its short escape, or a code unit by its
number. -/
inductive Part where
  | code (c : Code)
  | unit (n : Nat)

/-- The parts of a string up to its closing mark, with the number of code points read. -/
def stringBody : List Code → Option (List Part × Nat)
  | [] => none
  | '\\' :: 'u' :: a :: b :: c :: d :: cs => do
    let unit ← hexValue? [a, b, c, d]
    let (parts, length) ← stringBody cs
    return (.unit unit :: parts, length + 6)
  | '\\' :: c :: cs => do
    let e ← escaped? c
    let (parts, length) ← stringBody cs
    return (.code e :: parts, length + 2)
  | c :: cs =>
    if c = '\x22' then some ([], 1)
    else if c = '\\' || c.toNat < 32 then none
    else do
      let (parts, length) ← stringBody cs
      return (.code c :: parts, length + 1)

/-- The code points of the parts. Two halves that are both given as units join; a half by itself stays
one. -/
def ofParts : List Part → List Code
  | [] => []
  | .code c :: ps => c :: ofParts ps
  | .unit u :: .unit v :: ps =>
    if 0xd800 ≤ u ∧ u < 0xdc00 ∧ 0xdc00 ≤ v ∧ v < 0xe000 then
      Code.ofNat (0x10000 + (u - 0xd800) * 0x400 + (v - 0xdc00)) :: ofParts ps
    else Code.ofNat u :: ofParts (.unit v :: ps)
  | .unit u :: ps => Code.ofNat u :: ofParts ps

/-- The integer part of a number: a zero, or digits that start with another one. -/
def wholePart (cs : List Code) : List Code :=
  match cs with
  | '0' :: _ => ['0']
  | _ => cs.takeWhile Code.isDigit

def fractionPart (cs : List Code) : List Code :=
  match cs with
  | '.' :: rest =>
    let ds := rest.takeWhile Code.isDigit
    if ds.isEmpty then [] else '.' :: ds
  | _ => []

def exponentPart (cs : List Code) : List Code :=
  match cs with
  | e :: rest =>
    if e == 'e' || e == 'E' then
      let sign := match rest with
        | '-' :: _ => ['-']
        | '+' :: _ => ['+']
        | _ => []
      let ds := (rest.drop sign.length).takeWhile Code.isDigit
      if ds.isEmpty then [] else e :: sign ++ ds
    else []
  | [] => []

/-- The longest number at the front, with its length. Without fraction and exponent it is an
integer, and one of too many digits is a token of its own. -/
def numberToken (cs : List Code) : Token × Nat :=
  let sign := match cs with
    | '-' :: _ => ['-']
    | _ => []
  let afterSign := cs.drop sign.length
  let whole := wholePart afterSign
  let fraction := fractionPart (afterSign.drop whole.length)
  let exponent := exponentPart (afterSign.drop (whole.length + fraction.length))
  let length := sign.length + whole.length + fraction.length + exponent.length
  let negative := !sign.isEmpty
  if whole.isEmpty then (.stray, 1)
  else if fraction.isEmpty && exponent.isEmpty then
    if whole.length ≤ digitLimit then
      (.literal (.int (signed negative (digitsValue whole))), length)
    else (.overlong, length)
  else match readDecimal? negative (whole ++ fraction ++ exponent) with
    | some x => (.literal (.float x), length)
    | none => (.stray, 1)

def words : List (Text × Value) := [
  ("null", .null), ("true", .bool true), ("false", .bool false), ("NaN", .float (.nan true)),
  ("Infinity", .float (.infinite false)), ("-Infinity", .float (.infinite true))]

/-- The token at the front of a text that is not blank there, with its length. -/
def tokenAt (cs : List Code) : Token × Nat :=
  match cs with
  | '[' :: _ => (.openList, 1)
  | ']' :: _ => (.closeList, 1)
  | '\x7b' :: _ => (.openObject, 1)
  | '\x7d' :: _ => (.closeObject, 1)
  | ',' :: _ => (.comma, 1)
  | ':' :: _ => (.colon, 1)
  | '\x22' :: rest =>
    match stringBody rest with
    | some (parts, length) => (.text (Text.ofList (ofParts parts)), length + 1)
    | none => (.stray, 1)
  | _ =>
    match words.find? fun w => w.1.toList.isPrefixOf cs with
    | some (word, v) => (.literal v, word.length)
    | none => numberToken cs

def isJsonBlank (c : Code) : Bool := c == ' ' || c == '\t' || c == '\n' || c == '\r'

/-- The tokens of a text after a number of characters that are already read. -/
def tokensAfter : Nat → List Code → List Token
  | _, [] => []
  | n + 1, _ :: cs => tokensAfter n cs
  | 0, c :: cs =>
    if isJsonBlank c then tokensAfter 0 cs
    else
      let (token, length) := tokenAt (c :: cs)
      token :: tokensAfter (length - 1) cs

def tokens (cs : List Code) : List Token := tokensAfter 0 cs

end Storyworld.Json
