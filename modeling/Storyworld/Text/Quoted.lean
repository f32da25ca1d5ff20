import Storyworld.Text.Classes

/-! Texts in quotes. A display quote prefers the single mark and escapes what does not print; a
data quote always uses the double mark and escapes controls, and on request all that is not
ASCII. -/

namespace Storyworld

def hexDigit (n : Nat) : Code := if n < 10 then Code.ofNat (48 + n) else Code.ofNat (87 + n)

def hexDigits : Nat → Nat → List Code
  | 0, _ => []
  | width + 1, n => hexDigits width (n / 16) ++ [hexDigit (n % 16)]

/-- A character that does not print as itself, by its code point. -/
def codeEscape (c : Code) : List Code :=
  if c.toNat < 0x100 then '\\' :: 'x' :: hexDigits 2 c.toNat
  else if c.toNat < 0x10000 then '\\' :: 'u' :: hexDigits 4 c.toNat
  else '\\' :: 'U' :: hexDigits 8 c.toNat

def displayChar (mark c : Code) : List Code :=
  if c = mark || c = '\\' then ['\\', c]
  else if c = '\n' then ['\\', 'n']
  else if c = '\r' then ['\\', 'r']
  else if c = '\t' then ['\\', 't']
  else if isPrintable c then [c]
  else codeEscape c

/-- Single marks, unless the text has one and no double mark. -/
def displayMark (cs : List Code) : Code :=
  if cs.contains '\x27' && !cs.contains '\x22' then '\x22' else '\x27'

def display (cs : List Code) : List Code :=
  displayMark cs :: cs.flatMap (displayChar (displayMark cs)) ++ [displayMark cs]

def displayed (s : Text) : Text := Text.ofList (display s.toList)

/-- An escape by code unit, in two halves beyond the basic plane; a half by itself has its own. -/
def unitEscape (c : Code) : List Code :=
  if c.toNat < 0x10000 then unit c.toNat
  else
    unit (0xd800 + (c.toNat - 0x10000) / 0x400) ++ unit (0xdc00 + (c.toNat - 0x10000) % 0x400)
where
  unit (n : Nat) : List Code := '\\' :: 'u' :: hexDigits 4 n

def shortEscape? (c : Code) : Option Code :=
  if c = '\x22' || c = '\\' then some c
  else if c = '\n' then some 'n'
  else if c = '\r' then some 'r'
  else if c = '\t' then some 't'
  else if c = '\x08' then some 'b'
  else if c = '\x0c' then some 'f'
  else none

def dataChar (ascii : Bool) (c : Code) : List Code :=
  match shortEscape? c with
  | some e => ['\\', e]
  | none => if c.toNat < 32 || (ascii && 127 ≤ c.toNat) then unitEscape c else [c]

def quoteData (ascii : Bool) (cs : List Code) : List Code :=
  .char '\x22' :: cs.flatMap (dataChar ascii) ++ [.char '\x22']

/-- The text as a JSON string, with characters beyond ASCII kept. -/
def quoted (s : Text) : Text := Text.ofList (quoteData false s.toList)

def quotedAscii (s : Text) : Text := Text.ofList (quoteData true s.toList)

end Storyworld
