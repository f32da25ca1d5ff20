import Storyworld.Text
import Storyworld.Text.DecimalZeros
import Storyworld.Text.UnprintableRanges
import Storyworld.Text.WordRanges

/-! Character classes: blanks, line breaks, word characters, decimal digits and characters that
print as themselves. -/

namespace Storyworld

/-- Whether a code point lies in one of the closed ranges. -/
def covers (ranges : List (Nat × Nat)) (c : Code) : Bool :=
  ranges.any fun r => r.1 ≤ c.toNat && c.toNat ≤ r.2

/-- White space and the four information separators; zero-width spaces are not blank. -/
def blankRanges : List (Nat × Nat) := [
  (0x9, 0xd), (0x1c, 0x20), (0x85, 0x85), (0xa0, 0xa0), (0x1680, 0x1680), (0x2000, 0x200a),
  (0x2028, 0x2029), (0x202f, 0x202f), (0x205f, 0x205f), (0x3000, 0x3000)]

def isBlank (c : Code) : Bool := covers blankRanges c

/-- White space in the narrower sense of the Unicode property, without the information
separators. -/
def isWhite (c : Code) : Bool := isBlank c && !(0x1c ≤ c.toNat && c.toNat ≤ 0x1f)

def isLineBreak (c : Code) : Bool :=
  covers [(0xa, 0xd), (0x1c, 0x1e), (0x85, 0x85), (0x2028, 0x2029)] c

def isWordChar (c : Code) : Bool :=
  if c.toNat < 128 then c.isAlphanum || c == '_' else covers wordRanges c

/-- The value of a decimal digit of any script. -/
def decimalValue? (c : Code) : Option Nat :=
  (decimalZeros.find? fun z => z ≤ c.toNat && c.toNat ≤ z + 9).map (c.toNat - ·)

def isPrintable (c : Code) : Bool :=
  if c.toNat < 128 then 32 ≤ c.toNat && c.toNat < 127 else !covers unprintableRanges c

end Storyworld
