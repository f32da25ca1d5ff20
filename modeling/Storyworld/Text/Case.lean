import Storyworld.Text.CaseRanges
import Storyworld.Text.Classes

/-! Lower case, of one character by itself and of a whole text, where a capital sigma at the end
of a word and the dotted capital I have their own forms. -/

namespace Storyworld

/-- The lower case of a character that has one of a single character. -/
def lowerChar (c : Code) : Code :=
  if c.toNat < 128 then c.toLower
  else match lowerRuns.find? fun r =>
      r.1 ≤ c.toNat && c.toNat ≤ r.2.1 && (c.toNat - r.1) % r.2.2.1 == 0 with
    | some (first, _, _, image) => Code.ofNat (image + (c.toNat - first))
    | none => c

/-- Whether a cased letter follows, past characters that casing ignores. -/
def casedNext (cs : List Code) : Bool :=
  match cs.dropWhile (covers caseIgnorableRanges) with
  | [] => false
  | c :: _ => covers casedRanges c

/-- The lower case of a text, given whether a cased letter stands before it. -/
def lowerAfter (cased : Bool) : List Code → List Code
  | [] => []
  | c :: cs =>
    let after := if covers caseIgnorableRanges c then cased else covers casedRanges c
    if c = 'Σ' then (if cased && !casedNext cs then 'ς' else 'σ') :: lowerAfter after cs
    else if c = 'İ' then 'i' :: '\u0307' :: lowerAfter after cs
    else lowerChar c :: lowerAfter after cs

def lower (cs : List Code) : List Code := lowerAfter false cs

def lowered (s : Text) : Text := Text.ofList (lower s.toList)

/-- Whether a character stands for a small ASCII letter when case is ignored; the dotless i and the
long s count as an i and an s. -/
def standsFor (letter c : Code) : Bool :=
  lowerChar c == letter || (letter == 'i' && c == 'ı') || (letter == 's' && c == 'ſ')

end Storyworld
