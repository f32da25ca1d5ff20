import Storyworld.Text
import Storyworld.Text.AsciiRuns

/-! Slugs: names reduced to small letters and digits with single hyphens between them. -/

namespace Storyworld

/-- What the compatibility decomposition of a character keeps in ASCII. -/
def asciiRemains (c : Code) : List Char :=
  let n := c.toNat
  if n < 128 then c.char?.toList
  else match asciiRuns.find? fun r => r.1 ≤ n && n < r.1 + r.2.length with
    | some (first, kept) => (kept.toList[n - first]?).toList
    | none =>
      match asciiSequences.find? fun r => r.1 ≤ n && n < r.1 + r.2.length with
      | some (first, kept) => (kept[n - first]?.getD "").toList
      | none => []

def isSlugChar (c : Char) : Bool := ('a' ≤ c && c ≤ 'z') || c.isDigit

def slugWords : List Char → List (List Char)
  | [] => []
  | c :: cs =>
    if isSlugChar c then
      match cs, slugWords cs with
      | d :: _, w :: ws => if isSlugChar d then (c :: w) :: ws else [c] :: w :: ws
      | _, ws => [c] :: ws
    else slugWords cs

/-- The slug of a name. Quotation marks and apostrophes vanish, all else between words becomes one
hyphen, and a name without words is untitled. -/
def slug (name : Text) : String :=
  let ascii := (name.toList.flatMap asciiRemains).map Char.toLower
  let words := slugWords (ascii.filter fun c => c != '\x27' && c != '\x22')
  if words.isEmpty then "untitled"
  else String.intercalate "-" (words.map String.ofList)

end Storyworld
