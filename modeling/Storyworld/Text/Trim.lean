import Storyworld.Text.Classes

/-! Cutting characters of a class off the ends of a text, and splitting it into lines or at a
mark. -/

namespace Storyworld

variable {κ : Type}

def trimStart (p : κ → Bool) (cs : List κ) : List κ := cs.dropWhile p

def trimEnd (p : κ → Bool) (cs : List κ) : List κ := (cs.reverse.dropWhile p).reverse

def trimWith (p : κ → Bool) (cs : List κ) : List κ := trimEnd p (trimStart p cs)

def trim (cs : List Code) : List Code := trimWith isBlank cs

def trimmed (s : Text) : Text := Text.ofList (trim s.toList)

/-- The lines of a text; a carriage return and a newline end one line together, and a break at the
end opens no further line. -/
def lines : List Code → List (List Code)
  | [] => []
  | '\r' :: '\n' :: cs => [] :: lines cs
  | c :: cs =>
    if isLineBreak c then [] :: lines cs
    else match lines cs with
      | [] => [[c]]
      | l :: ls => (c :: l) :: ls

/-- The parts between the marks, one more than there are marks. -/
def splitAtMark [DecidableEq κ] (mark : κ) : List κ → List (List κ)
  | [] => [[]]
  | c :: cs =>
    if c = mark then [] :: splitAtMark mark cs
    else match splitAtMark mark cs with
      | [] => [[c]]
      | p :: ps => (c :: p) :: ps

/-- The parts before and after the first mark; without a mark all is before it. -/
def cutAtMark (mark : Code) (cs : List Code) : List Code × List Code :=
  (cs.takeWhile (· != mark), (cs.dropWhile (· != mark)).tail)

end Storyworld
