import Storyworld.Text.Case
import Storyworld.Text.Trim

/-! Elements between an opening and a closing tag. Tags are compared without regard to case, an
opening tag may hold more text behind its name, and a closing tag may hold blanks. -/

namespace Storyworld

/-- The text behind a tag name, its letters compared by `same`. -/
def afterName? (same : Code → Code → Bool) : List Code → List Code → Option (List Code)
  | [], cs => some cs
  | t :: ts, c :: cs => if same t c then afterName? same ts cs else none
  | _ :: _, [] => none

/-- The text behind the rest of an opening tag, whose name must end here. -/
def afterOpening? : List Code → Option (List Code)
  | [] => none
  | c :: cs =>
    if isWordChar c then none
    else match (c :: cs).dropWhile (· != .char '>') with
      | _ :: rest => some rest
      | [] => none

def afterClosing? (same : Code → Code → Bool) (tag : List Code) : List Code → Option (List Code)
  | '<' :: '/' :: cs =>
    match (afterName? same tag cs).map (List.dropWhile isBlank) with
    | some ('>' :: rest) => some rest
    | _ => none
  | _ => none

/-- The text up to the first closing tag, and the text behind that. -/
def untilClosing? (same : Code → Code → Bool) (tag : List Code) :
    List Code → Option (List Code × List Code)
  | [] => none
  | c :: cs =>
    match afterClosing? same tag (c :: cs) with
    | some rest => some ([], rest)
    | none => (untilClosing? same tag cs).map fun (body, rest) => (c :: body, rest)

/-- What `found?` finds in a text, from left to right without overlap, after a number of characters
that belong to the find before. A find comes with the text behind it. -/
def leftmost {α : Type} (found? : List Code → Option (α × List Code)) : Nat → List Code → List α
  | _, [] => []
  | skip + 1, _ :: cs => leftmost found? skip cs
  | 0, c :: cs =>
    match found? (c :: cs) with
    | some (a, rest) => a :: leftmost found? (cs.length - rest.length) cs
    | none => leftmost found? 0 cs

/-- The body of an element with a given tag, in small letters, at the front of a text. -/
def elementAt? (tag : List Code) : List Code → Option (List Code × List Code)
  | '<' :: cs => do
    untilClosing? standsFor tag (← afterOpening? (← afterName? standsFor tag cs))
  | _ => none

def elements (tag : Text) (cs : List Code) : List (List Code) :=
  leftmost (elementAt? tag.toList) 0 cs

def sameLower (a b : Code) : Bool := lowerChar a == lowerChar b

/-- Tag and body of an element with any tag at the front of a text. -/
def anyElementAt? : List Code → Option ((List Code × List Code) × List Code)
  | '<' :: cs => do
    let tag := cs.takeWhile isWordChar
    if tag.isEmpty then none
    else
      let (body, rest) ← untilClosing? sameLower tag (← afterOpening? (cs.drop tag.length))
      some ((tag, body), rest)
  | _ => none

/-- Tags and bodies of all elements that are not inside another. -/
def allElements (cs : List Code) : List (List Code × List Code) := leftmost anyElementAt? 0 cs

end Storyworld
