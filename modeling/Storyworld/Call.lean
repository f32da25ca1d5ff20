import Storyworld.Text.Trim

/-! Calls in free text: the word `set`, on its own or behind `ce.`, with its arguments in
parentheses. An argument is a quoted text, in which a backslash keeps the quotation mark, or a run
of bare characters. What is no complete call is passed over. -/

namespace Storyworld

/-- A call with the positions of its first character and of the character after its last. -/
structure Call where
  args : List Text
  start : Nat
  stop : Nat
deriving DecidableEq

def isQuote (c : Code) : Bool := c == '\x27' || c == '\x22'

def isBare (c : Code) : Bool :=
  !isBlank c && c != ',' && c != '(' && c != ')' && !isQuote c

/-- How far the reading of an argument list has come. Characters of the current argument are kept
newest first. -/
inductive ArgumentState where
  | first
  | next
  | quoted (mark : Code) (taken : List Code)
  | bare (taken : List Code)
  | after

/-- The arguments up to the closing parenthesis, after those already read, with the text behind
it. -/
def readArguments : ArgumentState → List Text → List Code → Option (List Text × List Code)
  | _, _, [] => none
  | .quoted mark taken, args, '\\' :: c :: cs =>
    if c = mark then readArguments (.quoted mark (c :: taken)) args cs
    else readArguments (.quoted mark ('\\' :: taken)) args (c :: cs)
  | .quoted mark taken, args, c :: cs =>
    if c = mark then readArguments .after (args ++ [Text.ofList taken.reverse]) cs
    else if c = '\n' then none
    else readArguments (.quoted mark (c :: taken)) args cs
  | .bare taken, args, c :: cs =>
    if isBare c then readArguments (.bare (c :: taken)) args cs
    else
      let done := args ++ [Text.ofList taken.reverse]
      if isBlank c then readArguments .after done cs
      else if c = ',' then readArguments .next done cs
      else if c = ')' then some (done, cs)
      else none
  | .after, args, c :: cs =>
    if isBlank c then readArguments .after args cs
    else if c = ',' then readArguments .next args cs
    else if c = ')' then some (args, cs)
    else none
  | .next, args, c :: cs =>
    if isBlank c then readArguments .next args cs
    else if c = ')' then some (args, cs)
    else if isQuote c then readArguments (.quoted c []) args cs
    else if isBare c then readArguments (.bare [c]) args cs
    else none
  | .first, args, c :: cs =>
    if isBlank c then readArguments .first args cs
    else if isQuote c then readArguments (.quoted c []) args cs
    else if isBare c then readArguments (.bare [c]) args cs
    else none

def afterSet? (cs : List Code) : Option (List Code) :=
  match cs with
  | 's' :: 'e' :: 't' :: rest =>
    match rest.dropWhile isBlank with
    | '(' :: arguments => some arguments
    | _ => none
  | _ => none

def afterHead? (cs : List Code) : Option (List Code) :=
  match cs with
  | 'c' :: 'e' :: rest =>
    match rest.dropWhile isBlank with
    | '.' :: name => afterSet? (name.dropWhile isBlank)
    | _ => none
  | _ => afterSet? cs

def joinsHead (c : Code) : Bool := c.isAlphanum || c == '_' || c == '.'

/-- The call at the front of a text, as its arguments and the text behind it, where `before` is the
character before the text. -/
def callAt? (before : Option Code) (cs : List Code) : Option (List Text × List Code) :=
  if before.any joinsHead then none
  else (afterHead? cs).bind (readArguments .first [])

/-- The calls of a text that starts at a position, after a number of characters that belong to the
call before. -/
def callsFrom : Option Code → Nat → Nat → List Code → List Call
  | _, _, _, [] => []
  | _, position, skip + 1, c :: cs => callsFrom (some c) (position + 1) skip cs
  | before, position, 0, c :: cs =>
    match callAt? before (c :: cs) with
    | some (args, rest) =>
      let length := (c :: cs).length - rest.length
      ⟨args, position, position + length⟩ ::
        callsFrom (some c) (position + 1) (length - 1) cs
    | none => callsFrom (some c) (position + 1) 0 cs

/-- The calls of a text, in order; none begins inside another. -/
def Call.all (text : Text) : List Call := callsFrom none 0 0 text.toList

end Storyworld
