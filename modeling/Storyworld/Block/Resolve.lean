import Storyworld.Block
import Storyworld.Call
import Storyworld.Card.Lookup
import Storyworld.Operator

/-! From calls to mutations: the path of a call is resolved against the card, and its further
arguments are a value, if the operator takes one, and a note. -/

namespace Storyworld

/-- The names of a path, without blanks around them. -/
def pathSegments (path : Text) : List Text :=
  (splitAtMark (.char '.') path.toList).map fun cs => Text.ofList (trim cs)

/-- A path of one to three names: subject, parameter key and target. -/
def splitPath? (path : Text) : Option (Option Text × Text × Option Text) :=
  let segments := pathSegments path
  if segments.contains "" then none
  else match segments with
    | [key] => some (none, key, none)
    | [subject, key] => some (some subject, key, none)
    | [subject, key, target] => some (some subject, key, some target)
    | _ => none

namespace Card

/-- The canonical name of an entity that a path may leave out. -/
def entityName? (card : Card) : Option Text → Option (Option Text)
  | none => some none
  | some key => (card.entity? key).map fun e => some e.name

def resolve? (card : Card) (call : Call) : Option Mutation :=
  match call.args with
  | path :: operator :: extra => do
    let path := trimmed path
    let (subject, key, target) ← splitPath? path
    let p ← card.parameter? key
    if p.scope.segments ≠ (pathSegments path).length then none
    else
      let subject ← card.entityName? subject
      let target ← card.entityName? target
      let operator := if p.type = .text then operator else trimmed operator
      let (literal, note) :=
        if p.takesValue operator then (extra[0]?, extra[1]?) else (none, extra[0]?)
      some ⟨path, operator, literal, note, p.scope, p.name, subject, target⟩
  | _ => none

def mutations (card : Card) (text : Text) : List Mutation :=
  (Call.all text).filterMap card.resolve?

end Card

end Storyworld
