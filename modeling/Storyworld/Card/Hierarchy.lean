import Storyworld.Card
import Storyworld.Document.Problem

/-! The hierarchy of locations: every entity leads up through declared locations to a root. -/

namespace Storyworld

/-- The names above an entity, nearest first, where `parent` is its parent and `seen` are the names
passed so far. A level that leads on passes a new declared name, so there are never more levels
than entities. -/
def climb (entities : List Entity) (start : Text) :
    Nat → List Text → Option Text → Except Breach (List Text)
  | levels, seen, some parent =>
    if parent = "" then .ok []
    else match entities.find? (·.name == parent) with
      | none => .error (.unknownParent start parent)
      | some owner =>
        if owner.type ≠ .location then .error (.unknownParent start parent)
        else if seen.contains parent then .error (.cycle parent)
        else match levels with
          | 0 => .error (.cycle parent)
          | rest + 1 =>
            match climb entities start rest (parent :: seen) owner.parentLocation with
            | .ok names => .ok (parent :: names)
            | .error breach => .error breach
  | _, _, none => .ok []

namespace Card

def lineage (card : Card) (e : Entity) : Except Breach (List Text) :=
  match climb card.entities e.name card.entities.length [e.name] e.parentLocation with
  | .ok names => .ok (e.name :: names)
  | .error breach => .error breach

/-- The names from the root down to an entity, joined by dots. -/
def pathOf (card : Card) (e : Entity) : Text :=
  match card.lineage e with
  | .ok names => Text.intercalate "." names.reverse
  | .error _ => e.name

def brokenLineage? (card : Card) : Option Breach :=
  card.entities.findSome? fun e =>
    match card.lineage e with
    | .ok _ => none
    | .error breach => some breach

end Card

end Storyworld
