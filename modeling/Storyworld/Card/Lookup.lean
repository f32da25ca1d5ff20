import Storyworld.Card.Hierarchy

/-! Finding parameters and entities of a card by what a text calls them. -/

namespace Storyworld.Card

/-- A parameter by its name, or else by its id. -/
def parameter? (card : Card) (key : Text) : Option Parameter :=
  match card.parameters.find? (·.name == key) with
  | some p => some p
  | none => if key = "" then none else card.parameters.find? (·.id == some key)

def locations (card : Card) : List Entity := card.entities.filter (·.type = .location)

/-- An entity by its name, or else a location by its full path. -/
def entity? (card : Card) (key : Text) : Option Entity :=
  match card.entities.find? (·.name == key) with
  | some e => some e
  | none => card.locations.reverse.find? (card.pathOf · == key)

/-- An entity of a type, if what the key finds is of that type. -/
def entityOf? (card : Card) (type : EntityType) (key : Text) : Option Entity :=
  (card.entity? key).filter (·.type = type)

def locationPath? (card : Card) (name : Text) : Option Text :=
  (card.locations.find? (·.name == name)).map card.pathOf

def canonicalLocation? (card : Card) (key : Text) : Option Text :=
  (card.entityOf? .location key).map card.pathOf

def boundEntities (card : Card) (parameter : Text) : List Entity :=
  card.entities.filter (·.parameterNames.contains parameter)

end Storyworld.Card
