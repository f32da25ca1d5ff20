import Storyworld.Card

/-! Blocks: all that one text asks for, resolved against a card. -/

namespace Storyworld

/-- The tiers of the cast, by how close the characters are to the scene. -/
inductive Tier where
  | focus
  | presentSupporting
  | offstageRelated
deriving DecidableEq

namespace Tier

def all : List Tier := [focus, presentSupporting, offstageRelated]

def name : Tier → Text
  | focus => "focus"
  | presentSupporting => "present_supporting"
  | offstageRelated => "offstage_related"

def ofName? (s : Text) : Option Tier := all.find? (name · == s)

end Tier

/-- A request to change one value, with the path as it was written and the coordinates it resolves
to. -/
structure Mutation where
  path : Text
  operator : Text
  valueLiteral : Option Text
  note : Option Text
  scope : Scope
  parameter : Text
  subject : Option Text
  target : Option Text

inductive CastAction where
  | enter
  | leave
deriving DecidableEq

namespace CastAction

def all : List CastAction := [enter, leave]

def name : CastAction → Text
  | enter => "enter"
  | leave => "leave"

end CastAction

structure CastIntent where
  action : CastAction
  entity : Text
  tier : Option Tier
  note : Option Text

inductive LocationAction where
  | setCurrent
  | addCandidate
  | removeCandidate
deriving DecidableEq

namespace LocationAction

def all : List LocationAction := [setCurrent, addCandidate, removeCandidate]

def name : LocationAction → Text
  | setCurrent => "set_current"
  | addCandidate => "add_candidate"
  | removeCandidate => "remove_candidate"

end LocationAction

structure LocationIntent where
  action : LocationAction
  location : Text

/-- What is to be noted about the scene; what is absent stays as it is. -/
structure SceneUpdate where
  locationHint : Option Text
  sceneTags : Option (List Text)

/-- Everything one text asks for, each kind in written order. -/
structure Block where
  mutations : List Mutation
  cast : List CastIntent
  locations : List LocationIntent
  scene : Option SceneUpdate

end Storyworld
