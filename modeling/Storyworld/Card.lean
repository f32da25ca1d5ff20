import Storyworld.Value

/-! Cards: the parameters, entities and ceilings that a conversation is played with. -/

namespace Storyworld

/-- Where a parameter has its values: once for the world or the scene, for each character, or for
each pair of characters. -/
inductive Scope where
  | global
  | scene
  | character
  | relationship
deriving DecidableEq

namespace Scope

def all : List Scope := [global, scene, character, relationship]

def name : Scope → Text
  | global => "global"
  | scene => "scene"
  | character => "character"
  | relationship => "relationship"

/-- How many names a path to a value of this scope has. -/
def segments : Scope → Nat
  | global => 1
  | scene => 1
  | character => 2
  | relationship => 3

def ofName? (s : Text) : Option Scope := all.find? (name · == s)

end Scope

inductive ParameterType where
  | number
  | enum
  | boolean
  | text
  | array
deriving DecidableEq

namespace ParameterType

def all : List ParameterType := [number, enum, boolean, text, array]

def name : ParameterType → Text
  | number => "number"
  | enum => "enum"
  | boolean => "boolean"
  | text => "text"
  | array => "array"

end ParameterType

inductive ItemType where
  | string
  | number
  | boolean
  | object
deriving DecidableEq

namespace ItemType

def all : List ItemType := [string, number, boolean, object]

def name : ItemType → Text
  | string => "string"
  | number => "number"
  | boolean => "boolean"
  | object => "object"

/-- Whether a value is of the type; truth values are no numbers. -/
def admits : ItemType → Value → Bool
  | string, .text _ => true
  | number, .number _ => true
  | boolean, .bool _ => true
  | object, .object _ => true
  | _, _ => false

end ItemType

inductive EntityType where
  | character
  | location
deriving DecidableEq

namespace EntityType

def all : List EntityType := [character, location]

def name : EntityType → Text
  | character => "character"
  | location => "location"

end EntityType

/-- A named range of a number parameter, both ends included. -/
structure PhaseBand where
  name : Text
  range : Double × Double

/-- What an array holds: items of one type, at most so many, and the types of their fields. -/
structure ArrayConfig where
  itemType : ItemType
  maxLength : Option Nat
  itemFields : Option (Entries Text ItemType)

def ArrayConfig.standard : ArrayConfig := ⟨.string, none, none⟩

structure Parameter where
  name : Text
  id : Option Text
  scope : Scope
  type : ParameterType
  description : Text
  default : Value
  phases : List PhaseBand
  enumValues : List Text
  arrayConfig : ArrayConfig
  min : Option Double
  max : Option Double

structure Entity where
  name : Text
  type : EntityType
  parameterNames : List Text
  parentLocation : Option Text

/-- How many characters each tier of the cast holds. -/
structure CharacterLimits where
  focus : Nat
  presentSupporting : Nat
  offstageRelated : Nat

def CharacterLimits.standard : CharacterLimits := ⟨3, 5, 10⟩

structure LocationLimits where
  candidate : Nat

def LocationLimits.standard : LocationLimits := ⟨10⟩

structure CastConfig where
  characters : CharacterLimits
  locations : LocationLimits

def CastConfig.standard : CastConfig := ⟨.standard, .standard⟩

structure Card where
  parameters : List Parameter
  entities : List Entity
  castConfig : CastConfig

end Storyworld
