import Storyworld.Text.Quoted

/-! What can be wrong with a document, and where. -/

namespace Storyworld

/-- A rule that a part breaks although each of its fields is in order. -/
inductive Breach where
  | enumWithoutValues (parameter : Text)
  | minAboveMax (parameter : Text)
  | sharedKey (key : Text)
  | sharedName (entity : Text)
  | unknownParent (location parent : Text)
  | cycle (parent : Text)
deriving DecidableEq

def Breach.message : Breach → Text
  | enumWithoutValues p => "enum parameter " ++ displayed p ++ " declares no enumValues"
  | minAboveMax p => "parameter " ++ displayed p ++ " has min > max"
  | sharedKey key => "duplicate parameter name or id: " ++ displayed key
  | sharedName name => "duplicate entity name: " ++ displayed name
  | unknownParent name parent =>
    "location " ++ displayed name ++ " has unknown parent " ++ displayed parent
  | cycle parent => "location cycle through " ++ displayed parent

inductive ProblemKind where
  | missing
  | notText
  | notChoice
  | notList
  | notMap
  | notPair
  | tooLong
  | notRecord
  | noAttributes
  | notWhole
  | notFinite
  | noInteger
  | unreadableInteger
  | overlongInteger
  | noNumber
  | unreadableNumber
  | negative
  | breach (b : Breach)
deriving DecidableEq

def ProblemKind.code : ProblemKind → Text
  | missing => "missing"
  | notText => "string_type"
  | notChoice => "literal_error"
  | notList => "list_type"
  | notMap => "dict_type"
  | notPair => "tuple_type"
  | tooLong => "too_long"
  | notRecord => "model_type"
  | noAttributes => "model_attributes_type"
  | notWhole => "int_from_float"
  | notFinite => "finite_number"
  | noInteger => "int_type"
  | unreadableInteger => "int_parsing"
  | overlongInteger => "int_parsing_size"
  | noNumber => "float_type"
  | unreadableNumber => "float_parsing"
  | negative => "greater_than_equal"
  | breach b => "value_error: Value error, " ++ b.message

/-- A problem at a path of keys and positions. -/
structure Problem where
  path : List Text
  kind : ProblemKind
deriving DecidableEq

def Problem.under (segment : Text) (p : Problem) : Problem := ⟨segment :: p.path, p.kind⟩

def Problem.message (p : Problem) : Text :=
  Text.intercalate "." p.path ++ ": " ++ p.kind.code

def problemsMessage (ps : List Problem) : Text :=
  Text.intercalate " | " (ps.map Problem.message)

end Storyworld
