import Storyworld.Card
import Storyworld.Value.Text

/-! Why an operator gives no value. Most often it does not suit the parameter and is refused, which
leaves the old value standing; a number that is too long to read or too large to compare is a
failure of its own. -/

namespace Storyworld

inductive Refusal where
  | notNumeric (operator : Text)
  | notDeclared (operator : Text) (values : List Text)
  | notBoolean (operator : Text)
  | valueMissing
  | malformedValue
  | wrongItem (value : Value) (type : ItemType)
  | wrongField (field : Text) (value : Value) (type : ItemType)
  | notIndex (text : Text)
  | noCondition (value : Value)
  | unknownRelation (name : Value)
  | fieldNotText (field : Value)
  | notArray (value : Value)
  | unknownArrayOperator (operator : Text)

def Refusal.message : Refusal → Text
  | notNumeric op => displayed op ++ " is neither a number nor a symbolic delta"
  | notDeclared op values =>
    displayed op ++ " is not one of " ++ (Value.list (values.map .text)).shown
  | notBoolean op => displayed op ++ " is not a boolean"
  | valueMissing => "operator needs a value"
  | malformedValue => "value is not valid JSON"
  | wrongItem v type => v.shown ++ " is not a " ++ type.name
  | wrongField field v type =>
    "field " ++ displayed field ++ " of " ++ v.shown ++ " is not a " ++ type.name
  | notIndex s => displayed s ++ " is not an index"
  | noCondition v => "condition must be an object with a value: " ++ v.shown
  | unknownRelation name => "unknown condition op " ++ name.shown
  | fieldNotText field => "condition field must be a string: " ++ field.shown
  | notArray v => "set needs a JSON array, got " ++ v.kindName
  | unknownArrayOperator op => "unknown array operator " ++ displayed op

inductive OperatorError where
  | refused (why : Refusal)
  | overlong
  | tooLarge

end Storyworld
