import Storyworld.Operator.Error
import Storyworld.Variables

/-! What can go wrong in answering for a state. -/

namespace Storyworld

inductive Fault where
  | overlong
  | tooLarge
  | address (e : AddressError)
  | write (e : WriteError)
  | unknownParameter (name : Text)
  | outsideHistory (index : Int) (count : Nat)

namespace Fault

/-- The text of a fault that a caller can mend. -/
def message? : Fault → Option Text
  | address e => some e.message
  | unknownParameter name => some ("unknown parameter " ++ displayed name)
  | outsideHistory index count =>
    some ("history index " ++ toString index ++ " outside [0, " ++
      toString ((count : Int) - 1) ++ "]")
  | _ => none

end Fault

end Storyworld
