import Storyworld.Json.Token

/-! Reading a value from JSON text, by a machine that keeps the open lists and objects on a stack
and takes one token after another. -/

namespace Storyworld.Json

/-- Why a text has no value. -/
inductive Flaw where
  | malformed
  | overlong
deriving DecidableEq

/-- An open list with its items so far, newest first, or an open object with its fields and the key
whose value is being read. -/
inductive Frame where
  | list (items : List Value)
  | object (fields : Entries Text Value) (key : Text)

/-- What the machine waits for. -/
inductive Reader where
  | value (frames : List Frame)
  | firstItem (frames : List Frame)
  | firstKey (frames : List Frame)
  | key (fields : Entries Text Value) (frames : List Frame)
  | colon (key : Text) (fields : Entries Text Value) (frames : List Frame)
  | done (v : Value) (frames : List Frame)

def beginValue (frames : List Frame) : Token → Except Flaw Reader
  | .openList => .ok (.firstItem frames)
  | .openObject => .ok (.firstKey frames)
  | .text s => .ok (.done (.text s) frames)
  | .literal v => .ok (.done v frames)
  | .overlong => .error .overlong
  | _ => .error .malformed

def afterValue (v : Value) : List Frame → Token → Except Flaw Reader
  | .list items :: frames, .comma => .ok (.value (.list (v :: items) :: frames))
  | .list items :: frames, .closeList => .ok (.done (.list (v :: items).reverse) frames)
  | .object fields key :: frames, .comma => .ok (.key (fields.put key v) frames)
  | .object fields key :: frames, .closeObject => .ok (.done (.object (fields.put key v)) frames)
  | _, _ => .error .malformed

def Reader.step : Reader → Token → Except Flaw Reader
  | value frames, t => beginValue frames t
  | firstItem frames, .closeList => .ok (done (.list []) frames)
  | firstItem frames, t => beginValue (.list [] :: frames) t
  | firstKey frames, .closeObject => .ok (done (.object []) frames)
  | firstKey frames, .text s => .ok (colon s [] frames)
  | key fields frames, .text s => .ok (colon s fields frames)
  | colon k fields frames, .colon => .ok (value (.object fields k :: frames))
  | done v frames, t => afterValue v frames t
  | _, _ => .error .malformed

/-- The machine over a list of tokens; at the end there must be one value and nothing open. -/
def Reader.run : Reader → List Token → Except Flaw Value
  | done v [], [] => .ok v
  | _, [] => .error .malformed
  | r, t :: ts =>
    match r.step t with
    | .ok next => next.run ts
    | .error flaw => .error flaw

def read (s : Text) : Except Flaw Value := (Reader.value []).run (tokens s.toList)

end Storyworld.Json
