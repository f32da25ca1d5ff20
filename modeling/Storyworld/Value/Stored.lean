import Storyworld.Value

/-! What a document keeps of a value. Numbers that are not finite become null there. A text that holds
one half of a surrogate pair cannot be encoded, and neither can a value with such a text. -/

namespace Storyworld

mutual

/-- The value with null for every number that is not finite. -/
def Value.finiteOnly : Value → Value
  | .number (.float x) => if x.isFinite then .number (.float x) else .null
  | .list items => .list (finiteItems items)
  | .object fields => .object (finiteFields fields)
  | v => v

def finiteItems : List Value → List Value
  | [] => []
  | v :: vs => v.finiteOnly :: finiteItems vs

def finiteFields : List (Text × Value) → List (Text × Value)
  | [] => []
  | (k, v) :: fs => (k, v.finiteOnly) :: finiteFields fs

end

mutual

/-- Whether every number in the value is finite. -/
def Value.allFinite : Value → Bool
  | .number (.float x) => x.isFinite
  | .list items => allFiniteItems items
  | .object fields => allFiniteFields fields
  | _ => true

def allFiniteItems : List Value → Bool
  | [] => true
  | v :: vs => v.allFinite && allFiniteItems vs

def allFiniteFields : List (Text × Value) → Bool
  | [] => true
  | (_, v) :: fs => v.allFinite && allFiniteFields fs

end

mutual

/-- Whether the value can be encoded: there is no half in its texts, keys among them. -/
def Value.isPlain : Value → Bool
  | .text s => s.isPlain
  | .list items => plainItems items
  | .object fields => plainFields fields
  | _ => true

def plainItems : List Value → Bool
  | [] => true
  | v :: vs => v.isPlain && plainItems vs

def plainFields : List (Text × Value) → Bool
  | [] => true
  | (k, v) :: fs => k.isPlain && v.isPlain && plainFields fs

end

mutual

theorem Value.isPlain_finiteOnly : ∀ v : Value, v.finiteOnly.isPlain = v.isPlain
  | .null => rfl
  | .bool _ => rfl
  | .text _ => rfl
  | .number (.int _) => rfl
  | .number (.float x) => by
    rw [Value.finiteOnly]
    split <;> rfl
  | .list items => plainItems_finiteItems items
  | .object fields => plainFields_finiteFields fields

theorem plainItems_finiteItems : ∀ vs : List Value, plainItems (finiteItems vs) = plainItems vs
  | [] => rfl
  | v :: vs => by
    rw [finiteItems, plainItems, plainItems, v.isPlain_finiteOnly, plainItems_finiteItems vs]

theorem plainFields_finiteFields : ∀ fs : List (Text × Value),
    plainFields (finiteFields fs) = plainFields fs
  | [] => rfl
  | (k, v) :: fs => by
    rw [finiteFields, plainFields, plainFields, v.isPlain_finiteOnly, plainFields_finiteFields fs]

end

theorem plainItems_eq_all (vs : List Value) : plainItems vs = vs.all (·.isPlain) := by
  induction vs with
  | nil => rfl
  | cons v vs ih => rw [plainItems, ih, List.all_cons]

end Storyworld
