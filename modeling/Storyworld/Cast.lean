import Storyworld.Block

/-! The cast: characters in tiers, each ordered from the one affirmed longest ago. A full tier gives
up that one for a newcomer. -/

namespace Storyworld

structure Cast where
  focus : List Text
  presentSupporting : List Text
  offstageRelated : List Text
deriving DecidableEq

def CharacterLimits.limit (l : CharacterLimits) : Tier → Nat
  | .focus => l.focus
  | .presentSupporting => l.presentSupporting
  | .offstageRelated => l.offstageRelated

namespace Cast

def empty : Cast := ⟨[], [], []⟩

def members (c : Cast) : Tier → List Text
  | .focus => c.focus
  | .presentSupporting => c.presentSupporting
  | .offstageRelated => c.offstageRelated

def setMembers (c : Cast) (names : List Text) : Tier → Cast
  | .focus => { c with focus := names }
  | .presentSupporting => { c with presentSupporting := names }
  | .offstageRelated => { c with offstageRelated := names }

def tierOf? (c : Cast) (name : Text) : Option Tier :=
  Tier.all.find? fun t => (c.members t).contains name

def remove (c : Cast) (name : Text) : Cast :=
  match c.tierOf? name with
  | some t => c.setMembers ((c.members t).erase name) t
  | none => c

/-- Puts a name at the end of a tier, and gives the name that leaves the cast for it. A tier without
room takes nobody in. -/
def enter (c : Cast) (name : Text) (tier : Tier) (limits : CharacterLimits) :
    Option Text × Cast :=
  if limits.limit tier = 0 then (none, c)
  else
    let others := (c.remove name).members tier
    if c.tierOf? name ≠ some tier ∧ limits.limit tier ≤ others.length then
      (others.head?, (c.remove name).setMembers (others.tail ++ [name]) tier)
    else (none, (c.remove name).setMembers (others ++ [name]) tier)

/-- Takes a name out of the cast, and tells whether it was there. -/
def leave (c : Cast) (name : Text) : Bool × Cast :=
  ((c.tierOf? name).isSome, c.remove name)

end Cast

end Storyworld
