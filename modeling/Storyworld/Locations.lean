import Storyworld.Block

/-! The current location and the candidates for the next one, oldest first. -/

namespace Storyworld

structure Locations where
  current : Option Text
  candidate : List Text
deriving DecidableEq

namespace Locations

def empty : Locations := ⟨none, []⟩

/-- The new current location is no candidate any longer; the old one does not become one. -/
def setCurrent (l : Locations) (name : Text) : Locations := ⟨some name, l.candidate.erase name⟩

/-- Appends a candidate and gives the one that makes room for it. The current location and those
that are candidates already are not added. -/
def addCandidate (l : Locations) (name : Text) (limit : Nat) : Option Text × Locations :=
  if l.current = some name ∨ l.candidate.contains name ∨ limit = 0 then (none, l)
  else if limit ≤ l.candidate.length then
    (l.candidate.head?, ⟨l.current, l.candidate.tail ++ [name]⟩)
  else (none, ⟨l.current, l.candidate ++ [name]⟩)

def removeCandidate (l : Locations) (name : Text) : Bool × Locations :=
  (l.candidate.contains name, ⟨l.current, l.candidate.erase name⟩)

end Locations

end Storyworld
