import Storyworld.Cast
import Storyworld.Locations
import Storyworld.Variables

/-! The state of a world after some part of its history. -/

namespace Storyworld

structure Scene where
  locationHint : Text
  sceneTags : List Text
deriving DecidableEq

def Scene.empty : Scene := ⟨"", []⟩

structure State where
  values : Variables
  cast : Cast
  locationCast : Locations
  scene : Scene
  entitiesRuntime : Entries Text (Entries Text Value)

def State.empty : State := ⟨.empty, .empty, .empty, .empty, []⟩

end Storyworld
