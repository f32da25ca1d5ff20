import Storyworld.Text.Trim

/-! Places of files, and the two that a conversation has: the document of its card, and the folder
with its history and checkpoint. -/

namespace Storyworld

/-- A place, by the names on the way to it from the root. -/
abbrev Place := List String

namespace Place

/-- Two dots lead up, one dot and an empty name lead nowhere. -/
def enter (place : Place) (name : String) : Place :=
  if name = ".." then place.dropLast
  else if name = "." ∨ name = "" then place
  else place ++ [name]

/-- The place that a path leads to from a folder. Slashes divide its names, and one in front starts
it at the root. -/
def reach (folder : Place) (path : String) : Place :=
  ((splitAtMark '/' path.toList).map String.ofList).foldl enter
    (if path.toList.head? = some '/' then [] else folder)

def ofCard (conversations : Place) (slug : String) : Place :=
  conversations.reach (slug ++ ".json")

def ofFolder (conversations : Place) (slug : String) : Place := conversations.reach slug

end Place

end Storyworld
