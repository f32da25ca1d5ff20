import Storyworld.Archive

/-! A conversation to try things out with. -/

namespace Storyworld.Demo

def name : Text := "Library After Hours"

/-- A parameter without bounds, phases, values or a configuration of its own. -/
def parameter (name : Text) (scope : Scope) (type : ParameterType) (default : Value) :
    Parameter :=
  ⟨name, none, scope, type, "", default, [], [], .standard, none, none⟩

def favor : Parameter :=
  { parameter "favor" .character .number (.int 10) with
    id := some "p_favor"
    description := "How warmly the character regards the player"
    min := some (.ofInt 0)
    max := some (.ofInt 100)
    phases := [
      ⟨"wary", .ofInt 0, .ofInt 30⟩,
      ⟨"friendly", .ofInt 31, .ofInt 70⟩,
      ⟨"devoted", .ofInt 71, .ofInt 100⟩] }

def mood : Parameter :=
  { parameter "mood" .character .enum (.text "calm") with
    enumValues := ["calm", "tense", "angry"] }

def backpack : Parameter :=
  { parameter "backpack" .character .array (.list []) with
    arrayConfig := ⟨.object, some 5, some [("name", .string), ("qty", .number)]⟩ }

def timeOfDay : Parameter :=
  { parameter "time_of_day" .scene .enum (.text "evening") with
    enumValues := ["morning", "afternoon", "evening", "night"] }

def card : Card where
  parameters := [
    favor, mood, backpack,
    parameter "trust" .relationship .number (.int 0),
    parameter "weather" .global .text (.text "clear"),
    parameter "alarm_raised" .global .boolean (.bool false),
    timeOfDay]
  entities := [
    ⟨"Alice", .character, ["favor", "mood", "backpack", "trust"], none⟩,
    ⟨"Bob", .character, ["favor", "mood", "trust"], none⟩,
    ⟨"Campus", .location, [], none⟩,
    ⟨"Library", .location, [], some "Campus"⟩,
    ⟨"Cafe", .location, [], some "Campus"⟩]
  castConfig := ⟨⟨2, 5, 10⟩, .standard⟩

def lanternCommands : Text := Text.intercalate "\n" [
  "ce.set('Alice.favor', 'up_small', 'shared the secret')",
  "ce.set('Alice.backpack', 'add_item', '\x7b\"name\": \"lantern\", \"qty\": 1\x7d')",
  "ce.set('time_of_day', 'next')",
  "<CastIntent>",
  "  <enter>- character: Alice (holding a lantern)</enter>",
  "</CastIntent>",
  "<LocationCastIntent>",
  "  <setCurrent>- location: Library</setCurrent>",
  "  <addCandidate>- location: Cafe</addCandidate>",
  "</LocationCastIntent>",
  "<SceneMeta>",
  "  - location_hint: \"The library after hours\"",
  "  - scene_tags: [\"quiet\", \"trespassing\"]",
  "</SceneMeta>"]

def footstepsCommands : Text := Text.intercalate "\n" [
  "ce.set('Bob.mood', 'tense')",
  "ce.set('Alice.trust.Bob', 'down_medium', 'caught us')",
  "ce.set('alarm_raised', 'true')",
  "<CastIntent>",
  "  <enter>",
  "    - character: Bob",
  "      preferredLayer: presentSupporting",
  "  </enter>",
  "</CastIntent>"]

def turns : List Turn := [
  ⟨0, .user, "We slip into the library after closing.", none⟩,
  ⟨1, .assistant, "Alice laughs under her breath and hands you a lantern.",
    some lanternCommands⟩,
  ⟨2, .user, "Footsteps. Someone else is here.", none⟩,
  ⟨3, .assistant, "Bob steps out from behind the stacks, arms folded.",
    some footstepsCommands⟩]

/-- Replaces the demo conversation of an archive by a fresh copy. -/
def renew (a : Archive) : Except ArchiveError (String × Archive) := do
  let (s, added) ← (a.delete (slug name)).2.create name card
  let full ← added.modify s fun c => { c with history := .written turns }
  .ok (s, full)

end Storyworld.Demo
