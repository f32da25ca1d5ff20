import Storyworld.Block.Element
import Storyworld.Block.Item
import Storyworld.Block.Resolve

/-! Reading a block out of free text: calls, and elements for the cast, the locations and the
scene. What does not resolve is left out. -/

namespace Storyworld

def tierOfLayer? (layer : Text) : Option Tier :=
  match squash layer.toList with
  | "focus" => some .focus
  | "presentsupporting" => some .presentSupporting
  | "supporting" => some .presentSupporting
  | "offstagerelated" => some .offstageRelated
  | "offstage" => some .offstageRelated
  | _ => none

def Item.layer? (item : Item) : Option Text :=
  (item.attributes.find? fun a => ["preferredlayer", "layer", "tier"].contains a.1).map (·.2)

def castAction? (tag : List Code) : Option CastAction :=
  match squash tag with
  | "enter" => some .enter
  | "leave" => some .leave
  | _ => none

def locationAction? (tag : List Code) : Option LocationAction :=
  match squash tag with
  | "setcurrent" => some .setCurrent
  | "addcandidate" => some .addCandidate
  | "removecandidate" => some .removeCandidate
  | _ => none

/-- The items of the elements inside those with a tag, each with the action of its element. -/
def actionItems {α : Type} (tag : Text) (action? : List Code → Option α) (cs : List Code) :
    List (α × Item) :=
  (elements tag cs).flatMap fun body =>
    (allElements body).flatMap fun (name, inner) =>
      match action? name with
      | some action => (listItems inner).map fun item => (action, item)
      | none => []

namespace Card

/-- The intent of an item of the cast: the character must be declared, and a layer known. -/
def castIntent? (card : Card) (action : CastAction) (item : Item) : Option CastIntent := do
  let (name, note) := entityRef item.head
  if name = "" then none
  else
    let e ← card.entityOf? .character name
    match item.layer? with
    | none => some ⟨action, e.name, none, note⟩
    | some layer => some ⟨action, e.name, some (← tierOfLayer? layer), note⟩

def castIntents (card : Card) (cs : List Code) : List CastIntent :=
  (actionItems "castintent" castAction? cs).filterMap fun (action, item) =>
    card.castIntent? action item

/-- The intent of an item of the locations, by the full path of a declared one. -/
def locationIntent? (card : Card) (action : LocationAction) (item : Item) :
    Option LocationIntent := do
  let (name, _) := entityRef item.head
  if name = "" then none
  else some ⟨action, ← card.canonicalLocation? name⟩

def locationIntents (card : Card) (cs : List Code) : List LocationIntent :=
  (actionItems "locationcastintent" locationAction? cs).filterMap fun (action, item) =>
    card.locationIntent? action item

end Card

/-- Tags from a JSON list, or else from a list with commas. -/
def readTags (raw : Text) : Except Json.Flaw (List Text) :=
  match Json.read raw with
  | .ok (.list items) => .ok (items.map Value.plainText)
  | .error .overlong => .error .overlong
  | _ =>
    let inner := trimWith (fun c : Code => c == '[' || c == ']') (trim raw.toList)
    .ok (((splitAtMark (.char ',') inner).map fun p => Text.ofList (unquote p)).filter (· ≠ ""))

def sceneFields (cs : List Code) : List (String × Text) :=
  (elements "scenemeta" cs).flatMap fun body =>
    (listItems body).flatMap fun item =>
      (match splitLabel? item.head with
        | some (label, value) => [(squash label, Text.ofList value)]
        | none => []) ++ item.attributes

def addSceneField (update : Option SceneUpdate) (field : String × Text) :
    Except Json.Flaw (Option SceneUpdate) :=
  let u := update.getD ⟨none, none⟩
  match field.1 with
  | "locationhint" =>
    .ok (some ⟨some (Text.ofList (unquote field.2.toList)), u.sceneTags⟩)
  | "scenetags" => do .ok (some ⟨u.locationHint, some (← readTags field.2)⟩)
  | _ => .ok update

def sceneUpdate (cs : List Code) : Except Json.Flaw (Option SceneUpdate) :=
  (sceneFields cs).foldlM addSceneField none

/-- Everything that a text asks for. Only an overlong integer among the tags of the scene stands in
the way. -/
def Card.parse (card : Card) (text : Text) : Except Json.Flaw Block := do
  let scene ← sceneUpdate text.toList
  .ok ⟨card.mutations text, card.castIntents text.toList, card.locationIntents text.toList, scene⟩

end Storyworld
