import Storyworld.Block.Parser
import Storyworld.Proofs.Elements
import Storyworld.Proofs.ItemLines
import Storyworld.Proofs.LocationPaths
import Storyworld.Proofs.Tiers

/-! Elements for the cast and for the locations, written for a list of intents and read back as
these. -/

namespace Storyworld

variable {α β : Type} {card : Card} {spacing : Spacing} {tag name : Text}

/-! Items in elements of their own, inside an element for all of them. -/

def itemTags : List Text := ["enter", "leave", "setCurrent", "addCandidate", "removeCandidate"]

/-- The tags that a text is searched for. -/
def blockTags : List Text := ["castintent", "locationcastintent", "scenemeta"]

theorem word_itemTags : ∀ name ∈ itemTags, name.toList ≠ [] ∧
    ∀ c ∈ name.toList, isWordChar c = true := by
  have hall : ∀ name ∈ itemTags, name.toList ≠ [] ∧ name.toList.all isWordChar = true := by decide
  intro name hname
  exact ⟨(hall name hname).1, List.all_eq_true.mp (hall name hname).2⟩

theorem differs_itemTags : ∀ name ∈ itemTags, ∀ tag ∈ blockTags,
    Differs standsFor tag.toList name.toList := by
  intro name hname tag htag
  simp only [itemTags, List.mem_cons, List.not_mem_nil, or_false] at hname
  simp only [blockTags, List.mem_cons, List.not_mem_nil, or_false] at htag
  rcases hname with rfl | rfl | rfl | rfl | rfl <;>
    rcases htag with rfl | rfl | rfl <;> exact fun _ => rfl

theorem differs_slash (htag : tag ∈ blockTags) : Differs standsFor tag.toList ['/'] := by
  simp only [blockTags, List.mem_cons, List.not_mem_nil, or_false] at htag
  rcases htag with rfl | rfl | rfl <;> exact fun _ => rfl

def itemList (spacing : Spacing) (items : List (Text × ItemText)) : List Code :=
  elementList spacing.between (items.map fun i => (i.1.toList, i.2.written spacing))

theorem Spacing.untagged_between (spacing : Spacing) : .char '<' ∉ spacing.between :=
  (spacing.blank _ (by simp)).untagged

section

variable {items : List (Text × ItemText)}
  (hitems : ∀ i ∈ items, i.1 ∈ itemTags ∧ i.2.Plain)

include hitems

theorem allElements_itemList : allElements (itemList spacing items) =
    items.map fun i => (i.1.toList, i.2.written spacing) := by
  refine allElements_elementList spacing.untagged_between (List.forall_mem_map.mpr fun i hi => ?_)
  obtain ⟨htag, hplain⟩ := hitems i hi
  obtain ⟨hne, hword⟩ := word_itemTags i.1 htag
  exact ⟨hne, hword, hplain.untagged_written spacing⟩

theorem differs_itemList (htag : tag ∈ blockTags) :
    ∀ e ∈ items.map fun i => (i.1.toList, i.2.written spacing),
      (∀ c ∈ e.1, isWordChar c = true) ∧ Differs standsFor tag.toList e.1 ∧ .char '<' ∉ e.2 := by
  refine List.forall_mem_map.mpr fun i hi => ?_
  obtain ⟨hi, hplain⟩ := hitems i hi
  exact ⟨(word_itemTags i.1 hi).2, differs_itemTags i.1 hi tag htag,
    hplain.untagged_written spacing⟩

/-- The element for the items is found by its tag. -/
theorem yields_block (htag : tag ∈ blockTags) (hname : Opens standsFor tag.toList name.toList) :
    Yields (elementAt? tag.toList) (element name.toList (itemList spacing items))
      [itemList spacing items] :=
  yields_element hname
    (unclosed_elementList spacing.untagged_between (differs_itemList hitems htag))

/-- Under another tag nothing is found in the element, nor in those of its items. -/
theorem yields_nil_block (htag : tag ∈ blockTags) (hfree : .char '<' ∉ name.toList)
    (hname : Differs standsFor tag.toList name.toList) :
    Yields (elementAt? tag.toList) (element name.toList (itemList spacing items)) [] := by
  have hslash := differs_slash htag
  exact Yields.element hslash hname hfree
    (yields_elementList spacing.untagged_between hslash (differs_itemList hitems htag))

end

/-- The items of the elements in the body of another, each with the action of its element. -/
def bodyItems (action? : List Code → Option α) (body : List Code) : List (α × Item) :=
  (allElements body).flatMap fun (name, inner) =>
    match action? name with
    | some action => (listItems inner).map fun item => (action, item)
    | none => []

theorem bodyItems_itemList {action? : List Code → Option α} {action : β → α}
    {item : β → Text × ItemText} {l : List β}
    (hitems : ∀ i ∈ l.map item, i.1 ∈ itemTags ∧ i.2.Plain)
    (haction : ∀ b ∈ l, action? (item b).1.toList = some (action b)) :
    bodyItems action? (itemList spacing (l.map item)) =
      l.map fun b => (action b, (item b).2.item) := by
  rw [bodyItems, allElements_itemList hitems, List.map_map, List.flatMap_map, List.map_eq_flatMap]
  refine List.flatMap_congr fun b hb => ?_
  have hplain := (hitems (item b) (List.mem_map_of_mem hb)).2
  simp only [Function.comp_apply, haction b hb, hplain.listItems_written spacing,
    List.map_singleton]

/-! The two styles for the names of layers and for their label. -/

inductive NameStyle where
  | camel
  | snake
deriving DecidableEq

namespace NameStyle

def layerLabel : NameStyle → Text
  | camel => "preferredLayer"
  | snake => "preferred_layer"

def layer : NameStyle → Tier → Text
  | camel, .focus => "focus"
  | camel, .presentSupporting => "presentSupporting"
  | camel, .offstageRelated => "offstageRelated"
  | snake, tier => tier.name

theorem squash_layerLabel (s : NameStyle) : squash s.layerLabel.toList = "preferredlayer" := by
  cases s <;> decide

theorem tierOfLayer?_layer (s : NameStyle) (tier : Tier) :
    tierOfLayer? (s.layer tier) = some tier := by
  cases s <;> cases tier <;> decide

theorem isLabel_layerLabel (s : NameStyle) : IsLabel s.layerLabel.toList ∧
    s.layerLabel.toList.head?.any isBullet = false := by
  cases s <;> decide

theorem plainWords_layer (s : NameStyle) (tier : Tier) : PlainWords (s.layer tier) := by
  cases s <;> cases tier <;> decide

end NameStyle

/-! Intents as they are written. -/

def LocationAction.tagName : LocationAction → Text
  | setCurrent => "setCurrent"
  | addCandidate => "addCandidate"
  | removeCandidate => "removeCandidate"

theorem castAction?_name (a : CastAction) : a.name ∈ itemTags ∧
    castAction? a.name.toList = some a := by
  cases a <;> decide

theorem locationAction?_tagName (a : LocationAction) : a.tagName ∈ itemTags ∧
    locationAction? a.tagName.toList = some a := by
  cases a <;> decide

/-- A request to enter or to leave, and the styles of its layer and the label of that. -/
structure CastEntry where
  intent : CastIntent
  label : NameStyle
  layer : NameStyle

structure LocationEntry where
  action : LocationAction
  place : Entity

namespace CastEntry

variable {e : CastEntry}

def text (e : CastEntry) : ItemText where
  label := "character"
  name := e.intent.entity
  note := e.intent.note
  extra := e.intent.tier.map fun tier => (e.label.layerLabel, e.layer.layer tier)

theorem isLabel_character : IsLabel ("character" : Text).toList := by decide

/-- The character is declared, and its name and the note are plain words. -/
structure Fits (card : Card) (e : CastEntry) : Prop where
  declared : card.HasCharacter e.intent.entity
  name : PlainWords e.intent.entity
  note : ∀ note ∈ e.intent.note, PlainWords note

theorem Fits.plain (h : e.Fits card) : e.text.Plain where
  label := isLabel_character
  name := h.name
  note := h.note
  key := by
    intro a ha
    obtain ⟨tier, -, rfl⟩ := Option.map_eq_some_iff.mp ha
    exact e.label.isLabel_layerLabel
  value := by
    intro a ha
    obtain ⟨tier, -, rfl⟩ := Option.map_eq_some_iff.mp ha
    exact e.layer.plainWords_layer tier

theorem layer?_item (e : CastEntry) : e.text.item.layer? = e.intent.tier.map e.layer.layer := by
  cases htier : e.intent.tier with
  | none => simp [Item.layer?, ItemText.item, text, htier]
  | some tier => simp [Item.layer?, ItemText.item, text, htier, NameStyle.squash_layerLabel]

theorem Fits.castIntent? (h : e.Fits card) (hv : card.Valid) :
    card.castIntent? e.intent.action e.text.item = some e.intent := by
  obtain ⟨f, hf, htype, hname⟩ := h.declared
  have hfound : card.entityOf? .character e.intent.entity = some f := by
    rw [← hname, Card.entityOf?, hv.entity?_self hf, Option.filter_some,
      if_pos (by simpa using htype)]
  have hannounces : nameLabels.contains (Text.ofList (lower ("character" : Text).toList)) = true := by
    decide
  have href : entityRef e.text.item.head = (e.intent.entity, e.intent.note) :=
    entityRef_labelled isLabel_character hannounces h.name h.note
  have hintent : CastIntent.mk e.intent.action f.name e.intent.tier e.intent.note = e.intent := by
    rw [hname]
  rw [Card.castIntent?, href]
  simp only [h.name.ne_empty, if_false, hfound, layer?_item]
  refine Eq.trans ?_ (congrArg some hintent)
  cases e.intent.tier with
  | none => rfl
  | some tier => simp [NameStyle.tierOfLayer?_layer]

end CastEntry

namespace LocationEntry

variable {e : LocationEntry}

def text (e : LocationEntry) : ItemText where
  label := "location"
  name := e.place.name
  note := none
  extra := none

def intent (card : Card) (e : LocationEntry) : LocationIntent := ⟨e.action, card.pathOf e.place⟩

structure Fits (card : Card) (e : LocationEntry) : Prop where
  declared : e.place ∈ card.locations
  name : PlainWords e.place.name

theorem isLabel_location : IsLabel ("location" : Text).toList := by decide

theorem Fits.plain (h : e.Fits card) : e.text.Plain where
  label := isLabel_location
  name := h.name
  note := nofun
  key := nofun
  value := nofun

theorem Fits.locationIntent? (h : e.Fits card) (hv : card.Valid) :
    card.locationIntent? e.action e.text.item = some (e.intent card) := by
  obtain ⟨hmem, htype⟩ := Card.mem_locations.mp h.declared
  have hannounces : nameLabels.contains (Text.ofList (lower ("location" : Text).toList)) = true := by
    decide
  have href : entityRef e.text.item.head = (e.place.name, none) :=
    entityRef_labelled isLabel_location hannounces h.name nofun
  have hpath : card.canonicalLocation? e.place.name = some (card.pathOf e.place) :=
    Card.canonicalLocation?_of_entity? (hv.entity?_self hmem) htype
  rw [Card.locationIntent?, href]
  simp only [h.name.ne_empty, if_false, hpath]
  rfl

end LocationEntry

/-- A part of a text: words without a tag, or an element for the cast or for the locations. -/
inductive Passage where
  | prose (words : Text)
  | cast (entries : List CastEntry)
  | locations (entries : List LocationEntry)

namespace Passage

def castItems (entries : List CastEntry) : List (Text × ItemText) :=
  entries.map fun e => (e.intent.action.name, e.text)

def locationItems (entries : List LocationEntry) : List (Text × ItemText) :=
  entries.map fun e => (e.action.tagName, e.text)

def written (spacing : Spacing) : Passage → List Code
  | prose words => words.toList
  | cast entries => element ("CastIntent" : Text).toList (itemList spacing (castItems entries))
  | locations entries =>
    element ("LocationCastIntent" : Text).toList (itemList spacing (locationItems entries))

def Fits (card : Card) : Passage → Prop
  | prose words => .char '<' ∉ words.toList
  | cast entries => ∀ e ∈ entries, e.Fits card
  | locations entries => ∀ e ∈ entries, e.Fits card

def castIntents : Passage → List CastIntent
  | cast entries => entries.map (·.intent)
  | _ => []

def locationIntents (card : Card) : Passage → List LocationIntent
  | locations entries => entries.map (·.intent card)
  | _ => []

theorem plain_castItems {entries : List CastEntry} (h : ∀ e ∈ entries, e.Fits card) :
    ∀ i ∈ castItems entries, i.1 ∈ itemTags ∧ i.2.Plain :=
  List.forall_mem_map.mpr fun e he => ⟨(castAction?_name e.intent.action).1, (h e he).plain⟩

theorem plain_locationItems {entries : List LocationEntry} (h : ∀ e ∈ entries, e.Fits card) :
    ∀ i ∈ locationItems entries, i.1 ∈ itemTags ∧ i.2.Plain :=
  List.forall_mem_map.mpr fun e he => ⟨(locationAction?_tagName e.action).1, (h e he).plain⟩

/-- The bodies of the elements that have a tag. -/
def bodies (spacing : Spacing) (tag : Text) : Passage → List (List Code)
  | prose _ => []
  | cast entries => if tag = "castintent" then [itemList spacing (castItems entries)] else []
  | locations entries =>
    if tag = "locationcastintent" then [itemList spacing (locationItems entries)] else []

variable {p : Passage}

theorem Fits.yields (h : p.Fits card) (htag : tag ∈ blockTags) :
    Yields (elementAt? tag.toList) (p.written spacing) (p.bodies spacing tag) := by
  have hcases : tag = "castintent" ∨ tag = "locationcastintent" ∨ tag = "scenemeta" := by
    simpa [blockTags] using htag
  -- The name of a block stands for the one tag and differs from the two others.
  cases p with
  | prose words => exact yields_nil_of_notMem tag.toList h
  | cast entries =>
    have hitems := plain_castItems h
    rcases hcases with rfl | rfl | rfl
    · exact yields_block hitems htag fun _ => rfl
    · exact yields_nil_block hitems htag (by decide) fun _ => rfl
    · exact yields_nil_block hitems htag (by decide) fun _ => rfl
  | locations entries =>
    have hitems := plain_locationItems h
    rcases hcases with rfl | rfl | rfl
    · exact yields_nil_block hitems htag (by decide) fun _ => rfl
    · exact yields_block hitems htag fun _ => rfl
    · exact yields_nil_block hitems htag (by decide) fun _ => rfl

theorem Fits.castIntents (h : p.Fits card) (hv : card.Valid) :
    ((p.bodies spacing "castintent").flatMap (bodyItems castAction?)).filterMap
      (fun (action, item) => card.castIntent? action item) = p.castIntents := by
  cases p with
  | prose words => rfl
  | locations entries => rfl
  | cast entries =>
    have hitems : bodyItems castAction? (itemList spacing (castItems entries)) =
        entries.map fun e => (e.intent.action, e.text.item) :=
      bodyItems_itemList (plain_castItems h) fun e _ => (castAction?_name e.intent.action).2
    rw [bodies, if_pos rfl, List.flatMap_singleton, hitems, List.filterMap_map, Passage.castIntents,
      ← List.filterMap_eq_map]
    refine List.filterMap_congr fun e he => ?_
    simp only [Function.comp_apply, (h e he).castIntent? hv]

theorem Fits.locationIntents (h : p.Fits card) (hv : card.Valid) :
    ((p.bodies spacing "locationcastintent").flatMap (bodyItems locationAction?)).filterMap
      (fun (action, item) => card.locationIntent? action item) = p.locationIntents card := by
  cases p with
  | prose words => rfl
  | cast entries => rfl
  | locations entries =>
    have hitems : bodyItems locationAction? (itemList spacing (locationItems entries)) =
        entries.map fun e => (e.action, e.text.item) :=
      bodyItems_itemList (plain_locationItems h) fun e _ => (locationAction?_tagName e.action).2
    rw [bodies, if_pos rfl, List.flatMap_singleton, hitems, List.filterMap_map,
      Passage.locationIntents, ← List.filterMap_eq_map]
    refine List.filterMap_congr fun e he => ?_
    simp only [Function.comp_apply, (h e he).locationIntent? hv]

end Passage

/-- The text of some passages, one after the other. -/
def writtenText (spacing : Spacing) (passages : List Passage) : Text :=
  Text.ofList (passages.flatMap (·.written spacing))

section

variable {passages : List Passage} (hv : card.Valid) (spacing : Spacing)
  (h : ∀ p ∈ passages, p.Fits card)

include h

theorem elements_written (htag : tag ∈ blockTags) :
    elements tag (passages.flatMap (·.written spacing)) =
      passages.flatMap (·.bodies spacing tag) :=
  (Yields.flatMap fun p hp => (h p hp).yields htag).all

theorem sceneUpdate_written : sceneUpdate (passages.flatMap (·.written spacing)) = .ok none := by
  have hnone : elements "scenemeta" (passages.flatMap (·.written spacing)) = [] := by
    rw [elements_written spacing h (by decide)]
    exact List.flatMap_eq_nil_iff.mpr fun p _ => by cases p <;> rfl
  rw [sceneUpdate, sceneFields, hnone]
  rfl

include hv

theorem castIntents_written : card.castIntents (passages.flatMap (·.written spacing)) =
    passages.flatMap Passage.castIntents := by
  change (List.flatMap (bodyItems castAction?) (elements _ _)).filterMap _ = _
  rw [elements_written spacing h (by decide), List.flatMap_assoc, List.filterMap_flatMap]
  exact List.flatMap_congr fun p hp => (h p hp).castIntents hv

theorem locationIntents_written : card.locationIntents (passages.flatMap (·.written spacing)) =
    passages.flatMap (Passage.locationIntents card) := by
  change (List.flatMap (bodyItems locationAction?) (elements _ _)).filterMap _ = _
  rw [elements_written spacing h (by decide), List.flatMap_assoc, List.filterMap_flatMap]
  exact List.flatMap_congr fun p hp => (h p hp).locationIntents hv

end

/-- What is written for intents is read as these intents, in the order in which they are written and
with locations by their full paths. -/
theorem Card.Valid.intents_read_back (hv : card.Valid) (spacing : Spacing)
    {passages : List Passage} (h : ∀ p ∈ passages, p.Fits card) :
    ∃ block, card.parse (writtenText spacing passages) = .ok block ∧
      block.cast = passages.flatMap Passage.castIntents ∧
      block.locations = passages.flatMap (Passage.locationIntents card) ∧ block.scene = none := by
  have htext : (writtenText spacing passages).toList = passages.flatMap (·.written spacing) :=
    Text.toList_ofList _
  refine ⟨⟨card.mutations (writtenText spacing passages), _, _, none⟩, ?_,
    castIntents_written hv spacing h, locationIntents_written hv spacing h, rfl⟩
  rw [Card.parse, htext, sceneUpdate_written spacing h]
  rfl

namespace Demo

/-- A card with names that hold a label, a dash or a dot of their own. -/
def ferry : Card where
  parameters := []
  entities := [
    ⟨"character: Ann", .character, [], none⟩,
    ⟨"- 李雷：船长", .character, [], none⟩,
    ⟨"St. Mary", .location, [], none⟩,
    ⟨"Pier > East", .location, [], some "St. Mary"⟩]
  castConfig := .standard

def ferrySpacing : Spacing where
  between := ("\n  " : Text).toList
  before := ("\n    " : Text).toList
  turn := ("\n      " : Text).toList
  after := ("\n  " : Text).toList
  blank := by decide
  breaks := ⟨'\n', by decide, by decide⟩

def ferryPassages : List Passage := [
  .prose "We go aboard.\n",
  .cast [
    ⟨⟨.enter, "character: Ann", some .presentSupporting, some "name: of the lamp"⟩, .snake, .camel⟩,
    ⟨⟨.leave, "- 李雷：船长", none, some "下班"⟩, .camel, .camel⟩,
    ⟨⟨.enter, "- 李雷：船长", some .offstageRelated, none⟩, .camel, .snake⟩],
  .locations [
    ⟨.setCurrent, ⟨"Pier > East", .location, [], some "St. Mary"⟩⟩,
    ⟨.removeCandidate, ⟨"St. Mary", .location, [], none⟩⟩]]

theorem ferry_read_back : ferry.Valid ∧ (∀ p ∈ ferryPassages, p.Fits ferry) ∧
    ∃ block, ferry.parse (writtenText ferrySpacing ferryPassages) = .ok block ∧
      block.cast = [
        ⟨.enter, "character: Ann", some .presentSupporting, some "name: of the lamp"⟩,
        ⟨.leave, "- 李雷：船长", none, some "下班"⟩,
        ⟨.enter, "- 李雷：船长", some .offstageRelated, none⟩] ∧
      block.locations = [⟨.setCurrent, "St. Mary.Pier > East"⟩, ⟨.removeCandidate, "St. Mary"⟩] ∧
      block.scene = none := by
  have hvalid : ferry.Valid := ⟨by decide +kernel, by decide +kernel⟩
  have hann : ferry.HasCharacter "character: Ann" := ⟨_, List.mem_cons_self, rfl, rfl⟩
  have hlilei : ferry.HasCharacter "- 李雷：船长" :=
    ⟨_, List.mem_cons_of_mem _ List.mem_cons_self, rfl, rfl⟩
  have hfits : ∀ p ∈ ferryPassages, p.Fits ferry := by
    refine List.forall_mem_cons.mpr ⟨?prose, List.forall_mem_cons.mpr
      ⟨?cast, List.forall_mem_singleton.mpr ?locations⟩⟩
    case prose => exact (by decide : .char '<' ∉ ("We go aboard.\n" : Text).toList)
    case cast =>
      refine List.forall_mem_cons.mpr ⟨⟨hann, ?_, ?_⟩, List.forall_mem_cons.mpr
        ⟨⟨hlilei, ?_, ?_⟩, List.forall_mem_singleton.mpr ⟨hlilei, ?_, ?_⟩⟩⟩ <;> decide
    case locations =>
      have hpier : ⟨"Pier > East", .location, [], some "St. Mary"⟩ ∈ ferry.locations :=
        List.mem_cons_of_mem _ List.mem_cons_self
      have hmary : ⟨"St. Mary", .location, [], none⟩ ∈ ferry.locations := List.mem_cons_self
      exact List.forall_mem_cons.mpr ⟨⟨hpier, by decide⟩,
        List.forall_mem_singleton.mpr ⟨hmary, by decide⟩⟩
  exact ⟨hvalid, hfits, hvalid.intents_read_back ferrySpacing hfits⟩

end Demo

end Storyworld
