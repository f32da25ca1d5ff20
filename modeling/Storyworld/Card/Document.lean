import Storyworld.Card.Hierarchy
import Storyworld.Document.Record

/-! Cards as documents: the fields of each part, and what must hold of a parameter and of a whole
card besides. -/

namespace Storyworld

open Record (make)

def Scope.codec : Codec Scope := .choice all name

def ParameterType.codec : Codec ParameterType := .choice all name

def ItemType.codec : Codec ItemType := .choice all name

def EntityType.codec : Codec EntityType := .choice all name

def PhaseBand.codec : Codec PhaseBand :=
  ((make PhaseBand.mk)
    |>.field (.plain "name") .text none (·.name)
    |>.field (.plain "range") (.pair .real) none (·.range)).codec .accepted

def ArrayConfig.codec : Codec ArrayConfig :=
  ((make ArrayConfig.mk)
    |>.field ⟨"itemType", "item_type"⟩ ItemType.codec (some .string) (·.itemType)
    |>.field ⟨"maxLength", "max_length"⟩ (.optional .count) (some none) (·.maxLength)
    |>.field ⟨"itemFields", "item_fields"⟩ (.optional (.entries ItemType.codec)) (some none)
      (·.itemFields)).codec .accepted

def Parameter.breach? (p : Parameter) : Option Breach :=
  if p.type = .enum ∧ p.enumValues = [] then some (.enumWithoutValues p.name)
  else match p.min, p.max with
    | some low, some high =>
      if (Number.float high).lt (.float low) then some (.minAboveMax p.name) else none
    | _, _ => none

def unlessBroken {α : Type} (breach? : α → Option Breach) (a : α) : Checked α :=
  match breach? a with
  | some b => .fail (.breach b)
  | none => .accepted a

def Parameter.codec : Codec Parameter :=
  ((make Parameter.mk)
    |>.field (.plain "name") .text none (·.name)
    |>.field (.plain "id") (.optional .text) (some none) (·.id)
    |>.field (.plain "scope") Scope.codec (some .character) (·.scope)
    |>.field (.plain "type") ParameterType.codec none (·.type)
    |>.field (.plain "description") .text (some "") (·.description)
    |>.field (.plain "default") .any (some .null) (·.default)
    |>.field (.plain "phases") (.list PhaseBand.codec) (some []) (·.phases)
    |>.field ⟨"enumValues", "enum_values"⟩ (.list .text) (some []) (·.enumValues)
    |>.field ⟨"arrayConfig", "array_config"⟩ ArrayConfig.codec (some .standard) (·.arrayConfig)
    |>.field (.plain "min") (.optional .real) (some none) (·.min)
    |>.field (.plain "max") (.optional .real) (some none) (·.max)).codec
      (unlessBroken Parameter.breach?)

def Entity.codec : Codec Entity :=
  ((make Entity.mk)
    |>.field (.plain "name") .text none (·.name)
    |>.field (.plain "type") EntityType.codec (some .character) (·.type)
    |>.field ⟨"parameterNames", "parameter_names"⟩ (.list .text) (some []) (·.parameterNames)
    |>.field ⟨"parentLocation", "parent_location"⟩ (.optional .text) (some none)
      (·.parentLocation)).codec .accepted

def CharacterLimits.codec : Codec CharacterLimits :=
  ((make CharacterLimits.mk)
    |>.field ⟨"maxFocus", "max_focus"⟩ .count (some 3) (·.focus)
    |>.field ⟨"maxPresentSupporting", "max_present_supporting"⟩ .count (some 5)
      (·.presentSupporting)
    |>.field ⟨"maxOffstageRelated", "max_offstage_related"⟩ .count (some 10)
      (·.offstageRelated)).codec .accepted

def LocationLimits.codec : Codec LocationLimits :=
  ((make LocationLimits.mk)
    |>.field ⟨"maxCandidate", "max_candidate"⟩ .count (some 10) (·.candidate)).codec .accepted

def CastConfig.codec : Codec CastConfig :=
  ((make CastConfig.mk)
    |>.field ⟨"characterCast", "character_cast"⟩ CharacterLimits.codec (some .standard)
      (·.characters)
    |>.field ⟨"locationCast", "location_cast"⟩ LocationLimits.codec (some .standard)
      (·.locations)).codec .accepted

/-- The keys under which a parameter is found: its name and its id. -/
def Parameter.keys (p : Parameter) : List Text := p.name :: p.id.toList

def sharedKey? (seen : List Text) : List Parameter → Option Text
  | [] => none
  | p :: ps =>
    match p.keys.find? seen.contains with
    | some key => some key
    | none => sharedKey? (p.keys ++ seen) ps

def sharedName? (seen : List Text) : List Entity → Option Text
  | [] => none
  | e :: es => if seen.contains e.name then some e.name else sharedName? (e.name :: seen) es

/-- The rules of a whole card: no shared keys, no shared names, no broken chain of parents. -/
def Card.breach? (card : Card) : Option Breach :=
  match sharedKey? [] card.parameters with
  | some key => some (.sharedKey key)
  | none =>
    match sharedName? [] card.entities with
    | some name => some (.sharedName name)
    | none => card.brokenLineage?

def Card.codec : Codec Card :=
  ((make Card.mk)
    |>.field (.plain "parameters") (.list Parameter.codec) (some []) (·.parameters)
    |>.field (.plain "entities") (.list Entity.codec) (some []) (·.entities)
    |>.field ⟨"castConfig", "cast_config"⟩ CastConfig.codec (some .standard) (·.castConfig)).codec
      (unlessBroken Card.breach?)

end Storyworld
