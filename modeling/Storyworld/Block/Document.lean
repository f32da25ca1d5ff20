import Storyworld.Block
import Storyworld.Card.Document

/-! Blocks as documents. -/

namespace Storyworld

open Record (make)

def Tier.codec : Codec Tier := .choice all name

def CastAction.codec : Codec CastAction := .choice all name

def LocationAction.codec : Codec LocationAction := .choice all name

def Mutation.codec : Codec Mutation :=
  ((make Mutation.mk)
    |>.field (.plain "path") .text none (·.path)
    |>.field (.plain "operator") .text none (·.operator)
    |>.field ⟨"valueLiteral", "value_literal"⟩ (.optional .text) (some none) (·.valueLiteral)
    |>.field (.plain "note") (.optional .text) (some none) (·.note)
    |>.field (.plain "scope") Scope.codec none (·.scope)
    |>.field (.plain "parameter") .text none (·.parameter)
    |>.field (.plain "subject") (.optional .text) (some none) (·.subject)
    |>.field (.plain "target") (.optional .text) (some none) (·.target)).codec .accepted

def CastIntent.codec : Codec CastIntent :=
  ((make CastIntent.mk)
    |>.field (.plain "action") CastAction.codec none (·.action)
    |>.field (.plain "entity") .text none (·.entity)
    |>.field (.plain "tier") (.optional Tier.codec) (some none) (·.tier)
    |>.field (.plain "note") (.optional .text) (some none) (·.note)).codec .accepted

def LocationIntent.codec : Codec LocationIntent :=
  ((make LocationIntent.mk)
    |>.field (.plain "action") LocationAction.codec none (·.action)
    |>.field (.plain "location") .text none (·.location)).codec .accepted

def SceneUpdate.codec : Codec SceneUpdate :=
  ((make SceneUpdate.mk)
    |>.field ⟨"locationHint", "location_hint"⟩ (.optional .text) (some none) (·.locationHint)
    |>.field ⟨"sceneTags", "scene_tags"⟩ (.optional (.list .text)) (some none)
      (·.sceneTags)).codec .accepted

def Block.codec : Codec Block :=
  ((make Block.mk)
    |>.field (.plain "mutations") (.list Mutation.codec) (some []) (·.mutations)
    |>.field (.plain "cast") (.list CastIntent.codec) (some []) (·.cast)
    |>.field (.plain "locations") (.list LocationIntent.codec) (some []) (·.locations)
    |>.field (.plain "scene") (.optional SceneUpdate.codec) (some none) (·.scene)).codec .accepted

end Storyworld
