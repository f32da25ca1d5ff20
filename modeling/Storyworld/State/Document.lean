import Storyworld.Document.Record
import Storyworld.State

/-! States as documents. -/

namespace Storyworld

open Record (make)

def Cast.codec : Codec Cast :=
  ((make Cast.mk)
    |>.field (.plain "focus") (.list .text) (some []) (·.focus)
    |>.field ⟨"presentSupporting", "present_supporting"⟩ (.list .text) (some [])
      (·.presentSupporting)
    |>.field ⟨"offstageRelated", "offstage_related"⟩ (.list .text) (some [])
      (·.offstageRelated)).codec .accepted

def Locations.codec : Codec Locations :=
  ((make Locations.mk)
    |>.field (.plain "current") (.optional .text) (some none) (·.current)
    |>.field (.plain "candidate") (.list .text) (some []) (·.candidate)).codec .accepted

def Scene.codec : Codec Scene :=
  ((make Scene.mk)
    |>.field ⟨"locationHint", "location_hint"⟩ .text (some "") (·.locationHint)
    |>.field ⟨"sceneTags", "scene_tags"⟩ (.list .text) (some []) (·.sceneTags)).codec .accepted

def State.codec : Codec State :=
  ((make State.mk)
    |>.field (.plain "variables") (.entries (.entries .any)) (some .empty) (·.values)
    |>.field (.plain "cast") Cast.codec (some .empty) (·.cast)
    |>.field ⟨"locationCast", "location_cast"⟩ Locations.codec (some .empty) (·.locationCast)
    |>.field (.plain "scene") Scene.codec (some .empty) (·.scene)
    |>.field ⟨"entitiesRuntime", "entities_runtime"⟩ (.entries (.entries .any)) (some [])
      (·.entitiesRuntime)).codec .accepted

end Storyworld
