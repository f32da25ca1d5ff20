import Mathlib.Data.List.TakeWhile
import Storyworld.Proofs.Hierarchy

/-! Locations by their full paths. A full path leads back to its location unless some other entity
goes by it too, as a name or as a full path, which takes a dot in a name. -/

namespace Storyworld

variable {card : Card} {e f : Entity} {key path : Text}

/-- No entity but the location itself has its full path for a name or for a full path. -/
def Card.PathsApart (card : Card) : Prop :=
  ∀ e ∈ card.locations, ∀ f ∈ card.entities,
    f.name = card.pathOf e ∨ f.type = .location ∧ card.pathOf f = card.pathOf e → f = e

namespace Card

theorem mem_locations : e ∈ card.locations ↔ e ∈ card.entities ∧ e.type = .location := by
  simp [locations]

theorem Valid.locationPath?_self (hv : card.Valid) (he : e ∈ card.locations) :
    card.locationPath? e.name = some (card.pathOf e) := by
  have hmem := (mem_locations.mp he).1
  rw [locationPath?]
  cases hf : card.locations.find? (·.name == e.name) with
  | none => simpa using List.find?_eq_none.mp hf e he
  | some f =>
    have hname : f.name = e.name := by simpa using List.find?_some hf
    have hfmem := (mem_locations.mp (List.mem_of_find?_eq_some hf)).1
    rw [hv.eq_of_name hfmem hmem hname, Option.map_some]

theorem canonicalLocation?_of_entity? (h : card.entity? key = some e) (htype : e.type = .location) :
    card.canonicalLocation? key = some (card.pathOf e) := by
  rw [canonicalLocation?, entityOf?, h, Option.filter_some, if_pos (by simpa using htype),
    Option.map_some]

/-- What a full path finds goes by that path. -/
theorem entity?_pathOf (he : e ∈ card.locations) : ∃ f ∈ card.entities,
    card.entity? (card.pathOf e) = some f ∧
      (f.name = card.pathOf e ∨ f.type = .location ∧ card.pathOf f = card.pathOf e) := by
  simp only [entity?]
  cases hname : card.entities.find? (·.name == card.pathOf e) with
  | some f =>
    exact ⟨f, List.mem_of_find?_eq_some hname, rfl, .inl (by simpa using List.find?_some hname)⟩
  | none =>
    cases hpath : card.locations.reverse.find? (card.pathOf · == card.pathOf e) with
    | none => simpa using List.find?_eq_none.mp hpath e (List.mem_reverse.mpr he)
    | some f =>
      have hf := mem_locations.mp (List.mem_reverse.mp (List.mem_of_find?_eq_some hpath))
      exact ⟨f, hf.1, rfl, .inr ⟨hf.2, by simpa using List.find?_some hpath⟩⟩

theorem PathsApart.entity?_pathOf (h : card.PathsApart) (he : e ∈ card.locations) :
    card.entity? (card.pathOf e) = some e := by
  obtain ⟨f, hf, hfound, hpath⟩ := Card.entity?_pathOf he
  rw [hfound, h e he f hf hpath]

theorem Valid.pathsApart (hv : card.Valid)
    (h : ∀ e ∈ card.locations, card.entity? (card.pathOf e) = some e) : card.PathsApart := by
  rintro e he f hf (hname | ⟨htype, hpath⟩)
  · have hself := hv.entity?_self hf
    rw [hname, h e he] at hself
    exact (Option.some.inj hself).symm
  · have hself := h f (mem_locations.mpr ⟨hf, htype⟩)
    rw [hpath, h e he] at hself
    exact (Option.some.inj hself).symm

theorem PathsApart.canonicalLocation?_pathOf (h : card.PathsApart) (he : e ∈ card.locations) :
    card.canonicalLocation? (card.pathOf e) = some (card.pathOf e) :=
  canonicalLocation?_of_entity? (h.entity?_pathOf he) (mem_locations.mp he).2

/-- The part of a full path behind its last dot is the name of its entity, if that has no dot. -/
theorem FullPath.takeWhile_reverse (h : card.FullPath e path) (hdot : .char '.' ∉ e.name.toList) :
    path.toList.reverse.takeWhile (· ≠ .char '.') = e.name.toList.reverse := by
  have hname : ∀ c ∈ e.name.toList.reverse, decide (c ≠ '.') = true := by
    intro c hc
    exact decide_eq_true fun he => hdot (he ▸ List.mem_reverse.mp hc)
  cases h with
  | root _ => rw [List.takeWhile_eq_self_iff.mpr hname]
  | child _ _ _ _ _ =>
    simp only [Text.toList_append, List.reverse_append]
    rw [List.takeWhile_append_of_pos hname]
    simp

/-- Without dots in names no two entities go by one full path. -/
theorem Valid.pathsApart_of_dotless (hv : card.Valid)
    (hdot : ∀ e ∈ card.entities, .char '.' ∉ e.name.toList) : card.PathsApart := by
  intro e he f hf hpath
  have hmem := (mem_locations.mp he).1
  refine hv.eq_of_name hf hmem ?_
  have hfull := hv.fullPath hmem
  rcases hpath with hname | ⟨-, hpath⟩
  · rw [hname]
    exact hfull.eq_name (hname ▸ hdot f hf)
  · have hlast := (hv.fullPath hf).takeWhile_reverse (hdot f hf)
    rw [hpath, hfull.takeWhile_reverse (hdot e hmem)] at hlast
    exact Text.toList_inj.mp (List.reverse_inj.mp hlast).symm

theorem canonicalLocation?_eq_some (h : card.canonicalLocation? key = some path) :
    ∃ e ∈ card.locations, card.pathOf e = path := by
  obtain ⟨e, he, hpath⟩ := Option.map_eq_some_iff.mp h
  exact ⟨e, mem_locations.mpr (entityOf?_eq_some he), hpath⟩

/-- Every location is found by its full path exactly if no other entity goes by one. Full paths are
then different and stand for themselves wherever a key leads to one; and they are so unless some name
has a dot. -/
theorem Valid.paths_lead_back_iff (hv : card.Valid) :
    ((∀ e ∈ card.locations, ∃ path, card.locationPath? e.name = some path ∧
      card.entity? path = some e ∧ card.canonicalLocation? path = some path) ↔ card.PathsApart) ∧
    (card.PathsApart →
      (∀ e ∈ card.locations, ∀ f ∈ card.locations,
        card.locationPath? e.name = card.locationPath? f.name → e = f) ∧
      ∀ key path, card.canonicalLocation? key = some path →
        card.canonicalLocation? path = some path) ∧
    ((∀ e ∈ card.entities, .char '.' ∉ e.name.toList) → card.PathsApart) := by
  refine ⟨⟨fun h => hv.pathsApart fun e he => ?_, fun h e he => ?_⟩, fun h => ⟨?_, ?_⟩,
    hv.pathsApart_of_dotless⟩
  · obtain ⟨path, hpath, hfound, -⟩ := h e he
    obtain rfl := Option.some.inj ((hv.locationPath?_self he).symm.trans hpath)
    exact hfound
  · exact ⟨_, hv.locationPath?_self he, h.entity?_pathOf he, h.canonicalLocation?_pathOf he⟩
  · intro e he f hf hpaths
    rw [hv.locationPath?_self he, hv.locationPath?_self hf] at hpaths
    obtain ⟨hmem, htype⟩ := mem_locations.mp he
    exact h f hf e hmem (.inr ⟨htype, Option.some.inj hpaths⟩)
  · intro key path hkey
    obtain ⟨e, he, rfl⟩ := canonicalLocation?_eq_some hkey
    exact h.canonicalLocation?_pathOf he

end Card

theorem Demo.card_paths_lead_back : Demo.card.Valid ∧
    ∀ e ∈ Demo.card.locations, ∃ path, Demo.card.locationPath? e.name = some path ∧
      Demo.card.entity? path = some e ∧ Demo.card.canonicalLocation? path = some path := by
  obtain ⟨hlead, -, hdotless⟩ := Card.Valid.paths_lead_back_iff Demo.card_valid
  exact ⟨Demo.card_valid, hlead.mpr (hdotless (by decide))⟩

/-- A card on which the names of two locations are the full paths of two others. -/
def Demo.dotted : Card where
  parameters := []
  entities := [
    ⟨"City", .location, [], none⟩,
    ⟨"Campus", .location, [], none⟩,
    ⟨"Library", .location, [], some "Campus"⟩,
    ⟨"Campus.Library", .location, [], some "City"⟩,
    ⟨"Cafe", .location, [], some "Campus"⟩,
    ⟨"Campus.Cafe", .location, [], none⟩]
  castConfig := .standard

/-- The full path of the library leads to another location, whose full path is another one again,
and the full path of the cafe is that of another location. -/
theorem Demo.dotted_paths_astray : Demo.dotted.Valid ∧
    Demo.dotted.locationPath? "Library" = some "Campus.Library" ∧
    (Demo.dotted.entity? "Campus.Library").map Entity.name = some "Campus.Library" ∧
    Demo.dotted.canonicalLocation? "Library" = some "Campus.Library" ∧
    Demo.dotted.canonicalLocation? "Campus.Library" = some "City.Campus.Library" ∧
    Demo.dotted.locationPath? "Cafe" = Demo.dotted.locationPath? "Campus.Cafe" :=
  ⟨⟨by decide +kernel, by decide +kernel⟩, by decide +kernel, by decide +kernel, by decide +kernel,
    by decide +kernel, by decide +kernel⟩

end Storyworld
