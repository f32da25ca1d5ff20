import Storyworld.Proofs.Resolution
import Storyworld.Proofs.Roster
import Storyworld.Proofs.SceneTags

/-! Reading a block. Whatever is written, a block that is read holds what resolves against the card
and nothing else, and only overlong tags of the scene keep a text from being read. -/

namespace Storyworld

variable {card : Card} {text : Text} {b : Block}

/-- The mutations of a block are those of the calls that resolve, and everything in the block is
declared, but for the tags of the scene, which are as they are written. -/
structure Block.Resolved (card : Card) (text : Text) (b : Block) : Prop where
  calls : ∀ m, m ∈ b.mutations ↔ ∃ call ∈ Call.all text, card.resolve? call = some m
  addresses : ∀ m ∈ b.mutations,
    ∃ a, Address.resolve m.scope m.parameter m.subject m.target = .ok a ∧ a.Declared card
  characters : ∀ i ∈ b.cast, card.HasCharacter i.entity
  locations : ∀ i ∈ b.locations, card.HasLocation i.location
  tags : TagsAmong (sceneFields text.toList) b.scene

namespace Card

theorem parse_scene (h : card.parse text = .ok b) : sceneUpdate text.toList = .ok b.scene := by
  obtain ⟨scene, hscene, hb⟩ := bind_eq_ok h
  obtain rfl := Except.ok.inj hb
  exact hscene

theorem Valid.resolved_of_parse (hv : card.Valid) (h : card.parse text = .ok b) :
    b.Resolved card text := by
  obtain ⟨hmutations, hcast, hlocations⟩ := parse_eq_ok h
  have hcalls : ∀ m, m ∈ b.mutations ↔ ∃ call ∈ Call.all text, card.resolve? call = some m := by
    intro m
    rw [hmutations]
    exact List.mem_filterMap
  refine ⟨hcalls, fun m hm => ?_, fun i hi => ?_, fun i hi => ?_, ?_⟩
  · obtain ⟨call, _, hcall⟩ := (hcalls m).mp hm
    obtain ⟨_, _, _, a, ha, hdeclared⟩ := hv.resolve?_declared hcall
    exact ⟨a, ha, hdeclared⟩
  · exact hasCharacter_of_mem_castIntents (hcast ▸ hi)
  · exact hv.hasLocation_of_mem_locationIntents (hlocations ▸ hi)
  · exact tagsAmong_sceneUpdate (parse_scene h)

theorem exists_parse_iff : (∃ b, card.parse text = .ok b) ↔ ¬ OverlongTags text := by
  constructor
  · rintro ⟨b, hb⟩ hoverlong
    rw [parse_eq_error_iff.mpr ⟨rfl, hoverlong⟩] at hb
    cases hb
  · intro hshort
    cases h : card.parse text with
    | ok b => exact ⟨b, rfl⟩
    | error f => exact (hshort (parse_eq_error_iff.mp h).2).elim

/-- A text is read, and what is read is resolved, unless it asks for overlong tags. Then there are
more digits in a row in it than an integer may have, and there is no other failure. -/
theorem Valid.read_unless_overlong (hv : card.Valid) (text : Text) :
    ((∃ b, card.parse text = .ok b) ↔ ¬ OverlongTags text) ∧
      (∀ b, card.parse text = .ok b → b.Resolved card text) ∧
      (∀ f, card.parse text = .error f → f = .overlong) ∧
      (OverlongTags text → HasLongRun text.toList) :=
  ⟨exists_parse_iff, fun _ => hv.resolved_of_parse, fun _ => parse_error,
    OverlongTags.hasLongRun⟩

end Card

/-- A text in which nearly everything is broken. -/
def Demo.brokenCommands : Text := Text.intercalate "\n" [
  "ce.set('nobody.favor', 3) set(weather, 'open",
  "set(weather, fog) set() set(Alice..favor, 1)",
  "<CastIntent><enter>- Nobody",
  "- Alice",
  "tier: nowhere</enter><leave>- Bob</leave>",
  "<SceneMeta>- scene_tags: [\"quiet\", 12",
  "</SceneMeta><SceneMeta>"]

theorem Demo.brokenCommands_read : Demo.card.Valid ∧ ∃ b,
    Demo.card.parse Demo.brokenCommands = .ok b ∧ b.Resolved Demo.card Demo.brokenCommands := by
  have hlength : Demo.brokenCommands.toList.length ≤ digitLimit := by
    rw [brokenCommands, Text.toList_intercalate]
    decide +kernel
  obtain ⟨hread, hresolved, -⟩ :=
    Card.Valid.read_unless_overlong Demo.card_valid Demo.brokenCommands
  obtain ⟨b, hb⟩ := hread.mpr (not_overlongTags_of_length hlength)
  exact ⟨Demo.card_valid, b, hb, hresolved b hb⟩

/-- Tags that are one long integer keep a text from being read. -/
theorem Demo.onesElement_unread :
    Demo.card.Valid ∧ Demo.card.parse (onesElement 4301) = .error .overlong := by
  have htags := overlongTags_ones "" (by simp) (show digitLimit < 4301 by decide) ""
  rw [Text.empty_append, Text.append_empty] at htags
  exact ⟨Demo.card_valid, Card.parse_eq_error_iff.mpr ⟨rfl, htags⟩⟩

end Storyworld
