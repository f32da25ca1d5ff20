import Storyworld.Proofs.Candidates
import Storyworld.Proofs.Tiers
import Storyworld.Proofs.Transition

/-! Cast and locations over whole runs. A text asks only for declared characters and locations, and
whatever it asks for leaves an orderly cast and orderly locations. -/

namespace Storyworld

variable {card : Card} {s : State}

namespace Card

theorem hasCharacter_of_mem_castIntents {cs : List Code} {i : CastIntent}
    (h : i ∈ card.castIntents cs) : card.HasCharacter i.entity := by
  obtain ⟨⟨action, item⟩, _, hi⟩ := List.mem_filterMap.mp h
  simp only [castIntent?] at hi
  split at hi
  · cases hi
  · obtain ⟨e, he, hi⟩ := Option.bind_eq_some_iff.mp hi
    have hentity : i.entity = e.name := by
      split at hi
      · exact Option.some.inj hi ▸ rfl
      · obtain ⟨tier, _, hi⟩ := Option.bind_eq_some_iff.mp hi
        exact Option.some.inj hi ▸ rfl
    obtain ⟨hmem, htype⟩ := entityOf?_eq_some he
    exact ⟨e, hmem, htype, hentity.symm⟩

theorem Valid.hasLocation_of_mem_locationIntents (hv : card.Valid) {cs : List Code}
    {i : LocationIntent} (h : i ∈ card.locationIntents cs) : card.HasLocation i.location := by
  obtain ⟨⟨action, item⟩, _, hi⟩ := List.mem_filterMap.mp h
  simp only [locationIntent?] at hi
  split at hi
  · cases hi
  · obtain ⟨path, hpath, hi⟩ := Option.bind_eq_some_iff.mp hi
    obtain rfl := Option.some.inj hi
    obtain ⟨e, he, rfl⟩ := Option.map_eq_some_iff.mp hpath
    obtain ⟨hmem, htype⟩ := entityOf?_eq_some he
    exact ⟨e, hmem, htype, hv.fullPath hmem⟩

end Card

theorem Cast.Orderly.apply {c : Cast} {i : CastIntent} (h : c.Orderly card)
    (hi : card.HasCharacter i.entity) : (c.apply card.castConfig i).Orderly card := by
  simp only [Cast.apply]
  split
  · exact h.enter hi _
  · exact h.remove i.entity

theorem Locations.Orderly.apply {l : Locations} {i : LocationIntent} (h : l.Orderly card)
    (hi : card.HasLocation i.location) : (l.apply card.castConfig i).Orderly card := by
  simp only [Locations.apply]
  split
  · exact h.setCurrent hi
  · exact h.addCandidate hi
  · exact h.removeCandidate i.location

/-- In every state that is reached, cast and locations are orderly. -/
theorem Card.Reachable.orderly (hs : card.Reachable s) (hv : card.Valid) :
    s.cast.Orderly card ∧ s.locationCast.Orderly card := by
  induction hs with
  | initial h =>
    obtain ⟨values, _, hs⟩ := bind_eq_ok h
    obtain rfl := Except.ok.inj hs
    exact ⟨Cast.empty_orderly card, Locations.empty_orderly card⟩
  | next text _ h ih =>
    obtain ⟨_, hcast, hlocations⟩ := State.applyText_eq_ok h
    rw [hcast, hlocations]
    constructor
    · exact List.foldlRecOn _ _ ih.1 fun c hc i hi => hc.apply (hasCharacter_of_mem_castIntents hi)
    · exact List.foldlRecOn _ _ ih.2 fun l hl i hi =>
        hl.apply (hv.hasLocation_of_mem_locationIntents hi)

theorem demo_orderly : Demo.card.Valid ∧ ∃ s, Demo.card.Reachable s ∧
    s.cast.Orderly Demo.card ∧ s.locationCast.Orderly Demo.card := by
  obtain ⟨s, hs⟩ := Demo.card.exists_reachable
    "<CastIntent><enter>- Alice</enter></CastIntent>" (by decide +kernel)
  exact ⟨Demo.card_valid, s, hs, hs.orderly Demo.card_valid⟩

end Storyworld
