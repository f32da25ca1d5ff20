import Storyworld.Proofs.SceneTags
import Storyworld.Transition

/-! What one text does to a state, part by part, and the states that a card leads to. -/

namespace Storyworld

/-- The states that texts lead to from the initial one. -/
inductive Card.Reachable (card : Card) : State → Prop
  | initial {s : State} (h : card.initialState = .ok s) : Reachable card s
  | next {s t : State} (text : Text) (hs : Reachable card s)
      (h : s.applyText card text = .ok t) : Reachable card t

variable {card : Card} {s next : State} {text : Text}

/-- Only an overlong integer among the tags of a scene keeps a text from being read. -/
theorem Card.parse_error {f : Json.Flaw} (h : card.parse text = .error f) : f = .overlong :=
  (parse_eq_error_iff.mp h).1

theorem Card.parse_eq_ok {b : Block} (h : card.parse text = .ok b) :
    b.mutations = card.mutations text ∧ b.cast = card.castIntents text.toList ∧
      b.locations = card.locationIntents text.toList := by
  obtain ⟨scene, _, hb⟩ := bind_eq_ok h
  obtain rfl := Except.ok.inj hb
  exact ⟨rfl, rfl, rfl⟩

namespace State

theorem applyScene_frame (s : State) (update : Option SceneUpdate) :
    (s.applyScene update).values = s.values ∧ (s.applyScene update).cast = s.cast ∧
      (s.applyScene update).locationCast = s.locationCast := by
  cases update <;> exact ⟨rfl, rfl, rfl⟩

/-- The parts of the state after a block; each comes from its own intents alone. -/
theorem applyParsed_eq_ok {b : Block} (h : s.applyParsed card b = .ok next) :
    b.mutations.foldlM card.mutate s.values.complete = .ok next.values ∧
      next.cast = b.cast.foldl (Cast.apply card.castConfig) s.cast ∧
      next.locationCast = b.locations.foldl (Locations.apply card.castConfig) s.locationCast := by
  obtain ⟨values, hm, hb⟩ := bind_eq_ok h
  obtain rfl := Except.ok.inj hb
  obtain ⟨hvalues, hcast, hlocations⟩ := applyScene_frame
    ((({ s with values := values } : State).applyLocations card.castConfig b.locations).applyCast
      card.castConfig b.cast) b.scene
  rw [hvalues, hcast, hlocations]
  exact ⟨hm, rfl, rfl⟩

theorem applyText_eq_ok (h : s.applyText card text = .ok next) :
    (card.mutations text).foldlM card.mutate s.values.complete = .ok next.values ∧
      next.cast = (card.castIntents text.toList).foldl (Cast.apply card.castConfig) s.cast ∧
      next.locationCast = (card.locationIntents text.toList).foldl
        (Locations.apply card.castConfig) s.locationCast := by
  simp only [applyText] at h
  split at h
  · rename_i b hb
    obtain ⟨hmutations, hcast, hlocations⟩ := Card.parse_eq_ok hb
    rw [← hmutations, ← hcast, ← hlocations]
    exact applyParsed_eq_ok h
  · cases h

/-- What the mutations of a text end in, the text ends in, unless it cannot be read. -/
theorem applyText_ends {P : Variables → Prop} {Q : Fault → Prop}
    (h : Ends P Q ((card.mutations text).foldlM card.mutate s.values.complete))
    (hoverlong : Q .overlong) : Ends (fun next => P next.values) Q (s.applyText card text) := by
  simp only [applyText]
  split
  · rename_i b hb
    rw [← (Card.parse_eq_ok hb).1] at h
    refine h.bind fun values hvalues => .ok ?_
    rw [(applyScene_frame _ b.scene).1]
    exact hvalues
  · exact .error hoverlong

end State

/-- A text that can be applied to the initial state leads from a reachable state to another. -/
theorem Card.exists_applyText (text : Text)
    (h : (card.initialState >>= fun s => s.applyText card text).toOption.isSome) :
    ∃ s next, card.Reachable s ∧ s.applyText card text = .ok next := by
  obtain ⟨next, hnext⟩ := exists_eq_ok h
  obtain ⟨initial, hinitial, happly⟩ := bind_eq_ok hnext
  exact ⟨initial, next, .initial hinitial, happly⟩

theorem Card.exists_reachable (text : Text)
    (h : (card.initialState >>= fun s => s.applyText card text).toOption.isSome) :
    ∃ s, card.Reachable s := by
  obtain ⟨s, next, hs, hnext⟩ := exists_applyText text h
  exact ⟨next, hs.next text hnext⟩

end Storyworld
