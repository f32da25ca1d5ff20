import Mathlib.Data.List.Nodup
import Storyworld.Proofs.Hierarchy
import Storyworld.Transition

/-! The current location and the candidates. No candidate stands twice or is the current location,
there are no more of them than there may be, and each is the full path of a declared location; so is
the current one. Every change keeps it so. -/

namespace Storyworld

/-- The path leads to a declared location. -/
def Card.HasLocation (card : Card) (path : Text) : Prop :=
  ∃ e ∈ card.entities, e.type = .location ∧ card.FullPath e path

namespace Locations

variable {card : Card} {l : Locations} {path : Text}

structure Orderly (card : Card) (l : Locations) : Prop where
  nodup : l.candidate.Nodup
  apart : ∀ path, l.current = some path → path ∉ l.candidate
  ceiling : l.candidate.length ≤ card.castConfig.locations.candidate
  current : ∀ path, l.current = some path → card.HasLocation path
  candidates : ∀ path ∈ l.candidate, card.HasLocation path

theorem empty_orderly (card : Card) : empty.Orderly card := by
  constructor <;> simp [empty]

/-- Some of the candidates in their order are as orderly. -/
theorem Orderly.thin {names : List Text} (h : l.Orderly card)
    (hsub : names.Sublist l.candidate) : (Locations.mk l.current names).Orderly card where
  nodup := h.nodup.sublist hsub
  apart path hp hmem := h.apart path hp (hsub.subset hmem)
  ceiling := Nat.le_trans hsub.length_le h.ceiling
  current := h.current
  candidates path hmem := h.candidates path (hsub.subset hmem)

theorem Orderly.removeCandidate (h : l.Orderly card) (path : Text) :
    (l.removeCandidate path).2.Orderly card := h.thin List.erase_sublist

theorem Orderly.setCurrent (h : l.Orderly card) (hpath : card.HasLocation path) :
    (l.setCurrent path).Orderly card := by
  have hthin : (Locations.mk l.current (l.candidate.erase path)).Orderly card :=
    h.thin List.erase_sublist
  refine ⟨hthin.nodup, fun p hp => ?_, hthin.ceiling, fun p hp => ?_, hthin.candidates⟩
  · obtain rfl := Option.some.inj hp
    exact h.nodup.not_mem_erase
  · obtain rfl := Option.some.inj hp
    exact hpath

/-- A new candidate takes the last place where there is room. -/
theorem Orderly.append (h : l.Orderly card) (hpath : card.HasLocation path)
    (hcurrent : l.current ≠ some path) (hnew : path ∉ l.candidate)
    (hroom : l.candidate.length < card.castConfig.locations.candidate) :
    (Locations.mk l.current (l.candidate ++ [path])).Orderly card := by
  constructor
  · rw [← List.concat_eq_append]
    exact h.nodup.concat hnew
  · intro p hp hmem
    rcases List.mem_append.mp hmem with hold | hself
    · exact h.apart p hp hold
    · exact hcurrent (List.mem_singleton.mp hself ▸ hp)
  · rw [List.length_append, List.length_singleton]
    exact hroom
  · exact h.current
  · intro p hmem
    rcases List.mem_append.mp hmem with hold | hself
    · exact h.candidates p hold
    · exact List.mem_singleton.mp hself ▸ hpath

theorem Orderly.addCandidate (h : l.Orderly card) (hpath : card.HasLocation path) :
    (l.addCandidate path card.castConfig.locations.candidate).2.Orderly card := by
  simp only [Locations.addCandidate]
  split
  · exact h
  · rename_i hadd
    obtain ⟨hcurrent, hnew, hlimit⟩ : l.current ≠ some path ∧ path ∉ l.candidate ∧
        card.castConfig.locations.candidate ≠ 0 := by simpa using hadd
    split
    · have hthin := h.thin (List.tail_sublist l.candidate)
      refine hthin.append hpath hcurrent (fun hmem => hnew (List.mem_of_mem_tail hmem)) ?_
      have hceiling := h.ceiling
      rw [List.length_tail]
      omega
    · exact h.append hpath hcurrent hnew (by omega)

end Locations

end Storyworld
