import Storyworld.Block.Resolve
import Storyworld.Proofs.Coordinates
import Storyworld.Proofs.Hierarchy
import Storyworld.Proofs.TextParts

/-! What calls resolve to. The path of a call falls into names without dots, of which those of
entities are found under themselves, so that a mutation always has an address and it is declared. -/

namespace Storyworld

variable {card : Card} {m : Mutation}

theorem dot_notMem_pathSegments {path name : Text} (h : name ∈ pathSegments path) :
    .char '.' ∉ name.toList := by
  obtain ⟨part, hpart, rfl⟩ := List.mem_map.mp h
  rw [Text.toList_ofList]
  exact fun hdot => notMem_splitAtMark hpart ((trimWith_isInfix isBlank part).subset hdot)

/-- The names of a path in order: a subject, if there is one, a key, and a target, if there is one
besides a subject. -/
theorem splitPath?_eq_some {path key : Text} {subject target : Option Text}
    (h : splitPath? path = some (subject, key, target)) :
    pathSegments path = subject.toList ++ key :: target.toList ∧
      (target.isSome → subject.isSome) ∧ ∀ name ∈ pathSegments path, name ≠ "" := by
  simp only [splitPath?] at h
  split at h
  · cases h
  · rename_i hempty
    have hne : ∀ name ∈ pathSegments path, name ≠ "" := fun name hname he =>
      hempty (List.contains_iff_mem.mpr (he ▸ hname))
    split at h <;> rename_i hsegments <;> cases h
    all_goals exact ⟨hsegments, by simp, hne⟩

/-- The number of names in a path tells the scope, except that the world and the scene have one name
each. -/
theorem Scope.of_segments {s : Scope} :
    (s.segments = 1 → s = .global ∨ s = .scene) ∧ (s.segments = 2 → s = .character) ∧
      (s.segments = 3 → s = .relationship) := by
  cases s <;> simp [segments]

namespace Card

/-- The parts of a mutation that a call resolves to. -/
theorem resolve?_eq_some {call : Call} (h : card.resolve? call = some m) :
    ∃ subject key target p, splitPath? m.path = some (subject, key, target) ∧
      card.parameter? key = some p ∧ p.scope.segments = (pathSegments m.path).length ∧
      m.scope = p.scope ∧ m.parameter = p.name ∧ card.entityName? subject = some m.subject ∧
      card.entityName? target = some m.target := by
  simp only [resolve?] at h
  split at h
  · obtain ⟨⟨subject, key, target⟩, hpath, h⟩ := Option.bind_eq_some_iff.mp h
    obtain ⟨p, hp, h⟩ := Option.bind_eq_some_iff.mp h
    split at h
    · cases h
    · rename_i hsegments
      obtain ⟨s, hs, h⟩ := Option.bind_eq_some_iff.mp h
      obtain ⟨t, ht, h⟩ := Option.bind_eq_some_iff.mp h
      obtain rfl := Option.some.inj h
      exact ⟨subject, key, target, p, hpath, hp, by simpa using hsegments, rfl, rfl, hs, ht⟩
  · cases h

theorem Valid.entityName?_some (hv : card.Valid) {path key : Text} {name : Option Text}
    (hkey : key ∈ pathSegments path) (h : card.entityName? (some key) = some name) :
    name = some key ∧ card.HasEntity key := by
  obtain ⟨e, he, hname⟩ := Option.map_eq_some_iff.mp h
  have hk : e.name = key := hv.entity?_name he (dot_notMem_pathSegments hkey)
  exact ⟨by rw [← hname, hk], e, entity?_mem he, hk⟩

/-- The coordinates of a mutation give a declared address, and its parameter is found by its
name. -/
theorem Valid.resolve?_declared (hv : card.Valid) {call : Call} (h : card.resolve? call = some m) :
    ∃ p ∈ card.parameters, card.parameter? m.parameter = some p ∧
      ∃ a, Address.resolve m.scope m.parameter m.subject m.target = .ok a ∧ a.Declared card := by
  obtain ⟨subject, key, target, p, hpath, hp, hlength, hscope, hname, hsubject, htarget⟩ :=
    resolve?_eq_some h
  obtain ⟨hsegments, hpair, hne⟩ := splitPath?_eq_some hpath
  have hmem := parameter?_mem hp
  obtain ⟨q, hq⟩ := parameter?_name hmem
  refine ⟨q, parameter?_mem hq, hname ▸ hq, ?_⟩
  have hdeclared : card.HasParameter p.scope p.name := ⟨p, hmem, rfl, rfl⟩
  have hentity : ∀ name ∈ subject.toList ++ key :: target.toList, ∀ found,
      card.entityName? (some name) = some found →
        Address.given? found = some name ∧ card.HasEntity name := by
    intro name hin found hfound
    rw [← hsegments] at hin
    obtain ⟨rfl, he⟩ := hv.entityName?_some hin hfound
    exact ⟨by simp [Address.given?, hne name hin], he⟩
  rw [hsegments] at hlength
  rw [hscope, hname]
  cases subject with
  | none =>
    cases target with
    | some t => simp at hpair
    | none =>
      rcases Scope.of_segments.1 hlength with hs | hs <;> rw [hs] at hdeclared ⊢
      · exact ⟨.global p.name, rfl, hdeclared⟩
      · exact ⟨.scene p.name, rfl, hdeclared⟩
  | some s =>
    obtain ⟨hgiven, hsubject⟩ := hentity s (by simp) m.subject hsubject
    cases target with
    | none =>
      rw [Scope.of_segments.2.1 hlength] at hdeclared ⊢
      exact ⟨.character s p.name, by rw [Address.resolve, hgiven], hsubject, hdeclared⟩
    | some t =>
      obtain ⟨hother, htarget⟩ := hentity t (by simp) m.target htarget
      rw [Scope.of_segments.2.2 hlength] at hdeclared ⊢
      exact ⟨.relationship s p.name t, by rw [Address.resolve, hgiven, hother], hsubject,
        hdeclared, htarget⟩

end Card

end Storyworld
