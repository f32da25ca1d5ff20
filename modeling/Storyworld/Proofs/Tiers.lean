import Mathlib.Data.List.Nodup
import Storyworld.Proofs.Hierarchy
import Storyworld.Transition

/-! The tiers of the cast. A name is in one tier at most, no tier is fuller than it may be, and all
names are those of declared characters; entering and leaving keep it so. -/

namespace Storyworld

def Card.HasCharacter (card : Card) (name : Text) : Prop :=
  ∃ e ∈ card.entities, e.type = .character ∧ e.name = name

namespace Cast

variable {card : Card} {c : Cast} {name : Text}

structure Orderly (card : Card) (c : Cast) : Prop where
  nodup : ∀ t, (c.members t).Nodup
  apart : ∀ t u n, n ∈ c.members t → n ∈ c.members u → t = u
  ceiling : ∀ t, (c.members t).length ≤ card.castConfig.characters.limit t
  declared : ∀ t, ∀ n ∈ c.members t, card.HasCharacter n

theorem empty_orderly (card : Card) : empty.Orderly card := by
  have hmembers : ∀ t, empty.members t = [] := fun t => by cases t <;> rfl
  constructor <;> simp [hmembers]

theorem members_setMembers (c : Cast) (names : List Text) (t u : Tier) :
    (c.setMembers names t).members u = if t = u then names else c.members u := by
  cases t <;> cases u <;> rfl

theorem mem_of_tierOf? {t : Tier} (h : c.tierOf? name = some t) : name ∈ c.members t := by
  simpa using List.find?_some h

theorem notMem_of_tierOf? (h : c.tierOf? name = none) (t : Tier) : name ∉ c.members t := by
  have ht : t ∈ Tier.all := by cases t <;> decide
  simpa using List.find?_eq_none.mp h t ht

/-- No name is in two tiers. -/
def Apart (c : Cast) : Prop := ∀ t u n, n ∈ c.members t → n ∈ c.members u → t = u

theorem Apart.tierOf?_eq_some_iff (h : c.Apart) {t : Tier} :
    c.tierOf? name = some t ↔ name ∈ c.members t := by
  refine ⟨mem_of_tierOf?, fun hmem => ?_⟩
  cases hu : c.tierOf? name with
  | none => exact absurd hmem (notMem_of_tierOf? hu t)
  | some u => rw [h u t name (mem_of_tierOf? hu) hmem]

/-- A name that is taken out of its tier is in none any longer, and the others stay in theirs. -/
theorem Apart.members_remove (h : c.Apart) (name : Text) (t : Tier) :
    (c.remove name).members t = (c.members t).erase name := by
  simp only [remove]
  split
  · rename_i u hu
    rw [members_setMembers]
    split
    · rename_i he
      rw [he]
    · rename_i hne
      refine (List.erase_of_not_mem fun hmem => hne ?_).symm
      exact h u t name (mem_of_tierOf? hu) hmem
  · rename_i hnone
    exact (List.erase_of_not_mem (notMem_of_tierOf? hnone t)).symm

/-- Those who stay in a tier that a name enters: all others, or all but the first of them if there
would be no room. -/
def stayers (c : Cast) (name : Text) (tier : Tier) (limit : Nat) : List Text :=
  let others := (c.members tier).erase name
  if c.tierOf? name ≠ some tier ∧ limit ≤ others.length then others.tail else others

/-- A tier with room has the name at its end after it enters, and no other tier has it. -/
theorem Apart.members_enter (h : c.Apart) (name : Text) {tier : Tier}
    {limits : CharacterLimits} (hlimit : limits.limit tier ≠ 0) (t : Tier) :
    (c.enter name tier limits).2.members t =
      if tier = t then c.stayers name tier (limits.limit tier) ++ [name]
      else (c.members t).erase name := by
  simp only [enter, if_neg hlimit, stayers, h.members_remove]
  split <;> rw [members_setMembers, h.members_remove]

/-- The name that leaves for a newcomer is the first of the others. -/
theorem Apart.enter_fst (h : c.Apart) (name : Text) {tier : Tier} {limits : CharacterLimits}
    (hlimit : limits.limit tier ≠ 0) : (c.enter name tier limits).1 =
      if c.tierOf? name ≠ some tier ∧ limits.limit tier ≤ ((c.members tier).erase name).length
      then ((c.members tier).erase name).head? else none := by
  simp only [enter, if_neg hlimit, h.members_remove]
  split <;> rfl

theorem enter_of_limit_eq_zero {tier : Tier} {limits : CharacterLimits}
    (hlimit : limits.limit tier = 0) : c.enter name tier limits = (none, c) := if_pos hlimit

/-- A cast that keeps some of the names in their order is as orderly. -/
theorem Orderly.thin {d : Cast} (h : c.Orderly card)
    (hsub : ∀ t, (d.members t).Sublist (c.members t)) : d.Orderly card where
  nodup t := (h.nodup t).sublist (hsub t)
  apart t u n ht hu := h.apart t u n ((hsub t).subset ht) ((hsub u).subset hu)
  ceiling t := Nat.le_trans (hsub t).length_le (h.ceiling t)
  declared t n hn := h.declared t n ((hsub t).subset hn)

theorem Orderly.remove (h : c.Orderly card) (name : Text) : (c.remove name).Orderly card := by
  refine h.thin fun t => ?_
  rw [Apart.members_remove h.apart]
  exact List.erase_sublist

/-- A newcomer takes the last place of a tier that has room. -/
theorem Orderly.seat {d : Cast} (h : c.Orderly card) (tier : Tier)
    (hname : card.HasCharacter name) (hnew : ∀ t, name ∉ c.members t)
    (hroom : (c.members tier).length < card.castConfig.characters.limit tier)
    (hmembers : ∀ t, d.members t = if tier = t then c.members t ++ [name] else c.members t) :
    d.Orderly card := by
  have hmem : ∀ t n, n ∈ d.members t → n ∈ c.members t ∨ n = name ∧ t = tier := by
    intro t n hn
    rw [hmembers] at hn
    split at hn
    · rename_i ht
      rcases List.mem_append.mp hn with hold | hself
      · exact .inl hold
      · exact .inr ⟨List.mem_singleton.mp hself, ht.symm⟩
    · exact .inl hn
  constructor
  · intro t
    rw [hmembers]
    split
    · rw [← List.concat_eq_append]
      exact (h.nodup t).concat (hnew t)
    · exact h.nodup t
  · intro t u n ht hu
    rcases hmem t n ht with ht | ⟨rfl, rfl⟩
    · rcases hmem u n hu with hu | ⟨rfl, rfl⟩
      · exact h.apart t u n ht hu
      · exact absurd ht (hnew t)
    · rcases hmem u n hu with hu | ⟨_, rfl⟩
      · exact absurd hu (hnew u)
      · rfl
  · intro t
    rw [hmembers]
    split
    · rename_i ht
      rw [List.length_append, List.length_singleton, ← ht]
      exact hroom
    · exact h.ceiling t
  · intro t n hn
    rcases hmem t n hn with hold | ⟨rfl, _⟩
    · exact h.declared t n hold
    · exact hname

theorem stayers_sublist (c : Cast) (name : Text) (tier : Tier) (limit : Nat) :
    (c.stayers name tier limit).Sublist ((c.members tier).erase name) := by
  simp only [stayers]
  split
  · exact List.tail_sublist _
  · exact List.Sublist.refl _

/-- There is room for the name beside those who stay, wherever the tier was not too full before. -/
theorem length_stayers {tier : Tier} {limit : Nat} (hlimit : limit ≠ 0)
    (h : (c.members tier).length ≤ limit) : (c.stayers name tier limit).length < limit := by
  have hle : ((c.members tier).erase name).length ≤ (c.members tier).length := List.length_erase_le
  simp only [stayers]
  split
  · rw [List.length_tail]
    omega
  · rename_i hstay
    by_cases htier : c.tierOf? name = some tier
    · have hmem := mem_of_tierOf? htier
      have hpos := List.length_pos_of_mem hmem
      rw [List.length_erase_of_mem hmem]
      omega
    · have hfree : ¬limit ≤ ((c.members tier).erase name).length := fun hle => hstay ⟨htier, hle⟩
      omega

theorem Orderly.enter (h : c.Orderly card) (hname : card.HasCharacter name) (tier : Tier) :
    (c.enter name tier card.castConfig.characters).2.Orderly card := by
  by_cases hlimit : card.castConfig.characters.limit tier = 0
  · rwa [enter_of_limit_eq_zero hlimit]
  · have hsub := c.stayers_sublist name tier (card.castConfig.characters.limit tier)
    -- the cast in between, when the name has left its tier and made room in the new one
    let d := (c.remove name).setMembers
      (c.stayers name tier (card.castConfig.characters.limit tier)) tier
    have hd : ∀ t, d.members t = if tier = t
        then c.stayers name tier (card.castConfig.characters.limit tier)
        else (c.members t).erase name := by
      intro t
      rw [members_setMembers, Apart.members_remove h.apart]
    have hthin : ∀ t, (d.members t).Sublist ((c.members t).erase name) := by
      intro t
      rw [hd]
      split
      · rename_i ht
        exact ht ▸ hsub
      · exact List.Sublist.refl _
    have hdorderly : d.Orderly card := h.thin fun t => (hthin t).trans List.erase_sublist
    refine hdorderly.seat tier hname (fun t hmem => ?_) ?_ fun t => ?_
    · exact (h.nodup t).not_mem_erase ((hthin t).subset hmem)
    · rw [hd, if_pos rfl]
      exact length_stayers hlimit (h.ceiling tier)
    · rw [Apart.members_enter h.apart name hlimit, hd]
      split <;> rfl

end Cast

end Storyworld
