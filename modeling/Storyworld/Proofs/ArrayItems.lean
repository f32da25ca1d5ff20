import Storyworld.Operator.Array
import Storyworld.Proofs.Outcome

/-! Items of arrays. The check of an item lets through exactly what the array admits, and no
operator brings in an item by another way. -/

namespace Storyworld

/-- The values of an item type. -/
inductive ItemType.Has : ItemType → Value → Prop
  | string (s : Text) : Has .string (.text s)
  | number (n : Number) : Has .number (.number n)
  | boolean (b : Bool) : Has .boolean (.bool b)
  | object (fields : Entries Text Value) : Has .object (.object fields)

theorem ItemType.admits_iff {t : ItemType} {v : Value} : t.admits v = true ↔ t.Has v := by
  constructor
  · intro h
    cases t <;> cases v <;> first | constructor | cases h
  · rintro ⟨⟩ <;> rfl

/-- An item of the declared type, whose declared fields are of their types where it has them. -/
structure ArrayConfig.Admits (c : ArrayConfig) (item : Value) : Prop where
  type : c.itemType.Has item
  fields : ∀ fields declared, item = .object fields → c.itemFields = some declared →
    ∀ e ∈ declared, ∀ w, Entries.get? e.1 fields = some w → e.2.Has w

namespace ArrayConfig

variable {c : ArrayConfig} {items found : List Value} {operator : Text} {literal : Option Text}

theorem wrongField?_eq_none_iff {declared : Entries Text ItemType} {fields : Entries Text Value} :
    wrongField? declared fields = none ↔
      ∀ e ∈ declared, ∀ w, Entries.get? e.1 fields = some w → e.2.Has w := by
  rw [wrongField?, List.find?_eq_none]
  refine forall₂_congr fun e _ => ?_
  cases h : Entries.get? e.1 fields with
  | none => simp [h]
  | some w => simp [h, ItemType.admits_iff]

/-- The check of an item lets through what the array admits, unchanged. -/
theorem checkItem_eq_ok_iff {item value : Value} :
    c.checkItem item = .ok value ↔ value = item ∧ c.Admits item := by
  simp only [checkItem]
  constructor
  · intro h
    split at h
    · cases h
    · rename_i hadmits
      have htype : c.itemType.Has item := ItemType.admits_iff.mp (by simpa using hadmits)
      split at h
      · rename_i item declared hdeclared
        split at h
        · cases h
        · rename_i hnone
          refine ⟨(Except.ok.inj h).symm, htype, fun gs ds hgs hds => ?_⟩
          obtain rfl := Value.object.inj hgs
          obtain rfl := Option.some.inj (hdeclared.symm.trans hds)
          exact wrongField?_eq_none_iff.mp hnone
      · rename_i hno
        exact ⟨(Except.ok.inj h).symm, htype, fun gs ds hgs hds => (hno gs ds hgs hds).elim⟩
  · rintro ⟨rfl, htype, hfields⟩
    rw [if_neg (by simp [ItemType.admits_iff.mpr htype])]
    split
    · rename_i fields declared hdeclared
      rw [wrongField?_eq_none_iff.mpr (hfields fields declared rfl hdeclared)]
    · rfl

theorem checkItems_eq_ok (h : c.checkItems items = .ok found) :
    found = items ∧ ∀ item ∈ items, c.Admits item := by
  induction items generalizing found with
  | nil =>
    obtain rfl := Except.ok.inj h
    simp
  | cons item items ih =>
    obtain ⟨first, hfirst, h⟩ := bind_eq_ok h
    obtain ⟨rest, hrest, h⟩ := bind_eq_ok h
    obtain rfl := Except.ok.inj h
    obtain ⟨rfl, hadmits⟩ := checkItem_eq_ok_iff.mp hfirst
    obtain ⟨rfl, hrest⟩ := ih hrest
    exact ⟨rfl, List.forall_mem_cons.mpr ⟨hadmits, hrest⟩⟩

theorem dropMatching_subset {field : Option Text} {r : Relation} {expected : Value}
    (h : dropMatching field r expected items = .ok found) : found ⊆ items := by
  induction items generalizing found with
  | nil =>
    obtain rfl := Except.ok.inj h
    exact List.Subset.refl []
  | cons item items ih =>
    obtain ⟨hit, _, h⟩ := bind_eq_ok h
    obtain ⟨rest, hrest, h⟩ := bind_eq_ok h
    obtain rfl := Except.ok.inj h
    have htail := ih hrest
    by_cases hhit : hit = true
    · rw [if_pos hhit]
      exact List.subset_cons_of_subset item htail
    · rw [if_neg hhit]
      exact List.cons_subset_cons item htail

/-- What an operator leaves are items that were there, or admitted ones out of the literal. -/
theorem run_forall {P : Value → Prop} (hitems : ∀ item ∈ items, P item)
    (hone : ∀ v, decodeLiteral literal = .ok v → c.Admits v → P v)
    (hall : ∀ vs, decodeLiteral literal = .ok (.list vs) → ∀ v ∈ vs, c.Admits v → P v)
    (h : c.run items operator literal = .ok found) : ∀ item ∈ found, P item := by
  unfold run at h
  split at h
  case h_1 =>
    obtain ⟨decoded, hdecoded, h⟩ := bind_eq_ok h
    obtain ⟨item, hcheck, h⟩ := bind_eq_ok h
    obtain rfl := Except.ok.inj h
    obtain ⟨rfl, hadmits⟩ := checkItem_eq_ok_iff.mp hcheck
    intro other hother
    rcases List.mem_append.mp hother with hold | hnew
    · exact hitems other hold
    · exact List.mem_singleton.mp hnew ▸ hone _ hdecoded hadmits
  case h_2 =>
    obtain ⟨i, _, h⟩ := bind_eq_ok h
    obtain rfl := Except.ok.inj h
    intro item hitem
    simp only [removeAt] at hitem
    split at hitem
    · exact hitems item hitem
    · exact hitems item (List.mem_of_mem_eraseIdx hitem)
  case h_3 =>
    obtain ⟨i, _, h⟩ := bind_eq_ok h
    obtain ⟨decoded, hdecoded, h⟩ := bind_eq_ok h
    obtain ⟨value, hcheck, h⟩ := bind_eq_ok h
    obtain rfl := Except.ok.inj h
    obtain ⟨rfl, hadmits⟩ := checkItem_eq_ok_iff.mp hcheck
    intro item hitem
    simp only [replaceAt] at hitem
    split at hitem
    · exact hitems item hitem
    · rcases List.mem_or_eq_of_mem_set hitem with hold | rfl
      · exact hitems item hold
      · exact hone _ hdecoded hadmits
  case h_4 =>
    obtain ⟨⟨field, relation, expected⟩, _, h⟩ := bind_eq_ok h
    intro item hitem
    exact hitems item (dropMatching_subset h hitem)
  case h_5 =>
    obtain rfl := Except.ok.inj h
    simp
  case h_6 =>
    obtain ⟨decoded, hdecoded, h⟩ := bind_eq_ok h
    split at h
    · obtain ⟨rfl, hadmits⟩ := checkItems_eq_ok h
      exact fun item hitem => hall _ hdecoded item hitem (hadmits item hitem)
    · cases h
  case h_7 => cases h

/-- Operators on items that the array admits leave such items. -/
theorem run_admits (hitems : ∀ item ∈ items, c.Admits item)
    (h : c.run items operator literal = .ok found) : ∀ item ∈ found, c.Admits item :=
  run_forall hitems (fun _ _ hv => hv) (fun _ _ _ _ hv => hv) h

/-- The items that an operator works on are those of the current list or of the default one. -/
theorem startItems_forall {P : Value → Prop} {current default : Value}
    (hcurrent : ∀ items, current = .list items → ∀ item ∈ items, P item)
    (hdefault : ∀ items, default = .list items → ∀ item ∈ items, P item) :
    ∀ item ∈ startItems current default, P item := by
  simp only [startItems]
  split
  · rename_i items
    exact hcurrent items rfl
  · rename_i items _
    exact hdefault items rfl
  · simp

theorem fit_subset (c : ArrayConfig) (items : List Value) : c.fit items ⊆ items := by
  rw [fit]
  split
  · exact List.Subset.refl items
  · exact List.drop_subset _ items

theorem length_fit_le (items : List Value) {n : Nat} (h : c.maxLength = some n) :
    (c.fit items).length ≤ n := by
  simp only [fit, h, List.length_drop]
  omega

end ArrayConfig

end Storyworld
