/-! Insertion-ordered maps. A key keeps the place of its first insertion and the
value of its last. -/

namespace Storyworld

abbrev Entries (κ α : Type) := List (κ × α)

namespace Entries

variable {κ α β : Type} [DecidableEq κ] {es : Entries κ α}

def get? (key : κ) : Entries κ α → Option α
  | [] => none
  | (k, v) :: es => if k = key then some v else get? key es

/-- Replaces the value in place, or appends the key. -/
def put (key : κ) (value : α) : Entries κ α → Entries κ α
  | [] => [(key, value)]
  | (k, v) :: es => if k = key then (key, value) :: es else (k, v) :: put key value es

def erase (es : Entries κ α) (key : κ) : Entries κ α := es.filter (·.1 ≠ key)

def keys (es : Entries κ α) : List κ := es.map (·.1)

/-- What was put under a key is found there. -/
theorem get?_put_self (es : Entries κ α) (key : κ) (value : α) :
    (es.put key value).get? key = some value := by
  induction es with
  | nil => simp [put, get?]
  | cons e es ih =>
    by_cases h : e.1 = key
    · simp [put, get?, h]
    · simp [put, get?, h, ih]

/-- Putting under one key leaves what is found under the others. -/
theorem get?_put_of_ne (es : Entries κ α) {key other : κ} (value : α) (h : other ≠ key) :
    (es.put key value).get? other = es.get? other := by
  induction es with
  | nil => simp [put, get?, h.symm]
  | cons e es ih =>
    by_cases hk : e.1 = key
    · simp [put, get?, hk, h.symm]
    · by_cases ho : e.1 = other <;> simp [put, get?, hk, ho, h, ih]

theorem get?_put (es : Entries κ α) (key other : κ) (value : α) :
    (es.put key value).get? other = if key = other then some value else es.get? other := by
  split
  · rename_i h
    rw [← h, get?_put_self]
  · rename_i h
    exact get?_put_of_ne es value (Ne.symm h)

/-- A new key comes last, and a known one keeps its place. -/
theorem keys_put (es : Entries κ α) (key : κ) (value : α) :
    (es.put key value).keys = if key ∈ es.keys then es.keys else es.keys ++ [key] := by
  induction es with
  | nil => simp [put, keys]
  | cons e es ih =>
    by_cases h : e.1 = key
    · simp [put, keys, h]
    · simp only [keys] at ih
      by_cases hm : key ∈ es.map (·.1) <;> simp_all [put, keys, Ne.symm h]

theorem get?_eq_none_iff {es : Entries κ α} {key : κ} : es.get? key = none ↔ key ∉ es.keys := by
  induction es with
  | nil => simp [get?, keys]
  | cons e es ih =>
    by_cases h : e.1 = key
    · simp [get?, keys, h]
    · simp only [keys] at ih
      simp [get?, keys, h, ih, Ne.symm h]

theorem get?_append (es fs : Entries κ α) (key : κ) :
    get? key (es ++ fs) = (es.get? key).or (fs.get? key) := by
  induction es with
  | nil => rfl
  | cons e es ih => by_cases h : e.1 = key <;> simp [get?, h, ih]

theorem get?_erase (es : Entries κ α) (key other : κ) :
    (es.erase key).get? other = if key = other then none else es.get? other := by
  unfold erase
  induction es with
  | nil => simp [get?]
  | cons e es ih =>
    by_cases hs : e.1 = key
    · simp only [List.filter_cons, hs, ne_eq, not_true_eq_false, decide_false, Bool.false_eq_true,
        if_false]
      rw [ih]
      split
      · rfl
      · rename_i hne
        simp [get?, hs, hne]
    · simp only [List.filter_cons, ne_eq, hs, not_false_eq_true, decide_true, if_true, get?]
      rw [ih]
      split
      · rename_i ho
        simp [← ho, Ne.symm hs]
      · rfl

theorem nodup_put (h : es.keys.Nodup) (key : κ) (value : α) : (es.put key value).keys.Nodup := by
  rw [keys_put]
  split
  · exact h
  · rename_i hk
    rw [List.nodup_append]
    refine ⟨h, by simp, ?_⟩
    rintro a ha b hb rfl
    exact hk (List.mem_singleton.mp hb ▸ ha)

theorem nodup_erase (h : es.keys.Nodup) (key : κ) : (es.erase key).keys.Nodup :=
  h.sublist (List.filter_sublist.map _)

theorem keys_put_of_get? {key : κ} {old : α} (h : es.get? key = some old) (value : α) :
    (es.put key value).keys = es.keys := by
  rw [keys_put, if_pos]
  exact Decidable.byContradiction fun hk => by simp [get?_eq_none_iff.mpr hk] at h

theorem mem_keys_iff {key : κ} : key ∈ es.keys ↔ (es.get? key).isSome := by
  have hnone : es.get? key = none ↔ key ∉ es.keys := get?_eq_none_iff
  cases hk : es.get? key with
  | none => simpa [hk] using hnone
  | some v => simpa [hk] using hnone

theorem mem_of_get? {key : κ} {value : α} (h : es.get? key = some value) : (key, value) ∈ es := by
  induction es with
  | nil => cases h
  | cons e es ih =>
    by_cases hk : e.1 = key
    · simp only [get?, hk, if_true, Option.some.injEq] at h
      exact List.mem_cons.mpr (.inl (Prod.ext hk.symm h.symm))
    · simp only [get?, hk, if_false] at h
      exact List.mem_cons_of_mem e (ih h)

theorem put_self {key : κ} {value : α} (h : es.get? key = some value) :
    es.put key value = es := by
  induction es with
  | nil => cases h
  | cons e es ih =>
    by_cases hk : e.1 = key
    · simp only [get?, hk, if_true, Option.some.injEq] at h
      simp [put, ← hk, ← h]
    · simp only [get?, hk, if_false] at h
      simp [put, hk, ih h]

theorem put_put (es : Entries κ α) (key : κ) (value last : α) :
    (es.put key value).put key last = es.put key last := by
  induction es with
  | nil => simp [put]
  | cons e es ih => by_cases hk : e.1 = key <;> simp [put, hk, ih]

theorem erase_eq_self {key : κ} (h : es.get? key = none) : es.erase key = es := by
  refine List.filter_eq_self.mpr fun e he => ?_
  have hkey : e.1 ≠ key := fun hk => get?_eq_none_iff.mp h (hk ▸ List.mem_map_of_mem he)
  simpa using hkey

def mapValues (f : α → β) (es : Entries κ α) : Entries κ β := es.map fun e => (e.1, f e.2)

theorem get?_mapValues (f : α → β) (es : Entries κ α) (key : κ) :
    (es.mapValues f).get? key = (es.get? key).map f := by
  induction es with
  | nil => rfl
  | cons e es ih =>
    simp only [mapValues] at ih
    by_cases h : e.1 = key <;> simp [mapValues, get?, h, ih]

theorem mapValues_put (f : α → β) (es : Entries κ α) (key : κ) (value : α) :
    (es.put key value).mapValues f = (es.mapValues f).put key (f value) := by
  induction es with
  | nil => rfl
  | cons e es ih =>
    simp only [mapValues] at ih
    by_cases h : e.1 = key <;> simp [mapValues, put, h, ih]

theorem mapValues_erase (f : α → β) (es : Entries κ α) (key : κ) :
    (es.erase key).mapValues f = (es.mapValues f).erase key := by
  simp only [mapValues, erase, List.filter_map]
  rfl

end Entries

end Storyworld
