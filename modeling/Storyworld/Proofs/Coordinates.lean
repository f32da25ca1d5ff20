import Storyworld.Variables

/-! The coordinates that a card declares. Where the buckets hold declared coordinates only, nothing
stands in the way of a write at a declared address, and the buckets hold declared coordinates only
after it. -/

namespace Storyworld

namespace Entries

variable {κ α : Type} [DecidableEq κ] {P : κ → α → Prop} {es : Entries κ α} {key : κ} {value : α}

/-- Every entry satisfies a condition on its key and its value. -/
def All {κ α : Type} (P : κ → α → Prop) (es : Entries κ α) : Prop := ∀ e ∈ es, P e.1 e.2

theorem all_nil {κ α : Type} {P : κ → α → Prop} : All P [] := fun _ h => nomatch h

theorem All.put (h : es.All P) (hv : P key value) : (es.put key value).All P := by
  induction es with
  | nil =>
    intro e he
    obtain rfl := List.mem_singleton.mp he
    exact hv
  | cons e es ih =>
    have hrest : All P es := fun f hf => h f (List.mem_cons_of_mem e hf)
    rw [Entries.put]
    split
    · exact List.forall_mem_cons.mpr ⟨hv, hrest⟩
    · exact List.forall_mem_cons.mpr ⟨h e List.mem_cons_self, ih hrest⟩

theorem All.get? (h : es.All P) (hg : es.get? key = some value) : P key value := by
  induction es with
  | nil => cases hg
  | cons e es ih =>
    rw [Entries.get?] at hg
    split at hg
    · rename_i hk
      obtain rfl := Option.some.inj hg
      exact hk ▸ h e List.mem_cons_self
    · exact ih (fun f hf => h f (List.mem_cons_of_mem e hf)) hg

end Entries

/-- The value is an object whose fields satisfy a condition. -/
def Value.HasFields (P : Text → Value → Prop) : Value → Prop
  | .object fields => Entries.All P fields
  | _ => False

namespace Card

/-- A parameter of the scope is declared under the name. -/
def HasParameter (card : Card) (scope : Scope) (name : Text) : Prop :=
  ∃ p ∈ card.parameters, p.name = name ∧ p.scope = scope

def HasEntity (card : Card) (name : Text) : Prop := ∃ e ∈ card.entities, e.name = name

/-- What the bucket of a scope may hold under a key. -/
def Holds (card : Card) : Scope → Text → Value → Prop
  | .global, parameter, _ => card.HasParameter .global parameter
  | .scene, parameter, _ => card.HasParameter .scene parameter
  | .character, subject, v =>
    card.HasEntity subject ∧ v.HasFields fun parameter _ => card.HasParameter .character parameter
  | .relationship, subject, v =>
    card.HasEntity subject ∧ v.HasFields fun parameter w =>
      card.HasParameter .relationship parameter ∧ w.HasFields fun target _ => card.HasEntity target

end Card

/-- Every name in the address is declared, the parameter for the scope of the address. -/
def Address.Declared (card : Card) : Address → Prop
  | .global parameter => card.HasParameter .global parameter
  | .scene parameter => card.HasParameter .scene parameter
  | .character subject parameter =>
    card.HasEntity subject ∧ card.HasParameter .character parameter
  | .relationship subject parameter target =>
    card.HasEntity subject ∧ card.HasParameter .relationship parameter ∧ card.HasEntity target

namespace Variables

variable {card : Card} {v : Variables}

/-- There is one bucket for each scope, and it holds declared coordinates only. -/
structure Declared (card : Card) (v : Variables) : Prop where
  buckets : Entries.keys v = Scope.all.map Scope.name
  entries : ∀ scope, (v.bucket scope).All (card.Holds scope)

theorem name_inj {s t : Scope} (h : s.name = t.name) : s = t := by
  cases s <;> cases t <;> simp_all [Scope.name]

theorem bucket_putBucket (v : Variables) (s t : Scope) (b : Entries Text Value) :
    (v.putBucket s b).bucket t = if s = t then b else v.bucket t := by
  rw [bucket, putBucket, Entries.get?_put]
  by_cases h : s = t
  · simp [h]
  · rw [if_neg h, if_neg fun hn => h (name_inj hn), bucket]

theorem Declared.putBucket (h : v.Declared card) {scope : Scope} {b : Entries Text Value}
    (hb : b.All (card.Holds scope)) : (v.putBucket scope b).Declared card := by
  constructor
  · have hmem : scope.name ∈ Entries.keys v := by
      rw [h.buckets]
      cases scope <;> simp [Scope.all]
    rw [Variables.putBucket, Entries.keys_put, if_pos hmem, h.buckets]
  · intro t
    rw [bucket_putBucket]
    split
    · rename_i hs
      exact hs ▸ hb
    · exact h.entries t

theorem empty_declared (card : Card) : Variables.empty.Declared card := by
  refine ⟨by decide, fun scope => ?_⟩
  cases scope <;> exact Entries.all_nil

/-- There is a bucket for every scope. -/
def HasBuckets (v : Variables) : Prop := ∀ scope : Scope, (Entries.get? scope.name v).isSome

theorem HasBuckets.complete (h : v.HasBuckets) : v.complete = v := by
  simp [Variables.complete, Scope.all, h _]

theorem Declared.hasBuckets (h : v.Declared card) : v.HasBuckets := by
  intro scope
  rw [← Entries.mem_keys_iff, h.buckets]
  cases scope <;> simp [Scope.all]

theorem Declared.complete (h : v.Declared card) : v.complete = v := h.hasBuckets.complete

/-- Under a key there are fields that satisfy a condition, if what is there at all has such. -/
theorem fieldsUnder?_eq_some {P : Text → Value → Prop} {es : Entries Text Value} (key : Text)
    (h : ∀ w, es.get? key = some w → w.HasFields P) :
    ∃ fields, fieldsUnder? es key = some fields ∧ Entries.All P fields := by
  cases hg : es.get? key with
  | none => exact ⟨[], by simp [fieldsUnder?, hg], Entries.all_nil⟩
  | some w =>
    have hw := h w hg
    cases w with
    | object fields => exact ⟨fields, by simp [fieldsUnder?, hg, Value.fields?], hw⟩
    | _ => cases hw

/-- A write at a declared address succeeds, and leaves declared coordinates only. -/
theorem Declared.write {a : Address} (h : v.Declared card) (ha : a.Declared card) (value : Value) :
    ∃ next, v.write a value = .ok next ∧ next.Declared card := by
  cases a with
  | global p => exact ⟨_, rfl, h.putBucket ((h.entries .global).put ha)⟩
  | scene p => exact ⟨_, rfl, h.putBucket ((h.entries .scene).put ha)⟩
  | character s p =>
    have hb := h.entries .character
    obtain ⟨fields, hf, hall⟩ := fieldsUnder?_eq_some s fun w hw => (hb.get? hw).2
    have hsubject : card.Holds .character s (.object (fields.put p value)) :=
      ⟨ha.1, hall.put ha.2⟩
    exact ⟨_, by simp only [Variables.write, Address.scopeOf, hf],
      h.putBucket (hb.put hsubject)⟩
  | relationship s p t =>
    obtain ⟨hs, hp, ht⟩ := ha
    have hb := h.entries .relationship
    obtain ⟨fields, hf, hall⟩ := fieldsUnder?_eq_some s fun w hw => (hb.get? hw).2
    obtain ⟨targets, htargets, hnames⟩ := fieldsUnder?_eq_some p fun w hw => (hall.get? hw).2
    have hsubject : card.Holds .relationship s
        (.object (fields.put p (.object (targets.put t value)))) :=
      ⟨hs, hall.put ⟨hp, hnames.put ht⟩⟩
    exact ⟨_, by simp only [Variables.write, Address.scopeOf, hf, htargets],
      h.putBucket (hb.put hsubject)⟩

end Variables

end Storyworld
