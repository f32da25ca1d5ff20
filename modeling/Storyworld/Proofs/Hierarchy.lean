import Mathlib.Data.List.Pairwise
import Storyworld.Card.Lookup
import Storyworld.Proofs.Validity

/-! Looking up in a valid card. What is found is declared, every declared entity has its full path,
and a key without a dot finds nothing but the entity of that name. -/

namespace Storyworld

variable {card : Card} {e : Entity} {key path : Text}

/-- A climb ends at a root, or leads on to a declared location that it has not passed. -/
theorem climb_eq_ok {entities : List Entity} {start : Text} {levels : Nat}
    {seen names : List Text} {parent : Option Text}
    (h : climb entities start levels seen parent = .ok names) :
    (names = [] ∧ parent.getD "" = "") ∨
      ∃ owner rest above, owner ∈ entities ∧ owner.type = .location ∧ parent = some owner.name ∧
        owner.name ≠ "" ∧ owner.name ∉ seen ∧ levels = rest + 1 ∧ names = owner.name :: above ∧
        climb entities start rest (owner.name :: seen) owner.parentLocation = .ok above := by
  cases parent with
  | none =>
    rw [climb] at h
    exact .inl ⟨(Except.ok.inj h).symm, rfl⟩
  | some p =>
    rw [climb] at h
    split at h
    · rename_i hp
      exact .inl ⟨(Except.ok.inj h).symm, hp⟩
    · rename_i hp
      split at h
      · cases h
      · rename_i owner hfind
        have hname : owner.name = p := by simpa using List.find?_some hfind
        subst hname
        split at h
        · cases h
        · rename_i htype
          split at h
          · cases h
          · rename_i hseen
            split at h
            · cases h
            · rename_i rest
              split at h
              · rename_i above habove
                refine .inr ⟨owner, rest, above, List.mem_of_find?_eq_some hfind,
                  by simpa using htype, rfl, hp, by simpa using hseen, rfl,
                  (Except.ok.inj h).symm, habove⟩
              · cases h

namespace Card

/-- The names of the locations above an entity, from the root on, and its own, joined by dots. -/
inductive FullPath (card : Card) : Entity → Text → Prop
  | root {e : Entity} (h : e.parentLocation.getD "" = "") : FullPath card e e.name
  | child {e owner : Entity} {path : Text} (hmem : owner ∈ card.entities)
      (htype : owner.type = .location) (hparent : e.parentLocation = some owner.name)
      (hname : owner.name ≠ "") (howner : FullPath card owner path) :
      FullPath card e (path ++ "." ++ e.name)

theorem fullPath_of_climb {start : Text} {levels : Nat} {seen names : List Text}
    (h : climb card.entities start levels seen e.parentLocation = .ok names) :
    card.FullPath e (Text.intercalate "." (e.name :: names).reverse) := by
  induction levels generalizing e seen names with
  | zero =>
    obtain ⟨rfl, hroot⟩ | ⟨_, _, _, _, _, _, _, _, hlevels, _⟩ := climb_eq_ok h
    · simpa using FullPath.root hroot
    · cases hlevels
  | succ levels ih =>
    obtain ⟨rfl, hroot⟩ | ⟨owner, rest, above, hmem, htype, hparent, hname, _, hlevels, rfl, habove⟩ :=
      climb_eq_ok h
    · simpa using FullPath.root hroot
    · obtain rfl := Nat.succ.inj hlevels
      rw [List.reverse_cons, Text.intercalate_concat (by simp)]
      exact FullPath.child hmem htype hparent hname (ih habove)

theorem sharedKey?_eq_none_iff {seen : List Text} {ps : List Parameter} :
    sharedKey? seen ps = none ↔
      (∀ p ∈ ps, ∀ k ∈ p.keys, k ∉ seen) ∧ ps.Pairwise fun p q => ∀ k ∈ p.keys, k ∉ q.keys := by
  induction ps generalizing seen with
  | nil => simp [sharedKey?]
  | cons p ps ih =>
    rw [sharedKey?, List.pairwise_cons, List.forall_mem_cons]
    cases hkeys : p.keys.find? seen.contains with
    | some key =>
      have hkey : key ∈ seen := by simpa using List.find?_some hkeys
      simp only [reduceCtorEq, false_iff]
      exact fun h => h.1.1 key (List.mem_of_find?_eq_some hkeys) hkey
    | none =>
      have hfirst : ∀ k ∈ p.keys, k ∉ seen := by simpa using List.find?_eq_none.mp hkeys
      simp only [ih, List.mem_append, not_or]
      constructor
      · rintro ⟨hrest, hapart⟩
        exact ⟨⟨hfirst, fun q hq k hk => (hrest q hq k hk).2⟩,
          fun q hq k hk hk' => (hrest q hq k hk').1 hk, hapart⟩
      · rintro ⟨⟨-, hrest⟩, hkeys, hapart⟩
        exact ⟨fun q hq k hk => ⟨fun hk' => hkeys q hq k hk' hk, hrest q hq k hk⟩, hapart⟩

theorem sharedName?_eq_none_iff {seen : List Text} {es : List Entity} :
    sharedName? seen es = none ↔
      (∀ e ∈ es, e.name ∉ seen) ∧ es.Pairwise fun e f => e.name ≠ f.name := by
  induction es generalizing seen with
  | nil => simp [sharedName?]
  | cons e es ih =>
    rw [sharedName?, List.pairwise_cons, List.forall_mem_cons]
    by_cases hseen : e.name ∈ seen
    · simp [hseen]
    · simp only [List.contains_eq_mem, hseen, decide_false, Bool.false_eq_true, if_false, ih,
        List.mem_cons, not_or, not_false_eq_true, true_and]
      constructor
      · rintro ⟨hrest, hapart⟩
        exact ⟨fun f hf => (hrest f hf).2, fun f hf => Ne.symm (hrest f hf).1, hapart⟩
      · rintro ⟨hrest, hfirst, hapart⟩
        exact ⟨fun f hf => ⟨Ne.symm (hfirst f hf), hrest f hf⟩, hapart⟩

/-- A card breaks no rule as a whole if its parameters share no key, its entities no name, and each
of these has a chain of parents. -/
theorem breach?_eq_none_iff : card.breach? = none ↔
    (card.parameters.Pairwise fun p q => ∀ k ∈ p.keys, k ∉ q.keys) ∧
      (card.entities.Pairwise fun e f => e.name ≠ f.name) ∧
      ∀ e ∈ card.entities, ∃ names, card.lineage e = .ok names := by
  have hkeys : sharedKey? [] card.parameters = none ↔
      card.parameters.Pairwise fun p q => ∀ k ∈ p.keys, k ∉ q.keys := by
    simp [sharedKey?_eq_none_iff]
  have hnames : sharedName? [] card.entities = none ↔
      card.entities.Pairwise fun e f => e.name ≠ f.name := by
    simp [sharedName?_eq_none_iff]
  have hlineages : card.brokenLineage? = none ↔
      ∀ e ∈ card.entities, ∃ names, card.lineage e = .ok names := by
    rw [brokenLineage?, List.findSome?_eq_none_iff]
    refine forall₂_congr fun e he => ?_
    cases card.lineage e <;> simp
  rw [← hkeys, ← hnames, ← hlineages, breach?]
  cases sharedKey? [] card.parameters with
  | some key => simp
  | none => cases sharedName? [] card.entities <;> simp

theorem Valid.lineage_ok (hv : card.Valid) (he : e ∈ card.entities) :
    ∃ names, card.lineage e = .ok names := (breach?_eq_none_iff.mp hv.whole).2.2 e he

/-- A declared entity of a valid card has a full path, and it is the one that is computed. -/
theorem Valid.fullPath (hv : card.Valid) (he : e ∈ card.entities) :
    card.FullPath e (card.pathOf e) := by
  obtain ⟨names, hn⟩ := hv.lineage_ok he
  simp only [pathOf, hn]
  simp only [lineage] at hn
  split at hn
  · rename_i above habove
    obtain rfl := Except.ok.inj hn
    exact fullPath_of_climb habove
  · cases hn

theorem FullPath.eq_name (h : card.FullPath e path) (hdot : .char '.' ∉ path.toList) :
    path = e.name := by
  cases h with
  | root _ => rfl
  | child _ _ _ _ _ => simp [Text.toList_append] at hdot

theorem parameter?_mem {p : Parameter} (h : card.parameter? key = some p) :
    p ∈ card.parameters := by
  simp only [parameter?] at h
  split at h
  · rename_i q hq
    exact Option.some.inj h ▸ List.mem_of_find?_eq_some hq
  · split at h
    · cases h
    · exact List.mem_of_find?_eq_some h

theorem parameter?_name {p : Parameter} (hp : p ∈ card.parameters) :
    ∃ q, card.parameter? p.name = some q := by
  simp only [parameter?]
  cases hf : card.parameters.find? (·.name == p.name) with
  | some q => exact ⟨q, rfl⟩
  | none => simpa using List.find?_eq_none.mp hf p hp

theorem Valid.eq_of_key (hv : card.Valid) {p q : Parameter} (hp : p ∈ card.parameters)
    (hq : q ∈ card.parameters) (hpkey : key ∈ p.keys) (hqkey : key ∈ q.keys) : p = q := by
  have hkeys := (breach?_eq_none_iff.mp hv.whole).1
  have hsymm : Std.Symm fun p q : Parameter => ∀ k ∈ p.keys, k ∉ q.keys :=
    ⟨fun p q h k hk hk' => h k hk' hk⟩
  exact Classical.not_not.mp fun hne => hkeys.forall hp hq hne key hpkey hqkey

/-- A declared parameter is what its name finds, and its id, if that is not empty. -/
theorem Valid.parameter?_key (hv : card.Valid) {p : Parameter} (hp : p ∈ card.parameters)
    (hkey : key ∈ p.keys) (hne : key = "" → p.name = "") : card.parameter? key = some p := by
  have hfound : ∀ q ∈ card.parameters, key ∈ q.keys → some q = some p := fun q hq hqkey =>
    congrArg some (hv.eq_of_key hq hp hqkey hkey)
  simp only [parameter?]
  split
  · rename_i q hq
    have hname : q.name = key := by simpa using List.find?_some hq
    exact hfound q (List.mem_of_find?_eq_some hq) (hname ▸ List.mem_cons_self)
  · rename_i hnone
    have hname : p.name ≠ key := by simpa using List.find?_eq_none.mp hnone p hp
    have hid : p.id = some key := by
      simpa [Parameter.keys, Option.mem_toList, hname.symm] using hkey
    rw [if_neg fun he => hname ((hne he).trans he.symm)]
    cases hq : card.parameters.find? (·.id == some key) with
    | none => simpa [hid] using List.find?_eq_none.mp hq p hp
    | some q =>
      have hqid : q.id = some key := by simpa using List.find?_some hq
      exact hfound q (List.mem_of_find?_eq_some hq) (by simp [Parameter.keys, hqid])

theorem Valid.parameter?_self (hv : card.Valid) {p : Parameter} (hp : p ∈ card.parameters) :
    card.parameter? p.name = some p :=
  hv.parameter?_key hp List.mem_cons_self id

/-- A declared entity is known by its name. -/
theorem Valid.eq_of_name (hv : card.Valid) {f : Entity} (he : e ∈ card.entities)
    (hf : f ∈ card.entities) (hname : e.name = f.name) : e = f := by
  have hnames := (breach?_eq_none_iff.mp hv.whole).2.1
  have hsymm : Std.Symm fun e f : Entity => e.name ≠ f.name := ⟨fun e f h => h.symm⟩
  exact Classical.not_not.mp fun hne => hnames.forall he hf hne hname

/-- What a declared name finds has that name. -/
theorem entity?_name (he : e ∈ card.entities) :
    ∃ f, card.entity? e.name = some f ∧ f.name = e.name := by
  simp only [entity?]
  cases hf : card.entities.find? (·.name == e.name) with
  | some f => exact ⟨f, rfl, by simpa using List.find?_some hf⟩
  | none => simpa using List.find?_eq_none.mp hf e he

theorem entity?_mem (h : card.entity? key = some e) : e ∈ card.entities := by
  simp only [entity?] at h
  split at h
  · rename_i f hf
    exact Option.some.inj h ▸ List.mem_of_find?_eq_some hf
  · have hmem := List.mem_reverse.mp (List.mem_of_find?_eq_some h)
    exact (List.mem_filter.mp hmem).1

/-- A declared entity is what its name finds. -/
theorem Valid.entity?_self (hv : card.Valid) (he : e ∈ card.entities) :
    card.entity? e.name = some e := by
  obtain ⟨f, hf, hname⟩ := entity?_name he
  rw [hf, hv.eq_of_name (entity?_mem hf) he hname]

theorem entityOf?_eq_some {type : EntityType} (h : card.entityOf? type key = some e) :
    e ∈ card.entities ∧ e.type = type := by
  obtain ⟨hfound, htype⟩ := Option.filter_eq_some_iff.mp h
  exact ⟨entity?_mem hfound, by simpa using htype⟩

/-- A key without a dot is the name of what it finds. -/
theorem Valid.entity?_name (hv : card.Valid) (h : card.entity? key = some e)
    (hdot : .char '.' ∉ key.toList) : e.name = key := by
  have he := entity?_mem h
  simp only [entity?] at h
  split at h
  · rename_i f hf
    obtain rfl := Option.some.inj h
    simpa using List.find?_some hf
  · have hpath : card.pathOf e = key := by simpa using List.find?_some h
    rw [← hpath] at hdot ⊢
    exact ((hv.fullPath he).eq_name hdot).symm

end Card

end Storyworld
