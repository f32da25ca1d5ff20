import Storyworld.Proofs.Containment

/-! Values at different addresses are independent. What a run of mutations leaves at an address is
what the mutations of that address alone make of the value there, one after another, so that only
their order among themselves matters. -/

namespace Storyworld

variable {card : Card} {s next : State} {text : Text}

namespace Variables

variable {v w : Variables} {a : Address}

/-- The fields of the object under a key, none where there is no object. -/
def inner (es : Entries Text Value) (key : Text) : Entries Text Value :=
  ((es.get? key).bind Value.fields?).getD []

def lookUp (b : Entries Text Value) : Address → Value
  | .global p => (b.get? p).getD .null
  | .scene p => (b.get? p).getD .null
  | .character s p => ((inner b s).get? p).getD .null
  | .relationship s p t => ((inner (inner b s) p).get? t).getD .null

/-- The bucket with a value put at an address of its scope. -/
def place (b : Entries Text Value) (value : Value) : Address → Entries Text Value
  | .global p => b.put p value
  | .scene p => b.put p value
  | .character s p => b.put s (.object ((inner b s).put p value))
  | .relationship s p t =>
    b.put s (.object ((inner b s).put p (.object ((inner (inner b s) p).put t value))))

theorem inner_put (es : Entries Text Value) (key other : Text) (fields : Entries Text Value) :
    inner (es.put key (.object fields)) other = if key = other then fields else inner es other := by
  by_cases h : key = other <;> simp [inner, Entries.get?_put, h, Value.fields?]

theorem inner_of_fieldsUnder? {es fields : Entries Text Value} {key : Text}
    (h : fieldsUnder? es key = some fields) : inner es key = fields := by
  simp only [fieldsUnder?] at h
  cases hg : es.get? key with
  | none =>
    have he : fields = [] := by simpa [hg] using h.symm
    simp [inner, hg, he]
  | some w =>
    have hf : w.fields? = some fields := by simpa [hg] using h
    simp [inner, hg, hf]

theorem read_eq_lookUp (v : Variables) (a : Address) :
    v.read a = lookUp (v.bucket a.scopeOf) a := by
  cases a with
  | global p => rfl
  | scene p => rfl
  | character s p =>
    simp only [Variables.read, lookUp, inner, Address.scopeOf]
    cases ((v.bucket .character).get? s).bind Value.fields? <;> simp [Entries.get?]
  | relationship s p t =>
    simp only [Variables.read, lookUp, inner, Address.scopeOf]
    cases ((v.bucket .relationship).get? s).bind Value.fields? with
    | none => simp [Entries.get?]
    | some fields => cases h : (fields.get? p).bind Value.fields? <;> simp [Entries.get?, h]

theorem write_eq_ok {value : Value} (h : v.write a value = .ok w) :
    w = v.putBucket a.scopeOf (place (v.bucket a.scopeOf) value a) := by
  cases a with
  | global p => exact (Except.ok.inj h).symm
  | scene p => exact (Except.ok.inj h).symm
  | character s p =>
    simp only [Variables.write] at h
    split at h
    · cases h
    · rename_i fields hf
      rw [place, inner_of_fieldsUnder? hf]
      exact (Except.ok.inj h).symm
  | relationship s p t =>
    simp only [Variables.write] at h
    split at h
    · cases h
    · rename_i fields hf
      split at h
      · cases h
      · rename_i targets ht
        rw [place, inner_of_fieldsUnder? hf, inner_of_fieldsUnder? ht]
        exact (Except.ok.inj h).symm

/-- What a bucket has at an address of its scope, if it has anything there. -/
def stored? (b : Entries Text Value) : Address → Option Value
  | .global p => b.get? p
  | .scene p => b.get? p
  | .character s p => (inner b s).get? p
  | .relationship s p t => (inner (inner b s) p).get? t

/-- The value that is stored at an address, if one is. -/
def value? (v : Variables) (a : Address) : Option Value := stored? (v.bucket a.scopeOf) a

theorem read_eq_value? (v : Variables) (a : Address) : v.read a = (v.value? a).getD .null := by
  rw [read_eq_lookUp, value?]
  cases a <;> rfl

theorem stored?_place (b : Entries Text Value) (value : Value) {a c : Address}
    (hscope : a.scopeOf = c.scopeOf) :
    stored? (place b value a) c = if a = c then some value else stored? b c := by
  cases a <;> cases c <;> try cases hscope
  case global.global p q => by_cases h : p = q <;> simp [stored?, place, Entries.get?_put, h]
  case scene.scene p q => by_cases h : p = q <;> simp [stored?, place, Entries.get?_put, h]
  case character.character s p s' q =>
    by_cases hs : s = s'
    · by_cases hp : p = q <;> simp [stored?, place, inner_put, Entries.get?_put, hs, hp]
    · simp [stored?, place, inner_put, hs]
  case relationship.relationship s p t s' q t' =>
    by_cases hs : s = s'
    · by_cases hp : p = q
      · by_cases ht : t = t' <;> simp [stored?, place, inner_put, Entries.get?_put, hs, hp, ht]
      · simp [stored?, place, inner_put, hs, hp]
    · simp [stored?, place, inner_put, hs]

/-- A write stores its value at its own address and nothing elsewhere. -/
theorem value?_write {value : Value} (h : v.write a value = .ok w) (c : Address) :
    w.value? c = if a = c then some value else v.value? c := by
  rw [write_eq_ok h, value?, value?, bucket_putBucket]
  by_cases hscope : a.scopeOf = c.scopeOf
  · rw [if_pos hscope, stored?_place _ _ hscope, hscope]
  · have hne : a ≠ c := fun he => hscope (by rw [he])
    rw [if_neg hscope, if_neg hne]

theorem read_write {value : Value} (h : v.write a value = .ok w) (c : Address) :
    w.read c = if a = c then value else v.read c := by
  rw [read_eq_value?, value?_write h, read_eq_value?]
  split <;> rfl

end Variables

/-- The address that the coordinates of a mutation give. -/
def Mutation.address? (m : Mutation) : Option Address :=
  (Address.resolve m.scope m.parameter m.subject m.target).toOption

namespace Card

variable {m : Mutation} {ms : List Mutation} {v w : Variables}

theorem writeTo_eq_ok {a : Address} {value : Value} (h : v.writeTo (.ok a) value = .ok w) :
    v.write a value = .ok w := by
  simp only [Variables.writeTo] at h
  split at h
  · rename_i written hwrite
    exact hwrite.trans (congrArg Except.ok (Except.ok.inj h))
  · cases h

/-- What a mutation makes of the value at its address; a refused one keeps it. -/
def revise (card : Card) (current : Value) (m : Mutation) : Except Fault Value :=
  match card.parameter? m.parameter with
  | none => .error (.unknownParameter m.parameter)
  | some p =>
    match p.apply current m.operator m.valueLiteral with
    | .error (.refused _) => .ok current
    | .error .overlong => .error .overlong
    | .error .tooLarge => .error .tooLarge
    | .ok value => .ok value

/-- A mutation changes the value at its own address only. -/
theorem mutate_eq_ok (h : card.mutate v m = .ok w) :
    ∃ a value, m.address? = some a ∧ card.revise (v.read a) m = .ok value ∧
      ∀ c, w.read c = if a = c then value else v.read c := by
  simp only [mutate] at h
  split at h
  · cases h
  · rename_i p hp
    split at h
    · cases h
    · rename_i a ha
      have haddress : m.address? = some a := by rw [Mutation.address?, ha]; rfl
      split at h
      · rename_i why hrefused
        obtain rfl := Except.ok.inj h
        refine ⟨a, v.read a, haddress, by simp only [revise, hp, hrefused], fun c => ?_⟩
        split
        · rename_i hc
          rw [hc]
        · rfl
      · cases h
      · cases h
      · rename_i value hvalue
        exact ⟨a, value, haddress, by simp only [revise, hp, hvalue],
          Variables.read_write (writeTo_eq_ok h)⟩

/-- What the mutations of an address in a list make of a value, one after another. -/
def reviseAt (card : Card) (a : Address) (current : Value) (ms : List Mutation) :
    Except Fault Value :=
  (ms.filter (·.address? = some a)).foldlM card.revise current

theorem reviseAt_cons (h : card.mutate v m = .ok w) (a : Address) (ms : List Mutation) :
    card.reviseAt a (v.read a) (m :: ms) = card.reviseAt a (w.read a) ms := by
  obtain ⟨b, value, hb, hvalue, hread⟩ := mutate_eq_ok h
  rw [hread a, reviseAt]
  by_cases hab : b = a
  · subst hab
    rw [List.filter_cons_of_pos (by simpa using hb), List.foldlM_cons, hvalue, if_pos rfl]
    rfl
  · have hno : m.address? ≠ some a := fun he => hab (Option.some.inj (hb.symm.trans he))
    rw [List.filter_cons_of_neg (by simpa using hno), if_neg hab, reviseAt]

theorem reviseAt_of_foldlM (h : ms.foldlM card.mutate v = .ok w) (a : Address) :
    card.reviseAt a (v.read a) ms = .ok (w.read a) := by
  induction ms generalizing v with
  | nil =>
    obtain rfl : v = w := Except.ok.inj h
    rfl
  | cons m ms ih =>
    rw [List.foldlM_cons] at h
    obtain ⟨u, hm, hms⟩ := bind_eq_ok h
    rw [reviseAt_cons hm]
    exact ih hms

theorem Valid.exists_mutate (hv : card.Valid) {call : Call} (hm : card.resolve? call = some m)
    (h : v.Declared card) {a : Address} {value : Value} (ha : m.address? = some a)
    (hvalue : card.revise (v.read a) m = .ok value) :
    ∃ w, card.mutate v m = .ok w ∧ w.Declared card ∧
      ∀ c, w.read c = if a = c then value else v.read c := by
  obtain ⟨p, _, hp, b, hb, hdeclared⟩ := hv.resolve?_declared hm
  obtain rfl : b = a := by simpa [Mutation.address?, hb, Except.toOption] using ha
  obtain ⟨w, hw⟩ : ∃ w, card.mutate v m = .ok w := by
    simp only [revise, hp] at hvalue
    simp only [mutate, hp, hb]
    generalize p.apply (v.read b) m.operator m.valueLiteral = outcome at hvalue ⊢
    match outcome with
    | .error (.refused _) => exact ⟨v, rfl⟩
    | .error .overlong => cases hvalue
    | .error .tooLarge => cases hvalue
    | .ok result =>
      obtain ⟨w, hwrite, _⟩ := h.write hdeclared result
      exact ⟨w, by simp only [Variables.writeTo, hwrite]⟩
  obtain ⟨c, result, hc, hresult, hread⟩ := mutate_eq_ok hw
  obtain rfl : b = c := Option.some.inj (ha.symm.trans hc)
  obtain rfl : value = result := Except.ok.inj (hvalue.symm.trans hresult)
  exact ⟨w, hw, (hv.mutate_ends hm h).of_ok hw, hread⟩

theorem Valid.exists_foldlM_mutate (hv : card.Valid) (h : v.Declared card)
    (hms : ∀ m ∈ ms, ∃ call, card.resolve? call = some m)
    (heach : ∀ a, ∃ value, card.reviseAt a (v.read a) ms = .ok value) :
    ∃ w, ms.foldlM card.mutate v = .ok w := by
  induction ms generalizing v with
  | nil => exact ⟨v, rfl⟩
  | cons m ms ih =>
    obtain ⟨call, hcall⟩ := hms m List.mem_cons_self
    obtain ⟨_, _, _, a, ha, _⟩ := hv.resolve?_declared hcall
    have haddress : m.address? = some a := by rw [Mutation.address?, ha]; rfl
    obtain ⟨last, hlast⟩ := heach a
    rw [reviseAt, List.filter_cons_of_pos (by simpa using haddress), List.foldlM_cons] at hlast
    obtain ⟨value, hvalue, _⟩ := bind_eq_ok hlast
    obtain ⟨u, hu, hdeclared, _⟩ := hv.exists_mutate hcall h haddress hvalue
    have hrest : ∀ a, ∃ value, card.reviseAt a (u.read a) ms = .ok value := by
      intro a
      rw [← reviseAt_cons hu]
      exact heach a
    obtain ⟨w, hw⟩ := ih hdeclared (fun n hn => hms n (List.mem_cons_of_mem m hn)) hrest
    exact ⟨w, by rw [List.foldlM_cons, hu]; exact hw⟩

/-- Mutations in another order, but the same at each address, lead to the same values. -/
theorem Valid.foldlM_mutate_reorder (hv : card.Valid) (h : v.Declared card)
    (hw : (card.mutations text).foldlM card.mutate v = .ok w)
    (hperm : ms.Perm (card.mutations text))
    (horder : ∀ a, ms.filter (·.address? = some a) =
      (card.mutations text).filter (·.address? = some a)) :
    ∃ u, ms.foldlM card.mutate v = .ok u ∧ ∀ a, u.read a = w.read a := by
  have heach : ∀ a, card.reviseAt a (v.read a) ms = .ok (w.read a) := by
    intro a
    rw [reviseAt, horder a]
    exact reviseAt_of_foldlM hw a
  obtain ⟨u, hu⟩ := hv.exists_foldlM_mutate h
    (fun m hm => exists_call_of_mem_mutations (hperm.mem_iff.mp hm)) fun a => ⟨_, heach a⟩
  refine ⟨u, hu, fun a => ?_⟩
  have hread := reviseAt_of_foldlM hu a
  rw [heach a] at hread
  exact (Except.ok.inj hread).symm

end Card

theorem State.exists_applyParsed {b : Block} {values : Variables}
    (h : b.mutations.foldlM card.mutate s.values.complete = .ok values) :
    ∃ next, s.applyParsed card b = .ok next ∧ next.values = values := by
  refine ⟨_, by rw [State.applyParsed, h]; rfl, ?_⟩
  exact (applyScene_frame _ b.scene).1

/-- A text leaves at each address what its own mutations make of the value there, in written order.
Only their order at each address matters. -/
theorem Card.Reachable.coordinatewise (hs : card.Reachable s) (hv : card.Valid)
    (h : s.applyText card text = .ok next) :
    (∀ a, ((card.mutations text).filter (·.address? = some a)).foldlM card.revise
      (s.values.read a) = .ok (next.values.read a)) ∧
    (∀ a, (∀ m ∈ card.mutations text, m.address? ≠ some a) →
      next.values.read a = s.values.read a) ∧
    ∃ b, card.parse text = .ok b ∧ b.mutations = card.mutations text ∧
      ∀ ms : List Mutation, ms.Perm b.mutations →
        (∀ a, ms.filter (·.address? = some a) = b.mutations.filter (·.address? = some a)) →
        ∃ other, s.applyParsed card { b with mutations := ms } = .ok other ∧
          ∀ a, other.values.read a = next.values.read a := by
  have hdeclared := hs.declared hv
  have hrun := (State.applyText_eq_ok h).1
  rw [hdeclared.complete] at hrun
  have heach := reviseAt_of_foldlM hrun
  refine ⟨heach, fun a ha => ?_, ?_⟩
  · have hkept := heach a
    rw [reviseAt, List.filter_eq_nil_iff.mpr (by simpa using ha)] at hkept
    exact (Except.ok.inj hkept).symm
  · simp only [State.applyText] at h
    split at h
    · rename_i b hb
      have hmutations := (parse_eq_ok hb).1
      refine ⟨b, hb, hmutations, fun ms hperm horder => ?_⟩
      rw [hmutations] at hperm horder
      obtain ⟨u, hu, hread⟩ := hv.foldlM_mutate_reorder hdeclared hrun hperm horder
      obtain ⟨other, hother, hvalues⟩ := State.exists_applyParsed
        (b := { b with mutations := ms }) (by rw [hdeclared.complete]; exact hu)
      exact ⟨other, hother, fun a => by rw [hvalues, hread]⟩
    · cases h

/-- Two commands of different addresses in either order. -/
theorem demo_coordinatewise : Demo.card.Valid ∧ ∃ s next b m n other,
    Demo.card.Reachable s ∧
    s.applyText Demo.card "set(Alice.favor, 250) set(weather, fog)" = .ok next ∧
    Demo.card.parse "set(Alice.favor, 250) set(weather, fog)" = .ok b ∧ b.mutations = [m, n] ∧
    Demo.card.revise (s.values.read (.character "Alice" "favor")) m =
      .ok (next.values.read (.character "Alice" "favor")) ∧
    Demo.card.revise (s.values.read (.global "weather")) n =
      .ok (next.values.read (.global "weather")) ∧
    next.values.read (.scene "time_of_day") = s.values.read (.scene "time_of_day") ∧
    s.applyParsed Demo.card { b with mutations := [n, m] } = .ok other ∧
    ∀ a, other.values.read a = next.values.read a := by
  obtain ⟨s, next, hs, hnext⟩ :=
    Demo.card.exists_applyText "set(Alice.favor, 250) set(weather, fog)" (by decide +kernel)
  have haddresses : (Demo.card.mutations "set(Alice.favor, 250) set(weather, fog)").map
      Mutation.address? = [some (.character "Alice" "favor"), some (.global "weather")] := by
    decide +kernel
  obtain ⟨hfold, hkept, b, hb, hmutations, hreorder⟩ := hs.coordinatewise Demo.card_valid hnext
  rw [← hmutations] at haddresses hfold hkept
  obtain ⟨m, ns, hmn, hm, hns⟩ := List.map_eq_cons_iff.mp haddresses
  obtain ⟨n, rfl, hn⟩ := List.map_eq_singleton_iff.mp hns
  rw [hmn] at hfold hkept hreorder
  have horder : ∀ a, [n, m].filter (·.address? = some a) = [m, n].filter (·.address? = some a) := by
    intro a
    by_cases ha : m.address? = some a
    · have hna : n.address? ≠ some a := by rw [hn, ← ha, hm]; simp
      simp [ha, hna]
    · simp [List.filter_cons, ha]
  obtain ⟨other, hother, hsame⟩ := hreorder [n, m] (.swap m n []) horder
  refine ⟨Demo.card_valid, s, next, b, m, n, other, hs, hnext, hb, hmn, ?_, ?_, ?_, hother, hsame⟩
  · simpa [hm, hn] using hfold (.character "Alice" "favor")
  · simpa [hm, hn] using hfold (.global "weather")
  · exact hkept (.scene "time_of_day") (by simp [hm, hn])

end Storyworld
