import Storyworld.Proofs.Complements
import Storyworld.Proofs.StoreLaws
import Storyworld.Proofs.WellTyped

/-! Positions that no item of an array has. A removal or a replacement there leaves the items as they
are, but the array is written all the same, cut to its length. So nothing at all changes exactly where
an array is stored that keeps to its length. -/

namespace Storyworld

variable {card : Card} {s : State} {p : Parameter} {a : Address} {v w : Variables} {m : Mutation}
  {text : Text} {value : Value}

/-! Writing what is there. -/

theorem Value.putAt_self {path : List Text} {fields : Entries Text Value}
    (h : (object fields).at? path = some value) : putAt value path fields = fields := by
  fun_induction putAt value path fields with
  | case1 fields => rfl
  | case2 key fields =>
    rw [at?_object] at h
    obtain ⟨found, hget, hfound⟩ := Option.bind_eq_some_iff.mp h
    exact Entries.put_self (hget.trans hfound)
  | case3 key next path fields ih =>
    have hinner := ih ((at?_inner fields).trans h)
    rw [at?_object] at h
    obtain ⟨found, hget, hfound⟩ := Option.bind_eq_some_iff.mp h
    obtain ⟨last, hlast, _⟩ := Option.bind_eq_some_iff.mp hfound
    obtain ⟨inside, hinside, _⟩ := Option.bind_eq_some_iff.mp hlast
    have hsame : found = object (Variables.inner fields key) := by
      rw [Variables.inner, hget, Option.bind_some, hinside]
      cases found with
      | object fs => exact congrArg object (Option.some.inj hinside)
      | _ => cases hinside
    rw [hinner]
    exact Entries.put_self (hsame ▸ hget)

theorem Variables.write_self (hbuckets : v.HasBuckets) (hstored : v.value? a = some value)
    (h : v.write a value = .ok w) : w = v := by
  have hplace : place (v.bucket a.scopeOf) value a = v.bucket a.scopeOf := by
    rw [place_eq_putAt]
    exact Value.putAt_self ((stored?_eq_at? _ a).symm.trans hstored)
  rw [write_eq_ok h, hplace]
  exact hbuckets.putBucket_self a.scopeOf

theorem Variables.value?_of_read {items : List Value} (h : v.read a = .list items) :
    v.value? a = some (.list items) := by
  rw [read_eq_value?] at h
  cases hvalue : v.value? a with
  | none =>
    rw [hvalue] at h
    cases h
  | some found =>
    rw [hvalue] at h
    exact congrArg some h

/-! What a command does that misses. -/

/-- The command removes or replaces an item at a position before the first one or behind the last. -/
structure Misses (items : List Value) (operator : Text) (i : Int) : Prop where
  at_position : (ArrayOperator.ofText operator).1 = some .removeAt ∨
    (ArrayOperator.ofText operator).1 = some .updateAt
  position : readIndex (ArrayOperator.ofText operator).2 = .ok i
  outside : i < 0 ∨ (items.length : Int) ≤ i

namespace Misses

variable {items others found : List Value} {operator : Text} {literal : Option Text} {i : Int}

theorem removeAt_eq (h : Misses items operator i) : removeAt items i = items := by
  rw [removeAt]
  split
  · rfl
  · have houtside := h.outside
    exact List.eraseIdx_of_length_le (by omega)

theorem replaceAt_eq (h : Misses items operator i) (v : Value) : replaceAt items i v = items := by
  rw [replaceAt]
  split
  · rfl
  · have houtside := h.outside
    exact List.set_eq_of_length_le (by omega)

/-- Whether the command is accepted does not depend on the items. -/
theorem run_eq (h : Misses items operator i) {c : ArrayConfig}
    (hok : c.run others operator literal = .ok found) : c.run items operator literal = .ok items := by
  have hposition := h.position
  rcases hname : ArrayOperator.ofText operator with ⟨name?, argument⟩
  rw [hname] at hposition
  rcases h.at_position with hop | hop <;> rw [hname] at hop <;>
    simp only [ArrayConfig.run, hname, show name? = _ from hop, hposition] at hok ⊢
  · exact congrArg Except.ok h.removeAt_eq
  · obtain ⟨_, _, hok⟩ := bind_eq_ok hok
    obtain ⟨decoded, hdecoded, hok⟩ := bind_eq_ok hok
    obtain ⟨item, hitem, _⟩ := bind_eq_ok hok
    rw [hdecoded]
    show (c.checkItem decoded >>= fun item => Except.ok (replaceAt items i item)) = _
    rw [hitem]
    exact congrArg Except.ok (h.replaceAt_eq item)

theorem mono (h : Misses items operator i) (hlength : others.length ≤ items.length) :
    Misses others operator i :=
  ⟨h.at_position, h.position, h.outside.imp_right fun hi => by omega⟩

end Misses

namespace Parameter

variable {current other : Value} {operator : Text} {literal : Option Text} {i : Int}

/-- An array that keeps to the length of the parameter. -/
def Fitting (p : Parameter) (value : Value) : Prop :=
  ∃ items, value = .list items ∧ ∀ n, p.arrayConfig.maxLength = some n → items.length ≤ n

/-- What a command that misses leaves: the items it works on, cut to the length of the parameter. -/
def refitted (p : Parameter) (current : Value) : Value :=
  .list (p.arrayConfig.fit (startItems current p.default))

theorem refitted_fitting (p : Parameter) (current : Value) : p.Fitting (p.refitted current) :=
  ⟨_, rfl, fun _ hn => ArrayConfig.length_fit_le _ hn⟩

theorem refitted_eq_self_iff : p.refitted current = current ↔ p.Fitting current := by
  constructor
  · intro h
    rw [← h]
    exact p.refitted_fitting current
  · rintro ⟨items, rfl, hlength⟩
    exact congrArg Value.list (ArrayConfig.fit_eq_self hlength)

theorem length_refitted (p : Parameter) (current : Value) :
    (startItems (p.refitted current) p.default).length ≤ (startItems current p.default).length := by
  show (p.arrayConfig.fit _).length ≤ _
  rw [ArrayConfig.fit]
  split
  · exact Nat.le_refl _
  · rw [List.length_drop]
    exact Nat.sub_le _ _

theorem apply_of_misses (htype : p.type = .array)
    (h : Misses (startItems current p.default) operator i)
    (hok : p.apply other operator literal = .ok value) :
    p.apply current operator literal = .ok (p.refitted current) := by
  simp only [apply, htype, applyArray] at hok ⊢
  obtain ⟨found, hrun, _⟩ := bind_eq_ok hok
  rw [h.run_eq hrun]
  rfl

end Parameter

theorem Card.Accepts.mutate_eq (h : card.Accepts v m p a value) :
    card.mutate v m = v.writeTo (.ok a) value := by
  have haddress : Address.resolve m.scope m.parameter m.subject m.target = .ok a := by
    have hsome := h.address
    simp only [Mutation.address?] at hsome
    cases hresolve : Address.resolve m.scope m.parameter m.subject m.target with
    | error e => simp [hresolve, Except.toOption] at hsome
    | ok b => simpa [hresolve, Except.toOption] using hsome
  simp only [Card.mutate, h.parameter, haddress, h.applied]

/-- A text that asks for one mutation alone does to a state what the mutation does. -/
theorem State.applyText_mutation (htext : card.parse text = .ok ⟨[m], [], [], none⟩)
    (hbuckets : s.values.HasBuckets) (h : card.mutate s.values m = .ok w) :
    s.applyText card text = .ok { s with values := w } := by
  simp only [applyText, htext, applyParsed, hbuckets.complete, List.foldlM_cons, List.foldlM_nil, h]
  rfl

theorem Card.Reachable.exists_missed (hs : card.Reachable s) (hv : card.Valid)
    (htext : card.parse text = .ok ⟨[m], [], [], none⟩)
    (h : card.Accepts s.values m p a (p.refitted (s.values.read a))) :
    ∃ w, s.applyText card text = .ok { s with values := w } ∧
      (∀ c, w.read c = if a = c then p.refitted (s.values.read a) else s.values.read c) ∧
      (p.Fitting (s.values.read a) → w = s.values) := by
  have hdeclared := hs.declared hv
  have hmutations : [m] = card.mutations text := (parse_eq_ok htext).1
  obtain ⟨call, hcall⟩ := exists_call_of_mem_mutations (hmutations ▸ List.mem_singleton_self m)
  obtain ⟨w, hw, _, hread⟩ := hv.exists_mutate hcall hdeclared h.address h.revise
  refine ⟨w, State.applyText_mutation htext hdeclared.hasBuckets hw, hread, fun hfit => ?_⟩
  rw [h.mutate_eq] at hw
  have hsame := Parameter.refitted_eq_self_iff.mpr hfit
  refine Variables.write_self hdeclared.hasBuckets ?_ (writeTo_eq_ok hw)
  rw [hsame]
  obtain ⟨items, hitems, _⟩ := hfit
  rw [hitems]
  exact Variables.value?_of_read hitems

/-- A text that asks for an accepted removal or replacement at a position that no item has writes the
items that are worked on back, cut to the length of the array, and changes nothing else. So it leaves
the state as it was exactly if an array is stored that keeps to its length, and in any case the second
time. -/
theorem Card.Reachable.missed_position (hs : card.Reachable s) (hv : card.Valid)
    (htext : card.parse text = .ok ⟨[m], [], [], none⟩) (h : card.Accepts s.values m p a value)
    (htype : p.type = .array) {i : Int}
    (hmisses : Misses (startItems (s.values.read a) p.default) m.operator i) :
    ∃ next, s.applyText card text = .ok next ∧ next = { s with values := next.values } ∧
      value = .list (p.arrayConfig.fit (startItems (s.values.read a) p.default)) ∧
      (∀ c, next.values.read c = if a = c then value else s.values.read c) ∧
      (next = s ↔ p.Fitting (s.values.read a)) ∧ next.applyText card text = .ok next := by
  have hvalue : value = p.refitted (s.values.read a) :=
    Except.ok.inj (h.applied.symm.trans (p.apply_of_misses htype hmisses h.applied))
  subst hvalue
  obtain ⟨w, hnext, hread, hsame⟩ := hs.exists_missed hv htext h
  have hwritten : w.read a = p.refitted (s.values.read a) := by rw [hread a, if_pos rfl]
  have hfit : p.Fitting (w.read a) := hwritten ▸ p.refitted_fitting _
  refine ⟨_, hnext, rfl, rfl, hread, ⟨fun heq => ?_, fun hstored => ?_⟩, ?_⟩
  · have hvalues : w = s.values := congrArg State.values heq
    rwa [← hvalues]
  · rw [hsame hstored]
  · have hagain : Misses (startItems (w.read a) p.default) m.operator i :=
      hmisses.mono (hwritten ▸ p.length_refitted _)
    obtain ⟨u, hsecond, _, hkept⟩ := (hs.next text hnext).exists_missed hv htext
      ⟨h.parameter, h.address, p.apply_of_misses htype hagain h.applied⟩
    rw [hsecond, hkept hfit]

namespace Demo

def ofBackpack (owner operator : Text) (literal : Option Text) : Mutation :=
  ⟨owner ++ ".backpack", operator, literal, none, .character, "backpack", some owner, none⟩

theorem initialState_backpacks : ∃ s, Demo.card.initialState = .ok s ∧
    s.values.read (.character "Alice" "backpack") = .list [] ∧
    s.values.read (.character "Bob" "backpack") = .null :=
  ⟨_, rfl, rfl, rfl⟩

/-- A replacement before the first item of a backpack that is stored. -/
theorem backpack_kept : Demo.card.Valid ∧ ∃ s, Demo.card.Reachable s ∧
    Misses (startItems (s.values.read (.character "Alice" "backpack")) backpack.default)
      "update_at: -1" (-1) ∧
    s.applyText Demo.card "set(Alice.backpack, 'update_at: -1', '\x7b\x7d')" = .ok s := by
  obtain ⟨s, hs, halice, -⟩ := initialState_backpacks
  have htext : Demo.card.parse "set(Alice.backpack, 'update_at: -1', '\x7b\x7d')" =
      .ok ⟨[ofBackpack "Alice" "update_at: -1" (some "\x7b\x7d")], [], [], none⟩ := by rfl
  have haccepts : Demo.card.Accepts s.values (ofBackpack "Alice" "update_at: -1" (some "\x7b\x7d"))
      backpack (.character "Alice" "backpack") (.list []) :=
    ⟨rfl, rfl, by rw [halice]; rfl⟩
  have hmisses : Misses (startItems (s.values.read (.character "Alice" "backpack"))
      backpack.default) "update_at: -1" (-1) :=
    ⟨.inr (by decide +kernel), by rfl, .inl (by decide)⟩
  obtain ⟨next, hnext, -, -, -, hsame, -⟩ :=
    (Card.Reachable.initial hs).missed_position card_valid htext haccepts rfl hmisses
  have hfit : backpack.Fitting (s.values.read (.character "Alice" "backpack")) :=
    ⟨[], halice, fun _ _ => Nat.zero_le _⟩
  exact ⟨card_valid, s, .initial hs, hmisses, hsame.mpr hfit ▸ hnext⟩

/-- A removal from a backpack that is not there, which is there afterwards. -/
theorem backpack_appears : Demo.card.Valid ∧ ∃ s m next, Demo.card.Reachable s ∧
    Demo.card.parse "set(Bob.backpack, remove_at:0)" = .ok ⟨[m], [], [], none⟩ ∧
    Demo.card.Accepts s.values m backpack (.character "Bob" "backpack") (.list []) ∧
    Misses (startItems (s.values.read (.character "Bob" "backpack")) backpack.default)
      m.operator 0 ∧
    s.applyText Demo.card "set(Bob.backpack, remove_at:0)" = .ok next ∧ next ≠ s := by
  obtain ⟨s, hs, -, hbob⟩ := initialState_backpacks
  have htext : Demo.card.parse "set(Bob.backpack, remove_at:0)" =
      .ok ⟨[ofBackpack "Bob" "remove_at:0" none], [], [], none⟩ := by rfl
  have haccepts : Demo.card.Accepts s.values (ofBackpack "Bob" "remove_at:0" none) backpack
      (.character "Bob" "backpack") (.list []) :=
    ⟨rfl, rfl, by rw [hbob]; rfl⟩
  have hmisses : Misses (startItems (s.values.read (.character "Bob" "backpack"))
      backpack.default) "remove_at:0" 0 :=
    ⟨.inl (by decide +kernel), by rfl, .inr (by rw [hbob]; decide)⟩
  have hreached : Demo.card.Reachable s := .initial hs
  have hrefitted : backpack.refitted (s.values.read (.character "Bob" "backpack")) = .list [] := by
    rw [hbob]
    rfl
  obtain ⟨w, hnext, hread, -⟩ :=
    hreached.exists_missed card_valid htext (hrefitted.symm ▸ haccepts)
  refine ⟨card_valid, s, _, _, hreached, htext, haccepts, hmisses, hnext, fun heq => ?_⟩
  have hsame : w.read (.character "Bob" "backpack") = .null := by
    rw [show w = s.values from congrArg State.values heq, hbob]
  rw [hread, if_pos rfl, hrefitted] at hsame
  cases hsame

end Demo

end Storyworld
