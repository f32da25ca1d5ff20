import Storyworld.Proofs.Resolution
import Storyworld.Proofs.Transition

/-! Errors do not get far. Whatever a text asks of a reachable state, only a number that is too long
to read or too large to compare keeps it from a next state, and the variables of every state are at
declared coordinates. -/

namespace Storyworld

variable {card : Card} {s : State} {v : Variables}

/-- A failure over a number that is too long to read or too large to compare. -/
def Fault.OfNumber (f : Fault) : Prop := f = .overlong ∨ f = .tooLarge

theorem Variables.Declared.writeTo {a : Address} (h : v.Declared card) (ha : a.Declared card)
    (value : Value) (Q : Fault → Prop) :
    Ends (fun next => next.Declared card) Q (v.writeTo (.ok a) value) := by
  obtain ⟨next, hwrite, hnext⟩ := h.write ha value
  simp only [Variables.writeTo, hwrite]
  exact .ok hnext

namespace Card

/-- The addresses of initial values that are addresses at all are declared. -/
theorem initialAddresses_declared {p : Parameter} (hp : p ∈ card.parameters) {a : Address}
    (h : .ok a ∈ card.initialAddresses p) : a.Declared card := by
  have hdeclared : card.HasParameter p.scope p.name := ⟨p, hp, rfl, rfl⟩
  simp only [initialAddresses] at h
  split at h <;> rename_i hscope <;> rw [hscope] at hdeclared
  · rw [hscope, Address.resolve, List.mem_singleton] at h
    cases h
    exact hdeclared
  · rw [hscope, Address.resolve, List.mem_singleton] at h
    cases h
    exact hdeclared
  · obtain ⟨e, he, hresolve⟩ := List.mem_map.mp h
    simp only [Address.resolve] at hresolve
    split at hresolve
    · rename_i subject hgiven
      cases hresolve
      obtain rfl : e.name = subject := Option.some.inj (Option.filter_eq_some_iff.mp hgiven).1
      exact ⟨⟨e, (List.mem_filter.mp he).1, rfl⟩, hdeclared⟩
    · cases hresolve
  · cases h

theorem initialState_declared (h : card.initialState = .ok s) : s.values.Declared card := by
  obtain ⟨values, hvalues, hs⟩ := bind_eq_ok h
  obtain rfl := Except.ok.inj hs
  refine (Ends.foldlM (Q := fun _ => True) (Variables.empty_declared card) ?_).of_ok hvalues
  intro p hp v hv
  refine Ends.foldlM hv fun a ha v hv => ?_
  cases a with
  | error e => exact .error trivial
  | ok a =>
    exact hv.writeTo (initialAddresses_declared (List.mem_filter.mp hp).1 ha) p.default _

theorem Valid.mutate_ends (hv : card.Valid) {call : Call} {m : Mutation}
    (hm : card.resolve? call = some m) (h : v.Declared card) :
    Ends (fun next => next.Declared card) Fault.OfNumber (card.mutate v m) := by
  obtain ⟨p, _, hp, a, ha, hdeclared⟩ := hv.resolve?_declared hm
  simp only [mutate, hp, ha]
  split
  · exact .ok h
  · exact .error (.inl rfl)
  · exact .error (.inr rfl)
  · exact h.writeTo hdeclared _ _

theorem exists_call_of_mem_mutations {text : Text} {m : Mutation} (h : m ∈ card.mutations text) :
    ∃ call, card.resolve? call = some m := by
  obtain ⟨call, _, hcall⟩ := List.mem_filterMap.mp h
  exact ⟨call, hcall⟩

theorem Valid.mutations_end (hv : card.Valid) {ms : List Mutation}
    (hms : ∀ m ∈ ms, ∃ call, card.resolve? call = some m) (h : v.Declared card) :
    Ends (fun next => next.Declared card) Fault.OfNumber (ms.foldlM card.mutate v) := by
  refine Ends.foldlM h fun m hm v hv' => ?_
  obtain ⟨call, hcall⟩ := hms m hm
  exact hv.mutate_ends hcall hv'

theorem Valid.applyText_ends (hv : card.Valid) (text : Text) (h : s.values.Declared card) :
    Ends (fun next => next.values.Declared card) Fault.OfNumber (s.applyText card text) := by
  refine State.applyText_ends ?_ (.inl rfl)
  rw [h.complete]
  exact hv.mutations_end (fun m => exists_call_of_mem_mutations) h

theorem Reachable.declared (hs : card.Reachable s) (hv : card.Valid) : s.values.Declared card := by
  induction hs with
  | initial h => exact initialState_declared h
  | next text _ h ih => exact (hv.applyText_ends text ih).of_ok h

end Card

theorem Parameter.enumPlace?_lt {p : Parameter} {current : Value} {i : Nat}
    (h : p.enumPlace? current = some i) : i < p.enumValues.length := by
  cases current with
  | text s => exact (List.findIdx?_eq_some_iff_findIdx_eq.mp h).1
  | _ => cases h

/-- Where values are declared a step leads to one of them. -/
theorem Parameter.step_mem {p : Parameter} (h : p.enumValues ≠ []) (current : Value)
    (forward : Bool) : p.step current forward ∈ p.enumValues := by
  have hpos := List.length_pos_iff.mpr h
  simp only [step]
  split
  · rw [List.headD_eq_head?_getD, List.head?_eq_some_head h]
    exact List.head_mem h
  · rename_i i hi
    have hlt := enumPlace?_lt hi
    have hplace : (if forward then Nat.min (i + 1) (p.enumValues.length - 1) else i - 1) <
        p.enumValues.length := by
      split
      · exact Nat.lt_of_le_of_lt (Nat.min_le_right _ _) (by omega)
      · omega
    rw [← List.getElem_eq_getD (h := hplace)]
    exact List.getElem_mem hplace

theorem Parameter.enumValues_ne_nil {p : Parameter} (hp : p.breach? = none)
    (htype : p.type = .enum) : p.enumValues ≠ [] := by
  intro hempty
  rw [Parameter.breach?, if_pos ⟨htype, hempty⟩] at hp
  cases hp

theorem Card.Valid.enumValues_ne_nil (hv : card.Valid) {p : Parameter} (hp : p ∈ card.parameters)
    (htype : p.type = .enum) : p.enumValues ≠ [] :=
  Parameter.enumValues_ne_nil (hv.parameters p hp) htype

/-- In every state that is reached the variables are at declared coordinates, and a text leads from
it to such a state or fails over a number. A text that cannot be read has an overlong integer, and
the stand-ins for a step on no values and for a path that leads nowhere are never used. -/
theorem Card.Reachable.contained (hs : card.Reachable s) (hv : card.Valid) (text : Text) :
    s.values.Declared card ∧
      Ends (fun next => next.values.Declared card) Fault.OfNumber (s.applyText card text) ∧
      (∀ f, card.parse text = .error f → f = .overlong) ∧
      (∀ p ∈ card.parameters, p.type = .enum →
        ∀ current forward, p.step current forward ∈ p.enumValues) ∧
      ∀ e ∈ card.entities, card.FullPath e (card.pathOf e) := by
  refine ⟨hs.declared hv, hv.applyText_ends text (hs.declared hv), fun f => parse_error,
    fun p hp htype => ?_, fun e he => hv.fullPath he⟩
  exact Parameter.step_mem (hv.enumValues_ne_nil hp htype)

theorem demo_contained : Demo.card.Valid ∧ ∃ s, Demo.card.Reachable s ∧
    s.values.Declared Demo.card ∧ Ends (fun next => next.values.Declared Demo.card)
      Fault.OfNumber (s.applyText Demo.card Demo.footstepsCommands) := by
  obtain ⟨s, hs⟩ := Demo.card.exists_reachable "set(Alice.trust.Bob, up_small)" (by decide +kernel)
  obtain ⟨hdeclared, hends, _⟩ := hs.contained Demo.card_valid Demo.footstepsCommands
  exact ⟨Demo.card_valid, s, hs, hdeclared, hends⟩

end Storyworld
