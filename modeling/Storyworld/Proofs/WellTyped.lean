import Storyworld.Proofs.ArrayItems
import Storyworld.Proofs.Bounds
import Storyworld.Proofs.Independence

/-! The types of values. Where the defaults of a card suit its parameters, every command that is
accepted leaves a value of the type of its parameter, within its bounds, and no later text undoes
that. -/

namespace Storyworld

variable {card : Card} {s : State} {text : Text} {p : Parameter} {v w : Variables}

namespace Parameter

variable {current value : Value} {operator : Text} {literal : Option Text}

/-- The value is of the type of the parameter and keeps to what is declared for it. -/
def Admits (p : Parameter) (value : Value) : Prop :=
  match p.type with
  | .number => ∃ n, value = .number n ∧ p.Within n
  | .enum => ∃ name ∈ p.enumValues, value = .text name
  | .boolean => ∃ b, value = .bool b
  | .text => ∃ words, value = .text words
  | .array => ∃ items, value = .list items ∧
      (∀ n, p.arrayConfig.maxLength = some n → items.length ≤ n) ∧
      ∀ item ∈ items, p.arrayConfig.Admits item

/-- Nothing in the value, of whatever type it is, can get into a new one by mistake: as a number it
is no not-a-number, and as a list it has only items that the array admits. -/
def Tolerates (p : Parameter) (value : Value) : Prop :=
  match p.type with
  | .number => ∀ n, value = .number n → n.isNaN = false
  | .array => ∀ items, value = .list items → ∀ item ∈ items, p.arrayConfig.Admits item
  | _ => True

/-- The default is tolerated, and the bounds of a number are no not-a-numbers. -/
structure WellMade (p : Parameter) : Prop where
  default : p.Tolerates p.default
  bounds : p.type = .number → p.Bounded

theorem tolerates_null (p : Parameter) : p.Tolerates .null := by
  simp only [Tolerates]
  split <;> simp

theorem Admits.tolerates (h : p.Admits value) : p.Tolerates value := by
  simp only [Tolerates]
  split
  · rename_i htype
    simp only [Admits, htype] at h
    obtain ⟨n, rfl, hn⟩ := h
    intro m hm
    exact Value.number.inj hm ▸ hn.comparable
  · rename_i htype
    simp only [Admits, htype] at h
    obtain ⟨items, rfl, _, hitems⟩ := h
    intro others hothers
    exact Value.list.inj hothers ▸ hitems
  · trivial

theorem isNaN_baseNumber (hcurrent : ∀ n, current = .number n → n.isNaN = false)
    (hdefault : ∀ n, p.default = .number n → n.isNaN = false) :
    (p.baseNumber current).isNaN = false := by
  simp only [baseNumber]
  split
  · rename_i n
    exact hcurrent n rfl
  · rename_i hn
    exact hdefault _ hn
  · rfl

theorem applyNumber_within (hp : p.breach? = none) (hb : p.Bounded)
    (hbase : (p.baseNumber current).isNaN = false)
    (h : p.applyNumber current operator = .ok value) : ∃ n, value = .number n ∧ p.Within n := by
  simp only [applyNumber] at h
  split at h
  · rename_i delta hdelta
    have hshift := Number.isNaN_shift hbase (isFinite_symbolicDelta hdelta)
    exact ⟨_, (Except.ok.inj h).symm, clamp_within hp hb hshift⟩
  · split at h
    · rename_i n hn
      exact ⟨_, (Except.ok.inj h).symm, clamp_within hp hb (Number.isNaN_readNumber hn)⟩
    · cases h

theorem applyEnum_mem (hne : p.enumValues ≠ []) (h : p.applyEnum current operator = .ok value) :
    ∃ name ∈ p.enumValues, value = .text name := by
  simp only [applyEnum] at h
  split at h
  · exact ⟨_, step_mem hne current true, (Except.ok.inj h).symm⟩
  · exact ⟨_, step_mem hne current false, (Except.ok.inj h).symm⟩
  · split at h
    · rename_i hmem
      exact ⟨_, by simpa using hmem, (Except.ok.inj h).symm⟩
    · split at h
      · rename_i name hname
        exact ⟨name, List.mem_of_find?_eq_some hname, (Except.ok.inj h).symm⟩
      · cases h

theorem applyBoolean_bool (h : applyBoolean operator = .ok value) : ∃ b, value = .bool b := by
  simp only [applyBoolean] at h
  split at h
  · exact ⟨true, (Except.ok.inj h).symm⟩
  · exact ⟨false, (Except.ok.inj h).symm⟩
  · cases h

theorem apply_admits (hv : card.Valid) (hp : p ∈ card.parameters) (hmade : p.WellMade)
    (hcurrent : p.Tolerates current) (h : p.apply current operator literal = .ok value) :
    p.Admits value := by
  have hdefault := hmade.default
  simp only [Tolerates] at hcurrent hdefault
  simp only [apply] at h
  simp only [Admits]
  split at h <;> rename_i htype <;> simp only [htype] at hcurrent hdefault ⊢
  · exact applyNumber_within (hv.parameters p hp) (hmade.bounds htype)
      (isNaN_baseNumber hcurrent hdefault) h
  · exact applyEnum_mem (hv.enumValues_ne_nil hp htype) h
  · exact applyBoolean_bool h
  · exact ⟨operator, (Except.ok.inj h).symm⟩
  · obtain ⟨items, hrun, h⟩ := bind_eq_ok h
    have hitems := ArrayConfig.run_admits
      (ArrayConfig.startItems_forall hcurrent hdefault) hrun
    refine ⟨_, (Except.ok.inj h).symm, fun n hn => ArrayConfig.length_fit_le items hn, ?_⟩
    exact fun item hitem => hitems item (ArrayConfig.fit_subset _ items hitem)

end Parameter

/-- The parameter whose values an address is for. -/
def Address.parameter : Address → Text
  | .global parameter => parameter
  | .scene parameter => parameter
  | .character _ parameter => parameter
  | .relationship _ parameter _ => parameter

theorem Address.parameter_resolve {scope : Scope} {name : Text} {subject target : Option Text}
    {a : Address} (h : Address.resolve scope name subject target = .ok a) : a.parameter = name := by
  simp only [Address.resolve] at h
  split at h
  · cases h; rfl
  · cases h; rfl
  · split at h <;> cases h
    rfl
  · split at h <;> cases h
    rfl

theorem Mutation.parameter_address? {m : Mutation} {a : Address} (h : m.address? = some a) :
    a.parameter = m.parameter := by
  simp only [Mutation.address?] at h
  cases hr : Address.resolve m.scope m.parameter m.subject m.target with
  | error e => simp [hr, Except.toOption] at h
  | ok b =>
    obtain rfl : b = a := by simpa [hr, Except.toOption] using h
    exact Address.parameter_resolve hr

namespace Card

def WellMade (card : Card) : Prop := ∀ p ∈ card.parameters, p.WellMade

/-- The states that texts lead to from a given one. -/
inductive LeadsTo (card : Card) (s : State) : State → Prop
  | refl : LeadsTo card s s
  | next {t u : State} (text : Text) (h : LeadsTo card s t)
      (hu : t.applyText card text = .ok u) : LeadsTo card s u

/-- A mutation accepted at an address, with its parameter and the new value. -/
structure Accepts (card : Card) (v : Variables) (m : Mutation) (p : Parameter) (a : Address)
    (value : Value) : Prop where
  parameter : card.parameter? m.parameter = some p
  address : m.address? = some a
  applied : p.apply (v.read a) m.operator m.valueLiteral = .ok value

theorem Accepts.revise {m : Mutation} {a : Address} {value : Value}
    (h : card.Accepts v m p a value) : card.revise (v.read a) m = .ok value := by
  simp only [Card.revise, h.parameter, h.applied]

theorem revise_eq_ok {current value : Value} {m : Mutation}
    (h : card.revise current m = .ok value) : ∃ p, card.parameter? m.parameter = some p ∧
      (value = current ∨ p.apply current m.operator m.valueLiteral = .ok value) := by
  simp only [revise] at h
  split at h
  · cases h
  · rename_i p hp
    refine ⟨p, hp, ?_⟩
    split at h
    · exact .inl (Except.ok.inj h).symm
    · cases h
    · cases h
    · rename_i result happly
      exact .inr (happly.trans (congrArg Except.ok (Except.ok.inj h)))

end Card

namespace Variables

/-- Every value is tolerated by the parameter of its address. -/
def Tolerable (card : Card) (v : Variables) : Prop :=
  ∀ a p, card.parameter? a.parameter = some p → p.Tolerates (v.read a)

/-- Every value that its parameter admits is followed by such a value. -/
def Keeps (card : Card) (v w : Variables) : Prop :=
  ∀ a p, card.parameter? a.parameter = some p → p.Admits (v.read a) → p.Admits (w.read a)

end Variables

namespace Card

theorem parameter_of_mem_initialAddresses {a : Address} (h : .ok a ∈ card.initialAddresses p) :
    a.parameter = p.name := by
  simp only [initialAddresses] at h
  split at h
  · exact Address.parameter_resolve (List.mem_singleton.mp h).symm
  · exact Address.parameter_resolve (List.mem_singleton.mp h).symm
  · obtain ⟨e, _, hresolve⟩ := List.mem_map.mp h
    exact Address.parameter_resolve hresolve
  · cases h

theorem empty_tolerable (card : Card) : Variables.empty.Tolerable card := by
  intro a p _
  have hnull : Variables.empty.read a = .null := by cases a <;> rfl
  rw [hnull]
  exact p.tolerates_null

theorem initialState_tolerable (hv : card.Valid) (hmade : card.WellMade)
    (h : card.initialState = .ok s) : s.values.Tolerable card := by
  obtain ⟨values, hvalues, hs⟩ := bind_eq_ok h
  obtain rfl := Except.ok.inj hs
  refine (Ends.foldlM (Q := fun _ => True) (empty_tolerable card) ?_).of_ok hvalues
  intro p hp v hu
  have hp := (List.mem_filter.mp hp).1
  refine Ends.foldlM hu fun a ha v hu => ⟨fun {w} hw => ?_, fun _ => trivial⟩
  cases a with
  | error e => cases hw
  | ok a =>
    have hwrite := writeTo_eq_ok hw
    intro c q hq
    rw [Variables.read_write hwrite c]
    split
    · rename_i hac
      rw [← hac, parameter_of_mem_initialAddresses ha, hv.parameter?_self hp] at hq
      obtain rfl := Option.some.inj hq
      exact (hmade p hp).default
    · exact hu c q hq

theorem Valid.mutate_keeps (hv : card.Valid) (hmade : card.WellMade) {m : Mutation}
    (ht : v.Tolerable card) (h : card.mutate v m = .ok w) :
    w.Tolerable card ∧ v.Keeps card w := by
  obtain ⟨a, value, ha, hvalue, hread⟩ := mutate_eq_ok h
  obtain ⟨p, hp, hnew⟩ := revise_eq_ok hvalue
  rw [← Mutation.parameter_address? ha] at hp
  have hcurrent := ht a p hp
  have hadmits : value = v.read a ∨ p.Admits value :=
    hnew.imp_right (p.apply_admits hv (parameter?_mem hp) (hmade p (parameter?_mem hp)) hcurrent)
  constructor
  · intro c q hq
    rw [hread c]
    split
    · rename_i hac
      obtain rfl : p = q := Option.some.inj (hp.symm.trans (hac ▸ hq))
      rcases hadmits with rfl | hadmits
      · exact hcurrent
      · exact hadmits.tolerates
    · exact ht c q hq
  · intro c q hq hold
    rw [hread c]
    split
    · rename_i hac
      obtain rfl : p = q := Option.some.inj (hp.symm.trans (hac ▸ hq))
      rcases hadmits with rfl | hadmits
      · exact hac ▸ hold
      · exact hadmits
    · exact hold

theorem Valid.foldlM_mutate_keeps (hv : card.Valid) (hmade : card.WellMade) {ms : List Mutation}
    (ht : v.Tolerable card) (h : ms.foldlM card.mutate v = .ok w) :
    w.Tolerable card ∧ v.Keeps card w := by
  induction ms generalizing v with
  | nil =>
    obtain rfl : v = w := Except.ok.inj h
    exact ⟨ht, fun a p hp hold => hold⟩
  | cons m ms ih =>
    rw [List.foldlM_cons] at h
    obtain ⟨u, hm, hms⟩ := bind_eq_ok h
    obtain ⟨hu, hfirst⟩ := hv.mutate_keeps hmade ht hm
    obtain ⟨hw, hrest⟩ := ih hu hms
    exact ⟨hw, fun a p hp hold => hrest a p hp (hfirst a p hp hold)⟩

theorem Reachable.applyText_keeps (hs : card.Reachable s) (hv : card.Valid) (hmade : card.WellMade)
    (ht : s.values.Tolerable card) {next : State} (h : s.applyText card text = .ok next) :
    next.values.Tolerable card ∧ s.values.Keeps card next.values := by
  have hrun := (State.applyText_eq_ok h).1
  rw [(hs.declared hv).complete] at hrun
  exact hv.foldlM_mutate_keeps hmade ht hrun

theorem Reachable.tolerable (hs : card.Reachable s) (hv : card.Valid) (hmade : card.WellMade) :
    s.values.Tolerable card := by
  induction hs with
  | initial h => exact initialState_tolerable hv hmade h
  | next text hs h ih => exact (hs.applyText_keeps hv hmade ih h).1

theorem LeadsTo.keeps {t : State} (h : card.LeadsTo s t) (hs : card.Reachable s) (hv : card.Valid)
    (hmade : card.WellMade) : card.Reachable t ∧ s.values.Keeps card t.values := by
  induction h with
  | refl => exact ⟨hs, fun a p hp hold => hold⟩
  | next text _ hu ih =>
    obtain ⟨ht, hkeeps⟩ := ih
    refine ⟨ht.next text hu, fun a p hp hold => ?_⟩
    have hlast := (ht.applyText_keeps hv hmade (ht.tolerable hv hmade) hu).2
    exact hlast a p hp (hkeeps a p hp hold)

/-- Every mutation that is accepted, in any text on any reachable state, gives a value that its
parameter admits; it is written where it belongs, and what is there after the text and after any
further texts is admitted as well. -/
theorem Reachable.accepted_admitted (hs : card.Reachable s) (hv : card.Valid)
    (hmade : card.WellMade) {before after : List Mutation} {m : Mutation} {a : Address}
    {value : Value} (htext : card.mutations text = before ++ m :: after)
    (hbefore : before.foldlM card.mutate s.values.complete = .ok v)
    (h : card.Accepts v m p a value) :
    p.Admits value ∧ ∃ w, card.mutate v m = .ok w ∧ w.read a = value ∧
      ∀ next t, s.applyText card text = .ok next → card.LeadsTo next t →
        p.Admits (t.values.read a) := by
  have hdeclared := hs.declared hv
  have hrun := hdeclared.complete ▸ hbefore
  have hcalls : ∀ n ∈ before ++ m :: after, ∃ call, card.resolve? call = some n :=
    fun n hn => exists_call_of_mem_mutations (htext ▸ hn)
  have hv' := (hv.mutations_end (fun n hn => hcalls n (by simp [hn])) hdeclared).of_ok hrun
  have ht' := (hv.foldlM_mutate_keeps hmade (hs.tolerable hv hmade) hrun).1
  have hp : card.parameter? a.parameter = some p := by
    rw [Mutation.parameter_address? h.address]
    exact h.parameter
  have hadmits : p.Admits value :=
    p.apply_admits hv (parameter?_mem hp) (hmade p (parameter?_mem hp)) (ht' a p hp) h.applied
  obtain ⟨call, hcall⟩ := hcalls m (by simp)
  obtain ⟨w, hw, hwdeclared, hread⟩ := hv.exists_mutate hcall hv' h.address h.revise
  have hwritten : w.read a = value := by rw [hread a, if_pos rfl]
  refine ⟨hadmits, w, hw, hwritten, fun next t hnext ht => ?_⟩
  have hwhole := (State.applyText_eq_ok hnext).1
  rw [htext, List.foldlM_append, hbefore] at hwhole
  obtain ⟨u, hu, hafter⟩ := bind_eq_ok ((List.foldlM_cons ..).symm.trans hwhole)
  obtain rfl : w = u := Except.ok.inj (hw.symm.trans hu)
  have htw := (hv.mutate_keeps hmade ht' hw).1
  have hnextkeeps := (hv.foldlM_mutate_keeps hmade htw hafter).2
  have hlater := (ht.keeps (hs.next text hnext) hv hmade).2
  exact hlater a p hp (hnextkeeps a p hp (hwritten ▸ hadmits))

end Card

theorem Demo.card_wellMade : Demo.card.WellMade := by
  have hfavor : Demo.favor.Bounded := by
    constructor
    · intro low (h : some (Double.ofInt 0) = some low)
      exact Option.some.inj h ▸ Number.isNaN_ofUnits _ _ _
    · intro high (h : some (Double.ofInt 100) = some high)
      exact Option.some.inj h ▸ Number.isNaN_ofUnits _ _ _
  intro p hp
  simp only [Demo.card, List.mem_cons, List.not_mem_nil, or_false] at hp
  rcases hp with rfl | rfl | rfl | rfl | rfl | rfl | rfl
  · exact ⟨by rintro n ⟨⟩; rfl, fun _ => hfavor⟩
  · exact ⟨trivial, nofun⟩
  · exact ⟨by rintro items ⟨⟩; simp, nofun⟩
  · exact ⟨by rintro n ⟨⟩; rfl, fun _ => ⟨nofun, nofun⟩⟩
  · exact ⟨trivial, nofun⟩
  · exact ⟨trivial, nofun⟩
  · exact ⟨trivial, nofun⟩

theorem Demo.apply_favor_250 (current : Value) (literal : Option Text) :
    Demo.favor.apply current "250" literal = .ok (.number (.int 100)) := by
  have hdelta : symbolicDelta? (lowered (trimmed "250")) = none := by decide +kernel
  have hread : readNumber? "250" = some (.int 250) := by decide +kernel
  have hclamp : Demo.favor.clamp (.int 250) = .int 100 := by decide +kernel
  show Demo.favor.applyNumber current "250" = _
  rw [Parameter.applyNumber, hdelta, hread]
  show Except.ok (Value.number _) = _
  rw [hclamp]

theorem Demo.favor_admitted : Demo.card.Valid ∧ Demo.card.WellMade ∧
    ∃ s next m, Demo.card.Reachable s ∧ s.applyText Demo.card "set(Alice.favor, 250)" = .ok next ∧
      Demo.card.mutations "set(Alice.favor, 250)" = [] ++ m :: [] ∧
      [].foldlM Demo.card.mutate s.values.complete = .ok s.values.complete ∧
      Demo.card.Accepts s.values.complete m Demo.favor (.character "Alice" "favor")
        (.number (.int 100)) ∧
      Demo.favor.Admits (.number (.int 100)) ∧
      Demo.favor.Admits (next.values.read (.character "Alice" "favor")) := by
  obtain ⟨s, next, hs, hnext⟩ := Demo.card.exists_applyText "set(Alice.favor, 250)"
    (by decide +kernel)
  have hparts : (Demo.card.mutations "set(Alice.favor, 250)").map
      (fun m => (m.parameter, m.address?, m.operator)) =
        [(("favor" : Text), some (.character "Alice" "favor"), ("250" : Text))] := by
    decide +kernel
  obtain ⟨m, hm, hpart⟩ := List.map_eq_singleton_iff.mp hparts
  obtain ⟨hparameter, haddress, hoperator⟩ : m.parameter = "favor" ∧
      m.address? = some (.character "Alice" "favor") ∧ m.operator = "250" := by simpa using hpart
  have htext : Demo.card.mutations "set(Alice.favor, 250)" = [] ++ m :: [] := hm
  have haccepts : Demo.card.Accepts s.values.complete m Demo.favor (.character "Alice" "favor")
      (.number (.int 100)) :=
    ⟨by rw [hparameter]; rfl, haddress, by rw [hoperator]; exact Demo.apply_favor_250 _ _⟩
  obtain ⟨hadmits, w, _, _, hlater⟩ :=
    hs.accepted_admitted Demo.card_valid Demo.card_wellMade htext rfl haccepts
  exact ⟨Demo.card_valid, Demo.card_wellMade, s, next, m, hs, hnext, htext, rfl, haccepts, hadmits,
    hlater next next hnext .refl⟩

end Storyworld
