import Storyworld.Proofs.Magnitudes
import Storyworld.Proofs.RoundTrip
import Storyworld.Proofs.WellTyped

/-! States without infinities and not-a-numbers. Only the literals of array operators can bring such
numbers into a state, if a card does not declare them itself. -/

namespace Storyworld

variable {card : Card} {s next : State} {text : Text} {v w : Variables}

theorem Value.allFinite_number (n : Number) : (Value.number n).allFinite = n.isFinite := by
  cases n <;> rfl

theorem Value.allFinite_items {items : List Value} (h : (Value.list items).allFinite = true) :
    ∀ item ∈ items, item.allFinite = true := allFiniteItems_iff.mp h

/-- Every number among the values is finite. -/
def Entries.Finite (es : Entries Text Value) : Prop := es.All fun _ v => v.allFinite = true

theorem Entries.finite_nil : Entries.Finite [] := Entries.all_nil

theorem Value.allFinite_object {fields : Entries Text Value} :
    (Value.object fields).allFinite = true ↔ fields.Finite := allFiniteFields_iff

/-- Every number that is declared, as a bound or in the default, is finite. -/
structure Parameter.Finite (p : Parameter) : Prop where
  default : p.default.allFinite = true
  min : ∀ low, p.min = some low → low.isFinite = true
  max : ∀ high, p.max = some high → high.isFinite = true

namespace Parameter

variable {p : Parameter} {current value : Value} {operator : Text} {literal : Option Text}

theorem isFinite_clamp (hp : p.Finite) {n : Number} (hn : n.isFinite = true) :
    (p.clamp n).isFinite = true := by
  have hraised : (p.raise n).isFinite = true := by
    simp only [raise]
    split
    · rename_i low hlow
      split
      · exact Number.isFinite_simplest (hp.min low hlow)
      · exact hn
    · exact hn
  rw [clamp_eq]
  split
  · rename_i high hhigh
    split
    · exact Number.isFinite_simplest (hp.max high hhigh)
    · exact hraised
  · exact hraised

theorem isFinite_baseNumber (hp : p.Finite) (hcurrent : current.allFinite = true) :
    (p.baseNumber current).isFinite = true := by
  have hdefault := hp.default
  simp only [baseNumber]
  split
  · rwa [← Value.allFinite_number]
  · rename_i hn
    rwa [hn, Value.allFinite_number] at hdefault
  · rfl

theorem applyNumber_finite (hp : p.Finite) (hcurrent : current.allFinite = true)
    (h : p.applyNumber current operator = .ok value) : value.allFinite = true := by
  simp only [applyNumber] at h
  split at h
  · rename_i delta hdelta
    obtain rfl := Except.ok.inj h
    rw [Value.allFinite_number]
    exact isFinite_clamp hp (Number.isFinite_shift (isFinite_baseNumber hp hcurrent) hdelta)
  · split at h
    · rename_i n hn
      obtain rfl := Except.ok.inj h
      rw [Value.allFinite_number]
      exact isFinite_clamp hp (Number.isFinite_readNumber hn)
    · cases h

theorem applyEnum_finite (h : p.applyEnum current operator = .ok value) :
    value.allFinite = true := by
  simp only [applyEnum] at h
  split at h
  · exact Except.ok.inj h ▸ rfl
  · exact Except.ok.inj h ▸ rfl
  · split at h
    · exact Except.ok.inj h ▸ rfl
    · split at h
      · exact Except.ok.inj h ▸ rfl
      · cases h

/-- A command on a finite value leaves a finite one, unless its literal is not finite. -/
theorem apply_finite (hp : p.Finite) (hcurrent : current.allFinite = true)
    (hliteral : ∀ v, decodeLiteral literal = .ok v → v.allFinite = true)
    (h : p.apply current operator literal = .ok value) : value.allFinite = true := by
  simp only [apply] at h
  split at h
  · exact applyNumber_finite hp hcurrent h
  · exact applyEnum_finite h
  · obtain ⟨b, rfl⟩ := applyBoolean_bool h
    rfl
  · exact Except.ok.inj h ▸ rfl
  · obtain ⟨items, hrun, h⟩ := bind_eq_ok h
    have hstart : ∀ item ∈ startItems current p.default, item.allFinite = true := by
      refine ArrayConfig.startItems_forall (fun items hitems => ?_) fun items hitems => ?_
      · exact Value.allFinite_items (hitems ▸ hcurrent)
      · exact Value.allFinite_items (hitems ▸ hp.default)
    have hitems := ArrayConfig.run_forall hstart (fun v hv _ => hliteral v hv)
      (fun vs hvs v hv _ => Value.allFinite_items (hliteral _ hvs) v hv) hrun
    obtain rfl := Except.ok.inj h
    exact allFiniteItems_iff.mpr fun item hitem => hitems item (ArrayConfig.fit_subset _ items hitem)

end Parameter

namespace Variables

variable {b : Entries Text Value} {a : Address} {value : Value}

def Finite (v : Variables) : Prop := Entries.All (fun _ b => Entries.Finite b) v

theorem finite_getD (h : b.Finite) (key : Text) :
    ((b.get? key).getD .null).allFinite = true := by
  cases hg : b.get? key with
  | none => rfl
  | some value => exact h.get? hg

theorem finite_inner (h : b.Finite) (key : Text) : (inner b key).Finite := by
  cases hg : b.get? key with
  | none => simpa [inner, hg] using Entries.finite_nil
  | some value =>
    have hvalue : value.allFinite = true := h.get? hg
    cases value with
    | object fields => simpa [inner, hg, Value.fields?] using Value.allFinite_object.mp hvalue
    | _ => simpa [inner, hg, Value.fields?] using Entries.finite_nil

theorem finite_lookUp (h : b.Finite) (a : Address) : (lookUp b a).allFinite = true := by
  cases a with
  | global p => exact finite_getD h p
  | scene p => exact finite_getD h p
  | character s p => exact finite_getD (finite_inner h s) p
  | relationship s p t => exact finite_getD (finite_inner (finite_inner h s) p) t

theorem finite_place (h : b.Finite) (hvalue : value.allFinite = true) (a : Address) :
    (place b value a).Finite := by
  cases a with
  | global p => exact h.put hvalue
  | scene p => exact h.put hvalue
  | character s p => exact h.put (Value.allFinite_object.mpr ((finite_inner h s).put hvalue))
  | relationship s p t =>
    have htargets : (Entries.put t value (inner (inner b s) p)).Finite :=
      (finite_inner (finite_inner h s) p).put hvalue
    have hfields : (Entries.put p _ (inner b s)).Finite :=
      (finite_inner h s).put (Value.allFinite_object.mpr htargets)
    exact h.put (Value.allFinite_object.mpr hfields)

theorem Finite.under (h : v.Finite) (key : Text) : ((Entries.get? key v).getD []).Finite := by
  cases hg : Entries.get? key v with
  | none => exact Entries.finite_nil
  | some b =>
    have hall : v.All fun _ b => Entries.Finite b := h
    exact hall.get? hg

theorem Finite.read (h : v.Finite) (a : Address) : (v.read a).allFinite = true := by
  rw [read_eq_lookUp]
  exact finite_lookUp (h.under a.scopeOf.name) a

theorem Finite.write (h : v.Finite) (hvalue : value.allFinite = true)
    (hw : v.write a value = .ok w) : w.Finite := by
  rw [write_eq_ok hw, putBucket]
  exact Entries.All.put h (finite_place (h.under a.scopeOf.name) hvalue a)

theorem Finite.writeTo (h : v.Finite) (hvalue : value.allFinite = true)
    {a : Except AddressError Address} (hw : v.writeTo a value = .ok w) : w.Finite := by
  cases a with
  | error e => cases hw
  | ok a => exact h.write hvalue (Card.writeTo_eq_ok hw)

theorem Finite.complete (h : v.Finite) : v.complete.Finite := by
  refine List.foldlRecOn Scope.all _ h fun w hw scope _ => ?_
  split
  · exact hw
  · exact List.forall_mem_append.mpr ⟨hw, List.forall_mem_singleton.mpr Entries.finite_nil⟩

theorem empty_finite : Variables.empty.Finite := by
  intro e he
  obtain ⟨scope, _, rfl⟩ := List.mem_map.mp he
  exact Entries.finite_nil

end Variables

namespace Card

def Finite (card : Card) : Prop := ∀ p ∈ card.parameters, p.Finite

/-- No literal that goes with a command in the text holds a number that is not finite. -/
def WritesFinite (card : Card) (text : Text) : Prop :=
  ∀ m ∈ card.mutations text, ∀ v, decodeLiteral m.valueLiteral = .ok v → v.allFinite = true

instance (card : Card) (text : Text) : Decidable (card.WritesFinite text) :=
  decidable_of_iff (∀ m ∈ card.mutations text, ∀ v ∈ (decodeLiteral m.valueLiteral).toOption,
    v.allFinite = true) <| by
    refine forall₂_congr fun m _ => forall_congr' fun v => imp_congr_left ?_
    cases decodeLiteral m.valueLiteral <;> simp [Except.toOption]

theorem initialState_finite (hcard : card.Finite)
    (h : card.initialState = .ok s) : s.Finite := by
  obtain ⟨values, hvalues, hs⟩ := bind_eq_ok h
  obtain rfl := Except.ok.inj hs
  refine ⟨?_, nofun⟩
  refine (Ends.foldlM (P := Variables.Finite) (Q := fun _ => True) Variables.empty_finite ?_).of_ok
    hvalues
  intro p hp v hv
  have hdefault := (hcard p (List.mem_filter.mp hp).1).default
  exact Ends.foldlM hv fun a _ v hv => ⟨fun {w} hw => hv.writeTo hdefault hw, fun _ => trivial⟩

theorem mutate_finite (hcard : card.Finite) (hv : v.Finite) {m : Mutation}
    (hliteral : ∀ v, decodeLiteral m.valueLiteral = .ok v → v.allFinite = true)
    (h : card.mutate v m = .ok w) : w.Finite := by
  simp only [mutate] at h
  split at h
  · cases h
  · rename_i p hp
    split at h
    · cases h
    · rename_i a _
      split at h
      · exact Except.ok.inj h ▸ hv
      · cases h
      · cases h
      · rename_i happly
        exact hv.writeTo (Parameter.apply_finite (hcard p (parameter?_mem hp)) (hv.read a) hliteral
          happly) h

end Card

namespace State

theorem addNote_finite {runtime : Entries Text (Entries Text Value)} (h : Variables.Finite runtime)
    (i : CastIntent) : Variables.Finite (addNote runtime i) := by
  simp only [addNote]
  split
  · exact h
  · exact Entries.All.put h (Entries.All.put (h.under i.entity) rfl)

theorem applyText_runtime (h : s.applyText card text = .ok next) :
    next.entitiesRuntime = (card.castIntents text.toList).foldl addNote s.entitiesRuntime := by
  simp only [applyText] at h
  split at h
  · rename_i b hb
    obtain ⟨values, _, hb'⟩ := bind_eq_ok h
    obtain rfl := Except.ok.inj hb'
    rw [← (Card.parse_eq_ok hb).2.1]
    cases b.scene <;> rfl
  · cases h

theorem applyText_finite (hcard : card.Finite) (hs : s.Finite)
    (htext : card.WritesFinite text) (h : s.applyText card text = .ok next) : next.Finite := by
  obtain ⟨hvalues, hruntime⟩ := hs
  have hstart : s.values.complete.Finite := Variables.Finite.complete hvalues
  refine ⟨?_, ?_⟩
  · refine (Ends.foldlM (P := Variables.Finite) (Q := fun _ => True) hstart ?_).of_ok
      (applyText_eq_ok h).1
    exact fun m hm v hv => ⟨Card.mutate_finite hcard hv (htext m hm), fun _ => trivial⟩
  · rw [applyText_runtime h]
    exact List.foldlRecOn _ addNote (motive := Variables.Finite) hruntime
      fun runtime hr i _ => addNote_finite hr i

/-- Texts whose literals are finite lead to finite states only. -/
theorem run_finite (hcard : card.Finite) {texts : List Text}
    (htexts : ∀ text ∈ texts, card.WritesFinite text) (hs : s.Finite)
    (h : texts.foldlM (fun s text => s.applyText card text) s = .ok next) : next.Finite := by
  refine (Ends.foldlM (Q := fun _ => True) hs fun text htext s hs => ?_).of_ok h
  exact ⟨applyText_finite hcard hs (htexts text htext), fun _ => trivial⟩

end State

end Storyworld
