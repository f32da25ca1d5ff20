import Storyworld.Demo

/-! Valid cards: those that break no rule, such as every card that is read from a document. -/

namespace Storyworld

variable {α β σ : Type}

namespace Checked

theorem ap_eq_accepted {f : Checked (α → β)} {c : Checked α} {b : β}
    (h : f.ap c = .accepted b) : ∃ g a, f = .accepted g ∧ c = .accepted a ∧ b = g a := by
  cases f with
  | refused ps => cases c <;> cases h
  | accepted g =>
    cases c with
    | refused qs => cases h
    | accepted a => exact ⟨g, a, rfl, rfl, (accepted.inj h).symm⟩

theorem map_eq_accepted {f : α → β} {c : Checked α} {b : β} (h : c.map f = .accepted b) :
    ∃ a, c = .accepted a ∧ b = f a := by
  cases c with
  | refused ps => cases h
  | accepted a => exact ⟨a, rfl, (accepted.inj h).symm⟩

theorem andThen_eq_accepted {c : Checked α} {f : α → Checked β} {b : β}
    (h : c.andThen f = .accepted b) : ∃ a, c = .accepted a ∧ f a = .accepted b := by
  cases c with
  | refused ps => cases h
  | accepted a => exact ⟨a, rfl, h⟩

theorem under_eq_accepted {c : Checked α} {segment : Text} {a : α}
    (h : c.under segment = .accepted a) : c = .accepted a := by
  cases c with
  | refused ps => cases h
  | accepted b => exact h

theorem all_eq_accepted {cs : List (Checked α)} {l : List α} (h : all cs = .accepted l) :
    cs = l.map .accepted := by
  induction cs generalizing l with
  | nil =>
    cases h
    rfl
  | cons c cs ih =>
    obtain ⟨g, as, hg, has, rfl⟩ := ap_eq_accepted h
    obtain ⟨a, rfl, rfl⟩ := map_eq_accepted hg
    rw [ih has, List.map_cons]

end Checked

/-- All that the codec accepts satisfies a condition. -/
def Codec.Ensures (c : Codec α) (P : α → Prop) : Prop := ∀ v a, c.load v = .accepted a → P a

/-- All that the fields so far are read into satisfies a condition. -/
def Record.Ensures (r : Record σ α) (P : α → Prop) : Prop :=
  ∀ fields a, r.load fields = .accepted a → P a

variable {P : α → Prop} {Q : β → Prop}

theorem Codec.list_ensures {c : Codec α} (hc : c.Ensures P) :
    (list c).Ensures fun l => ∀ a ∈ l, P a := by
  intro v l h a ha
  cases v with
  | list items =>
    have hmem : Checked.accepted a ∈ items.mapIdx fun i v => (c.load v).under (toString i) := by
      rw [Checked.all_eq_accepted h]
      exact List.mem_map_of_mem ha
    obtain ⟨i, hi, hload⟩ := List.mem_mapIdx.mp hmem
    exact hc _ a (Checked.under_eq_accepted hload)
  | _ => cases h

theorem Codec.ensures_true (c : Codec α) : c.Ensures fun _ => True := fun _ _ _ => trivial

namespace Record

theorem make_ensures {build : α} (h : P build) : (make (σ := σ) build).Ensures P := by
  intro fields a ha
  cases ha
  exact h

theorem field_ensures {r : Record σ (α → β)} {key : Key} {c : Codec α} {default : Option α}
    {get : σ → α} (hr : r.Ensures fun f => ∀ a, P a → Q (f a)) (hc : c.Ensures P)
    (hd : ∀ a ∈ default, P a) : (r.field key c default get).Ensures Q := by
  intro fields b h
  obtain ⟨f, a, hf, ha, rfl⟩ := Checked.ap_eq_accepted h
  refine hr fields f hf a ?_
  split at ha
  · exact hc _ a (Checked.under_eq_accepted ha)
  · split at ha
    · exact hd a (by rw [Checked.accepted.inj ha]; rfl)
    · cases ha

theorem codec_ensures {r : Record σ σ} {breach? : σ → Option Breach} {P : σ → Prop}
    (hr : r.Ensures P) :
    (r.codec (unlessBroken breach?)).Ensures fun s => breach? s = none ∧ P s := by
  intro v s h
  cases v with
  | object fields =>
    obtain ⟨t, ht, hcheck⟩ := Checked.andThen_eq_accepted h
    simp only [unlessBroken] at hcheck
    split at hcheck
    · cases hcheck
    · rename_i hb
      obtain rfl := Checked.accepted.inj hcheck
      exact ⟨hb, hr fields t ht⟩
  | _ => cases h

end Record

/-- A card that breaks no rule, neither as a whole nor in a parameter. -/
structure Card.Valid (card : Card) : Prop where
  whole : card.breach? = none
  parameters : ∀ p ∈ card.parameters, p.breach? = none

theorem parameter_ensures : Parameter.codec.Ensures fun p => p.breach? = none :=
  fun v p hp => (Record.codec_ensures (P := fun _ => True) (fun _ _ _ => trivial) v p hp).1

open Record in
theorem valid_of_load {v : Value} {card : Card} (h : Card.codec.load v = .accepted card) :
    card.Valid := by
  have hcard : Card.codec.Ensures fun card =>
      card.breach? = none ∧ ∀ p ∈ card.parameters, p.breach? = none := by
    refine codec_ensures (field_ensures (P := fun _ => True) (field_ensures (P := fun _ => True)
      (field_ensures (P := fun ps => ∀ p ∈ ps, p.breach? = none) (make_ensures ?_)
        (Codec.list_ensures parameter_ensures) ?_) (Codec.ensures_true _) ?_)
      (Codec.ensures_true _) ?_)
    · exact fun ps hps es _ config _ => hps
    all_goals simp
  exact ⟨(hcard v card h).1, (hcard v card h).2⟩

theorem Demo.card_valid : Demo.card.Valid := ⟨by decide +kernel, by decide +kernel⟩

end Storyworld
