import Storyworld.Fault

/-! Computations that may fail: what holds of the result, or else of the failure. -/

namespace Storyworld

variable {ε α β : Type} {P : α → Prop} {R : β → Prop} {Q : ε → Prop}

theorem bind_eq_ok {x : Except ε α} {f : α → Except ε β} {b : β} (h : x >>= f = .ok b) :
    ∃ a, x = .ok a ∧ f a = .ok b := by
  cases x with
  | error e => cases h
  | ok a => exact ⟨a, rfl, h⟩

theorem bind_eq_error_iff {x : Except ε α} {f : α → Except ε β} {e : ε} :
    x >>= f = .error e ↔ x = .error e ∨ ∃ a, x = .ok a ∧ f a = .error e := by
  cases x <;> simp [bind, Except.bind]

theorem exists_eq_ok {x : Except ε α} (h : x.toOption.isSome) : ∃ a, x = .ok a := by
  cases x with
  | error e => cases h
  | ok a => exact ⟨a, rfl⟩

/-- A run whose steps keep a condition fails exactly where some step does, if under that condition a
step fails for its own item alone. -/
theorem foldlM_eq_error_iff {l : List β} {f : α → β → Except ε α} {flaw : ε}
    (hf : ∀ b ∈ l, ∀ a, P a → (∀ e, f a b = .error e ↔ e = flaw ∧ R b) ∧
      ∀ next, f a b = .ok next → P next) {a : α} (ha : P a) {e : ε} :
    l.foldlM f a = .error e ↔ e = flaw ∧ ∃ b ∈ l, R b := by
  induction l generalizing a with
  | nil => simp [pure, Except.pure]
  | cons b l ih =>
    obtain ⟨⟨hfail, hkeep⟩, hl⟩ := And.imp_left (· a ha) (List.forall_mem_cons.mp hf)
    simp only [List.foldlM_cons, List.mem_cons, exists_eq_or_imp]
    cases hstep : f a b with
    | error d =>
      obtain ⟨rfl, hb⟩ := (hfail d).mp hstep
      simp [bind, Except.bind, hb, eq_comm]
    | ok next =>
      have hb : ¬ R b := fun hb => nomatch hstep.symm.trans ((hfail flaw).mpr ⟨rfl, hb⟩)
      rw [show (Except.ok next >>= fun a => l.foldlM f a) = l.foldlM f next from rfl,
        ih hl (hkeep next hstep)]
      simp [hb]

/-- The result satisfies the first condition, or else the failure the second. -/
structure Ends (P : α → Prop) (Q : ε → Prop) (x : Except ε α) : Prop where
  of_ok : ∀ {a}, x = .ok a → P a
  of_error : ∀ {e}, x = .error e → Q e

namespace Ends

theorem ok {a : α} (h : P a) : Ends P Q (.ok a) :=
  ⟨fun ha => Except.ok.inj ha ▸ h, nofun⟩

theorem error {e : ε} (h : Q e) : Ends P Q (.error e) :=
  ⟨nofun, fun he => Except.error.inj he ▸ h⟩

theorem bind {x : Except ε α} {f : α → Except ε β} (hx : Ends P Q x)
    (hf : ∀ a, P a → Ends R Q (f a)) : Ends R Q (x >>= f) := by
  cases x with
  | ok a => exact hf a (hx.of_ok rfl)
  | error e => exact .error (hx.of_error rfl)

/-- A condition that every step keeps holds at the end of a run, unless a step fails. -/
theorem foldlM {l : List β} {f : α → β → Except ε α} {a : α} (ha : P a)
    (hf : ∀ b ∈ l, ∀ a, P a → Ends P Q (f a b)) : Ends P Q (l.foldlM f a) := by
  induction l generalizing a with
  | nil => exact .ok ha
  | cons b l ih =>
    rw [List.foldlM_cons]
    exact (hf b List.mem_cons_self a ha).bind fun a ha =>
      ih ha fun c hc => hf c (List.mem_cons_of_mem _ hc)

end Ends

end Storyworld
