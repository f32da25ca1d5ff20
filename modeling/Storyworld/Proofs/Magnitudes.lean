import Mathlib.Algebra.Group.Nat.Defs
import Storyworld.Proofs.Bounds

/-! The largest double. From half a step above it on numbers are rounded to infinity, which no step
of a parameter can reach from a finite number. -/

namespace Storyworld

/-- A quotient is rounded past a whole number that is odd from half a step above it on. -/
theorem roundDiv_le_iff {num den q : Nat} (hden : 0 < den) (hodd : q % 2 = 1) :
    roundDiv num den ≤ q ↔ 2 * num < (2 * q + 1) * den := by
  have hexpand : (2 * q + 1) * den = 2 * (den * q) + den := by
    rw [Nat.add_mul, Nat.one_mul, Nat.mul_assoc, Nat.mul_comm q den]
  have hsplit := Nat.div_add_mod num den
  have hrest := Nat.mod_lt num hden
  rcases Nat.lt_trichotomy (num / den) q with hlt | heq | hgt
  · have hle : den * (num / den) + den ≤ den * q := by
      rw [← Nat.mul_succ]
      exact Nat.mul_le_mul_left den hlt
    simp only [roundDiv]
    split <;> omega
  · rw [heq] at hsplit
    by_cases hhalf : 2 * (num % den) < den
    · simp only [roundDiv, heq, hhalf, decide_true, Bool.true_or, if_true]
      omega
    · simp only [roundDiv, heq, hhalf, hodd, decide_false, Bool.false_or]
      simp
      omega
  · have hle : den * q + den ≤ den * (num / den) := by
      rw [← Nat.mul_succ]
      exact Nat.mul_le_mul_left den hgt
    simp only [roundDiv]
    split <;> omega

theorem le_roundDiv (num den : Nat) : num / den ≤ roundDiv num den := by
  simp only [roundDiv]
  split <;> omega

theorem roundDiv_le (num den : Nat) : roundDiv num den ≤ num / den + 1 := by
  simp only [roundDiv]
  split <;> omega

/-- What is rounded into a binade lies less than half a step above the numbers of 53 digits in it. -/
theorem rankOf_lt_iff {num k : Nat} :
    rankOf num 1 < (k + 3) * 2 ^ 52 ↔ num < (2 ^ 54 - 1) * 2 ^ k := by
  obtain ⟨scale, hscale⟩ : ∃ scale, scale = Nat.log2 num - 52 := ⟨_, rfl⟩
  have hrank : rankOf num 1 = scale * 2 ^ 52 + roundDiv num (2 ^ scale) := by
    simp [rankOf, hscale]
  have hpos : 0 < 2 ^ scale := Nat.two_pow_pos scale
  have hself : num < 2 ^ scale * 2 ^ 53 := by
    rw [← Nat.pow_add]
    exact Nat.lt_of_lt_of_le Nat.lt_log2_self (Nat.pow_le_pow_right (by decide) (by omega))
  rw [hrank]
  rcases Nat.lt_trichotomy scale (k + 1) with hlt | heq | hgt
  · have hquotient := Nat.div_lt_of_lt_mul hself
    have hround := roundDiv_le num (2 ^ scale)
    have hpow : 2 ^ scale ≤ 2 ^ k := Nat.pow_le_pow_right (by decide) (by omega)
    omega
  · have hround : roundDiv num (2 ^ scale) ≤ 2 ^ 53 - 1 ↔ _ := roundDiv_le_iff hpos (by decide)
    rw [heq] at hround ⊢
    omega
  · have hne : num ≠ 0 := by
      rintro rfl
      simp at hscale
      omega
    have hlow : 2 ^ scale * 2 ^ 52 ≤ num := by
      rw [← Nat.pow_add, ← Nat.le_log2 hne]
      omega
    have hround := le_roundDiv num (2 ^ scale)
    have hquotient : 2 ^ 52 ≤ num / 2 ^ scale := by
      rwa [Nat.le_div_iff_mul_le hpos, Nat.mul_comm]
    have hpow : 2 ^ (k + 2) ≤ 2 ^ scale := Nat.pow_le_pow_right (by decide) hgt
    rw [Nat.pow_succ, Nat.pow_succ] at hpow
    omega

theorem unitsAt_le (rank : Nat) : unitsAt rank ≤ (2 ^ 53 - 1) * 2 ^ (rank / 2 ^ 52 - 1) := by
  have hunits : unitsAt rank = if rank < 2 ^ 52 then rank else
      (2 ^ 52 + rank % 2 ^ 52) * 2 ^ (rank / 2 ^ 52 - 1) := rfl
  rw [hunits]
  split
  · have hpos : 1 ≤ 2 ^ (rank / 2 ^ 52 - 1) := Nat.one_le_two_pow
    omega
  · exact Nat.mul_le_mul_right _ (by omega)

theorem unitsAt_le_of_place {rank k : Nat} (h : rank / 2 ^ 52 - 1 ≤ k) :
    unitsAt rank ≤ (2 ^ 53 - 1) * 2 ^ k :=
  Nat.le_trans (unitsAt_le rank) (Nat.mul_le_mul_left _ (Nat.pow_le_pow_right (by decide) h))

/-- The least integer that is rounded to infinity, half a step above the largest double. -/
def doubleLimit : Nat := 2 ^ 1024 - 2 ^ 970

namespace Double

/-- Far below the largest number. -/
def Moderate : Double → Prop
  | finite _ rank => rank.val / 2 ^ 52 ≤ 1100
  | _ => False

instance : DecidablePred Moderate
  | finite _ rank => inferInstanceAs (Decidable (rank.val / 2 ^ 52 ≤ 1100))
  | infinite _ => inferInstanceAs (Decidable False)
  | nan _ => inferInstanceAs (Decidable False)

theorem isFinite_ofUnits {negative : Bool} {num den : Nat} :
    (ofUnits negative num den).isFinite = true ↔ rankOf num den < rankLimit := by
  simp only [ofUnits]
  split <;> simp_all [isFinite]

theorem isFinite_add {x y : Double} (hx : x.isFinite = true) (hy : y.Moderate) :
    (x.add y).isFinite = true := by
  match x, y with
  | .nan _, _ => cases hx
  | .infinite _, _ => cases hx
  | .finite _ _, .nan _ => cases hy
  | .finite _ _, .infinite _ => cases hy
  | .finite a i, .finite b j =>
    obtain ⟨sum, hsum, hadd⟩ : ∃ sum : Int, sum.natAbs ≤ unitsAt i + unitsAt j ∧
        (Double.finite a i).add (.finite b j) =
          if sum = 0 then .zero (a && b) else .ofUnits (sum < 0) sum.natAbs 1 := by
      refine ⟨_, ?_, rfl⟩
      cases a <;> cases b <;> simp only [Bool.false_eq_true, if_true, if_false] <;> omega
    -- the exponent stays a variable, so that no power of it is computed
    obtain ⟨k, hk⟩ : ∃ k, k = 2044 := ⟨_, rfl⟩
    have hlimit : rankLimit = (k + 3) * 2 ^ 52 := by
      rw [hk]
      rfl
    have hi : unitsAt i ≤ (2 ^ 53 - 1) * (2 ^ k * 2) := by
      have hlt := i.isLt
      rw [← Nat.pow_succ]
      exact unitsAt_le_of_place (by omega)
    have hj : unitsAt j < 2 ^ k := by
      have hplace : j.val / 2 ^ 52 ≤ 1100 := hy
      have hle : unitsAt j ≤ (2 ^ 53 - 1) * 2 ^ (k - 53) := unitsAt_le_of_place (by omega)
      have hsplit : 2 ^ k = 2 ^ 53 * 2 ^ (k - 53) := by
        rw [← Nat.pow_add]
        congr 1
        omega
      have hpos : 0 < 2 ^ (k - 53) := Nat.two_pow_pos _
      omega
    have hrank : rankOf sum.natAbs 1 < rankLimit := by
      rw [hlimit]
      exact rankOf_lt_iff.mpr (by omega)
    rw [hadd]
    split
    · rfl
    · exact isFinite_ofUnits.mpr hrank

theorem isFinite_ofInt {n : Int} : (ofInt n).isFinite = true ↔ n.natAbs < doubleLimit := by
  have hpos : 0 < unitsPerOne := by decide +kernel
  have hunits : (2 ^ 54 - 1) * 2 ^ 2044 = doubleLimit * unitsPerOne := by decide +kernel
  have hlimit : rankLimit = (2044 + 3) * 2 ^ 52 := by rfl
  rw [ofInt, isFinite_ofUnits, hlimit, rankOf_lt_iff, hunits, Nat.mul_lt_mul_right hpos]

theorem ofInt?_eq_none_iff {n : Int} : ofInt? n = none ↔ doubleLimit ≤ n.natAbs := by
  have hnan : (Number.float (ofInt n)).isNaN = false := Number.isNaN_ofUnits _ _ _
  rw [← Nat.not_lt, ← isFinite_ofInt]
  -- The definition is opened as a function: in an equation at `n` the checker would compute `ofInt n`.
  obtain ⟨f, hf⟩ : ∃ f, f = ofInt? := ⟨_, rfl⟩
  rw [← hf]
  delta ofInt? at hf
  subst hf
  dsimp only
  generalize ofInt n = x at hnan ⊢
  cases x with
  | nan written => cases hnan
  | infinite negative => simp [isFinite]
  | finite negative rank => simp [isFinite]

end Double

namespace Number

theorem isFinite_simplest {x : Double} (h : x.isFinite = true) : (simplest x).isFinite = true := by
  simp only [simplest]
  split
  · rfl
  · exact h

theorem isFinite_shift {n : Number} {name : Text} {delta : Int} (hn : n.isFinite = true)
    (h : symbolicDelta? name = some delta) : (n.shift delta).isFinite = true := by
  have hdeltas : ∀ d ∈ [2, 5, 10, -2, -5, -10], (Double.ofInt d).Moderate := by decide +kernel
  cases n with
  | int n => rfl
  | float x => exact Double.isFinite_add hn (hdeltas delta (symbolicDelta_mem h))

end Number

end Storyworld
