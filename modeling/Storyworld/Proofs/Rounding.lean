import Storyworld.Proofs.Magnitudes

/-! Integers as doubles. The double nearest to an integer stands for the integer that is left of it
with 53 binary digits, so that small integers stand for themselves, no two integers change places, and
large ones may fall together. -/

namespace Storyworld

variable {m n num den k : Nat} {a b : Int}

theorem roundDiv_mul_right (num den : Nat) (hk : 0 < k) :
    roundDiv (num * k) (den * k) = roundDiv num den := by
  have hhalf : 2 * (num % den * k) = 2 * (num % den) * k := (Nat.mul_assoc _ _ _).symm
  have htie : (2 * (num % den) * k == den * k) = (2 * (num % den) == den) := by
    rw [Bool.eq_iff_iff, beq_iff_eq, beq_iff_eq, Nat.mul_right_cancel_iff hk]
  simp only [roundDiv, Nat.mul_mod_mul_right, Nat.mul_div_mul_right _ _ hk, hhalf, htie,
    Nat.mul_lt_mul_right hk]

theorem roundDiv_mul_self (n : Nat) (hden : 0 < den) : roundDiv (n * den) den = n := by
  simp [roundDiv, hden]

theorem roundDiv_mono (den : Nat) (h : m ≤ n) : roundDiv m den ≤ roundDiv n den := by
  rcases Nat.lt_or_eq_of_le (Nat.div_le_div_right (c := den) h) with hlt | heq
  · exact Nat.le_trans (roundDiv_le m den) (Nat.le_trans hlt (le_roundDiv n den))
  · have hm := Nat.div_add_mod m den
    have hn := Nat.div_add_mod n den
    rw [heq] at hm
    simp only [roundDiv, heq, Bool.or_eq_true, decide_eq_true_eq, Bool.and_eq_true, beq_iff_eq]
    split <;> split <;> omega

/-- A number with all but its first 53 binary digits rounded away, a half to the even side. -/
def leading (n : Nat) : Nat :=
  roundDiv n (2 ^ (Nat.log2 n - 52)) * 2 ^ (Nat.log2 n - 52)

theorem roundDiv_log2_le (n : Nat) : roundDiv n (2 ^ (Nat.log2 n - 52)) ≤ 2 ^ 53 := by
  have hlt : n < 2 ^ (Nat.log2 n - 52) * 2 ^ 53 := by
    rw [← Nat.pow_add]
    exact Nat.lt_of_lt_of_le Nat.lt_log2_self (Nat.pow_le_pow_right (by decide) (by omega))
  exact Nat.le_trans (roundDiv_le n _) (Nat.div_lt_of_lt_mul hlt)

theorem le_roundDiv_log2 (h : 52 ≤ Nat.log2 n) : 2 ^ 52 ≤ roundDiv n (2 ^ (Nat.log2 n - 52)) := by
  have hne : n ≠ 0 := by
    rintro rfl
    simp at h
  have hle : 2 ^ 52 * 2 ^ (Nat.log2 n - 52) ≤ n := by
    rw [← Nat.pow_add, ← Nat.le_log2 hne]
    omega
  exact Nat.le_trans ((Nat.le_div_iff_mul_le (Nat.two_pow_pos _)).mpr hle) (le_roundDiv n _)

/-- The magnitude at a rank that is given by a binade and by digits in it. -/
theorem unitsAt_rank {scale q : Nat} (hq : q ≤ 2 ^ 53) (hfull : scale = 0 ∨ 2 ^ 52 ≤ q) :
    unitsAt (scale * 2 ^ 52 + q) = q * 2 ^ scale := by
  have hunits (rank : Nat) : unitsAt rank = if rank < 2 ^ 52 then rank else
      (2 ^ 52 + rank % 2 ^ 52) * 2 ^ (rank / 2 ^ 52 - 1) := rfl
  rw [hunits]
  by_cases hsmall : q < 2 ^ 52
  · obtain rfl : scale = 0 := by omega
    rw [if_pos (by omega), Nat.zero_mul, Nat.zero_add, Nat.pow_zero, Nat.mul_one]
  · rw [if_neg (by omega)]
    by_cases htop : q = 2 ^ 53
    · have hplace : (scale * 2 ^ 52 + q) / 2 ^ 52 = scale + 2 := by omega
      have hrest : (scale * 2 ^ 52 + q) % 2 ^ 52 = 0 := by omega
      rw [hplace, hrest, htop, show scale + 2 - 1 = scale + 1 from rfl, Nat.pow_succ 2 scale]
      omega
    · have hplace : (scale * 2 ^ 52 + q) / 2 ^ 52 = scale + 1 := by omega
      have hrest : 2 ^ 52 + (scale * 2 ^ 52 + q) % 2 ^ 52 = q := by omega
      rw [hplace, hrest, Nat.add_sub_cancel]

theorem unitsAt_rankOf (num : Nat) : unitsAt (rankOf num 1) = leading num := by
  have hrank : rankOf num 1 =
      (Nat.log2 num - 52) * 2 ^ 52 + roundDiv num (2 ^ (Nat.log2 num - 52)) := by
    simp [rankOf]
  rw [hrank, unitsAt_rank (roundDiv_log2_le num), leading]
  by_cases h : 52 ≤ Nat.log2 num
  · exact .inr (le_roundDiv_log2 h)
  · exact .inl (by omega)

theorem leading_of_log2_le (h : Nat.log2 n ≤ 52) : leading n = n := by
  have hscale : Nat.log2 n - 52 = 0 := by omega
  have hself := roundDiv_mul_self n Nat.one_pos
  rw [Nat.mul_one] at hself
  rw [leading, hscale, Nat.pow_zero, Nat.mul_one, hself]

/-- A power of two only moves the digits. -/
theorem leading_mul_two_pow (n k : Nat) : leading (n * 2 ^ k) = leading n * 2 ^ k := by
  by_cases hzero : n = 0
  · subst hzero
    simp [leading_of_log2_le]
  · have hlog : Nat.log2 (n * 2 ^ k) = Nat.log2 n + k := by
      have hpos : n * 2 ^ k ≠ 0 := Nat.mul_ne_zero hzero (Nat.ne_of_gt (Nat.two_pow_pos k))
      rw [Nat.log2_eq_iff hpos, Nat.pow_add, Nat.add_right_comm, Nat.pow_add]
      exact ⟨Nat.mul_le_mul_right _ (Nat.log2_self_le hzero),
        (Nat.mul_lt_mul_right (Nat.two_pow_pos k)).mpr Nat.lt_log2_self⟩
    by_cases hlarge : 52 ≤ Nat.log2 n
    · have hscale : Nat.log2 n + k - 52 = Nat.log2 n - 52 + k := by omega
      rw [leading, hlog, hscale, Nat.pow_add, roundDiv_mul_right _ _ (Nat.two_pow_pos k), leading,
        Nat.mul_assoc]
    · have hsplit : n * 2 ^ k = n * 2 ^ (k - (Nat.log2 n + k - 52)) * 2 ^ (Nat.log2 n + k - 52) := by
        rw [Nat.mul_assoc, ← Nat.pow_add]
        congr 2
        omega
      rw [leading_of_log2_le (n := n) (by omega), leading, hlog]
      rw [hsplit, roundDiv_mul_self _ (Nat.two_pow_pos _)]

theorem leading_mono (h : m ≤ n) : leading m ≤ leading n := by
  have hlog : Nat.log2 m ≤ Nat.log2 n := by
    by_cases hm : m = 0
    · subst hm
      simp
    · exact (Nat.le_log2 (by omega)).mpr (Nat.le_trans (Nat.log2_self_le hm) h)
  rcases Nat.lt_or_eq_of_le (Nat.sub_le_sub_right hlog 52) with hlt | heq
  · -- The smaller number lies in a binade below.
    have hbelow : leading m ≤ 2 ^ 53 * 2 ^ (Nat.log2 m - 52) :=
      Nat.mul_le_mul_right _ (roundDiv_log2_le m)
    have habove : 2 ^ 52 * 2 ^ (Nat.log2 n - 52) ≤ leading n :=
      Nat.mul_le_mul_right _ (le_roundDiv_log2 (by omega))
    have hpow : 2 ^ (Nat.log2 m - 52 + 1) ≤ 2 ^ (Nat.log2 n - 52) :=
      Nat.pow_le_pow_right (by decide) hlt
    rw [Nat.pow_succ] at hpow
    omega
  · rw [leading, leading, heq]
    exact Nat.mul_le_mul_right _ (roundDiv_mono _ h)

theorem leading_of_le (h : n ≤ 2 ^ 53) : leading n = n := by
  rcases Nat.lt_or_eq_of_le h with hlt | rfl
  · by_cases hzero : n = 0
    · subst hzero
      rfl
    · have hlog : Nat.log2 n < 53 := (Nat.log2_lt hzero).mpr hlt
      exact leading_of_log2_le (by omega)
  · have hone : leading 1 = 1 := leading_of_log2_le (by decide)
    have hpow := leading_mul_two_pow 1 53
    rwa [hone, Nat.one_mul] at hpow

/-- The integer that the nearest double stands for. -/
def rounded (a : Int) : Int := a.sign * leading a.natAbs

theorem rounded_of_le (h : a.natAbs ≤ 2 ^ 53) : rounded a = a := by
  rw [rounded, leading_of_le h, Int.sign_mul_natAbs]

theorem rounded_ofNat (n : Nat) : rounded n = leading n := by
  cases n with
  | zero => rfl
  | succ n => exact Int.one_mul _

theorem rounded_neg (a : Int) : rounded (-a) = -rounded a := by
  rw [rounded, rounded, Int.sign_neg, Int.natAbs_neg, Int.neg_mul]

/-- An integer of at most 53 digits is no other one rounded. -/
theorem rounded_ne (h : a ≠ b) (hb : b.natAbs < 2 ^ 53) : rounded a ≠ rounded b := by
  have hself : rounded b = b := rounded_of_le (Nat.le_of_lt hb)
  by_cases ha : a.natAbs ≤ 2 ^ 53
  · rwa [rounded_of_le ha, hself]
  · have hlarge : 2 ^ 53 ≤ (rounded a).natAbs := by
      have hleading : 2 ^ 53 ≤ leading a.natAbs := by
        have hmono := leading_mono (Nat.le_of_lt (Nat.not_le.mp ha))
        rwa [leading_of_le (Nat.le_refl _)] at hmono
      have hsign : a.sign.natAbs = 1 := Int.natAbs_sign_of_ne_zero (by rintro rfl; simp at ha)
      rwa [rounded, Int.natAbs_mul, hsign, Nat.one_mul, Int.natAbs_natCast]
    intro heq
    rw [heq, hself] at hlarge
    omega

theorem rounded_mono (h : a ≤ b) : rounded a ≤ rounded b := by
  obtain ⟨m, rfl | rfl⟩ := a.eq_nat_or_neg <;> obtain ⟨n, rfl | rfl⟩ := b.eq_nat_or_neg <;>
    simp only [rounded_neg, rounded_ofNat]
  · exact Int.ofNat_le.mpr (leading_mono (Int.ofNat_le.mp h))
  · obtain ⟨rfl, rfl⟩ : m = 0 ∧ n = 0 := by omega
    simp [leading_of_log2_le]
  · omega
  · have hle : leading n ≤ leading m := leading_mono (by omega)
    omega

/-- The exponent stays unnamed, so that no power of it is computed. -/
theorem exists_unitsPerOne : ∃ k, unitsPerOne = Nat.pow 2 k :=
  ⟨1074, by delta unitsPerOne; exact Eq.refl _⟩

theorem unitsPerOne_pos : 0 < unitsPerOne := by
  obtain ⟨k, hk⟩ := exists_unitsPerOne
  rw [hk]
  exact Nat.two_pow_pos k

namespace Double

/-- The number nearest to a whole number of units, if it is in range. -/
theorem extent?_ofUnits {negative : Bool} (h : rankOf num 1 < rankLimit) :
    (Number.float (ofUnits negative num 1)).extent? =
      some (.units (if negative then -(leading num : Int) else leading num)) := by
  have hfinite : ofUnits negative num 1 = finite negative ⟨rankOf num 1, h⟩ := dif_pos h
  rw [hfinite, ← unitsAt_rankOf]
  rfl

theorem extent?_ofInt (h : a.natAbs < doubleLimit) :
    (Number.float (ofInt a)).extent? = some (.units (rounded a * unitsPerOne)) := by
  obtain ⟨k, hk⟩ := exists_unitsPerOne
  have hrank : rankOf (a.natAbs * unitsPerOne) 1 < rankLimit :=
    isFinite_ofUnits.mp (isFinite_ofInt.mpr h)
  have hleading : leading (a.natAbs * unitsPerOne) = leading a.natAbs * unitsPerOne := by
    rw [hk]
    exact leading_mul_two_pow _ k
  rw [ofInt, extent?_ofUnits hrank, hleading]
  generalize unitsPerOne = one
  obtain ⟨n, rfl | rfl⟩ := a.eq_nat_or_neg
  · have hsign : ¬ (n : Int) < 0 := by omega
    simp [rounded_ofNat, hsign]
  · cases n with
    | zero => simp [rounded_of_le, leading_of_log2_le]
    | succ n =>
      have hsign : -((n + 1 : Nat) : Int) < 0 := by omega
      simp only [rounded_neg, rounded_ofNat, hsign, Int.natAbs_neg, Int.natAbs_natCast, decide_true,
        if_true, Int.natCast_mul, Int.neg_mul]

theorem ofInt?_of_lt (h : a.natAbs < doubleLimit) : ofInt? a = some (ofInt a) := by
  have hfinite : (ofInt a).isFinite = true := isFinite_ofInt.mpr h
  -- The definition is opened as a function: in an equation at `a` the checker would compute `ofInt a`.
  obtain ⟨f, hf⟩ : ∃ f, f = ofInt? := ⟨_, rfl⟩
  rw [← hf]
  delta ofInt? at hf
  subst hf
  dsimp only
  generalize ofInt a = x at hfinite
  cases x with
  | finite negative rank => rfl
  | infinite negative => cases hfinite
  | nan written => cases hfinite

end Double

end Storyworld
