import Storyworld.Proofs.Validity

/-! The order of numbers that are no not-a-numbers, and values held between the bounds of a
parameter. A bound that takes the place of a value stands where the bound was declared, whether it
is taken as an integer or as a double. -/

namespace Storyworld

def Number.isNaN : Number → Bool
  | .float (.nan _) => true
  | _ => false

theorem Extent.le_refl (x : Extent) : x.le x = true := by
  cases x <;> simp [Extent.le]

namespace Number

variable {m n : Number}

theorem exists_extent (h : n.isNaN = false) : ∃ x, n.extent? = some x := by
  cases n with
  | int n => exact ⟨_, rfl⟩
  | float x =>
    cases x with
    | nan written => cases h
    | infinite negative => exact ⟨_, rfl⟩
    | finite negative rank => exact ⟨_, rfl⟩

theorem isNaN_of_extent {x : Extent} (h : n.extent? = some x) : n.isNaN = false := by
  cases n with
  | int n => rfl
  | float y => cases y <;> first | rfl | cases h

theorem le_refl (h : n.isNaN = false) : n.le n = true := by
  obtain ⟨x, hx⟩ := exists_extent h
  simp only [le, hx, Extent.le_refl]

theorem le_of_not_lt (hm : m.isNaN = false) (hn : n.isNaN = false) (h : ¬ m.lt n = true) :
    n.le m = true := by
  obtain ⟨x, hx⟩ := exists_extent hm
  obtain ⟨y, hy⟩ := exists_extent hn
  simpa [lt, le, hx, hy] using h

theorem extent?_simplest (x : Double) : (simplest x).extent? = (float x).extent? := by
  simp only [simplest]
  split
  · rename_i n hn
    obtain ⟨u, hu, hn⟩ := Option.bind_eq_some_iff.mp hn
    have hwhole : u % unitsPerOne = 0 ∧ u / unitsPerOne = n := by
      by_cases hz : u % unitsPerOne = 0
      · rw [if_pos hz] at hn
        exact ⟨hz, Option.some.inj hn⟩
      · rw [if_neg hz] at hn
        cases hn
    have hback : n * unitsPerOne = u := by
      rw [← hwhole.2]
      exact Int.ediv_mul_cancel (Int.dvd_of_emod_eq_zero hwhole.1)
    cases x with
    | nan written => cases hu
    | infinite negative => cases hu
    | finite negative rank =>
      have hunits : (if negative then -(unitsAt rank : Int) else unitsAt rank) = u :=
        Option.some.inj hu
      rw [extent?, extent?, hback, hunits]
  · rfl

theorem isNaN_simplest {x : Double} (h : (float x).isNaN = false) :
    (simplest x).isNaN = false := by
  obtain ⟨e, he⟩ := exists_extent h
  exact isNaN_of_extent ((extent?_simplest x).trans he)

theorem simplest_le (x : Double) (n : Number) : (simplest x).le n = (float x).le n := by
  rw [le, le, extent?_simplest]

theorem le_simplest (x : Double) (n : Number) : n.le (simplest x) = n.le (float x) := by
  rw [le, le, extent?_simplest]

theorem isNaN_ofUnits (negative : Bool) (num den : Nat) :
    (float (.ofUnits negative num den)).isNaN = false := by
  simp only [Double.ofUnits]
  split <;> rfl

theorem isNaN_add_finite (a b : Bool) (i j : Fin rankLimit) :
    (float ((Double.finite a i).add (.finite b j))).isNaN = false := by
  obtain ⟨sum, hsum⟩ : ∃ sum : Int, (Double.finite a i).add (.finite b j) =
      if sum = 0 then .zero (a && b) else .ofUnits (sum < 0) sum.natAbs 1 := ⟨_, rfl⟩
  rw [hsum]
  by_cases hzero : sum = 0
  · rw [if_pos hzero]
    rfl
  · rw [if_neg hzero]
    exact isNaN_ofUnits _ _ _

theorem isNaN_shift {delta : Int} (h : n.isNaN = false)
    (hdelta : (Double.ofInt delta).isFinite = true) : (n.shift delta).isNaN = false := by
  cases n with
  | int n => rfl
  | float x =>
    rw [shift]
    generalize Double.ofInt delta = y at hdelta
    match x, y with
    | .nan _, _ => cases h
    | _, .nan _ => cases hdelta
    | _, .infinite _ => cases hdelta
    | .infinite _, .finite _ _ => rfl
    | .finite a i, .finite b j => exact isNaN_add_finite a b i j

def isFinite : Number → Bool
  | int _ => true
  | float x => x.isFinite

theorem isNaN_of_isFinite (h : n.isFinite = true) : n.isNaN = false := by
  match n with
  | int _ => rfl
  | float (.nan _) => cases h
  | float (.infinite _) => rfl
  | float (.finite _ _) => rfl

theorem isFinite_readNumber {s : Text} (h : readNumber? s = some n) : n.isFinite = true := by
  simp only [readNumber?] at h
  split at h
  · exact Option.some.inj h ▸ rfl
  · split at h
    · split at h
      · rename_i hfinite
        exact Option.some.inj h ▸ hfinite
      · cases h
    · cases h

theorem isNaN_readNumber {s : Text} (h : readNumber? s = some n) : n.isNaN = false :=
  isNaN_of_isFinite (isFinite_readNumber h)

end Number

theorem symbolicDelta_mem {name : Text} {delta : Int} (h : symbolicDelta? name = some delta) :
    delta ∈ [2, 5, 10, -2, -5, -10] := by
  simp only [symbolicDelta?] at h
  split at h <;> simp at h <;> simp [← h]

theorem isFinite_symbolicDelta {name : Text} {delta : Int}
    (h : symbolicDelta? name = some delta) : (Double.ofInt delta).isFinite = true := by
  have hdeltas : ∀ d ∈ [2, 5, 10, -2, -5, -10], (Double.ofInt d).isFinite = true := by
    decide +kernel
  exact hdeltas delta (symbolicDelta_mem h)

namespace Parameter

variable {p : Parameter} {n : Number}

/-- The number is no not-a-number and lies between the bounds that are declared. -/
structure Within (p : Parameter) (n : Number) : Prop where
  comparable : n.isNaN = false
  above : ∀ low, p.min = some low → (Number.float low).le n = true
  below : ∀ high, p.max = some high → n.le (.float high) = true

theorem min_le_max (hp : p.breach? = none) {low high : Double} (hlow : p.min = some low)
    (hhigh : p.max = some high) : ¬ (Number.float high).lt (.float low) = true := by
  intro hlt
  simp only [breach?] at hp
  split at hp
  · cases hp
  · rw [hlow, hhigh] at hp
    simp [hlt] at hp

/-- The bounds that are declared are no not-a-numbers. -/
def Bounded (p : Parameter) : Prop :=
  (∀ low, p.min = some low → (Number.float low).isNaN = false) ∧
    ∀ high, p.max = some high → (Number.float high).isNaN = false

def raise (p : Parameter) (n : Number) : Number :=
  match p.min with
  | some low => if n.lt (.float low) then .simplest low else n
  | none => n

theorem clamp_eq (p : Parameter) (n : Number) :
    p.clamp n = match p.max with
      | some high => if (Number.float high).lt (p.raise n) then .simplest high else p.raise n
      | none => p.raise n := rfl

theorem raise_above (hb : p.Bounded) (hn : n.isNaN = false) : (p.raise n).isNaN = false ∧
    ∀ low, p.min = some low → (Number.float low).le (p.raise n) = true := by
  simp only [raise]
  split
  · rename_i low hlow
    have hlown := hb.1 low hlow
    split
    · refine ⟨Number.isNaN_simplest hlown, fun l hl => ?_⟩
      obtain rfl := Option.some.inj (hlow.symm.trans hl)
      rw [Number.le_simplest]
      exact Number.le_refl hlown
    · rename_i hlt
      refine ⟨hn, fun l hl => ?_⟩
      obtain rfl := Option.some.inj (hlow.symm.trans hl)
      exact Number.le_of_not_lt hn hlown hlt
  · rename_i hnone
    exact ⟨hn, fun l hl => by rw [hnone] at hl; cases hl⟩

theorem clamp_within (hp : p.breach? = none) (hb : p.Bounded) (hn : n.isNaN = false) :
    p.Within (p.clamp n) := by
  obtain ⟨hraised, habove⟩ := raise_above hb hn
  rw [clamp_eq]
  split
  · rename_i high hhigh
    have hhighn := hb.2 high hhigh
    split
    · refine ⟨Number.isNaN_simplest hhighn, fun low hlow => ?_, fun h hh => ?_⟩
      · rw [Number.le_simplest]
        exact Number.le_of_not_lt hhighn (hb.1 low hlow) (min_le_max hp hlow hhigh)
      · obtain rfl := Option.some.inj (hhigh.symm.trans hh)
        rw [Number.simplest_le]
        exact Number.le_refl hhighn
    · rename_i hlt
      refine ⟨hraised, habove, fun h hh => ?_⟩
      obtain rfl := Option.some.inj (hhigh.symm.trans hh)
      exact Number.le_of_not_lt hhighn hraised hlt
  · rename_i hnone
    exact ⟨hraised, habove, fun h hh => by rw [hnone] at hh; cases hh⟩

end Parameter

end Storyworld
