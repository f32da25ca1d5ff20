import Mathlib.Algebra.BigOperators.Group.List.Basic
import Mathlib.Algebra.Order.Ring.Int
import Mathlib.Data.List.Forall2
import Storyworld.Demo
import Storyworld.Proofs.CommandSequences
import Storyworld.Proofs.Rounding

/-! The ladder of a number: symbolic commands, each of which moves it by so much. Between bounds that
are whole numbers an integer stays an integer, however large it is, so that a run of such commands
is a run on the integers, held between the bounds after every step. -/

namespace Storyworld

variable {p : Parameter} {low high : Option Int} {a b : Int}

namespace Number

theorem lt_congr {m n m' n' : Number} (hm : m.extent? = m'.extent?) (hn : n.extent? = n'.extent?) :
    m.lt n = m'.lt n' := by
  rw [lt, lt, hm, hn]

theorem extent?_whole {x : Double} {k : Int} (h : x.whole? = some k) :
    (float x).extent? = (int k).extent? := by
  rw [← extent?_simplest, simplest, h]

theorem lt_int (a b : Int) : (int a).lt (int b) = decide (a < b) := by
  have hpos : (0 : Int) < unitsPerOne := Int.natCast_pos.mpr unitsPerOne_pos
  rw [lt, extent?, extent?]
  generalize (unitsPerOne : Int) = one at hpos
  simp only [Extent.le, Int.mul_le_mul_right hpos, ← decide_not, Int.not_le]

end Number

def atLeast (low : Option Int) (n : Int) : Int := low.elim n (max n)

def atMost (high : Option Int) (n : Int) : Int := high.elim n (min n)

/-- An integer held between bounds; the upper one has the last word. -/
def between (low high : Option Int) (n : Int) : Int := atMost high (atLeast low n)

theorem between_mono (low high : Option Int) (h : a ≤ b) :
    between low high a ≤ between low high b := by
  cases low <;> cases high <;> simp only [between, atLeast, atMost, Option.elim] <;> omega

theorem between_bounds (h : ∀ l u, low = some l → high = some u → l ≤ u) (n : Int) :
    (∀ l, low = some l → l ≤ between low high n) ∧ ∀ u, high = some u → between low high n ≤ u := by
  constructor
  · rintro l rfl
    cases high with
    | none => exact Int.le_max_right n l
    | some u =>
      have hordered := h l u rfl rfl
      exact Int.le_min.mpr ⟨Int.le_max_right n l, hordered⟩
  · rintro u rfl
    exact Int.min_le_right _ u

namespace Parameter

/-- The bounds that are declared are whole numbers. -/
structure WholeBounds (p : Parameter) (low high : Option Int) : Prop where
  min_whole : p.min.map Double.whole? = low.map some
  max_whole : p.max.map Double.whole? = high.map some

theorem bound_cases {bound : Option Double} {whole : Option Int}
    (h : bound.map Double.whole? = whole.map some) :
    (bound = none ∧ whole = none) ∨
      ∃ x k, bound = some x ∧ whole = some k ∧ x.whole? = some k := by
  cases bound <;> cases whole <;> simp_all

theorem WholeBounds.raise_int (h : p.WholeBounds low high) (n : Int) :
    p.raise (.int n) = .int (atLeast low n) := by
  obtain ⟨hmin, rfl⟩ | ⟨x, k, hmin, rfl, hk⟩ := bound_cases h.min_whole
  · simp only [raise, hmin, atLeast, Option.elim]
  · have hlt : (Number.int n).lt (.float x) = decide (n < k) := by
      rw [Number.lt_congr rfl (Number.extent?_whole hk), Number.lt_int]
    simp only [raise, hmin, hlt, decide_eq_true_eq, Number.simplest, hk, atLeast, Option.elim]
    split <;> congr 1 <;> omega

theorem WholeBounds.clamp_int (h : p.WholeBounds low high) (n : Int) :
    p.clamp (.int n) = .int (between low high n) := by
  rw [clamp_eq, h.raise_int, between]
  generalize atLeast low n = raised
  obtain ⟨hmax, rfl⟩ | ⟨x, k, hmax, rfl, hk⟩ := bound_cases h.max_whole
  · simp only [hmax, atMost, Option.elim]
  · have hlt : (Number.float x).lt (.int raised) = decide (k < raised) := by
      rw [Number.lt_congr (Number.extent?_whole hk) rfl, Number.lt_int]
    simp only [hmax, hlt, decide_eq_true_eq, Number.simplest, hk, atMost, Option.elim]
    split <;> congr 1 <;> omega

theorem WholeBounds.low_le_high (h : p.WholeBounds low high) (hp : p.breach? = none) {l u : Int}
    (hl : low = some l) (hu : high = some u) : l ≤ u := by
  subst hl hu
  obtain ⟨_, hnone⟩ | ⟨x, k, hmin, hk, hx⟩ := bound_cases h.min_whole
  · cases hnone
  · obtain ⟨_, hnone⟩ | ⟨y, m, hmax, hm, hy⟩ := bound_cases h.max_whole
    · cases hnone
    · have hnot := min_le_max hp hmin hmax
      rw [Number.lt_congr (Number.extent?_whole hy) (Number.extent?_whole hx), Number.lt_int] at hnot
      obtain rfl := Option.some.inj hk
      obtain rfl := Option.some.inj hm
      simpa using hnot

theorem WholeBounds.eq_none (h : p.WholeBounds low high) (hmin : p.min = none)
    (hmax : p.max = none) : low = none ∧ high = none := by
  have hlow := h.min_whole
  have hhigh := h.max_whole
  rw [hmin, Option.map_none, eq_comm, Option.map_eq_none_iff] at hlow
  rw [hmax, Option.map_none, eq_comm, Option.map_eq_none_iff] at hhigh
  exact ⟨hlow, hhigh⟩

end Parameter

/-- A symbolic command, with the number that it moves by. -/
structure Rung where
  operator : Text
  literal : Option Text
  delta : Int
  moves : symbolicDelta? (lowered (trimmed operator)) = some delta

def Rung.command (r : Rung) : Text × Option Text := (r.operator, r.literal)

/-- The integer that rungs lead to from another one. -/
def climbed (low high : Option Int) (start : Int) (rungs : List Rung) : Int :=
  rungs.foldl (fun n r => between low high (n + r.delta)) start

variable {rungs rungs' : List Rung}

theorem Parameter.follow_rung (htype : p.type = .number) (h : p.WholeBounds low high) (a : Int)
    (r : Rung) :
    p.follow (.int a) r.command = .ok (.int (between low high (a + r.delta))) := by
  have happly : p.apply (.int a) r.operator r.literal =
      .ok (.int (between low high (a + r.delta))) := by
    have hbase : p.baseNumber (.int a) = .int a := rfl
    simp only [apply, htype, applyNumber, r.moves, hbase, Number.shift, h.clamp_int]
    rfl
  exact follow_of_ok happly

/-- A run of symbolic commands is a run on the integers. -/
theorem Parameter.run_rungs (htype : p.type = .number) (h : p.WholeBounds low high) (a : Int)
    (rungs : List Rung) :
    (rungs.map Rung.command).foldlM p.follow (.int a) = .ok (.int (climbed low high a rungs)) := by
  induction rungs generalizing a with
  | nil => rfl
  | cons r rungs ih =>
    rw [List.map_cons, List.foldlM_cons, follow_rung htype h, climbed, List.foldl_cons]
    exact ih (between low high (a + r.delta))

theorem climbed_mono (hab : a ≤ b)
    (h : List.Forall₂ (fun r s => r.delta ≤ s.delta) rungs rungs') :
    climbed low high a rungs ≤ climbed low high b rungs' := by
  induction h generalizing a b with
  | nil => exact hab
  | cons hdelta _ ih => exact ih (between_mono low high (Int.add_le_add hab hdelta))

theorem climbed_bounds (h : ∀ l u, low = some l → high = some u → l ≤ u) (hne : rungs ≠ [])
    (a : Int) : (∀ l, low = some l → l ≤ climbed low high a rungs) ∧
      ∀ u, high = some u → climbed low high a rungs ≤ u := by
  -- Only the last step counts, since each one ends between the bounds.
  obtain ⟨before, last, rfl⟩ : ∃ before last, rungs = before ++ [last] :=
    ⟨_, _, (List.dropLast_append_getLast hne).symm⟩
  rw [climbed, List.foldl_append]
  exact between_bounds h _

theorem climbed_unbounded (a : Int) (rungs : List Rung) :
    climbed none none a rungs = a + (rungs.map Rung.delta).sum := by
  induction rungs generalizing a with
  | nil => simp [climbed]
  | cons r rungs ih =>
    rw [climbed, List.foldl_cons] at *
    rw [show between none none (a + r.delta) = a + r.delta from rfl, List.map_cons, List.sum_cons,
      ← Int.add_assoc]
    exact ih (a + r.delta)

/-- Two runs of as many symbolic commands, of which the second starts no lower and moves by no less
at each step: after any number of steps both are at integers within the bounds, and the second is no
lower. Without bounds they move by the sum of the steps, in whatever order these come. -/
theorem ladder_monotone (hp : p.breach? = none) (htype : p.type = .number)
    (hwhole : p.WholeBounds low high) (hab : a ≤ b)
    (hrungs : List.Forall₂ (fun r s => r.delta ≤ s.delta) rungs rungs') {k : Nat}
    (hk : k ≤ rungs.length) :
    ∃ x y : Int,
      ((rungs.take k).map Rung.command).foldlM p.follow (.int a) = .ok (.int x) ∧
      ((rungs'.take k).map Rung.command).foldlM p.follow (.int b) = .ok (.int y) ∧ x ≤ y ∧
      (0 < k → (∀ l, low = some l → l ≤ x ∧ l ≤ y) ∧ ∀ u, high = some u → x ≤ u ∧ y ≤ u) ∧
      (p.min = none → p.max = none →
        x = a + ((rungs.take k).map Rung.delta).sum ∧
        y = b + ((rungs'.take k).map Rung.delta).sum ∧
        ∀ order : List Rung, order.Perm (rungs.take k) →
          (order.map Rung.command).foldlM p.follow (.int a) = .ok (.int x)) := by
  have hprefix := List.forall₂_take k hrungs
  refine ⟨_, _, Parameter.run_rungs htype hwhole a _, Parameter.run_rungs htype hwhole b _,
    climbed_mono hab hprefix, fun hpos => ?_, fun hmin hmax => ?_⟩
  · have hordered : ∀ l u, low = some l → high = some u → l ≤ u :=
      fun l u => hwhole.low_le_high hp
    have hne : rungs.take k ≠ [] := by
      rw [ne_eq, ← List.length_eq_zero_iff, List.length_take]
      omega
    have hne' : rungs'.take k ≠ [] := by
      rw [ne_eq, ← List.length_eq_zero_iff, ← hprefix.length_eq]
      exact fun hzero => hne (List.length_eq_zero_iff.mp hzero)
    obtain ⟨hlow, hhigh⟩ := climbed_bounds hordered hne a
    obtain ⟨hlow', hhigh'⟩ := climbed_bounds hordered hne' b
    exact ⟨fun l hl => ⟨hlow l hl, hlow' l hl⟩, fun u hu => ⟨hhigh u hu, hhigh' u hu⟩⟩
  · obtain ⟨rfl, rfl⟩ := hwhole.eq_none hmin hmax
    refine ⟨climbed_unbounded a _, climbed_unbounded b _, fun order horder => ?_⟩
    rw [Parameter.run_rungs htype hwhole, climbed_unbounded, climbed_unbounded,
      (horder.map Rung.delta).sum_eq]

namespace Demo

theorem favor_whole : favor.WholeBounds (some 0) (some 100) :=
  ⟨by decide +kernel, by decide +kernel⟩

def upSmall : Rung := ⟨" Up_Small ", none, 2, by decide +kernel⟩

def upLarge : Rung := ⟨"up_large", some "7", 10, by decide +kernel⟩

def downLarge : Rung := ⟨"down_large", none, -10, by decide +kernel⟩

/-- From within the bounds, and from far above them. -/
theorem favor_monotone : ∃ x y : Int,
    ([downLarge, upSmall].map Rung.command).foldlM favor.follow (.int 3) = .ok (.int x) ∧
    ([upSmall, upLarge].map Rung.command).foldlM favor.follow (.int (10 ^ 30)) = .ok (.int y) ∧
    x ≤ y ∧ 0 ≤ x ∧ y ≤ 100 := by
  have hrungs : List.Forall₂ (fun r s : Rung => r.delta ≤ s.delta) [downLarge, upSmall]
      [upSmall, upLarge] := .cons (by decide) (.cons (by decide) .nil)
  obtain ⟨x, y, hx, hy, hle, hbounds, -⟩ := ladder_monotone (a := 3) (b := 10 ^ 30) (k := 2)
    (show favor.breach? = none by decide +kernel) rfl favor_whole (by decide) hrungs (Nat.le_refl 2)
  obtain ⟨hlow, hhigh⟩ := hbounds (by decide)
  exact ⟨x, y, hx, hy, hle, (hlow 0 rfl).1, (hhigh 100 rfl).2⟩

end Demo

end Storyworld
