import Mathlib.Algebra.Order.Field.Basic
import Mathlib.Algebra.Order.Floor.Semiring
import Mathlib.Data.Nat.Log
import Mathlib.Tactic

/-!
# Rounding to steps of a scale

A number is rounded to the nearest multiple of a step, a half to the even
side, after it was divided by the largest power of a base that does not exceed
it.  The rounded value is close to the number and monotone in it, also where
the power changes, because the step divides both ends of the range of one
power.
-/

namespace ScaledRounding

variable {K : Type*} [Field K] [LinearOrder K]

/-! ## A half to the even side -/

section HalfEven

variable [FloorSemiring K]

/-- The nearest natural number, and the even one of two. -/
def roundEven (x : K) : ℕ :=
  let down := ⌊x⌋₊
  let rest := x - down
  if rest < 1 / 2 ∨ (rest = 1 / 2 ∧ down % 2 = 0) then down else down + 1

theorem roundEven_cases (x : K) :
    (roundEven x = ⌊x⌋₊ ∧ x - ⌊x⌋₊ ≤ 1 / 2) ∨
      (roundEven x = ⌊x⌋₊ + 1 ∧ 1 / 2 ≤ x - ⌊x⌋₊) := by
  unfold roundEven
  by_cases hdown : x - ⌊x⌋₊ < 1 / 2 ∨ (x - ⌊x⌋₊ = 1 / 2 ∧ ⌊x⌋₊ % 2 = 0)
  · left
    refine ⟨if_pos hdown, ?_⟩
    cases hdown with
    | inl hless => exact hless.le
    | inr htie => exact htie.1.le
  · right
    refine ⟨if_neg hdown, ?_⟩
    rw [not_or] at hdown
    exact not_lt.mp hdown.1

theorem floor_le_roundEven (x : K) : ⌊x⌋₊ ≤ roundEven x := by
  rcases roundEven_cases x with ⟨heq, _⟩ | ⟨heq, _⟩
  · exact heq.ge
  · rw [heq]
    exact Nat.le_succ _

theorem roundEven_le_floor_add_one (x : K) : roundEven x ≤ ⌊x⌋₊ + 1 := by
  rcases roundEven_cases x with ⟨heq, _⟩ | ⟨heq, _⟩
  · rw [heq]
    exact Nat.le_succ _
  · exact heq.le

variable [IsStrictOrderedRing K]

@[simp] theorem roundEven_natCast (n : ℕ) : roundEven (n : K) = n := by
  simp [roundEven]

theorem abs_roundEven_sub_le {x : K} (hx : 0 ≤ x) :
    |(roundEven x : K) - x| ≤ 1 / 2 := by
  have hlow := Nat.floor_le hx
  have hhigh := Nat.lt_floor_add_one x
  rw [abs_le]
  rcases roundEven_cases x with ⟨heq, hrest⟩ | ⟨heq, hrest⟩
  · rw [heq]
    constructor <;> linarith
  · rw [heq, Nat.cast_succ]
    constructor <;> linarith

/-- Between two naturals the rule of the lower one decides. -/
theorem roundEven_le_roundEven_of_floor_eq {x y : K} (hle : x ≤ y)
    (hfloor : ⌊x⌋₊ = ⌊y⌋₊) : roundEven x ≤ roundEven y := by
  unfold roundEven
  rw [hfloor]
  by_cases hdown : y - ⌊y⌋₊ < 1 / 2 ∨ (y - ⌊y⌋₊ = 1 / 2 ∧ ⌊y⌋₊ % 2 = 0)
  · have hlower : x - ⌊y⌋₊ < 1 / 2 ∨
        (x - ⌊y⌋₊ = 1 / 2 ∧ ⌊y⌋₊ % 2 = 0) := by
      rcases hdown with hless | ⟨htie, heven⟩
      · exact Or.inl (by linarith)
      · rcases lt_or_eq_of_le hle with hlt | heq
        · exact Or.inl (by linarith)
        · exact Or.inr ⟨by rw [heq, htie], heven⟩
    simp only [if_pos hdown, if_pos hlower, le_refl]
  · simp only [if_neg hdown]
    split
    · exact Nat.le_succ _
    · exact le_rfl

theorem monotone_roundEven : Monotone (roundEven : K → ℕ) := by
  intro x y hle
  rcases Nat.lt_or_eq_of_le (Nat.floor_mono hle) with hlt | heq
  · calc
      roundEven x ≤ ⌊x⌋₊ + 1 := roundEven_le_floor_add_one x
      _ ≤ ⌊y⌋₊ := hlt
      _ ≤ roundEven y := floor_le_roundEven y
  · exact roundEven_le_roundEven_of_floor_eq hle heq

/-! ## Steps of a unit -/

/-- Rounding to multiples of `1 / steps`. -/
def roundTo (steps : ℕ) (x : K) : K := roundEven (x * steps) / steps

theorem monotone_roundTo (steps : ℕ) :
    Monotone (roundTo steps : K → K) := by
  intro x y hle
  have hscaled : x * steps ≤ y * steps :=
    mul_le_mul_of_nonneg_right hle (Nat.cast_nonneg steps)
  have hrounded : (roundEven (x * steps) : K) ≤ roundEven (y * steps) :=
    Nat.cast_le.mpr (monotone_roundEven hscaled)
  exact div_le_div_of_nonneg_right hrounded (Nat.cast_nonneg steps)

theorem roundTo_natCast {steps : ℕ} (hsteps : steps ≠ 0) (n : ℕ) :
    roundTo steps (n : K) = n := by
  have hcast : (steps : K) ≠ 0 := Nat.cast_ne_zero.mpr hsteps
  rw [roundTo, ← Nat.cast_mul, roundEven_natCast, Nat.cast_mul,
    mul_div_cancel_right₀ _ hcast]

theorem abs_roundTo_sub_le {steps : ℕ} (hsteps : steps ≠ 0) {x : K}
    (hx : 0 ≤ x) : |roundTo steps x - x| ≤ 1 / 2 / steps := by
  have hpos : (0 : K) < steps :=
    Nat.cast_pos.mpr (Nat.pos_of_ne_zero hsteps)
  have herror := abs_roundEven_sub_le (mul_nonneg hx hpos.le)
  have hscaled : roundTo steps x - x =
      (roundEven (x * steps) - x * steps) / steps := by
    rw [roundTo, sub_div, mul_div_cancel_right₀ _ hpos.ne']
  rw [hscaled, abs_div, abs_of_pos hpos]
  exact div_le_div_of_nonneg_right herror hpos.le

end HalfEven

/-! ## The largest power of a base -/

section Scaled

variable [IsStrictOrderedRing K] {base : ℕ} {round : K → K}

/-- A natural number, rounded in units of the largest power of the base that
does not exceed it. -/
def scaled (base : ℕ) (round : K → K) (n : ℕ) : K :=
  round (n / base ^ Nat.log base n) * base ^ Nat.log base n

theorem pow_log_pos (hbase : base ≠ 0) (n : ℕ) :
    (0 : K) < base ^ Nat.log base n :=
  pow_pos (Nat.cast_pos.mpr (Nat.pos_of_ne_zero hbase)) _

theorem abs_scaled_sub_le (hbase : base ≠ 0) {error : K}
    (hround : ∀ x, 0 ≤ x → |round x - x| ≤ error) (n : ℕ) :
    |scaled base round n - n| ≤ error * base ^ Nat.log base n := by
  have hpower := pow_log_pos (K := K) hbase n
  have hquotient := hround (n / base ^ Nat.log base n)
    (div_nonneg (Nat.cast_nonneg n) hpower.le)
  have hdistance : scaled base round n - n =
      (round (n / base ^ Nat.log base n) - n / base ^ Nat.log base n) *
        base ^ Nat.log base n := by
    rw [scaled, sub_mul, div_mul_cancel₀ _ hpower.ne']
  rw [hdistance, abs_mul, abs_of_pos hpower]
  exact mul_le_mul_of_nonneg_right hquotient hpower.le

/-- The numbers of one power stay below the next one. -/
theorem scaled_le_pow (hbase : 1 < base) (hround : Monotone round)
    (hfull : round base = base) (n : ℕ) :
    scaled base round n ≤ base ^ (Nat.log base n + 1) := by
  have hpower := pow_log_pos (K := K) (Nat.ne_zero_of_lt hbase) n
  have hbelow : (n : K) ≤ base * base ^ Nat.log base n := by
    have hlt := Nat.lt_pow_succ_log_self hbase n
    rw [Nat.succ_eq_add_one, pow_succ'] at hlt
    exact_mod_cast hlt.le
  have hquotient : n / base ^ Nat.log base n ≤ (base : K) := by
    rw [div_le_iff₀ hpower]
    exact hbelow
  have hrounded := hround hquotient
  rw [hfull] at hrounded
  rw [scaled, pow_succ']
  exact mul_le_mul_of_nonneg_right hrounded hpower.le

/-- The numbers of one power do not fall below it. -/
theorem pow_le_scaled (hround : Monotone round) (hone : round 1 = 1) {n : ℕ}
    (hn : n ≠ 0) (hbase : base ≠ 0) :
    (base : K) ^ Nat.log base n ≤ scaled base round n := by
  have hpower := pow_log_pos (K := K) hbase n
  have hquotient : (1 : K) ≤ n / base ^ Nat.log base n := by
    rw [one_le_div hpower]
    exact_mod_cast Nat.pow_log_le_self base hn
  have hrounded := hround hquotient
  rw [hone] at hrounded
  rw [scaled]
  calc
    (base : K) ^ Nat.log base n = 1 * base ^ Nat.log base n :=
      (one_mul _).symm
    _ ≤ round (n / base ^ Nat.log base n) * base ^ Nat.log base n :=
      mul_le_mul_of_nonneg_right hrounded hpower.le

/-- Both numbers have one power, or the power of the greater one lies between
their rounded values. -/
theorem monotone_scaled (hbase : 1 < base) (hround : Monotone round)
    (hone : round 1 = 1) (hfull : round base = base) :
    Monotone (scaled base round) := by
  have hbase0 : base ≠ 0 := Nat.ne_zero_of_lt hbase
  intro m n hle
  rcases Nat.lt_or_eq_of_le (Nat.log_mono_right (b := base) hle) with
    hlt | heq
  · have hn : n ≠ 0 := by
      intro hzero
      rw [hzero, Nat.log_zero_right] at hlt
      exact Nat.not_lt_zero _ hlt
    have hpowers : (base : K) ^ (Nat.log base m + 1) ≤
        base ^ Nat.log base n :=
      pow_le_pow_right₀ (by exact_mod_cast hbase.le) hlt
    exact (scaled_le_pow hbase hround hfull m).trans
      (hpowers.trans (pow_le_scaled hround hone hn hbase0))
  · have hpower := (pow_log_pos (K := K) hbase0 n).le
    have hquotient : (m : K) / base ^ Nat.log base n ≤
        n / base ^ Nat.log base n :=
      div_le_div_of_nonneg_right (Nat.cast_le.mpr hle) hpower
    rw [scaled, scaled, heq]
    exact mul_le_mul_of_nonneg_right (hround hquotient) hpower

end Scaled

end ScaledRounding
