import Mathlib

/-! Bounds of a cubic on the unit interval. The exact bound looks at the ends and at the
critical points; where leading coefficients are below a cut-off and the critical points of
the lower polynomial are looked at instead, the bound is exceeded by the cut-off at most. -/
noncomputable section
namespace Florid.Cubic
variable {a b c d u bound : ℝ}

def value (a b c d u : ℝ) : ℝ := ((a * u + b) * u + c) * u + d

/-- The derivative, by the product rule along the Horner form. -/
def slope (a b c u : ℝ) : ℝ := ((a + a) * u + b) * u + ((a * u + b) * u + c)

theorem hasDerivAt_value (a b c d u : ℝ) : HasDerivAt (value a b c d) (slope a b c u) u := by
  have inner := ((hasDerivAt_id' u).const_mul a).add_const b
  have middle := (inner.mul (hasDerivAt_id' u)).add_const c
  have outer := (middle.mul (hasDerivAt_id' u)).add_const d
  refine outer.congr_deriv ?_
  simp only [Pi.mul_apply, slope]
  ring

theorem continuous_value (a b c d : ℝ) : Continuous (value a b c d) := by
  unfold value
  fun_prop

theorem value_neg (a b c d u : ℝ) : value (-a) (-b) (-c) (-d) u = -value a b c d u := by
  unfold value
  ring

/-- A maximum inside the interval is a critical point. -/
theorem value_le (start : value a b c d 0 ≤ bound) (stop : value a b c d 1 ≤ bound)
    (critical : ∀ v, 0 < v → v < 1 → slope a b c v = 0 → value a b c d v ≤ bound)
    (low : 0 ≤ u) (high : u ≤ 1) : value a b c d u ≤ bound := by
  obtain ⟨v, inside, greatest⟩ := isCompact_Icc.exists_isMaxOn (Set.nonempty_Icc.mpr zero_le_one)
    (continuous_value a b c d).continuousOn
  have top : value a b c d u ≤ value a b c d v := greatest ⟨low, high⟩
  apply top.trans
  rcases inside.1.eq_or_lt with first | after
  · rw [← first]
    exact start
  rcases inside.2.eq_or_lt with last | before
  · rw [last]
    exact stop
  · have peak : IsLocalMax (value a b c d) v := greatest.isLocalMax (Icc_mem_nhds after before)
    exact critical v after before (peak.hasDerivAt_eq_zero (hasDerivAt_value a b c d v))

/-- The critical points by the quadratic formula. -/
theorem slope_eq_zero (cubic : a ≠ 0) (flat : slope a b c u = 0) :
    0 ≤ b * b - 3 * a * c ∧ (u = (-b + √(b * b - 3 * a * c)) / (3 * a) ∨
      u = (-b - √(b * b - 3 * a * c)) / (3 * a)) := by
  have square : (3 * a * u + b) * (3 * a * u + b) = b * b - 3 * a * c := by
    unfold slope at flat
    linear_combination 3 * a * flat
  have scaled : 3 * a ≠ 0 := mul_ne_zero three_ne_zero cubic
  constructor
  · rw [← square]
    exact mul_self_nonneg _
  · have root : √(b * b - 3 * a * c) = |3 * a * u + b| := by
      rw [← square, Real.sqrt_mul_self_eq_abs]
    rw [root]
    rcases abs_choice (3 * a * u + b) with same | flipped
    · left
      rw [same, eq_div_iff scaled]
      ring
    · right
      rw [flipped, eq_div_iff scaled]
      ring

/-- The cubic term is left out of the search for the critical point. -/
theorem value_le_of_quadratic {cutoff : ℝ} (small : |a| ≤ cutoff) (quadratic : b ≠ 0)
    (start : value a b c d 0 ≤ bound) (stop : value a b c d 1 ≤ bound)
    (critical : 0 < -c / (2 * b) → -c / (2 * b) < 1 → value a b c d (-c / (2 * b)) ≤ bound)
    (low : 0 ≤ u) (high : u ≤ 1) : value a b c d u ≤ bound + cutoff := by
  have term {v : ℝ} (low : 0 ≤ v) (high : v ≤ 1) : 0 ≤ v ^ 3 ∧ v ^ 3 ≤ 1 :=
    ⟨pow_nonneg low 3, pow_le_one₀ low high⟩
  have split (v : ℝ) : value a b c d v = value 0 b c d v + a * v ^ 3 := by
    unfold value
    ring
  -- the quadratic part stays below the bound, raised by what a negative cubic term hides
  have lower : value 0 b c d u ≤ bound + max 0 (-a) := by
    have checked {v : ℝ} (low : 0 ≤ v) (high : v ≤ 1) (ok : value a b c d v ≤ bound) :
        value 0 b c d v ≤ bound + max 0 (-a) := by
      rw [split] at ok
      obtain ⟨nonneg, unit⟩ := term low high
      rcases le_total 0 a with positive | negative
      · have : 0 ≤ a * v ^ 3 := mul_nonneg positive nonneg
        have := le_max_left 0 (-a)
        linarith
      · have : -a * v ^ 3 ≤ -a := mul_le_of_le_one_right (neg_nonneg.mpr negative) unit
        have := le_max_right 0 (-a)
        linarith
    refine value_le (checked le_rfl zero_le_one start) (checked zero_le_one le_rfl stop) ?_ low high
    intro v after before flat
    have here : v = -c / (2 * b) := by
      rw [eq_div_iff (mul_ne_zero two_ne_zero quadratic)]
      unfold slope at flat
      linarith
    subst here
    exact checked after.le before.le (critical after before)
  obtain ⟨nonneg, unit⟩ := term low high
  rw [split]
  rcases le_total 0 a with positive | negative
  · rw [max_eq_left (neg_nonpos.mpr positive)] at lower
    rw [abs_of_nonneg positive] at small
    have : a * u ^ 3 ≤ a := mul_le_of_le_one_right positive unit
    linarith
  · rw [max_eq_right (neg_nonneg.mpr negative)] at lower
    rw [abs_of_nonpos negative] at small
    have : a * u ^ 3 ≤ 0 := mul_nonpos_of_nonpos_of_nonneg negative nonneg
    linarith

/-- Only the ends are looked at. -/
theorem value_le_of_linear {cutoff : ℝ} (small : |a| ≤ cutoff) (smaller : |b| ≤ cutoff)
    (start : value a b c d 0 ≤ bound) (stop : value a b c d 1 ≤ bound)
    (low : 0 ≤ u) (high : u ≤ 1) : value a b c d u ≤ bound + cutoff := by
  have chord : value a b c d u = (1 - u) * value a b c d 0 + u * value a b c d 1 +
      (-a) * (u - u ^ 3) + (-b) * (u - u ^ 2) := by
    unfold value
    ring
  have arch : 0 ≤ u - u ^ 2 := by nlinarith
  have arch' : 0 ≤ u - u ^ 3 := by nlinarith
  have cubic : -a * (u - u ^ 3) ≤ cutoff * (u - u ^ 3) :=
    mul_le_mul_of_nonneg_right ((neg_le_abs a).trans small) arch'
  have square : -b * (u - u ^ 2) ≤ cutoff * (u - u ^ 2) :=
    mul_le_mul_of_nonneg_right ((neg_le_abs b).trans smaller) arch
  have left : (1 - u) * value a b c d 0 ≤ (1 - u) * bound :=
    mul_le_mul_of_nonneg_left start (sub_nonneg.mpr high)
  have right : u * value a b c d 1 ≤ u * bound := mul_le_mul_of_nonneg_left stop low
  have positive : 0 ≤ cutoff := (abs_nonneg a).trans small
  have room : (u - u ^ 3) + (u - u ^ 2) ≤ 1 := by nlinarith [pow_nonneg low 3, sq_nonneg (1 - u)]
  have total := mul_le_mul_of_nonneg_left room positive
  rw [chord]
  linarith

end Florid.Cubic

end
