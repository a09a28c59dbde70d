import Florid.Mpc.Trajectory

/-! `MPCCubic::within` as a certificate of a whole segment: what passes keeps its limits in
between, up to the tolerance and the cut-off, and what keeps the widened limits passes. -/
noncomputable section
namespace Florid.Mpc
namespace MPCCubic
variable {m : MPCCubic} {limits : MPCJointLimits} {i : Joint} {u dt : ℝ}
variable {first last : MPCJointState}

/-! ### The derivatives -/

theorem hasDerivAt_position (m : MPCCubic) (i : Joint) (time : ℝ) :
    HasDerivAt (fun t => m.position i (t / m.dt)) (m.velocity i (time / m.dt)) time := by
  have normalized : HasDerivAt (fun t => t / m.dt) (1 / m.dt) time :=
    (hasDerivAt_id' time).div_const m.dt
  have curve := (Cubic.hasDerivAt_value (m.a i) (m.b i) (m.c i) (m.d i) (time / m.dt)).comp time
    normalized
  refine curve.congr_deriv ?_
  simp only [Cubic.slope, velocity]
  ring

theorem hasDerivAt_velocity (m : MPCCubic) (i : Joint) (time : ℝ) :
    HasDerivAt (fun t => m.velocity i (t / m.dt)) (m.acceleration i (time / m.dt)) time := by
  have normalized : HasDerivAt (fun t => t / m.dt) (1 / m.dt) time :=
    (hasDerivAt_id' time).div_const m.dt
  have curve := ((Cubic.hasDerivAt_value 0 (3 * m.a i) (2 * m.b i) (m.c i) (time / m.dt)).comp time
    normalized).div_const m.dt
  have same : (fun t => m.velocity i (t / m.dt)) = fun t =>
      (Cubic.value 0 (3 * m.a i) (2 * m.b i) (m.c i) ∘ fun t => t / m.dt) t / m.dt := by
    funext t
    simp only [Function.comp_apply, Cubic.value, velocity]
    ring
  rw [same]
  refine curve.congr_deriv ?_
  simp only [Cubic.slope, acceleration]
  ring

/-! ### What passes keeps its limits -/

theorem velocity_eq (m : MPCCubic) (i : Joint) (u : ℝ) :
    m.velocity i u = Cubic.value 0 (3 * m.a i) (2 * m.b i) (m.c i) u / m.dt := by
  simp only [Cubic.value, velocity]
  ring

theorem value_flip (a b c u : ℝ) : Cubic.value 0 (3 * -a) (2 * -b) (-c) u =
    -Cubic.value 0 (3 * a) (2 * b) c u := by
  simp only [Cubic.value]
  ring

/-- Where the cubic term is below the cut-off the extremum of the speed is not looked at. -/
theorem speed_le {a b c bound : ℝ} (start : Cubic.value 0 (3 * a) (2 * b) c 0 ≤ bound)
    (stop : Cubic.value 0 (3 * a) (2 * b) c 1 ≤ bound)
    (critical : coefficientCutoff < |a| → 0 < -b / (3 * a) → -b / (3 * a) < 1 →
      Cubic.value 0 (3 * a) (2 * b) c (-b / (3 * a)) ≤ bound)
    (low : 0 ≤ u) (high : u ≤ 1) :
    Cubic.value 0 (3 * a) (2 * b) c u ≤ bound + 3 * coefficientCutoff := by
  have flat : |(0 : ℝ)| ≤ 0 := abs_zero.le
  by_cases large : coefficientCutoff < |a|
  · have nonzero : 3 * a ≠ 0 :=
      mul_ne_zero three_ne_zero (abs_pos.mp (coefficientCutoff_pos.trans large))
    have vertex : -(2 * b) / (2 * (3 * a)) = -b / (3 * a) := by
      rw [← mul_neg, mul_div_mul_left _ _ two_ne_zero]
    have exact' : Cubic.value 0 (3 * a) (2 * b) c u ≤ bound := by
      refine Cubic.value_le ?_ ?_ ?_ low high
      · exact start
      · exact stop
      · intro v after before still
        have here : v = -b / (3 * a) := by
          rw [eq_div_iff nonzero]
          unfold Cubic.slope at still
          linarith
        subst here
        exact critical large after before
    linarith [coefficientCutoff_pos]
  · have scaled : |3 * a| ≤ 3 * coefficientCutoff := by
      rw [abs_mul, abs_of_pos three_pos]
      exact mul_le_mul_of_nonneg_left (not_lt.mp large) three_pos.le
    have none : |(0 : ℝ)| ≤ 3 * coefficientCutoff := by
      rw [abs_zero]
      exact mul_nonneg three_pos.le coefficientCutoff_pos.le
    exact Cubic.value_le_of_linear none scaled start stop low high

theorem JointWithin.speed (ok : m.JointWithin limits i) (positive : 0 < m.dt) (low : 0 ≤ u)
    (high : u ≤ 1) : |m.velocity i u| ≤ limits.velocity i + 1e-7 + 3 * coefficientCutoff / m.dt := by
  have scaled (v : ℝ) (checked : m.velocityOk limits i v) :
      |Cubic.value 0 (3 * m.a i) (2 * m.b i) (m.c i) v| ≤ (limits.velocity i + 1e-7) * m.dt := by
    unfold velocityOk at checked
    rwa [velocity_eq, abs_div, abs_of_pos positive, div_le_iff₀ positive] at checked
  have extremum (large : coefficientCutoff < |m.a i|) (after : 0 < -m.b i / (3 * m.a i))
      (before : -m.b i / (3 * m.a i) < 1) : m.velocityOk limits i (-m.b i / (3 * m.a i)) := by
    have extrema := ok.extrema
    rw [if_pos large] at extrema
    exact extrema.1 after before
  rw [velocity_eq, abs_div, abs_of_pos positive, div_le_iff₀ positive, add_mul,
    div_mul_cancel₀ _ positive.ne']
  apply abs_le.mpr
  constructor
  · -- the slowest point is the fastest one of the negated curve
    have flipped (v : ℝ) (checked : m.velocityOk limits i v) :
        Cubic.value 0 (3 * -m.a i) (2 * -m.b i) (-m.c i) v ≤ (limits.velocity i + 1e-7) * m.dt := by
      rw [value_flip]
      exact neg_le.mp (abs_le.mp (scaled v checked)).1
    have below := speed_le (flipped 0 ok.velocityStart) (flipped 1 ok.velocityStop) (u := u)
      (a := -m.a i) (b := -m.b i) (by
        intro large after before
        have same : - -m.b i / (3 * -m.a i) = -m.b i / (3 * m.a i) := by
          rw [mul_neg, div_neg, neg_div, neg_neg]
        rw [abs_neg] at large
        rw [same] at after before ⊢
        exact flipped _ (extremum large after before)) low high
    rw [value_flip] at below
    linarith
  · refine speed_le ?_ ?_ ?_ low high
    · exact (abs_le.mp (scaled 0 ok.velocityStart)).2
    · exact (abs_le.mp (scaled 1 ok.velocityStop)).2
    · intro large after before
      exact (abs_le.mp (scaled _ (extremum large after before))).2

/-- The acceleration is linear in time, so its ends bound it. -/
theorem acceleration_le (m : MPCCubic) (i : Joint) (low : 0 ≤ u) (high : u ≤ 1) :
    |m.acceleration i u| ≤ max |2 * m.b i| |6 * m.a i + 2 * m.b i| / (m.dt * m.dt) := by
  rw [acceleration, abs_div, abs_mul_self]
  apply div_le_div_of_nonneg_right _ (mul_self_nonneg m.dt)
  have chord : 6 * m.a i * u + 2 * m.b i =
      (1 - u) * (2 * m.b i) + u * (6 * m.a i + 2 * m.b i) := by ring
  rw [chord]
  calc |(1 - u) * (2 * m.b i) + u * (6 * m.a i + 2 * m.b i)|
      ≤ |(1 - u) * (2 * m.b i)| + |u * (6 * m.a i + 2 * m.b i)| := abs_add_le _ _
    _ = (1 - u) * |2 * m.b i| + u * |6 * m.a i + 2 * m.b i| := by
        rw [abs_mul (1 - u), abs_mul u, abs_of_nonneg low, abs_of_nonneg (sub_nonneg.mpr high)]
    _ ≤ (1 - u) * max |2 * m.b i| |6 * m.a i + 2 * m.b i| +
        u * max |2 * m.b i| |6 * m.a i + 2 * m.b i| := by
        apply add_le_add
        · exact mul_le_mul_of_nonneg_left (le_max_left _ _) (sub_nonneg.mpr high)
        · exact mul_le_mul_of_nonneg_left (le_max_right _ _) low
    _ = max |2 * m.b i| |6 * m.a i + 2 * m.b i| := by ring

/-! ### What keeps the widened limits passes -/

/-- The limits of one joint at one point, widened by the tolerance. -/
structure Keeps (m : MPCCubic) (limits : MPCJointLimits) (i : Joint) (u : ℝ) : Prop where
  lower : limits.lower i - 1e-7 ≤ m.position i u
  upper : m.position i u ≤ limits.upper i + 1e-7
  speed : |m.velocity i u| ≤ limits.velocity i + 1e-7
  acceleration : |m.acceleration i u| ≤ limits.acceleration i + 1e-7

theorem JointWithin.of_keeps (kept : ∀ u, 0 ≤ u → u ≤ 1 → m.Keeps limits i u) :
    m.JointWithin limits i := by
  have position {v : ℝ} (low : 0 ≤ v) (high : v ≤ 1) : m.positionOk limits i v :=
    ⟨(kept v low high).lower, (kept v low high).upper⟩
  have first := (kept 0 le_rfl zero_le_one).acceleration
  have last := (kept 1 zero_le_one le_rfl).acceleration
  simp only [MPCCubic.acceleration, mul_zero, mul_one, zero_add, abs_div, abs_mul_self] at first last
  constructor
  · exact position le_rfl zero_le_one
  · exact position zero_le_one le_rfl
  · exact (kept 0 le_rfl zero_le_one).speed
  · exact (kept 1 zero_le_one le_rfl).speed
  · rcases max_choice |2 * m.b i| |6 * m.a i + 2 * m.b i| with same | same
    · rw [same]
      exact first
    · rw [same]
      exact last
  · split
    · constructor
      · intro after before
        exact (kept _ after.le before.le).speed
      · intro _ _ _ _ _ after before
        exact position after.le before.le
    · split
      · intro after before
        exact position after.le before.le
      · trivial

/-- A segment between two states that passes `within` keeps its limits all along, up to the
tolerance and what the cut-off hides, and one that keeps the widened limits passes. -/
theorem within_certifies (positive : 0 < dt) (first last : MPCJointState)
    (limits : MPCJointLimits) :
    ((between first last dt).within limits → ∀ u, 0 ≤ u → u ≤ 1 → ∀ i,
      limits.lower i - 1e-7 - 1e-14 ≤ (between first last dt).position i u ∧
      (between first last dt).position i u ≤ limits.upper i + 1e-7 + 1e-14 ∧
      |(between first last dt).velocity i u| ≤ limits.velocity i + 1e-7 + 1e-14 / dt ∧
      |(between first last dt).acceleration i u| ≤ limits.acceleration i + 1e-7) ∧
    ((∀ u, 0 ≤ u → u ≤ 1 → ∀ i, (between first last dt).Keeps limits i u) →
      (between first last dt).within limits) := by
  constructor
  · rintro ⟨_, ok⟩ u low high i
    obtain ⟨lower, upper⟩ := (ok i).position low high
    have speed := (ok i).speed positive low high
    have room : 3 * coefficientCutoff / dt ≤ 1e-14 / dt := by
      apply div_le_div_of_nonneg_right _ positive.le
      norm_num [coefficientCutoff]
    simp only [positionTolerance, coefficientCutoff] at lower upper
    refine ⟨?_, ?_, ?_, ?_⟩
    · linarith
    · linarith
    · exact speed.trans (add_le_add_right room _)
    · exact (acceleration_le _ i low high).trans (ok i).acceleration
  · intro kept
    exact ⟨positive, fun i => .of_keeps fun u low high => kept u low high i⟩

/-- All joints from rest to rest, one radian in a second. -/
def unitMove : MPCCubic := between {} { q := fun _ => 1 } 1

def unitLimits (speed acceleration : ℝ) : MPCJointLimits :=
  ⟨fun _ => 0, fun _ => 1, fun _ => speed, fun _ => acceleration⟩

theorem unitMove_keeps (low : 0 ≤ u) (high : u ≤ 1) (i : Joint) :
    unitMove.Keeps (unitLimits 2 6) i u := by
  have position : unitMove.position i u = (3 - 2 * u) * (u * u) := by
    simp only [unitMove, between, MPCCubic.position]
    ring
  have velocity : unitMove.velocity i u = 6 * (u * (1 - u)) := by
    simp only [unitMove, between, MPCCubic.velocity]
    ring
  have acceleration : unitMove.acceleration i u = 6 * (1 - 2 * u) := by
    simp only [unitMove, between, MPCCubic.acceleration]
    ring
  have arch : 0 ≤ u * (1 - u) := mul_nonneg low (sub_nonneg.mpr high)
  have rest : 0 ≤ (1 - u) * (1 - u) := mul_self_nonneg _
  constructor
  · rw [position]
    norm_num [unitLimits]
    nlinarith
  · rw [position]
    norm_num [unitLimits]
    nlinarith
  · rw [velocity, abs_of_nonneg (by linarith)]
    norm_num [unitLimits]
    nlinarith
  · rw [acceleration, abs_le]
    norm_num [unitLimits]
    constructor <;> linarith

theorem within_certifies_unitMove : unitMove.within (unitLimits 2 6) ∧ ∀ u, 0 ≤ u → u ≤ 1 → ∀ i,
    |unitMove.velocity i u| ≤ (unitLimits 2 6).velocity i + 1e-7 + 1e-14 / 1 := by
  obtain ⟨certified, passes⟩ := within_certifies one_pos {} { q := fun _ => 1 } (unitLimits 2 6)
  have ok := passes fun u low high i => unitMove_keeps low high i
  exact ⟨ok, fun u low high i => (certified ok u low high i).2.2.1⟩

end MPCCubic
end Florid.Mpc

end
