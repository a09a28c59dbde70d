import Florid.Cubic

/-! `MPCTrajectory.hpp` over the real numbers: joint states, cubic Hermite segments and
their limits. Every value is finite here, so the `isfinite` checks are not modeled. -/
noncomputable section
namespace Florid.Mpc

/-- The six joints of the arm. -/
abbrev Joint := Fin 6

@[ext] structure MPCJointState where
  q : Joint → ℝ := fun _ => 0
  dq : Joint → ℝ := fun _ => 0

structure MPCJointLimits where
  lower : Joint → ℝ
  upper : Joint → ℝ
  velocity : Joint → ℝ
  acceleration : Joint → ℝ

structure MPCCubic where
  a : Joint → ℝ
  b : Joint → ℝ
  c : Joint → ℝ
  d : Joint → ℝ
  dt : ℝ

namespace MPCCubic

/-- The Hermite segment between two states. -/
def between (first last : MPCJointState) (dt : ℝ) : MPCCubic where
  a i := -2 * (last.q i - first.q i) + dt * (first.dq i + last.dq i)
  b i := 3 * (last.q i - first.q i) - dt * (2 * first.dq i + last.dq i)
  c i := dt * first.dq i
  d i := first.q i
  dt

def position (m : MPCCubic) (i : Joint) (u : ℝ) : ℝ :=
  ((m.a i * u + m.b i) * u + m.c i) * u + m.d i

def velocity (m : MPCCubic) (i : Joint) (u : ℝ) : ℝ :=
  ((3 * m.a i * u + 2 * m.b i) * u + m.c i) / m.dt

/-- The second derivative of the position in time. -/
def acceleration (m : MPCCubic) (i : Joint) (u : ℝ) : ℝ :=
  (6 * m.a i * u + 2 * m.b i) / (m.dt * m.dt)

/-- `std::clamp` of the normalized time. -/
def phase (m : MPCCubic) (time : ℝ) : ℝ := max 0 (min (time / m.dt) 1)

def sample (m : MPCCubic) (time : ℝ) : MPCJointState :=
  ⟨fun i => m.position i (m.phase time), fun i => m.velocity i (m.phase time)⟩

def positionTolerance : ℝ := 1e-7

/-- Coefficients up to this count as zero in the search for extrema. -/
def coefficientCutoff : ℝ := 1e-15

def positionOk (m : MPCCubic) (limits : MPCJointLimits) (i : Joint) (u : ℝ) : Prop :=
  limits.lower i - positionTolerance ≤ m.position i u ∧
    m.position i u ≤ limits.upper i + positionTolerance

def velocityOk (m : MPCCubic) (limits : MPCJointLimits) (i : Joint) (u : ℝ) : Prop :=
  |m.velocity i u| ≤ limits.velocity i + 1e-7

/-- What `within` asks of one joint. -/
structure JointWithin (m : MPCCubic) (limits : MPCJointLimits) (i : Joint) : Prop where
  positionStart : m.positionOk limits i 0
  positionStop : m.positionOk limits i 1
  velocityStart : m.velocityOk limits i 0
  velocityStop : m.velocityOk limits i 1
  acceleration : max |2 * m.b i| |6 * m.a i + 2 * m.b i| / (m.dt * m.dt) ≤
    limits.acceleration i + 1e-7
  extrema :
    if coefficientCutoff < |m.a i| then
      (0 < -m.b i / (3 * m.a i) → -m.b i / (3 * m.a i) < 1 →
        m.velocityOk limits i (-m.b i / (3 * m.a i))) ∧
      (0 ≤ m.b i * m.b i - 3 * m.a i * m.c i → ∀ sign ∈ ([-1, 1] : List ℝ), ∀ u,
        u = (-m.b i + sign * √(m.b i * m.b i - 3 * m.a i * m.c i)) / (3 * m.a i) →
        0 < u → u < 1 → m.positionOk limits i u)
    else if coefficientCutoff < |m.b i| then
      0 < -m.c i / (2 * m.b i) → -m.c i / (2 * m.b i) < 1 →
        m.positionOk limits i (-m.c i / (2 * m.b i))
    else True

def within (m : MPCCubic) (limits : MPCJointLimits) : Prop :=
  0 < m.dt ∧ ∀ i, m.JointWithin limits i

end MPCCubic

/-- `sampleMPC` for `n + 2` knots. -/
def sampleMPC {n : Nat} (knots : Fin (n + 2) → MPCJointState) (dt time : ℝ) : MPCJointState :=
  let t := max 0 (min time (dt * (n + 1)))
  let i := min ⌊t / dt⌋₊ n
  (MPCCubic.between (knots ⟨i, by omega⟩) (knots ⟨i + 1, by omega⟩) dt).sample (t - i * dt)

/-! ### Bounds -/

namespace MPCCubic
variable {m : MPCCubic} {limits : MPCJointLimits} {i : Joint} {u : ℝ}

theorem phase_nonneg (time : ℝ) : 0 ≤ m.phase time := le_max_left _ _

theorem phase_le_one (time : ℝ) : m.phase time ≤ 1 :=
  max_le zero_le_one (min_le_right _ _)

theorem coefficientCutoff_pos : 0 < coefficientCutoff := by norm_num [coefficientCutoff]

/-- A bound that is kept at every point `within` looks at is kept on the whole segment, up
to the cut-off. -/
theorem position_le {a b c d bound : ℝ} (start : Cubic.value a b c d 0 ≤ bound)
    (stop : Cubic.value a b c d 1 ≤ bound)
    (cubic : coefficientCutoff < |a| → 0 ≤ b * b - 3 * a * c → ∀ sign ∈ ([-1, 1] : List ℝ), ∀ u,
      u = (-b + sign * √(b * b - 3 * a * c)) / (3 * a) → 0 < u → u < 1 →
      Cubic.value a b c d u ≤ bound)
    (quadratic : |a| ≤ coefficientCutoff → coefficientCutoff < |b| → 0 < -c / (2 * b) →
      -c / (2 * b) < 1 → Cubic.value a b c d (-c / (2 * b)) ≤ bound)
    (low : 0 ≤ u) (high : u ≤ 1) : Cubic.value a b c d u ≤ bound + coefficientCutoff := by
  have nonzero {x : ℝ} (large : coefficientCutoff < |x|) : x ≠ 0 :=
    abs_pos.mp (coefficientCutoff_pos.trans large)
  by_cases large : coefficientCutoff < |a|
  · have exact' : Cubic.value a b c d u ≤ bound := by
      refine Cubic.value_le start stop ?_ low high
      intro v after before flat
      obtain ⟨real, plus | minus⟩ := Cubic.slope_eq_zero (nonzero large) flat
      · exact cubic large real 1 (by simp) v (by rw [plus, one_mul]) after before
      · exact cubic large real (-1) (by simp) v (by rw [minus]; ring) after before
    linarith [coefficientCutoff_pos]
  · have small := not_lt.mp large
    by_cases large' : coefficientCutoff < |b|
    · exact Cubic.value_le_of_quadratic small (nonzero large') start stop (quadratic small large')
        low high
    · exact Cubic.value_le_of_linear small (not_lt.mp large') start stop low high

/-- A segment that passes `within` keeps its position limits. -/
theorem JointWithin.position (ok : m.JointWithin limits i) (low : 0 ≤ u) (high : u ≤ 1) :
    limits.lower i - (positionTolerance + coefficientCutoff) ≤ m.position i u ∧
      m.position i u ≤ limits.upper i + (positionTolerance + coefficientCutoff) := by
  have extrema := ok.extrema
  constructor
  · -- the lower limit is an upper limit of the negated curve
    have below : Cubic.value (-m.a i) (-m.b i) (-m.c i) (-m.d i) u ≤
        -(limits.lower i - positionTolerance) + coefficientCutoff := by
      have flip (v : ℝ) (lower : limits.lower i - positionTolerance ≤ m.position i v) :
          Cubic.value (-m.a i) (-m.b i) (-m.c i) (-m.d i) v ≤
            -(limits.lower i - positionTolerance) := by
        rw [Cubic.value_neg]
        exact neg_le_neg lower
      refine position_le (flip 0 ok.positionStart.1) (flip 1 ok.positionStop.1) ?_ ?_ low high
      · intro large real sign member v root after before
        rw [abs_neg] at large
        rw [if_pos large] at extrema
        have disc : -m.b i * -m.b i - 3 * -m.a i * -m.c i = m.b i * m.b i - 3 * m.a i * m.c i := by
          ring
        rw [disc] at real root
        refine flip v (extrema.2 real (-sign) ?_ v ?_ after before).1
        · simp only [List.mem_cons, List.not_mem_nil, or_false] at member ⊢
          rcases member with rfl | rfl <;> simp
        · rw [root, mul_neg, ← neg_div_neg_eq]
          ring_nf
      · intro small large after before
        rw [abs_neg] at small large
        rw [if_neg (not_lt.mpr small), if_pos large] at extrema
        have same : - -m.c i / (2 * -m.b i) = -m.c i / (2 * m.b i) := by
          rw [mul_neg, div_neg, neg_neg, neg_div]
        rw [same] at after before ⊢
        exact flip _ (extrema after before).1
    rw [Cubic.value_neg] at below
    change -m.position i u ≤ _ at below
    linarith
  · have above : Cubic.value (m.a i) (m.b i) (m.c i) (m.d i) u ≤
        limits.upper i + positionTolerance + coefficientCutoff := by
      refine position_le ok.positionStart.2 ok.positionStop.2 ?_ ?_ low high
      · intro large real sign member v root after before
        rw [if_pos large] at extrema
        exact (extrema.2 real sign member v root after before).2
      · intro small large after before
        rw [if_neg (not_lt.mpr small), if_pos large] at extrema
        exact (extrema after before).2
    rw [← add_assoc]
    exact above

theorem within.sample (ok : m.within limits) (time : ℝ) (i : Joint) :
    limits.lower i - (positionTolerance + coefficientCutoff) ≤ (m.sample time).q i ∧
      (m.sample time).q i ≤ limits.upper i + (positionTolerance + coefficientCutoff) :=
  (ok.2 i).position (phase_nonneg time) (phase_le_one time)

end MPCCubic

/-! ### Continuity -/

/-- Position and velocity are continuous in time. -/
def Smooth (f : ℝ → MPCJointState) : Prop :=
  ∀ i, Continuous (fun t => (f t).q i) ∧ Continuous (fun t => (f t).dq i)

theorem Smooth.comp {f : ℝ → MPCJointState} (smooth : Smooth f) {g : ℝ → ℝ} (time : Continuous g) :
    Smooth (fun t => f (g t)) :=
  fun i => ⟨(smooth i).1.comp time, (smooth i).2.comp time⟩

namespace MPCCubic
variable {first last : MPCJointState} {dt : ℝ}

theorem sample_smooth (m : MPCCubic) : Smooth m.sample := by
  have phase : Continuous m.phase := by
    unfold MPCCubic.phase
    fun_prop
  intro i
  constructor
  · change Continuous fun t => m.position i (m.phase t)
    unfold position
    fun_prop
  · change Continuous fun t => m.velocity i (m.phase t)
    unfold velocity
    fun_prop

theorem between_start (nonzero : dt ≠ 0) : (between first last dt).sample 0 = first := by
  have phase : (between first last dt).phase 0 = 0 := by simp [MPCCubic.phase]
  ext i
  · simp only [sample, phase, position, mul_zero, zero_add]
    rfl
  · simp only [sample, phase, velocity, mul_zero, zero_add]
    exact mul_div_cancel_left₀ _ nonzero

theorem between_stop (positive : 0 < dt) : (between first last dt).sample dt = last := by
  have phase : (between first last dt).phase dt = 1 := by
    simp [MPCCubic.phase, between, div_self positive.ne']
  ext i
  · simp only [sample, phase, position]
    simp only [between]
    ring
  · simp only [sample, phase, velocity]
    simp only [between]
    field_simp
    ring

end MPCCubic

section Knots
variable {n : Nat} {knots : Fin (n + 2) → MPCJointState} {dt : ℝ}

/-- The clamped time of `sampleMPC`. -/
def planTime (n : Nat) (dt time : ℝ) : ℝ := max 0 (min time (dt * (n + 1)))

/-- The segment that starts at knot `i`. -/
def segment (knots : Fin (n + 2) → MPCJointState) (dt : ℝ) (i : Nat) (bound : i ≤ n) : MPCCubic :=
  .between (knots ⟨i, by omega⟩) (knots ⟨i + 1, by omega⟩) dt

theorem sampleMPC_eq (time : ℝ) : sampleMPC knots dt time =
    (segment knots dt (min ⌊planTime n dt time / dt⌋₊ n) (min_le_right _ _)).sample
      (planTime n dt time - (min ⌊planTime n dt time / dt⌋₊ n : ℕ) * dt) := rfl

theorem segment_at {i j : Nat} (same : i = j) (bound : i ≤ n) (time : ℝ) :
    (segment knots dt i bound).sample (time - i * dt) =
      (segment knots dt j (same ▸ bound)).sample (time - j * dt) := by
  subst same
  rfl

/-- On the closed interval of a segment the plan follows it, also at the knots, where the
neighbour takes over. -/
theorem sampleMPC_segment (positive : 0 < dt) {i : Nat} (bound : i ≤ n) {time : ℝ}
    (after : i * dt ≤ planTime n dt time) (before : planTime n dt time ≤ (i + 1) * dt) :
    sampleMPC knots dt time = (segment knots dt i bound).sample (planTime n dt time - i * dt) := by
  rw [sampleMPC_eq]
  have low : (i : ℝ) ≤ planTime n dt time / dt := (le_div_iff₀ positive).mpr after
  rcases before.lt_or_eq with inside | stop
  · have high : planTime n dt time / dt < i + 1 := (div_lt_iff₀ positive).mpr inside
    have floor : ⌊planTime n dt time / dt⌋₊ = i := (Nat.floor_eq_iff ((Nat.cast_nonneg i).trans low)).mpr
      ⟨low, high⟩
    exact segment_at (by omega) _ _
  · have ratio : planTime n dt time / dt = ((i + 1 : ℕ) : ℝ) := by
      rw [stop, mul_div_assoc, div_self positive.ne', mul_one]
      push_cast
      rfl
    have floor : ⌊planTime n dt time / dt⌋₊ = i + 1 := by rw [ratio, Nat.floor_natCast]
    rcases bound.eq_or_lt with last | inner
    · exact segment_at (by omega) _ _
    · have next : min ⌊planTime n dt time / dt⌋₊ n = i + 1 := by omega
      have first : planTime n dt time - ((i + 1 : ℕ) : ℝ) * dt = 0 := by
        rw [stop]
        push_cast
        ring
      have final : planTime n dt time - (i : ℝ) * dt = dt := by
        rw [stop]
        ring
      rw [segment_at next, first, final, segment, segment, MPCCubic.between_start positive.ne',
        MPCCubic.between_stop positive]

theorem planTime_mem (positive : 0 < dt) (time : ℝ) :
    0 ≤ planTime n dt time ∧ planTime n dt time ≤ (n + 1) * dt := by
  have horizon : 0 ≤ dt * (n + 1) := by positivity
  refine ⟨le_max_left _ _, ?_⟩
  rw [mul_comm]
  exact max_le horizon (min_le_right _ _)

/-- The plan is smooth at every knot and stays put outside its horizon. -/
theorem sampleMPC_smooth (positive : 0 < dt) : Smooth (sampleMPC knots dt) := by
  have clamp : Continuous (planTime n dt) := by
    unfold planTime
    fun_prop
  let part (i : Fin (n + 1)) : Set ℝ :=
    {t | (i : ℝ) * dt ≤ planTime n dt t ∧ planTime n dt t ≤ ((i : ℝ) + 1) * dt}
  have closed (i : Fin (n + 1)) : IsClosed (part i) :=
    (isClosed_le continuous_const clamp).inter (isClosed_le clamp continuous_const)
  have cover : ⋃ i, part i = Set.univ := by
    refine Set.eq_univ_of_forall fun t => Set.mem_iUnion.mpr ?_
    obtain ⟨low, high⟩ := planTime_mem (n := n) positive t
    by_cases last : planTime n dt t < n * dt
    · have ratio : 0 ≤ planTime n dt t / dt := div_nonneg low positive.le
      have below : planTime n dt t / dt < n := (div_lt_iff₀ positive).mpr last
      refine ⟨⟨⌊planTime n dt t / dt⌋₊, ?_⟩, ?_, ?_⟩
      · exact Nat.lt_succ_of_lt ((Nat.floor_lt ratio).mpr below)
      · exact (le_div_iff₀ positive).mp (Nat.floor_le ratio)
      · exact ((div_lt_iff₀ positive).mp (Nat.lt_floor_add_one _)).le
    · exact ⟨⟨n, Nat.lt_succ_self n⟩, not_lt.mp last, high⟩
  have piece (i : Fin (n + 1)) : Smooth fun t =>
      (segment knots dt i (Nat.lt_succ_iff.mp i.isLt)).sample (planTime n dt t - i * dt) :=
    ((MPCCubic.sample_smooth _).comp (continuous_sub_right _)).comp clamp
  have agrees (i : Fin (n + 1)) (t : ℝ) (inside : t ∈ part i) : sampleMPC knots dt t =
      (segment knots dt i (Nat.lt_succ_iff.mp i.isLt)).sample (planTime n dt t - i * dt) :=
    sampleMPC_segment positive (Nat.lt_succ_iff.mp i.isLt) inside.1 inside.2
  intro j
  constructor
  · refine (locallyFinite_of_finite part).continuous cover closed fun i => ?_
    refine ((piece i) j).1.continuousOn.congr fun t inside => ?_
    simp only [agrees i t inside]
  · refine (locallyFinite_of_finite part).continuous cover closed fun i => ?_
    refine ((piece i) j).2.continuousOn.congr fun t inside => ?_
    simp only [agrees i t inside]

end Knots
end Florid.Mpc

end
