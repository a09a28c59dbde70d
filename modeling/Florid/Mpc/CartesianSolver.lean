import Florid.FloatValue
import Mathlib.Data.List.FinRange
import Mathlib.Data.Fin.VecNotation

/-! `CartesianMPCSolver`: what it accepts of the optimal control solver behind its traits. The
answers of acados (its status, the state it commands, the whole trajectory) are inputs, NaN and
infinities included; how `float` and `double` round is a parameter, of which nothing is assumed
but that two numbers have a sum. -/
namespace Florid.Mpc.Cartesian
open FloatValue

abbrev Dof := Fin 6

/-- The model's limits; a joint's range is not empty, and it may move. -/
structure MPCTraits where
  horizon : ℕ
  dt : ℚ
  qLower : Dof → ℚ
  qUpper : Dof → ℚ
  dqLimit : Dof → ℚ
  range : ∀ i, qLower i ≤ qUpper i
  speed : ∀ i, 0 < dqLimit i

/-- Arithmetic of `float`, and the sum and difference of `double`. -/
structure Arithmetic where
  add : FloatValue → FloatValue → FloatValue
  sub : FloatValue → FloatValue → FloatValue
  mul : FloatValue → FloatValue → FloatValue
  div : FloatValue → FloatValue → FloatValue
  addDouble : FloatValue → FloatValue → FloatValue
  subDouble : FloatValue → FloatValue → FloatValue
  sum_number : ∀ x y : ℚ, addDouble (finite x) (finite y) ≠ nan

/-- `1e-4f`, `1e-5f` and `1e-5`. -/
def floatE4 : ℚ := 13743895 / 137438953472
def floatE5 : ℚ := 2748779 / 274877906944
def doubleE5 : ℚ := 5902958103587057 / 590295810358705651712

inductive ExceptionType where
  | command
  | control
deriving DecidableEq, Repr

structure Thrown where
  type : ExceptionType
  message : String
deriving DecidableEq, Repr

structure MPCConfig where
  currentLimitNorm : FloatValue := finite (5033165 / 16777216)
  velocityExcitation : FloatValue := finite (5033165 / 4194304)

structure JointPVT where
  q : Dof → FloatValue := fun _ => finite 0
  dqLimit : Dof → FloatValue := fun _ => finite 0
  currentLimitNorm : Dof → FloatValue := fun _ => finite 0

structure MPCJointState where
  q : Dof → FloatValue := fun _ => finite 0
  dq : Dof → FloatValue := fun _ => finite 0

/-- What acados does in one call of `solve`, and what is read back from it: `getOptimalQ`,
`getOptimalDq` and, stage by stage, `getState`. -/
structure Outcome (t : MPCTraits) where
  gravityFailed : Bool := false
  status : ℤ
  optimalQ : Dof → FloatValue
  optimalDq : Dof → FloatValue
  state : Fin (t.horizon + 1) → Fin 12 → FloatValue

/-- `m_status`, and `warm_started` of the capsule. -/
structure CartesianMPCSolver where
  config : MPCConfig
  status : ℤ := -1
  warmStarted : Bool := false

abbrev Prediction (t : MPCTraits) := Fin (t.horizon + 1) → MPCJointState

namespace CartesianMPCSolver

/-- The constructor; a capsule that cannot be created throws or is missing. -/
def construct (config : MPCConfig) (capsule : Except Thrown Bool) :
    Except Thrown CartesianMPCSolver :=
  if !config.currentLimitNorm.isFinite || !(finite 0).less config.currentLimitNorm ||
      (finite 1).less config.currentLimitNorm || !config.velocityExcitation.isFinite ||
      config.velocityExcitation.less (finite 1) then
    .error ⟨.command, "Invalid MPC current limit or velocity excitation"⟩
  else
    match capsule with
    | .error thrown => .error thrown
    | .ok false => .error ⟨.control, "MPC initialization returned no solver"⟩
    | .ok true => .ok { config }

def resetWarmStart (s : CartesianMPCSolver) : CartesianMPCSolver := { s with warmStarted := false }

/-- The arguments of `solve` and `predict`; a null pointer is missing. -/
structure Arguments where
  q : Option (Dof → FloatValue)
  dq : Option (Dof → FloatValue)
  target : Option (Fin 16 → FloatValue)

/-- The checks of `solve` on its arguments: the measured position of valid ones. -/
def Arguments.check (ar : Arithmetic) (x : Arguments) : Except Thrown (Dof → FloatValue) :=
  match x.q, x.dq, x.target with
  | some q, some dq, some target =>
    if ∃ i, !(q i).isFinite || !(dq i).isFinite then
      .error ⟨.command, "MPC joint state must be finite"⟩
    else if ∃ i, !(target i).isFinite then
      .error ⟨.command, "MPC target must be finite"⟩
    else if (finite floatE5).less (target 3).abs || (finite floatE5).less (target 7).abs ||
        (finite floatE5).less (target 11).abs ||
        (finite floatE5).less (ar.sub (target 15) (finite 1)).abs then
      .error ⟨.command, "MPC target must be a column-major homogeneous transform"⟩
    else .ok q
  | _, _, _ => .error ⟨.command, "MPC inputs must not be null"⟩

/-- The values of a hold, at a finite position. -/
def hold (t : MPCTraits) (config : MPCConfig) (q : Dof → FloatValue) : JointPVT where
  q
  dqLimit i := finite (t.dqLimit i)
  currentLimitNorm _ := config.currentLimitNorm

def holdPosition (t : MPCTraits) (config : MPCConfig) (q : Option (Dof → FloatValue)) :
    Except Thrown JointPVT :=
  match q with
  | none => .error ⟨.command, "MPC hold state must not be null"⟩
  | some q =>
    if ∃ i, !(q i).isFinite then .error ⟨.command, "MPC hold state must be finite"⟩
    else .ok (hold t config q)

section Solve
variable (t : MPCTraits) (ar : Arithmetic) (config : MPCConfig) (o : Outcome t)

/-- The commanded state of a joint is not a number, or out of bounds. -/
def commandRejected (q : FloatValue) (i : Dof) : Bool :=
  !q.isFinite || !(o.optimalDq i).isFinite ||
    q.less (ar.sub (finite (t.qLower i)) (finite floatE4)) ||
    (ar.add (finite (t.qUpper i)) (finite floatE4)).less q ||
    (ar.add (finite (t.dqLimit i)) (finite floatE4)).less (o.optimalDq i).abs

/-- The joint loop of `solve` over what is left of the joints; `none` when one is rejected. -/
def commandJoints (measured : Dof → FloatValue) : List Dof → JointPVT → Option JointPVT
  | [], out => some out
  | i :: rest, out =>
    if commandRejected t ar o (out.q i) i then none
    else
      let q := (out.q i).clamp (finite (t.qLower i)) (finite (t.qUpper i))
      let speed := (o.optimalDq i).abs.max
        (ar.div (ar.sub q (measured i)).abs (finite t.dt))
      commandJoints measured rest {
        q := Function.update out.q i q
        dqLimit := Function.update out.dqLimit i ((finite (t.dqLimit i)).min
          ((ar.mul speed config.velocityExcitation).max (finite floatE4)))
        currentLimitNorm := Function.update out.currentLimitNorm i config.currentLimitNorm }

end Solve

variable (t : MPCTraits) (ar : Arithmetic)

/-- `solve` of the traits keeps the warm start of a success only. -/
def run (s : CartesianMPCSolver) (status : ℤ) : CartesianMPCSolver :=
  { s with status, warmStarted := status == 0 }

def solve (s : CartesianMPCSolver) (x : Arguments) (o : Outcome t) :
    CartesianMPCSolver × Except Thrown JointPVT :=
  match x.check ar with
  | .error thrown => (s, .error thrown)
  | .ok q =>
    if o.gravityFailed then (s, .error ⟨.control, "MPC gravity evaluation failed"⟩)
    else
      let s := s.run o.status
      if o.status ≠ 0 then (s, holdPosition t s.config (some q))
      else
        match commandJoints t ar s.config o q (List.finRange 6) { q := o.optimalQ } with
        | none => ({ s with status := -2 }.resetWarmStart, holdPosition t s.config (some q))
        | some out => (s, .ok out)

/-- Where a state has a joint's position and velocity. -/
def positionAt (i : Dof) : Fin 12 := Fin.castAdd 6 i
def velocityAt (i : Dof) : Fin 12 := Fin.natAdd 6 i

/-- A joint of a predicted state is not a number, or out of bounds. -/
def stateRejected (state : Fin 12 → FloatValue) (i : Dof) : Bool :=
  !(state (positionAt i)).isFinite || !(state (velocityAt i)).isFinite ||
    (state (positionAt i)).less
      (ar.subDouble (finite (t.qLower i)) (finite doubleE5)) ||
    (ar.addDouble (finite (t.qUpper i)) (finite doubleE5)).less
      (state (positionAt i)) ||
    (ar.addDouble (finite (t.dqLimit i)) (finite doubleE5)).less (state (velocityAt i)).abs

/-- The joint loop of `predict`: whether it came to its end, and what it wrote. -/
def readJoints (state : Fin 12 → FloatValue) : List Dof → MPCJointState → Bool × MPCJointState
  | [], knot => (true, knot)
  | i :: rest, knot =>
    if stateRejected t ar state i then (false, knot)
    else readJoints state rest {
      q := Function.update knot.q i ((state (positionAt i)).clamp
        (finite (t.qLower i)) (finite (t.qUpper i)))
      dq := Function.update knot.dq i (state (velocityAt i)) }

/-- The stage loop of `predict`. -/
def readStages (o : Outcome t) :
    List (Fin (t.horizon + 1)) → Prediction t → Bool × Prediction t
  | [], out => (true, out)
  | stage :: rest, out =>
    let (read, knot) := readJoints t ar (o.state stage) (List.finRange 6) (out stage)
    if read then readStages o rest (Function.update out stage knot)
    else (false, Function.update out stage knot)

/-- `predict` with its output argument. -/
def predict (s : CartesianMPCSolver) (x : Arguments) (o : Outcome t) (out : Prediction t) :
    CartesianMPCSolver × Except Thrown Bool × Prediction t :=
  match s.solve t ar x o with
  | (s, .error thrown) => (s, .error thrown, out)
  | (s, .ok _) =>
    if s.status ≠ 0 then (s, .ok false, out)
    else
      match readStages t ar o (List.finRange (t.horizon + 1)) out with
      | (true, out) => (s, .ok true, out)
      | (false, out) => ({ s with status := -2 }.resetWarmStart, .ok false, out)

end CartesianMPCSolver

/-! ### What is accepted -/

/-- A command that a joint may follow: within its range, with a positive speed ceiling. -/
def Followable (t : MPCTraits) (command : JointPVT) (i : Dof) : Prop :=
  (∃ q, command.q i = finite q ∧ t.qLower i ≤ q ∧ q ≤ t.qUpper i) ∧
    ∃ limit, command.dqLimit i = finite limit ∧ 0 < limit ∧ limit ≤ t.dqLimit i

/-- A predicted state of a joint that is finite and within bounds. -/
def Predicted (t : MPCTraits) (ar : Arithmetic) (knot : MPCJointState) (i : Dof) : Prop :=
  (∃ q, knot.q i = finite q ∧ t.qLower i ≤ q ∧ q ≤ t.qUpper i) ∧
    (knot.dq i).isFinite = true ∧
      AtMost (knot.dq i).abs (ar.addDouble (finite (t.dqLimit i)) (finite doubleE5))

theorem floatE4_pos : 0 < floatE4 := by norm_num [floatE4]

namespace CartesianMPCSolver
variable {t : MPCTraits} {ar : Arithmetic}

section Command
variable {config : MPCConfig} {o : Outcome t} {measured : Dof → FloatValue}

/-- A joint that is not rejected gets a command it may follow. -/
theorem commandRejected_clamp {q : FloatValue} {i : Dof}
    (kept : commandRejected t ar o q i = false) :
    ∃ r, q.clamp (finite (t.qLower i)) (finite (t.qUpper i)) = finite r ∧
      t.qLower i ≤ r ∧ r ≤ t.qUpper i := by
  simp only [commandRejected, Bool.or_eq_false_iff, Bool.not_eq_false'] at kept
  obtain ⟨x, rfl⟩ := isFinite_iff.mp kept.1.1.1.1
  exact clamp_finite (t.range i)

/-- The loop leaves the joints it does not come to alone, and makes the others followable. -/
theorem commandJoints_spec {joints : List Dof} (distinct : joints.Nodup) {out after : JointPVT}
    (ended : commandJoints t ar config o measured joints out = some after) :
    (∀ i ∈ joints, Followable t after i) ∧
      ∀ i ∉ joints, after.q i = out.q i ∧ after.dqLimit i = out.dqLimit i := by
  induction joints generalizing out with
  | nil =>
    cases ended
    exact ⟨by simp, fun i _ => ⟨rfl, rfl⟩⟩
  | cons i rest ih =>
    obtain ⟨fresh, distinct⟩ := List.nodup_cons.mp distinct
    rw [commandJoints] at ended
    split at ended
    · cases ended
    · rename_i kept
      obtain ⟨followed, untouched⟩ := ih distinct ended
      refine ⟨fun j member => ?_, fun j outside => ?_⟩
      · rcases List.mem_cons.mp member with rfl | later
        · obtain ⟨q, limit⟩ := untouched j fresh
          refine ⟨?_, ?_⟩
          · rw [q]
            dsimp only
            rw [Function.update_self]
            exact commandRejected_clamp (by simpa using kept)
          · rw [limit]
            dsimp only
            rw [Function.update_self]
            exact min_max_pos (t.speed j) floatE4_pos _
        · exact followed j later
      · obtain ⟨apart, outside⟩ := not_or.mp (mt List.mem_cons.mpr outside)
        obtain ⟨q, limit⟩ := untouched j outside
        rw [q, limit]
        dsimp only
        rw [Function.update_of_ne apart, Function.update_of_ne apart]
        exact ⟨rfl, rfl⟩

end Command

section Prediction
variable {state : Fin 12 → FloatValue}

theorem stateRejected_predicted {i : Dof} {knot : MPCJointState}
    (kept : stateRejected t ar state i = false)
    (q : knot.q i = (state (positionAt i)).clamp (finite (t.qLower i)) (finite (t.qUpper i)))
    (dq : knot.dq i = state (velocityAt i)) : Predicted t ar knot i := by
  simp only [stateRejected, Bool.or_eq_false_iff, Bool.not_eq_false'] at kept
  obtain ⟨⟨⟨⟨position, velocity⟩, -⟩, -⟩, slow⟩ := kept
  refine ⟨?_, dq ▸ velocity, ?_⟩
  · obtain ⟨x, here⟩ := isFinite_iff.mp position
    rw [q, here]
    exact clamp_finite (t.range i)
  · rw [dq]
    refine ⟨?_, ar.sum_number _ _, slow⟩
    obtain ⟨x, here⟩ := isFinite_iff.mp velocity
    rw [here]
    exact fun wrong => by cases wrong

theorem readJoints_spec {joints : List Dof} (distinct : joints.Nodup)
    {knot after : MPCJointState} (ended : readJoints t ar state joints knot = (true, after)) :
    (∀ i ∈ joints, Predicted t ar after i) ∧
      ∀ i ∉ joints, after.q i = knot.q i ∧ after.dq i = knot.dq i := by
  induction joints generalizing knot with
  | nil =>
    cases ended
    exact ⟨by simp, fun i _ => ⟨rfl, rfl⟩⟩
  | cons i rest ih =>
    obtain ⟨fresh, distinct⟩ := List.nodup_cons.mp distinct
    rw [readJoints] at ended
    split at ended
    · cases ended
    · rename_i kept
      obtain ⟨read, untouched⟩ := ih distinct ended
      refine ⟨fun j member => ?_, fun j outside => ?_⟩
      · rcases List.mem_cons.mp member with rfl | later
        · obtain ⟨q, dq⟩ := untouched j fresh
          refine stateRejected_predicted (by simpa using kept) (q.trans ?_) (dq.trans ?_)
          · exact Function.update_self ..
          · exact Function.update_self ..
        · exact read j later
      · obtain ⟨apart, outside⟩ := not_or.mp (mt List.mem_cons.mpr outside)
        obtain ⟨q, dq⟩ := untouched j outside
        exact ⟨q.trans (Function.update_of_ne apart ..), dq.trans (Function.update_of_ne apart ..)⟩

theorem readStages_spec {o : Outcome t} {stages : List (Fin (t.horizon + 1))}
    (distinct : stages.Nodup) {out after : Prediction t}
    (ended : readStages t ar o stages out = (true, after)) :
    (∀ k ∈ stages, ∀ i, Predicted t ar (after k) i) ∧ ∀ k ∉ stages, after k = out k := by
  induction stages generalizing out with
  | nil =>
    cases ended
    exact ⟨by simp, fun k _ => rfl⟩
  | cons k rest ih =>
    obtain ⟨fresh, distinct⟩ := List.nodup_cons.mp distinct
    rw [readStages] at ended
    cases read : readJoints t ar (o.state k) (List.finRange 6) (out k) with
    | mk ok knot =>
      rw [read] at ended
      cases ok with
      | false => cases ended
      | true =>
        obtain ⟨rows, untouched⟩ := ih distinct ended
        refine ⟨fun j member i => ?_, fun j outside => ?_⟩
        · rcases List.mem_cons.mp member with rfl | later
          · rw [untouched j fresh, Function.update_self]
            exact (readJoints_spec (List.nodup_finRange 6) read).1 i (List.mem_finRange i)
          · exact rows j later i
        · obtain ⟨apart, outside⟩ := not_or.mp (mt List.mem_cons.mpr outside)
          rw [untouched j outside, Function.update_of_ne apart]

end Prediction

/-! ### Every outcome -/

section Outcomes
variable {s : CartesianMPCSolver} {x : Arguments} {o : Outcome t} {q : Dof → FloatValue}

theorem check_finite (valid : x.check ar = .ok q) (i : Dof) : (q i).isFinite = true := by
  unfold Arguments.check at valid
  split at valid
  · split at valid
    · cases valid
    · rename_i finite
      split at valid
      · cases valid
      · split at valid
        · cases valid
        · cases valid
          by_contra other
          exact finite ⟨i, by simp [other]⟩
  · cases valid

theorem holdPosition_ok (finite : ∀ i, (q i).isFinite = true) (config : MPCConfig) :
    holdPosition t config (some q) = .ok (hold t config q) := by
  rw [holdPosition, if_neg]
  rintro ⟨i, other⟩
  simp [finite i] at other

/-- The result of `solve`: a command to follow, or a hold with a nonzero status. -/
structure Solved (t : MPCTraits) (q : Dof → FloatValue) (s : CartesianMPCSolver)
    (command : JointPVT) : Prop where
  success : s.status = 0 → ∀ i, Followable t command i
  failure : s.status ≠ 0 → command = hold t s.config q ∧ s.warmStarted = false

theorem solve_solved (valid : x.check ar = .ok q) :
    (o.gravityFailed = true ∧ (s.solve t ar x o).2 = .error ⟨.control, "MPC gravity evaluation failed"⟩) ∨
      ∃ after command, s.solve t ar x o = (after, .ok command) ∧ Solved t q after command := by
  have holds := holdPosition_ok (t := t) (check_finite valid)
  unfold solve
  rw [valid]
  dsimp only
  cases gravity : o.gravityFailed with
  | true => exact .inl ⟨rfl, rfl⟩
  | false =>
    right
    rw [if_neg (by simp)]
    split
    · rename_i failed
      rw [holds]
      refine ⟨_, _, rfl, fun zero => absurd zero failed, fun _ => ⟨rfl, ?_⟩⟩
      simpa [run] using failed
    · rename_i succeeded
      cases accepted : commandJoints t ar (s.run o.status).config o q (List.finRange 6)
          { q := o.optimalQ } with
      | none =>
        rw [holds]
        refine ⟨_, _, rfl, fun zero => ?_, fun _ => ⟨rfl, rfl⟩⟩
        cases zero
      | some out =>
        refine ⟨_, _, rfl, fun _ i => ?_, fun failed => absurd (not_not.mp succeeded) failed⟩
        exact (commandJoints_spec (List.nodup_finRange 6) accepted).1 i (List.mem_finRange i)

/-- The result of `predict`, with what it wrote. -/
structure Foreseen (t : MPCTraits) (ar : Arithmetic) (s : CartesianMPCSolver) (answer : Bool)
    (out : Prediction t) : Prop where
  verdict : answer = true ↔ s.status = 0
  knots : answer = true → ∀ k i, Predicted t ar (out k) i
  reset : s.status ≠ 0 → s.warmStarted = false

theorem Foreseen.refused {out : Prediction t} (failed : s.status ≠ 0)
    (reset : s.warmStarted = false) : Foreseen t ar s false out where
  verdict := by simpa using failed
  knots wrong := by cases wrong
  reset _ := reset

theorem predict_foreseen (valid : x.check ar = .ok q) (out : Prediction t) :
    o.gravityFailed = true ∧ (∃ thrown, (s.predict t ar x o out).2.1 = .error thrown) ∨
      ∃ after answer written, s.predict t ar x o out = (after, .ok answer, written) ∧
        Foreseen t ar after answer written := by
  unfold predict
  rcases solve_solved (s := s) (o := o) valid with ⟨gravity, thrown⟩ | ⟨after, command, solved, facts⟩
  · refine .inl ⟨gravity, ?_⟩
    cases result : s.solve t ar x o with
    | mk after answer =>
      rw [result] at thrown
      obtain rfl : answer = _ := thrown
      exact ⟨_, rfl⟩
  · right
    rw [solved]
    dsimp only
    split
    · rename_i failed
      exact ⟨_, _, _, rfl, .refused failed (facts.failure failed).2⟩
    · rename_i succeeded
      have zero := not_not.mp succeeded
      cases read : readStages t ar o (List.finRange (t.horizon + 1)) out with
      | mk ok written =>
        cases ok with
        | true =>
          refine ⟨_, _, _, rfl, ⟨fun _ => zero, fun _ => rfl⟩, fun _ k => ?_,
            fun failed => absurd zero failed⟩
          exact (readStages_spec (List.nodup_finRange _) read).1 k (List.mem_finRange k)
        | false => exact ⟨_, _, _, rfl, .refused (by simp [resetWarmStart]) rfl⟩

/-- Whatever acados answers, valid arguments get a followable command with status 0 or a hold
at the measured position with another status; a prediction counts just when the status is 0,
and is then finite and within bounds throughout. No failure keeps the warm start. Only a
failed gravity evaluation throws. -/
theorem solver_outcomes (t : MPCTraits) (ar : Arithmetic) (s : CartesianMPCSolver) (x : Arguments)
    (o : Outcome t) (out : Prediction t) (valid : x.check ar = .ok q) :
    (o.gravityFailed = true ∨ ∃ after command, s.solve t ar x o = (after, .ok command) ∧
      Solved t q after command) ∧
    (o.gravityFailed = true ∨ ∃ after answer written,
      s.predict t ar x o out = (after, .ok answer, written) ∧
        Foreseen t ar after answer written) :=
  ⟨(solve_solved valid).imp And.left id, (predict_foreseen valid out).imp And.left id⟩

end Outcomes

end CartesianMPCSolver

/-- The traits of the arm that the repository has a model of. -/
def WillowMPCTraits : MPCTraits where
  horizon := 5
  dt := 5368709 / 268435456
  qLower := ![-13170115 / 4194304, 0, 0, -5452595 / 4194304, -13170115 / 8388608,
    -13170115 / 8388608]
  qUpper := ![13170115 / 4194304, 13170115 / 4194304, 13170115 / 4194304, 5452595 / 4194304,
    13170115 / 8388608, 13170115 / 8388608]
  dqLimit := ![3271557 / 262144, 7851737 / 2097152, 7851737 / 2097152, 3271557 / 262144,
    3271557 / 262144, 3271557 / 262144]
  range := by decide +kernel
  speed := by decide +kernel

/-- An operation that does not round. -/
def unrounded (op : ℚ → ℚ → ℚ) : FloatValue → FloatValue → FloatValue
  | finite x, finite y => finite (op x y)
  | _, _ => nan

def unroundedArithmetic : Arithmetic where
  add := unrounded (· + ·)
  sub := unrounded (· - ·)
  mul := unrounded (· * ·)
  div := unrounded (· / ·)
  addDouble := unrounded (· + ·)
  subDouble := unrounded (· - ·)
  sum_number x y := by simp [unrounded]

/-- An arm at rest, one radian from zero in the second joint, asked to stay where it is. -/
def atRest : CartesianMPCSolver.Arguments where
  q := some fun i => if i = 1 then finite 1 else finite 0
  dq := some fun _ => finite 0
  target := some fun i => if i = 15 then finite 1 else finite 0

/-- A solution whose last stage is not a number. -/
def brokenEnd : Outcome WillowMPCTraits where
  status := 0
  optimalQ i := if i = 1 then finite 1 else finite 0
  optimalDq _ := finite 0
  state k i := if k = 5 then nan else if i = 1 then finite 1 else finite 0

def unsolved : CartesianMPCSolver := { config := {} }

/-- The command of that solution is followed, its prediction is not. -/
theorem solver_outcomes_brokenEnd :
    (∃ after command, unsolved.solve WillowMPCTraits unroundedArithmetic atRest brokenEnd =
      (after, .ok command) ∧ ∀ i, Followable WillowMPCTraits command i) ∧
    ∃ after written, unsolved.predict WillowMPCTraits unroundedArithmetic atRest brokenEnd
      (fun _ => {}) = (after, .ok false, written) ∧ after.warmStarted = false := by
  have accepted : (atRest.check unroundedArithmetic).toBool = true := by decide +kernel
  obtain ⟨q, valid⟩ : ∃ q, atRest.check unroundedArithmetic = .ok q := by
    cases checked : atRest.check unroundedArithmetic with
    | error thrown =>
      rw [checked] at accepted
      cases accepted
    | ok q => exact ⟨q, rfl⟩
  obtain ⟨solved, predicted⟩ := CartesianMPCSolver.solver_outcomes WillowMPCTraits
    unroundedArithmetic unsolved atRest brokenEnd (fun _ => {}) valid
  have evaluated : ¬brokenEnd.gravityFailed = true := by decide
  obtain ⟨after, command, solves, facts⟩ := solved.resolve_left evaluated
  obtain ⟨last, answer, written, predicts, foreseen⟩ := predicted.resolve_left evaluated
  have zero : (unsolved.solve WillowMPCTraits unroundedArithmetic atRest brokenEnd).1.status = 0 := by
    decide +kernel
  have negative : (unsolved.predict WillowMPCTraits unroundedArithmetic atRest brokenEnd
      (fun _ => {})).1.status = -2 := by
    decide +kernel
  rw [solves] at zero
  rw [predicts] at negative
  refine ⟨⟨after, command, solves, facts.success zero⟩, last, written, ?_, ?_⟩
  · have refused : answer = false := by
      by_contra other
      have := foreseen.verdict.mp (by simpa using other)
      rw [this] at negative
      cases negative
    rw [predicts, refused]
  · exact foreseen.reset (by rw [negative]; decide)

end Florid.Mpc.Cartesian
