import Florid.Mpc.Trajectory
import Florid.Transition

/-! `MPCSession::outputLoop`, one iteration a step. Clock readings, the plan mailbox, the
target time, measurements, stop requests and what the send and status callbacks do are
inputs; the readings of the steady clock never decrease. Times are in nanoseconds. The
status counters are left out. -/
noncomputable section
namespace Florid.Mpc
open Transition

def milliseconds (n : ℤ) : ℤ := n * 1000000

/-- Of a duration in nanoseconds. -/
def seconds (duration : ℝ) : ℝ := duration / 1000000000

/-- Timeouts in milliseconds. -/
structure MPCControlConfig where
  currentLimitNorm : ℝ := 0.3
  velocityExcitation : ℝ := 1.2
  maxJointVelocity : ℝ := 1
  maxJointAcceleration : ℝ := 20
  maxTrackingError : ℝ := 0.15
  stateTimeout : ℤ := 40
  targetTimeout : ℤ := 200
  planTimeout : ℤ := 60
  outputLatenessLimit : ℤ := 10

def planningPeriod : ℤ := milliseconds 20
def outputPeriod : ℤ := milliseconds 2

/-- What `validateConfig` accepts. -/
structure MPCControlConfig.Valid (c : MPCControlConfig) : Prop where
  current : 0 < c.currentLimitNorm ∧ c.currentLimitNorm ≤ 1
  excitation : 1 ≤ c.velocityExcitation
  velocity : 0 < c.maxJointVelocity
  acceleration : 0 < c.maxJointAcceleration
  tracking : 0 < c.maxTrackingError
  state : outputPeriod < milliseconds c.stateTimeout
  target : planningPeriod < milliseconds c.targetTimeout
  plan : planningPeriod < milliseconds c.planTimeout ∧ c.planTimeout ≤ 80
  lateness : outputPeriod ≤ milliseconds c.outputLatenessLimit ∧
    c.outputLatenessLimit < c.planTimeout

namespace WillowMPCTraits

def qLower : Joint → ℝ := ![-3.14, 0, 0, -1.3, -1.57, -1.57]
def qUpper : Joint → ℝ := ![3.14, 3.14, 3.14, 1.3, 1.57, 1.57]
def dqLimit : Joint → ℝ := ![12.48, 3.744, 3.744, 12.48, 12.48, 12.48]

end WillowMPCTraits

/-- The limits the constructor derives. -/
def MPCControlConfig.limits (c : MPCControlConfig) : MPCJointLimits where
  lower := WillowMPCTraits.qLower
  upper := WillowMPCTraits.qUpper
  velocity i := min c.maxJointVelocity (WillowMPCTraits.dqLimit i)
  acceleration _ := c.maxJointAcceleration

inductive MPCStopReason where
  | none | stopped | motionFinished | staleState | staleTarget | stalePlan | outputDeadline
  | invalidState | invalidTrajectory | trackingError | transport | internalError

structure MPCMeasurement where
  q : Joint → ℝ
  dq : Joint → ℝ
  errors : Nat := 0
  received : ℤ
  connected : Bool := true

structure MPCPlan where
  knots : Fin 6 → MPCJointState := fun _ => {}
  origin : ℤ := 0
  generation : Nat := 0

def MPCPlan.dt : ℝ := 0.020

/-- The segment between two neighbouring knots. -/
def MPCPlan.segment (p : MPCPlan) (i : Fin 5) : MPCCubic :=
  .between (p.knots i.castSucc) (p.knots i.succ) MPCPlan.dt

structure JointPVT where
  q : Joint → ℝ
  dqLimit : Joint → ℝ
  currentLimitNorm : Joint → ℝ

open Classical in
/-- `validMeasurement`: the fault it raises, if any. -/
def MPCMeasurement.fault (c : MPCControlConfig) (m : MPCMeasurement) (now : ℤ) :
    Option MPCStopReason :=
  if !m.connected then some .transport
  else if m.received = 0 ∨ now < m.received ∨ milliseconds c.stateTimeout < now - m.received then
    some .staleState
  else if m.errors ≠ 0 then some .invalidState
  else if ∃ i, m.q i < c.limits.lower i ∨ c.limits.upper i < m.q i ∨
      c.limits.velocity i < |m.dq i| then some .invalidState
  else none

/-- A read of the plan mailbox. Without new data the cached plan stays. -/
inductive PlanRead where
  | fresh (plan : MPCPlan)
  | noData
  | failed

/-- The locals of `outputLoop` that outlive an iteration. -/
structure Loop where
  next : ℤ
  firstTarget : ℤ
  active : MPCPlan := {}
  fresh : MPCPlan := {}
  bridge : Option MPCCubic := none
  bridgeStart : ℤ := 0
  previous : Option MPCJointState := none

/-- What one iteration reads. A measurement that is missing stands for a read that throws. -/
structure Iteration where
  stopped : Bool := false
  now : ℤ
  plan : PlanRead := .noData
  targetTime : ℤ
  measurement : Option MPCMeasurement
  checked : ℤ
  submit : ℤ
  stoppedLate : Bool := false
  sendThrows : Bool := false
  done : ℤ
  published : Bool := true
  waited : Bool := true

inductive OutputEvent where
  | quiet
  | sent (command : JointPVT) (reference : MPCJointState) (active : MPCPlan)

namespace Loop

/-- `s_sample`: the bridge for its 20 ms, then the active plan. -/
def sample (l : Loop) (t : ℝ) : MPCJointState :=
  match l.bridge with
  | some bridge =>
    if seconds (t - l.bridgeStart) ≤ MPCPlan.dt then bridge.sample (seconds (t - l.bridgeStart))
    else sampleMPC (n := 4) l.active.knots MPCPlan.dt (seconds (t - l.active.origin))
  | none => sampleMPC (n := 4) l.active.knots MPCPlan.dt (seconds (t - l.active.origin))

/-- Where a handoff starts: at the executing reference, or at the measurement. -/
def anchor (l : Loop) (now : ℤ) (m : MPCMeasurement) : MPCJointState :=
  if l.active.generation ≠ 0 then l.sample now else ⟨m.q, m.dq⟩

/-- Where a handoff ends: on the new plan, 20 ms ahead. -/
def landing (l : Loop) (now : ℤ) : MPCJointState :=
  sampleMPC (n := 4) l.fresh.knots MPCPlan.dt (seconds (now - l.fresh.origin) + MPCPlan.dt)

def transition (l : Loop) (now : ℤ) (m : MPCMeasurement) : MPCCubic :=
  .between (l.anchor now m) (l.landing now) MPCPlan.dt

open Classical in
/-- The age check of the active plan and the switch to a new one. -/
def switch (c : MPCControlConfig) (l : Loop) (now checked : ℤ) (m : MPCMeasurement) :
    Except MPCStopReason Loop :=
  if l.active.generation ≠ 0 ∧ milliseconds c.planTimeout < checked - l.active.origin ∧
      l.fresh.generation = l.active.generation then .error .stalePlan
  else if l.fresh.generation ≠ l.active.generation then
    if milliseconds c.planTimeout < checked - l.fresh.origin then .error .stalePlan
    else if ∃ i, ¬(l.fresh.segment i).within c.limits then .error .invalidTrajectory
    else if ¬(l.transition now m).within c.limits then .error .invalidTrajectory
    else .ok { l with active := l.fresh, bridge := some (l.transition now m), bridgeStart := now }
  else .ok l

/-- The speed a joint needs: that of the reference, the feedback catch-up over 20 ms and
the displacement since the previous output. -/
def speed (l : Loop) (m : MPCMeasurement) (reference : MPCJointState) (i : Joint) : ℝ :=
  let speed := max |reference.dq i| (|reference.q i - m.q i| / 0.020)
  match l.previous with
  | some previous => max speed (|reference.q i - previous.q i| / 0.002)
  | none => speed

def command (c : MPCControlConfig) (l : Loop) (m : MPCMeasurement) (reference : MPCJointState) :
    JointPVT where
  q := reference.q
  dqLimit i := min (c.limits.velocity i) (max 1e-4 (l.speed m reference i * c.velocityExcitation))
  currentLimitNorm _ := c.currentLimitNorm

/-- `s_next` for the following iteration; missed periods are skipped. -/
def schedule (next done : ℤ) : ℤ :=
  let next := next + outputPeriod
  if next ≤ done then next + ((done - next) / outputPeriod + 1) * outputPeriod else next

/-- The iteration after its output. -/
def finish (c : MPCControlConfig) (l : Loop) (x : Iteration) : Except MPCStopReason Loop :=
  if milliseconds c.outputLatenessLimit < x.done - l.next then .error .outputDeadline
  else if !x.published then .error .internalError
  else if !x.waited then .error .none
  else .ok { l with next := schedule l.next x.done }

open Classical in
/-- The output of an iteration whose plan is settled. -/
def output (c : MPCControlConfig) (l : Loop) (x : Iteration) (m : MPCMeasurement) :
    OutputEvent × Except MPCStopReason Loop :=
  if l.active.generation ≠ 0 then
    let reference := l.sample x.now
    if ∃ i, c.maxTrackingError < |reference.q i - m.q i| then (.quiet, .error .trackingError)
    else if milliseconds c.outputLatenessLimit < x.submit - l.next then
      (.quiet, .error .outputDeadline)
    else if x.stoppedLate then (.quiet, .error .none)
    else
      (.sent (l.command c m reference) reference l.active,
        if x.sendThrows then .error .transport
        else { l with previous := some reference }.finish c x)
  else if milliseconds c.planTimeout < x.checked - l.firstTarget then (.quiet, .error .stalePlan)
  else (.quiet, l.finish c x)

/-- The plan cache after the read of the mailbox. -/
def receive (l : Loop) : PlanRead → Option Loop
  | .fresh plan => some { l with fresh := plan }
  | .noData => some l
  | .failed => none

/-- The iteration up to its output: the loop with its plan settled, and the measurement. -/
def settle (c : MPCControlConfig) (l : Loop) (x : Iteration) :
    Except MPCStopReason (Loop × MPCMeasurement) :=
  if x.stopped then .error .none
  else
    match l.receive x.plan with
    | none => .error .internalError
    | some l =>
      if milliseconds c.outputLatenessLimit < x.now - l.next then .error .outputDeadline
      else if milliseconds c.targetTimeout < x.now - x.targetTime then .error .staleTarget
      else
        match x.measurement with
        | none => .error .transport
        | some m =>
          match m.fault c x.checked with
          | some reason => .error reason
          | none =>
            match l.switch c x.now x.checked m with
            | .error reason => .error reason
            | .ok l => .ok (l, m)

/-- One iteration of `outputLoop`. -/
def iterate (c : MPCControlConfig) (l : Loop) (x : Iteration) :
    OutputEvent × Except MPCStopReason Loop :=
  match l.settle c x with
  | .error reason => (.quiet, .error reason)
  | .ok (l, m) => l.output c x m

end Loop

inductive OutputPc where
  | waiting
  | looping (loop : Loop)
  | ended (reason : MPCStopReason)

/-- The output worker and the last reading of its clock. -/
structure Output where
  pc : OutputPc := .waiting
  clock : ℤ := 0

inductive OutputAction where
  /-- The first wake-up, with the time of the first target. -/
  | start (now firstTarget : ℤ)
  | iterate (x : Iteration)

/-- The readings of an iteration, in their order. -/
def Iteration.ordered (x : Iteration) (clock : ℤ) : Prop :=
  clock ≤ x.now ∧ x.now ≤ x.checked ∧ x.checked ≤ x.submit ∧ x.submit ≤ x.done

instance (x : Iteration) (clock : ℤ) : Decidable (x.ordered clock) :=
  inferInstanceAs (Decidable (_ ∧ _))

def Output.step (c : MPCControlConfig) (s : Output) : OutputAction → Option (Output × OutputEvent)
  | .start now firstTarget =>
    match s.pc with
    | .waiting =>
      if s.clock ≤ now then some (⟨.looping ⟨now, firstTarget, {}, {}, none, 0, none⟩, now⟩, .quiet)
      else none
    | _ => none
  | .iterate x =>
    match s.pc with
    | .looping l =>
      if x.ordered s.clock then
        let (event, next) := l.iterate c x
        some (⟨match next with
          | .ok l => .looping l
          | .error reason => .ended reason, x.done⟩, event)
      else none
    | _ => none

def outputMachine (c : MPCControlConfig) : Machine Output OutputAction OutputEvent :=
  ⟨{}, Output.step c⟩

end Florid.Mpc

end
