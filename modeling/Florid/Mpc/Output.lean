import Florid.Mpc.Session

/-! What `outputLoop` sends, over every run: each command passed every watchdog of its
iteration, and its reference comes from curves that passed `within`. -/
noncomputable section
namespace Florid.Mpc
open Transition

/-- How far `within` lets a position past its limits. -/
def withinTolerance : ℝ := MPCCubic.positionTolerance + MPCCubic.coefficientCutoff

/-- A position is within the limits of its joint. -/
def InLimits (limits : MPCJointLimits) (i : Joint) (q : ℝ) : Prop :=
  limits.lower i - withinTolerance ≤ q ∧ q ≤ limits.upper i + withinTolerance

/-- Everything the loop samples has passed `within`. -/
structure Loop.Checked (c : MPCControlConfig) (l : Loop) : Prop where
  bridge : ∀ bridge, l.bridge = some bridge → bridge.within c.limits
  active : l.active.generation ≠ 0 → ∀ i, (l.active.segment i).within c.limits

theorem sampleMPC_inLimits {c : MPCControlConfig} {p : MPCPlan}
    (checked : ∀ i, (p.segment i).within c.limits) (time : ℝ) (j : Joint) :
    InLimits c.limits j ((sampleMPC (n := 4) p.knots MPCPlan.dt time).q j) := by
  have bound : min ⌊max 0 (min time (MPCPlan.dt * ((4 : ℕ) + 1))) / MPCPlan.dt⌋₊ 4 < 5 := by omega
  exact (checked ⟨_, bound⟩).sample _ j

namespace Loop
variable {c : MPCControlConfig} {l next : Loop} {now checked : ℤ} {m : MPCMeasurement}

theorem Checked.sample (ok : l.Checked c) (running : l.active.generation ≠ 0) (t : ℝ) (j : Joint) :
    InLimits c.limits j ((l.sample t).q j) := by
  unfold Loop.sample
  split
  · rename_i bridge held
    split
    · exact (ok.bridge bridge held).sample _ j
    · exact sampleMPC_inLimits (ok.active running) _ j
  · exact sampleMPC_inLimits (ok.active running) _ j

/-- What a settled plan has passed. -/
structure Settled (c : MPCControlConfig) (l : Loop) (checked : ℤ) (next : Loop) : Prop where
  age : next.active.generation ≠ 0 →
    checked - next.active.origin ≤ milliseconds c.planTimeout
  schedule : next.next = l.next
  previous : next.previous = l.previous
  curves : l.Checked c → next.Checked c

theorem switch_settled (switched : l.switch c now checked m = .ok next) :
    Settled c l checked next := by
  unfold switch at switched
  split at switched
  · cases switched
  · rename_i fresh
    split at switched
    · split at switched
      · cases switched
      · rename_i young
        split at switched
        · cases switched
        · rename_i segments
          split at switched
          · cases switched
          · rename_i curve
            cases switched
            refine ⟨fun _ => not_lt.mp young, rfl, rfl, fun _ => ⟨?_, ?_⟩⟩
            · rintro bridge ⟨⟩
              exact not_not.mp curve
            · intro _ i
              by_contra outside
              exact segments ⟨i, outside⟩
    · rename_i same
      cases switched
      refine ⟨?_, rfl, rfl, id⟩
      intro running
      by_contra old
      exact fresh ⟨running, not_le.mp old, not_not.mp same⟩

theorem receive_some {read : PlanRead} (received : l.receive read = some next) :
    next.next = l.next ∧ next.active = l.active ∧ next.bridge = l.bridge ∧
      next.bridgeStart = l.bridgeStart ∧ next.previous = l.previous := by
  cases read with
  | fresh plan =>
    cases received
    exact ⟨rfl, rfl, rfl, rfl, rfl⟩
  | noData =>
    cases received
    exact ⟨rfl, rfl, rfl, rfl, rfl⟩
  | failed => cases received

theorem receive_checked {read : PlanRead} (received : l.receive read = some next)
    (ok : l.Checked c) : next.Checked c := by
  obtain ⟨-, active, bridge, -, -⟩ := receive_some received
  exact ⟨by rw [bridge]; exact ok.bridge, by rw [active]; exact ok.active⟩

theorem finish_ok {x : Iteration} (finished : l.finish c x = .ok next) :
    next = { l with next := Loop.schedule l.next x.done } := by
  unfold finish at finished
  split at finished
  · cases finished
  · split at finished
    · cases finished
    · split at finished
      · cases finished
      · cases finished
        rfl

/-- The iteration up to its output, when it gets there. -/
structure Reached (c : MPCControlConfig) (l : Loop) (x : Iteration) (m : MPCMeasurement)
    (settled : Loop) : Prop where
  running : x.stopped = false
  target : x.now - x.targetTime ≤ milliseconds c.targetTimeout
  measured : x.measurement = some m
  valid : m.fault c x.checked = none
  received : ∃ cached, l.receive x.plan = some cached ∧
    cached.switch c x.now x.checked m = .ok settled

theorem settle_reached {x : Iteration} (settled : l.settle c x = .ok (next, m)) :
    Reached c l x m next := by
  unfold settle at settled
  split at settled
  · cases settled
  · rename_i running
    split at settled
    · cases settled
    · rename_i cached received
      split at settled
      · cases settled
      · split at settled
        · cases settled
        · rename_i target
          split at settled
          · cases settled
          · rename_i measured
            split at settled
            · cases settled
            · rename_i valid
              split at settled
              · cases settled
              · rename_i switched
                cases settled
                exact ⟨by simpa using running, not_lt.mp target, measured, valid, cached, received,
                  switched⟩

/-- An iteration ends early without an output, or reaches it. -/
theorem iterate_cases (c : MPCControlConfig) (l : Loop) (x : Iteration) :
    (∃ reason, l.iterate c x = (.quiet, .error reason)) ∨
      ∃ m settled, l.settle c x = .ok (settled, m) ∧ l.iterate c x = settled.output c x m := by
  unfold iterate
  split
  · exact .inl ⟨_, rfl⟩
  · rename_i settled m reached
    exact .inr ⟨m, settled, reached, rfl⟩

theorem Reached.curves {x : Iteration} (reached : Reached c l x m next) (ok : l.Checked c) :
    next.Checked c := by
  obtain ⟨cached, received, switched⟩ := reached.received
  exact (switch_settled switched).curves (receive_checked received ok)

/-- What precedes a command. -/
structure Sent (c : MPCControlConfig) (l : Loop) (x : Iteration) (m : MPCMeasurement)
    (command : JointPVT) (reference : MPCJointState) : Prop where
  running : l.active.generation ≠ 0
  sampled : reference = l.sample x.now
  built : command = l.command c m reference
  tracking : ∀ i, |reference.q i - m.q i| ≤ c.maxTrackingError
  lateness : x.submit - l.next ≤ milliseconds c.outputLatenessLimit

theorem output_sent {x : Iteration} {command : JointPVT} {reference : MPCJointState}
    {active : MPCPlan} (sent : (l.output c x m).1 = .sent command reference active) :
    active = l.active ∧ Sent c l x m command reference := by
  unfold output at sent
  dsimp only at sent
  split at sent
  · rename_i running
    split at sent
    · cases sent
    · rename_i tracked
      split at sent
      · cases sent
      · rename_i punctual
        split at sent
        · cases sent
        · cases sent
          refine ⟨rfl, running, rfl, rfl, ?_, not_lt.mp punctual⟩
          intro i
          by_contra far
          exact tracked ⟨i, not_le.mp far⟩
  · split at sent <;> cases sent

/-- The loop goes on with the plan and the bridge of the iteration, at the deadline after it. -/
theorem output_ok {x : Iteration} (continued : (l.output c x m).2 = .ok next) :
    ∃ previous, next = { l with previous, next := schedule l.next x.done } := by
  unfold output at continued
  dsimp only at continued
  split at continued
  · split at continued
    · cases continued
    · split at continued
      · cases continued
      · split at continued
        · cases continued
        · dsimp only at continued
          split at continued
          · cases continued
          · have finished := finish_ok continued
            exact ⟨_, finished⟩
  · split at continued
    · cases continued
    · have finished := finish_ok continued
      exact ⟨_, finished⟩

theorem iterate_checked {x : Iteration} (ok : l.Checked c)
    (continued : (l.iterate c x).2 = .ok next) : next.Checked c := by
  rcases iterate_cases c l x with ⟨reason, early⟩ | ⟨m, settled, settling, late⟩
  · rw [early] at continued
    cases continued
  · rw [late] at continued
    obtain ⟨previous, rfl⟩ := output_ok continued
    have after := (settle_reached settling).curves ok
    exact ⟨after.bridge, after.active⟩

theorem iterate_next {x : Iteration} (continued : (l.iterate c x).2 = .ok next) :
    next.next = schedule l.next x.done := by
  rcases iterate_cases c l x with ⟨reason, early⟩ | ⟨m, settled, settling, late⟩
  · rw [early] at continued
    cases continued
  · rw [late] at continued
    obtain ⟨previous, rfl⟩ := output_ok continued
    obtain ⟨cached, received, switched⟩ := (settle_reached settling).received
    dsimp only
    rw [(switch_settled switched).schedule, (receive_some received).1]

end Loop

/-! ### Speed limits -/

theorem dqLimit_pos (i : Joint) : 0 < WillowMPCTraits.dqLimit i := by
  fin_cases i <;> norm_num [WillowMPCTraits.dqLimit]

theorem Loop.speed_ge (l : Loop) (m : MPCMeasurement) (reference : MPCJointState) (i : Joint) :
    |reference.dq i| ≤ l.speed m reference i := by
  unfold speed
  dsimp only
  split
  · exact (le_max_left _ _).trans (le_max_left _ _)
  · exact le_max_left _ _

theorem Loop.command_speed {c : MPCControlConfig} (valid : c.Valid) (l : Loop) (m : MPCMeasurement)
    (reference : MPCJointState) (i : Joint) :
    0 < (l.command c m reference).dqLimit i ∧
      (l.command c m reference).dqLimit i ≤ min c.maxJointVelocity (WillowMPCTraits.dqLimit i) ∧
      min (min c.maxJointVelocity (WillowMPCTraits.dqLimit i)) |reference.dq i| ≤
        (l.command c m reference).dqLimit i := by
  have cap : 0 < min c.maxJointVelocity (WillowMPCTraits.dqLimit i) :=
    lt_min valid.velocity (dqLimit_pos i)
  refine ⟨lt_min cap (lt_max_of_lt_left (by norm_num)), min_le_left _ _, ?_⟩
  refine min_le_min_left _ (le_max_of_le_right ?_)
  calc |reference.dq i| ≤ l.speed m reference i := l.speed_ge m reference i
    _ ≤ l.speed m reference i * c.velocityExcitation :=
      le_mul_of_one_le_right ((abs_nonneg _).trans (l.speed_ge m reference i)) valid.excitation

theorem MPCMeasurement.fault_none {c : MPCControlConfig} {m : MPCMeasurement} {now : ℤ}
    (valid : m.fault c now = none) :
    m.connected = true ∧ m.errors = 0 ∧ m.received ≤ now ∧
      now - m.received ≤ milliseconds c.stateTimeout ∧
      ∀ i, c.limits.lower i ≤ m.q i ∧ m.q i ≤ c.limits.upper i ∧
        |m.dq i| ≤ c.limits.velocity i := by
  unfold fault at valid
  split at valid
  · cases valid
  · rename_i connected
    split at valid
    · cases valid
    · rename_i recent
      split at valid
      · cases valid
      · rename_i errors
        split at valid
        · cases valid
        · rename_i inside
          push Not at recent errors inside
          exact ⟨by simpa using connected, errors, recent.2.1, recent.2.2, inside⟩

/-! ### Runs -/

/-- The invariant of the worker: the curves of its loop are checked. -/
def Output.Checked (c : MPCControlConfig) (s : Output) : Prop :=
  ∀ l, s.pc = .looping l → l.Checked c

theorem Output.checked_step {c : MPCControlConfig} {s t : Output} {a : OutputAction}
    {event : OutputEvent} (ok : s.Checked c) (stepped : s.step c a = some (t, event)) :
    t.Checked c := by
  cases a with
  | start now firstTarget =>
    simp only [Output.step] at stepped
    split at stepped
    · split at stepped <;> cases stepped
      rintro l ⟨⟩
      exact ⟨nofun, fun running => absurd rfl running⟩
    · cases stepped
  | iterate x =>
    simp only [Output.step] at stepped
    split at stepped
    · rename_i l looping
      split at stepped <;> cases stepped
      intro next continued
      cases ended : (l.iterate c x).2 with
      | error reason => simp [ended] at continued
      | ok after =>
        simp only [ended, OutputPc.looping.injEq] at continued
        exact Loop.iterate_checked (ok l looping) (continued ▸ ended)
    · cases stepped

theorem checked_of_run {c : MPCControlConfig} {es : List (Entry Output OutputAction OutputEvent)}
    {s : Output} (run : Run (outputMachine c) es s) : s.Checked c :=
  run.invariant (P := Output.Checked c) (by rintro l ⟨⟩) Output.checked_step

/-- Every command is sent with fresh feedback inside the limits, a fresh target and plan and
in time; it tracks the measurement, keeps the position limits and carries a speed ceiling
between the reference's speed and the cap. -/
theorem output_safe {c : MPCControlConfig} (valid : c.Valid)
    {past rest : List (Entry Output OutputAction OutputEvent)} {s : Output}
    {e : Entry Output OutputAction OutputEvent} (run : Run (outputMachine c) (past ++ e :: rest) s)
    {command : JointPVT} {reference : MPCJointState} {active : MPCPlan}
    (sent : e.event = .sent command reference active) :
    ∃ l x m, e.before.pc = .looping l ∧ e.action = .iterate x ∧ x.measurement = some m ∧
      m.connected = true ∧ m.errors = 0 ∧ m.received ≤ x.checked ∧
      x.checked - m.received ≤ milliseconds c.stateTimeout ∧
      (∀ i, c.limits.lower i ≤ m.q i ∧ m.q i ≤ c.limits.upper i ∧
        |m.dq i| ≤ c.limits.velocity i) ∧
      x.now - x.targetTime ≤ milliseconds c.targetTimeout ∧
      x.checked - active.origin ≤ milliseconds c.planTimeout ∧
      x.submit - l.next ≤ milliseconds c.outputLatenessLimit ∧
      ∀ i, |command.q i - m.q i| ≤ c.maxTrackingError ∧
        InLimits c.limits i (command.q i) ∧ 0 < command.dqLimit i ∧
        command.dqLimit i ≤ min c.maxJointVelocity (WillowMPCTraits.dqLimit i) ∧
        min (min c.maxJointVelocity (WillowMPCTraits.dqLimit i)) |reference.dq i| ≤
          command.dqLimit i := by
  obtain ⟨before, stepped⟩ := run.entry
  have checked := checked_of_run before
  obtain ⟨start, action, event, after⟩ := e
  obtain rfl : event = .sent command reference active := sent
  cases action with
  | start now firstTarget =>
    simp only [outputMachine, Output.step] at stepped
    split at stepped
    · split at stepped <;> cases stepped
    · cases stepped
  | iterate x =>
    simp only [outputMachine, Output.step] at stepped
    split at stepped
    · rename_i l looping
      split at stepped
      · simp only [Option.some.injEq, Prod.mk.injEq] at stepped
        obtain ⟨-, told⟩ := stepped
        rcases Loop.iterate_cases c l x with ⟨reason, early⟩ | ⟨m, settled, settling, late⟩
        · rw [early] at told
          cases told
        · rw [late] at told
          have reached := Loop.settle_reached settling
          obtain ⟨rfl, sent⟩ := Loop.output_sent told
          obtain ⟨cached, received, switched⟩ := reached.received
          have plan := Loop.switch_settled switched
          have curves := reached.curves (checked l looping)
          have scheduled : settled.next = l.next :=
            plan.schedule.trans (Loop.receive_some received).1
          obtain ⟨connected, errors, order, age, inside⟩ := m.fault_none reached.valid
          refine ⟨l, x, m, looping, rfl, reached.measured, connected, errors, order, age, inside,
            reached.target, plan.age sent.running, scheduled ▸ sent.lateness, ?_⟩
          intro i
          rw [sent.built]
          refine ⟨sent.tracking i, ?_, settled.command_speed valid m reference i⟩
          rw [sent.sampled]
          exact curves.sample sent.running _ i
      · cases stepped
    · cases stepped

/-! ### An arm that stands still -/

theorem MPCControlConfig.default_valid : MPCControlConfig.Valid {} := by
  constructor <;> norm_num [outputPeriod, planningPeriod, milliseconds]

theorem MPCCubic.still_position (dt u : ℝ) (i : Joint) : (between {} {} dt).position i u = 0 := by
  simp [between, position]

theorem MPCCubic.still_velocity (dt u : ℝ) (i : Joint) : (between {} {} dt).velocity i u = 0 := by
  simp [between, velocity]

theorem MPCCubic.still_sample (dt time : ℝ) : (between {} {} dt).sample time = {} := by
  simp only [sample, still_position, still_velocity]

theorem sampleMPC_still (time : ℝ) :
    sampleMPC (n := 4) (fun _ => {}) MPCPlan.dt time = {} := by
  simp only [sampleMPC, MPCCubic.still_sample]

theorem MPCCubic.still_within : (between {} {} MPCPlan.dt).within ({} : MPCControlConfig).limits := by
  have inside (i : Joint) (u : ℝ) :
      (between {} {} MPCPlan.dt).positionOk ({} : MPCControlConfig).limits i u := by
    rw [positionOk, still_position]
    fin_cases i <;> norm_num [MPCControlConfig.limits, WillowMPCTraits.qLower,
      WillowMPCTraits.qUpper, positionTolerance]
  have slow (i : Joint) (u : ℝ) :
      (between {} {} MPCPlan.dt).velocityOk ({} : MPCControlConfig).limits i u := by
    have cap : 0 < min 1 (WillowMPCTraits.dqLimit i) := lt_min one_pos (dqLimit_pos i)
    rw [velocityOk, still_velocity, abs_zero]
    change 0 ≤ min 1 (WillowMPCTraits.dqLimit i) + _
    linarith
  refine ⟨by norm_num [between, MPCPlan.dt], fun i => ?_⟩
  refine ⟨inside i 0, inside i 1, slow i 0, slow i 1, ?_, ?_⟩
  · norm_num [between, MPCControlConfig.limits]
  · have zero : (between {} {} MPCPlan.dt).a i = 0 ∧ (between {} {} MPCPlan.dt).b i = 0 := by
      simp [between]
    simp only [zero.1, zero.2, abs_zero, not_lt.mpr coefficientCutoff_pos.le, if_false]

def stillMeasurement : MPCMeasurement := ⟨fun _ => 0, fun _ => 0, 0, 1, true⟩

def stillPlan : MPCPlan := { origin := 1, generation := 1 }

/-- An iteration at time 1 with a first plan. -/
def stillIteration : Iteration :=
  ⟨false, 1, .fresh stillPlan, 1, some stillMeasurement, 1, 1, false, false, 1, true, true⟩

def firstLoop : Loop := ⟨1, 1, {}, {}, none, 0, none⟩

def bridgedLoop : Loop :=
  ⟨1, 1, stillPlan, stillPlan, some (.between {} {} MPCPlan.dt), 1, none⟩

theorem stillMeasurement_valid : stillMeasurement.fault {} 1 = none := by
  have inside : ¬∃ i, stillMeasurement.q i < ({} : MPCControlConfig).limits.lower i ∨
      ({} : MPCControlConfig).limits.upper i < stillMeasurement.q i ∨
      ({} : MPCControlConfig).limits.velocity i < |stillMeasurement.dq i| := by
    rintro ⟨i, outside⟩
    fin_cases i <;> norm_num [stillMeasurement, MPCControlConfig.limits, WillowMPCTraits.qLower,
      WillowMPCTraits.qUpper, WillowMPCTraits.dqLimit] at outside
  simp only [MPCMeasurement.fault, if_neg inside]
  norm_num [stillMeasurement, milliseconds]

def cachedLoop : Loop := ⟨1, 1, {}, stillPlan, none, 0, none⟩

theorem stillSwitch : cachedLoop.switch {} 1 1 stillMeasurement = .ok bridgedLoop := by
  have transition : cachedLoop.transition 1 stillMeasurement = .between {} {} MPCPlan.dt := by
    simp only [Loop.transition, Loop.anchor, Loop.landing, cachedLoop, stillPlan, sampleMPC_still]
    rfl
  have segments : ¬∃ i, ¬(cachedLoop.fresh.segment i).within ({} : MPCControlConfig).limits := by
    rintro ⟨i, outside⟩
    exact outside MPCCubic.still_within
  rw [Loop.switch, if_neg (by simp [cachedLoop]), if_pos (by decide), if_neg (by decide),
    if_neg segments, transition, if_neg (not_not.mpr MPCCubic.still_within)]
  rfl

theorem bridgedLoop_sample (t : ℝ) : bridgedLoop.sample t = {} := by
  simp only [Loop.sample, bridgedLoop, stillPlan, MPCCubic.still_sample, sampleMPC_still, ite_self]

theorem stillSettled : firstLoop.settle {} stillIteration = .ok (bridgedLoop, stillMeasurement) := by
  have valid : stillMeasurement.fault {} stillIteration.checked = none := stillMeasurement_valid
  have switched : cachedLoop.switch {} stillIteration.now stillIteration.checked stillMeasurement =
    .ok bridgedLoop := stillSwitch
  have received : firstLoop.receive stillIteration.plan = some cachedLoop := rfl
  have measured : stillIteration.measurement = some stillMeasurement := rfl
  simp only [Loop.settle, received, measured, valid, switched]
  rw [if_neg (by decide), if_neg (by decide), if_neg (by decide)]

/-- The first iteration bridges to the plan and sends. -/
theorem stillIteration_sent : ∃ next, firstLoop.iterate {} stillIteration =
    (.sent (bridgedLoop.command {} stillMeasurement {}) {} stillPlan, .ok next) := by
  have tracked : ¬∃ i, ({} : MPCControlConfig).maxTrackingError <
      |({} : MPCJointState).q i - stillMeasurement.q i| := by
    rintro ⟨i, far⟩
    norm_num [stillMeasurement] at far
  have output : bridgedLoop.output {} stillIteration stillMeasurement =
      (.sent (bridgedLoop.command {} stillMeasurement {}) {} stillPlan,
        { bridgedLoop with previous := some {} }.finish {} stillIteration) := by
    simp only [Loop.output, bridgedLoop_sample, if_neg tracked]
    rw [if_pos (by decide), if_neg (by decide), if_neg (by decide), if_neg (by decide)]
    rfl
  rw [Loop.iterate, stillSettled]
  simp only [output]
  exact ⟨_, rfl⟩

/-- The entries of the run. -/
def stillStart : Entry Output OutputAction OutputEvent :=
  ⟨{}, .start 1 1, .quiet, ⟨.looping firstLoop, 1⟩⟩

def stillOutput (next : Loop) : Entry Output OutputAction OutputEvent :=
  ⟨⟨.looping firstLoop, 1⟩, .iterate stillIteration,
    .sent (bridgedLoop.command {} stillMeasurement {}) {} stillPlan, ⟨.looping next, 1⟩⟩

theorem still_run : ∃ next, Run (outputMachine {}) ([stillStart] ++ stillOutput next :: [])
    ⟨.looping next, 1⟩ := by
  obtain ⟨next, iterated⟩ := stillIteration_sent
  have started : (outputMachine {}).step {} (.start 1 1) = some (⟨.looping firstLoop, 1⟩, .quiet) :=
    rfl
  have stepped : (outputMachine {}).step ⟨.looping firstLoop, 1⟩ (.iterate stillIteration) =
      some (⟨.looping next, 1⟩, .sent (bridgedLoop.command {} stillMeasurement {}) {} stillPlan) := by
    simp only [outputMachine, Output.step]
    rw [if_pos (by decide), iterated]
    rfl
  exact ⟨next, Run.snoc (.snoc .nil started) stepped⟩

theorem output_safe_still : ∃ next, Run (outputMachine {}) ([stillStart] ++ stillOutput next :: [])
      ⟨.looping next, 1⟩ ∧
    ∀ i, 0 < (bridgedLoop.command {} stillMeasurement {}).dqLimit i := by
  obtain ⟨next, run⟩ := still_run
  obtain ⟨l, x, m, facts⟩ := output_safe MPCControlConfig.default_valid run rfl
  exact ⟨next, run, fun i => (facts.2.2.2.2.2.2.2.2.2.2.2 i).2.2.1⟩

end Florid.Mpc

end
