import Florid.Mpc.Output
import Florid.Periodic

/-! The deadlines of the two workers of `MPCSession`. `planLoop` is modelled here, one iteration a
step, each turn of `waitUntil` a step of its own; `outputLoop` is the one of its own module, with
the missed periods counted and the same turns of `waitUntil` between its iterations. Clock
readings, measurements, targets, the solver's answers and stop requests are inputs. -/
noncomputable section
namespace Florid.Mpc
open Transition
variable {Pose : Type}

/-! ### `waitUntil` -/

inductive Waiting where
  | stopped
  | again
  | due

/-- One turn of the wait: a stop request ends it, else the clock is read against the deadline,
and the semaphore puts the worker to sleep when it is still ahead. -/
def waitTurn (deadline : ℤ) (stopped : Bool) (now : ℤ) : Waiting :=
  if stopped then .stopped else if now < deadline then .again else .due

theorem waitTurn_due {deadline now : ℤ} {stopped : Bool}
    (turned : waitTurn deadline stopped now = .due) : deadline ≤ now := by
  unfold waitTurn at turned
  split at turned
  · cases turned
  · split at turned
    · cases turned
    · exact not_lt.mp ‹_›

/-! ### `planLoop` -/

/-- A read of the target mailbox. Without new data the cached target stays. -/
inductive TargetRead (Pose : Type) where
  | fresh (pose : Pose)
  | noData
  | failed

/-- The locals of `planLoop`; durations are in nanoseconds. -/
structure PlanLoop (Pose : Type) where
  pace : Pace
  target : Pose
  generation : Nat := 0
  solves : Nat := 0
  solverStatus : ℤ := 0
  lastSolve : ℤ := 0
  maxSolve : ℤ := 0
  solverFailures : Nat := 0

/-- What one iteration reads. A missing measurement stands for a read that throws, a missing
answer for a solver that does. -/
structure PlanIteration (Pose : Type) where
  stopped : Bool := false
  measurement : Option MPCMeasurement
  now : ℤ
  target : TargetRead Pose := .noData
  begun : ℤ
  solved : Option (ℤ × (Fin 6 → MPCJointState))
  done : ℤ
  stoppedLate : Bool := false
  planPublished : Bool := true
  statusPublished : Bool := true

/-- What the solver is asked, and the plan that is published. -/
structure PlanEvent (Pose : Type) where
  asked : Option (MPCMeasurement × Pose) := none
  published : Option MPCPlan := none

namespace PlanLoop

def receive (l : PlanLoop Pose) : TargetRead Pose → Option (PlanLoop Pose)
  | .fresh pose => some { l with target := pose }
  | .noData => some l
  | .failed => none

/-- The counters after a solve. -/
def record (l : PlanLoop Pose) (result duration : ℤ) : PlanLoop Pose :=
  { l with
    solves := l.solves + 1
    solverStatus := result
    lastSolve := duration
    maxSolve := max l.maxSolve duration
    solverFailures := if result ≠ 0 then l.solverFailures + 1 else l.solverFailures }

/-- The iteration after its plan: the next deadline, and the status. -/
def finish (l : PlanLoop Pose) (x : PlanIteration Pose) : Except MPCStopReason (PlanLoop Pose) :=
  if !x.statusPublished then .error .internalError
  else .ok { l with pace := l.pace.complete planningPeriod x.done }

/-- The iteration from the solve on. -/
def solve (l : PlanLoop Pose) (x : PlanIteration Pose) (m : MPCMeasurement) :
    PlanEvent Pose × Except MPCStopReason (PlanLoop Pose) :=
  let asked := some (m, l.target)
  let result : ℤ := (x.solved.map Prod.fst).getD (-2)
  let l := l.record result (x.done - x.begun)
  if x.stoppedLate then ({ asked }, .error .none)
  else
    match x.solved with
    | some (0, knots) =>
      let plan := { knots, origin := m.received, generation := l.generation + 1 }
      if !x.planPublished then ({ asked }, .error .internalError)
      else ({ asked, published := some plan },
        { l with generation := l.generation + 1 }.finish x)
    | _ => ({ asked }, l.finish x)

/-- One iteration of `planLoop`. -/
def iterate (c : MPCControlConfig) (l : PlanLoop Pose) (x : PlanIteration Pose) :
    PlanEvent Pose × Except MPCStopReason (PlanLoop Pose) :=
  if x.stopped then ({}, .error .none)
  else
    match x.measurement with
    | none => ({}, .error .transport)
    | some m =>
      match m.fault c x.now with
      | some reason => ({}, .error reason)
      | none =>
        match l.receive x.target with
        | none => ({}, .error .internalError)
        | some l => l.solve x m

end PlanLoop

/-- Where the planner stands. -/
inductive PlanPc (Pose : Type) where
  | waiting
  | iterating (loop : PlanLoop Pose)
  | pausing (loop : PlanLoop Pose)
  | ended (reason : MPCStopReason)

/-- The planner and the last reading of its clock. -/
structure Planner (Pose : Type) where
  pc : PlanPc Pose := .waiting
  clock : ℤ := 0

inductive PlanAction (Pose : Type) where
  /-- The first wake-up. -/
  | start (now : ℤ)
  | iterate (x : PlanIteration Pose)
  | wait (stopped : Bool) (now : ℤ)

/-- The readings of an iteration, in their order. -/
def PlanIteration.ordered (x : PlanIteration Pose) (clock : ℤ) : Prop :=
  clock ≤ x.now ∧ x.now ≤ x.begun ∧ x.begun ≤ x.done

instance (x : PlanIteration Pose) (clock : ℤ) : Decidable (x.ordered clock) :=
  inferInstanceAs (Decidable (_ ∧ _))

def Planner.step (c : MPCControlConfig) (first : Pose) (s : Planner Pose) :
    PlanAction Pose → Option (Planner Pose × PlanEvent Pose)
  | .start now =>
    match s.pc with
    | .waiting =>
      if s.clock ≤ now then
        some (⟨.iterating { pace := .startingAt now, target := first }, now⟩, {})
      else none
    | _ => none
  | .iterate x =>
    match s.pc with
    | .iterating l =>
      if x.ordered s.clock then
        let (event, next) := l.iterate c x
        some (⟨match next with
          | .ok l => .pausing l
          | .error reason => .ended reason, x.done⟩, event)
      else none
    | _ => none
  | .wait stopped now =>
    match s.pc with
    | .pausing l =>
      if s.clock ≤ now then
        some (⟨match waitTurn l.pace.next stopped now with
          | .stopped => .ended .none
          | .again => .pausing l
          | .due => .iterating l, now⟩, {})
      else none
    | _ => none

def planMachine (c : MPCControlConfig) (first : Pose) :
    Machine (Planner Pose) (PlanAction Pose) (PlanEvent Pose) :=
  ⟨{}, Planner.step c first⟩

/-! ### `outputLoop` -/

/-- `s_missed` of an iteration of `outputLoop`. -/
def missedOutputs (next done : ℤ) : ℤ :=
  let next := next + outputPeriod
  if next ≤ done then (done - next) / outputPeriod + 1 else 0

/-- The output worker with its count of missed periods, and whether it is in `waitUntil`. The
start time and the number of completed iterations are noted down. -/
structure PacedOutput where
  output : Output := {}
  pausing : Bool := false
  missed : ℤ := 0
  start : ℤ := 0
  iterations : ℕ := 0

inductive PacedAction where
  | start (now firstTarget : ℤ)
  | iterate (x : Iteration)
  | wait (stopped : Bool) (now : ℤ)

namespace PacedOutput

/-- The iteration led from one loop to the next: its missed periods are counted. -/
def count (s : PacedOutput) (x : Iteration) (after : Output) : PacedOutput :=
  match s.output.pc, after.pc with
  | .looping l, .looping _ =>
    { s with
      output := after, pausing := true, missed := s.missed + missedOutputs l.next x.done
      iterations := s.iterations + 1 }
  | _, _ => { s with output := after }

def step (c : MPCControlConfig) (s : PacedOutput) :
    PacedAction → Option (PacedOutput × OutputEvent)
  | .start now firstTarget =>
    (s.output.step c (.start now firstTarget)).map fun made =>
      ({ s with output := made.1, start := now }, made.2)
  | .iterate x =>
    if s.pausing then none
    else (s.output.step c (.iterate x)).map fun made => (s.count x made.1, made.2)
  | .wait stopped now =>
    match s.output.pc with
    | .looping l =>
      if s.pausing ∧ s.output.clock ≤ now then
        some (match waitTurn l.next stopped now with
          | .stopped => { s with output := ⟨.ended .none, now⟩ }
          | .again => { s with output := { s.output with clock := now } }
          | .due => { s with output := { s.output with clock := now }, pausing := false }, .quiet)
      else none
    | _ => none

/-- The pace of the loop that runs. -/
def pace (s : PacedOutput) : Option Pace :=
  match s.output.pc with
  | .looping l => some ⟨s.start, l.next, s.missed, s.iterations⟩
  | _ => none

end PacedOutput

def pacedMachine (c : MPCControlConfig) : Machine PacedOutput PacedAction OutputEvent :=
  ⟨{}, PacedOutput.step c⟩

/-! ### Every iteration -/

theorem planningPeriod_pos : 0 < planningPeriod := by decide

theorem outputPeriod_pos : 0 < outputPeriod := by decide

section Plan
variable {c : MPCControlConfig} {first : Pose} {l after : PlanLoop Pose} {x : PlanIteration Pose}

namespace PlanLoop

theorem finish_pace (completed : l.finish x = .ok after) :
    after.pace = l.pace.complete planningPeriod x.done := by
  unfold finish at completed
  split at completed
  · cases completed
  · cases completed
    rfl

theorem solve_pace {m : MPCMeasurement} (completed : (l.solve x m).2 = .ok after) :
    after.pace = l.pace.complete planningPeriod x.done := by
  unfold solve at completed
  dsimp only at completed
  split at completed
  · cases completed
  · split at completed
    · split at completed
      · cases completed
      · have paced := finish_pace completed
        exact paced
    · have paced := finish_pace completed
      exact paced

/-- A completed iteration has moved the deadline once. -/
theorem iterate_pace (completed : (l.iterate c x).2 = .ok after) :
    after.pace = l.pace.complete planningPeriod x.done := by
  unfold iterate at completed
  split at completed
  · cases completed
  · split at completed
    · cases completed
    · split at completed
      · cases completed
      · split at completed
        · cases completed
        · rename_i received
          have same : ∀ {read next}, l.receive read = some next → next.pace = l.pace := by
            intro read next received
            cases read <;> cases received <;> rfl
          rw [solve_pace completed, same received]

end PlanLoop

/-- The pace of the planner's loop. -/
def Planner.pace (s : Planner Pose) : Option Pace :=
  match s.pc with
  | .iterating l | .pausing l => some l.pace
  | _ => none

/-- The pace is on its grid; an iteration begins when its deadline has come. -/
structure Planner.Paced (s : Planner Pose) : Prop where
  grid : ∀ p, s.pace = some p → p.OnGrid planningPeriod
  begun : ∀ l, s.pc = .iterating l → l.pace.next ≤ s.clock

namespace Planner
variable {s next : Planner Pose} {event : PlanEvent Pose}

theorem Paced.ended {reason : MPCStopReason} {clock : ℤ} :
    Paced (⟨.ended reason, clock⟩ : Planner Pose) := by
  constructor
  · intro p held
    cases held
  · intro l looping
    cases looping

theorem Paced.pausing {l : PlanLoop Pose} {clock : ℤ} (grid : l.pace.OnGrid planningPeriod) :
    Paced ⟨.pausing l, clock⟩ := by
  constructor
  · rintro p ⟨⟩
    exact grid
  · intro l looping
    cases looping

theorem Paced.iterating {l : PlanLoop Pose} {clock : ℤ} (grid : l.pace.OnGrid planningPeriod)
    (begun : l.pace.next ≤ clock) : Paced ⟨.iterating l, clock⟩ := by
  constructor
  · rintro p ⟨⟩
    exact grid
  · rintro l ⟨⟩
    exact begun

/-- An iteration of a paced planner ends the loop, or completes one period further. -/
theorem Paced.iterate {l : PlanLoop Pose} (paced : s.Paced) (looping : s.pc = .iterating l)
    (ordered : x.ordered s.clock) :
    (∃ reason, (l.iterate c x).2 = .error reason) ∨
      ∃ after, (l.iterate c x).2 = .ok after ∧ after.pace.OnGrid planningPeriod ∧
        Pace.Advanced planningPeriod x.done l.pace after.pace := by
  obtain ⟨now, begun, done⟩ := ordered
  cases outcome : (l.iterate c x).2 with
  | error reason => exact .inl ⟨reason, rfl⟩
  | ok after =>
    have due : l.pace.next ≤ x.done := by
      have := paced.begun l looping
      omega
    have grid := paced.grid l.pace (by simp [Planner.pace, looping])
    refine .inr ⟨after, rfl, ?_, ?_⟩ <;> rw [PlanLoop.iterate_pace outcome]
    · exact Pace.complete_onGrid grid planningPeriod_pos
    · exact Pace.complete_advanced planningPeriod_pos due

/-- What a step of the planner shows: a completed iteration has advanced the pace. -/
def Advances (x : Entry (Planner Pose) (PlanAction Pose) (PlanEvent Pose)) : Prop :=
  ∀ before i after, x.before.pace = some before → x.action = .iterate i →
    x.after.pace = some after → Pace.Advanced planningPeriod i.done before after

theorem step_paced {a : PlanAction Pose} (paced : s.Paced)
    (stepped : s.step c first a = some (next, event)) :
    next.Paced ∧ Advances ⟨s, a, event, next⟩ := by
  cases a with
  | start now =>
    refine ⟨?_, fun before i after _ action => by cases action⟩
    simp only [step] at stepped
    split at stepped
    · split at stepped
      · cases stepped
        exact .iterating (Pace.startingAt_onGrid now) le_rfl
      · cases stepped
    · cases stepped
  | iterate x =>
    simp only [step] at stepped
    split at stepped
    · rename_i l looping
      split at stepped
      · rename_i ordered
        cases stepped
        rcases paced.iterate (c := c) looping ordered with
          ⟨reason, outcome⟩ | ⟨after, outcome, grid, advanced⟩
        · rw [outcome]
          refine ⟨.ended, ?_⟩
          intro before i after held action left
          cases left
        · rw [outcome]
          refine ⟨.pausing grid, ?_⟩
          intro before i after held action left
          cases action
          obtain rfl : l.pace = before := by simpa [Planner.pace, looping] using held
          cases left
          exact advanced
      · cases stepped
    · cases stepped
  | wait stopped now =>
    refine ⟨?_, fun before i after _ action => by cases action⟩
    simp only [step] at stepped
    split at stepped
    · rename_i l pausing
      have grid := paced.grid l.pace (by simp [Planner.pace, pausing])
      split at stepped
      · cases stepped
        split
        · exact .ended
        · exact .pausing grid
        · exact .iterating grid (waitTurn_due ‹_›)
      · cases stepped
    · cases stepped

theorem paced_of_run {es : List (Entry (Planner Pose) (PlanAction Pose) (PlanEvent Pose))}
    (run : Run (planMachine c first) es s) : s.Paced := by
  refine run.invariant ?_ fun paced stepped => (step_paced paced stepped).1
  constructor
  · intro p held
    cases held
  · intro l looping
    cases looping

end Planner

end Plan

namespace PacedOutput
variable {c : MPCControlConfig} {s next : PacedOutput} {event : OutputEvent}

/-- The deadline that `outputLoop` computes and the periods it counts. -/
theorem complete_output (start now missed done : ℤ) (iterations : ℕ) :
    Pace.complete outputPeriod ⟨start, now, missed, iterations⟩ done =
      ⟨start, Loop.schedule now done, missed + missedOutputs now done, iterations + 1⟩ := by
  simp only [Pace.complete, Loop.schedule, missedOutputs]
  split <;> simp

/-- The pace is on its grid; an iteration begins when its deadline has come. -/
structure Paced (s : PacedOutput) : Prop where
  grid : ∀ p, s.pace = some p → p.OnGrid outputPeriod
  begun : ∀ l, s.output.pc = .looping l → s.pausing = false → l.next ≤ s.output.clock
  fresh : s.output.pc = .waiting → s.pausing = false ∧ s.missed = 0 ∧ s.iterations = 0

def Advances (x : Entry PacedOutput PacedAction OutputEvent) : Prop :=
  ∀ before i after, x.before.pace = some before → x.action = .iterate i →
    x.after.pace = some after → Pace.Advanced outputPeriod i.done before after

theorem Paced.ended {s : PacedOutput} {reason : MPCStopReason} (pc : s.output.pc = .ended reason) :
    s.Paced := by
  refine ⟨?_, ?_, ?_⟩
  · simp [pace, pc]
  · simp [pc]
  · simp [pc]

theorem step_paced {a : PacedAction} (paced : s.Paced)
    (stepped : s.step c a = some (next, event)) : next.Paced ∧ Advances ⟨s, a, event, next⟩ := by
  cases a with
  | start now firstTarget =>
    refine ⟨?_, fun before i after _ action => by cases action⟩
    simp only [step, Output.step] at stepped
    split at stepped
    · rename_i waiting
      obtain ⟨still, missed, iterations⟩ := paced.fresh waiting
      split at stepped
      · cases stepped
        refine ⟨?_, ?_, ?_⟩
        · rintro p ⟨⟩
          rw [missed, iterations]
          exact Pace.startingAt_onGrid now
        · rintro l ⟨⟩ _
          exact le_rfl
        · intro idle
          cases idle
      · cases stepped
    · cases stepped
  | iterate x =>
    simp only [step] at stepped
    split at stepped
    · cases stepped
    · rename_i awake
      simp only [Option.map_eq_some_iff, Output.step] at stepped
      obtain ⟨⟨after, made⟩, inner, same⟩ := stepped
      cases same
      split at inner
      · rename_i l looping
        split at inner
        · rename_i ordered
          cases inner
          have due : l.next ≤ x.done := by
            have := paced.begun l looping (by simpa using awake)
            obtain ⟨now, checked, submit, done⟩ := ordered
            omega
          have grid := paced.grid ⟨s.start, l.next, s.missed, s.iterations⟩
            (by simp [pace, looping])
          cases outcome : (l.iterate c x).2 with
          | error reason =>
            rw [count, looping]
            refine ⟨.ended rfl, ?_⟩
            intro before i after held action left
            cases left
          | ok after =>
            rw [count, looping]
            have completed := complete_output s.start l.next s.missed x.done s.iterations
            rw [← Loop.iterate_next outcome] at completed
            refine ⟨⟨?_, ?_, ?_⟩, ?_⟩
            · rintro p ⟨⟩
              exact completed ▸ Pace.complete_onGrid grid outputPeriod_pos
            · intro l' _ awake
              cases awake
            · intro idle
              cases idle
            · intro before i after held action left
              cases action
              obtain rfl : ⟨s.start, l.next, s.missed, s.iterations⟩ = before := by
                simpa [pace, looping] using held
              cases left
              exact completed ▸ Pace.complete_advanced outputPeriod_pos due
        · cases inner
      · cases inner
  | wait stopped now =>
    refine ⟨?_, fun before i after _ action => by cases action⟩
    simp only [step] at stepped
    split at stepped
    · rename_i l looping
      have grid := paced.grid ⟨s.start, l.next, s.missed, s.iterations⟩ (by simp [pace, looping])
      split at stepped
      · rename_i waits
        cases stepped
        split
        · exact .ended rfl
        · refine ⟨?_, ?_, ?_⟩
          · intro p held
            simp only [pace, looping, Option.some.injEq] at held
            exact held ▸ grid
          · intro l' _ awake
            simp [waits.1] at awake
          · intro idle
            simp [looping] at idle
        · refine ⟨?_, ?_, ?_⟩
          · intro p held
            simp only [pace, looping, Option.some.injEq] at held
            exact held ▸ grid
          · intro l' looping' _
            obtain rfl : l = l' := by simpa [looping] using looping'
            exact waitTurn_due ‹_›
          · intro idle
            simp [looping] at idle
      · cases stepped
    · cases stepped

theorem paced_of_run {es : List (Entry PacedOutput PacedAction OutputEvent)}
    (run : Run (pacedMachine c) es s) : s.Paced := by
  refine run.invariant ⟨?_, ?_, fun _ => ⟨rfl, rfl, rfl⟩⟩
    fun paced stepped => (step_paced paced stepped).1
  · intro p held
    cases held
  · intro l looping
    cases looping

end PacedOutput

/-- In every run of either worker the deadline is the start time plus the periods worked on and
the periods missed; every completed iteration leads to the first grid point ahead of its end,
and counts those it passed by. -/
theorem workers_paced (c : MPCControlConfig) :
    (∀ (Pose : Type) (first : Pose) es s, Run (planMachine c first) es s →
      (∀ p, s.pace = some p → p.OnGrid planningPeriod) ∧ ∀ x ∈ es, Planner.Advances x) ∧
    ∀ es s, Run (pacedMachine c) es s →
      (∀ p, s.pace = some p → p.OnGrid outputPeriod) ∧ ∀ x ∈ es, PacedOutput.Advances x := by
  refine ⟨fun Pose first es s run => ⟨(Planner.paced_of_run run).grid, fun x member => ?_⟩,
    fun es s run => ⟨(PacedOutput.paced_of_run run).grid, fun x member => ?_⟩⟩
  · obtain ⟨past, before, stepped⟩ := run.entry_of_mem member
    exact (Planner.step_paced (Planner.paced_of_run before) stepped).2
  · obtain ⟨past, before, stepped⟩ := run.entry_of_mem member
    exact (PacedOutput.step_paced (PacedOutput.paced_of_run before) stepped).2

/-- The planner's first iteration: a solve of 50 ms that throws. -/
def longSolve : PlanIteration Unit where
  measurement := some stillMeasurement
  now := 1
  begun := 1
  solved := none
  done := 1 + milliseconds 50

def plannerStart : PlanLoop Unit := { pace := .startingAt 1, target := () }

theorem longSolve_completes : ∃ after : PlanLoop Unit,
    plannerStart.iterate {} longSolve = ({ asked := some (stillMeasurement, ()) }, .ok after) ∧
      after.pace = ⟨1, 1 + milliseconds 60, 2, 1⟩ := by
  have valid : stillMeasurement.fault {} longSolve.now = none := stillMeasurement_valid
  have measured : longSolve.measurement = some stillMeasurement := rfl
  have completes : plannerStart.iterate {} longSolve =
      ({ asked := some (stillMeasurement, ()) }, .ok { plannerStart.record (-2) (milliseconds 50) with
        pace := plannerStart.pace.complete planningPeriod longSolve.done }) := by
    rw [PlanLoop.iterate, if_neg (by decide)]
    simp only [measured, valid]
    rfl
  refine ⟨_, completes, ?_⟩
  change plannerStart.pace.complete planningPeriod longSolve.done = _
  decide

theorem workers_paced_longSolve : ∃ es s p, Run (planMachine {} ()) es s ∧
    s.pace = some p ∧ p.next = 1 + milliseconds 60 ∧ p.missed = 2 ∧ p.OnGrid planningPeriod := by
  obtain ⟨after, completes, pace⟩ := longSolve_completes
  have started : (planMachine {} ()).step {} (.start 1) =
      some (⟨.iterating plannerStart, 1⟩, {}) := rfl
  have stepped : (planMachine {} ()).step ⟨.iterating plannerStart, 1⟩ (.iterate longSolve) =
      some (⟨.pausing after, longSolve.done⟩, { asked := some (stillMeasurement, ()) }) := by
    simp only [planMachine, Planner.step]
    rw [if_pos (by decide), completes]
  have run := Run.snoc (Run.snoc .nil started) stepped
  refine ⟨_, _, after.pace, run, rfl, by rw [pace], by rw [pace], ?_⟩
  exact ((workers_paced {}).1 Unit () _ _ run).1 _ rfl

end Florid.Mpc

end
