import Florid.CoalescedWake
import Florid.Arm.Session

/-! The control loops of `ArmImpl` with what starts, wakes and ends them, one atomic
access, one lock or one blocking call a step: `s_controlLoop`, `s_gripperLoop`, the two
ways to a polling handle, `s_onArmStatus` and the calls that run `s_stopControlLocked`.
Sends and MPC workers touch none of the flags and are followed only as far as they may
throw. `started` and `live` follow the sessions and are not in the source. -/
namespace Florid.Arm.Loops
open Transition Wirelink

/-- A session: of the arm, of a gripper loop, or of a gripper handle. -/
inductive LiveSession where
  | arm (serial : Nat)
  | gripper (t : Nat)
  | gripperHandle (t : Nat)
  deriving DecidableEq

/-- The loop a thread runs; an arm loop has its generation and may have an MPC session. -/
inductive LoopKind where
  | arm (generation serial : Nat) (mpc : Bool)
  | gripper
  deriving DecidableEq

/-- Where a loop reads its condition: at its head, after the semaphore, and in an arm
loop again after the callback, which may have asked to finish. -/
inductive LoopPlace where
  | head
  | woken
  | called (finished : Bool)
  deriving DecidableEq

/-- The loads of the condition, in their order. -/
inductive LoopLoad where
  | running
  | stopFlag
  | generation
  deriving DecidableEq

inductive WakeStage where
  | raiseStop
  | lowerRunning
  | exchange
  | release
  | invalidate
  deriving DecidableEq

inductive LoopPc where
  | idle
  /-- `s_onArmStatus` after the snapshot, and after an exchange that found no wake. -/
  | published
  | releasing
  /-- `s_stopControlLocked` and what follows it, under `m_session_mutex`. -/
  | stopping (stage : WakeStage) (op : Lifecycle)
  | calling (op : Lifecycle) (calls : List Call) (ok : Bool)
  | lowerStop (op : Lifecycle)
  | raiseRunning (op : Lifecycle)
  | opening (op : Lifecycle) (serial : Nat)
  /-- `s_gripperLoop` before its loop. -/
  | entering (calls : List Call)
  | gripperCalling (calls : List Call)
  /-- `s_prepareGripperControl` -/
  | preparing (calls : List Call)
  | reading (loop : LoopKind) (place : LoopPlace) (load : LoopLoad)
  | waiting (loop : LoopKind)
  | acquired (loop : LoopKind)
  | taking (loop : LoopKind)
  | inCallback (loop : LoopKind)
  | sending (loop : LoopKind) (finished : Bool)
  | leaving (loop : LoopKind)
  | clearing (generation serial : Nat)

structure LoopState where
  running : Bool := false
  stopFlag : Bool := false
  /-- `m_state_wake_pending` and `m_data_ready` -/
  pending : Bool := false
  count : Nat := 0
  /-- The generations of the latest state and of the last one taken. -/
  published : Nat := 0
  consumed : Nat := 0
  generation : Nat := 1
  mutex : Option Nat := none
  threads : Nat → LoopPc := fun _ => .idle
  started : Nat := 0
  /-- The arm sessions whose workers a `CartesianMPCControl` can stop. -/
  mpcHandles : List Nat := []
  live : List LiveSession := []

/-- How a blocking call, a wait, a callback or a construction ends. -/
inductive Outcome where
  | ok
  | expired
  | finished
  | thrown
  deriving DecidableEq

inductive LoopAction where
  | begin (t : Nat) (op : Lifecycle)
  | gripperLoop (t : Nat) (mode : FciMotorControlMode) (cached : Bool)
  | gripperControl (t : Nat) (mode : FciMotorControlMode) (cached : Bool)
  | status (t generation : Nat)
  | readOnce
  /-- The workers of an MPC handle stop: by its `stop`, its end, or a fault. -/
  | mpcStop (serial : Nat)
  | advance (t : Nat) (outcome : Outcome)

inductive LoopEvent where
  | quiet
  /-- A loop that was woken leaves without taking a state. -/
  | dropped
  deriving DecidableEq

/-- The RPCs before a gripper loop or handle. -/
def gripperCalls (mode : FciMotorControlMode) (cached : Bool) : List Call :=
  .setArmMode .pc defaultRpcTimeoutMs ::
    if cached then [] else [.setGripperControlMode mode defaultRpcTimeoutMs]

namespace LoopState

def firmwareUploadAllowed (s : LoopState) : Bool := !s.running

def set (s : LoopState) (t : Nat) (pc : LoopPc) : LoopState :=
  { s with threads := Function.update s.threads t pc }

def unlock (s : LoopState) (t : Nat) (pc : LoopPc) : LoopState :=
  { s.set t pc with mutex := none }

def enroll (s : LoopState) (x : LiveSession) : LoopState := { s with live := x :: s.live }

def retire (s : LoopState) (x : LiveSession) : LoopState :=
  { s with live := s.live.filter (· ≠ x) }

/-- There is a state that has not been taken. -/
def fresh (s : LoopState) : Bool := s.published ≠ 0 && s.published ≠ s.consumed

def stopStep (s : LoopState) (t : Nat) (op : Lifecycle) : WakeStage → LoopState
  | .raiseStop => { s.set t (.stopping .lowerRunning op) with stopFlag := true }
  | .lowerRunning => { s.set t (.stopping .exchange op) with running := false, live := [] }
  | .exchange =>
    if s.pending then s.set t (.stopping .invalidate op)
    else { s.set t (.stopping .release op) with pending := true }
  | .release => { s.set t (.stopping .invalidate op) with count := s.count + 1 }
  | .invalidate =>
    { s.set t (.calling op op.calls true) with
      generation := (s.generation + 1) % generationSpan }

/-- The end of a start. The construction of an MPC session may throw. -/
def openStep (s : LoopState) (t serial : Nat) (outcome : Outcome) : Lifecycle → Option LoopState
  | .prepareControl _ _ loop => some (s.unlock t (afterStart loop false))
  | .startMPC _ loop =>
    if outcome = .thrown then some ((s.unlock t .idle).retire (.arm serial))
    else
      some { s.unlock t (afterStart loop true) with
        mpcHandles := if loop then s.mpcHandles else serial :: s.mpcHandles }
  | _ => none
where
  afterStart (loop mpc : Bool) : LoopPc :=
    if loop then .reading (.arm s.generation serial mpc) .head .running else .idle

/-- Whether a load lets the loop go on. A gripper loop reads no generation. -/
def passes (s : LoopState) (loop : LoopKind) : LoopLoad → Bool
  | .running => s.running
  | .stopFlag => !s.stopFlag
  | .generation =>
    match loop with
    | .arm g _ _ => g == s.generation
    | .gripper => false

/-- Where a loop goes once the condition has been read. -/
def passed (loop : LoopKind) : LoopPlace → LoopPc
  | .head => .waiting loop
  | .woken => .taking loop
  | .called finished => .sending loop finished

def afterLoad (loop : LoopKind) (place : LoopPlace) : LoopLoad → LoopPc
  | .running => .reading loop place .stopFlag
  | .stopFlag =>
    match loop with
    | .arm _ _ _ => .reading loop place .generation
    | .gripper => passed loop place
  | .generation => passed loop place

/-- An exception inside a loop: an arm loop still cleans up, a gripper loop does not. -/
def throwStep (s : LoopState) (t : Nat) : LoopKind → LoopState
  | .arm g k mpc => s.set t (.leaving (.arm g k mpc))
  | .gripper => (s.set t .idle).retire (.gripper t)

/-- `try_acquire_for` may run out, and an MPC loop then looks at its session; `acquire`
only ends with a token. -/
def waitStep (s : LoopState) (t : Nat) (outcome : Outcome) : LoopKind → Option LoopState
  | .gripper =>
    if 0 < s.count then some { s.set t (.acquired .gripper) with count := s.count - 1 } else none
  | .arm g k mpc =>
    match outcome with
    | .ok =>
      if 0 < s.count then some { s.set t (.acquired (.arm g k mpc)) with count := s.count - 1 }
      else none
    | .expired => some (s.set t (.reading (.arm g k mpc) .head .running))
    | .finished | .thrown => if mpc then some (s.set t (.leaving (.arm g k mpc))) else none

def advance (s : LoopState) (t : Nat) (outcome : Outcome) : Option (LoopState × LoopEvent) :=
  match s.threads t with
  | .idle => none
  | .published =>
    if s.pending then some (s.set t .idle, .quiet)
    else some ({ s.set t .releasing with pending := true }, .quiet)
  | .releasing => some ({ s.set t .idle with count := s.count + 1 }, .quiet)
  | .stopping stage op => some (s.stopStep t op stage, .quiet)
  | .calling op calls succeeded =>
    match calls with
    | call :: rest =>
      let ok := outcome ≠ .thrown
      some (s.set t (.calling op (if ok then rest else op.afterFailure call rest)
        (succeeded && ok)), .quiet)
    | [] =>
      if succeeded && op.starts then some (s.set t (.lowerStop op), .quiet)
      else some (s.unlock t .idle, .quiet)
  | .lowerStop op => some ({ s.set t (.raiseRunning op) with stopFlag := false }, .quiet)
  | .raiseRunning op =>
    some ({ (s.set t (.opening op s.started)).enroll (.arm s.started) with
      running := true
      started := s.started + 1 }, .quiet)
  | .opening op k => (s.openStep t k outcome op).map (·, .quiet)
  | .entering calls => some ({ s.set t (.gripperCalling calls) with stopFlag := false }, .quiet)
  | .gripperCalling (_ :: rest) =>
    if outcome = .thrown then some (s.throwStep t .gripper, .quiet)
    else some (s.set t (.gripperCalling rest), .quiet)
  | .gripperCalling [] => some (s.set t (.reading .gripper .head .running), .quiet)
  | .preparing (_ :: rest) =>
    some (s.set t (if outcome = .thrown then .idle else .preparing rest), .quiet)
  | .preparing [] => some ((s.set t .idle).enroll (.gripperHandle t), .quiet)
  | .reading loop place load =>
    if s.passes loop load then some (s.set t (afterLoad loop place load), .quiet)
    else some (s.set t (.leaving loop), if place = .woken then .dropped else .quiet)
  | .waiting loop => (s.waitStep t outcome loop).map (·, .quiet)
  | .acquired loop =>
    some ({ s.set t (.reading loop .woken .running) with pending := false }, .quiet)
  | .taking loop =>
    if s.fresh then some ({ s.set t (.inCallback loop) with consumed := s.published }, .quiet)
    else some (s.set t (.reading loop .head .running), .quiet)
  | .inCallback loop =>
    match outcome, loop with
    | .thrown, _ => some (s.throwStep t loop, .quiet)
    | _, .gripper => some (s.set t (.sending .gripper (outcome = .finished)), .quiet)
    | _, .arm g k mpc =>
      some (s.set t (.reading (.arm g k mpc) (.called (outcome = .finished)) .running), .quiet)
  | .sending loop finished =>
    if outcome = .thrown then some (s.throwStep t loop, .quiet)
    else some (s.set t (if finished then .leaving loop else .reading loop .head .running), .quiet)
  | .leaving .gripper =>
    some ({ (s.set t .idle).retire (.gripper t) with running := false }, .quiet)
  | .leaving (.arm g k _) =>
    if s.mutex = none then some ({ s.set t (.clearing g k) with mutex := some t }, .quiet)
    else none
  | .clearing g k =>
    some ({ (s.unlock t .idle).retire (.arm k) with
      running := if g = s.generation then false else s.running }, .quiet)

def step (s : LoopState) : LoopAction → Option (LoopState × LoopEvent)
  | .begin t op =>
    match s.threads t, s.mutex with
    | .idle, none => some ({ s.set t (.stopping .raiseStop op) with mutex := some t }, .quiet)
    | _, _ => none
  | .gripperLoop t mode cached =>
    match s.threads t with
    | .idle =>
      some ({ (s.set t (.entering (gripperCalls mode cached))).enroll (.gripper t) with
        running := true }, .quiet)
    | _ => none
  | .gripperControl t mode cached =>
    match s.threads t with
    | .idle => some (s.set t (.preparing (gripperCalls mode cached)), .quiet)
    | _ => none
  | .status t generation =>
    match s.threads t with
    | .idle => some ({ s.set t .published with published := generation }, .quiet)
    | _ => none
  | .readOnce => some (if s.fresh then { s with consumed := s.published } else s, .quiet)
  | .mpcStop k => if k ∈ s.mpcHandles then some (s.retire (.arm k), .quiet) else none
  | .advance t outcome => s.advance t outcome

variable {s next : LoopState} {t : Nat}

/-- A step moves only its own thread. -/
theorem advance_frame {outcome : Outcome} {event : LoopEvent}
    (stepped : s.advance t outcome = some (next, event)) {u : Nat} (apart : u ≠ t) :
    next.threads u = s.threads u := by
  have moved : ∃ pc, next.threads = (s.set t pc).threads := by
    cases at' : s.threads t with
    | idle =>
      simp only [advance, at'] at stepped
      cases stepped
    | stopping stage op =>
      simp only [advance, at', Option.some.injEq, Prod.mk.injEq] at stepped
      obtain ⟨rfl, -⟩ := stepped
      cases stage with
      | exchange =>
        simp only [stopStep]
        split <;> exact ⟨_, rfl⟩
      | raiseStop | lowerRunning | release | invalidate => exact ⟨_, rfl⟩
    | calling op calls succeeded =>
      cases calls <;> simp only [advance, at'] at stepped
      · split at stepped <;> cases stepped <;> exact ⟨_, rfl⟩
      · cases stepped
        exact ⟨_, rfl⟩
    | opening op k =>
      simp only [advance, at', Option.map_eq_some_iff, Prod.mk.injEq] at stepped
      obtain ⟨opened, stepped, rfl, -⟩ := stepped
      unfold openStep at stepped
      split at stepped <;> try split at stepped
      all_goals first | (cases stepped; done) | (cases stepped; exact ⟨_, rfl⟩)
    | waiting loop =>
      simp only [advance, at', Option.map_eq_some_iff, Prod.mk.injEq] at stepped
      obtain ⟨waited, stepped, rfl, -⟩ := stepped
      unfold waitStep at stepped
      split at stepped <;> try split at stepped
      all_goals try split at stepped
      all_goals first | (cases stepped; done) | (cases stepped; exact ⟨_, rfl⟩)
    | inCallback loop =>
      simp only [advance, at'] at stepped
      cases outcome <;> cases loop <;> cases stepped <;> exact ⟨_, rfl⟩
    | sending loop finished =>
      simp only [advance, at'] at stepped
      split at stepped <;> cases stepped
      · cases loop <;> exact ⟨_, rfl⟩
      · exact ⟨_, rfl⟩
    | gripperCalling calls | preparing calls =>
      cases calls <;> simp only [advance, at'] at stepped <;> try split at stepped
      all_goals cases stepped; exact ⟨_, rfl⟩
    | leaving loop =>
      cases loop <;> simp only [advance, at'] at stepped <;> try split at stepped
      all_goals first | (cases stepped; done) | (cases stepped; exact ⟨_, rfl⟩)
    | published | reading | taking =>
      simp only [advance, at'] at stepped
      split at stepped <;> cases stepped <;> exact ⟨_, rfl⟩
    | releasing | lowerStop | raiseRunning | entering | acquired | clearing =>
      simp only [advance, at'] at stepped
      cases stepped
      exact ⟨_, rfl⟩
  obtain ⟨pc, threads⟩ := moved
  rw [threads]
  simp [set, apart]

end LoopState

def loopMachine : Machine LoopState LoopAction LoopEvent := ⟨{}, LoopState.step⟩

/-- A thread takes `n` steps in which nothing fails. -/
def goOn (t n : Nat) : List LoopAction := List.replicate n (.advance t .ok)

end Florid.Arm.Loops
