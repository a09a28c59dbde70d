import Florid.DrainGate
import Florid.Arm.Operations

/-! Control sessions of `ArmImpl`: the generation gate, the session mutex, the shared
flags, the control loops and the workers of the MPC sessions. An action is one atomic
access, one lock or one blocking call of some thread. A callback that calls the arm from
inside a loop acts as another thread. -/
namespace Florid.Arm
open Transition Wirelink DrainGate

/-- The public calls that end the current session: `enable`, `drag` and `disable` are
`setArmMode`. The two starts return to a caller who keeps a handle, or into a loop. -/
inductive Lifecycle where
  | stop
  | home
  | setArmMode (mode : FciArmMode)
  | automaticErrorRecovery
  | prepareControl (mode : FciMotorControlMode) (cached loop : Bool)
  | startMPC (cached loop : Bool)

/-- The RPCs of a lifecycle call, submitted after `s_stopControlLocked`. A start skips
the control mode when it is cached. -/
def Lifecycle.calls : Lifecycle → List Call
  | .stop => []
  | .home =>
    [.acquireControlLease homeLeaseDurationMs 1000, .home 10000,
      .acquireControlLease leaseDurationMs 1000]
  | .setArmMode mode => [.setArmMode mode defaultRpcTimeoutMs]
  | .automaticErrorRecovery =>
    .clearFaults defaultRpcTimeoutMs ::
      (List.range 6).map fun joint => .clearError joint defaultRpcTimeoutMs
  | .prepareControl mode cached _ => modeCalls mode cached
  | .startMPC cached _ => modeCalls .pvt cached
where
  modeCalls (mode : FciMotorControlMode) (cached : Bool) : List Call :=
    .setArmMode .pc defaultRpcTimeoutMs ::
      if cached then [] else [.setArmControlMode mode defaultRpcTimeoutMs]

/-- What is still called after a failed RPC: `home` restores its lease. -/
def Lifecycle.afterFailure : Lifecycle → Call → List Call → List Call
  | .home, .home _, rest => rest
  | _, _, _ => []

/-- Whether the call opens a session once its RPCs have succeeded. -/
def Lifecycle.starts : Lifecycle → Bool
  | .prepareControl .. | .startMPC .. => true
  | _ => false

/-- The locals of `s_controlLoop`. -/
structure Frame where
  generation : Nat
  session : Option Nat
  deriving DecidableEq

/-- The steps of `s_stopControlLocked`: the two flags, `invalidate`, and the stop of the
last MPC session with its joins. -/
inductive Stage where
  | raiseStop | lowerRunning | drain | advance | await | undrain | requestStop | joinOutput
  | joinPlanner
  deriving DecidableEq

/-- Where a thread stands. In `send` it comes from a handle or from a loop. The
positions from `stopping` to `opening`, and from `clearing` on, are under
`m_session_mutex`. -/
inductive SessionPc where
  | idle
  | checked (generation : Nat) (back : Option Frame)
  | counted (generation : Nat) (back : Option Frame)
  | inside (generation : Nat) (back : Option Frame)
  | leaving (generation : Nat) (back : Option Frame) (thrown : Bool)
  | loop (frame : Frame)
  | polled (frame : Frame)
  | exiting (frame : Frame)
  | stopping (stage : Stage) (op : Lifecycle)
  | calling (op : Lifecycle) (calls : List Call) (ok : Bool)
  | lowerStop (op : Lifecycle)
  | raiseRunning (op : Lifecycle)
  | opening (op : Lifecycle)
  | clearing (frame : Frame)
  | halting (session : Nat)
  | joining (session : Nat) (output : Bool)
  | unlocking

/-- Where the output worker of an MPC session stands: anywhere in its loop, past the
last look at the stop reason, or in `m_send`. -/
inductive Worker where
  | working | cleared | sending | exited
  deriving DecidableEq

structure MPCWorkers where
  stopRequested : Bool := true
  output : Worker := .exited
  plannerExited : Bool := true
  deriving DecidableEq

structure Sessions where
  generation : Nat := 1
  inflight : Nat := 0
  draining : Bool := false
  running : Bool := false
  stopFlag : Bool := false
  mutex : Option Nat := none
  /-- `m_mpc`, as an index into the sessions constructed so far. -/
  mpc : Option Nat := none
  constructed : Nat := 0
  workers : Nat → MPCWorkers := fun _ => {}
  /-- The generations captured by `ActiveControl` handles. -/
  handles : List Nat := []
  threads : Nat → SessionPc := fun _ => .idle

/-- `m_generation` is a `uint64_t` and `m_inflight` an `unsigned`. -/
def generationSpan : Nat := 2 ^ 64
def inflightSpan : Nat := 2 ^ 32

inductive SessionAction where
  | begin (t : Nat) (op : Lifecycle)
  | send (t : Nat) (generation : Nat)
  | advance (t : Nat) (ok : Bool)
  | poll (t : Nat)
  | loopSend (t : Nat)
  | loopWrite (t : Nat)
  | loopAgain (t : Nat)
  | loopLeave (t : Nat)
  | requestStop (session : Nat)
  | worker (session : Nat) (next : Worker)
  | plannerExit (session : Nat)

inductive SessionEvent where
  | quiet
  | expired (generation : Nat)
  | command (generation : Nat)
  | mpcCommand (session : Nat)
  | invalidated
  | rpc (call : Call)
  | opened (generation : Nat) (session : Option Nat)

/-- The step is the `fetch_add` of `invalidate`. -/
def SessionEvent.invalidates : SessionEvent → Bool
  | .invalidated => true
  | _ => false

namespace Sessions

def set (s : Sessions) (t : Nat) (pc : SessionPc) : Sessions :=
  { s with threads := Function.update s.threads t pc }

def setWorkers (s : Sessions) (k : Nat) (workers : MPCWorkers) : Sessions :=
  { s with workers := Function.update s.workers k workers }

/-- `requestStop` of session `k`. -/
def requestStop (s : Sessions) (k : Nat) : Sessions :=
  s.setWorkers k { s.workers k with stopRequested := true }

def unlock (s : Sessions) (t : Nat) (pc : SessionPc) : Sessions :=
  { s.set t pc with mutex := none }

/-- The next step of `s_stopControlLocked`; a wait or a join is enabled once it is over. -/
def stopStep (s : Sessions) (t : Nat) (op : Lifecycle) : Stage → Option (Sessions × SessionEvent)
  | .raiseStop => some ({ s.set t (.stopping .lowerRunning op) with stopFlag := true }, .quiet)
  | .lowerRunning => some ({ s.set t (.stopping .drain op) with running := false }, .quiet)
  | .drain => some ({ s.set t (.stopping .advance op) with draining := true }, .quiet)
  | .advance =>
    some ({ s.set t (.stopping .await op) with generation := (s.generation + 1) % generationSpan },
      .invalidated)
  | .await => if s.inflight = 0 then some (s.set t (.stopping .undrain op), .quiet) else none
  | .undrain => some ({ s.set t (.stopping .requestStop op) with draining := false }, .quiet)
  | .requestStop =>
    match s.mpc with
    | none => some (s.set t (.calling op op.calls true), .quiet)
    | some k => some ((s.requestStop k).set t (.stopping .joinOutput op), .quiet)
  | .joinOutput =>
    match s.mpc with
    | none => none
    | some k =>
      if (s.workers k).output = .exited then
        some (s.set t (.stopping .joinPlanner op), .quiet)
      else none
  | .joinPlanner =>
    match s.mpc with
    | none => none
    | some k =>
      if (s.workers k).plannerExited then some (s.set t (.calling op op.calls true), .quiet)
      else none

/-- The end of a start: the token goes to the new handle or loop. The construction of
an MPC session may throw. -/
def openStep (s : Sessions) (t : Nat) (ok : Bool) :
    Lifecycle → Option (Sessions × SessionEvent)
  | .prepareControl _ _ loop =>
    let s' := s.unlock t (if loop then .loop ⟨s.generation, none⟩ else .idle)
    some ({ s' with handles := if loop then s.handles else s.generation :: s.handles },
      .opened s.generation none)
  | .startMPC _ loop =>
    if ok then
      let k := s.constructed
      let s' := s.unlock t (if loop then .loop ⟨s.generation, some k⟩ else .idle)
      let started : MPCWorkers :=
        { stopRequested := false, output := .working, plannerExited := false }
      some ({ s'.setWorkers k started with mpc := some k, constructed := k + 1 },
        .opened s.generation (some k))
    else some (s.unlock t .idle, .quiet)
  | _ => none

/-- The next step of thread `t` inside a routine. `ok` is the outcome of an RPC, a
submission, a loop iteration or a construction. -/
def advance (s : Sessions) (t : Nat) (ok : Bool) : Option (Sessions × SessionEvent) :=
  match s.threads t with
  | .checked g back =>
    some ({ s.set t (.counted g back) with inflight := (s.inflight + 1) % inflightSpan }, .quiet)
  | .counted g back =>
    if g = s.generation then some (s.set t (.inside g back), .command g)
    else some (s.set t (.leaving g back true), .expired g)
  | .inside g back => some (s.set t (.leaving g back !ok), .quiet)
  | .leaving _ back thrown =>
    let pc : SessionPc :=
      match back with
      | none => .idle
      | some frame => if thrown || !ok then .exiting frame else .loop frame
    some ({ s.set t pc with inflight := (s.inflight + inflightSpan - 1) % inflightSpan }, .quiet)
  | .exiting frame =>
    if s.mutex = none then some ({ s.set t (.clearing frame) with mutex := some t }, .quiet)
    else none
  | .stopping stage op => s.stopStep t op stage
  | .calling op calls succeeded =>
    match calls with
    | call :: rest =>
      some (s.set t (.calling op (if ok then rest else op.afterFailure call rest)
        (succeeded && ok)), .rpc call)
    | [] =>
      if succeeded && op.starts then some (s.set t (.lowerStop op), .quiet)
      else some (s.unlock t .idle, .quiet)
  | .lowerStop op => some ({ s.set t (.raiseRunning op) with stopFlag := false }, .quiet)
  | .raiseRunning op => some ({ s.set t (.opening op) with running := true }, .quiet)
  | .opening op => s.openStep t ok op
  | .clearing frame =>
    let pc : SessionPc :=
      match frame.session with
      | none => .unlocking
      | some k => .halting k
    some ({ s.set t pc with
      running := if frame.generation = s.generation then false else s.running }, .quiet)
  | .halting k => some ((s.requestStop k).set t (.joining k false), .quiet)
  | .joining k false =>
    if (s.workers k).output = .exited then some (s.set t (.joining k true), .quiet) else none
  | .joining k true =>
    if (s.workers k).plannerExited then some (s.set t .unlocking, .quiet) else none
  | .unlocking => some (s.unlock t .idle, .quiet)
  | .idle | .loop _ | .polled _ => none

/-- The condition of the control loop, read at its head and again before it sends. -/
def continues (s : Sessions) (frame : Frame) : Bool :=
  s.running && !s.stopFlag && frame.generation == s.generation

/-- A worker goes round its loop, looks at the stop reason before it sends, and may
leave its loop for any reason. -/
def workerStep (s : Sessions) (k : Nat) (next : Worker) : Option (Sessions × SessionEvent) :=
  let w := s.workers k
  let moved := s.setWorkers k { w with output := next }
  match w.output, next with
  | .working, .cleared => if w.stopRequested then none else some (moved, .quiet)
  | .cleared, .sending => some (moved, .mpcCommand k)
  | .sending, .working | .working, .exited | .sending, .exited => some (moved, .quiet)
  | _, _ => none

def step (s : Sessions) : SessionAction → Option (Sessions × SessionEvent)
  | .begin t op =>
    match s.threads t, s.mutex with
    | .idle, none => some ({ s.set t (.stopping .raiseStop op) with mutex := some t }, .quiet)
    | _, _ => none
  | .send t g =>
    match s.threads t with
    | .idle =>
      if g ∈ s.handles then
        if g = s.generation then some (s.set t (.checked g none), .quiet)
        else some (s, .expired g)
      else none
    | _ => none
  | .advance t ok => s.advance t ok
  | .poll t =>
    match s.threads t with
    | .loop frame =>
      some (s.set t (if s.continues frame then .polled frame else .exiting frame), .quiet)
    | _ => none
  | .loopSend t =>
    match s.threads t with
    | .polled frame =>
      match frame.session with
      | some _ => none
      | none =>
        if !s.continues frame then some (s.set t (.exiting frame), .quiet)
        else if frame.generation = s.generation then
          some (s.set t (.checked frame.generation (some frame)), .quiet)
        else some (s.set t (.exiting frame), .expired frame.generation)
    | _ => none
  | .loopWrite t =>
    match s.threads t with
    | .polled frame =>
      match frame.session with
      | none => none
      | some _ => some (s.set t (if s.continues frame then .loop frame else .exiting frame), .quiet)
    | _ => none
  | .loopAgain t =>
    match s.threads t with
    | .polled frame => some (s.set t (.loop frame), .quiet)
    | _ => none
  | .loopLeave t =>
    match s.threads t with
    | .polled frame => some (s.set t (.exiting frame), .quiet)
    | _ => none
  | .requestStop k => some (s.requestStop k, .quiet)
  | .worker k next => s.workerStep k next
  | .plannerExit k => some (s.setWorkers k { s.workers k with plannerExited := true }, .quiet)

end Sessions

def sessionMachine : Machine Sessions SessionAction SessionEvent := ⟨{}, Sessions.step⟩

end Florid.Arm
