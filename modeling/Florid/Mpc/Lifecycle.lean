import Florid.Mpc.Session

/-! `MPCSession` from its construction to the end of its workers: callers of `write` and `stop`
(the destructor stops too), the two workers, the stop reason, the flag of the first target and
the two semaphores. Each access to one of these is a step of its own. What an iteration of a
worker decides (its measurements, plans and deadlines are in other modules) is an input. -/
namespace Florid.Mpc
open Transition

def MPCStopReason.isSet : MPCStopReason → Bool
  | .none => false
  | _ => true

inductive Worker where
  | planner
  | output
deriving DecidableEq

inductive Thread where
  | worker (w : Worker)
  | caller (n : Nat)
deriving DecidableEq

/-- Where `requestStop` returns to: a caller joins or refuses its target, a worker leaves its loop
or has left it. -/
inductive Back where
  | join
  | refuse (late : Bool)
  | finish
  | exit

/-- What a thread does next. A `write` remembers whether a stop reason was set when it began. -/
inductive Pc where
  | idle
  | lock (late : Bool)
  | check (late : Bool)
  | publish (late : Bool)
  | load (late : Bool)
  | first (late : Bool)
  | wake (late : Bool) (w : Worker)
  | unlock (late threw : Bool)
  | compare (reason : MPCStopReason) (back : Back)
  | release (w : Worker) (back : Back)
  | joinLock
  | join (w : Worker)
  | joinUnlock
  | unborn
  | resolution
  | acquire
  | woken
  | top
  | body
  | checked
  | act
  | settle
  | waiting
  | trying
  | waited
  | finishing
  | ended

def Back.pc : Back → Pc
  | .join => .joinLock
  | .refuse late => .unlock late true
  | .finish => .finishing
  | .exit => .ended

inductive Construction where
  | planner
  | output
  | done
  | failed

def initialPc : Thread → Pc
  | .worker _ => .unborn
  | .caller _ => .idle

/-- The members that threads share, with what each thread does next. The releases of each
semaphore are counted, and how far the releases for the stop and for the first target are: none
is due, the planner's is next, the output's is, or both are done. -/
structure Lifecycle where
  stopReason : MPCStopReason := .none
  started : Bool := false
  wake : Worker → Nat := fun _ => 0
  writeMutex : Option Nat := none
  joinMutex : Option Nat := none
  joinable : Worker → Bool := fun _ => false
  construction : Construction := .planner
  pc : Thread → Pc := initialPc
  released : Worker → Nat := fun _ => 0
  stopStage : Nat := 0
  firstStage : Nat := 0
  returned : Bool := false

inductive Outcome where
  | ok
  | fails
  | fault (reason : MPCStopReason)
  | skip
  | again

inductive LifecycleAction where
  /-- The constructor creates its next thread. -/
  | create (succeeds : Bool)
  | write (n : Nat) (motionFinished valid : Bool)
  | stop (n : Nat) (reason : MPCStopReason)
  | caller (n : Nat) (outcome : Outcome)
  | worker (w : Worker) (outcome : Outcome)

inductive LifecycleEvent where
  | quiet
  | published (late : Bool)
  | wrote (late : Bool)
  | threw (late : Bool)
  | sent
  | stopReturned

/-- The order in which the semaphores are released. -/
def Worker.turn : Worker → Nat
  | .planner => 1
  | .output => 2

namespace Lifecycle

def stopped (s : Lifecycle) : Bool := s.stopReason.isSet

def move (s : Lifecycle) (t : Thread) (pc : Pc) : Lifecycle :=
  { s with pc := Function.update s.pc t pc }

def release (s : Lifecycle) (w : Worker) : Lifecycle :=
  { s with
    wake := Function.update s.wake w (s.wake w + 1)
    released := Function.update s.released w (s.released w + 1) }

/-- A token that an acquire takes, if there is one. -/
def take (s : Lifecycle) (w : Worker) (pc : Pc) : Option Lifecycle :=
  if 0 < s.wake w then
    some { s.move (.worker w) pc with wake := Function.update s.wake w (s.wake w - 1) }
  else none

def afterWake (late : Bool) : Worker → Pc
  | .planner => .wake late .output
  | .output => .unlock late false

def afterRelease (back : Back) : Worker → Pc
  | .planner => .release .output back
  | .output => back.pc

/-- The output worker is joined first. -/
def afterJoin : Worker → Pc
  | .output => .join .planner
  | .planner => .joinUnlock

/-- `requestStop`: the first reason stays, and whoever sets it releases both semaphores. -/
def requestStop (s : Lifecycle) (t : Thread) : Pc → Option Lifecycle
  | .compare reason back =>
    some (if s.stopped then s.move t back.pc
      else { s.move t (.release .planner back) with stopReason := reason, stopStage := 1 })
  | .release w back =>
    some { (s.move t (afterRelease back w)).release w with stopStage := w.turn + 1 }
  | _ => none

/-- The next access of a caller inside `write` or `stop`. -/
def callerStep (s : Lifecycle) (n : Nat) (outcome : Outcome) :
    Pc → Option (Lifecycle × LifecycleEvent)
  | .lock late =>
    if s.writeMutex.isNone then
      some ({ s.move (.caller n) (.check late) with writeMutex := some n }, .quiet)
    else none
  | .check late =>
    some (s.move (.caller n) (if s.stopped then .unlock late true else .publish late), .quiet)
  | .publish late =>
    match outcome with
    | .ok => some (s.move (.caller n) (.load late), .published late)
    | _ => some (s.move (.caller n) (.compare .internalError (.refuse late)), .quiet)
  | .load late =>
    some (s.move (.caller n) (if s.started then .unlock late false else .first late), .quiet)
  | .first late =>
    some ({ s.move (.caller n) (.wake late .planner) with started := true, firstStage := 1 }, .quiet)
  | .wake late w =>
    some ({ (s.move (.caller n) (afterWake late w)).release w with firstStage := w.turn + 1 },
      .quiet)
  | .unlock late threw =>
    some ({ s.move (.caller n) .idle with writeMutex := none },
      if threw then .threw late else .wrote late)
  | .joinLock =>
    if s.joinMutex.isNone then
      some ({ s.move (.caller n) (.join .output) with joinMutex := some n }, .quiet)
    else none
  | .join w =>
    if s.joinable w then
      match s.pc (.worker w) with
      | .ended =>
        some ({ s.move (.caller n) (afterJoin w) with
          joinable := Function.update s.joinable w false }, .quiet)
      | _ => none
    else some (s.move (.caller n) (afterJoin w), .quiet)
  | .joinUnlock =>
    some ({ s.move (.caller n) .idle with joinMutex := none, returned := true }, .stopReturned)
  | pc => (s.requestStop (.caller n) pc).map (·, .quiet)

/-- A fault of a worker, with the place its request returns to. -/
def fault (s : Lifecycle) (w : Worker) (reason : MPCStopReason) (back : Back) :
    Option (Lifecycle × LifecycleEvent) :=
  if reason.isSet then some (s.move (.worker w) (.compare reason back), .quiet) else none

/-- The check of the stop reason on the way to the next part of a loop. -/
def unlessStopped (s : Lifecycle) (w : Worker) (pc : Pc) : Lifecycle × LifecycleEvent :=
  (s.move (.worker w) (if s.stopped then .finishing else pc), .quiet)

/-- The next access of `planLoop` or `outputLoop`. The planner checks for a stop between its solve
and the publication of the plan, the output worker between its checks and the send. -/
def workerStep (s : Lifecycle) (w : Worker) (outcome : Outcome) :
    Pc → Option (Lifecycle × LifecycleEvent)
  | .resolution =>
    match outcome with
    | .ok => some (s.move (.worker w) .acquire, .quiet)
    | _ => s.fault w .outputDeadline .finish
  | .acquire =>
    (s.take w (match w with | .planner => .top | .output => .woken)).map (·, .quiet)
  | .woken => some (s.unlessStopped w .top)
  | .top => some (s.unlessStopped w .body)
  | .body =>
    match w, outcome with
    | _, .ok => some (s.move (.worker w) .checked, .quiet)
    -- without a plan there is nothing to send
    | .output, .skip => some (s.move (.worker w) .settle, .quiet)
    | _, .fault reason => s.fault w reason .finish
    | _, _ => none
  | .checked => some (s.unlessStopped w .act)
  | .act =>
    match w, outcome with
    | .planner, .ok => some (s.move (.worker w) .settle, .quiet)
    | .planner, _ => s.fault w .internalError .finish
    | .output, .ok => some (s.move (.worker w) .settle, .sent)
    | .output, _ => (s.fault w .transport .finish).map fun next => (next.1, .sent)
  | .settle =>
    match outcome with
    | .ok => some (s.move (.worker w) .waiting, .quiet)
    | .fault reason => s.fault w reason .finish
    | _ => none
  | .waiting =>
    match outcome with
    | .again => some (s.unlessStopped w .trying)
    | _ => some (s.unlessStopped w .waited)
  | .trying =>
    match outcome with
    | .again => some (s.move (.worker w) .waiting, .quiet)
    | _ => (s.take w .waiting).map (·, .quiet)
  | .waited => some (s.unlessStopped w .top)
  | .finishing =>
    match outcome with
    | .ok => some (s.move (.worker w) .ended, .quiet)
    | _ => s.fault w .internalError .exit
  | pc => (s.requestStop (.worker w) pc).map (·, .quiet)

def step (s : Lifecycle) : LifecycleAction → Option (Lifecycle × LifecycleEvent)
  | .create succeeds =>
    match s.construction, succeeds with
    | .planner, true =>
      some ({ s.move (.worker .planner) .acquire with
        joinable := Function.update s.joinable .planner true, construction := .output }, .quiet)
    | .output, true =>
      some ({ s.move (.worker .output) .resolution with
        joinable := Function.update s.joinable .output true, construction := .done }, .quiet)
    -- the constructor stops the planner before it throws
    | .output, false =>
      some ({ s.move (.caller 0) (.compare .stopped .join) with construction := .failed }, .quiet)
    | _, _ => none
  | .write n motionFinished valid =>
    match s.construction, s.pc (.caller n) with
    | .done, .idle =>
      if motionFinished then some (s.move (.caller n) (.compare .motionFinished .join), .quiet)
      else if valid then some (s.move (.caller n) (.lock s.stopped), .quiet)
      else some (s, .threw s.stopped)
    | _, _ => none
  | .stop n reason =>
    match s.construction, s.pc (.caller n) with
    | .done, .idle =>
      some (s.move (.caller n) (.compare (if reason.isSet then reason else .stopped) .join), .quiet)
    | _, _ => none
  | .caller n outcome => s.callerStep n outcome (s.pc (.caller n))
  | .worker w outcome => s.workerStep w outcome (s.pc (.worker w))

end Lifecycle

def lifecycle : Machine Lifecycle LifecycleAction LifecycleEvent := ⟨{}, Lifecycle.step⟩

end Florid.Mpc
