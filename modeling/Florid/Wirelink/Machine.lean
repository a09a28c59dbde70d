import Florid.Transition
import Florid.Wirelink.Regions
import Mathlib.Logic.Function.Basic

/-! The endpoint as a machine: any number of caller threads, one owner thread and
the generated runtime. An action is one locked region or one lock-free read, so
runs interleave callers between any two regions of the owner's routines.

Of the runtime it is assumed only that an admitted call is completed once, later,
on the owner thread, and that a refused call is not. The upgrade client is seen
through `active()` alone, which may change at any time. The clock is an input. A
run starts after `start()` has returned and covers one life of the endpoint. -/
namespace Florid.Wirelink

/-- The public submit functions with their arguments. -/
inductive Call where
  | acquireControlLease (requestedTimeoutMs rpcTimeoutMs : Nat)
  | releaseControlLease (rpcTimeoutMs : Nat)
  | getDeviceInfo (timeoutMs : Nat)
  | setDeviceInfo (customName : List UInt8) (timeoutMs : Nat)
  | getDeviceSettings (timeoutMs : Nat)
  | setDeviceSettings (settings : DeviceSettings) (timeoutMs : Nat)
  | setArmControlMode (mode : FciMotorControlMode) (timeoutMs : Nat)
  | setGripperControlMode (mode : FciMotorControlMode) (timeoutMs : Nat)
  | setArmMode (mode : FciArmMode) (timeoutMs : Nat)
  | home (timeoutMs : Nat)
  | setZero (jointId timeoutMs : Nat)
  | clearError (jointId timeoutMs : Nat)
  | clearFaults (timeoutMs : Nat)
  | emergencyStop (timeoutMs : Nat)
  | readMotorRegister (jointId registerId timeoutMs : Nat)
  | writeMotorRegister (jointId registerId : Nat) (value : Binary32) (timeoutMs : Nat)
  | storeMotorParameters (jointId timeoutMs : Nat)
  | setMotorZero (jointId timeoutMs : Nat)

/-- The operation a call submits. -/
def Call.kind : Call → RpcKind
  | .acquireControlLease .. => .acquireLease
  | .releaseControlLease .. => .releaseLease
  | .getDeviceInfo .. => .getDeviceInfo
  | .setDeviceInfo .. => .setDeviceInfo
  | .getDeviceSettings .. => .getDeviceSettings
  | .setDeviceSettings .. => .setDeviceSettings
  | .setArmControlMode .. => .setArmControlMode
  | .setGripperControlMode .. => .setGripperControlMode
  | .setArmMode .. => .setArmMode
  | .home .. => .home
  | .setZero .. => .setZero
  | .clearError .. => .clearError
  | .clearFaults .. => .clearFaults
  | .emergencyStop .. => .emergencyStop
  | .readMotorRegister .. => .motorRegisterRead
  | .writeMotorRegister .. => .motorRegisterWrite
  | .storeMotorParameters .. => .motorStoreParameters
  | .setMotorZero .. => .motorSetZero

def validTimeout (timeoutMs : Nat) : Bool :=
  timeoutMs != 0 && decide (timeoutMs < maximumRelativeTimeout)

/-- Arguments of `s_submit`. -/
structure Submission where
  kind : RpcKind
  timeoutMs : Nat
  request : OperationRequest := {}

def checked (valid : Bool) (s : Submission) : Except FciEndpointStatus Submission :=
  if valid then .ok s else .error .invalidArgument

/-- A public submit function up to its call of `s_submit`: argument checks, and for
the two lease calls the region that reads the lease record. -/
def Call.prepare (e : Endpoint) : Call → Except FciEndpointStatus Submission
  | .acquireControlLease requested t =>
    if validTimeout requested && validTimeout t then
      (e.acquireCheck requested).map fun r => ⟨.acquireLease, t, r⟩
    else .error .invalidArgument
  | .releaseControlLease t =>
    if validTimeout t then e.releaseCheck.map fun r => ⟨.releaseLease, t, r⟩
    else .error .invalidArgument
  | .getDeviceInfo t => checked (validTimeout t) { kind := .getDeviceInfo, timeoutMs := t }
  | .setDeviceInfo name t =>
    checked (validTimeout t && decide (name.length ≤ maximumDeviceNameBytes))
      ⟨.setDeviceInfo, t, { customName := name }⟩
  | .getDeviceSettings t =>
    checked (validTimeout t) { kind := .getDeviceSettings, timeoutMs := t }
  | .setDeviceSettings settings t =>
    checked (validTimeout t && validSettings settings)
      ⟨.setDeviceSettings, t, { deviceSettings := settings }⟩
  | .setArmControlMode mode t =>
    checked (validTimeout t) ⟨.setArmControlMode, t, { controlMode := mode }⟩
  | .setGripperControlMode mode t =>
    checked (validTimeout t) ⟨.setGripperControlMode, t, { controlMode := mode }⟩
  | .setArmMode mode t => checked (validTimeout t) ⟨.setArmMode, t, { armMode := mode }⟩
  | .home t => checked (validTimeout t) { kind := .home, timeoutMs := t }
  | .setZero joint t =>
    checked (decide (joint ≤ 6) && validTimeout t) ⟨.setZero, t, { jointId := joint }⟩
  | .clearError joint t =>
    checked (decide (joint ≤ 6) && validTimeout t) ⟨.clearError, t, { jointId := joint }⟩
  | .clearFaults t => checked (validTimeout t) { kind := .clearFaults, timeoutMs := t }
  | .emergencyStop t => checked (validTimeout t) { kind := .emergencyStop, timeoutMs := t }
  | .readMotorRegister joint register t =>
    checked (decide (joint ≤ 6) && validTimeout t)
      ⟨.motorRegisterRead, t, { jointId := joint, registerId := register }⟩
  | .writeMotorRegister joint register value t =>
    checked (decide (joint ≤ 6) && value.isFinite && validTimeout t)
      ⟨.motorRegisterWrite, t, { jointId := joint, registerId := register, value }⟩
  | .storeMotorParameters joint t =>
    checked (decide (joint ≤ 6) && validTimeout t) ⟨.motorStoreParameters, t, { jointId := joint }⟩
  | .setMotorZero joint t =>
    checked (decide (joint ≤ 6) && validTimeout t) ⟨.motorSetZero, t, { jointId := joint }⟩

/-- Operations that may be queued while an upgrade is active. -/
def allowedDuringUpgrade : RpcKind → Bool
  | .getDeviceInfo | .getDeviceSettings | .emergencyStop => true
  | _ => false

/-- Where a caller thread stands: before the upgrade gate of `s_submit`, before its
locked region, or between the gate and the locked region of `s_commandToken`. -/
inductive CallerPc where
  | idle
  | gate (s : Submission)
  | enqueue (s : Submission)
  | token

/-- Where the owner thread stands: between passes, in the regions of `s_progress`,
`s_scheduleRenewal` and `s_startNext`, or before the last region of `s_finalize`,
which resumes the expiry loop or ends the pass. -/
inductive OwnerPc where
  | idle
  | expiry (now : TimeMs) (index : Nat)
  | gate (now : TimeMs)
  | dropLease (now : TimeMs)
  | renewal (now : TimeMs)
  | renewalGate (now : TimeMs) (request : OperationRequest)
  | renewalSubmit (now : TimeMs) (request : OperationRequest)
  | startNext (now : TimeMs)
  | launching (now : TimeMs) (i : SlotIndex)
  | launched (i : SlotIndex) (started : WlErr)
  | failing (i : SlotIndex)
  | finalizing (i : SlotIndex) (f : Endpoint.Finalization) (resume : Option (TimeMs × Nat))

/-- Where `s_finalize` returns to. -/
def OwnerPc.resumed : Option (TimeMs × Nat) → OwnerPc
  | none => .idle
  | some (now, index) => .expiry now index

structure World where
  endpoint : Endpoint := { running := true }
  upgradeActive : Bool := false
  owner : OwnerPc := .idle
  callers : Nat → CallerPc := fun _ => .idle
  /-- Calls the runtime admitted and has not completed. -/
  owed : SlotIndex → Bool := fun _ => false
  /-- `s_quiesce` has run; only completions of admitted calls still arrive. -/
  closed : Bool := false

inductive Action where
  | call (t : Nat) (c : Call)
  | gate (t : Nat)
  | submit (t : Nat) (clock : TimeMs)
  | token (t : Nat)
  | tokenRead (t : Nat)
  | inspect (requestId : Nat)
  | wait (requestId : Nat) (expired : Bool)
  | take (kind : Endpoint.TakeKind) (requestId : Nat)
  | pass (now : TimeMs)
  | owner (clock : TimeMs) (started : WlErr)
  | complete (i : SlotIndex) (clock : TimeMs) (completion : RpcCompletion)
      (response : Option Response)
  | quiesce
  | upgrade (active : Bool)

inductive Event where
  | quiet
  | refused (status : FciEndpointStatus)
  | submitted (internal : Bool) (s : Submission) (result : FciSubmitResult)
  | token (status : FciEndpointStatus) (value : Nat)
  | observed (taken : Endpoint.Taken)
  | took (taken : Endpoint.Taken)
  | started (slot : OperationSlot) (timeoutMs : Nat) (code : WlErr)
  | finalized (requestId : Nat) (f : Endpoint.Finalization)

namespace World

def setCaller (w : World) (t : Nat) (pc : CallerPc) : World :=
  { w with callers := Function.update w.callers t pc }

/-- Enter `s_finalize` on slot `i`: compute the result and update the counters. -/
def beginFinalize (w : World) (i : SlotIndex) (clock : TimeMs) (completion : RpcCompletion)
    (response : Option Response) (resume : Option (TimeMs × Nat)) : World :=
  let f := Endpoint.finalization (w.endpoint.operations i) clock completion response
  { w with endpoint := w.endpoint.finalizeCounters i f, owner := .finalizing i f resume }

/-- The owner's next region. `clock` is what it reads there, `started` what the
runtime's `_async` function answers. -/
def ownerStep (w : World) (clock : TimeMs) (started : WlErr) : Option (World × Event) :=
  match w.owner with
  | .idle => none
  | .expiry now n =>
    if h : n < 8 then
      if w.endpoint.queueExpired now ⟨n, h⟩ then
        some (w.beginFinalize ⟨n, h⟩ clock { status := .timedOut } none (some (now, n + 1)), .quiet)
      else some ({ w with owner := .expiry now (n + 1) }, .quiet)
    else some ({ w with endpoint := w.endpoint.expireLease now, owner := .gate now }, .quiet)
  | .gate now =>
    some ({ w with owner := if w.upgradeActive then .dropLease now else .renewal now }, .quiet)
  | .dropLease now =>
    some ({ w with endpoint := w.endpoint.dropLease, owner := .startNext now }, .quiet)
  | .renewal now =>
    match w.endpoint.renewalCheck now with
    | none => some ({ w with owner := .startNext now }, .quiet)
    | some request => some ({ w with owner := .renewalGate now request }, .quiet)
  | .renewalGate now request =>
    some ({ w with owner :=
      if w.upgradeActive then .startNext now else .renewalSubmit now request }, .quiet)
  | .renewalSubmit now request =>
    let s : Submission := ⟨.acquireLease, request.requestedLeaseTimeoutMs, request⟩
    let (e, result) := w.endpoint.submit s.kind s.timeoutMs clock s.request true
    some ({ w with endpoint := e, owner := .startNext now }, .submitted true s result)
  | .startNext now =>
    match w.endpoint.startNext with
    | none => some ({ w with owner := .idle }, .quiet)
    | some (i, e) => some ({ w with endpoint := e, owner := .launching now i }, .quiet)
  | .launching now i =>
    let slot := w.endpoint.operations i
    let remaining := queueRemaining now slot.submittedAtMs slot.timeoutMs
    if remaining = 0 then
      some (w.beginFinalize i clock { status := .timedOut } none none, .quiet)
    else
      some ({ w with
        owner := .launched i started
        owed := if started = .ok then Function.update w.owed i true else w.owed },
        .started slot remaining started)
  | .launched i started =>
    some ({ w with
      endpoint := w.endpoint.startCommit i started
      owner :=
        if started = .ok || Endpoint.retryable started then .idle else .failing i }, .quiet)
  | .failing i => some (w.beginFinalize i clock { status := .failed } none none, .quiet)
  | .finalizing i f resume =>
    some ({ w with
      endpoint := w.endpoint.finalize i f
      owner := .resumed resume },
      .finalized (w.endpoint.operations i).requestId f)

def step (w : World) : Action → Option (World × Event)
  | .call t c =>
    match w.callers t with
    | .idle =>
      match c.prepare w.endpoint with
      | .error status => some (w, .refused status)
      | .ok s => some (w.setCaller t (.gate s), .quiet)
    | _ => none
  | .gate t =>
    match w.callers t with
    | .gate s =>
      if w.upgradeActive && !allowedDuringUpgrade s.kind then
        some (w.setCaller t .idle, .submitted false s { status := .busy, requestId := 0 })
      else some (w.setCaller t (.enqueue s), .quiet)
    | _ => none
  | .submit t clock =>
    match w.callers t with
    | .enqueue s =>
      let (e, result) := w.endpoint.submit s.kind s.timeoutMs clock s.request false
      some ({ w.setCaller t .idle with endpoint := e }, .submitted false s result)
    | _ => none
  | .token t =>
    match w.callers t with
    | .idle =>
      if w.upgradeActive then some (w, .token .busy 0)
      else some (w.setCaller t .token, .quiet)
    | _ => none
  | .tokenRead t =>
    match w.callers t with
    | .token =>
      let (status, value) := w.endpoint.commandToken
      some (w.setCaller t .idle, .token status value)
    | _ => none
  | .inspect requestId => some (w, .observed (w.endpoint.inspectOperation requestId))
  | .wait requestId expired =>
    (w.endpoint.waitOperation requestId expired).map fun taken => (w, .observed taken)
  | .take kind requestId =>
    let (e, taken) := w.endpoint.take kind requestId
    some ({ w with endpoint := e }, .took taken)
  | .pass now =>
    match w.owner with
    | .idle => if w.closed then none else some ({ w with owner := .expiry now 0 }, .quiet)
    | _ => none
  | .owner clock started => w.ownerStep clock started
  | .complete i clock completion response =>
    match w.owner with
    | .idle =>
      if w.owed i && response.all fun r => r.fits (w.endpoint.operations i).kind then
        some (({ w with owed := Function.update w.owed i false } : World).beginFinalize
          i clock completion response none, .quiet)
      else none
    | _ => none
  | .quiesce =>
    match w.owner with
    | .idle =>
      if w.closed then none
      else some ({ w with endpoint := w.endpoint.stopOnOwner, closed := true }, .quiet)
    | _ => none
  | .upgrade active => some ({ w with upgradeActive := active }, .quiet)

end World

def machine : Transition.Machine World Action Event := ⟨{}, World.step⟩

/-- A public call of thread 0 carried through its gate and its locked region. -/
def Call.through (c : Call) (clock : TimeMs) : List Action :=
  [.call 0 c, .gate 0, .submit 0 clock]

/-- `n` regions of the owner's routine, the runtime answering `started`. -/
def ownerTurns (n : Nat) (clock : TimeMs) (started : WlErr) : List Action :=
  .replicate n (.owner clock started)

/-- A response that grants a lease. -/
def grant (token timeoutMs : Nat) : Option Response :=
  some (.acquireControlLease {
    hasLeaseToken := true, leaseToken := token
    hasGrantedTimeoutMs := true, grantedTimeoutMs := timeoutMs })

/-- A lease acquired at time 0, due for renewal at 5 and expiring at 10. -/
def heldLease : List Action :=
  (Call.acquireControlLease 100 100).through 0 ++ .pass 0 :: ownerTurns 14 0 .ok ++
    [.complete firstSlot 0 { status := .success } (grant 5 10), .owner 0 .ok]

end Florid.Wirelink
