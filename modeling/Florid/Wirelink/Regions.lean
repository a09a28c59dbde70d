import Florid.Wirelink.Types

/-! The endpoint's members and the locked regions that rewrite them. Each function
is one critical section of `m_mutex` (or one lock-free read between two of them),
so that the machine may interleave other threads between any two. -/
namespace Florid.Wirelink

/-- Age and timeout arithmetic of one queued operation. A submission stamped
after the pass sampled its clock has a negative age and keeps its whole timeout. -/
def queueRemaining (now submitted : TimeMs) (timeout : Nat) : Nat :=
  let age := (now - submitted).toInt
  if age ≤ 0 then timeout else timeout - min timeout age.toNat

/-- `s_until`: milliseconds to a target on the wrapping clock, 0 once reached. -/
def msUntil (now target : TimeMs) : Nat :=
  let remaining := (target - now).toInt
  if remaining ≤ 0 then 0 else remaining.toNat

def terminal : FciOperationState → Bool
  | .completed | .timedOut | .cancelled | .linkFailed | .domainError => true
  | _ => false

def allFinite (values : List Binary32) : Bool := values.all Binary32.isFinite

def validFold (fold : TorqueFoldParameters) : Bool :=
  fold.continuousTorque.isFinite && fold.peakTorque.isFinite &&
  fold.thermalCapacity.isFinite && fold.torqueRampRate.isFinite &&
  !fold.continuousTorque.less 0 && !fold.peakTorque.less fold.continuousTorque &&
  !fold.thermalCapacity.less 0 && !fold.torqueRampRate.less 0

def validLimits (limits : JointLimits) : Bool :=
  limits.min.isFinite && limits.max.isFinite && !limits.min.atLeast limits.max

def validSettings (settings : DeviceSettings) : Bool :=
  !(decide (settings.firmwarePeriodUs < 100) || decide (settings.firmwarePeriodUs > 1000000) ||
    !allFinite settings.gravityScale.toList) &&
  settings.torqueFold.toList.all validFold && settings.jointLimits.toList.all validLimits

def settingsFromWire (wire : DeviceSettingsWire) : Option DeviceSettings :=
  if !wire.hasFirmwareDtUs || !wire.hasGravityScale || !wire.hasTorqueContinuous ||
      !wire.hasTorquePeak || !wire.hasThermalCapacity || !wire.hasTorqueRampRate ||
      !wire.hasJointLimitMin || !wire.hasJointLimitMax then none
  else
    let domain : DeviceSettings := {
      firmwarePeriodUs := wire.firmwareDtUs
      gravityScale := wire.gravityScale
      torqueFold := .ofFn fun i => {
        continuousTorque := wire.torqueContinuous[i]
        peakTorque := wire.torquePeak[i]
        thermalCapacity := wire.thermalCapacity[i]
        torqueRampRate := wire.torqueRampRate[i] }
      jointLimits := .ofFn fun i => { min := wire.jointLimitMin[i], max := wire.jointLimitMax[i] } }
    if validSettings domain then some domain else none

def firmwareType : Int → FirmwareType
  | 0 => .standardArm
  | 1 => .mobileArm
  | 2 => .cobotArm
  | _ => .unknown

/-- Members of `FciWirelinkEndpoint`: what `m_mutex` guards, the capability word
and the counters. `nextRequestId` is a 64-bit word; `none` is `s_kNoSlot`. -/
structure Endpoint where
  operations : SlotIndex → OperationSlot := fun _ => .empty
  activeOperation : Option SlotIndex := none
  nextRequestId : Nat := 1
  lease : FciControlLeaseSnapshot := {}
  leaseRenewAtMs : TimeMs := 0
  leaseExpireAtMs : TimeMs := 0
  leaseRequestedTimeoutMs : Nat := 0
  running : Bool := false
  commandCapabilities : Nat := 0
  rpcStarted : Nat := 0
  rpcReleased : Nat := 0
  rpcCancelled : Nat := 0
  runtimeTimeouts : Nat := 0

namespace Endpoint

def setSlot (e : Endpoint) (i : SlotIndex) (slot : OperationSlot) : Endpoint :=
  { e with operations := Function.update e.operations i slot }

def findSlot (e : Endpoint) (requestId : Nat) : Option SlotIndex :=
  (List.finRange 8).find? fun i =>
    (e.operations i).used && (e.operations i).requestId == requestId

/-- The loop of `s_findQueuedSlot`: index and id of the oldest queued slot so far. -/
def findQueuedFrom (operations : SlotIndex → OperationSlot) :
    List SlotIndex → Option SlotIndex → Nat → Option SlotIndex
  | [], selected, _ => selected
  | i :: rest, selected, oldest =>
    if (operations i).used && (operations i).state == .queued &&
        decide ((operations i).requestId < oldest) then
      findQueuedFrom operations rest (some i) (operations i).requestId
    else findQueuedFrom operations rest selected oldest

def findQueuedSlot (e : Endpoint) : Option SlotIndex :=
  findQueuedFrom e.operations (List.finRange 8) none (2 ^ 64 - 1)

/-- Internal renewals try the reserved last slot first; public operations never
reach it. -/
def allocateSlot (e : Endpoint) (internal : Bool) : Option SlotIndex :=
  if internal && !(e.operations reservedSlot).used then some reservedSlot
  else
    let limit := if internal then operationCapacity else publicOperationCapacity
    (List.finRange 8).find? fun i => decide (i.val < limit) && !(e.operations i).used

def result (slot : OperationSlot) : FciOperationResult :=
  { requestId := slot.requestId, state := slot.state, status := slot.status
    domainStatus := slot.domainStatus, linkStatus := slot.linkStatus }

/-- `m_next_request_id++` on a 64-bit word, skipping 0. -/
def successorId (id : Nat) : Nat :=
  let next := (id + 1) % 2 ^ 64
  if next = 0 then 1 else next

/-- The lease record after `s_submit` queued an operation of this kind. -/
def leaseAfterSubmit (lease : FciControlLeaseSnapshot) (kind : RpcKind)
    (request : OperationRequest) (internal : Bool) : FciControlLeaseSnapshot :=
  match kind with
  | .acquireLease =>
    { lease with
      state := if internal || request.leaseToken != 0 then .renewQueued else .acquireQueued
      status := .ok }
  | .releaseLease => { lease with state := .releaseQueued, status := .ok }
  | _ => lease

/-- The locked region of `s_submit`. -/
def submit (e : Endpoint) (kind : RpcKind) (timeoutMs : Nat) (now : TimeMs)
    (request : OperationRequest) (internal : Bool) : Endpoint × FciSubmitResult :=
  if !e.running then (e, { status := .notReady, requestId := 0 })
  else
    match e.allocateSlot internal with
    | none => (e, { status := .queueFull, requestId := 0 })
    | some i =>
      let slot : OperationSlot := {
        requestId := e.nextRequestId, timeoutMs, submittedAtMs := now, request, kind
        state := .queued, status := .ok, internal, used := true }
      ({ e.setSlot i slot with
          nextRequestId := successorId e.nextRequestId
          lease := leaseAfterSubmit e.lease kind request internal },
        { status := .ok, requestId := e.nextRequestId })

/-- First region of `acquireControlLease`: refuse while a lease operation is
queued or in flight, otherwise remember the token of a held lease. -/
def acquireCheck (e : Endpoint) (requestedTimeoutMs : Nat) :
    Except FciEndpointStatus OperationRequest :=
  match e.lease.state with
  | .acquireQueued | .acquiring | .renewQueued | .renewing | .releaseQueued | .releasing =>
    .error .busy
  | .held => .ok { requestedLeaseTimeoutMs := requestedTimeoutMs, leaseToken := e.lease.token }
  | _ => .ok { requestedLeaseTimeoutMs := requestedTimeoutMs }

/-- The three lease states in which commands may be sent. -/
def leaseUsable : FciControlLeaseState → Bool
  | .held | .renewQueued | .renewing => true
  | _ => false

def releaseCheck (e : Endpoint) : Except FciEndpointStatus OperationRequest :=
  if !leaseUsable e.lease.state || e.lease.token == 0 then .error .noLease
  else .ok { leaseToken := e.lease.token }

/-- Locked region of `s_commandToken`. -/
def commandToken (e : Endpoint) : FciEndpointStatus × Nat :=
  if !e.running then (.notReady, 0)
  else if !leaseUsable e.lease.state || e.lease.token == 0 then (.noLease, 0)
  else (.ok, e.lease.token)

/-- First region of `s_scheduleRenewal`. -/
def renewalCheck (e : Endpoint) (now : TimeMs) : Option OperationRequest :=
  if e.lease.state != .held || e.lease.token == 0 || msUntil now e.leaseRenewAtMs != 0 then none
  else some {
    requestedLeaseTimeoutMs := e.leaseRequestedTimeoutMs, leaseToken := e.lease.token }

def queueExpired (e : Endpoint) (now : TimeMs) (i : SlotIndex) : Bool :=
  let slot := e.operations i
  slot.used && slot.state == .queued &&
    queueRemaining now slot.submittedAtMs slot.timeoutMs == 0

/-- Lease expiry region of `s_progress`. -/
def expireLease (e : Endpoint) (now : TimeMs) : Endpoint :=
  if (e.lease.state == .renewQueued || e.lease.state == .renewing) &&
      msUntil now e.leaseExpireAtMs == 0 then
    { e with lease := { e.lease with
        state := .expired, status := .timeout, token := 0, grantedTimeoutMs := 0 } }
  else e

/-- An active upgrade revokes control: the lease snapshot is dropped. -/
def dropLease (e : Endpoint) : Endpoint := { e with lease := {} }

/-- The lease record after `s_startNext` selected an operation. -/
def leaseAfterStart (lease : FciControlLeaseSnapshot) (slot : OperationSlot) :
    FciControlLeaseSnapshot :=
  match slot.kind with
  | .acquireLease =>
    { lease with
      state := if slot.internal || slot.request.leaseToken != 0 then .renewing else .acquiring }
  | .releaseLease => { lease with state := .releasing }
  | _ => lease

/-- First region of `s_startNext`: the oldest queued operation becomes active. -/
def startNext (e : Endpoint) : Option (SlotIndex × Endpoint) :=
  match e.activeOperation with
  | some _ => none
  | none =>
    match e.findQueuedSlot with
    | none => none
    | some i =>
      let slot := { e.operations i with state := .linkPending }
      some (i, { e.setSlot i slot with
        activeOperation := some i, lease := leaseAfterStart e.lease slot })

/-- Second region of `s_startNext`: admitted, or back to the queue. -/
def startCommit (e : Endpoint) (i : SlotIndex) (started : WlErr) : Endpoint :=
  let slot := e.operations i
  match started with
  | .ok => { e.setSlot i { slot with admitted := true } with rpcStarted := e.rpcStarted + 1 }
  | _ => { e.setSlot i { slot with state := .queued } with activeOperation := none }

/-- `WL_ERR_BUSY` and `WL_ERR_WOULD_BLOCK` leave the operation queued. -/
def retryable : WlErr → Bool
  | .busy | .wouldBlock => true
  | _ => false

def stopSlot (slot : OperationSlot) : OperationSlot :=
  if !slot.used || terminal slot.state || slot.state != .queued then slot
  else if slot.internal then .empty
  else { slot with state := .cancelled, status := .cancelled }

def stopOnOwner (e : Endpoint) : Endpoint :=
  { e with
    running := false
    operations := fun i => stopSlot (e.operations i)
    lease := { status := .cancelled } }

/-! ### Completion -/

/-- Everything `s_finalize` computed before its last region: the slot's kind and
owner as read at its start, the clock, and the result to record. -/
structure Finalization where
  kind : RpcKind
  internal : Bool
  now : TimeMs
  state : FciOperationState
  status : FciEndpointStatus
  domainStatus : Int
  linkStatus : Int
  deviceInfo : FixedDeviceInfo := {}
  deviceSettings : DeviceSettings := {}
  motorRegisterValue : Binary32 := 0
  deviceSettingsValid : Bool := false
  motorRegisterValid : Bool := false
  grantedToken : Nat := 0
  grantedTimeout : Nat := 0

def completionState : RpcStatus → FciOperationState
  | .success => .completed
  | .rejected => .domainError
  | .timedOut => .timedOut
  | .cancelled => .cancelled
  | .failed => .linkFailed

/-- Status of a completion whose response passed its checks. -/
def completionStatus (state : FciOperationState) (domainStatus : Int) : FciEndpointStatus :=
  match state with
  | .completed => if domainStatus = 0 then .ok else .domainError
  | .domainError => .domainError
  | .timedOut => .timeout
  | .cancelled => .cancelled
  | .linkFailed => .linkError
  | _ => .internalError

/-- `s_copyString` refuses a string that would not leave room for its terminator. -/
def copyString (source : List UInt8) : Option (List UInt8) :=
  if source.length ≥ maximumDeviceNameBytes + 1 then none else some source

def deviceInfoFromWire (response : GetDeviceInfoResponse) : FixedDeviceInfo :=
  let info := response.info
  if !response.hasInfo || info.serial.length == 0 then {}
  else
    let domain : DeviceInfo := {
      protocolVersion := info.protocolVersion
      firmwareVersion := info.firmwareVersion
      firmwareType := firmwareType info.firmwareType
      commandCapabilities := if info.hasCommandCapabilities then info.commandCapabilities else 0 }
    match copyString info.boardName, copyString info.customName, copyString info.serial with
    | some board, some custom, some serial =>
      { info := { domain with boardName := board, customName := custom, serialNumber := serial }
        valid := true }
    | _, _, _ => { info := domain, valid := false }

def validGrant (response : AcquireControlLeaseResponse) : Bool :=
  response.hasLeaseToken && response.leaseToken != 0 && response.hasGrantedTimeoutMs &&
    response.grantedTimeoutMs != 0 && decide (response.grantedTimeoutMs < 0x80000000)

def validRegister (request : OperationRequest) (response : MotorRegisterReadResponse) : Bool :=
  response.hasJointId && response.jointId == request.jointId && response.hasRegisterId &&
    response.registerId == request.registerId && response.hasValue && response.value.isFinite

/-- The part of `s_finalize` before its last region. A missing response of a
successful call is invalid; responses of failed calls are not looked at. -/
def finalization (slot : OperationSlot) (now : TimeMs) (completion : RpcCompletion)
    (response : Option Response) : Finalization :=
  let state := completionState completion.status
  let base : Finalization := {
    kind := slot.kind, internal := slot.internal, now, state
    status := completionStatus state completion.rejection
    domainStatus := completion.rejection, linkStatus := completion.transportError }
  let judged (valid : Bool) (f : Finalization) : Finalization :=
    if valid then f else { f with status := .internalError }
  match completion.status, response with
  | .success, none => judged false base
  | .success, some (.acquireControlLease r) =>
    judged (validGrant r) { base with
      grantedToken := r.leaseToken, grantedTimeout := r.grantedTimeoutMs }
  | .success, some (.getDeviceInfo r) =>
    let info := deviceInfoFromWire r
    judged info.valid { base with deviceInfo := info }
  | .success, some (.deviceSettings r) =>
    match (if r.hasSettings then settingsFromWire r.settings else none) with
    | some settings =>
      { base with deviceSettings := settings, deviceSettingsValid := true }
    | none => judged false base
  | .success, some (.motorRegisterRead r) =>
    let valid := validRegister slot.request r
    judged valid { base with motorRegisterValue := r.value, motorRegisterValid := valid }
  | .success, some .acknowledged => base
  | _, _ => base

/-- Lock-free effects of `s_finalize` ahead of its last region: the counters and
the capability word. -/
def finalizeCounters (e : Endpoint) (i : SlotIndex) (f : Finalization) : Endpoint :=
  { e with
    runtimeTimeouts := e.runtimeTimeouts + (if f.state = .timedOut then 1 else 0)
    rpcCancelled := e.rpcCancelled + (if f.state = .cancelled then 1 else 0)
    rpcReleased := e.rpcReleased + (if (e.operations i).admitted then 1 else 0)
    commandCapabilities :=
      if f.kind = .getDeviceInfo ∧ f.status = .ok ∧ f.deviceInfo.valid then
        f.deviceInfo.info.commandCapabilities
      else e.commandCapabilities }

def finalizedSlot (slot : OperationSlot) (f : Finalization) : OperationSlot :=
  { slot with
    state := f.state, status := f.status, domainStatus := f.domainStatus
    linkStatus := f.linkStatus, deviceInfo := f.deviceInfo
    deviceSettings := f.deviceSettings, motorRegisterValue := f.motorRegisterValue
    deviceSettingsValid := f.deviceSettingsValid, motorRegisterValid := f.motorRegisterValid }

/-- Lease members after the last region of `s_finalize`. Only a successful
acquire moves the renewal and expiry times. -/
def finalizeLease (e : Endpoint) (slot : OperationSlot) (f : Finalization) : Endpoint :=
  let dropped (state : FciControlLeaseState) : FciControlLeaseSnapshot :=
    { e.lease with
      state, status := f.status, domainStatus := f.domainStatus, token := 0
      grantedTimeoutMs := 0 }
  if !e.running then { e with lease := { status := .cancelled } }
  else match f.kind with
    | .acquireLease =>
      if f.status = .ok then
        { e with
          lease := {
            state := .held, status := .ok, domainStatus := f.domainStatus
            token := f.grantedToken, grantedTimeoutMs := f.grantedTimeout }
          leaseRequestedTimeoutMs := slot.request.requestedLeaseTimeoutMs
          leaseRenewAtMs := f.now + BitVec.ofNat 32 (max 1 (f.grantedTimeout / 2))
          leaseExpireAtMs := f.now + BitVec.ofNat 32 f.grantedTimeout }
      else { e with lease := dropped (if f.state = .timedOut then .expired else .failed) }
    | .releaseLease =>
      if f.status = .ok then { e with lease := {} } else { e with lease := dropped .failed }
    | _ => e

/-- The last region of `s_finalize`: record the result, update the lease, free
the active index, and drop the slot of an internal renewal. -/
def finalize (e : Endpoint) (i : SlotIndex) (f : Finalization) : Endpoint :=
  let slot := e.operations i
  let leased := finalizeLease e slot f
  { leased.setSlot i (if f.internal then .empty else finalizedSlot slot f) with
    activeOperation := if e.activeOperation = some i then none else e.activeOperation }

/-! ### Taking a result -/

inductive TakeKind where
  | operation | deviceInfo | deviceSettings | motorRegister
  deriving DecidableEq

inductive TakenValue where
  | none
  | info (value : DeviceInfo)
  | settings (value : DeviceSettings)
  | register (value : Binary32)

/-- Which operations a take function accepts. -/
def TakeKind.accepts : TakeKind → RpcKind → Bool
  | .operation, _ => true
  | .deviceInfo, kind => kind == .getDeviceInfo
  | .deviceSettings, kind => kind == .getDeviceSettings || kind == .setDeviceSettings
  | .motorRegister, kind => kind == .motorRegisterRead

/-- The caller's value output; unchanged outputs are `none`. -/
def TakeKind.value (take : TakeKind) (slot : OperationSlot) : TakenValue :=
  match take with
  | .operation => .none
  | .deviceInfo =>
    if slot.status = .ok ∧ slot.deviceInfo.valid then .info slot.deviceInfo.info else .none
  | .deviceSettings =>
    if slot.status = .ok ∧ slot.deviceSettingsValid then .settings slot.deviceSettings else .none
  | .motorRegister =>
    if slot.status = .ok ∧ slot.motorRegisterValid then .register slot.motorRegisterValue
    else .none

structure Taken where
  status : FciEndpointStatus
  result : Option FciOperationResult := none
  value : TakenValue := .none

/-- `takeOperation`, `takeDeviceInfo`, `takeDeviceSettings` and `takeMotorRegister`:
one region that returns a terminal result and empties the slot. -/
def take (e : Endpoint) (kind : TakeKind) (requestId : Nat) : Endpoint × Taken :=
  match e.findSlot requestId with
  | none => (e, { status := .noData })
  | some i =>
    let slot := e.operations i
    if !kind.accepts slot.kind then (e, { status := .noData })
    else if !terminal slot.state then (e, { status := .busy, result := some (result slot) })
    else
      (e.setSlot i .empty,
        { status := slot.status, result := some (result slot), value := kind.value slot })

def inspectOperation (e : Endpoint) (requestId : Nat) : Taken :=
  match e.findSlot requestId with
  | none => { status := .noData }
  | some i => { status := (e.operations i).status, result := some (result (e.operations i)) }

/-- One evaluation of the wait predicate under the lock; `none` keeps waiting. An
expired local wait answers busy and leaves the operation alive. -/
def waitOperation (e : Endpoint) (requestId : Nat) (expired : Bool) : Option Taken :=
  match e.findSlot requestId with
  | none => some { status := .noData }
  | some i =>
    let slot := e.operations i
    if terminal slot.state then some { status := slot.status, result := some (result slot) }
    else if expired then some { status := .busy, result := some (result slot) }
    else none

end Endpoint
end Florid.Wirelink
