import Florid.Transition
import Florid.Upgrade.Client

/-! `FirmwareUpdateSession::rebootAndWait` against any device and any other callers. A
step is one locked region or one blocking call; the owner thread, the peer and other
callers act between any two of them. Clock readings, lock attempts and statuses of the
endpoint are inputs. -/
namespace Florid.Upgrade
open Transition Wirelink

def supportedProtocolVersion : Version := { major := 0, minor := 0, patch := 1 }

def isProtocolVersionCompatible (v : Version) : Bool :=
  if supportedProtocolVersion.major = 0 then
    v.major == supportedProtocolVersion.major && v.minor == supportedProtocolVersion.minor
  else v.major == supportedProtocolVersion.major

def sameVersion (a b : Version) : Bool :=
  a.major == b.major && a.minor == b.minor && a.patch == b.patch

/-- Timeouts in milliseconds. -/
structure FirmwareInstallOptions where
  queryTimeout : Int := 2000
  rebootTimeout : Int := 5000
  bootTimeout : Int := 60000
  pollInterval : Int := 250

def validTimeout (timeoutMs : Int) : Bool := decide (0 < timeoutMs ∧ timeoutMs < 0x80000000)

def FirmwareInstallOptions.valid (o : FirmwareInstallOptions) : Bool :=
  validTimeout o.queryTimeout && validTimeout o.rebootTimeout && validTimeout o.bootTimeout &&
    validTimeout o.pollInterval

inductive FirmwareInstallState where
  | unknown | targetConfirmed | previousFirmware
  deriving DecidableEq, Repr

structure FirmwareInstallResult where
  error : FirmwareUpdateError := .none
  state : FirmwareInstallState := .unknown
  reboot : FirmwareRebootResult := {}
  previousInfo : Option DeviceInfo := none
  deviceInfo : Option DeviceInfo := none
  bootStatus : Option BootStatus := none

structure FirmwareDeviceInfoResult where
  error : FirmwareUpdateError := .none
  deviceStatus : Int := 0
  info : Option DeviceInfo := none
  peerSession : Nat := 0

/-- The mapping `s_error` of endpoint statuses. -/
def errorOf : FciEndpointStatus → FirmwareUpdateError
  | .ok => .none
  | .busy | .queueFull => .busy
  | .notReady => .notConnected
  | .timeout => .timeout
  | .domainError => .deviceRejected
  | .cancelled => .cancelled
  | .linkError => .transportError
  | .invalidArgument => .invalidArgument
  | _ => .protocolError

/-- How a `GetDeviceInfo` operation ended; a successful one carries its info. -/
structure InfoReply where
  status : FciEndpointStatus
  domainStatus : Int := 0
  info : DeviceInfo := {}

/-- The one outstanding `GetDeviceInfo` operation of the session. -/
inductive InfoOperation where
  | none
  | pending
  | done (reply : InfoReply)

structure Call where
  expected : Version
  options : FirmwareInstallOptions

/-- The locals of `rebootAndWait` once the device has identified itself. -/
structure Known where
  call : Call
  previous : DeviceInfo
  previousPeer : Nat
  result : FirmwareInstallResult

/-- Which `deviceInfo` of `rebootAndWait` is running. -/
inductive Query where
  | before (call : Call)
  | poll (known : Known)

/-- The timeout check of `s_deviceInfo`. The time left in the polling loop may have run
out since it was looked at. -/
def Query.timeoutValid : Query → Bool → Bool
  | .before call, _ => validTimeout call.options.queryTimeout
  | .poll _, left => left

inductive SessionPc where
  | idle
  | admitting (call : Call)
  | infoLock (q : Query)
  | infoStale (q : Query)
  | infoPeer (q : Query)
  | infoSubmit (q : Query) (peer : Nat)
  | infoWait (q : Query) (peer : Nat)
  | infoTake (q : Query) (peer : Nat)
  | infoResponse (q : Query) (peer : Nat) (info : DeviceInfo)
  | comparePeer (k : Known)
  | rebootLock (k : Known)
  | rebootRequest (k : Known)
  | rebootWait (k : Known)
  | looping (k : Known)
  | matchPeer (k : Known) (info : DeviceInfo) (peer : Nat)
  | bootLock (k : Known) (info : DeviceInfo) (peer : Nat)
  | bootRequest (k : Known) (info : DeviceInfo) (peer : Nat)
  | bootWait (k : Known) (info : DeviceInfo) (peer : Nat)
  | bootCheck (k : Known) (info : DeviceInfo) (peer : Nat) (boot : BootStatus)
  | exiting (result : FirmwareInstallResult)

/-- The owner thread, inside `on_peer_session` after its first region or elsewhere. -/
inductive OwnerPc where
  | idle
  | departing

structure State where
  client : Client := {}
  owner : OwnerPc := .idle
  /-- `m_info_request` is nonzero. -/
  infoRequest : Bool := false
  operation : InfoOperation := .none
  pc : SessionPc := .idle

inductive Action where
  | begin (call : Call)
  /-- The next step of `rebootAndWait`. `ok` is the outcome of a lock attempt or of a look
  at the clock, `status` the endpoint's answer to a submission. -/
  | step (ok : Bool) (status : FciEndpointStatus)
  | peerSession (current : Nat)
  | departed (p : Poll FirmwareRebootMode)
  | transportState (connected : Bool) (p : Poll FirmwareRebootMode)
  | close (p : Poll FirmwareRebootMode)
  | connected (running : Bool)
  | progress (boot : Poll BootInfo) (reboot : Poll FirmwareRebootMode) (uploading : Bool)
  | infoComplete (reply : InfoReply)
  | otherInfo (request : Bool) (operation : InfoOperation)
  | otherBoot
  | otherReboot (mode : FirmwareRebootMode)
  | otherUpload

inductive Event where
  | quiet
  | rebootRequested (verification : Bool)
  | rebootSent
  | returned (result : FirmwareInstallResult)

/-- What `rebootAndWait` does once its first query is answered; `inl` leaves with a result. -/
def judgeBefore (call : Call) (info : DeviceInfo) (peer : Nat) :
    FirmwareInstallResult ⊕ Known :=
  let result : FirmwareInstallResult := { previousInfo := some info }
  if !isProtocolVersionCompatible info.protocolVersion then
    .inl { result with error := .protocolMismatch }
  else if info.serialNumber.isEmpty || info.boardName.isEmpty then
    .inl { result with error := .identityMismatch }
  else if sameVersion call.expected info.firmwareVersion then
    .inl { result with error := .invalidArgument }
  else if peer = 0 then .inl { result with error := .protocolError }
  else .inr ⟨call, info, peer, result⟩

/-- Where a query that succeeded or failed leads. A failed poll sleeps and goes round. -/
def infoReturn (q : Query) (r : FirmwareDeviceInfoResult) : SessionPc :=
  match q, r.info with
  | .before _, none => .exiting { error := r.error }
  | .before call, some info =>
    match judgeBefore call info r.peerSession with
    | .inl result => .exiting result
    | .inr k => .comparePeer k
  | .poll k, none => .looping k
  | .poll k, some info =>
    if r.peerSession ≠ 0 ∧ r.peerSession ≠ k.previousPeer then .matchPeer k info r.peerSession
    else .looping k

/-- The checks of a polled device: a different identity or protocol ends the call. -/
def judgeCurrent (k : Known) (info : DeviceInfo) : FirmwareInstallResult ⊕ Known :=
  let result := { k.result with deviceInfo := some info, bootStatus := none }
  if info.serialNumber ≠ k.previous.serialNumber ∨ info.boardName ≠ k.previous.boardName ∨
      info.firmwareType ≠ k.previous.firmwareType then
    .inl { result with error := .identityMismatch }
  else if !isProtocolVersionCompatible info.protocolVersion then
    .inl { result with error := .protocolMismatch }
  else .inr { k with result }

/-- A boot status that counts: idle, running the confirmed primary slot, nothing pending
and no transfer. -/
def BootStatus.confirmed (b : BootStatus) : Bool :=
  b.error == .none && b.protocolVersion == 1 && b.bootState == bootIdle &&
    b.activeSlot == slotPrimary && b.confirmedSlot == slotPrimary && b.pendingSlot == slotNone &&
    b.activeTransferId == 0 && b.slot0Size != 0 && b.slot1Size != 0

/-- The verdict on a boot status of the session that identified itself. -/
def judgeBoot (k : Known) (info : DeviceInfo) (boot : BootStatus) : SessionPc :=
  let result := { k.result with bootStatus := some boot }
  if boot.confirmed then
    if sameVersion info.firmwareVersion k.call.expected then
      .exiting { result with state := .targetConfirmed }
    else if sameVersion info.firmwareVersion k.previous.firmwareVersion then
      .exiting { result with state := .previousFirmware }
    else .looping { k with result }
  else .looping { k with result }

/-- A failed or lost reboot is observed further, any other error ends the call. -/
def judgeReboot (k : Known) (reboot : FirmwareRebootResult) : SessionPc :=
  let result := { k.result with reboot }
  match reboot.error with
  | .none | .timeout | .transportError => .looping { k with result }
  | error => .exiting { result with error }

namespace State

def goto (s : State) (pc : SessionPc) : Option (State × Event) := some ({ s with pc }, .quiet)

/-- The next step of `rebootAndWait`. -/
def advance (s : State) (ok : Bool) (status : FciEndpointStatus) : Option (State × Event) :=
  match s.pc with
  | .idle => none
  | .admitting call =>
    match s.client.beginVerification with
    | (client, .none) => some ({ s with client, pc := .infoLock (.before call) }, .quiet)
    | (client, error) => some ({ s with client, pc := .idle }, .returned { error })
  | .infoLock q => s.goto (if ok then .infoStale q else infoReturn q { error := .busy })
  | .infoStale q =>
    if !q.timeoutValid ok then s.goto (infoReturn q { error := .invalidArgument })
    else if s.infoRequest then
      match s.operation with
      | .pending => s.goto (infoReturn q { error := .busy })
      | _ => some ({ s with infoRequest := false, operation := .none, pc := .infoPeer q }, .quiet)
    else s.goto (.infoPeer q)
  | .infoPeer q => s.goto (.infoSubmit q s.client.peerSession)
  | .infoSubmit q peer =>
    if status = .ok then
      some ({ s with infoRequest := true, operation := .pending, pc := .infoWait q peer }, .quiet)
    else s.goto (infoReturn q { error := errorOf status })
  | .infoWait q peer => s.goto (.infoTake q peer)
  | .infoTake q peer =>
    match s.operation with
    | .pending => s.goto (infoReturn q { error := .timeout })
    | .none =>
      some ({ s with infoRequest := false, pc := infoReturn q { error := errorOf .noData } }, .quiet)
    | .done reply =>
      let s := { s with infoRequest := false, operation := InfoOperation.none }
      if reply.status = .ok then s.goto (.infoResponse q peer reply.info)
      else s.goto (infoReturn q
        { error := errorOf reply.status, deviceStatus := reply.domainStatus })
  | .infoResponse q peer info =>
    let responsePeer := s.client.peerSession
    if responsePeer = 0 then s.goto (infoReturn q { error := .protocolError })
    else if peer ≠ 0 ∧ peer ≠ responsePeer then s.goto (infoReturn q { error := .transportError })
    else if peer = 0 then
      s.goto (if ok then .infoStale q else infoReturn q { error := .timeout })
    else s.goto (infoReturn q { info := some info, peerSession := responsePeer })
  | .comparePeer k =>
    s.goto (if k.previousPeer = s.client.peerSession then .rebootLock k
      else .exiting { k.result with error := .transportError })
  | .rebootLock k => s.goto (if ok then .rebootRequest k else judgeReboot k { error := .busy })
  | .rebootRequest k =>
    match s.client.rebootRequest .tryBoot true with
    | (client, .none) => some ({ s with client, pc := .rebootWait k }, .rebootRequested true)
    | (client, error) => some ({ s with client, pc := judgeReboot k { error } }, .quiet)
  | .rebootWait k =>
    if s.client.rebootDone then s.goto (judgeReboot k s.client.reboot)
    else if ok then none
    else s.goto (judgeReboot k { s.client.reboot with error := .timeout })
  | .looping k =>
    s.goto (if ok then .infoLock (.poll k) else .exiting { k.result with error := .timeout })
  | .matchPeer k info peer =>
    if peer = s.client.peerSession then
      match judgeCurrent k info with
      | .inl result => s.goto (.exiting result)
      | .inr k =>
        s.goto (if ok then .bootLock k info peer else .exiting { k.result with error := .timeout })
    else s.goto (.looping k)
  | .bootLock k info peer =>
    s.goto (if ok then .bootRequest k info peer else .bootCheck k info peer { error := .busy })
  | .bootRequest k info peer =>
    if !ok then s.goto (.bootCheck k info peer { error := .invalidArgument })
    else
      match s.client.bootRequest with
      | (client, .none) => some ({ s with client, pc := .bootWait k info peer }, .quiet)
      | (client, error) => some ({ s with client, pc := .bootCheck k info peer { error } }, .quiet)
  | .bootWait k info peer =>
    if s.client.bootDone then s.goto (.bootCheck k info peer s.client.boot)
    else if ok then none
    else s.goto (.bootCheck k info peer { error := .timeout })
  | .bootCheck k info peer boot =>
    s.goto (if peer = s.client.peerSession then judgeBoot k info boot else .looping k)
  | .exiting result =>
    some ({ s with client := s.client.endVerification, pc := .idle }, .returned result)

/-- The caller is inside `s_deviceInfo`, which holds `m_call_mutex`. -/
def querying (s : State) : Bool :=
  match s.pc with
  | .infoStale _ | .infoPeer _ | .infoSubmit _ _ | .infoWait _ _ | .infoTake _ _
  | .infoResponse _ _ _ => true
  | _ => false

/-- The caller is inside `bootStatus`, which holds `m_boot_call_mutex`. -/
def booting (s : State) : Bool :=
  match s.pc with
  | .bootRequest _ _ _ | .bootWait _ _ _ => true
  | _ => false

/-- The caller is inside `reboot`, which holds `m_reboot_call_mutex`. -/
def rebooting (s : State) : Bool :=
  match s.pc with
  | .rebootRequest _ | .rebootWait _ => true
  | _ => false

def step (s : State) : Action → Option (State × Event)
  | .begin call =>
    match s.pc with
    | .idle =>
      if call.options.valid then s.goto (.admitting call)
      else some (s, .returned { error := .invalidArgument })
    | _ => none
  | .step ok status => s.advance ok status
  | .peerSession current =>
    match s.owner with
    | .departing => none
    | .idle =>
      some ({ s with
        client := { s.client with peerSession := current }
        owner := if s.client.peerSession = 0 then .idle else .departing }, .quiet)
  | .departed p =>
    match s.owner with
    | .idle => none
    | .departing => some ({ s with client := s.client.disconnected true p, owner := .idle }, .quiet)
  | .transportState connected p =>
    match s.owner with
    | .departing => none
    | .idle =>
      let client := { s.client with transportConnected := connected }
      some ({ s with
        client := if s.client.transportConnected && !connected then client.disconnected true p
          else client }, .quiet)
  | .close p =>
    match s.owner with
    | .departing => none
    | .idle => some ({ s with client := s.client.disconnected false p }, .quiet)
  | .connected running => some ({ s with client := { s.client with running } }, .quiet)
  | .progress boot reboot uploading =>
    match s.owner with
    | .departing => none
    | .idle =>
      let (client, sent) := (s.client.pollBoot boot).pollReboot reboot
      some ({ s with
        client := { client with uploading := client.uploading && uploading } },
        if sent then .rebootSent else .quiet)
  | .infoComplete reply =>
    match s.owner, s.operation with
    | .idle, .pending => some ({ s with operation := .done reply }, .quiet)
    | _, _ => none
  | .otherInfo infoRequest operation =>
    if s.querying then none else some ({ s with infoRequest, operation }, .quiet)
  | .otherBoot =>
    if s.booting then none else some ({ s with client := s.client.bootRequest.1 }, .quiet)
  | .otherReboot mode =>
    if s.rebooting then none
    else
      match s.client.rebootRequest mode false with
      | (client, .none) => some ({ s with client }, .rebootRequested false)
      | (client, _) => some ({ s with client }, .quiet)
  | .otherUpload => some ({ s with client := s.client.startUpload.1 }, .quiet)

end State

def updateMachine : Machine State Action Event := ⟨{}, State.step⟩

end Florid.Upgrade
