import Florid.Upgrade.Upload

/-! `FciUpgradeClient` as a whole: the client of `Upgrade.Client` together with its
upload and its clocks, the blocking calls around it and the owner thread. A step is one
locked region. The calls of `bootStatus` and of `reboot` exclude each other by a mutex
each, so one of either is inside at a time; any other is refused at once. -/
namespace Florid.Upgrade
open Transition

/-- The whole client. What `Client` keeps of an upload is whether one is active. -/
structure UpgradeClient (B : Bulk) where
  client : Client
  upload : Upload B
  bootDeadline : Deadline := {}
  rebootDeadline : Deadline := {}
  synced : client.uploading = upload.progress.active

/-- What a poll of the reboot RPC sends and collects. -/
def Client.rebootEffects (c : Client) (p : Poll FirmwareRebootMode) : List Effect :=
  if !c.rebootPending then []
  else if p.expired then [.rebootExpired]
  else if c.reboot.requestAccepted then []
  else if c.rebootId = 0 then
    match p.start with
    | .ok id _ => [.rebootSent id c.rebootMode]
    | _ => []
  else
    match p.inspect with
    | .finished reply => [.rebootAnswered c.rebootId reply]
    | _ => []

namespace UpgradeClient
variable {B : Bulk}

def initial (B : Bulk) : UpgradeClient B where
  client := { running := false }
  upload := { sender := B.blank }
  synced := rfl

/-- The client with this upload. -/
def withUpload (u : UpgradeClient B) (upload : Upload B) : UpgradeClient B where
  client := { u.client with uploading := upload.progress.active }
  upload
  bootDeadline := u.bootDeadline
  rebootDeadline := u.rebootDeadline
  synced := rfl

/-- The client with these fields outside the upload. -/
def withClient (u : UpgradeClient B) (client : Client) : UpgradeClient B where
  client := { client with uploading := u.upload.progress.active }
  upload := u.upload
  bootDeadline := u.bootDeadline
  rebootDeadline := u.rebootDeadline
  synced := rfl

def startUpload (u : UpgradeClient B) (image : List UInt8) (options : FirmwareUploadOptions)
    (now : BitVec 32) : UpgradeClient B × FirmwareUpdateError :=
  if image.isEmpty || !options.valid then (u, .invalidArgument)
  else
    match u.client.startUpload with
    | (_, .none) => (u.withUpload (u.upload.admitted image options now), .none)
    | (_, error) => (u, error)

def cancel (u : UpgradeClient B) : UpgradeClient B := u.withUpload u.upload.cancelled

/-- The region of `bootStatus` that asks for the query. -/
def bootRequest (u : UpgradeClient B) (timeoutMs : Nat) (now : BitVec 32) :
    UpgradeClient B × FirmwareUpdateError :=
  match u.client.bootRequest with
  | (client, .none) => ({ u.withClient client with bootDeadline := ⟨now, timeoutMs⟩ }, .none)
  | (_, error) => (u, error)

/-- The region of `reboot` that asks for the request. -/
def rebootRequest (u : UpgradeClient B) (mode : FirmwareRebootMode) (verification : Bool)
    (timeoutMs : Nat) (now : BitVec 32) : UpgradeClient B × FirmwareUpdateError :=
  match u.client.rebootRequest mode verification with
  | (client, .none) => ({ u.withClient client with rebootDeadline := ⟨now, timeoutMs⟩ }, .none)
  | (_, error) => (u, error)

def bootPoll (u : UpgradeClient B) (p : Pass) : Poll BootInfo :=
  ⟨u.bootDeadline.expired p.now, p.bootStart, p.bootInspect⟩

def rebootPoll (u : UpgradeClient B) (p : Pass) : Poll FirmwareRebootMode :=
  ⟨u.rebootDeadline.expired p.now, p.rebootStart, p.rebootInspect⟩

/-- `s_progress`. -/
def progress (u : UpgradeClient B) (p : Pass) : UpgradeClient B × List Effect :=
  let polled := u.client.pollBoot (u.bootPoll p)
  let reboots := polled.rebootEffects (u.rebootPoll p)
  let u := u.withClient (polled.pollReboot (u.rebootPoll p)).1
  let (upload, effects) := u.upload.pass p
  (u.withUpload upload, reboots ++ effects)

/-- `s_status`. -/
def status (u : UpgradeClient B) (message : BulkStatus) (now : BitVec 32) : UpgradeClient B :=
  u.withUpload (u.upload.status message now)

/-- `disconnected`. A reboot request that is out is looked at once more, and only then
does the loss of the peer count. -/
def disconnected (u : UpgradeClient B) (departed : Bool) (now : BitVec 32)
    (inspect : Inspected FirmwareRebootMode) : UpgradeClient B × List Effect :=
  let poll : Poll FirmwareRebootMode := ⟨u.rebootDeadline.expired now, .retryable, inspect⟩
  let reboots := if u.client.rebootPending && u.client.rebootId != 0
    then u.client.rebootEffects poll else []
  let u := u.withClient (u.client.disconnected departed poll)
  let (upload, effects) := u.upload.disconnected
  (u.withUpload upload, reboots ++ effects ++ [if departed then .departure else .localClose])

end UpgradeClient

/-- A call of `reboot` that holds `m_reboot_call_mutex`. -/
inductive RebootCall where
  | none
  | entering (mode : FirmwareRebootMode) (timeoutMs : Int) (verification : Bool)
  | waiting (mode : FirmwareRebootMode)
  deriving DecidableEq

/-- A call of `bootStatus` that holds `m_boot_call_mutex`. -/
inductive BootCall where
  | none
  | entering (timeoutMs : Int)
  | waiting
  deriving DecidableEq

structure ClientState (B : Bulk) where
  client : UpgradeClient B
  boot : BootCall := .none
  reboot : RebootCall := .none
  owner : OwnerPc := .idle

inductive ClientAction where
  | connected (running : Bool)
  | beginVerification
  | endVerification
  | startUpload (image : List UInt8) (options : FirmwareUploadOptions) (now : BitVec 32)
  | cancel
  | bootCall (timeoutMs : Int)
  | bootEnter (now : BitVec 32)
  /-- The wait looks at `m_boot_done`; `expired` when its time is up. -/
  | bootWake (expired : Bool)
  /-- A mode that is no enumerator is `none`. -/
  | rebootCall (mode : Option FirmwareRebootMode) (timeoutMs : Int) (verification : Bool)
  | rebootEnter (now : BitVec 32)
  | rebootWake (expired : Bool)
  | pass (p : Pass)
  | status (message : BulkStatus) (now : BitVec 32)
  | transportState (connected : Bool) (now : BitVec 32) (inspect : Inspected FirmwareRebootMode)
  | peerSession (previous current : Nat)
  | departed (now : BitVec 32) (inspect : Inspected FirmwareRebootMode)
  | close (now : BitVec 32) (inspect : Inspected FirmwareRebootMode)

/-- What a call returns to its caller. -/
inductive Returned where
  | gate (error : FirmwareUpdateError)
  | boot (status : BootStatus)
  | reboot (result : FirmwareRebootResult)
  deriving DecidableEq

structure ClientEvent where
  effects : List Effect := []
  returned : Option Returned := none

namespace ClientState
variable {B : Bulk}

/-- `m_boot_call_mutex` is tried and the arguments are checked. -/
def bootCall (s : ClientState B) (timeoutMs : Int) : ClientState B × ClientEvent :=
  match s.boot with
  | .none =>
    if validTimeout timeoutMs then ({ s with boot := .entering timeoutMs }, {})
    else (s, { returned := some (.boot { error := .invalidArgument }) })
  | _ => (s, { returned := some (.boot { error := .busy }) })

def bootEnter (s : ClientState B) (now : BitVec 32) : Option (ClientState B × ClientEvent) :=
  match s.boot with
  | .entering timeoutMs =>
    match s.client.bootRequest (milliseconds timeoutMs) now with
    | (client, .none) => some ({ s with client, boot := .waiting }, {})
    | (client, error) =>
      some ({ s with client, boot := .none }, { returned := some (.boot { error }) })
  | _ => none

def bootWake (s : ClientState B) (expired : Bool) : Option (ClientState B × ClientEvent) :=
  match s.boot with
  | .waiting =>
    if s.client.client.bootDone then
      some ({ s with boot := .none }, { returned := some (.boot s.client.client.boot) })
    else if expired then
      some ({ s with boot := .none }, { returned := some (.boot { error := .timeout }) })
    else some (s, {})
  | _ => none

/-- `m_reboot_call_mutex` is tried and the arguments are checked. -/
def rebootCall (s : ClientState B) (mode : Option FirmwareRebootMode) (timeoutMs : Int)
    (verification : Bool) : ClientState B × ClientEvent :=
  match s.reboot, mode with
  | .none, some mode =>
    if validTimeout timeoutMs then
      ({ s with reboot := .entering mode timeoutMs verification }, {})
    else (s, { returned := some (.reboot { error := .invalidArgument }) })
  | .none, none => (s, { returned := some (.reboot { error := .invalidArgument }) })
  | _, _ => (s, { returned := some (.reboot { error := .busy }) })

def rebootEnter (s : ClientState B) (now : BitVec 32) : Option (ClientState B × ClientEvent) :=
  match s.reboot with
  | .entering mode timeoutMs verification =>
    match s.client.rebootRequest mode verification (milliseconds timeoutMs) now with
    | (client, .none) =>
      some ({ s with client, reboot := .waiting mode }, { effects := [.rebootAdmitted mode] })
    | (client, error) =>
      some ({ s with client, reboot := .none }, { returned := some (.reboot { error }) })
  | _ => none

def rebootWake (s : ClientState B) (expired : Bool) : Option (ClientState B × ClientEvent) :=
  match s.reboot with
  | .waiting _ =>
    let result := s.client.client.reboot
    if s.client.client.rebootDone then
      some ({ s with reboot := .none }, { returned := some (.reboot result) })
    else if expired then
      some ({ s with reboot := .none },
        { returned := some (.reboot { result with error := .timeout }) })
    else some (s, {})
  | _ => none

/-- `disconnected` as a step of the owner. -/
def lost (s : ClientState B) (departed : Bool) (now : BitVec 32)
    (inspect : Inspected FirmwareRebootMode) : ClientState B × ClientEvent :=
  let (client, effects) := s.client.disconnected departed now inspect
  ({ s with client, owner := .idle }, { effects })

/-- The steps of the owner thread outside `on_peer_session`. -/
def ownerStep (s : ClientState B) : ClientAction → Option (ClientState B × ClientEvent)
  | .pass p =>
    let (client, effects) := s.client.progress p
    some ({ s with client }, { effects })
  | .status message now => some ({ s with client := s.client.status message now }, {})
  | .transportState connected now inspect =>
    let client := s.client.withClient { s.client.client with transportConnected := connected }
    if s.client.client.transportConnected && !connected then
      some ({ s with client }.lost true now inspect)
    else some ({ s with client }, {})
  | .peerSession previous current =>
    some ({ s with
      client := s.client.withClient { s.client.client with peerSession := current }
      owner := if previous = 0 then .idle else .departing }, {})
  | .close now inspect => some (s.lost false now inspect)
  | _ => none

def step (s : ClientState B) : ClientAction → Option (ClientState B × ClientEvent)
  | .connected running =>
    some ({ s with client := s.client.withClient { s.client.client with running } }, {})
  | .beginVerification =>
    let (client, error) := s.client.client.beginVerification
    some ({ s with client := s.client.withClient client }, { returned := some (.gate error) })
  | .endVerification =>
    some ({ s with client := s.client.withClient s.client.client.endVerification }, {})
  | .startUpload image options now =>
    let (client, error) := s.client.startUpload image options now
    some ({ s with client },
      { effects := if error = .none then [.uploadAdmitted] else [],
        returned := some (.gate error) })
  | .cancel => some ({ s with client := s.client.cancel }, {})
  | .bootCall timeoutMs => some (s.bootCall timeoutMs)
  | .bootEnter now => s.bootEnter now
  | .bootWake expired => s.bootWake expired
  | .rebootCall mode timeoutMs verification => some (s.rebootCall mode timeoutMs verification)
  | .rebootEnter now => s.rebootEnter now
  | .rebootWake expired => s.rebootWake expired
  | .departed now inspect =>
    match s.owner with
    | .departing => some (s.lost true now inspect)
    | .idle => none
  | action =>
    match s.owner with
    | .departing => none
    | .idle => s.ownerStep action

end ClientState

def upgradeMachine (B : Bulk) : Machine (ClientState B) ClientAction ClientEvent :=
  ⟨{ client := .initial B }, ClientState.step⟩

/-- A history of the client. -/
abbrev ClientTrace (B : Bulk) := List (Entry (ClientState B) ClientAction ClientEvent)

/-- All that was observed in a history. -/
def observed {B : Bulk} (es : ClientTrace B) : List Effect := es.flatMap (·.event.effects)

theorem observed_snoc {B : Bulk} (es : ClientTrace B)
    (e : Entry (ClientState B) ClientAction ClientEvent) :
    observed (es ++ [e]) = observed es ++ e.event.effects := by
  simp [observed]

end Florid.Upgrade
