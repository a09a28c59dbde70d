import Florid.Wirelink.Types

/-! The locked regions of `FciUpgradeClient` and the data of firmware updates. Clock
comparisons and answers of the RPC runtime are inputs; of an upload only its activity is
kept. -/
namespace Florid.Upgrade
open Wirelink

inductive FirmwareUpdateError where
  | none | notConnected | busy | invalidArgument | timeout | deviceRejected | protocolError
  | transportError | cancelled | identityMismatch | protocolMismatch
  deriving DecidableEq, Repr

structure BootStatus where
  error : FirmwareUpdateError := .none
  deviceStatus : Int := 0
  protocolVersion : Nat := 0
  bootState : Int := 0
  writeAlignment : Nat := 0
  maxChunkSize : Nat := 0
  bytesWritten : Nat := 0
  activeTransferId : Nat := 0
  recoveryReason : Int := 0
  activeSlot : Int := 0
  confirmedSlot : Int := 0
  pendingSlot : Int := 0
  slot0Address : Nat := 0
  slot0Size : Nat := 0
  slot1Address : Nat := 0
  slot1Size : Nat := 0
  deriving DecidableEq

/-- The boot status as decoded from the wire. -/
structure BootInfo where
  protocolVersion : Nat := 0
  bootState : Int := 0
  writeAlign : Nat := 0
  maxChunkSize : Nat := 0
  bytesWritten : Nat := 0
  hasActiveTransferId : Bool := false
  activeTransferId : Nat := 0
  recoveryReason : Int := 0
  activeSlot : Int := 0
  confirmedSlot : Int := 0
  pendingSlot : Int := 0
  slot0Address : Nat := 0
  slot0Size : Nat := 0
  slot1Address : Nat := 0
  slot1Size : Nat := 0
  deriving DecidableEq

inductive FirmwareRebootMode where
  | normal | tryBoot
  deriving DecidableEq, Repr

structure FirmwareRebootResult where
  error : FirmwareUpdateError := .none
  deviceStatus : Int := 0
  requestAccepted : Bool := false
  departureObserved : Bool := false
  deriving DecidableEq

def slotNone : Int := 0
def slotPrimary : Int := 1
def bootIdle : Int := 0

/-- What a `_start` function of the runtime answers. Operation ids are nonzero; zero
stands for no operation in the client. -/
inductive StartResult where
  | ok (operationId : Nat) (nonzero : operationId ≠ 0)
  | retryable
  | failed

/-- A finished RPC: how it ended, the device's status and the decoded response. -/
structure RpcReply (α : Type) where
  timedOut : Bool := false
  applicationStatus : Int := 0
  decoded : Option α := none

inductive Inspected (α : Type) where
  | missing
  | running
  | finished (reply : RpcReply α)

/-- What one poll of an RPC sees: whether its deadline has passed, and the answers of
the runtime if it starts or inspects the call. -/
structure Poll (α : Type) where
  expired : Bool := false
  start : StartResult := .retryable
  inspect : Inspected α := .running

structure Client where
  running : Bool := true
  /-- `m_progress.active()` -/
  uploading : Bool := false
  verifying : Bool := false
  peerSession : Nat := 0
  transportConnected : Bool := true
  bootPending : Bool := false
  bootDone : Bool := false
  bootId : Nat := 0
  boot : BootStatus := {}
  rebootPending : Bool := false
  rebootDone : Bool := false
  rebootId : Nat := 0
  rebootMode : FirmwareRebootMode := .tryBoot
  reboot : FirmwareRebootResult := {}

/-- The status a finished query stands for. -/
def bootOf (reply : RpcReply BootInfo) : BootStatus :=
  let base : BootStatus := { error := .protocolError, deviceStatus := reply.applicationStatus }
  if reply.timedOut then { base with error := .timeout }
  else if reply.applicationStatus ≠ 0 then { base with error := .deviceRejected }
  else
    match reply.decoded with
    | none => base
    | some info => {
        protocolVersion := info.protocolVersion, bootState := info.bootState
        writeAlignment := info.writeAlign, maxChunkSize := info.maxChunkSize
        bytesWritten := info.bytesWritten
        activeTransferId := if info.hasActiveTransferId then info.activeTransferId else 0
        recoveryReason := info.recoveryReason, activeSlot := info.activeSlot
        confirmedSlot := info.confirmedSlot, pendingSlot := info.pendingSlot
        slot0Address := info.slot0Address, slot0Size := info.slot0Size
        slot1Address := info.slot1Address, slot1Size := info.slot1Size }

/-- The result a finished reboot RPC stands for. -/
def rebootOf (mode : FirmwareRebootMode) (reply : RpcReply FirmwareRebootMode) :
    FirmwareRebootResult :=
  let base : FirmwareRebootResult :=
    { error := .protocolError, deviceStatus := reply.applicationStatus }
  if reply.timedOut then { base with error := .timeout }
  else if reply.applicationStatus ≠ 0 then { base with error := .deviceRejected }
  else if reply.decoded = some mode then { base with error := .none, requestAccepted := true }
  else base

namespace Client

/-- `active()`, which gates the endpoint. -/
def active (c : Client) : Bool := c.uploading || c.rebootPending || c.verifying

def beginVerification (c : Client) : Client × FirmwareUpdateError :=
  if !c.running then (c, .notConnected)
  else if c.uploading || c.rebootPending || c.verifying then (c, .busy)
  else ({ c with verifying := true }, .none)

def endVerification (c : Client) : Client := { c with verifying := false }

def startUpload (c : Client) : Client × FirmwareUpdateError :=
  if !c.running then (c, .notConnected)
  else if c.uploading || c.rebootPending || c.verifying then (c, .busy)
  else ({ c with uploading := true }, .none)

/-- First region of `bootStatus`. -/
def bootRequest (c : Client) : Client × FirmwareUpdateError :=
  if !c.running then (c, .notConnected)
  else if c.bootPending then (c, .busy)
  else ({ c with bootPending := true, bootDone := false }, .none)

/-- First region of `reboot`. -/
def rebootRequest (c : Client) (mode : FirmwareRebootMode) (verification : Bool) :
    Client × FirmwareUpdateError :=
  if !c.running then (c, .notConnected)
  else if c.uploading || c.rebootPending || (c.verifying && !verification) then (c, .busy)
  else ({ c with
    reboot := {}, rebootPending := true, rebootDone := false, rebootMode := mode }, .none)

def finishBoot (c : Client) (boot : BootStatus) : Client :=
  { c with bootId := 0, boot, bootPending := false, bootDone := true }

def finishReboot (c : Client) (reboot : FirmwareRebootResult) : Client :=
  { c with rebootId := 0, reboot, rebootPending := false, rebootDone := true }

/-- `s_pollBoot`. -/
def pollBoot (c : Client) (p : Poll BootInfo) : Client :=
  if !c.bootPending then c
  else if p.expired then c.finishBoot { error := .timeout }
  else if c.bootId = 0 then
    match p.start with
    | .ok id _ => { c with bootId := id }
    | .retryable => c
    | .failed => c.finishBoot { error := .transportError }
  else
    match p.inspect with
    | .missing => c.finishBoot { error := .protocolError }
    | .running => c
    | .finished reply => c.finishBoot (bootOf reply)

/-- `s_pollReboot`, and whether it sent the request. An accepted request stays pending
until the peer has left. -/
def pollReboot (c : Client) (p : Poll FirmwareRebootMode) : Client × Bool :=
  if !c.rebootPending then (c, false)
  else if p.expired then (c.finishReboot { c.reboot with error := .timeout }, false)
  else if c.reboot.requestAccepted then (c, false)
  else if c.rebootId = 0 then
    match p.start with
    | .ok id _ => ({ c with rebootId := id }, true)
    | .retryable => (c, false)
    | .failed => (c.finishReboot { error := .transportError }, false)
  else
    match p.inspect with
    | .missing => (c.finishReboot { error := .protocolError }, false)
    | .running => (c, false)
    | .finished reply =>
      let reboot := rebootOf c.rebootMode reply
      if reboot.requestAccepted then ({ c with rebootId := 0, reboot }, false)
      else (c.finishReboot reboot, false)

/-- `disconnected`: a response that has already arrived is collected first, then every
RPC is cancelled and what waits for one fails. -/
def disconnected (c : Client) (departed : Bool) (p : Poll FirmwareRebootMode) : Client :=
  let c := if c.rebootPending && c.rebootId != 0 then (c.pollReboot p).1 else c
  let c := { c with bootId := 0, rebootId := 0, uploading := false }
  let c := if c.bootPending then c.finishBoot { error := .transportError } else c
  if c.rebootPending then
    c.finishReboot { c.reboot with
      departureObserved := departed
      error := if departed && c.reboot.requestAccepted then .none else .transportError }
  else c

end Client
end Florid.Upgrade
