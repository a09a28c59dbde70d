import Florid.Upgrade.Session

/-! The firmware upload of `FciUpgradeClient`: its progress, the `StartUpgrade` call and
the passes that drive the bulk sender. The sender itself belongs to Wirelink, whose
sources are not part of this repository; `Bulk` lists what the client uses of it. -/
namespace Florid.Upgrade

/-- `s_elapsed`: a time that lies ahead of the clock sample counts as no time at all. -/
def elapsed (now since : BitVec 32) : Nat :=
  let delta := (now - since).toInt
  if delta < 0 then 0 else delta.toNat

/-- A moment and the milliseconds granted from it on. -/
structure Deadline where
  since : BitVec 32 := 0#32
  timeoutMs : Nat := 0

/-- A `chrono` count as the `uint32_t` it is cast to. -/
def milliseconds (count : Int) : Nat := (count % 2 ^ 32).toNat

def Deadline.expired (d : Deadline) (now : BitVec 32) : Bool :=
  decide (d.timeoutMs ≤ elapsed now d.since)

/-- The unsigned difference of the timeout and the time gone by. -/
def Deadline.remaining (d : Deadline) (now : BitVec 32) : Nat :=
  (2 ^ 32 + d.timeoutMs - elapsed now d.since) % 2 ^ 32

inductive FirmwareUploadState where
  | idle | queued | starting | uploading | cancelling | completed | failed | cancelled
  deriving DecidableEq, Repr

structure FirmwareUploadProgress where
  state : FirmwareUploadState := .idle
  error : FirmwareUpdateError := .none
  deviceStatus : Int := 0
  totalBytes : Nat := 0
  acknowledgedBytes : Nat := 0
  transferId : Nat := 0
  retries : Nat := 0
  busyResponses : Nat := 0
  deriving DecidableEq

namespace FirmwareUploadProgress

def active (p : FirmwareUploadProgress) : Bool :=
  p.state == .queued || p.state == .starting || p.state == .uploading || p.state == .cancelling

/-- The upload is over. -/
def terminal (p : FirmwareUploadProgress) : Bool :=
  p.state == .completed || p.state == .failed || p.state == .cancelled

/-- The device has reserved the transfer and the sender works on it. -/
def transferring (p : FirmwareUploadProgress) : Bool :=
  p.state == .uploading || p.state == .cancelling

variable {p : FirmwareUploadProgress}

theorem active_of_transferring (moving : p.transferring = true) : p.active = true := by
  unfold transferring at moving
  unfold active
  cases state : p.state <;> simp_all

theorem not_active_of_terminal (finished : p.terminal = true) : p.active = false := by
  unfold terminal at finished
  unfold active
  cases state : p.state <;> simp_all

theorem not_starting_of_terminal (finished : p.terminal = true) : p.state ≠ .starting := by
  intro starting
  simp [terminal, starting] at finished

theorem not_starting_of_transferring (moving : p.transferring = true) : p.state ≠ .starting := by
  intro starting
  simp [transferring, starting] at moving

/-- An active upload that neither waits for nor awaits its start is transferring. -/
theorem transferring_of_active (active : p.active = true)
    (begun : ¬ (p.state = .queued ∨ p.state = .starting)) : p.transferring = true := by
  unfold FirmwareUploadProgress.active at active
  unfold transferring
  cases state : p.state <;> simp_all

end FirmwareUploadProgress

structure FirmwareUploadOptions where
  timeout : Int := 120000
  statusTimeoutMs : Nat := 3000
  busyRetryMs : Nat := 10
  maxRetries : Nat := 10

def FirmwareUploadOptions.valid (o : FirmwareUploadOptions) : Bool :=
  validTimeout o.timeout && o.statusTimeoutMs != 0 && decide (o.statusTimeoutMs < 0x80000000) &&
    o.busyRetryMs != 0 && decide (o.busyRetryMs < 0x80000000)

/-- The decoded response to `StartUpgrade`; absent fields are `none`. -/
structure StartUpgradeResponse where
  transferId : Option Nat := none
  writeAlign : Option Nat := none
  maxChunkSize : Option Nat := none
  nextOffset : Option Nat := none

/-- The transfer id and the chunk size of a response the client can work with. -/
def StartUpgradeResponse.transfer (r : StartUpgradeResponse) : Option (Nat × Nat) :=
  match r.transferId, r.writeAlign, r.maxChunkSize with
  | some transfer, some align, some chunk =>
    if transfer = 0 ∨ align = 0 ∨ align &&& (align - 1) ≠ 0 ∨ chunk < align ∨ 2031 < chunk ∨
        chunk % align ≠ 0 ∨ r.nextOffset.getD 0 ≠ 0 then none
    else some (transfer, chunk)
  | _, _, _ => none

/-! ### The bulk sender -/

inductive WlError where
  | cancelled | io
  | other (code : Int)
  deriving DecidableEq

structure BulkSenderConfig where
  statusTimeoutMs : Nat
  busyRetryMs : Nat
  maxRetries : Nat

structure BulkDescriptor where
  transferId : Nat := 0
  totalLength : Nat := 0
  requestedChunkSize : Nat := 0
  objectCrc32c : Nat := 0
  deriving DecidableEq

structure BulkStatus where
  transferId : Nat
  phase : Nat
  code : Int
  nextOffset : Nat
  acceptedChunkSize : Nat

inductive BulkPhase where
  | begin | chunk | finish | abort | unknown
  deriving DecidableEq

structure BulkAction where
  phase : BulkPhase
  descriptor : BulkDescriptor
  offset : Nat := 0
  length : Nat := 0
  abortReason : WlError := .cancelled

inductive BulkSenderState where
  | working | completed | aborted | failed
  deriving DecidableEq

structure BulkSenderResult where
  state : BulkSenderState
  nextOffset : Nat := 0
  status : Int := 0

structure BulkSenderStats where
  retries : Nat := 0
  busyResponses : Nat := 0

/-- `wl_bulk_sender_*` and `wl_crc32c`. A sender that is asked for its next action may
change even when it has none. -/
structure Bulk where
  Sender : Type
  blank : Sender
  init : BulkSenderConfig → Sender
  start : Sender → BulkDescriptor → Sender × Bool
  requestAbort : Sender → WlError → Sender
  poll : Sender → BitVec 32 → Sender
  onStatus : Sender → BulkStatus → BitVec 32 → Sender
  result : Sender → BulkSenderResult
  stats : Sender → BulkSenderStats
  acquire : Sender → Sender × Option BulkAction
  submitted : Sender → BulkAction → BitVec 32 → Sender
  defer : Sender → BulkAction → Sender
  crc32c : List UInt8 → Nat

/-- The senders of transfers nobody has asked to abort. -/
inductive Bulk.Unasked (B : Bulk) : B.Sender → Prop where
  | start {config d} : (B.start (B.init config) d).2 = true →
      Unasked B (B.start (B.init config) d).1
  | poll {s} (now) : Unasked B s → Unasked B (B.poll s now)
  | onStatus {s} (status now) : Unasked B s → Unasked B (B.onStatus s status now)
  | acquire {s} : Unasked B s → Unasked B (B.acquire s).1
  | submitted {s} (action now) : Unasked B s → Unasked B (B.submitted s action now)
  | defer {s} (action) : Unasked B s → Unasked B (B.defer s action)

/-- A sender reports an aborted transfer only after it was asked to abort it. -/
def Bulk.AbortsOnRequest (B : Bulk) : Prop :=
  ∀ s, B.Unasked s → (B.result s).state ≠ .aborted

inductive BulkMessage where
  | begin (d : BulkDescriptor)
  | chunk (transferId offset : Nat) (data : List UInt8)
  | finish (transferId totalLength objectCrc32c : Nat)
  | abort (transferId : Nat) (reason : WlError)

/-- The message an action stands for; an unknown phase has none. -/
def BulkAction.message (a : BulkAction) (image : List UInt8) : Option BulkMessage :=
  match a.phase with
  | .begin => some (.begin a.descriptor)
  | .chunk =>
    some (.chunk a.descriptor.transferId a.offset ((image.drop a.offset).take a.length))
  | .finish =>
    some (.finish a.descriptor.transferId a.descriptor.totalLength a.descriptor.objectCrc32c)
  | .abort => some (.abort a.descriptor.transferId a.abortReason)
  | .unknown => none

/-! A sender that waits for the device after every message. -/

structure PlainSender where
  descriptor : BulkDescriptor := {}
  phase : BulkPhase := .begin
  offset : Nat := 0
  chunkSize : Nat := 0
  /-- The last message is unanswered. -/
  waiting : Bool := false
  reason : WlError := .cancelled
  outcome : BulkSenderState := .working

namespace PlainSender

/-- What an answer without an error lets the sender do next. -/
def answered (s : PlainSender) (status : BulkStatus) : PlainSender :=
  match s.phase with
  | .begin => { s with phase := .chunk, chunkSize := status.acceptedChunkSize }
  | .chunk =>
    { s with
      offset := status.nextOffset
      phase := if status.nextOffset < s.descriptor.totalLength then .chunk else .finish }
  | .finish => { s with outcome := .completed }
  | .abort => { s with outcome := .aborted }
  | .unknown => s

def onStatus (s : PlainSender) (status : BulkStatus) : PlainSender :=
  if !s.waiting || status.transferId != s.descriptor.transferId then s
  else if status.code ≠ 0 then { s with waiting := false, outcome := .failed }
  else { s with waiting := false }.answered status

def acquire (s : PlainSender) : Option BulkAction :=
  if s.waiting || s.outcome != .working then none
  else some {
    phase := s.phase
    descriptor := s.descriptor
    offset := s.offset
    length := min s.chunkSize (s.descriptor.totalLength - s.offset)
    abortReason := s.reason }

end PlainSender

/-- One byte of the Castagnoli checksum. -/
def castagnoliByte (crc : BitVec 32) (byte : UInt8) : BitVec 32 :=
  Nat.iterate (fun c => (c >>> 1) ^^^ (if c.getLsbD 0 then 0x82F63B78#32 else 0#32)) 8
    (crc ^^^ byte.toBitVec.setWidth 32)

def plainBulk : Bulk where
  Sender := PlainSender
  blank := {}
  init _ := {}
  start _ d := ({ descriptor := d, chunkSize := d.requestedChunkSize }, d.transferId != 0)
  requestAbort s reason := { s with phase := .abort, waiting := false, reason, outcome := .working }
  poll s _ := s
  onStatus s status _ := s.onStatus status
  result s := { state := s.outcome, nextOffset := s.offset }
  stats _ := {}
  acquire s := (s, s.acquire)
  submitted s _ _ := { s with waiting := true }
  defer s _ := s
  crc32c image := (~~~ image.foldl castagnoliByte 0xFFFFFFFF#32).toNat

/-! ### The upload -/

/-- What a region of the client does that others can observe, in the order it happens. -/
inductive Effect where
  | uploadAdmitted
  | startRequested (remaining : Nat) (sent : Bool)
  | startCollected (id : Nat) (reply : RpcReply StartUpgradeResponse)
  | startCancelled (id : Nat)
  | senderStarted (d : BulkDescriptor)
  | abortRequested (transferId : Nat) (reason : WlError)
  | senderReported (state : BulkSenderState)
  | bulkSent (message : BulkMessage)
  | rebootAdmitted (mode : FirmwareRebootMode)
  | rebootSent (id : Nat) (mode : FirmwareRebootMode)
  | rebootAnswered (id : Nat) (reply : RpcReply FirmwareRebootMode)
  | rebootExpired
  | departure
  | localClose

namespace Effect

/-- Observations of a transfer that has begun. -/
def ofSender : Effect → Bool
  | abortRequested _ _ | senderReported _ | bulkSent _ => true
  | _ => false

/-- Observations of an upload after its admission. -/
def ofTransfer : Effect → Bool
  | startRequested _ _ | startCollected _ _ | startCancelled _ | senderStarted _ => true
  | e => e.ofSender

/-- Observations of the upload, which say nothing about a reboot. -/
def ofUpload : Effect → Bool
  | uploadAdmitted => true
  | e => e.ofTransfer

theorem ofTransfer_of_ofSender {e : Effect} (sender : e.ofSender = true) :
    e.ofTransfer = true := by
  cases e <;> first | rfl | exact sender

theorem ofUpload_of_ofTransfer {e : Effect} (transfer : e.ofTransfer = true) :
    e.ofUpload = true := by
  cases e <;> first | rfl | exact transfer

end Effect

/-- The clock of a pass and the answers it gets from the runtime. -/
structure Pass where
  now : BitVec 32
  bootStart : StartResult := .retryable
  bootInspect : Inspected BootInfo := .running
  rebootStart : StartResult := .retryable
  rebootInspect : Inspected FirmwareRebootMode := .running
  startStart : StartResult := .retryable
  startInspect : Inspected StartUpgradeResponse := .running
  /-- The endpoint takes the bulk message. -/
  sends : Bool := true

structure Upload (B : Bulk) where
  image : List UInt8 := []
  crc : Nat := 0
  options : FirmwareUploadOptions := {}
  progress : FirmwareUploadProgress := {}
  startId : Nat := 0
  since : BitVec 32 := 0#32
  cancel : Bool := false
  sender : B.Sender

namespace Upload
variable {B : Bulk}

def deadline (u : Upload B) : Deadline := ⟨u.since, milliseconds u.options.timeout⟩

/-- `s_finish`. -/
def finish (u : Upload B) (error : FirmwareUpdateError) : Upload B :=
  { u with
    progress := { u.progress with
      error
      state := if error = .none then .completed else if error = .cancelled then .cancelled
        else .failed }
    image := [] }

@[simp] theorem finish_startId (u : Upload B) (error : FirmwareUpdateError) :
    (u.finish error).startId = u.startId := rfl

theorem finish_terminal (u : Upload B) (error : FirmwareUpdateError) :
    (u.finish error).progress.terminal = true := by
  cases error <;> rfl

/-- `s_cancelRpc(m_start_id)`. -/
def cancelStart (u : Upload B) : Upload B × List Effect :=
  ({ u with startId := 0 }, if u.startId = 0 then [] else [.startCancelled u.startId])

/-- What an admitted `startUpload` writes. -/
def admitted (u : Upload B) (image : List UInt8) (options : FirmwareUploadOptions)
    (now : BitVec 32) : Upload B :=
  { u with
    image, options
    crc := B.crc32c image
    since := now
    cancel := false
    progress := { state := .queued, totalBytes := image.length } }

/-- The upload's part of `cancel`. -/
def cancelled (u : Upload B) : Upload B :=
  if u.progress.active then { u with cancel := true } else u

/-- A `StartUpgrade` call that has ended: the transfer begins or the upload is over. -/
def collect (u : Upload B) (reply : RpcReply StartUpgradeResponse) : Upload B × List Effect :=
  let u := { u with
    startId := 0
    progress := { u.progress with deviceStatus := reply.applicationStatus } }
  if reply.applicationStatus ≠ 0 then (u.finish .deviceRejected, [])
  else
    match reply.decoded.bind StartUpgradeResponse.transfer with
    | none => (u.finish (if reply.timedOut then .timeout else .protocolError), [])
    | some (transferId, requestedChunkSize) =>
      let d : BulkDescriptor :=
        ⟨transferId, u.image.length, requestedChunkSize, u.crc⟩
      let (sender, started) := B.start
        (B.init ⟨u.options.statusTimeoutMs, u.options.busyRetryMs, u.options.maxRetries⟩) d
      if started then
        ({ u with
          sender
          progress := { u.progress with transferId, state := .uploading } }, [.senderStarted d])
      else ({ u.finish .protocolError with sender }, [])

/-- `s_pollStart`. -/
def pollStart (u : Upload B) (p : Pass) : Upload B × List Effect :=
  if u.startId = 0 then
    match p.startStart with
    | .ok id _ =>
      ({ u with startId := id, progress := { u.progress with state := .starting } },
        [.startRequested (u.deadline.remaining p.now) true])
    | .retryable => (u, [.startRequested (u.deadline.remaining p.now) false])
    | .failed =>
      (u.finish .transportError, [.startRequested (u.deadline.remaining p.now) false])
  else
    match p.startInspect with
    | .missing => (u.finish .protocolError).cancelStart
    | .running => (u, [])
    | .finished reply =>
      let (v, effects) := u.collect reply
      (v, .startCollected u.startId reply :: effects)

/-- `s_status`. -/
def status (u : Upload B) (message : BulkStatus) (now : BitVec 32) : Upload B :=
  if u.progress.state = .uploading ∨ u.progress.state = .cancelling then
    { u with sender := B.onStatus u.sender message now }
  else u

def requestAbort (u : Upload B) (reason : WlError) : Upload B × List Effect :=
  ({ u with
    sender := B.requestAbort u.sender reason
    progress := { u.progress with state := .cancelling } },
    [.abortRequested u.progress.transferId reason])

/-- The sender is polled and its result and statistics copied to the progress. -/
def refresh (u : Upload B) (now : BitVec 32) : Upload B :=
  let sender := B.poll u.sender now
  { u with
    sender
    progress := { u.progress with
      acknowledgedBytes := (B.result sender).nextOffset
      retries := (B.stats sender).retries
      busyResponses := (B.stats sender).busyResponses } }

/-- The sender's next message goes to the endpoint. -/
def dispatch (u : Upload B) (p : Pass) : Upload B × List Effect :=
  match B.acquire u.sender with
  | (sender, none) => ({ u with sender }, [])
  | (sender, some action) =>
    match action.message u.image with
    | none => ({ u with sender := B.defer sender action }.finish .protocolError, [])
    | some message =>
      if p.sends then ({ u with sender := B.submitted sender action p.now }, [.bulkSent message])
      else ({ u with sender := B.defer sender action }, [])

/-- A transfer the sender gave up is aborted on the device as well. -/
def fail (u : Upload B) : Upload B × List Effect :=
  { u with progress := { u.progress with
    error := .protocolError
    deviceStatus := (B.result u.sender).status } }.requestAbort .io

/-- What follows from the result of the sender. -/
def judge (u : Upload B) (p : Pass) : Upload B × List Effect :=
  match (B.result u.sender).state with
  | .completed => (u.finish .none, [])
  | .aborted =>
    (u.finish (if u.progress.error = .none then .cancelled else u.progress.error), [])
  | .failed =>
    if u.progress.state = .cancelling then (u.finish .transportError, [])
    else
      let (v, effects) := u.fail.1.dispatch p
      (v, u.fail.2 ++ effects)
  | .working => u.dispatch p

/-- A cancellation is passed on to the sender once. -/
def passCancel (u : Upload B) : Upload B × List Effect :=
  if u.cancel && u.progress.state != .cancelling then u.requestAbort .cancelled else (u, [])

/-- The tail of `s_progress`, for a transfer that has begun. -/
def drive (u : Upload B) (p : Pass) : Upload B × List Effect :=
  let polled := u.passCancel.1.refresh p.now
  let (v, effects) := polled.judge p
  (v, u.passCancel.2 ++ .senderReported (B.result polled.sender).state :: effects)

/-- `s_progress` after its two polls. A cancelled `StartUpgrade` is still resolved, to
learn the transfer that has to be aborted. -/
def pass (u : Upload B) (p : Pass) : Upload B × List Effect :=
  if !u.progress.active then (u, [])
  else if u.deadline.expired p.now then
    let (u, effects) := u.cancelStart
    (u.finish .timeout, effects)
  else if u.cancel && u.progress.state == .queued then (u.finish .cancelled, [])
  else if u.progress.state = .queued ∨ u.progress.state = .starting then u.pollStart p
  else u.drive p

/-- The upload's part of `disconnected`. -/
def disconnected (u : Upload B) : Upload B × List Effect :=
  let (u, effects) := u.cancelStart
  (if u.progress.active then u.finish .transportError else u, effects)

end Upload
end Florid.Upgrade
