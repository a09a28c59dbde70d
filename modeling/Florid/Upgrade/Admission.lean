import Florid.Upgrade.ClientMoves

/-! Which activities of the client exclude each other, and which RPC operations it owns.
Uploads, reboots and verifications share one client; callers may give up while the owner
still works for them. -/
namespace Florid.Upgrade
open Transition

/-! ### The queries -/

namespace Client

/-- Operations are owned by what is pending. An accepted reboot owns none. -/
structure Owned (c : Client) : Prop where
  boot : c.bootId ≠ 0 → c.bootPending = true
  reboot : c.rebootId ≠ 0 → c.rebootPending = true ∧ c.reboot.requestAccepted = false

/-- A poll of the boot query leaves everything else alone. -/
theorem pollBoot_eq (c : Client) (p : Poll BootInfo) (owned : c.Owned) :
    ∃ bootId boot bootPending bootDone,
      c.pollBoot p = { c with bootId, boot, bootPending, bootDone } ∧
      (bootId ≠ 0 → bootPending = true) := by
  unfold pollBoot
  split
  · exact ⟨_, _, _, _, rfl, owned.boot⟩
  rename_i pending
  split
  · exact ⟨_, _, _, _, rfl, fun leaked => (leaked rfl).elim⟩
  split
  · cases p.start with
    | ok id nonzero => exact ⟨_, _, _, _, rfl, fun _ => by simpa using pending⟩
    | retryable => exact ⟨_, _, _, _, rfl, owned.boot⟩
    | failed => exact ⟨_, _, _, _, rfl, fun leaked => (leaked rfl).elim⟩
  · cases p.inspect with
    | missing => exact ⟨_, _, _, _, rfl, fun leaked => (leaked rfl).elim⟩
    | running => exact ⟨_, _, _, _, rfl, owned.boot⟩
    | finished reply => exact ⟨_, _, _, _, rfl, fun leaked => (leaked rfl).elim⟩

namespace RebootMove
variable {c d : Client} {effects : List Effect}

/-- Only the reboot's own fields change, and it is never pending afresh. -/
theorem frame (move : RebootMove c d effects) : d.verifying = c.verifying ∧
    d.bootId = c.bootId ∧ d.bootPending = c.bootPending ∧ d.rebootMode = c.rebootMode ∧
    (d.rebootPending = true → c.rebootPending = true) := by
  cases move with
  | kept | sent | accepted => exact ⟨rfl, rfl, rfl, rfl, id⟩
  | expired | failed | refused => exact ⟨rfl, rfl, rfl, rfl, fun again => nomatch again⟩

theorem owned (move : RebootMove c d effects) (held : c.Owned) : d.Owned := by
  cases move with
  | kept => exact held
  | sent pending unaccepted _ _ => exact ⟨held.boot, fun _ => ⟨pending, unaccepted⟩⟩
  | accepted | expired | failed | refused => exact ⟨held.boot, fun leaked => (leaked rfl).elim⟩

end RebootMove

/-- A disconnected client owns nothing, and nothing is pending. -/
theorem disconnected_settled (c : Client) (departed : Bool) (p : Poll FirmwareRebootMode) :
    (c.disconnected departed p).bootId = 0 ∧ (c.disconnected departed p).rebootId = 0 ∧
      (c.disconnected departed p).rebootPending = false ∧
      (c.disconnected departed p).verifying = c.verifying := by
  have verifying : (if c.rebootPending && c.rebootId != 0 then (c.pollReboot p).1
      else c).verifying = c.verifying := by
    split
    · exact (pollReboot_move c p).frame.1
    · rfl
  unfold disconnected
  generalize (if c.rebootPending && c.rebootId != 0 then (c.pollReboot p).1 else c) = d
    at verifying ⊢
  cases boot : d.bootPending <;> cases reboot : d.rebootPending <;>
    simp [finishBoot, finishReboot, boot, reboot, verifying]

end Client

/-! ### The upload -/

namespace Upload
variable {B : Bulk} {u v w : Upload B}

/-- The `StartUpgrade` operation is owned exactly while the upload is starting, and an
active upload has its whole image. -/
structure Owned (u : Upload B) : Prop where
  start : u.startId ≠ 0 ↔ u.progress.state = .starting
  image : u.progress.active = true → u.image.length = u.progress.totalBytes

theorem Owned.startless (owned : u.Owned) (other : u.progress.state ≠ .starting) :
    u.startId = 0 := by
  by_contra leaked
  exact other (owned.start.mp leaked)

theorem Owned.of_terminal (startless : u.startId = 0) (finished : u.progress.terminal = true) :
    u.Owned := by
  constructor
  · constructor
    · intro leaked
      exact (leaked startless).elim
    · intro starting
      exact (FirmwareUploadProgress.not_starting_of_terminal finished starting).elim
  · intro active
    rw [FirmwareUploadProgress.not_active_of_terminal finished] at active
    exact (Bool.false_ne_true active).elim

theorem Owned.finish (error : FirmwareUpdateError) (startless : u.startId = 0) :
    (u.finish error).Owned :=
  .of_terminal startless (finish_terminal u error)

/-- A transfer goes on with the same image, or the upload is over. -/
structure Carried (u v : Upload B) : Prop where
  startId : v.startId = u.startId
  options : v.options = u.options
  goes : (v.image = u.image ∧ v.progress.totalBytes = u.progress.totalBytes ∧
    v.progress.transferring = true) ∨ v.progress.terminal = true

theorem Carried.on (moving : v.progress.transferring = true) (startId : v.startId = u.startId)
    (options : v.options = u.options) (image : v.image = u.image)
    (total : v.progress.totalBytes = u.progress.totalBytes) : Carried u v :=
  ⟨startId, options, .inl ⟨image, total, moving⟩⟩

theorem Carried.finish (u : Upload B) (error : FirmwareUpdateError) : Carried u (u.finish error) :=
  ⟨rfl, rfl, .inr (finish_terminal u error)⟩

theorem Carried.trans (first : Carried u v) (moving : v.progress.transferring = true)
    (second : Carried v w) : Carried u w := by
  refine ⟨second.startId.trans first.startId, second.options.trans first.options, ?_⟩
  rcases first.goes with ⟨image, total, -⟩ | finished
  · rcases second.goes with ⟨image', total', moving'⟩ | finished
    · exact .inl ⟨image'.trans image, total'.trans total, moving'⟩
    · exact .inr finished
  · have active := FirmwareUploadProgress.active_of_transferring moving
    rw [FirmwareUploadProgress.not_active_of_terminal finished] at active
    exact (Bool.false_ne_true active).elim

theorem requestAbort_carried (u : Upload B) (reason : WlError) :
    Carried u (u.requestAbort reason).1 := .on rfl rfl rfl rfl rfl

theorem refresh_carried (now : BitVec 32) (moving : u.progress.transferring = true) :
    Carried u (u.refresh now) := .on moving rfl rfl rfl rfl

theorem dispatch_carried (p : Pass) (moving : u.progress.transferring = true) :
    Carried u (u.dispatch p).1 := by
  unfold dispatch
  split
  · exact .on moving rfl rfl rfl rfl
  · split
    · exact ⟨rfl, rfl, .inr (finish_terminal _ _)⟩
    · split
      · exact .on moving rfl rfl rfl rfl
      · exact .on moving rfl rfl rfl rfl

theorem judge_carried (p : Pass) (moving : u.progress.transferring = true) :
    Carried u (u.judge p).1 := by
  unfold judge
  cases (B.result u.sender).state with
  | completed => exact .finish u _
  | aborted => exact .finish u _
  | failed =>
    dsimp only
    split
    · exact .finish u _
    · have failing : Carried u u.fail.1 := .on rfl rfl rfl rfl rfl
      exact failing.trans rfl (dispatch_carried p rfl)
  | working => exact dispatch_carried p moving

theorem passCancel_carried (moving : u.progress.transferring = true) :
    Carried u u.passCancel.1 ∧ u.passCancel.1.progress.transferring = true := by
  unfold passCancel
  split
  · exact ⟨requestAbort_carried u .cancelled, rfl⟩
  · exact ⟨.on moving rfl rfl rfl rfl, moving⟩

theorem drive_carried (p : Pass) (moving : u.progress.transferring = true) :
    Carried u (u.drive p).1 := by
  obtain ⟨asked, moving'⟩ := passCancel_carried moving
  have polled := asked.trans moving' (refresh_carried p.now moving')
  exact polled.trans moving' (judge_carried p moving')

theorem Carried.owned (carried : Carried u v) (moving : u.progress.transferring = true)
    (owned : u.Owned) : v.Owned := by
  have startless := owned.startless (FirmwareUploadProgress.not_starting_of_transferring moving)
  have startless' := carried.startId.trans startless
  rcases carried.goes with ⟨image, total, moving'⟩ | finished
  · constructor
    · constructor
      · intro leaked
        exact (leaked startless').elim
      · intro starting
        exact (FirmwareUploadProgress.not_starting_of_transferring moving' starting).elim
    · intro _
      rw [image, total]
      exact owned.image (FirmwareUploadProgress.active_of_transferring moving)
  · exact .of_terminal startless' finished

theorem collect_owned (reply : RpcReply StartUpgradeResponse) (owned : u.Owned)
    (active : u.progress.active = true) : (u.collect reply).1.Owned := by
  unfold collect
  split
  · exact .finish _ rfl
  · split
    · exact .finish _ rfl
    · dsimp only
      split
      · exact ⟨⟨fun leaked => (leaked rfl).elim, fun starting => by cases starting⟩,
          fun _ => owned.image active⟩
      · exact .of_terminal rfl (finish_terminal _ .protocolError)

theorem pollStart_owned (p : Pass) (owned : u.Owned) (active : u.progress.active = true) :
    (u.pollStart p).1.Owned := by
  unfold pollStart
  split
  · rename_i startless
    cases p.startStart with
    | ok id nonzero => exact ⟨⟨fun _ => rfl, fun _ => nonzero⟩, fun _ => owned.image active⟩
    | retryable => exact owned
    | failed => exact .finish _ startless
  · cases p.startInspect with
    | missing => exact .of_terminal rfl (finish_terminal u .protocolError)
    | running => exact owned
    | finished reply => exact collect_owned reply owned active

theorem pass_owned (p : Pass) (owned : u.Owned) : (u.pass p).1.Owned := by
  unfold pass
  split
  · exact owned
  rename_i busy
  have active : u.progress.active = true := by simpa using busy
  split
  · exact .finish _ rfl
  split
  · rename_i queued
    have waiting : u.progress.state = .queued := by
      rw [Bool.and_eq_true, beq_iff_eq] at queued
      exact queued.2
    exact .finish _ (owned.startless (by rw [waiting]; decide))
  split
  · exact pollStart_owned p owned active
  · rename_i begun
    have moving := FirmwareUploadProgress.transferring_of_active active begun
    exact (drive_carried p moving).owned moving owned

theorem disconnected_owned (u : Upload B) : u.disconnected.1.Owned := by
  unfold disconnected
  dsimp only [cancelStart]
  split
  · exact .finish _ rfl
  · rename_i idle
    constructor
    · constructor
      · intro leaked
        exact (leaked rfl).elim
      · intro starting
        have waiting : u.progress.state = .starting := starting
        simp [FirmwareUploadProgress.active, waiting] at idle
    · intro active
      exact (idle active).elim

/-- A pass starts no upload. -/
theorem pass_active (p : Pass) (active : (u.pass p).1.progress.active = true) :
    u.progress.active = true := by
  by_contra idle
  unfold pass at active
  rw [if_pos (by simpa using idle)] at active
  exact idle active

theorem disconnected_active (u : Upload B) : u.disconnected.1.progress.active = false := by
  unfold disconnected
  dsimp only
  split
  · exact FirmwareUploadProgress.not_active_of_terminal (finish_terminal _ _)
  · rename_i idle
    simpa using idle

end Upload

/-! ### The client -/

/-- An upload runs alone, and every operation has an owner. -/
structure Admission {B : Bulk} (u : UpgradeClient B) : Prop where
  queries : u.client.Owned
  upload : u.upload.Owned
  alone : u.upload.progress.active = true →
    u.client.rebootPending = false ∧ u.client.verifying = false

namespace Admission
variable {B : Bulk} {u : UpgradeClient B}

theorem initial : Admission (UpgradeClient.initial B) :=
  ⟨⟨fun leaked => (leaked rfl).elim, fun leaked => (leaked rfl).elim⟩,
    ⟨⟨fun leaked => (leaked rfl).elim, nofun⟩, nofun⟩, nofun⟩

theorem withClient {c : Client} (held : Admission u) (queries : c.Owned)
    (alone : u.upload.progress.active = true → c.rebootPending = false ∧ c.verifying = false) :
    Admission (u.withClient c) :=
  ⟨⟨queries.boot, queries.reboot⟩, held.upload, alone⟩

theorem withUpload {upload : Upload B} (held : Admission u) (owned : upload.Owned)
    (active : upload.progress.active = true → u.upload.progress.active = true) :
    Admission (u.withUpload upload) :=
  ⟨⟨held.queries.boot, held.queries.reboot⟩, owned, fun now => held.alone (active now)⟩

theorem uploadAdmitted {image : List UInt8} {options : FirmwareUploadOptions} {now : BitVec 32}
    (held : Admission u) (idle : u.upload.progress.active = false)
    (unpending : u.client.rebootPending = false) (unverified : u.client.verifying = false) :
    Admission (u.withUpload (u.upload.admitted image options now)) := by
  have startless := held.upload.startless (by
    intro starting
    simp [FirmwareUploadProgress.active, starting] at idle)
  refine ⟨⟨held.queries.boot, held.queries.reboot⟩, ⟨⟨?_, nofun⟩, fun _ => rfl⟩,
    fun _ => ⟨unpending, unverified⟩⟩
  intro leaked
  exact (leaked startless).elim

theorem progress (held : Admission u) (p : Pass) : Admission (u.progress p).1 := by
  obtain ⟨bootId, boot, bootPending, bootDone, polled, boots⟩ :=
    u.client.pollBoot_eq (u.bootPoll p) held.queries
  have queries : (u.client.pollBoot (u.bootPoll p)).Owned := by
    rw [polled]
    exact ⟨boots, held.queries.reboot⟩
  have move := (u.client.pollBoot (u.bootPoll p)).pollReboot_move (u.rebootPoll p)
  obtain ⟨verifying, -, -, -, pending⟩ := move.frame
  have client : Admission
      (u.withClient ((u.client.pollBoot (u.bootPoll p)).pollReboot (u.rebootPoll p)).1) := by
    apply held.withClient (move.owned queries)
    intro active
    obtain ⟨unpending, unverified⟩ := held.alone active
    constructor
    · by_contra again
      have before := pending (by simpa using again)
      rw [polled, unpending] at before
      exact Bool.false_ne_true before
    · rw [verifying, polled]
      exact unverified
  exact client.withUpload (Upload.pass_owned p client.upload) (Upload.pass_active p)

theorem status (held : Admission u) (message : BulkStatus) (now : BitVec 32) :
    Admission (u.status message now) := by
  unfold UpgradeClient.status Upload.status
  split
  · exact held.withUpload ⟨held.upload.start, held.upload.image⟩ id
  · exact held.withUpload held.upload id

theorem cancel (held : Admission u) : Admission u.cancel := by
  unfold UpgradeClient.cancel Upload.cancelled
  split
  · exact held.withUpload ⟨held.upload.start, held.upload.image⟩ id
  · exact held.withUpload held.upload id

theorem disconnected (u : UpgradeClient B) (departed : Bool) (now : BitVec 32)
    (inspect : Inspected FirmwareRebootMode) :
    Admission (u.disconnected departed now inspect).1 := by
  obtain ⟨boot, reboot, pending, verifying⟩ := u.client.disconnected_settled departed
    ⟨u.rebootDeadline.expired now, .retryable, inspect⟩
  refine ⟨⟨fun leaked => (leaked boot).elim, fun leaked => (leaked reboot).elim⟩,
    Upload.disconnected_owned u.upload, ?_⟩
  intro active
  have none := u.upload.disconnected_active
  exact (Bool.false_ne_true (none.symm.trans active)).elim

theorem step {s t : ClientState B} {a : ClientAction} {event : ClientEvent}
    (held : Admission s.client) (move : ClientMove s a t event) : Admission t.client := by
  cases move with
  | fields _ same verifying _ _ =>
    have reboot := same.reboot
    simp only [Client.rebootView, RebootView.mk.injEq] at reboot
    apply held.withClient
    · constructor
      · rw [same.bootId, same.bootPending]
        exact held.queries.boot
      · rw [reboot.1, reboot.2.2.1, reboot.2.2.2.2]
        exact held.queries.reboot
    · intro active
      obtain ⟨unpending, unverified⟩ := held.alone active
      refine ⟨reboot.1.trans unpending, ?_⟩
      by_contra begun
      rcases verifying (by simpa using begun) with before | idle
      · exact Bool.false_ne_true (unverified.symm.trans before)
      · exact Bool.false_ne_true (idle.symm.trans active)
  | uploadAdmitted _ idle unpending unverified => exact held.uploadAdmitted idle unpending unverified
  | cancelled => exact held.cancel
  | status => exact held.status _ _
  | call | rebootReturned => exact held
  | bootAdmitted => exact ⟨⟨fun _ => rfl, held.queries.reboot⟩, held.upload, held.alone⟩
  | rebootAdmitted idle _ =>
    refine ⟨⟨held.queries.boot, fun _ => ⟨rfl, rfl⟩⟩, held.upload, ?_⟩
    intro active
    exact (Bool.false_ne_true (idle.symm.trans active)).elim
  | pass => exact held.progress _
  | lost => exact disconnected _ _ _ _

end Admission

/-- Whatever callers and the owner do, an active upload excludes reboots and verifications,
every operation has an owner, and the image of an active upload is whole. -/
theorem admission {B : Bulk} {es : ClientTrace B} {s : ClientState B}
    (run : Run (upgradeMachine B) es s) :
    (s.client.upload.progress.active = true →
      s.client.client.rebootPending = false ∧ s.client.client.verifying = false) ∧
    (s.client.upload.startId ≠ 0 ↔ s.client.upload.progress.state = .starting) ∧
    (s.client.client.bootId ≠ 0 → s.client.client.bootPending = true) ∧
    (s.client.client.rebootId ≠ 0 → s.client.client.rebootPending = true ∧
      s.client.client.reboot.requestAccepted = false) ∧
    (s.client.upload.progress.active = true →
      s.client.upload.image.length = s.client.upload.progress.totalBytes) := by
  have held : Admission s.client := by
    apply run.invariant (P := fun s => Admission s.client)
    · exact .initial
    · intro s a event t held stepped
      exact held.step (.of_step stepped)
  exact ⟨held.alone, held.upload.start, held.queries.boot, held.queries.reboot,
    held.upload.image⟩

/-- An upload whose `StartUpgrade` is out. -/
def startedUpload : List ClientAction :=
  [.connected true, .startUpload [0x31, 0x32, 0x33, 0x34] {} 100#32, .bootCall 500,
    .bootEnter 101#32,
    .pass { now := 105#32, bootStart := .ok 3 (by decide), startStart := .ok 7 (by decide) }]

def startedUploadEnd : ClientState plainBulk :=
  (follow (upgradeMachine plainBulk) startedUpload (upgradeMachine plainBulk).init).get
    (by decide +kernel)

theorem admission_started : startedUploadEnd.client.upload.startId = 7 ∧
    startedUploadEnd.client.upload.progress.state = .starting ∧
    startedUploadEnd.client.client.bootPending = true ∧
    startedUploadEnd.client.client.rebootPending = false ∧
    startedUploadEnd.client.upload.image.length = 4 := by
  have led : follow (upgradeMachine plainBulk) startedUpload (upgradeMachine plainBulk).init =
      some startedUploadEnd := (Option.some_get _).symm
  obtain ⟨es, -, run⟩ := follow_run .nil led
  obtain ⟨alone, start, boot, -, image⟩ := admission run
  have id : startedUploadEnd.client.upload.startId = 7 := by decide +kernel
  have active : startedUploadEnd.client.upload.progress.active = true := by decide +kernel
  have total : startedUploadEnd.client.upload.progress.totalBytes = 4 := by decide +kernel
  exact ⟨id, start.mp (by decide +kernel), boot (by decide +kernel), (alone active).1,
    (image active).trans total⟩

end Florid.Upgrade
