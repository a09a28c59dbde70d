import Florid.Upgrade.Admission

/-! The life of an upload, from its admission to its end: what can end it, how long its
`StartUpgrade` may take and who may give that call up, and when it counts as cancelled. -/
namespace Florid.Upgrade
open Transition

/-! ### Time -/

theorem milliseconds_of_valid {count : Int} (valid : validTimeout count = true) :
    (milliseconds count : Int) = count ∧ 0 < count ∧ milliseconds count < 2 ^ 31 := by
  have range : 0 < count ∧ count < 0x80000000 := by simpa [validTimeout] using valid
  have small : count % 2 ^ 32 = count := Int.emod_eq_of_lt (by omega) (by omega)
  unfold milliseconds
  rw [small]
  omega

theorem FirmwareUploadOptions.timeout_valid {o : FirmwareUploadOptions} (valid : o.valid = true) :
    validTimeout o.timeout = true := by
  simp only [FirmwareUploadOptions.valid, Bool.and_eq_true] at valid
  exact valid.1.1.1.1

/-- What is left of a time that has not run out. -/
theorem Deadline.remaining_range {d : Deadline} {now : BitVec 32} (small : d.timeoutMs < 2 ^ 32)
    (left : d.expired now = false) : 0 < d.remaining now ∧ d.remaining now ≤ d.timeoutMs := by
  have before : elapsed now d.since < d.timeoutMs := by
    simpa [Deadline.expired] using left
  have split : 2 ^ 32 + d.timeoutMs - elapsed now d.since =
      (d.timeoutMs - elapsed now d.since) + 2 ^ 32 := by omega
  have wrapped : d.remaining now = d.timeoutMs - elapsed now d.since := by
    unfold Deadline.remaining
    rw [split, Nat.add_mod_right]
    exact Nat.mod_eq_of_lt (by omega)
  omega

/-! ### What was observed of an upload -/

theorem Upload.pass_idle {B : Bulk} {u : Upload B} {p : Pass} (idle : u.progress.active = false) :
    u.pass p = (u, []) := by
  unfold Upload.pass
  rw [if_pos (by simp [idle])]

theorem Upload.disconnected_idle {B : Bulk} {u : Upload B} (idle : u.progress.active = false) :
    u.disconnected.1.progress = u.progress := by
  unfold Upload.disconnected Upload.cancelStart
  simp only [idle, Bool.false_eq_true, if_false]

/-- No `StartUpgrade` request has gone out. -/
def Unstarted (w : List Effect) : Prop := ∀ remaining, .startRequested remaining true ∉ w

/-- The sender was asked to abort the transfer it had been started for. -/
def AbortAsked (w : List Effect) : Prop := ∃ before after d reason,
  w = before ++ .abortRequested d.transferId reason :: after ∧ .senderStarted d ∈ before

/-- The sender was asked to abort the transfer it had been started for, and then reported
it aborted. -/
def Aborted (w : List Effect) : Prop := ∃ before after d reason,
  w = before ++ .abortRequested d.transferId reason :: after ∧ .senderStarted d ∈ before ∧
    .senderReported .aborted ∈ after

section Growing
variable {w more : List Effect}

theorem AbortAsked.append (asked : AbortAsked w) : AbortAsked (w ++ more) := by
  obtain ⟨before, after, d, reason, rfl, started⟩ := asked
  exact ⟨before, after ++ more, d, reason, by simp, started⟩

theorem Aborted.append (aborted : Aborted w) : Aborted (w ++ more) := by
  obtain ⟨before, after, d, reason, rfl, started, reported⟩ := aborted
  exact ⟨before, after ++ more, d, reason, by simp, started, by simp [reported]⟩

theorem AbortAsked.reported (asked : AbortAsked w) :
    Aborted (w ++ [.senderReported .aborted]) := by
  obtain ⟨before, after, d, reason, rfl, started⟩ := asked
  exact ⟨before, after ++ [.senderReported .aborted], d, reason, by simp, started, by simp⟩

theorem Unstarted.append (unstarted : Unstarted w) (more' : Unstarted more) :
    Unstarted (w ++ more) := by
  intro remaining member
  rcases List.mem_append.mp member with member | member
  · exact unstarted remaining member
  · exact more' remaining member

end Growing

/-- What the observations since its admission say about an upload. -/
structure Traced {B : Bulk} (w : List Effect) (u : Upload B) : Prop where
  queued : u.progress.state = .queued → Unstarted w
  uploading : u.progress.state = .uploading → B.Unasked u.sender ∧
    ∃ d, .senderStarted d ∈ w ∧ d.transferId = u.progress.transferId
  cancelling : u.progress.state = .cancelling → AbortAsked w
  cancelled : u.progress.state = .cancelled → Unstarted w ∨ Aborted w

namespace Traced
variable {B : Bulk} {w more : List Effect} {u : Upload B}

/-- Observations of something else change nothing. -/
theorem foreign (traced : Traced w u) (other : ∀ e ∈ more, e.ofUpload = false) :
    Traced (w ++ more) u := by
  have unstarted : Unstarted more := by
    intro d member
    exact Bool.false_ne_true (other _ member).symm
  constructor
  · intro queued
    exact (traced.queued queued).append unstarted
  · intro uploading
    obtain ⟨unasked, d, started, transfer⟩ := traced.uploading uploading
    exact ⟨unasked, d, List.mem_append_left _ started, transfer⟩
  · intro cancelling
    exact (traced.cancelling cancelling).append
  · intro cancelled
    rcases traced.cancelled cancelled with before | aborted
    · exact .inl (before.append unstarted)
    · exact .inr aborted.append

/-- Of an upload that starts or is over without a cancellation there is nothing to say. -/
theorem of_other (other : u.progress.state = .starting ∨ u.progress.state = .completed ∨
    u.progress.state = .failed) : Traced w u := by
  constructor <;> intro state <;> rw [state] at other <;> simp at other

theorem of_cancelled (state : u.progress.state = .cancelled) (why : Unstarted w ∨ Aborted w) :
    Traced w u := by
  constructor
  · intro queued
    cases state.symm.trans queued
  · intro uploading
    cases state.symm.trans uploading
  · intro cancelling
    cases state.symm.trans cancelling
  · intro _
    exact why

theorem of_cancelling (state : u.progress.state = .cancelling) (asked : AbortAsked w) :
    Traced w u := by
  constructor
  · intro queued
    cases state.symm.trans queued
  · intro uploading
    cases state.symm.trans uploading
  · intro _
    exact asked
  · intro cancelled
    cases state.symm.trans cancelled

theorem of_uploading (state : u.progress.state = .uploading) (unasked : B.Unasked u.sender)
    {d : BulkDescriptor} (started : .senderStarted d ∈ w)
    (transfer : d.transferId = u.progress.transferId) : Traced w u := by
  constructor
  · intro queued
    cases state.symm.trans queued
  · intro _
    exact ⟨unasked, d, started, transfer⟩
  · intro cancelling
    cases state.symm.trans cancelling
  · intro cancelled
    cases state.symm.trans cancelled

/-- An upload that ends otherwise than by a cancellation. -/
theorem of_finish {error : FirmwareUpdateError} (other : error ≠ .cancelled) :
    Traced w (u.finish error) := by
  apply of_other
  unfold Upload.finish
  dsimp only
  split
  · exact .inr (.inl rfl)
  · exact .inr (.inr rfl)

/-- The two states of a transfer. -/
theorem transferring_cases (traced : Traced w u) (moving : u.progress.transferring = true) :
    (u.progress.state = .uploading ∧ B.Unasked u.sender ∧
      ∃ d, .senderStarted d ∈ w ∧ d.transferId = u.progress.transferId) ∨
    (u.progress.state = .cancelling ∧ AbortAsked w) := by
  have either : u.progress.state = .uploading ∨ u.progress.state = .cancelling := by
    simpa [FirmwareUploadProgress.transferring] using moving
  rcases either with uploading | cancelling
  · exact .inl ⟨uploading, traced.uploading uploading⟩
  · exact .inr ⟨cancelling, traced.cancelling cancelling⟩

/-- An abort of the transfer that is going on. -/
theorem abortAsked {d : BulkDescriptor} (started : .senderStarted d ∈ w)
    (transfer : d.transferId = u.progress.transferId) (reason : WlError) :
    AbortAsked (w ++ [.abortRequested u.progress.transferId reason]) :=
  ⟨w, [], d, reason, by rw [transfer], started⟩

/-- The transfer goes on, with a sender nobody else has asked to abort. -/
theorem goOn {v : Upload B} (traced : Traced w u) (moving : u.progress.transferring = true)
    (more : List Effect) (state : v.progress.state = u.progress.state)
    (transfer : v.progress.transferId = u.progress.transferId)
    (sender : B.Unasked u.sender → B.Unasked v.sender) : Traced (w ++ more) v := by
  rcases traced.transferring_cases moving with
    ⟨uploading, unasked, d, started, same⟩ | ⟨cancelling, asked⟩
  · exact .of_uploading (state.trans uploading) (sender unasked) (List.mem_append_left _ started)
      (same.trans transfer.symm)
  · exact .of_cancelling (state.trans cancelling) asked.append

theorem dispatch (traced : Traced w u) (moving : u.progress.transferring = true) (p : Pass) :
    Traced (w ++ (u.dispatch p).2) (u.dispatch p).1 := by
  have acquired : B.Unasked u.sender → B.Unasked (B.acquire u.sender).1 := .acquire
  unfold Upload.dispatch
  split
  · rename_i sender next
    rw [next] at acquired
    exact traced.goOn moving [] rfl rfl acquired
  · rename_i sender action next
    rw [next] at acquired
    split
    · exact .of_finish (by decide)
    · split
      · exact traced.goOn moving _ rfl rfl fun unasked => .submitted action p.now (acquired unasked)
      · exact traced.goOn moving _ rfl rfl fun unasked => .defer action (acquired unasked)

/-- The sender reports, and the upload follows. -/
theorem judge (aborts : B.AbortsOnRequest) (traced : Traced w u)
    (moving : u.progress.transferring = true) (p : Pass) :
    Traced (w ++ .senderReported (B.result u.sender).state :: (u.judge p).2) (u.judge p).1 := by
  unfold Upload.judge
  cases report : (B.result u.sender).state with
  | completed => exact .of_finish (by decide)
  | aborted =>
    obtain ⟨-, unasked, -⟩ | ⟨-, asked⟩ := traced.transferring_cases moving
    · exact (aborts u.sender unasked report).elim
    · -- Only a sender that was asked comes here, whatever the error is.
      by_cases cancels : (if u.progress.error = .none then .cancelled else u.progress.error) =
          FirmwareUpdateError.cancelled
      · refine .of_cancelled ?_ (.inr asked.reported)
        simp only [Upload.finish, cancels]
        rfl
      · exact .of_finish cancels
  | failed =>
    dsimp only
    split
    · exact .of_finish (by decide)
    · rename_i other
      obtain ⟨-, -, d, started, transfer⟩ | ⟨cancelling, -⟩ := traced.transferring_cases moving
      · have failed : Traced ((w ++ [.senderReported .failed]) ++ u.fail.2) u.fail.1 :=
          .of_cancelling rfl (abortAsked (u := u) (List.mem_append_left _ started) transfer .io)
        have sent := failed.dispatch rfl p
        rw [List.append_assoc, List.append_assoc] at sent
        exact sent
      · exact (other cancelling).elim
  | working =>
    have reported : Traced (w ++ [.senderReported .working]) u := traced.goOn moving _ rfl rfl id
    have sent := reported.dispatch moving p
    rw [List.append_assoc] at sent
    exact sent

theorem passCancel (traced : Traced w u) (moving : u.progress.transferring = true) :
    Traced (w ++ u.passCancel.2) u.passCancel.1 := by
  unfold Upload.passCancel
  split
  · rename_i fresh
    have other : u.progress.state ≠ .cancelling := by
      rw [Bool.and_eq_true, bne_iff_ne] at fresh
      exact fresh.2
    obtain ⟨-, -, d, started, transfer⟩ | ⟨cancelling, -⟩ := traced.transferring_cases moving
    · exact .of_cancelling rfl (abortAsked started transfer .cancelled)
    · exact (other cancelling).elim
  · exact traced.goOn moving [] rfl rfl id

theorem drive (aborts : B.AbortsOnRequest) (traced : Traced w u)
    (moving : u.progress.transferring = true) (p : Pass) :
    Traced (w ++ (u.drive p).2) (u.drive p).1 := by
  obtain ⟨-, moving'⟩ := Upload.passCancel_carried moving
  have asked := traced.passCancel moving
  have polled : Traced ((w ++ u.passCancel.2) ++ []) (u.passCancel.1.refresh p.now) :=
    asked.goOn moving' [] rfl rfl (.poll p.now)
  rw [List.append_nil] at polled
  have judged := polled.judge aborts moving' p
  rw [List.append_assoc] at judged
  exact judged

theorem collect (reply : RpcReply StartUpgradeResponse) :
    Traced (w ++ (u.collect reply).2) (u.collect reply).1 := by
  unfold Upload.collect
  split
  · exact .of_finish (by decide)
  · split
    · apply of_finish
      split <;> decide
    · dsimp only
      split
      · rename_i started
        exact .of_uploading rfl (.start started)
          (List.mem_append_right _ (List.mem_singleton_self _)) rfl
      · exact .of_other (.inr (.inr rfl))

theorem pollStart (traced : Traced w u) (owned : u.Owned)
    (waiting : u.progress.state = .queued ∨ u.progress.state = .starting) (p : Pass) :
    Traced (w ++ (u.pollStart p).2) (u.pollStart p).1 := by
  unfold Upload.pollStart
  split
  · rename_i startless
    have queued : u.progress.state = .queued := by
      refine waiting.resolve_right ?_
      intro starting
      exact owned.start.mpr starting startless
    cases p.startStart with
    | ok id nonzero => exact .of_other (.inl rfl)
    | retryable =>
      have unsent : Unstarted (w ++ [.startRequested (u.deadline.remaining p.now) false]) :=
        (traced.queued queued).append (by simp [Unstarted])
      constructor
      · intro _
        exact unsent
      · intro uploading
        cases queued.symm.trans uploading
      · intro cancelling
        cases queued.symm.trans cancelling
      · intro cancelled
        cases queued.symm.trans cancelled
    | failed => exact .of_finish (by decide)
  · rename_i out
    have starting := owned.start.mp out
    cases p.startInspect with
    | missing => exact .of_other (.inr (.inr rfl))
    | running => exact .of_other (.inl starting)
    | finished reply =>
      have collected : Traced ((w ++ [.startCollected u.startId reply]) ++ (u.collect reply).2)
          (u.collect reply).1 := collect reply
      rw [List.append_assoc] at collected
      exact collected

theorem pass (aborts : B.AbortsOnRequest) (traced : Traced w u) (owned : u.Owned) (p : Pass) :
    Traced (w ++ (u.pass p).2) (u.pass p).1 := by
  unfold Upload.pass
  split
  · simpa using traced
  rename_i busy
  have active : u.progress.active = true := by simpa using busy
  split
  · exact .of_finish (by decide)
  split
  · rename_i fresh
    have queued : u.progress.state = .queued := by
      rw [Bool.and_eq_true, beq_iff_eq] at fresh
      exact fresh.2
    refine .of_cancelled rfl (.inl ?_)
    rw [List.append_nil]
    exact traced.queued queued
  split
  · rename_i waiting
    exact traced.pollStart owned waiting p
  · rename_i begun
    exact traced.drive aborts (FirmwareUploadProgress.transferring_of_active active begun) p

theorem disconnected (traced : Traced w u) :
    Traced (w ++ u.disconnected.2) u.disconnected.1 := by
  unfold Upload.disconnected
  dsimp only
  split
  · exact .of_finish (by decide)
  · rename_i idle
    have quiet : Unstarted u.cancelStart.2 := by
      unfold Upload.cancelStart
      dsimp only
      split <;> simp [Unstarted]
    have inactive : ∀ state, u.progress.state = state → state ≠ .queued ∧ state ≠ .uploading ∧
        state ≠ .cancelling := by
      rintro state rfl
      have finished : u.progress.active = false := Bool.eq_false_of_not_eq_true idle
      refine ⟨?_, ?_, ?_⟩ <;> intro same <;> simp [FirmwareUploadProgress.active, same] at finished
    constructor
    · intro queued
      exact ((inactive _ queued).1 rfl).elim
    · intro uploading
      exact ((inactive _ uploading).2.1 rfl).elim
    · intro cancelling
      exact ((inactive _ cancelling).2.2 rfl).elim
    · intro cancelled
      rcases traced.cancelled cancelled with before | aborted
      · exact .inl (before.append quiet)
      · exact .inr aborted.append

end Traced
/-! ### The steps -/

/-- The upload was admitted, and all that was observed since says where it is. -/
def Recorded {B : Bulk} (seen : List Effect) (u : Upload B) : Prop :=
  u.progress.state = .idle ∨ ∃ past w, seen = past ++ .uploadAdmitted :: w ∧
    .uploadAdmitted ∉ w ∧ Traced w u

namespace Recorded
variable {B : Bulk} {seen : List Effect} {u : Upload B}

theorem foreign {more : List Effect} (recorded : Recorded seen u)
    (other : ∀ e ∈ more, e.ofUpload = false) : Recorded (seen ++ more) u := by
  rcases recorded with idle | ⟨past, w, rfl, once, traced⟩
  · exact .inl idle
  · refine .inr ⟨past, w ++ more, by simp, ?_, traced.foreign other⟩
    intro again
    rcases List.mem_append.mp again with again | again
    · exact once again
    · exact Bool.false_ne_true (other _ again).symm

/-- An upload that is still the same, after observations of its own. -/
theorem advance {v : Upload B} {more : List Effect} (recorded : Recorded seen u)
    (idle : u.progress.state = .idle → v.progress.state = .idle)
    (once : .uploadAdmitted ∉ more) (traced : ∀ {w}, Traced w u → Traced (w ++ more) v) :
    Recorded (seen ++ more) v := by
  rcases recorded with before | ⟨past, w, rfl, admittedOnce, held⟩
  · exact .inl (idle before)
  · refine .inr ⟨past, w ++ more, by simp, ?_, traced held⟩
    intro again
    rcases List.mem_append.mp again with again | again
    · exact admittedOnce again
    · exact once again

theorem admitted {image : List UInt8} {options : FirmwareUploadOptions} {now : BitVec 32} :
    Recorded (seen ++ [.uploadAdmitted]) (u.admitted image options now) := by
  refine .inr ⟨seen, [], rfl, by simp, ?_⟩
  constructor
  · intro _ remaining member
    cases member
  all_goals
    intro state
    cases state

theorem pass (aborts : B.AbortsOnRequest) (recorded : Recorded seen u) (owned : u.Owned)
    (p : Pass) : Recorded (seen ++ (u.pass p).2) (u.pass p).1 := by
  refine recorded.advance ?_ ?_ (fun traced => traced.pass aborts owned p)
  · intro idle
    rw [Upload.pass_idle (by simp [FirmwareUploadProgress.active, idle])]
    exact idle
  · intro again
    exact Bool.false_ne_true (u.pass_effects p _ again)

theorem disconnected (recorded : Recorded seen u) :
    Recorded (seen ++ u.disconnected.2) u.disconnected.1 := by
  refine recorded.advance ?_ ?_ Traced.disconnected
  · intro idle
    rw [Upload.disconnected_idle (by simp [FirmwareUploadProgress.active, idle])]
    exact idle
  · intro again
    cases u.disconnected_effects _ again

theorem cancelled (recorded : Recorded seen u) : Recorded seen u.cancelled := by
  have same : Recorded (seen ++ []) u.cancelled := by
    unfold Upload.cancelled
    split
    · refine recorded.advance id List.not_mem_nil ?_
      intro w traced
      rw [List.append_nil]
      exact ⟨traced.queued, traced.uploading, traced.cancelling, traced.cancelled⟩
    · exact recorded.foreign (List.forall_mem_nil _)
  rwa [List.append_nil] at same

theorem status (recorded : Recorded seen u) (message : BulkStatus) (now : BitVec 32) :
    Recorded seen (u.status message now) := by
  have same : Recorded (seen ++ []) (u.status message now) := by
    unfold Upload.status
    split
    · rename_i either
      have moving : u.progress.transferring = true := by
        simpa [FirmwareUploadProgress.transferring] using either
      refine recorded.advance id List.not_mem_nil ?_
      intro w traced
      exact traced.goOn moving [] rfl rfl (.onStatus message now)
    · exact recorded.foreign (List.forall_mem_nil _)
  rwa [List.append_nil] at same

theorem step {s t : ClientState B} {a : ClientAction} {event : ClientEvent}
    (aborts : B.AbortsOnRequest) (recorded : Recorded seen s.client.upload)
    (admission : Admission s.client) (move : ClientMove s a t event) :
    Recorded (seen ++ event.effects) t.client.upload := by
  cases move with
  | fields | call | bootAdmitted | rebootReturned => exact recorded.foreign (List.forall_mem_nil _)
  | rebootAdmitted =>
    exact recorded.foreign (by simp [Effect.ofUpload, Effect.ofTransfer, Effect.ofSender])
  | uploadAdmitted => exact .admitted
  | cancelled =>
    rw [List.append_nil]
    exact recorded.cancelled
  | status =>
    rw [List.append_nil]
    exact recorded.status _ _
  | pass =>
    rename_i p
    have polled := recorded.foreign ((s.client.client.pollBoot
      (s.client.bootPoll p)).rebootEffects_ofUpload (s.client.rebootPoll p))
    have passed := polled.pass aborts admission.upload p
    rw [List.append_assoc] at passed
    exact passed
  | lost other left same =>
    rename_i c departed now inspect
    let ending : Effect := if departed then .departure else .localClose
    have foreign : ∀ e ∈ [ending], e.ofUpload = false := by
      intro e member
      rw [List.mem_singleton.mp member]
      cases departed <;> rfl
    have ended (reboots : List Effect) (polled : ∀ e ∈ reboots, e.ofUpload = false) :
        Recorded (seen ++ (reboots ++ s.client.upload.disconnected.2 ++ [ending]))
          s.client.upload.disconnected.1 := by
      have lost := (recorded.foreign polled).disconnected.foreign foreign
      rwa [List.append_assoc, List.append_assoc, ← List.append_assoc reboots] at lost
    simp only [ClientState.lost, UpgradeClient.disconnected]
    apply ended
    split
    · exact Client.rebootEffects_ofUpload _ _
    · exact List.forall_mem_nil _

end Recorded
/-! ### The entries of a run -/

namespace Upload
variable {B : Bulk} {u : Upload B} {p : Pass}

theorem pass_options : (u.pass p).1.options = u.options := by
  unfold pass
  split
  · rfl
  rename_i busy
  split
  · rfl
  split
  · rfl
  split
  · unfold pollStart
    split
    · cases p.startStart <;> rfl
    · cases p.startInspect with
      | missing | running => rfl
      | finished reply =>
        dsimp only [collect]
        split
        · rfl
        · split
          · rfl
          · split <;> rfl
  · rename_i begun
    have active : u.progress.active = true := by simpa using busy
    exact (drive_carried p (FirmwareUploadProgress.transferring_of_active active begun)).options

theorem disconnected_options : u.disconnected.1.options = u.options := by
  unfold disconnected
  dsimp only
  split <;> rfl

theorem cancelled_same : u.cancelled.startId = u.startId ∧ u.cancelled.progress = u.progress := by
  unfold cancelled
  split <;> exact ⟨rfl, rfl⟩

theorem status_same {message : BulkStatus} {now : BitVec 32} :
    (u.status message now).startId = u.startId ∧ (u.status message now).progress = u.progress := by
  unfold status
  split <;> exact ⟨rfl, rfl⟩

/-- A request for the transfer is made in time and told the time that is left. -/
theorem pass_startRequested {remaining : Nat} {sent : Bool}
    (requested : .startRequested remaining sent ∈ (u.pass p).2) :
    u.deadline.expired p.now = false ∧ remaining = u.deadline.remaining p.now := by
  unfold pass at requested
  split at requested
  · cases requested
  split at requested
  · cases cancelStart_effects _ _ requested
  rename_i left
  refine ⟨by simpa using left, ?_⟩
  split at requested
  · cases requested
  split at requested
  · unfold pollStart at requested
    split at requested
    · cases start : p.startStart <;> rw [start] at requested <;> simp at requested <;>
        exact requested.1
    · cases inspected : p.startInspect with
      | missing =>
        rw [inspected] at requested
        cases cancelStart_effects _ _ requested
      | running =>
        rw [inspected] at requested
        cases requested
      | finished reply =>
        rw [inspected] at requested
        rcases List.mem_cons.mp requested with same | started
        · cases same
        · obtain ⟨d, same⟩ := u.collect_effects reply _ started
          cases same
  · exact (Bool.false_ne_true (u.drive_effects p _ requested)).elim

/-- A pass over an upload whose time is up. -/
theorem pass_overdue (begun : u.progress.state ≠ .idle) (overdue : u.deadline.expired p.now = true) :
    (u.pass p).1.progress.terminal = true := by
  unfold pass
  split
  · rename_i idle
    cases state : u.progress.state <;>
      simp_all [FirmwareUploadProgress.active, FirmwareUploadProgress.terminal]
  · exact finish_terminal _ _

/-- A pass in time over an upload that is starting. -/
theorem pass_starting (starting : u.progress.state = .starting) (out : u.startId ≠ 0)
    (left : u.deadline.expired p.now = false) : u.pass p = u.pollStart p ∧
    match p.startInspect with
    | .missing => True
    | .running => u.pollStart p = (u, [])
    | .finished reply => (u.pollStart p).2 = .startCollected u.startId reply ::
        (u.collect reply).2 := by
  constructor
  · unfold pass
    rw [if_neg (by simp [FirmwareUploadProgress.active, starting]), if_neg (by simp [left]),
      if_neg (by simp [starting]), if_pos (.inr starting)]
  · unfold pollStart
    rw [if_neg out]
    cases p.startInspect with
    | missing => trivial
    | running => rfl
    | finished reply => rfl

end Upload

namespace ClientMove
variable {B : Bulk} {s t : ClientState B} {a : ClientAction} {event : ClientEvent}

theorem options_valid (move : ClientMove s a t event)
    (valid : s.client.upload.options.valid = true) : t.client.upload.options.valid = true := by
  cases move with
  | uploadAdmitted checked => exact checked
  | pass => exact (congrArg _ Upload.pass_options).trans valid
  | lost => exact (congrArg _ Upload.disconnected_options).trans valid
  | cancelled =>
    simp only [UpgradeClient.cancel, UpgradeClient.withUpload, Upload.cancelled]
    split <;> exact valid
  | status =>
    simp only [UpgradeClient.status, UpgradeClient.withUpload, Upload.status]
    split <;> exact valid
  | _ => exact valid

/-- An upload that is over stays as it is until the next is admitted. -/
theorem progress_kept (move : ClientMove s a t event)
    (finished : s.client.upload.progress.terminal = true)
    (admitsNone : .uploadAdmitted ∉ event.effects) :
    t.client.upload.progress = s.client.upload.progress := by
  have idle := FirmwareUploadProgress.not_active_of_terminal finished
  cases move with
  | uploadAdmitted => simp at admitsNone
  | pass => exact congrArg (·.1.progress) (Upload.pass_idle idle)
  | lost => exact Upload.disconnected_idle idle
  | cancelled => exact Upload.cancelled_same.2
  | status => exact Upload.status_same.2
  | _ => rfl

end ClientMove

/-- What may become of the `StartUpgrade` call of an upload that is starting. -/
inductive StartFate {B : Bulk} (e : Entry (ClientState B) ClientAction ClientEvent) : Prop where
  | kept : e.after.client.upload.startId = e.before.client.upload.startId →
      e.after.client.upload.progress.state = .starting →
      (∀ id, .startCancelled id ∉ e.event.effects) → StartFate e
  | collected {p reply} : e.action = .pass p → p.startInspect = .finished reply →
      .startCollected e.before.client.upload.startId reply ∈ e.event.effects →
      (∀ id, .startCancelled id ∉ e.event.effects) → StartFate e
  | overdue {p} : e.action = .pass p → e.before.client.upload.options.timeout ≤
      (elapsed p.now e.before.client.upload.since : Int) → StartFate e
  | forgotten {p} : e.action = .pass p → p.startInspect = .missing → StartFate e
  | disconnected : .departure ∈ e.event.effects ∨ .localClose ∈ e.event.effects → StartFate e

/-- What holds of every step: a pass after the time is up ends the upload, a `StartUpgrade`
request is granted what is left of it, and one that is out is resolved. -/
structure UploadStep {B : Bulk} (e : Entry (ClientState B) ClientAction ClientEvent) : Prop where
  overdue : ∀ p, e.action = .pass p → e.before.client.upload.progress.state ≠ .idle →
    e.before.client.upload.options.timeout ≤ (elapsed p.now e.before.client.upload.since : Int) →
    e.after.client.upload.progress.terminal = true
  granted : ∀ (remaining : Nat) (sent : Bool), .startRequested remaining sent ∈ e.event.effects →
    0 < remaining ∧ (remaining : Int) ≤ e.before.client.upload.options.timeout
  resolved : e.before.client.upload.progress.state = .starting → StartFate e

namespace UploadStep
variable {B : Bulk} {s t : ClientState B} {a : ClientAction} {event : ClientEvent}

theorem expired_iff {u : Upload B} (valid : u.options.valid = true) (now : BitVec 32) :
    u.deadline.expired now = true ↔ u.options.timeout ≤ (elapsed now u.since : Int) := by
  obtain ⟨same, -, -⟩ := milliseconds_of_valid (FirmwareUploadOptions.timeout_valid valid)
  have compared : u.deadline.expired now = true ↔
      milliseconds u.options.timeout ≤ elapsed now u.since := decide_eq_true_iff
  rw [compared]
  omega

/-- A step that is no pass and leaves the upload's call alone. -/
theorem of_kept (other : a.passes = false)
    (start : t.client.upload.startId = s.client.upload.startId)
    (state : t.client.upload.progress.state = s.client.upload.progress.state)
    (quiet : ∀ e ∈ event.effects, e.ofUpload = false) : UploadStep ⟨s, a, event, t⟩ := by
  constructor
  · rintro p rfl
    cases other
  · intro remaining sent requested
    exact (Bool.false_ne_true (quiet _ requested).symm).elim
  · intro starting
    refine .kept start (state.trans starting) ?_
    intro id cancelled
    exact Bool.false_ne_true (quiet _ cancelled).symm

theorem of_pass {p : Pass} (admission : Admission s.client)
    (valid : s.client.upload.options.valid = true) :
    UploadStep ⟨s, .pass p, { effects := (s.client.progress p).2 },
      { s with client := (s.client.progress p).1 }⟩ := by
  have inPass {e : Effect} (upload : e.ofUpload = true) (seen : e ∈ (s.client.progress p).2) :
      e ∈ (s.client.upload.pass p).2 := by
    refine (List.mem_append.mp seen).resolve_left ?_
    intro polled
    exact Bool.false_ne_true ((Client.rebootEffects_ofUpload _ _ e polled).symm.trans upload)
  constructor
  · intro q action begun overdue
    obtain rfl := ClientAction.pass.inj action
    exact Upload.pass_overdue begun ((expired_iff valid p.now).mpr overdue)
  · intro remaining sent requested
    obtain ⟨left, rfl⟩ := Upload.pass_startRequested (inPass rfl requested)
    obtain ⟨same, -, small⟩ :=
      milliseconds_of_valid (FirmwareUploadOptions.timeout_valid valid)
    have range := Deadline.remaining_range (d := s.client.upload.deadline)
      (Nat.lt_trans small (by decide)) left
    refine ⟨range.1, ?_⟩
    rw [← same]
    exact Int.ofNat_le.mpr range.2
  · intro starting
    by_cases overdue : s.client.upload.deadline.expired p.now = true
    · exact .overdue rfl ((expired_iff valid p.now).mp overdue)
    have out := admission.upload.start.mpr starting
    obtain ⟨passes, polls⟩ := Upload.pass_starting starting out (by simpa using overdue)
    cases inspected : p.startInspect with
    | missing => exact .forgotten rfl inspected
    | running =>
      rw [inspected] at polls
      have same : s.client.upload.pass p = (s.client.upload, []) := passes.trans polls
      refine .kept (congrArg (·.1.startId) same) ?_ ?_
      · exact (congrArg (·.1.progress.state) same).trans starting
      · intro id cancelled
        have member := inPass rfl cancelled
        rw [same] at member
        cases member
    | finished reply =>
      rw [inspected] at polls
      have seen : (s.client.upload.pass p).2 =
          .startCollected s.client.upload.startId reply :: (s.client.upload.collect reply).2 :=
        (congrArg Prod.snd passes).trans polls
      refine .collected rfl inspected ?_ ?_
      · refine List.mem_append_right _ ?_
        show _ ∈ (s.client.upload.pass p).2
        rw [seen]
        exact List.mem_cons_self
      · intro id cancelled
        have member := inPass rfl cancelled
        rw [seen] at member
        rcases List.mem_cons.mp member with same | started
        · cases same
        · obtain ⟨d, same⟩ := s.client.upload.collect_effects reply _ started
          cases same

theorem of_move (move : ClientMove s a t event) (admission : Admission s.client)
    (valid : s.client.upload.options.valid = true) : UploadStep ⟨s, a, event, t⟩ := by
  cases move with
  | pass => exact of_pass admission valid
  | fields other | call other => exact of_kept other rfl rfl (List.forall_mem_nil _)
  | bootAdmitted | rebootReturned => exact of_kept rfl rfl rfl (List.forall_mem_nil _)
  | rebootAdmitted =>
    exact of_kept rfl rfl rfl (by simp [Effect.ofUpload, Effect.ofTransfer, Effect.ofSender])
  | uploadAdmitted _ idle =>
    constructor
    · intro p action
      cases action
    · intro remaining sent requested
      simp at requested
    · intro starting
      have waiting : s.client.upload.progress.state = .starting := starting
      simp [FirmwareUploadProgress.active, waiting] at idle
  | cancelled =>
    refine of_kept rfl ?_ ?_ (by simp)
    · exact Upload.cancelled_same.1
    · exact congrArg _ Upload.cancelled_same.2
  | status =>
    refine of_kept rfl ?_ ?_ (by simp)
    · exact Upload.status_same.1
    · exact congrArg _ Upload.status_same.2
  | lost other left same =>
    rename_i c departed now inspect
    constructor
    · rintro p rfl
      cases other
    · intro remaining sent requested
      simp only [ClientState.lost, UpgradeClient.disconnected, List.mem_append] at requested
      rcases requested with (polled | cancelled) | ending
      · split at polled
        · exact (Bool.false_ne_true (Client.rebootEffects_ofUpload _ _ _ polled).symm).elim
        · cases polled
      · cases s.client.upload.disconnected_effects _ cancelled
      · cases departed <;> simp at ending
    · intro _
      refine .disconnected ?_
      cases departed <;> simp [ClientState.lost, UpgradeClient.disconnected]

end UploadStep
/-! ### The runs -/

section Runs
variable {B : Bulk} {es fs : ClientTrace B} {s t : ClientState B}

theorem uploadStep_of_run (run : Run (upgradeMachine B) es s) :
    (Admission s.client ∧ s.client.upload.options.valid = true) ∧ ∀ e ∈ es, UploadStep e := by
  apply run.history (P := fun es s =>
    (Admission s.client ∧ s.client.upload.options.valid = true) ∧ ∀ e ∈ es, UploadStep e)
  · exact ⟨⟨.initial, by rfl⟩, by simp⟩
  · rintro es s a event t - ⟨⟨admission, valid⟩, earlier⟩ stepped
    have move := ClientMove.of_step stepped
    refine ⟨⟨admission.step move, move.options_valid valid⟩, ?_⟩
    rw [List.forall_mem_append, List.forall_mem_singleton]
    exact ⟨earlier, .of_move move admission valid⟩

theorem recorded_of_run (aborts : B.AbortsOnRequest) (run : Run (upgradeMachine B) es s) :
    Recorded (observed es) s.client.upload := by
  apply run.history (P := fun es s => Recorded (observed es) s.client.upload)
  · exact .inl rfl
  · intro es s a event t before recorded stepped
    rw [observed_snoc]
    exact recorded.step aborts (uploadStep_of_run before).1.1 (.of_step stepped)

theorem progress_kept_of_run (past : Run (upgradeMachine B) es s)
    (run : Run (upgradeMachine B) (es ++ fs) t)
    (finished : s.client.upload.progress.terminal = true)
    (admitsNone : .uploadAdmitted ∉ observed fs) :
    t.client.upload.progress = s.client.upload.progress := by
  revert admitsNone
  apply run.since (P := fun fs t => .uploadAdmitted ∉ observed fs →
    t.client.upload.progress = s.client.upload.progress)
  · intro u again _
    rw [past.unique again]
  · intro fs u a event v _ kept stepped admitsNone
    rw [observed_snoc, List.mem_append, not_or] at admitsNone
    have same := kept admitsNone.1
    rw [(ClientMove.of_step stepped).progress_kept (by rw [same]; exact finished) admitsNone.2, same]

end Runs

/-- The life of an upload over every run. An upload that is over stays so until the next one
is admitted; every step ends an overdue upload, grants `StartUpgrade` no more than what is
left and does not give it up; and an upload that counts as cancelled had never asked for a
transfer, or its sender was asked to abort that transfer and then reported it aborted. -/
theorem upload_life_cycle {B : Bulk} (aborts : B.AbortsOnRequest) {es fs : ClientTrace B}
    {s t : ClientState B} (past : Run (upgradeMachine B) es s)
    (run : Run (upgradeMachine B) (es ++ fs) t) :
    (s.client.upload.progress.terminal = true → .uploadAdmitted ∉ observed fs →
      t.client.upload.progress = s.client.upload.progress) ∧
    (∀ e ∈ es ++ fs, UploadStep e) ∧
    (t.client.upload.progress.state = .cancelled → ∃ earlier w,
      observed (es ++ fs) = earlier ++ .uploadAdmitted :: w ∧ .uploadAdmitted ∉ w ∧
      (Unstarted w ∨ Aborted w)) := by
  refine ⟨progress_kept_of_run past run, (uploadStep_of_run run).2, ?_⟩
  intro cancelled
  rcases recorded_of_run aborts run with idle | ⟨earlier, w, split, once, traced⟩
  · cases idle.symm.trans cancelled
  · exact ⟨earlier, w, split, once, traced.cancelled cancelled⟩

/-- A status alone aborts nothing. -/
theorem PlainSender.onStatus_unasked {s : PlainSender} (status : BulkStatus)
    (kept : s.phase ≠ .abort ∧ s.outcome ≠ .aborted) :
    (s.onStatus status).phase ≠ .abort ∧ (s.onStatus status).outcome ≠ .aborted := by
  obtain ⟨phase, outcome⟩ := kept
  generalize next : s.onStatus status = t
  unfold onStatus at next
  split at next
  · exact next ▸ ⟨phase, outcome⟩
  split at next
  · exact next ▸ ⟨phase, nofun⟩
  · unfold answered at next
    split at next
    · exact next ▸ ⟨nofun, outcome⟩
    · refine next ▸ ⟨?_, outcome⟩
      dsimp only
      split <;> decide
    · exact next ▸ ⟨phase, nofun⟩
    · rename_i abort
      exact (phase abort).elim
    · exact next ▸ ⟨phase, outcome⟩

theorem plainBulk_aborts : plainBulk.AbortsOnRequest := by
  intro s unasked
  have kept : PlainSender.phase s ≠ .abort ∧ PlainSender.outcome s ≠ .aborted := by
    induction unasked with
    | start => exact ⟨nofun, nofun⟩
    | poll _ _ ih | acquire _ ih | submitted _ _ _ ih | defer _ _ ih => exact ih
    | onStatus status _ _ ih => exact PlainSender.onStatus_unasked status ih
  exact kept.2

/-- The answer of a device that takes the transfer. -/
def transferFive : StartUpgradeResponse :=
  { transferId := some 5, writeAlign := some 4, maxChunkSize := some 1024 }

/-- An upload is cancelled while its `StartUpgrade` is out; the transfer is learnt, aborted,
and reported aborted. -/
def cancelledUpload : List ClientAction :=
  [.connected true, .startUpload [0x31, 0x32, 0x33, 0x34] {} 100#32,
    .pass { now := 105#32, startStart := .ok 11 (by decide) }, .cancel, .pass { now := 110#32 },
    .pass { now := 120#32, startInspect := .finished { decoded := some transferFive } },
    .pass { now := 130#32 }, .status ⟨5, 3, 0, 0, 0⟩ 140#32, .pass { now := 150#32 }]

def cancelledUploadEnd : ClientState plainBulk :=
  (follow (upgradeMachine plainBulk) cancelledUpload (upgradeMachine plainBulk).init).get
    (by decide +kernel)

theorem upload_life_cycle_cancelled :
    cancelledUploadEnd.client.upload.progress.state = .cancelled ∧
    ∃ es, Run (upgradeMachine plainBulk) es cancelledUploadEnd ∧ (∀ e ∈ es, UploadStep e) ∧
      ∃ earlier w, observed es = earlier ++ .uploadAdmitted :: w ∧ (Unstarted w ∨ Aborted w) := by
  have cancelled : cancelledUploadEnd.client.upload.progress.state = .cancelled := by
    decide +kernel
  have led : follow (upgradeMachine plainBulk) cancelledUpload (upgradeMachine plainBulk).init =
      some cancelledUploadEnd := (Option.some_get _).symm
  obtain ⟨es, -, run⟩ := follow_run .nil led
  obtain ⟨-, steps, why⟩ := upload_life_cycle plainBulk_aborts .nil run
  obtain ⟨earlier, w, split, -, either⟩ := why cancelled
  exact ⟨cancelled, es, run, steps, earlier, w, split, either⟩

end Florid.Upgrade
