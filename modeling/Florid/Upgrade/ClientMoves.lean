import Florid.Upgrade.UpgradeClient

/-! What a step of the client can do. The gates and the polls are looked into here once;
whatever is said about runs goes through `ClientMove`. -/
namespace Florid.Upgrade
open Transition

/-- The fields of the client that belong to a reboot. -/
structure RebootView where
  pending : Bool
  done : Bool
  id : Nat
  mode : FirmwareRebootMode
  result : FirmwareRebootResult

def Client.rebootView (c : Client) : RebootView :=
  ⟨c.rebootPending, c.rebootDone, c.rebootId, c.rebootMode, c.reboot⟩

namespace Client

/-- The operations and the results of the two queries are the same. -/
structure SameQueries (c d : Client) : Prop where
  bootId : d.bootId = c.bootId
  bootPending : d.bootPending = c.bootPending
  reboot : d.rebootView = c.rebootView

theorem SameQueries.refl (c : Client) : SameQueries c c := ⟨rfl, rfl, rfl⟩

/-- What a poll of the reboot can do, with what is observed of it. -/
inductive RebootMove (c : Client) : Client → List Effect → Prop where
  | kept : RebootMove c c []
  | expired : c.rebootPending = true →
      RebootMove c (c.finishReboot { c.reboot with error := .timeout }) [.rebootExpired]
  | sent {id} : c.rebootPending = true → c.reboot.requestAccepted = false → c.rebootId = 0 →
      id ≠ 0 → RebootMove c { c with rebootId := id } [.rebootSent id c.rebootMode]
  | failed {error} : c.rebootPending = true → c.reboot.requestAccepted = false → error ≠ .none →
      RebootMove c (c.finishReboot { error }) []
  | accepted {reply} : c.rebootPending = true → c.reboot.requestAccepted = false →
      c.rebootId ≠ 0 → (rebootOf c.rebootMode reply).requestAccepted = true →
      RebootMove c { c with rebootId := 0, reboot := rebootOf c.rebootMode reply }
        [.rebootAnswered c.rebootId reply]
  | refused {reply} : c.rebootPending = true → c.reboot.requestAccepted = false →
      c.rebootId ≠ 0 → (rebootOf c.rebootMode reply).requestAccepted = false →
      RebootMove c (c.finishReboot (rebootOf c.rebootMode reply))
        [.rebootAnswered c.rebootId reply]

theorem pollReboot_move (c : Client) (p : Poll FirmwareRebootMode) :
    RebootMove c (c.pollReboot p).1 (c.rebootEffects p) := by
  unfold pollReboot rebootEffects
  by_cases idle : (!c.rebootPending) = true
  · rw [if_pos idle, if_pos idle]
    exact .kept
  rw [if_neg idle, if_neg idle]
  have pending : c.rebootPending = true := by simpa using idle
  by_cases expired : p.expired = true
  · rw [if_pos expired, if_pos expired]
    exact .expired pending
  rw [if_neg expired, if_neg expired]
  by_cases accepted : c.reboot.requestAccepted = true
  · rw [if_pos accepted, if_pos accepted]
    exact .kept
  rw [if_neg accepted, if_neg accepted]
  have unaccepted : c.reboot.requestAccepted = false := by simpa using accepted
  by_cases unsent : c.rebootId = 0
  · rw [if_pos unsent, if_pos unsent]
    cases p.start with
    | ok id nonzero => exact .sent pending unaccepted unsent nonzero
    | retryable => exact .kept
    | failed => exact .failed pending unaccepted (by decide)
  · rw [if_neg unsent, if_neg unsent]
    cases p.inspect with
    | missing => exact .failed pending unaccepted (by decide)
    | running => exact .kept
    | finished reply =>
      dsimp only
      by_cases answer : (rebootOf c.rebootMode reply).requestAccepted = true
      · rw [if_pos answer]
        exact .accepted pending unaccepted unsent answer
      · rw [if_neg answer]
        exact .refused pending unaccepted unsent (by simpa using answer)

/-- A poll of the reboot is no business of the upload. -/
theorem rebootEffects_ofUpload (c : Client) (p : Poll FirmwareRebootMode) :
    ∀ e ∈ c.rebootEffects p, e.ofUpload = false := by
  have move := c.pollReboot_move p
  generalize (c.pollReboot p).1 = d, c.rebootEffects p = effects at move
  cases move <;> simp [Effect.ofUpload, Effect.ofTransfer, Effect.ofSender]

end Client

namespace Upload
variable {B : Bulk} (u : Upload B) (p : Pass)

theorem dispatch_effects : ∀ e ∈ (u.dispatch p).2, e.ofSender = true := by
  unfold dispatch
  split
  · simp
  · split
    · simp
    · split <;> simp [Effect.ofSender]

theorem judge_effects : ∀ e ∈ (u.judge p).2, e.ofSender = true := by
  unfold judge
  cases (B.result u.sender).state with
  | completed | aborted => simp
  | failed =>
    dsimp only
    split
    · simp
    · rw [List.forall_mem_append]
      exact ⟨by simp [fail, requestAbort, Effect.ofSender], u.fail.1.dispatch_effects p⟩
  | working => exact u.dispatch_effects p

theorem drive_effects : ∀ e ∈ (u.drive p).2, e.ofSender = true := by
  unfold drive
  rw [List.forall_mem_append, List.forall_mem_cons]
  refine ⟨?_, rfl, judge_effects _ p⟩
  unfold passCancel
  split <;> simp [requestAbort, Effect.ofSender]

theorem cancelStart_effects : ∀ e ∈ u.cancelStart.2, e = .startCancelled u.startId := by
  unfold cancelStart
  dsimp only
  split <;> simp

/-- At most the start of the sender is observed when the answer is in. -/
theorem collect_effects (reply : RpcReply StartUpgradeResponse) :
    ∀ e ∈ (u.collect reply).2, ∃ d, e = .senderStarted d := by
  unfold collect
  split
  · simp
  · split
    · simp
    · dsimp only
      split <;> simp

theorem pollStart_effects : ∀ e ∈ (u.pollStart p).2, e.ofTransfer = true := by
  unfold pollStart
  split
  · cases p.startStart <;> simp [Effect.ofTransfer]
  · cases p.startInspect with
    | missing =>
      intro e member
      rw [cancelStart_effects _ e member]
      rfl
    | running => simp
    | finished reply =>
      simp only [List.forall_mem_cons]
      refine ⟨rfl, ?_⟩
      intro e member
      obtain ⟨d, rfl⟩ := u.collect_effects reply e member
      rfl

theorem pass_effects : ∀ e ∈ (u.pass p).2, e.ofTransfer = true := by
  unfold pass
  split
  · simp
  split
  · intro e member
    rw [cancelStart_effects _ e member]
    rfl
  split
  · simp
  split
  · exact u.pollStart_effects p
  · intro e member
    exact Effect.ofTransfer_of_ofSender (u.drive_effects p e member)

theorem disconnected_effects : ∀ e ∈ u.disconnected.2, e = .startCancelled u.startId :=
  u.cancelStart_effects

theorem pass_ofUpload : ∀ e ∈ (u.pass p).2, e.ofUpload = true :=
  fun e member => Effect.ofUpload_of_ofTransfer (u.pass_effects p e member)

theorem disconnected_ofUpload : ∀ e ∈ u.disconnected.2, e.ofUpload = true := by
  intro e member
  rw [u.disconnected_effects e member]
  rfl

end Upload

namespace UpgradeClient
variable {B : Bulk} (u : UpgradeClient B)

/-- An upload is admitted only where nothing else is going on, and its arguments are good. -/
theorem startUpload_cases (image : List UInt8) (options : FirmwareUploadOptions)
    (now : BitVec 32) :
    (∃ error, error ≠ .none ∧ u.startUpload image options now = (u, error)) ∨
    (image ≠ [] ∧ options.valid = true ∧ u.upload.progress.active = false ∧
      u.client.rebootPending = false ∧ u.client.verifying = false ∧
      u.startUpload image options now =
        (u.withUpload (u.upload.admitted image options now), .none)) := by
  unfold startUpload
  by_cases bad : (image.isEmpty || !options.valid) = true
  · exact .inl ⟨.invalidArgument, by decide, if_pos bad⟩
  rw [if_neg bad]
  obtain ⟨nonempty, valid⟩ : image ≠ [] ∧ options.valid = true := by simpa using bad
  by_cases down : (!u.client.running) = true
  · refine .inl ⟨.notConnected, by decide, ?_⟩
    rw [Client.startUpload, if_pos down]
  by_cases taken : (u.client.uploading || u.client.rebootPending || u.client.verifying) = true
  · refine .inl ⟨.busy, by decide, ?_⟩
    rw [Client.startUpload, if_neg down, if_pos taken]
  · obtain ⟨⟨idle, unpending⟩, unverified⟩ : (u.client.uploading = false ∧
        u.client.rebootPending = false) ∧ u.client.verifying = false := by simpa using taken
    refine .inr ⟨nonempty, valid, u.synced.symm.trans idle, unpending, unverified, ?_⟩
    rw [Client.startUpload, if_neg down, if_neg taken]

/-- A reboot is admitted only where neither an upload nor another reboot is going on. -/
theorem rebootRequest_cases (mode : FirmwareRebootMode) (verification : Bool) (timeoutMs : Nat)
    (now : BitVec 32) :
    (∃ error, error ≠ .none ∧ u.rebootRequest mode verification timeoutMs now = (u, error)) ∨
    (u.upload.progress.active = false ∧ u.client.rebootPending = false ∧
      u.rebootRequest mode verification timeoutMs now =
        ({ u.withClient { u.client with
            reboot := {}, rebootPending := true, rebootDone := false, rebootMode := mode } with
          rebootDeadline := ⟨now, timeoutMs⟩ }, .none)) := by
  unfold rebootRequest
  by_cases down : (!u.client.running) = true
  · refine .inl ⟨.notConnected, by decide, ?_⟩
    rw [Client.rebootRequest, if_pos down]
  by_cases taken : (u.client.uploading || u.client.rebootPending ||
      (u.client.verifying && !verification)) = true
  · refine .inl ⟨.busy, by decide, ?_⟩
    rw [Client.rebootRequest, if_neg down, if_pos taken]
  · have free : (u.client.uploading = false ∧ u.client.rebootPending = false) ∧
        (u.client.verifying = true → verification = true) := by simpa using taken
    refine .inr ⟨u.synced.symm.trans free.1.1, free.1.2, ?_⟩
    rw [Client.rebootRequest, if_neg down, if_neg taken]

theorem withClient_self : u.withClient u.client = u := by
  obtain ⟨client, upload, bootDeadline, rebootDeadline, synced⟩ := u
  simp only [withClient, ← synced]

theorem bootRequest_cases (timeoutMs : Nat) (now : BitVec 32) :
    (∃ error, error ≠ .none ∧ u.bootRequest timeoutMs now = (u, error)) ∨
    u.bootRequest timeoutMs now =
      ({ u.withClient { u.client with bootPending := true, bootDone := false } with
        bootDeadline := ⟨now, timeoutMs⟩ }, .none) := by
  unfold bootRequest
  by_cases down : (!u.client.running) = true
  · refine .inl ⟨.notConnected, by decide, ?_⟩
    rw [Client.bootRequest, if_pos down]
  by_cases taken : u.client.bootPending = true
  · refine .inl ⟨.busy, by decide, ?_⟩
    rw [Client.bootRequest, if_neg down, if_pos taken]
  · right
    rw [Client.bootRequest, if_neg down, if_neg taken]

end UpgradeClient

/-- The peer has left: the transport goes down, or another peer session has begun. -/
def ClientAction.departs {B : Bulk} (a : ClientAction) (s : ClientState B) : Prop :=
  (∃ now inspect, a = .transportState false now inspect ∧
    s.client.client.transportConnected = true) ∨
  ∃ now inspect, a = .departed now inspect ∧ s.owner = .departing

def ClientAction.passes : ClientAction → Bool
  | .pass _ => true
  | _ => false

/-- One step. Steps that look alike to the queries and to the upload are one case. -/
inductive ClientMove {B : Bulk} (s : ClientState B) :
    ClientAction → ClientState B → ClientEvent → Prop where
  /-- Fields outside the queries and the upload are written. -/
  | fields {a c owner returned} : a.passes = false → s.client.client.SameQueries c →
      (c.verifying = true → s.client.client.verifying = true ∨
        s.client.upload.progress.active = false) →
      (owner = .departing → s.owner = .departing ∨
        ∃ previous current, a = .peerSession previous current ∧ previous ≠ 0) →
      (∀ r, returned ≠ some (.reboot r)) →
      ClientMove s a { s with client := s.client.withClient c, owner } { returned }
  | uploadAdmitted {image options now} : options.valid = true →
      s.client.upload.progress.active = false → s.client.client.rebootPending = false →
      s.client.client.verifying = false →
      ClientMove s (.startUpload image options now)
        { s with client := s.client.withUpload (s.client.upload.admitted image options now) }
        { effects := [.uploadAdmitted], returned := some (.gate .none) }
  | cancelled : ClientMove s .cancel { s with client := s.client.cancel } {}
  | status {message now} :
      ClientMove s (.status message now) { s with client := s.client.status message now } {}
  /-- A call begins, goes on waiting, is refused, or returns something else than a reboot. -/
  | call {a boot reboot returned} : a.passes = false →
      (∀ mode, reboot = .waiting mode → s.reboot = .waiting mode) →
      (∀ r, returned = some (.reboot r) → (∀ expired, a ≠ .rebootWake expired) ∧
        r.error ≠ .none ∧ r.requestAccepted = false ∧ r.departureObserved = false) →
      ClientMove s a { s with boot, reboot } { returned }
  | bootAdmitted {now timeoutMs} :
      ClientMove s (.bootEnter now)
        { s with
          client := { s.client.withClient
              { s.client.client with bootPending := true, bootDone := false } with
            bootDeadline := ⟨now, timeoutMs⟩ }
          boot := .waiting } {}
  | rebootAdmitted {now mode timeoutMs} : s.client.upload.progress.active = false →
      s.client.client.rebootPending = false →
      ClientMove s (.rebootEnter now)
        { s with
          client := { s.client.withClient { s.client.client with
              reboot := {}, rebootPending := true, rebootDone := false, rebootMode := mode } with
            rebootDeadline := ⟨now, timeoutMs⟩ }
          reboot := .waiting mode } { effects := [.rebootAdmitted mode] }
  | rebootReturned {mode expired} : s.reboot = .waiting mode →
      ClientMove s (.rebootWake expired) { s with reboot := .none }
        { returned := some (.reboot (if s.client.client.rebootDone then s.client.client.reboot
          else { s.client.client.reboot with error := .timeout })) }
  | pass {p} : ClientMove s (.pass p) { s with client := (s.client.progress p).1 }
      { effects := (s.client.progress p).2 }
  | lost {a c departed now inspect} : a.passes = false → (departed = true → a.departs s) →
      s.client.client.SameQueries c →
      ClientMove s a ({ s with client := s.client.withClient c }.lost departed now inspect).1
        ({ s with client := s.client.withClient c }.lost departed now inspect).2

namespace ClientMove
variable {B : Bulk} {s t : ClientState B} {a : ClientAction} {event : ClientEvent}

theorem of_lost {departed : Bool} {now : BitVec 32} {inspect : Inspected FirmwareRebootMode}
    (other : a.passes = false) (left : departed = true → a.departs s) :
    ClientMove s a (s.lost departed now inspect).1 (s.lost departed now inspect).2 := by
  have same : ClientMove s a
      ({ s with client := s.client.withClient s.client.client }.lost departed now inspect).1
      ({ s with client := s.client.withClient s.client.client }.lost departed now inspect).2 :=
    .lost other left (.refl s.client.client)
  rwa [s.client.withClient_self] at same

theorem of_ownerStep (stepped : s.ownerStep a = some (t, event)) :
    ClientMove s a t event := by
  have staying : s.owner = .departing → s.owner = .departing ∨
      ∃ previous current, a = .peerSession previous current ∧ previous ≠ 0 := .inl
  cases a with
  | pass p =>
    simp only [ClientState.ownerStep, Option.some.injEq, Prod.mk.injEq] at stepped
    obtain ⟨rfl, rfl⟩ := stepped
    exact .pass
  | status message now =>
    cases stepped
    exact .status
  | transportState connected now inspect =>
    simp only [ClientState.ownerStep] at stepped
    split at stepped
    · rename_i edge
      obtain ⟨up, rfl⟩ : s.client.client.transportConnected = true ∧ connected = false := by
        simpa using edge
      simp only [Option.some.injEq] at stepped
      obtain ⟨rfl, rfl⟩ := Prod.mk.inj stepped.symm
      exact .lost rfl (fun _ => .inl ⟨now, inspect, rfl, up⟩) ⟨rfl, rfl, rfl⟩
    · simp only [Option.some.injEq, Prod.mk.injEq] at stepped
      obtain ⟨rfl, rfl⟩ := stepped
      exact .fields rfl ⟨rfl, rfl, rfl⟩ .inl staying nofun
  | peerSession previous current =>
    simp only [ClientState.ownerStep, Option.some.injEq, Prod.mk.injEq] at stepped
    obtain ⟨rfl, rfl⟩ := stepped
    refine .fields rfl ⟨rfl, rfl, rfl⟩ .inl ?_ nofun
    intro departing
    refine .inr ⟨previous, current, rfl, ?_⟩
    rintro rfl
    cases departing
  | close now inspect =>
    simp only [ClientState.ownerStep, Option.some.injEq] at stepped
    obtain ⟨rfl, rfl⟩ := Prod.mk.inj stepped.symm
    exact .of_lost rfl nofun
  | _ => cases stepped

/-- A call that changes nothing but where it stands. -/
theorem of_call {boot : BootCall} {returned : Option Returned} (other : a.passes = false)
    (silent : ∀ r, returned ≠ some (.reboot r)) : ClientMove s a { s with boot } { returned } :=
  .call other (fun _ => id) fun r same => (silent r same).elim

/-- A call of `reboot` that is refused. -/
theorem of_refused {error : FirmwareUpdateError} {reboot : RebootCall}
    (unpassed : a.passes = false) (other : ∀ expired, a ≠ .rebootWake expired)
    (call : ∀ mode, reboot = .waiting mode → s.reboot = .waiting mode) (failed : error ≠ .none) :
    ClientMove s a { s with reboot } { returned := some (.reboot { error }) } := by
  refine .call unpassed call ?_
  intro r same
  cases same
  exact ⟨other, failed, rfl, rfl⟩

theorem of_bootEnter {now : BitVec 32} (stepped : s.bootEnter now = some (t, event)) :
    ClientMove s (.bootEnter now) t event := by
  simp only [ClientState.bootEnter] at stepped
  split at stepped
  · rename_i timeoutMs _
    obtain ⟨error, failed, refused⟩ | made :=
      s.client.bootRequest_cases (milliseconds timeoutMs) now
    · rw [refused] at stepped
      split at stepped <;> rename_i same <;> cases same <;> cases stepped
      · exact (failed rfl).elim
      · exact .of_call rfl nofun
    · rw [made] at stepped
      cases stepped
      exact .bootAdmitted
  · cases stepped

theorem of_rebootEnter {now : BitVec 32} (stepped : s.rebootEnter now = some (t, event)) :
    ClientMove s (.rebootEnter now) t event := by
  simp only [ClientState.rebootEnter] at stepped
  split at stepped
  · rename_i mode timeoutMs verification _
    obtain ⟨error, failed, refused⟩ | ⟨idle, unpending, made⟩ :=
      s.client.rebootRequest_cases mode verification (milliseconds timeoutMs) now
    · rw [refused] at stepped
      split at stepped <;> rename_i same <;> cases same <;> cases stepped
      · exact (failed rfl).elim
      · exact .of_refused rfl nofun nofun failed
    · rw [made] at stepped
      cases stepped
      exact .rebootAdmitted idle unpending
  · cases stepped

theorem of_rebootWake {expired : Bool} (stepped : s.rebootWake expired = some (t, event)) :
    ClientMove s (.rebootWake expired) t event := by
  simp only [ClientState.rebootWake] at stepped
  split at stepped
  · rename_i mode waiting
    have returns : ClientMove s (.rebootWake expired) { s with reboot := .none } _ :=
      .rebootReturned waiting
    split at stepped
    · rename_i done
      rw [if_pos done] at returns
      cases stepped
      exact returns
    · rename_i undone
      rw [if_neg undone] at returns
      split at stepped
      · cases stepped
        exact returns
      · cases stepped
        exact .of_call rfl nofun
  · cases stepped

theorem of_step (stepped : s.step a = some (t, event)) : ClientMove s a t event := by
  have staying : s.owner = .departing → s.owner = .departing ∨
      ∃ previous current, a = .peerSession previous current ∧ previous ≠ 0 := .inl
  cases a with
  | connected running =>
    cases stepped
    exact .fields rfl ⟨rfl, rfl, rfl⟩ .inl staying nofun
  | beginVerification =>
    simp only [ClientState.step, Option.some.injEq, Prod.mk.injEq] at stepped
    obtain ⟨rfl, rfl⟩ := stepped
    unfold Client.beginVerification
    split
    · exact .fields rfl (.refl _) .inl staying nofun
    split
    · exact .fields rfl (.refl _) .inl staying nofun
    · rename_i free
      refine .fields rfl ⟨rfl, rfl, rfl⟩ (fun _ => .inr ?_) staying nofun
      rw [← s.client.synced]
      by_contra active
      simp [active] at free
  | endVerification =>
    cases stepped
    exact .fields rfl ⟨rfl, rfl, rfl⟩ nofun staying nofun
  | startUpload image options now =>
    simp only [ClientState.step, Option.some.injEq, Prod.mk.injEq] at stepped
    obtain ⟨rfl, rfl⟩ := stepped
    obtain ⟨error, failed, refused⟩ | ⟨-, valid, idle, unpending, unverified, made⟩ :=
      s.client.startUpload_cases image options now
    · rw [refused, if_neg failed]
      exact .of_call rfl nofun
    · rw [made]
      exact .uploadAdmitted valid idle unpending unverified
  | cancel =>
    cases stepped
    exact .cancelled
  | bootCall timeoutMs =>
    simp only [ClientState.step, ClientState.bootCall] at stepped
    split at stepped
    · split at stepped <;> cases stepped <;> exact .of_call rfl nofun
    · cases stepped
      exact .of_call rfl nofun
  | bootEnter now => exact .of_bootEnter stepped
  | bootWake expired =>
    simp only [ClientState.step, ClientState.bootWake] at stepped
    split at stepped
    · split at stepped
      · cases stepped
        exact .of_call rfl nofun
      · split at stepped <;> cases stepped <;> exact .of_call rfl nofun
    · cases stepped
  | rebootCall mode timeoutMs verification =>
    simp only [ClientState.step, ClientState.rebootCall] at stepped
    split at stepped
    · split at stepped
      · cases stepped
        exact .call rfl nofun nofun
      · cases stepped
        exact .of_refused rfl nofun (fun _ => id) (by decide)
    · cases stepped
      exact .of_refused rfl nofun (fun _ => id) (by decide)
    · cases stepped
      exact .of_refused rfl nofun (fun _ => id) (by decide)
  | rebootEnter now => exact .of_rebootEnter stepped
  | rebootWake expired => exact .of_rebootWake stepped
  | departed now inspect =>
    simp only [ClientState.step] at stepped
    split at stepped
    · rename_i departing
      simp only [Option.some.injEq] at stepped
      obtain ⟨rfl, rfl⟩ := Prod.mk.inj stepped.symm
      exact .of_lost rfl fun _ => .inr ⟨now, inspect, rfl, departing⟩
    · cases stepped
  | pass | status | transportState | peerSession | close =>
    simp only [ClientState.step] at stepped
    split at stepped
    · cases stepped
    · exact .of_ownerStep stepped

end ClientMove
end Florid.Upgrade
