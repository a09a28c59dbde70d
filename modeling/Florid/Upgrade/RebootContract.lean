import Florid.Upgrade.RebootPhases

/-! The contract of `reboot` over every run of the client. -/
namespace Florid.Upgrade
open Transition

/-! ### The steps -/

theorem Client.RebootMove.admits {c d : Client} {effects : List Effect}
    (move : RebootMove c d effects) : ∀ e ∈ effects, e.admitsReboot = false := by
  cases move <;> simp [Effect.admitsReboot]

/-- The reboot of a client. -/
def ClientState.view {B : Bulk} (s : ClientState B) : RebootView := s.client.client.rebootView

/-- The call that waits was admitted, and all that was observed since says where it is. -/
def Accounted {B : Bulk} (seen : List Effect) (s : ClientState B) : Prop :=
  ∀ mode, s.reboot = .waiting mode → ∃ past w, seen = past ++ .rebootAdmitted mode :: w ∧
    (∀ e ∈ w, e.admitsReboot = false) ∧ s.view.mode = mode ∧ RebootPhase mode w s.view

namespace Accounted
variable {B : Bulk} {seen : List Effect} {s t : ClientState B}

/-- A step that has nothing to do with a reboot. -/
theorem quiet {effects : List Effect} (accounted : Accounted seen s)
    (call : ∀ mode, t.reboot = .waiting mode → s.reboot = .waiting mode) (view : t.view = s.view)
    (upload : ∀ e ∈ effects, e.ofUpload = true) : Accounted (seen ++ effects) t := by
  intro mode waiting
  obtain ⟨past, w, rfl, unadmitted, asked, phase⟩ := accounted mode (call mode waiting)
  rw [view]
  refine ⟨past, w ++ effects, by simp, ?_, asked, phase.foreign upload⟩
  simp only [List.forall_mem_append]
  exact ⟨unadmitted, fun e member => (Effect.ofUpload_foreign (upload e member)).1⟩

/-- A poll of the reboot, followed by the observations of the upload. -/
theorem poll {c d : Client} {reboots uploads : List Effect} (accounted : Accounted seen s)
    (before : c.rebootView = s.view) (move : Client.RebootMove c d reboots)
    (call : t.reboot = s.reboot) (after : t.view = d.rebootView)
    (upload : ∀ e ∈ uploads, e.ofUpload = true) : Accounted (seen ++ (reboots ++ uploads)) t := by
  intro mode waiting
  obtain ⟨past, w, rfl, unadmitted, asked, phase⟩ := accounted mode (call.symm.trans waiting)
  rw [← before] at asked phase
  have moved := phase.move asked move
  have same : d.rebootMode = mode := move.frame.2.2.2.1.trans asked
  rw [after]
  refine ⟨past, w ++ reboots ++ uploads, by simp, ?_, same, moved.foreign upload⟩
  simp only [List.forall_mem_append]
  exact ⟨⟨unadmitted, move.admits⟩,
    fun e member => (Effect.ofUpload_foreign (upload e member)).1⟩

/-- The end of a loss or a close. -/
theorem lost (accounted : Accounted seen s) (departed : Bool) (call : t.reboot = s.reboot)
    (after : t.view = s.view.lost departed) :
    Accounted (seen ++ [if departed then .departure else .localClose]) t := by
  intro mode waiting
  obtain ⟨past, w, rfl, unadmitted, asked, phase⟩ := accounted mode (call.symm.trans waiting)
  have same : (s.view.lost departed).mode = mode := by
    unfold RebootView.lost
    split <;> exact asked
  rw [after]
  refine ⟨past, w ++ [if departed then .departure else .localClose], by simp, ?_, same,
    phase.lost departed⟩
  simp only [List.forall_mem_append]
  refine ⟨unadmitted, ?_⟩
  cases departed <;> simp [Effect.admitsReboot]

/-- A loss or a close: what is out is collected, the upload ends, the reboot is decided. -/
theorem disconnected {departed : Bool} {now : BitVec 32} {inspect : Inspected FirmwareRebootMode}
    (accounted : Accounted seen s) :
    Accounted (seen ++ (s.lost departed now inspect).2.effects)
      (s.lost departed now inspect).1 := by
  let poll : Poll FirmwareRebootMode := ⟨s.client.rebootDeadline.expired now, .retryable, inspect⟩
  have view := s.client.client.disconnected_view departed poll
  have uploads := s.client.upload.disconnected_ofUpload
  by_cases out : (s.client.client.rebootPending && s.client.client.rebootId != 0) = true
  · rw [if_pos out] at view
    let polled := s.client.withClient (s.client.client.pollReboot poll).1
    have collected := accounted.poll (t := { s with client := polled }) rfl
      (s.client.client.pollReboot_move poll) rfl rfl uploads
    have left : Accounted _ (s.lost departed now inspect).1 := collected.lost departed rfl view
    simp only [ClientState.lost, UpgradeClient.disconnected] at left ⊢
    rw [if_pos out, ← List.append_assoc]
    exact left
  · rw [if_neg out] at view
    have collected := accounted.poll (t := s) rfl .kept rfl rfl uploads
    have left : Accounted _ (s.lost departed now inspect).1 := collected.lost departed rfl view
    simp only [ClientState.lost, UpgradeClient.disconnected] at left ⊢
    rw [if_neg out, ← List.append_assoc]
    exact left

theorem step {a : ClientAction} {event : ClientEvent} (accounted : Accounted seen s)
    (admission : Admission s.client) (move : ClientMove s a t event) :
    Accounted (seen ++ event.effects) t := by
  cases move with
  | fields _ same => exact accounted.quiet (fun _ => id) same.reboot (List.forall_mem_nil _)
  | uploadAdmitted => exact accounted.quiet (fun _ => id) rfl (by simp [Effect.ofUpload])
  | cancelled | status | bootAdmitted =>
    exact accounted.quiet (fun _ => id) rfl (List.forall_mem_nil _)
  | call _ waits => exact accounted.quiet waits rfl (List.forall_mem_nil _)
  | rebootReturned =>
    refine accounted.quiet ?_ rfl (List.forall_mem_nil _)
    intro mode waiting
    cases waiting
  | rebootAdmitted _ unpending =>
    rename_i now mode timeoutMs
    intro asked waiting
    obtain rfl := RebootCall.waiting.inj waiting
    have none : s.client.client.rebootId = 0 := by
      by_contra leaked
      exact Bool.false_ne_true (unpending.symm.trans (admission.queries.reboot leaked).1)
    have nothing : Unanswered [] := List.forall_mem_nil _
    exact ⟨seen, [], rfl, List.forall_mem_nil _, rfl, .unsent rfl rfl none rfl nothing⟩
  | pass =>
    rename_i p
    have boots : (s.client.client.pollBoot (s.client.bootPoll p)).rebootView = s.view := by
      obtain ⟨bootId, boot, bootPending, bootDone, polled, -⟩ :=
        s.client.client.pollBoot_eq (s.client.bootPoll p) admission.queries
      rw [polled]
      rfl
    exact accounted.poll boots (Client.pollReboot_move _ (s.client.rebootPoll p)) rfl rfl
      (s.client.upload.pass_ofUpload p)
  | lost other left same =>
    rename_i c departed now inspect
    have written : Accounted seen { s with client := s.client.withClient c } := by
      have quiet : Accounted (seen ++ []) { s with client := s.client.withClient c } :=
        accounted.quiet (fun _ => id) same.reboot (List.forall_mem_nil _)
      rwa [List.append_nil] at quiet
    exact written.disconnected

end Accounted

theorem RebootPhase.contract {mode : FirmwareRebootMode} {w : List Effect} {v : RebootView}
    (phase : RebootPhase mode w v) : RebootContract mode w
      (if v.done then v.result else { v.result with error := .timeout }) := by
  cases phase with
  | unsent _ done _ result unanswered | sent _ done _ result _ unanswered =>
    rw [done, result]
    exact .of_unanswered unanswered (by decide) (by simp)
  | accepted pending done id answered result agreed waits =>
    rename_i reply after
    have overdue : { rebootOf mode reply with error := .timeout } =
        Upgrade.settled mode reply after := by
      rw [settled_of_agreed agreed, waits]
      rfl
    rw [done, result]
    exact overdue ▸ .of_settled answered
  | failed _ done _ error _ departed unanswered =>
    rw [done]
    exact .of_unanswered unanswered error departed
  | settled _ done _ answered result _ =>
    rw [done, result]
    exact .of_settled answered

/-- Departures are observed where the peer leaves. -/
theorem ClientMove.departure {B : Bulk} {s t : ClientState B} {a : ClientAction}
    {event : ClientEvent} (move : ClientMove s a t event) (seen : .departure ∈ event.effects) :
    a.departs s := by
  have foreign {uploads : List Effect} (only : ∀ e ∈ uploads, e.ofUpload = true) :
      .departure ∉ uploads := by
    intro member
    exact Bool.false_ne_true (only _ member)
  have polls (c : Client) (p : Poll FirmwareRebootMode) : .departure ∉ c.rebootEffects p := by
    have move := c.pollReboot_move p
    generalize (c.pollReboot p).1 = d, c.rebootEffects p = effects at move
    cases move <;> simp
  cases move with
  | pass =>
    rcases List.mem_append.mp seen with member | member
    · exact (polls _ _ member).elim
    · exact (foreign (s.client.upload.pass_ofUpload _) member).elim
  | lost other left same =>
    rename_i c departed now inspect
    simp only [ClientState.lost, UpgradeClient.disconnected, List.mem_append] at seen
    rcases seen with (member | member) | member
    · split at member
      · exact (polls _ _ member).elim
      · cases member
    · exact (foreign s.client.upload.disconnected_ofUpload member).elim
    · apply left
      by_contra stays
      simp [stays] at member
  | _ => simp at seen

/-- Only another peer session after a first one takes the owner to the departure. -/
theorem ClientMove.departing {B : Bulk} {s t : ClientState B} {a : ClientAction}
    {event : ClientEvent} (move : ClientMove s a t event) (departing : t.owner = .departing) :
    s.owner = .departing ∨ ∃ previous current, a = .peerSession previous current ∧ previous ≠ 0 := by
  cases move with
  | fields _ _ _ owner => exact owner departing
  | lost => cases departing
  | _ => exact .inl departing

section Runs
variable {B : Bulk} {es : ClientTrace B} {s : ClientState B}

theorem accounted_of_run (run : Run (upgradeMachine B) es s) :
    Admission s.client ∧ Accounted (observed es) s := by
  apply run.history (P := fun es s => Admission s.client ∧ Accounted (observed es) s)
  · refine ⟨.initial, ?_⟩
    intro mode waiting
    cases waiting
  · rintro es s a event t - ⟨admission, accounted⟩ stepped
    rw [observed_snoc]
    have move := ClientMove.of_step stepped
    exact ⟨admission.step move, accounted.step admission move⟩

theorem announced_of_departing (run : Run (upgradeMachine B) es s) (departing : s.owner = .departing) :
    ∃ e ∈ es, ∃ previous current, e.action = .peerSession previous current ∧ previous ≠ 0 := by
  revert departing
  apply run.history (P := fun es s => s.owner = .departing →
    ∃ e ∈ es, ∃ previous current, e.action = .peerSession previous current ∧ previous ≠ 0)
  · intro departing
    cases departing
  · intro es s a event t _ earlier stepped departing
    rcases (ClientMove.of_step stepped).departing departing with before | announced
    · obtain ⟨e, member, announced⟩ := earlier before
      exact ⟨e, by simp [member], announced⟩
    · exact ⟨⟨s, a, event, t⟩, by simp, announced⟩

end Runs

/-- The transport goes down at `e`, or the owner is told there of a peer session that has
taken the place of another. -/
def Departed {B : Bulk} (past : ClientTrace B)
    (e : Entry (ClientState B) ClientAction ClientEvent) : Prop :=
  (∃ now inspect, e.action = .transportState false now inspect ∧
    e.before.client.client.transportConnected = true) ∨
  ∃ now inspect, e.action = .departed now inspect ∧
    ∃ f ∈ past, ∃ previous current, f.action = .peerSession previous current ∧ previous ≠ 0

/-- Whatever the owner and other callers do, a call of `reboot` that was admitted returns
what its contract says of everything observed since its admission, a call that was not
returns an error, and nothing but the loss of the peer is observed as a departure. -/
theorem reboot_contract {B : Bulk} {past rest : ClientTrace B}
    {e : Entry (ClientState B) ClientAction ClientEvent} {s : ClientState B}
    (run : Run (upgradeMachine B) (past ++ e :: rest) s) :
    (.departure ∈ e.event.effects → Departed past e) ∧
    ∀ r, e.event.returned = some (.reboot r) →
      match e.action with
      | .rebootWake _ => ∃ mode earlier w, e.before.reboot = .waiting mode ∧
          observed past = earlier ++ .rebootAdmitted mode :: w ∧
          (∀ x ∈ w, x.admitsReboot = false) ∧ RebootContract mode w r
      | _ => r.error ≠ .none ∧ r.requestAccepted = false ∧ r.departureObserved = false := by
  obtain ⟨before, stepped⟩ := run.entry
  obtain ⟨s₀, a, event, t⟩ := e
  have move : ClientMove s₀ a t event := .of_step stepped
  constructor
  · intro seen
    rcases move.departure seen with edge | ⟨now, inspect, action, departing⟩
    · exact .inl edge
    · exact .inr ⟨now, inspect, action, announced_of_departing before departing⟩
  · intro r returned
    cases move with
    | fields _ _ _ _ silent => exact (silent r returned).elim
    | call _ _ refused =>
      obtain ⟨other, failed⟩ := refused r returned
      split
      · rename_i expired action
        exact (other expired action).elim
      · exact failed
    | rebootReturned waiting =>
      cases returned
      obtain ⟨earlier, w, split, unadmitted, -, phase⟩ := (accounted_of_run before).2 _ waiting
      exact ⟨_, earlier, w, waiting, split, unadmitted, phase.contract⟩
    | _ => cases returned

/-- The device agrees, and its answer is collected when the transport has gone down. -/
def agreedReboot : List ClientAction :=
  [.connected true, .rebootCall (some .tryBoot) 5000 false, .rebootEnter 100#32,
    .pass { now := 105#32, rebootStart := .ok 12 (by decide) }, .pass { now := 110#32 },
    .transportState false 120#32 (.finished { decoded := some .tryBoot }), .rebootWake false]

def agreedRebootTrace : ClientTrace plainBulk × ClientState plainBulk :=
  (exec (upgradeMachine plainBulk) agreedReboot [] (upgradeMachine plainBulk).init).get
    (by decide +kernel)

theorem agreedRebootTrace_length : agreedRebootTrace.1.length = 7 := by
  decide +kernel

theorem reboot_contract_agreed : ∃ past e rest s r,
    Run (upgradeMachine plainBulk) (past ++ e :: rest) s ∧ e.event.returned = some (.reboot r) ∧
    r.error = .none ∧ ∃ earlier before between after id reply,
      observed past = earlier ++ .rebootAdmitted .tryBoot ::
        (before ++ .rebootSent id .tryBoot :: between ++ .rebootAnswered id reply :: after) ∧
      Agreed .tryBoot reply ∧ .departure ∈ after := by
  have whole : Run (upgradeMachine plainBulk) agreedRebootTrace.1 agreedRebootTrace.2 :=
    exec_get _
  have run := whole.at_index ⟨6, by rw [agreedRebootTrace_length]; decide⟩
  refine ⟨_, _, _, _, { requestAccepted := true, departureObserved := true }, run,
    by decide +kernel, rfl, ?_⟩
  obtain ⟨mode, earlier, w, waiting, split, -, contract⟩ := (reboot_contract run).2
    { requestAccepted := true, departureObserved := true } (by decide +kernel)
  obtain rfl : mode = .tryBoot := (RebootCall.waiting.inj waiting).symm
  obtain ⟨-, -, before, between, after, id, reply, rfl, agreed, left⟩ := contract.success rfl
  exact ⟨earlier, before, between, after, id, reply, split, agreed, left⟩

end Florid.Upgrade
