import Florid.Upgrade.Admission

/-! What a call of `reboot` goes through and what its result says. The answer to the
request, the departure of the peer, the deadlines and a local close come in any order, and
two entry points finish the request; `settled` says which of them decides. -/
namespace Florid.Upgrade
open Transition

/-! ### The observations of a call -/

namespace Effect

def admitsReboot : Effect → Bool
  | rebootAdmitted _ => true
  | _ => false

def answersReboot : Effect → Bool
  | rebootAnswered _ _ => true
  | _ => false

/-- What ends the wait for the peer's departure. -/
def endsReboot : Effect → Bool
  | rebootExpired | departure | localClose => true
  | _ => false

theorem ofUpload_foreign {e : Effect} (upload : e.ofUpload = true) :
    e.admitsReboot = false ∧ e.answersReboot = false ∧ e.endsReboot = false := by
  cases e <;> simp_all [ofUpload, ofTransfer, ofSender, admitsReboot, answersReboot, endsReboot]

end Effect

/-- The device agreed to reboot as asked. -/
def Agreed (mode : FirmwareRebootMode) (reply : RpcReply FirmwareRebootMode) : Prop :=
  reply.timedOut = false ∧ reply.applicationStatus = 0 ∧ reply.decoded = some mode

theorem rebootOf_accepted {mode : FirmwareRebootMode} {reply : RpcReply FirmwareRebootMode} :
    (rebootOf mode reply).requestAccepted = true ↔ Agreed mode reply := by
  simp only [rebootOf, Agreed]
  split
  · rename_i timedOut
    simp [timedOut]
  split
  · rename_i rejected
    simp [rejected]
  split
  · rename_i live fine same
    simp [same] at live fine ⊢
    exact ⟨live, fine⟩
  · rename_i other
    simp [other]

theorem rebootOf_departure (mode : FirmwareRebootMode) (reply : RpcReply FirmwareRebootMode) :
    (rebootOf mode reply).departureObserved = false := by
  simp only [rebootOf]
  split
  · rfl
  split
  · rfl
  split <;> rfl

/-- An answer that does not agree is an error. -/
theorem rebootOf_refused {mode : FirmwareRebootMode} {reply : RpcReply FirmwareRebootMode}
    (refused : (rebootOf mode reply).requestAccepted = false) :
    (rebootOf mode reply).error ≠ .none := by
  simp only [rebootOf] at refused ⊢
  split
  · simp
  split
  · simp
  split
  · rename_i timedOut fine same
    simp [timedOut, fine, same] at refused
  · simp

/-- The result of an accepted request, by what ended the wait for the departure. -/
def concluded (r : FirmwareRebootResult) : Option Effect → FirmwareRebootResult
  | some .departure => { r with error := .none, departureObserved := true }
  | some .localClose => { r with error := .transportError }
  | _ => { r with error := .timeout }

/-- The result of a request that was answered, given what was observed afterwards. Only an
agreement waits for more, and the first ending decides. -/
def settled (mode : FirmwareRebootMode) (reply : RpcReply FirmwareRebootMode)
    (after : List Effect) : FirmwareRebootResult :=
  if (rebootOf mode reply).requestAccepted then
    concluded (rebootOf mode reply) (after.find? Effect.endsReboot)
  else rebootOf mode reply

section Settled
variable {mode : FirmwareRebootMode} {reply : RpcReply FirmwareRebootMode} {after : List Effect}

theorem settled_of_agreed (agreed : Agreed mode reply) :
    settled mode reply after =
      concluded (rebootOf mode reply) (after.find? Effect.endsReboot) :=
  if_pos (rebootOf_accepted.mpr agreed)

theorem settled_of_refused (refused : (rebootOf mode reply).requestAccepted = false) :
    settled mode reply after = rebootOf mode reply :=
  if_neg (by simp [refused])

/-- Once an ending is among the observations, later ones change nothing. -/
theorem settled_append (more : List Effect)
    (finished : Agreed mode reply → (after.find? Effect.endsReboot).isSome = true) :
    settled mode reply (after ++ more) = settled mode reply after := by
  by_cases agreed : Agreed mode reply
  · obtain ⟨ending, found⟩ := Option.isSome_iff_exists.mp (finished agreed)
    rw [settled_of_agreed agreed, settled_of_agreed agreed, List.find?_append, found,
      Option.some_or]
  · have refused : (rebootOf mode reply).requestAccepted = false := by
      simpa using mt rebootOf_accepted.mp agreed
    rw [settled_of_refused refused, settled_of_refused refused]

end Settled

/-! ### The call -/

/-- The last part of `disconnected`. -/
def RebootView.lost (v : RebootView) (departed : Bool) : RebootView :=
  if v.pending then
    { v with
      pending := false
      done := true
      id := 0
      result := { v.result with
        departureObserved := departed
        error := if departed && v.result.requestAccepted then .none else .transportError } }
  else { v with id := 0 }

theorem Client.disconnected_view (c : Client) (departed : Bool) (p : Poll FirmwareRebootMode) :
    (c.disconnected departed p).rebootView =
      (if c.rebootPending && c.rebootId != 0 then (c.pollReboot p).1 else c).rebootView.lost
        departed := by
  unfold disconnected
  generalize (if c.rebootPending && c.rebootId != 0 then (c.pollReboot p).1 else c) = d
  cases boot : d.bootPending <;> cases reboot : d.rebootPending <;>
    simp [finishBoot, finishReboot, boot, reboot, rebootView, RebootView.lost]

def Unanswered (w : List Effect) : Prop := ∀ e ∈ w, e.answersReboot = false

theorem Unanswered.append {w more : List Effect} (left : Unanswered w) (right : Unanswered more) :
    Unanswered (w ++ more) := by
  intro e member
  rcases List.mem_append.mp member with member | member
  · exact left e member
  · exact right e member

/-- The request sent in `w` was answered there, once. -/
structure Answered (mode : FirmwareRebootMode) (w : List Effect)
    (reply : RpcReply FirmwareRebootMode) (after : List Effect) : Prop where
  intro ::
  split : ∃ before id, w = before ++ .rebootAnswered id reply :: after ∧
    .rebootSent id mode ∈ before ∧ Unanswered before
  once : Unanswered after

theorem Answered.append {mode : FirmwareRebootMode} {w after more : List Effect}
    {reply : RpcReply FirmwareRebootMode} (answered : Answered mode w reply after)
    (quiet : Unanswered more) : Answered mode (w ++ more) reply (after ++ more) := by
  obtain ⟨⟨before, id, rfl, sent, first⟩, once⟩ := answered
  exact ⟨⟨before, id, by simp, sent, first⟩, once.append quiet⟩

/-- Where a call that waits has got to, from what was observed since it was admitted. -/
inductive RebootPhase (mode : FirmwareRebootMode) (w : List Effect) (v : RebootView) : Prop where
  | unsent : v.pending = true → v.done = false → v.id = 0 → v.result = {} → Unanswered w →
      RebootPhase mode w v
  | sent : v.pending = true → v.done = false → v.id ≠ 0 → v.result = {} →
      .rebootSent v.id mode ∈ w → Unanswered w → RebootPhase mode w v
  | accepted {reply after} : v.pending = true → v.done = false → v.id = 0 →
      Answered mode w reply after → v.result = rebootOf mode reply → Agreed mode reply →
      after.find? Effect.endsReboot = none → RebootPhase mode w v
  | failed : v.pending = false → v.done = true → v.id = 0 → v.result.error ≠ .none →
      v.result.requestAccepted = false →
      (v.result.departureObserved = true → .departure ∈ w) → Unanswered w → RebootPhase mode w v
  | settled {reply after} : v.pending = false → v.done = true → v.id = 0 →
      Answered mode w reply after → v.result = settled mode reply after →
      (Agreed mode reply → (after.find? Effect.endsReboot).isSome = true) → RebootPhase mode w v

namespace RebootPhase
variable {mode : FirmwareRebootMode} {w more : List Effect} {v : RebootView}

/-- A request that has finished stays as it is. -/
theorem later (phase : RebootPhase mode w v) (finished : v.pending = false)
    (quiet : Unanswered more) : RebootPhase mode (w ++ more) v ∧ v.id = 0 := by
  cases phase with
  | unsent pending | sent pending | accepted pending =>
    exact (Bool.false_ne_true (finished.symm.trans pending)).elim
  | failed pending done id error refused departed unanswered =>
    exact ⟨.failed pending done id error refused
      (fun observed => List.mem_append_left _ (departed observed)) (unanswered.append quiet), id⟩
  | settled pending done id answered result ended =>
    refine ⟨.settled pending done id (answered.append quiet) ?_ ?_, id⟩
    · rw [settled_append more ended]
      exact result
    · intro agreed
      rw [List.find?_append, Option.isSome_or, ended agreed, Bool.true_or]

/-- Observations of the upload leave the call where it is. -/
theorem foreign (phase : RebootPhase mode w v) (upload : ∀ e ∈ more, e.ofUpload = true) :
    RebootPhase mode (w ++ more) v := by
  have quiet : Unanswered more := fun e member => (Effect.ofUpload_foreign (upload e member)).2.1
  have endless : more.find? Effect.endsReboot = none := by
    rw [List.find?_eq_none]
    intro e member
    simp [(Effect.ofUpload_foreign (upload e member)).2.2]
  cases phase with
  | unsent pending done id result unanswered =>
    exact .unsent pending done id result (unanswered.append quiet)
  | sent pending done id result sent unanswered =>
    exact .sent pending done id result (List.mem_append_left _ sent) (unanswered.append quiet)
  | accepted pending done id answered result agreed waits =>
    apply accepted pending done id (answered.append quiet) result agreed
    rw [List.find?_append, waits, endless, Option.none_or]
  | failed pending done id error refused departed unanswered =>
    exact (later (failed pending done id error refused departed unanswered) pending quiet).1
  | settled pending done id answered result finished =>
    exact (later (settled pending done id answered result finished) pending quiet).1

theorem pending_cases (phase : RebootPhase mode w v) (pending : v.pending = true) :
    (v.result = {} ∧ Unanswered w ∧ (v.id ≠ 0 → .rebootSent v.id mode ∈ w)) ∨
    (∃ reply after, v.id = 0 ∧ Answered mode w reply after ∧ v.result = rebootOf mode reply ∧
      Agreed mode reply ∧ after.find? Effect.endsReboot = none) := by
  cases phase with
  | unsent _ _ id result unanswered =>
    exact .inl ⟨result, unanswered, fun out => (out id).elim⟩
  | sent _ _ _ result sent unanswered => exact .inl ⟨result, unanswered, fun _ => sent⟩
  | accepted _ _ id answered result agreed waits =>
    exact .inr ⟨_, _, id, answered, result, agreed, waits⟩
  | failed finished => exact (Bool.false_ne_true (finished.symm.trans pending)).elim
  | settled finished => exact (Bool.false_ne_true (finished.symm.trans pending)).elim

/-- A request that is pending has not finished. -/
theorem undone (phase : RebootPhase mode w v) (pending : v.pending = true) : v.done = false := by
  cases phase with
  | unsent _ done | sent _ done | accepted _ done => exact done
  | failed finished | settled finished => exact (Bool.false_ne_true (finished.symm.trans pending)).elim

theorem unanswered_single {e : Effect} (other : e.answersReboot = false) : Unanswered [e] := by
  intro x member
  rw [List.mem_singleton.mp member]
  exact other

/-- The wait for the departure ends. -/
theorem conclude {reply : RpcReply FirmwareRebootMode} {after : List Effect} {ending : Effect}
    {v' : RebootView} (answered : Answered mode w reply after) (agreed : Agreed mode reply)
    (waits : after.find? Effect.endsReboot = none) (ends : ending.endsReboot = true)
    (other : ending.answersReboot = false) (pending : v'.pending = false) (done : v'.done = true)
    (id : v'.id = 0) (result : v'.result = concluded (rebootOf mode reply) (some ending)) :
    RebootPhase mode (w ++ [ending]) v' := by
  have found : (after ++ [ending]).find? Effect.endsReboot = some ending := by
    rw [List.find?_append, waits, Option.none_or, List.find?_cons, ends]
  refine .settled pending done id (answered.append (unanswered_single other)) ?_ ?_
  · rw [settled_of_agreed agreed, found]
    exact result
  · intro _
    rw [found]
    rfl

/-- A request without an answer comes to its end. -/
theorem fail {ending : List Effect} {v' : RebootView} (unanswered : Unanswered w)
    (other : Unanswered ending) (pending : v'.pending = false) (done : v'.done = true)
    (id : v'.id = 0) (error : v'.result.error ≠ .none)
    (refused : v'.result.requestAccepted = false)
    (departed : v'.result.departureObserved = true → .departure ∈ ending) :
    RebootPhase mode (w ++ ending) v' :=
  .failed pending done id error refused
    (fun observed => List.mem_append_right _ (departed observed)) (unanswered.append other)

/-- A poll of the request. -/
theorem move {c d : Client} {effects : List Effect} (phase : RebootPhase mode w c.rebootView)
    (asked : c.rebootMode = mode) (move : Client.RebootMove c d effects) :
    RebootPhase mode (w ++ effects) d.rebootView := by
  subst asked
  cases move with
  | kept => simpa using phase
  | expired pending =>
    obtain ⟨fresh, unanswered, -⟩ | ⟨reply, after, -, answered, result, agreed, waits⟩ :=
      phase.pending_cases pending
    · have empty : c.reboot = {} := fresh
      apply fail unanswered (unanswered_single rfl) rfl rfl rfl
      · simp [Client.rebootView, Client.finishReboot]
      · simp [Client.rebootView, Client.finishReboot, empty]
      · simp [Client.rebootView, Client.finishReboot, empty]
    · apply conclude answered agreed waits rfl rfl rfl rfl rfl
      have accepted : c.reboot = rebootOf c.rebootMode reply := result
      simp only [Client.rebootView, Client.finishReboot, accepted, concluded]
  | sent pending unaccepted none nonzero =>
    obtain ⟨fresh, unanswered, -⟩ | ⟨reply, after, -, -, result, agreed, -⟩ :=
      phase.pending_cases pending
    · exact .sent pending (phase.undone pending) nonzero fresh (by simp [Client.rebootView])
        (unanswered.append (unanswered_single rfl))
    · have accepted := rebootOf_accepted.mpr agreed
      rw [← result] at accepted
      exact (Bool.false_ne_true (unaccepted.symm.trans accepted)).elim
  | failed pending unaccepted error =>
    obtain ⟨fresh, unanswered, -⟩ | ⟨reply, after, -, -, result, agreed, -⟩ :=
      phase.pending_cases pending
    · exact fail unanswered (by simp [Unanswered]) rfl rfl rfl error rfl
        (fun observed => (Bool.false_ne_true observed).elim)
    · have accepted := rebootOf_accepted.mpr agreed
      rw [← result] at accepted
      exact (Bool.false_ne_true (unaccepted.symm.trans accepted)).elim
  | accepted pending unaccepted out answer =>
    rename_i reply
    obtain ⟨fresh, unanswered, sent⟩ | ⟨_, _, none, -⟩ := phase.pending_cases pending
    · have answered : Answered c.rebootMode (w ++ [.rebootAnswered c.rebootId reply]) reply [] :=
        ⟨⟨w, c.rebootId, rfl, sent out, unanswered⟩, List.forall_mem_nil _⟩
      exact .accepted pending (phase.undone pending) rfl answered rfl (rebootOf_accepted.mp answer)
        rfl
    · exact (out none).elim
  | refused pending unaccepted out answer =>
    rename_i reply
    obtain ⟨fresh, unanswered, sent⟩ | ⟨_, _, none, -⟩ := phase.pending_cases pending
    · have answered : Answered c.rebootMode (w ++ [.rebootAnswered c.rebootId reply]) reply [] :=
        ⟨⟨w, c.rebootId, rfl, sent out, unanswered⟩, List.forall_mem_nil _⟩
      refine .settled rfl rfl rfl answered (settled_of_refused answer).symm ?_
      intro agreed
      exact (Bool.false_ne_true (answer.symm.trans (rebootOf_accepted.mpr agreed))).elim
    · exact (out none).elim

/-- The peer is lost, or the endpoint closed. -/
theorem lost (phase : RebootPhase mode w v) (departed : Bool) :
    RebootPhase mode (w ++ [if departed then .departure else .localClose]) (v.lost departed) := by
  have quiet : Unanswered [if departed then Effect.departure else .localClose] := by
    apply unanswered_single
    cases departed <;> rfl
  by_cases pending : v.pending = true
  · obtain ⟨fresh, unanswered, -⟩ | ⟨reply, after, -, answered, result, agreed, waits⟩ :=
      phase.pending_cases pending
    · apply fail unanswered quiet
      · simp [RebootView.lost, pending]
      · simp [RebootView.lost, pending]
      · simp [RebootView.lost, pending]
      · simp [RebootView.lost, pending, fresh]
      · simp [RebootView.lost, pending, fresh]
      · intro observed
        have left : departed = true := by simpa [RebootView.lost, pending] using observed
        simp [left]
    · have accepted := rebootOf_accepted.mpr agreed
      have unseen := rebootOf_departure mode reply
      apply conclude answered agreed waits
      · cases departed <;> rfl
      · cases departed <;> rfl
      · simp [RebootView.lost, pending]
      · simp [RebootView.lost, pending]
      · simp [RebootView.lost, pending]
      · cases departed <;>
          simp [RebootView.lost, pending, result, concluded, accepted, unseen]
  · obtain ⟨same, none⟩ := phase.later (by simpa using pending) quiet
    have kept : v.lost departed = v := by
      unfold RebootView.lost
      rw [if_neg pending, ← none]
    rw [kept]
    exact same

end RebootPhase

/-! ### The result -/

theorem Answered.unique {mode : FirmwareRebootMode} {w before after after' : List Effect}
    {id : Nat} {reply reply' : RpcReply FirmwareRebootMode} (answered : Answered mode w reply after)
    (again : w = before ++ .rebootAnswered id reply' :: after') :
    reply' = reply ∧ after' = after := by
  obtain ⟨⟨first, number, split, -, unanswered⟩, once⟩ := answered
  rw [again] at split
  obtain ⟨gap, rfl, rest⟩ | ⟨gap, rfl, rest⟩ := List.append_eq_append_iff.mp split
  · cases gap with
    | nil =>
      simp only [List.nil_append, List.cons.injEq, Effect.rebootAnswered.injEq] at rest
      exact ⟨rest.1.2, rest.2⟩
    | cons e gap =>
      obtain ⟨rfl, -⟩ := List.cons.inj rest
      exact (Bool.false_ne_true (unanswered (.rebootAnswered id reply') (by simp)).symm).elim
  · cases gap with
    | nil =>
      simp only [List.nil_append, List.cons.injEq, Effect.rebootAnswered.injEq] at rest
      exact ⟨rest.1.2.symm, rest.2.symm⟩
    | cons e gap =>
      obtain ⟨rfl, rfl⟩ := List.cons.inj rest
      exact (Bool.false_ne_true (once (.rebootAnswered id reply') (by simp)).symm).elim

/-- The contract of `reboot`, for a call that was admitted with `mode`, saw `w` and returned
`r`. Success takes the agreement of the device to this call's own request and a later
departure. After an agreement the first of departure, local close and deadline decides; the
caller's own deadline is the one that leaves no trace. A rejection is final. -/
structure RebootContract (mode : FirmwareRebootMode) (w : List Effect)
    (r : FirmwareRebootResult) : Prop where
  success : r.error = .none → r.requestAccepted = true ∧ r.departureObserved = true ∧
    ∃ before between after id reply,
      w = before ++ .rebootSent id mode :: between ++ .rebootAnswered id reply :: after ∧
      Agreed mode reply ∧ .departure ∈ after
  departed : r.departureObserved = true → .departure ∈ w
  left : ∀ before id reply after, w = before ++ .rebootAnswered id reply :: after →
    Agreed mode reply → after.find? Effect.endsReboot = some .departure → r.error = .none
  closed : ∀ before id reply after, w = before ++ .rebootAnswered id reply :: after →
    Agreed mode reply → after.find? Effect.endsReboot = some .localClose →
    r.error = .transportError ∧ r.departureObserved = false
  overdue : ∀ before id reply after, w = before ++ .rebootAnswered id reply :: after →
    Agreed mode reply → (after.find? Effect.endsReboot = none ∨
      after.find? Effect.endsReboot = some .rebootExpired) →
    r.error = .timeout ∧ r.requestAccepted = true
  rejected : ∀ before id reply after, w = before ++ .rebootAnswered id reply :: after →
    reply.timedOut = false → reply.applicationStatus ≠ 0 →
    r.error = .deviceRejected ∧ r.deviceStatus = reply.applicationStatus ∧
      r.departureObserved = false

theorem RebootContract.of_unanswered {mode : FirmwareRebootMode} {w : List Effect}
    {r : FirmwareRebootResult} (unanswered : Unanswered w) (error : r.error ≠ .none)
    (departed : r.departureObserved = true → .departure ∈ w) : RebootContract mode w r := by
  have never {before id reply after} (split : w = before ++ .rebootAnswered id reply :: after) :
      False := by
    have answers := unanswered (.rebootAnswered id reply) (by simp [split])
    exact Bool.false_ne_true answers.symm
  exact {
    success := fun none => (error none).elim
    departed
    left := fun _ _ _ _ split => (never split).elim
    closed := fun _ _ _ _ split => (never split).elim
    overdue := fun _ _ _ _ split => (never split).elim
    rejected := fun _ _ _ _ split => (never split).elim }

/-- Departures are what makes an accepted request succeed. -/
theorem concluded_none {r : FirmwareRebootResult} {ending : Option Effect}
    (none : (concluded r ending).error = .none) : ending = some .departure := by
  unfold concluded at none
  split at none
  · rfl
  · cases none
  · cases none

theorem RebootContract.of_settled {mode : FirmwareRebootMode} {w after : List Effect}
    {reply : RpcReply FirmwareRebootMode} (answered : Answered mode w reply after) :
    RebootContract mode w (settled mode reply after) := by
  have here {id reply' before after'} (split : w = before ++ .rebootAnswered id reply' :: after') :=
    answered.unique split
  have unseen := rebootOf_departure mode reply
  have accepts : Agreed mode reply → (settled mode reply after).requestAccepted = true := by
    intro agreed
    rw [settled_of_agreed agreed]
    unfold concluded
    split <;> exact rebootOf_accepted.mpr agreed
  have departs : (settled mode reply after).departureObserved = true →
      Agreed mode reply ∧ after.find? Effect.endsReboot = some .departure := by
    intro observed
    by_cases agreed : Agreed mode reply
    · rw [settled_of_agreed agreed] at observed
      refine ⟨agreed, ?_⟩
      unfold concluded at observed
      split at observed
      · assumption
      · exact (Bool.false_ne_true (unseen.symm.trans observed)).elim
      · exact (Bool.false_ne_true (unseen.symm.trans observed)).elim
    · rw [settled_of_refused (by simpa using mt rebootOf_accepted.mp agreed), unseen] at observed
      exact (Bool.false_ne_true observed).elim
  have found : after.find? Effect.endsReboot = some .departure → .departure ∈ after :=
    List.mem_of_find?_eq_some
  obtain ⟨⟨before, id, split, sent, -⟩, -⟩ := answered
  constructor
  · intro none
    have agreed : Agreed mode reply := by
      by_contra refused
      have plain : (rebootOf mode reply).requestAccepted = false := by
        simpa using mt rebootOf_accepted.mp refused
      rw [settled_of_refused plain] at none
      exact rebootOf_refused plain none
    have ending : after.find? Effect.endsReboot = some .departure := by
      rw [settled_of_agreed agreed] at none
      exact concluded_none none
    refine ⟨accepts agreed, ?_, ?_⟩
    · rw [settled_of_agreed agreed, ending]
      rfl
    · obtain ⟨first, between, rfl⟩ := List.append_of_mem sent
      exact ⟨first, between, after, id, reply, by simpa using split, agreed, found ending⟩
  · intro observed
    rw [split]
    simp [found (departs observed).2]
  · intro _ _ reply' after' split' agreed ending
    obtain ⟨rfl, rfl⟩ := here split'
    rw [settled_of_agreed agreed, ending]
    rfl
  · intro _ _ reply' after' split' agreed ending
    obtain ⟨rfl, rfl⟩ := here split'
    rw [settled_of_agreed agreed, ending]
    exact ⟨rfl, unseen⟩
  · intro _ _ reply' after' split' agreed ending
    obtain ⟨rfl, rfl⟩ := here split'
    refine ⟨?_, accepts agreed⟩
    rw [settled_of_agreed agreed]
    rcases ending with ending | ending <;> rw [ending] <;> rfl
  · intro _ _ reply' after' split' live status
    obtain ⟨rfl, rfl⟩ := here split'
    have refused : (rebootOf mode reply').requestAccepted = false := by
      by_contra accepted
      exact status (rebootOf_accepted.mp (by simpa using accepted)).2.1
    rw [settled_of_refused refused]
    refine ⟨?_, ?_, unseen⟩ <;> simp [rebootOf, live, status]

end Florid.Upgrade
