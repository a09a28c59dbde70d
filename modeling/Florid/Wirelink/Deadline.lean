import Mathlib.Order.Bounds.Defs
import Florid.Wirelink.LeaseExpiry

/-! The deadline hint of the endpoint: how long its owner may sleep before a pass has something
to do again. -/
namespace Florid.Wirelink
open Transition

namespace Endpoint

/-- The loop of `s_applicationDeadline` over the queued operations. -/
def queueDeadline (e : Endpoint) (now : TimeMs) : List SlotIndex → Nat → Nat
  | [], nearest => nearest
  | i :: rest, nearest =>
    let slot := e.operations i
    e.queueDeadline now rest <|
      if slot.used && slot.state == .queued then
        min nearest (queueRemaining now slot.submittedAtMs slot.timeoutMs)
      else nearest

/-- `s_applicationDeadline`, with `WL_RPC_NO_DEADLINE_MS` of the link library. -/
def applicationDeadline (noDeadline : Nat) (e : Endpoint) (now : TimeMs) : Nat :=
  let nearest := e.queueDeadline now (List.finRange 8) noDeadline
  match e.lease.state with
  | .held => min nearest (msUntil now e.leaseRenewAtMs)
  | .renewQueued | .renewing => min nearest (msUntil now e.leaseExpireAtMs)
  | _ => nearest

/-- A pass at a moment has an operation to expire, a lease to renew or a lease to expire. -/
def Due (e : Endpoint) (t : TimeMs) : Prop :=
  (∃ i, e.queueExpired t i = true) ∨ e.renewalCheck t ≠ none ∨ e.expireLease t ≠ e

/-- No queued operation was stamped after a moment. -/
def Stamped (e : Endpoint) (now : TimeMs) : Prop :=
  ∀ i, (e.operations i).used = true → (e.operations i).state = .queued →
    0 ≤ (now - (e.operations i).submittedAtMs).toInt

end Endpoint

/-! ### Timeouts and tokens -/

/-- Timeouts that the signed difference of two clock readings can tell apart. -/
def Submission.Bounded (s : Submission) : Prop :=
  s.timeoutMs < maximumRelativeTimeout ∧ s.request.requestedLeaseTimeoutMs < maximumRelativeTimeout

theorem validTimeout_lt {t : Nat} (valid : validTimeout t = true) : t < maximumRelativeTimeout := by
  simp only [validTimeout, Bool.and_eq_true, decide_eq_true_eq] at valid
  exact valid.2

theorem checked_eq_ok {valid : Bool} {s r : Submission} (ready : checked valid s = .ok r) :
    valid = true ∧ s = r := by
  cases valid
  · cases ready
  · exact ⟨rfl, Except.ok.inj ready⟩

/-- What a call submits has the timeouts that it checked. -/
theorem Call.prepare_bounded {c : Call} {e : Endpoint} {s : Submission}
    (ready : c.prepare e = .ok s) : s.Bounded := by
  have zero : (0 : Nat) < maximumRelativeTimeout := by decide
  cases c with
  | acquireControlLease requested timeout =>
    simp only [Call.prepare] at ready
    split at ready
    · rename_i valid
      simp only [Bool.and_eq_true] at valid
      cases checked : e.acquireCheck requested with
      | error status => simp [checked, Except.map] at ready
      | ok request =>
        simp only [checked, Except.map, Except.ok.injEq] at ready
        subst ready
        have kept : request.requestedLeaseTimeoutMs = requested := by
          unfold Endpoint.acquireCheck at checked
          split at checked <;> cases checked <;> rfl
        exact ⟨validTimeout_lt valid.2, kept ▸ validTimeout_lt valid.1⟩
    · cases ready
  | releaseControlLease timeout =>
    simp only [Call.prepare] at ready
    split at ready
    · rename_i valid
      cases checked : e.releaseCheck with
      | error status => simp [checked, Except.map] at ready
      | ok request =>
        simp only [checked, Except.map, Except.ok.injEq] at ready
        subst ready
        have kept : request.requestedLeaseTimeoutMs = 0 := by
          unfold Endpoint.releaseCheck at checked
          split at checked <;> cases checked
          rfl
        exact ⟨validTimeout_lt valid, kept ▸ zero⟩
    · cases ready
  | getDeviceInfo | getDeviceSettings | setArmControlMode | setGripperControlMode | setArmMode | home
  | clearFaults | emergencyStop =>
    obtain ⟨valid, rfl⟩ := checked_eq_ok ready
    exact ⟨validTimeout_lt valid, zero⟩
  | setDeviceInfo | setDeviceSettings =>
    obtain ⟨valid, rfl⟩ := checked_eq_ok ready
    exact ⟨validTimeout_lt (Bool.and_eq_true_iff.mp valid).1, zero⟩
  | _ =>
    obtain ⟨valid, rfl⟩ := checked_eq_ok ready
    exact ⟨validTimeout_lt (Bool.and_eq_true_iff.mp valid).2, zero⟩

/-- Every timeout in a world is bounded, and a held lease has a token. -/
structure Timely (w : World) : Prop where
  callers : ∀ t s, (w.callers t).submission = some s → s.Bounded
  operations : ∀ i, (w.endpoint.operations i).timeoutMs < maximumRelativeTimeout ∧
    (w.endpoint.operations i).request.requestedLeaseTimeoutMs < maximumRelativeTimeout
  lease : w.endpoint.leaseRequestedTimeoutMs < maximumRelativeTimeout
  owner : ∀ now request, w.owner = .renewalGate now request ∨ w.owner = .renewalSubmit now request →
    request.requestedLeaseTimeoutMs < maximumRelativeTimeout
  held : w.endpoint.lease.state = .held → w.endpoint.lease.token ≠ 0

namespace Timely
variable {w next : World} {a : Action} {event : Event}

theorem submission (timely : Timely w) (moved : Moves w a next event) {internal : Bool}
    {s : Submission} {result : FciSubmitResult} (emitted : event = .submitted internal s result)
    (taken : result.status = .ok) : s.Bounded := by
  cases moved <;> cases emitted
  case blocked => contradiction
  case rejected failed _ => exact absurd taken failed
  case renewalRejected failed => exact absurd taken failed
  case queued _ _ _ pc => exact timely.callers _ _ (by rw [pc, CallerPc.submission])
  case renewalQueued pc _ _ => exact ⟨timely.owner _ _ (.inr pc), timely.owner _ _ (.inr pc)⟩

theorem operations_step {es : Trace} (timely : Timely w) (run : Run machine es w)
    (moved : Moves w a next event) (i : SlotIndex) :
    (next.endpoint.operations i).timeoutMs < maximumRelativeTimeout ∧
      (next.endpoint.operations i).request.requestedLeaseTimeoutMs < maximumRelativeTimeout := by
  have before := timely.operations i
  have change := (SlotsInv.of_run run).slot_change moved i
  generalize next.endpoint.operations i = slot at change ⊢
  cases change with
  | submitted free emitted => exact timely.submission moved emitted rfl
  | kept | restated | finalized | cancelled => exact before
  | dropped | taken => exact ⟨by decide, by decide⟩

theorem lease_step (timely : Timely w) (moved : Moves w a next event) :
    next.endpoint.leaseRequestedTimeoutMs < maximumRelativeTimeout := by
  have before := timely.lease
  cases moved with
  | expireLease =>
    simp only [Endpoint.expireLease]
    split <;> exact before
  | startCommit =>
    rename_i started _
    cases started <;> exact before
  | finalize =>
    rename_i i f resume _
    have requested := (timely.operations i).2
    simp only [Endpoint.finalize, Endpoint.finalizeLease]
    split
    · exact before
    · split
      · split
        · exact requested
        · exact before
      · split <;> exact before
      · exact before
  | _ => exact before

theorem owner_step (timely : Timely w) (moved : Moves w a next event) (now : TimeMs)
    (request : OperationRequest)
    (there : next.owner = .renewalGate now request ∨ next.owner = .renewalSubmit now request) :
    request.requestedLeaseTimeoutMs < maximumRelativeTimeout := by
  have before := timely.owner now request
  cases moved with
  | due pc found =>
    rcases there with there | there <;> cases there
    unfold Endpoint.renewalCheck at found
    split at found <;> cases found
    exact timely.lease
  | renewalPassed pc =>
    rcases there with there | there <;> cases there
    exact before (.inl pc)
  | readGate =>
    dsimp only at there
    split at there <;> rcases there with there | there <;> cases there
  | startCommit =>
    dsimp only at there
    split at there <;> rcases there with there | there <;> cases there
  | finalize =>
    rename_i resume _
    cases resume <;> rcases there with there | there <;> cases there
  | refused | called | blocked | passed | rejected | queued | tokenBusy | tokenGate | tokenRead
  | inspected | waited | tookNothing | took | upgrade | quiesce => exact before there
  | _ => rcases there with there | there <;> cases there

theorem held_step (timely : Timely w) (granting : w.GrantOk) (moved : Moves w a next event)
    (holds : next.endpoint.lease.state = .held) : next.endpoint.lease.token ≠ 0 := by
  have change := moved.lease_change
  generalize next.endpoint.lease = lease at change holds ⊢
  cases change with
  | kept => exact timely.held holds
  | submitted =>
    rename_i s _ _ _ _
    rw [Endpoint.leaseAfterSubmit_token]
    refine timely.held ?_
    cases kind : s.kind <;> simp_all [Endpoint.leaseAfterSubmit]
    all_goals split at holds <;> cases holds
  | renewal => simp [Endpoint.leaseAfterSubmit] at holds
  | selected =>
    rw [Endpoint.leaseAfterStart_token]
    refine timely.held ?_
    unfold Endpoint.leaseAfterStart at holds
    split at holds
    · dsimp only at holds
      split at holds <;> cases holds
    · cases holds
    · exact holds
  | expired =>
    unfold Endpoint.expireLease at holds ⊢
    split at holds
    · cases holds
    · rename_i kept
      rw [if_neg kept]
      exact timely.held holds
  | dropped | stopped => cases holds
  | finalized pc =>
    rcases Endpoint.finalizeLease_cases w.endpoint _ _ with ⟨grants, -, -, token⟩ | ⟨unusable, -⟩ | ⟨-, -, same⟩
    · rw [token]
      exact granting _ _ _ pc grants
    · simp [FciControlLeaseSnapshot.usable, Endpoint.leaseUsable, holds] at unusable
    · rw [same] at holds ⊢
      exact timely.held holds

theorem of_run {es : Trace} (run : Run machine es w) : Timely w := by
  refine run.history (P := fun _ w => Timely w) ?_ ?_
  · constructor
    · intro t s pending
      cases pending
    · exact fun _ => ⟨(by decide : (0 : Nat) < maximumRelativeTimeout),
        (by decide : (0 : Nat) < maximumRelativeTimeout)⟩
    · exact (by decide : (0 : Nat) < maximumRelativeTimeout)
    · rintro now request (there | there) <;> cases there
    · intro holds
      cases holds
  · intro es w a event next before timely stepped
    have moved := step_moves stepped
    constructor
    · intro t s pending
      rcases moved.submission_cases pending with earlier | ⟨c, -, ready⟩
      · exact timely.callers t s earlier
      · exact Call.prepare_bounded ready
    · exact timely.operations_step before moved
    · exact timely.lease_step moved
    · exact timely.owner_step moved
    · exact timely.held_step (.of_run before) moved

end Timely

/-! ### What is due, and when -/

theorem toInt_add {x : BitVec 32} {d : Nat} (before : x.toInt + d < 2 ^ 31) :
    (x + BitVec.ofNat 32 d).toInt = x.toInt + d := by
  have low := x.le_toInt
  have high := x.toInt_lt
  rw [BitVec.toInt_add, BitVec.toInt_ofNat', Int.add_bmod_bmod]
  exact Int.bmod_eq_of_le (by omega) (by omega)

theorem toInt_sub {x : BitVec 32} {d : Nat} (after : -2 ^ 31 ≤ x.toInt - d) :
    (x - BitVec.ofNat 32 d).toInt = x.toInt - d := by
  have high := x.toInt_lt
  rw [BitVec.toInt_sub, BitVec.toInt_ofNat', Int.sub_bmod_bmod]
  exact Int.bmod_eq_of_le (by omega) (by omega)

theorem queueRemaining_early {now submitted : TimeMs} {timeout d : Nat}
    (bounded : timeout < maximumRelativeTimeout) (early : d < queueRemaining now submitted timeout) :
    queueRemaining (now + BitVec.ofNat 32 d) submitted timeout ≠ 0 := by
  have later : now + BitVec.ofNat 32 d - submitted = now - submitted + BitVec.ofNat 32 d := by
    rw [BitVec.sub_eq_add_neg, BitVec.sub_eq_add_neg]
    ac_rfl
  simp only [maximumRelativeTimeout] at bounded
  unfold queueRemaining at early ⊢
  rw [later]
  dsimp only at early ⊢
  split at early
  · rw [toInt_add (by omega)]
    split <;> omega
  · rw [toInt_add (by omega)]
    split <;> omega

theorem queueRemaining_reached {now submitted : TimeMs} {timeout : Nat}
    (bounded : timeout < maximumRelativeTimeout) (stamped : 0 ≤ (now - submitted).toInt) :
    queueRemaining (now + BitVec.ofNat 32 (queueRemaining now submitted timeout)) submitted
      timeout = 0 := by
  have later (d : Nat) :
      now + BitVec.ofNat 32 d - submitted = now - submitted + BitVec.ofNat 32 d := by
    rw [BitVec.sub_eq_add_neg, BitVec.sub_eq_add_neg]
    ac_rfl
  have small := (now - submitted).toInt_lt
  simp only [maximumRelativeTimeout] at bounded
  unfold queueRemaining
  dsimp only
  rw [later]
  split
  · rw [toInt_add (by omega)]
    split <;> omega
  · rw [toInt_add (by omega)]
    split <;> omega

theorem until_later (now target : TimeMs) (d : Nat) :
    target - (now + BitVec.ofNat 32 d) = target - now - BitVec.ofNat 32 d := by
  rw [BitVec.sub_eq_add_neg, BitVec.sub_eq_add_neg, BitVec.sub_eq_add_neg, BitVec.neg_add,
    BitVec.sub_eq_add_neg]
  ac_rfl

theorem msUntil_early {now target : TimeMs} {d : Nat} (early : d < msUntil now target) :
    msUntil (now + BitVec.ofNat 32 d) target ≠ 0 := by
  unfold msUntil at early ⊢
  rw [until_later]
  dsimp only at early ⊢
  split at early
  · contradiction
  · rw [toInt_sub (by omega)]
    split <;> omega

theorem msUntil_reached (now target : TimeMs) :
    msUntil (now + BitVec.ofNat 32 (msUntil now target)) target = 0 := by
  have low := (target - now).le_toInt
  unfold msUntil
  rw [until_later]
  dsimp only
  split
  · rw [toInt_sub (by omega)]
    split <;> omega
  · rw [toInt_sub (by omega)]
    split <;> omega

theorem msUntil_lt (now target : TimeMs) : msUntil now target < 2 ^ 31 := by
  have high := (target - now).toInt_lt
  unfold msUntil
  dsimp only
  split <;> omega

namespace Endpoint
variable {e : Endpoint}

/-- What the owner waits for, as the time that is left until it is due. -/
inductive Awaits (e : Endpoint) : (TimeMs → Nat) → Prop
  | operation (i : SlotIndex) (used : (e.operations i).used = true)
      (queued : (e.operations i).state = .queued) :
      Awaits e fun now => queueRemaining now (e.operations i).submittedAtMs (e.operations i).timeoutMs
  | renewal (held : e.lease.state = .held) : Awaits e fun now => msUntil now e.leaseRenewAtMs
  | expiry (renewing : e.lease.state = .renewQueued ∨ e.lease.state = .renewing) :
      Awaits e fun now => msUntil now e.leaseExpireAtMs

/-- Something is due when nothing is left of its time. -/
theorem due_iff (backed : e.lease.state = .held → e.lease.token ≠ 0) (t : TimeMs) :
    e.Due t ↔ ∃ left, Awaits e left ∧ left t = 0 := by
  constructor
  · rintro (⟨i, expired⟩ | renewal | expiry)
    · simp only [queueExpired, Bool.and_eq_true, beq_iff_eq] at expired
      exact ⟨_, .operation i expired.1.1 expired.1.2, expired.2⟩
    · unfold renewalCheck at renewal
      split at renewal
      · contradiction
      · rename_i ready
        simp only [Bool.or_eq_true, bne_iff_ne, beq_iff_eq, not_or, not_not] at ready
        exact ⟨_, .renewal ready.1.1, ready.2⟩
    · unfold expireLease at expiry
      split at expiry
      · rename_i ended
        simp only [Bool.and_eq_true, Bool.or_eq_true, beq_iff_eq] at ended
        exact ⟨_, .expiry ended.1, ended.2⟩
      · contradiction
  · rintro ⟨left, awaits, none⟩
    cases awaits with
    | operation i used queued =>
      exact .inl ⟨i, by simp only [queueExpired, used, queued, none, Bool.and_self, beq_self_eq_true]⟩
    | renewal held =>
      refine .inr (.inl ?_)
      simp [renewalCheck, held, backed held, none]
    | expiry renewing =>
      refine .inr (.inr fun same => ?_)
      have state := congrArg (fun e => e.lease.state) same
      unfold expireLease at state
      rcases renewing with renewing | renewing <;> simp [renewing, none] at state

theorem queueDeadline_le (now : TimeMs) (indices : List SlotIndex) (nearest : Nat) :
    e.queueDeadline now indices nearest ≤ nearest := by
  induction indices generalizing nearest with
  | nil => exact Nat.le_refl _
  | cons i rest ih =>
    refine Nat.le_trans (ih _) ?_
    split
    · apply Nat.min_le_left
    · apply Nat.le_refl

theorem queueDeadline_le_remaining (now : TimeMs) {i : SlotIndex}
    (used : (e.operations i).used = true) (queued : (e.operations i).state = .queued)
    {indices : List SlotIndex} (member : i ∈ indices) (nearest : Nat) :
    e.queueDeadline now indices nearest ≤
      queueRemaining now (e.operations i).submittedAtMs (e.operations i).timeoutMs := by
  induction indices generalizing nearest with
  | nil => cases member
  | cons j rest ih =>
    rcases List.mem_cons.mp member with rfl | later
    · refine Nat.le_trans (queueDeadline_le now rest _) ?_
      simp only [used, queued, Bool.true_and, beq_self_eq_true, if_true]
      apply Nat.min_le_right
    · exact ih later _

theorem queueDeadline_cases (now : TimeMs) (indices : List SlotIndex) (nearest : Nat) :
    e.queueDeadline now indices nearest = nearest ∨
      ∃ left, Awaits e left ∧ e.queueDeadline now indices nearest = left now := by
  induction indices generalizing nearest with
  | nil => exact .inl rfl
  | cons i rest ih =>
    rcases ih (if (e.operations i).used && (e.operations i).state == .queued then
      min nearest (queueRemaining now (e.operations i).submittedAtMs (e.operations i).timeoutMs)
        else nearest) with same | later
    · rw [queueDeadline, same]
      split
      · rename_i waiting
        simp only [Bool.and_eq_true, beq_iff_eq] at waiting
        rcases Nat.le_total nearest (queueRemaining now (e.operations i).submittedAtMs
          (e.operations i).timeoutMs) with sooner | sooner
        · exact .inl (Nat.min_eq_left sooner)
        · exact .inr ⟨_, .operation i waiting.1 waiting.2, Nat.min_eq_right sooner⟩
      · exact .inl rfl
    · exact .inr later

/-- The hint is no later than anything that is awaited. -/
theorem applicationDeadline_le (noDeadline : Nat) (now : TimeMs) {left : TimeMs → Nat}
    (awaits : Awaits e left) : e.applicationDeadline noDeadline now ≤ left now := by
  cases awaits with
  | operation i used queued =>
    have below := queueDeadline_le_remaining now used queued (List.mem_finRange i) noDeadline
    simp only [applicationDeadline]
    split
    · exact Nat.le_trans (Nat.min_le_left _ _) below
    · exact Nat.le_trans (Nat.min_le_left _ _) below
    · exact Nat.le_trans (Nat.min_le_left _ _) below
    · exact below
  | renewal held =>
    simp only [applicationDeadline, held]
    apply Nat.min_le_right
  | expiry renewing =>
    rcases renewing with renewing | renewing
    all_goals
      simp only [applicationDeadline, renewing]
      apply Nat.min_le_right

theorem applicationDeadline_cases (noDeadline : Nat) (now : TimeMs) :
    e.applicationDeadline noDeadline now = noDeadline ∨
      ∃ left, Awaits e left ∧ e.applicationDeadline noDeadline now = left now := by
  have queue := queueDeadline_cases (e := e) now (List.finRange 8) noDeadline
  have sooner {left : TimeMs → Nat} (awaits : Awaits e left) :
      min (e.queueDeadline now (List.finRange 8) noDeadline) (left now) = noDeadline ∨
        ∃ left', Awaits e left' ∧
          min (e.queueDeadline now (List.finRange 8) noDeadline) (left now) = left' now := by
    rcases Nat.le_total (e.queueDeadline now (List.finRange 8) noDeadline) (left now) with le | le
    · rwa [Nat.min_eq_left le]
    · exact .inr ⟨left, awaits, Nat.min_eq_right le⟩
  unfold applicationDeadline
  dsimp only
  split
  · rename_i held
    exact sooner (.renewal held)
  · rename_i renewing
    exact sooner (.expiry (.inl renewing))
  · rename_i renewing
    exact sooner (.expiry (.inr renewing))
  · exact queue

variable {left : TimeMs → Nat} {now : TimeMs}

theorem Awaits.early (bounded : ∀ i, (e.operations i).timeoutMs < maximumRelativeTimeout)
    (awaits : Awaits e left) {d : Nat} (early : d < left now) :
    left (now + BitVec.ofNat 32 d) ≠ 0 := by
  cases awaits with
  | operation i => exact queueRemaining_early (bounded i) early
  | renewal | expiry => exact msUntil_early early

theorem Awaits.reached (bounded : ∀ i, (e.operations i).timeoutMs < maximumRelativeTimeout)
    (stamped : e.Stamped now) (awaits : Awaits e left) :
    left (now + BitVec.ofNat 32 (left now)) = 0 := by
  cases awaits with
  | operation i used queued => exact queueRemaining_reached (bounded i) (stamped i used queued)
  | renewal | expiry => exact msUntil_reached _ _

theorem Awaits.lt (bounded : ∀ i, (e.operations i).timeoutMs < maximumRelativeTimeout)
    (awaits : Awaits e left) : left now < 2 ^ 31 := by
  cases awaits with
  | operation i =>
    have timeout := bounded i
    simp only [maximumRelativeTimeout] at timeout
    simp only [queueRemaining]
    split <;> omega
  | renewal | expiry => exact msUntil_lt _ _

end Endpoint

theorem Timely.timeouts {w : World} (timely : Timely w) (i : SlotIndex) :
    (w.endpoint.operations i).timeoutMs < maximumRelativeTimeout :=
  (timely.operations i).1

/-- Before the hint is over nothing is due. -/
theorem not_due_early {w : World} (timely : Timely w) {noDeadline d : Nat} {now : TimeMs}
    (early : d < w.endpoint.applicationDeadline noDeadline now) :
    ¬w.endpoint.Due (now + BitVec.ofNat 32 d) := by
  rw [Endpoint.due_iff timely.held]
  rintro ⟨left, awaits, none⟩
  have later := Endpoint.applicationDeadline_le noDeadline now awaits
  exact awaits.early timely.timeouts (by omega) none

section Pass
variable {w : World} {t clock : TimeMs} {st : WlErr}

theorem follow_turn {next : World} {event : Event} (stepped : w.ownerStep clock st = some (next, event))
    (n : Nat) : follow machine (ownerTurns (n + 1) clock st) w =
      follow machine (ownerTurns n clock st) next := by
  have there : machine.step w (.owner clock st) = some (next, event) := stepped
  simp only [ownerTurns, List.replicate_succ, follow, there]

/-- The expiry loop goes over operations of which none has expired. -/
theorem follow_expiry (fresh : ∀ i, w.endpoint.queueExpired t i = false) (k : Nat) {n : Nat}
    (whole : n + k = 8) (rest : Nat) :
    follow machine (ownerTurns (k + rest) clock st) { w with owner := .expiry t n } =
      follow machine (ownerTurns rest clock st) { w with owner := .expiry t 8 } := by
  induction k generalizing n with
  | zero => rw [Nat.zero_add, show n = 8 by omega]
  | succ k ih =>
    have inside : n < 8 := by omega
    have turn : ({ w with owner := .expiry t n } : World).ownerStep clock st =
        some ({ w with owner := .expiry t (n + 1) }, .quiet) := by
      simp only [World.ownerStep, inside, dif_pos, fresh, Bool.false_eq_true, if_false]
    rw [show k + 1 + rest = k + rest + 1 by omega, follow_turn turn]
    exact ih (by omega)

/-- A pass with nothing due and nothing to start leaves everything as it was. -/
theorem follow_pass (idle : w.owner = .idle) (running : w.closed = false)
    (plain : w.upgradeActive = false) (early : ¬w.endpoint.Due t)
    (nothing : w.endpoint.startNext = none) :
    follow machine (.pass t :: ownerTurns 12 clock st) w = some w := by
  obtain ⟨fresh, unrenewed, unexpired⟩ := not_or.mp early |>.imp_right not_or.mp
  have fresh (i : SlotIndex) : w.endpoint.queueExpired t i = false :=
    Bool.eq_false_of_not_eq_true fun expired => fresh ⟨i, expired⟩
  have begun : machine.step w (.pass t) = some ({ w with owner := .expiry t 0 }, .quiet) := by
    simp [machine, World.step, idle, running]
  have expiry : ({ w with owner := .expiry t 8 } : World).ownerStep clock st =
      some ({ w with owner := .gate t }, .quiet) := by
    simp [World.ownerStep, not_not.mp unexpired]
  have gate : ({ w with owner := .gate t } : World).ownerStep clock st =
      some ({ w with owner := .renewal t }, .quiet) := by
    simp [World.ownerStep, plain]
  have renewal : ({ w with owner := .renewal t } : World).ownerStep clock st =
      some ({ w with owner := .startNext t }, .quiet) := by
    simp [World.ownerStep, not_not.mp unrenewed]
  have start : ({ w with owner := .startNext t } : World).ownerStep clock st = some (w, .quiet) := by
    simp only [World.ownerStep, nothing]
    rw [← idle]
  calc follow machine (.pass t :: ownerTurns 12 clock st) w
      = follow machine (ownerTurns (8 + 4) clock st) { w with owner := .expiry t 0 } := by
        simp only [follow, begun]
    _ = follow machine (ownerTurns 4 clock st) { w with owner := .expiry t 8 } :=
        follow_expiry fresh 8 rfl 4
    _ = some w := by
        rw [follow_turn expiry, follow_turn gate, follow_turn renewal, follow_turn start]
        rfl

end Pass

/-- The owner that sleeps for as long as the hint says wakes at the first moment at which a pass
has something due, whatever the clock wraps to; without a deadline nothing ever is, until the
endpoint changes. -/
theorem applicationDeadline_isLeast {w : World} (reachable : Reachable machine w)
    {noDeadline : Nat} (beyond : 2 ^ 31 ≤ noDeadline) (now : TimeMs) :
    w.endpoint.applicationDeadline noDeadline now ∈
      lowerBounds {d : Nat | w.endpoint.Due (now + BitVec.ofNat 32 d)} ∧
    (w.endpoint.applicationDeadline noDeadline now = noDeadline → ∀ t, ¬w.endpoint.Due t) ∧
    (w.endpoint.applicationDeadline noDeadline now ≠ noDeadline → w.endpoint.Stamped now →
      IsLeast {d : Nat | w.endpoint.Due (now + BitVec.ofNat 32 d)}
        (w.endpoint.applicationDeadline noDeadline now)) := by
  obtain ⟨es, run⟩ := reachable
  have timely := Timely.of_run run
  have lower : w.endpoint.applicationDeadline noDeadline now ∈
      lowerBounds {d : Nat | w.endpoint.Due (now + BitVec.ofNat 32 d)} := by
    intro d due
    by_contra early
    exact not_due_early timely (Nat.lt_of_not_le early) due
  refine ⟨lower, ?_, ?_⟩
  · intro never t due
    obtain ⟨left, awaits, -⟩ := (Endpoint.due_iff timely.held t).mp due
    have below := Endpoint.applicationDeadline_le noDeadline now awaits
    have small := @Endpoint.Awaits.lt w.endpoint left now timely.timeouts awaits
    omega
  · intro some stamped
    refine ⟨?_, lower⟩
    rcases Endpoint.applicationDeadline_cases (e := w.endpoint) noDeadline now with
      never | ⟨left, awaits, hint⟩
    · exact absurd never some
    · rw [hint]
      exact (Endpoint.due_iff timely.held _).mpr ⟨left, awaits, awaits.reached timely.timeouts stamped⟩

/-- A pass before the hint is over, when no operation can start, goes through all its regions and
leaves the world as it was: the owner loses nothing by sleeping. -/
theorem pass_early {w : World} (reachable : Reachable machine w) {noDeadline d : Nat}
    {now : TimeMs} (early : d < w.endpoint.applicationDeadline noDeadline now)
    (idle : w.owner = .idle) (running : w.closed = false) (plain : w.upgradeActive = false)
    (nothing : w.endpoint.startNext = none) (clock : TimeMs) (st : WlErr) :
    follow machine (.pass (now + BitVec.ofNat 32 d) :: ownerTurns 12 clock st) w = some w := by
  obtain ⟨es, run⟩ := reachable
  exact follow_pass idle running plain (not_due_early (Timely.of_run run) early) nothing

theorem heldLease_runs : (exec machine heldLease [] machine.init).isSome = true := by
  decide +kernel

/-- The world with a lease to renew at 5. -/
def leaseHeld : World := ((exec machine heldLease [] machine.init).get heldLease_runs).2

theorem leaseHeld_reachable : Reachable machine leaseHeld := (exec_get heldLease_runs).reachable

theorem leaseHeld_deadline : leaseHeld.endpoint.applicationDeadline (2 ^ 32 - 1) 0 = 5 := by
  decide +kernel

theorem leaseHeld_isLeast :
    IsLeast {d : Nat | leaseHeld.endpoint.Due (0 + BitVec.ofNat 32 d)} 5 := by
  have least := applicationDeadline_isLeast leaseHeld_reachable
    (by decide : 2 ^ 31 ≤ 2 ^ 32 - 1) 0
  rw [leaseHeld_deadline] at least
  refine least.2.2 (by decide) ?_
  unfold Endpoint.Stamped
  decide +kernel

theorem leaseHeld_early :
    follow machine (.pass (0 + BitVec.ofNat 32 4) :: ownerTurns 12 0 .ok) leaseHeld = some leaseHeld :=
  @pass_early leaseHeld leaseHeld_reachable (2 ^ 32 - 1) 4 0 (by rw [leaseHeld_deadline]; decide)
    (by rfl) (by rfl) (by rfl) (by rfl) 0 .ok

end Florid.Wirelink
