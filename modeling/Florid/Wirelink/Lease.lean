import Florid.Wirelink.RequestIds

/-! The control lease over every run. One relation lists how the lease record can
change; the readers of the record are compared and its expiry followed through it. -/
namespace Florid.Wirelink
open Transition

/-- An acquire that the endpoint marks as a renewal. -/
def OperationSlot.renews (slot : OperationSlot) : Bool :=
  slot.kind == .acquireLease && (slot.internal || slot.request.leaseToken != 0)

/-- How the lease record changes in one move. -/
inductive LeaseChange (w : World) (a : Action) (event : Event) : FciControlLeaseSnapshot → Prop where
  | kept : LeaseChange w a event w.endpoint.lease
  | submitted {t clock s id} : a = .submit t clock → w.callers t = .enqueue s →
      event = .submitted false s { status := .ok, requestId := id } →
      LeaseChange w a event (Endpoint.leaseAfterSubmit w.endpoint.lease s.kind s.request false)
  | renewal {clock st now request} : a = .owner clock st → w.owner = .renewalSubmit now request →
      LeaseChange w a event (Endpoint.leaseAfterSubmit w.endpoint.lease .acquireLease request true)
  | selected {clock st now i} : a = .owner clock st → w.owner = .startNext now →
      w.endpoint.activeOperation = none → w.endpoint.findQueuedSlot = some i →
      LeaseChange w a event (Endpoint.leaseAfterStart w.endpoint.lease
        { w.endpoint.operations i with state := .linkPending })
  | expired {clock st now n} : a = .owner clock st → w.owner = .expiry now n → 8 ≤ n →
      LeaseChange w a event (w.endpoint.expireLease now).lease
  | dropped {clock st now} : a = .owner clock st → w.owner = .dropLease now →
      LeaseChange w a event {}
  | finalized {i f resume} : w.owner = .finalizing i f resume →
      event = .finalized (w.endpoint.operations i).requestId f →
      LeaseChange w a event (w.endpoint.finalizeLease (w.endpoint.operations i) f).lease
  | stopped : LeaseChange w a event { status := .cancelled }

theorem Moves.lease_change {w next : World} {a : Action} {event : Event}
    (moved : Moves w a next event) : LeaseChange w a event next.endpoint.lease := by
  cases moved with
  | queued pc => exact .submitted rfl pc rfl
  | renewalQueued pc => exact .renewal rfl pc
  | selected pc inactive found => exact .selected rfl pc inactive found
  | expireLease pc bound => exact .expired rfl pc bound
  | dropLease pc => exact .dropped rfl pc
  | finalize pc => exact .finalized pc rfl
  | quiesce => exact .stopped
  | startCommit =>
    rename_i started _
    cases started <;> exact .kept
  | refused | called | blocked | passed | rejected | tokenBusy | tokenGate | tokenRead | inspected
  | waited | tookNothing | took | pass | expiredInQueue | notExpired | readGate | notDue | due
  | renewalBlocked | renewalPassed | renewalRejected | nothingToStart | expiredAtStart | launch
  | startFailed | complete | upgrade => exact .kept

/-! ### The token behind a usable lease -/

/-- A lease in one of the three usable states. -/
def FciControlLeaseSnapshot.usable (l : FciControlLeaseSnapshot) : Bool :=
  Endpoint.leaseUsable l.state

namespace Endpoint

@[simp] theorem leaseAfterSubmit_token (l : FciControlLeaseSnapshot) (kind : RpcKind)
    (request : OperationRequest) (internal : Bool) :
    (leaseAfterSubmit l kind request internal).token = l.token := by
  cases kind <;> rfl

@[simp] theorem leaseAfterStart_token (l : FciControlLeaseSnapshot) (slot : OperationSlot) :
    (leaseAfterStart l slot).token = l.token := by
  unfold leaseAfterStart
  cases slot.kind <;> rfl

/-- Queuing an operation makes the lease usable only by marking a renewal. -/
theorem leaseAfterSubmit_usable {l : FciControlLeaseSnapshot} {kind : RpcKind}
    {request : OperationRequest} {internal : Bool}
    (usable : (leaseAfterSubmit l kind request internal).usable = true) :
    l.usable = true ∨ kind = .acquireLease ∧ (internal = true ∨ request.leaseToken ≠ 0) := by
  cases kind with
  | acquireLease =>
    refine .inr ⟨rfl, ?_⟩
    by_contra fresh
    simp_all [leaseAfterSubmit, FciControlLeaseSnapshot.usable, leaseUsable]
  | releaseLease =>
    simp [leaseAfterSubmit, FciControlLeaseSnapshot.usable, leaseUsable] at usable
  | _ => exact .inl usable

/-- Starting an operation makes the lease usable only by marking a renewal. -/
theorem leaseAfterStart_usable {l : FciControlLeaseSnapshot} {slot : OperationSlot}
    (usable : (leaseAfterStart l slot).usable = true) :
    l.usable = true ∨ slot.renews = true := by
  unfold leaseAfterStart at usable
  cases kind : slot.kind with
  | acquireLease =>
    right
    by_contra fresh
    simp_all [OperationSlot.renews, FciControlLeaseSnapshot.usable, leaseUsable]
  | releaseLease =>
    simp [kind, FciControlLeaseSnapshot.usable, leaseUsable] at usable
  | _ =>
    simp only [kind] at usable
    exact .inl usable

theorem expireLease_lease (e : Endpoint) (now : TimeMs) :
    (e.expireLease now).lease = e.lease ∨
      ((e.expireLease now).lease.usable = false ∧ (e.expireLease now).lease.token = 0 ∧
        msUntil now e.leaseExpireAtMs = 0) := by
  unfold expireLease
  split
  · rename_i due
    simp only [Bool.and_eq_true, beq_iff_eq] at due
    exact .inr ⟨rfl, rfl, due.2⟩
  · exact .inl rfl

/-- A completion that grants a lease. -/
def Finalization.grants (f : Finalization) : Bool :=
  f.kind == .acquireLease && f.status == .ok

/-- The lease after a completion: granted, cleared, or left as it was. -/
theorem finalizeLease_cases (e : Endpoint) (slot : OperationSlot) (f : Finalization) :
    (f.grants = true ∧ e.running = true ∧ (e.finalizeLease slot f).lease.state = .held ∧
      (e.finalizeLease slot f).lease.token = f.grantedToken) ∨
    ((e.finalizeLease slot f).lease.usable = false ∧ (e.finalizeLease slot f).lease.token = 0) ∨
    (f.kind ≠ .acquireLease ∧ f.kind ≠ .releaseLease ∧ (e.finalizeLease slot f).lease = e.lease) := by
  unfold finalizeLease
  split
  · exact .inr (.inl ⟨rfl, rfl⟩)
  · rename_i running
    split
    · rename_i kind
      split
      · rename_i ok
        exact .inl ⟨by simp [Finalization.grants, kind, ok], by simpa using running, rfl, rfl⟩
      · refine .inr (.inl ⟨?_, rfl⟩)
        split <;> rfl
    · split
      · exact .inr (.inl ⟨rfl, rfl⟩)
      · exact .inr (.inl ⟨rfl, rfl⟩)
    · exact .inr (.inr ⟨by assumption, by assumption, rfl⟩)

/-- A grant comes from a response that passed its checks. -/
theorem finalization_grants {slot : OperationSlot} {now : TimeMs} {completion : RpcCompletion}
    {response : Option Response} (fits : response.all (fun r => r.fits slot.kind) = true)
    (grants : (finalization slot now completion response).grants = true) :
    (finalization slot now completion response).grantedToken ≠ 0 := by
  have kind : slot.kind = .acquireLease := by
    rw [← (finalization_spec slot now completion response).1]
    simp only [Finalization.grants, Bool.and_eq_true, beq_iff_eq] at grants
    exact grants.1
  have ok : (finalization slot now completion response).status = .ok := by
    simp only [Finalization.grants, Bool.and_eq_true, beq_iff_eq] at grants
    exact grants.2
  rw [kind] at fits
  cases status : completion.status with
  | rejected | timedOut | cancelled | failed =>
    simp [finalization, status, completionState, completionStatus] at ok
  | success =>
    cases response with
    | none => simp [finalization, status] at ok
    | some r =>
      cases r with
      | getDeviceInfo | deviceSettings | motorRegisterRead | acknowledged =>
        simp [Response.fits] at fits
      | acquireControlLease r =>
        simp only [finalization, status] at ok ⊢
        by_cases valid : validGrant r = true
        · rw [if_pos valid]
          simp only [validGrant, Bool.and_eq_true, bne_iff_ne] at valid
          exact valid.1.1.1.2
        · simp [if_neg valid] at ok

end Endpoint

/-- What `s_finalize` is about to grant has a token. -/
def World.GrantOk (w : World) : Prop :=
  ∀ i f resume, w.owner = .finalizing i f resume → f.grants = true → f.grantedToken ≠ 0

/-- A local timeout or start failure grants nothing. -/
theorem Endpoint.local_failure_grants {slot : OperationSlot} {now : TimeMs} {status : RpcStatus}
    (failed : status ≠ .success) :
    (finalization slot now { status } none).grants = false := by
  cases status <;>
    simp_all [finalization, Finalization.grants, completionState, completionStatus]

namespace World.GrantOk
variable {w next : World} {a : Action} {event : Event}

theorem moves (ok : w.GrantOk) (moved : Moves w a next event) : next.GrantOk := by
  intro i f resume finalizing grants
  cases moved with
  | expiredInQueue | expiredAtStart | startFailed =>
    cases finalizing
    rw [Endpoint.local_failure_grants (by decide)] at grants
    contradiction
  | complete pc owes fits =>
    cases finalizing
    exact Endpoint.finalization_grants fits grants
  | finalize pc =>
    rename_i resumed
    simp only [OwnerPc.resumed] at finalizing
    split at finalizing <;> cases finalizing
  | readGate | startCommit =>
    dsimp only at finalizing
    split at finalizing <;> cases finalizing
  | refused | called | blocked | passed | rejected | queued | tokenBusy | tokenGate | tokenRead
  | inspected | waited | tookNothing | took | upgrade | quiesce =>
    exact ok i f resume finalizing grants
  | _ => cases finalizing

theorem of_run {es : Trace} (run : Run machine es w) : w.GrantOk := by
  refine run.invariant (P := World.GrantOk) ?_ ?_
  · intro i f resume finalizing
    cases finalizing
  · intro w a event next ok stepped
    exact ok.moves (step_moves stepped)

end World.GrantOk

/-- The step marks no lease as being renewed whose token is gone: a renewal is
enqueued, and started, only while the record still has a token. -/
def renewalBacked (w : World) : Action → Bool
  | .submit t _ =>
    match w.callers t with
    | .enqueue s =>
      !(s.kind == .acquireLease && s.request.leaseToken != 0) || w.endpoint.lease.token != 0
    | _ => true
  | .owner _ _ =>
    match w.owner with
    | .renewalSubmit _ _ => w.endpoint.lease.token != 0
    | .startNext _ =>
      match w.endpoint.activeOperation, w.endpoint.findQueuedSlot with
      | none, some i => !(w.endpoint.operations i).renews || w.endpoint.lease.token != 0
      | _, _ => true
    | _ => true
  | _ => true

/-- A usable lease has a token. -/
def FciControlLeaseSnapshot.Backed (l : FciControlLeaseSnapshot) : Prop :=
  l.usable = true → l.token ≠ 0

theorem Endpoint.backed_step {w next : World} {a : Action} {event : Event}
    (backed : w.endpoint.lease.Backed) (granting : w.GrantOk) (met : renewalBacked w a = true)
    (moved : Moves w a next event) : next.endpoint.lease.Backed := by
  have change := moved.lease_change
  generalize next.endpoint.lease = lease at change
  cases change with
  | kept => exact backed
  | submitted action pc =>
    intro usable
    rw [leaseAfterSubmit_token]
    rcases leaseAfterSubmit_usable usable with before | ⟨kind, marked⟩
    · exact backed before
    · subst action
      simp_all [renewalBacked]
  | renewal action pc =>
    subst action
    intro usable
    rw [leaseAfterSubmit_token]
    simpa [renewalBacked, pc] using met
  | selected action pc inactive found =>
    intro usable
    rw [leaseAfterStart_token]
    rcases leaseAfterStart_usable usable with before | renews
    · exact backed before
    · subst action
      have marked : (w.endpoint.operations _).renews = true := renews
      simpa [renewalBacked, pc, inactive, found, marked] using met
  | expired _ pc =>
    rcases expireLease_lease w.endpoint _ with same | ⟨unusable, -⟩
    · rw [same]
      exact backed
    · intro usable
      simp [unusable] at usable
  | dropped | stopped =>
    intro usable
    simp [FciControlLeaseSnapshot.usable, leaseUsable] at usable
  | finalized pc =>
    rcases finalizeLease_cases w.endpoint _ _ with ⟨grants, -, -, token⟩ | ⟨unusable, -⟩ | ⟨-, -, same⟩
    · intro usable
      rw [token]
      exact granting _ _ _ pc grants
    · intro usable
      simp [unusable] at usable
    · rw [same]
      exact backed

/-- In a run whose renewals are backed, every usable lease has a token. -/
theorem backed_of_run {es : Trace} {w : World} (run : Run machine es w)
    (met : Meets (fun w a => renewalBacked w a = true) es) : w.endpoint.lease.Backed := by
  refine (run.guarded (P := fun w => w.endpoint.lease.Backed ∧ w.GrantOk) ?_ ?_ met).1
  · refine ⟨?_, World.GrantOk.of_run .nil⟩
    intro usable
    simp [machine, FciControlLeaseSnapshot.usable, Endpoint.leaseUsable] at usable
  · intro w a event next held met stepped
    have moved := step_moves stepped
    exact ⟨Endpoint.backed_step held.1 held.2 met moved, held.2.moves moved⟩

/-- The event completes an acquire or a renewal successfully. -/
def Event.grants : Event → Bool
  | .finalized _ f => f.grants
  | _ => false

/-- Without a grant the record's token is kept or cleared. -/
theorem LeaseChange.token {w : World} {a : Action} {event : Event} {lease : FciControlLeaseSnapshot}
    (change : LeaseChange w a event lease) (ungranted : event.grants = false) :
    lease.token = 0 ∨ lease.token = w.endpoint.lease.token := by
  cases change with
  | kept => exact .inr rfl
  | submitted | renewal => exact .inr (Endpoint.leaseAfterSubmit_token ..)
  | selected => exact .inr (Endpoint.leaseAfterStart_token ..)
  | expired =>
    rcases Endpoint.expireLease_lease w.endpoint _ with same | ⟨-, gone, -⟩
    · exact .inr (by rw [same])
    · exact .inl gone
  | dropped | stopped => exact .inl rfl
  | finalized pc emitted =>
    rename_i i f resume
    rcases Endpoint.finalizeLease_cases w.endpoint (w.endpoint.operations i) f with
      ⟨grants, -⟩ | ⟨-, gone⟩ | ⟨-, -, same⟩
    · simp [emitted, Event.grants, grants] at ungranted
    · exact .inl gone
    · exact .inr (by rw [same])

end Florid.Wirelink
