import Florid.Wirelink.Lease

/-! Lease expiry over runs: what a pass at or after the expiry time leaves behind, and
how long that lasts. -/
namespace Florid.Wirelink
open Transition

/-- The lease lets commands through. -/
def FciControlLeaseSnapshot.commands (l : FciControlLeaseSnapshot) : Bool :=
  l.usable && l.token != 0

/-- The step keeps an overdue lease from coming back: the pass does not leave it held,
unless an active upgrade drops it, and no renewal is enqueued or started on it. -/
def expiryKept (w : World) : Action → Bool
  | .submit t _ =>
    match w.callers t with
    | .enqueue s =>
      !(s.kind == .acquireLease && s.request.leaseToken != 0) || w.endpoint.lease.token == 0
    | _ => true
  | .owner _ _ =>
    match w.owner with
    | .gate _ => w.endpoint.lease.state != .held || w.endpoint.lease.token == 0 || w.upgradeActive
    | .renewalSubmit _ _ => w.endpoint.lease.token == 0
    | .startNext _ =>
      match w.endpoint.activeOperation, w.endpoint.findQueuedSlot with
      | none, some i => !(w.endpoint.operations i).renews || w.endpoint.lease.token == 0
      | _, _ => true
    | _ => true
  | _ => true

theorem FciControlLeaseSnapshot.commands_of_token {l : FciControlLeaseSnapshot}
    (gone : l.token = 0) : l.commands = false := by
  simp [commands, gone]

theorem FciControlLeaseSnapshot.commands_of_usable {l : FciControlLeaseSnapshot}
    (unusable : l.usable = false) : l.commands = false := by
  simp [commands, unusable]

theorem Endpoint.commandToken_not_ok {e : Endpoint} (silent : e.lease.commands = false) :
    e.commandToken.1 ≠ .ok := by
  intro ok
  simp only [commandToken] at ok
  split at ok
  · simp at ok
  · split at ok
    · simp at ok
    · rename_i passed
      simp_all [FciControlLeaseSnapshot.commands, FciControlLeaseSnapshot.usable]

namespace Endpoint
variable {w next : World} {a : Action} {event : Event}

/-- An operation queued or started under the condition opens no closed lease. -/
theorem submit_silent {l : FciControlLeaseSnapshot} {kind : RpcKind} {request : OperationRequest}
    {internal : Bool} (unmarked : kind = .acquireLease →
      internal = true ∨ request.leaseToken ≠ 0 → l.token = 0) (silent : l.commands = false) :
    (leaseAfterSubmit l kind request internal).commands = false := by
  by_cases gone : l.token = 0
  · exact FciControlLeaseSnapshot.commands_of_token (by rwa [leaseAfterSubmit_token])
  · refine FciControlLeaseSnapshot.commands_of_usable (Bool.eq_false_of_not_eq_true ?_)
    intro usable
    rcases leaseAfterSubmit_usable usable with before | ⟨acquire, marked⟩
    · simp [FciControlLeaseSnapshot.commands, before, gone] at silent
    · exact gone (unmarked acquire marked)

theorem start_silent {l : FciControlLeaseSnapshot} {slot : OperationSlot}
    (unmarked : slot.renews = true → l.token = 0) (silent : l.commands = false) :
    (leaseAfterStart l slot).commands = false := by
  by_cases gone : l.token = 0
  · exact FciControlLeaseSnapshot.commands_of_token (by rwa [leaseAfterStart_token])
  · refine FciControlLeaseSnapshot.commands_of_usable (Bool.eq_false_of_not_eq_true ?_)
    intro usable
    rcases leaseAfterStart_usable usable with before | renews
    · simp [FciControlLeaseSnapshot.commands, before, gone] at silent
    · exact gone (unmarked renews)

/-- A closed lease stays closed until the next grant. -/
theorem silent_step (silent : w.endpoint.lease.commands = false)
    (met : expiryKept w a = true) (ungranted : event.grants = false)
    (moved : Moves w a next event) : next.endpoint.lease.commands = false := by
  have change := moved.lease_change
  generalize next.endpoint.lease = lease at change
  cases change with
  | kept => exact silent
  | submitted action pc =>
    subst action
    refine submit_silent ?_ silent
    intro acquire marked
    have token := marked.resolve_left (by simp)
    simpa [expiryKept, pc, acquire, token] using met
  | renewal action pc =>
    subst action
    refine submit_silent ?_ silent
    intro _ _
    simpa [expiryKept, pc] using met
  | selected action pc inactive found =>
    subst action
    refine start_silent ?_ silent
    intro renews
    have marked : (w.endpoint.operations _).renews = true := renews
    simpa [expiryKept, pc, inactive, found, marked] using met
  | expired _ pc =>
    rcases expireLease_lease w.endpoint _ with same | ⟨unusable, -⟩
    · rwa [same]
    · exact FciControlLeaseSnapshot.commands_of_usable unusable
  | dropped | stopped => rfl
  | finalized pc emitted =>
    rename_i i f resume
    rcases finalizeLease_cases w.endpoint (w.endpoint.operations i) f with ⟨grants, -⟩ | ⟨unusable, -⟩ | ⟨-, -, same⟩
    · simp [emitted, Event.grants, grants] at ungranted
    · exact FciControlLeaseSnapshot.commands_of_usable unusable
    · rwa [same]

end Endpoint

/-- After the expiry region of an overdue pass: the lease is closed, or the pass is
still before its gate with the lease held, or about to drop it. -/
def Closing (rest : Trace) (w : World) : Prop :=
  w.endpoint.lease.commands = false ∨
  ((∃ now, w.owner = .gate now) ∧ w.endpoint.lease.state = .held ∨
    ∃ now, w.owner = .dropLease now) ∧ ∀ f ∈ rest, f.after.owner ≠ .idle

namespace Closing
variable {w next : World} {a : Action} {event : Event} {rest : Trace}

/-- Outside the held state, the expiry region closes an overdue lease. -/
theorem expireLease_closes {e : Endpoint} {now : TimeMs}
    (reached : msUntil now e.leaseExpireAtMs = 0) (other : e.lease.state ≠ .held) :
    (e.expireLease now).lease.commands = false := by
  unfold Endpoint.expireLease
  split
  · rfl
  · rename_i kept
    refine FciControlLeaseSnapshot.commands_of_usable ?_
    cases state : e.lease.state <;>
      simp_all [FciControlLeaseSnapshot.usable, Endpoint.leaseUsable]

/-- The expiry region itself. -/
theorem start {now : TimeMs} {n : Nat} {clock : TimeMs} {st : WlErr}
    (moved : Moves w (.owner clock st) next event) (region : w.owner = .expiry now n) (last : 8 ≤ n)
    (reached : msUntil now w.endpoint.leaseExpireAtMs = 0) : Closing [] next := by
  have after : next = { w with endpoint := w.endpoint.expireLease now, owner := .gate now } := by
    cases moved <;> simp_all <;> omega
  rw [after]
  by_cases held : w.endpoint.lease.state = .held
  · refine .inr ⟨.inl ⟨⟨now, rfl⟩, ?_⟩, by simp⟩
    simp [Endpoint.expireLease, held]
  · exact .inl (expireLease_closes reached held)

/-- A step of another thread leaves the owner where it is and the lease held, unless it
closes the lease. -/
theorem held_step (held : w.endpoint.lease.state = .held) (met : expiryKept w a = true)
    (waiting : ∃ now, w.owner = .gate now) (other : ∀ clock st, a ≠ .owner clock st)
    (moved : Moves w a next event) :
    next.endpoint.lease.commands = false ∨ next.endpoint.lease.state = .held := by
  obtain ⟨now, pc⟩ := waiting
  have change := moved.lease_change
  generalize next.endpoint.lease = lease at change
  cases change with
  | kept => exact .inr held
  | submitted action enqueued emitted =>
    rename_i t clock s id
    subst action
    by_cases gone : w.endpoint.lease.token = 0
    · exact .inl (FciControlLeaseSnapshot.commands_of_token
        (by rw [Endpoint.leaseAfterSubmit_token, gone]))
    · have unmarked : s.kind = .acquireLease → s.request.leaseToken = 0 := by
        intro acquire
        simpa [expiryKept, enqueued, acquire, gone] using met
      cases kind : s.kind with
      | acquireLease =>
        refine .inl (FciControlLeaseSnapshot.commands_of_usable ?_)
        simp [Endpoint.leaseAfterSubmit, unmarked kind, FciControlLeaseSnapshot.usable,
          Endpoint.leaseUsable]
      | releaseLease => exact .inl rfl
      | _ => exact .inr held
  | renewal action | selected action | expired action | dropped action =>
    exact absurd action (other _ _)
  | finalized finalizing => simp [pc] at finalizing
  | stopped => exact .inl rfl

/-- The gate of the pass: under the condition a lease left held is dropped next. -/
theorem read_gate {now clock : TimeMs} {st : WlErr} (held : w.endpoint.lease.state = .held)
    (pc : w.owner = .gate now) (met : expiryKept w (.owner clock st) = true)
    (moved : Moves w (.owner clock st) next event) (busy : ∀ f ∈ rest, f.after.owner ≠ .idle) :
    Closing (rest ++ [⟨w, .owner clock st, event, next⟩]) next := by
  have after : next = { w with owner :=
      if w.upgradeActive then .dropLease now else .renewal now } := by
    cases moved <;> simp_all
  by_cases upgrading : w.upgradeActive = true
  · rw [if_pos upgrading] at after
    refine .inr ⟨.inr ⟨now, by rw [after]⟩, ?_⟩
    intro f member
    rcases List.mem_append.mp member with earlier | last
    · exact busy f earlier
    · obtain rfl := List.mem_singleton.mp last
      simp [after]
  · left
    rw [after]
    refine FciControlLeaseSnapshot.commands_of_token ?_
    simpa [expiryKept, pc, held, upgrading] using met

theorem step (closing : Closing rest w) (met : expiryKept w a = true)
    (ungranted : event.grants = false) (moved : Moves w a next event) :
    Closing (rest ++ [⟨w, a, event, next⟩]) next := by
  rcases closing with silent | ⟨place, busy⟩
  · exact .inl (Endpoint.silent_step silent met ungranted moved)
  · have notIdle : w.owner ≠ .idle := by
      rcases place with ⟨⟨now, pc⟩, -⟩ | ⟨now, pc⟩ <;> simp [pc]
    by_cases own : ∃ clock st, a = .owner clock st
    · obtain ⟨clock, st, rfl⟩ := own
      rcases place with ⟨⟨now, pc⟩, held⟩ | ⟨now, pc⟩
      · exact read_gate held pc met moved busy
      · left
        have after : next = { w with endpoint := w.endpoint.dropLease, owner := .startNext now } := by
          cases moved <;> simp_all
        rw [after]
        rfl
    · have other : ∀ clock st, a ≠ .owner clock st := fun clock st same => own ⟨clock, st, same⟩
      have still := moved.owner_kept other notIdle
      have busy' : ∀ f ∈ rest ++ [⟨w, a, event, next⟩], f.after.owner ≠ .idle := by
        intro f member
        rcases List.mem_append.mp member with earlier | last
        · exact busy f earlier
        · obtain rfl := List.mem_singleton.mp last
          simpa [still] using notIdle
      rcases place with ⟨waiting, held⟩ | ⟨now, pc⟩
      · rcases held_step held met waiting other moved with silent | held
        · exact .inl silent
        · exact .inr ⟨.inl ⟨by rwa [still], held⟩, busy'⟩
      · exact .inr ⟨.inr ⟨now, by rw [still, pc]⟩, busy'⟩

/-- From the pass that found the lease overdue to any later point of the run. -/
theorem of_run {past rest : Trace} {e : Entry World Action Event} {now : TimeMs} {n : Nat}
    {clock : TimeMs} {st : WlErr} (run : Run machine (past ++ [e] ++ rest) w)
    (region : e.before.owner = .expiry now n) (last : 8 ≤ n) (action : e.action = .owner clock st)
    (reached : msUntil now e.before.endpoint.leaseExpireAtMs = 0) :
    (∀ f ∈ rest, f.event.grants = false) →
      Meets (fun w a => expiryKept w a = true) rest → Closing rest w := by
  refine run.since (P := fun rest w => (∀ f ∈ rest, f.event.grants = false) →
    Meets (fun w a => expiryKept w a = true) rest → Closing rest w) ?_ ?_
  · intro now' reachedNow _ _
    obtain ⟨_, stepped, rfl⟩ := reachedNow.of_snoc
    rw [action] at stepped
    exact start (step_moves stepped) region last reached
  · intro rest w a event next _ ih stepped ungranted met
    obtain ⟨earlier, now⟩ := Meets.append.mp met
    have closing := ih (fun f member => ungranted f (List.mem_append_left _ member)) earlier
    exact closing.step (Meets.single.mp now)
      (ungranted ⟨w, a, event, next⟩ (List.mem_append_right _ List.mem_cons_self))
      (step_moves stepped)

end Closing

/-- A renewal in flight when a pass finds the lease overdue. -/
def expiredRenewal : List Action :=
  heldLease ++ .pass 5 :: ownerTurns 16 5 .ok ++ .pass 10 :: ownerTurns 12 10 .ok

theorem expiredRenewal_runs : (exec machine expiredRenewal [] machine.init).isSome = true := by
  decide +kernel

theorem expiredRenewal_length :
    46 < ((exec machine expiredRenewal [] machine.init).get expiredRenewal_runs).1.length := by
  decide +kernel

/-- A pass that comes late finds the lease held: it leaves it held, schedules the
renewal that was due long ago, and commands go on being accepted. -/
def lateLease : List Action := heldLease ++ .pass 10 :: ownerTurns 16 10 .ok

theorem lateLease_runs : (exec machine lateLease [] machine.init).isSome = true := by
  decide +kernel

theorem lateLease_length :
    29 < ((exec machine lateLease [] machine.init).get lateLease_runs).1.length := by
  decide +kernel

end Florid.Wirelink
