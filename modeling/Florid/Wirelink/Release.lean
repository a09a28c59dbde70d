import Florid.Wirelink.Lease

/-! Releasing the lease over runs. A release is checked and enqueued in two regions,
and renewals and user acquires may be on their way around it; the results say what
holds when a release finds none of these in the way. -/
namespace Florid.Wirelink
open Transition

/-- An operation in the queue or in flight. -/
def OperationSlot.live (slot : OperationSlot) : Bool :=
  slot.state == .queued || slot.state == .linkPending

/-- A live slot after an unaccepted move was live before, with the same operation. -/
theorem SlotChange.live {a : Action} {event : Event} {slot next : OperationSlot}
    (change : SlotChange a event slot next) (quiet : event.accepted = false)
    (live : next.live = true) : slot.live = true ∧ next.kind = slot.kind ∧
      next.request = slot.request ∧ next.requestId = slot.requestId := by
  cases change with
  | kept => exact ⟨live, rfl, rfl, rfl⟩
  | submitted _ made => simp [made, Event.accepted] at quiet
  | restated _ state => exact ⟨by simpa [OperationSlot.live] using state, rfl, rfl, rfl⟩
  | finalized used state outer done =>
    rename_i f
    have live : f.state = .queued ∨ f.state = .linkPending := by
      simpa [OperationSlot.live, Endpoint.finalizedSlot] using live
    rcases live with h | h <;> simp [h, terminal] at done
  | cancelled | dropped | taken => simp [OperationSlot.live] at live

theorem SlotsInv.active_live {w : World} (inv : SlotsInv w) {i : SlotIndex}
    (active : w.endpoint.activeOperation = some i) : (w.endpoint.operations i).live = true := by
  simp [OperationSlot.live, (inv.table.active i active).2]

theorem SlotsInv.live_used {w : World} (inv : SlotsInv w) {i : SlotIndex}
    (live : (w.endpoint.operations i).live = true) : (w.endpoint.operations i).used = true := by
  by_contra unused
  have empty := inv.table.empty i (Bool.eq_false_of_not_eq_true unused)
  simp [empty, OperationSlot.live] at live

/-- The active index is kept, cleared, or set to the slot selected from the queue. -/
theorem Moves.active_cases {w next : World} {a : Action} {event : Event}
    (moved : Moves w a next event) {i : SlotIndex}
    (active : next.endpoint.activeOperation = some i) :
    w.endpoint.activeOperation = some i ∨
      w.endpoint.activeOperation = none ∧ w.endpoint.findQueuedSlot = some i ∧
        event.accepted = false := by
  cases moved with
  | selected _ inactive found =>
    obtain rfl := Option.some.inj active
    exact .inr ⟨inactive, found, rfl⟩
  | startCommit =>
    rename_i started _
    left
    cases started <;> first | exact active | simp [Endpoint.startCommit] at active
  | finalize =>
    left
    simp only [Endpoint.finalize_activeOperation] at active
    split at active
    · simp at active
    · exact active
  | expireLease =>
    left
    simp only [Endpoint.expireLease] at active
    split at active <;> exact active
  | _ => exact .inl active

/-- Only `acquireControlLease` prepares an acquire. -/
theorem Call.prepare_acquire {c : Call} {e : Endpoint} {s : Submission} (ready : c.prepare e = .ok s)
    (kind : s.kind = .acquireLease) : ∃ requested timeout, c = .acquireControlLease requested timeout := by
  rw [Call.prepare_kind ready] at kind
  cases c <;> simp [Call.kind] at kind ⊢

/-- A prepared release carries the token it read, which was not zero. -/
theorem Call.prepare_release {c : Call} {e : Endpoint} {s : Submission} (ready : c.prepare e = .ok s)
    (kind : s.kind = .releaseLease) : s.request.leaseToken ≠ 0 := by
  rw [Call.prepare_kind ready] at kind
  cases c with
  | releaseControlLease timeout =>
    simp only [Call.prepare, Endpoint.releaseCheck] at ready
    split at ready
    · split at ready <;> simp only [Except.map] at ready <;> cases ready
      rename_i usable
      simp only [Bool.or_eq_true, Bool.not_eq_true', beq_iff_eq, not_or] at usable
      exact usable.2
    · cases ready
  | _ => simp [Call.kind] at kind

/-- Where an accepted submission comes from. -/
theorem Moves.origin {w next : World} {a : Action} {event : Event} (moved : Moves w a next event)
    {internal : Bool} {s : Submission} {id : Nat}
    (made : event = .submitted internal s { status := .ok, requestId := id }) :
    (internal = false ∧ ∃ t clock, a = .submit t clock ∧ w.callers t = .enqueue s) ∨
    (s.kind = .acquireLease ∧ ∃ now request, w.owner = .renewalSubmit now request) := by
  cases moved with
  | queued pc =>
    cases made
    exact .inl ⟨rfl, _, _, rfl, pc⟩
  | renewalQueued pc =>
    cases made
    exact .inr ⟨rfl, _, _, pc⟩
  | blocked => simp at made
  | rejected _ failed | renewalRejected _ failed => simp [failed] at made
  | _ => cases made

/-- The owner is past the check of `s_scheduleRenewal`. -/
def OwnerPc.renewing : OwnerPc → Bool
  | .renewalGate _ _ | .renewalSubmit _ _ => true
  | _ => false

/-- It gets there from a held lease. -/
theorem Moves.renewing_cases {w next : World} {a : Action} {event : Event}
    (moved : Moves w a next event) (renewing : next.owner.renewing = true) :
    w.owner.renewing = true ∨ w.endpoint.lease.state = .held := by
  cases moved with
  | due pc scheduled =>
    right
    simp only [Endpoint.renewalCheck] at scheduled
    split at scheduled
    · cases scheduled
    · rename_i due
      simp only [Bool.or_eq_true, bne_iff_ne, not_or, not_not, beq_iff_eq] at due
      exact due.1.1
  | renewalPassed pc => exact .inl (by simp [pc, OwnerPc.renewing])
  | readGate | startCommit =>
    dsimp only at renewing
    split at renewing <;> simp [OwnerPc.renewing] at renewing
  | finalize =>
    simp only [OwnerPc.resumed] at renewing
    split at renewing <;> simp [OwnerPc.renewing] at renewing
  | refused | called | blocked | passed | rejected | queued | tokenBusy | tokenGate | tokenRead
  | inspected | waited | tookNothing | took | upgrade | quiesce => exact .inl renewing
  | _ => simp [OwnerPc.renewing, World.beginFinalize] at renewing

/-- A release is enqueued only while its token is still the one on record and no
acquire or renewal is queued, in flight, or between its lease check and its enqueue. -/
def ReleaseAlone (w : World) (a : Action) : Prop :=
  ∀ t clock s, a = .submit t clock → w.callers t = .enqueue s → s.kind = .releaseLease →
    s.request.leaseToken = w.endpoint.lease.token ∧
    (∀ i, (w.endpoint.operations i).live = true → (w.endpoint.operations i).kind ≠ .acquireLease) ∧
    (∀ u r, (w.callers u).submission = some r → r.kind ≠ .acquireLease) ∧
    w.owner.renewing = false

/-! ### After a release -/

/-- No acquire is on its way and the lease is not held. -/
structure Unclaimed (w : World) : Prop where
  slots : ∀ i, (w.endpoint.operations i).live = true →
    (w.endpoint.operations i).kind ≠ .acquireLease
  callers : ∀ t s, (w.callers t).submission = some s → s.kind ≠ .acquireLease
  owner : w.owner.renewing = false
  lease : w.endpoint.lease.state ≠ .held

/-- The user asks for the lease. -/
def Action.acquires : Action → Bool
  | .call _ (.acquireControlLease _ _) => true
  | _ => false

namespace Unclaimed
variable {w next : World} {a : Action} {event : Event}

/-- Neither queuing nor starting another operation makes the lease held. -/
theorem lease_step (free : Unclaimed w) (inv : SlotsInv w) (moved : Moves w a next event) :
    next.endpoint.lease.state ≠ .held := by
  have change := moved.lease_change
  generalize next.endpoint.lease = lease at change
  cases change with
  | kept => exact free.lease
  | submitted action pc emitted =>
    rename_i t clock s id
    have other := free.callers t s (by simp [pc, CallerPc.submission])
    cases kind : s.kind <;> simp_all [Endpoint.leaseAfterSubmit, free.lease]
  | renewal _ pc =>
    have := free.owner
    simp [pc, OwnerPc.renewing] at this
  | selected action pc inactive found =>
    rename_i clock st now i
    have waiting := (Endpoint.findQueuedSlot_some found).1
    have other := free.slots i (by simp [OperationSlot.live, waiting.2])
    unfold Endpoint.leaseAfterStart
    split
    · exact absurd ‹_› other
    · simp
    · exact free.lease
  | expired =>
    unfold Endpoint.expireLease
    split
    · simp
    · exact free.lease
  | dropped | stopped => simp
  | finalized pc emitted =>
    rename_i i f resume
    have ok := inv.owner
    simp only [World.OwnerOk, pc] at ok
    have live : (w.endpoint.operations i).live = true := by
      rcases ok.2.2.2.2 with ⟨queued, -⟩ | ⟨active, -⟩
      · simp [OperationSlot.live, queued]
      · exact inv.active_live active
    have other : f.kind ≠ .acquireLease := ok.2.1 ▸ free.slots i live
    unfold Endpoint.finalizeLease
    split
    · simp
    · split
      · exact absurd ‹_› other
      · split <;> simp
      · exact free.lease

theorem step (free : Unclaimed w) (inv : SlotsInv w) (moved : Moves w a next event)
    (unasked : a.acquires = false) : Unclaimed next := by
  refine ⟨?_, ?_, ?_, free.lease_step inv moved⟩
  · intro i live
    cases accepted : event.accepted with
    | false =>
      obtain ⟨before, kind, -⟩ := (inv.slot_change moved i).live accepted live
      rw [kind]
      exact free.slots i before
    | true =>
      obtain ⟨internal, s, clock, j, made, -, -, filled, -⟩ := moved.accepted accepted
      rw [filled] at live ⊢
      by_cases same : i = j
      · subst same
        rw [Function.update_self]
        rcases moved.origin made with ⟨-, t, _, -, pc⟩ | ⟨-, now, request, pc⟩
        · exact free.callers t s (by simp [pc, CallerPc.submission])
        · have := free.owner
          simp [pc, OwnerPc.renewing] at this
      · rw [Function.update_of_ne same] at live ⊢
        exact free.slots i live
  · intro t s pending
    rcases moved.submission_cases pending with earlier | ⟨c, rfl, ready⟩
    · exact free.callers t s earlier
    · intro acquire
      obtain ⟨requested, timeout, rfl⟩ := Call.prepare_acquire ready acquire
      simp [Action.acquires] at unasked
  · by_contra renewing
    rcases moved.renewing_cases (by simpa using renewing) with before | held
    · simp [free.owner] at before
    · exact free.lease held

/-- The state right after a release was enqueued under the condition. -/
theorem start {s : Submission} {id : Nat} (moved : Moves w a next event) (alone : ReleaseAlone w a)
    (made : event = .submitted false s { status := .ok, requestId := id })
    (kind : s.kind = .releaseLease) : Unclaimed next := by
  cases moved with
  | queued pc running free last =>
    rename_i t r clock i
    cases made
    obtain ⟨-, slots, callers, owner⟩ := alone t clock _ rfl pc kind
    refine ⟨?_, ?_, owner, ?_⟩
    · intro j live
      by_cases same : j = i
      · subst same
        simp [Endpoint.submittedSlot, kind]
      · simp only [Endpoint.setSlot_operations, Function.update_of_ne same] at live ⊢
        exact slots j live
    · intro u r pending
      rcases World.setCaller_submission pending with earlier | ⟨-, new⟩
      · exact callers u r earlier
      · simp [CallerPc.submission] at new
    · simp [kind, Endpoint.leaseAfterSubmit]
  | blocked => simp at made
  | rejected _ failed => simp [failed] at made
  | _ => cases made

/-- No acquire starts from an unclaimed state. -/
theorem starts_no_acquire (free : Unclaimed w) (inv : SlotsInv w) (moved : Moves w a next event)
    {slot : OperationSlot} {timeout : Nat} {code : WlErr}
    (started : event = .started slot timeout code) : slot.kind ≠ .acquireLease := by
  cases moved with
  | launch pc =>
    cases started
    have ok := inv.owner
    simp only [World.OwnerOk, pc] at ok
    exact free.slots _ (inv.active_live ok.1)
  | _ => cases started

/-- From the submission of a release to any later point, while the user does not ask
for the lease. -/
theorem of_run {past rest : Trace} {e : Entry World Action Event} {s : Submission} {id : Nat}
    (run : Run machine (past ++ [e] ++ rest) w) (alone : ReleaseAlone e.before e.action)
    (made : e.event = .submitted false s { status := .ok, requestId := id })
    (kind : s.kind = .releaseLease) : (∀ x ∈ rest, x.action.acquires = false) →
      Unclaimed w ∧ ∀ x ∈ rest, x.after.endpoint.lease.state ≠ .held ∧
        ∀ slot timeout code, x.event = .started slot timeout code → slot.kind ≠ .acquireLease := by
  refine run.since (P := fun rest w => (∀ x ∈ rest, x.action.acquires = false) →
      Unclaimed w ∧ ∀ x ∈ rest, x.after.endpoint.lease.state ≠ .held ∧
        ∀ slot timeout code, x.event = .started slot timeout code → slot.kind ≠ .acquireLease)
    ?_ ?_
  · intro now reached _
    obtain ⟨_, stepped, rfl⟩ := reached.of_snoc
    exact ⟨start (step_moves stepped) alone made kind, by simp⟩
  · intro rest w a event next before ih stepped unasked
    obtain ⟨free, earlier⟩ := ih fun x member => unasked x (List.mem_append_left _ member)
    have inv := SlotsInv.of_run before
    have moved := step_moves stepped
    have after := free.step inv moved
      (unasked ⟨w, a, event, next⟩ (List.mem_append_right _ List.mem_cons_self))
    refine ⟨after, ?_⟩
    intro x member
    rcases List.mem_append.mp member with member | last
    · exact earlier x member
    · obtain rfl := List.mem_singleton.mp last
      exact ⟨after.lease, fun _ _ _ started => free.starts_no_acquire inv moved started⟩

end Unclaimed

/-! ### The token a release carries -/

/-- The token an event grants. -/
def Event.granted : Event → Option Nat
  | .finalized _ f => if f.grants then some f.grantedToken else none
  | _ => none

/-- The token of the most recent successful acquire or renewal. -/
def lastGrant (es : Trace) : Option Nat :=
  es.foldl (fun last e => e.event.granted.or last) none

theorem lastGrant_snoc (es : Trace) (e : Entry World Action Event) :
    lastGrant (es ++ [e]) = e.event.granted.or (lastGrant es) := by
  simp [lastGrant]

theorem Event.granted_none {event : Event} (ungranted : event.grants = false) :
    event.granted = none := by
  cases event <;> simp_all [Event.granted, Event.grants]

/-- What `s_finalize` is about to grant comes from the active call. -/
def World.GrantActive (w : World) : Prop :=
  ∀ i f resume, w.owner = .finalizing i f resume → f.grants = true →
    w.endpoint.activeOperation = some i

theorem World.GrantActive.moves {w next : World} {a : Action} {event : Event}
    (held : w.GrantActive) (inv : SlotsInv w) (moved : Moves w a next event) : next.GrantActive := by
  intro i f resume finalizing grants
  cases moved with
  | expiredInQueue | expiredAtStart | startFailed =>
    cases finalizing
    rw [Endpoint.local_failure_grants (by decide)] at grants
    contradiction
  | complete pc owes fits =>
    cases finalizing
    exact ((inv.settled (by simp [pc, OwnerPc.plain])).1 i).mp owes
  | finalize pc =>
    simp only [OwnerPc.resumed] at finalizing
    split at finalizing <;> cases finalizing
  | readGate | startCommit =>
    dsimp only at finalizing
    split at finalizing <;> cases finalizing
  | refused | called | blocked | passed | rejected | queued | tokenBusy | tokenGate | tokenRead
  | inspected | waited | tookNothing | took | upgrade | quiesce =>
    exact held i f resume finalizing grants
  | _ => cases finalizing

theorem World.GrantActive.of_run {es : Trace} {w : World} (run : Run machine es w) :
    w.GrantActive := by
  refine run.history (P := fun _ w => w.GrantActive) ?_ ?_
  · intro i f resume finalizing
    cases finalizing
  · intro es w a event next before held stepped
    exact held.moves (SlotsInv.of_run before) (step_moves stepped)

/-- Releases carry the last granted token, are older than every acquire on its way, and
are never in the queue while an acquire is in flight. -/
structure TokenInv (es : Trace) (w : World) : Prop where
  lease : w.endpoint.lease.token ≠ 0 → lastGrant es = some w.endpoint.lease.token
  callers : ∀ t s, (w.callers t).submission = some s → s.kind = .releaseLease →
    s.request.leaseToken ≠ 0
  releases : ∀ i, (w.endpoint.operations i).live = true →
    (w.endpoint.operations i).kind = .releaseLease →
    lastGrant es = some (w.endpoint.operations i).request.leaseToken
  order : ∀ i j, (w.endpoint.operations i).live = true → (w.endpoint.operations j).live = true →
    (w.endpoint.operations i).kind = .releaseLease →
    (w.endpoint.operations j).kind = .acquireLease →
    (w.endpoint.operations i).requestId < (w.endpoint.operations j).requestId
  serial : ∀ i j, w.endpoint.activeOperation = some j →
    (w.endpoint.operations j).kind = .acquireLease → (w.endpoint.operations i).live = true →
    (w.endpoint.operations i).kind ≠ .releaseLease

namespace TokenInv
variable {w next : World} {a : Action} {event : Event} {es : Trace} {n : Nat}

theorem callers_step (inv : TokenInv es w) (moved : Moves w a next event) :
    ∀ t s, (next.callers t).submission = some s → s.kind = .releaseLease →
      s.request.leaseToken ≠ 0 := by
  intro t s pending kind
  rcases moved.submission_cases pending with earlier | ⟨c, -, ready⟩
  · exact inv.callers t s earlier kind
  · exact Call.prepare_release ready kind

/-- A move that neither submits nor grants. -/
theorem quiet (inv : TokenInv es w) (slots : SlotsInv w) (moved : Moves w a next event)
    (unaccepted : event.accepted = false) (ungranted : event.grants = false) :
    TokenInv (es ++ [⟨w, a, event, next⟩]) next := by
  have same : lastGrant (es ++ [⟨w, a, event, next⟩]) = lastGrant es := by
    rw [lastGrant_snoc, Event.granted_none ungranted, Option.none_or]
  have before i := (slots.slot_change moved i).live unaccepted
  refine ⟨?_, inv.callers_step moved, ?_, ?_, ?_⟩
  · intro token
    rw [same]
    rcases moved.lease_change.token ungranted with gone | kept
    · exact absurd gone token
    · rw [kept] at token ⊢
      exact inv.lease token
  · intro i live kind
    obtain ⟨live, sameKind, request, -⟩ := before i live
    rw [same, request]
    exact inv.releases i live (sameKind ▸ kind)
  · intro i j liveI liveJ release acquire
    obtain ⟨liveI, kindI, -, idI⟩ := before i liveI
    obtain ⟨liveJ, kindJ, -, idJ⟩ := before j liveJ
    rw [idI, idJ]
    exact inv.order i j liveI liveJ (kindI ▸ release) (kindJ ▸ acquire)
  · intro i j active acquire live release
    obtain ⟨liveI, kindI, -, -⟩ := before i live
    obtain ⟨liveJ, kindJ, -, -⟩ := before j ((slots.moves moved).active_live active)
    rcases moved.active_cases active with held | ⟨inactive, found, -⟩
    · exact inv.serial i j held (kindJ ▸ acquire) liveI (kindI ▸ release)
    · -- the selected slot is the oldest queued one, and releases are older than acquires
      have older := inv.order i j liveI liveJ (kindI ▸ release) (kindJ ▸ acquire)
      have queued : w.endpoint.Waiting i := by
        refine ⟨slots.live_used liveI, ?_⟩
        simp only [OperationSlot.live, Bool.or_eq_true, beq_iff_eq] at liveI
        rcases liveI with queued | pending
        · exact queued
        · simp [slots.table.pending i pending] at inactive
      have least := (Endpoint.findQueuedSlot_some found).2.2 i queued
      omega

/-- A grant: the acquire was in flight, so no release is on its way. -/
theorem grant (inv : TokenInv es w) (slots : SlotsInv w) (granting : w.GrantActive)
    (moved : Moves w a next event) (granted : event.grants = true) :
    TokenInv (es ++ [⟨w, a, event, next⟩]) next := by
  cases moved with
  | finalize pc =>
    rename_i clock st i f resume
    have active := granting i f resume pc granted
    have ok := slots.owner
    simp only [World.OwnerOk, pc] at ok
    have acquire : (w.endpoint.operations i).kind = .acquireLease := by
      rw [← ok.2.1]
      simp only [Event.grants, Endpoint.Finalization.grants, Bool.and_eq_true, beq_iff_eq] at granted
      exact granted.1
    have none j (live : ((w.endpoint.finalize i f).operations j).live = true) :
        ((w.endpoint.finalize i f).operations j).kind ≠ .releaseLease := by
      have moved : Moves w (.owner clock st) _ _ := .finalize pc
      obtain ⟨before, kind, -⟩ := (slots.slot_change moved j).live rfl live
      rw [kind]
      exact inv.serial j i active acquire before
    refine ⟨?_, inv.callers, ?_, ?_, ?_⟩
    · intro token
      rw [lastGrant_snoc]
      simp only [Endpoint.finalize_lease] at token ⊢
      rcases Endpoint.finalizeLease_cases w.endpoint (w.endpoint.operations i) f with
        ⟨grants, -, -, same⟩ | ⟨-, gone⟩ | ⟨other, -⟩
      · simp [Event.granted, grants, same]
      · exact absurd gone token
      · exact absurd (ok.2.1.trans acquire) other
    · intro j live kind
      exact absurd kind (none j live)
    · intro j k live _ kind
      exact absurd kind (none j live)
    · intro j k _ _ live
      exact none j live
  | _ => simp [Event.grants] at granted

/-- A submission: a release takes the token on record with no acquire on its way, and
an acquire comes after every release. -/
theorem accept (inv : TokenInv es w) (slots : SlotsInv w) (ids : IdsInv n w)
    (bound : n + 1 < 2 ^ 64) (alone : ReleaseAlone w a) (moved : Moves w a next event)
    (accepted : event.accepted = true) : TokenInv (es ++ [⟨w, a, event, next⟩]) next := by
  obtain ⟨internal, s, clock, i, made, -, free, filled, -⟩ := moved.accepted accepted
  have ungranted : event.grants = false := by rw [made]; rfl
  have same : lastGrant (es ++ [⟨w, a, event, next⟩]) = lastGrant es := by
    rw [lastGrant_snoc, Event.granted_none ungranted, Option.none_or]
  have others j (apart : j ≠ i) : next.endpoint.operations j = w.endpoint.operations j := by
    rw [filled, Function.update_of_ne apart]
  have new : next.endpoint.operations i = Endpoint.submittedSlot w.endpoint.nextRequestId s.kind
      s.timeoutMs clock s.request internal := by rw [filled, Function.update_self]
  have younger j (live : (w.endpoint.operations j).live = true) :
      (w.endpoint.operations j).requestId < w.endpoint.nextRequestId := by
    have := ids.bounds j (slots.live_used live)
    rw [ids.next_id bound]
    omega
  -- a new release: what its condition says
  have released (kind : s.kind = .releaseLease) :
      lastGrant es = some s.request.leaseToken ∧
      ∀ j, (w.endpoint.operations j).live = true →
        (w.endpoint.operations j).kind ≠ .acquireLease := by
    rcases moved.origin made with ⟨-, t, clock', action, pc⟩ | ⟨acquire, -⟩
    · obtain ⟨token, none, -⟩ := alone t clock' s action pc kind
      have nonzero := inv.callers t s (by simp [pc, CallerPc.submission]) kind
      rw [token] at nonzero ⊢
      exact ⟨inv.lease nonzero, none⟩
    · simp [kind] at acquire
  refine ⟨?_, inv.callers_step moved, ?_, ?_, ?_⟩
  · intro token
    rw [same]
    rcases moved.lease_change.token ungranted with gone | kept
    · exact absurd gone token
    · rw [kept] at token ⊢
      exact inv.lease token
  · intro j live kind
    rw [same]
    by_cases isNew : j = i
    · rw [isNew, new] at kind ⊢
      exact (released kind).1
    · rw [others j isNew] at live kind ⊢
      exact inv.releases j live kind
  · intro j k liveJ liveK release acquire
    by_cases newJ : j = i <;> by_cases newK : k = i
    · rw [newJ, new] at release
      rw [newK, new] at acquire
      simp_all [Endpoint.submittedSlot]
    · rw [newJ, new] at release
      rw [others k newK] at liveK acquire
      exact absurd acquire ((released release).2 k liveK)
    · rw [others j newJ] at liveJ ⊢
      rw [newK, new]
      exact younger j liveJ
    · rw [others j newJ] at liveJ release ⊢
      rw [others k newK] at liveK acquire ⊢
      exact inv.order j k liveJ liveK release acquire
  · intro j k active acquire live release
    rcases moved.active_cases active with held | ⟨-, -, unaccepted⟩
    · have liveK := slots.active_live held
      have apart : k ≠ i := by
        rintro rfl
        simp [slots.live_used liveK] at free
      rw [others k apart] at acquire
      by_cases isNew : j = i
      · rw [isNew, new] at release
        exact (released release).2 k liveK acquire
      · rw [others j isNew] at live release
        exact inv.serial j k held acquire live release
    · simp [accepted] at unaccepted

theorem of_run (run : Run machine es w) :
    Meets ReleaseAlone es → submissions es < 2 ^ 64 → TokenInv es w := by
  refine run.history (P := fun es w =>
    Meets ReleaseAlone es → submissions es < 2 ^ 64 → TokenInv es w) ?_ ?_
  · rintro - -
    refine ⟨?_, ?_, ?_, ?_, ?_⟩ <;> simp [machine, CallerPc.submission, OperationSlot.live]
  · intro es w a event next before ih stepped met bound
    obtain ⟨earlier, now⟩ := Meets.append.mp met
    rw [submissions_snoc] at bound
    have inv := ih earlier (by omega)
    have slots := SlotsInv.of_run before
    have moved := step_moves stepped
    cases accepted : event.accepted with
    | true =>
      simp only [accepted, if_true] at bound
      exact inv.accept slots (IdsInv.of_run before (by omega)) bound (Meets.single.mp now) moved
        accepted
    | false =>
      cases granted : event.grants with
      | true => exact inv.grant slots (World.GrantActive.of_run before) moved granted
      | false => exact inv.quiet slots moved accepted granted

/-- The release that goes on the wire carries the last granted token. -/
theorem started (inv : TokenInv es w) (slots : SlotsInv w) (moved : Moves w a next event)
    {slot : OperationSlot} {timeout : Nat} {code : WlErr}
    (started : event = .started slot timeout code) (kind : slot.kind = .releaseLease) :
    lastGrant es = some slot.request.leaseToken := by
  cases moved with
  | launch pc =>
    cases started
    have ok := slots.owner
    simp only [World.OwnerOk, pc] at ok
    exact inv.releases _ (slots.active_live ok.1) kind
  | _ => cases started

end TokenInv

/-- When every release is enqueued with the token on record and with no acquire or
renewal on its way: after a release no acquire starts and the lease is not held until
the user asks for it again, and each release on the wire carries the token of the most
recent grant. -/
theorem release_final {es : Trace} {w : World} (run : Run machine es w)
    (met : Meets ReleaseAlone es) (bound : submissions es < 2 ^ 64) :
    (∀ past e rest s id, es = past ++ e :: rest →
      e.event = .submitted false s { status := .ok, requestId := id } → s.kind = .releaseLease →
      (∀ x ∈ rest, x.action.acquires = false) →
      ∀ x ∈ rest, x.after.endpoint.lease.state ≠ .held ∧
        ∀ slot timeout code, x.event = .started slot timeout code → slot.kind ≠ .acquireLease) ∧
    (∀ past e rest slot timeout code, es = past ++ e :: rest →
      e.event = .started slot timeout code → slot.kind = .releaseLease →
      lastGrant past = some slot.request.leaseToken) := by
  refine ⟨?_, ?_⟩
  · rintro past e rest s id rfl made kind unasked
    have alone : ReleaseAlone e.before e.action := met e (by simp)
    rw [← List.singleton_append, ← List.append_assoc] at run
    exact (Unclaimed.of_run run alone made kind unasked).2
  · rintro past e rest slot timeout code rfl started kind
    obtain ⟨before, stepped⟩ := run.entry
    rw [submissions_append] at bound
    have inv := TokenInv.of_run before (Meets.append.mp met).1 (by omega)
    exact inv.started (SlotsInv.of_run before) (step_moves stepped) started kind

/-- The step enqueues a release. -/
def enqueuesRelease (w : World) : Action → Bool
  | .submit t _ =>
    match w.callers t with
    | .enqueue s => s.kind == .releaseLease
    | _ => false
  | _ => false

theorem ReleaseAlone.of_other {w : World} {a : Action} (other : enqueuesRelease w a = false) :
    ReleaseAlone w a := by
  rintro t clock s rfl pc kind
  simp [enqueuesRelease, pc, kind] at other

/-- Threads that never act stay idle. -/
theorem callers_idle {es : Trace} {w : World} (run : Run machine es w) {t : Nat} :
    (∀ e ∈ es, e.action.thread ≠ some t) → w.callers t = .idle := by
  refine run.history (P := fun es w => (∀ e ∈ es, e.action.thread ≠ some t) →
    w.callers t = .idle) (fun _ => rfl) ?_
  intro es w a event next _ ih stepped others
  rw [(step_moves stepped).caller_frame (others ⟨w, a, event, next⟩ (by simp))]
  exact ih fun e member => others e (List.mem_append_left _ member)

/-- Acquire, release, and the release on the wire. -/
def plainRelease : List Action :=
  heldLease ++ (Call.releaseControlLease 100).through 1 ++ .pass 1 :: ownerTurns 14 1 .ok

def plainReleaseTrace : Trace :=
  ((exec machine plainRelease [] machine.init).get (by decide +kernel)).1

theorem plainReleaseTrace_run : ∃ s, Run machine plainReleaseTrace s := ⟨_, exec_get _⟩

theorem plainReleaseTrace_length : 22 < plainReleaseTrace.length := by decide +kernel

/-- The entry that enqueues the release. -/
def plainReleaseEntry : Entry World Action Event := plainReleaseTrace.get ⟨22, plainReleaseTrace_length⟩

theorem plainReleaseTrace_split : plainReleaseTrace =
    plainReleaseTrace.take 22 ++ plainReleaseEntry :: plainReleaseTrace.drop 23 := by
  simp [plainReleaseEntry]

theorem plainReleaseEntry_alone : ReleaseAlone plainReleaseEntry.before plainReleaseEntry.action := by
  obtain ⟨s, run⟩ := plainReleaseTrace_run
  rw [plainReleaseTrace_split] at run
  have before := run.entry.1
  have enqueued : plainReleaseEntry.before.callers 0 =
    .enqueue ⟨.releaseLease, 100, { leaseToken := 5 }⟩ := rfl
  intro t clock s action pc kind
  have thread : plainReleaseEntry.action = .submit 0 1 := rfl
  rw [thread] at action
  cases action
  rw [enqueued] at pc
  cases pc
  refine ⟨by decide +kernel, by decide +kernel, ?_, by decide +kernel⟩
  intro u r pending
  by_cases same : u = 0
  · subst same
    rw [enqueued] at pending
    cases pending
    decide
  · have alone : ∀ e ∈ plainReleaseTrace.take 22, e.action.thread = none ∨
        e.action.thread = some 0 := by decide +kernel
    rw [callers_idle before] at pending
    · simp [CallerPc.submission] at pending
    · intro e member
      rcases alone e member with h | h <;> simp [h, Ne.symm same]

theorem plainReleaseTrace_alone : Meets ReleaseAlone plainReleaseTrace := by
  rw [plainReleaseTrace_split, ← List.singleton_append]
  refine Meets.append.mpr ⟨?_, Meets.append.mpr ⟨Meets.single.mpr plainReleaseEntry_alone, ?_⟩⟩
  · have others : ∀ e ∈ plainReleaseTrace.take 22, enqueuesRelease e.before e.action = false := by
      decide +kernel
    exact fun e member => .of_other (others e member)
  · have others : ∀ e ∈ plainReleaseTrace.drop 23, enqueuesRelease e.before e.action = false := by
      decide +kernel
    exact fun e member => .of_other (others e member)

theorem release_final_plain : plainReleaseEntry.event = .submitted false
      ⟨.releaseLease, 100, { leaseToken := 5 }⟩ { status := .ok, requestId := 2 } ∧
    ∀ x ∈ plainReleaseTrace.drop 23, x.after.endpoint.lease.state ≠ .held ∧
      ∀ slot timeout code, x.event = .started slot timeout code → slot.kind ≠ .acquireLease := by
  obtain ⟨s, run⟩ := plainReleaseTrace_run
  have final := release_final run plainReleaseTrace_alone (by decide +kernel)
  exact ⟨rfl, final.1 _ _ _ _ 2 plainReleaseTrace_split rfl rfl (by decide +kernel)⟩

/-- Release and renewal race: the release is enqueued between the check and the enqueue
of a renewal, which then runs after the release has completed. -/
def racedRelease : List Action :=
  heldLease ++ .pass 5 :: ownerTurns 11 5 .ok ++ (Call.releaseControlLease 100).through 5 ++
    ownerTurns 5 5 .ok ++
    [.complete secondSlot 6 { status := .success } (some .acknowledged), .owner 6 .ok] ++
    .pass 7 :: ownerTurns 14 7 .ok ++
    [.complete reservedSlot 8 { status := .success } (grant 6 10), .owner 8 .ok]

theorem racedRelease_runs : (exec machine racedRelease [] machine.init).isSome = true := by
  decide +kernel

theorem racedRelease_length :
    34 < ((exec machine racedRelease [] machine.init).get racedRelease_runs).1.length := by
  decide +kernel

/-- The event completes request `id` successfully. -/
def Event.completes (id : Nat) : Event → Bool
  | .finalized r f => r == id && f.status == .ok
  | _ => false

theorem held_after_release : ∃ past e rest w s id, Run machine (past ++ e :: rest) w ∧
    e.event = .submitted false s { status := .ok, requestId := id } ∧ s.kind = .releaseLease ∧
    (∀ x ∈ rest, x.action.acquires = false) ∧
    rest.any (fun x => x.event.completes id) = true ∧ w.endpoint.lease.state = .held := by
  have run := (exec_get racedRelease_runs).at_index ⟨34, racedRelease_length⟩
  exact ⟨_, _, _, _, _, 2, run, rfl, rfl, by decide +kernel, by decide +kernel, by decide +kernel⟩

end Florid.Wirelink
