import Florid.Wirelink.Moves

/-! The slot table over every run: at most one pending slot, named by the active
index; the reserved slot kept for renewals; counters that account for every
admitted call. -/
namespace Florid.Wirelink
open Transition

/-- The owner is between routines or in regions that hold no slot. -/
def OwnerPc.plain : OwnerPc → Bool
  | .launching _ _ | .launched _ _ | .failing _ | .finalizing _ _ _ => false
  | _ => true

/-- The owner is inside `s_finalize` for slot `i`, past the release counter. -/
def OwnerPc.finalizes : OwnerPc → SlotIndex → Bool
  | .finalizing i _ _, j => decide (i = j)
  | _, _ => false

namespace World

/-- The runtime owes a completion for the active slot and for no other. -/
def Settled (w : World) : Prop :=
  (∀ j, w.owed j = true ↔ w.endpoint.activeOperation = some j) ∧
  ∀ j, w.endpoint.activeOperation = some j → (w.endpoint.operations j).admitted = true

/-- What the owner's position says about the slot it works on. -/
def OwnerOk (w : World) : Prop :=
  match w.owner with
  | .launching _ i => w.endpoint.activeOperation = some i ∧
      (w.endpoint.operations i).admitted = false ∧ ∀ j, w.owed j = false
  | .launched i st => w.endpoint.activeOperation = some i ∧
      (w.endpoint.operations i).admitted = false ∧ ∀ j, w.owed j = decide (j = i ∧ st = .ok)
  | .failing i => w.endpoint.Waiting i ∧ w.endpoint.activeOperation = none ∧ ∀ j, w.owed j = false
  | .finalizing i f _ => (w.endpoint.operations i).used = true ∧
      f.kind = (w.endpoint.operations i).kind ∧
      f.internal = (w.endpoint.operations i).internal ∧ terminal f.state = true ∧
      (((w.endpoint.operations i).state = .queued ∧ w.Settled) ∨
        (w.endpoint.activeOperation = some i ∧ ∀ j, w.owed j = false))
  | _ => w.Settled

/-- Admitted calls that are pending and not already being finalized. -/
def inFlight (w : World) : Nat :=
  match w.endpoint.activeOperation with
  | none => 0
  | some i => if (w.endpoint.operations i).admitted && !w.owner.finalizes i then 1 else 0

end World

/-- The slot table and the active index. -/
structure TableOk (operations : SlotIndex → OperationSlot) (active : Option SlotIndex) : Prop where
  empty : ∀ i, (operations i).used = false → operations i = .empty
  live : ∀ i, (operations i).used = true → (operations i).state = .queued ∨
    (operations i).state = .linkPending ∨ terminal (operations i).state = true
  pending : ∀ i, (operations i).state = .linkPending → active = some i
  active : ∀ i, active = some i →
    (operations i).used = true ∧ (operations i).state = .linkPending
  fresh : ∀ i, (operations i).state = .queued → (operations i).admitted = false
  renewal : ∀ i, (operations i).internal = true →
    (operations i).kind = .acquireLease ∧ terminal (operations i).state = false
  reserved : (operations 7).used = true → (operations 7).internal = true

structure SlotsInv (w : World) : Prop where
  table : TableOk w.endpoint.operations w.endpoint.activeOperation
  owner : w.OwnerOk
  counters : w.endpoint.rpcStarted = w.endpoint.rpcReleased + w.inFlight

namespace TableOk
variable {operations : SlotIndex → OperationSlot} {active : Option SlotIndex} {i : SlotIndex}

/-- Rewriting one slot keeps the table when the new slot is well formed and its
pending state agrees with the new active index. -/
theorem update (table : TableOk operations active) {slot : OperationSlot} {next : Option SlotIndex}
    (empty : slot.used = false → slot = .empty)
    (live : slot.used = true → slot.state = .queued ∨ slot.state = .linkPending ∨
      terminal slot.state = true)
    (pending : slot.state = .linkPending ↔ next = some i)
    (used : slot.state = .linkPending → slot.used = true)
    (others : ∀ j, j ≠ i → (next = some j ↔ active = some j))
    (fresh : slot.state = .queued → slot.admitted = false)
    (renewal : slot.internal = true → slot.kind = .acquireLease ∧ terminal slot.state = false)
    (reserved : i = 7 → slot.used = true → slot.internal = true) :
    TableOk (Function.update operations i slot) next := by
  refine ⟨?_, ?_, ?_, ?_, ?_, ?_, ?_⟩
  case refine_7 =>
    by_cases last : (7 : SlotIndex) = i
    · subst last
      simpa using reserved rfl
    · simpa [Function.update_of_ne last] using table.reserved
  all_goals
    intro j
    by_cases same : j = i
    · subst same
      simp only [Function.update_self]
      grind
    · simp only [Function.update_of_ne same]
      have := others j same
      have := table.empty j
      have := table.live j
      have := table.pending j
      have := table.active j
      have := table.fresh j
      have := table.renewal j
      grind

/-- The owner moves a live slot between queued and pending. -/
theorem restate (table : TableOk operations active) {state : FciOperationState} {admitted : Bool}
    {next : Option SlotIndex} (used : (operations i).used = true)
    (live : state = .queued ∧ admitted = false ∨ state = .linkPending)
    (pending : state = .linkPending ↔ next = some i)
    (others : ∀ j, j ≠ i → (next = some j ↔ active = some j)) :
    TableOk (Function.update operations i { operations i with state, admitted }) next := by
  refine table.update ?_ ?_ pending (fun _ => used) others ?_ ?_ ?_
  · simp [used]
  · rintro -
    exact live.imp And.left .inl
  · rintro (rfl : state = .queued)
    simpa using live
  · intro internal
    refine ⟨(table.renewal i internal).1, ?_⟩
    rcases live with ⟨h, _⟩ | h <;> simp only [h, terminal]
  · rintro rfl
    exact table.reserved

end TableOk

namespace SlotsInv
variable {w next : World}

theorem ownerOk_plain (plain : w.owner.plain = true) : w.OwnerOk ↔ w.Settled := by
  unfold World.OwnerOk
  split <;> simp_all [OwnerPc.plain]

theorem settled (inv : SlotsInv w) (plain : w.owner.plain = true) : w.Settled :=
  (ownerOk_plain plain).mp inv.owner

theorem finalizes_plain {pc : OwnerPc} (plain : pc.plain = true) (i : SlotIndex) :
    pc.finalizes i = false := by
  cases pc <;> simp_all [OwnerPc.plain, OwnerPc.finalizes]

theorem resumed_plain (resume : Option (TimeMs × Nat)) :
    (OwnerPc.resumed resume).plain = true := by
  unfold OwnerPc.resumed
  split <;> rfl

/-- The owner looks only at queued and pending slots. A change elsewhere keeps the
invariant while the owner stays where it is. -/
theorem frame (inv : SlotsInv w)
    (table : TableOk next.endpoint.operations next.endpoint.activeOperation)
    (kept : ∀ j, (w.endpoint.operations j).state = .queued ∨
      (w.endpoint.operations j).state = .linkPending →
      next.endpoint.operations j = w.endpoint.operations j)
    (active : next.endpoint.activeOperation = w.endpoint.activeOperation)
    (started : next.endpoint.rpcStarted = w.endpoint.rpcStarted)
    (released : next.endpoint.rpcReleased = w.endpoint.rpcReleased)
    (owed : next.owed = w.owed) (owner : next.owner = w.owner) : SlotsInv next := by
  have atActive : ∀ j, w.endpoint.activeOperation = some j →
      next.endpoint.operations j = w.endpoint.operations j :=
    fun j h => kept j (.inr (inv.table.active j h).2)
  have settled : w.Settled → next.Settled := by
    rintro ⟨completions, admitted⟩
    refine ⟨by simpa only [owed, active] using completions, ?_⟩
    intro j h
    rw [active] at h
    rw [atActive j h]
    exact admitted j h
  refine ⟨table, ?_, ?_⟩
  · have ok := inv.owner
    unfold World.OwnerOk at ok ⊢
    rw [owner, active, owed]
    split at ok
    · exact ⟨ok.1, atActive _ ok.1 ▸ ok.2.1, ok.2.2⟩
    · exact ⟨ok.1, atActive _ ok.1 ▸ ok.2.1, ok.2.2⟩
    · rename_i i _
      have same := kept i (.inl ok.1.2)
      exact ⟨⟨same ▸ ok.1.1, same ▸ ok.1.2⟩, ok.2⟩
    · rename_i i f _ _
      obtain ⟨used, kind, internal, done, place⟩ := ok
      have same : next.endpoint.operations i = w.endpoint.operations i := by
        rcases place with ⟨queued, _⟩ | ⟨held, _⟩
        · exact kept i (.inl queued)
        · exact atActive i held
      rw [same]
      refine ⟨used, kind, internal, done, ?_⟩
      exact place.imp (fun h => ⟨h.1, settled h.2⟩) id
    · exact settled ok
  · have counted := inv.counters
    unfold World.inFlight at counted ⊢
    rw [started, released, active, owner]
    cases h : w.endpoint.activeOperation with
    | none => simpa only [h] using counted
    | some j =>
      simp only [h] at counted ⊢
      rwa [atActive j h]

/-- The same when the owner moves between two positions that hold no slot. -/
theorem turn (inv : SlotsInv w) (before : w.owner.plain = true) (after : next.owner.plain = true)
    (table : TableOk next.endpoint.operations next.endpoint.activeOperation)
    (kept : ∀ j, (w.endpoint.operations j).state = .linkPending →
      next.endpoint.operations j = w.endpoint.operations j)
    (active : next.endpoint.activeOperation = w.endpoint.activeOperation)
    (started : next.endpoint.rpcStarted = w.endpoint.rpcStarted)
    (released : next.endpoint.rpcReleased = w.endpoint.rpcReleased)
    (owed : next.owed = w.owed) : SlotsInv next := by
  have atActive : ∀ j, w.endpoint.activeOperation = some j →
      next.endpoint.operations j = w.endpoint.operations j :=
    fun j h => kept j (inv.table.active j h).2
  refine ⟨table, (ownerOk_plain after).mpr ?_, ?_⟩
  · obtain ⟨completions, admitted⟩ := inv.settled before
    refine ⟨by simpa only [owed, active] using completions, ?_⟩
    intro j h
    rw [active] at h
    rw [atActive j h]
    exact admitted j h
  · have counted := inv.counters
    unfold World.inFlight at counted ⊢
    rw [started, released, active]
    cases h : w.endpoint.activeOperation with
    | none => simpa only [h] using counted
    | some j =>
      simp only [h, finalizes_plain before, finalizes_plain after] at counted ⊢
      rwa [atActive j h]

/-- A free slot takes a new submission. -/
theorem table_submit (inv : SlotsInv w) {i : SlotIndex} {internal : Bool} {id : Nat} {kind : RpcKind}
    {timeoutMs : Nat} {clock : TimeMs} {request : OperationRequest}
    (free : (w.endpoint.operations i).used = false) (outer : internal = false → i ≠ 7)
    (renews : internal = true → kind = .acquireLease) :
    TableOk (Function.update w.endpoint.operations i
      (Endpoint.submittedSlot id kind timeoutMs clock request internal))
      w.endpoint.activeOperation := by
  have inactive : w.endpoint.activeOperation ≠ some i := by
    intro h
    simp [(inv.table.active i h).1] at free
  apply inv.table.update <;> simp_all [Endpoint.submittedSlot, terminal]
  rintro rfl
  cases internal <;> simp_all

/-- Entering `s_finalize` leaves the table and moves one admitted call from the
pending to the released count. -/
theorem beginFinalize {i : SlotIndex} {clock : TimeMs} {completion : RpcCompletion}
    {response : Option Response} {resume : Option (TimeMs × Nat)}
    (table : TableOk w.endpoint.operations w.endpoint.activeOperation)
    (counted : w.endpoint.rpcStarted = w.endpoint.rpcReleased + w.inFlight)
    (used : (w.endpoint.operations i).used = true)
    (place : ((w.endpoint.operations i).state = .queued ∧ w.Settled) ∨
      (w.endpoint.activeOperation = some i ∧ ∀ j, w.owed j = false))
    (outside : ∀ j, w.owner.finalizes j = false) :
    SlotsInv (w.beginFinalize i clock completion response resume) := by
  obtain ⟨kind, internal, _, state⟩ :=
    Endpoint.finalization_spec (w.endpoint.operations i) clock completion response
  refine ⟨table, ⟨used, kind, internal, ?_, place⟩, ?_⟩
  · rw [state]
    exact Endpoint.completionState_terminal _
  · simp only [World.inFlight, outside] at counted
    simp only [World.inFlight, World.beginFinalize, Endpoint.finalizeCounters, OwnerPc.finalizes]
    rcases place with ⟨queued, _⟩ | ⟨held, _⟩
    · have fresh := table.fresh i queued
      cases h : w.endpoint.activeOperation with
      | none => simpa [h, fresh] using counted
      | some j =>
        have apart : i ≠ j := by
          rintro rfl
          simp [(table.active i h).2] at queued
        simpa [h, fresh, apart] using counted
    · cases admitted : (w.endpoint.operations i).admitted <;> simp_all

/-- Slot and active index after the last region of `s_finalize`. -/
theorem table_finalize (inv : SlotsInv w) {i : SlotIndex} {f : Endpoint.Finalization}
    {resume : Option (TimeMs × Nat)} (pc : w.owner = .finalizing i f resume) :
    TableOk (w.endpoint.finalize i f).operations (w.endpoint.finalize i f).activeOperation := by
  have ok := inv.owner
  simp only [World.OwnerOk, pc] at ok
  obtain ⟨used, kind, internal, done, _⟩ := ok
  have notPending : f.state ≠ .linkPending := by
    intro h
    simp [h, terminal] at done
  have notQueued : f.state ≠ .queued := by
    intro h
    simp [h, terminal] at done
  have others : ∀ j, j ≠ i →
      ((if w.endpoint.activeOperation = some i then none else w.endpoint.activeOperation) = some j ↔
        w.endpoint.activeOperation = some j) := by
    intro j apart
    split
    · rename_i h
      simpa [h] using Ne.symm apart
    · rfl
  have cleared :
      (if w.endpoint.activeOperation = some i then none else w.endpoint.activeOperation) ≠ some i := by
    split <;> simp_all
  simp only [Endpoint.finalize_operations, Endpoint.finalize_activeOperation]
  cases renewal : f.internal
  · simp only [Bool.false_eq_true, if_false]
    apply inv.table.update <;> simp_all [Endpoint.finalizedSlot]
    rintro rfl
    have := inv.table.reserved used
    simp_all
  · simp only [if_true]
    apply inv.table.update <;> simp_all

theorem table_stop (table : TableOk w.endpoint.operations w.endpoint.activeOperation) :
    TableOk w.endpoint.stopOnOwner.operations w.endpoint.stopOnOwner.activeOperation := by
  simp only [Endpoint.stopOnOwner]
  have cases : ∀ i, Endpoint.stopSlot (w.endpoint.operations i) = w.endpoint.operations i ∧
        (w.endpoint.operations i).state ≠ .queued ∨
      (w.endpoint.operations i).state = .queued ∧ (w.endpoint.operations i).used = true ∧
        ((w.endpoint.operations i).internal = true ∧
            Endpoint.stopSlot (w.endpoint.operations i) = .empty ∨
          (w.endpoint.operations i).internal = false ∧
            Endpoint.stopSlot (w.endpoint.operations i) =
              { w.endpoint.operations i with state := .cancelled, status := .cancelled }) := by
    intro i
    unfold Endpoint.stopSlot
    by_cases queued : (w.endpoint.operations i).state = .queued
    · have used : (w.endpoint.operations i).used = true := by
        by_contra unused
        have := table.empty i (Bool.eq_false_of_not_eq_true unused)
        simp [this] at queued
      cases internal : (w.endpoint.operations i).internal <;> simp [queued, used, terminal, internal]
    · simp [queued]
  refine ⟨?_, ?_, ?_, ?_, ?_, ?_, ?_⟩
  case refine_7 =>
    rcases cases 7 with ⟨same, _⟩ | ⟨_, used, ⟨internal, empty⟩ | ⟨internal, cancelled⟩⟩
    · simpa only [same] using table.reserved
    · simp [empty]
    · simp [table.reserved used] at internal
  all_goals
    intro i
    have := table.empty i
    have := table.live i
    have := table.pending i
    have := table.active i
    have := table.fresh i
    have := table.renewal i
    rcases cases i with ⟨same, _⟩ | ⟨queued, used, ⟨internal, empty⟩ | ⟨internal, cancelled⟩⟩
    · simp only [same]
      assumption
    · simp_all [terminal]
    · simp_all [terminal]

/-- Selecting a queued slot makes it the one pending slot. -/
theorem select (inv : SlotsInv w) {now : TimeMs} {i : SlotIndex} {lease : FciControlLeaseSnapshot}
    (pc : w.owner = .startNext now) (inactive : w.endpoint.activeOperation = none)
    (waiting : w.endpoint.Waiting i) :
    SlotsInv { w with
      endpoint := { w.endpoint.setSlot i { w.endpoint.operations i with state := .linkPending } with
        activeOperation := some i, lease }
      owner := .launching now i } := by
  have settled := inv.settled (by simp [pc, OwnerPc.plain])
  have fresh := inv.table.fresh i waiting.2
  refine ⟨?_, ⟨rfl, by simpa using fresh, ?_⟩, ?_⟩
  · have others : ∀ j, j ≠ i → (some i = some j ↔ w.endpoint.activeOperation = some j) := by
      intro j apart
      simpa [inactive] using Ne.symm apart
    exact inv.table.restate waiting.1 (.inr rfl) (by simp) others
  · intro j
    have := settled.1 j
    simpa [inactive] using this
  · have counted := inv.counters
    simp_all [World.inFlight]

/-- The runtime's answer returns: the slot is admitted or back in the queue. -/
theorem commit (inv : SlotsInv w) {i : SlotIndex} {started : WlErr}
    (pc : w.owner = .launched i started) :
    SlotsInv { w with
      endpoint := w.endpoint.startCommit i started
      owner := if started = .ok || Endpoint.retryable started then .idle else .failing i } := by
  have ok := inv.owner
  simp only [World.OwnerOk, pc] at ok
  obtain ⟨held, unadmitted, owed⟩ := ok
  obtain ⟨used, pending⟩ := inv.table.active i held
  have counted := inv.counters
  by_cases accepted : started = .ok
  · subst accepted
    simp only [Endpoint.startCommit, decide_true, Bool.true_or, if_true]
    refine ⟨?_, ?_, ?_⟩
    · exact inv.table.restate used (.inr pending) (by simp [pending, held]) (fun _ _ => Iff.rfl)
    · refine ⟨?_, ?_⟩
      · intro j
        simp [owed, held, eq_comm]
      · intro j active
        obtain rfl : i = j := by simpa [held] using active
        simp
    · simp_all [World.inFlight, OwnerPc.finalizes]
  · have requeued : w.endpoint.startCommit i started =
        { w.endpoint.setSlot i { w.endpoint.operations i with state := .queued } with
          activeOperation := none } := by
      cases started <;> simp_all [Endpoint.startCommit]
    rw [requeued]
    refine ⟨?_, ?_, ?_⟩
    · refine inv.table.restate used (.inl ⟨rfl, unadmitted⟩) (by simp) ?_
      intro j apart
      simpa [held] using Ne.symm apart
    · simp only [accepted, decide_false, Bool.false_or]
      have none : ∀ j, w.owed j = false := by simp [owed, accepted]
      split
      · simp [World.OwnerOk, World.Settled, none]
      · simp [World.OwnerOk, Endpoint.Waiting, none, used]
    · simp_all [World.inFlight]

/-- The last region of `s_finalize` hands the slot over and frees the active index. -/
theorem finish (inv : SlotsInv w) {i : SlotIndex} {f : Endpoint.Finalization}
    {resume : Option (TimeMs × Nat)} (pc : w.owner = .finalizing i f resume) :
    SlotsInv { w with
      endpoint := w.endpoint.finalize i f
      owner := .resumed resume } := by
  have ok := inv.owner
  have counted := inv.counters
  simp only [World.OwnerOk, pc] at ok
  simp only [World.inFlight, pc, OwnerPc.finalizes] at counted
  have plain := resumed_plain resume
  refine ⟨inv.table_finalize pc, (ownerOk_plain plain).mpr ?_, ?_⟩
  · rcases ok.2.2.2.2 with ⟨queued, completions, admitted⟩ | ⟨held, owed⟩
    · have inactive : w.endpoint.activeOperation ≠ some i := by
        intro held
        simp [(inv.table.active i held).2] at queued
      refine ⟨by simpa [inactive] using completions, ?_⟩
      intro j held
      have active : w.endpoint.activeOperation = some j := by simpa [inactive] using held
      have apart : j ≠ i := fun same => inactive (same ▸ active)
      simpa [Function.update_of_ne apart] using admitted j active
    · simp [World.Settled, held, owed]
  · rcases ok.2.2.2.2 with ⟨queued, _⟩ | ⟨held, _⟩
    · simp only [World.inFlight, Endpoint.finalize_activeOperation, Endpoint.finalize_rpcStarted,
        Endpoint.finalize_rpcReleased, Endpoint.finalize_operations, finalizes_plain plain]
      cases h : w.endpoint.activeOperation with
      | none => simpa [h] using counted
      | some j =>
        have apart : j ≠ i := by
          rintro rfl
          simp [(inv.table.active _ h).2] at queued
        simpa [h, apart, Ne.symm apart, Function.update_of_ne apart] using counted
    · simpa [World.inFlight, held] using counted

/-- Every move keeps the invariant. -/
theorem moves {a : Action} {event : Event} (inv : SlotsInv w) (moved : Moves w a next event) :
    SlotsInv next := by
  cases moved with
  | refused | tokenBusy | inspected | waited | tookNothing => exact inv
  | called | blocked | passed | rejected | tokenGate | tokenRead | upgrade =>
    exact inv.frame inv.table (fun _ _ => rfl) rfl rfl rfl rfl rfl
  | queued pc running free last =>
    refine inv.frame (inv.table_submit free (fun _ => last) (by simp)) ?_ rfl rfl rfl rfl rfl
    intro j live
    refine Function.update_of_ne ?_ _ _
    rintro rfl
    simp [inv.table.empty _ free] at live
  | took found done accepted =>
    rename_i kind id i
    have inactive : w.endpoint.activeOperation ≠ some i := by
      intro held
      simp [(inv.table.active i held).2, terminal] at done
    refine inv.frame ?_ ?_ rfl rfl rfl rfl rfl
    · apply inv.table.update <;> simp_all
    · intro j live
      refine Function.update_of_ne ?_ _ _
      rintro rfl
      rcases live with live | live <;> simp [live, terminal] at done
  | pass pc | notExpired _ pc | notDue pc | due pc | renewalBlocked pc | renewalPassed pc
  | renewalRejected pc | nothingToStart pc | dropLease pc =>
    exact inv.turn (by simp [pc, OwnerPc.plain]) rfl inv.table (fun _ _ => rfl) rfl rfl rfl rfl
  | readGate pc =>
    refine inv.turn (by simp [pc, OwnerPc.plain]) ?_ inv.table (fun _ _ => rfl) rfl rfl rfl rfl
    cases w.upgradeActive <;> rfl
  | expireLease pc =>
    rename_i now _ _
    have kept : w.endpoint.expireLease now = { w.endpoint with
        lease := (w.endpoint.expireLease now).lease } := by
      unfold Endpoint.expireLease
      split <;> rfl
    rw [kept]
    exact inv.turn (by simp [pc, OwnerPc.plain]) rfl inv.table (fun _ _ => rfl) rfl rfl rfl rfl
  | renewalQueued pc running free =>
    refine inv.turn (by simp [pc, OwnerPc.plain]) rfl
      (inv.table_submit free (by simp) (by simp)) ?_ rfl rfl rfl rfl
    intro j live
    refine Function.update_of_ne ?_ _ _
    rintro rfl
    simp [inv.table.empty _ free] at live
  | expiredInQueue bound pc expired =>
    simp only [Endpoint.queueExpired, Bool.and_eq_true, beq_iff_eq] at expired
    exact beginFinalize inv.table inv.counters expired.1.1
      (.inl ⟨expired.1.2, inv.settled (by simp [pc, OwnerPc.plain])⟩) (by simp [pc, OwnerPc.finalizes])
  | selected pc inactive found =>
    exact inv.select pc inactive (Endpoint.findQueuedSlot_some found).1
  | expiredAtStart pc timedOut =>
    have ok := inv.owner
    simp only [World.OwnerOk, pc] at ok
    exact beginFinalize inv.table inv.counters (inv.table.active _ ok.1).1
      (.inr ⟨ok.1, ok.2.2⟩) (by simp [pc, OwnerPc.finalizes])
  | launch pc time =>
    rename_i clock st now i
    have ok := inv.owner
    have counted := inv.counters
    simp only [World.OwnerOk, pc] at ok
    refine ⟨inv.table, ⟨ok.1, ok.2.1, ?_⟩, ?_⟩
    · intro j
      by_cases accepted : st = .ok <;> by_cases same : j = i <;>
        simp [accepted, same, ok.2.2]
    · simpa [World.inFlight, pc, OwnerPc.finalizes] using counted
  | startCommit pc => exact inv.commit pc
  | startFailed pc =>
    have ok := inv.owner
    simp only [World.OwnerOk, pc] at ok
    refine beginFinalize inv.table inv.counters ok.1.1 (.inl ⟨ok.1.2, ?_, ?_⟩)
      (by simp [pc, OwnerPc.finalizes])
    · simp [ok.2.1, ok.2.2]
    · simp [ok.2.1]
  | finalize pc => exact inv.finish pc
  | complete pc owes fits =>
    rename_i i clock completion response
    obtain ⟨completions, admitted⟩ := inv.settled (by simp [pc, OwnerPc.plain])
    have held := (completions i).mp owes
    refine beginFinalize (w := { w with owed := Function.update w.owed i false }) inv.table
      inv.counters (inv.table.active i held).1 (.inr ⟨held, ?_⟩) (by simp [pc, OwnerPc.finalizes])
    intro j
    by_cases same : j = i
    · simp [same]
    · have := completions j
      simp only [held, Option.some.injEq] at this
      simpa [Function.update_of_ne same, Ne.symm same] using this
  | quiesce pc =>
    refine inv.turn (by simp [pc, OwnerPc.plain]) (by simp [pc, OwnerPc.plain])
      (table_stop inv.table) ?_ rfl rfl rfl rfl
    intro j pending
    simp [Endpoint.stopOnOwner, Endpoint.stopSlot, pending]

theorem initial : SlotsInv machine.init := by
  refine ⟨⟨?_, ?_, ?_, ?_, ?_, ?_, ?_⟩, ⟨?_, ?_⟩, rfl⟩ <;> simp [machine]

theorem step {a : Action} {event : Event} (inv : SlotsInv w)
    (stepped : w.step a = some (next, event)) : SlotsInv next :=
  inv.moves (step_moves stepped)

theorem of_run {es : List (Entry World Action Event)} (run : Run machine es w) : SlotsInv w :=
  run.invariant initial step

end SlotsInv
end Florid.Wirelink
