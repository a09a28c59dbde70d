import Florid.Wirelink.SlotInvariant
import Mathlib.Data.Fintype.Basic

/-! Request ids over every run. One lemma says how a single slot may change in one
move; that ids stay distinct, and later the life of one request, follow from it. -/
namespace Florid.Wirelink
open Transition

/-- A history of the endpoint. -/
abbrev Trace := List (Entry World Action Event)

/-- The event is a submission that got an id. -/
def Event.accepted : Event → Bool
  | .submitted _ _ result => result.status == .ok
  | _ => false

def submissions (es : Trace) : Nat := es.countP fun e => e.event.accepted

theorem submissions_append (es fs : Trace) :
    submissions (es ++ fs) = submissions es + submissions fs := by
  simp [submissions]

theorem submissions_snoc (es : Trace) (e : Entry World Action Event) :
    submissions (es ++ [e]) = submissions es + if e.event.accepted then 1 else 0 := by
  simp [submissions, List.countP_append, List.countP_cons]

/-- How one slot may change in one move. -/
inductive SlotChange (a : Action) (event : Event) : OperationSlot → OperationSlot → Prop where
  | kept {slot} : SlotChange a event slot slot
  | submitted {slot internal s clock id} : slot.used = false →
      event = .submitted internal s { status := .ok, requestId := id } →
      SlotChange a event slot
        (Endpoint.submittedSlot id s.kind s.timeoutMs clock s.request internal)
  | restated {slot state admitted} : slot.used = true →
      slot.state = .queued ∨ slot.state = .linkPending → state = .queued ∨ state = .linkPending →
      SlotChange a event slot { slot with state, admitted }
  | finalized {slot f} : slot.used = true → slot.state = .queued ∨ slot.state = .linkPending →
      slot.internal = false → terminal f.state = true →
      SlotChange a event slot (Endpoint.finalizedSlot slot f)
  | cancelled {slot} : slot.used = true → slot.state = .queued → slot.internal = false →
      SlotChange a event slot { slot with state := .cancelled, status := .cancelled }
  | dropped {slot} : slot.internal = true → SlotChange a event slot .empty
  | taken {slot kind} : terminal slot.state = true → a = .take kind slot.requestId →
      event = .took { status := slot.status, result := some (Endpoint.result slot)
                      value := kind.value slot } →
      SlotChange a event slot .empty

/-- Rewriting slot `i` alone changes each slot in an admissible way. -/
theorem SlotChange.update {a : Action} {event : Event} {operations : SlotIndex → OperationSlot} {i : SlotIndex}
    {slot : OperationSlot} (change : SlotChange a event (operations i) slot) (j : SlotIndex) :
    SlotChange a event (operations j) (Function.update operations i slot j) := by
  by_cases same : j = i
  · subst same
    simpa using change
  · rw [Function.update_of_ne same]
    exact .kept

namespace Endpoint

/-- `s_stopOnOwner` cancels queued public slots and drops queued renewals. -/
theorem stopSlot_change {a : Action} {event : Event} (slot : OperationSlot) :
    SlotChange a event slot (stopSlot slot) := by
  unfold stopSlot
  split
  · exact .kept
  · rename_i queued
    simp only [Bool.or_eq_true, Bool.not_eq_true', bne_iff_ne, ne_eq, not_or, not_not,
      Bool.not_eq_false, Bool.not_eq_true] at queued
    split
    · exact .dropped ‹_›
    · exact .cancelled queued.1.1 queued.2 (Bool.eq_false_of_not_eq_true ‹_›)

end Endpoint

namespace SlotsInv
variable {w next : World} {a : Action} {event : Event}

/-- What one move does to one slot. -/
theorem slot_change (inv : SlotsInv w) (moved : Moves w a next event) (j : SlotIndex) :
    SlotChange a event (w.endpoint.operations j) (next.endpoint.operations j) := by
  cases moved with
  | queued pc running free => exact SlotChange.update (.submitted free rfl) j
  | renewalQueued pc running free =>
    exact SlotChange.update (.submitted (s := ⟨.acquireLease, _, _⟩) free rfl) j
  | took found done =>
    refine SlotChange.update (.taken done ?_ rfl) j
    rw [(Endpoint.findSlot_some found).2]
  | selected pc inactive found =>
    have waiting := (Endpoint.findQueuedSlot_some found).1
    exact SlotChange.update (.restated waiting.1 (.inl waiting.2) (.inr rfl)) j
  | startCommit pc =>
    rename_i clock st i started
    have ok := inv.owner
    simp only [World.OwnerOk, pc] at ok
    obtain ⟨used, pending⟩ := inv.table.active i ok.1
    cases started with
    | ok => exact SlotChange.update (.restated used (.inr pending) (.inr pending)) j
    | busy | wouldBlock | other =>
      exact SlotChange.update (.restated used (.inr pending) (.inl rfl)) j
  | finalize pc =>
    rename_i clock st i f resume
    have ok := inv.owner
    simp only [World.OwnerOk, pc] at ok
    obtain ⟨used, -, internal, done, place⟩ := ok
    have live : (w.endpoint.operations i).state = .queued ∨
        (w.endpoint.operations i).state = .linkPending :=
      place.imp And.left fun held => (inv.table.active i held.1).2
    rw [Endpoint.finalize_operations]
    cases renewal : f.internal
    · exact SlotChange.update (.finalized used live (internal ▸ renewal) done) j
    · exact SlotChange.update (.dropped (internal ▸ renewal)) j
  | quiesce => exact Endpoint.stopSlot_change _
  | expireLease pc =>
    simp only [Endpoint.expireLease]
    split <;> exact .kept
  | refused | called | blocked | passed | rejected | tokenBusy | tokenGate | tokenRead | inspected
  | waited | tookNothing | pass | expiredInQueue | notExpired | readGate | dropLease | notDue | due
  | renewalBlocked | renewalPassed | renewalRejected | nothingToStart | expiredAtStart | launch
  | startFailed | complete | upgrade => exact .kept

end SlotsInv

/-- A slot in use after an unaccepted move was in use before, under the same id. -/
theorem SlotChange.same_id {a : Action} {event : Event} {slot next : OperationSlot}
    (change : SlotChange a event slot next) (quiet : event.accepted = false)
    (used : next.used = true) : slot.used = true ∧ next.requestId = slot.requestId := by
  cases change with
  | submitted _ made => simp [made, Event.accepted] at quiet
  | kept | restated | finalized | cancelled => exact ⟨used, rfl⟩
  | dropped | taken => simp at used

/-- An accepted submission fills one free slot under the next id. -/
theorem Moves.accepted {w next : World} {a : Action} {event : Event} (moved : Moves w a next event)
    (accepted : event.accepted = true) :
    ∃ internal s clock i,
      event = .submitted internal s { status := .ok, requestId := w.endpoint.nextRequestId } ∧
      w.endpoint.running = true ∧ (w.endpoint.operations i).used = false ∧
      next.endpoint.operations = Function.update w.endpoint.operations i
        (Endpoint.submittedSlot w.endpoint.nextRequestId s.kind s.timeoutMs clock s.request
          internal) ∧
      next.endpoint.nextRequestId = Endpoint.successorId w.endpoint.nextRequestId := by
  cases moved <;> simp only [Event.accepted, Bool.false_eq_true] at accepted
  case blocked => simp at accepted
  case rejected failed => simp [failed] at accepted
  case renewalRejected failed => simp [failed] at accepted
  case queued t s clock i pc running free last =>
    exact ⟨false, s, clock, i, rfl, running, free, rfl, rfl⟩
  case renewalQueued clock st now request i pc running free =>
    exact ⟨true, ⟨.acquireLease, _, request⟩, clock, i, rfl, running, free, rfl, rfl⟩

theorem Moves.same_next_id {w next : World} {a : Action} {event : Event}
    (moved : Moves w a next event) (quiet : event.accepted = false) :
    next.endpoint.nextRequestId = w.endpoint.nextRequestId := by
  cases moved with
  | queued | renewalQueued => simp [Event.accepted] at quiet
  | startCommit =>
    rename_i started _
    cases started <;> rfl
  | finalize => exact Endpoint.finalize_nextRequestId ..
  | expireLease =>
    simp only [Endpoint.expireLease]
    split <;> rfl
  | _ => rfl

/-- Ids after `n` submissions: handed out in order from 1 until the counter comes
round, and no two slots in use share one. -/
structure IdsInv (n : Nat) (w : World) : Prop where
  next : w.endpoint.nextRequestId = if n + 1 < 2 ^ 64 then n + 1 else 1
  bounds : ∀ i, (w.endpoint.operations i).used = true →
    1 ≤ (w.endpoint.operations i).requestId ∧ (w.endpoint.operations i).requestId ≤ n
  distinct : ∀ i j, (w.endpoint.operations i).used = true → (w.endpoint.operations j).used = true →
    (w.endpoint.operations i).requestId = (w.endpoint.operations j).requestId → i = j

namespace IdsInv
variable {w next : World} {n : Nat} {a : Action} {event : Event}

theorem quiet (ids : IdsInv n w) (inv : SlotsInv w) (moved : Moves w a next event)
    (unaccepted : event.accepted = false) : IdsInv n next := by
  have earlier j := (inv.slot_change moved j).same_id unaccepted
  refine ⟨(moved.same_next_id unaccepted).trans ids.next, ?_, ?_⟩
  · intro i used
    obtain ⟨before, same⟩ := earlier i used
    rw [same]
    exact ids.bounds i before
  · intro i j usedI usedJ equal
    obtain ⟨beforeI, sameI⟩ := earlier i usedI
    obtain ⟨beforeJ, sameJ⟩ := earlier j usedJ
    rw [sameI, sameJ] at equal
    exact ids.distinct i j beforeI beforeJ equal

theorem next_id (ids : IdsInv n w) (bound : n + 1 < 2 ^ 64) :
    w.endpoint.nextRequestId = n + 1 := by
  rw [ids.next, if_pos bound]

theorem accept (ids : IdsInv n w) (moved : Moves w a next event) (bound : n + 1 < 2 ^ 64)
    (accepted : event.accepted = true) : IdsInv (n + 1) next := by
  obtain ⟨internal, s, clock, i, -, -, free, filled, counter⟩ := moved.accepted accepted
  have others j (apart : j ≠ i) : next.endpoint.operations j = w.endpoint.operations j := by
    rw [filled, Function.update_of_ne apart]
  have new : (next.endpoint.operations i).requestId = n + 1 := by
    rw [filled, Function.update_self, Endpoint.submittedSlot, ids.next_id bound]
  have older j (apart : j ≠ i) (used : (next.endpoint.operations j).used = true) :
      1 ≤ (next.endpoint.operations j).requestId ∧
        (next.endpoint.operations j).requestId ≤ n := by
    rw [others j apart] at used ⊢
    exact ids.bounds j used
  refine ⟨?_, ?_, ?_⟩
  · rw [counter, ids.next_id bound, Endpoint.successorId]
    by_cases last : n + 1 + 1 < 2 ^ 64
    · rw [Nat.mod_eq_of_lt last, if_neg (by omega), if_pos last]
    · rw [show n + 1 + 1 = 2 ^ 64 by omega]
      rfl
  · intro j used
    by_cases same : j = i
    · rw [same, new]
      omega
    · have := older j same used
      omega
  · intro j k usedJ usedK equal
    by_cases sameJ : j = i <;> by_cases sameK : k = i
    · rw [sameJ, sameK]
    · have := older k sameK usedK
      rw [sameJ, new] at equal
      omega
    · have := older j sameJ usedJ
      rw [sameK, new] at equal
      omega
    · rw [others j sameJ] at usedJ equal
      rw [others k sameK] at usedK equal
      exact ids.distinct j k usedJ usedK equal

/-- Ids stay distinct until the 64-bit counter comes round. -/
theorem of_run {es : Trace} (run : Run machine es w) :
    submissions es < 2 ^ 64 → IdsInv (submissions es) w := by
  refine run.history (P := fun es w => submissions es < 2 ^ 64 → IdsInv (submissions es) w) ?_ ?_
  · rintro -
    refine ⟨rfl, ?_, ?_⟩ <;> simp [machine]
  · intro es w a event next before ih stepped bound
    have moved := step_moves stepped
    rw [submissions_snoc] at bound ⊢
    cases accepted : event.accepted
    · simp only [accepted, Bool.false_eq_true, if_false, Nat.add_zero] at bound ⊢
      exact (ih bound).quiet (SlotsInv.of_run before) moved accepted
    · simp only [accepted, if_true] at bound ⊢
      exact (ih (by omega)).accept moved bound accepted

end IdsInv

/-- Slots whose RPC the runtime admitted and that are still pending. -/
def World.admittedPending (w : World) : Finset SlotIndex :=
  .filter (fun i => ((w.endpoint.operations i).used && (w.endpoint.operations i).admitted &&
    (w.endpoint.operations i).state == .linkPending) = true) .univ

/-- The owner is inside `s_finalize`, whose release counter runs ahead of the table. -/
def OwnerPc.inFinalize : OwnerPc → Bool
  | .finalizing _ _ _ => true
  | _ => false

namespace SlotsInv
variable {w : World}

theorem mem_admittedPending (inv : SlotsInv w) (i : SlotIndex) : i ∈ w.admittedPending ↔
    w.endpoint.activeOperation = some i ∧ (w.endpoint.operations i).admitted = true := by
  simp only [World.admittedPending, Finset.mem_filter, Finset.mem_univ, true_and,
    Bool.and_eq_true, beq_iff_eq]
  constructor
  · rintro ⟨⟨_, admitted⟩, pending⟩
    exact ⟨inv.table.pending i pending, admitted⟩
  · rintro ⟨held, admitted⟩
    obtain ⟨used, pending⟩ := inv.table.active i held
    exact ⟨⟨used, admitted⟩, pending⟩

theorem admittedPending_le_one (inv : SlotsInv w) : w.admittedPending.card ≤ 1 := by
  rw [Finset.card_le_one]
  intro i memberI j memberJ
  have heldI := ((inv.mem_admittedPending i).mp memberI).1
  have heldJ := ((inv.mem_admittedPending j).mp memberJ).1
  exact Option.some.inj (heldI.symm.trans heldJ)

/-- Counting the pending slots outside the one being finalized. -/
theorem card_admittedPending (inv : SlotsInv w) :
    (w.admittedPending.filter fun i => w.owner.finalizes i = false).card = w.inFlight := by
  unfold World.inFlight
  cases held : w.endpoint.activeOperation with
  | none =>
    rw [Finset.card_eq_zero, Finset.eq_empty_iff_forall_notMem]
    intro i
    simp [inv.mem_admittedPending, held]
  | some i =>
    have member j : j ∈ (w.admittedPending.filter fun i => w.owner.finalizes i = false) ↔
        i = j ∧ (w.endpoint.operations j).admitted = true ∧ w.owner.finalizes j = false := by
      simp [inv.mem_admittedPending, held, and_assoc]
    dsimp only
    by_cases counted : (w.endpoint.operations i).admitted = true ∧ w.owner.finalizes i = false
    · rw [if_pos (by simpa using counted), Finset.card_eq_one]
      refine ⟨i, Finset.ext fun j => ?_⟩
      rw [member, Finset.mem_singleton]
      constructor
      · exact fun h => h.1.symm
      · rintro rfl
        exact ⟨rfl, counted⟩
    · rw [if_neg (by simpa using counted), Finset.card_eq_zero,
        Finset.eq_empty_iff_forall_notMem]
      intro j inside
      obtain ⟨rfl, h⟩ := (member j).mp inside
      exact counted h

theorem card_outside_finalize (inv : SlotsInv w) (outside : w.owner.inFinalize = false) :
    w.admittedPending.card = w.inFlight := by
  rw [← inv.card_admittedPending, Finset.filter_true_of_mem]
  intro i _
  cases pc : w.owner <;> simp_all [OwnerPc.inFinalize, OwnerPc.finalizes]

end SlotsInv

/-- The slot table in every reachable state: the pending slot is the one the active
index names, ids are distinct and nonzero until the counter comes round, the last
slot serves renewals only, and the counters account for each admitted call. -/
theorem slot_table_consistent {es : Trace} {w : World} (run : Run machine es w) :
    (∀ i, ((w.endpoint.operations i).used = true ∧
      (w.endpoint.operations i).state = .linkPending) ↔ w.endpoint.activeOperation = some i) ∧
    (w.endpoint.activeOperation = none ↔ ∀ i, ¬((w.endpoint.operations i).used = true ∧
      (w.endpoint.operations i).state = .linkPending)) ∧
    (submissions es < 2 ^ 64 - 1 →
      (∀ i, (w.endpoint.operations i).used = true → (w.endpoint.operations i).requestId ≠ 0) ∧
      ∀ i j, (w.endpoint.operations i).used = true → (w.endpoint.operations j).used = true →
        (w.endpoint.operations i).requestId = (w.endpoint.operations j).requestId → i = j) ∧
    ((w.endpoint.operations 7).used = true → (w.endpoint.operations 7).internal = true ∧
      (w.endpoint.operations 7).kind = .acquireLease) ∧
    w.endpoint.rpcStarted = w.endpoint.rpcReleased +
      (w.admittedPending.filter fun i => w.owner.finalizes i = false).card ∧
    (w.owner.inFinalize = false →
      w.endpoint.rpcStarted = w.endpoint.rpcReleased + w.admittedPending.card) ∧
    w.admittedPending.card ≤ 1 := by
  have inv := SlotsInv.of_run run
  have named i : ((w.endpoint.operations i).used = true ∧
      (w.endpoint.operations i).state = .linkPending) ↔ w.endpoint.activeOperation = some i :=
    ⟨fun h => inv.table.pending i h.2, inv.table.active i⟩
  refine ⟨named, ?_, ?_, ?_, ?_, ?_, inv.admittedPending_le_one⟩
  · simp only [named]
    cases w.endpoint.activeOperation <;> simp
  · intro bound
    have ids := IdsInv.of_run run (by omega)
    refine ⟨?_, ids.distinct⟩
    intro i used
    have := ids.bounds i used
    omega
  · intro used
    have internal := inv.table.reserved used
    exact ⟨internal, (inv.table.renewal 7 internal).1⟩
  · rw [inv.card_admittedPending]
    exact inv.counters
  · intro outside
    rw [inv.card_outside_finalize outside]
    exact inv.counters

/-- Home submitted, selected by a pass and admitted by the runtime. -/
def homePending : List Action :=
  (Call.home 100).through 0 ++ .pass 0 :: ownerTurns 14 0 .ok

theorem homePending_runs : (exec machine homePending [] machine.init).isSome = true := by
  decide +kernel

theorem slot_table_consistent_home : ∃ es w, Run machine es w ∧
    w.endpoint.activeOperation = some 0 ∧ submissions es = 1 ∧
    w.endpoint.rpcStarted = w.endpoint.rpcReleased + w.admittedPending.card := by
  refine ⟨_, _, exec_get homePending_runs, by decide +kernel, by decide +kernel, ?_⟩
  exact (slot_table_consistent (exec_get homePending_runs)).2.2.2.2.2.1 (by decide +kernel)

end Florid.Wirelink
