import Florid.Wirelink.Machine
import Mathlib.Data.List.FinRange

/-! What each region does, one lemma per function, and from these the complete list
of moves the machine can make. -/
namespace Florid.Wirelink
namespace Endpoint

@[simp] theorem setSlot_operations (e : Endpoint) (i : SlotIndex) (slot : OperationSlot) :
    (e.setSlot i slot).operations = Function.update e.operations i slot := rfl

@[simp] theorem setSlot_activeOperation (e : Endpoint) (i : SlotIndex) (slot : OperationSlot) :
    (e.setSlot i slot).activeOperation = e.activeOperation := rfl
@[simp] theorem setSlot_nextRequestId (e : Endpoint) (i : SlotIndex) (slot : OperationSlot) :
    (e.setSlot i slot).nextRequestId = e.nextRequestId := rfl
@[simp] theorem setSlot_lease (e : Endpoint) (i : SlotIndex) (slot : OperationSlot) :
    (e.setSlot i slot).lease = e.lease := rfl
@[simp] theorem setSlot_leaseExpireAtMs (e : Endpoint) (i : SlotIndex) (slot : OperationSlot) :
    (e.setSlot i slot).leaseExpireAtMs = e.leaseExpireAtMs := rfl
@[simp] theorem setSlot_running (e : Endpoint) (i : SlotIndex) (slot : OperationSlot) :
    (e.setSlot i slot).running = e.running := rfl
@[simp] theorem setSlot_rpcStarted (e : Endpoint) (i : SlotIndex) (slot : OperationSlot) :
    (e.setSlot i slot).rpcStarted = e.rpcStarted := rfl
@[simp] theorem setSlot_rpcReleased (e : Endpoint) (i : SlotIndex) (slot : OperationSlot) :
    (e.setSlot i slot).rpcReleased = e.rpcReleased := rfl

theorem findSlot_some {e : Endpoint} {id : Nat} {i : SlotIndex} (found : e.findSlot id = some i) :
    (e.operations i).used = true ∧ (e.operations i).requestId = id := by
  simpa [findSlot] using List.find?_some found

theorem findSlot_none {e : Endpoint} {id : Nat} (missing : e.findSlot id = none) (i : SlotIndex)
    (used : (e.operations i).used = true) : (e.operations i).requestId ≠ id := by
  have := List.find?_eq_none.mp missing i (List.mem_finRange i)
  simpa [used] using this

/-- The slots `s_findQueuedSlot` chooses among. -/
def Waiting (e : Endpoint) (i : SlotIndex) : Prop :=
  (e.operations i).used = true ∧ (e.operations i).state = .queued

theorem findQueuedFrom_spec (operations : SlotIndex → OperationSlot) (rest : List SlotIndex)
    (selected : Option SlotIndex) (oldest : Nat) :
    (findQueuedFrom operations rest selected oldest = selected ∧
      ∀ i ∈ rest, (operations i).used = true → (operations i).state = .queued →
        oldest ≤ (operations i).requestId) ∨
    ∃ i ∈ rest, findQueuedFrom operations rest selected oldest = some i ∧
      (operations i).used = true ∧ (operations i).state = .queued ∧
      (operations i).requestId < oldest ∧
      ∀ j ∈ rest, (operations j).used = true → (operations j).state = .queued →
        (operations i).requestId ≤ (operations j).requestId := by
  induction rest generalizing selected oldest with
  | nil => exact .inl ⟨rfl, by simp⟩
  | cons i rest ih =>
    simp only [findQueuedFrom]
    split
    · rename_i better
      simp only [Bool.and_eq_true, beq_iff_eq, decide_eq_true_eq] at better
      obtain ⟨⟨used, queued⟩, younger⟩ := better
      right
      rcases ih (some i) (operations i).requestId with ⟨kept, least⟩ | ⟨j, member, chosen, ju, jq, lower, least⟩
      · refine ⟨i, by simp, kept, used, queued, younger, ?_⟩
        intro j member ju jq
        rcases List.mem_cons.mp member with rfl | member
        · exact le_refl _
        · exact least j member ju jq
      · refine ⟨j, by simp [member], chosen, ju, jq, by omega, ?_⟩
        intro k member ku kq
        rcases List.mem_cons.mp member with rfl | member
        · omega
        · exact least k member ku kq
    · rename_i worse
      have skipped : (operations i).used = true → (operations i).state = .queued →
          oldest ≤ (operations i).requestId := by
        intro used queued
        simpa [used, queued] using worse
      rcases ih selected oldest with ⟨kept, least⟩ | ⟨j, member, chosen, ju, jq, lower, least⟩
      · refine .inl ⟨kept, ?_⟩
        intro j member ju jq
        rcases List.mem_cons.mp member with rfl | member
        · exact skipped ju jq
        · exact least j member ju jq
      · refine .inr ⟨j, by simp [member], chosen, ju, jq, lower, ?_⟩
        intro k member ku kq
        rcases List.mem_cons.mp member with rfl | member
        · have := skipped ku kq
          omega
        · exact least k member ku kq

/-- The selected slot is queued and no older slot is. -/
theorem findQueuedSlot_some {e : Endpoint} {i : SlotIndex} (found : e.findQueuedSlot = some i) :
    e.Waiting i ∧ (e.operations i).requestId < 2 ^ 64 - 1 ∧
      ∀ j, e.Waiting j → (e.operations i).requestId ≤ (e.operations j).requestId := by
  rcases findQueuedFrom_spec e.operations (List.finRange 8) none (2 ^ 64 - 1) with
    ⟨kept, _⟩ | ⟨j, _, chosen, used, queued, bound, least⟩
  · rw [findQueuedSlot, kept] at found
    contradiction
  · obtain rfl : j = i := Option.some.inj (chosen.symm.trans found)
    exact ⟨⟨used, queued⟩, bound, fun k ⟨ku, kq⟩ => least k (List.mem_finRange k) ku kq⟩

theorem allocateSlot_some {e : Endpoint} {internal : Bool} {i : SlotIndex}
    (found : e.allocateSlot internal = some i) :
    (e.operations i).used = false ∧ (internal = false → i ≠ 7) := by
  unfold allocateSlot at found
  split at found
  · rename_i reserved
    obtain rfl := Option.some.inj found
    simp only [Bool.and_eq_true, Bool.not_eq_true'] at reserved
    refine ⟨reserved.2, ?_⟩
    intro isPublic
    simp [isPublic] at reserved
  · have chosen := List.find?_some found
    simp only [Bool.and_eq_true, decide_eq_true_eq, Bool.not_eq_true'] at chosen
    refine ⟨chosen.2, ?_⟩
    rintro rfl rfl
    simp [publicOperationCapacity] at chosen

/-- The slot `s_submit` fills. -/
def submittedSlot (id : Nat) (kind : RpcKind) (timeoutMs : Nat) (now : TimeMs)
    (request : OperationRequest) (internal : Bool) : OperationSlot :=
  { requestId := id, timeoutMs, submittedAtMs := now, request, kind
    state := .queued, status := .ok, internal, used := true }

/-- `s_submit` changes nothing, or fills one free slot under the next id. -/
theorem submit_cases (e : Endpoint) (kind : RpcKind) (timeoutMs : Nat) (now : TimeMs)
    (request : OperationRequest) (internal : Bool) :
    (∃ status, status ≠ .ok ∧
      e.submit kind timeoutMs now request internal = (e, { status, requestId := 0 })) ∨
    ∃ i, e.running = true ∧ (e.operations i).used = false ∧ (internal = false → i ≠ 7) ∧
      e.submit kind timeoutMs now request internal =
        ({ e.setSlot i (submittedSlot e.nextRequestId kind timeoutMs now request internal) with
            nextRequestId := successorId e.nextRequestId
            lease := leaseAfterSubmit e.lease kind request internal },
          { status := .ok, requestId := e.nextRequestId }) := by
  unfold submit
  split
  · exact .inl ⟨.notReady, by decide, rfl⟩
  · rename_i running
    split
    · exact .inl ⟨.queueFull, by decide, rfl⟩
    · rename_i i found
      obtain ⟨free, isPublic⟩ := allocateSlot_some found
      exact .inr ⟨i, by simpa using running, free, isPublic, rfl⟩

theorem startNext_cases {e e' : Endpoint} {i : SlotIndex} (started : e.startNext = some (i, e')) :
    e.activeOperation = none ∧ e.findQueuedSlot = some i ∧
      e' = { e.setSlot i { e.operations i with state := .linkPending } with
        activeOperation := some i
        lease := leaseAfterStart e.lease { e.operations i with state := .linkPending } } := by
  unfold startNext at started
  split at started
  · contradiction
  · rename_i idle
    split at started
    · contradiction
    · rename_i j found
      simp only [Option.some.injEq, Prod.mk.injEq] at started
      obtain ⟨rfl, rfl⟩ := started
      exact ⟨idle, found, rfl⟩

/-- A take changes nothing, or empties the slot of a terminal operation. -/
theorem take_cases (e : Endpoint) (kind : TakeKind) (id : Nat) :
    (∃ taken, e.take kind id = (e, taken) ∧
      (taken = { status := .noData } ∨
        ∃ i, e.findSlot id = some i ∧ terminal (e.operations i).state = false ∧
          taken = { status := .busy, result := some (result (e.operations i)) })) ∨
    ∃ i, e.findSlot id = some i ∧ terminal (e.operations i).state = true ∧
      kind.accepts (e.operations i).kind = true ∧
      e.take kind id = (e.setSlot i .empty,
        { status := (e.operations i).status, result := some (result (e.operations i))
          value := kind.value (e.operations i) }) := by
  unfold take
  split
  · exact .inl ⟨_, rfl, .inl rfl⟩
  · rename_i i found
    dsimp only
    split
    · exact .inl ⟨_, rfl, .inl rfl⟩
    · rename_i accepted
      split
      · rename_i live
        exact .inl ⟨_, rfl, .inr ⟨i, found, by simpa using live, rfl⟩⟩
      · rename_i done
        exact .inr ⟨i, found, by simpa using done, by simpa using accepted, rfl⟩

theorem completionState_terminal (status : RpcStatus) : terminal (completionState status) = true := by
  cases status <;> rfl

/-- A finalization keeps the slot's kind and owner and is always terminal. -/
theorem finalization_spec (slot : OperationSlot) (now : TimeMs) (completion : RpcCompletion)
    (response : Option Response) :
    (finalization slot now completion response).kind = slot.kind ∧
    (finalization slot now completion response).internal = slot.internal ∧
    (finalization slot now completion response).now = now ∧
    (finalization slot now completion response).state = completionState completion.status := by
  unfold finalization
  dsimp only
  split <;> (try split) <;> (try split) <;> exact ⟨rfl, rfl, rfl, rfl⟩

/-- The lease update of `s_finalize` touches lease members only. -/
theorem finalizeLease_frame (e : Endpoint) (slot : OperationSlot) (f : Finalization) :
    (e.finalizeLease slot f).operations = e.operations ∧
    (e.finalizeLease slot f).rpcStarted = e.rpcStarted ∧
    (e.finalizeLease slot f).rpcReleased = e.rpcReleased ∧
    (e.finalizeLease slot f).nextRequestId = e.nextRequestId ∧
    (e.finalizeLease slot f).running = e.running := by
  unfold finalizeLease
  split
  · exact ⟨rfl, rfl, rfl, rfl, rfl⟩
  · split <;> (try split) <;> exact ⟨rfl, rfl, rfl, rfl, rfl⟩

@[simp] theorem finalize_operations (e : Endpoint) (i : SlotIndex) (f : Finalization) :
    (e.finalize i f).operations = Function.update e.operations i
      (if f.internal then .empty else finalizedSlot (e.operations i) f) := by
  simp [finalize, (finalizeLease_frame e (e.operations i) f).1]

@[simp] theorem finalize_activeOperation (e : Endpoint) (i : SlotIndex) (f : Finalization) :
    (e.finalize i f).activeOperation =
      if e.activeOperation = some i then none else e.activeOperation := rfl

@[simp] theorem finalize_rpcStarted (e : Endpoint) (i : SlotIndex) (f : Finalization) :
    (e.finalize i f).rpcStarted = e.rpcStarted :=
  (finalizeLease_frame e (e.operations i) f).2.1

@[simp] theorem finalize_rpcReleased (e : Endpoint) (i : SlotIndex) (f : Finalization) :
    (e.finalize i f).rpcReleased = e.rpcReleased :=
  (finalizeLease_frame e (e.operations i) f).2.2.1

@[simp] theorem finalize_nextRequestId (e : Endpoint) (i : SlotIndex) (f : Finalization) :
    (e.finalize i f).nextRequestId = e.nextRequestId :=
  (finalizeLease_frame e (e.operations i) f).2.2.2.1

@[simp] theorem finalize_running (e : Endpoint) (i : SlotIndex) (f : Finalization) :
    (e.finalize i f).running = e.running :=
  (finalizeLease_frame e (e.operations i) f).2.2.2.2

@[simp] theorem finalize_lease (e : Endpoint) (i : SlotIndex) (f : Finalization) :
    (e.finalize i f).lease = (e.finalizeLease (e.operations i) f).lease := rfl

/-- A table whose free slots are empty has nothing queued after `s_stopOnOwner`. -/
theorem stopSlot_not_queued {slot : OperationSlot}
    (empty : slot.used = false → slot = .empty) : (stopSlot slot).state ≠ .queued := by
  unfold stopSlot
  split
  · rename_i skipped
    intro queued
    cases used : slot.used with
    | false => simp [empty used] at queued
    | true => simp [queued, used, terminal] at skipped
  · split <;> simp

end Endpoint

/-- What a call's first region hands on is an operation of its kind. -/
theorem Call.prepare_kind {c : Call} {e : Endpoint} {s : Submission} (ready : c.prepare e = .ok s) :
    s.kind = c.kind := by
  cases c with
  | acquireControlLease requested timeout =>
    simp only [Call.prepare] at ready
    split at ready
    · cases checked : e.acquireCheck requested <;> simp only [checked, Except.map] at ready <;>
        cases ready
      rfl
    · cases ready
  | releaseControlLease timeout =>
    simp only [Call.prepare] at ready
    split at ready
    · cases checked : e.releaseCheck <;> simp only [checked, Except.map] at ready <;> cases ready
      rfl
    · cases ready
  | _ =>
    simp only [Call.prepare, checked] at ready
    split at ready <;> cases ready
    rfl

/-- Every way an action can go, with the guards under which it does. Invariants are
proved by cases on this relation and never unfold the step function. -/
inductive Moves (w : World) : Action → World → Event → Prop where
  | refused {t c status} : w.callers t = .idle → c.prepare w.endpoint = .error status →
      Moves w (.call t c) w (.refused status)
  | called {t c s} : w.callers t = .idle → c.prepare w.endpoint = .ok s →
      Moves w (.call t c) (w.setCaller t (.gate s)) .quiet
  | blocked {t s} : w.callers t = .gate s → w.upgradeActive = true →
      allowedDuringUpgrade s.kind = false →
      Moves w (.gate t) (w.setCaller t .idle) (.submitted false s { status := .busy, requestId := 0 })
  | passed {t s} : w.callers t = .gate s →
      (w.upgradeActive = true → allowedDuringUpgrade s.kind = true) →
      Moves w (.gate t) (w.setCaller t (.enqueue s)) .quiet
  | rejected {t s clock status} : w.callers t = .enqueue s → status ≠ .ok →
      Moves w (.submit t clock) (w.setCaller t .idle)
        (.submitted false s { status, requestId := 0 })
  | queued {t s clock i} : w.callers t = .enqueue s → w.endpoint.running = true →
      (w.endpoint.operations i).used = false → i ≠ 7 →
      Moves w (.submit t clock)
        { w.setCaller t .idle with endpoint :=
          { w.endpoint.setSlot i (Endpoint.submittedSlot w.endpoint.nextRequestId s.kind
              s.timeoutMs clock s.request false) with
            nextRequestId := Endpoint.successorId w.endpoint.nextRequestId
            lease := Endpoint.leaseAfterSubmit w.endpoint.lease s.kind s.request false } }
        (.submitted false s { status := .ok, requestId := w.endpoint.nextRequestId })
  | tokenBusy {t} : w.callers t = .idle → w.upgradeActive = true →
      Moves w (.token t) w (.token .busy 0)
  | tokenGate {t} : w.callers t = .idle → w.upgradeActive = false →
      Moves w (.token t) (w.setCaller t .token) .quiet
  | tokenRead {t} : w.callers t = .token →
      Moves w (.tokenRead t) (w.setCaller t .idle)
        (.token w.endpoint.commandToken.1 w.endpoint.commandToken.2)
  | inspected {id} : Moves w (.inspect id) w (.observed (w.endpoint.inspectOperation id))
  | waited {id expired taken} : w.endpoint.waitOperation id expired = some taken →
      Moves w (.wait id expired) w (.observed taken)
  | tookNothing {kind id taken} : w.endpoint.take kind id = (w.endpoint, taken) →
      (taken = { status := .noData } ∨ ∃ i, w.endpoint.findSlot id = some i ∧
        terminal (w.endpoint.operations i).state = false ∧
        taken = { status := .busy, result := some (Endpoint.result (w.endpoint.operations i)) }) →
      Moves w (.take kind id) w (.took taken)
  | took {kind id i} : w.endpoint.findSlot id = some i →
      terminal (w.endpoint.operations i).state = true →
      kind.accepts (w.endpoint.operations i).kind = true →
      Moves w (.take kind id) { w with endpoint := w.endpoint.setSlot i .empty }
        (.took { status := (w.endpoint.operations i).status
                 result := some (Endpoint.result (w.endpoint.operations i))
                 value := kind.value (w.endpoint.operations i) })
  | pass {now} : w.owner = .idle → w.closed = false →
      Moves w (.pass now) { w with owner := .expiry now 0 } .quiet
  | expiredInQueue {clock st now n} (h : n < 8) : w.owner = .expiry now n →
      w.endpoint.queueExpired now ⟨n, h⟩ = true →
      Moves w (.owner clock st)
        (w.beginFinalize ⟨n, h⟩ clock { status := .timedOut } none (some (now, n + 1))) .quiet
  | notExpired {clock st now n} (h : n < 8) : w.owner = .expiry now n →
      w.endpoint.queueExpired now ⟨n, h⟩ = false →
      Moves w (.owner clock st) { w with owner := .expiry now (n + 1) } .quiet
  | expireLease {clock st now n} : w.owner = .expiry now n → 8 ≤ n →
      Moves w (.owner clock st)
        { w with endpoint := w.endpoint.expireLease now, owner := .gate now } .quiet
  | readGate {clock st now} : w.owner = .gate now →
      Moves w (.owner clock st)
        { w with owner := if w.upgradeActive then .dropLease now else .renewal now } .quiet
  | dropLease {clock st now} : w.owner = .dropLease now →
      Moves w (.owner clock st)
        { w with endpoint := w.endpoint.dropLease, owner := .startNext now } .quiet
  | notDue {clock st now} : w.owner = .renewal now → w.endpoint.renewalCheck now = none →
      Moves w (.owner clock st) { w with owner := .startNext now } .quiet
  | due {clock st now request} : w.owner = .renewal now →
      w.endpoint.renewalCheck now = some request →
      Moves w (.owner clock st)
        { w with owner := .renewalGate now request } .quiet
  | renewalBlocked {clock st now request} : w.owner = .renewalGate now request →
      w.upgradeActive = true →
      Moves w (.owner clock st) { w with owner := .startNext now } .quiet
  | renewalPassed {clock st now request} : w.owner = .renewalGate now request →
      w.upgradeActive = false →
      Moves w (.owner clock st) { w with owner := .renewalSubmit now request } .quiet
  | renewalRejected {clock st now request status} :
      w.owner = .renewalSubmit now request → status ≠ .ok →
      Moves w (.owner clock st) { w with owner := .startNext now }
        (.submitted true ⟨.acquireLease, request.requestedLeaseTimeoutMs, request⟩
          { status, requestId := 0 })
  | renewalQueued {clock st now request i} : w.owner = .renewalSubmit now request →
      w.endpoint.running = true → (w.endpoint.operations i).used = false →
      Moves w (.owner clock st)
        { w with
          endpoint := { w.endpoint.setSlot i (Endpoint.submittedSlot w.endpoint.nextRequestId
              .acquireLease request.requestedLeaseTimeoutMs clock request true) with
            nextRequestId := Endpoint.successorId w.endpoint.nextRequestId
            lease := Endpoint.leaseAfterSubmit w.endpoint.lease .acquireLease request true }
          owner := .startNext now }
        (.submitted true ⟨.acquireLease, request.requestedLeaseTimeoutMs, request⟩
          { status := .ok, requestId := w.endpoint.nextRequestId })
  | nothingToStart {clock st now} : w.owner = .startNext now → w.endpoint.startNext = none →
      Moves w (.owner clock st) { w with owner := .idle } .quiet
  | selected {clock st now i} : w.owner = .startNext now → w.endpoint.activeOperation = none →
      w.endpoint.findQueuedSlot = some i →
      Moves w (.owner clock st)
        { w with
          endpoint := { w.endpoint.setSlot i
              { w.endpoint.operations i with state := .linkPending } with
            activeOperation := some i
            lease := Endpoint.leaseAfterStart w.endpoint.lease
              { w.endpoint.operations i with state := .linkPending } }
          owner := .launching now i } .quiet
  | expiredAtStart {clock st now i} : w.owner = .launching now i →
      queueRemaining now (w.endpoint.operations i).submittedAtMs
        (w.endpoint.operations i).timeoutMs = 0 →
      Moves w (.owner clock st)
        (w.beginFinalize i clock { status := .timedOut } none none) .quiet
  | launch {clock st now i} : w.owner = .launching now i →
      queueRemaining now (w.endpoint.operations i).submittedAtMs
        (w.endpoint.operations i).timeoutMs ≠ 0 →
      Moves w (.owner clock st)
        { w with
          owner := .launched i st
          owed := if st = .ok then Function.update w.owed i true else w.owed }
        (.started (w.endpoint.operations i)
          (queueRemaining now (w.endpoint.operations i).submittedAtMs
            (w.endpoint.operations i).timeoutMs) st)
  | startCommit {clock st i started} : w.owner = .launched i started →
      Moves w (.owner clock st)
        { w with
          endpoint := w.endpoint.startCommit i started
          owner := if started = .ok || Endpoint.retryable started then .idle else .failing i }
        .quiet
  | startFailed {clock st i} : w.owner = .failing i →
      Moves w (.owner clock st) (w.beginFinalize i clock { status := .failed } none none) .quiet
  | finalize {clock st i f resume} : w.owner = .finalizing i f resume →
      Moves w (.owner clock st)
        { w with
          endpoint := w.endpoint.finalize i f
          owner := .resumed resume }
        (.finalized (w.endpoint.operations i).requestId f)
  | complete {i clock completion response} : w.owner = .idle → w.owed i = true →
      response.all (fun r => r.fits (w.endpoint.operations i).kind) = true →
      Moves w (.complete i clock completion response)
        (({ w with owed := Function.update w.owed i false } : World).beginFinalize
          i clock completion response none) .quiet
  | quiesce : w.owner = .idle → w.closed = false →
      Moves w .quiesce { w with endpoint := w.endpoint.stopOnOwner, closed := true } .quiet
  | upgrade {active} : Moves w (.upgrade active) { w with upgradeActive := active } .quiet

theorem owner_moves {w next : World} {clock : TimeMs} {st : WlErr} {event : Event}
    (stepped : w.ownerStep clock st = some (next, event)) :
    Moves w (.owner clock st) next event := by
  unfold World.ownerStep at stepped
  cases pc : w.owner with
  | idle => simp [pc] at stepped
  | expiry now n =>
    simp only [pc] at stepped
    split at stepped
    · rename_i bound
      split at stepped <;> cases stepped
      · exact .expiredInQueue bound pc ‹_›
      · exact .notExpired bound pc (Bool.eq_false_of_not_eq_true ‹_›)
    · cases stepped
      exact .expireLease pc (by omega)
  | gate now =>
    simp only [pc] at stepped
    cases stepped
    exact .readGate pc
  | dropLease now =>
    simp only [pc] at stepped
    cases stepped
    exact .dropLease pc
  | renewal now =>
    simp only [pc] at stepped
    split at stepped <;> cases stepped
    · exact .notDue pc ‹_›
    · exact .due pc ‹_›
  | renewalGate now request =>
    simp only [pc] at stepped
    cases stepped
    split
    · exact .renewalBlocked pc ‹_›
    · exact .renewalPassed pc (Bool.eq_false_of_not_eq_true ‹_›)
  | renewalSubmit now request =>
    simp only [pc] at stepped
    rcases Endpoint.submit_cases w.endpoint .acquireLease request.requestedLeaseTimeoutMs clock
      request true with ⟨status, failed, unchanged⟩ | ⟨i, running, free, _, filled⟩
    · rw [unchanged] at stepped
      cases stepped
      exact .renewalRejected pc failed
    · rw [filled] at stepped
      cases stepped
      exact .renewalQueued pc running free
  | startNext now =>
    simp only [pc] at stepped
    split at stepped
    · cases stepped
      exact .nothingToStart pc ‹_›
    · rename_i i e started
      cases stepped
      obtain ⟨inactive, found, rfl⟩ := Endpoint.startNext_cases started
      exact .selected pc inactive found
  | launching now i =>
    simp only [pc] at stepped
    split at stepped <;> cases stepped
    · exact .expiredAtStart pc ‹_›
    · exact .launch pc ‹_›
  | launched i started =>
    simp only [pc] at stepped
    cases stepped
    exact .startCommit pc
  | failing i =>
    simp only [pc] at stepped
    cases stepped
    exact .startFailed pc
  | finalizing i f resume =>
    simp only [pc] at stepped
    cases stepped
    exact .finalize pc

/-- The moves are all there is to a step. -/
theorem step_moves {w next : World} {a : Action} {event : Event}
    (stepped : w.step a = some (next, event)) : Moves w a next event := by
  cases a with
  | owner clock st => exact owner_moves stepped
  | call t c =>
    simp only [World.step] at stepped
    split at stepped
    · split at stepped <;> cases stepped
      · exact .refused ‹_› ‹_›
      · exact .called ‹_› ‹_›
    · contradiction
  | gate t =>
    simp only [World.step] at stepped
    split at stepped
    · rename_i s pc
      split at stepped <;> cases stepped
      · rename_i gated
        simp only [Bool.and_eq_true, Bool.not_eq_true'] at gated
        exact .blocked pc gated.1 gated.2
      · rename_i gated
        exact .passed pc (by simpa using gated)
    · contradiction
  | submit t clock =>
    simp only [World.step] at stepped
    split at stepped
    · rename_i s pc
      rcases Endpoint.submit_cases w.endpoint s.kind s.timeoutMs clock s.request false with
        ⟨status, failed, unchanged⟩ | ⟨i, running, free, isPublic, filled⟩
      · rw [unchanged] at stepped
        cases stepped
        exact .rejected pc failed
      · rw [filled] at stepped
        cases stepped
        exact .queued pc running free (isPublic rfl)
    · contradiction
  | token t =>
    simp only [World.step] at stepped
    split at stepped
    · split at stepped <;> cases stepped
      · exact .tokenBusy ‹_› ‹_›
      · exact .tokenGate ‹_› (Bool.eq_false_of_not_eq_true ‹_›)
    · contradiction
  | tokenRead t =>
    simp only [World.step] at stepped
    split at stepped
    · cases stepped
      exact .tokenRead ‹_›
    · contradiction
  | inspect id =>
    cases stepped
    exact .inspected
  | wait id expired =>
    simp only [World.step, Option.map_eq_some_iff, Prod.mk.injEq] at stepped
    obtain ⟨taken, found, rfl, rfl⟩ := stepped
    exact .waited found
  | take kind id =>
    simp only [World.step] at stepped
    rcases Endpoint.take_cases w.endpoint kind id with
      ⟨taken, unchanged, why⟩ | ⟨i, found, done, accepted, emptied⟩
    · rw [unchanged] at stepped
      cases stepped
      exact .tookNothing unchanged why
    · rw [emptied] at stepped
      cases stepped
      exact .took found done accepted
  | pass now =>
    simp only [World.step] at stepped
    split at stepped
    · split at stepped
      · contradiction
      · cases stepped
        exact .pass ‹_› (Bool.eq_false_of_not_eq_true ‹_›)
    · contradiction
  | complete i clock completion response =>
    simp only [World.step] at stepped
    split at stepped
    · split at stepped
      · rename_i ready
        cases stepped
        simp only [Bool.and_eq_true] at ready
        exact .complete ‹_› ready.1 ready.2
      · contradiction
    · contradiction
  | quiesce =>
    simp only [World.step] at stepped
    split at stepped
    · split at stepped
      · contradiction
      · cases stepped
        exact .quiesce ‹_› (Bool.eq_false_of_not_eq_true ‹_›)
    · contradiction
  | upgrade active =>
    cases stepped
    exact .upgrade

/-- Another thread's step leaves a busy owner where it is. -/
theorem Moves.owner_kept {w next : World} {a : Action} {event : Event} (moved : Moves w a next event)
    (other : ∀ clock st, a ≠ .owner clock st) (busy : w.owner ≠ .idle) :
    next.owner = w.owner := by
  cases moved with
  | pass idle | complete idle | quiesce idle => exact absurd idle busy
  | refused | called | blocked | passed | rejected | queued | tokenBusy | tokenGate | tokenRead
  | inspected | waited | tookNothing | took | upgrade => rfl
  | _ => exact absurd rfl (other _ _)

/-- The last region of `s_finalize`. -/
theorem Moves.at_finalizing {w next : World} {clock : TimeMs} {st : WlErr} {event : Event}
    (moved : Moves w (.owner clock st) next event) {i : SlotIndex} {f : Endpoint.Finalization}
    {resume : Option (TimeMs × Nat)} (pc : w.owner = .finalizing i f resume) :
    next = { w with endpoint := w.endpoint.finalize i f, owner := .resumed resume } ∧
      event = .finalized (w.endpoint.operations i).requestId f := by
  cases moved with
  | finalize there =>
    rw [pc] at there
    cases there
    exact ⟨rfl, rfl⟩
  | _ => simp_all

/-- One turn of the expiry loop. -/
theorem Moves.at_expiry {w next : World} {clock : TimeMs} {st : WlErr} {event : Event}
    (moved : Moves w (.owner clock st) next event) {now : TimeMs} {n : Nat} (bound : n < 8)
    (pc : w.owner = .expiry now n) : event = .quiet ∧
      (w.endpoint.queueExpired now ⟨n, bound⟩ = true ∧
        next = w.beginFinalize ⟨n, bound⟩ clock { status := .timedOut } none (some (now, n + 1)) ∨
      w.endpoint.queueExpired now ⟨n, bound⟩ = false ∧
        next = { w with owner := .expiry now (n + 1) }) := by
  cases moved with
  | expiredInQueue h there expired =>
    rw [pc] at there
    cases there
    exact ⟨rfl, .inl ⟨expired, rfl⟩⟩
  | notExpired h there fresh =>
    rw [pc] at there
    cases there
    exact ⟨rfl, .inr ⟨fresh, rfl⟩⟩
  | expireLease there past =>
    rw [pc] at there
    cases there
    omega
  | _ => simp_all

/-- What a caller between its first region and its enqueue is about to submit. -/
def CallerPc.submission : CallerPc → Option Submission
  | .gate s | .enqueue s => some s
  | _ => none

theorem World.setCaller_submission {w : World} {t u : Nat} {pc : CallerPc} {s : Submission}
    (pending : ((w.setCaller u pc).callers t).submission = some s) :
    (w.callers t).submission = some s ∨ t = u ∧ pc.submission = some s := by
  by_cases same : t = u
  · subst same
    exact .inr ⟨rfl, by simpa [setCaller] using pending⟩
  · exact .inl (by simpa [setCaller, Function.update_of_ne same] using pending)

/-- A submission on its way was there before or comes from a call's first region. -/
theorem Moves.submission_cases {w next : World} {a : Action} {event : Event}
    (moved : Moves w a next event) {t : Nat} {s : Submission}
    (pending : (next.callers t).submission = some s) :
    (w.callers t).submission = some s ∨ ∃ c, a = .call t c ∧ c.prepare w.endpoint = .ok s := by
  cases moved with
  | called pc prepared =>
    rcases World.setCaller_submission pending with earlier | ⟨rfl, new⟩
    · exact .inl earlier
    · cases new
      exact .inr ⟨_, rfl, prepared⟩
  | passed pc gate =>
    rcases World.setCaller_submission pending with earlier | ⟨rfl, new⟩
    · exact .inl earlier
    · cases new
      exact .inl (by simp [pc, CallerPc.submission])
  | blocked | rejected | queued | tokenGate | tokenRead =>
    rcases World.setCaller_submission pending with earlier | ⟨_, new⟩
    · exact .inl earlier
    · simp [CallerPc.submission] at new
  | _ => exact .inl pending

/-- The caller thread that takes the action. -/
def Action.thread : Action → Option Nat
  | .call t _ | .gate t | .submit t _ | .token t | .tokenRead t => some t
  | _ => none

theorem Moves.caller_frame {w next : World} {a : Action} {event : Event}
    (moved : Moves w a next event) {t : Nat} (other : a.thread ≠ some t) :
    next.callers t = w.callers t := by
  cases moved with
  | called | blocked | passed | rejected | queued | tokenGate | tokenRead =>
    refine Function.update_of_ne ?_ _ _
    rintro rfl
    exact other rfl
  | _ => rfl

end Florid.Wirelink
