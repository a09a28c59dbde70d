import Florid.Wirelink.Validation

/-! Where recorded results come from. Every result with status ok goes back to one earlier
completion with a validated response, and so do capabilities and lease tokens. -/
namespace Florid.Wirelink
open Transition

variable {w next : World} {a : Action} {event : Event}

/-! ### One move -/

/-- A terminal success in a slot was there before, or the owner has just recorded it. -/
theorem Moves.ended_ok (inv : SlotsInv w) (moved : Moves w a next event) {j : SlotIndex}
    (used : (next.endpoint.operations j).used = true)
    (done : terminal (next.endpoint.operations j).state = true)
    (ok : (next.endpoint.operations j).status = .ok) :
    next.endpoint.operations j = w.endpoint.operations j ∨
      ∃ f resume, w.owner = .finalizing j f resume ∧
        next.endpoint.operations j = Endpoint.finalizedSlot (w.endpoint.operations j) f := by
  have written {i : SlotIndex} {slot : OperationSlot}
      (is : next.endpoint.operations = Function.update w.endpoint.operations i slot)
      (new : slot.used = true → terminal slot.state = true → False) :
      next.endpoint.operations j = w.endpoint.operations j := by
    rw [is] at used done ⊢
    by_cases same : j = i
    · subst same
      rw [Function.update_self] at used done
      exact (new used done).elim
    · rw [Function.update_of_ne same]
  cases moved with
  | queued | renewalQueued =>
    refine .inl (written rfl ?_)
    intro _ ended
    cases ended
  | took =>
    refine .inl (written rfl ?_)
    intro filled
    cases filled
  | selected =>
    refine .inl (written rfl ?_)
    intro _ ended
    cases ended
  | startCommit pc =>
    rename_i clock st i started
    have owner := inv.owner
    simp only [World.OwnerOk, pc] at owner
    obtain ⟨-, pending⟩ := inv.table.active i owner.1
    cases started with
    | ok =>
      refine .inl (written rfl ?_)
      intro _ ended
      simp [pending, terminal] at ended
    | busy | wouldBlock | other =>
      refine .inl (written rfl ?_)
      intro _ ended
      cases ended
  | finalize pc =>
    rename_i clock st i f resume
    by_cases same : j = i
    · subst same
      rw [Endpoint.finalize_operations, Function.update_self] at used ⊢
      by_cases internal : f.internal = true
      · simp [internal] at used
      · exact .inr ⟨f, resume, pc, if_neg internal⟩
    · rw [Endpoint.finalize_operations, Function.update_of_ne same]
      exact .inl rfl
  | quiesce =>
    left
    simp only [Endpoint.stopOnOwner, Endpoint.stopSlot] at ok ⊢
    split
    · rfl
    · rename_i skipped
      rw [if_neg skipped] at ok
      split at ok <;> cases ok
  | expireLease =>
    left
    simp only [Endpoint.expireLease]
    split <;> rfl
  | _ => exact .inl rfl

/-- How the owner comes to be inside `s_finalize`. -/
theorem Moves.finalizing_cases (inv : SlotsInv w) (moved : Moves w a next event) {i : SlotIndex}
    {f : Endpoint.Finalization} {resume : Option (TimeMs × Nat)}
    (inside : next.owner = .finalizing i f resume) :
    (w.owner = .finalizing i f resume ∧
      next.endpoint.operations i = w.endpoint.operations i) ∨
    ∃ clock completion response, next.endpoint.operations = w.endpoint.operations ∧
      f = Endpoint.finalization (w.endpoint.operations i) clock completion response ∧
      (completion.status ≠ .success ∨ a = .complete i clock completion response ∧
        response.all (fun r => r.fits (w.endpoint.operations i).kind) = true) := by
  have live (held : w.owner = .finalizing i f resume) :
      (w.endpoint.operations i).used = true ∧ terminal (w.endpoint.operations i).state = false := by
    have owner := inv.owner
    simp only [World.OwnerOk, held] at owner
    refine ⟨owner.1, ?_⟩
    rcases owner.2.2.2.2 with ⟨queued, -⟩ | ⟨active, -⟩
    · rw [queued]
      rfl
    · rw [(inv.table.active i active).2]
      rfl
  cases moved with
  | expiredInQueue | expiredAtStart | startFailed =>
    cases inside
    exact .inr ⟨_, _, _, rfl, rfl, .inl (by decide)⟩
  | complete pc owes fits =>
    cases inside
    exact .inr ⟨_, _, _, rfl, rfl, .inr ⟨rfl, fits⟩⟩
  | finalize =>
    rename_i resumed
    simp only [OwnerPc.resumed] at inside
    split at inside <;> cases inside
  | readGate | startCommit =>
    dsimp only at inside
    split at inside <;> cases inside
  | queued pc running free =>
    refine .inl ⟨inside, Function.update_of_ne ?_ _ _⟩
    rintro rfl
    simp [(live inside).1] at free
  | took found done =>
    refine .inl ⟨inside, Function.update_of_ne ?_ _ _⟩
    rintro rfl
    simp [(live inside).2] at done
  | quiesce pc =>
    dsimp only at inside
    rw [pc] at inside
    cases inside
  | refused | called | blocked | passed | rejected | tokenBusy | tokenGate | tokenRead | inspected
  | waited | tookNothing | upgrade => exact .inl ⟨inside, rfl⟩
  | _ => cases inside

/-! ### Over a run -/

/-- The history completed the operation in `slot` with the result `f`. -/
def Concluded (es : Trace) (slot : OperationSlot) (f : Endpoint.Finalization) : Prop :=
  ∃ x ∈ es, ∃ i clock completion response, x.action = .complete i clock completion response ∧
    x.before.endpoint.operations i = slot ∧
    response.all (fun r => r.fits slot.kind) = true ∧
    f = Endpoint.finalization slot clock completion response

theorem Concluded.mono {es fs : Trace} {slot : OperationSlot} {f : Endpoint.Finalization}
    (concluded : Concluded es slot f) : Concluded (es ++ fs) slot f := by
  obtain ⟨x, member, rest⟩ := concluded
  exact ⟨x, List.mem_append_left _ member, rest⟩

/-- Every success on record, or about to be, has its completion in the history. -/
structure Recorded (es : Trace) (w : World) : Prop where
  slots : ∀ i, (w.endpoint.operations i).used = true →
    terminal (w.endpoint.operations i).state = true → (w.endpoint.operations i).status = .ok →
    ∃ slot f, Concluded es slot f ∧
      w.endpoint.operations i = Endpoint.finalizedSlot slot f
  owner : ∀ i f resume, w.owner = .finalizing i f resume → f.status = .ok →
    Concluded es (w.endpoint.operations i) f

namespace Recorded

theorem moves {es : Trace} (recorded : Recorded es w) (inv : SlotsInv w)
    (moved : Moves w a next event) : Recorded (es ++ [⟨w, a, event, next⟩]) next := by
  refine ⟨?_, ?_⟩
  · intro i used done ok
    rcases moved.ended_ok inv used done ok with kept | ⟨f, resume, pc, written⟩
    · rw [kept] at used done ok ⊢
      obtain ⟨slot, f, concluded, same⟩ := recorded.slots i used done ok
      exact ⟨slot, f, concluded.mono, same⟩
    · rw [written] at ok
      exact ⟨_, f, (recorded.owner i f resume pc ok).mono, written⟩
  · intro i f resume inside ok
    rcases moved.finalizing_cases inv inside with
      ⟨held, kept⟩ | ⟨clock, completion, response, kept, rfl, failed | ⟨rfl, fits⟩⟩
    · rw [kept]
      exact (recorded.owner i f resume held ok).mono
    · obtain ⟨r, -, validated⟩ := Endpoint.finalization_ok.mp ok
      exact absurd validated.success failed
    · rw [kept]
      exact ⟨_, List.mem_append_right _ (List.mem_singleton_self _), i, clock, completion, response,
        rfl, rfl, fits, rfl⟩

theorem of_run {es : Trace} (run : Run machine es w) : Recorded es w := by
  refine run.history ⟨?_, ?_⟩ ?_
  · intro i used
    cases used
  · intro i f resume inside
    cases inside
  · intro es s a e t before recorded stepped
    exact recorded.moves (SlotsInv.of_run before) (step_moves stepped)

end Recorded

/-! ### Capabilities -/

/-- The device information a step reports: a completed, accepted and valid answer. -/
def reportedDeviceInfo (x : Entry World Action Event) : Option DeviceInfo :=
  match x.action with
  | .complete _ _ completion (some (.getDeviceInfo r)) =>
    if completion.status = .success ∧ completion.rejection = 0 ∧
        (Endpoint.deviceInfoFromWire r).valid = true then
      some (Endpoint.deviceInfoFromWire r).info
    else none
  | _ => none

/-- The last successful `GetDeviceInfo` of a history. -/
def lastDeviceInfo (es : Trace) : Option DeviceInfo := (es.filterMap reportedDeviceInfo).getLast?

/-- The capability word a history leaves behind. -/
def advertised (es : Trace) : Nat :=
  match lastDeviceInfo es with
  | none => 0
  | some info => info.commandCapabilities

/-- A failed call leaves the capability word alone. -/
theorem Endpoint.failed_capabilities {e : Endpoint} {i : SlotIndex} {clock : TimeMs}
    {completion : RpcCompletion} {response : Option Response}
    (failed : completion.status ≠ .success) :
    (e.finalizeCounters i (finalization (e.operations i) clock completion response)).commandCapabilities =
      e.commandCapabilities := by
  have unsuccessful :
      (finalization (e.operations i) clock completion response).status ≠ .ok := by
    intro ok
    obtain ⟨r, -, validated⟩ := finalization_ok.mp ok
    exact failed validated.success
  simp [finalizeCounters, unsuccessful]

/-- A completion moves the capability word exactly when it reports device information. -/
theorem Endpoint.complete_capabilities {e : Endpoint} {i : SlotIndex} {clock : TimeMs}
    {completion : RpcCompletion} {response : Option Response}
    (fits : response.all (fun r => r.fits (e.operations i).kind) = true) :
    (e.finalizeCounters i (finalization (e.operations i) clock completion response)).commandCapabilities =
      match response with
      | some (.getDeviceInfo r) =>
        if completion.status = .success ∧ completion.rejection = 0 ∧
            (deviceInfoFromWire r).valid = true then
          (deviceInfoFromWire r).info.commandCapabilities
        else e.commandCapabilities
      | _ => e.commandCapabilities := by
  have kind := (finalization_spec (e.operations i) clock completion response).1
  by_cases ok : (finalization (e.operations i) clock completion response).status = .ok
  · obtain ⟨r, rfl, success, accepted, valid⟩ := finalization_ok.mp ok
    cases r with
    | getDeviceInfo r =>
      have info : (e.operations i).kind = .getDeviceInfo := by
        simpa [Response.fits] using fits
      simp only [Response.valid] at valid
      have carried : (finalization (e.operations i) clock completion
          (some (.getDeviceInfo r))).deviceInfo = deviceInfoFromWire r := by
        simp [finalization, success, valid]
      simp [finalizeCounters, kind, info, ok, carried, success, accepted, valid]
    | acquireControlLease | deviceSettings | motorRegisterRead | acknowledged =>
      have other : (e.operations i).kind ≠ .getDeviceInfo := by
        rintro info
        simp [Response.fits, info] at fits
      simp [finalizeCounters, kind, other]
  · have kept : (e.finalizeCounters i
        (finalization (e.operations i) clock completion response)).commandCapabilities =
        e.commandCapabilities := by
      simp [finalizeCounters, ok]
    rw [kept]
    split
    · rename_i r _
      split
      · rename_i reported
        exact absurd (finalization_ok.mpr
          ⟨.getDeviceInfo r, rfl, reported.1, reported.2.1, reported.2.2⟩) ok
      · rfl
    · rfl

/-- The capability word changes with reported device information and with nothing else. -/
theorem Moves.capabilities (moved : Moves w a next event) :
    next.endpoint.commandCapabilities =
      match reportedDeviceInfo ⟨w, a, event, next⟩ with
      | none => w.endpoint.commandCapabilities
      | some info => info.commandCapabilities := by
  cases moved with
  | expiredInQueue | expiredAtStart | startFailed =>
    exact Endpoint.failed_capabilities (by decide)
  | complete pc owes fits =>
    rename_i i clock completion response
    refine (Endpoint.complete_capabilities fits).trans ?_
    unfold reportedDeviceInfo
    cases response with
    | none => rfl
    | some r =>
      cases r with
      | getDeviceInfo r =>
        dsimp only
        split <;> rfl
      | acquireControlLease | deviceSettings | motorRegisterRead | acknowledged => rfl
  | finalize =>
    simp only [Endpoint.finalize, Endpoint.finalizeLease, reportedDeviceInfo]
    split
    · rfl
    · split <;> (try split) <;> rfl
  | startCommit =>
    rename_i started _
    cases started <;> rfl
  | expireLease =>
    simp only [Endpoint.expireLease, reportedDeviceInfo]
    split <;> rfl
  | _ => rfl

/-- In every reachable state the capabilities are those of the last successful answer. -/
theorem capabilities_of_run {es : Trace} (run : Run machine es w) :
    w.endpoint.commandCapabilities = advertised es := by
  refine run.history (P := fun es w => w.endpoint.commandCapabilities = advertised es) rfl ?_
  intro es s a e t before held stepped
  rw [(step_moves stepped).capabilities, held]
  unfold advertised lastDeviceInfo
  rw [List.filterMap_append]
  cases reported : reportedDeviceInfo ⟨s, a, e, t⟩ with
  | none => simp [reported]
  | some info => simp [reported]

/-! ### Lease tokens -/

/-- Token and granted timeout are cleared, kept, or those of the grant being recorded. -/
theorem LeaseChange.values {lease : FciControlLeaseSnapshot}
    (change : LeaseChange w a event lease) :
    (lease.token = 0 ∧ lease.grantedTimeoutMs = 0) ∨
    (lease.token = w.endpoint.lease.token ∧
      lease.grantedTimeoutMs = w.endpoint.lease.grantedTimeoutMs) ∨
    ∃ i f resume, w.owner = .finalizing i f resume ∧ f.kind = .acquireLease ∧ f.status = .ok ∧
      lease.token = f.grantedToken ∧ lease.grantedTimeoutMs = f.grantedTimeout := by
  cases change with
  | kept => exact .inr (.inl ⟨rfl, rfl⟩)
  | submitted | renewal =>
    refine .inr (.inl ⟨Endpoint.leaseAfterSubmit_token .., ?_⟩)
    unfold Endpoint.leaseAfterSubmit
    split <;> rfl
  | selected =>
    refine .inr (.inl ⟨Endpoint.leaseAfterStart_token .., ?_⟩)
    unfold Endpoint.leaseAfterStart
    split <;> rfl
  | expired =>
    simp only [Endpoint.expireLease]
    split
    · exact .inl ⟨rfl, rfl⟩
    · exact .inr (.inl ⟨rfl, rfl⟩)
  | dropped | stopped => exact .inl ⟨rfl, rfl⟩
  | finalized pc emitted =>
    rename_i i f resume
    simp only [Endpoint.finalizeLease]
    split
    · exact .inl ⟨rfl, rfl⟩
    · split
      · rename_i kind
        split
        · rename_i ok
          exact .inr (.inr ⟨i, f, resume, pc, kind, ok, rfl, rfl⟩)
        · exact .inl ⟨rfl, rfl⟩
      · split <;> exact .inl ⟨rfl, rfl⟩
      · exact .inr (.inl ⟨rfl, rfl⟩)

/-! ### What callers see -/

/-- The history completed the operation in `slot` with the validated response `r`. -/
def CompletedWith (es : Trace) (slot : OperationSlot) (r : Response) : Prop :=
  ∃ x ∈ es, ∃ i clock completion, x.action = .complete i clock completion (some r) ∧
    x.before.endpoint.operations i = slot ∧ r.fits slot.kind = true ∧
    Validated slot.request completion r

/-- A recorded success has the response it came from. -/
theorem Concluded.completed {es : Trace} {slot : OperationSlot} {f : Endpoint.Finalization}
    (concluded : Concluded es slot f) (ok : f.status = .ok) :
    ∃ clock completion r, CompletedWith es slot r ∧ r.fits slot.kind = true ∧
      Validated slot.request completion r ∧
      f = Endpoint.finalization slot clock completion (some r) := by
  obtain ⟨x, member, i, clock, completion, response, action, same, fits, rfl⟩ := concluded
  obtain ⟨r, rfl, validated⟩ := Endpoint.finalization_ok.mp ok
  have fit : r.fits slot.kind = true := by simpa using fits
  exact ⟨clock, completion, r, ⟨x, member, i, clock, completion, action, same, fit, validated⟩,
    fit, validated, rfl⟩

/-- A take answers ok only with a validated response of its operation, and a typed take
writes its value output exactly then. -/
def TakesValidated (past : Trace) (x : Entry World Action Event) : Prop :=
  ∀ kind id taken, x.action = .take kind id → x.event = .took taken →
    (kind ≠ .operation → (taken.value ≠ .none ↔ taken.status = .ok)) ∧
    (taken.status = .ok → ∃ slot r, CompletedWith past slot r ∧ slot.requestId = id ∧
      kind.accepts slot.kind = true ∧ (kind ≠ .operation → taken.value = r.value))

/-- After a success without a valid response the owner records an internal error, which stays
in the slot of a public operation until a take returns it. -/
def InvalidRecorded (x : Entry World Action Event) (rest : Trace) (w : World) : Prop :=
  ∀ i clock completion response, x.action = .complete i clock completion response →
    completion.status = .success →
    (∀ r, response = some r → r.valid (x.before.endpoint.operations i).request = false) →
    ∃ f, f.status = .internalError ∧
      ((∀ y ∈ rest, ∀ clock st, y.action ≠ .owner clock st) ∧ w.owner = .finalizing i f none ∨
        (∃ y ∈ rest, y.event = .finalized (x.before.endpoint.operations i).requestId f) ∧
        ((x.before.endpoint.operations i).internal = false →
          w.endpoint.operations i =
            Endpoint.finalizedSlot (x.before.endpoint.operations i) f ∨
          ∃ y ∈ rest, ∃ kind taken,
            y.action = .take kind (x.before.endpoint.operations i).requestId ∧
            y.event = .took taken ∧ taken.status = .internalError))

/-- The capability word changes only to what a validated answer advertises. -/
def CapabilitiesValidated (x : Entry World Action Event) : Prop :=
  x.after.endpoint.commandCapabilities ≠ x.before.endpoint.commandCapabilities →
    ∃ i clock completion r, x.action = .complete i clock completion (some (.getDeviceInfo r)) ∧
      Validated (x.before.endpoint.operations i).request completion (.getDeviceInfo r) ∧
      x.after.endpoint.commandCapabilities =
        (Endpoint.deviceInfoFromWire r).info.commandCapabilities

/-- A new nonzero token or granted timeout is one that a validated grant carried. -/
def LeaseValidated (past : Trace) (x : Entry World Action Event) : Prop :=
  (x.after.endpoint.lease.token ≠ x.before.endpoint.lease.token ∧
      x.after.endpoint.lease.token ≠ 0) ∨
    (x.after.endpoint.lease.grantedTimeoutMs ≠ x.before.endpoint.lease.grantedTimeoutMs ∧
      x.after.endpoint.lease.grantedTimeoutMs ≠ 0) →
    ∃ slot r, CompletedWith past slot (.acquireControlLease r) ∧
      x.after.endpoint.lease.token = r.leaseToken ∧
      x.after.endpoint.lease.grantedTimeoutMs = r.grantedTimeoutMs

section
variable {past rest : Trace} {x : Entry World Action Event}

theorem takes_validated (recorded : Recorded past x.before)
    (moved : Moves x.before x.action x.after x.event) : TakesValidated past x := by
  intro kind id taken action event
  rw [action, event] at moved
  generalize x.after = after at moved
  cases moved with
  | tookNothing _ why =>
    rcases why with rfl | ⟨i, found, live, rfl⟩ <;> simp
  | took found done accepts =>
    rename_i i
    obtain ⟨used, same⟩ := Endpoint.findSlot_some found
    have unwritten (bad : (x.before.endpoint.operations i).status ≠ .ok) (typed : kind ≠ .operation) :
        kind.value (x.before.endpoint.operations i) = .none := by
      cases kind <;> simp_all [Endpoint.TakeKind.value]
    by_cases ok : (x.before.endpoint.operations i).status = .ok
    · obtain ⟨slot, f, concluded, written⟩ := recorded.slots i used done ok
      have success : f.status = .ok := by
        rw [written] at ok
        exact ok
      obtain ⟨clock, completion, r, completed, fits, validated, rfl⟩ :=
        concluded.completed success
      rw [written] at same
      have accepts : kind.accepts slot.kind = true := by
        rw [written] at accepts
        exact accepts
      refine ⟨?_, ?_⟩
      · intro typed
        obtain ⟨value, some⟩ : kind.value (Endpoint.finalizedSlot slot
            (Endpoint.finalization slot clock completion (some r))) = r.value ∧ r.value ≠ .none :=
          Endpoint.value_of_validated typed accepts fits validated
        dsimp only
        rw [written, value]
        exact ⟨fun _ => success, fun _ => some⟩
      · intro _
        refine ⟨slot, r, completed, same, accepts, ?_⟩
        intro typed
        dsimp only
        rw [written]
        exact (Endpoint.value_of_validated typed accepts fits validated).1
    · refine ⟨?_, fun claimed => absurd claimed ok⟩
      intro typed
      simp [unwritten ok typed, ok]

theorem capabilities_validated (moved : Moves x.before x.action x.after x.event) :
    CapabilitiesValidated x := by
  intro changed
  have exactly := moved.capabilities
  cases reported : reportedDeviceInfo ⟨x.before, x.action, x.event, x.after⟩ with
  | none =>
    rw [reported] at exactly
    exact absurd exactly changed
  | some info =>
    rw [reported] at exactly
    unfold reportedDeviceInfo at reported
    split at reported
    · rename_i i clock completion r action
      split at reported
      · rename_i valid
        obtain rfl := Option.some.inj reported
        exact ⟨i, clock, completion, r, action, ⟨valid.1, valid.2.1, valid.2.2⟩, exactly⟩
      · cases reported
    · cases reported

theorem lease_validated (recorded : Recorded past x.before)
    (moved : Moves x.before x.action x.after x.event) : LeaseValidated past x := by
  intro changed
  rcases moved.lease_change.values with
    ⟨token, timeout⟩ | ⟨token, timeout⟩ | ⟨i, f, resume, pc, kind, ok, token, timeout⟩
  · simp [token, timeout] at changed
  · simp [token, timeout] at changed
  · obtain ⟨clock, completion, r, completed, fits, validated, rfl⟩ :=
      (recorded.owner i f resume pc ok).completed ok
    rw [(Endpoint.finalization_spec _ clock completion (some r)).1] at kind
    cases r with
    | acquireControlLease r =>
      have valid := validated.valid
      simp only [Response.valid] at valid
      refine ⟨_, r, completed, token.trans ?_, timeout.trans ?_⟩ <;>
        simp [Endpoint.finalization, validated.success, valid]
    | getDeviceInfo | deviceSettings | motorRegisterRead | acknowledged =>
      simp [Response.fits, kind] at fits

/-- A finalized public slot is left alone until a take returns its result. -/
theorem SlotsInv.finalized_step (inv : SlotsInv w) (moved : Moves w a next event) {i : SlotIndex}
    {slot : OperationSlot} {f : Endpoint.Finalization} (outer : slot.internal = false)
    (used : slot.used = true) (done : terminal f.state = true)
    (held : w.endpoint.operations i = Endpoint.finalizedSlot slot f) :
    next.endpoint.operations i = Endpoint.finalizedSlot slot f ∨
      ∃ kind taken, a = .take kind slot.requestId ∧ event = .took taken ∧
        taken.status = f.status := by
  have unqueued : f.state ≠ .queued := by
    intro queued
    simp [queued, terminal] at done
  have settled : f.state ≠ .linkPending := by
    intro pending
    simp [pending, terminal] at done
  have change := inv.slot_change moved i
  rw [held] at change
  generalize next.endpoint.operations i = after at change
  cases change with
  | kept => exact .inl rfl
  | submitted free => simp [Endpoint.finalizedSlot, used] at free
  | restated _ live => exact (live.elim unqueued settled).elim
  | finalized _ live => exact (live.elim unqueued settled).elim
  | cancelled _ queued => exact absurd queued unqueued
  | dropped internal => simp [Endpoint.finalizedSlot, outer] at internal
  | taken _ action emitted => exact .inr ⟨_, _, action, emitted, rfl⟩

/-- Until the owner's last region the slot is as it was when the completion arrived; from then
on the result stays in the slot of a public operation until a take returns it. -/
theorem completion_recorded (run : Run machine (past ++ x :: rest) w) {i : SlotIndex}
    {clock : TimeMs} {completion : RpcCompletion} {response : Option Response}
    {slot : OperationSlot} {f : Endpoint.Finalization}
    (action : x.action = .complete i clock completion response)
    (slotEq : x.before.endpoint.operations i = slot)
    (finalization : f = Endpoint.finalization slot clock completion response) :
    ((∀ y ∈ rest, ∀ clock st, y.action ≠ .owner clock st) ∧ w.owner = .finalizing i f none ∧
      w.endpoint.operations i = slot) ∨
    (∃ y ∈ rest, y.event = .finalized slot.requestId f) ∧
      (slot.internal = false → w.endpoint.operations i = Endpoint.finalizedSlot slot f ∨
        ∃ y ∈ rest, ∃ kind taken, y.action = .take kind slot.requestId ∧
          y.event = .took taken ∧ taken.status = f.status) := by
  obtain ⟨before, stepped⟩ := run.entry
  have first := SlotsInv.of_run before
  have done : terminal f.state = true := by
    rw [finalization, (Endpoint.finalization_spec slot clock completion response).2.2.2]
    exact Endpoint.completionState_terminal _
  have internal : f.internal = slot.internal := by
    rw [finalization]
    exact (Endpoint.finalization_spec slot clock completion response).2.1
  have entered : x.after.owner = .finalizing i f none ∧ x.after.endpoint.operations i = slot ∧
      slot.used = true := by
    have moved := step_moves stepped
    rw [action] at moved
    generalize x.after = after, x.event = event at moved
    cases moved with
    | complete pc owes fits =>
      obtain ⟨completions, -⟩ := first.settled (by simp [pc, OwnerPc.plain])
      have used := (first.table.active i ((completions i).mp owes)).1
      rw [slotEq] at used
      refine ⟨?_, slotEq, used⟩
      rw [finalization, ← slotEq]
      rfl
  have used := entered.2.2
  rw [show past ++ x :: rest = (past ++ [x]) ++ rest by simp] at run
  refine run.since (P := fun fs s =>
    ((∀ y ∈ fs, ∀ clock st, y.action ≠ .owner clock st) ∧ s.owner = .finalizing i f none ∧
      s.endpoint.operations i = slot) ∨
    (∃ y ∈ fs, y.event = .finalized slot.requestId f) ∧
      (slot.internal = false → s.endpoint.operations i = Endpoint.finalizedSlot slot f ∨
        ∃ y ∈ fs, ∃ kind taken, y.action = .take kind slot.requestId ∧
          y.event = .took taken ∧ taken.status = f.status)) ?start ?keeps
  case start =>
    intro s reached
    obtain rfl := reached.of_snoc.2.2
    exact .inl ⟨List.forall_mem_nil _, entered.1, entered.2.1⟩
  case keeps =>
    intro fs s a e t reached held stepped
    have inv := SlotsInv.of_run reached
    have moved := step_moves stepped
    rcases held with ⟨quiet, inside, same⟩ | ⟨⟨y, member, emitted⟩, recorded⟩
    · by_cases turn : ∃ clock st, a = .owner clock st
      · obtain ⟨clock, st, rfl⟩ := turn
        have last : e = .finalized slot.requestId f ∧
            t.endpoint.operations i =
              if f.internal = true then .empty else Endpoint.finalizedSlot slot f := by
          cases moved with
          | finalize pc =>
            rw [inside] at pc
            cases pc
            refine ⟨by rw [same], ?_⟩
            rw [Endpoint.finalize_operations, Function.update_self, same]
          | _ => simp_all
        refine .inr ⟨⟨_, List.mem_append_right _ (List.mem_singleton_self _), last.1⟩, ?_⟩
        intro outer
        rw [internal, outer] at last
        exact .inl last.2
      · have other : ∀ clock st, a ≠ .owner clock st := fun clock st h => turn ⟨clock, st, h⟩
        have stays : t.owner = .finalizing i f none := by
          rw [moved.owner_kept other (by rw [inside]; intro idle; cases idle), inside]
        refine .inl ⟨?_, stays, ?_⟩
        · intro y member
          rcases List.mem_append.mp member with earlier | now
          · exact quiet y earlier
          · obtain rfl := List.mem_singleton.mp now
            exact other
        · rcases moved.finalizing_cases inv stays with ⟨-, kept⟩ | ⟨_, _, _, kept, -⟩ <;>
            rw [kept, same]
    · refine .inr ⟨⟨y, List.mem_append_left _ member, emitted⟩, ?_⟩
      intro outer
      rcases recorded outer with held | ⟨z, earlier, taken⟩
      · rcases inv.finalized_step moved outer used done held with
          kept | ⟨kind, taken, rfl, rfl, answer⟩
        · exact .inl kept
        · exact .inr ⟨_, List.mem_append_right _ (List.mem_singleton_self _), kind, taken, rfl, rfl,
            answer⟩
      · exact .inr ⟨z, List.mem_append_left _ earlier, taken⟩

theorem invalid_recorded (run : Run machine (past ++ x :: rest) w) : InvalidRecorded x rest w := by
  intro i clock completion response action success invalid
  have status : (Endpoint.finalization (x.before.endpoint.operations i) clock completion
      response).status = .internalError := Endpoint.finalization_invalid success invalid
  refine ⟨_, status, ?_⟩
  refine (completion_recorded run action rfl rfl).imp (fun pending => ⟨pending.1, pending.2.1⟩) ?_
  rintro ⟨finished, recorded⟩
  refine ⟨finished, fun outer => (recorded outer).imp id ?_⟩
  rintro ⟨y, member, kind, taken, taking, took, answer⟩
  exact ⟨y, member, kind, taken, taking, took, answer.trans status⟩

/-- In every run: ok and value outputs come from validated successes only, a success without a
valid response becomes an internal error, and so capabilities and lease values are genuine. -/
theorem results_validated (run : Run machine (past ++ x :: rest) w) :
    TakesValidated past x ∧ InvalidRecorded x rest w ∧ CapabilitiesValidated x ∧
      LeaseValidated past x := by
  obtain ⟨before, stepped⟩ := run.entry
  have recorded := Recorded.of_run before
  have moved := step_moves stepped
  exact ⟨takes_validated recorded moved, invalid_recorded run, capabilities_validated moved,
    lease_validated recorded moved⟩

end

/-- The owner is about to record the grant of the acquire. -/
def grantReceived : List (Entry World Action Event) × World :=
  (exec machine heldLease.dropLast [] machine.init).get (by decide +kernel)

/-- The token of an acquired lease is the one its validated grant carried. -/
theorem results_validated_heldLease : ∃ past x slot r, Run machine (past ++ [x]) x.after ∧
    x.after.endpoint.lease.token = 5 ∧ CompletedWith past slot (.acquireControlLease r) ∧
    r.leaseToken = 5 := by
  have past : Run machine grantReceived.1 grantReceived.2 := exec_get _
  have before : grantReceived.2.endpoint.lease.token = 0 := by decide +kernel
  have recorded : (machine.step grantReceived.2 (.owner 0 .ok)).map
      (fun next => next.1.endpoint.lease.token) = some 5 := by decide +kernel
  obtain ⟨⟨next, event⟩, stepped, after⟩ := Option.map_eq_some_iff.mp recorded
  have run := past.snoc stepped
  obtain ⟨-, -, -, lease⟩ := results_validated run
  have changed : next.endpoint.lease.token ≠ grantReceived.2.endpoint.lease.token := by
    rw [before, after]
    decide
  obtain ⟨slot, r, completed, same, -⟩ := lease (.inl ⟨changed, by rw [after]; decide⟩)
  exact ⟨_, _, slot, r, run, after, completed, same.symm.trans after⟩

end Florid.Wirelink
