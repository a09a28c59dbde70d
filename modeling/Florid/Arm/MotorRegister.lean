import Florid.Arm.Operations
import Florid.Wirelink.Provenance

/-! Reading a motor register: what the two layers that a response passes make of its 32 bits.
Both ask for a finite `float`, whether the register holds a real number or an integer. -/
namespace Florid.Arm
open Transition Wirelink

/-- `ArmImpl::readMotorRegister` with the results of its wait and its take. -/
def readMotorRegister (wait take : Endpoint.Taken) : Option Binary32 :=
  let value : Binary32 :=
    match take.value with
    | .register value => value
    | _ => 0
  if wait.status ≠ .ok ∨ take.status ≠ .ok ∨ value.isFinite = false then none else some value

/-- `s_readU32`: the bytes of the `float`. -/
def readU32 (value : Option Binary32) : Option (BitVec 32) := value

/-- The fields of a register response, for the request of the slot. -/
def echoes (request : OperationRequest) (response : MotorRegisterReadResponse) : Bool :=
  response.hasJointId && response.jointId == request.jointId && response.hasRegisterId &&
    response.registerId == request.registerId && response.hasValue

abbrev EndpointEntry := Entry World Action Event

/-- A read whose request the device answers: the response completes the request in slot `i`,
with success, without a rejection and with its joint and register; the caller, who alone takes
the request, then waits and takes, and its id finds that slot. -/
structure Answered (i : SlotIndex) (r : MotorRegisterReadResponse) (answer : EndpointEntry)
    (before : List EndpointEntry) (waited : EndpointEntry) (between : List EndpointEntry)
    (took : EndpointEntry) (wait take : Endpoint.Taken) : Prop where
  completed : ∃ clock completion,
    answer.action = .complete i clock completion (some (.motorRegisterRead r)) ∧
    completion.status = .success ∧ completion.rejection = 0
  read : (answer.before.endpoint.operations i).kind = .motorRegisterRead ∧
    (answer.before.endpoint.operations i).internal = false
  echoed : echoes (answer.before.endpoint.operations i).request r = true
  alone : ∀ y ∈ before ++ waited :: between, ∀ kind,
    y.action ≠ .take kind (answer.before.endpoint.operations i).requestId
  waits : waited.action = .wait (answer.before.endpoint.operations i).requestId false ∧
    waited.event = .observed wait ∧
    waited.before.endpoint.findSlot (answer.before.endpoint.operations i).requestId = some i
  takes : took.action = .take .motorRegister (answer.before.endpoint.operations i).requestId ∧
    took.event = .took take ∧
    took.before.endpoint.findSlot (answer.before.endpoint.operations i).requestId = some i

/-- What the owner makes of an echoed response. -/
theorem finalization_register {slot : OperationSlot} {clock : TimeMs} {completion : RpcCompletion}
    {r : MotorRegisterReadResponse} (success : completion.status = .success)
    (accepted : completion.rejection = 0) (echoed : echoes slot.request r = true) :
    (Endpoint.finalization slot clock completion (some (.motorRegisterRead r))).status =
      (if r.value.isFinite then .ok else .internalError) ∧
    (Endpoint.finalization slot clock completion (some (.motorRegisterRead r))).state =
      .completed ∧
    (Endpoint.finalization slot clock completion (some (.motorRegisterRead r))).motorRegisterValue =
      r.value ∧
    (Endpoint.finalization slot clock completion (some (.motorRegisterRead r))).motorRegisterValid =
      r.value.isFinite := by
  have valid : Endpoint.validRegister slot.request r = r.value.isFinite := by
    simp only [echoes] at echoed
    simp [Endpoint.validRegister, echoed]
  simp only [Endpoint.finalization, success, accepted, valid]
  cases finite : r.value.isFinite <;> simp [Endpoint.completionState, Endpoint.completionStatus]

/-- The operation that the owner finalizes is not terminal yet. -/
theorem finalizing_live {w : World} (inv : SlotsInv w) {i : SlotIndex} {f : Endpoint.Finalization}
    {resume : Option (TimeMs × Nat)} (inside : w.owner = .finalizing i f resume) :
    terminal (w.endpoint.operations i).state = false := by
  have owner := inv.owner
  simp only [World.OwnerOk, inside] at owner
  obtain ⟨-, -, -, -, ⟨queued, -⟩ | ⟨active, -⟩⟩ := owner
  · rw [queued]
    rfl
  · rw [(inv.table.active i active).2]
    rfl

/-- A wait that does not expire ends with a terminal operation. -/
theorem wait_terminal {w next : World} {id : Nat} {i : SlotIndex} {wait : Endpoint.Taken}
    (found : w.endpoint.findSlot id = some i)
    (waited : w.step (.wait id false) = some (next, .observed wait)) :
    terminal (w.endpoint.operations i).state = true ∧
      wait.status = (w.endpoint.operations i).status := by
  simp only [World.step, Option.map_eq_some_iff, Prod.mk.injEq, Event.observed.injEq] at waited
  obtain ⟨taken, answered, -, rfl⟩ := waited
  simp only [Endpoint.waitOperation, found] at answered
  split at answered
  · cases answered
    exact ⟨‹_›, rfl⟩
  · simp at answered

theorem take_register {w next : World} {id : Nat} {i : SlotIndex} {take : Endpoint.Taken}
    (found : w.endpoint.findSlot id = some i)
    (done : terminal (w.endpoint.operations i).state = true)
    (kind : (w.endpoint.operations i).kind = .motorRegisterRead)
    (took : w.step (.take .motorRegister id) = some (next, .took take)) :
    take.status = (w.endpoint.operations i).status ∧
      take.value = Endpoint.TakeKind.motorRegister.value (w.endpoint.operations i) := by
  simp only [World.step, Option.some.injEq, Prod.mk.injEq, Event.took.injEq] at took
  obtain ⟨-, rfl⟩ := took
  simp [Endpoint.take, found, kind, done, Endpoint.TakeKind.accepts]

/-- The owner alone finalizes. -/
theorem finalized_owner {w next : World} {a : Action} {id : Nat} {f : Endpoint.Finalization}
    (moved : Wirelink.Moves w a next (.finalized id f)) : ∃ clock st, a = .owner clock st := by
  cases moved with
  | finalize => exact ⟨_, _, rfl⟩

section
variable {i : SlotIndex} {r : MotorRegisterReadResponse} {answer waited took : EndpointEntry}
  {past before between : List EndpointEntry} {wait take : Endpoint.Taken} {w : World}

/-- From the wait to the take the slot shows the device's answer. -/
theorem Answered.shown
    (call : Answered i r answer before waited between took wait take)
    (run : Run machine (past ++ answer :: before ++ waited :: between ++ [took]) w) :
    ∃ f : Endpoint.Finalization,
      f.status = (if r.value.isFinite then .ok else .internalError) ∧ f.state = .completed ∧
      f.motorRegisterValue = r.value ∧ f.motorRegisterValid = r.value.isFinite ∧
      waited.before.endpoint.operations i =
        Endpoint.finalizedSlot (answer.before.endpoint.operations i) f ∧
      took.before.endpoint.operations i =
        Endpoint.finalizedSlot (answer.before.endpoint.operations i) f := by
  obtain ⟨clock, completion, action, success, accepted⟩ := call.completed
  generalize finalization : Endpoint.finalization (answer.before.endpoint.operations i) clock
    completion (some (.motorRegisterRead r)) = f
  obtain ⟨status, state, value, valid⟩ := finalization_register success accepted call.echoed
  rw [finalization] at status state value valid
  obtain ⟨waits, observed, found⟩ := call.waits
  have first : Run machine (past ++ answer :: before ++ waited :: (between ++ [took])) w := by
    simpa using run
  obtain ⟨toWait, waiting⟩ := first.entry
  rw [waits, observed] at waiting
  have ended := (wait_terminal found waiting).1
  have held := completion_recorded toWait action rfl finalization.symm
  rcases held with ⟨-, inside, -⟩ | ⟨⟨y, early, emitted⟩, recorded⟩
  · -- the owner would still be at it
    simp [finalizing_live (SlotsInv.of_run toWait) inside] at ended
  have during : waited.before.endpoint.operations i =
      Endpoint.finalizedSlot (answer.before.endpoint.operations i) f := by
    refine (recorded call.read.2).resolve_right ?_
    rintro ⟨z, member, kind, taken, taking, -⟩
    exact call.alone z (List.mem_append_left _ member) kind taking
  have second : Run machine (past ++ answer :: (before ++ waited :: between)) took.before := by
    have := run.of_snoc.1
    simpa using this
  refine ⟨f, status, state, value, valid, during, ?_⟩
  rcases completion_recorded second action rfl finalization.symm with
    ⟨quiet, -⟩ | ⟨-, recorded⟩
  · obtain ⟨earlier, -, stepped⟩ : ∃ earlier, Run machine earlier y.before ∧
        machine.step y.before y.action = some (y.after, y.event) :=
      toWait.entry_of_mem (List.mem_append_right _ (List.mem_cons_of_mem _ early))
    rw [emitted] at stepped
    obtain ⟨clock, st, turn⟩ := finalized_owner (Wirelink.step_moves stepped)
    exact absurd turn (quiet y (List.mem_append_left _ early) clock st)
  · refine (recorded call.read.2).resolve_right ?_
    rintro ⟨z, member, kind, taken, taking, -⟩
    exact call.alone z member kind taking

/-- A read whose request the device answers gives back the 32 bits of the response just when
they are a finite `float`, and nothing otherwise. -/
theorem readU32_iff
    (run : Run machine (past ++ answer :: before ++ waited :: between ++ [took]) w)
    (call : Answered i r answer before waited between took wait take) :
    readU32 (readMotorRegister wait take) = some r.value ↔ r.value.isFinite = true := by
  obtain ⟨f, status, state, value, valid, during, after⟩ := call.shown run
  obtain ⟨waits, observed, found⟩ := call.waits
  obtain ⟨takes, took', found'⟩ := call.takes
  have first : Run machine (past ++ answer :: before ++ waited :: (between ++ [took])) w := by
    simpa using run
  have waiting := first.entry.2
  rw [waits, observed] at waiting
  have taking := run.of_snoc.2.1
  rw [takes, took'] at taking
  have waited := (wait_terminal found waiting).2
  have kind : (took.before.endpoint.operations i).kind = .motorRegisterRead := by
    rw [after]
    exact call.read.1
  have done : terminal (took.before.endpoint.operations i).state = true := by
    rw [after]
    simp [Endpoint.finalizedSlot, state, terminal]
  obtain ⟨answered, taken⟩ := take_register found' done kind taking
  rw [during] at waited
  rw [after] at answered taken
  cases finite : r.value.isFinite with
  | true =>
    rw [finite, if_pos rfl] at status
    have read : take.value = .register r.value := by
      simp [taken, Endpoint.TakeKind.value, Endpoint.finalizedSlot, status, valid, finite, value]
    have waited : wait.status = .ok := waited.trans status
    have answered : take.status = .ok := answered.trans status
    simp [readU32, readMotorRegister, read, waited, answered, finite]
  | false =>
    have waited : wait.status = .internalError := by
      rw [waited]
      simp [Endpoint.finalizedSlot, status, finite]
    simp [readU32, readMotorRegister, waited]

end

/-- The hardware version of joint 3 is asked for, and the call is in the device's hands. -/
def asked : List EndpointEntry × World :=
  (exec machine ((Call.readMotorRegister 2 13 500).through 0 ++ .pass 0 :: ownerTurns 14 0 .ok)
    [] machine.init).get (by decide +kernel)

def hardwareVersion (value : Binary32) : MotorRegisterReadResponse where
  hasJointId := true
  jointId := 2
  hasRegisterId := true
  registerId := 13
  hasValue := true
  value

/-- The device's answer, the owner's last region, the wait and the take, and whether the request
is found at the last two. -/
def readBack (value : Binary32) : Option (Endpoint.Taken × Endpoint.Taken × Bool) :=
  (machine.step asked.2 (.complete firstSlot 0 { status := .success }
      (some (.motorRegisterRead (hardwareVersion value))))).bind fun answered =>
  (machine.step answered.1 (.owner 0 .ok)).bind fun finalized =>
  (machine.step finalized.1 (.wait 1 false)).bind fun waited =>
  (machine.step waited.1 (.take .motorRegister 1)).bind fun took =>
    match waited.2, took.2 with
    | .observed wait, .took take =>
      some (wait, take, finalized.1.endpoint.findSlot 1 == some firstSlot &&
        waited.1.endpoint.findSlot 1 == some firstSlot)
    | _, _ => none

theorem readBack_answered {value : Binary32} {wait take : Endpoint.Taken}
    (read : readBack value = some (wait, take, true)) : ∃ answer before waited between took w,
      Run machine (asked.1 ++ answer :: before ++ waited :: between ++ [took]) w ∧
      Answered firstSlot (hardwareVersion value) answer before waited between took wait take := by
  have past : Run machine asked.1 asked.2 := exec_get _
  have slot : (asked.2.endpoint.operations firstSlot).kind = .motorRegisterRead ∧
      (asked.2.endpoint.operations firstSlot).internal = false ∧
      (asked.2.endpoint.operations firstSlot).requestId = 1 ∧
      echoes (asked.2.endpoint.operations firstSlot).request (hardwareVersion 0) = true := by
    decide +kernel
  obtain ⟨kind, internal, id, echoed⟩ := slot
  simp only [readBack, Option.bind_eq_some_iff] at read
  obtain ⟨⟨w₁, e₁⟩, completes, ⟨w₂, e₂⟩, finalizes, ⟨w₃, e₃⟩, waits, ⟨w₄, e₄⟩, takes, seen⟩ := read
  split at seen
  · rename_i waited took
    simp only [Option.some.injEq, Prod.mk.injEq, Bool.and_eq_true, beq_iff_eq] at seen
    obtain ⟨rfl, rfl, found, found'⟩ := seen
    dsimp only at waited took
    subst waited took
    have run := (((past.snoc completes).snoc finalizes).snoc waits).snoc takes
    refine ⟨_, [_], _, [], _, w₄, by simpa using run, ?_⟩
    refine ⟨⟨0, _, rfl, rfl, rfl⟩, ⟨kind, internal⟩, echoed, ?_, ?_, ?_⟩
    · simp
    · exact ⟨by rw [id], rfl, by rw [id]; exact found⟩
    · exact ⟨by rw [id], rfl, by rw [id]; exact found'⟩
  · cases seen

theorem readU32_iff_version : ∃ wait take, readBack 5 = some (wait, take, true) ∧
    readU32 (readMotorRegister wait take) = some 5 := by
  have checked : (readBack 5).map (fun seen => seen.2.2) = some true := by decide +kernel
  obtain ⟨⟨wait, take, found⟩, read, same⟩ := Option.map_eq_some_iff.mp checked
  obtain rfl : found = true := same
  obtain ⟨answer, before, waited, between, took, w, run, call⟩ := readBack_answered read
  exact ⟨wait, take, read, (readU32_iff run call).mpr (by decide)⟩

/-- A version register that was never written reads as all ones, and is lost. -/
theorem version_lost : ∃ answer before waited between took w wait take,
    Run machine (asked.1 ++ answer :: before ++ waited :: between ++ [took]) w ∧
    Answered firstSlot (hardwareVersion 0xFFFFFFFF) answer before waited between took wait take ∧
    readU32 (readMotorRegister wait take) ≠ some 0xFFFFFFFF := by
  have checked : (readBack 0xFFFFFFFF).map (fun seen =>
      (seen.2.2, readU32 (readMotorRegister seen.1 seen.2.1))) = some (true, none) := by
    decide +kernel
  obtain ⟨⟨wait, take, found⟩, read, same⟩ := Option.map_eq_some_iff.mp checked
  obtain ⟨same, lost⟩ := Prod.mk.inj same
  obtain rfl : found = true := same
  obtain ⟨answer, before, waited, between, took, w, run, call⟩ := readBack_answered read
  refine ⟨answer, before, waited, between, took, w, wait, take, run, call, ?_⟩
  simp [lost]

end Florid.Arm
