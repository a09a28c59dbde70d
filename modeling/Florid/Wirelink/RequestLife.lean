import Florid.Wirelink.RequestIds

/-! The life of one public request: queued, then back and forth between queued and
pending, then one terminal result that stays until a take removes it. -/
namespace Florid.Wirelink
open Transition

/-- What the endpoint has on record for an id. -/
def Endpoint.recorded (e : Endpoint) (id : Nat) : Option FciOperationResult :=
  (e.findSlot id).map fun i => result (e.operations i)

namespace Endpoint
variable {e : Endpoint} {id : Nat}

theorem findSlot_eq (distinct : ∀ i j, (e.operations i).used = true →
    (e.operations j).used = true → (e.operations i).requestId = (e.operations j).requestId → i = j)
    {i : SlotIndex} (used : (e.operations i).used = true) :
    e.findSlot (e.operations i).requestId = some i := by
  cases found : e.findSlot (e.operations i).requestId with
  | none => exact absurd rfl (findSlot_none found i used)
  | some j =>
    obtain ⟨usedJ, same⟩ := findSlot_some found
    rw [distinct j i usedJ used same]

/-- A take that is not told to wait removes the slot. -/
theorem take_removes (distinct : ∀ i j, (e.operations i).used = true →
    (e.operations j).used = true → (e.operations i).requestId = (e.operations j).requestId → i = j)
    {i : SlotIndex} {kind : TakeKind} (used : (e.operations i).used = true)
    (accepts : kind.accepts (e.operations i).kind = true)
    (ended : (e.take kind (e.operations i).requestId).2.status ≠ .busy) :
    (((e.take kind (e.operations i).requestId).1).operations i).used = false := by
  unfold take at ended ⊢
  rw [findSlot_eq distinct used] at ended ⊢
  simp only [accepts, Bool.not_true, Bool.false_eq_true, if_false] at ended ⊢
  split
  · rename_i live
    rw [if_pos live] at ended
    exact absurd rfl ended
  · simp

/-- A public request in the queue or in flight. -/
def Live (e : Endpoint) (id : Nat) : Prop :=
  ∃ i, (e.operations i).used = true ∧ (e.operations i).requestId = id ∧
    (e.operations i).internal = false ∧
    ((e.operations i).state = .queued ∨ (e.operations i).state = .linkPending)

/-- A public request with its terminal result. -/
def Ended (e : Endpoint) (id : Nat) (r : FciOperationResult) : Prop :=
  ∃ i, (e.operations i).used = true ∧ (e.operations i).requestId = id ∧
    (e.operations i).internal = false ∧ result (e.operations i) = r ∧ terminal r.state = true

/-- An id without a slot. -/
def Gone (e : Endpoint) (id : Nat) : Prop :=
  ∀ i, (e.operations i).used = true → (e.operations i).requestId ≠ id

theorem Gone.findSlot (gone : e.Gone id) : e.findSlot id = none := by
  cases found : e.findSlot id with
  | none => rfl
  | some i => exact absurd (findSlot_some found).2 (gone i (findSlot_some found).1)

end Endpoint

namespace SlotsInv
variable {w next : World} {a : Action} {event : Event} {id n : Nat}

theorem live_step (inv : SlotsInv w) (moved : Moves w a next event) (live : w.endpoint.Live id) :
    next.endpoint.Live id ∨ ∃ r, next.endpoint.Ended id r := by
  obtain ⟨i, used, same, outer, state⟩ := live
  have unended : terminal (w.endpoint.operations i).state = false := by
    rcases state with h | h <;> rw [h] <;> rfl
  have change := inv.slot_change moved i
  generalize held : next.endpoint.operations i = after at change
  cases change with
  | kept => exact .inl ⟨i, by rw [held]; exact ⟨used, same, outer, state⟩⟩
  | submitted free => simp [used] at free
  | restated _ _ restated => exact .inl ⟨i, by rw [held]; exact ⟨used, same, outer, restated⟩⟩
  | finalized _ _ _ done => exact .inr ⟨_, i, by rw [held]; exact ⟨used, same, outer, rfl, done⟩⟩
  | cancelled => exact .inr ⟨_, i, by rw [held]; exact ⟨used, same, outer, rfl, rfl⟩⟩
  | dropped internal => simp [outer] at internal
  | taken done => simp [unended] at done

/-- An event that removes the result `r` of request `id`. -/
def Removes (id : Nat) (r : FciOperationResult) (a : Action) (event : Event) : Prop :=
  ∃ kind taken, a = .take kind id ∧ event = .took taken ∧ taken.result = some r ∧
    taken.status = r.status

theorem ended_step (inv : SlotsInv w) (ids : IdsInv n w) (moved : Moves w a next event)
    {r : FciOperationResult} (ended : w.endpoint.Ended id r) :
    next.endpoint.Ended id r ∨ next.endpoint.Gone id ∧ Removes id r a event := by
  obtain ⟨i, used, same, outer, recorded, done⟩ := ended
  have notLive : ¬((w.endpoint.operations i).state = .queued ∨
      (w.endpoint.operations i).state = .linkPending) := by
    rw [← recorded] at done
    rintro (h | h) <;> simp [Endpoint.result, h, terminal] at done
  have change := inv.slot_change moved i
  generalize held : next.endpoint.operations i = after at change
  cases change with
  | kept => exact .inl ⟨i, by rw [held]; exact ⟨used, same, outer, recorded, done⟩⟩
  | submitted free => simp [used] at free
  | restated _ state => exact absurd state notLive
  | finalized _ state => exact absurd state notLive
  | cancelled _ state => exact absurd (.inl state) notLive
  | dropped internal => simp [outer] at internal
  | taken _ action emitted =>
    rw [same] at action
    subst recorded
    have unaccepted : event.accepted = false := by simp [emitted, Event.accepted]
    refine .inr ⟨?_, _, _, action, emitted, rfl, rfl⟩
    intro j usedJ sameJ
    obtain ⟨before, kept⟩ := (inv.slot_change moved j).same_id unaccepted usedJ
    have apart : j ≠ i := by
      rintro rfl
      simp [held] at usedJ
    exact apart (ids.distinct j i before used (by rw [← kept, sameJ, same]))

theorem gone_step (inv : SlotsInv w) (ids : IdsInv n w) (moved : Moves w a next event)
    (bound : event.accepted = true → n + 1 < 2 ^ 64) (older : id ≤ n)
    (gone : w.endpoint.Gone id) : next.endpoint.Gone id := by
  intro j used
  cases accepted : event.accepted
  · obtain ⟨before, kept⟩ := (inv.slot_change moved j).same_id accepted used
    rw [kept]
    exact gone j before
  · obtain ⟨internal, s, clock, i, -, -, free, filled, counter⟩ := moved.accepted accepted
    rw [filled] at used ⊢
    by_cases same : j = i
    · subst same
      simp only [Function.update_self, Endpoint.submittedSlot, ids.next_id (bound accepted)]
      omega
    · rw [Function.update_of_ne same] at used ⊢
      exact gone j used

end SlotsInv

/-! ### Busy is a local answer -/

/-- Public slots keep their id and operation while in use. -/
theorem SlotChange.same_operation {a : Action} {event : Event} {slot next : OperationSlot}
    (change : SlotChange a event slot next) (quiet : event.accepted = false)
    (used : next.used = true) : slot.used = true ∧ next.requestId = slot.requestId ∧
      next.internal = slot.internal ∧ next.kind = slot.kind := by
  cases change with
  | submitted _ made => simp [made, Event.accepted] at quiet
  | kept | restated | finalized | cancelled => exact ⟨used, rfl, rfl, rfl⟩
  | dropped | taken => simp at used

/-- A slot under an id that is not new holds the operation it held before. -/
theorem SlotsInv.old_slot {w next : World} {a : Action} {event : Event} {n : Nat}
    (inv : SlotsInv w) (ids : IdsInv n w) (bound : n + 1 < 2 ^ 64) (moved : Moves w a next event)
    {i : SlotIndex} (used : (next.endpoint.operations i).used = true)
    (old : (next.endpoint.operations i).requestId ≤ n) :
    (w.endpoint.operations i).used = true ∧
      (next.endpoint.operations i).requestId = (w.endpoint.operations i).requestId ∧
      (next.endpoint.operations i).kind = (w.endpoint.operations i).kind := by
  cases accepted : event.accepted
  · obtain ⟨before, id, -, kind⟩ := (inv.slot_change moved i).same_operation accepted used
    exact ⟨before, id, kind⟩
  · obtain ⟨internal, s, clock, j, -, -, free, filled, -⟩ := moved.accepted accepted
    rw [filled] at used old ⊢
    by_cases same : i = j
    · subst same
      simp only [Function.update_self, Endpoint.submittedSlot, ids.next_id bound] at old
      omega
    · rw [Function.update_of_ne same] at used ⊢
      exact ⟨used, rfl, rfl⟩

/-- The operation has ended, or its slot is gone. -/
def Endpoint.ended (e : Endpoint) (id : Nat) : Bool :=
  match e.findSlot id with
  | none => true
  | some i => terminal (e.operations i).state

/-- A completion never records busy, which is the answer of a local wait. -/
theorem Endpoint.finalization_not_busy (slot : OperationSlot) (now : TimeMs)
    (completion : RpcCompletion) (response : Option Response) :
    (finalization slot now completion response).status ≠ .busy := by
  have base : completionStatus (completionState completion.status) completion.rejection ≠ .busy := by
    unfold completionStatus
    cases completion.status <;> simp [completionState]
    split <;> simp
  unfold finalization
  dsimp only
  split <;> (try split) <;> (try split) <;> simp [base]

structure NeverBusy (w : World) : Prop where
  slots : ∀ i, (w.endpoint.operations i).status ≠ .busy
  owner : ∀ i f resume, w.owner = .finalizing i f resume → f.status ≠ .busy

namespace NeverBusy
variable {w next : World} {a : Action} {event : Event}

theorem update {operations : SlotIndex → OperationSlot} {i : SlotIndex} {slot : OperationSlot}
    (held : ∀ j, (operations j).status ≠ .busy) (new : slot.status ≠ .busy) (j : SlotIndex) :
    (Function.update operations i slot j).status ≠ .busy := by
  by_cases same : j = i
  · subst same
    simpa using new
  · rw [Function.update_of_ne same]
    exact held j

/-- The owner moves to a position outside `s_finalize`. -/
theorem elsewhere
    (operations : ∀ j, (next.endpoint.operations j).status ≠ .busy)
    (outside : next.owner.inFinalize = false) : NeverBusy next := by
  refine ⟨operations, ?_⟩
  intro i f resume finalizing
  simp [finalizing, OwnerPc.inFinalize] at outside

theorem beginFinalize (held : NeverBusy w) {i : SlotIndex} {clock : TimeMs}
    {completion : RpcCompletion} {response : Option Response} {resume : Option (TimeMs × Nat)} :
    NeverBusy (w.beginFinalize i clock completion response resume) := by
  refine ⟨held.slots, ?_⟩
  rintro j f r ⟨⟩
  exact Endpoint.finalization_not_busy _ _ _ _

theorem moves (held : NeverBusy w) (moved : Moves w a next event) : NeverBusy next := by
  cases moved with
  | refused | called | blocked | passed | rejected | tokenBusy | tokenGate | tokenRead | inspected
  | waited | tookNothing | upgrade => exact ⟨held.slots, held.owner⟩
  | queued => exact ⟨update held.slots (by simp [Endpoint.submittedSlot]), held.owner⟩
  | took => exact ⟨update held.slots (by decide), held.owner⟩
  | expiredInQueue | expiredAtStart | startFailed => exact held.beginFinalize
  | complete =>
    rename_i i _ _ _ _ _ _
    exact beginFinalize (w := { w with owed := Function.update w.owed i false })
      ⟨held.slots, held.owner⟩
  | quiesce pc =>
    refine ⟨?_, fun i f r finalizing => by simp [pc] at finalizing⟩
    intro j
    simp only [Endpoint.stopOnOwner, Endpoint.stopSlot]
    split
    · exact held.slots j
    · split <;> simp [OperationSlot.empty]
  | finalize pc =>
    rename_i clock st i f resume
    refine elsewhere ?_ ?_
    · rw [Endpoint.finalize_operations]
      refine update held.slots ?_
      split
      · decide
      · exact held.owner i f resume pc
    · cases resume <;> rfl
  | startCommit =>
    rename_i clock st i started pc
    refine elsewhere ?_ ?_
    · cases started <;> exact update held.slots (held.slots i)
    · dsimp only
      split <;> rfl
  | readGate => exact elsewhere held.slots (by dsimp only; split <;> rfl)
  | expireLease =>
    refine elsewhere ?_ rfl
    simp only [Endpoint.expireLease]
    split <;> exact held.slots
  | renewalQueued => exact elsewhere (update held.slots (by simp [Endpoint.submittedSlot])) rfl
  | selected => exact elsewhere (update held.slots (held.slots _)) rfl
  | pass | notExpired | dropLease | notDue | due | renewalBlocked | renewalPassed | renewalRejected
  | nothingToStart | launch => exact elsewhere held.slots rfl

theorem of_run {es : Trace} (run : Run machine es w) : NeverBusy w := by
  refine run.invariant (P := NeverBusy) ⟨?_, ?_⟩ ?_
  · intro i
    simp [machine, OperationSlot.empty]
  · intro i f resume finalizing
    cases finalizing
  · intro w a event next held stepped
    exact held.moves (step_moves stepped)

end NeverBusy
/-! ### Histories of one request -/

/-- The step answers a take, an inspect or a wait for `id` with `taken`. -/
def Reads (id : Nat) (x : Entry World Action Event) (taken : Endpoint.Taken) : Prop :=
  (∃ kind, x.action = .take kind id) ∧ x.event = .took taken ∨
  (x.action = .inspect id ∨ ∃ expired, x.action = .wait id expired) ∧ x.event = .observed taken

/-- The step is a take that hands out a terminal result of `id`. -/
def Returns (id : Nat) (x : Entry World Action Event) : Prop :=
  ∃ kind taken r, x.action = .take kind id ∧ x.event = .took taken ∧ taken.result = some r ∧
    terminal r.state = true

/-- The history after a submission in three parts: the request is live, then its one
result is on record, then a take has removed it and the id is unknown. -/
structure Life (id : Nat) (live done gone : Trace) (r : FciOperationResult) : Prop where
  startsQueued : ∃ x first, live.head? = some x ∧ x.after.endpoint.recorded id = some first ∧
    first.state = .queued
  whileLive : ∀ x ∈ live, ∃ current, x.after.endpoint.recorded id = some current ∧
    (current.state = .queued ∨ current.state = .linkPending)
  result : r.requestId = id ∧ terminal r.state = true
  whileDone : ∀ x ∈ done, x.after.endpoint.recorded id = some r
  whileGone : ∀ x ∈ gone, x.after.endpoint.recorded id = none
  order : gone ≠ [] → done ≠ []
  kept : ∀ x ∈ live ++ done, ¬Returns id x
  taken : ∀ x, gone.head? = some x → SlotsInv.Removes id r x.action x.event
  silent : ∀ x ∈ gone.tail, ∀ taken, Reads id x taken →
    taken.status = .noData ∧ taken.result = none

/-- Exactly one terminal result, returned by at most one take. -/
def OneResult (id : Nat) (fs : Trace) : Prop :=
  ∃ live done gone r, fs = live ++ done ++ gone ∧ Life id live done gone r

namespace Endpoint
variable {e : Endpoint} {id : Nat}

theorem recorded_slot (distinct : ∀ i j, (e.operations i).used = true →
    (e.operations j).used = true → (e.operations i).requestId = (e.operations j).requestId → i = j)
    {i : SlotIndex} (used : (e.operations i).used = true)
    (same : (e.operations i).requestId = id) :
    e.recorded id = some (result (e.operations i)) := by
  rw [recorded, ← same, findSlot_eq distinct used]
  rfl

end Endpoint

namespace IdsInv
variable {w next : World} {a : Action} {event : Event} {id n : Nat}

theorem recorded_live (ids : IdsInv n w) (live : w.endpoint.Live id) :
    ∃ current, w.endpoint.recorded id = some current ∧
      (current.state = .queued ∨ current.state = .linkPending) := by
  obtain ⟨i, used, same, -, state⟩ := live
  exact ⟨_, Endpoint.recorded_slot ids.distinct used same, state⟩

theorem recorded_ended (ids : IdsInv n w) {r : FciOperationResult}
    (ended : w.endpoint.Ended id r) : w.endpoint.recorded id = some r := by
  obtain ⟨i, used, same, -, rfl, -⟩ := ended
  exact Endpoint.recorded_slot ids.distinct used same

/-- A take that returns a terminal result leaves no slot under the id. -/
theorem returned_absent (ids : IdsInv n w) (inv : SlotsInv w) (moved : Moves w a next event)
    (returned : Returns id ⟨w, a, event, next⟩) (k : SlotIndex)
    (used : (next.endpoint.operations k).used = true) :
    (next.endpoint.operations k).requestId ≠ id := by
  obtain ⟨kind, taken, r, rfl, rfl, carried, done⟩ := returned
  obtain ⟨before, kept⟩ := (inv.slot_change moved k).same_id rfl used
  rw [kept]
  intro same
  cases moved with
  | tookNothing _ why =>
    rcases why with rfl | ⟨i, _, live, rfl⟩
    · simp at carried
    · obtain rfl := Option.some.inj carried
      simp [Endpoint.result, live] at done
  | took found ended =>
    have at' := Endpoint.findSlot_eq ids.distinct before
    rw [same, found] at at'
    obtain rfl := Option.some.inj at'
    simp at used

theorem live_keeps (ids : IdsInv n w) (inv : SlotsInv w) (moved : Moves w a next event)
    (live : next.endpoint.Live id) : ¬Returns id ⟨w, a, event, next⟩ := by
  intro returned
  obtain ⟨i, used, same, -⟩ := live
  exact ids.returned_absent inv moved returned i used same

theorem ended_keeps (ids : IdsInv n w) (inv : SlotsInv w) (moved : Moves w a next event)
    {r : FciOperationResult} (ended : next.endpoint.Ended id r) :
    ¬Returns id ⟨w, a, event, next⟩ := by
  intro returned
  obtain ⟨i, used, same, -⟩ := ended
  exact ids.returned_absent inv moved returned i used same

end IdsInv

/-- Nothing is read back for an id without a slot. -/
theorem Moves.gone_silent {w next : World} {a : Action} {event : Event} {id : Nat}
    (moved : Moves w a next event) (gone : w.endpoint.Gone id) {taken : Endpoint.Taken}
    (reads : Reads id ⟨w, a, event, next⟩ taken) :
    taken.status = .noData ∧ taken.result = none := by
  have missing := gone.findSlot
  rcases reads with ⟨⟨kind, rfl⟩, rfl⟩ | ⟨rfl | ⟨expired, rfl⟩, rfl⟩
  · cases moved with
    | tookNothing _ why =>
      rcases why with rfl | ⟨i, found, -⟩
      · exact ⟨rfl, rfl⟩
      · simp [missing] at found
    | took found => simp [missing] at found
  · cases moved
    simp [Endpoint.inspectOperation, missing]
  · cases moved with
    | waited answered =>
      simp only [Endpoint.waitOperation, missing, Option.some.injEq] at answered
      subst answered
      exact ⟨rfl, rfl⟩

namespace Life
variable {id : Nat} {live done gone : Trace} {r : FciOperationResult}
  {x : Entry World Action Event}

theorem snoc_live (life : Life id live [] [] r) {current : FciOperationResult}
    (recorded : x.after.endpoint.recorded id = some current)
    (state : current.state = .queued ∨ current.state = .linkPending) (kept : ¬Returns id x) :
    Life id (live ++ [x]) [] [] r := by
  obtain ⟨first, queued, head, atFirst⟩ := life.startsQueued
  refine { life with startsQueued := ⟨first, queued, by simp [head], atFirst⟩, whileLive := ?_, kept := ?_ }
  · intro y member
    rcases List.mem_append.mp member with earlier | last
    · exact life.whileLive y earlier
    · obtain rfl := List.mem_singleton.mp last
      exact ⟨current, recorded, state⟩
  · intro y member
    simp only [List.append_nil, List.mem_append, List.mem_singleton] at member
    rcases member with earlier | rfl
    · exact life.kept y (by simpa using earlier)
    · exact kept

theorem snoc_done (life : Life id live done [] r)
    (recorded : x.after.endpoint.recorded id = some r) (kept : ¬Returns id x) :
    Life id live (done ++ [x]) [] r := by
  refine { life with whileDone := ?_, order := by simp, kept := ?_ }
  · intro y member
    rcases List.mem_append.mp member with earlier | last
    · exact life.whileDone y earlier
    · obtain rfl := List.mem_singleton.mp last
      exact recorded
  · intro y member
    rw [← List.append_assoc] at member
    rcases List.mem_append.mp member with earlier | last
    · exact life.kept y earlier
    · obtain rfl := List.mem_singleton.mp last
      exact kept

/-- The first result ends the live part. -/
theorem finish (life : Life id live [] [] r) {final : FciOperationResult}
    (result : final.requestId = id ∧ terminal final.state = true) :
    Life id live [] [] final :=
  { life with result, whileDone := by simp, taken := by simp }

theorem snoc_gone (life : Life id live done gone r) (nonempty : done ≠ [])
    (recorded : x.after.endpoint.recorded id = none)
    (first : gone = [] → SlotsInv.Removes id r x.action x.event)
    (later : gone ≠ [] → ∀ taken, Reads id x taken →
      taken.status = .noData ∧ taken.result = none) :
    Life id live done (gone ++ [x]) r := by
  refine { life with whileGone := ?_, order := fun _ => nonempty, taken := ?_, silent := ?_ }
  · intro y member
    rcases List.mem_append.mp member with earlier | last
    · exact life.whileGone y earlier
    · obtain rfl := List.mem_singleton.mp last
      exact recorded
  · intro y head
    cases gone with
    | nil =>
      obtain rfl : x = y := by simpa using head
      exact first rfl
    | cons z rest => exact life.taken y (by simpa using head)
  · intro y member
    cases gone with
    | nil => simp at member
    | cons z rest =>
      simp only [List.cons_append, List.tail_cons, List.mem_append, List.mem_singleton] at member
      rcases member with earlier | rfl
      · exact life.silent y (by simpa using earlier)
      · exact later (by simp)

end Life

/-- The life so far together with what the endpoint holds now. -/
def Lives (id : Nat) (fs : Trace) (e : Endpoint) : Prop :=
  ∃ live done gone r, fs = live ++ done ++ gone ∧ Life id live done gone r ∧
    (done = [] ∧ gone = [] ∧ e.Live id ∨ done ≠ [] ∧ gone = [] ∧ e.Ended id r ∨
      gone ≠ [] ∧ e.Gone id)

theorem Endpoint.Ended.result {e : Endpoint} {id : Nat} {r : FciOperationResult}
    (ended : e.Ended id r) : r.requestId = id ∧ terminal r.state = true := by
  obtain ⟨i, -, rfl, -, rfl, done⟩ := ended
  exact ⟨rfl, done⟩

namespace Lives
variable {w next : World} {a : Action} {event : Event} {id n m : Nat} {fs : Trace}

theorem start {s : Submission} (ids : IdsInv m next) (moved : Moves w a next event)
    (submitted : event = .submitted false s { status := .ok, requestId := id }) :
    next.endpoint.Live id ∧ Lives id [⟨w, a, event, next⟩] next.endpoint := by
  obtain ⟨internal, s', clock, i, made, -, free, filled, -⟩ :=
    moved.accepted (by simp [submitted, Event.accepted])
  rw [submitted] at made
  simp only [Event.submitted.injEq, FciSubmitResult.mk.injEq, true_and] at made
  obtain ⟨rfl, rfl, same⟩ := made
  have slot : next.endpoint.operations i = Endpoint.submittedSlot w.endpoint.nextRequestId s.kind
      s.timeoutMs clock s.request false := by rw [filled, Function.update_self]
  have used : (next.endpoint.operations i).used = true := by rw [slot]; rfl
  have named : (next.endpoint.operations i).requestId = id := by rw [slot, same]; rfl
  have recorded : next.endpoint.recorded id = _ :=
    Endpoint.recorded_slot ids.distinct used named
  have queued : (Endpoint.result (next.endpoint.operations i)).state = .queued := by rw [slot]; rfl
  have live : next.endpoint.Live id := ⟨i, used, named, by rw [slot]; rfl, .inl queued⟩
  refine ⟨live, [_], [], [], { requestId := id, state := .cancelled }, rfl, ?_,
    .inl ⟨rfl, rfl, live⟩⟩
  refine ⟨⟨_, _, rfl, recorded, queued⟩, ?_, ⟨rfl, rfl⟩, by simp, by simp, by simp, ?_, by simp,
    by simp⟩
  · intro x member
    obtain rfl := List.mem_singleton.mp member
    exact ⟨_, recorded, .inl queued⟩
  · intro x member
    obtain rfl := List.mem_singleton.mp member
    rintro ⟨kind, taken, r, -, took, -⟩
    simp [submitted] at took

theorem step (lives : Lives id fs w.endpoint) (inv : SlotsInv w) (ids : IdsInv n w)
    (moved : Moves w a next event) (after : IdsInv m next)
    (bound : event.accepted = true → n + 1 < 2 ^ 64) (older : id ≤ n) :
    Lives id (fs ++ [⟨w, a, event, next⟩]) next.endpoint := by
  obtain ⟨live, done, gone, r, rfl, life, ⟨rfl, rfl, now⟩ | ⟨nonempty, rfl, now⟩ | ⟨left, now⟩⟩ :=
    lives
  · rcases inv.live_step moved now with still | ⟨final, ended⟩
    · obtain ⟨current, recorded, state⟩ := after.recorded_live still
      exact ⟨live ++ [⟨w, a, event, next⟩], [], [], r, by simp,
        life.snoc_live recorded state (ids.live_keeps inv moved still), .inl ⟨rfl, rfl, still⟩⟩
    · refine ⟨live, [⟨w, a, event, next⟩], [], final, by simp, ?_, .inr (.inl ⟨by simp, rfl, ended⟩)⟩
      exact (life.finish ended.result).snoc_done (after.recorded_ended ended)
        (ids.ended_keeps inv moved ended)
  · rcases inv.ended_step ids moved now with still | ⟨absent, removed⟩
    · exact ⟨live, done ++ [⟨w, a, event, next⟩], [], r, by simp,
        life.snoc_done (after.recorded_ended still)
          (ids.ended_keeps inv moved still),
        .inr (.inl ⟨by simp, rfl, still⟩)⟩
    · refine ⟨live, done, [⟨w, a, event, next⟩], r, by simp, ?_, .inr (.inr ⟨by simp, absent⟩)⟩
      exact life.snoc_gone nonempty (by simp [Endpoint.recorded, absent.findSlot])
        (fun _ => removed) (by simp)
  · have absent := inv.gone_step ids moved bound older now
    refine ⟨live, done, gone ++ [⟨w, a, event, next⟩], r, by simp, ?_, .inr (.inr ⟨by simp, absent⟩)⟩
    exact life.snoc_gone (life.order left) (by simp [Endpoint.recorded, absent.findSlot])
      (fun empty => absurd empty left) (fun _ _ reads => moved.gone_silent now reads)

/-- A request that has a slot was handed out already. -/
theorem bounded (live : w.endpoint.Live id) (ids : IdsInv n w) : id ≤ n := by
  obtain ⟨i, used, rfl, -⟩ := live
  exact (ids.bounds i used).2

/-- From the submission to any later point of the run. -/
theorem of_run {past rest : Trace} {e : Entry World Action Event} {s : Submission}
    (submitted : e.event = .submitted false s { status := .ok, requestId := id })
    (run : Run machine (past ++ [e] ++ rest) w) :
    submissions (past ++ [e] ++ rest) < 2 ^ 64 → Lives id (e :: rest) w.endpoint := by
  refine run.since (P := fun rest w => submissions (past ++ [e] ++ rest) < 2 ^ 64 →
    id ≤ submissions (past ++ [e] ++ rest) ∧ Lives id (e :: rest) w.endpoint) ?_ ?_
      |> fun h bound => (h bound).2
  · intro now reached bound
    rw [List.append_nil] at bound ⊢
    have ids := IdsInv.of_run reached bound
    obtain ⟨_, stepped, rfl⟩ := reached.of_snoc
    obtain ⟨live, lives⟩ := start ids (step_moves stepped) submitted
    exact ⟨bounded live ids, lives⟩
  · intro rest w a event next before ih stepped bound
    rw [← List.append_assoc, submissions_snoc] at bound ⊢
    dsimp only at bound ⊢
    have earlier : submissions (past ++ [e] ++ rest) < 2 ^ 64 := by omega
    obtain ⟨older, lives⟩ := ih earlier
    have after := IdsInv.of_run (.snoc before stepped)
    rw [submissions_snoc] at after
    refine ⟨by omega, lives.step (SlotsInv.of_run before) (IdsInv.of_run before earlier)
      (step_moves stepped) (after bound) ?_ older⟩
    intro accepted
    simpa [accepted] using bound

end Lives

/-! ### After quiesce -/

/-- Once quiesced, no slot is queued and the owner only finalizes completions. -/
structure ClosedInv (w : World) : Prop where
  stopped : w.closed = true → w.endpoint.running = false
  drained : w.closed = true → ∀ i, (w.endpoint.operations i).state ≠ .queued
  owner : w.closed = true → w.owner = .idle ∨ ∃ i f, w.owner = .finalizing i f none

namespace ClosedInv
variable {w next : World} {a : Action} {event : Event}

/-- While the owner is idle or finalizing, no other routine of it can move. -/
theorem frame (inv : ClosedInv w) (still : next.closed = w.closed)
    (running : next.endpoint.running = w.endpoint.running)
    (kept : w.closed = true → ∀ i, (next.endpoint.operations i).state = .queued →
      (w.endpoint.operations i).state = .queued)
    (owner : w.closed = true → next.owner = w.owner) : ClosedInv next := by
  refine ⟨?_, ?_, ?_⟩ <;> intro closed <;> rw [still] at closed
  · rw [running]
    exact inv.stopped closed
  · intro i queued
    exact inv.drained closed i (kept closed i queued)
  · rw [owner closed]
    exact inv.owner closed

theorem moves (closed : ClosedInv w) (inv : SlotsInv w) (moved : Moves w a next event) :
    ClosedInv next := by
  -- every other region of the owner belongs to a pass, and none starts after quiesce
  have owned := closed.owner
  cases moved with
  | refused | tokenBusy | inspected | waited | tookNothing => exact closed
  | called | blocked | passed | rejected | tokenGate | tokenRead | upgrade =>
    exact closed.frame rfl rfl (fun _ _ h => h) (fun _ => rfl)
  | queued pc running =>
    refine closed.frame rfl rfl ?_ (fun _ => rfl)
    intro h
    simp [closed.stopped h] at running
  | took found done accepted =>
    rename_i kind id i
    refine closed.frame rfl rfl ?_ (fun _ => rfl)
    intro _ j queued
    by_cases same : j = i
    · subst same
      simp at queued
    · simpa [Function.update_of_ne same] using queued
  | finalize pc =>
    rename_i clock st i f resume
    refine ⟨fun h => by simpa using closed.stopped h, ?_, ?_⟩
    · intro h j queued
      have ok := inv.owner
      simp only [World.OwnerOk, pc] at ok
      have ended := ok.2.2.2.1
      by_cases same : j = i
      · subst same
        cases renewal : f.internal
        · rw [Endpoint.finalize_operations] at queued
          simp only [renewal, Function.update_self, Endpoint.finalizedSlot, Bool.false_eq_true,
            if_false] at queued
          simp [queued, terminal] at ended
        · simp [renewal] at queued
      · rw [Endpoint.finalize_operations, Function.update_of_ne same] at queued
        exact closed.drained h j queued
    · intro h
      rcases owned h with idle | ⟨j, g, finalizing⟩
      · simp [idle] at pc
      · rw [pc] at finalizing
        cases finalizing
        exact .inl rfl
  | complete pc owes =>
    exact ⟨closed.stopped, closed.drained, fun _ => .inr ⟨_, _, rfl⟩⟩
  | quiesce pc =>
    refine ⟨fun _ => rfl, ?_, fun _ => .inl pc⟩
    intro _ i
    exact Endpoint.stopSlot_not_queued (inv.table.empty i)
  | pass pc open_ =>
    refine ⟨?_, ?_, ?_⟩ <;> intro h <;> simp [open_] at h
  | expiredInQueue _ pc | notExpired _ pc | expireLease pc | readGate pc | dropLease pc | notDue pc
  | due pc | renewalBlocked pc | renewalPassed pc | renewalRejected pc | renewalQueued pc
  | nothingToStart pc | selected pc | expiredAtStart pc | launch pc | startCommit pc
  | startFailed pc =>
    have stillOpen : w.closed ≠ true := by
      intro h
      rcases owned h with idle | ⟨_, _, finalizing⟩
      · simp [idle] at pc
      · simp [finalizing] at pc
    refine ⟨?_, ?_, ?_⟩ <;> intro h <;> exact absurd h stillOpen

theorem of_run {es : Trace} (run : Run machine es w) : ClosedInv w := by
  refine run.history (P := fun _ w => ClosedInv w) ?_ ?_
  · refine ⟨?_, ?_, ?_⟩ <;> simp [machine]
  · intro es w a event next before closed stepped
    exact closed.moves (SlotsInv.of_run before) (step_moves stepped)

/-- Nothing is accepted once quiesced. -/
theorem refuses (closed : ClosedInv w) (quiesced : w.closed = true) (moved : Moves w a next event) :
    event.accepted = false := by
  cases accepted : event.accepted with
  | false => rfl
  | true =>
    obtain ⟨_, _, _, _, _, running, _⟩ := moved.accepted accepted
    simp [closed.stopped quiesced] at running

/-- With the admitted call completed, every public operation is terminal. -/
theorem terminal (closed : ClosedInv w) (inv : SlotsInv w) (quiesced : w.closed = true)
    (idle : w.owner = .idle) (completed : ∀ i, w.owed i = false) (i : SlotIndex)
    (used : (w.endpoint.operations i).used = true) :
    Wirelink.terminal (w.endpoint.operations i).state = true := by
  have settled := inv.settled (by rw [idle]; rfl)
  rcases inv.table.live i used with queued | pending | done
  · exact absurd queued (closed.drained quiesced i)
  · have owed := (settled.1 i).mpr (inv.table.pending i pending)
    simp [completed] at owed
  · exact done

end ClosedInv

/-- Every public request gets exactly one terminal result, for as long as the 64-bit
id counter has not come round; after quiesce, with the admitted call completed, no
public operation is left open and none is accepted. -/
theorem request_one_result {es : Trace} {w : World} (run : Run machine es w) :
    (∀ past e rest s id, es = past ++ e :: rest →
      e.event = .submitted false s { status := .ok, requestId := id } →
      submissions es < 2 ^ 64 → OneResult id (e :: rest)) ∧
    (w.closed = true →
      (∀ a next event, w.step a = some (next, event) → event.accepted = false) ∧
      (w.owner = .idle → (∀ i, w.owed i = false) →
        ∀ i, (w.endpoint.operations i).used = true → (w.endpoint.operations i).internal = false →
          terminal (w.endpoint.operations i).state = true)) := by
  refine ⟨?_, ?_⟩
  · rintro past e rest s id rfl submitted bound
    rw [← List.singleton_append, ← List.append_assoc] at run bound
    obtain ⟨live, done, gone, r, split, life, -⟩ := Lives.of_run submitted run bound
    exact ⟨live, done, gone, r, split, life⟩
  · intro quiesced
    have closed := ClosedInv.of_run run
    refine ⟨?_, ?_⟩
    · intro a next event stepped
      exact closed.refuses quiesced (step_moves stepped)
    · intro idle completed i used _
      exact closed.terminal (SlotsInv.of_run run) quiesced idle completed i used

/-- The run of a first request, with its submission singled out. -/
theorem first_request {rest : List Action} {t : World}
    (done : follow machine ((Call.getDeviceInfo 1).through 0 ++ rest) machine.init = some t) :
    ∃ past e fs, e.event = .submitted false { kind := .getDeviceInfo, timeoutMs := 1 }
      { status := .ok, requestId := 1 } ∧ (past ++ e :: fs).length = rest.length + 3 ∧
      Run machine (past ++ e :: fs) t := by
  have called := Run.snoc (a := Action.call 0 (.getDeviceInfo 1)) (Run.nil (m := machine)) rfl
  have gated := Run.snoc (a := Action.gate 0) called rfl
  have submitted := Run.snoc (a := Action.submit 0 0) gated rfl
  obtain ⟨fs, length, run⟩ := follow_run submitted done
  rw [List.append_assoc, List.singleton_append] at run
  exact ⟨_, _, fs, rfl, by simp [length], run⟩

/-- A request cancelled by quiesce, taken, and asked for once more. -/
def cancelledRequest : List Action :=
  (Call.getDeviceInfo 1).through 0 ++ [.quiesce, .take .operation 1, .inspect 1]

theorem request_one_result_cancelled : ∃ past e rest w, Run machine (past ++ e :: rest) w ∧
    OneResult 1 (e :: rest) ∧ w.closed = true ∧
    ∀ a next event, w.step a = some (next, event) → event.accepted = false := by
  obtain ⟨past, e, rest, submitted, length, run⟩ := first_request
    (rfl : follow machine cancelledRequest machine.init = some _)
  have few : submissions (past ++ e :: rest) ≤ 3 + 3 := length ▸ List.countP_le_length ..
  have result := request_one_result run
  refine ⟨past, e, rest, _, run, result.1 past e rest _ 1 rfl submitted (by omega), rfl, ?_⟩
  exact (result.2 rfl).1

/-! ### When the id counter comes round -/

/-- An id that has become unknown stays unknown. -/
theorem OneResult.stays_gone {id : Nat} {past fs gs : Trace} {u w : World}
    (one : OneResult id (fs ++ gs)) (middle : Run machine (past ++ fs) u) (nonempty : fs ≠ [])
    (unknown : u.endpoint.recorded id = none) (run : Run machine (past ++ (fs ++ gs)) w) :
    w.endpoint.recorded id = none := by
  obtain ⟨live, done, gone, r, split, life⟩ := one
  obtain ⟨x, member, rfl, -⟩ := middle.last nonempty
  obtain ⟨y, -, rfl, last⟩ := run.last (by simp [nonempty])
  have placed : x ∈ live ++ done ++ gone := split ▸ List.mem_append_left gs member
  simp only [List.mem_append] at placed
  rcases placed with (inLive | inDone) | inGone
  · obtain ⟨current, recorded, -⟩ := life.whileLive x inLive
    simp [unknown] at recorded
  · have recorded := life.whileDone x inDone
    simp [unknown] at recorded
  · have left : gone ≠ [] := List.ne_nil_of_mem inGone
    rw [split, List.getLast?_append_of_ne_nil _ left] at last
    exact life.whileGone y (List.mem_of_getLast? last)

/-- A running endpoint with an empty table. -/
def idleWorld (id timeouts : Nat) : World :=
  { endpoint := { running := true, nextRequestId := id, runtimeTimeouts := timeouts } }

/-- A request that expires in the queue and is taken, up to its take. -/
def expiringRequest (id : Nat) : List Action :=
  (Call.getDeviceInfo 1).through 0 ++ .pass 1 :: (ownerTurns 13 1 .ok ++ [.take .operation id])

/-- The same with another slot beside, which nobody takes. -/
def besideWorld (slot : OperationSlot) (id timeouts : Nat) : World :=
  { endpoint := {
      operations := Function.update (fun _ => .empty) secondSlot slot
      running := true, nextRequestId := id, runtimeTimeouts := timeouts } }

theorem follow_beside {slot : OperationSlot} (left : slot.state ≠ .queued) (id timeouts : Nat) :
    follow machine (expiringRequest id) (besideWorld slot id timeouts) =
      some (besideWorld slot (Endpoint.successorId id) (timeouts + 1)) := by
  simp [expiringRequest, Call.through, ownerTurns, List.replicate, follow, machine, World.step,
    World.ownerStep, World.setCaller, World.beginFinalize, besideWorld,
    Call.prepare, checked, validTimeout, maximumRelativeTimeout, publicOperationCapacity,
    List.finRange, OwnerPc.resumed, queueRemaining, terminal, Endpoint.submit,
    Endpoint.allocateSlot, Endpoint.setSlot, Endpoint.queueExpired, Endpoint.finalizeCounters,
    Endpoint.finalization, Endpoint.completionState, Endpoint.finalizedSlot, Endpoint.finalize,
    Endpoint.finalizeLease, Endpoint.expireLease, Endpoint.startNext, Endpoint.findQueuedSlot,
    Endpoint.findQueuedFrom, Endpoint.leaseAfterSubmit, Endpoint.renewalCheck, Endpoint.take,
    Endpoint.findSlot, Endpoint.TakeKind.accepts, secondSlot, left]

theorem follow_expiringRequest (id timeouts : Nat) :
    follow machine (expiringRequest id) (idleWorld id timeouts) =
      some (idleWorld (Endpoint.successorId id) (timeouts + 1)) := by
  have same (id timeouts : Nat) : besideWorld .empty id timeouts = idleWorld id timeouts := by
    rw [besideWorld, Function.update_eq_self]
    rfl
  have beside : follow machine (expiringRequest id) (besideWorld .empty id timeouts) = _ :=
    follow_beside (by decide) id timeouts
  rwa [same, same] at beside

theorem cycle_run {es : Trace} {id timeouts : Nat} (run : Run machine es (idleWorld id timeouts))
    (n : Nat) : ∃ fs, Run machine (es ++ fs)
      (idleWorld (Endpoint.successorId^[n] id) (timeouts + n)) := by
  have turn (n : Nat) : follow machine (expiringRequest (Endpoint.successorId^[n] id))
      (idleWorld (Endpoint.successorId^[n] id) (timeouts + n)) =
        some (idleWorld (Endpoint.successorId^[n + 1] id) (timeouts + (n + 1))) := by
    rw [follow_expiringRequest, Function.iterate_succ_apply', Nat.add_assoc]
  exact follow_cycle turn run n

theorem successorId_iterate {n : Nat} (bound : n + 1 < 2 ^ 64) :
    Endpoint.successorId^[n] 1 = n + 1 := by
  induction n with
  | zero => rfl
  | succ n ih =>
    rw [Function.iterate_succ_apply', ih (by omega), Endpoint.successorId,
      Nat.mod_eq_of_lt bound, if_neg (by omega)]

theorem submitted_again (timeouts : Nat) :
    ∃ w, follow machine ((Call.getDeviceInfo 1).through 0) (idleWorld 1 timeouts) = some w ∧
      (w.endpoint.recorded 1).isSome = true := ⟨_, rfl, rfl⟩

/-- The counter comes round: the first id is handed out a second time. -/
theorem request_revived : ∃ past e rest w s, Run machine (past ++ e :: rest) w ∧
    e.event = .submitted false s { status := .ok, requestId := 1 } ∧ ¬OneResult 1 (e :: rest) := by
  obtain ⟨past, e, fs, submitted, -, first⟩ := first_request (follow_expiringRequest 1 0)
  obtain ⟨n, round⟩ : ∃ n, n + 1 = 2 ^ 64 - 2 := ⟨2 ^ 64 - 3, rfl⟩
  obtain ⟨gs, cycled⟩ := cycle_run first (n + 1)
  have back : Endpoint.successorId^[n + 1] (Endpoint.successorId 1) = 1 := by
    rw [← Function.iterate_succ_apply, Function.iterate_succ_apply',
      successorId_iterate (by omega), round]
    rfl
  rw [back] at cycled
  obtain ⟨w, reached, recorded⟩ := submitted_again (0 + 1 + (n + 1))
  obtain ⟨hs, -, again⟩ := follow_run cycled reached
  refine ⟨past, e, fs ++ (gs ++ hs), w, _, by simpa using again, submitted, ?_⟩
  intro one
  have whole : OneResult 1 ((e :: fs) ++ (gs ++ hs)) := by simpa using one
  have unknown : (idleWorld (Endpoint.successorId 1) (0 + 1)).endpoint.recorded 1 = none := rfl
  have gone := whole.stays_gone first (by simp) unknown (by simpa using again)
  simp [gone] at recorded

end Florid.Wirelink
