import Florid.Wirelink.RequestIds

/-! What an active upgrade excludes. The gate is read where an operation is submitted
and where a command token is asked for, so whatever is past these points when the
upgrade becomes active is not held back. -/
namespace Florid.Wirelink
open Transition

/-- The owner has selected the slot and may still put its call on the wire, now or after
a retryable refusal. -/
def OwnerPc.holdsUnstarted : OwnerPc → SlotIndex → Bool
  | .launching _ i, j => i == j
  | .launched i st, j => i == j && Endpoint.retryable st
  | _, _ => false

/-- The owner is ending the operation without starting it again. -/
def OwnerPc.ends : OwnerPc → SlotIndex → Bool
  | .failing i, j | .finalizing i _ _, j => i == j
  | _, _ => false

/-- A call that can still reach the wire. -/
def World.startable (w : World) (i : SlotIndex) : Bool :=
  (w.endpoint.operations i).state == .queued && !w.owner.ends i || w.owner.holdsUnstarted i

/-- Nothing an upgrade excludes is past its gate. -/
structure Clear (w : World) : Prop where
  slots : ∀ i, w.startable i = true → allowedDuringUpgrade (w.endpoint.operations i).kind = true
  callers : ∀ t s, w.callers t = .enqueue s → allowedDuringUpgrade s.kind = true
  tokens : ∀ t, w.callers t ≠ .token
  renewal : ∀ now request, w.owner ≠ .renewalSubmit now request

def Action.activates : Action → Bool
  | .upgrade active => active
  | _ => false

/-- The upgrade becomes active only when nothing it excludes is past its gate. -/
def UpgradeClear (w : World) (a : Action) : Prop :=
  a.activates = true → w.upgradeActive = false → Clear w

theorem SlotsInv.holds_active {w : World} (inv : SlotsInv w) {i : SlotIndex}
    (held : w.owner.holdsUnstarted i = true) : w.endpoint.activeOperation = some i := by
  have ok := inv.owner
  cases pc : w.owner <;> simp_all [OwnerPc.holdsUnstarted, World.OwnerOk]

namespace Clear
variable {w next : World} {a : Action} {event : Event}

/-- A caller that moves on stays within what the upgrade allows. -/
theorem set_caller (clear : Clear w) {t : Nat} {pc : CallerPc}
    (enqueues : ∀ s, pc = .enqueue s → allowedDuringUpgrade s.kind = true) (token : pc ≠ .token)
    {endpoint : Endpoint}
    (slots : ∀ i, World.startable { w with endpoint } i = true →
      allowedDuringUpgrade (endpoint.operations i).kind = true) :
    Clear { w.setCaller t pc with endpoint } := by
  refine ⟨slots, ?_, ?_, clear.renewal⟩
  · intro u s enqueued
    by_cases same : u = t
    · subst same
      exact enqueues s (by simpa [World.setCaller] using enqueued)
    · exact clear.callers u s (by simpa [World.setCaller, Function.update_of_ne same] using enqueued)
  · intro u reading
    by_cases same : u = t
    · subst same
      exact token (by simpa [World.setCaller] using reading)
    · exact clear.tokens u (by simpa [World.setCaller, Function.update_of_ne same] using reading)

/-- The owner moves on; every call that can still start could start before. -/
theorem turn (clear : Clear w) (callers : next.callers = w.callers)
    (slots : ∀ i, next.startable i = true → w.startable i = true ∧
      (next.endpoint.operations i).kind = (w.endpoint.operations i).kind)
    (renewal : ∀ now request, next.owner ≠ .renewalSubmit now request) : Clear next := by
  refine ⟨?_, ?_, ?_, renewal⟩
  · intro i ready
    obtain ⟨before, kind⟩ := slots i ready
    rw [kind]
    exact clear.slots i before
  · rw [callers]
    exact clear.callers
  · rw [callers]
    exact clear.tokens

/-- The owner passes between positions that hold no slot, the table unchanged. -/
theorem stroll (clear : Clear w) (callers : next.callers = w.callers)
    (operations : next.endpoint.operations = w.endpoint.operations)
    (before : w.owner.plain = true) (after : next.owner.plain = true)
    (renewal : ∀ now request, next.owner ≠ .renewalSubmit now request) : Clear next := by
  refine clear.turn callers ?_ renewal
  intro i ready
  rw [World.startable, operations] at ready
  rw [World.startable, operations]
  have plain : ∀ pc : OwnerPc, pc.plain = true →
      pc.ends i = false ∧ pc.holdsUnstarted i = false := by
    intro pc h
    cases pc <;> simp_all [OwnerPc.plain, OwnerPc.ends, OwnerPc.holdsUnstarted]
  simpa [plain _ before, plain _ after] using ready

/-- Entering `s_finalize` takes the slot out of what can start. -/
theorem beginFinalize (clear : Clear w) {i : SlotIndex} {clock : TimeMs}
    {completion : RpcCompletion} {response : Option Response} {resume : Option (TimeMs × Nat)}
    (alone : ∀ j, w.owner.ends j = true → j = i) :
    Clear (w.beginFinalize i clock completion response resume) := by
  refine clear.turn rfl ?_ (by simp [World.beginFinalize])
  intro j ready
  simp only [World.startable, World.beginFinalize, OwnerPc.ends, OwnerPc.holdsUnstarted,
    Endpoint.finalizeCounters, Bool.or_false, Bool.and_eq_true, Bool.not_eq_true',
    beq_eq_false_iff_ne] at ready
  refine ⟨?_, rfl⟩
  have outside : w.owner.ends j = false := by
    cases ends : w.owner.ends j with
    | false => rfl
    | true => exact absurd (alone j ends).symm ready.2
  simp [World.startable, ready.1, outside]

/-- While the upgrade is active, no move lets an excluded call past its gate. -/
theorem moves (clear : Clear w) (inv : SlotsInv w) (active : w.upgradeActive = true)
    (moved : Moves w a next event) : Clear next := by
  cases moved with
  | refused | tokenBusy | inspected | waited | tookNothing => exact clear
  | called | blocked | rejected | tokenRead =>
    exact clear.set_caller (by simp) (by simp) clear.slots
  | passed pc gate =>
    refine clear.set_caller ?_ (by simp) clear.slots
    rintro s ⟨⟩
    exact gate active
  | tokenGate _ inactive => simp [active] at inactive
  | queued pc running free last =>
    rename_i t s clock i
    refine clear.set_caller (by simp) (by simp) ?_
    intro j ready
    by_cases same : j = i
    · subst same
      simpa [Endpoint.submittedSlot] using clear.callers t s pc
    · simp only [World.startable, Endpoint.setSlot_operations, Function.update_of_ne same] at ready ⊢
      exact clear.slots j ready
  | upgrade => exact ⟨clear.slots, clear.callers, clear.tokens, clear.renewal⟩
  | renewalPassed _ inactive => simp [active] at inactive
  | renewalQueued pc => exact absurd pc (clear.renewal _ _)
  | pass pc | notExpired _ pc | notDue pc | due pc | renewalBlocked pc | renewalRejected pc
  | nothingToStart pc | dropLease pc =>
    exact clear.stroll rfl rfl (by simp [pc, OwnerPc.plain]) rfl (by simp)
  | readGate pc =>
    refine clear.stroll rfl rfl (by simp [pc, OwnerPc.plain]) ?_ ?_ <;> simp [active, OwnerPc.plain]
  | expireLease pc =>
    refine clear.stroll rfl ?_ (by simp [pc, OwnerPc.plain]) rfl (by simp)
    simp only [Endpoint.expireLease]
    split <;> rfl
  | expiredInQueue _ pc | expiredAtStart pc =>
    exact clear.beginFinalize (by simp [pc, OwnerPc.ends])
  | startFailed pc =>
    refine clear.beginFinalize ?_
    intro j ends
    simp only [pc, OwnerPc.ends, beq_iff_eq] at ends
    exact ends.symm
  | complete pc owes fits =>
    rename_i i clock completion response
    have same : Clear { w with owed := Function.update w.owed i false } :=
      ⟨clear.slots, clear.callers, clear.tokens, clear.renewal⟩
    exact same.beginFinalize (by simp [pc, OwnerPc.ends])
  | selected pc inactive found =>
    rename_i clock st now i
    refine clear.turn rfl ?_ (by simp)
    intro j ready
    by_cases same : j = i
    · subst same
      have waiting := (Endpoint.findQueuedSlot_some found).1
      simp [World.startable, waiting.2, pc, OwnerPc.ends]
    · simp only [World.startable, Endpoint.setSlot_operations, Function.update_of_ne same] at ready ⊢
      refine ⟨?_, trivial⟩
      simpa [pc, OwnerPc.ends, OwnerPc.holdsUnstarted, Ne.symm same] using ready
  | launch pc =>
    refine clear.turn rfl ?_ (by simp)
    intro j ready
    refine ⟨?_, rfl⟩
    simp only [World.startable, OwnerPc.ends, OwnerPc.holdsUnstarted, pc] at ready ⊢
    revert ready
    cases Endpoint.retryable _ <;> simp_all
  | startCommit pc =>
    rename_i clock st i started
    refine clear.turn rfl ?_ (by dsimp only; split <;> simp)
    intro j ready
    simp only [World.startable, pc, OwnerPc.ends, OwnerPc.holdsUnstarted] at ready ⊢
    by_cases same : j = i
    · subst same
      cases started <;> simp_all [Endpoint.startCommit, Endpoint.retryable]
    · cases started <;> simp_all [Endpoint.startCommit, Endpoint.retryable]
  | finalize pc =>
    rename_i clock st i f resume
    have ok := inv.owner
    simp only [World.OwnerOk, pc] at ok
    have ended : f.state ≠ .queued := by
      intro queued
      simp [queued, terminal] at ok
    have plain := SlotsInv.resumed_plain resume
    refine clear.turn rfl ?_ ?_
    · intro j ready
      have queued : ((w.endpoint.finalize i f).operations j).state = .queued := by
        cases resume <;> simpa [World.startable, OwnerPc.resumed, OwnerPc.ends,
          OwnerPc.holdsUnstarted] using ready
      rw [Endpoint.finalize_operations] at queued ⊢
      by_cases same : j = i
      · subst same
        cases renewal : f.internal <;> simp [renewal, Endpoint.finalizedSlot, ended] at queued
      · rw [Function.update_of_ne same] at queued ⊢
        simp [World.startable, queued, pc, OwnerPc.ends, Ne.symm same]
    · intro now request
      cases resume <;> simp [OwnerPc.resumed]
  | took found done accepted =>
    rename_i kind id i
    refine clear.turn rfl ?_ clear.renewal
    intro j ready
    by_cases same : j = i
    · subst same
      have held : w.owner.holdsUnstarted j = true := by
        simpa [World.startable] using ready
      simp [(inv.table.active j (inv.holds_active held)).2, terminal] at done
    · simp only [World.startable, Endpoint.setSlot_operations, Function.update_of_ne same] at ready ⊢
      exact ⟨ready, trivial⟩
  | quiesce pc =>
    refine clear.turn rfl ?_ (by simp [pc])
    intro j ready
    have queued : (Endpoint.stopSlot (w.endpoint.operations j)).state = .queued := by
      simpa [World.startable, pc, OwnerPc.ends, OwnerPc.holdsUnstarted, Endpoint.stopOnOwner]
        using ready
    exact absurd queued (Endpoint.stopSlot_not_queued (inv.table.empty j))

end Clear

/-- Nothing past its gate while an upgrade is active, over every run in which the
upgrade became active only then. -/
theorem clear_of_run {es : Trace} {w : World} (run : Run machine es w)
    (met : Meets UpgradeClear es) : w.upgradeActive = true → Clear w := by
  refine (run.guarded (P := fun w => SlotsInv w ∧ (w.upgradeActive = true → Clear w))
    ⟨SlotsInv.initial, by simp [machine]⟩ ?_ met).2
  intro w a event next held allowed stepped
  refine ⟨held.1.step stepped, ?_⟩
  intro active
  have moved := step_moves stepped
  cases before : w.upgradeActive with
  | true => exact (held.2 before).moves held.1 before moved
  | false =>
    -- only the upgrade client raises the flag
    have raised : a.activates = true := by
      cases moved <;> simp_all [World.setCaller, World.beginFinalize, Action.activates]
    have clear := allowed raised before
    cases moved with
    | upgrade => exact ⟨clear.slots, clear.callers, clear.tokens, clear.renewal⟩
    | _ => simp [Action.activates] at raised

/-- From a clear state only allowed calls start and no token is read. -/
theorem Clear.events {w next : World} {a : Action} {event : Event} (clear : Clear w)
    (moved : Moves w a next event) :
    (∀ slot timeout code, event = .started slot timeout code →
      allowedDuringUpgrade slot.kind = true) ∧ ∀ value, event ≠ .token .ok value := by
  refine ⟨?_, ?_⟩
  · intro slot timeout code started
    cases moved with
    | launch pc =>
      cases started
      refine clear.slots _ ?_
      simp [World.startable, pc, OwnerPc.holdsUnstarted]
    | _ => cases started
  · intro value handed
    cases moved with
    | tokenRead pc => exact clear.tokens _ pc
    | _ => cases handed

/-- While an upgrade is active, only the allowed calls are put on the wire and no
command token is handed out, provided nothing excluded was past its gate when the
upgrade became active. -/
theorem upgrade_excludes {es : Trace} {w : World} (run : Run machine es w)
    (met : Meets UpgradeClear es) : ∀ e ∈ es, e.before.upgradeActive = true →
      (∀ slot timeout code, e.event = .started slot timeout code →
        allowedDuringUpgrade slot.kind = true) ∧ ∀ value, e.event ≠ .token .ok value := by
  intro e member active
  obtain ⟨past, rest, rfl⟩ := List.append_of_mem member
  obtain ⟨before, stepped⟩ := run.entry
  exact (clear_of_run before (Meets.append.mp met).1 active).events (step_moves stepped)

/-- An upgrade that starts from rest, with a device query during it. -/
def queryDuringUpgrade : List Action :=
  .upgrade true :: (Call.getDeviceInfo 100).through 0 ++ .pass 0 :: ownerTurns 13 0 .ok

theorem queryDuringUpgrade_runs :
    (exec machine queryDuringUpgrade [] machine.init).isSome = true := by
  decide +kernel

theorem queryDuringUpgrade_clear : Meets UpgradeClear
    ((exec machine queryDuringUpgrade [] machine.init).get queryDuringUpgrade_runs).1 := by
  rw [← List.take_append_drop 1 ((exec machine queryDuringUpgrade [] machine.init).get _).1]
  refine Meets.append.mpr ⟨?_, ?_⟩
  · refine (Meets.single (e := (⟨machine.init, Action.upgrade true, Event.quiet, _⟩ :
      Entry World Action Event))).mpr ?_
    rintro - -
    refine ⟨?_, ?_, ?_, ?_⟩ <;>
      simp [machine, World.startable, OwnerPc.holdsUnstarted]
  · intro e member activates
    have later : (List.drop 1 ((exec machine queryDuringUpgrade [] machine.init).get
        queryDuringUpgrade_runs).1).all (fun e => !e.action.activates) = true := by decide +kernel
    simpa [activates] using List.all_eq_true.mp later e member

theorem upgrade_excludes_query : ∃ es w, Run machine es w ∧ Meets UpgradeClear es ∧
    ∃ e ∈ es, e.before.upgradeActive = true ∧ ∃ slot timeout code,
      e.event = .started slot timeout code ∧ allowedDuringUpgrade slot.kind = true := by
  have run := exec_get queryDuringUpgrade_runs
  have met := queryDuringUpgrade_clear
  have member := List.mem_of_getLast? (l :=
    ((exec machine queryDuringUpgrade [] machine.init).get queryDuringUpgrade_runs).1) (by rfl)
  refine ⟨_, _, run, met, _, member, rfl, _, _, _, rfl, ?_⟩
  exact (upgrade_excludes run met _ member rfl).1 _ _ _ rfl

/-- Home queued before the upgrade becomes active and started by the next pass. -/
def homeDuringUpgrade : List Action :=
  (Call.home 100).through 0 ++ .upgrade true :: .pass 0 :: ownerTurns 13 0 .ok

theorem homeDuringUpgrade_runs :
    (exec machine homeDuringUpgrade [] machine.init).isSome = true := by
  decide +kernel

theorem home_started_during_upgrade : ∃ es w, Run machine es w ∧ ∃ e ∈ es,
    e.before.upgradeActive = true ∧ ∃ slot timeout code,
      e.event = .started slot timeout code ∧ slot.kind = .home ∧
        allowedDuringUpgrade slot.kind = false := by
  have member := List.mem_of_getLast? (l :=
    ((exec machine homeDuringUpgrade [] machine.init).get homeDuringUpgrade_runs).1) (by rfl)
  exact ⟨_, _, exec_get homeDuringUpgrade_runs, _, member, rfl, _, _, _, rfl, rfl, rfl⟩

end Florid.Wirelink
