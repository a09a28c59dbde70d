import Florid.Transition
import Florid.Wirelink.Types

/-! `s_ensureMode` and `s_ensureGripperMode` against the device. A call holds
`m_control_mutex`, so one is followed at a time. A request that was accepted by the
endpoint may reach the device at any later time, in any order, or never, whatever its
call has reported by then; the device answers with success only what it has applied. -/
namespace Florid.Arm.ModeCache
open Transition Wirelink

inductive MotorGroup where
  | arm
  | gripper
  deriving DecidableEq

structure ModeRequest where
  id : Nat
  group : MotorGroup
  mode : FciMotorControlMode
  deriving DecidableEq

/-- A call inside `s_requireOperation`, and whether the device has applied its request. -/
structure PendingCall where
  request : ModeRequest
  applied : Bool
  deriving DecidableEq

structure Modes where
  /-- `m_current_mode` and `m_current_gripper_mode` -/
  current : MotorGroup → Option FciMotorControlMode := fun _ => none
  call : Option PendingCall := none
  nextId : Nat := 1
  /-- Requests on their way to the device. -/
  sent : List ModeRequest := []
  /-- The last request the device applied to each group. -/
  device : MotorGroup → Option ModeRequest := fun _ => none
  /-- The requests whose calls have thrown. -/
  failed : List Nat := []

inductive ModeAction where
  /-- A call with the endpoint's answer to its submission, should it come to that. -/
  | ensure (group : MotorGroup) (mode : FciMotorControlMode) (submit : FciEndpointStatus)
  /-- What `waitOperation` and `takeOperation` report to the call. -/
  | collect (wait take : FciEndpointStatus)
  | apply (request : ModeRequest)
  /-- The device rejects a request, or it is lost. -/
  | drop (request : ModeRequest)

inductive ModeEvent where
  | quiet
  | returned (group : MotorGroup) (mode : FciMotorControlMode)
  | thrown
  deriving DecidableEq

namespace Modes

def ensure (s : Modes) (group : MotorGroup) (mode : FciMotorControlMode)
    (submit : FciEndpointStatus) : Modes × ModeEvent :=
  if s.current group = some mode then (s, .returned group mode)
  else if submit ≠ .ok then (s, .thrown)
  else
    let request : ModeRequest := ⟨s.nextId, group, mode⟩
    ({ s with
        call := some ⟨request, false⟩
        nextId := s.nextId + 1
        sent := s.sent ++ [request] }, .quiet)

/-- `s_requireOperation` after the submission, and the store that follows it. -/
def collect (s : Modes) (c : PendingCall) (wait take : FciEndpointStatus) :
    Option (Modes × ModeEvent) :=
  if wait = .busy ∨ take ≠ .ok then
    some ({ s with call := none, failed := c.request.id :: s.failed }, .thrown)
  else if c.applied then
    some ({ s with
        call := none
        current := fun g => if g = c.request.group then some c.request.mode else s.current g },
      .returned c.request.group c.request.mode)
  else none

def apply (s : Modes) (request : ModeRequest) : Modes :=
  { s with
    sent := s.sent.erase request
    device := fun g => if g = request.group then some request else s.device g
    call := s.call.map fun c => if c.request = request then { c with applied := true } else c }

def step (s : Modes) : ModeAction → Option (Modes × ModeEvent)
  | .ensure group mode submit =>
    match s.call with
    | none => some (s.ensure group mode submit)
    | some _ => none
  | .collect wait take =>
    match s.call with
    | none => none
    | some c => s.collect c wait take
  | .apply request => if request ∈ s.sent then some (s.apply request, .quiet) else none
  | .drop request =>
    if request ∈ s.sent then some ({ s with sent := s.sent.erase request }, .quiet) else none

/-- The mode the device applied last. -/
def deviceMode (s : Modes) (group : MotorGroup) : Option FciMotorControlMode :=
  (s.device group).map ModeRequest.mode

/-- The device was left in another mode by the request of a call that has thrown. -/
def Misled (s : Modes) (group : MotorGroup) (mode : FciMotorControlMode) : Prop :=
  ∃ r, s.device group = some r ∧ r.id ∈ s.failed ∧ r.mode ≠ mode

/-- The call finds its mode cached, or collects its own success, and the device was not
left in another mode by a call that had thrown. -/
def Trusts (s : Modes) : ModeAction → Prop
  | .ensure group mode _ => s.current group = some mode → ¬ s.Misled group mode
  | .collect wait take => wait ≠ .busy → take = .ok →
      ∀ c, s.call = some c → ¬ s.Misled c.request.group c.request.mode
  | _ => True

/-- Where what the device has, or may yet get, came from. -/
structure Inv (s : Modes) : Prop where
  fresh : ∀ r ∈ s.sent, r.id < s.nextId
  distinct : s.sent.Nodup
  /-- Requests under way are those of the current call and of calls that have thrown. -/
  sent : ∀ r ∈ s.sent, r.id ∈ s.failed ∨ ∃ c, s.call = some c ∧ c.request = r
  device : ∀ g r, s.device g = some r →
    r.id ∈ s.failed ∨ (∃ c, s.call = some c ∧ c.request = r) ∨ s.current g = some r.mode
  group : ∀ g r, s.device g = some r → r.group = g
  cached : ∀ g m, s.current g = some m → s.device g ≠ none
  call : ∀ c, s.call = some c → c.applied = true → c.request ∉ s.sent ∧
    ∃ r, s.device c.request.group = some r ∧ (r = c.request ∨ r.id ∈ s.failed)

variable {s next : Modes} {action : ModeAction} {event : ModeEvent}

namespace Inv

theorem init : Inv {} := by
  constructor <;> simp

theorem ensure (inv : Inv s) {group : MotorGroup} {mode : FciMotorControlMode}
    {submit : FciEndpointStatus} (idle : s.call = none) : Inv (s.ensure group mode submit).1 := by
  have nobody {r : ModeRequest} : ¬ ∃ c, s.call = some c ∧ c.request = r := by
    rintro ⟨c, current, -⟩
    rw [idle] at current
    cases current
  unfold Modes.ensure
  split
  · exact inv
  · split
    · exact inv
    · refine ⟨?_, ?_, ?_, ?_, inv.group, inv.cached, ?_⟩
      · intro r member
        rcases List.mem_append.mp member with old | new
        · exact Nat.lt_succ_of_lt (inv.fresh r old)
        · rw [List.mem_singleton.mp new]
          exact Nat.lt_succ_self _
      · refine List.nodup_append.mpr ⟨inv.distinct, List.nodup_singleton _, ?_⟩
        rintro r old x new rfl
        rw [List.mem_singleton.mp new] at old
        exact absurd (inv.fresh _ old) (Nat.lt_irrefl _)
      · intro r member
        rcases List.mem_append.mp member with old | new
        · exact .inl ((inv.sent r old).resolve_right nobody)
        · exact .inr ⟨_, rfl, (List.mem_singleton.mp new).symm⟩
      · intro g r held
        rcases inv.device g r held with thrown | current | cached
        · exact .inl thrown
        · exact absurd current nobody
        · exact .inr (.inr cached)
      · intro c new applied
        obtain rfl := Option.some.inj new
        cases applied

/-- The call throws: what it sent stays under way. -/
theorem throw (inv : Inv s) {c : PendingCall} (current : s.call = some c) :
    Inv { s with call := none, failed := c.request.id :: s.failed } := by
  refine ⟨inv.fresh, inv.distinct, ?_, ?_, inv.group, inv.cached, by simp⟩
  · intro r member
    rcases inv.sent r member with thrown | ⟨d, same, rfl⟩
    · exact .inl (List.mem_cons_of_mem _ thrown)
    · obtain rfl := Option.some.inj (current.symm.trans same)
      exact .inl List.mem_cons_self
  · intro g r held
    rcases inv.device g r held with thrown | ⟨d, same, rfl⟩ | cached
    · exact .inl (List.mem_cons_of_mem _ thrown)
    · obtain rfl := Option.some.inj (current.symm.trans same)
      exact .inl List.mem_cons_self
    · exact .inr (.inr cached)

/-- The call returns and its mode is cached. -/
theorem succeed (inv : Inv s) {c : PendingCall} (current : s.call = some c)
    (applied : c.applied = true) : Inv { s with
      call := none
      current := fun g => if g = c.request.group then some c.request.mode else s.current g } := by
  obtain ⟨arrived, r, holds, own⟩ := inv.call c current applied
  refine ⟨inv.fresh, inv.distinct, ?_, ?_, inv.group, ?_, by simp⟩
  · intro x member
    rcases inv.sent x member with thrown | ⟨d, same, rfl⟩
    · exact .inl thrown
    · obtain rfl := Option.some.inj (current.symm.trans same)
      exact absurd member arrived
  · intro g x held
    by_cases mine : g = c.request.group
    · subst mine
      obtain rfl := Option.some.inj (holds.symm.trans held)
      rcases own with rfl | thrown
      · exact .inr (.inr (by simp))
      · exact .inl thrown
    · rcases inv.device g x held with thrown | ⟨d, same, rfl⟩ | cached
      · exact .inl thrown
      · obtain rfl := Option.some.inj (current.symm.trans same)
        exact absurd (inv.group g _ held).symm mine
      · exact .inr (.inr (by simpa [mine] using cached))
  · intro g m cached
    by_cases mine : g = c.request.group
    · rw [mine]
      simp [holds]
    · exact inv.cached g m (by simpa [mine] using cached)

theorem collect (inv : Inv s) {c : PendingCall} {wait take : FciEndpointStatus}
    (current : s.call = some c) (stepped : s.collect c wait take = some (next, event)) :
    Inv next := by
  unfold Modes.collect at stepped
  split at stepped
  · cases stepped
    exact inv.throw current
  · split at stepped
    · rename_i applied
      cases stepped
      exact inv.succeed current applied
    · cases stepped

theorem apply (inv : Inv s) {request : ModeRequest} (member : request ∈ s.sent) :
    Inv (s.apply request) := by
  have gone : request ∉ s.sent.erase request := inv.distinct.not_mem_erase
  -- the call stays the same one, whether or not this request is its own
  have carried {r : ModeRequest} (held : ∃ c, s.call = some c ∧ c.request = r) :
      ∃ c, (s.apply request).call = some c ∧ c.request = r := by
    obtain ⟨c, current, rfl⟩ := held
    simp only [Modes.apply, current, Option.map_some]
    split
    · exact ⟨_, rfl, rfl⟩
    · exact ⟨_, rfl, rfl⟩
  refine ⟨?_, inv.distinct.erase request, ?_, ?_, ?_, ?_, ?_⟩
  · intro r left
    exact inv.fresh r (List.mem_of_mem_erase left)
  · intro r left
    rcases inv.sent r (List.mem_of_mem_erase left) with thrown | current
    · exact .inl thrown
    · exact .inr (carried current)
  · intro g r held
    simp only [Modes.apply] at held
    split at held
    · obtain rfl := Option.some.inj held
      rcases inv.sent request member with thrown | current
      · exact .inl thrown
      · exact .inr (.inl (carried current))
    · rcases inv.device g r held with thrown | current | cached
      · exact .inl thrown
      · exact .inr (.inl (carried current))
      · exact .inr (.inr cached)
  · intro g r held
    simp only [Modes.apply] at held
    split at held
    · rename_i mine
      obtain rfl := Option.some.inj held
      exact mine.symm
    · exact inv.group g r held
  · intro g m cached
    simp only [Modes.apply]
    split
    · simp
    · exact inv.cached g m cached
  · intro d current applied
    simp only [Modes.apply, Option.map_eq_some_iff] at current
    obtain ⟨c, was, moved⟩ := current
    simp only [Modes.apply]
    by_cases own : c.request = request
    · rw [if_pos own] at moved
      subst moved
      rw [own]
      exact ⟨gone, request, by simp, .inl rfl⟩
    · rw [if_neg own] at moved
      subst moved
      obtain ⟨arrived, r, holds, held⟩ := inv.call c was applied
      refine ⟨fun left => arrived (List.mem_of_mem_erase left), ?_⟩
      -- a later request for the same group is that of a call that has thrown
      have thrown : request.id ∈ s.failed := by
        rcases inv.sent request member with thrown | ⟨e, same, mine⟩
        · exact thrown
        · obtain rfl := Option.some.inj (was.symm.trans same)
          exact absurd mine own
      split
      · exact ⟨request, rfl, .inr thrown⟩
      · exact ⟨r, holds, held⟩

theorem drop (inv : Inv s) (request : ModeRequest) :
    Inv { s with sent := s.sent.erase request } := by
  refine ⟨?_, inv.distinct.erase request, ?_, inv.device, inv.group, inv.cached, ?_⟩
  · intro r left
    exact inv.fresh r (List.mem_of_mem_erase left)
  · intro r left
    exact inv.sent r (List.mem_of_mem_erase left)
  · intro c current applied
    obtain ⟨arrived, held⟩ := inv.call c current applied
    exact ⟨fun left => arrived (List.mem_of_mem_erase left), held⟩

theorem step (inv : Inv s) (stepped : s.step action = some (next, event)) : Inv next := by
  cases action with
  | ensure group mode submit =>
    simp only [Modes.step] at stepped
    split at stepped
    · rename_i idle
      have ensured : Inv (s.ensure group mode submit).1 := inv.ensure idle
      rw [Option.some.inj stepped] at ensured
      exact ensured
    · cases stepped
  | collect wait take =>
    simp only [Modes.step] at stepped
    split at stepped
    · cases stepped
    · rename_i c current
      exact inv.collect current stepped
  | apply request =>
    simp only [Modes.step] at stepped
    split at stepped
    · rename_i member
      cases stepped
      exact inv.apply member
    · cases stepped
  | drop request =>
    simp only [Modes.step] at stepped
    split at stepped
    · cases stepped
      exact inv.drop request
    · cases stepped

end Inv
/-- What was returned is what the device has, unless it was misled. -/
theorem right_iff_of_held {g : MotorGroup} {m : FciMotorControlMode}
    (held : ∃ r, s.device g = some r ∧ (r.id ∈ s.failed ∨ r.mode = m)) :
    s.deviceMode g = some m ↔ ¬ s.Misled g m := by
  obtain ⟨r, holds, own⟩ := held
  rw [deviceMode, holds, Option.map_some, Option.some.injEq]
  constructor
  · rintro same ⟨x, also, -, other⟩
    obtain rfl := Option.some.inj (holds.symm.trans also)
    exact other same
  · intro trusted
    rcases own with thrown | same
    · by_contra other
      exact trusted ⟨r, holds, thrown, other⟩
    · exact same

theorem Inv.cached_held (inv : Inv s) (idle : s.call = none) {g : MotorGroup}
    {m : FciMotorControlMode} (cached : s.current g = some m) :
    ∃ r, s.device g = some r ∧ (r.id ∈ s.failed ∨ r.mode = m) := by
  obtain ⟨r, holds⟩ := Option.ne_none_iff_exists'.mp (inv.cached g m cached)
  refine ⟨r, holds, ?_⟩
  rcases inv.device g r holds with thrown | ⟨c, current, -⟩ | same
  · exact .inl thrown
  · rw [idle] at current
    cases current
  · exact .inr (Option.some.inj (same.symm.trans cached))

theorem Inv.applied_held (inv : Inv s) {c : PendingCall} (current : s.call = some c)
    (applied : c.applied = true) :
    ∃ r, s.device c.request.group = some r ∧ (r.id ∈ s.failed ∨ r.mode = c.request.mode) := by
  obtain ⟨-, r, holds, rfl | thrown⟩ := inv.call c current applied
  · exact ⟨_, holds, .inr rfl⟩
  · exact ⟨r, holds, .inl thrown⟩

theorem forall_returned {g : MotorGroup} {m : FciMotorControlMode} :
    (∀ g' m', ModeEvent.returned g m = .returned g' m' → next.deviceMode g' = some m') ↔
      next.deviceMode g = some m := by
  constructor
  · intro all
    exact all g m rfl
  · rintro right g' m' same
    obtain ⟨rfl, rfl⟩ := ModeEvent.returned.inj same
    exact right

/-- The step returns nothing but the truth exactly when its call is not misled. -/
theorem Inv.right_iff_trusts (inv : Inv s) (stepped : s.step action = some (next, event)) :
    (∀ g m, event = .returned g m → next.deviceMode g = some m) ↔ s.Trusts action := by
  cases action with
  | ensure group mode submit =>
    simp only [Modes.step] at stepped
    split at stepped
    · rename_i idle
      simp only [Modes.ensure, Option.some.injEq] at stepped
      by_cases cached : s.current group = some mode
      · rw [if_pos cached] at stepped
        cases stepped
        rw [forall_returned, right_iff_of_held (inv.cached_held idle cached)]
        exact ⟨fun trusted _ => trusted, fun trusts => trusts cached⟩
      · rw [if_neg cached] at stepped
        have silent : ∀ g m, event ≠ .returned g m := by
          split at stepped <;> cases stepped <;> simp
        exact ⟨fun _ found => absurd found cached, fun _ g m heard => absurd heard (silent g m)⟩
    · cases stepped
  | collect wait take =>
    simp only [Modes.step] at stepped
    split at stepped
    · cases stepped
    · rename_i c current
      unfold Modes.collect at stepped
      split at stepped
      · rename_i refused
        cases stepped
        simp only [reduceCtorEq, false_implies, implies_true, true_iff, Trusts]
        intro waited took
        rcases refused with busy | failed
        · exact absurd busy waited
        · exact absurd took failed
      · rename_i accepted
        rw [not_or, not_not] at accepted
        split at stepped
        · rename_i applied
          cases stepped
          rw [forall_returned]
          refine (right_iff_of_held (inv.applied_held current applied)).trans ⟨?_, ?_⟩
          · intro trusted _ _ d same
            obtain rfl := Option.some.inj (current.symm.trans same)
            exact trusted
          · intro trusts
            exact trusts accepted.1 accepted.2 c current
        · cases stepped
  | apply request | drop request =>
    simp only [Modes.step] at stepped
    split at stepped
    · cases stepped
      simp [Trusts]
    · cases stepped

end Modes

def modeMachine : Machine Modes ModeAction ModeEvent := ⟨{}, Modes.step⟩

theorem mode_cache {es : List (Entry Modes ModeAction ModeEvent)} {s : Modes}
    (run : Run modeMachine es s) :
    (∀ e ∈ es, ∀ g m, e.event = .returned g m → e.after.deviceMode g = some m) ↔
      Meets Modes.Trusts es := by
  refine forall₂_congr fun e member => ?_
  obtain ⟨past, before, stepped⟩ := run.entry_of_mem member
  have inv : Modes.Inv e.before := before.invariant .init fun held stepped => held.step stepped
  exact inv.right_iff_trusts stepped

/-- Both groups get a mode. -/
def bothModes : List ModeAction :=
  [.ensure .arm .pvt .ok, .apply ⟨1, .arm, .pvt⟩, .collect .ok .ok, .ensure .gripper .mit .ok,
    .apply ⟨2, .gripper, .mit⟩, .collect .ok .ok, .ensure .arm .pvt .ok]

def bothModesTrace : List (Entry Modes ModeAction ModeEvent) × Modes :=
  (exec modeMachine bothModes [] modeMachine.init).get (by decide +kernel)

theorem bothModes_unfailed : bothModesTrace.1.all (fun e => e.before.failed == []) = true := by
  decide +kernel

/-- Without a call that has thrown nobody is misled. -/
theorem Modes.trusts_of_unfailed {s : Modes} (unfailed : s.failed = []) (action : ModeAction) :
    s.Trusts action := by
  have trusted (g : MotorGroup) (m : FciMotorControlMode) : ¬ s.Misled g m := by
    rintro ⟨r, -, thrown, -⟩
    simp [unfailed] at thrown
  cases action with
  | ensure group mode submit => exact fun _ => trusted group mode
  | collect wait take => exact fun _ _ c _ => trusted c.request.group c.request.mode
  | apply request | drop request => trivial

theorem mode_cache_both : bothModesTrace.2.deviceMode .arm = some .pvt ∧
    ∀ e ∈ bothModesTrace.1, ∀ g m, e.event = .returned g m → e.after.deviceMode g = some m := by
  have run : Run modeMachine bothModesTrace.1 bothModesTrace.2 := exec_get _
  refine ⟨by decide +kernel, (mode_cache run).mpr ?_⟩
  intro e member
  have unfailed := List.all_eq_true.mp bothModes_unfailed e member
  exact Modes.trusts_of_unfailed (by simpa using unfailed) e.action

/-- The reply to the second request is lost after the device has applied it; then the
first mode is asked for again. -/
def lostReply : List ModeAction :=
  [.ensure .arm .pvt .ok, .apply ⟨1, .arm, .pvt⟩, .collect .ok .ok, .ensure .arm .velocity .ok,
    .apply ⟨2, .arm, .velocity⟩, .collect .timeout .timeout, .ensure .arm .pvt .ok]

def lostReplyTrace : List (Entry Modes ModeAction ModeEvent) × Modes :=
  (exec modeMachine lostReply [] modeMachine.init).get (by decide +kernel)

theorem lostReplyTrace_length : 6 < lostReplyTrace.1.length := by decide +kernel

theorem mode_cache_misled : ∃ es s, Run modeMachine es s ∧ ∃ e ∈ es,
    e.event = .returned .arm .pvt ∧ e.after.deviceMode .arm = some .velocity := by
  exact ⟨lostReplyTrace.1, lostReplyTrace.2, exec_get _,
    lostReplyTrace.1.get ⟨6, lostReplyTrace_length⟩, List.get_mem _ _, by decide +kernel,
    by decide +kernel⟩

end Florid.Arm.ModeCache
