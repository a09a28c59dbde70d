import Florid.Arm.Loops

/-! `firmwareUploadAllowed` against the sessions that are live. A session is live from
the store that raises `m_running` for it, or from the end of its start where there is no
such store, until its loop or its start is left, its workers stop, or
`s_stopControlLocked` lowers the flag for all. -/
namespace Florid.Arm.Loops
open Transition

/-- What a step does with `m_running` and the sessions. -/
inductive FlagEffect where
  | keep
  | start (x : LiveSession)
  | stop
  /-- A session ends and the flag is lowered. -/
  | finish (x : LiveSession)
  /-- A session ends and the flag is left. -/
  | abandon (x : LiveSession)
  /-- A session starts and the flag is left. -/
  | silent (x : LiveSession)

namespace FlagEffect

def running : FlagEffect → Bool → Bool
  | .keep, flag | .abandon _, flag | .silent _, flag => flag
  | .start _, _ => true
  | .stop, _ | .finish _, _ => false

def live : FlagEffect → List LiveSession → List LiveSession
  | .keep, live => live
  | .start x, live | .silent x, live => x :: live
  | .stop, _ => []
  | .finish x, live | .abandon x, live => live.filter (· ≠ x)

/-- A loop that lowers the flag is the last session; whoever starts or ends without the
flag is not the only one. -/
def Fits (live : List LiveSession) : FlagEffect → Prop
  | .keep | .start _ | .stop => True
  | .finish x => ∀ y ∈ live, y = x
  | .abandon x => x ∈ live → ∃ y ∈ live, y ≠ x
  | .silent _ => live ≠ []

instance (live : List LiveSession) : (effect : FlagEffect) → Decidable (effect.Fits live)
  | .keep | .start _ | .stop => isTrue trivial
  | .finish x => inferInstanceAs (Decidable (∀ y ∈ live, y = x))
  | .abandon x => inferInstanceAs (Decidable (x ∈ live → ∃ y ∈ live, y ≠ x))
  | .silent _ => inferInstanceAs (Decidable (live ≠ []))

end FlagEffect

namespace LoopState
variable {s next : LoopState} {action : LoopAction} {event : LoopEvent}

/-- The step a thread is about to take, as far as the flag and the sessions go. -/
def effect (s : LoopState) : LoopAction → FlagEffect
  | .gripperLoop t _ _ => .start (.gripper t)
  | .mpcStop k => .abandon (.arm k)
  | .advance t outcome =>
    match s.threads t with
    | .stopping .lowerRunning _ => .stop
    | .raiseRunning _ => .start (.arm s.started)
    | .opening (.startMPC _ _) k => if outcome = .thrown then .abandon (.arm k) else .keep
    | .gripperCalling (_ :: _) | .inCallback .gripper | .sending .gripper _ =>
      if outcome = .thrown then .abandon (.gripper t) else .keep
    | .preparing [] => .silent (.gripperHandle t)
    | .leaving .gripper => .finish (.gripper t)
    | .clearing g k => if g = s.generation then .finish (.arm k) else .abandon (.arm k)
    | _ => .keep
  | _ => .keep

/-- The flag says whether a session is live. -/
def Accurate (s : LoopState) : Prop := s.firmwareUploadAllowed = false ↔ s.live ≠ []

/-- A step has this effect on the flag and the sessions. -/
def Has (s next : LoopState) (effect : FlagEffect) : Prop :=
  next.running = effect.running s.running ∧ next.live = effect.live s.live

theorem stopStep_has (t : Nat) (op : Lifecycle) (stage : WakeStage) :
    s.Has (s.stopStep t op stage) (if stage = .lowerRunning then .stop else .keep) := by
  cases stage with
  | exchange =>
    simp only [stopStep]
    split <;> exact ⟨rfl, rfl⟩
  | raiseStop | lowerRunning | release | invalidate => exact ⟨rfl, rfl⟩

theorem waitStep_has {t : Nat} {outcome : Outcome} {loop : LoopKind}
    (stepped : s.waitStep t outcome loop = some next) : s.Has next .keep := by
  cases loop with
  | gripper =>
    simp only [waitStep] at stepped
    split at stepped <;> cases stepped
    exact ⟨rfl, rfl⟩
  | arm g k mpc =>
    cases outcome <;> simp only [waitStep] at stepped
    case expired =>
      cases stepped
      exact ⟨rfl, rfl⟩
    all_goals
      split at stepped <;> cases stepped
      exact ⟨rfl, rfl⟩

theorem throwStep_has (t : Nat) (loop : LoopKind) :
    s.Has (s.throwStep t loop) (if loop = .gripper then .abandon (.gripper t) else .keep) := by
  cases loop <;> exact ⟨rfl, rfl⟩

theorem openStep_has {t k : Nat} {outcome : Outcome} {op : Lifecycle}
    (at' : s.threads t = .opening op k) (stepped : s.openStep t k outcome op = some next) :
    s.Has next (s.effect (.advance t outcome)) := by
  cases op with
  | prepareControl mode cached loop =>
    simp only [openStep, Option.some.injEq] at stepped
    subst stepped
    simp only [effect, at']
    exact ⟨rfl, rfl⟩
  | startMPC cached loop =>
    simp only [openStep] at stepped
    simp only [effect, at']
    split at stepped
    · rename_i thrown
      cases stepped
      rw [if_pos thrown]
      exact ⟨rfl, rfl⟩
    · rename_i built
      cases stepped
      rw [if_neg built]
      exact ⟨rfl, rfl⟩
  | stop | home | setArmMode | automaticErrorRecovery => cases stepped

theorem advance_has {t : Nat} {outcome : Outcome}
    (stepped : s.advance t outcome = some (next, event)) :
    s.Has next (s.effect (.advance t outcome)) := by
  cases at' : s.threads t with
  | opening op k =>
    simp only [advance, at', Option.map_eq_some_iff, Prod.mk.injEq] at stepped
    obtain ⟨opened, stepped, rfl, -⟩ := stepped
    exact openStep_has at' stepped
  | stopping stage op =>
    simp only [advance, at', Option.some.injEq, Prod.mk.injEq] at stepped
    obtain ⟨rfl, -⟩ := stepped
    have stopped := stopStep_has (s := s) t op stage
    simp only [effect, at']
    cases stage <;> exact stopped
  | waiting loop =>
    simp only [advance, at', Option.map_eq_some_iff, Prod.mk.injEq] at stepped
    obtain ⟨waited, stepped, rfl, -⟩ := stepped
    simp only [effect, at']
    exact waitStep_has stepped
  | inCallback loop =>
    simp only [advance, at'] at stepped
    simp only [effect, at']
    cases outcome <;> cases loop <;> cases stepped <;> exact ⟨rfl, rfl⟩
  | sending loop finished =>
    simp only [advance, at'] at stepped
    simp only [effect, at']
    cases loop <;> split at stepped <;> rename_i thrown <;> cases stepped <;>
      first
      | exact ⟨rfl, rfl⟩
      | (simp only [thrown, if_true, if_false]; exact ⟨rfl, rfl⟩)
  | gripperCalling calls =>
    cases calls with
    | nil =>
      simp only [advance, at'] at stepped
      cases stepped
      simp only [effect, at']
      exact ⟨rfl, rfl⟩
    | cons call rest =>
      simp only [advance, at'] at stepped
      simp only [effect, at']
      split at stepped <;> rename_i thrown <;> cases stepped
      · rw [if_pos thrown]
        exact ⟨rfl, rfl⟩
      · rw [if_neg thrown]
        exact ⟨rfl, rfl⟩
  | preparing calls =>
    cases calls <;> simp only [advance, at'] at stepped <;> cases stepped <;>
      (simp only [effect, at']; exact ⟨rfl, rfl⟩)
  | leaving loop =>
    cases loop with
    | gripper =>
      simp only [advance, at'] at stepped
      cases stepped
      simp only [effect, at']
      exact ⟨rfl, rfl⟩
    | arm g k mpc =>
      simp only [advance, at'] at stepped
      simp only [effect, at']
      split at stepped <;> cases stepped
      exact ⟨rfl, rfl⟩
  | clearing g k =>
    simp only [advance, at'] at stepped
    cases stepped
    simp only [effect, at']
    by_cases current : g = s.generation
    · simp only [if_pos current]
      exact ⟨rfl, rfl⟩
    · simp only [if_neg current]
      exact ⟨rfl, rfl⟩
  | idle =>
    simp only [advance, at'] at stepped
    cases stepped
  | published | reading loop place load | taking loop =>
    simp only [advance, at'] at stepped
    simp only [effect, at']
    split at stepped <;> cases stepped <;> exact ⟨rfl, rfl⟩
  | calling op calls succeeded =>
    simp only [effect, at']
    cases calls with
    | nil =>
      simp only [advance, at'] at stepped
      split at stepped <;> cases stepped <;> exact ⟨rfl, rfl⟩
    | cons call rest =>
      simp only [advance, at'] at stepped
      cases stepped
      exact ⟨rfl, rfl⟩
  | releasing | lowerStop op | raiseRunning op | entering calls | acquired loop =>
    simp only [advance, at'] at stepped
    cases stepped
    simp only [effect, at']
    exact ⟨rfl, rfl⟩

theorem step_has (stepped : s.step action = some (next, event)) : s.Has next (s.effect action) := by
  cases action with
  | advance t outcome => exact advance_has stepped
  | begin t op | gripperLoop t mode cached | gripperControl t mode cached | status t generation =>
    simp only [step] at stepped
    split at stepped <;> cases stepped
    exact ⟨rfl, rfl⟩
  | readOnce =>
    simp only [step] at stepped
    cases stepped
    split <;> exact ⟨rfl, rfl⟩
  | mpcStop k =>
    simp only [step] at stepped
    split at stepped <;> cases stepped
    exact ⟨rfl, rfl⟩

end LoopState

open LoopState

/-- One step from an accurate flag. -/
theorem LoopState.Accurate.step_iff {s next : LoopState} {effect : FlagEffect}
    (accurate : s.Accurate) (has : s.Has next effect) : next.Accurate ↔ effect.Fits s.live := by
  obtain ⟨running, live⟩ := has
  simp only [Accurate, firmwareUploadAllowed, Bool.not_eq_false'] at accurate ⊢
  rw [running, live]
  cases effect with
  | keep => simpa [FlagEffect.running, FlagEffect.live, FlagEffect.Fits] using accurate
  | start x => simp [FlagEffect.running, FlagEffect.live, FlagEffect.Fits]
  | stop => simp [FlagEffect.running, FlagEffect.live, FlagEffect.Fits]
  | finish x => simp [FlagEffect.running, FlagEffect.live, FlagEffect.Fits]
  | abandon x =>
    simp only [FlagEffect.running, FlagEffect.live, FlagEffect.Fits, accurate]
    by_cases member : x ∈ s.live
    · have nonempty : s.live ≠ [] := List.ne_nil_of_mem member
      simp [nonempty, member]
    · have unchanged : s.live.filter (· ≠ x) = s.live := by
        refine List.filter_eq_self.mpr fun y present => ?_
        simp only [decide_eq_true_eq]
        rintro rfl
        exact member present
      rw [unchanged]
      simp [member]
  | silent x =>
    simp only [FlagEffect.running, FlagEffect.live, FlagEffect.Fits, accurate]
    simp

/-- A joint handle, a stop, and a gripper loop that is stopped while it waits. -/
def separateSessions : List LoopAction := List.flatten
  [[.begin 0 (.prepareControl .pvt false false)], goOn 0 11, [.begin 0 .stop], goOn 0 5,
    [.gripperLoop 1 .mit true], goOn 1 5, [.begin 0 .stop], goOn 0 5, goOn 1 4]

def separateTrace : List (Entry LoopState LoopAction LoopEvent) × LoopState :=
  (exec loopMachine separateSessions [] loopMachine.init).get (by decide +kernel)

theorem separateTrace_fits :
    separateTrace.1.all (fun e => decide ((e.before.effect e.action).Fits e.before.live)) = true := by
  decide +kernel

/-- The mode RPC of a gripper loop fails. -/
def failedGripper : List LoopAction :=
  [.gripperLoop 0 .mit false, .advance 0 .ok, .advance 0 .thrown]

/-- A gripper loop comes to its end beside a joint handle. -/
def besideHandle : List LoopAction := List.flatten
  [[.begin 0 (.prepareControl .pvt false false)], goOn 0 11, [.gripperLoop 1 .mit true], goOn 1 5,
    [.status 2 7, .advance 2 .ok], goOn 1 5, List.replicate 3 (.advance 1 .finished)]

def failedGripperEnd : LoopState :=
  (follow loopMachine failedGripper loopMachine.init).get (by decide +kernel)

def besideHandleEnd : LoopState :=
  (follow loopMachine besideHandle loopMachine.init).get (by decide +kernel)

end Florid.Arm.Loops
