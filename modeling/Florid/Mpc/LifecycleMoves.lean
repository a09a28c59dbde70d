import Florid.Mpc.Lifecycle

/-! What a step of an `MPCSession` can do: a thread goes on by itself, or it changes one of the
things that the threads share. -/
namespace Florid.Mpc
open Transition

/-- The parts of a worker's loops, with the faults that they raise. -/
def Pc.busy : Pc → Bool
  | .resolution | .woken | .top | .body | .checked | .act | .settle | .waiting | .trying | .waited
  | .finishing => true
  | .compare reason .finish | .compare reason .exit => reason.isSet
  | _ => false

namespace Lifecycle

/-- A thread goes on without a change of what the threads share. -/
inductive Plain (s : Lifecycle) : Thread → Pc → Pc → LifecycleEvent → Prop where
  | write {n} : s.construction = .done →
      Plain s (.caller n) .idle (.lock s.stopped) .quiet
  | invalid {n} : Plain s (.caller n) .idle .idle (.threw s.stopped)
  | stop {n reason} : s.construction = .done → reason.isSet = true →
      Plain s (.caller n) .idle (.compare reason .join) .quiet
  | refuse {n late} : s.stopped = true →
      Plain s (.caller n) (.check late) (.unlock late true) .quiet
  | accept {n late} : s.stopped = false →
      Plain s (.caller n) (.check late) (.publish late) .quiet
  | published {n late} :
      Plain s (.caller n) (.publish late) (.load late) (.published late)
  | unpublished {n late} :
      Plain s (.caller n) (.publish late) (.compare .internalError (.refuse late)) .quiet
  | running {n late} : s.started = true →
      Plain s (.caller n) (.load late) (.unlock late false) .quiet
  | unstarted {n late} : s.started = false → Plain s (.caller n) (.load late) (.first late) .quiet
  | lost {t reason back} : s.stopped = true → Plain s t (.compare reason back) back.pc .quiet
  | joined {n w} : s.joinable w = false → Plain s (.caller n) (.join w) (afterJoin w) .quiet
  | resolved {w} : Plain s (.worker w) .resolution .acquire .quiet
  | work {w a b} : a.busy = true → b.busy = true → b ≠ .resolution → Plain s (.worker w) a b .quiet
  | sent {b} : b.busy = true → b ≠ .resolution → Plain s (.worker .output) .act b .sent
  | ended {w} : Plain s (.worker w) .finishing .ended .quiet

/-- What a step does. -/
inductive Move (s : Lifecycle) : LifecycleEvent → Lifecycle → Prop where
  | plain {t a b e} : s.pc t = a → Plain s t a b e → Move s e (s.move t b)
  | lock {n late} : s.pc (.caller n) = .lock late → s.writeMutex = none →
      Move s .quiet { s.move (.caller n) (.check late) with writeMutex := some n }
  | first {n late} : s.pc (.caller n) = .first late →
      Move s .quiet
        { s.move (.caller n) (.wake late .planner) with started := true, firstStage := 1 }
  | wake {n late w} : s.pc (.caller n) = .wake late w →
      Move s .quiet
        { (s.move (.caller n) (afterWake late w)).release w with firstStage := w.turn + 1 }
  | unlock {n late threw} : s.pc (.caller n) = .unlock late threw →
      Move s (if threw then .threw late else .wrote late)
        { s.move (.caller n) .idle with writeMutex := none }
  | win {t reason back} : s.pc t = .compare reason back → s.stopped = false →
      Move s .quiet { s.move t (.release .planner back) with stopReason := reason, stopStage := 1 }
  | release {t w back} : s.pc t = .release w back →
      Move s .quiet { (s.move t (afterRelease back w)).release w with stopStage := w.turn + 1 }
  | take {w b} : s.pc (.worker w) = .acquire ∨ s.pc (.worker w) = .trying → 0 < s.wake w →
      b.busy = true → b ≠ .resolution →
      Move s .quiet { s.move (.worker w) b with wake := Function.update s.wake w (s.wake w - 1) }
  | joinLock {n} : s.pc (.caller n) = .joinLock → s.joinMutex = none →
      Move s .quiet { s.move (.caller n) (.join .output) with joinMutex := some n }
  | join {n w} : s.pc (.caller n) = .join w → s.pc (.worker w) = .ended →
      Move s .quiet { s.move (.caller n) (afterJoin w) with
        joinable := Function.update s.joinable w false }
  | joinUnlock {n} : s.pc (.caller n) = .joinUnlock →
      Move s .stopReturned { s.move (.caller n) .idle with joinMutex := none, returned := true }
  | planner : s.construction = .planner →
      Move s .quiet { s.move (.worker .planner) .acquire with
        joinable := Function.update s.joinable .planner true, construction := .output }
  | output : s.construction = .output →
      Move s .quiet { s.move (.worker .output) .resolution with
        joinable := Function.update s.joinable .output true, construction := .done }
  | failed : s.construction = .output →
      Move s .quiet { s.move (.caller 0) (.compare .stopped .join) with construction := .failed }

theorem move_self (s : Lifecycle) (t : Thread) {pc : Pc} (same : s.pc t = pc) :
    s.move t pc = s := by
  rw [move, ← same, Function.update_eq_self]

theorem take_some {s t : Lifecycle} {w : Worker} {pc : Pc} (taken : s.take w pc = some t) :
    0 < s.wake w ∧
      t = { s.move (.worker w) pc with wake := Function.update s.wake w (s.wake w - 1) } := by
  unfold take at taken
  split at taken
  · exact ⟨‹_›, (Option.some.inj taken).symm⟩
  · cases taken

theorem fault_some {s t : Lifecycle} {w : Worker} {reason : MPCStopReason} {back : Back}
    {e : LifecycleEvent} (faulted : s.fault w reason back = some (t, e)) :
    reason.isSet = true ∧ t = s.move (.worker w) (.compare reason back) ∧ e = .quiet := by
  unfold fault at faulted
  split at faulted
  · cases faulted
    exact ⟨‹_›, rfl, rfl⟩
  · cases faulted

theorem requestStop_move {s t : Lifecycle} {thread : Thread}
    (requested : s.requestStop thread (s.pc thread) = some t) : Move s .quiet t := by
  cases located : s.pc thread with
  | compare reason back =>
    rw [located] at requested
    obtain rfl := Option.some.inj requested
    cases stopped : s.stopped
    · simp only [Bool.false_eq_true, if_false]
      exact .win located stopped
    · simp only [if_true]
      exact .plain located (.lost stopped)
  | release w back =>
    rw [located] at requested
    obtain rfl := Option.some.inj requested
    exact .release located
  | _ => simp [located, requestStop] at requested

theorem callerStep_move {s t : Lifecycle} {n : Nat} {outcome : Outcome} {e : LifecycleEvent}
    (stepped : s.callerStep n outcome (s.pc (.caller n)) = some (t, e)) : Move s e t := by
  have other (same : (s.requestStop (.caller n) (s.pc (.caller n))).map (·, LifecycleEvent.quiet) =
      some (t, e)) : Move s e t := by
    obtain ⟨next, requested, shape⟩ := Option.map_eq_some_iff.mp same
    cases shape
    exact requestStop_move requested
  cases located : s.pc (.caller n) with
  | lock late =>
    rw [located] at stepped
    simp only [callerStep] at stepped
    split at stepped
    · cases stepped
      exact .lock located (Option.isNone_iff_eq_none.mp ‹_›)
    · cases stepped
  | check late =>
    rw [located] at stepped
    cases stepped
    cases stopped : s.stopped
    · exact .plain located (.accept stopped)
    · exact .plain located (.refuse stopped)
  | publish late =>
    rw [located] at stepped
    simp only [callerStep] at stepped
    split at stepped
    · cases stepped
      exact .plain located .published
    · cases stepped
      exact .plain located .unpublished
  | load late =>
    rw [located] at stepped
    cases stepped
    cases started : s.started
    · exact .plain located (.unstarted started)
    · exact .plain located (.running started)
  | first late =>
    rw [located] at stepped
    cases stepped
    exact .first located
  | wake late w =>
    rw [located] at stepped
    cases stepped
    exact .wake located
  | unlock late threw =>
    rw [located] at stepped
    cases stepped
    exact .unlock located
  | joinLock =>
    rw [located] at stepped
    simp only [callerStep] at stepped
    split at stepped
    · cases stepped
      exact .joinLock located (Option.isNone_iff_eq_none.mp ‹_›)
    · cases stepped
  | join w =>
    rw [located] at stepped
    simp only [callerStep] at stepped
    split at stepped
    · split at stepped
      · cases stepped
        exact .join located ‹_›
      · cases stepped
    · rename_i unjoinable
      cases stepped
      exact .plain located (.joined (by simpa using unjoinable))
  | joinUnlock =>
    rw [located] at stepped
    cases stepped
    exact .joinUnlock located
  | _ =>
    apply other
    rw [located] at stepped ⊢
    exact stepped

theorem unlessStopped_move {s t : Lifecycle} {w : Worker} {a b : Pc} {e : LifecycleEvent}
    (located : s.pc (.worker w) = a) (source : a.busy = true) (target : b.busy = true)
    (other : b ≠ .resolution) (stepped : s.unlessStopped w b = (t, e)) : Move s e t := by
  cases stepped
  refine .plain located (.work source ?_ ?_)
  · split
    · rfl
    · exact target
  · split
    · simp
    · exact other

theorem fault_move {s t : Lifecycle} {w : Worker} {a : Pc} {reason : MPCStopReason} {back : Back}
    {e : LifecycleEvent} (located : s.pc (.worker w) = a) (source : a.busy = true)
    (worker : back = .finish ∨ back = .exit) (stepped : s.fault w reason back = some (t, e)) :
    Move s e t := by
  obtain ⟨set, rfl, rfl⟩ := fault_some stepped
  refine .plain located (.work source ?_ (by simp))
  rcases worker with rfl | rfl <;> exact set

theorem workerStep_move {s t : Lifecycle} {w : Worker} {outcome : Outcome} {e : LifecycleEvent}
    (stepped : s.workerStep w outcome (s.pc (.worker w)) = some (t, e)) : Move s e t := by
  have other (same : (s.requestStop (.worker w) (s.pc (.worker w))).map (·, LifecycleEvent.quiet) =
      some (t, e)) : Move s e t := by
    obtain ⟨next, requested, shape⟩ := Option.map_eq_some_iff.mp same
    cases shape
    exact requestStop_move requested
  cases located : s.pc (.worker w) with
  | resolution =>
    rw [located] at stepped
    simp only [workerStep] at stepped
    split at stepped
    · cases stepped
      exact .plain located .resolved
    · exact fault_move located rfl (.inl rfl) stepped
  | acquire =>
    rw [located] at stepped
    obtain ⟨next, taken, shape⟩ := Option.map_eq_some_iff.mp stepped
    cases shape
    obtain ⟨token, rfl⟩ := take_some taken
    refine .take (.inl located) token ?_ ?_
    · cases w <;> rfl
    · cases w <;> simp
  | woken =>
    rw [located] at stepped
    exact unlessStopped_move located rfl rfl (by simp) (Option.some.inj stepped)
  | top =>
    rw [located] at stepped
    exact unlessStopped_move located rfl rfl (by simp) (Option.some.inj stepped)
  | body =>
    rw [located] at stepped
    simp only [workerStep] at stepped
    split at stepped
    · cases stepped
      exact .plain located (.work rfl rfl (by simp))
    · cases stepped
      exact .plain located (.work rfl rfl (by simp))
    · exact fault_move located rfl (.inl rfl) stepped
    · cases stepped
  | checked =>
    rw [located] at stepped
    exact unlessStopped_move located rfl rfl (by simp) (Option.some.inj stepped)
  | act =>
    rw [located] at stepped
    simp only [workerStep] at stepped
    split at stepped
    · cases stepped
      exact .plain located (.work rfl rfl (by simp))
    · exact fault_move located rfl (.inl rfl) stepped
    · cases stepped
      exact .plain located (.sent rfl (by simp))
    · obtain ⟨next, faulted, shape⟩ := Option.map_eq_some_iff.mp stepped
      cases shape
      obtain ⟨set, same, -⟩ := fault_some (e := next.2) faulted
      rw [same]
      exact .plain located (.sent set (by simp))
  | settle =>
    rw [located] at stepped
    simp only [workerStep] at stepped
    split at stepped
    · cases stepped
      exact .plain located (.work rfl rfl (by simp))
    · exact fault_move located rfl (.inl rfl) stepped
    · cases stepped
  | waiting =>
    rw [located] at stepped
    simp only [workerStep] at stepped
    split at stepped
    · exact unlessStopped_move located rfl rfl (by simp) (Option.some.inj stepped)
    · exact unlessStopped_move located rfl rfl (by simp) (Option.some.inj stepped)
  | trying =>
    rw [located] at stepped
    simp only [workerStep] at stepped
    split at stepped
    · cases stepped
      exact .plain located (.work rfl rfl (by simp))
    · obtain ⟨next, taken, shape⟩ := Option.map_eq_some_iff.mp stepped
      cases shape
      obtain ⟨token, rfl⟩ := take_some taken
      exact .take (.inr located) token rfl (by simp)
  | waited =>
    rw [located] at stepped
    exact unlessStopped_move located rfl rfl (by simp) (Option.some.inj stepped)
  | finishing =>
    rw [located] at stepped
    simp only [workerStep] at stepped
    split at stepped
    · cases stepped
      exact .plain located .ended
    · exact fault_move located rfl (.inr rfl) stepped
  | _ =>
    apply other
    rw [located] at stepped ⊢
    exact stepped

theorem step_move {s t : Lifecycle} {a : LifecycleAction} {e : LifecycleEvent}
    (stepped : s.step a = some (t, e)) : Move s e t := by
  cases a with
  | create succeeds =>
    simp only [step] at stepped
    split at stepped
    · cases stepped
      exact .planner ‹_›
    · cases stepped
      exact .output ‹_›
    · cases stepped
      exact .failed ‹_›
    · cases stepped
  | write n motionFinished valid =>
    simp only [step] at stepped
    split at stepped
    · rename_i done idle
      split at stepped
      · cases stepped
        exact .plain idle (.stop done rfl)
      · split at stepped
        · cases stepped
          exact .plain idle (.write done)
        · cases stepped
          have invalid := Move.plain idle (.invalid (s := s) (n := n))
          rwa [move_self s _ idle] at invalid
    · cases stepped
  | stop n reason =>
    simp only [step] at stepped
    split at stepped
    · rename_i done idle
      cases stepped
      refine .plain idle (.stop done ?_)
      split
      · assumption
      · rfl
    · cases stepped
  | caller n outcome => exact callerStep_move stepped
  | worker w outcome => exact workerStep_move stepped

end Lifecycle
end Florid.Mpc
