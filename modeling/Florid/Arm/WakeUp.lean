import Florid.Arm.Loops

/-! Wake-ups of the control loops, read off `CoalescedWake`: the states are the news,
`m_stop_flag` closes, and only the untimed `acquire` of a gripper loop can block. -/
namespace Florid.Arm.Loops
open Transition CoalescedWake

def LoopPc.role : LoopPc → Role
  | .published => .announcing
  | .stopping .lowerRunning _ | .stopping .exchange _ => .closing
  | .releasing | .stopping .release _ => .releasing
  | .waiting .gripper => .blocked
  | .acquired _ => .holding
  | .reading _ .woken _ | .taking _ => .looking
  | _ => .away

namespace LoopState
variable {s next : LoopState} {t : Nat} {pc : LoopPc}

def wake (s : LoopState) : Wake Nat :=
  ⟨s.count, s.pending, s.fresh, s.stopFlag, fun t => (s.threads t).role⟩

/-- What a step does with the semaphore and the flag. -/
def mark (s : LoopState) : LoopAction → Mark Nat
  | .advance t outcome =>
    match s.threads t with
    | .published | .stopping .exchange _ => if s.pending then .skipped t else .plain
    | .waiting .gripper => .took t
    | .waiting (.arm _ _ _) => if outcome = .ok then .took t else .plain
    | .reading loop .woken load => if s.passes loop load then .plain else .dropped
    | _ => .plain
  | _ => .plain

theorem role_set (s : LoopState) (t : Nat) (pc : LoopPc) :
    (fun u => ((s.set t pc).threads u).role) = Function.update s.wake.role t pc.role := by
  funext u
  by_cases mine : u = t
  · subst mine
    simp [set]
  · simp [set, wake, mine]

theorem role_set_same (same : pc.role = (s.threads t).role) :
    (fun u => ((s.set t pc).threads u).role) = s.wake.role := by
  rw [role_set]
  exact Function.update_eq_self_iff.mpr same

/-- A thread moves and touches nothing the wake-ups are made of. -/
theorem stays {s next : LoopState} (count : next.count = s.count) (pending : next.pending = s.pending)
    (fresh : next.fresh = s.fresh) (closed : next.stopFlag = s.stopFlag)
    (threads : next.threads = (s.set t pc).threads) (same : pc.role = (s.threads t).role) :
    Step s.wake .plain next.wake := by
  have whole : next.wake = s.wake := by
    rw [wake, count, pending, fresh, closed, threads, role_set_same same]
    rfl
  rw [whole]
  exact .stay

/-- A thread moves with what its step does to the rest. -/
theorem moves {s next : LoopState} {mark : Mark Nat} (threads : next.threads = (s.set t pc).threads)
    (step : Step s.wake mark
      ⟨next.count, next.pending, next.fresh, next.stopFlag, Function.update s.wake.role t pc.role⟩) :
    Step s.wake mark next.wake := by
  have whole : next.wake =
      ⟨next.count, next.pending, next.fresh, next.stopFlag, Function.update s.wake.role t pc.role⟩ := by
    rw [wake, threads, role_set]
  rw [whole]
  exact step

theorem stopStep_wake {op : Lifecycle} {stage : WakeStage} {outcome : Outcome}
    (at' : s.threads t = .stopping stage op) :
    Step s.wake (s.mark (.advance t outcome)) (s.stopStep t op stage).wake := by
  have role : s.wake.role t = (LoopPc.stopping stage op).role := by rw [← at']; rfl
  cases stage with
  | raiseStop =>
    simp only [mark, at', stopStep]
    exact moves rfl (.close role)
  | lowerRunning =>
    simp only [mark, at', stopStep]
    exact stays rfl rfl rfl rfl rfl (by rw [at']; rfl)
  | exchange =>
    simp only [mark, at', stopStep]
    cases up : s.pending with
    | true =>
      simp only [if_true]
      exact moves rfl (.skip (.inr role) up)
    | false =>
      simp only [Bool.false_eq_true, if_false]
      exact moves rfl (.raise (.inr role) up)
  | release =>
    simp only [mark, at', stopStep]
    exact moves rfl (.release role)
  | invalidate =>
    simp only [mark, at', stopStep]
    exact stays rfl rfl rfl rfl rfl (by rw [at']; rfl)

theorem waitStep_wake {loop : LoopKind} {outcome : Outcome} (at' : s.threads t = .waiting loop)
    (stepped : s.waitStep t outcome loop = some next) :
    Step s.wake (s.mark (.advance t outcome)) next.wake := by
  have role : s.wake.role t = (LoopPc.waiting loop).role := by rw [← at']; rfl
  cases loop with
  | gripper =>
    simp only [waitStep] at stepped
    split at stepped <;> cases stepped
    rename_i token
    simp only [mark, at']
    exact moves rfl (.acquire (.inr role) token)
  | arm g k mpc =>
    cases outcome with
    | ok =>
      simp only [waitStep] at stepped
      split at stepped <;> cases stepped
      rename_i token
      simp only [mark, at', if_true]
      exact moves rfl (.acquire (.inl role) token)
    | expired =>
      simp only [waitStep] at stepped
      cases stepped
      simp only [mark, at', reduceCtorEq, if_false]
      exact stays rfl rfl rfl rfl rfl (by rw [at']; rfl)
    | finished | thrown =>
      simp only [waitStep] at stepped
      split at stepped <;> cases stepped
      simp only [mark, at', reduceCtorEq, if_false]
      exact stays rfl rfl rfl rfl rfl (by rw [at']; rfl)

theorem reading_wake {loop : LoopKind} {place : LoopPlace} {load : LoopLoad} {outcome : Outcome}
    {event : LoopEvent} (at' : s.threads t = .reading loop place load)
    (stepped : s.advance t outcome = some (next, event)) :
    Step s.wake (s.mark (.advance t outcome)) next.wake := by
  have role : s.wake.role t = (LoopPc.reading loop place load).role := by rw [← at']; rfl
  simp only [advance, at'] at stepped
  cases passes : s.passes loop load with
  | false =>
    simp only [passes, Bool.false_eq_true, if_false] at stepped
    cases stepped
    cases place with
    | woken =>
      simp only [mark, at', passes, Bool.false_eq_true, if_false]
      exact moves rfl (.drop role)
    | head | called finished =>
      simp only [mark, at']
      exact stays rfl rfl rfl rfl rfl (by rw [at']; rfl)
  | true =>
    simp only [passes, if_true] at stepped
    cases stepped
    cases place with
    | woken =>
      simp only [mark, at', passes, if_true]
      refine stays rfl rfl rfl rfl rfl ?_
      rw [at']
      cases load <;> cases loop <;> rfl
    | called finished =>
      simp only [mark, at']
      refine stays rfl rfl rfl rfl rfl ?_
      rw [at']
      cases load <;> cases loop <;> rfl
    | head =>
      simp only [mark, at']
      cases loop with
      | arm g k mpc =>
        refine stays rfl rfl rfl rfl rfl ?_
        rw [at']
        cases load <;> rfl
      | gripper =>
        cases load with
        | running => exact stays rfl rfl rfl rfl rfl (by rw [at']; rfl)
        | stopFlag =>
          -- the flag is down at the last load before the wait
          have unset : s.stopFlag = false := by simpa [LoopState.passes] using passes
          exact moves rfl (.block role unset)
        | generation => cases passes

theorem taking_wake {loop : LoopKind} {outcome : Outcome} {event : LoopEvent}
    (at' : s.threads t = .taking loop) (stepped : s.advance t outcome = some (next, event)) :
    Step s.wake (s.mark (.advance t outcome)) next.wake := by
  have role : s.wake.role t = (LoopPc.taking loop).role := by rw [← at']; rfl
  simp only [advance, at'] at stepped
  simp only [mark, at']
  cases fresh : s.fresh with
  | true =>
    simp only [fresh, if_true] at stepped
    cases stepped
    refine moves rfl ?_
    have taken : LoopState.fresh { s.set t (.inCallback loop) with consumed := s.published } = false := by
      simp [LoopState.fresh, set]
    rw [taken]
    exact .take role
  | false =>
    simp only [fresh, Bool.false_eq_true, if_false] at stepped
    cases stepped
    refine moves rfl ?_
    have untaken : (s.set t (.reading loop .head .running)).fresh = false := fresh
    rw [untaken]
    exact .take role

/-- A store that lowers the stop flag. -/
theorem reopens (same : pc.role = (s.threads t).role) :
    Step s.wake .plain { s.set t pc with stopFlag := false }.wake := by
  have whole : { s.set t pc with stopFlag := false }.wake = { s.wake with closed := false } := by
    rw [wake, role_set_same same]
    rfl
  rw [whole]
  exact .reopen

theorem advance_wake {outcome : Outcome} {event : LoopEvent}
    (stepped : s.advance t outcome = some (next, event)) :
    Step s.wake (s.mark (.advance t outcome)) next.wake := by
  have role : s.wake.role t = (s.threads t).role := rfl
  cases at' : s.threads t with
  | idle =>
    simp only [advance, at'] at stepped
    cases stepped
  | published =>
    rw [at'] at role
    simp only [advance, at'] at stepped
    simp only [mark, at']
    cases up : s.pending with
    | true =>
      simp only [up, if_true] at stepped ⊢
      cases stepped
      exact moves rfl (.skip (.inl role) up)
    | false =>
      simp only [up, Bool.false_eq_true, if_false] at stepped ⊢
      cases stepped
      exact moves rfl (.raise (.inl role) up)
  | releasing =>
    rw [at'] at role
    simp only [advance, at'] at stepped
    cases stepped
    simp only [mark, at']
    exact moves rfl (.release role)
  | stopping stage op =>
    simp only [advance, at', Option.some.injEq, Prod.mk.injEq] at stepped
    obtain ⟨rfl, -⟩ := stepped
    exact stopStep_wake at'
  | waiting loop =>
    simp only [advance, at', Option.map_eq_some_iff, Prod.mk.injEq] at stepped
    obtain ⟨waited, stepped, rfl, -⟩ := stepped
    exact waitStep_wake at' stepped
  | reading loop place load => exact reading_wake at' stepped
  | taking loop => exact taking_wake at' stepped
  | acquired loop =>
    rw [at'] at role
    simp only [advance, at'] at stepped
    cases stepped
    simp only [mark, at']
    exact moves rfl (.lower role)
  | lowerStop op | entering calls =>
    simp only [advance, at'] at stepped
    cases stepped
    simp only [mark, at']
    exact reopens (by rw [at']; rfl)
  | calling op calls succeeded =>
    simp only [mark, at']
    cases calls with
    | nil =>
      simp only [advance, at'] at stepped
      split at stepped <;> cases stepped <;> exact stays rfl rfl rfl rfl rfl (by rw [at']; rfl)
    | cons call rest =>
      simp only [advance, at'] at stepped
      cases stepped
      exact stays rfl rfl rfl rfl rfl (by rw [at']; rfl)
  | opening op k =>
    simp only [advance, at', Option.map_eq_some_iff, Prod.mk.injEq] at stepped
    obtain ⟨opened, stepped, rfl, -⟩ := stepped
    simp only [mark, at']
    cases op with
    | prepareControl mode cached loop =>
      simp only [openStep, Option.some.injEq] at stepped
      subst stepped
      refine stays rfl rfl rfl rfl rfl ?_
      rw [at']
      cases loop <;> rfl
    | startMPC cached loop =>
      simp only [openStep] at stepped
      split at stepped <;> cases stepped
      · exact stays rfl rfl rfl rfl rfl (by rw [at']; rfl)
      · refine stays rfl rfl rfl rfl rfl ?_
        rw [at']
        cases loop <;> rfl
    | stop | home | setArmMode | automaticErrorRecovery => cases stepped
  | gripperCalling calls =>
    simp only [mark, at']
    cases calls with
    | nil =>
      simp only [advance, at'] at stepped
      cases stepped
      exact stays rfl rfl rfl rfl rfl (by rw [at']; rfl)
    | cons call rest =>
      simp only [advance, at'] at stepped
      split at stepped <;> cases stepped <;> exact stays rfl rfl rfl rfl rfl (by rw [at']; rfl)
  | preparing calls =>
    simp only [mark, at']
    cases calls with
    | nil =>
      simp only [advance, at'] at stepped
      cases stepped
      exact stays rfl rfl rfl rfl rfl (by rw [at']; rfl)
    | cons call rest =>
      simp only [advance, at'] at stepped
      cases stepped
      refine stays rfl rfl rfl rfl rfl ?_
      rw [at']
      split <;> rfl
  | inCallback loop =>
    simp only [advance, at'] at stepped
    simp only [mark, at']
    cases outcome <;> cases loop <;> cases stepped <;>
      exact stays rfl rfl rfl rfl rfl (by rw [at']; rfl)
  | sending loop finished =>
    simp only [advance, at'] at stepped
    simp only [mark, at']
    split at stepped
    · cases loop <;> cases stepped <;> exact stays rfl rfl rfl rfl rfl (by rw [at']; rfl)
    · cases stepped
      refine stays rfl rfl rfl rfl rfl ?_
      rw [at']
      cases finished <;> rfl
  | leaving loop =>
    simp only [mark, at']
    cases loop with
    | gripper =>
      simp only [advance, at'] at stepped
      cases stepped
      exact stays rfl rfl rfl rfl rfl (by rw [at']; rfl)
    | arm g k mpc =>
      simp only [advance, at'] at stepped
      split at stepped <;> cases stepped
      exact stays rfl rfl rfl rfl rfl (by rw [at']; rfl)
  | raiseRunning op | clearing g k =>
    simp only [advance, at'] at stepped
    cases stepped
    simp only [mark, at']
    exact stays rfl rfl rfl rfl rfl (by rw [at']; rfl)

theorem step_wake {action : LoopAction} {event : LoopEvent}
    (stepped : s.step action = some (next, event)) : Step s.wake (s.mark action) next.wake := by
  cases action with
  | advance t outcome => exact advance_wake stepped
  | begin t op =>
    simp only [step] at stepped
    split at stepped <;> cases stepped
    rename_i idle _
    exact stays rfl rfl rfl rfl rfl (by rw [idle]; rfl)
  | gripperLoop t mode cached | gripperControl t mode cached =>
    simp only [step] at stepped
    split at stepped <;> cases stepped
    rename_i idle
    exact stays rfl rfl rfl rfl rfl (by rw [idle]; rfl)
  | status t generation =>
    simp only [step] at stepped
    split at stepped <;> cases stepped
    rename_i idle
    have role : s.wake.role t = .away := by
      rw [show s.wake.role t = (s.threads t).role from rfl, idle]
      rfl
    exact moves rfl (.announce role)
  | readOnce =>
    simp only [step] at stepped
    cases stepped
    split
    · have taken : LoopState.fresh { s with consumed := s.published } = false := by
        simp [LoopState.fresh]
      have whole : LoopState.wake { s with consumed := s.published } = { s.wake with fresh := false } := by
        rw [wake, taken]
        rfl
      rw [whole]
      exact .taken
    · exact .stay
  | mpcStop k =>
    simp only [step] at stepped
    split at stepped <;> cases stepped
    exact .stay

theorem dropped_of_mark {action : LoopAction} {event : LoopEvent}
    (stepped : s.step action = some (next, event)) (marked : s.mark action = .dropped) :
    event = .dropped := by
  cases action with
  | advance t outcome =>
    simp only [mark] at marked
    split at marked
    all_goals first | cases marked | split at marked <;> cases marked
    rename_i at' failed
    simp only [step, advance, at'] at stepped
    rw [if_neg failed] at stepped
    cases stepped
    rfl
  | _ => cases marked

theorem wake_init : loopMachine.init.wake = ⟨0, false, false, false, fun _ => .away⟩ := rfl

theorem tally_run {es : List (Entry LoopState LoopAction LoopEvent)} (run : Run loopMachine es s) :
    s.wake.Tally := by
  refine run.invariant (P := fun s => s.wake.Tally) ?_ fun held stepped => held.step (step_wake stepped)
  rw [wake_init]
  exact ⟨∅, by simp [Role.counted], rfl⟩

theorem kept_run {es : List (Entry LoopState LoopAction LoopEvent)} (run : Run loopMachine es s)
    (undropped : ∀ e ∈ es, e.event ≠ .dropped) : s.wake.Kept := by
  induction run with
  | nil =>
    intro fresh
    cases fresh
  | snoc before stepped ih =>
    have kept := ih fun e member => undropped e (List.mem_append_left _ member)
    refine kept.step (tally_run before) (step_wake stepped) ?_
    intro marked
    exact undropped _ (List.mem_append_right _ List.mem_cons_self) (dropped_of_mark stepped marked)

/-- A status callback or a stop is on its way to its wake. -/
def Outstanding (s : LoopState) (t : Nat) : Prop :=
  s.threads t = .published ∨ s.threads t = .releasing ∨
    ∃ op, s.threads t = .stopping .lowerRunning op ∨ s.threads t = .stopping .exchange op ∨
      s.threads t = .stopping .release op

/-- A gripper loop that was to stop waits for a token that does not come. -/
def Hung (s : LoopState) : Prop :=
  s.stopFlag = true ∧ s.count = 0 ∧ (∃ t, s.threads t = .waiting .gripper) ∧
    ∀ t, ¬ s.Outstanding t

theorem blocked_iff (pc : LoopPc) : pc.role = .blocked ↔ pc = .waiting .gripper := by
  constructor
  · intro blocked
    unfold LoopPc.role at blocked
    split at blocked <;> first | rfl | cases blocked
  · rintro rfl
    rfl

theorem waking_iff (s : LoopState) (t : Nat) :
    (s.threads t).role.waking = true ↔ s.Outstanding t := by
  constructor
  · intro waking
    unfold LoopPc.role at waking
    split at waking
    all_goals first | exact (Bool.false_ne_true waking).elim | rename_i at'
    · exact .inl at'
    · exact .inr (.inr ⟨_, .inl at'⟩)
    · exact .inr (.inr ⟨_, .inr (.inl at')⟩)
    · exact .inr (.inl at')
    · exact .inr (.inr ⟨_, .inr (.inr at')⟩)
  · rintro (at' | at' | ⟨op, at' | at' | at'⟩) <;> rw [at'] <;> rfl

theorem hung_wake (s : LoopState) : s.wake.Hung ↔ s.Hung := by
  refine and_congr_right' (and_congr_right' (and_congr ?_ ?_))
  · exact exists_congr fun t => blocked_iff (s.threads t)
  · refine forall_congr' fun t => ?_
    rw [← waking_iff, Bool.not_eq_true]
    rfl

end LoopState

open LoopState

theorem wake_accounting {es : List (Entry LoopState LoopAction LoopEvent)} {s : LoopState}
    (run : Run loopMachine es s) :
    (∀ loops : Finset Nat, (∀ t ∈ loops, ∃ loop, s.threads t = .acquired loop) →
      s.count + loops.card ≤ 1) ∧
    ((∀ e ∈ es, e.event ≠ .dropped) → s.fresh = true →
      0 < s.count ∨ (∃ t, s.threads t = .published ∨ s.threads t = .releasing ∨
        ∃ op, s.threads t = .stopping .release op) ∨
      ∃ t loop, s.threads t = .acquired loop ∨ s.threads t = .taking loop ∨
        ∃ load, s.threads t = .reading loop .woken load) ∧
    ((∀ e ∈ es, ¬ e.after.Hung) ↔
      Meets (fun s action => ¬ (s.mark action).Strands s.wake) es) := by
  refine ⟨?_, ?_, ?_⟩
  · intro loops taken
    refine (tally_run run).at_most_one fun t member => ?_
    obtain ⟨loop, at'⟩ := taken t member
    rw [show s.wake.role t = (s.threads t).role from rfl, at']
    rfl
  · intro undropped fresh
    rcases kept_run run undropped fresh with token | ⟨t, minds⟩
    · exact .inl token
    · right
      change (s.threads t).role.minds = true at minds
      unfold LoopPc.role at minds
      split at minds
      all_goals first | exact (Bool.false_ne_true minds).elim | rename_i at'
      · exact .inl ⟨t, .inl at'⟩
      · exact .inl ⟨t, .inr (.inl at')⟩
      · exact .inl ⟨t, .inr (.inr ⟨_, at'⟩)⟩
      · exact .inr ⟨t, _, .inl at'⟩
      · exact .inr ⟨t, _, .inr (.inr ⟨_, at'⟩)⟩
      · exact .inr ⟨t, _, .inr (.inl at')⟩
  · refine run.always_iff (P := fun s => ¬ s.Hung) ?_ ?_
    · rintro ⟨stopped, -⟩
      cases stopped
    · intro past s action event next before calm stepped
      rw [← hung_wake] at calm ⊢
      exact not_congr (Wake.hung_iff calm (tally_run before) (step_wake stepped))

/-! ### One thread with loops -/

/-- The call goes on into a loop. -/
def entersLoop : Lifecycle → Bool
  | .prepareControl _ _ loop | .startMPC _ loop => loop
  | _ => false

/-- In a loop, or on the way into one. -/
def LoopPc.loops : LoopPc → Bool
  | .idle | .published | .releasing | .preparing _ => false
  | .stopping _ op | .calling op _ _ | .lowerStop op | .raiseRunning op | .opening op _ =>
    entersLoop op
  | _ => true

def LoopAction.looper? : LoopAction → Option Nat
  | .begin t op => if entersLoop op then some t else none
  | .gripperLoop t _ _ => some t
  | _ => none

namespace LoopState
variable {s next : LoopState} {t : Nat} {pc : LoopPc}

theorem set_loops (u : Nat) (same : pc.loops = true → (s.threads t).loops = true)
    (threads : next.threads = (s.set t pc).threads) (loops : (next.threads u).loops = true) :
    (s.threads u).loops = true := by
  rw [threads] at loops
  by_cases mine : u = t
  · subst mine
    exact same (by simpa [set] using loops)
  · simpa [set, mine] using loops

theorem advance_loops {outcome : Outcome} {event : LoopEvent}
    (stepped : s.advance t outcome = some (next, event)) (u : Nat)
    (loops : (next.threads u).loops = true) : (s.threads u).loops = true := by
  cases at' : s.threads t with
  | idle =>
    simp only [advance, at'] at stepped
    cases stepped
  | published =>
    simp only [advance, at'] at stepped
    split at stepped <;> cases stepped <;> exact set_loops u (by simp [LoopPc.loops]) rfl loops
  | stopping stage op =>
    simp only [advance, at', Option.some.injEq, Prod.mk.injEq] at stepped
    obtain ⟨rfl, -⟩ := stepped
    cases stage with
    | exchange =>
      simp only [stopStep] at loops
      split at loops <;> exact set_loops u (by rw [at']; exact id) rfl loops
    | raiseStop | lowerRunning | release | invalidate =>
      exact set_loops u (by rw [at']; exact id) rfl loops
  | calling op calls succeeded =>
    cases calls with
    | nil =>
      simp only [advance, at'] at stepped
      split at stepped <;> cases stepped
      · exact set_loops u (by rw [at']; exact id) rfl loops
      · exact set_loops u (by simp [LoopPc.loops]) rfl loops
    | cons call rest =>
      simp only [advance, at'] at stepped
      cases stepped
      exact set_loops u (by rw [at']; exact id) rfl loops
  | lowerStop op | raiseRunning op =>
    simp only [advance, at'] at stepped
    cases stepped
    exact set_loops u (by rw [at']; exact id) rfl loops
  | opening op k =>
    simp only [advance, at', Option.map_eq_some_iff, Prod.mk.injEq] at stepped
    obtain ⟨opened, stepped, rfl, -⟩ := stepped
    cases op with
    | prepareControl mode cached loop =>
      simp only [openStep, Option.some.injEq] at stepped
      subst stepped
      refine set_loops u ?_ rfl loops
      rw [at']
      cases loop <;> exact id
    | startMPC cached loop =>
      simp only [openStep] at stepped
      split at stepped <;> cases stepped
      · exact set_loops u (by simp [LoopPc.loops]) rfl loops
      · refine set_loops u ?_ rfl loops
        rw [at']
        cases loop <;> exact id
    | stop | home | setArmMode | automaticErrorRecovery => cases stepped
  | preparing calls =>
    cases calls with
    | nil =>
      simp only [advance, at'] at stepped
      cases stepped
      exact set_loops u (by simp [LoopPc.loops]) rfl loops
    | cons call rest =>
      simp only [advance, at'] at stepped
      cases stepped
      refine set_loops u ?_ rfl loops
      split <;> simp [LoopPc.loops]
  | releasing =>
    simp only [advance, at'] at stepped
    cases stepped
    exact set_loops u (by simp [LoopPc.loops]) rfl loops
  | entering | gripperCalling | reading | waiting | acquired | taking | inCallback | sending |
    leaving | clearing =>
    by_cases mine : u = t
    · rw [mine, at']
      rfl
    · rwa [advance_frame stepped mine] at loops

theorem step_loops {action : LoopAction} {event : LoopEvent}
    (stepped : s.step action = some (next, event)) {u : Nat}
    (loops : (next.threads u).loops = true) :
    (s.threads u).loops = true ∨ action.looper? = some u := by
  cases action with
  | advance t outcome => exact .inl (advance_loops stepped u loops)
  | begin t op =>
    simp only [step] at stepped
    split at stepped <;> cases stepped
    by_cases mine : u = t
    · subst mine
      have starts : entersLoop op = true := by simpa [set, LoopPc.loops] using loops
      exact .inr (by simp [LoopAction.looper?, starts])
    · exact .inl (by simpa [set, mine] using loops)
  | gripperLoop t mode cached =>
    simp only [step] at stepped
    split at stepped <;> cases stepped
    by_cases mine : u = t
    · exact .inr (by simp [LoopAction.looper?, mine])
    · exact .inl (by simpa [set, enroll, mine] using loops)
  | gripperControl t mode cached | status t generation =>
    simp only [step] at stepped
    split at stepped <;> cases stepped
    exact .inl (set_loops u (by simp [LoopPc.loops]) rfl loops)
  | readOnce =>
    simp only [step] at stepped
    cases stepped
    refine .inl ?_
    split at loops <;> exact loops
  | mpcStop k =>
    simp only [step] at stepped
    split at stepped <;> cases stepped
    exact .inl loops

theorem waiting_of_took {action : LoopAction} {u : Nat} (marked : s.mark action = .took u) :
    ∃ loop, s.threads u = .waiting loop := by
  cases action with
  | advance t outcome =>
    simp only [mark] at marked
    split at marked
    case h_3 at' =>
      cases marked
      exact ⟨_, at'⟩
    case h_4 at' =>
      split at marked <;> cases marked
      exact ⟨_, at'⟩
    all_goals first | cases marked | (split at marked <;> cases marked)
  | _ => cases marked

theorem skipped_of_step {w next : Wake Nat} {u : Nat} (step : Step w (.skipped u) next) :
    (w.role u = .announcing ∨ w.role u = .closing) ∧ w.pending = true := by
  cases step with
  | skip role up => exact ⟨role, up⟩

theorem loops_of_holding {u : Nat} (holding : (s.threads u).role = .holding) :
    (s.threads u).loops = true := by
  unfold LoopPc.role at holding
  split at holding
  case h_7 loop at' =>
    rw [at']
    rfl
  all_goals cases holding

/-- With one thread that runs loops nobody is left waiting. -/
theorem single_looper {es : List (Entry LoopState LoopAction LoopEvent)} (run : Run loopMachine es s)
    {t : Nat} (only : Meets (fun _ action => ∀ u, action.looper? = some u → u = t) es) :
    Meets (fun s action => ¬ (s.mark action).Strands s.wake) es := by
  intro e member
  obtain ⟨past, rest, rfl⟩ := List.append_of_mem member
  obtain ⟨before, stepped⟩ := run.entry
  have alone (u : Nat) : (e.before.threads u).loops = true → u = t := by
    refine before.guarded (P := fun s => ∀ u, (s.threads u).loops = true → u = t) ?_ ?_
      (Meets.append.mp only).1 u
    · intro u loops
      cases loops
    · intro s action event next held mine stepped u loops
      rcases step_loops stepped loops with loops | starts
      · exact held u loops
      · exact mine u starts
  have blocked_here {u : Nat} (blocked : e.before.wake.role u = .blocked) : u = t := by
    apply alone
    rw [(blocked_iff _).mp blocked]
    rfl
  have holding_here {u : Nat} (holding : e.before.wake.role u = .holding) : u = t :=
    alone u (loops_of_holding holding)
  cases marked : e.before.mark e.action with
  | plain | dropped => exact id
  | took u =>
    rintro ⟨-, ⟨v, apart, blocked⟩, -⟩
    obtain ⟨loop, at'⟩ := waiting_of_took marked
    have mine : u = t := by
      apply alone
      rw [at']
      rfl
    exact apart ((blocked_here blocked).trans mine.symm)
  | skipped u =>
    rintro ⟨empty, -, ⟨v, apart, blocked⟩, nobody⟩
    have step := step_wake stepped
    rw [marked] at step
    obtain ⟨role, up⟩ := skipped_of_step step
    -- the flag is up, so somebody holds the token and that is the one who waits
    rcases (tally_run before).up up with token | ⟨w, counted⟩
    · have none : e.before.wake.count = 0 := empty
      omega
    · have other : w ≠ u := by
        rintro rfl
        rcases role with role | role <;> rw [role] at counted <;> cases counted
      cases at' : e.before.wake.role w with
      | holding =>
        have same : w = v := (holding_here at').trans (blocked_here blocked).symm
        rw [same, blocked] at at'
        cases at'
      | releasing =>
        have asleep := nobody w other
        rw [at'] at asleep
        cases asleep
      | _ =>
        rw [at'] at counted
        cases counted

end LoopState
/-- A gripper loop waits and is stopped. -/
def stoppedLoop : List LoopAction := List.flatten
  [[.gripperLoop 1 .mit true], goOn 1 5, [.begin 0 .stop], goOn 0 6, goOn 1 4]

def stoppedTrace : List (Entry LoopState LoopAction LoopEvent) × LoopState :=
  (exec loopMachine stoppedLoop [] loopMachine.init).get (by decide +kernel)

theorem stoppedTrace_only :
    stoppedTrace.1.all (fun e => e.action.looper?.all (· == 1)) = true := by
  decide +kernel

theorem wake_accounting_stopped : stoppedTrace.2.stopFlag = true ∧
    ∀ e ∈ stoppedTrace.1, ¬ e.after.Hung := by
  have run : Run loopMachine stoppedTrace.1 stoppedTrace.2 := exec_get _
  refine ⟨by decide +kernel, (wake_accounting run).2.2.mpr (single_looper run (t := 1) ?_)⟩
  intro e member u looper
  have only := List.all_eq_true.mp stoppedTrace_only e member
  simpa [looper] using only

/-- Two gripper loops wait; one takes the only token of `stop` and leaves. -/
def twoLoops : List LoopAction := List.flatten
  [[.gripperLoop 1 .mit true], goOn 1 5, [.gripperLoop 2 .mit true], goOn 2 5, [.begin 0 .stop],
    goOn 0 6, goOn 1 4]

def twoLoopsEnd : LoopState :=
  (follow loopMachine twoLoops loopMachine.init).get (by decide +kernel)

theorem twoLoopsEnd_asleep : ∀ t, (twoLoopsEnd.threads t).role.waking = false
  | 0 => rfl
  | 1 => rfl
  | 2 => rfl
  | _ + 3 => rfl

theorem wake_accounting_hung : ∃ es s, Run loopMachine es s ∧ s.Hung ∧
    s.threads 0 = .idle ∧ s.threads 1 = .idle ∧ s.threads 2 = .waiting .gripper := by
  have led : follow loopMachine twoLoops loopMachine.init = some twoLoopsEnd :=
    (Option.some_get _).symm
  obtain ⟨es, -, run⟩ := follow_run .nil led
  refine ⟨[] ++ es, twoLoopsEnd, run, ⟨rfl, rfl, ⟨2, rfl⟩, ?_⟩, rfl, rfl, rfl⟩
  intro t outstanding
  have waking := (waking_iff twoLoopsEnd t).mpr outstanding
  rw [twoLoopsEnd_asleep t] at waking
  cases waking

end Florid.Arm.Loops
