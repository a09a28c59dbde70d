import Florid.Arm.SessionInvariant

/-! Sessions are isolated: when a lifecycle call submits an RPC, no command of an earlier
session is on its way, and none follows. -/
namespace Florid.Arm
open Transition Wirelink DrainGate

theorem SessionMoves.rpc {s next : Sessions} {a : SessionAction} {call : Call}
    (moved : SessionMoves s a next (.rpc call)) : ∃ t, (s.threads t).phase = 4 := by
  generalize made : SessionEvent.rpc call = event at moved
  cases moved with
  | call at' => exact ⟨_, by rw [at']; rfl⟩
  | turn _ _ quiet => rcases quiet with rfl | rfl <;> cases made
  | _ => cases made

theorem SessionMoves.command {s next : Sessions} {a : SessionAction} {g : Nat}
    (moved : SessionMoves s a next (.command g)) : g = s.generation := by
  generalize made : SessionEvent.command g = event at moved
  cases moved with
  | accept =>
    cases made
    rfl
  | turn _ _ quiet => rcases quiet with rfl | rfl <;> cases made
  | _ => cases made

theorem SessionMoves.mpcCommand {s next : Sessions} {a : SessionAction} {k : Nat}
    (moved : SessionMoves s a next (.mpcCommand k)) : (s.workers k).alive = true := by
  generalize made : SessionEvent.mpcCommand k = event at moved
  cases moved with
  | workerSend at' =>
    cases made
    simp [MPCWorkers.alive, at']
  | turn _ _ quiet => rcases quiet with rfl | rfl <;> cases made
  | _ => cases made

/-- The sessions opened in `past`, `built` of them with MPC workers, are over. -/
structure Outdated (past : SessionTrace) (built : Nat) (s : Sessions) : Prop where
  generation : ∀ g, Issued past g → g < s.generation
  constructed : built ≤ s.constructed
  exited : ∀ k < built, (s.workers k).alive = false

namespace Outdated
variable {past mid : SessionTrace} {built : Nat} {s next : Sessions} {a : SessionAction}
  {event : SessionEvent}

theorem moves (old : Outdated past built s) (moved : SessionMoves s a next event)
    (bound : event.invalidates = true → s.generation + 1 < generationSpan) : Outdated past built next := by
  have generation := moved.generation_step bound
  refine ⟨?_, ?_, ?_⟩
  · intro g issued
    have := old.generation g issued
    omega
  · rcases moved.workers with ⟨-, same, -⟩ | ⟨-, -, -, -, -, more, -⟩
    · exact same ▸ old.constructed
    · have := old.constructed
      omega
  · intro k earlier
    obtain ⟨output, planner⟩ := SessionsInv.not_alive (old.exited k earlier)
    rcases moved.workers with ⟨-, -, kept⟩ | ⟨_, _, -, -, -, -, updated⟩
    · simp [MPCWorkers.alive, (kept k).1 output, (kept k).2 planner]
    · have apart : k ≠ s.constructed := by
        have := old.constructed
        omega
      rw [updated, Function.update_of_ne apart]
      exact old.exited k earlier

/-- A lifecycle call that submits an RPC has ended every session before it. -/
theorem start (inv : SessionsInv past s) {call : Call}
    (moved : SessionMoves s a next (.rpc call)) : Outdated past s.constructed s := by
  obtain ⟨t, joined⟩ := moved.rpc
  refine ⟨?_, le_refl _, ?_⟩
  · intro g issued
    have := inv.issued g issued
    have := inv.closing t (by omega) g issued
    omega
  · intro k _
    simp [MPCWorkers.alive, inv.output t (by omega) k, inv.planner t (by omega) k]

theorem of_run {e : Entry Sessions SessionAction SessionEvent} {call : Call}
    (run : Run sessionMachine (past ++ [e] ++ mid) s) (submitted : e.event = .rpc call)
    (few : invalidations (past ++ [e] ++ mid) + 1 < generationSpan)
    (met : Meets (fun s _ => s.gate.Uncrowded inflightSpan) (past ++ [e] ++ mid)) :
    Outdated past e.before.constructed s := by
  refine run.since (P := fun fs s => invalidations (past ++ [e] ++ fs) + 1 < generationSpan →
    Meets (fun s _ => s.gate.Uncrowded inflightSpan) (past ++ [e] ++ fs) →
    Outdated past e.before.constructed s) ?_ ?_ few met
  · intro s before few met
    obtain ⟨earlier, stepped, rfl⟩ := before.of_snoc
    rw [List.append_nil] at few met
    rw [invalidations_append] at few
    have inv := SessionsInv.of_run earlier (by omega) (Meets.append.mp met).1
    have moved := session_moves stepped
    rw [submitted] at moved
    exact (start inv moved).moves moved (by simp [SessionEvent.invalidates])
  · intro fs s a event next before ih stepped few met
    rw [← List.append_assoc] at few met
    obtain ⟨sofar, -⟩ := Meets.append.mp met
    rw [invalidations_append] at few
    refine (ih (by omega) sofar).moves (session_moves stepped) ?_
    intro invalidates
    have one : invalidations [⟨s, a, event, next⟩] = 1 := by simp [invalidations, invalidates]
    rw [(SessionsInv.of_run before (by omega) sofar).generation]
    omega

/-- What an ended session can still do: nothing that reaches the motors. -/
theorem silent (old : Outdated past built s) (stepped : s.step a = some (next, event)) :
    (∀ g, Issued past g → (∀ h, event = .command h → h ≠ g) ∧
      (∀ t, a = .send t g → event = .expired g) ∧
      (∀ t ok back, a = .advance t ok → s.threads t = .counted g back → event = .expired g) ∧
      ∀ t ok frame, a = .advance t ok → s.threads t = .clearing frame →
        frame.generation = g → next.running = s.running) ∧
    ∀ k < built, (s.workers k).alive = false ∧ event ≠ .mpcCommand k := by
  refine ⟨?_, ?_⟩
  · intro g issued
    have other : g ≠ s.generation := (old.generation g issued).ne
    refine ⟨?_, ?_, ?_, ?_⟩
    · rintro h rfl rfl
      exact other (session_moves stepped).command
    · rintro t rfl
      simp only [Sessions.step, if_neg other] at stepped
      split at stepped
      · split at stepped <;> cases stepped
        rfl
      · cases stepped
    · rintro t ok back rfl counted
      simp only [Sessions.step, Sessions.advance, counted, if_neg other] at stepped
      cases stepped
      rfl
    · rintro t ok frame rfl clearing rfl
      simp only [Sessions.step, Sessions.advance, clearing, if_neg other] at stepped
      cases stepped
      rfl
  · intro k earlier
    refine ⟨old.exited k earlier, ?_⟩
    rintro rfl
    have := (session_moves stepped).mpcCommand
    simp [old.exited k earlier] at this

end Outdated

/-- When a lifecycle call submits an RPC, no command of any session is being submitted and
the workers of every MPC session have exited. From then on handles and loops of the
earlier sessions only fail, their workers stay away, and the exit of their loops leaves
the running flag as it is. -/
theorem session_isolation {past rest : SessionTrace}
    {e : Entry Sessions SessionAction SessionEvent} {s : Sessions} {call : Call}
    (run : Run sessionMachine (past ++ e :: rest) s) (submitted : e.event = .rpc call)
    (few : invalidations (past ++ e :: rest) + 1 < generationSpan)
    (met : Meets (fun s _ => s.gate.Uncrowded inflightSpan) (past ++ e :: rest)) :
    (∀ t g back, e.before.threads t ≠ .inside g back) ∧
    (∀ k, (e.before.workers k).alive = false) ∧
    ∀ f ∈ rest,
      (∀ g, Issued past g → f.event ≠ .command g ∧
        (∀ t, f.action = .send t g → f.event = .expired g) ∧
        (∀ t ok back, f.action = .advance t ok → f.before.threads t = .counted g back →
          f.event = .expired g) ∧
        ∀ t ok frame, f.action = .advance t ok → f.before.threads t = .clearing frame →
          frame.generation = g → f.after.running = f.before.running) ∧
      ∀ k < e.before.constructed, (f.before.workers k).alive = false ∧ f.event ≠ .mpcCommand k := by
  obtain ⟨before, stepped⟩ := run.entry
  have moved := session_moves stepped
  rw [submitted] at moved
  obtain ⟨t, joined⟩ := moved.rpc
  have inv : SessionsInv past e.before := by
    rw [invalidations_append] at few
    exact SessionsInv.of_run before (by omega) (Meets.append.mp met).1
  refine ⟨?_, ?_, ?_⟩
  · intro u g back inside
    refine inv.drained t (by omega) u g ?_
    simp [Sessions.gate, inside, SessionPc.position]
  · intro k
    simp [MPCWorkers.alive, inv.output t (by omega) k, inv.planner t (by omega) k]
  · intro f member
    obtain ⟨mid, later, rfl⟩ := List.append_of_mem member
    have shape : past ++ e :: (mid ++ f :: later) = past ++ [e] ++ mid ++ f :: later := by simp
    rw [shape] at run few met
    obtain ⟨sofar, next⟩ := run.entry
    rw [invalidations_append] at few
    have old := Outdated.of_run sofar submitted (by omega) (Meets.append.mp met).1
    obtain ⟨tokens, sessions⟩ := old.silent next
    refine ⟨?_, sessions⟩
    intro g issued
    obtain ⟨commands, others⟩ := tokens g issued
    exact ⟨fun sent => commands g sent rfl, others⟩

/-- A thread that does not act stays where it is. -/
theorem SessionMoves.thread_frame {s next : Sessions} {a : SessionAction} {event : SessionEvent}
    (moved : SessionMoves s a next event) {t : Nat} (other : a.thread ≠ some t) :
    next.threads t = s.threads t := by
  cases moved with
  | stale | requestStop | cleared | workerSend | workerTurn | plannerExit => rfl
  | turn _ _ _ mine =>
    refine Function.update_of_ne ?_ _ _
    rintro rfl
    exact other mine
  | _ =>
    refine Function.update_of_ne ?_ _ _
    rintro rfl
    exact other rfl

/-- With fewer threads than the counter can tell apart the gate is never crowded. -/
theorem uncrowded_of_threads {es : SessionTrace} {s : Sessions} {n : Nat}
    (run : Run sessionMachine es s) (few : n < inflightSpan)
    (only : Meets (fun _ a => (a.thread.all fun t => decide (t < n)) = true) es) :
    Meets (fun s _ => s.gate.Uncrowded inflightSpan) es := by
  intro x member
  obtain ⟨past, rest, rfl⟩ := List.append_of_mem member
  have idle : ∀ t, n ≤ t → x.before.threads t = .idle := by
    refine run.entry.1.guarded (P := fun s => ∀ t, n ≤ t → s.threads t = .idle)
      (fun _ _ => rfl) ?_ (Meets.append.mp only).1
    intro s a event next before mine stepped t above
    have other : a.thread ≠ some t := by
      intro same
      simp only [same, Option.all_some, decide_eq_true_eq] at mine
      omega
    rw [(session_moves stepped).thread_frame other]
    exact before t above
  refine Gate.Uncrowded.of_bound few fun t above => ?_
  simp [Sessions.gate, idle t above, SessionPc.position, Position.counts]

def turns (t n : Nat) : List SessionAction := .replicate n (.advance t true)

/-- A session of thread 0 whose handle goes to thread 1. -/
def handleOpened : List SessionAction :=
  .begin 0 (.prepareControl .mit false false) :: turns 0 13

/-- Thread 1 sends a command, the arm is disabled, and thread 1 tries again. -/
def handleExpired : List SessionAction :=
  handleOpened ++ .send 1 2 :: turns 1 4 ++ .begin 0 (.setArmMode .damp) :: turns 0 8 ++
    [.send 1 2]

theorem handleExpired_runs :
    (exec sessionMachine handleExpired [] sessionMachine.init).isSome = true := by
  decide +kernel

theorem handleExpired_run : ∃ past e rest s call,
    Run sessionMachine (past ++ e :: rest) s ∧ e.event = .rpc call ∧ Issued past 2 ∧
    (∃ f ∈ rest, f.action = .send 1 2) ∧ invalidations (past ++ e :: rest) + 1 < generationSpan ∧
    Meets (fun _ a => (a.thread.all fun t => decide (t < 2)) = true) (past ++ e :: rest) :=
  ⟨_, _, _, _, _, (exec_get handleExpired_runs).at_index ⟨27, by decide +kernel⟩, rfl,
    ⟨_, List.getElem_mem (n := 13) (by decide +kernel), none, rfl⟩,
    ⟨_, List.getElem_mem (n := 0) (by decide +kernel), rfl⟩, by decide +kernel,
    Meets.of_all (by decide +kernel)⟩

theorem session_isolation_expired : ∃ past e rest s call,
    Run sessionMachine (past ++ e :: rest) s ∧ e.event = .rpc call ∧ Issued past 2 ∧
    (∃ f ∈ rest, f.action = .send 1 2 ∧ f.event = .expired 2) ∧
    ∀ t g back, e.before.threads t ≠ .inside g back := by
  obtain ⟨past, e, rest, s, call, run, submitted, issued, ⟨f, member, sent⟩, few, two⟩ :=
    handleExpired_run
  have met := uncrowded_of_threads run (by decide) two
  have isolated := session_isolation run submitted few met
  have expired := ((isolated.2.2 f member).1 2 issued).2.1 1 sent
  exact ⟨past, e, rest, s, call, run, submitted, issued, ⟨f, member, sent, expired⟩, isolated.1⟩

/-! ### When the words come round -/

/-- A stopped arm with the handle of the first session, under generation `g`. -/
def stoppedArm (g : Nat) : Sessions := { generation := g, stopFlag := true, handles := [2] }

/-- A lifecycle call on thread `t` up to its RPCs, with nobody counted and no MPC session. -/
theorem follow_stopControl {s : Sessions} {t : Nat} (op : Lifecycle) (idle : s.threads t = .idle)
    (free : s.mutex = none) (zero : s.inflight = 0) (none : s.mpc = none) :
    follow sessionMachine (.begin t op :: turns t 7) s = some { s with
      mutex := some t, stopFlag := true, running := false, draining := false
      generation := (s.generation + 1) % generationSpan
      threads := Function.update s.threads t (.calling op op.calls true) } := by
  simp only [follow, turns, List.replicate, sessionMachine, Sessions.step, Sessions.advance,
    Sessions.stopStep, Sessions.set, idle, free, zero, none, Function.update_self,
    Function.update_idem, if_true]

theorem follow_stop (g : Nat) :
    follow sessionMachine (.begin 0 .stop :: turns 0 8) (stoppedArm g) =
      some (stoppedArm ((g + 1) % generationSpan)) := by
  simp [turns, List.replicate, follow, sessionMachine, Sessions.step, Sessions.advance,
    Sessions.stopStep, Sessions.set, Sessions.unlock, stoppedArm, Lifecycle.calls,
    Lifecycle.starts]

/-- The session whose handle the second thread keeps, with `n` threads in its `send`. -/
def crowdedArm (n : Nat) : Sessions :=
  { generation := 2, inflight := n % inflightSpan, running := true, handles := [2]
    threads := fun t => if t < n then .inside 2 none else .idle }

theorem follow_enter (n : Nat) :
    follow sessionMachine (.send n 2 :: turns n 2) (crowdedArm n) = some (crowdedArm (n + 1)) := by
  have threads : Function.update (crowdedArm n).threads n (.inside 2 none) =
      (crowdedArm (n + 1)).threads := by
    funext t
    rcases Nat.lt_trichotomy t n with below | rfl | above
    · simp only [crowdedArm, Function.update_of_ne below.ne, if_pos below,
        if_pos (Nat.lt_succ_of_lt below)]
    · simp [crowdedArm]
    · simp only [crowdedArm, Function.update_of_ne above.ne', if_neg (Nat.not_lt_of_gt above),
        if_neg (Nat.not_lt_of_ge (Nat.succ_le_of_lt above))]
  have idle : (crowdedArm n).threads n = .idle := by simp [crowdedArm]
  have entered : follow sessionMachine (.send n 2 :: turns n 2) (crowdedArm n) =
      some { crowdedArm n with
        inflight := (n % inflightSpan + 1) % inflightSpan
        threads := Function.update (crowdedArm n).threads n (.inside 2 none) } := by
    have handle : 2 ∈ (crowdedArm n).handles := by simp [crowdedArm]
    have current : 2 = (crowdedArm n).generation := rfl
    simp only [follow, turns, List.replicate, sessionMachine, Sessions.step, Sessions.advance,
      Sessions.set, idle, handle, Function.update_self, Function.update_idem, ← current, if_true]
    rfl
  rw [entered, threads, Nat.mod_add_mod]
  rfl

/-- The first session, ended by `disable`. -/
def handleStopped : List SessionAction :=
  handleOpened ++ .begin 0 (.setArmMode .damp) :: turns 0 9

theorem handleStopped_runs :
    (exec sessionMachine handleStopped [] sessionMachine.init).isSome = true := by
  decide +kernel

theorem follow_handleOpened :
    follow sessionMachine handleOpened sessionMachine.init = some (crowdedArm 0) := by
  simp [handleOpened, turns, List.replicate, follow, sessionMachine, Sessions.step,
    Sessions.advance, Sessions.stopStep, Sessions.openStep, Sessions.set, Sessions.unlock,
    crowdedArm, Lifecycle.calls, Lifecycle.calls.modeCalls, Lifecycle.starts, generationSpan]

theorem follow_handleStopped :
    follow sessionMachine handleStopped sessionMachine.init = some (stoppedArm 3) := by
  simp [handleStopped, handleOpened, turns, List.replicate, follow, sessionMachine, Sessions.step,
    Sessions.advance, Sessions.stopStep, Sessions.openStep, Sessions.set, Sessions.unlock,
    stoppedArm, Lifecycle.calls, Lifecycle.calls.modeCalls, Lifecycle.starts, generationSpan]

theorem handleStopped_run : ∃ past e rest call,
    Run sessionMachine (past ++ e :: rest) (stoppedArm 3) ∧ e.event = .rpc call ∧
    Issued past 2 := by
  have run := (exec_get handleStopped_runs).at_index ⟨22, by decide +kernel⟩
  rw [exec_follow handleStopped_runs follow_handleStopped] at run
  exact ⟨_, _, _, _, run, rfl, _, List.getElem_mem (n := 13) (by decide +kernel), none, rfl⟩

/-- After 2^64 generations an old handle is current again. -/
theorem generation_returns : ∃ past e rest s call,
    Run sessionMachine (past ++ e :: rest) s ∧ e.event = .rpc call ∧ Issued past 2 ∧
    ∃ f ∈ rest, f.event = .command 2 := by
  obtain ⟨past, e, rest, call, run, submitted, issued⟩ := handleStopped_run
  have turn (n : Nat) : follow sessionMachine (.begin 0 .stop :: turns 0 8)
      (stoppedArm ((n + 3) % generationSpan)) =
        some (stoppedArm ((n + 1 + 3) % generationSpan)) := by
    rw [follow_stop, Nat.mod_add_mod, Nat.add_right_comm]
  obtain ⟨fs, cycled⟩ := follow_cycle turn run (generationSpan - 1)
  have back : (generationSpan - 1 + 3) % generationSpan = 2 := by decide
  rw [back] at cycled
  have entered : ∃ s next, follow sessionMachine [.send 0 2, .advance 0 true] (stoppedArm 2) =
      some s ∧ sessionMachine.step s (.advance 0 true) = some (next, .command 2) := ⟨_, _, rfl, rfl⟩
  obtain ⟨s, next, reached, stepped⟩ := entered
  obtain ⟨gs, -, counted⟩ := follow_run cycled reached
  have sent := Run.snoc counted stepped
  refine ⟨past, e, rest ++ fs ++ gs ++ [⟨s, .advance 0 true, .command 2, next⟩], next, call,
    by simpa using sent, submitted, issued, ⟨s, .advance 0 true, .command 2, next⟩, by simp, rfl⟩

theorem step_call {s : Sessions} {t : Nat} {op : Lifecycle} {call : Call} {rest : List Call}
    {ok : Bool} (at' : s.threads t = .calling op (call :: rest) ok) :
    ∃ next, sessionMachine.step s (.advance t true) = some (next, .rpc call) := by
  simp only [sessionMachine, Sessions.step, Sessions.advance, at']
  exact ⟨_, rfl⟩

/-- The count of 2^32 threads is that of none. -/
theorem count_returns : ∃ past e s call, Run sessionMachine (past ++ [e]) s ∧
    e.event = .rpc call ∧ e.before.threads 0 = .inside 2 none := by
  obtain ⟨es, -, opened⟩ := follow_run .nil follow_handleOpened
  obtain ⟨fs, crowded⟩ := follow_cycle follow_enter opened inflightSpan
  have zero : (crowdedArm inflightSpan).inflight = 0 := Nat.mod_self _
  have idle : (crowdedArm inflightSpan).threads inflightSpan = .idle := by simp [crowdedArm]
  obtain ⟨u, led, calling, inside⟩ : ∃ u,
      follow sessionMachine (.begin inflightSpan (.setArmMode .damp) :: turns inflightSpan 7)
        (crowdedArm inflightSpan) = some u ∧
      u.threads inflightSpan = .calling (.setArmMode .damp)
        [.setArmMode .damp defaultRpcTimeoutMs] true ∧
      u.threads 0 = .inside 2 none := by
    refine ⟨_, follow_stopControl (.setArmMode .damp) idle rfl zero rfl, ?_, ?_⟩
    · simp [Lifecycle.calls]
    · dsimp only
      rw [Function.update_of_ne (by decide)]
      simp [crowdedArm, inflightSpan]
  obtain ⟨gs, -, stopped⟩ := follow_run crowded led
  obtain ⟨next, stepped⟩ := step_call calling
  exact ⟨_, _, next, _, .snoc stopped stepped, rfl, inside⟩

/-- Both words come round: a command of an ended session is sent again, and a lifecycle
call goes on while a command is being submitted. -/
theorem session_isolation_broken :
    (∃ past e rest s call, Run sessionMachine (past ++ e :: rest) s ∧ e.event = .rpc call ∧
      Issued past 2 ∧ ∃ f ∈ rest, f.event = .command 2) ∧
    ∃ past e s call, Run sessionMachine (past ++ [e]) s ∧ e.event = .rpc call ∧
      e.before.threads 0 = .inside 2 none :=
  ⟨generation_returns, count_returns⟩

end Florid.Arm
