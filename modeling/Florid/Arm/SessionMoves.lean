import Florid.Arm.Session

/-! The complete list of what a step of the control sessions can do, and the gate the
threads of `ControlGeneration` make up. -/
namespace Florid.Arm
open Transition Wirelink DrainGate

/-- The end of `send`: a handle returns, a loop goes on or leaves. -/
inductive SessionPc.Returned : Option Frame → SessionPc → Prop where
  | handle : Returned none .idle
  | again {frame} : Returned (some frame) (.loop frame)
  | left {frame} : Returned (some frame) (.exiting frame)

/-- A turn of the loop outside `send`. -/
inductive SessionPc.Turned (frame : Frame) : SessionPc → Prop where
  | loop : Turned frame (.loop frame)
  | polled : Turned frame (.polled frame)
  | exiting : Turned frame (.exiting frame)

/-- Steps of a worker from one position to the next. -/
inductive Worker.Turned : Worker → Worker → Prop where
  | again : Turned .sending .working
  | left : Turned .working .exited
  | failed : Turned .sending .exited

/-- The thread that acts; workers are not threads of the arm. -/
def SessionAction.thread : SessionAction → Option Nat
  | .begin t _ | .send t _ | .advance t _ | .poll t | .loopSend t | .loopWrite t | .loopAgain t
  | .loopLeave t => some t
  | _ => none

inductive SessionMoves (s : Sessions) : SessionAction → Sessions → SessionEvent → Prop where
  | begin {t op} : s.threads t = .idle → s.mutex = none →
      SessionMoves s (.begin t op)
        { s.set t (.stopping .raiseStop op) with mutex := some t } .quiet
  | stale {t g} : g ∈ s.handles → g ≠ s.generation → SessionMoves s (.send t g) s (.expired g)
  | send {t} : s.threads t = .idle → s.generation ∈ s.handles →
      SessionMoves s (.send t s.generation) (s.set t (.checked s.generation none)) .quiet
  | count {t ok g back} : s.threads t = .checked g back →
      SessionMoves s (.advance t ok)
        { s.set t (.counted g back) with inflight := (s.inflight + 1) % inflightSpan } .quiet
  | accept {t ok back} : s.threads t = .counted s.generation back →
      SessionMoves s (.advance t ok) (s.set t (.inside s.generation back)) (.command s.generation)
  | refuse {t ok g back} : s.threads t = .counted g back → g ≠ s.generation →
      SessionMoves s (.advance t ok) (s.set t (.leaving g back true)) (.expired g)
  | finish {t ok g back thrown} : s.threads t = .inside g back →
      SessionMoves s (.advance t ok) (s.set t (.leaving g back thrown)) .quiet
  | leave {t ok g back thrown pc} : s.threads t = .leaving g back thrown → pc.Returned back →
      SessionMoves s (.advance t ok)
        { s.set t pc with inflight := (s.inflight + inflightSpan - 1) % inflightSpan } .quiet
  | lock {t ok frame} : s.threads t = .exiting frame → s.mutex = none →
      SessionMoves s (.advance t ok) { s.set t (.clearing frame) with mutex := some t } .quiet
  | raiseStop {t ok op} : s.threads t = .stopping .raiseStop op →
      SessionMoves s (.advance t ok)
        { s.set t (.stopping .lowerRunning op) with stopFlag := true } .quiet
  | lowerRunning {t ok op} : s.threads t = .stopping .lowerRunning op →
      SessionMoves s (.advance t ok) { s.set t (.stopping .drain op) with running := false } .quiet
  | drain {t ok op} : s.threads t = .stopping .drain op →
      SessionMoves s (.advance t ok)
        { s.set t (.stopping .advance op) with draining := true } .quiet
  | invalidate {t ok op} : s.threads t = .stopping .advance op →
      SessionMoves s (.advance t ok)
        { s.set t (.stopping .await op) with generation := (s.generation + 1) % generationSpan }
        .invalidated
  | drained {t ok op} : s.threads t = .stopping .await op → s.inflight = 0 →
      SessionMoves s (.advance t ok) (s.set t (.stopping .undrain op)) .quiet
  | undrain {t ok op} : s.threads t = .stopping .undrain op →
      SessionMoves s (.advance t ok)
        { s.set t (.stopping .requestStop op) with draining := false } .quiet
  | noSession {t ok op} : s.threads t = .stopping .requestStop op → s.mpc = none →
      SessionMoves s (.advance t ok) (s.set t (.calling op op.calls true)) .quiet
  | haltSession {t ok op k} : s.threads t = .stopping .requestStop op → s.mpc = some k →
      SessionMoves s (.advance t ok) ((s.requestStop k).set t (.stopping .joinOutput op)) .quiet
  | joinOutput {t ok op k} : s.threads t = .stopping .joinOutput op → s.mpc = some k →
      (s.workers k).output = .exited →
      SessionMoves s (.advance t ok) (s.set t (.stopping .joinPlanner op)) .quiet
  | joinPlanner {t ok op k} : s.threads t = .stopping .joinPlanner op → s.mpc = some k →
      (s.workers k).plannerExited = true →
      SessionMoves s (.advance t ok) (s.set t (.calling op op.calls true)) .quiet
  | call {t ok op call rest succeeded calls result} :
      s.threads t = .calling op (call :: rest) succeeded →
      SessionMoves s (.advance t ok) (s.set t (.calling op calls result)) (.rpc call)
  | ready {t ok op} : s.threads t = .calling op [] true →
      SessionMoves s (.advance t ok) (s.set t (.lowerStop op)) .quiet
  | served {t ok op succeeded} : s.threads t = .calling op [] succeeded →
      SessionMoves s (.advance t ok) (s.unlock t .idle) .quiet
  | lowerStop {t ok op} : s.threads t = .lowerStop op →
      SessionMoves s (.advance t ok) { s.set t (.raiseRunning op) with stopFlag := false } .quiet
  | raiseRunning {t ok op} : s.threads t = .raiseRunning op →
      SessionMoves s (.advance t ok) { s.set t (.opening op) with running := true } .quiet
  | openHandle {t ok mode cached} : s.threads t = .opening (.prepareControl mode cached false) →
      SessionMoves s (.advance t ok)
        { s.unlock t .idle with handles := s.generation :: s.handles }
        (.opened s.generation none)
  | openLoop {t ok mode cached} : s.threads t = .opening (.prepareControl mode cached true) →
      SessionMoves s (.advance t ok) (s.unlock t (.loop ⟨s.generation, none⟩))
        (.opened s.generation none)
  | openMPC {t cached loop} : s.threads t = .opening (.startMPC cached loop) →
      SessionMoves s (.advance t true)
        { (s.unlock t (if loop then .loop ⟨s.generation, some s.constructed⟩ else .idle)).setWorkers
            s.constructed { stopRequested := false, output := .working, plannerExited := false } with
          mpc := some s.constructed, constructed := s.constructed + 1 }
        (.opened s.generation (some s.constructed))
  | openFailed {t cached loop} : s.threads t = .opening (.startMPC cached loop) →
      SessionMoves s (.advance t false) (s.unlock t .idle) .quiet
  | clear {t ok frame pc} : s.threads t = .clearing frame →
      (pc = .unlocking ∨ ∃ k, pc = .halting k) →
      SessionMoves s (.advance t ok)
        { s.set t pc with
          running := if frame.generation = s.generation then false else s.running } .quiet
  | haltLoop {t ok k} : s.threads t = .halting k →
      SessionMoves s (.advance t ok) ((s.requestStop k).set t (.joining k false)) .quiet
  | joinLoop {t ok k output pc} : s.threads t = .joining k output →
      (pc = .joining k true ∨ pc = .unlocking) →
      SessionMoves s (.advance t ok) (s.set t pc) .quiet
  | unlock {t ok} : s.threads t = .unlocking →
      SessionMoves s (.advance t ok) (s.unlock t .idle) .quiet
  | turn {a t frame pc event} : (s.threads t = .loop frame ∨ s.threads t = .polled frame) →
      pc.Turned frame → (event = .quiet ∨ event = .expired frame.generation) →
      a.thread = some t →
      SessionMoves s a (s.set t pc) event
  | loopSend {t frame} : s.threads t = .polled frame → frame.generation = s.generation →
      SessionMoves s (.loopSend t) (s.set t (.checked frame.generation (some frame))) .quiet
  | requestStop {k} : SessionMoves s (.requestStop k) (s.requestStop k) .quiet
  | cleared {k} : (s.workers k).output = .working → (s.workers k).stopRequested = false →
      SessionMoves s (.worker k .cleared) (s.setWorkers k { s.workers k with output := .cleared })
        .quiet
  | workerSend {k} : (s.workers k).output = .cleared →
      SessionMoves s (.worker k .sending) (s.setWorkers k { s.workers k with output := .sending })
        (.mpcCommand k)
  | workerTurn {k next} : (s.workers k).output.Turned next →
      SessionMoves s (.worker k next) (s.setWorkers k { s.workers k with output := next }) .quiet
  | plannerExit {k} :
      SessionMoves s (.plannerExit k) (s.setWorkers k { s.workers k with plannerExited := true })
        .quiet

namespace Sessions
variable {s next : Sessions} {event : SessionEvent} {t : Nat} {ok : Bool}

theorem stopStep_moves {op : Lifecycle} {stage : Stage} (at' : s.threads t = .stopping stage op)
    (stepped : s.stopStep t op stage = some (next, event)) :
    SessionMoves s (.advance t ok) next event := by
  cases stage <;> simp only [stopStep] at stepped
  case raiseStop => cases stepped; exact .raiseStop at'
  case lowerRunning => cases stepped; exact .lowerRunning at'
  case drain => cases stepped; exact .drain at'
  case advance => cases stepped; exact .invalidate at'
  case await =>
    split at stepped <;> cases stepped
    exact .drained at' ‹_›
  case undrain => cases stepped; exact .undrain at'
  case requestStop =>
    split at stepped <;> cases stepped
    · exact .noSession at' ‹_›
    · exact .haltSession at' ‹_›
  case joinOutput =>
    split at stepped
    · cases stepped
    · split at stepped <;> cases stepped
      exact .joinOutput at' ‹_› ‹_›
  case joinPlanner =>
    split at stepped
    · cases stepped
    · split at stepped <;> cases stepped
      exact .joinPlanner at' ‹_› ‹_›

theorem openStep_moves {op : Lifecycle} (at' : s.threads t = .opening op)
    (stepped : s.openStep t ok op = some (next, event)) :
    SessionMoves s (.advance t ok) next event := by
  cases op with
  | prepareControl mode cached loop =>
    simp only [openStep] at stepped
    cases loop <;> cases stepped
    · exact .openHandle at'
    · exact .openLoop at'
  | startMPC cached loop =>
    simp only [openStep] at stepped
    cases ok <;> cases stepped
    · exact .openFailed at'
    · exact .openMPC at'
  | _ => cases stepped

theorem advance_moves (stepped : s.advance t ok = some (next, event)) :
    SessionMoves s (.advance t ok) next event := by
  cases at' : s.threads t <;> simp only [advance, at'] at stepped
  case checked g back => cases stepped; exact .count at'
  case counted g back =>
    split at stepped <;> cases stepped
    · rename_i same
      subst same
      exact .accept at'
    · exact .refuse at' ‹_›
  case inside g back => cases stepped; exact .finish at'
  case leaving g back thrown =>
    cases stepped
    refine .leave at' ?_
    split
    · exact .handle
    · split
      · exact .left
      · exact .again
  case exiting frame =>
    split at stepped <;> cases stepped
    exact .lock at' ‹_›
  case stopping stage op => exact stopStep_moves at' stepped
  case calling op calls succeeded =>
    cases calls with
    | cons call rest => cases stepped; exact .call at'
    | nil =>
      dsimp only at stepped
      split at stepped <;> cases stepped
      · rename_i ready
        simp only [Bool.and_eq_true] at ready
        exact .ready (ready.1 ▸ at')
      · exact .served at'
  case lowerStop op => cases stepped; exact .lowerStop at'
  case raiseRunning op => cases stepped; exact .raiseRunning at'
  case opening op => exact openStep_moves at' stepped
  case clearing frame =>
    cases stepped
    refine .clear at' ?_
    cases frame.session with
    | none => exact .inl rfl
    | some k => exact .inr ⟨k, rfl⟩
  case halting k => cases stepped; exact .haltLoop at'
  case joining k output =>
    cases output <;> dsimp only at stepped <;> split at stepped <;> cases stepped
    · exact .joinLoop at' (.inl rfl)
    · exact .joinLoop at' (.inr rfl)
  case unlocking => cases stepped; exact .unlock at'
  all_goals cases stepped

theorem worker_moves {k : Nat} {turned : Worker}
    (stepped : s.workerStep k turned = some (next, event)) :
    SessionMoves s (.worker k turned) next event := by
  simp only [workerStep] at stepped
  split at stepped
  · split at stepped <;> cases stepped
    exact .cleared ‹_› (Bool.eq_false_of_not_eq_true ‹_›)
  · cases stepped
    exact .workerSend ‹_›
  · rename_i at'
    cases stepped
    exact .workerTurn (at' ▸ .again)
  · rename_i at'
    cases stepped
    exact .workerTurn (at' ▸ .left)
  · rename_i at'
    cases stepped
    exact .workerTurn (at' ▸ .failed)
  · cases stepped

end Sessions

theorem session_moves {s next : Sessions} {a : SessionAction} {event : SessionEvent}
    (stepped : s.step a = some (next, event)) : SessionMoves s a next event := by
  cases a with
  | begin t op =>
    simp only [Sessions.step] at stepped
    split at stepped <;> cases stepped
    exact .begin ‹_› ‹_›
  | send t g =>
    simp only [Sessions.step] at stepped
    split at stepped
    · split at stepped
      · rename_i idle held
        split at stepped <;> cases stepped
        · rename_i same
          subst same
          exact .send idle held
        · exact .stale held ‹_›
      · cases stepped
    · cases stepped
  | advance t ok => exact Sessions.advance_moves stepped
  | poll t =>
    simp only [Sessions.step] at stepped
    split at stepped <;> cases stepped
    refine .turn (.inl ‹_›) ?_ (.inl rfl) rfl
    split
    · exact .polled
    · exact .exiting
  | loopSend t =>
    simp only [Sessions.step] at stepped
    split at stepped
    · rename_i frame polled
      split at stepped
      · cases stepped
      · split at stepped
        · cases stepped
          exact .turn (.inr polled) .exiting (.inl rfl) rfl
        · split at stepped <;> cases stepped
          · exact .loopSend polled ‹_›
          · exact .turn (.inr polled) .exiting (.inr rfl) rfl
    · cases stepped
  | loopWrite t =>
    simp only [Sessions.step] at stepped
    split at stepped
    · split at stepped <;> cases stepped
      refine .turn (.inr ‹_›) ?_ (.inl rfl) rfl
      split
      · exact .loop
      · exact .exiting
    · cases stepped
  | loopAgain t =>
    simp only [Sessions.step] at stepped
    split at stepped <;> cases stepped
    exact .turn (.inr ‹_›) .loop (.inl rfl) rfl
  | loopLeave t =>
    simp only [Sessions.step] at stepped
    split at stepped <;> cases stepped
    exact .turn (.inr ‹_›) .exiting (.inl rfl) rfl
  | requestStop k => cases stepped; exact .requestStop
  | worker k turned => exact Sessions.worker_moves stepped
  | plannerExit k => cases stepped; exact .plannerExit

end Florid.Arm
