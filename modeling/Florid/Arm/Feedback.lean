import Florid.Latest
import Florid.Transition
import Mathlib.Logic.Function.Basic

/-! MPC feedback of `ArmImpl`. The owner publishes each arm status to three mailboxes, one after
the other. Any thread reads the public one under `m_snapshot_mutex`; `s_startMPC` hands the other
two to the workers of a new session. One session call at a time has `m_session_mutex`, and each
joins the workers of the session before.

Assumed of the endpoint: the generations of its snapshots strictly increase. -/
namespace Florid.Arm
open Transition

/-- The fields of a state that decide whether it is a new sample. -/
structure ArmState where
  seq : Nat := 0
  sourceTimestampUs : Nat := 0
  deriving DecidableEq

structure FciArmStatusSnapshot where
  state : ArmState := {}
  generation : Nat := 0

structure MPCMeasurement where
  state : ArmState := {}
  received : Int := 0
  connected : Bool := true
  generation : Nat := 0

/-- The workers that read feedback. -/
inductive Reader where
  | planner | output
  deriving DecidableEq

/-- The next publication of `s_onArmStatus`, and whether one before has failed. -/
inductive PublishPc where
  | idle
  | planner
  | output (failed : Bool)
  | everyone (failed : Bool)
  | report

/-- A worker's reader: its cache, and between the read and the checks the error of the read. -/
inductive ReaderPc where
  | off
  | ready (cache : MPCMeasurement)
  | checking (cache : MPCMeasurement) (error : Bool)

/-- Where the thread that has `m_session_mutex` stands. The two readers of a new session are
initialized in either order; the second worker may fail to start after the first has. -/
inductive StartPc where
  | idle
  | joining (starts : Bool)
  | preparing
  | seeding
  | retiring (seed : MPCMeasurement) (caches : Reader → Option MPCMeasurement)
  | spawning (cache : MPCMeasurement)
  | unwinding

structure Feedback where
  /-- `m_received_feedback`, of the owner. -/
  received : MPCMeasurement := {}
  publishPc : PublishPc := .idle
  /-- `m_planner_feedback` and `m_output_feedback`. -/
  mailbox : Reader → Latest MPCMeasurement := fun _ => {}
  publicFeedback : Latest MPCMeasurement := {}
  publicCache : MPCMeasurement := {}
  consumedStateGeneration : Nat := 0
  feedbackFailed : Bool := false
  startPc : StartPc := .idle
  /-- How many seeds have been taken. -/
  sessions : Nat := 0
  reader : Reader → ReaderPc := fun _ => .off

/-- `error`: the mailbox read fails. `ok`: the region does what it is there for. -/
inductive FeedbackAction where
  | status (s : FciArmStatusSnapshot) (now : Int)
  | publish (ok : Bool)
  | latestMeasurement (error : Bool)
  | takeLatestState (error : Bool)
  | lifecycle (starts : Bool)
  | session (ok : Bool)
  | retire (r : Reader) (error : Bool)
  | read (r : Reader) (error : Bool)
  | answer (r : Reader) (connected : Bool)
  | exit (r : Reader)

inductive FeedbackEvent where
  | quiet
  | threw
  | measured (m : MPCMeasurement)
  | taken (state : Option ArmState)
  | seeded (session : Nat) (seed : MPCMeasurement)
  | returned (session : Nat) (r : Reader) (m : MPCMeasurement)

namespace Feedback

/-- What `s_onArmStatus` makes of a snapshot. -/
def receive (m : MPCMeasurement) (s : FciArmStatusSnapshot) (now : Int) : MPCMeasurement :=
  { m with
    received := if m.generation = 0 ∨ (s.state.seq ≠ m.state.seq ∧
      s.state.sourceTimestampUs ≠ m.state.sourceTimestampUs) then now else m.received
    state := s.state
    generation := s.generation }

def post (f : Feedback) (r : Reader) (ok : Bool) : Feedback :=
  { f with
    mailbox := if ok then Function.update f.mailbox r ((f.mailbox r).publish f.received)
      else f.mailbox }

def postPublic (f : Feedback) (ok : Bool) : Feedback :=
  { f with
    publicFeedback := if ok then f.publicFeedback.publish f.received else f.publicFeedback }

/-- The read of the public mailbox. -/
def readPublic (f : Feedback) : Feedback :=
  { f with
    publicCache := f.publicFeedback.read f.publicCache
    publicFeedback := .drained }

def setReader (f : Feedback) (r : Reader) (pc : ReaderPc) : Feedback :=
  { f with reader := Function.update f.reader r pc }

def drain (f : Feedback) (r : Reader) : Feedback :=
  { f with mailbox := Function.update f.mailbox r .drained }

/-- The cache a new reader starts from. -/
def initialCache (f : Feedback) (seed : MPCMeasurement) (r : Reader) : MPCMeasurement :=
  match (f.mailbox r).unread with
  | some pending => if pending.generation > seed.generation then pending else seed
  | none => seed

def idleReaders (f : Feedback) : Bool :=
  match f.reader .planner, f.reader .output with
  | .off, .off => true
  | _, _ => false

def publishStep (f : Feedback) (ok : Bool) : Option Feedback :=
  match f.publishPc with
  | .idle => none
  | .planner => some { f.post .planner ok with publishPc := .output (!ok) }
  | .output failed => some { f.post .output ok with publishPc := .everyone (failed || !ok) }
  | .everyone failed =>
    some { f.postPublic ok with publishPc := if failed || !ok then .report else .idle }
  | .report => some { f with feedbackFailed := true, publishPc := .idle }

def startStep (f : Feedback) (ok : Bool) : Option (Feedback × FeedbackEvent) :=
  match f.startPc with
  | .idle => none
  | .joining starts =>
    if f.idleReaders then
      some ({ f with startPc := if starts then .preparing else .idle }, .quiet)
    else none
  | .preparing => some ({ f with startPc := if ok then .seeding else .idle }, .quiet)
  | .seeding =>
    if ok then
      let f := f.readPublic
      some ({ f with
        startPc := .retiring f.publicCache fun _ => none
        sessions := f.sessions + 1 }, .seeded (f.sessions + 1) f.publicCache)
    else some ({ f with startPc := .idle }, .threw)
  | .retiring _ caches =>
    match caches .planner, caches .output with
    | some planner, some output =>
      if ok then some ({ f.setReader .planner (.ready planner) with
        startPc := .spawning output }, .quiet)
      else some ({ f with startPc := .idle }, .threw)
    | _, _ => none
  | .spawning cache =>
    if ok then some ({ f.setReader .output (.ready cache) with startPc := .idle }, .quiet)
    else some ({ f with startPc := .unwinding }, .quiet)
  | .unwinding => if f.idleReaders then some ({ f with startPc := .idle }, .threw) else none

def step (f : Feedback) : FeedbackAction → Option (Feedback × FeedbackEvent)
  | .status s now =>
    match f.publishPc with
    | .idle =>
      if f.received.generation < s.generation then
        some ({ f with received := receive f.received s now, publishPc := .planner }, .quiet)
      else none
    | _ => none
  | .publish ok => f.publishStep ok |>.map (·, .quiet)
  | .latestMeasurement error =>
    if error then some (f, .threw) else some (f.readPublic, .measured f.readPublic.publicCache)
  | .takeLatestState error =>
    if error then some (f, .taken none)
    else
      let f := f.readPublic
      if f.publicCache.generation = 0 ∨
          f.publicCache.generation = f.consumedStateGeneration then some (f, .taken none)
      else some ({ f with consumedStateGeneration := f.publicCache.generation },
        .taken (some f.publicCache.state))
  | .lifecycle starts =>
    match f.startPc with
    | .idle => some ({ f with startPc := .joining starts }, .quiet)
    | _ => none
  | .session ok => f.startStep ok
  | .retire r error =>
    match f.startPc with
    | .retiring seed caches =>
      if (caches r).isSome then none
      else if error then some ({ f with startPc := .idle }, .threw)
      else some ({ f.drain r with
        startPc := .retiring seed (Function.update caches r (some (f.initialCache seed r))) },
        .quiet)
    | _ => none
  | .read r error =>
    match f.reader r with
    | .ready cache =>
      if error then some (f.setReader r (.checking cache true), .quiet)
      else some ((f.drain r).setReader r (.checking ((f.mailbox r).read cache) false), .quiet)
    | _ => none
  | .answer r connected =>
    match f.reader r with
    | .checking cache error =>
      if error || f.feedbackFailed then some (f.setReader r .off, .threw)
      else
        let cache := { cache with connected }
        some (f.setReader r (.ready cache), .returned f.sessions r cache)
    | _ => none
  | .exit r =>
    match f.reader r with
    | .ready _ => some (f.setReader r .off, .quiet)
    | _ => none

end Feedback

def feedbackMachine : Machine Feedback FeedbackAction FeedbackEvent := ⟨{}, Feedback.step⟩

abbrev FeedbackTrace := List (Entry Feedback FeedbackAction FeedbackEvent)

/-! ### Moves -/

def FeedbackEvent.plain : FeedbackEvent → Bool
  | .seeded .. | .returned .. => false
  | _ => true

/-- Whether a worker of the session can be running while a call stands here. -/
def StartPc.admits : StartPc → Reader → Bool
  | .preparing, _ | .seeding, _ | .retiring .., _ | .spawning _, .output => false
  | _, _ => true

theorem Feedback.idleReaders_off {f : Feedback} (idle : f.idleReaders = true) (r : Reader) :
    f.reader r = .off := by
  unfold idleReaders at idle
  split at idle
  · rename_i planner output
    cases r
    · exact planner
    · exact output
  · cases idle

/-- Every way a step can go. -/
inductive FeedbackMoves (f : Feedback) : FeedbackAction → Feedback → FeedbackEvent → Prop where
  | status {s now} : f.publishPc = .idle → f.received.generation < s.generation →
      FeedbackMoves f (.status s now)
        { f with received := Feedback.receive f.received s now, publishPc := .planner } .quiet
  | postedPlanner {ok} : f.publishPc = .planner →
      FeedbackMoves f (.publish ok) { f.post .planner ok with publishPc := .output (!ok) } .quiet
  | postedOutput {ok failed} : f.publishPc = .output failed →
      FeedbackMoves f (.publish ok)
        { f.post .output ok with publishPc := .everyone (failed || !ok) } .quiet
  | postedPublic {ok failed pc} : f.publishPc = .everyone failed → pc = .report ∨ pc = .idle →
      FeedbackMoves f (.publish ok) { f.postPublic ok with publishPc := pc } .quiet
  | reported {ok} : f.publishPc = .report →
      FeedbackMoves f (.publish ok) { f with feedbackFailed := true, publishPc := .idle } .quiet
  | missed {a event} : event.plain = true → FeedbackMoves f a f event
  | measured {a event} (consumed : Nat) : event.plain = true →
      FeedbackMoves f a { f.readPublic with consumedStateGeneration := consumed } event
  | advanced {a pc event} : event.plain = true →
      (∀ r, pc.admits r = false → f.startPc.admits r = false ∨ f.idleReaders = true) →
      (∀ seed caches, pc ≠ .retiring seed caches) → (∀ cache, pc ≠ .spawning cache) →
      FeedbackMoves f a { f with startPc := pc } event
  | seeded : f.startPc = .seeding →
      FeedbackMoves f (.session true)
        { f.readPublic with
          startPc := .retiring f.readPublic.publicCache fun _ => none
          sessions := f.sessions + 1 }
        (.seeded (f.sessions + 1) f.readPublic.publicCache)
  | retired {r seed caches} : f.startPc = .retiring seed caches → caches r = none →
      FeedbackMoves f (.retire r false)
        { f.drain r with
          startPc := .retiring seed (Function.update caches r (some (f.initialCache seed r))) }
        .quiet
  | planning {seed caches planner output} : f.startPc = .retiring seed caches →
      caches .planner = some planner → caches .output = some output →
      FeedbackMoves f (.session true)
        { f.setReader .planner (.ready planner) with startPc := .spawning output } .quiet
  | spawned {cache} : f.startPc = .spawning cache →
      FeedbackMoves f (.session true)
        { f.setReader .output (.ready cache) with startPc := .idle } .quiet
  | read {r cache} : f.reader r = .ready cache →
      FeedbackMoves f (.read r false)
        ((f.drain r).setReader r (.checking ((f.mailbox r).read cache) false)) .quiet
  | unread {r cache} : f.reader r = .ready cache →
      FeedbackMoves f (.read r true) (f.setReader r (.checking cache true)) .quiet
  | returned {r connected cache} : f.reader r = .checking cache false →
      FeedbackMoves f (.answer r connected)
        (f.setReader r (.ready { cache with connected }))
        (.returned f.sessions r { cache with connected })
  | left {a r event} : event.plain = true → FeedbackMoves f a (f.setReader r .off) event

variable {f next : Feedback} {a : FeedbackAction} {event : FeedbackEvent}

theorem start_moves {ok : Bool} (stepped : f.startStep ok = some (next, event)) :
    FeedbackMoves f (.session ok) next event := by
  unfold Feedback.startStep at stepped
  cases pc : f.startPc with
  | idle => simp [pc] at stepped
  | joining starts =>
    simp only [pc] at stepped
    split at stepped
    · rename_i idle
      simp only [Option.some.injEq, Prod.mk.injEq] at stepped
      obtain ⟨rfl, rfl⟩ := stepped
      exact .advanced rfl (fun _ _ => .inr idle) (by split <;> simp) (by split <;> simp)
    · cases stepped
  | preparing =>
    simp only [pc, Option.some.injEq, Prod.mk.injEq] at stepped
    obtain ⟨rfl, rfl⟩ := stepped
    exact .advanced rfl (fun _ _ => .inl (by rw [pc]; rfl)) (by split <;> simp) (by split <;> simp)
  | seeding =>
    simp only [pc] at stepped
    split at stepped
    · rename_i done
      simp only [Option.some.injEq, Prod.mk.injEq] at stepped
      obtain ⟨rfl, rfl⟩ := stepped
      subst done
      exact .seeded pc
    · simp only [Option.some.injEq, Prod.mk.injEq] at stepped
      obtain ⟨rfl, rfl⟩ := stepped
      exact .advanced rfl (fun _ _ => .inl (by rw [pc]; rfl)) (by simp) (by simp)
  | retiring seed caches =>
    simp only [pc] at stepped
    split at stepped
    · split at stepped
      · rename_i planner output done
        simp only [Option.some.injEq, Prod.mk.injEq] at stepped
        obtain ⟨rfl, rfl⟩ := stepped
        subst done
        exact .planning pc planner output
      · simp only [Option.some.injEq, Prod.mk.injEq] at stepped
        obtain ⟨rfl, rfl⟩ := stepped
        exact .advanced rfl (fun _ _ => .inl (by rw [pc]; rfl)) (by simp) (by simp)
    · cases stepped
  | spawning cache =>
    simp only [pc] at stepped
    split at stepped
    · rename_i done
      simp only [Option.some.injEq, Prod.mk.injEq] at stepped
      obtain ⟨rfl, rfl⟩ := stepped
      subst done
      exact .spawned pc
    · simp only [Option.some.injEq, Prod.mk.injEq] at stepped
      obtain ⟨rfl, rfl⟩ := stepped
      exact .advanced rfl (by simp [StartPc.admits]) (by simp) (by simp)
  | unwinding =>
    simp only [pc] at stepped
    split at stepped
    · rename_i idle
      simp only [Option.some.injEq, Prod.mk.injEq] at stepped
      obtain ⟨rfl, rfl⟩ := stepped
      exact .advanced rfl (fun _ _ => .inr idle) (by simp) (by simp)
    · cases stepped

theorem publish_moves {ok : Bool} (stepped : f.publishStep ok = some next) :
    FeedbackMoves f (.publish ok) next .quiet := by
  unfold Feedback.publishStep at stepped
  cases pc : f.publishPc <;> simp only [pc, Option.some.injEq, reduceCtorEq] at stepped <;>
    subst stepped
  case planner => exact .postedPlanner pc
  case output failed => exact .postedOutput pc
  case everyone failed => exact .postedPublic pc (by split <;> simp)
  case report => exact .reported pc

theorem feedback_moves (stepped : f.step a = some (next, event)) :
    FeedbackMoves f a next event := by
  cases a with
  | status s now =>
    simp only [Feedback.step] at stepped
    split at stepped
    · split at stepped
      · simp only [Option.some.injEq, Prod.mk.injEq] at stepped
        obtain ⟨rfl, rfl⟩ := stepped
        exact .status ‹_› ‹_›
      · cases stepped
    · cases stepped
  | publish ok =>
    simp only [Feedback.step, Option.map_eq_some_iff, Prod.mk.injEq] at stepped
    obtain ⟨_, posted, rfl, rfl⟩ := stepped
    exact publish_moves posted
  | latestMeasurement error =>
    simp only [Feedback.step] at stepped
    split at stepped <;> simp only [Option.some.injEq, Prod.mk.injEq] at stepped <;>
      obtain ⟨rfl, rfl⟩ := stepped
    · exact .missed rfl
    · exact .measured (f := f) f.consumedStateGeneration rfl
  | takeLatestState error =>
    simp only [Feedback.step] at stepped
    split at stepped
    · simp only [Option.some.injEq, Prod.mk.injEq] at stepped
      obtain ⟨rfl, rfl⟩ := stepped
      exact .missed rfl
    · split at stepped <;> simp only [Option.some.injEq, Prod.mk.injEq] at stepped <;>
        obtain ⟨rfl, rfl⟩ := stepped
      · exact .measured (f := f) f.consumedStateGeneration rfl
      · exact .measured _ rfl
  | lifecycle starts =>
    simp only [Feedback.step] at stepped
    split at stepped
    · simp only [Option.some.injEq, Prod.mk.injEq] at stepped
      obtain ⟨rfl, rfl⟩ := stepped
      exact .advanced rfl (by simp [StartPc.admits]) (by simp) (by simp)
    · cases stepped
  | session ok => exact start_moves stepped
  | retire r error =>
    simp only [Feedback.step] at stepped
    split at stepped
    · rename_i seed caches pc
      split at stepped
      · cases stepped
      · rename_i unset
        split at stepped <;> simp only [Option.some.injEq, Prod.mk.injEq] at stepped <;>
          obtain ⟨rfl, rfl⟩ := stepped
        · exact .advanced rfl (fun _ _ => .inl (by rw [pc]; rfl)) (by simp) (by simp)
        · rename_i clear
          simp only [Bool.not_eq_true] at clear
          subst clear
          exact .retired pc (by simpa using unset)
    · cases stepped
  | read r error =>
    simp only [Feedback.step] at stepped
    split at stepped
    · split at stepped <;> simp only [Option.some.injEq, Prod.mk.injEq] at stepped <;>
        obtain ⟨rfl, rfl⟩ := stepped
      · rename_i failed
        subst failed
        exact .unread ‹_›
      · rename_i clear
        simp only [Bool.not_eq_true] at clear
        subst clear
        exact .read ‹_›
    · cases stepped
  | answer r connected =>
    simp only [Feedback.step] at stepped
    split at stepped
    · rename_i checking
      split at stepped <;> simp only [Option.some.injEq, Prod.mk.injEq] at stepped <;>
        obtain ⟨rfl, rfl⟩ := stepped
      · exact .left rfl
      · rename_i clear
        simp only [Bool.or_eq_true, not_or, Bool.not_eq_true] at clear
        rw [clear.1] at checking
        exact .returned checking
    · cases stepped
  | exit r =>
    simp only [Feedback.step] at stepped
    split at stepped
    · simp only [Option.some.injEq, Prod.mk.injEq] at stepped
      obtain ⟨rfl, rfl⟩ := stepped
      exact .left rfl
    · cases stepped

end Florid.Arm
