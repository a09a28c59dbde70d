import Florid.Arm.FeedbackOrder

/-! MPC feedback never goes back: within a session a reader is behind neither its seed nor its
own answers, and only new samples refresh the time of reception. -/
namespace Florid.Arm
open Transition

variable {f next : Feedback} {a : FeedbackAction} {event : FeedbackEvent}
  {es past rest : FeedbackTrace} {x : Entry Feedback FeedbackAction FeedbackEvent}

/-! ### Sessions -/

/-- What a reader of session `k` will answer is not behind `g`. -/
structure Floor (k : Nat) (r : Reader) (g : Nat) (f : Feedback) : Prop where
  session : k ≤ f.sessions
  held : f.sessions = k → ∀ m, f.Holds r m → g ≤ m.generation
  seed : f.sessions = k → ∀ seed caches, f.startPc = .retiring seed caches → caches r = none →
    g ≤ seed.generation

namespace Floor
variable {k g : Nat} {r : Reader}

/-- Steps in which caches are handed on, or replaced by newer ones. -/
theorem frame (floor : Floor k r g f) (sessions : next.sessions = f.sessions)
    (holds : ∀ m, next.Holds r m → ∃ m', f.Holds r m' ∧ m'.generation ≤ m.generation)
    (seed : ∀ seed caches, next.startPc = .retiring seed caches → caches r = none →
      ∃ caches', f.startPc = .retiring seed caches' ∧ caches' r = none) : Floor k r g next := by
  refine ⟨sessions ▸ floor.session, ?_, ?_⟩
  · intro same m held
    obtain ⟨m', before, le⟩ := holds m held
    exact (floor.held (sessions ▸ same) m' before).trans le
  · intro same s caches started clear
    obtain ⟨caches', before, clear'⟩ := seed s caches started clear
    exact floor.seed (sessions ▸ same) s caches' before clear'

/-- Steps of a worker. -/
theorem worker (floor : Floor k r g f) (r' : Reader) (pc : ReaderPc)
    (reader : ∀ i, next.reader i = if i = r' then pc else f.reader i)
    (startPc : next.startPc = f.startPc) (sessions : next.sessions = f.sessions)
    (given : ∀ m, pc.cache = some m → ∃ m', f.Holds r' m' ∧ m'.generation ≤ m.generation) :
    Floor k r g next := by
  refine floor.frame sessions ?_ ?_
  · intro m held
    rw [Feedback.Holds, reader, startPc] at held
    by_cases own : r = r'
    · subst own
      rw [if_pos rfl] at held
      rcases held with running | starting
      · exact given m running
      · exact ⟨m, .inr starting, le_rfl⟩
    · rw [if_neg own] at held
      exact ⟨m, held, le_rfl⟩
  · intro seed caches started clear
    exact ⟨caches, startPc ▸ started, clear⟩

theorem step (floor : Floor k r g f) (kept : Kept f) (moved : FeedbackMoves f a next event) :
    Floor k r g next := by
  cases moved with
  | status | postedPlanner | postedOutput | postedPublic | reported | missed | measured =>
    exact ⟨floor.session, floor.held, floor.seed⟩
  | advanced plain barred apart still =>
    rename_i pc
    refine floor.frame rfl ?_ ?_
    · intro m held
      exact ⟨m, held.advanced apart still, le_rfl⟩
    · intro seed caches started
      exact absurd started (apart seed caches)
  | seeded =>
    have passed : f.sessions + 1 ≠ k := by
      have := floor.session
      omega
    exact ⟨floor.session.trans (Nat.le_succ _), fun same => absurd same passed,
      fun same => absurd same passed⟩
  | retired at' clear =>
    rename_i r' seed caches
    have newer : seed.generation ≤ (f.initialCache seed r').generation := by
      unfold Feedback.initialCache
      split
      · split
        · exact Nat.le_of_lt ‹_›
        · exact le_rfl
      · exact le_rfl
    refine ⟨floor.session, ?_, ?_⟩
    · rintro same m (running | starting)
      · exact floor.held same m (.inl running)
      · have cached : Function.update caches r' (some (f.initialCache seed r')) r = some m :=
          starting
        by_cases own : r = r'
        · subst own
          rw [Function.update_self] at cached
          obtain rfl := Option.some.inj cached
          exact (floor.seed same seed caches at' clear).trans newer
        · rw [Function.update_of_ne own] at cached
          exact floor.held same m (.inr (by rw [at']; exact cached))
    · rintro same _ _ ⟨⟩ clear'
      by_cases own : r = r'
      · subst own
        rw [Function.update_self] at clear'
        cases clear'
      · rw [Function.update_of_ne own] at clear'
        exact floor.seed same seed caches at' clear'
  | planning at' planner output =>
    refine floor.frame rfl ?_ (by intro _ _ h; cases h)
    intro m held
    exact ⟨m, held.planning at' planner output, le_rfl⟩
  | spawned at' =>
    refine floor.frame rfl ?_ (by intro _ _ h; cases h)
    intro m held
    exact ⟨m, held.spawned at', le_rfl⟩
  | read at' =>
    rename_i r' cache
    refine floor.worker r' (.checking ((f.mailbox r').read cache) false) ?_ rfl rfl ?_
    · intro i
      by_cases own : i = r' <;> simp [Feedback.setReader, Feedback.drain, own]
    · rintro m ⟨⟩
      have holds : f.Holds r' cache := .inl (congrArg ReaderPc.cache at')
      exact ⟨cache, holds, (kept.held r' cache holds).le_read⟩
  | unread at' =>
    rename_i r' cache
    refine floor.worker r' (.checking cache true) ?_ rfl rfl ?_
    · intro i
      by_cases own : i = r' <;> simp [Feedback.setReader, own]
    · rintro m ⟨⟩
      exact ⟨cache, .inl (congrArg ReaderPc.cache at'), le_rfl⟩
  | returned at' =>
    rename_i r' connected cache
    refine floor.worker r' (.ready { cache with connected }) ?_ rfl rfl ?_
    · intro i
      by_cases own : i = r' <;> simp [Feedback.setReader, own]
    · rintro m ⟨⟩
      exact ⟨cache, .inl (congrArg ReaderPc.cache at'), le_rfl⟩
  | left =>
    rename_i r' _
    refine floor.worker r' .off ?_ rfl rfl ?_
    · intro i
      by_cases own : i = r' <;> simp [Feedback.setReader, own]
    · intro m cached
      cases cached

/-- What a reader returns is not behind. -/
theorem le_returned (floor : Floor k r g f) (moved : FeedbackMoves f a next event)
    {m : MPCMeasurement} (returned : event = .returned k r m) : g ≤ m.generation := by
  cases moved with
  | returned at' =>
    cases returned
    rename_i connected cache
    exact floor.held rfl cache (.inl (congrArg ReaderPc.cache at'))
  | missed plain | measured _ plain | advanced plain | left plain =>
    rw [returned] at plain
    cases plain
  | _ => cases returned

/-- From its seed on a session is not behind it. -/
theorem of_seeded (kept : Kept f) (moved : FeedbackMoves f a next event) {seed : MPCMeasurement}
    (seeded : event = .seeded k seed) : Floor k r seed.generation next := by
  cases moved with
  | seeded at' =>
    cases seeded
    refine ⟨le_rfl, ?_, ?_⟩
    · rintro - m (running | starting)
      · have off : f.reader r = .off := kept.joined r (by rw [at']; rfl)
        have stopped : (f.reader r).cache = some m := running
        rw [off] at stopped
        cases stopped
      · cases starting
    · rintro - _ _ ⟨⟩ -
      exact le_rfl
  | missed plain | measured _ plain | advanced plain | left plain =>
    rw [seeded] at plain
    cases plain
  | _ => cases seeded

/-- From an answer on its reader is not behind it. -/
theorem of_returned (kept : Kept f) (moved : FeedbackMoves f a next event) {m : MPCMeasurement}
    (returned : event = .returned k r m) : Floor k r m.generation next := by
  have after := kept.step moved
  cases moved with
  | returned at' =>
    cases returned
    rename_i connected cache
    have running : (f.setReader r (.ready { cache with connected })).reader r =
        .ready { cache with connected } := Function.update_self ..
    have alone := after.running (r := r) (by rw [running]; simp)
    refine ⟨le_rfl, ?_, ?_⟩
    · rintro - m' (own | starting)
      · rw [running] at own
        obtain rfl := Option.some.inj own
        exact le_rfl
      · rw [alone] at starting
        cases starting
    · intro _ seed caches started _
      have off := after.joined r (by rw [started]; rfl)
      rw [running] at off
      cases off
  | missed plain | measured _ plain | advanced plain | left plain =>
    rw [returned] at plain
    cases plain
  | _ => cases returned

theorem since (run : Run feedbackMachine ((past ++ [x]) ++ rest) f)
    (start : Floor k r g x.after) : Floor k r g f := by
  refine run.since (P := fun _ f => Floor k r g f) ?_ ?_
  · intro s reached
    obtain rfl := reached.of_snoc.2.2
    exact start
  · intro fs s a e t reached floor stepped
    exact floor.step (Kept.of_run reached) (feedback_moves stepped)

/-- Before the first seed there is no reader. -/
theorem unseeded (run : Run feedbackMachine es f) (r : Reader) (g : Nat) : Floor 0 r g f := by
  refine run.history (P := fun _ f => Floor 0 r g f) ?_ ?_
  · refine ⟨le_rfl, ?_, ?_⟩
    · rintro - m (running | starting)
      · cases running
      · cases starting
    · intro _ seed caches started
      cases started
  · intro es s a e t reached floor stepped
    exact floor.step (Kept.of_run reached) (feedback_moves stepped)

end Floor

theorem seeded_of_run (run : Run feedbackMachine es f) : f.sessions ≠ 0 →
    ∃ y ∈ es, ∃ seed, y.event = .seeded f.sessions seed := by
  refine run.history (P := fun es f => f.sessions ≠ 0 →
    ∃ y ∈ es, ∃ seed, y.event = .seeded f.sessions seed) ?_ ?_
  · intro some
    exact absurd rfl some
  · intro es s a e t reached ih stepped later
    have kept (same : t.sessions = s.sessions) : ∃ y ∈ es ++ [⟨s, a, e, t⟩], ∃ seed,
        y.event = .seeded t.sessions seed := by
      rw [same] at later ⊢
      obtain ⟨y, member, seeded⟩ := ih later
      exact ⟨y, List.mem_append_left _ member, seeded⟩
    cases feedback_moves stepped with
    | seeded => exact ⟨_, List.mem_append_right _ List.mem_cons_self, _, rfl⟩
    | _ => exact kept rfl

/-! ### Samples -/

def sampleOf (x : Entry Feedback FeedbackAction FeedbackEvent) : Option FciArmStatusSnapshot :=
  match x.action with
  | .status s _ => some s
  | _ => none

/-- The sample before the next one. -/
def lastSample (es : FeedbackTrace) : Option FciArmStatusSnapshot :=
  (es.filterMap sampleOf).getLast?

theorem lastSample_other (none : sampleOf x = none) : lastSample (es ++ [x]) = lastSample es := by
  simp [lastSample, none]

/-- The first sample, or one that differs from the last in both its sequence and its time. -/
def NewSample (es : FeedbackTrace) (s : FciArmStatusSnapshot) : Prop :=
  ∀ last, lastSample es = some last → s.state.seq ≠ last.state.seq ∧
    s.state.sourceTimestampUs ≠ last.state.sourceTimestampUs

def FeedbackAction.receives : FeedbackAction → MPCMeasurement → MPCMeasurement
  | .status s now, m => Feedback.receive m s now
  | _, m => m

theorem received_step (stepped : f.step a = some (next, event)) :
    next.received = a.receives f.received := by
  have moved := feedback_moves stepped
  cases a with
  | status s now =>
    simp only [Feedback.step] at stepped
    split at stepped
    · split at stepped
      · simp only [Option.some.injEq, Prod.mk.injEq] at stepped
        rw [← stepped.1]
        rfl
      · cases stepped
    · cases stepped
  | _ => cases moved <;> rfl

/-- What has been received is the last sample. -/
def Current (es : FeedbackTrace) (m : MPCMeasurement) : Prop :=
  match lastSample es with
  | none => m.generation = 0
  | some s => m.state = s.state ∧ m.generation ≠ 0

theorem current_of_run (run : Run feedbackMachine es f) : Current es f.received := by
  refine run.history (P := fun es f => Current es f.received)
    (show feedbackMachine.init.received.generation = 0 from rfl) ?_
  intro es s a e t reached held stepped
  have received := received_step stepped
  have newer : ∀ sample now, a = .status sample now → sample.generation ≠ 0 := by
    rintro sample now rfl
    simp only [feedbackMachine, Feedback.step] at stepped
    split at stepped
    · split at stepped
      · omega
      · cases stepped
    · cases stepped
  cases a with
  | status sample now =>
    have last : lastSample (es ++ [⟨s, .status sample now, e, t⟩]) = some sample := by
      simp [lastSample, sampleOf]
    rw [Current, last, received]
    exact ⟨rfl, newer sample now rfl⟩
  | _ =>
    rw [Current, lastSample_other rfl, received]
    exact held

/-- Exactly the new samples refresh the time of reception. -/
theorem refreshed (run : Run feedbackMachine past x.before)
    (stepped : x.before.step x.action = some (x.after, x.event)) :
    (∀ s now, x.action = .status s now → NewSample past s → x.after.received.received = now) ∧
    ((∀ s now, x.action = .status s now → ¬NewSample past s) →
      x.after.received.received = x.before.received.received) := by
  have received := received_step stepped
  have current := current_of_run run
  have first (s : FciArmStatusSnapshot) : (x.before.received.generation = 0 ∨
      s.state.seq ≠ x.before.received.state.seq ∧
        s.state.sourceTimestampUs ≠ x.before.received.state.sourceTimestampUs) ↔
      NewSample past s := by
    unfold Current at current
    unfold NewSample
    cases last : lastSample past with
    | none =>
      rw [last] at current
      simp [current]
    | some before =>
      rw [last] at current
      simp [current.1, current.2]
  constructor
  · intro s now action new
    rw [received, action]
    exact if_pos ((first s).mpr new)
  · intro old
    cases action : x.action with
    | status s now =>
      rw [received, action]
      exact if_neg fun new => old s now action ((first s).mp new)
    | _ =>
      rw [received, action]
      rfl

/-! ### Every run -/

/-- A reader of a session is behind neither its earlier answers nor the seed, which every session
has, and the time of reception is that of the last new sample. -/
theorem feedback_forward (run : Run feedbackMachine (past ++ x :: rest) f) :
    (∀ k r m, x.event = .returned k r m →
      (∃ y ∈ past, ∃ seed, y.event = .seeded k seed) ∧ ∀ y ∈ past,
        (∀ seed, y.event = .seeded k seed → seed.generation ≤ m.generation) ∧
        ∀ earlier, y.event = .returned k r earlier → earlier.generation ≤ m.generation) ∧
    (∀ s now, x.action = .status s now → NewSample past s → x.after.received.received = now) ∧
    ((∀ s now, x.action = .status s now → ¬NewSample past s) →
      x.after.received.received = x.before.received.received) := by
  obtain ⟨before, stepped⟩ := run.entry
  have moved := feedback_moves stepped
  refine ⟨?_, refreshed before stepped⟩
  intro k r m returned
  constructor
  · have session : k = x.before.sessions := by
      generalize x.action = act, x.event = e, x.after = after at moved returned
      cases moved with
      | returned =>
        cases returned
        rfl
      | missed plain | measured _ plain | advanced plain | left plain =>
        rw [returned] at plain
        cases plain
      | _ => cases returned
    subst session
    refine seeded_of_run before ?_
    intro none
    have beyond := (Floor.unseeded before r (m.generation + 1)).le_returned moved
      (returned.trans (by rw [none]))
    omega
  · intro y member
    obtain ⟨first, later, rfl⟩ := List.append_of_mem member
    obtain ⟨reached, stepped'⟩ := before.entry
    have moved' := feedback_moves stepped'
    have kept := Kept.of_run reached
    rw [show first ++ y :: later = (first ++ [y]) ++ later by simp] at before
    constructor
    · intro seed seeded
      exact (Floor.since before (.of_seeded kept moved' seeded)).le_returned moved returned
    · intro earlier answered
      exact (Floor.since before (.of_returned kept moved' answered)).le_returned moved returned

/-- One sample before the session starts, and a second one that only the planner's mailbox has. -/
def feedbackStarted : FeedbackTrace × Feedback :=
  (exec feedbackMachine
    (.status { state := { seq := 1, sourceTimestampUs := 10 }, generation := 1 } 100 ::
      .replicate 3 (.publish true) ++ .lifecycle true :: .replicate 3 (.session true) ++
      .retire .output false :: .retire .planner false :: .replicate 2 (.session true) ++
      [.status { state := { seq := 2, sourceTimestampUs := 20 }, generation := 2 } 200,
        .publish true, .read .planner false]) [] feedbackMachine.init).get (by decide +kernel)

theorem feedback_forward_started : ∃ past x m seed, Run feedbackMachine (past ++ [x]) x.after ∧
    x.event = .returned 1 .planner m ∧ m.generation = 2 ∧ seed.generation ≤ m.generation ∧
    ∃ y ∈ past, y.event = .seeded 1 seed := by
  have past : Run feedbackMachine feedbackStarted.1 feedbackStarted.2 := exec_get _
  have answered : (feedbackMachine.step feedbackStarted.2 (.answer .planner true)).map (fun next =>
      match next.2 with
      | .returned 1 .planner m => m.generation == 2
      | _ => false) = some true := by decide +kernel
  obtain ⟨⟨next, event⟩, stepped, shape⟩ := Option.map_eq_some_iff.mp answered
  have run := past.snoc stepped
  dsimp only at shape
  split at shape
  · rename_i m
    obtain ⟨⟨y, member, seed, seeded⟩, all⟩ := (feedback_forward run).1 1 .planner m rfl
    exact ⟨_, _, m, seed, run, rfl, by simpa using shape, (all y member).1 seed seeded, y, member,
      seeded⟩
  · cases shape

end Florid.Arm
