import Florid.Arm.Feedback
import Mathlib.Order.Nat

/-! Where the generations of MPC feedback stand. A seed comes from the mailbox that is published
last, so it is behind whatever the other two will still get; a new reader retires what waits for
it before its worker starts, and from then on the mailbox is ahead of its cache. -/
namespace Florid.Arm
open Transition

variable {f next : Feedback} {a : FeedbackAction} {event : FeedbackEvent} {es : FeedbackTrace}

/-- The publication of the received sample to a mailbox is still to come. -/
def PublishPc.owes : PublishPc → Option Reader → Bool
  | .planner, _ => true
  | .output _, r => r != some .planner
  | .everyone _, r => r == none
  | _, _ => false

namespace Feedback

/-- What has been published to a mailbox is not beyond this generation. -/
def bound (f : Feedback) (r : Option Reader) : Nat :=
  if f.publishPc.owes r then f.received.generation - 1 else f.received.generation

/-- The public mailbox is the last to get a sample. -/
theorem bound_le (f : Feedback) (r : Reader) : f.bound none ≤ f.bound (some r) := by
  have later : f.publishPc.owes (some r) = true → f.publishPc.owes none = true := by
    cases f.publishPc <;> simp [PublishPc.owes]
  unfold bound
  split <;> split
  · exact le_rfl
  · exact Nat.sub_le ..
  · rename_i early owed
    exact absurd (later owed) early
  · exact le_rfl

end Feedback

def ReaderPc.cache : ReaderPc → Option MPCMeasurement
  | .off => none
  | .ready cache | .checking cache _ => some cache

/-- The cache a call that starts a session has for a worker. -/
def StartPc.cache : StartPc → Reader → Option MPCMeasurement
  | .retiring _ caches, r => caches r
  | .spawning cache, .output => some cache
  | _, _ => none

/-- What the next answer of a reader starts from. -/
def Feedback.Holds (f : Feedback) (r : Reader) (m : MPCMeasurement) : Prop :=
  (f.reader r).cache = some m ∨ f.startPc.cache r = some m

namespace Feedback.Holds
variable {r : Reader} {m : MPCMeasurement}

theorem advanced {pc : StartPc} (apart : ∀ seed caches, pc ≠ .retiring seed caches)
    (still : ∀ cache, pc ≠ .spawning cache)
    (held : ({ f with startPc := pc } : Feedback).Holds r m) : f.Holds r m := by
  rcases held with running | starting
  · exact .inl running
  · cases pc with
    | retiring seed caches => exact absurd rfl (apart seed caches)
    | spawning cache => exact absurd rfl (still cache)
    | _ => cases starting

theorem planning {seed planner output : MPCMeasurement} {caches : Reader → Option MPCMeasurement}
    (at' : f.startPc = .retiring seed caches) (first : caches .planner = some planner)
    (second : caches .output = some output)
    (held : ({ f.setReader .planner (.ready planner) with
      startPc := .spawning output } : Feedback).Holds r m) : f.Holds r m := by
  cases r with
  | planner =>
    rcases held with running | starting
    · obtain rfl := Option.some.inj running
      exact .inr (by rw [at']; exact first)
    · cases starting
  | output =>
    rcases held with running | starting
    · exact .inl running
    · obtain rfl := Option.some.inj starting
      exact .inr (by rw [at']; exact second)

theorem spawned {cache : MPCMeasurement} (at' : f.startPc = .spawning cache)
    (held : ({ f.setReader .output (.ready cache) with startPc := .idle } : Feedback).Holds r m) :
    f.Holds r m := by
  cases r with
  | planner =>
    rcases held with running | starting
    · exact .inl running
    · cases starting
  | output =>
    rcases held with running | starting
    · obtain rfl := Option.some.inj running
      exact .inr (by rw [at']; rfl)
    · cases starting

end Feedback.Holds

abbrev Ordered := Latest.Ordered MPCMeasurement.generation

/-- The order of the generations in all the places where a measurement can be. -/
structure Kept (f : Feedback) : Prop where
  numbered : ∀ r, f.publishPc.owes r = true → 0 < f.received.generation
  everyone : Ordered f.publicCache.generation (f.bound none) f.publicFeedback
  held : ∀ r m, f.Holds r m → Ordered m.generation (f.bound (some r)) (f.mailbox r)
  unread : ∀ r v, (f.mailbox r).unread = some v → v.generation ≤ f.bound (some r)
  seed : ∀ seed caches, f.startPc = .retiring seed caches → seed.generation ≤ f.bound none
  joined : ∀ r, f.startPc.admits r = false → f.reader r = .off

theorem Feedback.bound_congr (received : next.received = f.received) {r : Option Reader}
    (owes : next.publishPc.owes r = f.publishPc.owes r) : next.bound r = f.bound r := by
  rw [bound, bound, received, owes]

namespace Kept

/-- A worker that runs has the only cache. -/
theorem running (kept : Kept f) {r : Reader} (runs : f.reader r ≠ .off) :
    f.startPc.cache r = none := by
  have admitted : f.startPc.admits r = true := by
    by_contra barred
    exact runs (kept.joined r (Bool.eq_false_iff.mpr barred))
  cases pc : f.startPc <;> rw [pc] at admitted <;> cases r <;>
    simp_all [StartPc.admits, StartPc.cache]

/-- Steps that leave the mailboxes of the workers alone. -/
theorem frame (kept : Kept f) (mailbox : next.mailbox = f.mailbox)
    (received : next.received = f.received)
    (owes : ∀ r, next.publishPc.owes r = f.publishPc.owes r)
    (everyone : Ordered next.publicCache.generation (f.bound none) next.publicFeedback)
    (holds : ∀ r m, next.Holds r m → ∃ m', f.Holds r m' ∧ m'.generation = m.generation)
    (seed : ∀ seed caches, next.startPc = .retiring seed caches → seed.generation ≤ f.bound none)
    (joined : ∀ r, next.startPc.admits r = false → next.reader r = .off) : Kept next := by
  have same (r : Option Reader) : next.bound r = f.bound r :=
    Feedback.bound_congr received (owes r)
  refine ⟨?_, by rwa [same], ?_, ?_, ?_, joined⟩
  · intro r owed
    rw [received]
    exact kept.numbered r (owes r ▸ owed)
  · intro r m held
    obtain ⟨m', before, generation⟩ := holds r m held
    rw [mailbox, same, ← generation]
    exact kept.held r m' before
  · intro r v waits
    rw [same]
    exact kept.unread r v (mailbox ▸ waits)
  · intro s caches at'
    rw [same]
    exact seed s caches at'

/-- A sample of a new generation: everything known is behind it. -/
theorem status (kept : Kept f) {s : FciArmStatusSnapshot} {now : Int} (idle : f.publishPc = .idle)
    (newer : f.received.generation < s.generation) :
    Kept { f with received := Feedback.receive f.received s now, publishPc := .planner } := by
  have up (r : Option Reader) : f.bound r ≤ s.generation - 1 := by
    unfold Feedback.bound
    rw [idle]
    simp only [PublishPc.owes, Bool.false_eq_true, if_false]
    omega
  refine ⟨?_, kept.everyone.mono (up none), ?_, ?_, ?_, kept.joined⟩
  · intro r _
    exact Nat.zero_lt_of_lt newer
  · intro r m held
    exact (kept.held r m held).mono (up _)
  · intro r v waits
    exact (kept.unread r v waits).trans (up _)
  · intro seed caches at'
    exact (kept.seed seed caches at').trans (up _)

/-- A publication raises one bound to the received sample. -/
theorem posted_bound {r : Option Reader} (kept : Kept f) (received : next.received = f.received)
    (owed : f.publishPc.owes r = true) (paid : next.publishPc.owes r = false) :
    next.bound r = f.received.generation ∧ f.bound r < f.received.generation := by
  have positive := kept.numbered _ owed
  rw [Feedback.bound, Feedback.bound, owed, paid, if_pos rfl, received]
  simp only [Bool.false_eq_true, if_false, true_and]
  omega

/-- A publication to the mailbox of a worker. -/
theorem post (kept : Kept f) {r : Reader} {ok : Bool} {pc : PublishPc}
    (is : next = { f.post r ok with publishPc := pc }) (owed : f.publishPc.owes (some r) = true)
    (paid : pc.owes (some r) = false)
    (others : ∀ r', r' ≠ some r → pc.owes r' = f.publishPc.owes r') : Kept next := by
  have received : next.received = f.received := by rw [is]; rfl
  have publishPc : next.publishPc = pc := by rw [is]
  have mailbox (r' : Reader) : next.mailbox r' =
      if ok = true ∧ r' = r then (f.mailbox r).publish f.received else f.mailbox r' := by
    rw [is]
    by_cases apart : r' = r <;> cases ok <;> simp [Feedback.post, apart]
  have holds {r' : Reader} {m : MPCMeasurement} (held : next.Holds r' m) : f.Holds r' m := by
    rw [is] at held
    exact held
  obtain ⟨after, newer⟩ := kept.posted_bound received owed (by rw [publishPc, paid])
  have same {r' : Option Reader} (apart : r' ≠ some r) : next.bound r' = f.bound r' :=
    Feedback.bound_congr received (by rw [publishPc, others r' apart])
  refine ⟨?_, ?_, ?_, ?_, ?_, by rw [is]; exact kept.joined⟩
  · intro _ _
    rw [received]
    exact kept.numbered _ owed
  · rw [same (by simp), is]
    exact kept.everyone
  · intro r' m held
    have ordered := kept.held r' m (holds held)
    rw [mailbox]
    by_cases apart : r' = r
    · subst apart
      rw [after]
      split
      · exact ordered.publish newer
      · exact ordered.mono newer.le
    · rw [same (by simpa using apart), if_neg fun both => apart both.2]
      exact ordered
  · intro r' v waits
    rw [mailbox] at waits
    by_cases apart : r' = r
    · subst apart
      rw [after]
      split at waits
      · obtain rfl := Option.some.inj waits
        exact le_rfl
      · exact (kept.unread _ v waits).trans newer.le
    · rw [if_neg fun both => apart both.2] at waits
      rw [same (by simpa using apart)]
      exact kept.unread r' v waits
  · intro seed caches started
    rw [same (by simp)]
    rw [is] at started
    exact kept.seed seed caches started

theorem postPublic (kept : Kept f) {ok failed : Bool} {pc : PublishPc}
    (is : next = { f.postPublic ok with publishPc := pc })
    (at' : f.publishPc = .everyone failed) (paid : ∀ r, pc.owes r = false) : Kept next := by
  have received : next.received = f.received := by rw [is]; rfl
  have publishPc : next.publishPc = pc := by rw [is]
  have owed : f.publishPc.owes none = true := by rw [at']; rfl
  obtain ⟨after, newer⟩ := kept.posted_bound received owed (by rw [publishPc, paid])
  have same (r : Reader) : next.bound (some r) = f.bound (some r) :=
    Feedback.bound_congr received (by rw [publishPc, paid, at']; rfl)
  refine ⟨?_, ?_, ?_, ?_, ?_, by rw [is]; exact kept.joined⟩
  · intro _ _
    rw [received]
    exact kept.numbered _ owed
  · rw [after, is]
    unfold Feedback.postPublic
    dsimp only
    split
    · exact kept.everyone.publish newer
    · exact kept.everyone.mono newer.le
  · intro r m held
    rw [same, is]
    rw [is] at held
    exact kept.held r m held
  · intro r v waits
    rw [same]
    rw [is] at waits
    exact kept.unread r v waits
  · intro seed caches started
    rw [after]
    rw [is] at started
    exact (kept.seed seed caches started).trans newer.le

/-- A new reader: its mailbox is empty and its cache is not behind the seed. -/
theorem retire (kept : Kept f) {r : Reader} {seed : MPCMeasurement}
    {caches : Reader → Option MPCMeasurement} (at' : f.startPc = .retiring seed caches)
    (is : next = { f.drain r with
      startPc := .retiring seed (Function.update caches r (some (f.initialCache seed r))) }) :
    Kept next := by
  have off (r' : Reader) : f.reader r' = .off := kept.joined r' (by rw [at']; rfl)
  have initial : (f.initialCache seed r).generation ≤ f.bound (some r) := by
    have behind := (kept.seed seed caches at').trans (f.bound_le r)
    unfold Feedback.initialCache
    split
    · rename_i pending waits
      split
      · exact kept.unread r pending waits
      · exact behind
    · exact behind
  have mailbox (r' : Reader) : next.mailbox r' = if r' = r then .drained else f.mailbox r' := by
    rw [is]
    by_cases apart : r' = r <;> simp [Feedback.drain, apart]
  have cache (r' : Reader) : next.startPc.cache r' =
      if r' = r then some (f.initialCache seed r) else f.startPc.cache r' := by
    rw [is, at']
    by_cases apart : r' = r <;> simp [StartPc.cache, apart]
  have same (r' : Option Reader) : next.bound r' = f.bound r' := by rw [is]; rfl
  refine ⟨by rw [is]; exact kept.numbered, by rw [is]; exact kept.everyone, ?_, ?_, ?_, ?_⟩
  · rintro r' m (running | starting)
    · have reader : next.reader = f.reader := by rw [is]; rfl
      rw [reader, off] at running
      cases running
    · rw [cache] at starting
      rw [mailbox, same]
      split at starting
      · rename_i own
        subst own
        obtain rfl := Option.some.inj starting
        rw [if_pos rfl]
        exact .start initial
      · rename_i apart
        rw [if_neg apart]
        exact kept.held r' m (.inr starting)
  · intro r' v waits
    rw [same]
    rw [mailbox] at waits
    split at waits
    · cases waits
    · exact kept.unread r' v waits
  · rw [is]
    rintro s cs ⟨⟩
    exact kept.seed seed caches at'
  · intro r' _
    rw [is]
    exact off r'

/-- A read of a worker. -/
theorem read (kept : Kept f) {r : Reader} {cache : MPCMeasurement}
    (at' : f.reader r = .ready cache)
    (is : next = (f.drain r).setReader r (.checking ((f.mailbox r).read cache) false)) :
    Kept next := by
  have runs : f.reader r ≠ .off := by
    rw [at']
    intro off
    cases off
  have ordered := kept.held r cache (.inl (by rw [at']; rfl))
  have mailbox (r' : Reader) : next.mailbox r' = if r' = r then .drained else f.mailbox r' := by
    rw [is]
    by_cases apart : r' = r <;> simp [Feedback.setReader, Feedback.drain, apart]
  have reader (r' : Reader) : next.reader r' =
      if r' = r then .checking ((f.mailbox r).read cache) false else f.reader r' := by
    rw [is]
    by_cases apart : r' = r <;> simp [Feedback.setReader, Feedback.drain, apart]
  have startPc : next.startPc = f.startPc := by rw [is]; rfl
  have same (r' : Option Reader) : next.bound r' = f.bound r' := by rw [is]; rfl
  refine ⟨by rw [is]; exact kept.numbered, by rw [is]; exact kept.everyone, ?_, ?_,
    by rw [is]; exact kept.seed, ?_⟩
  · intro r' m held
    rw [Feedback.Holds, reader, startPc] at held
    rw [mailbox, same]
    by_cases own : r' = r
    · subst own
      rw [if_pos rfl, kept.running runs] at held
      rcases held with running | starting
      · obtain rfl := Option.some.inj running
        rw [if_pos rfl]
        exact ordered.read
      · cases starting
    · rw [if_neg own] at held ⊢
      exact kept.held r' m held
  · intro r' v waits
    rw [same]
    rw [mailbox] at waits
    split at waits
    · cases waits
    · exact kept.unread r' v waits
  · intro r' barred
    rw [startPc] at barred
    rw [reader]
    split
    · rename_i own
      exact absurd (kept.joined r' barred) (own ▸ runs)
    · exact kept.joined r' barred

/-- Steps of a worker that hand its own cache on, or end it. -/
theorem worker (kept : Kept f) {r : Reader} {pc : ReaderPc} (is : next = f.setReader r pc)
    (given : ∀ m, pc.cache = some m → ∃ m', f.Holds r m' ∧ m'.generation = m.generation)
    (runs : pc ≠ .off → f.reader r ≠ .off) : Kept next := by
  have reader (r' : Reader) : next.reader r' = if r' = r then pc else f.reader r' := by
    rw [is]
    by_cases apart : r' = r <;> simp [Feedback.setReader, apart]
  have startPc : next.startPc = f.startPc := by rw [is]; rfl
  refine kept.frame (by rw [is]; rfl) (by rw [is]; rfl) (by rw [is]; exact fun _ => rfl)
    (by rw [is]; exact kept.everyone) ?_ (by rw [is]; exact kept.seed) ?_
  · intro r' m held
    rw [Feedback.Holds, reader, startPc] at held
    by_cases own : r' = r
    · subst own
      rw [if_pos rfl] at held
      rcases held with running | starting
      · exact given m running
      · exact ⟨m, .inr starting, rfl⟩
    · rw [if_neg own] at held
      exact ⟨m, held, rfl⟩
  · intro r' barred
    rw [startPc] at barred
    have off := kept.joined r' barred
    rw [reader]
    split
    · rename_i own
      by_contra on
      exact runs on (own ▸ off)
    · exact off

theorem step (kept : Kept f) (moved : FeedbackMoves f a next event) : Kept next := by
  cases moved with
  | status idle newer => exact kept.status idle newer
  | postedPlanner at' =>
    refine kept.post rfl (by rw [at']; rfl) rfl ?_
    intro r' apart
    rw [at']
    simpa [PublishPc.owes] using apart
  | postedOutput at' =>
    refine kept.post rfl (by rw [at']; rfl) rfl ?_
    intro r' apart
    rw [at']
    cases r' with
    | none => rfl
    | some r' => cases r' <;> simp_all [PublishPc.owes]
  | postedPublic at' after =>
    refine kept.postPublic rfl at' ?_
    intro r
    rcases after with rfl | rfl <;> rfl
  | reported at' =>
    refine kept.frame rfl rfl ?_ kept.everyone (fun r m held => ⟨m, held, rfl⟩) kept.seed
      kept.joined
    intro r
    rw [at']
    rfl
  | missed => exact kept
  | measured =>
    exact kept.frame rfl rfl (fun _ => rfl) kept.everyone.read (fun r m held => ⟨m, held, rfl⟩)
      kept.seed kept.joined
  | advanced plain barred apart still =>
    rename_i pc
    refine kept.frame rfl rfl (fun _ => rfl) kept.everyone ?_ ?_ ?_
    · intro r m held
      exact ⟨m, held.advanced apart still, rfl⟩
    · intro seed caches started
      exact absurd started (apart seed caches)
    · intro r refused
      rcases barred r refused with before | idle
      · exact kept.joined r before
      · exact Feedback.idleReaders_off idle r
  | seeded at' =>
    refine kept.frame rfl rfl (fun _ => rfl) kept.everyone.read ?_ ?_ ?_
    · rintro r m (running | starting)
      · exact ⟨m, .inl running, rfl⟩
      · cases starting
    · rintro seed caches ⟨⟩
      exact kept.everyone.read.1
    · intro r _
      exact kept.joined r (by rw [at']; rfl)
  | retired at' => exact kept.retire at' rfl
  | planning at' planner output =>
    refine kept.frame rfl rfl (fun _ => rfl) kept.everyone ?_ (by intro _ _ h; cases h) ?_
    · intro r m held
      exact ⟨m, held.planning at' planner output, rfl⟩
    · intro r barred
      cases r with
      | planner => cases barred
      | output => exact kept.joined .output (by rw [at']; rfl)
  | spawned at' =>
    refine kept.frame rfl rfl (fun _ => rfl) kept.everyone ?_ (by intro _ _ h; cases h) ?_
    · intro r m held
      exact ⟨m, held.spawned at', rfl⟩
    · intro r barred
      cases barred
  | read at' => exact kept.read at' rfl
  | unread at' =>
    refine kept.worker rfl ?_ (by rw [at']; simp)
    rintro m ⟨⟩
    exact ⟨_, .inl (congrArg ReaderPc.cache at'), rfl⟩
  | returned at' =>
    refine kept.worker rfl ?_ (by rw [at']; simp)
    rintro m ⟨⟩
    exact ⟨_, .inl (congrArg ReaderPc.cache at'), rfl⟩
  | left =>
    refine kept.worker rfl ?_ (by simp)
    intro m cached
    cases cached

theorem of_run (run : Run feedbackMachine es f) : Kept f := by
  refine run.invariant (P := Kept) ?_ ?_
  · refine ⟨?_, ?_, ?_, ?_, ?_, ?_⟩
    · intro r owed
      cases owed
    · exact .start (Nat.zero_le _)
    · rintro r m (running | starting)
      · cases running
      · cases starting
    · intro r v waits
      cases waits
    · intro seed caches started
      cases started
    · intro r barred
      cases barred
  · intro s a e t kept stepped
    exact kept.step (feedback_moves stepped)

end Kept

end Florid.Arm
