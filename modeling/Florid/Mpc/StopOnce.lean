import Florid.Mpc.LifecycleMoves

/-! Stopping an `MPCSession`: one reason, at most two tokens for a worker, nobody left asleep, no
send after a stop has returned, and no target accepted after the reason is set. -/
namespace Florid.Mpc
open Transition

/-! ### The releases -/

/-- Where the releases for the stop, and those for the first target, stand with a thread. -/
def Pc.stopping : Pc → Option Worker
  | .release w _ => some w
  | _ => none

def Pc.starting : Pc → Option Worker
  | .wake _ w => some w
  | _ => none

/-- Both semaphores are released in order, by one thread. -/
structure Relay (stage : Nat) (place : Thread → Option Worker) : Prop where
  turn : ∀ {t w}, place t = some w → stage = w.turn
  one : ∀ {t u}, (place t).isSome = true → (place u).isSome = true → t = u
  within : stage ≤ 3
  someone : 0 < stage → stage < 3 → ∃ t, (place t).isSome = true

/-- The place after a release. -/
def Worker.next : Worker → Option Worker
  | .planner => some .output
  | .output => none

namespace Relay
variable {stage : Nat} {place next : Thread → Option Worker}

theorem same (relay : Relay stage place) (same : ∀ t, next t = place t) : Relay stage next := by
  rwa [show next = place from funext same]

theorem nobody (relay : Relay 0 place) (t : Thread) : place t = none := by
  cases placed : place t with
  | none => rfl
  | some w =>
    have early := relay.turn placed
    cases w <;> simp [Worker.turn] at early

theorem start {t : Thread} (relay : Relay 0 place)
    (moved : ∀ u, next u = if u = t then some .planner else place u) : Relay 1 next where
  turn {u w} placed := by
    rw [moved] at placed
    split at placed
    · obtain rfl := Option.some.inj placed
      rfl
    · rw [relay.nobody u] at placed
      cases placed
  one {u v} first second := by
    have mine {u : Thread} (placed : (next u).isSome = true) : u = t := by
      by_contra other
      rw [moved, if_neg other, relay.nobody u] at placed
      cases placed
    rw [mine first, mine second]
  within := by omega
  someone _ _ := ⟨t, by simp [moved]⟩

theorem pass {t : Thread} {w : Worker} (relay : Relay stage place) (placed : place t = some w)
    (moved : ∀ u, next u = if u = t then w.next else place u) : Relay (w.turn + 1) next := by
  have others {u : Thread} (other : u ≠ t) : next u = none := by
    rw [moved, if_neg other]
    by_contra somewhere
    exact other (relay.one (Option.isSome_iff_ne_none.mpr somewhere) (by simp [placed]))
  have own : next t = w.next := by simp [moved]
  have mine {u : Thread} (somewhere : (next u).isSome = true) : u = t := by
    by_contra other
    rw [others other] at somewhere
    cases somewhere
  refine ⟨?_, fun first second => (mine first).trans (mine second).symm, ?_, ?_⟩
  · intro u v located
    obtain rfl := mine (by simp [located] : (next u).isSome = true)
    rw [own] at located
    cases w with
    | planner =>
      obtain rfl := Option.some.inj located
      rfl
    | output => cases located
  · cases w <;> simp [Worker.turn]
  · intro _ early
    cases w with
    | planner => exact ⟨t, by rw [own]; rfl⟩
    | output => simp [Worker.turn] at early

end Relay

/-! ### What holds between steps -/

def Pc.reasoned : Pc → Bool
  | .compare reason _ => reason.isSet
  | _ => true

/-- Owns the mutex of the writers. -/
def Pc.holds : Pc → Bool
  | .check _ | .publish _ | .load _ | .first _ | .wake _ _ | .unlock _ _ | .compare _ (.refuse _)
  | .release _ (.refuse _) => true
  | _ => false

/-- In a write that began with a stop reason set. -/
def Pc.late : Pc → Bool
  | .lock late | .check late | .publish late | .load late | .first late | .wake late _
  | .unlock late _ | .compare _ (.refuse late) | .release _ (.refuse late) => late
  | _ => false

/-- On the way of a write that publishes nothing. -/
def Pc.refusing : Pc → Bool
  | .lock _ | .check _ | .unlock _ true => true
  | _ => false

/-- Has joined the output worker. -/
def Pc.past : Pc → Bool
  | .join .planner | .joinUnlock => true
  | _ => false

def Pc.awake : Pc → Bool
  | .unborn | .ended => false
  | _ => true

/-- Has taken no token yet. -/
def Pc.untaken : Pc → Bool
  | .unborn | .resolution | .acquire => true
  | _ => false

def Construction.lacks : Construction → Worker → Bool
  | .planner, _ => true
  | .output, .output => true
  | _, _ => false

def Construction.settled : Construction → Bool
  | .done | .failed => true
  | _ => false

/-- A thread is created once, and nobody calls before the session stands. -/
structure Birth (construction : Construction) (pc : Thread → Pc) : Prop where
  unborn : ∀ w, construction.lacks w = true → pc (.worker w) = .unborn
  idle : construction.settled = false → ∀ n, pc (.caller n) = .idle

structure Stops (reason : MPCStopReason) (stage : Nat) (pc : Thread → Pc) : Prop where
  relay : Relay stage fun t => (pc t).stopping
  unset : stage = 0 ↔ reason.isSet = false

structure Starts (started : Bool) (stage : Nat) (pc : Thread → Pc) : Prop where
  relay : Relay stage fun t => (pc t).starting
  unset : stage = 0 ↔ started = false
  ahead : ∀ n late, pc (.caller n) = .first late → started = false

def Owned (mutex : Option Nat) (pc : Thread → Pc) : Prop :=
  ∀ n, (pc (.caller n)).holds = true ↔ mutex = some n

/-- The releases of a worker's semaphore in a relay that has come to a stage. -/
def Worker.passed (w : Worker) (stage : Nat) : Nat := if w.turn < stage then 1 else 0

/-- The releases done, and the tokens while a worker has taken none. -/
structure Tokens (s : Lifecycle) : Prop where
  tally : ∀ w, s.released w = w.passed s.stopStage + w.passed s.firstStage
  untaken : ∀ w, (s.pc (.worker w)).untaken = true → s.wake w = s.released w

def Refused (stopped : Bool) (pc : Thread → Pc) : Prop :=
  ∀ t, (pc t).late = true → stopped = true ∧ (pc t).refusing = true

structure Joined (s : Lifecycle) : Prop where
  awake : (s.pc (.worker .output)).awake = true → s.joinable .output = true
  past : ∀ n, (s.pc (.caller n)).past = true → s.joinable .output = false
  returned : s.returned = true → s.joinable .output = false ∧ s.construction.settled = true

structure Sound (s : Lifecycle) : Prop where
  birth : Birth s.construction s.pc
  reasoned : ∀ t, (s.pc t).reasoned = true
  stops : Stops s.stopReason s.stopStage s.pc
  owned : Owned s.writeMutex s.pc
  starts : Starts s.started s.firstStage s.pc
  tokens : Tokens s
  refused : Refused s.stopped s.pc
  joined : Joined s

namespace Lifecycle
variable {s t : Lifecycle} {e : LifecycleEvent} {thread : Thread} {a b : Pc}

/-- What a move of one thread leaves alone for everybody. -/
theorem move_class {α : Type} (f : Pc → α) (same : f b = f (s.pc thread)) (u : Thread) :
    f ((s.move thread b).pc u) = f (s.pc u) := by
  by_cases mine : u = thread
  · subst mine
    simpa [move] using same
  · simp [move, Function.update_of_ne mine]

theorem move_place {α : Type} (f : Pc → α) (u : Thread) :
    f ((s.move thread b).pc u) = if u = thread then f b else f (s.pc u) := by
  simp only [move, Function.update_apply]
  split <;> rfl

theorem busy_plain (busy : b.busy = true) : b.stopping = none ∧ b.starting = none ∧
    b.holds = false ∧ b.late = false ∧ b.past = false ∧ b.reasoned = true ∧ b.awake = true ∧
    b ≠ .unborn := by
  cases b with
  | compare reason back => cases back <;> simp_all [Pc.busy, Pc.stopping, Pc.starting, Pc.holds,
      Pc.late, Pc.past, Pc.reasoned, Pc.awake]
  | _ => simp_all [Pc.busy, Pc.stopping, Pc.starting, Pc.holds, Pc.late, Pc.past, Pc.reasoned,
      Pc.awake]

theorem Plain.same (plain : Plain s thread a b e) : b.stopping = a.stopping ∧
    b.starting = a.starting ∧ b.holds = a.holds := by
  cases plain with
  | work before after _ =>
    obtain ⟨stopping, starting, holds, -⟩ := busy_plain before
    obtain ⟨stopping', starting', holds', -⟩ := busy_plain after
    exact ⟨stopping'.trans stopping.symm, starting'.trans starting.symm, holds'.trans holds.symm⟩
  | sent after _ =>
    obtain ⟨stopping, starting, holds, -⟩ := busy_plain after
    exact ⟨stopping, starting, holds⟩
  | lost => rename_i back _; cases back <;> exact ⟨rfl, rfl, rfl⟩
  | joined => rename_i w _; cases w <;> exact ⟨rfl, rfl, rfl⟩
  | _ => exact ⟨rfl, rfl, rfl⟩

theorem Plain.born (plain : Plain s thread a b e) : a ≠ .unborn := by
  cases plain with
  | work before _ _ => exact (busy_plain before).2.2.2.2.2.2.2
  | _ => simp

theorem Plain.idle (plain : Plain s thread a b e) (idle : a = .idle) :
    s.construction = .done ∨ b = .idle := by
  cases plain with
  | write done => exact .inl done
  | stop done _ => exact .inl done
  | invalid => exact .inr rfl
  | work before _ _ =>
    subst idle
    cases before
  | _ => cases idle

theorem Plain.reasoned (plain : Plain s thread a b e) : b.reasoned = true := by
  cases plain with
  | stop _ set => exact set
  | unpublished => rfl
  | lost => rename_i back _; cases back <;> rfl
  | joined => rename_i w _; cases w <;> rfl
  | work _ after _ => exact (busy_plain after).2.2.2.2.2.1
  | sent after _ => exact (busy_plain after).2.2.2.2.2.1
  | _ => rfl

/-- A move of a thread that is not unborn, by a caller only if a session stands or it stays. -/
theorem birth_moved (birth : Birth s.construction s.pc) (born : s.pc thread ≠ .unborn)
    (idle : s.pc thread = .idle → s.construction.settled = true ∨ b = .idle) :
    Birth s.construction (s.move thread b).pc where
  unborn w lacks := by
    have before := birth.unborn w lacks
    have other : Thread.worker w ≠ thread := by
      rintro rfl
      exact born before
    simpa [move, Function.update_of_ne other] using before
  idle unsettled n := by
    have before := birth.idle unsettled n
    by_cases mine : Thread.caller n = thread
    · subst mine
      rcases idle before with settled | stays
      · rw [unsettled] at settled
        cases settled
      · simpa [move] using stays
    · simpa [move, Function.update_of_ne mine] using before

theorem Move.birth (move : Move s e t) (birth : Birth s.construction s.pc) :
    Birth t.construction t.pc := by
  -- a thread at a place of its own is neither unborn nor idle
  have moved {thread : Thread} {a b : Pc} (located : s.pc thread = a) (born : a ≠ .unborn)
      (busy : a ≠ .idle) : Birth s.construction (s.move thread b).pc :=
    birth_moved birth (by rwa [located]) fun idle => absurd (located.symm.trans idle) busy
  cases move with
  | plain located plain =>
    refine birth_moved birth (by rw [located]; exact plain.born) fun idle => ?_
    rcases plain.idle (located.symm.trans idle) with done | stays
    · exact .inl (by rw [done]; rfl)
    · exact .inr stays
  | take located _ _ _ =>
    rcases located with located | located
    · exact moved located (by simp) (by simp)
    · exact moved located (by simp) (by simp)
  | planner construction =>
    refine ⟨fun w lacks => ?_, fun _ n => ?_⟩
    · cases w with
      | planner => cases lacks
      | output => simpa [Lifecycle.move] using birth.unborn .output (by rw [construction]; rfl)
    · simpa [Lifecycle.move] using birth.idle (by rw [construction]; rfl) n
  | output construction =>
    refine ⟨fun _ lacks => ?_, fun unsettled => ?_⟩
    · cases lacks
    · cases unsettled
  | failed construction =>
    refine ⟨fun _ lacks => ?_, fun unsettled => ?_⟩
    · cases lacks
    · cases unsettled
  | lock located _ => exact moved located (by simp) (by simp)
  | first located => exact moved located (by simp) (by simp)
  | wake located => exact moved located (by simp) (by simp)
  | unlock located => exact moved located (by simp) (by simp)
  | win located _ => exact moved located (by simp) (by simp)
  | release located => exact moved located (by simp) (by simp)
  | joinLock located _ => exact moved located (by simp) (by simp)
  | join located _ => exact moved located (by simp) (by simp)
  | joinUnlock located => exact moved located (by simp) (by simp)

theorem Move.reasoned (move : Move s e t) (reasoned : ∀ thread, (s.pc thread).reasoned = true) :
    ∀ thread, (t.pc thread).reasoned = true := by
  have moved {thread : Thread} {b : Pc} (own : b.reasoned = true) :
      ∀ u, ((s.move thread b).pc u).reasoned = true :=
    (Function.forall_update_iff s.pc fun _ pc => pc.reasoned = true).mpr
      ⟨own, fun u _ => reasoned u⟩
  cases move with
  | plain _ plain => exact moved plain.reasoned
  | take _ _ busy _ => exact moved (busy_plain busy).2.2.2.2.2.1
  | wake => rename_i w _; cases w <;> exact moved rfl
  | release => rename_i w back _; cases w <;> cases back <;> exact moved rfl
  | join => rename_i w _ _; cases w <;> exact moved rfl
  | _ => exact moved rfl

theorem Move.stops (move : Move s e t) (birth : Birth s.construction s.pc)
    (reasoned : ∀ thread, (s.pc thread).reasoned = true)
    (stops : Stops s.stopReason s.stopStage s.pc) : Stops t.stopReason t.stopStage t.pc := by
  have same {thread : Thread} {a b : Pc} (located : s.pc thread = a)
      (same : b.stopping = a.stopping) : Stops s.stopReason s.stopStage (s.move thread b).pc :=
    ⟨stops.relay.same (move_class Pc.stopping (by rwa [located])), stops.unset⟩
  cases move with
  | plain located plain => exact same located plain.same.1
  | win located stopped =>
    rename_i thread reason back
    have set : reason.isSet = true := by simpa [located, Pc.reasoned] using reasoned thread
    have stage : s.stopStage = 0 := stops.unset.mpr stopped
    have relay := stops.relay
    rw [stage] at relay
    refine ⟨relay.start (t := thread) (move_place Pc.stopping), ?_⟩
    simp [set]
  | release located =>
    rename_i thread w back
    have stopped : s.stopReason.isSet = true := by
      have turn := stops.relay.turn (t := thread) (w := w) (by rw [located]; rfl)
      have unset := stops.unset
      cases w <;> simp_all [Worker.turn]
    refine ⟨stops.relay.pass (t := thread) (w := w) (by rw [located]; rfl) fun u => ?_, ?_⟩
    · rw [show w.next = (afterRelease back w).stopping by cases w <;> cases back <;> rfl]
      exact move_place Pc.stopping u
    · have set : (s.move thread (afterRelease back w)).stopReason.isSet = true := stopped
      simp [set, Lifecycle.release]
  | take located _ busy _ =>
    rcases located with located | located
    · exact same located (busy_plain busy).1
    · exact same located (busy_plain busy).1
  | wake located => rename_i w; cases w <;> exact same located rfl
  | join located _ => rename_i w _; cases w <;> exact same located rfl
  | planner construction => exact same (birth.unborn .planner (by rw [construction]; rfl)) rfl
  | output construction => exact same (birth.unborn .output (by rw [construction]; rfl)) rfl
  | failed construction => exact same (birth.idle (by rw [construction]; rfl) 0) rfl
  | lock located _ => exact same located rfl
  | first located => exact same located rfl
  | unlock located => exact same located rfl
  | joinLock located _ => exact same located rfl
  | joinUnlock located => exact same located rfl

theorem Move.owned (move : Move s e t) (birth : Birth s.construction s.pc)
    (owned : Owned s.writeMutex s.pc) : Owned t.writeMutex t.pc := by
  have same {thread : Thread} {a b : Pc} (located : s.pc thread = a) (same : b.holds = a.holds) :
      Owned s.writeMutex (s.move thread b).pc := by
    intro n
    rw [move_class Pc.holds (by rwa [located])]
    exact owned n
  cases move with
  | plain located plain => exact same located plain.same.2.2
  | lock located free =>
    rename_i n late
    intro m
    show ((s.move (.caller n) (.check late)).pc (.caller m)).holds = true ↔ some n = some m
    rw [move_place Pc.holds]
    split
    · rename_i mine
      cases mine
      simp [Pc.holds]
    · rename_i other
      rw [owned, free]
      simp only [Thread.caller.injEq, reduceCtorEq, Option.some.injEq, false_iff] at other ⊢
      exact fun same => other same.symm
  | unlock located =>
    rename_i n late threw
    have mutex : s.writeMutex = some n := (owned n).mp (by rw [located]; rfl)
    intro m
    show ((s.move (.caller n) .idle).pc (.caller m)).holds = true ↔ none = some m
    rw [move_place Pc.holds]
    split
    · simp [Pc.holds]
    · rename_i other
      rw [owned, mutex]
      simp only [Thread.caller.injEq, reduceCtorEq, Option.some.injEq, iff_false] at other ⊢
      exact fun same => other same.symm
  | take located _ busy _ =>
    rcases located with located | located
    · exact same located (busy_plain busy).2.2.1
    · exact same located (busy_plain busy).2.2.1
  | wake located => rename_i w; cases w <;> exact same located rfl
  | release located => rename_i w back; cases w <;> cases back <;> exact same located rfl
  | win located _ => rename_i back _; cases back <;> exact same located rfl
  | join located _ => rename_i w _; cases w <;> exact same located rfl
  | planner construction => exact same (birth.unborn .planner (by rw [construction]; rfl)) rfl
  | output construction => exact same (birth.unborn .output (by rw [construction]; rfl)) rfl
  | failed construction => exact same (birth.idle (by rw [construction]; rfl) 0) rfl
  | first located => exact same located rfl
  | joinLock located _ => exact same located rfl
  | joinUnlock located => exact same located rfl

theorem Plain.ahead (plain : Plain s thread a b e) {late : Bool} (first : b = .first late) :
    s.started = false := by
  cases plain with
  | unstarted unstarted => exact unstarted
  | lost => rename_i back _; cases back <;> cases first
  | joined => rename_i w _; cases w <;> cases first
  | work _ after _ =>
    subst first
    cases after
  | sent after _ =>
    subst first
    cases after
  | _ => cases first

theorem Move.starts (move : Move s e t) (birth : Birth s.construction s.pc)
    (owned : Owned s.writeMutex s.pc) (starts : Starts s.started s.firstStage s.pc) :
    Starts t.started t.firstStage t.pc := by
  have same {thread : Thread} {a b : Pc} (located : s.pc thread = a)
      (same : b.starting = a.starting) (ahead : ∀ late, b = .first late → s.started = false) :
      Starts s.started s.firstStage (s.move thread b).pc := by
    refine ⟨starts.relay.same (move_class Pc.starting (by rwa [located])), starts.unset, ?_⟩
    intro n late first
    by_cases mine : Thread.caller n = thread
    · subst mine
      exact ahead late (by simpa [Lifecycle.move] using first)
    · exact starts.ahead n late (by simpa [Lifecycle.move, Function.update_of_ne mine] using first)
  -- whoever owns the mutex is alone on the way to the first target
  have alone {n m : Nat} (holder : (s.pc (.caller n)).holds = true) {late : Bool}
      (first : s.pc (.caller m) = .first late) : m = n := by
    have one := (owned m).mp (by rw [first]; rfl)
    rw [(owned n).mp holder] at one
    exact (Option.some.inj one).symm
  cases move with
  | plain located plain =>
    exact same located plain.same.2.1 fun _ first => plain.ahead first
  | first located =>
    rename_i n late
    have unstarted := starts.ahead n late located
    have relay := starts.relay
    rw [starts.unset.mpr unstarted] at relay
    refine ⟨relay.start (t := .caller n) (move_place Pc.starting), by simp, ?_⟩
    intro m late' first
    have other : m ≠ n := by
      rintro rfl
      simp [Lifecycle.move] at first
    have before : s.pc (.caller m) = .first late' := by
      simpa [Lifecycle.move, other] using first
    exact absurd (alone (by rw [located]; rfl) before) other
  | wake located =>
    rename_i n late w
    have turn := starts.relay.turn (t := .caller n) (w := w) (by rw [located]; rfl)
    have started : s.started = true := by
      have unset := starts.unset
      cases w <;> simp_all [Worker.turn]
    refine ⟨starts.relay.pass (t := .caller n) (w := w) (by rw [located]; rfl) fun u => ?_, ?_, ?_⟩
    · rw [show w.next = (afterWake late w).starting by cases w <;> rfl]
      exact move_place Pc.starting u
    · simpa [Lifecycle.release, Lifecycle.move] using started
    · intro m late' first
      have other : m ≠ n := by
        rintro rfl
        cases w <;> simp [Lifecycle.release, Lifecycle.move, afterWake] at first
      have before : s.pc (.caller m) = .first late' := by
        simpa [Lifecycle.release, Lifecycle.move, other] using first
      exact absurd (alone (by rw [located]; rfl) before) other
  | take located _ busy _ =>
    rename_i w b _ _
    have calm (late : Bool) (first : b = .first late) : s.started = false := by
      subst first
      cases busy
    rcases located with located | located
    · exact same located (busy_plain busy).2.1 calm
    · exact same located (busy_plain busy).2.1 calm
  | release located =>
    rename_i w back
    cases w <;> cases back <;> exact same located rfl (by simp [afterRelease, Back.pc])
  | join located _ => rename_i w _; cases w <;> exact same located rfl (by simp [afterJoin])
  | planner construction =>
    exact same (birth.unborn .planner (by rw [construction]; rfl)) rfl (by simp)
  | output construction =>
    exact same (birth.unborn .output (by rw [construction]; rfl)) rfl (by simp)
  | failed construction => exact same (birth.idle (by rw [construction]; rfl) 0) rfl (by simp)
  | win located _ => exact same located rfl (by simp)
  | lock located _ => exact same located rfl (by simp)
  | unlock located => exact same located rfl (by simp)
  | joinLock located _ => exact same located rfl (by simp)
  | joinUnlock located => exact same located rfl (by simp)

theorem busy_untaken (busy : b.busy = true) (other : b ≠ .resolution) : b.untaken = false := by
  cases b with
  | resolution => exact absurd rfl other
  | _ => first | rfl | cases busy

theorem Plain.untaken (plain : Plain s thread a b e) (untaken : b.untaken = true) :
    a.untaken = true := by
  cases plain with
  | resolved => rfl
  | lost => rename_i back _; cases back <;> cases untaken
  | joined => rename_i w _; cases w <;> cases untaken
  | work _ after other =>
    rw [busy_untaken after other] at untaken
    cases untaken
  | sent after other =>
    rw [busy_untaken after other] at untaken
    cases untaken
  | _ => cases untaken

/-- A release counts for its worker only. -/
theorem passed_release (w v : Worker) :
    v.passed (w.turn + 1) = v.passed w.turn + if v = w then 1 else 0 := by
  cases w <;> cases v <;> rfl

theorem Move.tokens (move : Move s e t) (birth : Birth s.construction s.pc)
    (stops : Stops s.stopReason s.stopStage s.pc) (starts : Starts s.started s.firstStage s.pc)
    (tokens : Tokens s) : Tokens t := by
  have untaken {thread : Thread} {a b : Pc} (located : s.pc thread = a)
      (kept : b.untaken = true → a.untaken = true) (w : Worker)
      (untaken : ((s.move thread b).pc (.worker w)).untaken = true) : s.wake w = s.released w := by
    apply tokens.untaken
    rw [move_place Pc.untaken] at untaken
    split at untaken
    · rename_i mine
      rw [mine, located]
      exact kept untaken
    · exact untaken
  have gone (thread : Thread) (b : Pc) (taken : b.untaken = false) (w : Worker)
      (asleep : ((s.move thread b).pc (.worker w)).untaken = true) : s.wake w = s.released w := by
    refine untaken (b := b) rfl (fun untaken => ?_) w asleep
    rw [taken] at untaken
    cases untaken
  -- a release adds one token and counts once
  have counted {v w : Worker} {stage other : Nat} (turn : stage = w.turn)
      (tally : s.released v = v.passed stage + other) :
      Function.update s.released w (s.released w + 1) v = v.passed (w.turn + 1) + other := by
    rw [passed_release, Function.update_apply]
    rw [turn] at tally
    split
    · rename_i own
      subst own
      omega
    · omega
  have added {v w : Worker} (before : s.wake v = s.released v) :
      Function.update s.wake w (s.wake w + 1) v =
        Function.update s.released w (s.released w + 1) v := by
    rw [Function.update_apply, Function.update_apply]
    split
    · rename_i own
      subst own
      omega
    · exact before
  cases move with
  | plain located plain => exact ⟨tokens.tally, untaken located plain.untaken⟩
  | win located stopped =>
    rename_i thread reason back
    refine ⟨fun w => ?_, gone thread (.release .planner back) rfl⟩
    have tally := tokens.tally w
    rw [stops.unset.mpr stopped] at tally
    cases w <;> exact tally
  | first located =>
    rename_i n late
    refine ⟨fun w => ?_, gone (.caller n) (.wake late .planner) rfl⟩
    have tally := tokens.tally w
    rw [starts.unset.mpr (starts.ahead n late located)] at tally
    cases w <;> exact tally
  | release located =>
    rename_i thread w back
    have turn := stops.relay.turn (t := thread) (w := w) (by rw [located]; rfl)
    refine ⟨fun v => counted turn (tokens.tally v), fun v asleep => added ?_⟩
    exact gone thread (afterRelease back w) (by cases w <;> cases back <;> rfl) v asleep
  | wake located =>
    rename_i n late w
    have turn := starts.relay.turn (t := .caller n) (w := w) (by rw [located]; rfl)
    refine ⟨fun v => ?_, fun v asleep => added ?_⟩
    · have tally := counted turn ((tokens.tally v).trans (Nat.add_comm ..))
      exact tally.trans (Nat.add_comm ..)
    · exact gone (.caller n) (afterWake late w) (by cases w <;> rfl) v asleep
  | take located _ busy other =>
    rename_i w b _
    refine ⟨tokens.tally, fun v asleep => ?_⟩
    have apart : v ≠ w := by
      rintro rfl
      simp [Lifecycle.move, busy_untaken busy other] at asleep
    have before := tokens.untaken v (by simpa [Lifecycle.move, apart] using asleep)
    simpa [Lifecycle.move, apart] using before
  | planner construction =>
    exact ⟨tokens.tally, untaken (birth.unborn .planner (by rw [construction]; rfl)) fun _ => rfl⟩
  | output construction =>
    exact ⟨tokens.tally, untaken (birth.unborn .output (by rw [construction]; rfl)) fun _ => rfl⟩
  | failed => exact ⟨tokens.tally, gone (.caller 0) (.compare .stopped .join) rfl⟩
  | lock => rename_i n late _ _; exact ⟨tokens.tally, gone (.caller n) (.check late) rfl⟩
  | unlock => rename_i n _ _ _; exact ⟨tokens.tally, gone (.caller n) .idle rfl⟩
  | joinLock => rename_i n _ _; exact ⟨tokens.tally, gone (.caller n) (.join .output) rfl⟩
  | join =>
    rename_i n w _ _
    exact ⟨tokens.tally, gone (.caller n) (afterJoin w) (by cases w <;> rfl)⟩
  | joinUnlock => rename_i n _; exact ⟨tokens.tally, gone (.caller n) .idle rfl⟩

theorem Plain.refusing (plain : Plain s thread a b e)
    (before : a.late = true → s.stopped = true ∧ a.refusing = true) (late : b.late = true) :
    s.stopped = true ∧ b.refusing = true := by
  cases plain with
  | write => exact ⟨late, rfl⟩
  | refuse stopped => exact ⟨stopped, rfl⟩
  | accept running =>
    rw [(before late).1] at running
    cases running
  | lost stopped =>
    rename_i back
    cases back with
    | refuse => exact ⟨stopped, rfl⟩
    | _ => cases late
  | joined => rename_i w _; cases w <;> cases late
  | work _ after _ =>
    rw [(busy_plain after).2.2.2.1] at late
    cases late
  | sent after _ =>
    rw [(busy_plain after).2.2.2.1] at late
    cases late
  | published => exact absurd (before late).2 (by simp [Pc.refusing])
  | unpublished => exact absurd (before late).2 (by simp [Pc.refusing])
  | running => exact absurd (before late).2 (by simp [Pc.refusing])
  | unstarted => exact absurd (before late).2 (by simp [Pc.refusing])
  | _ => cases late

theorem Move.refused (move : Move s e t) (reasoned : ∀ thread, (s.pc thread).reasoned = true)
    (refused : Refused s.stopped s.pc) : Refused t.stopped t.pc := by
  have moved {thread : Thread} {stopped : Bool} {b : Pc}
      (own : b.late = true → stopped = true ∧ b.refusing = true)
      (kept : s.stopped = true → stopped = true) : Refused stopped (s.move thread b).pc :=
    (Function.forall_update_iff s.pc fun _ pc => pc.late = true → stopped = true ∧
      pc.refusing = true).mpr
      ⟨own, fun u _ late => ⟨kept (refused u late).1, (refused u late).2⟩⟩
  -- a late write is on its way to refuse
  have off {thread : Thread} {a : Pc} (located : s.pc thread = a) (admits : a.refusing = false) :
      a.late = false := by
    by_contra late
    have refusing := (refused thread (by rw [located]; simpa using late)).2
    rw [located, admits] at refusing
    cases refusing
  cases move with
  | plain located plain =>
    refine moved (plain.refusing fun late => ?_) id
    rw [← located] at late ⊢
    exact refused _ late
  | lock located _ =>
    refine moved (fun late => ?_) id
    exact ⟨(refused _ (by rw [located]; exact late)).1, rfl⟩
  | first located =>
    refine moved (fun late => ?_) id
    exact absurd ((off located rfl).symm.trans late) (by simp)
  | wake located =>
    refine moved (fun late => ?_) id
    rename_i n own w
    obtain rfl : own = false := off located rfl
    cases w <;> cases late
  | win located _ =>
    rename_i thread reason back _
    have set : reason.isSet = true := by simpa [located, Pc.reasoned] using reasoned thread
    refine moved (fun late => ?_) fun _ => set
    have same := off located (by rfl)
    cases back with
    | refuse => exact absurd (same.symm.trans late) (by simp)
    | _ => cases late
  | release located =>
    rename_i thread w back
    refine moved (fun late => ?_) id
    have same := off located (by rfl)
    cases back with
    | refuse => cases w <;> exact absurd (same.symm.trans late) (by simp)
    | _ => cases w <;> cases late
  | take _ _ busy _ =>
    refine moved (fun late => ?_) id
    rw [(busy_plain busy).2.2.2.1] at late
    cases late
  | join => rename_i w _ _; cases w <;> exact moved (fun late => by cases late) id
  | _ => exact moved (fun late => by cases late) id

theorem Plain.awake (plain : Plain s thread a b e) : a.awake = true := by
  cases plain with
  | work before _ _ => exact (busy_plain before).2.2.2.2.2.2.1
  | _ => rfl

theorem Plain.past (plain : Plain s thread a b e) (past : b.past = true) :
    a = .join .output ∧ s.joinable .output = false ∨ a.past = true := by
  cases plain with
  | lost => rename_i back _; cases back <;> cases past
  | joined unjoinable =>
    rename_i n w
    cases w with
    | planner => exact .inr rfl
    | output => exact .inl ⟨rfl, unjoinable⟩
  | work _ after _ =>
    rw [(busy_plain after).2.2.2.2.1] at past
    cases past
  | sent after _ =>
    rw [(busy_plain after).2.2.2.2.1] at past
    cases past
  | _ => cases past

theorem Move.joined (move : Move s e t) (birth : Birth s.construction s.pc) (joined : Joined s) :
    Joined t := by
  have awake {thread : Thread} {a : Pc} (b : Pc) (located : s.pc thread = a) (before : a.awake = true)
      (awake : ((s.move thread b).pc (.worker .output)).awake = true) :
      s.joinable .output = true := by
    apply joined.awake
    rw [move_place Pc.awake] at awake
    split at awake
    · rename_i mine
      rwa [mine, located]
    · exact awake
  have past (thread : Thread) (b : Pc)
      (own : ∀ n, thread = .caller n → b.past = true → s.joinable .output = false) (n : Nat)
      (past : ((s.move thread b).pc (.caller n)).past = true) : s.joinable .output = false := by
    rw [move_place Pc.past] at past
    split at past
    · rename_i mine
      exact own n mine.symm past
    · exact joined.past n past
  have before (thread : Thread) (b : Pc) (other : b.past = false) :
      ∀ n, ((s.move thread b).pc (.caller n)).past = true → s.joinable .output = false := by
    refine past thread b fun _ _ past => ?_
    rw [other] at past
    cases past
  cases move with
  | plain located plain =>
    rename_i thread a b
    refine ⟨awake b located plain.awake, past thread b ?_, joined.returned⟩
    rintro n rfl own
    rcases plain.past own with ⟨-, unjoinable⟩ | past
    · exact unjoinable
    · exact joined.past n (by rwa [located])
  | join located ended =>
    rename_i n w
    refine ⟨fun awake => ?_, fun m past => ?_, fun returned => ?_⟩
    · have other : w ≠ .output := by
        rintro rfl
        simp [Lifecycle.move, ended, Pc.awake] at awake
      have before := joined.awake (by simpa [Lifecycle.move] using awake)
      simpa [Ne.symm other] using before
    · cases w with
      | output => simp
      | planner => simpa using joined.past n (by rw [located]; rfl)
    · obtain ⟨unjoinable, settled⟩ := joined.returned returned
      refine ⟨?_, settled⟩
      cases w <;> simp [unjoinable]
  | joinUnlock located =>
    rename_i n
    refine ⟨awake .idle located rfl, before (.caller n) .idle rfl, fun _ => ⟨?_, ?_⟩⟩
    · exact joined.past n (by rw [located]; rfl)
    · by_contra unsettled
      have idle := birth.idle (by simpa [Lifecycle.move] using unsettled) n
      rw [located] at idle
      cases idle
  | planner construction =>
    refine ⟨fun awake => ?_, before (.worker .planner) .acquire rfl, fun returned => ?_⟩
    · have unborn := birth.unborn .output (by rw [construction]; rfl)
      simp [Lifecycle.move, unborn, Pc.awake] at awake
    · have settled := (joined.returned returned).2
      rw [construction] at settled
      cases settled
  | output construction =>
    refine ⟨fun _ => by simp, fun n past => ?_, fun returned => ?_⟩
    · have idle := birth.idle (by rw [construction]; rfl) n
      simp [Lifecycle.move, idle, Pc.past] at past
    · have settled := (joined.returned returned).2
      rw [construction] at settled
      cases settled
  | failed construction =>
    refine ⟨awake (.compare .stopped .join) (birth.idle (by rw [construction]; rfl) 0) rfl,
      before (.caller 0) (.compare .stopped .join) rfl, fun returned => ?_⟩
    exact ⟨(joined.returned returned).1, rfl⟩
  | take located _ busy _ =>
    rename_i w b _ _
    refine ⟨?_, before (.worker w) b (busy_plain busy).2.2.2.2.1, joined.returned⟩
    rcases located with located | located
    · exact awake b located rfl
    · exact awake b located rfl
  | win located _ =>
    rename_i thread _ back _
    exact ⟨awake (.release .planner back) located rfl,
      before thread (.release .planner back) rfl, joined.returned⟩
  | release located =>
    rename_i thread w back
    refine ⟨awake (afterRelease back w) located rfl, before thread (afterRelease back w) ?_,
      joined.returned⟩
    cases w <;> cases back <;> rfl
  | wake located =>
    rename_i n late w
    refine ⟨awake (afterWake late w) located rfl, before (.caller n) (afterWake late w) ?_,
      joined.returned⟩
    cases w <;> rfl
  | lock located _ =>
    rename_i n late _
    exact ⟨awake (.check late) located rfl, before (.caller n) (.check late) rfl, joined.returned⟩
  | first located =>
    rename_i n late
    exact ⟨awake (.wake late .planner) located rfl,
      before (.caller n) (.wake late .planner) rfl, joined.returned⟩
  | unlock located => exact ⟨awake .idle located rfl, before _ .idle rfl, joined.returned⟩
  | joinLock located _ => exact ⟨awake (.join .output) located rfl, before _ (.join .output) rfl, joined.returned⟩

theorem Move.sound (move : Move s e t) (sound : Sound s) : Sound t where
  birth := move.birth sound.birth
  reasoned := move.reasoned sound.reasoned
  stops := move.stops sound.birth sound.reasoned sound.stops
  owned := move.owned sound.birth sound.owned
  starts := move.starts sound.birth sound.owned sound.starts
  tokens := move.tokens sound.birth sound.stops sound.starts sound.tokens
  refused := move.refused sound.reasoned sound.refused
  joined := move.joined sound.birth sound.joined

theorem initial_sound : Sound {} where
  birth := ⟨fun _ _ => rfl, fun _ _ => rfl⟩
  reasoned thread := by cases thread <;> rfl
  stops := by
    refine ⟨⟨fun {thread _} placed => ?_, fun {thread _} placed => ?_, by simp, by simp⟩,
      by simp [MPCStopReason.isSet]⟩
    · cases thread <;> cases placed
    · cases thread <;> cases placed
  owned n := by simp [initialPc, Pc.holds]
  starts := by
    refine ⟨⟨fun {thread _} placed => ?_, fun {thread _} placed => ?_, by simp, by simp⟩,
      by simp, ?_⟩
    · cases thread <;> cases placed
    · cases thread <;> cases placed
    · intro n late first
      cases first
  tokens := ⟨fun w => by cases w <;> rfl, fun _ _ => rfl⟩
  refused thread late := by cases thread <;> cases late
  joined := by
    refine ⟨fun awake => ?_, fun n past => ?_, fun returned => ?_⟩
    · cases awake
    · cases past
    · cases returned

theorem sound {es : List (Entry Lifecycle LifecycleAction LifecycleEvent)}
    (run : Run lifecycle es s) : Sound s := by
  refine run.invariant initial_sound ?_
  intro s a e t sound stepped
  exact (step_move stepped).sound sound

/-- A stop reason stays. -/
theorem Move.keeps_reason (move : Move s e t) (stopped : s.stopped = true) :
    t.stopReason = s.stopReason := by
  cases move with
  | win _ running =>
    rw [stopped] at running
    cases running
  | _ => rfl

theorem Move.keeps_returned (move : Move s e t) (returned : s.returned = true) :
    t.returned = true := by
  cases move with
  | joinUnlock => rfl
  | _ => exact returned

theorem Move.stopReturned (move : Move s .stopReturned t) : t.returned = true := by
  generalize same : LifecycleEvent.stopReturned = event at move
  cases move with
  | joinUnlock => rfl
  | plain _ plain => subst same; cases plain
  | unlock => split at same <;> cases same
  | _ => cases same

/-- A send comes from the output worker. -/
theorem Move.sent (move : Move s .sent t) : s.pc (.worker .output) = .act := by
  generalize same : LifecycleEvent.sent = event at move
  cases move with
  | plain located plain =>
    subst same
    cases plain
    exact located
  | unlock => split at same <;> cases same
  | _ => cases same

theorem silent (sound : Sound s) (returned : s.returned = true) :
    s.pc (.worker .output) ≠ .act := by
  intro act
  have joinable := sound.joined.awake (by rw [act]; rfl)
  rw [(sound.joined.returned returned).1] at joinable
  cases joinable

/-- A late write publishes nothing and does not return. -/
theorem Move.not_late (move : Move s e t) (refused : Refused s.stopped s.pc) :
    e ≠ .published true ∧ e ≠ .wrote true := by
  cases move with
  | plain located plain =>
    cases plain with
    | published =>
      rename_i n late
      refine ⟨?_, by simp⟩
      rintro same
      cases same
      exact absurd (refused _ (by rw [located]; rfl)).2 (by rw [located]; simp [Pc.refusing])
    | _ => exact ⟨by simp, by simp⟩
  | unlock located =>
    rename_i n late threw
    cases threw with
    | true => exact ⟨by simp, by simp⟩
    | false =>
      refine ⟨by simp, ?_⟩
      rintro same
      cases same
      exact absurd (refused _ (by rw [located]; rfl)).2 (by rw [located]; simp [Pc.refusing])
  | _ => exact ⟨by simp, by simp⟩

/-! ### Refusals come -/

/-- The steps to the end of the section that the writers' mutex protects. -/
def distance : Pc → Nat
  | .check _ => 7
  | .publish _ => 6
  | .load _ => 5
  | .first _ | .compare _ _ => 4
  | .wake _ .planner | .release .planner _ => 3
  | .wake _ .output | .release .output _ => 2
  | .unlock _ _ => 1
  | _ => 0

/-- The owner of the mutex can go on, and comes closer to its release. -/
theorem owner_step {n : Nat} (holds : (s.pc (.caller n)).holds = true) :
    ∃ next e, s.step (.caller n .ok) = some (next, e) ∧
      (∀ u, u ≠ .caller n → next.pc u = s.pc u) ∧
      (next.writeMutex = none ∨ (next.pc (.caller n)).holds = true ∧
        distance (next.pc (.caller n)) < distance (s.pc (.caller n))) := by
  have leads {a b : Pc} {next : Lifecycle} {e : LifecycleEvent}
      (stepped : s.step (.caller n .ok) = some (next, e))
      (moved : next.pc = (s.move (.caller n) b).pc)
      (nearer : next.writeMutex = none ∨ b.holds = true ∧ distance b < distance a) :
      ∃ next e, s.step (.caller n .ok) = some (next, e) ∧
        (∀ u, u ≠ .caller n → next.pc u = s.pc u) ∧
        (next.writeMutex = none ∨ (next.pc (.caller n)).holds = true ∧
          distance (next.pc (.caller n)) < distance a) := by
    refine ⟨next, e, stepped, fun u other => ?_, ?_⟩
    · simp [moved, move, Function.update_of_ne other]
    · simpa [moved, move] using nearer
  cases located : s.pc (.caller n) with
  | check late =>
    refine leads (congrArg (s.callerStep n .ok) located) rfl (.inr ?_)
    split <;> simp [Pc.holds, distance]
  | publish late =>
    refine leads (congrArg (s.callerStep n .ok) located) rfl (.inr ?_)
    simp [Pc.holds, distance]
  | load late =>
    refine leads (congrArg (s.callerStep n .ok) located) rfl (.inr ?_)
    split <;> simp [Pc.holds, distance]
  | first late =>
    refine leads (b := .wake late .planner) (congrArg (s.callerStep n .ok) located) rfl
      (.inr ?_)
    simp [Pc.holds, distance]
  | wake late w =>
    refine leads (b := afterWake late w) (congrArg (s.callerStep n .ok) located) rfl
      (.inr ?_)
    cases w <;> simp [afterWake, Pc.holds, distance]
  | unlock late threw =>
    exact leads (b := .idle) (congrArg (s.callerStep n .ok) located) rfl (.inl rfl)
  | compare reason back =>
    cases back with
    | refuse late =>
      refine leads (b := if s.stopped then .unlock late true else .release .planner (.refuse late))
        (congrArg (s.callerStep n .ok) located) ?_ (.inr ?_)
      · split <;> rfl
      · split <;> simp [Pc.holds, distance]
    | _ => simp [located, Pc.holds] at holds
  | release w back =>
    cases back with
    | refuse late =>
      refine leads (b := afterRelease (.refuse late) w)
        (congrArg (s.callerStep n .ok) located) rfl (.inr ?_)
      cases w <;> simp [afterRelease, Back.pc, Pc.holds, distance]
    | _ => simp [located, Pc.holds] at holds
  | _ => simp [located, Pc.holds] at holds

/-- The owner of the mutex gives it back by steps of its own. -/
theorem frees {es : List (Entry Lifecycle LifecycleAction LifecycleEvent)} {n : Nat}
    (run : Run lifecycle es s) (holds : (s.pc (.caller n)).holds = true) :
    ∃ fs next, Run lifecycle (es ++ fs) next ∧ (∀ f ∈ fs, f.action = .caller n .ok) ∧
      next.writeMutex = none ∧ ∀ u, u ≠ .caller n → next.pc u = s.pc u := by
  generalize far : distance (s.pc (.caller n)) = steps
  induction steps using Nat.strong_induction_on generalizing es s with
  | _ steps ih =>
    obtain ⟨next, e, stepped, others, free | ⟨still, nearer⟩⟩ := owner_step holds
    · exact ⟨[⟨s, .caller n .ok, e, next⟩], next, .snoc run stepped, by simp, free, others⟩
    · have on : Run lifecycle (es ++ [⟨s, .caller n .ok, e, next⟩]) next := .snoc run stepped
      obtain ⟨fs, last, run', own, free, others'⟩ := ih _ (far ▸ nearer) on still rfl
      refine ⟨⟨s, .caller n .ok, e, next⟩ :: fs, last, by simpa using run', ?_, free, ?_⟩
      · simpa using own
      · exact fun u other => (others' u other).trans (others u other)

theorem step_caller {n : Nat} {outcome : Outcome} :
    lifecycle.step s (.caller n outcome) = s.callerStep n outcome (s.pc (.caller n)) := rfl

/-- A write that began with a stop reason set can be taken to its refusal by steps of callers. -/
theorem late_throws {es : List (Entry Lifecycle LifecycleAction LifecycleEvent)} {n : Nat}
    (run : Run lifecycle es s) (late : (s.pc (.caller n)).late = true) :
    ∃ fs next, Run lifecycle (es ++ fs) next ∧ (∀ f ∈ fs, ∃ m, f.action = .caller m .ok) ∧
      ∃ f ∈ fs, f.action = .caller n .ok ∧ f.event = .threw true := by
  -- from the check on, the way out is the writer's own
  have out {es} {s : Lifecycle} (run : Run lifecycle es s)
      (located : s.pc (.caller n) = .unlock true true) :
      ∃ f next, Run lifecycle (es ++ [f]) next ∧ f.action = .caller n .ok ∧
        f.event = .threw true := by
    have stepped : lifecycle.step s (.caller n .ok) =
        some ({ s.move (.caller n) .idle with writeMutex := none }, .threw true) := by
      rw [step_caller, located]
      rfl
    exact ⟨_, _, .snoc run stepped, rfl, rfl⟩
  have refuses {es} {s : Lifecycle} (run : Run lifecycle es s)
      (located : s.pc (.caller n) = .check true) :
      ∃ e f next, Run lifecycle (es ++ [e, f]) next ∧ e.action = .caller n .ok ∧
        f.action = .caller n .ok ∧ f.event = .threw true := by
    have stopped := ((sound run).refused (.caller n) (by rw [located]; rfl)).1
    have stepped : lifecycle.step s (.caller n .ok) =
        some (s.move (.caller n) (.unlock true true), .quiet) := by
      rw [step_caller, located]
      simp only [callerStep, stopped, if_true]
    obtain ⟨f, next, run', own, threw⟩ := out (.snoc run stepped) (by simp [move])
    exact ⟨_, f, next, by simpa using run', rfl, own, threw⟩
  have enters {es} {s : Lifecycle} (run : Run lifecycle es s)
      (located : s.pc (.caller n) = .lock true) (free : s.writeMutex = none) :
      ∃ d e f next, Run lifecycle (es ++ [d, e, f]) next ∧ d.action = .caller n .ok ∧
        e.action = .caller n .ok ∧ f.action = .caller n .ok ∧ f.event = .threw true := by
    have stepped : lifecycle.step s (.caller n .ok) =
        some ({ s.move (.caller n) (.check true) with writeMutex := some n }, .quiet) := by
      rw [step_caller, located]
      simp only [callerStep, free, Option.isNone_none, if_true]
    obtain ⟨e, f, next, run', own, own', threw⟩ := refuses (.snoc run stepped) (by simp [move])
    exact ⟨_, e, f, next, by simpa using run', rfl, own, own', threw⟩
  have refusing := ((sound run).refused _ late).2
  cases located : s.pc (.caller n) with
  | lock own =>
    obtain rfl : own = true := by simpa [located, Pc.late] using late
    cases mutex : s.writeMutex with
    | none =>
      obtain ⟨d, e, f, next, run', first, second, third, threw⟩ := enters run located mutex
      exact ⟨[d, e, f], next, run', by simp [first, second, third], f, by simp, third, threw⟩
    | some m =>
      have holds := ((sound run).owned m).mpr mutex
      obtain ⟨fs, next, run', own, free, others⟩ := frees run holds
      have other : Thread.caller n ≠ .caller m := by
        intro same
        rw [← same, located] at holds
        cases holds
      obtain ⟨d, e, f, last, on, first, second, third, threw⟩ :=
        enters run' ((others _ other).trans located) free
      refine ⟨fs ++ [d, e, f], last, by simpa using on, ?_, f, by simp, third, threw⟩
      intro g member
      rcases List.mem_append.mp member with before | after
      · exact ⟨m, own g before⟩
      · exact ⟨n, by simp at after; rcases after with rfl | rfl | rfl <;> assumption⟩
  | check own =>
    obtain rfl : own = true := by simpa [located, Pc.late] using late
    obtain ⟨e, f, next, run', first, second, threw⟩ := refuses run located
    exact ⟨[e, f], next, run', by simp [first, second], f, by simp, second, threw⟩
  | unlock own threw =>
    obtain rfl : own = true := by simpa [located, Pc.late] using late
    cases threw with
    | true =>
      obtain ⟨f, next, run', own, threw⟩ := out run located
      exact ⟨[f], next, run', by simp [own], f, by simp, own, threw⟩
    | false => simp [located, Pc.refusing] at refusing
  | _ => simp [located, Pc.refusing] at refusing

/-- A late write stays one until it throws. -/
theorem Move.late_stays (move : Move s e t) (sound : Sound s) {n : Nat}
    (late : (s.pc (.caller n)).late = true) :
    (t.pc (.caller n)).late = true ∨ e = .threw true ∧ t.pc (.caller n) = .idle := by
  obtain ⟨stopped, refusing⟩ := sound.refused _ late
  have kept {thread : Thread} {b : Pc}
      (own : thread = .caller n → b.late = true) :
      ((s.move thread b).pc (.caller n)).late = true := by
    rw [move_place Pc.late]
    split
    · rename_i mine
      exact own mine.symm
    · exact late
  -- whoever is elsewhere than on the way of a refusal is another thread
  have off {thread : Thread} {a b : Pc} (located : s.pc thread = a) (other : a.refusing = false) :
      ((s.move thread b).pc (.caller n)).late = true := by
    refine kept fun mine => ?_
    rw [← mine, located, other] at refusing
    cases refusing
  have born {thread : Thread} {a b : Pc} (located : s.pc thread = a) (other : a.late = false) :
      ((s.move thread b).pc (.caller n)).late = true := by
    refine kept fun mine => ?_
    rw [← mine, located, other] at late
    cases late
  cases move with
  | plain located plain =>
    cases plain with
    | refuse => exact .inl (kept fun mine => by rwa [← mine, located] at late)
    | accept running =>
      rw [stopped] at running
      cases running
    | work before _ _ => exact .inl (born located (busy_plain before).2.2.2.1)
    | _ => exact .inl (off located rfl)
  | lock located _ => exact .inl (kept fun mine => by rwa [← mine, located] at late)
  | unlock located =>
    rename_i m own threw
    by_cases mine : Thread.caller m = .caller n
    · cases mine
      obtain rfl : own = true := by simpa [located, Pc.late] using late
      obtain rfl : threw = true := by cases threw <;> simp_all [Pc.refusing]
      exact .inr ⟨rfl, by simp [Lifecycle.move]⟩
    · exact .inl (kept fun same => absurd same mine)
  | take located _ _ _ =>
    rename_i w b _ _ _
    rcases located with located | located
    · exact .inl (off (b := b) located rfl)
    · exact .inl (off (b := b) located rfl)
  | planner construction =>
    exact .inl (born (b := .acquire) (sound.birth.unborn .planner (by rw [construction]; rfl)) rfl)
  | output construction =>
    exact .inl (born (b := .resolution)
      (sound.birth.unborn .output (by rw [construction]; rfl)) rfl)
  | failed construction =>
    exact .inl (born (b := .compare .stopped .join)
      (sound.birth.idle (by rw [construction]; rfl) 0) rfl)
  | first located => exact .inl (off located rfl)
  | wake located => exact .inl (off located rfl)
  | win located _ => exact .inl (off located rfl)
  | release located => exact .inl (off located rfl)
  | joinLock located _ => exact .inl (off located rfl)
  | join located _ => exact .inl (off located rfl)
  | joinUnlock located => exact .inl (off located rfl)

theorem write_late {n : Nat} {valid : Bool}
    (stepped : s.step (.write n false valid) = some (t, e)) (stopped : s.stopped = true) :
    e = .threw true ∨ (t.pc (.caller n)).late = true := by
  simp only [step] at stepped
  split at stepped
  · cases valid with
    | true =>
      cases stepped
      exact .inr (by simpa [move, Pc.late] using stopped)
    | false =>
      cases stepped
      exact .inl (by rw [stopped])
  · cases stepped

end Lifecycle

open Lifecycle

/-- The first stop reason stays; a worker's semaphore is released at most twice; with the releases
for the stop done, no worker is blocked without a token; after a stop has returned nothing is
sent; and a write that begins with a stop reason set publishes nothing, stays pending until it
throws, and can always be taken there. -/
theorem stopping {es : List (Entry Lifecycle LifecycleAction LifecycleEvent)} {s : Lifecycle}
    (run : Run lifecycle es s) :
    (∀ e ∈ es, e.before.stopped = true → s.stopReason = e.before.stopReason) ∧
    (∀ w, s.released w ≤ 2) ∧
    (s.stopped = true → (∀ thread w back, s.pc thread ≠ .release w back) →
      ∀ w, s.pc (.worker w) = .acquire → 0 < s.wake w) ∧
    (∀ past e rest, es = past ++ e :: rest → e.event = .stopReturned →
      ∀ f ∈ rest, f.event ≠ .sent) ∧
    (∀ e ∈ es, e.event ≠ .published true ∧ e.event ≠ .wrote true) ∧
    (∀ e ∈ es, ∀ n, (∀ valid, e.action = .write n false valid → e.before.stopped = true →
        e.event = .threw true ∨ (e.after.pc (.caller n)).late = true) ∧
      ((e.before.pc (.caller n)).late = true → (e.after.pc (.caller n)).late = true ∨
        e.event = .threw true ∧ e.after.pc (.caller n) = .idle)) ∧
    (∀ n, (s.pc (.caller n)).late = true →
      ∃ fs t, Run lifecycle (es ++ fs) t ∧ (∀ f ∈ fs, ∃ m, f.action = .caller m .ok) ∧
        ∃ f ∈ fs, f.action = .caller n .ok ∧ f.event = .threw true) := by
  have entry {e} (member : e ∈ es) : Sound e.before ∧ Move e.before e.event e.after ∧
      e.before.step e.action = some (e.after, e.event) := by
    obtain ⟨past, before, stepped⟩ := run.entry_of_mem member
    exact ⟨sound before, step_move stepped, stepped⟩
  refine ⟨?_, ?_, ?_, ?_, ?_, ?_, fun n late => late_throws run late⟩
  · intro e member stopped
    obtain ⟨past, rest, rfl⟩ := List.append_of_mem member
    have before := run.entry.1
    refine (run.since (P := fun _ s => s.stopped = true ∧ s.stopReason = e.before.stopReason)
      (fun same => ?_) fun _ held stepped => ?_).2
    · rw [same.unique before]
      exact ⟨stopped, rfl⟩
    · have keeps := (step_move stepped).keeps_reason held.1
      exact ⟨(congrArg MPCStopReason.isSet keeps).trans held.1, keeps.trans held.2⟩
  · intro w
    rw [(sound run).tokens.tally w]
    unfold Worker.passed
    split <;> split <;> omega
  · intro stopped done w asleep
    have tokens := (sound run).tokens
    rw [tokens.untaken w (by rw [asleep]; rfl), tokens.tally w]
    have stage : s.stopStage = 3 := by
      have stops := (sound run).stops
      have within := stops.relay.within
      by_contra other
      obtain ⟨thread, somewhere⟩ := stops.relay.someone
        (Nat.pos_of_ne_zero fun zero => by
          have unset := stops.unset.mp zero
          rw [show s.stopReason.isSet = true from stopped] at unset
          cases unset) (by omega)
      cases located : s.pc thread with
      | release v back => exact done thread v back located
      | _ => simp [located, Pc.stopping] at somewhere
    rw [stage]
    cases w <;> simp [Worker.passed, Worker.turn]
  · rintro past e rest rfl returned
    have split : Run lifecycle ((past ++ [e]) ++ rest) s := by simpa using run
    refine (split.since (P := fun fs s => s.returned = true ∧ ∀ f ∈ fs, f.event ≠ .sent)
      (fun same => ⟨?_, by simp⟩) fun {fs s a event t} before held stepped => ?_).2
    · obtain ⟨-, stepped, rfl⟩ := same.of_snoc
      rw [returned] at stepped
      exact (step_move stepped).stopReturned
    · have move := step_move stepped
      refine ⟨move.keeps_returned held.1, fun f member => ?_⟩
      rcases List.mem_append.mp member with earlier | last
      · exact held.2 f earlier
      · obtain rfl := List.mem_singleton.mp last
        rintro rfl
        exact silent (sound before) held.1 move.sent
  · intro e member
    obtain ⟨sound, move, -⟩ := entry member
    exact move.not_late sound.refused
  · intro e member n
    obtain ⟨sound, move, stepped⟩ := entry member
    refine ⟨fun valid action stopped => ?_, move.late_stays sound⟩
    rw [action] at stepped
    exact write_late stepped stopped

/-- A stop comes between the two releases of the first target, and a second write after it. -/
def racedActions : List LifecycleAction :=
  List.flatten [[.create true, .create true, .worker .output .ok, .write 1 false true],
    List.replicate 6 (.caller 1 .ok), [.stop 2 .none], List.replicate 3 (.caller 2 .ok),
    List.replicate 2 (.caller 1 .ok), [.write 1 false true]]

def raced : List (Entry Lifecycle LifecycleAction LifecycleEvent) × Lifecycle :=
  (exec lifecycle racedActions [] lifecycle.init).get (by decide +kernel)

theorem stopping_raced : raced.2.stopReason = .stopped ∧ raced.2.released .output ≤ 2 ∧
    0 < raced.2.wake .output ∧ ∃ fs t, Run lifecycle (raced.1 ++ fs) t ∧
      (∀ f ∈ fs, ∃ m, f.action = .caller m .ok) ∧
      ∃ f ∈ fs, f.action = .caller 1 .ok ∧ f.event = .threw true := by
  have run : Run lifecycle raced.1 raced.2 := exec_get _
  obtain ⟨-, released, tokens, -, -, -, throws⟩ := stopping run
  refine ⟨rfl, released .output, tokens rfl ?_ .output rfl, throws 1 rfl⟩
  intro thread w back located
  cases thread with
  | worker v => cases v <;> cases located
  | caller n => rcases n with _ | _ | _ | n <;> cases located

end Florid.Mpc
