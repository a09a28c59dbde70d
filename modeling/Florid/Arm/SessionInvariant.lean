import Florid.Arm.SessionMoves

/-! What holds of the control sessions in every run: one holder of the session mutex, a
gate count that tells the threads inside, and a closed session once a lifecycle call has
got past its joins. -/
namespace Florid.Arm
open Transition Wirelink DrainGate

/-- A history of the control sessions. -/
abbrev SessionTrace := List (Entry Sessions SessionAction SessionEvent)

namespace SessionPc

/-- Where the thread stands at the generation gate. -/
def position : SessionPc → Position
  | .checked g _ => .checked g
  | .counted g _ => .counted g
  | .inside g _ => .inside g
  | .leaving _ _ _ => .leaving
  | _ => .outside

/-- The generations a thread may still send under. -/
def tokens : SessionPc → List Nat
  | .checked g back | .counted g back | .inside g back | .leaving g back _ =>
    g :: (back.map Frame.generation).toList
  | .loop frame | .polled frame | .exiting frame | .clearing frame => [frame.generation]
  | _ => []

/-- The thread holds `m_session_mutex`. -/
def locked : SessionPc → Bool
  | .stopping _ _ | .calling _ _ _ | .lowerStop _ | .raiseRunning _ | .opening _ | .clearing _
  | .halting _ | .joining _ _ | .unlocking => true
  | _ => false

/-- How far a lifecycle call has closed the last session: 1 once the generation is
advanced, 2 once the gate is drained, 3 and 4 once the output worker and the planner are
joined. -/
def phase : SessionPc → Nat
  | .stopping .await _ => 1
  | .stopping .undrain _ | .stopping .requestStop _ | .stopping .joinOutput _ => 2
  | .stopping .joinPlanner _ => 3
  | .calling _ _ _ | .lowerStop _ | .raiseRunning _ | .opening _ => 4
  | _ => 0

end SessionPc

namespace Sessions
variable {s : Sessions} {t : Nat} {pc : SessionPc}

/-- `ControlGeneration` with the threads inside its `send`. -/
def gate (s : Sessions) : Gate Nat :=
  ⟨s.generation, s.inflight, fun t => (s.threads t).position⟩

theorem gate_set (s : Sessions) (t : Nat) (pc : SessionPc) :
    (s.set t pc).gate = s.gate.move t pc.position := by
  simp only [gate, Gate.move, set, Gate.mk.injEq, true_and]
  funext u
  by_cases mine : u = t
  · subst mine
    simp
  · simp [Function.update_of_ne mine]

theorem gate_set_same (same : pc.position = (s.threads t).position) :
    (s.set t pc).gate = s.gate := by
  rw [gate_set]
  have kept : Function.update s.gate.position t pc.position = s.gate.position :=
    Function.update_eq_self_iff.mpr same
  rw [Gate.move, kept]

end Sessions

namespace SessionMoves
variable {s next : Sessions} {a : SessionAction} {event : SessionEvent}

/-- Every step of the sessions is a step of the gate. -/
theorem gate (moved : SessionMoves s a next event) :
    Step generationSpan inflightSpan s.gate next.gate := by
  have same {t pc} (outside : pc.position = (s.threads t).position) :
      Step generationSpan inflightSpan s.gate (s.set t pc).gate := by
    rw [Sessions.gate_set_same outside]
    exact .stay
  have stands {t : Nat} {pc : SessionPc} (at' : s.threads t = pc) :
      s.gate.position t = pc.position := by
    simp [Sessions.gate, at']
  cases moved with
  | stale | requestStop | cleared | workerSend | workerTurn | plannerExit => exact .stay
  | send at' =>
    rw [Sessions.gate_set]
    exact .check (stands at')
  | loopSend at' current =>
    rw [Sessions.gate_set, current]
    exact .check (stands at')
  | count at' =>
    rename_i t ok g back
    change Step _ _ s.gate { (s.set t (.counted g back)).gate with inflight := _ }
    rw [Sessions.gate_set]
    exact .count (stands at')
  | accept at' =>
    rw [Sessions.gate_set]
    exact .accept (stands at')
  | refuse at' other =>
    rw [Sessions.gate_set]
    exact .refuse (stands at') other
  | finish at' =>
    rename_i t ok g back thrown
    rw [Sessions.gate_set]
    exact .finish (stands at')
  | leave at' returned =>
    rename_i t ok g back thrown pc
    have outside : pc.position = .outside := by cases returned <;> rfl
    change Step _ _ s.gate { (s.set t pc).gate with inflight := _ }
    rw [Sessions.gate_set, outside]
    exact .leave (stands at')
  | invalidate at' =>
    rename_i t ok op
    change Step _ _ s.gate { (s.set t (.stopping .await op)).gate with generation := _ }
    rw [Sessions.gate_set_same (by rw [at']; rfl)]
    exact .advance
  | clear at' next =>
    rcases next with rfl | ⟨k, rfl⟩ <;> exact same (by rw [at']; rfl)
  | joinLoop at' next =>
    rcases next with rfl | rfl <;> exact same (by rw [at']; rfl)
  | turn at' turned =>
    rcases at' with at' | at' <;> cases turned <;> exact same (by simp [at', SessionPc.position])
  | openMPC at' =>
    rename_i t cached loop
    cases loop <;> exact same (by rw [at']; rfl)
  | begin at' | lock at' | raiseStop at' | lowerRunning at' | drain at' | drained at' | undrain at'
  | noSession at' | haltSession at' | joinOutput at' | joinPlanner at' | call at' | ready at'
  | served at' | lowerStop at' | raiseRunning at' | openHandle at' | openLoop at' | openFailed at'
  | haltLoop at' | unlock at' => exact same (by rw [at']; rfl)

end SessionMoves

/-! ### The session mutex -/

/-- At most the holder of the mutex is at a locked position. -/
def Exclusive (s : Sessions) : Prop := ∀ t, (s.threads t).locked = true → s.mutex = some t

namespace Exclusive
variable {s next : Sessions} {a : SessionAction} {event : SessionEvent} {t u : Nat}
  {pc : SessionPc}

theorem unique (held : Exclusive s) (first : (s.threads t).locked = true)
    (second : (s.threads u).locked = true) : t = u :=
  Option.some.inj ((held t first).symm.trans (held u second))

/-- A thread moves and the mutex does not. -/
theorem keep (held : Exclusive s) (same : pc.locked = (s.threads t).locked)
    (threads : next.threads = Function.update s.threads t pc) (mutex : next.mutex = s.mutex) :
    Exclusive next := by
  intro u locked
  rw [threads] at locked
  rw [mutex]
  by_cases mine : u = t
  · subst mine
    exact held u (by simpa [same] using locked)
  · exact held u (by simpa [Function.update_of_ne mine] using locked)

theorem acquire (held : Exclusive s) (free : s.mutex = none) :
    Exclusive { s.set t pc with mutex := some t } := by
  intro u locked
  by_cases mine : u = t
  · rw [mine]
  · have := held u (by simpa [Sessions.set, Function.update_of_ne mine] using locked)
    simp [free] at this

theorem release (held : Exclusive s) (mine : (s.threads t).locked = true)
    (outside : pc.locked = false) (threads : next.threads = Function.update s.threads t pc) :
    Exclusive next := by
  intro u locked
  rw [threads] at locked
  by_cases same : u = t
  · subst same
    simp [outside] at locked
  · have other : (s.threads u).locked = true := by
      simpa [Function.update_of_ne same] using locked
    exact absurd (held.unique other mine) same

theorem moves (held : Exclusive s) (moved : SessionMoves s a next event) : Exclusive next := by
  cases moved with
  | stale | requestStop | cleared | workerSend | workerTurn | plannerExit => exact held
  | begin _ free | lock _ free => exact held.acquire free
  | served at' | openHandle at' | openLoop at' | openFailed at' | unlock at' =>
    exact held.release (by rw [at']; rfl) rfl rfl
  | openMPC at' =>
    rename_i t cached loop
    cases loop <;> exact held.release (by rw [at']; rfl) rfl rfl
  | leave at' returned => cases returned <;> exact held.keep (by rw [at']; rfl) rfl rfl
  | clear at' next | joinLoop at' next =>
    rcases next with rfl | ⟨k, rfl⟩ <;> exact held.keep (by rw [at']; rfl) rfl rfl
  | turn at' turned =>
    rcases at' with at' | at' <;> cases turned <;>
      exact held.keep (by simp [at', SessionPc.locked]) rfl rfl
  | send at' | count at' | accept at' | refuse at' | finish at' | raiseStop at' | lowerRunning at'
  | drain at' | invalidate at' | drained at' | undrain at' | noSession at' | haltSession at'
  | joinOutput at' | joinPlanner at' | call at' | ready at' | lowerStop at' | raiseRunning at'
  | haltLoop at' | loopSend at' => exact held.keep (by rw [at']; rfl) rfl rfl

theorem of_run {es : SessionTrace} (run : Run sessionMachine es s) : Exclusive s := by
  refine run.invariant (P := Exclusive) ?_ ?_
  · intro t locked
    cases locked
  · intro s a event next held stepped
    exact held.moves (session_moves stepped)

end Exclusive

theorem SessionPc.locked_of_phase {pc : SessionPc} (closing : 1 ≤ pc.phase) : pc.locked = true := by
  cases pc <;> first | rfl | simp [phase] at closing

/-! ### Closing a session -/

/-- How one step changes the phase of one thread: it falls or stays, or rises by one of
the steps of `s_stopControlLocked`. -/
inductive Closing (s : Sessions) (event : SessionEvent) (a b : SessionPc) : Prop where
  | kept : b.phase ≤ a.phase → Closing s event a b
  | advanced : event.invalidates = true → b.phase = 1 → Closing s event a b
  | drained : a.phase = 1 → b.phase = 2 → s.inflight = 0 → Closing s event a b
  | output {k} : a.phase = 2 → b.phase = 3 → s.mpc = some k → (s.workers k).output = .exited →
      Closing s event a b
  | planner {k} : a.phase = 3 → b.phase = 4 → s.mpc = some k →
      (s.workers k).plannerExited = true → Closing s event a b
  | absent : a.phase = 2 → b.phase = 4 → s.mpc = none → Closing s event a b

theorem Closing.update {s : Sessions} {event : SessionEvent} {t : Nat} {pc : SessionPc}
    (closing : Closing s event (s.threads t) pc) (u : Nat) :
    Closing s event (s.threads u) (Function.update s.threads t pc u) := by
  by_cases mine : u = t
  · subst mine
    simpa using closing
  · rw [Function.update_of_ne mine]
    exact .kept (le_refl _)

namespace SessionMoves
variable {s next : Sessions} {a : SessionAction} {event : SessionEvent}

theorem closing (moved : SessionMoves s a next event) (u : Nat) :
    Closing s event (s.threads u) (next.threads u) := by
  cases moved with
  | stale | requestStop | cleared | workerSend | workerTurn | plannerExit => exact .kept (le_refl _)
  | invalidate => exact Closing.update (.advanced rfl rfl) u
  | drained at' zero => exact Closing.update (.drained (by rw [at']; rfl) rfl zero) u
  | joinOutput at' last exited =>
    exact Closing.update (.output (by rw [at']; rfl) rfl last exited) u
  | joinPlanner at' last exited =>
    exact Closing.update (.planner (by rw [at']; rfl) rfl last exited) u
  | noSession at' none => exact Closing.update (.absent (by rw [at']; rfl) rfl none) u
  | undrain at' | haltSession at' | call at' | ready at' | lowerStop at' | raiseRunning at' =>
    exact Closing.update (.kept (by rw [at']; exact le_refl _)) u
  | leave at' returned => cases returned <;> exact Closing.update (.kept (Nat.zero_le _)) u
  | clear at' next | joinLoop at' next =>
    rcases next with rfl | ⟨k, rfl⟩ <;> exact Closing.update (.kept (Nat.zero_le _)) u
  | turn at' turned => cases turned <;> exact Closing.update (.kept (Nat.zero_le _)) u
  | openMPC =>
    rename_i t cached loop _
    cases loop <;> exact Closing.update (.kept (Nat.zero_le _)) u
  | begin | lock | send | count | accept | refuse | finish | raiseStop | lowerRunning | drain | served
  | openHandle | openLoop | openFailed | haltLoop | unlock | loopSend =>
    exact Closing.update (.kept (Nat.zero_le _)) u

theorem generation (moved : SessionMoves s a next event) :
    next.generation = if event.invalidates then (s.generation + 1) % generationSpan
      else s.generation := by
  cases moved with
  | turn _ _ quiet => rcases quiet with rfl | rfl <;> rfl
  | _ => rfl

/-- A session opens under the current generation and ends its lifecycle call. -/
theorem opened {g : Nat} {k : Option Nat} (moved : SessionMoves s a next (.opened g k)) :
    g = s.generation ∧ ∃ t, (s.threads t).locked = true ∧ (next.threads t).phase = 0 := by
  generalize made : SessionEvent.opened g k = event at moved
  cases moved with
  | openHandle at' | openLoop at' =>
    cases made
    exact ⟨rfl, _, by rw [at']; rfl, by simp [Sessions.unlock, Sessions.set, SessionPc.phase]⟩
  | openMPC at' =>
    rename_i t cached loop
    cases made
    refine ⟨rfl, t, by rw [at']; rfl, ?_⟩
    cases loop <;> simp [Sessions.unlock, Sessions.set, Sessions.setWorkers, SessionPc.phase]
  | turn _ _ quiet => rcases quiet with rfl | rfl <;> cases made
  | _ => cases made

/-- Generations come from a handle, from the thread itself, or from an opening. -/
theorem tokens (moved : SessionMoves s a next event) :
    (∀ g ∈ next.handles, g ∈ s.handles ∨ ∃ k, event = .opened g k) ∧
    ∀ u, ∀ g ∈ (next.threads u).tokens,
      g ∈ (s.threads u).tokens ∨ g ∈ s.handles ∨ ∃ k, event = .opened g k := by
  have update {t pc} (new : ∀ g ∈ pc.tokens,
      g ∈ (s.threads t).tokens ∨ g ∈ s.handles ∨ ∃ k, event = .opened g k) (u) :
      ∀ g ∈ (Function.update s.threads t pc u).tokens,
        g ∈ (s.threads u).tokens ∨ g ∈ s.handles ∨ ∃ k, event = .opened g k := by
    by_cases mine : u = t
    · subst mine
      simpa using new
    · rw [Function.update_of_ne mine]
      exact fun g => .inl
  have nothing {t : Nat} {pc : SessionPc} (none : pc.tokens = []) (u : Nat) :
      ∀ g ∈ (Function.update s.threads t pc u).tokens,
        g ∈ (s.threads u).tokens ∨ g ∈ s.handles ∨ ∃ k, event = .opened g k :=
    update (by simp [none]) u
  cases moved with
  | stale | requestStop | cleared | workerSend | workerTurn | plannerExit =>
    exact ⟨fun g => .inl, fun u g => .inl⟩
  | send at' held => exact ⟨fun g => .inl, update (by simp [SessionPc.tokens, held])⟩
  | count at' | accept at' | refuse at' | finish at' =>
    exact ⟨fun g => .inl, update fun g member => .inl (by rw [at']; exact member)⟩
  | loopSend at' | lock at' =>
    exact ⟨fun g => .inl, update (by simp [SessionPc.tokens, at'])⟩
  | leave at' returned =>
    cases returned <;> exact ⟨fun g => .inl, update (by simp [SessionPc.tokens, at'])⟩
  | turn at' turned =>
    rcases at' with at' | at' <;> cases turned <;>
      exact ⟨fun g => .inl, update (by simp [SessionPc.tokens, at'])⟩
  | clear at' next | joinLoop at' next =>
    rcases next with rfl | ⟨k, rfl⟩ <;> exact ⟨fun g => .inl, nothing rfl⟩
  | openHandle =>
    refine ⟨?_, nothing rfl⟩
    intro g member
    rcases List.mem_cons.mp member with rfl | old
    · exact .inr ⟨none, rfl⟩
    · exact .inl old
  | openLoop => exact ⟨fun g => .inl, update (by simp [SessionPc.tokens])⟩
  | openMPC =>
    rename_i t cached loop _
    cases loop
    · exact ⟨fun g => .inl, nothing rfl⟩
    · exact ⟨fun g => .inl, update (by simp [SessionPc.tokens])⟩
  | begin | raiseStop | lowerRunning | drain | invalidate | drained | undrain | noSession
  | haltSession | joinOutput | joinPlanner | call | ready | served | lowerStop | raiseRunning
  | openFailed | haltLoop | unlock => exact ⟨fun g => .inl, nothing rfl⟩

/-- Workers that have exited stay so; new ones are constructed when a session opens. -/
theorem workers (moved : SessionMoves s a next event) :
    (next.mpc = s.mpc ∧ next.constructed = s.constructed ∧
      ∀ k, ((s.workers k).output = .exited → (next.workers k).output = .exited) ∧
        ((s.workers k).plannerExited = true → (next.workers k).plannerExited = true)) ∨
    ∃ t workers, (s.threads t).phase = 4 ∧ event = .opened s.generation (some s.constructed) ∧
      next.mpc = some s.constructed ∧ next.constructed = s.constructed + 1 ∧
      next.workers = Function.update s.workers s.constructed workers := by
  have update {k w} (output : (s.workers k).output = .exited → w.output = .exited)
      (planner : (s.workers k).plannerExited = true → w.plannerExited = true) (j) :
      ((s.workers j).output = .exited →
        (Function.update s.workers k w j).output = .exited) ∧
      ((s.workers j).plannerExited = true →
        (Function.update s.workers k w j).plannerExited = true) := by
    by_cases mine : j = k
    · subst mine
      simpa using ⟨output, planner⟩
    · rw [Function.update_of_ne mine]
      exact ⟨id, id⟩
  cases moved with
  | openMPC at' => exact .inr ⟨_, _, by rw [at']; rfl, rfl, rfl, rfl, rfl⟩
  | requestStop | haltSession | haltLoop => exact .inl ⟨rfl, rfl, update id id⟩
  | cleared at' | workerSend at' =>
    exact .inl ⟨rfl, rfl, update (fun exited => by simp [at'] at exited) id⟩
  | workerTurn turned =>
    refine .inl ⟨rfl, rfl, update ?_ id⟩
    intro exited
    rw [exited] at turned
    cases turned
  | plannerExit => exact .inl ⟨rfl, rfl, update id fun _ => rfl⟩
  | _ => exact .inl ⟨rfl, rfl, fun _ => ⟨id, id⟩⟩

end SessionMoves

/-! ### The invariant -/

/-- A session was opened under generation `g`. -/
def Issued (es : SessionTrace) (g : Nat) : Prop := ∃ x ∈ es, ∃ k, x.event = .opened g k

def invalidations (es : SessionTrace) : Nat := es.countP fun x => x.event.invalidates

theorem invalidations_append (es fs : SessionTrace) :
    invalidations (es ++ fs) = invalidations es + invalidations fs := by
  simp [invalidations]

theorem issued_snoc {es : SessionTrace} {x : Entry Sessions SessionAction SessionEvent} {g : Nat} :
    Issued (es ++ [x]) g ↔ Issued es g ∨ ∃ k, x.event = .opened g k := by
  simp [Issued, or_and_right, exists_or]

/-- Either worker of the session is still running. -/
def MPCWorkers.alive (w : MPCWorkers) : Bool := w.output != .exited || !w.plannerExited

structure SessionsInv (es : SessionTrace) (s : Sessions) : Prop where
  tally : s.gate.Tally inflightSpan
  generation : s.generation = invalidations es + 1
  handles : ∀ g ∈ s.handles, Issued es g
  tokens : ∀ t, ∀ g ∈ (s.threads t).tokens, Issued es g
  issued : ∀ g, Issued es g → g ≤ s.generation
  closing : ∀ t, 1 ≤ (s.threads t).phase → ∀ g, Issued es g → g ≠ s.generation
  drained : ∀ t, 2 ≤ (s.threads t).phase → s.gate.Clear
  alive : ∀ k, (s.workers k).alive = true → s.mpc = some k
  output : ∀ t, 3 ≤ (s.threads t).phase → ∀ k, (s.workers k).output = .exited
  planner : ∀ t, 4 ≤ (s.threads t).phase → ∀ k, (s.workers k).plannerExited = true

theorem Closing.before {s : Sessions} {event : SessionEvent} {a b : SessionPc}
    (closing : Closing s event a b) (quiet : event.invalidates = false) (after : 1 ≤ b.phase) :
    1 ≤ a.phase := by
  cases closing with
  | kept falls => omega
  | advanced invalidated => simp [quiet] at invalidated
  | drained before | output before | planner before | absent before => omega

theorem SessionMoves.generation_step {s next : Sessions} {a : SessionAction}
    {event : SessionEvent} (moved : SessionMoves s a next event)
    (bound : event.invalidates = true → s.generation + 1 < generationSpan) :
    next.generation = s.generation + if event.invalidates then 1 else 0 := by
  rw [moved.generation]
  cases invalidates : event.invalidates
  · rfl
  · exact Nat.mod_eq_of_lt (bound invalidates)

/-- Nobody is closing a session right after one has been opened. -/
theorem SessionMoves.opened_quiet {s next : Sessions} {a : SessionAction} {g : Nat}
    {k : Option Nat} (moved : SessionMoves s a next (.opened g k)) (exclusive : Exclusive s)
    (u : Nat) : (next.threads u).phase = 0 := by
  obtain ⟨-, t, locked, ended⟩ := moved.opened
  by_contra closing
  have before := (moved.closing u).before rfl (by omega)
  have same := exclusive.unique (SessionPc.locked_of_phase before) locked
  exact closing (same ▸ ended)

namespace SessionsInv
variable {es : SessionTrace} {s next : Sessions} {a : SessionAction} {event : SessionEvent}

theorem not_alive {w : MPCWorkers} (dead : w.alive = false) :
    w.output = .exited ∧ w.plannerExited = true := by
  simpa [MPCWorkers.alive] using dead

/-- Only the last session has workers. -/
theorem others_exited (inv : SessionsInv es s) {k : Nat} (other : s.mpc ≠ some k) :
    (s.workers k).output = .exited ∧ (s.workers k).plannerExited = true := by
  refine not_alive ?_
  by_contra alive
  rw [Bool.not_eq_false] at alive
  exact other (inv.alive k alive)

/-- Before a generation is reissued nobody at the gate holds it. -/
theorem stale (inv : SessionsInv es s) {u : Nat} (closing : 1 ≤ (s.threads u).phase) (t g : Nat)
    (counted : s.gate.position t = .counted g) : g ≠ s.generation := by
  refine inv.closing u closing g (inv.tokens t g ?_)
  simp only [Sessions.gate] at counted
  cases pc : s.threads t <;> simp [pc, SessionPc.position] at counted
  simp [SessionPc.tokens, counted]

theorem clear_step (inv : SessionsInv es s) (moved : SessionMoves s a next event)
    (uncrowded : s.gate.Uncrowded inflightSpan) {u : Nat} (drained : 2 ≤ (next.threads u).phase) :
    next.gate.Clear := by
  have settled : s.gate.Clear ∧ 1 ≤ (s.threads u).phase := by
    cases moved.closing u with
    | kept falls => exact ⟨inv.drained u (by omega), by omega⟩
    | advanced _ first => omega
    | drained before _ zero => exact ⟨inv.tally.drained uncrowded zero, by omega⟩
    | output before | planner before | absent before =>
      exact ⟨inv.drained u (by omega), by omega⟩
  exact settled.1.step (inv.stale settled.2) moved.gate

theorem issued_step (inv : SessionsInv es s) (moved : SessionMoves s a next event)
    (exclusive : Exclusive s) (bound : event.invalidates = true → s.generation + 1 < generationSpan)
    {g : Nat} (issued : Issued es g ∨ ∃ k, event = .opened g k) :
    g ≤ next.generation ∧ ∀ t, 1 ≤ (next.threads t).phase → g ≠ next.generation := by
  have generation := moved.generation_step bound
  rcases issued with old | ⟨k, rfl⟩
  · have older := inv.issued g old
    refine ⟨by omega, ?_⟩
    intro t closing
    cases invalidates : event.invalidates
    · rw [generation, invalidates]
      exact inv.closing t ((moved.closing t).before invalidates closing) g old
    · rw [invalidates, if_pos rfl] at generation
      omega
  · have current := moved.opened.1
    have same : next.generation = s.generation := generation
    refine ⟨by omega, ?_⟩
    intro t closing
    have := moved.opened_quiet exclusive t
    omega

theorem alive_step (inv : SessionsInv es s) (moved : SessionMoves s a next event) (k : Nat)
    (alive : (next.workers k).alive = true) : next.mpc = some k := by
  rcases moved.workers with ⟨last, -, kept⟩ | ⟨t, workers, joined, -, last, -, updated⟩
  · by_contra other
    rw [last] at other
    obtain ⟨output, planner⟩ := inv.others_exited other
    simp [MPCWorkers.alive, (kept k).1 output, (kept k).2 planner] at alive
  · rw [last]
    by_contra other
    have apart : k ≠ s.constructed := by
      rintro rfl
      exact other rfl
    rw [updated, Function.update_of_ne apart] at alive
    simp [MPCWorkers.alive, inv.output t (by omega) k, inv.planner t (by omega) k] at alive

theorem output_step (inv : SessionsInv es s) (moved : SessionMoves s a next event)
    (exclusive : Exclusive s) {t : Nat} (joined : 3 ≤ (next.threads t).phase) (k : Nat) :
    (next.workers k).output = .exited := by
  rcases moved.workers with ⟨-, -, kept⟩ | ⟨-, -, -, rfl, -⟩
  · refine (kept k).1 ?_
    cases moved.closing t with
    | kept falls => exact inv.output t (by omega) k
    | advanced _ first => omega
    | drained _ second => omega
    | output before after last exited =>
      rename_i j
      by_cases same : j = k
      · exact same ▸ exited
      · exact (inv.others_exited (by simpa [last] using same)).1
    | planner before => exact inv.output t (by omega) k
    | absent _ _ none => exact (inv.others_exited (by simp [none])).1
  · have := moved.opened_quiet exclusive t
    omega

theorem planner_step (inv : SessionsInv es s) (moved : SessionMoves s a next event)
    (exclusive : Exclusive s) {t : Nat} (joined : 4 ≤ (next.threads t).phase) (k : Nat) :
    (next.workers k).plannerExited = true := by
  rcases moved.workers with ⟨-, -, kept⟩ | ⟨-, -, -, rfl, -⟩
  · refine (kept k).2 ?_
    cases moved.closing t with
    | kept falls => exact inv.planner t (by omega) k
    | advanced _ first => omega
    | drained _ second => omega
    | output _ third => omega
    | planner before after last exited =>
      rename_i j
      by_cases same : j = k
      · exact same ▸ exited
      · exact (inv.others_exited (by simpa [last] using same)).2
    | absent _ _ none => exact (inv.others_exited (by simp [none])).2
  · have := moved.opened_quiet exclusive t
    omega

theorem moves (inv : SessionsInv es s) (moved : SessionMoves s a next event)
    (exclusive : Exclusive s) (bound : event.invalidates = true → s.generation + 1 < generationSpan)
    (uncrowded : s.gate.Uncrowded inflightSpan) :
    SessionsInv (es ++ [⟨s, a, event, next⟩]) next where
  tally := inv.tally.step (by decide) moved.gate
  generation := by
    rw [moved.generation_step bound, inv.generation, invalidations_append]
    cases invalidates : event.invalidates <;> simp [invalidations, invalidates]
  handles g member := by
    rcases moved.tokens.1 g member with old | new
    · exact issued_snoc.mpr (.inl (inv.handles g old))
    · exact issued_snoc.mpr (.inr new)
  tokens t g member := by
    rcases moved.tokens.2 t g member with mine | held | new
    · exact issued_snoc.mpr (.inl (inv.tokens t g mine))
    · exact issued_snoc.mpr (.inl (inv.handles g held))
    · exact issued_snoc.mpr (.inr new)
  issued g issued := (inv.issued_step moved exclusive bound (issued_snoc.mp issued)).1
  closing t closing g issued :=
    (inv.issued_step moved exclusive bound (issued_snoc.mp issued)).2 t closing
  drained t drained := inv.clear_step moved uncrowded drained
  alive := inv.alive_step moved
  output t := inv.output_step moved exclusive
  planner t := inv.planner_step moved exclusive

theorem initial : SessionsInv [] sessionMachine.init where
  tally := ⟨∅, by simp [Sessions.gate, sessionMachine, SessionPc.position, Position.counts], rfl⟩
  generation := rfl
  handles g member := by cases member
  tokens t g member := by cases member
  issued g issued := by simp [Issued] at issued
  closing t closing := by simp [sessionMachine, SessionPc.phase] at closing
  drained t drained := by simp [sessionMachine, SessionPc.phase] at drained
  alive k alive := by simp [sessionMachine, MPCWorkers.alive] at alive
  output t joined := by simp [sessionMachine, SessionPc.phase] at joined
  planner t joined := by simp [sessionMachine, SessionPc.phase] at joined

/-- The invariant holds until the generation comes round, while the threads in `send`
stay fewer than the counter can tell apart. -/
theorem of_run (run : Run sessionMachine es s) : invalidations es + 1 < generationSpan →
    Meets (fun s _ => s.gate.Uncrowded inflightSpan) es → SessionsInv es s := by
  refine run.history (P := fun es s => invalidations es + 1 < generationSpan →
    Meets (fun s _ => s.gate.Uncrowded inflightSpan) es → SessionsInv es s) (fun _ _ => initial) ?_
  intro es s a event next before ih stepped few met
  obtain ⟨earlier, last⟩ := Meets.append.mp met
  rw [invalidations_append] at few
  have inv := ih (by omega) earlier
  refine inv.moves (session_moves stepped) (Exclusive.of_run before) ?_ (Meets.single.mp last)
  intro invalidates
  have one : invalidations [⟨s, a, event, next⟩] = 1 := by simp [invalidations, invalidates]
  rw [inv.generation]
  omega

end SessionsInv

end Florid.Arm
