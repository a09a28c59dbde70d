import Florid.Arm.Session

/-! `ControlGeneration` by itself: any number of senders and one invalidating caller at a
time, one atomic access a step. A wait on the count compares and blocks in one step; it
is left after a notification, or for no reason, and compares again. -/
namespace Florid.Arm.ControlGeneration
open Transition DrainGate

inductive SendPc where
  | idle
  | checked (generation : Nat)
  | entered (generation : Nat)
  | body (generation : Nat)
  | leaving
  /-- The count went to zero; `m_draining` is looked at next. -/
  | left
  | notifying
  deriving DecidableEq

inductive InvalidatePc where
  | idle
  | closing
  | loading
  | comparing (count : Nat)
  | blocked (count : Nat)
  | reopening
  deriving DecidableEq

structure State where
  generation : Nat := 1
  inflight : Nat := 0
  draining : Bool := false
  senders : Nat → SendPc := fun _ => .idle
  invalidator : InvalidatePc := .idle

inductive Action where
  | send (t generation : Nat)
  | sender (t : Nat)
  | invalidate
  | invalidator
  /-- A wait that ends without a notification. -/
  | spurious

inductive Event where
  | quiet
  /-- The body of a send starts to run. -/
  | running (t generation : Nat)
  | advanced
  | invalidated
  deriving DecidableEq

namespace State

def set (s : State) (t : Nat) (pc : SendPc) : State :=
  { s with senders := Function.update s.senders t pc }

/-- Waiters compare again. -/
def notifyAll (s : State) : State :=
  match s.invalidator with
  | .blocked count => { s with invalidator := .comparing count }
  | _ => s

/-- The next access of a sender. A body that throws leaves like one that returns. -/
def senderStep (s : State) (t : Nat) : Option (State × Event) :=
  match s.senders t with
  | .idle => none
  | .checked g =>
    some ({ s.set t (.entered g) with inflight := (s.inflight + 1) % inflightSpan }, .quiet)
  | .entered g =>
    if g = s.generation then some (s.set t (.body g), .running t g)
    else some (s.set t .leaving, .quiet)
  | .body _ => some (s.set t .leaving, .quiet)
  | .leaving =>
    some ({ s.set t (if s.inflight = 1 then .left else .idle) with
      inflight := (s.inflight + inflightSpan - 1) % inflightSpan }, .quiet)
  | .left => some (s.set t (if s.draining then .notifying else .idle), .quiet)
  | .notifying => some ((s.set t .idle).notifyAll, .quiet)

/-- The next access of the caller of `invalidate`. -/
def invalidatorStep (s : State) : Option (State × Event) :=
  match s.invalidator with
  | .idle | .blocked _ => none
  | .closing =>
    some ({ s with generation := (s.generation + 1) % generationSpan, invalidator := .loading },
      .advanced)
  | .loading =>
    some ({ s with
      invalidator := if s.inflight = 0 then .reopening else .comparing s.inflight }, .quiet)
  | .comparing count =>
    some ({ s with
      invalidator := if s.inflight = count then .blocked count else .loading }, .quiet)
  | .reopening => some ({ s with draining := false, invalidator := .idle }, .invalidated)

def step (s : State) : Action → Option (State × Event)
  | .send t g =>
    match s.senders t with
    | .idle => some (if g = s.generation then s.set t (.checked g) else s, .quiet)
    | _ => none
  | .sender t => s.senderStep t
  | .invalidate =>
    match s.invalidator with
    | .idle => some ({ s with draining := true, invalidator := .closing }, .quiet)
    | _ => none
  | .invalidator => s.invalidatorStep
  | .spurious =>
    match s.invalidator with
    | .blocked count => some ({ s with invalidator := .comparing count }, .quiet)
    | _ => none

end State

def generationMachine : Machine State Action Event := ⟨{}, State.step⟩

/-! ### The gate -/

def SendPc.position : SendPc → Position
  | .checked g => .checked g
  | .entered g => .counted g
  | .body g => .inside g
  | .leaving => .leaving
  | _ => .outside

/-- The sender is counted in `m_inflight`. -/
def SendPc.isEntered (pc : SendPc) : Bool := pc.position.counts

namespace State
variable {s t : State} {u : Nat} {pc : SendPc}

def gate (s : State) : Gate Nat := ⟨s.generation, s.inflight, fun t => (s.senders t).position⟩

theorem gate_set (s : State) (u : Nat) (pc : SendPc) :
    (s.set u pc).gate = s.gate.move u pc.position := by
  simp only [gate, Gate.move, set, Gate.mk.injEq, true_and]
  funext v
  by_cases mine : v = u
  · subst mine
    simp
  · simp [Function.update_of_ne mine]

theorem gate_set_same (same : pc.position = (s.senders u).position) : (s.set u pc).gate = s.gate := by
  rw [gate_set]
  have kept : Function.update s.gate.position u pc.position = s.gate.position :=
    Function.update_eq_self_iff.mpr same
  rw [Gate.move, kept]

theorem notifyAll_gate (s : State) : s.notifyAll.gate = s.gate := by
  unfold notifyAll
  split <;> rfl

end State

section Steps
variable {s t : State} {a : Action} {event : Event}

/-- Every access of a sender is a step of the gate. -/
theorem sender_gate {u : Nat} (stepped : s.senderStep u = some (t, event)) :
    Step generationSpan inflightSpan s.gate t.gate := by
  have stands {pc : SendPc} (at' : s.senders u = pc) : s.gate.position u = pc.position := by
    simp [State.gate, at']
  unfold State.senderStep at stepped
  split at stepped
  · cases stepped
  · rename_i g at'
    cases stepped
    change Step _ _ s.gate { (s.set u (.entered g)).gate with inflight := _ }
    rw [State.gate_set]
    exact .count (stands at')
  · rename_i g at'
    split at stepped
    · rename_i current
      cases stepped
      subst current
      rw [State.gate_set]
      exact .accept (stands at')
    · rename_i other
      cases stepped
      rw [State.gate_set]
      exact .refuse (stands at') other
  · rename_i at'
    cases stepped
    rw [State.gate_set]
    exact .finish (stands at')
  · rename_i at'
    cases stepped
    have outside : (if s.inflight = 1 then SendPc.left else .idle).position = .outside := by
      split <;> rfl
    change Step _ _ s.gate
      { (s.set u (if s.inflight = 1 then SendPc.left else .idle)).gate with inflight := _ }
    rw [State.gate_set, outside]
    exact .leave (stands at')
  · rename_i at'
    cases stepped
    rw [State.gate_set_same]
    · exact .stay
    · rw [at']
      split <;> rfl
  · rename_i at'
    cases stepped
    rw [State.notifyAll_gate, State.gate_set_same]
    · exact .stay
    · rw [at']
      rfl

theorem step_gate (stepped : s.step a = some (t, event)) :
    Step generationSpan inflightSpan s.gate t.gate := by
  cases a with
  | send u g =>
    simp only [State.step] at stepped
    split at stepped
    · rename_i at'
      split at stepped <;> cases stepped
      · rename_i current
        subst current
        rw [State.gate_set]
        exact .check (by simp [State.gate, at', SendPc.position])
      · exact .stay
    · cases stepped
  | sender u => exact sender_gate stepped
  | invalidate =>
    simp only [State.step] at stepped
    split at stepped <;> cases stepped
    exact .stay
  | invalidator =>
    simp only [State.step, State.invalidatorStep] at stepped
    split at stepped <;> cases stepped
    · exact .advance
    · exact .stay
    · exact .stay
    · exact .stay
  | spurious =>
    simp only [State.step] at stepped
    split at stepped <;> cases stepped
    exact .stay

/-- A sender has brought the count to zero and has yet to notify. -/
def State.Notifies (s : State) : Prop := ∃ u, s.senders u = .left ∨ s.senders u = .notifying

theorem State.Notifies.set {u : Nat} {pc : SendPc} (notifies : s.Notifies)
    (other : s.senders u ≠ .left ∧ s.senders u ≠ .notifying) : (s.set u pc).Notifies := by
  obtain ⟨v, pending⟩ := notifies
  have apart : v ≠ u := by
    rintro rfl
    exact pending.elim other.1 other.2
  exact ⟨v, by simpa [State.set, Function.update_of_ne apart] using pending⟩

/-- What an access of a sender leaves alone, and what it does for a blocked waiter. -/
structure Sends (s t : State) : Prop where
  generation : t.generation = s.generation
  draining : t.draining = s.draining
  invalidator : t.invalidator = s.invalidator ∨
    ∃ count, s.invalidator = .blocked count ∧ t.invalidator = .comparing count
  bodies : ∀ u g, t.senders u = .body g → s.senders u = .body g ∨ g = s.generation
  wakes : ∀ count, t.invalidator = .blocked count → s.draining = true → s.inflight < inflightSpan →
    (∀ u, (s.senders u).isEntered = true ∨ (t.senders u).isEntered = true → t.inflight = 0 →
      (t.senders u).isEntered = false) →
    (s.inflight = 0 → s.Notifies) → t.inflight = 0 → t.Notifies

theorem set_body {u v : Nat} {g : Nat} {pc : SendPc}
    (new : ∀ g, pc = .body g → s.senders u = .body g ∨ g = s.generation)
    (body : (s.set u pc).senders v = .body g) : s.senders v = .body g ∨ g = s.generation := by
  by_cases mine : v = u
  · subst mine
    exact new g (by simpa [State.set] using body)
  · exact .inl (by simpa [State.set, Function.update_of_ne mine] using body)

theorem sender_sends {u : Nat} (stepped : s.senderStep u = some (t, event)) : Sends s t := by
  unfold State.senderStep at stepped
  split at stepped
  · cases stepped
  · rename_i g at'
    cases stepped
    refine ⟨rfl, rfl, .inl rfl, fun v g => set_body (by simp), ?_⟩
    intro count _ _ _ uncounted _ zero
    have counted : (((s.set u (.entered g)).senders u)).isEntered = true := by
      simp [State.set, SendPc.isEntered, SendPc.position, Position.counts]
    have none := uncounted u (.inr counted) zero
    exact absurd (counted.symm.trans none) (by simp)
  · rename_i g at'
    split at stepped
    · rename_i current
      cases stepped
      refine ⟨rfl, rfl, .inl rfl, fun v g => set_body ?_, ?_⟩
      · rintro g ⟨⟩
        exact .inr current
      · intro count _ _ _ _ before zero
        exact (before zero).set (by simp [at'])
    · cases stepped
      refine ⟨rfl, rfl, .inl rfl, fun v g => set_body (by simp), ?_⟩
      intro count _ _ _ _ before zero
      exact (before zero).set (by simp [at'])
  · rename_i at'
    cases stepped
    refine ⟨rfl, rfl, .inl rfl, fun v g => set_body (by simp), ?_⟩
    intro count _ _ _ _ before zero
    exact (before zero).set (by simp [at'])
  · cases stepped
    refine ⟨rfl, rfl, .inl rfl, ?_, ?_⟩
    · intro v g body
      have moved : (s.set u (if s.inflight = 1 then .left else .idle)).senders v = .body g := body
      exact set_body (by split <;> simp) moved
    · intro count _ _ bound _ _ zero
      have last : s.inflight = 1 := by
        change (s.inflight + inflightSpan - 1) % inflightSpan = 0 at zero
        unfold inflightSpan at bound zero
        omega
      exact ⟨u, .inl (by simp [State.set, last])⟩
  · cases stepped
    refine ⟨rfl, rfl, .inl rfl, fun v g => set_body ?_, ?_⟩
    · intro g body
      split at body <;> cases body
    · intro count _ draining _ _ _ _
      exact ⟨u, .inr (by simp [State.set, draining])⟩
  · rename_i at'
    cases stepped
    have shape : (s.set u .idle).notifyAll.senders = (s.set u .idle).senders ∧
        (s.set u .idle).notifyAll.generation = s.generation ∧
        (s.set u .idle).notifyAll.draining = s.draining := by
      unfold State.notifyAll
      split <;> exact ⟨rfl, rfl, rfl⟩
    have woken (count : Nat) : (s.set u .idle).notifyAll.invalidator ≠ .blocked count := by
      unfold State.notifyAll
      split
      · simp
      · rename_i other
        exact fun blocked => other count blocked
    refine ⟨shape.2.1, shape.2.2, ?_, ?_, fun count blocked => absurd blocked (woken count)⟩
    · unfold State.notifyAll
      split
      · rename_i count blocked
        exact .inr ⟨count, blocked, rfl⟩
      · exact .inl rfl
    · intro v g body
      rw [shape.1] at body
      exact set_body (by simp) body

end Steps

/-! ### Runs -/

/-- No body of an older generation runs: before the generation is advanced, and again
once the count has been seen at zero. -/
def InvalidatePc.settled : InvalidatePc → Bool
  | .idle | .closing | .reopening => true
  | _ => false

/-- What holds after `n` invalidations have advanced the generation. -/
structure Inv (n : Nat) (s : State) : Prop where
  tally : s.gate.Tally inflightSpan
  generation : s.generation = n + 1
  draining : s.invalidator ≠ .idle → s.draining = true
  waits : ∀ count, s.invalidator = .comparing count ∨ s.invalidator = .blocked count → count ≠ 0
  current : s.invalidator.settled = true → ∀ u g, s.senders u = .body g → g = s.generation
  wakes : ∀ count, s.invalidator = .blocked count → s.inflight = 0 → s.Notifies

namespace Inv
variable {n : Nat} {s t : State} {a : Action} {event : Event}

theorem bounded (inv : Inv n s) : s.inflight < inflightSpan := by
  obtain ⟨users, -, count⟩ := inv.tally
  rw [show s.inflight = s.gate.inflight from rfl, count]
  exact Nat.mod_lt _ (by decide)

theorem sender (inv : Inv n s) {u : Nat} (uncrowded : t.gate.Uncrowded inflightSpan)
    (stepped : s.senderStep u = some (t, event)) : Inv n t := by
  have tally := inv.tally.step (by decide) (sender_gate stepped)
  have sends := sender_sends stepped
  refine ⟨tally, sends.generation.trans inv.generation, ?_, ?_, ?_, ?_⟩
  · intro busy
    rw [sends.draining]
    apply inv.draining
    intro idle
    rcases sends.invalidator with same | ⟨count, blocked, -⟩
    · exact busy (same.trans idle)
    · rw [idle] at blocked
      cases blocked
  · intro count waiting
    rcases sends.invalidator with same | ⟨count', blocked, comparing⟩
    · rw [same] at waiting
      exact inv.waits count waiting
    · have same : count' = count := by
        rw [comparing] at waiting
        simpa using waiting
      exact same ▸ inv.waits count' (.inr blocked)
  · intro settled v g body
    have before : s.invalidator.settled = true := by
      rcases sends.invalidator with same | ⟨count, -, comparing⟩
      · rw [← same]
        exact settled
      · rw [comparing] at settled
        cases settled
    rw [sends.generation]
    rcases sends.bodies v g body with old | new
    · exact inv.current before v g old
    · exact new
  · intro count blocked zero
    have same : s.invalidator = .blocked count := by
      rcases sends.invalidator with same | ⟨count', -, comparing⟩
      · exact same ▸ blocked
      · rw [comparing] at blocked
        cases blocked
    have draining := inv.draining (by rw [same]; simp)
    refine sends.wakes count blocked draining inv.bounded ?_ (inv.wakes count same) zero
    intro v _ none
    exact tally.nobody uncrowded none v

theorem step (inv : Inv n s) (uncrowded : s.gate.Uncrowded inflightSpan)
    (uncrowded' : t.gate.Uncrowded inflightSpan)
    (bound : event = .advanced → n + 2 < generationSpan)
    (stepped : s.step a = some (t, event)) :
    Inv (n + if event = .advanced then 1 else 0) t := by
  have tally := inv.tally.step (by decide) (step_gate stepped)
  cases a with
  | send u g =>
    simp only [State.step] at stepped
    split at stepped
    · rename_i at'
      split at stepped <;> cases stepped
      · refine ⟨tally, inv.generation, inv.draining, inv.waits, ?_, ?_⟩
        · intro settled v g body
          rcases set_body (by simp) body with old | new
          · exact inv.current settled v g old
          · exact new
        · intro count blocked zero
          exact (inv.wakes count blocked zero).set (by simp [at'])
      · exact inv
    · cases stepped
  | sender u =>
    have quiet : event ≠ .advanced := by
      rintro rfl
      simp only [State.step, State.senderStep] at stepped
      split at stepped
      case h_3 => split at stepped <;> cases stepped
      all_goals cases stepped
    rw [if_neg quiet]
    exact inv.sender uncrowded' stepped
  | invalidate =>
    simp only [State.step] at stepped
    split at stepped <;> cases stepped
    rename_i idle
    exact ⟨tally, inv.generation, fun _ => rfl, by simp, fun _ => inv.current (by rw [idle]; rfl),
      by simp⟩
  | invalidator =>
    simp only [State.step, State.invalidatorStep] at stepped
    split at stepped
    · cases stepped
    · cases stepped
    · rename_i closing
      cases stepped
      refine ⟨tally, ?_, ?_, by simp, ?_, by simp⟩
      · have few := bound rfl
        rw [if_pos rfl]
        change (s.generation + 1) % generationSpan = n + 1 + 1
        rw [inv.generation, Nat.mod_eq_of_lt few]
      · intro _
        exact inv.draining (by rw [closing]; simp)
      · exact nofun
    · rename_i loading
      cases stepped
      have draining := inv.draining (by rw [loading]; simp)
      refine ⟨tally, inv.generation, fun _ => draining, ?_, ?_, ?_⟩
      · intro count waiting
        dsimp only at waiting
        split at waiting
        · simp at waiting
        · rename_i some
          simp only [InvalidatePc.comparing.injEq, reduceCtorEq, or_false] at waiting
          exact waiting ▸ some
      · intro settled v g body
        dsimp only at settled
        split at settled
        · rename_i none
          have running : s.senders v = .body g := body
          have inside : s.gate.position v = .inside g := by simp [State.gate, running, SendPc.position]
          exact absurd inside (inv.tally.drained uncrowded none v g)
        · cases settled
      · intro count blocked
        dsimp only at blocked
        split at blocked <;> cases blocked
    · rename_i count comparing
      cases stepped
      have draining := inv.draining (by rw [comparing]; simp)
      have some := inv.waits count (.inl comparing)
      refine ⟨tally, inv.generation, fun _ => draining, ?_, ?_, ?_⟩
      · intro count' waiting
        dsimp only at waiting
        split at waiting
        · simp only [reduceCtorEq, InvalidatePc.blocked.injEq, false_or] at waiting
          exact waiting ▸ some
        · simp at waiting
      · intro settled
        dsimp only at settled
        split at settled <;> cases settled
      · intro count' blocked zero
        dsimp only at blocked
        split at blocked
        · rename_i same
          exact absurd (same.symm.trans zero) some
        · cases blocked
    · rename_i reopening
      cases stepped
      refine ⟨tally, inv.generation, by simp, by simp, ?_, by simp⟩
      intro _
      exact inv.current (by rw [reopening]; rfl)
  | spurious =>
    simp only [State.step] at stepped
    split at stepped <;> cases stepped
    rename_i count blocked
    refine ⟨tally, inv.generation, ?_, ?_, by simp [InvalidatePc.settled], by simp⟩
    · intro _
      exact inv.draining (by rw [blocked]; simp)
    · intro count' waiting
      have same : count = count' := by simpa using waiting
      exact same ▸ inv.waits count (.inr blocked)

end Inv

abbrev GenerationTrace := List (Entry State Action Event)

/-- Fewer senders than the word can tell apart are inside in every state of the run. -/
def Uncrowded (es : GenerationTrace) : Prop := ∀ e ∈ es, e.after.gate.Uncrowded inflightSpan

/-- How often the generation has been advanced. -/
def advances (es : GenerationTrace) : Nat := es.countP fun e => e.event = .advanced

theorem advances_append (es fs : GenerationTrace) :
    advances (es ++ fs) = advances es + advances fs := List.countP_append

theorem inv_of_run {es : GenerationTrace} {s : State} (run : Run generationMachine es s)
    (uncrowded : Uncrowded es) (bound : advances es + 1 < generationSpan) :
    Inv (advances es) s ∧ s.gate.Uncrowded inflightSpan := by
  induction run with
  | nil =>
    have empty : generationMachine.init.gate.Uncrowded inflightSpan :=
      Gate.Uncrowded.of_bound (n := 0) (by decide) fun _ _ => rfl
    have tally : generationMachine.init.gate.Tally inflightSpan :=
      ⟨∅, by simp [generationMachine, State.gate, SendPc.position, Position.counts], rfl⟩
    refine ⟨⟨tally, rfl, ?_, ?_, ?_, ?_⟩, empty⟩ <;> simp [generationMachine]
  | snoc before stepped ih =>
    rename_i es s a event t
    have counted : advances (es ++ [⟨s, a, event, t⟩]) =
        advances es + if event = .advanced then 1 else 0 := by
      simp [advances, List.countP_append, List.countP_singleton]
    obtain ⟨inv, calm⟩ := ih (fun e member => uncrowded e (List.mem_append_left _ member)) (by
      rw [counted] at bound
      omega)
    have calm' : t.gate.Uncrowded inflightSpan := uncrowded ⟨s, a, event, t⟩ (by simp)
    rw [counted] at bound ⊢
    refine ⟨inv.step calm calm' ?_ stepped, calm'⟩
    intro advanced
    rw [if_pos advanced] at bound
    omega

/-- A body starts only under the current generation. -/
theorem step_bodies {s t : State} {a : Action} {event : Event}
    (stepped : s.step a = some (t, event)) {u g : Nat} (body : t.senders u = .body g) :
    s.senders u = .body g ∨ g = s.generation := by
  cases a with
  | send v g =>
    simp only [State.step] at stepped
    split at stepped
    · split at stepped <;> cases stepped
      · exact set_body (by simp) body
      · exact .inl body
    · cases stepped
  | sender v => exact (sender_sends stepped).bodies u g body
  | invalidate | spurious =>
    simp only [State.step] at stepped
    split at stepped <;> cases stepped
    exact .inl body
  | invalidator =>
    simp only [State.step, State.invalidatorStep] at stepped
    split at stepped <;> cases stepped <;> exact .inl body

theorem invalidated_step {s t : State} {a : Action} (stepped : s.step a = some (t, .invalidated)) :
    s.invalidator = .reopening ∧ t.generation = s.generation ∧ t.senders = s.senders := by
  cases a with
  | send v g =>
    simp only [State.step] at stepped
    split at stepped
    · split at stepped <;> cases stepped
    · cases stepped
  | sender v =>
    simp only [State.step, State.senderStep] at stepped
    split at stepped
    case h_3 => split at stepped <;> cases stepped
    all_goals cases stepped
  | invalidate | spurious =>
    simp only [State.step] at stepped
    split at stepped <;> cases stepped
  | invalidator =>
    simp only [State.step, State.invalidatorStep] at stepped
    split at stepped <;> cases stepped
    rename_i reopening
    exact ⟨reopening, rfl, rfl⟩

theorem running_step {s t : State} {a : Action} {u g : Nat}
    (stepped : s.step a = some (t, .running u g)) :
    s.senders u = .entered g ∧ s.generation = g := by
  cases a with
  | send v g =>
    simp only [State.step] at stepped
    split at stepped
    · split at stepped <;> cases stepped
    · cases stepped
  | sender v =>
    simp only [State.step, State.senderStep] at stepped
    split at stepped
    case h_3 entered =>
      split at stepped
      · rename_i current
        cases stepped
        exact ⟨entered, current.symm⟩
      · cases stepped
    all_goals cases stepped
  | invalidate | spurious =>
    simp only [State.step] at stepped
    split at stepped <;> cases stepped
  | invalidator =>
    simp only [State.step, State.invalidatorStep] at stepped
    split at stepped <;> cases stepped

section Returned
variable {past rest : GenerationTrace} {e : Entry State Action Event} {s : State}

/-- After `invalidate` has returned, no body of an older generation runs. -/
theorem since_invalidated (run : Run generationMachine (past ++ e :: rest) s)
    (uncrowded : Uncrowded (past ++ e :: rest))
    (bound : advances (past ++ e :: rest) + 1 < generationSpan) (returned : e.event = .invalidated) :
    ∀ u g, s.senders u = .body g → e.after.generation ≤ g := by
  rw [← List.singleton_append, ← List.append_assoc] at run uncrowded bound
  refine (run.since (P := fun fs s => Uncrowded (past ++ [e] ++ fs) →
    advances (past ++ [e] ++ fs) + 1 < generationSpan →
    ∀ u g, s.senders u = .body g → e.after.generation ≤ g) ?_ ?_) uncrowded bound
  · intro s run uncrowded bound u g body
    obtain ⟨before, stepped, rfl⟩ := run.of_snoc
    rw [returned] at stepped
    obtain ⟨reopening, same, senders⟩ := invalidated_step stepped
    simp only [List.append_nil, advances_append] at bound uncrowded
    obtain ⟨inv, -⟩ := inv_of_run before
      (fun x member => uncrowded x (List.mem_append_left _ member)) (by omega)
    rw [same]
    rw [senders] at body
    exact (inv.current (by rw [reopening]; rfl) u g body).ge
  · intro fs s a event t run ih stepped uncrowded bound u g body
    rw [← List.append_assoc] at uncrowded bound
    have fewer : Uncrowded (past ++ [e] ++ fs) :=
      fun x member => uncrowded x (List.mem_append_left _ member)
    have bound' : advances (past ++ [e] ++ fs) + 1 < generationSpan := by
      rw [advances_append] at bound
      omega
    rcases step_bodies stepped body with old | rfl
    · exact ih fewer bound' u g old
    · -- generations only grow before the word comes round
      obtain ⟨now, -⟩ := inv_of_run run fewer bound'
      have first : Run generationMachine (past ++ [e]) e.after := by
        obtain ⟨v, before⟩ := Run.split run
        obtain rfl := before.of_snoc.2.2
        exact before
      obtain ⟨then', -⟩ := inv_of_run first
        (fun x member => fewer x (List.mem_append_left _ member)) (by
          rw [advances_append] at bound'
          omega)
      rw [now.generation, then'.generation, advances_append (past ++ [e])]
      omega

end Returned

/-- When `invalidate` returns, no body of an older generation runs and none will; a body runs
only under the generation that is current after it has entered; the count is that of the
senders inside; and a blocked `invalidate` with nobody inside is about to be notified. -/
theorem control_generation {es : GenerationTrace} {s : State} (run : Run generationMachine es s)
    (uncrowded : Uncrowded es) (bound : advances es + 1 < generationSpan) :
    (∀ past e rest, es = past ++ e :: rest → e.event = .invalidated →
      (∀ u g, e.after.senders u = .body g → g = e.after.generation) ∧
      ∀ x ∈ rest, ∀ u g, x.after.senders u = .body g → e.after.generation ≤ g) ∧
    (∀ e ∈ es, ∀ u g, e.event = .running u g →
      e.before.senders u = .entered g ∧ e.before.generation = g) ∧
    (∃ users : Finset Nat, (∀ u, u ∈ users ↔ (s.senders u).isEntered = true) ∧
      s.inflight = users.card) ∧
    ∀ count, s.invalidator = .blocked count → s.inflight = 0 → s.draining = true ∧ s.Notifies := by
  obtain ⟨inv, calm⟩ := inv_of_run run uncrowded bound
  refine ⟨?_, ?_, inv.tally.exact calm, ?_⟩
  · rintro past e rest rfl returned
    constructor
    · obtain ⟨before, stepped⟩ := run.entry
      rw [returned] at stepped
      obtain ⟨reopening, same, senders⟩ := invalidated_step stepped
      obtain ⟨inv, -⟩ := inv_of_run before
        (fun x member => uncrowded x (List.mem_append_left _ member)) (by
          rw [advances_append] at bound
          omega)
      rw [same, senders]
      exact inv.current (by rw [reopening]; rfl)
    · intro x member
      obtain ⟨mid, later, rfl⟩ := List.append_of_mem member
      have whole : past ++ e :: (mid ++ x :: later) = (past ++ e :: (mid ++ [x])) ++ later := by simp
      rw [whole] at run uncrowded bound
      rw [advances_append] at bound
      obtain ⟨v, reached⟩ := run.split
      have ends : v = x.after := by
        rw [← List.cons_append, ← List.append_assoc] at reached
        exact reached.of_snoc.2.2
      subst ends
      exact since_invalidated reached (fun y member => uncrowded y (List.mem_append_left _ member))
        (by omega) returned
  · intro e member u g running
    obtain ⟨past, -, stepped⟩ := run.entry_of_mem member
    rw [running] at stepped
    exact running_step stepped
  · intro count blocked zero
    exact ⟨inv.draining (by rw [blocked]; simp), inv.wakes count blocked zero⟩

/-! ### A drained sender -/

/-- The sender an action is of. -/
def Action.sender? : Action → Option Nat
  | .send t _ | .sender t => some t
  | _ => none

theorem step_frame {s t : State} {a : Action} {event : Event} (stepped : s.step a = some (t, event))
    {u : Nat} (other : a.sender? ≠ some u) : t.senders u = s.senders u := by
  have set {v : Nat} {pc : SendPc} (apart : v ≠ u) :
      Function.update s.senders v pc u = s.senders u := Function.update_of_ne (Ne.symm apart) ..
  cases a with
  | send v g =>
    have apart : v ≠ u := by simpa [Action.sender?] using other
    simp only [State.step] at stepped
    split at stepped
    · split at stepped <;> cases stepped
      · exact set apart
      · rfl
    · cases stepped
  | sender v =>
    have apart : v ≠ u := by simpa [Action.sender?] using other
    have woken : (s.set v .idle).notifyAll.senders = (s.set v .idle).senders := by
      unfold State.notifyAll
      split <;> rfl
    simp only [State.step, State.senderStep] at stepped
    split at stepped
    case h_1 => cases stepped
    case h_3 => split at stepped <;> cases stepped <;> exact set apart
    case h_7 =>
      cases stepped
      rw [woken]
      exact set apart
    all_goals cases stepped; exact set apart
  | invalidate | spurious =>
    simp only [State.step] at stepped
    split at stepped <;> cases stepped
    rfl
  | invalidator =>
    simp only [State.step, State.invalidatorStep] at stepped
    split at stepped <;> cases stepped <;> rfl

/-- Few senders never crowd the gate. -/
theorem uncrowded_of_senders {es : GenerationTrace} {s : State} {n : Nat}
    (run : Run generationMachine es s) (few : n < inflightSpan)
    (only : Meets (fun _ a => (a.sender?.all fun u => decide (u < n)) = true) es) :
    Uncrowded es := by
  intro x member
  obtain ⟨past, rest, rfl⟩ := List.append_of_mem member
  have whole : past ++ x :: rest = (past ++ [x]) ++ rest := by simp
  rw [whole] at run only
  obtain ⟨v, reached⟩ := run.split
  obtain rfl := reached.of_snoc.2.2
  have idle : ∀ u, n ≤ u → x.after.senders u = .idle := by
    refine reached.guarded (P := fun s => ∀ u, n ≤ u → s.senders u = .idle)
      (fun _ _ => rfl) ?_ (Meets.append.mp only).1
    intro s a event t before mine stepped u above
    have other : a.sender? ≠ some u := by
      intro same
      simp only [same, Option.all_some, decide_eq_true_eq] at mine
      omega
    rw [step_frame stepped other]
    exact before u above
  refine Gate.Uncrowded.of_bound few fun u above => ?_
  simp [State.gate, idle u above, SendPc.position, Position.counts]

/-- `invalidate` blocks on a running body and is notified when it has left. -/
def drainedSend : List Action :=
  [.send 0 1, .sender 0, .sender 0, .invalidate, .invalidator, .invalidator, .invalidator, .sender 0,
    .sender 0, .sender 0, .sender 0, .invalidator, .invalidator, .invalidator]

def drainedTrace : GenerationTrace :=
  ((exec generationMachine drainedSend [] generationMachine.init).get (by decide +kernel)).1

theorem drainedTrace_length : 13 < drainedTrace.length := by decide +kernel

theorem control_generation_drained :
    (drainedTrace.get ⟨13, drainedTrace_length⟩).event = .invalidated ∧
    (drainedTrace.get ⟨13, drainedTrace_length⟩).after.generation = 2 ∧
    ∀ u g, (drainedTrace.get ⟨13, drainedTrace_length⟩).after.senders u = .body g → g = 2 := by
  have run : Run generationMachine drainedTrace _ := exec_get _
  have single : Meets (fun _ a => (a.sender?.all fun u => decide (u < 1)) = true) drainedTrace :=
    .of_all (by decide +kernel)
  have split : drainedTrace = drainedTrace.take 13 ++ drainedTrace.get ⟨13, drainedTrace_length⟩ ::
      drainedTrace.drop 14 := by simp
  obtain ⟨returned, -⟩ :=
    control_generation run (uncrowded_of_senders run (by decide) single) (by decide +kernel)
  exact ⟨by decide +kernel, rfl, (returned _ _ _ split (by decide +kernel)).1⟩

/-! ### When the words come round -/

/-- Nobody inside, under generation `g`. -/
def quietState (g : Nat) : State := { generation := g }

/-- One call of `invalidate` with nobody inside. -/
def invalidation : List Action := [.invalidate, .invalidator, .invalidator, .invalidator]

theorem follow_invalidation (g : Nat) : follow generationMachine invalidation (quietState g) =
    some (quietState ((g + 1) % generationSpan)) := rfl

/-- `n` senders with a running body. -/
def crowdedState (n : Nat) : State :=
  { inflight := n % inflightSpan, senders := fun t => if t < n then .body 1 else .idle }

theorem follow_enter_body (n : Nat) :
    follow generationMachine [.send n 1, .sender n, .sender n] (crowdedState n) =
      some (crowdedState (n + 1)) := by
  have senders : Function.update (crowdedState n).senders n (.body 1) =
      (crowdedState (n + 1)).senders := by
    funext t
    rcases Nat.lt_trichotomy t n with below | rfl | above
    · simp only [crowdedState, Function.update_of_ne below.ne, if_pos below,
        if_pos (Nat.lt_succ_of_lt below)]
    · simp [crowdedState]
    · simp only [crowdedState, Function.update_of_ne above.ne', if_neg (Nat.not_lt_of_gt above),
        if_neg (Nat.not_lt_of_ge (Nat.succ_le_of_lt above))]
  have idle : (crowdedState n).senders n = .idle := by simp [crowdedState]
  have entered : follow generationMachine [.send n 1, .sender n, .sender n] (crowdedState n) =
      some { crowdedState n with
        inflight := (n % inflightSpan + 1) % inflightSpan
        senders := Function.update (crowdedState n).senders n (.body 1) } := by
    have current : 1 = (crowdedState n).generation := rfl
    simp only [follow, generationMachine, State.step, State.senderStep, State.set, idle,
      Function.update_self, Function.update_idem, ← current, if_true]
    rfl
  rw [entered, senders, Nat.mod_add_mod]
  rfl

/-- After 2^64 invalidations a body of the first generation runs again, and with 2^32
senders inside the count is zero. -/
theorem control_generation_broken :
    (∃ past e rest s, Run generationMachine (past ++ e :: rest) s ∧ e.event = .invalidated ∧
      e.after.generation = 2 ∧ ∃ x ∈ rest, x.event = .running 0 1) ∧
    ∃ es s, Run generationMachine es s ∧ s.inflight = 0 ∧ s.senders 0 = .body 1 := by
  constructor
  · obtain ⟨u, led, stepped⟩ : ∃ u,
        follow generationMachine [.invalidate, .invalidator, .invalidator] {} = some u ∧
        generationMachine.step u .invalidator = some (quietState 2, .invalidated) := ⟨_, rfl, rfl⟩
    obtain ⟨past, -, closed⟩ := follow_run .nil led
    have init := Run.snoc closed stepped
    simp only [List.nil_append] at init
    have turn (n : Nat) : follow generationMachine invalidation
        (quietState ((n + 2) % generationSpan)) =
          some (quietState ((n + 1 + 2) % generationSpan)) := by
      rw [follow_invalidation, Nat.mod_add_mod, Nat.add_right_comm]
    obtain ⟨fs, cycled⟩ := follow_cycle turn init (generationSpan - 1)
    have back : (generationSpan - 1 + 2) % generationSpan = 1 := by decide
    rw [back] at cycled
    obtain ⟨v, w, led, accepted⟩ : ∃ v w,
        follow generationMachine [.send 0 1, .sender 0] (quietState 1) = some v ∧
        generationMachine.step v (.sender 0) = some (w, .running 0 1) := ⟨_, _, rfl, rfl⟩
    obtain ⟨gs, -, entered⟩ := follow_run cycled led
    have running := Run.snoc entered accepted
    refine ⟨past, ⟨u, .invalidator, .invalidated, quietState 2⟩,
      fs ++ gs ++ [⟨v, .sender 0, .running 0 1, w⟩], w, by simpa using running, rfl, rfl,
      ⟨v, .sender 0, .running 0 1, w⟩, by simp, rfl⟩
  · have start : Run generationMachine [] (crowdedState 0) := .nil
    obtain ⟨fs, crowded⟩ := follow_cycle follow_enter_body start inflightSpan
    exact ⟨_, _, crowded, Nat.mod_self _, by simp [crowdedState, inflightSpan]⟩

end Florid.Arm.ControlGeneration
