import Florid.Wirelink.RequestIds

/-! The time an operation may spend in the queue, against true times. Clock readings are true
times modulo 2^32; while the age of an operation stays in the signed range, the arithmetic of
`s_queueRemaining` is that of the integers. -/
namespace Florid.Wirelink
open Transition

variable {w next : World} {a : Action} {event : Event}

/-! ### Ages -/

/-- The clock reads `time`, up to wrapping. -/
def ReadsAt (clock : TimeMs) (time : Int) : Prop := clock = BitVec.ofInt 32 time

/-- The signed reinterpretation of a difference of clock readings is the true age. -/
theorem age_eq {now submitted : TimeMs} {p s : Int} (reads : ReadsAt now p)
    (stamped : ReadsAt submitted s) (low : -2 ^ 31 < p - s) (high : p - s < 2 ^ 31) :
    (now - submitted).toInt = p - s := by
  have apart : BitVec.ofInt 32 p = BitVec.ofInt 32 (p - s) + BitVec.ofInt 32 s := by
    rw [← BitVec.ofInt_add, Int.sub_add_cancel]
  rw [reads, stamped, apart, BitVec.add_sub_cancel, BitVec.toInt_ofInt]
  exact Int.bmod_eq_of_le (by omega) (by omega)

/-- What is left of a timeout: all of it until the age is positive, then the difference. -/
theorem queueRemaining_eq {now submitted : TimeMs} (timeout : Nat) {p s : Int}
    (reads : ReadsAt now p) (stamped : ReadsAt submitted s) (low : -2 ^ 31 < p - s)
    (high : p - s < 2 ^ 31) :
    (queueRemaining now submitted timeout : Int) = max 0 (timeout - max 0 (p - s)) := by
  unfold queueRemaining
  simp only [age_eq reads stamped low high]
  split <;> omega

/-! ### Submissions -/

/-- The clock a step samples. -/
def Action.clock : Action → Option TimeMs
  | .submit _ clock | .owner clock _ | .complete _ clock _ _ => some clock
  | _ => none

/-- The step that submitted the operation in `slot`, stamped and timed as it says. -/
def Submits (x : Entry World Action Event) (slot : OperationSlot) : Prop :=
  ∃ internal s, x.event = .submitted internal s { status := .ok, requestId := slot.requestId } ∧
    x.action.clock = some slot.submittedAtMs ∧ s.timeoutMs = slot.timeoutMs ∧
    s.kind = slot.kind

/-- The operation in `slot` was submitted when the history was `past`. -/
def SubmittedAfter (past es : Trace) (slot : OperationSlot) : Prop :=
  ∃ x rest, es = past ++ x :: rest ∧ Submits x slot

theorem SubmittedAfter.mono {past es fs : Trace} {slot : OperationSlot}
    (submitted : SubmittedAfter past es slot) : SubmittedAfter past (es ++ fs) slot := by
  obtain ⟨x, rest, rfl, submits⟩ := submitted
  exact ⟨x, rest ++ fs, by simp, submits⟩

/-- A slot in use holds what this step submitted, or what it held before. -/
theorem Moves.submission (inv : SlotsInv w) (moved : Moves w a next event) {i : SlotIndex}
    (used : (next.endpoint.operations i).used = true) :
    (event.accepted = true ∧ (next.endpoint.operations i).requestId = w.endpoint.nextRequestId ∧
      Submits ⟨w, a, event, next⟩ (next.endpoint.operations i)) ∨
    (w.endpoint.operations i).used = true ∧
      (next.endpoint.operations i).requestId = (w.endpoint.operations i).requestId ∧
      (next.endpoint.operations i).submittedAtMs = (w.endpoint.operations i).submittedAtMs ∧
      (next.endpoint.operations i).timeoutMs = (w.endpoint.operations i).timeoutMs ∧
      (next.endpoint.operations i).kind = (w.endpoint.operations i).kind := by
  cases accepted : event.accepted
  · right
    have change := inv.slot_change moved i
    generalize next.endpoint.operations i = slot at change used ⊢
    cases change with
    | submitted _ made => simp [made, Event.accepted] at accepted
    | kept | restated | finalized | cancelled => exact ⟨used, rfl, rfl, rfl, rfl⟩
    | dropped | taken => cases used
  · have filled {j : SlotIndex} {slot : OperationSlot}
        (is : next.endpoint.operations = Function.update w.endpoint.operations j slot)
        (new : slot.requestId = w.endpoint.nextRequestId ∧ Submits ⟨w, a, event, next⟩ slot) :
        ((next.endpoint.operations i).requestId = w.endpoint.nextRequestId ∧
          Submits ⟨w, a, event, next⟩ (next.endpoint.operations i)) ∨
        next.endpoint.operations i = w.endpoint.operations i := by
      rw [is]
      by_cases same : i = j
      · subst same
        rw [Function.update_self]
        exact .inl new
      · rw [Function.update_of_ne same]
        exact .inr rfl
    cases moved <;> simp only [Event.accepted, Bool.false_eq_true] at accepted
    case blocked => simp at accepted
    case rejected failed => simp [failed] at accepted
    case renewalRejected failed => simp [failed] at accepted
    case queued =>
      rcases filled rfl ⟨rfl, _, _, rfl, rfl, rfl, rfl⟩ with new | same
      · exact .inl ⟨rfl, new⟩
      · rw [same] at used ⊢
        exact .inr ⟨used, rfl, rfl, rfl, rfl⟩
    case renewalQueued =>
      rcases filled rfl ⟨rfl, _, _, rfl, rfl, rfl, rfl⟩ with new | same
      · exact .inl ⟨rfl, new⟩
      · rw [same] at used ⊢
        exact .inr ⟨used, rfl, rfl, rfl, rfl⟩

/-- Every operation in the table was submitted by one step; its id counts the submissions. -/
theorem submitted_of_run {es : Trace} (run : Run machine es w) {i : SlotIndex}
    (used : (w.endpoint.operations i).used = true) :
    ∃ past, SubmittedAfter past es (w.endpoint.operations i) ∧
      (submissions es < 2 ^ 64 - 1 → submissions past + 1 = (w.endpoint.operations i).requestId) := by
  refine run.history (P := fun es w => ∀ i, (w.endpoint.operations i).used = true →
    ∃ past, SubmittedAfter past es (w.endpoint.operations i) ∧
      (submissions es < 2 ^ 64 - 1 →
        submissions past + 1 = (w.endpoint.operations i).requestId)) ?_ ?_ i used
  · intro i used
    cases used
  · intro es s a e t before held stepped i used
    rcases (step_moves stepped).submission (SlotsInv.of_run before) used with
      ⟨accepted, id, submits⟩ | ⟨earlier, id, stamp, timeout, kind⟩
    · refine ⟨es, ⟨_, [], rfl, submits⟩, ?_⟩
      intro bound
      rw [submissions_snoc, if_pos accepted] at bound
      rw [id, (IdsInv.of_run before (by omega)).next_id (by omega)]
    · obtain ⟨past, ⟨x, rest, rfl, internal, request, made, clock, lasts, does⟩, counted⟩ :=
        held i earlier
      refine ⟨past, SubmittedAfter.mono ⟨x, rest, rfl, internal, request, ?_⟩, ?_⟩
      · rw [id, stamp, timeout, kind]
        exact ⟨made, clock, lasts, does⟩
      · intro bound
        rw [submissions_append] at bound
        rw [id]
        exact counted (by omega)

/-- Of two submissions in a history the one with fewer before it comes first. -/
theorem SubmittedAfter.earlier {es past later : Trace} {slot other : OperationSlot}
    (first : SubmittedAfter past es slot) (second : SubmittedAfter later es other)
    (fewer : submissions past < submissions later) : ∃ x between, later = past ++ x :: between := by
  obtain ⟨x, rest, rfl, -⟩ := first
  obtain ⟨y, tail, same, -⟩ := second
  rcases List.append_eq_append_iff.mp same with ⟨between, rfl, split⟩ | ⟨extra, rfl, -⟩
  · cases between with
    | nil => simp at fewer
    | cons z between => exact ⟨z, between, rfl⟩
  · rw [submissions_append] at fewer
    omega

/-! ### Passes -/

def passClock (x : Entry World Action Event) : Option TimeMs :=
  match x.action with
  | .pass now => some now
  | _ => none

/-- The clock the last pass sampled. -/
def lastPass (es : Trace) : Option TimeMs := (es.filterMap passClock).getLast?

/-- The clock the owner works with. -/
def OwnerPc.passNow : OwnerPc → Option TimeMs
  | .expiry now _ | .gate now | .dropLease now | .renewal now | .renewalGate now _
  | .renewalSubmit now _ | .startNext now | .launching now _
  | .finalizing _ _ (some (now, _)) => some now
  | _ => none

theorem Moves.passNow (moved : Moves w a next event) {now : TimeMs}
    (inside : next.owner.passNow = some now) :
    passClock ⟨w, a, event, next⟩ = some now ∨
      passClock ⟨w, a, event, next⟩ = none ∧ w.owner.passNow = some now := by
  cases moved with
  | pass => exact .inl inside
  | refused | called | blocked | passed | rejected | queued | tokenBusy | tokenGate | tokenRead
  | inspected | waited | tookNothing | took | upgrade => exact .inr ⟨rfl, inside⟩
  | expiredInQueue _ pc | notExpired _ pc | expireLease pc | dropLease pc | notDue pc | due pc
  | renewalBlocked pc | renewalPassed pc | renewalRejected pc | renewalQueued pc | selected pc =>
    rw [pc]
    exact .inr ⟨rfl, inside⟩
  | readGate pc =>
    rw [pc]
    dsimp only at inside
    split at inside <;> exact .inr ⟨rfl, inside⟩
  | finalize pc =>
    rename_i resume
    rw [pc]
    cases resume with
    | none => cases inside
    | some resume => exact .inr ⟨rfl, inside⟩
  | startCommit =>
    dsimp only at inside
    split at inside <;> cases inside
  | quiesce pc =>
    dsimp only at inside
    rw [pc] at inside
    cases inside
  | nothingToStart | expiredAtStart | launch | startFailed | complete => cases inside

/-- Throughout a pass the owner works with the clock the pass began with. -/
theorem passNow_of_run {es : Trace} (run : Run machine es w) {now : TimeMs}
    (inside : w.owner.passNow = some now) : lastPass es = some now := by
  refine run.history (P := fun es w => ∀ now, w.owner.passNow = some now →
    lastPass es = some now) ?_ ?_ now inside
  · intro now inside
    cases inside
  · intro es s a e t before held stepped now inside
    unfold lastPass at held ⊢
    rw [List.filterMap_append]
    rcases (step_moves stepped).passNow inside with began | ⟨other, within⟩
    · simp [began]
    · simpa [other] using held now within

/-! ### Oldest first -/

/-- How the owner comes to stand before a start. -/
theorem Moves.launching_cases (moved : Moves w a next event) {now : TimeMs}
    {i : SlotIndex} (launching : next.owner = .launching now i) :
    (w.owner = .launching now i ∧
      ∀ j, next.endpoint.Waiting j → w.endpoint.Waiting j ∨ event.accepted = true ∧
        (next.endpoint.operations j).requestId = w.endpoint.nextRequestId) ∨
    w.endpoint.findQueuedSlot = some i ∧ event.accepted = false ∧
      ∀ j, next.endpoint.Waiting j → w.endpoint.Waiting j := by
  have written {k : SlotIndex} {slot : OperationSlot} {j : SlotIndex}
      (is : next.endpoint.operations = Function.update w.endpoint.operations k slot)
      (waiting : next.endpoint.Waiting j) : w.endpoint.Waiting j ∨ j = k := by
    by_cases same : j = k
    · exact .inr same
    · unfold Endpoint.Waiting at waiting ⊢
      rw [is, Function.update_of_ne same] at waiting
      exact .inl waiting
  cases moved with
  | refused | called | blocked | passed | rejected | tokenBusy | tokenGate | tokenRead
  | inspected | waited | tookNothing | upgrade => exact .inl ⟨launching, fun j h => .inl h⟩
  | queued =>
    refine .inl ⟨launching, ?_⟩
    intro j waiting
    rcases written rfl waiting with earlier | rfl
    · exact .inl earlier
    · refine .inr ⟨rfl, ?_⟩
      simp [Endpoint.submittedSlot]
  | took =>
    refine .inl ⟨launching, ?_⟩
    intro j waiting
    rcases written rfl waiting with earlier | rfl
    · exact .inl earlier
    · simp [Endpoint.Waiting] at waiting
  | selected pc inactive found =>
    cases launching
    refine .inr ⟨found, rfl, ?_⟩
    intro j waiting
    rcases written rfl waiting with earlier | rfl
    · exact earlier
    · simp [Endpoint.Waiting] at waiting
  | readGate | startCommit =>
    dsimp only at launching
    split at launching <;> cases launching
  | finalize =>
    rename_i resume _
    cases resume <;> cases launching
  | quiesce pc =>
    dsimp only at launching
    rw [pc] at launching
    cases launching
  | _ => cases launching

/-- While the owner starts an operation nothing older waits. -/
theorem oldest_of_run {es : Trace} (run : Run machine es w) (bound : submissions es < 2 ^ 64 - 1)
    {now : TimeMs} {i : SlotIndex} (launching : w.owner = .launching now i) {j : SlotIndex}
    (waiting : w.endpoint.Waiting j) :
    (w.endpoint.operations i).requestId ≤ (w.endpoint.operations j).requestId := by
  refine run.history (P := fun es w => submissions es < 2 ^ 64 - 1 → ∀ now i,
    w.owner = .launching now i → ∀ j, w.endpoint.Waiting j →
      (w.endpoint.operations i).requestId ≤ (w.endpoint.operations j).requestId)
    ?_ ?_ bound now i launching j waiting
  · intro _ now i launching
    cases launching
  · intro es s a e t before held stepped bound now i launching j waiting
    have inv := SlotsInv.of_run before
    have moved := step_moves stepped
    have after := inv.moves moved
    rw [submissions_snoc] at bound
    have ids := IdsInv.of_run before (by omega)
    -- The slot being started keeps its id; a new submission gets a larger one.
    have used : (t.endpoint.operations i).used = true := by
      have owner := after.owner
      simp only [World.OwnerOk, launching] at owner
      exact (after.table.active i owner.1).1
    rcases moved.launching_cases launching with ⟨earlier, others⟩ | ⟨found, quiet, others⟩
    · have place := inv.owner
      simp only [World.OwnerOk, earlier] at place
      obtain ⟨usedBefore, -⟩ := inv.table.active i place.1
      have same : (t.endpoint.operations i).requestId = (s.endpoint.operations i).requestId := by
        rcases moved.submission inv used with ⟨accepted, id, -⟩ | ⟨-, id, -⟩
        · obtain ⟨_, _, _, k, -, -, free, filled, -⟩ := moved.accepted accepted
          rw [filled]
          rw [Function.update_of_ne]
          rintro rfl
          rw [usedBefore] at free
          cases free
        · exact id
      rw [same]
      rcases others j waiting with waited | ⟨accepted, new⟩
      · rcases moved.submission inv waiting.1 with ⟨accepted, id, -⟩ | ⟨-, id, -⟩
        · have upper := (ids.bounds i usedBefore).2
          rw [id, ids.next_id (by omega)]
          omega
        · rw [id]
          exact held (by omega) now i earlier j waited
      · have upper := (ids.bounds i usedBefore).2
        rw [new, ids.next_id (by omega)]
        omega
    · obtain ⟨-, -, least⟩ := Endpoint.findQueuedSlot_some found
      have kept (k : SlotIndex) (usedK : (t.endpoint.operations k).used = true) :=
        ((inv.slot_change moved k).same_id quiet usedK).2
      rw [kept i used, kept j waiting.1]
      exact least j (others j waiting)

/-! ### Overdue operations -/

/-- Nobody but the owner touches a waiting operation while a pass is under way. -/
theorem Moves.waiting_kept (moved : Moves w a next event) {i : SlotIndex}
    (waiting : w.endpoint.Waiting i) (busy : w.owner ≠ .idle)
    (other : ∀ clock st, a ≠ .owner clock st) :
    next.endpoint.operations i = w.endpoint.operations i := by
  cases moved with
  | queued _ _ free =>
    refine Function.update_of_ne ?_ _ _
    rintro rfl
    rw [waiting.1] at free
    cases free
  | took found done =>
    refine Function.update_of_ne ?_ _ _
    rintro rfl
    rw [waiting.2] at done
    cases done
  | pass idle | complete idle | quiesce idle => exact absurd idle busy
  | refused | called | blocked | passed | rejected | tokenBusy | tokenGate | tokenRead | inspected
  | waited | tookNothing | upgrade => rfl
  | _ => exact absurd rfl (other _ _)

def Event.starts : Event → Bool
  | .started _ _ _ => true
  | _ => false

theorem Moves.started {slot : OperationSlot} {remaining : Nat} {code : WlErr}
    (moved : Moves w a next (.started slot remaining code)) :
    ∃ now i, w.owner = .launching now i ∧ slot = w.endpoint.operations i ∧
      remaining = queueRemaining now slot.submittedAtMs slot.timeoutMs ∧ remaining ≠ 0 := by
  cases moved with
  | launch pc time => exact ⟨_, _, pc, rfl, rfl, time⟩

/-- The pass has yet to look at slot `i`. -/
def OwnerPc.before (now : TimeMs) (i : SlotIndex) : OwnerPc → Prop
  | .expiry at' n => at' = now ∧ n ≤ i.val
  | .finalizing j _ (some (at', n)) => at' = now ∧ n ≤ i.val ∧ j ≠ i
  | _ => False

/-- The result of an operation that timed out in the queue. -/
def TimesOut (f : Endpoint.Finalization) : Prop := f.state = .timedOut ∧ f.status = .timeout

theorem timesOut_local (slot : OperationSlot) (clock : TimeMs) :
    TimesOut (Endpoint.finalization slot clock { status := .timedOut } none) := ⟨rfl, rfl⟩

/-- One step of a pass that has yet to finish with an overdue operation. -/
theorem overdue_step {now : TimeMs} {i : SlotIndex} (moved : Moves w a next event)
    (waiting : w.endpoint.Waiting i) (overdue : queueRemaining now
      (w.endpoint.operations i).submittedAtMs (w.endpoint.operations i).timeoutMs = 0)
    (place : w.owner.before now i ∨ ∃ f, w.owner = .finalizing i f (some (now, i + 1)) ∧
      TimesOut f) :
    (event.starts = false ∧ next.endpoint.operations i = w.endpoint.operations i ∧
      (next.owner.before now i ∨ ∃ f, next.owner = .finalizing i f (some (now, i + 1)) ∧
        TimesOut f)) ∨
    ∃ f, event = .finalized (w.endpoint.operations i).requestId f ∧ TimesOut f := by
  have busy : w.owner ≠ .idle := by
    intro idle
    rcases place with place | ⟨f, place, -⟩ <;> rw [idle] at place
    · exact place
    · cases place
  by_cases turn : ∃ clock st, a = .owner clock st
  · obtain ⟨clock, st, rfl⟩ := turn
    rcases place with place | ⟨f, place, timedOut⟩
    · cases pc : w.owner with
      | expiry at' n =>
        rw [pc] at place
        obtain ⟨rfl, le⟩ := place
        have bound : n < 8 := lt_of_le_of_lt le i.isLt
        obtain ⟨rfl, ⟨-, rfl⟩ | ⟨fresh, rfl⟩⟩ := moved.at_expiry bound pc
        · refine .inl ⟨rfl, rfl, ?_⟩
          by_cases reached : n = i.val
          · subst reached
            exact .inr ⟨_, rfl, timesOut_local _ _⟩
          · left
            refine ⟨rfl, by omega, ?_⟩
            rintro rfl
            exact reached rfl
        · refine .inl ⟨rfl, rfl, .inl ⟨rfl, ?_⟩⟩
          by_contra passed
          have reached : i = ⟨n, bound⟩ := Fin.ext (show i.val = n by omega)
          subst reached
          simp [Endpoint.queueExpired, waiting.1, waiting.2, overdue] at fresh
      | finalizing j f resume =>
        rw [pc] at place
        cases resume with
        | none => exact place.elim
        | some resume =>
          obtain ⟨at', n⟩ := resume
          obtain ⟨rfl, le, apart⟩ := place
          obtain ⟨rfl, rfl⟩ := moved.at_finalizing pc
          refine .inl ⟨rfl, ?_, .inl ⟨rfl, le⟩⟩
          rw [Endpoint.finalize_operations, Function.update_of_ne apart.symm]
      | _ => rw [pc] at place; exact place.elim
    · obtain ⟨-, rfl⟩ := moved.at_finalizing place
      exact .inr ⟨f, rfl, timedOut⟩
  · have other : ∀ clock st, a ≠ .owner clock st := fun clock st h => turn ⟨clock, st, h⟩
    have stays := moved.owner_kept other busy
    refine .inl ⟨?_, moved.waiting_kept waiting busy other, by rw [stays]; exact place⟩
    cases moved with
    | launch => exact absurd rfl (other _ _)
    | _ => rfl

/-! ### The budget -/

/-- An operation queued when a pass begins, as old as its timeout or older, is finalized as
timed out by that pass, still from the queue and before the pass starts anything. -/
def ExpiresOverdue (x : Entry World Action Event) (rest : Trace) (w : World) : Prop :=
  ∀ now i p s, x.action = .pass now → x.before.endpoint.Waiting i → ReadsAt now p →
    ReadsAt (x.before.endpoint.operations i).submittedAtMs s → -2 ^ 31 < p - s → p - s < 2 ^ 31 →
    (x.before.endpoint.operations i).timeoutMs ≤ p - s →
    ∃ during, (∀ y ∈ during, y.event.starts = false) ∧
      (rest = during ∧ w.endpoint.operations i = x.before.endpoint.operations i ∨
        ∃ y later f, rest = during ++ y :: later ∧
          y.before.endpoint.operations i = x.before.endpoint.operations i ∧
          y.event = .finalized (x.before.endpoint.operations i).requestId f ∧ TimesOut f)

/-- An operation is started with what the queue left of its timeout. Its stamp and timeout are
those of its submission. -/
def StartsInBudget (past : Trace) (x : Entry World Action Event) : Prop :=
  ∀ slot remaining code, x.event = .started slot remaining code →
    (∃ submitted, SubmittedAfter submitted past slot) ∧
    ∃ now, lastPass past = some now ∧
      ∀ p s, ReadsAt now p → ReadsAt slot.submittedAtMs s → -2 ^ 31 < p - s → p - s < 2 ^ 31 →
        (remaining : Int) = slot.timeoutMs - max 0 (p - s) ∧ 0 < remaining

/-- The owner gives up a queued operation only when its whole timeout has passed. -/
def NeverEarly (past : Trace) (x : Entry World Action Event) : Prop :=
  ∀ i : SlotIndex, x.after.owner.finalizes i = true →
    ((∃ now, x.before.owner = .expiry now i) ∨ ∃ now, x.before.owner = .launching now i) →
    0 < (x.before.endpoint.operations i).timeoutMs →
    ∃ now, lastPass past = some now ∧
      ∀ p s, ReadsAt now p → ReadsAt (x.before.endpoint.operations i).submittedAtMs s →
        -2 ^ 31 < p - s → p - s < 2 ^ 31 →
        (x.before.endpoint.operations i).timeoutMs ≤ p - s ∧ s < p

/-- An operation is started only when all that wait were submitted after it. -/
def StartsOldest (past : Trace) (x : Entry World Action Event) : Prop :=
  ∀ slot remaining code, x.event = .started slot remaining code →
    ∀ j, x.before.endpoint.Waiting j →
      ∃ first y between, SubmittedAfter first past slot ∧
        SubmittedAfter (first ++ y :: between) past (x.before.endpoint.operations j)

section
variable {past rest : Trace} {x : Entry World Action Event}

theorem expires_overdue (run : Run machine (past ++ x :: rest) w) : ExpiresOverdue x rest w := by
  intro now i p s action waiting reads stamped low high old
  generalize held : x.before.endpoint.operations i = slot at stamped old
  have overdue : queueRemaining now slot.submittedAtMs slot.timeoutMs = 0 := by
    have remaining := queueRemaining_eq slot.timeoutMs reads stamped low high
    omega
  have moved := step_moves run.entry.2
  have entered : x.after.owner = .expiry now 0 ∧ x.after.endpoint = x.before.endpoint := by
    rw [action] at moved
    generalize x.after = after, x.event = event at moved
    cases moved
    exact ⟨rfl, rfl⟩
  rw [show past ++ x :: rest = (past ++ [x]) ++ rest by simp] at run
  have outcome := run.since (P := fun fs t =>
    ((∀ y ∈ fs, y.event.starts = false) ∧ t.endpoint.operations i = slot ∧
      (t.owner.before now i ∨
        ∃ f, t.owner = .finalizing i f (some (now, i + 1)) ∧ TimesOut f)) ∨
    ∃ during y later f, fs = during ++ y :: later ∧ (∀ y ∈ during, y.event.starts = false) ∧
      y.before.endpoint.operations i = slot ∧ y.event = .finalized slot.requestId f ∧
      TimesOut f) ?start ?keeps
  · rcases outcome with ⟨quiet, same, -⟩ | ⟨during, y, later, f, split, quiet, same, ended⟩
    · exact ⟨rest, quiet, .inl ⟨rfl, same⟩⟩
    · exact ⟨during, quiet, .inr ⟨y, later, f, split, same, ended⟩⟩
  case start =>
    intro t reached
    obtain rfl := reached.of_snoc.2.2
    refine .inl ⟨List.forall_mem_nil _, by rw [entered.2, held], .inl ?_⟩
    rw [entered.1]
    exact ⟨rfl, Nat.zero_le _⟩
  case keeps =>
    intro fs t a e u reached kept stepped
    rcases kept with ⟨quiet, same, place⟩ | ⟨during, y, later, f, rfl, done⟩
    · have still : t.endpoint.Waiting i := by
        unfold Endpoint.Waiting at waiting ⊢
        rw [same, ← held]
        exact waiting
      rcases overdue_step (step_moves stepped) still (by rw [same]; exact overdue) place with
        ⟨silent, unchanged, onward⟩ | ⟨f, ended, timedOut⟩
      · refine .inl ⟨?_, unchanged.trans same, onward⟩
        intro y member
        rcases List.mem_append.mp member with earlier | last
        · exact quiet y earlier
        · obtain rfl := List.mem_singleton.mp last
          exact silent
      · rw [same] at ended
        exact .inr ⟨fs, _, [], f, rfl, quiet, same, ended, timedOut⟩
    · exact .inr ⟨during, y, later ++ [⟨t, a, e, u⟩], f, by simp, done⟩

theorem starts_in_budget (run : Run machine past x.before)
    (moved : Moves x.before x.action x.after x.event) : StartsInBudget past x := by
  intro slot remaining code started
  rw [started] at moved
  obtain ⟨now, i, pc, rfl, rfl, left⟩ := moved.started
  have inv := SlotsInv.of_run run
  have used : (x.before.endpoint.operations i).used = true := by
    have owner := inv.owner
    simp only [World.OwnerOk, pc] at owner
    exact (inv.table.active i owner.1).1
  obtain ⟨submitted, after, -⟩ := submitted_of_run run used
  refine ⟨⟨submitted, after⟩, now, passNow_of_run run (by rw [pc]; rfl), ?_⟩
  intro p s reads stamped low high
  have exactly := queueRemaining_eq (x.before.endpoint.operations i).timeoutMs
    reads stamped low high
  omega

theorem never_early (run : Run machine past x.before)
    (moved : Moves x.before x.action x.after x.event) : NeverEarly past x := by
  intro i finalizes place positive
  have given : ∃ now, x.before.owner.passNow = some now ∧
      queueRemaining now (x.before.endpoint.operations i).submittedAtMs
        (x.before.endpoint.operations i).timeoutMs = 0 := by
    generalize x.action = action, x.event = event, x.after = after at moved finalizes
    rcases place with ⟨now, pc⟩ | ⟨now, pc⟩
    · by_cases turn : ∃ clock st, action = .owner clock st
      · obtain ⟨clock, st, rfl⟩ := turn
        obtain ⟨-, ⟨expired, rfl⟩ | ⟨-, rfl⟩⟩ := moved.at_expiry i.isLt pc
        · simp only [Endpoint.queueExpired, Bool.and_eq_true, beq_iff_eq] at expired
          exact ⟨now, by rw [pc]; rfl, expired.2⟩
        · cases finalizes
      · have stays := moved.owner_kept (fun clock st h => turn ⟨clock, st, h⟩)
          (by rw [pc]; intro idle; cases idle)
        rw [stays, pc] at finalizes
        cases finalizes
    · by_cases turn : ∃ clock st, action = .owner clock st
      · obtain ⟨clock, st, rfl⟩ := turn
        cases moved with
        | expiredAtStart there timedOut =>
          rw [pc] at there
          cases there
          exact ⟨now, by rw [pc]; rfl, timedOut⟩
        | launch => cases finalizes
        | _ => simp_all
      · have stays := moved.owner_kept (fun clock st h => turn ⟨clock, st, h⟩)
          (by rw [pc]; intro idle; cases idle)
        rw [stays, pc] at finalizes
        cases finalizes
  obtain ⟨now, inside, expired⟩ := given
  refine ⟨now, passNow_of_run run inside, ?_⟩
  intro p s reads stamped low high
  have exactly := queueRemaining_eq (x.before.endpoint.operations i).timeoutMs
    reads stamped low high
  omega

theorem starts_oldest (run : Run machine past x.before)
    (moved : Moves x.before x.action x.after x.event) (bound : submissions past < 2 ^ 64 - 1) :
    StartsOldest past x := by
  intro slot remaining code started j waiting
  rw [started] at moved
  obtain ⟨now, i, pc, rfl, -⟩ := moved.started
  have inv := SlotsInv.of_run run
  have owner := inv.owner
  simp only [World.OwnerOk, pc] at owner
  obtain ⟨used, pending⟩ := inv.table.active i owner.1
  obtain ⟨first, submitted, counted⟩ := submitted_of_run run used
  obtain ⟨later, other, others⟩ := submitted_of_run run waiting.1
  have apart : (x.before.endpoint.operations i).requestId ≠
      (x.before.endpoint.operations j).requestId := by
    intro same
    obtain rfl := (IdsInv.of_run run (by omega)).distinct i j used waiting.1 same
    have queued := waiting.2
    rw [pending] at queued
    cases queued
  have le := oldest_of_run run bound pc waiting
  have fewer : submissions first < submissions later := by
    have := counted bound
    have := others bound
    omega
  obtain ⟨y, between, rfl⟩ := submitted.earlier other fewer
  exact ⟨first, y, between, submitted, other⟩

/-- In every run: overdue operations time out unstarted, started ones get exactly the rest of
their timeout, nothing expires early, and the queue is first in, first out. -/
theorem queue_budget (run : Run machine (past ++ x :: rest) w) :
    ExpiresOverdue x rest w ∧ StartsInBudget past x ∧ NeverEarly past x ∧
      (submissions past < 2 ^ 64 - 1 → StartsOldest past x) := by
  have before := run.entry.1
  have moved := step_moves run.entry.2
  exact ⟨expires_overdue run, starts_in_budget before moved, never_early before moved,
    starts_oldest before moved⟩

end

/-- Home submitted 20 ms before the clock wraps and picked up by a pass 30 ms later. -/
def homeAcrossWrap : Trace × World :=
  (exec machine ((Call.home 100).through (BitVec.ofInt 32 (-20)) ++ .pass 10 :: ownerTurns 12 10 .ok)
    [] machine.init).get (by decide +kernel)

theorem queue_budget_home : ∃ past x slot code, Run machine (past ++ [x]) x.after ∧
    x.event = .started slot 70 code ∧ slot.timeoutMs = 100 := by
  have past : Run machine homeAcrossWrap.1 homeAcrossWrap.2 := exec_get _
  have started : (machine.step homeAcrossWrap.2 (.owner 10 .ok)).map (fun next =>
      match next.2 with
      | .started slot _ _ =>
        decide (slot.submittedAtMs = BitVec.ofInt 32 (-20)) && slot.timeoutMs == 100
      | _ => false) = some true := by decide +kernel
  have clock : lastPass homeAcrossWrap.1 = some (BitVec.ofInt 32 10) := by decide +kernel
  obtain ⟨⟨next, event⟩, stepped, shape⟩ := Option.map_eq_some_iff.mp started
  have run := past.snoc stepped
  obtain ⟨-, budget, -, -⟩ := queue_budget run
  cases event with
  | started slot remaining code =>
    simp only [Bool.and_eq_true, decide_eq_true_eq, beq_iff_eq] at shape
    obtain ⟨-, now, last, exactly⟩ := budget slot remaining code rfl
    obtain rfl : now = BitVec.ofInt 32 10 := Option.some.inj (last.symm.trans clock)
    have left := exactly 10 (-20) rfl shape.1 (by decide) (by decide)
    obtain rfl : remaining = 70 := by omega
    exact ⟨_, _, slot, code, run, rfl, shape.2⟩
  | _ => cases shape

end Florid.Wirelink
