import Florid.Transition
import Mathlib

/-! `ReceiveCallbackGate`: any number of invocations against `set` and `clear`, one atomic
access or one plain read or write a step. A `set` begins when its caller has
`m_update_mutex`, so one is followed at a time. `serial` numbers the installations; it is
not in the source. -/
namespace Florid.Transport
open Transition

/-- `s_kClosed`; the lower 31 bits of the word count. -/
def closedBit : Nat := 2 ^ 31

def wordSpan : Nat := 2 ^ 32

def isClosed (word : Nat) : Bool := decide (closedBit ≤ word)

def count (word : Nat) : Nat := word % closedBit

/-- What a caller of `set` passes; no callback clears. -/
structure Install where
  callback : Option Nat
  context : Nat
  deriving DecidableEq

/-- What is stored: no context without a callback. -/
def Install.stored (i : Install) : Install :=
  ⟨i.callback, if i.callback.isSome then i.context else 0⟩

inductive InvokePc where
  | idle
  | loaded (word : Nat)
  | entered (serial : Nat)
  | fetched (serial : Nat) (callback : Option Nat)
  | running (serial : Nat) (callback : Option Nat) (context : Nat)
  | leaving (serial : Nat)
  | notifying
  deriving DecidableEq

inductive SetPc where
  | idle
  | closing (install : Install)
  | comparing (install : Install) (word : Nat)
  | blocked (install : Install) (word : Nat)
  | loading (install : Install)
  | writing (install : Install)
  | writingContext (install : Install)
  | opening (install : Install)
  | returning (install : Install)
  deriving DecidableEq

structure CallbackGate where
  word : Nat := closedBit
  callback : Option Nat := none
  context : Nat := 0
  serial : Nat := 0
  setter : SetPc := .idle
  invokers : Nat → InvokePc := fun _ => .idle

inductive GateAction where
  | invoke (t : Nat)
  /-- The next access of an invocation; a weak exchange may fail for no reason. -/
  | invoker (t : Nat) (exchanged : Bool)
  | set (install : Install)
  | setter
  /-- A wait that ends without a notification. -/
  | spurious

inductive GateEvent where
  | quiet
  | invoked (t : Nat) (callback : Option Nat) (context : Nat)
  | installed (install : Install)
  | opened
  | returned (install : Install)
  deriving DecidableEq

namespace CallbackGate

def move (s : CallbackGate) (t : Nat) (pc : InvokePc) : CallbackGate :=
  { s with invokers := Function.update s.invokers t pc }

def notifyAll (s : CallbackGate) : CallbackGate :=
  match s.setter with
  | .blocked i word => { s with setter := .comparing i word }
  | _ => s

/-- Where `s_closeAndWait` goes once it has read the word. -/
def awaiting (i : Install) (word : Nat) : SetPc :=
  if count word ≠ 0 then .comparing i word else .writing i

def invokerStep (s : CallbackGate) (t : Nat) (exchanged : Bool) :
    Option (CallbackGate × GateEvent) :=
  match s.invokers t with
  | .idle => none
  | .loaded word =>
    if isClosed word || count word == closedBit - 1 then some (s.move t .idle, .quiet)
    else if exchanged && s.word == word then
      some ({ s.move t (.entered s.serial) with word := s.word + 1 }, .quiet)
    else some (s.move t (.loaded s.word), .quiet)
  | .entered k => some (s.move t (.fetched k s.callback), .quiet)
  | .fetched k callback =>
    some (s.move t (.running k callback s.context), .invoked t callback s.context)
  | .running k _ _ => some (s.move t (.leaving k), .quiet)
  | .leaving _ =>
    some ({ s.move t (if isClosed s.word && count s.word == 1 then .notifying else .idle) with
      word := (s.word + wordSpan - 1) % wordSpan }, .quiet)
  | .notifying => some ((s.move t .idle).notifyAll, .quiet)

def setterStep (s : CallbackGate) : Option (CallbackGate × GateEvent) :=
  match s.setter with
  | .idle | .blocked _ _ => none
  | .closing i =>
    let word := if isClosed s.word then s.word else s.word + closedBit
    some ({ s with word, setter := awaiting i word }, .quiet)
  | .comparing i word =>
    some ({ s with setter := if s.word = word then .blocked i word else .loading i }, .quiet)
  | .loading i => some ({ s with setter := awaiting i s.word }, .quiet)
  | .writing i =>
    some ({ s with callback := i.callback, serial := s.serial + 1, setter := .writingContext i },
      .installed i)
  | .writingContext i =>
    some ({ s with
      context := i.stored.context
      setter := if i.callback.isSome then .opening i else .returning i }, .quiet)
  | .opening i => some ({ s with word := 0, setter := .returning i }, .opened)
  | .returning i => some ({ s with setter := .idle }, .returned i)

def step (s : CallbackGate) : GateAction → Option (CallbackGate × GateEvent)
  | .invoke t =>
    match s.invokers t with
    | .idle => some (s.move t (.loaded s.word), .quiet)
    | _ => none
  | .invoker t exchanged => s.invokerStep t exchanged
  | .set i =>
    match s.setter with
    | .idle => some ({ s with setter := .closing i }, .quiet)
    | _ => none
  | .setter => s.setterStep
  | .spurious =>
    match s.setter with
    | .blocked i word => some ({ s with setter := .comparing i word }, .quiet)
    | _ => none

end CallbackGate

def gateMachine : Machine CallbackGate GateAction GateEvent := ⟨{}, CallbackGate.step⟩

/-! ### The invariant -/

/-- The installation an invocation entered under, while it is counted. -/
def InvokePc.serial? : InvokePc → Option Nat
  | .entered k | .fetched k _ | .running k _ _ | .leaving k => some k
  | _ => none

/-- The positions of `set` at which it has closed the gate. -/
def SetPc.shut : SetPc → Bool
  | .comparing _ _ | .blocked _ _ | .loading _ | .writing _ | .writingContext _ | .opening _ => true
  | _ => false

/-- The positions at which it has seen the count at zero. -/
def SetPc.drained : SetPc → Bool
  | .writing _ | .writingContext _ | .opening _ => true
  | _ => false

namespace CallbackGate

/-- The word holds the closed bit and the number of invocations inside. -/
def Counts (s : CallbackGate) : Prop :=
  ∃ users : Finset Nat, (∀ t, t ∈ users ↔ (s.invokers t).serial?.isSome = true) ∧
    users.card < closedBit ∧ (s.word = users.card ∨ s.word = closedBit + users.card)

/-- An invocation has brought the count to zero and has yet to notify. -/
def Notifies (s : CallbackGate) : Prop := ∃ t, s.invokers t = .notifying

structure Inv (s : CallbackGate) : Prop where
  counts : s.Counts
  shut : s.setter.shut = true → closedBit ≤ s.word
  drained : s.setter.drained = true → ∀ t, (s.invokers t).serial? = none
  current : ∀ t k, (s.invokers t).serial? = some k → k = s.serial ∧ s.callback.isSome = true
  opened : s.word < closedBit → s.callback.isSome = true
  written : ∀ i, s.setter = .writingContext i → s.callback = i.callback
  opening : ∀ i, s.setter = .opening i → s.callback.isSome = true
  fetched : ∀ t k callback, s.invokers t = .fetched k callback → callback = s.callback
  running : ∀ t k callback context, s.invokers t = .running k callback context →
    callback = s.callback ∧ context = s.context
  waits : ∀ i word, s.setter = .comparing i word ∨ s.setter = .blocked i word → count word ≠ 0
  wakes : ∀ i word, s.setter = .blocked i word → count s.word = 0 → s.Notifies

variable {s next : CallbackGate} {t : Nat} {pc : InvokePc}

theorem move_self (s : CallbackGate) (t : Nat) (pc : InvokePc) : (s.move t pc).invokers t = pc := by
  simp [move]

theorem move_of_ne {u : Nat} (apart : u ≠ t) : (s.move t pc).invokers u = s.invokers u := by
  simp [move, Function.update_of_ne apart]

/-- What the word says. -/
theorem Counts.word (counts : s.Counts) : ∃ users : Finset Nat,
    (∀ t, t ∈ users ↔ (s.invokers t).serial?.isSome = true) ∧ users.card < closedBit ∧
    count s.word = users.card ∧ s.word = (if isClosed s.word then closedBit else 0) + users.card := by
  obtain ⟨users, exact, few, word | word⟩ := counts
  · refine ⟨users, exact, few, ?_, ?_⟩
    · rw [count, word, Nat.mod_eq_of_lt few]
    · rw [isClosed, word, decide_eq_false (Nat.not_le_of_lt few)]
      simp
  · refine ⟨users, exact, few, ?_, ?_⟩
    · rw [count, word, Nat.add_mod_left, Nat.mod_eq_of_lt few]
    · rw [isClosed, word, decide_eq_true (Nat.le_add_right _ _)]
      simp

theorem Counts.nobody (counts : s.Counts) (zero : count s.word = 0) (t : Nat) :
    (s.invokers t).serial? = none := by
  obtain ⟨users, exact, -, counted, -⟩ := counts.word
  have empty : users = ∅ := Finset.card_eq_zero.mp (counted.symm.trans zero)
  have absent : t ∉ users := by simp [empty]
  rw [exact] at absent
  simpa using absent

/-- An invocation that moves without being counted or discounted. -/
theorem Counts.move (counts : s.Counts) (same : pc.serial?.isSome = (s.invokers t).serial?.isSome) :
    (s.move t pc).Counts := by
  obtain ⟨users, exact, few, word⟩ := counts
  refine ⟨users, ?_, few, word⟩
  intro u
  rw [exact]
  by_cases mine : u = t
  · subst mine
    rw [move_self, same]
  · rw [move_of_ne mine]

theorem Notifies.move (notifies : s.Notifies) (other : s.invokers t ≠ .notifying) :
    (s.move t pc).Notifies := by
  obtain ⟨u, pending⟩ := notifies
  have apart : u ≠ t := by
    rintro rfl
    exact other pending
  exact ⟨u, by rw [move_of_ne apart, pending]⟩

namespace Inv

/-- An invocation that stays counted, or uncounted, and has read what is installed. -/
theorem move (inv : Inv s) (same : pc.serial? = (s.invokers t).serial?)
    (fetched : ∀ k callback, pc = .fetched k callback → callback = s.callback)
    (running : ∀ k callback context, pc = .running k callback context →
      callback = s.callback ∧ context = s.context)
    (other : s.invokers t ≠ .notifying ∨ ∀ i word, s.setter ≠ .blocked i word) :
    Inv (s.move t pc) := by
  have serial (u : Nat) : ((s.move t pc).invokers u).serial? = (s.invokers u).serial? := by
    by_cases mine : u = t
    · subst mine
      rw [move_self, same]
    · rw [move_of_ne mine]
  refine ⟨inv.counts.move (by rw [same]), inv.shut, ?_, ?_, inv.opened, inv.written, inv.opening, ?_, ?_,
    inv.waits, ?_⟩
  · intro drained u
    rw [serial]
    exact inv.drained drained u
  · intro u k inside
    rw [serial] at inside
    exact inv.current u k inside
  · intro u k callback at'
    by_cases mine : u = t
    · subst mine
      rw [move_self] at at'
      exact fetched k callback at'
    · rw [move_of_ne mine] at at'
      exact inv.fetched u k callback at'
  · intro u k callback context at'
    by_cases mine : u = t
    · subst mine
      rw [move_self] at at'
      exact running k callback context at'
    · rw [move_of_ne mine] at at'
      exact inv.running u k callback context at'
  · intro i word blocked zero
    rcases other with other | awake
    · exact (inv.wakes i word blocked zero).move other
    · exact absurd blocked (awake i word)

/-- A successful exchange: the gate is open and the count has room. -/
theorem enter (inv : Inv s) (outside : (s.invokers t).serial? = none)
    (unclosed : s.word < closedBit)
    (room : s.word + 1 < closedBit) :
    Inv { s.move t (.entered s.serial) with word := s.word + 1 } := by
  have unshut : s.setter.shut ≠ true := fun shut => absurd (inv.shut shut) (Nat.not_le_of_lt unclosed)
  have undrained : s.setter.drained ≠ true := by
    intro drained
    apply unshut
    revert drained
    cases s.setter <;> simp [SetPc.drained, SetPc.shut]
  refine ⟨?_, fun shut => absurd shut unshut, fun drained => absurd drained undrained, ?_,
    fun _ => inv.opened unclosed, inv.written, inv.opening, ?_, ?_, inv.waits, ?_⟩
  · obtain ⟨users, exact, few, word⟩ := inv.counts
    have new : t ∉ users := by simp [exact, outside]
    have same : s.word = users.card := by
      rcases word with word | word
      · exact word
      · omega
    refine ⟨insert t users, ?_, ?_, .inl ?_⟩
    · intro u
      by_cases mine : u = t
      · subst mine
        simp [CallbackGate.move, InvokePc.serial?]
      · simp [CallbackGate.move, mine, exact]
    · rw [Finset.card_insert_of_notMem new, ← same]
      exact room
    · rw [Finset.card_insert_of_notMem new, ← same]
  · intro u k inside
    by_cases mine : u = t
    · subst mine
      have self : (s.move u (.entered s.serial)).invokers u = .entered s.serial := move_self s u _
      change ((s.move u (.entered s.serial)).invokers u).serial? = some k at inside
      rw [self] at inside
      exact ⟨(Option.some.inj inside).symm, inv.opened unclosed⟩
    · change ((s.move t (.entered s.serial)).invokers u).serial? = some k at inside
      rw [move_of_ne mine] at inside
      exact inv.current u k inside
  · intro u k callback at'
    change (s.move t (.entered s.serial)).invokers u = _ at at'
    by_cases mine : u = t
    · subst mine
      rw [move_self] at at'
      cases at'
    · rw [move_of_ne mine] at at'
      exact inv.fetched u k callback at'
  · intro u k callback context at'
    change (s.move t (.entered s.serial)).invokers u = _ at at'
    by_cases mine : u = t
    · subst mine
      rw [move_self] at at'
      cases at'
    · rw [move_of_ne mine] at at'
      exact inv.running u k callback context at'
  · intro i word blocked
    exact absurd (by rw [show s.setter = _ from blocked]; rfl) unshut

/-- The decrement of the last access of an invocation: it brings the notification when it
takes the count of a closed gate to zero. -/
theorem leave (inv : Inv s) {k : Nat} (at' : s.invokers t = .leaving k) :
    Inv { s.move t (if isClosed s.word && count s.word == 1 then .notifying else .idle) with
      word := (s.word + wordSpan - 1) % wordSpan } := by
  obtain ⟨users, exact, few, counted, word⟩ := inv.counts.word
  have member : t ∈ users := by
    rw [exact, at']
    rfl
  have positive : 0 < users.card := Finset.card_pos.mpr ⟨t, member⟩
  have closed_span : closedBit = 2 ^ 31 := rfl
  have less : (s.word + wordSpan - 1) % wordSpan
      = (if isClosed s.word then closedBit else 0) + (users.card - 1) := by
    rw [show wordSpan = 2 ^ 32 from rfl]
    by_cases closed : isClosed s.word = true
    · rw [if_pos closed] at word ⊢
      omega
    · rw [if_neg closed] at word ⊢
      omega
  generalize moved : (if isClosed s.word && count s.word == 1 then InvokePc.notifying else .idle) = pc
  have outside : pc.serial? = none := by
    rw [← moved]
    split <;> rfl
  have others (u k : Nat) (inside : ((s.move t pc).invokers u).serial? = some k) :
      u ≠ t ∧ (s.invokers u).serial? = some k := by
    by_cases mine : u = t
    · subst mine
      rw [move_self, outside] at inside
      cases inside
    · rw [move_of_ne mine] at inside
      exact ⟨mine, inside⟩
  rw [less]
  refine ⟨?_, ?_, ?_, ?_, ?_, inv.written, inv.opening, ?_, ?_, inv.waits, ?_⟩
  · refine ⟨users.erase t, ?_, ?_, ?_⟩
    · intro u
      rw [Finset.mem_erase, exact]
      by_cases mine : u = t
      · subst mine
        simp [CallbackGate.move, outside]
      · simp [CallbackGate.move, mine]
    · rw [Finset.card_erase_of_mem member]
      omega
    · rw [Finset.card_erase_of_mem member]
      cases isClosed s.word
      · left; simp
      · right; simp
  · intro shut
    have closed : isClosed s.word = true := decide_eq_true (inv.shut shut)
    simp [closed]
  · intro drained
    have none := inv.drained drained t
    rw [at'] at none
    cases none
  · intro u k inside
    exact inv.current u k (others u k inside).2
  · intro
    exact (inv.current t k (by rw [at']; rfl)).2
  · intro u k callback fetched
    change (s.move t pc).invokers u = _ at fetched
    have same := others u k (by rw [fetched]; rfl)
    rw [move_of_ne same.1] at fetched
    exact inv.fetched u k callback fetched
  · intro u k callback context running
    change (s.move t pc).invokers u = _ at running
    have same := others u k (by rw [running]; rfl)
    rw [move_of_ne same.1] at running
    exact inv.running u k callback context running
  · intro i w blocked zero
    have closed : isClosed s.word = true :=
      decide_eq_true (inv.shut (by rw [show s.setter = _ from blocked]; rfl))
    have last : users.card = 1 := by
      simp only [closed, if_true, count, Nat.add_mod_left] at zero
      rw [Nat.mod_eq_of_lt (by omega)] at zero
      omega
    refine ⟨t, ?_⟩
    rw [closed, counted, last] at moved
    exact (move_self s t pc).trans moved.symm

/-- A step of `set` that leaves what is stored and the word alone. -/
theorem setterAt (inv : Inv s) {pc : SetPc} (shut : pc.shut = true → closedBit ≤ s.word)
    (drained : pc.drained = true → ∀ t, (s.invokers t).serial? = none)
    (written : ∀ i, pc = .writingContext i → s.callback = i.callback)
    (opening : ∀ i, pc = .opening i → s.callback.isSome = true)
    (waits : ∀ i word, pc = .comparing i word ∨ pc = .blocked i word → count word ≠ 0)
    (wakes : ∀ i word, pc = .blocked i word → count s.word ≠ 0) : Inv { s with setter := pc } :=
  ⟨inv.counts, shut, drained, inv.current, inv.opened, written, opening, inv.fetched, inv.running,
    waits, fun i word blocked zero => absurd zero (wakes i word blocked)⟩

/-- A wait that ends compares again. -/
theorem compare (inv : Inv s) {i : Install} {word : Nat} (blocked : s.setter = .blocked i word) :
    Inv { s with setter := .comparing i word } := by
  refine inv.setterAt (fun _ => inv.shut (by rw [blocked]; rfl)) (by simp [SetPc.drained]) (by simp)
    (by simp) ?_ (by simp)
  rintro j w (same | same)
  · obtain ⟨rfl, rfl⟩ := SetPc.comparing.inj same
    exact inv.waits i word (.inr blocked)
  · cases same

/-- What `s_closeAndWait` does next with the word it has read from a closed gate. -/
theorem awaiting (inv : Inv s) (i : Install) (closed : closedBit ≤ s.word) :
    Inv { s with setter := CallbackGate.awaiting i s.word } := by
  unfold CallbackGate.awaiting
  split
  · rename_i busy
    refine inv.setterAt (fun _ => closed) (by simp [SetPc.drained]) (by simp) (by simp) ?_ (by simp)
    rintro j word (same | same)
    · obtain ⟨rfl, rfl⟩ := SetPc.comparing.inj same
      exact busy
    · cases same
  · rename_i free
    have zero : count s.word = 0 := by simpa using free
    exact inv.setterAt (fun _ => closed) (fun _ => inv.counts.nobody zero) (by simp) (by simp)
      (by simp) (by simp)

/-- `fetch_or` of the closed bit. -/
theorem close (inv : Inv s) (idle : s.setter.shut = false) :
    Inv { s with word := if isClosed s.word then s.word else s.word + closedBit } := by
  have undrained : s.setter.drained = false := by
    revert idle
    cases s.setter <;> simp [SetPc.shut, SetPc.drained]
  obtain ⟨users, exact, few, counted, word⟩ := inv.counts.word
  have closed : (if isClosed s.word then s.word else s.word + closedBit) = closedBit + users.card := by
    by_cases closed : isClosed s.word = true
    · rw [if_pos closed]
      rwa [if_pos closed] at word
    · rw [if_neg closed]
      rw [if_neg closed] at word
      omega
  rw [closed]
  refine ⟨⟨users, exact, few, .inr rfl⟩, fun _ => Nat.le_add_right _ _, ?_, inv.current, ?_, inv.written,
    inv.opening, inv.fetched, inv.running, inv.waits, ?_⟩
  · intro drained
    exact absurd drained (by simp [show s.setter.drained = false from undrained])
  · intro below
    exact absurd below (Nat.not_lt.mpr (Nat.le_add_right _ _))
  · intro i w blocked
    rw [show s.setter = _ from blocked] at idle
    cases idle

theorem notifyAll (inv : Inv s) (quiet : s.invokers t = .notifying) :
    Inv (s.move t .idle).notifyAll := by
  have same : InvokePc.serial? .idle = (s.invokers t).serial? := by rw [quiet]; rfl
  unfold CallbackGate.notifyAll
  split
  · rename_i i word blocked
    have compared : Inv { s with setter := .comparing i word } := inv.compare blocked
    exact compared.move same (by simp) (by simp) (.inr (by simp))
  · rename_i unblocked
    exact inv.move same (by simp) (by simp) (.inr unblocked)

/-- One step of an invocation. -/
theorem invokerStep (inv : Inv s) {exchanged : Bool} {event : GateEvent}
    (stepped : s.invokerStep t exchanged = some (next, event)) : Inv next := by
  unfold CallbackGate.invokerStep at stepped
  split at stepped
  case h_1 => cases stepped
  case h_2 word at' =>
    have other : s.invokers t ≠ .notifying := by simp [at']
    split at stepped
    · cases stepped
      exact inv.move (by rw [at']; rfl) (by simp) (by simp) (.inl other)
    · rename_i admitted
      simp only [Bool.or_eq_true, isClosed, decide_eq_true_eq, beq_iff_eq, not_or] at admitted
      split at stepped
      · rename_i won
        simp only [Bool.and_eq_true, beq_iff_eq] at won
        cases stepped
        rw [won.2.symm] at admitted
        have unclosed : s.word < closedBit := Nat.lt_of_not_le admitted.1
        have room : s.word ≠ closedBit - 1 := by
          have full := admitted.2
          rwa [count, Nat.mod_eq_of_lt unclosed] at full
        exact inv.enter (by rw [at']; rfl) unclosed (by omega)
      · cases stepped
        exact inv.move (by rw [at']; rfl) (by simp) (by simp) (.inl other)
  case h_3 k at' =>
    cases stepped
    exact inv.move (by rw [at']; rfl) (by simp) (by simp) (.inl (by simp [at']))
  case h_4 k callback at' =>
    cases stepped
    have same := inv.fetched t k callback at'
    refine inv.move (by rw [at']; rfl) (by simp) ?_ (.inl (by simp [at']))
    intro j c x running
    obtain ⟨-, rfl, rfl⟩ := InvokePc.running.inj running
    exact ⟨same, rfl⟩
  case h_5 k callback context at' =>
    cases stepped
    exact inv.move (by rw [at']; rfl) (by simp) (by simp) (.inl (by simp [at']))
  case h_6 k at' =>
    simp only [Option.some.injEq, Prod.mk.injEq] at stepped
    obtain ⟨rfl, -⟩ := stepped
    exact inv.leave at'
  case h_7 at' =>
    cases stepped
    exact inv.notifyAll at'

/-- One step of `set`. -/
theorem setterStep (inv : Inv s) {event : GateEvent}
    (stepped : s.setterStep = some (next, event)) : Inv next := by
  unfold CallbackGate.setterStep at stepped
  split at stepped
  case h_1 => cases stepped
  case h_2 => cases stepped
  case h_3 i at' =>
    simp only [Option.some.injEq, Prod.mk.injEq] at stepped
    obtain ⟨rfl, -⟩ := stepped
    have closed : closedBit ≤ if isClosed s.word then s.word else s.word + closedBit := by
      split
      · rename_i closed
        simpa [isClosed] using closed
      · exact Nat.le_add_left _ _
    exact (inv.close (by rw [at']; rfl)).awaiting i closed
  case h_4 i word at' =>
    cases stepped
    have busy := inv.waits i word (.inl at')
    have closed := inv.shut (by rw [at']; rfl)
    split
    · rename_i same
      refine inv.setterAt (fun _ => closed) (by simp [SetPc.drained]) (by simp) (by simp) ?_ ?_
      · rintro j w (here | here)
        · cases here
        · obtain ⟨rfl, rfl⟩ := SetPc.blocked.inj here
          exact busy
      · intro j w here
        rwa [same]
    · exact inv.setterAt (fun _ => closed) (by simp [SetPc.drained]) (by simp) (by simp) (by simp)
        (by simp)
  case h_5 i at' =>
    cases stepped
    exact inv.awaiting i (inv.shut (by rw [at']; rfl))
  case h_6 i at' =>
    cases stepped
    have nobody := inv.drained (by rw [at']; rfl)
    have closed := inv.shut (by rw [at']; rfl)
    refine ⟨inv.counts, fun _ => closed, fun _ => nobody, ?_, ?_, by simp, by simp, ?_, ?_, by simp,
      by simp⟩
    · intro t k inside
      simp [nobody t] at inside
    · intro below
      exact absurd closed (Nat.not_le_of_lt below)
    · intro t k callback fetched
      have none := nobody t
      simp [show s.invokers t = _ from fetched, InvokePc.serial?] at none
    · intro t k callback context running
      have none := nobody t
      simp [show s.invokers t = _ from running, InvokePc.serial?] at none
  case h_7 i at' =>
    cases stepped
    have nobody := inv.drained (by rw [at']; rfl)
    have closed := inv.shut (by rw [at']; rfl)
    have stored := inv.written i at'
    refine ⟨inv.counts, fun _ => closed, fun _ => nobody, inv.current, inv.opened, ?_, ?_, inv.fetched,
      ?_, ?_, ?_⟩
    · intro j same
      split at same <;> cases same
    · intro j same
      split at same
      · rename_i present
        rwa [← stored] at present
      · cases same
    · intro t k callback context running
      have none := nobody t
      simp [show s.invokers t = _ from running, InvokePc.serial?] at none
    · intro j w same
      split at same <;> simp at same
    · intro j w same
      split at same <;> cases same
  case h_8 i at' =>
    cases stepped
    have nobody := inv.drained (by rw [at']; rfl)
    have present := inv.opening i at'
    refine ⟨⟨∅, ?_, by simp [closedBit], .inl rfl⟩, by simp [SetPc.shut], by simp [SetPc.drained],
      inv.current, fun _ => present, by simp, by simp, inv.fetched, inv.running, by simp, by simp⟩
    intro t
    simp [nobody t]
  case h_9 i at' =>
    cases stepped
    exact inv.setterAt (by simp [SetPc.shut]) (by simp [SetPc.drained]) (by simp) (by simp) (by simp)
      (by simp)

theorem step (inv : Inv s) {action : GateAction} {event : GateEvent}
    (stepped : s.step action = some (next, event)) : Inv next := by
  cases action with
  | invoke t =>
    simp only [CallbackGate.step] at stepped
    split at stepped
    · rename_i at'
      cases stepped
      exact inv.move (by rw [at']; rfl) (by simp) (by simp) (.inl (by simp [at']))
    · cases stepped
  | invoker t exchanged => exact inv.invokerStep stepped
  | set i =>
    simp only [CallbackGate.step] at stepped
    split at stepped
    · cases stepped
      exact inv.setterAt (by simp [SetPc.shut]) (by simp [SetPc.drained]) (by simp) (by simp)
        (by simp) (by simp)
    · cases stepped
  | setter => exact inv.setterStep stepped
  | spurious =>
    simp only [CallbackGate.step] at stepped
    split at stepped
    · rename_i i word at'
      cases stepped
      exact inv.compare at'
    · cases stepped

theorem init : Inv gateMachine.init := by
  refine ⟨⟨∅, ?_, by simp [closedBit], .inr rfl⟩, ?_, ?_, ?_, ?_, ?_, ?_, ?_, ?_, ?_, ?_⟩ <;>
    simp [gateMachine, InvokePc.serial?, SetPc.shut, SetPc.drained]

theorem run {es : List (Entry CallbackGate GateAction GateEvent)} (run : Run gateMachine es s) :
    Inv s :=
  run.invariant init fun held stepped => held.step stepped

end Inv
end CallbackGate

/-! ### What was installed -/

def GateEvent.install? : GateEvent → Option Install
  | .installed i => some i.stored
  | _ => none

/-- What only `set` does. -/
def GateEvent.ofSet : GateEvent → Bool
  | .installed _ | .opened | .returned _ => true
  | _ => false

theorem GateEvent.install?_eq_none {event : GateEvent} (other : event.ofSet = false) :
    event.install? = none := by
  cases event with
  | installed i => cases other
  | _ => rfl

/-- The installations of a history, oldest first. -/
def installs (es : List (Entry CallbackGate GateAction GateEvent)) : List Install :=
  es.filterMap fun e => e.event.install?

/-- The context is still that of the installation before. -/
def SetPc.halfway : SetPc → Bool
  | .writingContext _ => true
  | _ => false

/-- The installation `set` has made and is about to return from. -/
def SetPc.install? : SetPc → Option Install
  | .writingContext i | .opening i | .returning i => some i
  | _ => none

namespace CallbackGate
variable {s next : CallbackGate} {t : Nat} {action : GateAction} {event : GateEvent}
variable {es past rest : List (Entry CallbackGate GateAction GateEvent)}

/-- What is stored, after the installations `log`. -/
structure Holds (log : List Install) (s : CallbackGate) : Prop where
  serial : log.length = s.serial
  empty : log = [] → s.callback = none
  callback : ∀ i, log.getLast? = some i → s.callback = i.callback
  context : ∀ i, log.getLast? = some i → s.setter.halfway = false → s.context = i.context
  pending : ∀ i, s.setter.install? = some i → log.getLast? = some i.stored

/-- A step that leaves alone what is stored. -/
structure Kept (s next : CallbackGate) : Prop where
  callback : next.callback = s.callback
  context : next.context = s.context
  serial : next.serial = s.serial
  halfway : next.setter.halfway = s.setter.halfway
  pending : ∀ i, next.setter.install? = some i → s.setter.install? = some i

theorem Holds.keep {log : List Install} (holds : Holds log s) (kept : Kept s next) :
    Holds log next := by
  constructor
  · rw [kept.serial, holds.serial]
  · rw [kept.callback]
    exact holds.empty
  · rw [kept.callback]
    exact holds.callback
  · rw [kept.context, kept.halfway]
    exact holds.context
  · intro i made
    exact holds.pending i (kept.pending i made)

theorem notifyAll_kept (s : CallbackGate) : Kept s s.notifyAll := by
  unfold notifyAll
  split
  · rename_i blocked
    exact ⟨rfl, rfl, rfl, by rw [blocked]; rfl, by simp [SetPc.install?]⟩
  · exact ⟨rfl, rfl, rfl, rfl, fun _ made => made⟩

theorem awaiting_halfway (i : Install) (word : Nat) : (awaiting i word).halfway = false := by
  unfold awaiting
  split <;> rfl

theorem awaiting_install? (i : Install) (word : Nat) : (awaiting i word).install? = none := by
  unfold awaiting
  split <;> rfl

theorem installs_snoc (e : Entry CallbackGate GateAction GateEvent) :
    installs (es ++ [e]) = installs es ++ e.event.install?.toList := by
  rw [installs, List.filterMap_append]
  cases made : e.event.install? with
  | none => simp [installs, made]
  | some i => simp [installs, made]

theorem invokerStep_kept {exchanged : Bool}
    (stepped : s.invokerStep t exchanged = some (next, event)) :
    Kept s next ∧ event.ofSet = false := by
  unfold invokerStep at stepped
  split at stepped
  case h_1 => cases stepped
  case h_2 =>
    split at stepped
    · cases stepped
      exact ⟨⟨rfl, rfl, rfl, rfl, fun _ made => made⟩, rfl⟩
    · split at stepped
      · cases stepped
        exact ⟨⟨rfl, rfl, rfl, rfl, fun _ made => made⟩, rfl⟩
      · cases stepped
        exact ⟨⟨rfl, rfl, rfl, rfl, fun _ made => made⟩, rfl⟩
  case h_6 =>
    simp only [Option.some.injEq, Prod.mk.injEq] at stepped
    obtain ⟨rfl, rfl⟩ := stepped
    exact ⟨⟨rfl, rfl, rfl, rfl, fun _ made => made⟩, rfl⟩
  case h_7 =>
    cases stepped
    have kept := notifyAll_kept (s.move t .idle)
    exact ⟨⟨kept.callback, kept.context, kept.serial, kept.halfway, kept.pending⟩, rfl⟩
  all_goals
    cases stepped
    exact ⟨⟨rfl, rfl, rfl, rfl, fun _ made => made⟩, rfl⟩

/-- The steps of `set` that install nothing. -/
theorem setterStep_kept (stepped : s.setterStep = some (next, event)) :
    (Kept s next ∧ event.install? = none) ∨
    (∃ i, s.setter = .writing i ∧ event = .installed i ∧
      next = { s with callback := i.callback, serial := s.serial + 1, setter := .writingContext i }) ∨
    (∃ i, s.setter = .writingContext i ∧ event = .quiet ∧ next = { s with
      context := i.stored.context
      setter := if i.callback.isSome then .opening i else .returning i }) := by
  unfold setterStep at stepped
  split at stepped
  case h_1 | h_2 => cases stepped
  case h_3 i at' =>
    simp only [Option.some.injEq, Prod.mk.injEq] at stepped
    obtain ⟨rfl, rfl⟩ := stepped
    exact .inl ⟨⟨rfl, rfl, rfl, by rw [at', awaiting_halfway]; rfl, by simp [awaiting_install?]⟩, rfl⟩
  case h_4 i word at' =>
    cases stepped
    refine .inl ⟨⟨rfl, rfl, rfl, ?_, ?_⟩, rfl⟩
    · rw [at']
      dsimp only
      split <;> rfl
    · dsimp only
      split <;> simp [SetPc.install?]
  case h_5 i at' =>
    cases stepped
    exact .inl ⟨⟨rfl, rfl, rfl, by rw [at', awaiting_halfway]; rfl, by simp [awaiting_install?]⟩, rfl⟩
  case h_6 i at' =>
    cases stepped
    exact .inr (.inl ⟨i, at', rfl, rfl⟩)
  case h_7 i at' =>
    cases stepped
    exact .inr (.inr ⟨i, at', rfl, rfl⟩)
  case h_8 i at' =>
    cases stepped
    exact .inl ⟨⟨rfl, rfl, rfl, by rw [at']; rfl, by rw [at']; exact fun _ made => made⟩, rfl⟩
  case h_9 i at' =>
    cases stepped
    exact .inl ⟨⟨rfl, rfl, rfl, by rw [at']; rfl, by simp [SetPc.install?]⟩, rfl⟩

theorem Holds.step (holds : Holds (installs es) s) (stepped : s.step action = some (next, event)) :
    Holds (installs (es ++ [⟨s, action, event, next⟩])) next := by
  rw [installs_snoc]
  have quiet (kept : Kept s next ∧ event.install? = none) :
      Holds (installs es ++ event.install?.toList) next := by
    rw [kept.2, Option.toList_none, List.append_nil]
    exact holds.keep kept.1
  cases action with
  | invoke t =>
    simp only [CallbackGate.step] at stepped
    split at stepped
    · cases stepped
      exact quiet ⟨⟨rfl, rfl, rfl, rfl, fun _ made => made⟩, rfl⟩
    · cases stepped
  | invoker t exchanged =>
    obtain ⟨kept, other⟩ := invokerStep_kept stepped
    exact quiet ⟨kept, GateEvent.install?_eq_none other⟩
  | set i =>
    simp only [CallbackGate.step] at stepped
    split at stepped
    · rename_i idle
      cases stepped
      exact quiet ⟨⟨rfl, rfl, rfl, by rw [idle]; rfl, by simp [SetPc.install?]⟩, rfl⟩
    · cases stepped
  | spurious =>
    simp only [CallbackGate.step] at stepped
    split at stepped
    · rename_i blocked
      cases stepped
      exact quiet ⟨⟨rfl, rfl, rfl, by rw [blocked]; rfl, by simp [SetPc.install?]⟩, rfl⟩
    · cases stepped
  | setter =>
    obtain kept | ⟨i, at', rfl, rfl⟩ | ⟨i, at', rfl, rfl⟩ := setterStep_kept stepped
    · exact quiet kept
    · refine ⟨?_, ?_, ?_, ?_, ?_⟩
      · simp [GateEvent.install?, holds.serial]
      · simp [GateEvent.install?]
      · intro j last
        simp only [GateEvent.install?, Option.toList_some, List.getLast?_concat, Option.some.injEq]
          at last
        subst last
        rfl
      · simp [SetPc.halfway]
      · intro j made
        simp only [SetPc.install?, Option.some.injEq] at made
        subst made
        simp [GateEvent.install?]
    · rw [GateEvent.install?, Option.toList_none, List.append_nil]
      · have last := holds.pending i (by rw [at']; rfl)
        refine ⟨holds.serial, holds.empty, holds.callback, ?_, ?_⟩
        · intro j known _
          rw [last] at known
          obtain rfl := Option.some.inj known
          rfl
        · intro j made
          rw [last]
          split at made <;> exact congrArg _ (congrArg _ (Option.some.inj made))
      · simp

theorem Holds.run (run : Run gateMachine es s) : Holds (installs es) s := by
  refine run.history (P := fun es s => Holds (installs es) s) ?_ fun _ held stepped => held.step stepped
  exact ⟨rfl, fun _ => rfl, by simp [installs], by simp [installs], by
    simp [gateMachine, SetPc.install?]⟩

theorem step_setter (stepped : s.step action = some (next, event)) (loud : event.ofSet = true) :
    s.setterStep = some (next, event) := by
  cases action with
  | setter => exact stepped
  | invoker t exchanged =>
    have other := (invokerStep_kept stepped).2
    rw [loud] at other
    cases other
  | invoke t | set i | spurious =>
    simp only [step] at stepped
    split at stepped
    · simp only [Option.some.injEq, Prod.mk.injEq] at stepped
      rw [← stepped.2] at loud
      cases loud
    · cases stepped

theorem opened_at (stepped : s.step action = some (next, .opened)) : ∃ i, s.setter = .opening i := by
  have mine := step_setter stepped rfl
  unfold setterStep at mine
  split at mine <;> simp at mine
  rename_i i at'
  exact ⟨i, at'⟩

theorem returned_at {i : Install} (stepped : s.step action = some (next, .returned i)) :
    s.setter = .returning i := by
  have mine := step_setter stepped rfl
  unfold setterStep at mine
  split at mine <;> simp at mine
  rename_i j at'
  rw [at', mine.2]

/-- A counted invocation belongs to the last installation, which has a callback. -/
theorem counted_last (run : Run gateMachine es s) {k : Nat}
    (inside : (s.invokers t).serial? = some k) : (installs es).length = k ∧
    ∃ i, (installs es).getLast? = some i ∧ i.callback = s.callback ∧ i.context = s.context ∧
      s.callback.isSome = true := by
  have inv := Inv.run run
  have holds := Holds.run run
  obtain ⟨rfl, present⟩ := inv.current t k inside
  refine ⟨holds.serial, ?_⟩
  cases last : (installs es).getLast? with
  | none =>
    rw [holds.empty (List.getLast?_eq_none_iff.mp last)] at present
    cases present
  | some i =>
    have settled : s.setter.halfway = false := by
      cases at' : s.setter with
      | writingContext j =>
        rw [inv.drained (by rw [at']; rfl) t] at inside
        cases inside
      | _ => rfl
    exact ⟨i, rfl, (holds.callback i last).symm, (holds.context i last settled).symm, present⟩

theorem running_installed (run : Run gateMachine es s) {k : Nat} {callback : Option Nat}
    {context : Nat} (at' : s.invokers t = .running k callback context) :
    callback.isSome = true ∧ (installs es)[k - 1]? = some ⟨callback, context⟩ := by
  obtain ⟨rfl, i, last, same, together, present⟩ := counted_last run (k := k) (by rw [at']; rfl)
  obtain ⟨rfl, rfl⟩ := (Inv.run run).running t _ callback context at'
  refine ⟨present, ?_⟩
  rw [← List.getLast?_eq_getElem?, last, ← same, ← together]

/-- After a return, whatever is counted belongs to that installation or to a later one. -/
theorem returned_counted {e : Entry CallbackGate GateAction GateEvent} {i : Install}
    (run : Run gateMachine (past ++ e :: rest) s) (returned : e.event = .returned i) :
    (installs past).getLast? = some i.stored ∧ ∀ t k, (s.invokers t).serial? = some k →
      (installs past).length ≤ k ∧ (i.callback = none → (installs past).length < k) := by
  obtain ⟨before, stepped⟩ := run.entry
  rw [returned] at stepped
  have made := (Holds.run before).pending i (by rw [returned_at stepped]; rfl)
  refine ⟨made, ?_⟩
  intro t k inside
  obtain ⟨rfl, j, last, same, -, present⟩ := counted_last run inside
  have split : installs (past ++ e :: rest) = installs past ++ installs (e :: rest) :=
    List.filterMap_append ..
  have longer : (installs past).length ≤ (installs (past ++ e :: rest)).length := by
    rw [split, List.length_append]
    exact Nat.le_add_right _ _
  refine ⟨longer, ?_⟩
  intro cleared
  refine Nat.lt_of_le_of_ne longer ?_
  intro equal
  -- nothing was installed since, and what was installed has no callback
  have nothing : installs (e :: rest) = [] := by
    rw [split, List.length_append] at equal
    exact List.eq_nil_of_length_eq_zero (by omega)
  rw [split, nothing, List.append_nil, made] at last
  obtain rfl := Option.some.inj last
  rw [← same, show i.stored.callback = i.callback from rfl, cleared] at present
  cases present

end CallbackGate

open CallbackGate in
theorem callback_gate {es : List (Entry CallbackGate GateAction GateEvent)} {s : CallbackGate}
    (run : Run gateMachine es s) :
    (∀ t k callback context, s.invokers t = .running k callback context →
      callback.isSome = true ∧ (installs es)[k - 1]? = some ⟨callback, context⟩) ∧
    (∀ past e rest i, es = past ++ e :: rest → e.event = .returned i →
      (installs past).getLast? = some i.stored ∧ ∀ t k, (s.invokers t).serial? = some k →
        (installs past).length ≤ k ∧ (i.callback = none → (installs past).length < k)) ∧
    (∃ users : Finset Nat, (∀ t, t ∈ users ↔ (s.invokers t).serial?.isSome = true) ∧
      users.card < closedBit ∧
      s.word = (if isClosed s.word then closedBit else 0) + users.card) ∧
    (∀ past e rest, es = past ++ e :: rest → e.event = .opened →
      count e.before.word = 0 ∧ e.after.word = 0 ∧ ∀ t, (e.before.invokers t).serial? = none) ∧
    ∀ i word, s.setter = .blocked i word → count s.word = 0 → s.Notifies := by
  have inv := Inv.run run
  refine ⟨?_, ?_, ?_, ?_, inv.wakes⟩
  · intro t k callback context at'
    exact running_installed run at'
  · rintro past e rest i rfl returned
    exact returned_counted run returned
  · obtain ⟨users, exact, few, -, word⟩ := inv.counts.word
    exact ⟨users, exact, few, word⟩
  · rintro past e rest rfl opened
    obtain ⟨before, stepped⟩ := run.entry
    rw [opened] at stepped
    obtain ⟨i, at'⟩ := opened_at stepped
    have nobody := (Inv.run before).drained (by rw [at']; rfl)
    obtain ⟨users, exact, -, counted, -⟩ := (Inv.run before).counts.word
    have empty : users = ∅ := Finset.eq_empty_of_forall_notMem fun t user => by
      rw [exact, nobody t] at user
      cases user
    have mine := step_setter stepped rfl
    simp only [setterStep, at', Option.some.injEq, Prod.mk.injEq, and_true] at mine
    exact ⟨by rw [counted, empty, Finset.card_empty], by rw [← mine], nobody⟩

/-- A running callback while `clear` waits for it. -/
def clearedGate : List GateAction :=
  [.set ⟨some 7, 3⟩, .setter, .setter, .setter, .setter, .setter, .invoke 0, .invoker 0 true,
    .invoker 0 true, .invoker 0 true, .set ⟨none, 0⟩, .setter, .setter]

def clearedTrace : List (Entry CallbackGate GateAction GateEvent) × CallbackGate :=
  (exec gateMachine clearedGate [] gateMachine.init).get (by decide +kernel)

theorem callback_gate_clearing : clearedTrace.2.invokers 0 = .running 1 (some 7) 3 ∧
    (installs clearedTrace.1)[0]? = some ⟨some 7, 3⟩ ∧
    clearedTrace.2.setter = .blocked ⟨none, 0⟩ (closedBit + 1) ∧
    (count clearedTrace.2.word = 0 → clearedTrace.2.Notifies) := by
  have run : Run gateMachine clearedTrace.1 clearedTrace.2 := exec_get _
  have running : clearedTrace.2.invokers 0 = .running 1 (some 7) 3 := by decide +kernel
  have blocked : clearedTrace.2.setter = .blocked ⟨none, 0⟩ (closedBit + 1) := by decide +kernel
  obtain ⟨together, -, -, -, notified⟩ := callback_gate run
  exact ⟨running, (together 0 1 (some 7) 3 running).2, blocked, notified _ _ blocked⟩

end Florid.Transport
