import Mathlib
import Florid.Transition

/-! The control thread of the gravity tuner: the window's calls of `start`, `stop` and `disconnect`
against the loop that reads states and writes frames. -/
namespace Florid.GravityTuner
open Transition

/-- `_ERROR_BITS` -/
def errorBits : List (Nat × String) := [
  (0, "joint position limits"), (1, "cartesian position limits"), (2, "self collision"),
  (3, "joint velocity"), (4, "cartesian velocity"), (5, "force control safety"),
  (6, "joint reflex"), (7, "cartesian reflex"), (8, "comm constraints"), (9, "E-stop"),
  (10, "watchdog timeout")]

def describeErrors (bits : Nat) : String :=
  let names := (errorBits.filter fun bit => bits.testBit bit.1).map Prod.snd
  if names = [] then "unknown error bits 0x" ++ String.ofList (Nat.toDigits 16 (bits % 2 ^ 32))
  else ", ".intercalate names

/-- The members of a state that the loop reads; an empty queue gives `seq` zero. -/
structure ArmState (Pose Gravity : Type) where
  seq : Nat
  q : Pose
  baseGravity : Gravity
  errors : Nat

/-- A frame; `q` is none where the members `q` and `dq` stay zero. -/
structure JointMit (Pose Torque : Type) where
  q : Option Pose := none
  kp : Nat := 0
  kd : Nat := 0
  tau : Torque
  firmwareGravity : Bool := false

def holdKp : Nat := 50
def holdKd : Nat := 5

/-- Where `_run` stands. -/
inductive Place (Pose Gravity Torque : Type) where
  | test
  | read
  | send (s : ArmState Pose Gravity)
  | leave
  | hold
  | holding (frame : JointMit Pose Torque)
  | dead

def Place.isDead {Pose Gravity Torque : Type} : Place Pose Gravity Torque → Bool
  | .dead => true
  | _ => false

structure Worker (Pose Gravity Torque : Type) where
  place : Place Pose Gravity Torque
  /-- `s_hold_q` and `s_hold_g` -/
  held : Option (Pose × Gravity)

/-- Where the window's thread stands in a call: in `start` behind its checks, while the arm is
enabled, or in the join of `stop`. -/
inductive Caller where
  | idle
  | starting
  | joining (w : Nat) (disconnects : Bool)
  deriving DecidableEq

structure Controller (Pose Gravity Torque : Type) where
  arm : Bool
  ac : Bool
  running : Bool
  thread : Option Nat
  fault : Option String
  workers : Nat → Worker Pose Gravity Torque
  spawned : Nat
  caller : Caller

section
variable {Pose Gravity Torque : Type}

/-- What the arm and the model answer to a step of the loop. -/
inductive Answer (Pose Gravity Torque : Type) where
  | nothing
  | state (read : Except String (ArmState Pose Gravity))
  | torque (tau : Except String Torque)
  | torqueWritten (tau : Except String Torque) (written : Except String Unit)
  | written (expired : Bool) (written : Except String Unit)

inductive Action (Pose Gravity Torque : Type) where
  | connect (created : Bool)
  | start
  | started (enabled : Bool)
  | stop (disconnects : Bool)
  | joined (timedOut : Bool)
  | work (w : Nat) (answer : Answer Pose Gravity Torque)

inductive Event (Pose Gravity Torque : Type) where
  | silent
  | read (w : Nat) (s : ArmState Pose Gravity)
  | wrote (w : Nat) (frame : JointMit Pose Torque)

namespace Controller
variable (c : Controller Pose Gravity Torque)

def put (w : Nat) (place : Place Pose Gravity Torque) (held : Option (Pose × Gravity)) :
    Controller Pose Gravity Torque :=
  { c with workers := Function.update c.workers w ⟨place, held⟩ }

/-- The handler of exceptions in `_run`. -/
def raised (w : Nat) (text : String) : Controller Pose Gravity Torque :=
  { c.put w .leave (c.workers w).held with fault := some ("control loop error: " ++ text) }

def noHandle (name : String) : String := "'NoneType' object has no attribute '" ++ name ++ "'"

/-- One step of `_run`, between two accesses of what the threads share. -/
def work (w : Nat) (answer : Answer Pose Gravity Torque) :
    Option (Controller Pose Gravity Torque × Event Pose Gravity Torque) :=
  let held := (c.workers w).held
  match (c.workers w).place, answer with
  | .test, .nothing => some (c.put w (if c.running then .read else .leave) held, .silent)
  | .read, .state (.error text) => some (c.raised w text, .silent)
  | .read, .state (.ok s) =>
    if c.ac = false then some (c.raised w (noHandle "read_once"), .silent)
    else if s.seq = 0 then some (c.put w .test held, .silent)
    else if s.errors ≠ 0 then
      some ({ c.put w .leave (some (s.q, s.baseGravity)) with
        fault := some (describeErrors s.errors) }, .read w s)
    else some (c.put w (.send s) (some (s.q, s.baseGravity)), .read w s)
  | .send _, .torqueWritten (.error text) _ => some (c.raised w text, .silent)
  | .send _, .torqueWritten (.ok tau) written =>
    if c.ac = false then some (c.raised w (noHandle "write_once"), .silent)
    else match written with
    | .error text => some (c.raised w text, .silent)
    | .ok () => some (c.put w .test held, .wrote w { tau })
  | .leave, .nothing => some ({ c.put w .hold held with running := false }, .silent)
  | .hold, .torque tau =>
    match held with
    | some (q, _) =>
      -- an empty text would be no fault
      if c.fault.any (· ≠ "") then some (c.put w .dead held, .silent)
      else match tau with
      | .error _ => some (c.put w .dead held, .silent)
      | .ok tau =>
        some (c.put w (.holding { q := some q, kp := holdKp, kd := holdKd, tau }) held, .silent)
    | none => some (c.put w .dead held, .silent)
  | .holding frame, .written expired written =>
    if c.ac = false ∨ expired = true then some (c.put w .dead held, .silent)
    else match written with
    | .error _ => some (c.put w .dead held, .silent)
    | .ok () => some (c, .wrote w frame)
  | _, _ => none

/-- What `stop` does behind its join, and `disconnect` behind that. -/
def stopped (disconnects : Bool) : Controller Pose Gravity Torque :=
  { c with ac := false, arm := c.arm && !disconnects, caller := .idle }

/-- `is_running` -/
def isRunning : Bool := c.thread.any fun w => !(c.workers w).place.isDead

/-- One step of the window's thread, or of a control thread. -/
def step (a : Action Pose Gravity Torque) :
    Option (Controller Pose Gravity Torque × Event Pose Gravity Torque) :=
  match c.caller, a with
  | _, .work w answer => c.work w answer
  | .idle, .connect created => some ({ c with arm := c.arm || created }, .silent)
  | .idle, .start =>
    if c.arm = false ∨ c.isRunning = true then some (c, .silent)
    else some ({ c with fault := none, caller := .starting }, .silent)
  | .starting, .started enabled =>
    if enabled then
      some ({ c with
        ac := true
        running := true
        thread := some c.spawned
        workers := Function.update c.workers c.spawned ⟨.test, none⟩
        spawned := c.spawned + 1
        caller := .idle }, .silent)
    else some ({ c with caller := .idle }, .silent)
  | .idle, .stop disconnects =>
    match c.thread with
    | some w =>
      some ({ c with running := false, thread := none, caller := .joining w disconnects }, .silent)
    | none => some ({ c with running := false }.stopped disconnects, .silent)
  | .joining w disconnects, .joined timedOut =>
    if timedOut = true ∨ (c.workers w).place.isDead = true then
      some (c.stopped disconnects, .silent)
    else none
  | _, _ => none

end Controller

def machine (Pose Gravity Torque : Type) :
    Machine (Controller Pose Gravity Torque) (Action Pose Gravity Torque)
      (Event Pose Gravity Torque) where
  init := {
    arm := false
    ac := false
    running := false
    thread := none
    fault := none
    workers _ := ⟨.dead, none⟩
    spawned := 0
    caller := .idle }
  step := Controller.step

/-! ### What a step can do -/

/-- Places behind the loop, from which a thread may still hold the arm. -/
def Place.Quiet (place : Place Pose Gravity Torque) : Prop := place = .leave ∨ place = .hold

variable {c c' : Controller Pose Gravity Torque} {w : Nat} {e : Event Pose Gravity Torque}

/-- The steps of a control thread. -/
inductive Worked (c : Controller Pose Gravity Torque) (w : Nat) :
    Controller Pose Gravity Torque → Event Pose Gravity Torque → Prop where
  | moved {place} : (c.workers w).place ≠ .dead → ¬ (c.workers w).place.Quiet →
      place = .test ∨ place = .read ∨ place = .leave ∨ place = .dead →
      Worked c w (c.put w place (c.workers w).held) .silent
  | raised (text) : (c.workers w).place ≠ .dead → ¬ (c.workers w).place.Quiet →
      Worked c w (c.raised w text) .silent
  | refused {s} : (c.workers w).place = .read → s.errors ≠ 0 →
      Worked c w { c.put w .leave (some (s.q, s.baseGravity)) with
        fault := some (describeErrors s.errors) } (.read w s)
  | took {s} : (c.workers w).place = .read → s.errors = 0 →
      Worked c w (c.put w (.send s) (some (s.q, s.baseGravity))) (.read w s)
  | sent {s tau} : (c.workers w).place = .send s →
      Worked c w (c.put w .test (c.workers w).held) (.wrote w { tau })
  | left : (c.workers w).place = .leave →
      Worked c w { c.put w .hold (c.workers w).held with running := false } .silent
  | ended : (c.workers w).place = .hold →
      Worked c w (c.put w .dead (c.workers w).held) .silent
  | holds {q g tau} : (c.workers w).place = .hold → (c.workers w).held = some (q, g) →
      c.fault.any (· ≠ "") = false →
      Worked c w (c.put w (.holding { q := some q, kp := holdKp, kd := holdKd, tau })
        (c.workers w).held) .silent
  | held {frame} : (c.workers w).place = .holding frame → Worked c w c (.wrote w frame)

theorem work_cases {answer : Answer Pose Gravity Torque}
    (worked : c.work w answer = some (c', e)) : Worked c w c' e := by
  unfold Controller.work at worked
  split at worked
  · rename_i place
    cases worked
    apply Worked.moved
    · simp [place]
    · simp [place, Place.Quiet]
    · split
      · exact .inr (.inl rfl)
      · exact .inr (.inr (.inl rfl))
  · rename_i place
    cases worked
    exact .raised _ (by simp [place]) (by simp [place, Place.Quiet])
  · rename_i s place
    split at worked
    · cases worked
      exact .raised _ (by simp [place]) (by simp [place, Place.Quiet])
    split at worked
    · cases worked
      exact .moved (by simp [place]) (by simp [place, Place.Quiet]) (.inl rfl)
    split at worked
    · rename_i errors
      cases worked
      exact .refused place errors
    · rename_i errors
      cases worked
      exact .took place (not_not.mp errors)
  · rename_i place
    cases worked
    exact .raised _ (by simp [place]) (by simp [place, Place.Quiet])
  · rename_i place
    split at worked
    · cases worked
      exact .raised _ (by simp [place]) (by simp [place, Place.Quiet])
    split at worked
    · cases worked
      exact .raised _ (by simp [place]) (by simp [place, Place.Quiet])
    · cases worked
      exact .sent place
  · rename_i place
    cases worked
    exact .left place
  · rename_i place
    cases kept : (c.workers w).held with
    | none =>
      simp only [kept] at worked
      cases worked
      rw [← kept]
      exact .ended place
    | some pair =>
      simp only [kept] at worked
      rw [← kept] at worked
      split at worked
      · cases worked
        exact .ended place
      · rename_i clear
        split at worked
        · cases worked
          exact .ended place
        · cases worked
          exact .holds place kept (Bool.eq_false_iff.mpr clear)
  · rename_i place
    split at worked
    · cases worked
      exact .moved (by simp [place]) (by simp [place, Place.Quiet]) (.inr (.inr (.inr rfl)))
    split at worked
    · cases worked
      exact .moved (by simp [place]) (by simp [place, Place.Quiet]) (.inr (.inr (.inr rfl)))
    · cases worked
      exact .held place
  · cases worked

@[simp] theorem put_self (place : Place Pose Gravity Torque) (held : Option (Pose × Gravity)) :
    (c.put w place held).workers w = ⟨place, held⟩ := Function.update_self ..

theorem put_of_ne {place : Place Pose Gravity Torque} {held : Option (Pose × Gravity)} {w' : Nat}
    (other : w' ≠ w) : (c.put w place held).workers w' = c.workers w' :=
  Function.update_of_ne other ..

/-- What a step of a thread leaves alone. -/
structure Frame (c : Controller Pose Gravity Torque) (w : Nat)
    (c' : Controller Pose Gravity Torque) : Prop where
  alive : (c.workers w).place ≠ .dead
  thread : c'.thread = c.thread
  caller : c'.caller = c.caller
  spawned : c'.spawned = c.spawned
  others : ∀ w' ≠ w, c'.workers w' = c.workers w'

theorem Worked.frame (worked : Worked c w c' e) : Frame c w c' := by
  cases worked with
  | moved alive _ _ => exact ⟨alive, rfl, rfl, rfl, fun _ => put_of_ne⟩
  | raised text alive _ => exact ⟨alive, rfl, rfl, rfl, fun _ => put_of_ne⟩
  | refused place _ => exact ⟨by simp [place], rfl, rfl, rfl, fun _ => put_of_ne⟩
  | took place _ => exact ⟨by simp [place], rfl, rfl, rfl, fun _ => put_of_ne⟩
  | sent place => exact ⟨by simp [place], rfl, rfl, rfl, fun _ => put_of_ne⟩
  | left place => exact ⟨by simp [place], rfl, rfl, rfl, fun _ => put_of_ne⟩
  | ended place => exact ⟨by simp [place], rfl, rfl, rfl, fun _ => put_of_ne⟩
  | holds place _ _ => exact ⟨by simp [place], rfl, rfl, rfl, fun _ => put_of_ne⟩
  | held place => exact ⟨by simp [place], rfl, rfl, rfl, fun _ _ => rfl⟩

/-! ### One thread, and none that goes on behind a fault -/

theorem describeErrors_ne_empty (bits : Nat) : describeErrors bits ≠ "" := by
  have named : ∀ bit ∈ errorBits, bit.2 ≠ "" := by decide
  unfold describeErrors
  dsimp only
  split
  · intro empty
    exact absurd (String.append_eq_empty_iff.mp empty).1 (by decide)
  · rename_i nonempty
    generalize names : (errorBits.filter fun bit => bits.testBit bit.1).map Prod.snd = ns at nonempty ⊢
    cases ns with
    | nil => exact absurd rfl nonempty
    | cons first rest =>
      have member : first ∈ (errorBits.filter fun bit => bits.testBit bit.1).map Prod.snd := by
        rw [names]
        exact List.mem_cons_self
      obtain ⟨bit, inside, rfl⟩ := List.mem_map.mp member
      have text := named bit (List.mem_filter.mp inside).1
      cases rest with
      | nil => simpa using text
      | cons second rest =>
        rw [String.intercalate_cons_cons]
        intro empty
        exact text (String.append_eq_empty_iff.mp (String.append_eq_empty_iff.mp empty).1).1

/-- What holds while every join has waited for its thread. -/
structure Sound (c : Controller Pose Gravity Torque) : Prop where
  alone : ∀ w, (c.workers w).place ≠ .dead →
    c.thread = some w ∨ ∃ d, c.caller = .joining w d
  starting : c.caller = .starting → ∀ w, (c.workers w).place = .dead
  clear : c.caller = .starting → c.fault = none
  joining : ∀ w d, c.caller = .joining w d → c.thread = none
  fresh : ∀ w, c.spawned ≤ w → (c.workers w).place = .dead
  quiet : ∀ w, (c.workers w).place ≠ .dead → c.fault ≠ none → (c.workers w).place.Quiet
  named : ∀ text, c.fault = some text → text ≠ ""

/-- A join waits for its thread; that of the source gives up after two seconds. -/
def Action.waits : Action Pose Gravity Torque → Bool
  | .joined timedOut => !timedOut
  | _ => true

def Joins (_ : Controller Pose Gravity Torque) (a : Action Pose Gravity Torque) : Prop :=
  a.waits = true

namespace Sound

theorem unique (sound : Sound c) {w' : Nat} (alive : (c.workers w).place ≠ .dead)
    (alive' : (c.workers w').place ≠ .dead) : w = w' := by
  rcases sound.alone w alive with here | ⟨d, here⟩ <;>
    rcases sound.alone w' alive' with there | ⟨d', there⟩
  · exact Option.some.inj (here.symm.trans there)
  · rw [sound.joining w' d' there] at here
    cases here
  · rw [sound.joining w d here] at there
    cases there
  · have same := here.symm.trans there
    cases same
    rfl

theorem worked (sound : Sound c) (worked : Worked c w c' e) : Sound c' := by
  have frame := worked.frame
  have alive : ∀ w', (c'.workers w').place ≠ .dead → (c.workers w').place ≠ .dead := by
    intro w' alive'
    by_cases same : w' = w
    · rw [same]
      exact frame.alive
    · rwa [frame.others w' same] at alive'
  constructor
  case alone =>
    intro w' alive'
    rw [frame.thread, frame.caller]
    exact sound.alone w' (alive w' alive')
  case starting =>
    intro starts
    exact absurd (sound.starting (frame.caller ▸ starts) w) frame.alive
  case clear =>
    intro starts
    exact absurd (sound.starting (frame.caller ▸ starts) w) frame.alive
  case joining =>
    intro w' d joins
    rw [frame.thread]
    exact sound.joining w' d (frame.caller ▸ joins)
  case fresh =>
    intro w' unborn
    by_contra alive'
    exact alive w' alive' (sound.fresh w' (frame.spawned ▸ unborn))
  case quiet =>
    intro w' alive' faulted
    obtain rfl := sound.unique (alive w' alive') frame.alive
    have calm := sound.quiet w' frame.alive
    cases worked with
    | moved _ loud _ => exact absurd (calm faulted) loud
    | raised => exact .inl (congrArg Worker.place (put_self _ _))
    | refused => exact .inl (congrArg Worker.place (put_self _ _))
    | took place => exact absurd (calm faulted) (by simp [place, Place.Quiet])
    | sent place => exact absurd (calm faulted) (by simp [place, Place.Quiet])
    | left => exact .inr (congrArg Worker.place (put_self _ _))
    | ended => exact absurd (congrArg Worker.place (put_self _ _)) alive'
    | holds _ _ clear =>
      obtain ⟨text, fault⟩ := Option.ne_none_iff_exists'.mp faulted
      have fault' : c.fault = some text := fault
      rw [fault'] at clear
      exact absurd clear (by simpa using sound.named text fault')
    | held place => exact absurd (calm faulted) (by simp [place, Place.Quiet])
  case named =>
    intro text fault
    cases worked with
    | raised =>
      cases fault
      intro empty
      exact absurd (String.append_eq_empty_iff.mp empty).1 (by decide)
    | refused =>
      cases fault
      exact describeErrors_ne_empty _
    | _ => exact sound.named text fault

theorem thread_of_idle (sound : Sound c) (idle : c.caller = .idle)
    (alive : (c.workers w).place ≠ .dead) : c.thread = some w := by
  rcases sound.alone w alive with here | ⟨d, here⟩
  · exact here
  · rw [idle] at here
    cases here

theorem of_dead (dead : ∀ w, (c.workers w).place = .dead)
    (clear : c.caller = .starting → c.fault = none)
    (joining : ∀ w d, c.caller = .joining w d → c.thread = none)
    (named : ∀ text, c.fault = some text → text ≠ "") : Sound c where
  alone w alive := absurd (dead w) alive
  starting _ := dead
  clear := clear
  joining := joining
  fresh w _ := dead w
  quiet w alive _ := absurd (dead w) alive
  named := named

end Sound

theorem isDead_iff {place : Place Pose Gravity Torque} : place.isDead = true ↔ place = .dead := by
  cases place <;> simp [Place.isDead]

theorem Sound.step (sound : Sound c) {a : Action Pose Gravity Torque} (joins : Joins c a)
    (stepped : c.step a = some (c', e)) : Sound c' := by
  unfold Controller.step at stepped
  split at stepped
  · exact sound.worked (work_cases stepped)
  · cases stepped
    exact ⟨sound.alone, sound.starting, sound.clear, sound.joining, sound.fresh, sound.quiet,
      sound.named⟩
  · rename_i idle
    split at stepped
    · cases stepped
      exact sound
    · rename_i ready
      cases stepped
      have dead : ∀ w, (c.workers w).place = .dead := by
        intro w
        by_contra alive
        apply ready
        right
        rw [Controller.isRunning, sound.thread_of_idle idle alive, Option.any_some,
          Bool.not_eq_true', Bool.eq_false_iff]
        exact fun dead => alive (isDead_iff.mp dead)
      refine Sound.of_dead dead (fun _ => rfl) ?_ ?_
      · intro w d joins
        cases joins
      · intro text fault
        cases fault
  · rename_i starting
    have dead := sound.starting starting
    split at stepped
    · cases stepped
      have others {w : Nat} (other : w ≠ c.spawned) :
          (Function.update c.workers c.spawned ⟨.test, none⟩ w).place = .dead := by
        rw [Function.update_of_ne other]
        exact dead w
      constructor
      case alone =>
        intro w alive
        left
        by_contra other
        exact alive (others fun same => other (congrArg some same.symm))
      case starting =>
        intro starts
        cases starts
      case clear =>
        intro starts
        cases starts
      case joining =>
        intro w d joins
        cases joins
      case fresh =>
        intro w unborn
        exact others (Nat.ne_of_gt unborn)
      case quiet =>
        intro w _ faulted
        exact absurd (sound.clear starting) faulted
      case named => exact sound.named
    · cases stepped
      refine Sound.of_dead (sound.starting starting) ?_ ?_ sound.named
      · intro starts
        cases starts
      · intro w d joins
        cases joins
  · rename_i idle
    split at stepped
    · rename_i w thread
      cases stepped
      refine ⟨?_, ?_, ?_, fun _ _ _ => rfl, sound.fresh, sound.quiet, sound.named⟩
      · intro w' alive
        have same := thread.symm.trans (sound.thread_of_idle idle alive)
        cases same
        exact .inr ⟨_, rfl⟩
      · intro starts
        cases starts
      · intro starts
        cases starts
    · rename_i thread
      cases stepped
      have dead : ∀ w, (c.workers w).place = .dead := by
        intro w
        by_contra alive
        have here := thread.symm.trans (sound.thread_of_idle idle alive)
        cases here
      refine Sound.of_dead dead ?_ ?_ sound.named
      · intro starts
        cases starts
      · intro w d joins
        cases joins
  · rename_i w d _ joining
    split at stepped
    · rename_i waited
      cases stepped
      have ended : (c.workers w).place = .dead := by
        rcases waited with late | dead
        · rw [late] at joins
          cases joins
        · exact isDead_iff.mp dead
      have dead : ∀ w', (c.workers w').place = .dead := by
        intro w'
        by_contra alive
        rcases sound.alone w' alive with here | ⟨d', here⟩
        · rw [sound.joining w d joining] at here
          cases here
        · have same := joining.symm.trans here
          cases same
          exact alive ended
      refine Sound.of_dead dead ?_ ?_ sound.named
      · intro starts
        cases starts
      · intro w' d' joins
        cases joins
    · cases stepped
  · cases stepped

theorem sound_of_run {es : List (Entry (Controller Pose Gravity Torque)
    (Action Pose Gravity Torque) (Event Pose Gravity Torque))}
    (run : Run (machine Pose Gravity Torque) es c) (joins : Meets Joins es) : Sound c := by
  refine run.guarded ?_ (fun sound joins stepped => Sound.step sound joins stepped) joins
  refine Sound.of_dead (fun _ => rfl) (fun _ => rfl) (fun _ _ _ => rfl) ?_
  intro text fault
  cases fault

/-! ### A fault -/

/-- The events of a step and the thread that they come from. -/
theorem step_event {a : Action Pose Gravity Torque} (stepped : c.step a = some (c', e))
    (loud : e ≠ .silent) : ∃ w, Worked c w c' e := by
  unfold Controller.step at stepped
  split at stepped
  · exact ⟨_, work_cases stepped⟩
  · cases stepped
    exact absurd rfl loud
  · split at stepped <;> cases stepped <;> exact absurd rfl loud
  · split at stepped <;> cases stepped <;> exact absurd rfl loud
  · split at stepped <;> cases stepped <;> exact absurd rfl loud
  · split at stepped
    · cases stepped
      exact absurd rfl loud
    · cases stepped
  · cases stepped

theorem Worked.fault_ne_none (worked : Worked c w c' e) (faulted : c.fault ≠ none) :
    c'.fault ≠ none := by
  cases worked with
  | raised => exact Option.some_ne_none _
  | refused => exact Option.some_ne_none _
  | _ => exact faulted

theorem Worked.refusal {w' : Nat} {s : ArmState Pose Gravity} (worked : Worked c w c' (.read w' s))
    (errors : s.errors ≠ 0) : c'.fault ≠ none := by
  cases worked with
  | refused => exact Option.some_ne_none _
  | took _ none => exact absurd none errors

/-- Only `start` takes a fault away. -/
theorem step_fault {a : Action Pose Gravity Torque} (stepped : c.step a = some (c', e))
    (kept : a ≠ .start) (faulted : c.fault ≠ none) : c'.fault ≠ none := by
  unfold Controller.step at stepped
  split at stepped
  · exact (work_cases stepped).fault_ne_none faulted
  · cases stepped
    exact faulted
  · exact absurd rfl kept
  · split at stepped <;> cases stepped <;> exact faulted
  · split at stepped <;> cases stepped <;> exact faulted
  · split at stepped
    · cases stepped
      exact faulted
    · cases stepped
  · cases stepped

section Runs
variable {es before after : List (Entry (Controller Pose Gravity Torque)
  (Action Pose Gravity Torque) (Event Pose Gravity Torque))}
  {f g : Entry (Controller Pose Gravity Torque) (Action Pose Gravity Torque)
    (Event Pose Gravity Torque)}

/-- Behind a state with errors the fault stays until the next start. -/
theorem fault_of_seen (run : Run (machine Pose Gravity Torque) (before ++ f :: after) c)
    {s : ArmState Pose Gravity} (seen : f.event = .read w s) (errors : s.errors ≠ 0)
    (kept : ∀ g ∈ after, g.action ≠ .start) : c.fault ≠ none := by
  induction after using List.reverseRecOn generalizing c with
  | nil =>
    obtain ⟨-, stepped, rfl⟩ := run.of_snoc
    obtain ⟨w', worked⟩ := step_event stepped (by simp [seen])
    rw [seen] at worked
    exact worked.refusal errors
  | append_singleton after g ih =>
    rw [← List.cons_append, ← List.append_assoc] at run
    obtain ⟨earlier, stepped, rfl⟩ := run.of_snoc
    have faulted := ih earlier fun g' inside => kept g' (List.mem_append_left _ inside)
    exact step_fault stepped (kept g (List.mem_append_right _ List.mem_cons_self)) faulted

/-- A thread that writes has no fault before it. -/
theorem Sound.writes (sound : Sound c) {frame : JointMit Pose Torque} {w' : Nat}
    (worked : Worked c w c' (.wrote w' frame)) : c.fault = none := by
  by_contra faulted
  have calm := sound.quiet w worked.frame.alive faulted
  cases worked with
  | sent place => simp [place, Place.Quiet] at calm
  | held place => simp [place, Place.Quiet] at calm

/-- At most one thread is alive, and it is the one that the window knows or waits for. -/
theorem one_thread (run : Run (machine Pose Gravity Torque) es c) (joins : Meets Joins es) {w' : Nat}
    (alive : (c.workers w).place ≠ .dead) (alive' : (c.workers w').place ≠ .dead) :
    w = w' ∧ (c.thread = some w ∨ ∃ d, c.caller = .joining w d) :=
  ⟨(sound_of_run run joins).unique alive alive', (sound_of_run run joins).alone w alive⟩

/-- Behind a state with errors no thread writes a frame until the next start, neither of gravity nor
to hold, in whatever order the threads go on. -/
theorem silent_after_error
    (run : Run (machine Pose Gravity Torque) (before ++ f :: (after ++ [g])) c)
    (joins : Meets Joins (before ++ f :: (after ++ [g])))
    {s : ArmState Pose Gravity} (seen : f.event = .read w s) (errors : s.errors ≠ 0)
    (kept : ∀ h ∈ after, h.action ≠ .start) (w' : Nat) (frame : JointMit Pose Torque) :
    g.event ≠ .wrote w' frame := by
  intro wrote
  rw [← List.cons_append, ← List.append_assoc] at run joins
  obtain ⟨earlier, stepped, -⟩ := run.of_snoc
  have sound := sound_of_run earlier (Meets.append.mp joins).1
  obtain ⟨w'', worked⟩ := step_event stepped (by simp [wrote])
  rw [wrote] at worked
  exact fault_of_seen earlier seen errors kept (sound.writes worked)

/-! ### The hold -/

/-- The states that a thread has read, in their order. -/
def readBy (w : Nat) : Event Pose Gravity Torque → Option (ArmState Pose Gravity)
  | .read w' s => if w' = w then some s else none
  | _ => none

def reads (w : Nat) (es : List (Entry (Controller Pose Gravity Torque)
    (Action Pose Gravity Torque) (Event Pose Gravity Torque))) : List (ArmState Pose Gravity) :=
  es.filterMap fun f => readBy w f.event

theorem reads_append (w : Nat) : reads w (es ++ [f]) = reads w es ++ (readBy w f.event).toList := by
  simp only [reads, List.filterMap_append, List.filterMap_cons, List.filterMap_nil]
  cases readBy w f.event <;> rfl

/-- What a thread keeps of the last state that it has read. -/
structure Kept (fault : Option String) (worker : Worker Pose Gravity Torque)
    (last : Option (ArmState Pose Gravity)) : Prop where
  held : worker.held = last.map fun s => (s.q, s.baseGravity)
  errors : ∀ s, worker.place ≠ .dead → last = some s → s.errors ≠ 0 → fault ≠ none
  holding : ∀ frame, worker.place = .holding frame →
    ∃ s, last = some s ∧ s.errors = 0 ∧ frame.q = some s.q ∧ frame.kp = holdKp ∧ frame.kd = holdKd

/-- What all threads keep. -/
structure Keeps (es : List (Entry (Controller Pose Gravity Torque) (Action Pose Gravity Torque)
    (Event Pose Gravity Torque))) (c : Controller Pose Gravity Torque) : Prop where
  kept : ∀ w, Kept c.fault (c.workers w) (reads w es).getLast?
  unread : ∀ w, c.spawned ≤ w → reads w es = []

theorem Kept.of_place {fault fault' : Option String} {worker : Worker Pose Gravity Torque}
    {last : Option (ArmState Pose Gravity)} (kept : Kept fault worker last)
    (alive : worker.place ≠ .dead) {place : Place Pose Gravity Torque}
    (faulted : place ≠ .dead → fault ≠ none → fault' ≠ none)
    (holds : ∀ frame, place ≠ .holding frame) : Kept fault' ⟨place, worker.held⟩ last where
  held := kept.held
  errors s alive' seen errors := faulted alive' (kept.errors s alive seen errors)
  holding frame place := absurd place (holds frame)

theorem readBy_other (worked : Worked c w c' e) {w' : Nat} (other : w' ≠ w) : readBy w' e = none := by
  cases worked with
  | refused => exact if_neg other.symm
  | took => exact if_neg other.symm
  | _ => rfl

theorem Kept.worked (sound : Sound c) (worked : Worked c w c' e)
    {last : Option (ArmState Pose Gravity)} (kept : Kept c.fault (c.workers w) last) :
    Kept c'.fault (c'.workers w) ((readBy w e).or last) := by
  have alive := worked.frame.alive
  cases worked with
  | moved _ _ place =>
    rw [put_self]
    apply kept.of_place alive (fun _ => id)
    rintro frame rfl
    rcases place with place | place | place | place <;> cases place
  | raised text =>
    change Kept _ ((c.put w .leave (c.workers w).held).workers w) last
    rw [put_self]
    apply kept.of_place alive (fun _ _ => Option.some_ne_none _)
    intro frame place
    cases place
  | @refused s _ errors =>
    change Kept _ ((c.put w .leave _).workers w) _
    rw [put_self, show readBy w (.read w s) = some s from if_pos rfl, Option.some_or]
    refine ⟨rfl, fun _ _ _ _ => Option.some_ne_none _, ?_⟩
    intro frame place
    cases place
  | @took s _ none =>
    rw [put_self, show readBy w (.read w s) = some s from if_pos rfl, Option.some_or]
    refine ⟨rfl, ?_, ?_⟩
    · rintro s' - same errors
      cases same
      exact absurd none errors
    · intro frame place
      cases place
  | sent =>
    rw [put_self]
    apply kept.of_place alive (fun _ => id)
    intro frame place
    cases place
  | left =>
    change Kept _ ((c.put w .hold _).workers w) _
    rw [put_self]
    apply kept.of_place alive (fun _ => id)
    intro frame place
    cases place
  | ended =>
    rw [put_self]
    apply kept.of_place alive (fun _ => id)
    intro frame place
    cases place
  | @holds q g tau place held clear =>
    rw [put_self]
    have map := kept.held
    rw [held] at map
    obtain ⟨s, seen, same⟩ := Option.map_eq_some_iff.mp map.symm
    have none : s.errors = 0 := by
      by_contra errors
      obtain ⟨text, fault⟩ := Option.ne_none_iff_exists'.mp (kept.errors s alive seen errors)
      rw [fault] at clear
      exact absurd clear (by simpa using sound.named text fault)
    refine ⟨kept.held, fun s' _ => kept.errors s' alive, ?_⟩
    intro frame holding
    cases holding
    cases same
    exact ⟨s, seen, none, rfl, rfl, rfl⟩
  | held => exact kept

theorem last_append (w : Nat) :
    (reads w (es ++ [f])).getLast? = (readBy w f.event).or (reads w es).getLast? := by
  rw [reads_append, List.getLast?_append]
  cases readBy w f.event <;> rfl

namespace Keeps

theorem worked (sound : Sound c) (keeps : Keeps es c) (worked : Worked c w c' e)
    (a : Action Pose Gravity Torque) : Keeps (es ++ [⟨c, a, e, c'⟩]) c' where
  kept w' := by
    rw [last_append]
    by_cases same : w' = w
    · rw [same]
      exact (keeps.kept w).worked sound worked
    · have kept := keeps.kept w'
      rw [readBy_other worked same, Option.none_or, worked.frame.others w' same]
      refine ⟨kept.held, ?_, kept.holding⟩
      intro s alive
      exact absurd (sound.unique alive worked.frame.alive) same
  unread w' unborn := by
    rw [worked.frame.spawned] at unborn
    have other : w' ≠ w := by
      rintro rfl
      exact worked.frame.alive (sound.fresh w' unborn)
    rw [reads_append, keeps.unread w' unborn, readBy_other worked other]
    rfl

/-- A step of the window that leaves the threads alone. -/
theorem still (keeps : Keeps es c) (a : Action Pose Gravity Torque)
    (workers : c'.workers = c.workers) (spawned : c'.spawned = c.spawned)
    (faulted : ∀ w, (c.workers w).place ≠ .dead → c'.fault = c.fault) :
    Keeps (es ++ [⟨c, a, .silent, c'⟩]) c' where
  kept w := by
    have kept := keeps.kept w
    rw [last_append, workers]
    refine ⟨kept.held, ?_, kept.holding⟩
    intro s alive seen errors
    rw [faulted w alive]
    exact kept.errors s alive seen errors
  unread w unborn := by
    rw [spawned] at unborn
    rw [reads_append, keeps.unread w unborn]
    rfl

theorem step (sound : Sound c) (sound' : Sound c') (keeps : Keeps es c)
    {a : Action Pose Gravity Torque} (stepped : c.step a = some (c', e)) :
    Keeps (es ++ [⟨c, a, e, c'⟩]) c' := by
  unfold Controller.step at stepped
  split at stepped
  · exact keeps.worked sound (work_cases stepped) _
  · cases stepped
    exact keeps.still _ rfl rfl fun _ _ => rfl
  · split at stepped <;> cases stepped
    · exact keeps.still _ rfl rfl fun _ _ => rfl
    · exact keeps.still _ rfl rfl fun w alive => absurd (sound'.starting rfl w) alive
  · split at stepped <;> cases stepped
    · constructor
      · intro w
        rw [last_append]
        dsimp only [readBy, Option.none_or]
        by_cases same : w = c.spawned
        · subst same
          rw [keeps.unread _ (Nat.le_refl _), Function.update_self]
          refine ⟨rfl, ?_, ?_⟩
          · rintro s - none
            cases none
          · intro frame place
            cases place
        · rw [Function.update_of_ne same]
          exact keeps.kept w
      · intro w unborn
        rw [reads_append, keeps.unread w (Nat.le_of_succ_le unborn)]
        rfl
    · exact keeps.still _ rfl rfl fun _ _ => rfl
  · split at stepped <;> cases stepped <;> exact keeps.still _ rfl rfl fun _ _ => rfl
  · split at stepped <;> cases stepped
    exact keeps.still _ rfl rfl fun _ _ => rfl
  · cases stepped

theorem of_run (run : Run (machine Pose Gravity Torque) es c) (joins : Meets Joins es) :
    Keeps es c := by
  induction run with
  | nil =>
    refine ⟨fun w => ⟨rfl, ?_, ?_⟩, fun _ _ => rfl⟩
    · rintro s - none
      cases none
    · intro frame place
      cases place
  | snoc earlier stepped ih =>
    obtain ⟨before, last⟩ := Meets.append.mp joins
    have sound := sound_of_run earlier before
    exact (ih before).step sound (sound.step (Meets.single.mp last) stepped) stepped

end Keeps

/-- A frame that holds a pose holds that of the last state that its thread read, and that state had
no error. -/
theorem hold_last_pose (run : Run (machine Pose Gravity Torque) (es ++ [f]) c)
    (joins : Meets Joins (es ++ [f])) {frame : JointMit Pose Torque}
    (wrote : f.event = .wrote w frame) (holds : frame.q ≠ none) :
    ∃ s, (reads w es).getLast? = some s ∧ s.errors = 0 ∧ frame.q = some s.q ∧
      frame.kp = holdKp ∧ frame.kd = holdKd := by
  obtain ⟨earlier, stepped, -⟩ := run.of_snoc
  have keeps := Keeps.of_run earlier (Meets.append.mp joins).1
  obtain ⟨w', worked⟩ := step_event stepped (by simp [wrote])
  rw [wrote] at worked
  generalize f.after = next at worked
  cases worked with
  | sent => exact absurd rfl holds
  | held place => exact (keeps.kept w).holding frame place

end Runs

end

section Runs

/-- A thread that is about to read. -/
def errorActions : List (Action Nat Nat Nat) :=
  [.connect true, .start, .started true, .work 0 .nothing]

theorem error_runs :
    (exec (machine Nat Nat Nat) errorActions [] (machine Nat Nat Nat).init).isSome = true := by
  decide

theorem error_alone : 0 = 0 ∧
    (((exec (machine Nat Nat Nat) errorActions [] (machine Nat Nat Nat).init).get
        error_runs).2.thread = some 0 ∨
      ∃ d, ((exec (machine Nat Nat Nat) errorActions [] (machine Nat Nat Nat).init).get
        error_runs).2.caller = .joining 0 d) :=
  one_thread (exec_get error_runs) (Meets.of_all (c := fun _ => Action.waits) (by decide))
    (fun dead => absurd (isDead_iff.mpr dead) (by decide))
    (fun dead => absurd (isDead_iff.mpr dead) (by decide))

theorem error_silent : ∃ (es : List (Entry (Controller Nat Nat Nat) (Action Nat Nat Nat)
    (Event Nat Nat Nat))) (c : Controller Nat Nat Nat) (g : Entry (Controller Nat Nat Nat)
    (Action Nat Nat Nat) (Event Nat Nat Nat)), Run (machine Nat Nat Nat) (es ++ [g]) c ∧
      g.action = .work 0 (.torque (.ok 3)) ∧ ¬ ∃ frame, g.event = .wrote 0 frame := by
  have run := exec_get error_runs
  have seen := run.snoc (show (machine Nat Nat Nat).step _ (.work 0 (.state (.ok ⟨1, 7, 0, 512⟩))) =
    some (_, .read 0 ⟨1, 7, 0, 512⟩) from rfl)
  have left := seen.snoc (show (machine Nat Nat Nat).step _ (.work 0 .nothing) = some (_, .silent)
    from rfl)
  have ended := left.snoc (show (machine Nat Nat Nat).step _ (.work 0 (.torque (.ok 3))) =
    some (_, .silent) from rfl)
  refine ⟨_, _, _, ended, rfl, ?_⟩
  rintro ⟨frame, wrote⟩
  rw [List.append_assoc, List.append_assoc] at ended
  exact silent_after_error ended (Meets.of_all (c := fun _ => Action.waits) (by decide)) rfl
    (by decide) (by simp) 0 frame wrote

/-- A thread sends a frame of gravity for a pose, and is stopped. -/
def holdActions : List (Action Nat Nat Nat) :=
  [.connect true, .start, .started true, .work 0 .nothing, .work 0 (.state (.ok ⟨1, 7, 0, 0⟩)),
    .work 0 (.torqueWritten (.ok 3) (.ok ())), .stop false, .work 0 .nothing, .work 0 .nothing,
    .work 0 (.torque (.ok 3))]

theorem hold_runs :
    (exec (machine Nat Nat Nat) holdActions [] (machine Nat Nat Nat).init).isSome = true := by
  decide

theorem hold_seven : ∃ s, (reads 0 ((exec (machine Nat Nat Nat) holdActions []
    (machine Nat Nat Nat).init).get hold_runs).1).getLast? = some s ∧ s.errors = 0 ∧
      some 7 = some s.q ∧ holdKp = holdKp ∧ holdKd = holdKd := by
  have run := exec_get hold_runs
  have held := run.snoc (show (machine Nat Nat Nat).step _ (.work 0 (.written false (.ok ()))) =
    some (_, .wrote 0 { q := some 7, kp := holdKp, kd := holdKd, tau := 3 }) from rfl)
  exact hold_last_pose held (Meets.of_all (c := fun _ => Action.waits) (by decide)) rfl (by simp)

end Runs

end Florid.GravityTuner
