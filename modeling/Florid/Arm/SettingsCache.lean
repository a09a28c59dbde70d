import Florid.Arm.Operations
import Florid.Wirelink.Commands
import Florid.Wirelink.Provenance
import Florid.Wirelink.Settings

/-! The settings that the arm caches: `m_device_settings`, and the period in `m_fw_dt_us`. The
application's control thread constructs the arm and sets settings; other threads, the owner and
the peer act on the endpoint between any two of its steps. The two stores are steps of their
own. -/
namespace Florid.Arm.SettingsCache
open Transition Wirelink

def controlThread : Nat := 0

/-- What stores settings: `s_fetchDeviceSettings`, the last act of the constructor, and
`setDeviceSettings`. -/
inductive Function where
  | fetch
  | set (settings : DeviceSettings)

def Function.call : Function → Call
  | .fetch => .getDeviceSettings 1000
  | .set settings => .setDeviceSettings settings defaultRpcTimeoutMs

inductive Pc where
  /-- Before the constructor has returned. -/
  | outside
  | idle
  | calling (f : Function)
  | submitting (f : Function)
  | waiting (f : Function) (requestId : Nat)
  | taking (f : Function) (requestId : Nat) (waited : Bool)
  | storing (f : Function) (requestId : Nat) (effective : DeviceSettings)
  | stored (f : Function) (requestId : Nat) (effective : DeviceSettings)

/-- Where a function is entered, and left without a result: the constructor throws. -/
def Function.outer : Function → Pc
  | .fetch => .outside
  | .set _ => .idle

structure State where
  world : World := {}
  pc : Pc := .outside
  deviceSettings : DeviceSettings := {}
  fwDtUs : Nat := 2000

inductive Step where
  | enter (f : Function)
  | call
  | gate
  | submit (clock : TimeMs)
  | wait (expired : Bool)
  | take
  | storeSettings
  | storePeriod
  | endpoint (a : Action)

/-- The step of the endpoint, and what the function returns; `false` stands for an exception of
the constructor. -/
structure Seen where
  inner : Option (Action × Event) := none
  returned : Option Bool := none

/-- What may happen at the endpoint between two steps of the control thread. -/
def foreign : Action → Bool
  | .call t _ | .gate t | .submit t _ => t != controlThread
  | _ => true

/-- `s_effective` after the take. -/
def effective : Endpoint.TakenValue → DeviceSettings
  | .settings settings => settings
  | _ => {}

namespace State

/-- One step at the endpoint, and where the function stands after its event. -/
def act (s : State) (a : Action) (next : Event → Pc × Option Bool) : Option (State × Seen) :=
  (s.world.step a).map fun made =>
    ({ s with world := made.1, pc := (next made.2).1 },
      { inner := some (a, made.2), returned := (next made.2).2 })

def step (s : State) : Step → Option (State × Seen)
  | .enter f =>
    match s.pc, f with
    | .outside, .fetch | .idle, .set _ => some ({ s with pc := .calling f }, {})
    | _, _ => none
  | .call =>
    match s.pc with
    | .calling f => s.act (.call controlThread f.call) fun
      | .refused _ => (f.outer, some false)
      | _ => (.submitting f, none)
    | _ => none
  | .gate =>
    match s.pc with
    | .submitting f => s.act (.gate controlThread) fun
      | .submitted .. => (f.outer, some false)
      | _ => (.submitting f, none)
    | _ => none
  | .submit clock =>
    match s.pc with
    | .submitting f => s.act (.submit controlThread clock) fun
      | .submitted _ _ result =>
        if result.status = .ok then (.waiting f result.requestId, none)
        else (f.outer, some false)
      | _ => (.submitting f, none)
    | _ => none
  | .wait expired =>
    match s.pc with
    | .waiting f requestId => s.act (.wait requestId expired) fun
      | .observed taken => (.taking f requestId (taken.status == .ok), none)
      | _ => (.waiting f requestId, none)
    | _ => none
  | .take =>
    match s.pc with
    | .taking f requestId waited => s.act (.take .deviceSettings requestId) fun
      | .took taken =>
        if waited && taken.status == .ok then
          (.storing f requestId (effective taken.value), none)
        else (f.outer, some false)
      | _ => (.taking f requestId waited, none)
    | _ => none
  | .storeSettings =>
    match s.pc with
    | .storing f requestId effective =>
      some ({ s with deviceSettings := effective, pc := .stored f requestId effective }, {})
    | _ => none
  | .storePeriod =>
    match s.pc with
    | .stored _ _ effective =>
      some ({ s with fwDtUs := effective.firmwarePeriodUs, pc := .idle },
        { returned := some true })
    | _ => none
  | .endpoint a => if foreign a then s.act a fun _ => (s.pc, none) else none

end State

def cacheMachine : Machine State Step Seen := ⟨{}, State.step⟩

/-- The function that is being run, and the request it has submitted. -/
def Pc.function : Pc → Option Function
  | .outside | .idle => none
  | .calling f | .submitting f | .waiting f _ | .taking f _ _ | .storing f _ _
  | .stored f _ _ => some f

def Pc.request : Pc → Option Nat
  | .waiting _ requestId | .taking _ requestId _ | .storing _ requestId _
  | .stored _ requestId _ => some requestId
  | _ => none

/-! ### Steps -/

/-- The steps of `s_submit`. -/
def Step.submits : Step → Bool
  | .call | .gate | .submit _ => true
  | _ => false

/-- Every way a step can go. A function that is left without a result has stored nothing. -/
inductive Moves (s : State) : Step → State → Seen → Prop where
  | entered {f} : s.pc = f.outer → Moves s (.enter f) { s with pc := .calling f } {}
  | left {f x a w e} : x.submits = true → s.pc = .calling f ∨ s.pc = .submitting f →
      s.world.step a = some (w, e) →
      Moves s x { s with world := w, pc := f.outer } ⟨some (a, e), some false⟩
  | advanced {f x a w e} : x.submits = true → s.pc = .calling f ∨ s.pc = .submitting f →
      s.world.step a = some (w, e) →
      Moves s x { s with world := w, pc := .submitting f } ⟨some (a, e), none⟩
  | submitted {f clock w internal sub result} : s.pc = .submitting f →
      s.world.step (.submit controlThread clock) = some (w, .submitted internal sub result) →
      result.status = .ok →
      Moves s (.submit clock) { s with world := w, pc := .waiting f result.requestId }
        ⟨some (.submit controlThread clock, .submitted internal sub result), none⟩
  | waited {f requestId expired w taken} : s.pc = .waiting f requestId →
      s.world.step (.wait requestId expired) = some (w, .observed taken) →
      Moves s (.wait expired)
        { s with world := w, pc := .taking f requestId (taken.status == .ok) }
        ⟨some (.wait requestId expired, .observed taken), none⟩
  | refused {f requestId waited w taken} : s.pc = .taking f requestId waited →
      s.world.step (.take .deviceSettings requestId) = some (w, .took taken) →
      Moves s .take { s with world := w, pc := f.outer }
        ⟨some (.take .deviceSettings requestId, .took taken), some false⟩
  | took {f requestId w taken} : s.pc = .taking f requestId true →
      s.world.step (.take .deviceSettings requestId) = some (w, .took taken) →
      taken.status = .ok →
      Moves s .take { s with world := w, pc := .storing f requestId (effective taken.value) }
        ⟨some (.take .deviceSettings requestId, .took taken), none⟩
  | storeSettings {f requestId effective} : s.pc = .storing f requestId effective →
      Moves s .storeSettings
        { s with deviceSettings := effective, pc := .stored f requestId effective } {}
  | storePeriod {f requestId effective} : s.pc = .stored f requestId effective →
      Moves s .storePeriod { s with fwDtUs := effective.firmwarePeriodUs, pc := .idle }
        ⟨none, some true⟩
  | endpoint {a w e} : foreign a = true → s.world.step a = some (w, e) →
      Moves s (.endpoint a) { s with world := w } ⟨some (a, e), none⟩

theorem act_some {s next : State} {a : Action} {then' : Event → Pc × Option Bool} {seen : Seen}
    (made : s.act a then' = some (next, seen)) : ∃ w e, s.world.step a = some (w, e) ∧
      next = { s with world := w, pc := (then' e).1 } ∧
      seen = ⟨some (a, e), (then' e).2⟩ := by
  simp only [State.act, Option.map_eq_some_iff, Prod.mk.injEq] at made
  obtain ⟨⟨w, e⟩, inside, rfl, rfl⟩ := made
  exact ⟨w, e, inside, rfl, rfl⟩

/-- What the endpoint answers to a wait or a take. -/
theorem wait_event {w next : World} {requestId : Nat} {expired : Bool} {e : Event}
    (made : w.step (.wait requestId expired) = some (next, e)) : ∃ taken, e = .observed taken := by
  simp only [World.step, Option.map_eq_some_iff, Prod.mk.injEq] at made
  obtain ⟨taken, -, -, rfl⟩ := made
  exact ⟨taken, rfl⟩

theorem take_event {w next : World} {kind : Endpoint.TakeKind} {requestId : Nat} {e : Event}
    (made : w.step (.take kind requestId) = some (next, e)) : ∃ taken, e = .took taken := by
  simp only [World.step, Option.some.injEq, Prod.mk.injEq] at made
  exact ⟨_, made.2.symm⟩

theorem step_moves {s next : State} {x : Step} {seen : Seen}
    (stepped : s.step x = some (next, seen)) : Moves s x next seen := by
  cases x with
  | enter f =>
    simp only [State.step] at stepped
    split at stepped <;> cases stepped
    · exact .entered ‹_›
    · exact .entered ‹_›
  | call =>
    simp only [State.step] at stepped
    split at stepped
    · rename_i f pc
      obtain ⟨w, e, made, rfl, rfl⟩ := act_some stepped
      split
      · exact .left rfl (.inl pc) made
      · exact .advanced rfl (.inl pc) made
    · cases stepped
  | gate =>
    simp only [State.step] at stepped
    split at stepped
    · rename_i f pc
      obtain ⟨w, e, made, rfl, rfl⟩ := act_some stepped
      split
      · exact .left rfl (.inr pc) made
      · exact .advanced rfl (.inr pc) made
    · cases stepped
  | submit clock =>
    simp only [State.step] at stepped
    split at stepped
    · rename_i f pc
      obtain ⟨w, e, made, rfl, rfl⟩ := act_some stepped
      split
      · split
        · exact .submitted pc made ‹_›
        · exact .left rfl (.inr pc) made
      · exact .advanced rfl (.inr pc) made
    · cases stepped
  | wait expired =>
    simp only [State.step] at stepped
    split at stepped
    · rename_i f requestId pc
      obtain ⟨w, e, made, rfl, rfl⟩ := act_some stepped
      obtain ⟨taken, rfl⟩ := wait_event made
      exact .waited pc made
    · cases stepped
  | take =>
    simp only [State.step] at stepped
    split at stepped
    · rename_i f requestId waited pc
      obtain ⟨w, e, made, rfl, rfl⟩ := act_some stepped
      obtain ⟨taken, rfl⟩ := take_event made
      by_cases ok : (waited && taken.status == .ok) = true
      · simp only [ok, if_true]
        simp only [Bool.and_eq_true, beq_iff_eq] at ok
        exact .took (ok.1 ▸ pc) made ok.2
      · simp only [ok]
        exact .refused pc made
    · cases stepped
  | storeSettings =>
    simp only [State.step] at stepped
    split at stepped <;> cases stepped
    exact .storeSettings ‹_›
  | storePeriod =>
    simp only [State.step] at stepped
    split at stepped <;> cases stepped
    exact .storePeriod ‹_›
  | endpoint a =>
    simp only [State.step] at stepped
    split at stepped
    · obtain ⟨w, e, made, rfl, rfl⟩ := act_some stepped
      exact .endpoint ‹_› made
    · cases stepped

/-! ### The endpoint's own history -/

abbrev CacheTrace := List (Entry State Step Seen)

/-- The step of the endpoint that a step took. -/
def endpointEntry (x : Entry State Step Seen) : Option (Entry World Action Event) :=
  x.event.inner.map fun made => ⟨x.before.world, made.1, made.2, x.after.world⟩

def endpointTrace (es : CacheTrace) : List (Entry World Action Event) :=
  es.filterMap endpointEntry

namespace Moves
variable {s next : State} {x : Step} {seen : Seen}

theorem world (moved : Moves s x next seen) :
    seen.inner = none ∧ next.world = s.world ∨
      ∃ a e, seen.inner = some (a, e) ∧ s.world.step a = some (next.world, e) := by
  cases moved with
  | entered | storeSettings | storePeriod => exact .inl ⟨rfl, rfl⟩
  | left _ _ made | advanced _ _ made | submitted _ made | waited _ made | refused _ made
  | took _ made | endpoint _ made => exact .inr ⟨_, _, rfl, made⟩

end Moves

theorem endpointTrace_snoc (es : CacheTrace) (x : Entry State Step Seen) :
    endpointTrace (es ++ [x]) = endpointTrace es ++ (endpointEntry x).toList := by
  rw [endpointTrace, List.filterMap_append, ← endpointTrace]
  cases held : endpointEntry x <;> simp [held]

theorem endpoint_run {es : CacheTrace} {s : State} (run : Run cacheMachine es s) :
    Run machine (endpointTrace es) s.world := by
  induction run with
  | nil => exact .nil
  | snoc before stepped ih =>
    rw [endpointTrace_snoc]
    rcases (step_moves stepped).world with ⟨none, same⟩ | ⟨a, e, some, made⟩
    · simpa [endpointEntry, none, same] using ih
    · simpa [endpointEntry, some] using ih.snoc made

/-- The device has answered this request, without rejecting it, with a complete and valid
response whose settings are these. -/
def Reported (es : List (Entry World Action Event)) (requestId : Nat)
    (settings : DeviceSettings) : Prop :=
  ∃ slot r, CompletedWith es slot (.deviceSettings r) ∧ slot.requestId = requestId ∧
    r.hasSettings = true ∧ settingsFromWire r.settings = some settings

theorem Reported.mono {es : List (Entry World Action Event)} {requestId : Nat}
    {settings : DeviceSettings} (fs) (reported : Reported es requestId settings) :
    Reported (es ++ fs) requestId settings := by
  obtain ⟨slot, r, ⟨x, present, completed⟩, rest⟩ := reported
  exact ⟨slot, r, ⟨x, List.mem_append_left _ present, completed⟩, rest⟩

theorem Reported.valid {es : List (Entry World Action Event)} {requestId : Nat}
    {settings : DeviceSettings} (reported : Reported es requestId settings) :
    validSettings settings = true := by
  obtain ⟨slot, r, -, -, -, read⟩ := reported
  exact (Endpoint.settingsFromWire_some read).1

/-- A take that answers ok hands over settings that the device reported. -/
theorem take_reported {past : List (Entry World Action Event)} {w next : World} {requestId : Nat}
    {taken : Endpoint.Taken} (run : Run machine past w)
    (made : w.step (.take .deviceSettings requestId) = some (next, .took taken))
    (ok : taken.status = .ok) : Reported past requestId (effective taken.value) := by
  have whole : TakesValidated past ⟨w, .take .deviceSettings requestId, .took taken, next⟩ :=
    takes_validated (Recorded.of_run run) (Wirelink.step_moves made)
  obtain ⟨written, answered⟩ := whole .deviceSettings requestId taken rfl rfl
  obtain ⟨slot, r, completed, same, accepts, value⟩ := answered ok
  have value := value (by simp)
  have some' : r.value ≠ .none := value ▸ (written (by simp)).mpr ok
  obtain ⟨x, present, i, clock, completion, action, before, fits, validated⟩ := id completed
  cases r with
  | deviceSettings r =>
    obtain ⟨has, readable⟩ := Bool.and_eq_true_iff.mp validated.valid
    obtain ⟨settings, read⟩ := Option.isSome_iff_exists.mp readable
    have here : effective taken.value = settings := by
      rw [value]
      simp [Response.value, read, effective]
    exact ⟨slot, r, completed, same, has, here ▸ read⟩
  | getDeviceInfo | motorRegisterRead =>
    -- an answer of another operation, which the take does not accept
    simp only [Response.fits, beq_iff_eq] at fits
    simp [fits, Endpoint.TakeKind.accepts] at accepts
  | acquireControlLease | acknowledged => exact absurd rfl some'

/-! ### What the cache holds -/

def Function.constructed : Function → Bool
  | .fetch => false
  | .set _ => true

/-- The constructor has returned. -/
def Pc.constructed : Pc → Bool
  | .outside => false
  | .idle => true
  | .calling f | .submitting f | .waiting f _ | .taking f _ _ | .storing f _ _
  | .stored f _ _ => f.constructed

/-- Between the two stores. -/
def Pc.halfway : Pc → Bool
  | .stored .. => true
  | _ => false

/-- The settings to be stored, and the request that answered with them. -/
def Pc.pending : Pc → Option (Nat × DeviceSettings)
  | .storing _ requestId effective | .stored _ requestId effective => some (requestId, effective)
  | _ => none

@[simp] theorem constructed_outer (f : Function) : f.outer.constructed = f.constructed := by
  cases f <;> rfl

@[simp] theorem halfway_outer (f : Function) : f.outer.halfway = false := by
  cases f <;> rfl

@[simp] theorem pending_outer (f : Function) : f.outer.pending = none := by
  cases f <;> rfl

theorem validSettings_period {settings : DeviceSettings} (valid : validSettings settings = true) :
    100 ≤ settings.firmwarePeriodUs ∧ settings.firmwarePeriodUs ≤ 1000000 := by
  simp only [validSettings, Bool.and_eq_true, Bool.not_eq_true', Bool.or_eq_false_iff,
    decide_eq_false_iff_not] at valid
  omega

/-- Cached settings and cached period, each fit for use, and the same but between the stores. -/
structure Cached (s : State) : Prop where
  valid : validSettings s.deviceSettings = true
  period : 100 ≤ s.fwDtUs ∧ s.fwDtUs ≤ 1000000
  same : s.pc.halfway = false → s.fwDtUs = s.deviceSettings.firmwarePeriodUs

structure Holds (es : CacheTrace) (s : State) : Prop where
  cached : s.pc.constructed = true → Cached s
  pending : ∀ requestId effective, s.pc.pending = some (requestId, effective) →
    Reported (endpointTrace es) requestId effective ∧
      (s.pc.halfway = true → s.deviceSettings = effective)

namespace Holds
variable {es fs : CacheTrace} {s next : State} {x : Step} {seen : Seen}

/-- A step that stores nothing keeps what is cached. -/
theorem keep {pc : Pc} {w : World} (held : Holds es s) (part : s.pc.halfway = false)
    (entered : pc.constructed = s.pc.constructed) (free : pc.pending = none) :
    Holds fs { s with world := w, pc } where
  cached inside := by
    obtain ⟨valid, period, same⟩ := held.cached (entered ▸ inside)
    exact ⟨valid, period, fun _ => same part⟩
  pending requestId effective waiting := by simp [free] at waiting

theorem moves (run : Run cacheMachine es s) (held : Holds es s) (moved : Moves s x next seen) :
    Holds (es ++ [⟨s, x, seen, next⟩]) next := by
  have mono {requestId effective} (reported : Reported (endpointTrace es) requestId effective) :
      Reported (endpointTrace (es ++ [⟨s, x, seen, next⟩])) requestId effective :=
    endpointTrace_snoc es _ ▸ reported.mono _
  cases moved with
  | entered pc => exact held.keep (by simp [pc]) (by rw [pc, constructed_outer]; rfl) rfl
  | left _ pc made =>
    rcases pc with pc | pc
    · exact held.keep (by simp [pc, Pc.halfway]) (by rw [pc, constructed_outer]; rfl) (by simp)
    · exact held.keep (by simp [pc, Pc.halfway]) (by rw [pc, constructed_outer]; rfl) (by simp)
  | advanced _ pc made =>
    rcases pc with pc | pc
    · exact held.keep (by simp [pc, Pc.halfway]) (by simp [pc, Pc.constructed]) rfl
    · exact held.keep (by simp [pc, Pc.halfway]) (by simp [pc, Pc.constructed]) rfl
  | submitted pc made ok =>
    exact held.keep (by simp [pc, Pc.halfway]) (by simp [pc, Pc.constructed]) rfl
  | waited pc made =>
    exact held.keep (by simp [pc, Pc.halfway]) (by simp [pc, Pc.constructed]) rfl
  | refused pc made =>
    exact held.keep (by simp [pc, Pc.halfway]) (by rw [pc, constructed_outer]; rfl) (by simp)
  | took pc made ok =>
    rename_i f requestId w taken
    refine ⟨fun inside => ?_, fun id effective waiting => ?_⟩
    · obtain ⟨valid, period, same⟩ :=
        held.cached (by simpa [pc, Pc.constructed] using inside)
      exact ⟨valid, period, fun _ => same (by simp [pc, Pc.halfway])⟩
    · obtain ⟨rfl, rfl⟩ := by simpa [Pc.pending] using waiting
      exact ⟨mono (take_reported (endpoint_run run) made ok), by simp [Pc.halfway]⟩
  | storeSettings pc =>
    rename_i f requestId effective
    obtain ⟨reported, -⟩ := held.pending requestId effective (by simp [pc, Pc.pending])
    refine ⟨fun inside => ?_, fun id settings waiting => ?_⟩
    · obtain ⟨-, period, -⟩ := held.cached (by simpa [pc, Pc.constructed] using inside)
      exact ⟨reported.valid, period, by simp [Pc.halfway]⟩
    · obtain ⟨rfl, rfl⟩ := by simpa [Pc.pending] using waiting
      exact ⟨mono reported, fun _ => rfl⟩
  | storePeriod pc =>
    rename_i f requestId effective
    obtain ⟨reported, written⟩ := held.pending requestId effective (by simp [pc, Pc.pending])
    have written := written (by simp [pc, Pc.halfway])
    refine ⟨fun _ => ⟨?_, ?_, fun _ => ?_⟩, by simp [Pc.pending]⟩
    · exact written ▸ reported.valid
    · exact validSettings_period reported.valid
    · exact congrArg DeviceSettings.firmwarePeriodUs written.symm
  | endpoint outside made =>
    refine ⟨fun inside => ?_, fun requestId effective waiting => ?_⟩
    · obtain ⟨valid, period, same⟩ := held.cached inside
      exact ⟨valid, period, same⟩
    · obtain ⟨reported, written⟩ := held.pending requestId effective waiting
      exact ⟨mono reported, written⟩

theorem of_run (run : Run cacheMachine es s) : Holds es s := by
  refine run.history ⟨?_, ?_⟩ fun before held stepped => held.moves before (step_moves stepped)
  · intro inside
    cases inside
  · intro requestId effective waiting
    cases waiting

end Holds

/-! ### One call -/

/-- These steps have submitted the request. -/
def Submitted (during : CacheTrace) (requestId : Nat) : Prop :=
  ∃ x ∈ during, ∃ clock internal sub result, x.event.inner =
      some (.submit controlThread clock, .submitted internal sub result) ∧
    result.status = .ok ∧ result.requestId = requestId

/-- Where a call stands that found these values cached. -/
structure Calling (f : Function) (found : State) (during : CacheTrace) (s : State) : Prop where
  function : s.pc.function = some f
  settings : s.pc.halfway = false → s.deviceSettings = found.deviceSettings
  period : s.fwDtUs = found.fwDtUs
  request : ∀ requestId, s.pc.request = some requestId → Submitted during requestId

namespace Calling
variable {f : Function} {found s next : State} {during : CacheTrace} {x : Step} {seen : Seen}

theorem entered {past : CacheTrace} {start : Entry State Step Seen}
    (run : Run cacheMachine (past ++ [start]) s) (action : start.action = .enter f) :
    Calling f start.before [] s := by
  obtain ⟨-, stepped, rfl⟩ := run.of_snoc
  have moved := step_moves stepped
  rw [action] at moved
  generalize start.after = next, start.event = seen at moved
  cases moved with
  | entered pc => exact ⟨rfl, fun _ => rfl, rfl, fun requestId submitted => by cases submitted⟩
  | left inside | advanced inside => cases inside

/-- A step within the call. -/
theorem moves (held : Calling f found during s) (moved : Moves s x next seen)
    (running : seen.returned = none) : Calling f found (during ++ [⟨s, x, seen, next⟩]) next := by
  have mono {requestId} (submitted : Submitted during requestId) :
      Submitted (during ++ [⟨s, x, seen, next⟩]) requestId := by
    obtain ⟨y, present, rest⟩ := submitted
    exact ⟨y, List.mem_append_left _ present, rest⟩
  have function := held.function
  cases moved with
  | entered pc =>
    rename_i g
    rw [pc] at function
    cases g <;> cases function
  | left | refused | storePeriod => cases running
  | advanced _ pc made =>
    rename_i g a w e
    refine ⟨?_, fun _ => ?_, held.period, fun requestId submitted => by cases submitted⟩
    · rcases pc with pc | pc <;> simpa [pc, Pc.function] using function
    · exact held.settings (by rcases pc with pc | pc <;> simp [pc, Pc.halfway])
  | submitted pc made ok =>
    refine ⟨by simpa [pc, Pc.function] using function,
      fun _ => held.settings (by simp [pc, Pc.halfway]), held.period, ?_⟩
    intro requestId submitted
    obtain rfl := Option.some.inj submitted
    exact ⟨_, List.mem_append_right _ (List.mem_singleton_self _), _, _, _, _, rfl, ok, rfl⟩
  | waited pc made =>
    refine ⟨by simpa [pc, Pc.function] using function,
      fun _ => held.settings (by simp [pc, Pc.halfway]), held.period, ?_⟩
    intro requestId submitted
    exact mono (held.request requestId (by simpa [pc, Pc.request] using submitted))
  | took pc made ok =>
    refine ⟨by simpa [pc, Pc.function] using function,
      fun _ => held.settings (by simp [pc, Pc.halfway]), held.period, ?_⟩
    intro requestId submitted
    exact mono (held.request requestId (by simpa [pc, Pc.request] using submitted))
  | storeSettings pc =>
    refine ⟨by simpa [pc, Pc.function] using function, by simp [Pc.halfway], held.period, ?_⟩
    intro requestId submitted
    exact mono (held.request requestId (by simpa [pc, Pc.request] using submitted))
  | endpoint outside made =>
    exact ⟨function, held.settings, held.period,
      fun requestId submitted => mono (held.request requestId submitted)⟩

/-- A call that gives up leaves the cache as it found it. -/
theorem refused (held : Calling f found during s) (moved : Moves s x next seen)
    (returned : seen.returned = some false) :
    next.deviceSettings = found.deviceSettings ∧ next.fwDtUs = found.fwDtUs := by
  cases moved with
  | left _ pc made =>
    refine ⟨held.settings ?_, held.period⟩
    rcases pc with pc | pc <;> simp [pc, Pc.halfway]
  | refused pc made => exact ⟨held.settings (by simp [pc, Pc.halfway]), held.period⟩
  | entered | advanced | submitted | waited | took | storeSettings | storePeriod | endpoint =>
    cases returned

/-- A call that succeeds has stored both. -/
theorem finished (held : Calling f found during s) (moved : Moves s x next seen)
    (returned : seen.returned = some true) : ∃ requestId effective,
      s.pc = .stored f requestId effective ∧ Submitted during requestId ∧
      next.deviceSettings = s.deviceSettings ∧ next.fwDtUs = effective.firmwarePeriodUs := by
  cases moved with
  | storePeriod pc =>
    rename_i g requestId effective
    have function := held.function
    rw [pc] at function
    obtain rfl : g = f := Option.some.inj function
    exact ⟨requestId, effective, pc, held.request requestId (by simp [pc, Pc.request]), rfl, rfl⟩
  | entered | left | advanced | submitted | waited | refused | took | storeSettings | endpoint =>
    cases returned

end Calling

/-- What a call has done to the cache when it returns: nothing, or it has stored the settings
that the device reported for its request. -/
structure Returned (past during : CacheTrace) (start last : Entry State Step Seen) : Prop where
  refused : last.event.returned = some false →
    last.after.deviceSettings = start.before.deviceSettings ∧
      last.after.fwDtUs = start.before.fwDtUs
  finished : last.event.returned = some true → ∃ requestId, Submitted during requestId ∧
    Reported (endpointTrace (past ++ start :: during)) requestId last.after.deviceSettings ∧
    last.after.fwDtUs = last.after.deviceSettings.firmwarePeriodUs

theorem call_returned {past during : CacheTrace} {start last : Entry State Step Seen} {s : State}
    {f : Function} (run : Run cacheMachine (past ++ start :: during ++ [last]) s)
    (action : start.action = .enter f) (running : ∀ x ∈ during, x.event.returned = none) :
    Returned past during start last := by
  obtain ⟨before, stepped, -⟩ := run.of_snoc
  have moved := step_moves stepped
  have apart : Run cacheMachine ((past ++ [start]) ++ during) last.before := by simpa using before
  have held : Calling f start.before during last.before := by
    refine apart.since (P := fun during s => (∀ x ∈ during, x.event.returned = none) →
      Calling f start.before during s) ?_ ?_ running
    · exact fun entered _ => Calling.entered entered action
    · intro during s x seen next run held stepped running
      exact (held fun y present => running y (List.mem_append_left _ present)).moves
        (step_moves stepped) (running _ (List.mem_append_right _ (List.mem_singleton_self _)))
  refine ⟨held.refused moved, fun returned => ?_⟩
  obtain ⟨requestId, effective, pc, submitted, kept, period⟩ := held.finished moved returned
  obtain ⟨reported, written⟩ :=
    (Holds.of_run before).pending requestId effective (by simp [pc, Pc.pending])
  have written := written (by simp [pc, Pc.halfway])
  refine ⟨requestId, submitted, ?_, ?_⟩
  · rw [kept, written]
    exact reported
  · rw [period, kept, written]

/-- In every run: a call that returns false has changed nothing, one that returns true has
stored what the device reported; once the arm is constructed the cached period is that of the
cached settings, but between the two stores, and always one that commands may carry. -/
theorem settings_cached {es : CacheTrace} {s : State} (run : Run cacheMachine es s) :
    (s.pc.constructed = true → Cached s ∧ ∀ spec : SendSpec, spec.dtUs = some s.fwDtUs →
      spec.validArguments = spec.checked.all allFinite) ∧
    ∀ past start during last f, es = past ++ start :: during ++ [last] →
      start.action = .enter f → (∀ x ∈ during, x.event.returned = none) →
        Returned past during start last := by
  refine ⟨fun constructed => ?_, ?_⟩
  · have cached := (Holds.of_run run).cached constructed
    refine ⟨cached, fun spec period => ?_⟩
    have positive : s.fwDtUs ≠ 0 := by have := cached.period; omega
    simp [SendSpec.validArguments, period, positive]
  · rintro past start during last f rfl action running
    exact call_returned run action running

/-- The constructor's fetch up to its last store, the device reporting a period of 2250 us. -/
def fetchSteps : List Step :=
  [.enter .fetch, .call, .gate, .submit 0, .endpoint (.pass 0)] ++
    (ownerTurns 14 0 .ok).map .endpoint ++
    [.endpoint (.complete firstSlot 0 { status := .success } (some (.deviceSettings {
        hasSettings := true
        settings := settingsToWire { narrowSettings with firmwarePeriodUs := 2250 } }))),
      .endpoint (.owner 0 .ok), .wait false, .take, .storeSettings]

def fetched : CacheTrace × State :=
  (exec cacheMachine fetchSteps [] cacheMachine.init).get (by decide +kernel)

def Step.fetches : Step → Bool
  | .enter .fetch => true
  | _ => false

theorem settings_cached_fetched : ∃ past start during last s,
    Run cacheMachine (past ++ start :: during ++ [last]) s ∧ Cached s ∧ s.fwDtUs = 2250 ∧
      Returned past during start last ∧ last.event.returned = some true := by
  have past : Run cacheMachine fetched.1 fetched.2 := exec_get _
  have begun : fetched.1.head?.any (fun x => x.action.fetches) = true := by decide +kernel
  have running : fetched.1.tail.all (fun x => x.event.returned.isNone) = true := by
    decide +kernel
  have stored : (cacheMachine.step fetched.2 .storePeriod).map (fun made =>
      (made.1.fwDtUs, made.1.pc.constructed, made.2.returned)) =
      some (2250, true, some true) := by
    decide +kernel
  obtain ⟨⟨next, seen⟩, stepped, after⟩ := Option.map_eq_some_iff.mp stored
  obtain ⟨period, constructed, returned⟩ := by simpa using after
  generalize fetched = reached at past begun running stepped
  obtain ⟨trace, s⟩ := reached
  cases trace with
  | nil => cases begun
  | cons start during =>
    have run := past.snoc stepped
    obtain ⟨cached, calls⟩ := settings_cached run
    have action : start.action = .enter .fetch := by
      cases acted : start.action with
      | enter f => cases f <;> simp_all [Step.fetches]
      | _ => simp_all [Step.fetches]
    refine ⟨[], start, during, _, next, run, (cached constructed).1, period, ?_, returned⟩
    refine calls [] start during _ .fetch rfl action fun x present => ?_
    exact Option.isNone_iff_eq_none.mp (List.all_eq_true.mp running x present)

end Florid.Arm.SettingsCache
