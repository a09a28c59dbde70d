import Florid.Wirelink.RequestIds

/-! The blocking calls of `ArmImpl` on top of the endpoint. Each is a sequence of
operations that are submitted, waited for within a local timeout, and taken; whether a
wait ends before its operation does is left to the run. Commands only read the token and
hold no slot. -/
namespace Florid.Arm
open Transition Wirelink

/-- How a call collects its operation: `s_requireOperation` and `s_operationSucceeded`
give up when the wait ends busy; the fetch functions take in any case. -/
inductive Collect where
  | required
  | fetched (take : Endpoint.TakeKind)
  deriving DecidableEq

def Collect.takeKind : Collect → Endpoint.TakeKind
  | .required => .operation
  | .fetched take => take

/-- One operation of a call, with a take function that accepts it. -/
structure Use where
  call : Call
  collect : Collect
  fits : collect.takeKind.accepts call.kind = true

/-- The rest of a call: what follows depends on the operation's success. -/
inductive Program where
  | done
  | operate (use : Use) (next : Bool → Program)

def leaseDurationMs : Nat := 2000
def homeLeaseDurationMs : Nat := 15000
def defaultRpcTimeoutMs : Nat := 500

namespace Program

/-- An operation whose failure ends the call. -/
def require (call : Call) (next : Program) : Program :=
  .operate ⟨call, .required, rfl⟩ fun ok => if ok then next else .done

def fetchDeviceInfo (next : Program) : Program :=
  .operate ⟨.getDeviceInfo 1000, .fetched .deviceInfo, rfl⟩ fun ok => if ok then next else .done

def fetchDeviceSettings (next : Program) : Program :=
  .operate ⟨.getDeviceSettings 1000, .fetched .deviceSettings, rfl⟩
    fun ok => if ok then next else .done

/-- The acquire attempts of `waitUntilReady`; their number depends on the time left. -/
def acquireAttempts : Nat → Program
  | 0 => .done
  | n + 1 => .operate ⟨.acquireControlLease leaseDurationMs defaultRpcTimeoutMs, .required, rfl⟩
      fun ok => if ok then .done else acquireAttempts n

end Program

/-- The calls of `ArmImpl` that run operations. The control starts skip the mode change
when the mode is cached; the constructor is `connect`. -/
inductive Method where
  | connect
  | waitUntilReady (attempts : Nat)
  | home
  | setArmMode (mode : FciArmMode)
  | automaticErrorRecovery
  | prepareControl (mode : FciMotorControlMode) (cached : Bool)
  | prepareGripperControl (mode : FciMotorControlMode) (cached : Bool)
  | setDeviceSettings (settings : DeviceSettings)
  | setCustomName (name : List UInt8)
  | readMotorRegister (jointId registerId : Nat)
  | writeMotorRegister (jointId registerId : Nat) (value : Binary32)
  | storeParameters (jointId : Nat)
  | setZeroPoint (jointId : Nat)

def validJointId (jointId : Nat) : Bool := decide (1 ≤ jointId) && decide (jointId ≤ 7)
def wireJointId (jointId : Nat) : Nat := jointId - 1

open Program in
/-- The operations of each call in order. `enable`, `drag` and `disable` are `setArmMode`
with their mode. -/
def Method.program : Method → Program
  | .connect =>
    fetchDeviceInfo <| require (.acquireControlLease leaseDurationMs 1000) <|
      fetchDeviceSettings .done
  | .waitUntilReady attempts => acquireAttempts attempts
  | .home =>
    require (.acquireControlLease homeLeaseDurationMs 1000) <|
      .operate ⟨.home 10000, .required, rfl⟩ fun _ =>
        require (.acquireControlLease leaseDurationMs 1000) .done
  | .setArmMode mode => require (.setArmMode mode defaultRpcTimeoutMs) .done
  | .automaticErrorRecovery =>
    require (.clearFaults defaultRpcTimeoutMs) <|
      (List.range 6).foldr (fun joint => require (.clearError joint defaultRpcTimeoutMs)) .done
  | .prepareControl mode cached =>
    require (.setArmMode .pc defaultRpcTimeoutMs) <|
      if cached then .done else require (.setArmControlMode mode defaultRpcTimeoutMs) .done
  | .prepareGripperControl mode cached =>
    require (.setArmMode .pc defaultRpcTimeoutMs) <|
      if cached then .done else require (.setGripperControlMode mode defaultRpcTimeoutMs) .done
  | .setDeviceSettings settings =>
    .operate ⟨.setDeviceSettings settings defaultRpcTimeoutMs, .fetched .deviceSettings, rfl⟩
      fun _ => .done
  | .setCustomName name =>
    require (.setDeviceInfo name defaultRpcTimeoutMs) (fetchDeviceInfo .done)
  | .readMotorRegister joint register =>
    if validJointId joint then
      .operate ⟨.readMotorRegister (wireJointId joint) register defaultRpcTimeoutMs,
        .fetched .motorRegister, rfl⟩ fun _ => .done
    else .done
  | .writeMotorRegister joint register value =>
    if validJointId joint && value.isFinite then
      require (.writeMotorRegister (wireJointId joint) register value defaultRpcTimeoutMs) .done
    else .done
  | .storeParameters joint =>
    if validJointId joint then
      require (.storeMotorParameters (wireJointId joint) defaultRpcTimeoutMs) .done
    else .done
  | .setZeroPoint joint =>
    if validJointId joint then require (.setMotorZero (wireJointId joint) defaultRpcTimeoutMs) .done
    else .done

/-! ### Threads -/

inductive ThreadPc where
  | idle
  | calling (use : Use) (next : Bool → Program)
  | submitting (use : Use) (next : Bool → Program)
  | waiting (id : Nat) (use : Use) (next : Bool → Program)
  | taking (id : Nat) (use : Use) (next : Bool → Program) (waited : Bool)

/-- Where a thread stands with this program left. -/
def ThreadPc.entering : Program → ThreadPc
  | .done => .idle
  | .operate use next => .calling use next

/-- The request a thread is responsible for. -/
def ThreadPc.holding : ThreadPc → Option (Nat × Use)
  | .waiting id use _ | .taking id use _ _ => some (id, use)
  | _ => none

structure State where
  world : World := {}
  threads : Nat → ThreadPc := fun _ => .idle

inductive ArmAction where
  | start (t : Nat) (m : Method)
  | call (t : Nat)
  | gate (t : Nat)
  | submit (t : Nat) (clock : TimeMs)
  | wait (t : Nat) (expired : Bool)
  | take (t : Nat)
  | endpoint (a : Action)

/-- What happens at the endpoint besides the blocking calls. -/
def environment : Action → Bool
  | .pass _ | .owner _ _ | .complete _ _ _ _ | .quiesce | .upgrade _ | .token _ | .tokenRead _ => true
  | _ => false

namespace State

def setThread (s : State) (w : World) (t : Nat) (pc : ThreadPc) : State :=
  { world := w, threads := Function.update s.threads t pc }

/-- One action of the arm, with the event of the endpoint step it takes. -/
def step (s : State) : ArmAction → Option (State × Option Event)
  | .start t m =>
    match s.threads t with
    | .idle => some (s.setThread s.world t (.entering m.program), none)
    | _ => none
  | .call t =>
    match s.threads t with
    | .calling use next =>
      match s.world.step (.call t use.call) with
      | some (w, .refused status) =>
        some (s.setThread w t (.entering (next false)), some (.refused status))
      | some (w, event) => some (s.setThread w t (.submitting use next), some event)
      | none => none
    | _ => none
  | .gate t =>
    match s.threads t with
    | .submitting use next =>
      match s.world.step (.gate t) with
      | some (w, .submitted internal sub result) =>
        some (s.setThread w t (.entering (next false)), some (.submitted internal sub result))
      | some (w, event) => some (s.setThread w t (.submitting use next), some event)
      | none => none
    | _ => none
  | .submit t clock =>
    match s.threads t with
    | .submitting use next =>
      match s.world.step (.submit t clock) with
      | some (w, .submitted internal sub result) =>
        some (s.setThread w t (if result.status = .ok then .waiting result.requestId use next
            else .entering (next false)), some (.submitted internal sub result))
      | _ => none
    | _ => none
  | .wait t expired =>
    match s.threads t with
    | .waiting id use next =>
      match s.world.step (.wait id expired) with
      | some (w, .observed taken) =>
        some (s.setThread w t (if use.collect = .required ∧ taken.status = .busy then
            .entering (next false) else .taking id use next (taken.status == .ok)),
          some (.observed taken))
      | _ => none
    | _ => none
  | .take t =>
    match s.threads t with
    | .taking id use next waited =>
      match s.world.step (.take use.collect.takeKind id) with
      | some (w, .took taken) =>
        let ok := taken.status == .ok && (waited || use.collect == .required)
        some (s.setThread w t (.entering (next ok)), some (.took taken))
      | _ => none
    | _ => none
  | .endpoint a =>
    if environment a then
      (s.world.step a).map fun (w, event) => ({ s with world := w }, some event)
    else none

end State

def armMachine : Machine State ArmAction (Option Event) := ⟨{}, State.step⟩

end Florid.Arm
