import Florid.Wirelink.Machine

/-! The ten `send*` functions. Each is one routine with its own message: the values it checks,
the fields it copies and the guards it adds are all that tells them apart. -/
namespace Florid.Wirelink

/-! ### Commands as callers give them -/

structure JointMIT where
  q : Vector Binary32 6 := .replicate 6 0
  dq : Vector Binary32 6 := .replicate 6 0
  tau : Vector Binary32 6 := .replicate 6 0
  kp : Vector Binary32 6 := .replicate 6 0
  kd : Vector Binary32 6 := .replicate 6 0
  firmwareGravity : Bool := false

structure JointPosVel where
  q : Vector Binary32 6 := .replicate 6 0
  dq : Vector Binary32 6 := .replicate 6 0

structure JointVel where
  dq : Vector Binary32 6 := .replicate 6 0

structure JointPVT where
  q : Vector Binary32 6 := .replicate 6 0
  dqLimit : Vector Binary32 6 := .replicate 6 0
  currentLimitNorm : Vector Binary32 6 := .replicate 6 0

structure CartesianPose where
  transform : Vector Binary32 16 := .replicate 16 0
  kp : Vector Binary32 6 := .replicate 6 0
  kd : Vector Binary32 6 := .replicate 6 0

structure CartesianVelocities where
  v : Vector Binary32 6 := .replicate 6 0
  kp : Vector Binary32 6 := .replicate 6 0
  kd : Vector Binary32 6 := .replicate 6 0

inductive CommandCapability where
  | cartesianPose | cartesianVelocity
  deriving DecidableEq, Repr

/-- `commandCapability`: the bit of the capability word. -/
def CommandCapability.bit : CommandCapability → Nat
  | .cartesianPose => 1 <<< 4
  | .cartesianVelocity => 1 <<< 5

inductive CommandMessage where
  | jointMit | gripperMit | jointPositionVelocity | jointVelocity | jointPvt | cartesianPose
  | cartesianVelocity | gripperPositionVelocity | gripperVelocity | gripperPvt
  deriving DecidableEq, Repr

/-- The `*_COMMAND_MESSAGE_ID` constants. -/
def CommandMessage.id : CommandMessage → Nat
  | .jointMit => 25345
  | .gripperMit => 25349
  | .jointPositionVelocity => 25350
  | .jointVelocity => 25351
  | .jointPvt => 25352
  | .cartesianPose => 25353
  | .cartesianVelocity => 25354
  | .gripperPositionVelocity => 25361
  | .gripperVelocity => 25362
  | .gripperPvt => 25363

inductive CommandField where
  | position | velocity | torque | kp | kd | velocityLimit | currentLimitNormalized | transform
  | twist
  deriving DecidableEq, Repr

/-- A command message: the float fields it has, and the scalars. -/
structure CommandWire where
  message : CommandMessage
  floats : List (CommandField × List Binary32)
  dtUs : Option Nat
  enabledMask : Option Nat
  sequence : BitVec 32
  gravityCompensation : Option Bool
  sdkTimestampUs : Nat
  leaseToken : Nat

/-- What one `send*` call brings to the common routine. -/
structure SendSpec where
  message : CommandMessage
  capability : Option CommandCapability := none
  dtUs : Option Nat := none
  /-- The arrays and single values the call passes to `isfinite`. -/
  checked : List (List Binary32)
  floats : List (CommandField × List Binary32)
  enabledMask : Option Nat := none
  gravityCompensation : Option Bool := none
  sdkTimestampUs : Nat

def sendJointMit (command : JointMIT) (dtUs sdkTimestampUs : Nat) : SendSpec where
  message := .jointMit
  dtUs
  checked := [command.q.toList, command.dq.toList, command.tau.toList, command.kp.toList,
    command.kd.toList]
  floats := [(.position, command.q.toList), (.velocity, command.dq.toList),
    (.torque, command.tau.toList), (.kp, command.kp.toList), (.kd, command.kd.toList)]
  gravityCompensation := command.firmwareGravity
  sdkTimestampUs

def sendGripperMit (command : JointMIT) (dtUs sdkTimestampUs : Nat) : SendSpec where
  message := .gripperMit
  dtUs
  checked := [[command.q[0]], [command.dq[0]], [command.tau[0]], [command.kp[0]],
    [command.kd[0]]]
  floats := [(.position, [command.q[0]]), (.velocity, [command.dq[0]]),
    (.torque, [command.tau[0]]), (.kp, [command.kp[0]]), (.kd, [command.kd[0]])]
  gravityCompensation := command.firmwareGravity
  sdkTimestampUs

def sendJointPositionVelocity (command : JointPosVel) (sdkTimestampUs : Nat) : SendSpec where
  message := .jointPositionVelocity
  checked := [command.q.toList, command.dq.toList]
  floats := [(.position, command.q.toList), (.velocity, command.dq.toList)]
  enabledMask := some 0x3f
  sdkTimestampUs

def sendJointVelocity (command : JointVel) (sdkTimestampUs : Nat) : SendSpec where
  message := .jointVelocity
  checked := [command.dq.toList]
  floats := [(.velocity, command.dq.toList)]
  enabledMask := some 0x3f
  sdkTimestampUs

def sendJointPvt (command : JointPVT) (sdkTimestampUs : Nat) : SendSpec where
  message := .jointPvt
  checked := [command.q.toList, command.dqLimit.toList, command.currentLimitNorm.toList]
  floats := [(.position, command.q.toList), (.velocityLimit, command.dqLimit.toList),
    (.currentLimitNormalized, command.currentLimitNorm.toList)]
  enabledMask := some 0x3f
  sdkTimestampUs

def sendCartesianPose (command : CartesianPose) (dtUs sdkTimestampUs : Nat) : SendSpec where
  message := .cartesianPose
  capability := some .cartesianPose
  dtUs
  checked := [command.transform.toList, command.kp.toList, command.kd.toList]
  floats := [(.transform, command.transform.toList), (.kp, command.kp.toList),
    (.kd, command.kd.toList)]
  gravityCompensation := some false
  sdkTimestampUs

def sendCartesianVelocity (command : CartesianVelocities) (dtUs sdkTimestampUs : Nat) :
    SendSpec where
  message := .cartesianVelocity
  capability := some .cartesianVelocity
  dtUs
  checked := [command.v.toList, command.kp.toList, command.kd.toList]
  floats := [(.twist, command.v.toList), (.kp, command.kp.toList), (.kd, command.kd.toList)]
  gravityCompensation := some false
  sdkTimestampUs

def sendGripperPositionVelocity (command : JointPosVel) (sdkTimestampUs : Nat) : SendSpec where
  message := .gripperPositionVelocity
  checked := [[command.q[0]], [command.dq[0]]]
  floats := [(.position, [command.q[0]]), (.velocity, [command.dq[0]])]
  sdkTimestampUs

def sendGripperVelocity (command : JointVel) (sdkTimestampUs : Nat) : SendSpec where
  message := .gripperVelocity
  checked := [[command.dq[0]]]
  floats := [(.velocity, [command.dq[0]])]
  sdkTimestampUs

def sendGripperPvt (command : JointPVT) (sdkTimestampUs : Nat) : SendSpec where
  message := .gripperPvt
  checked := [[command.q[0]], [command.dqLimit[0]], [command.currentLimitNorm[0]]]
  floats := [(.position, [command.q[0]]), (.velocityLimit, [command.dqLimit[0]]),
    (.currentLimitNormalized, [command.currentLimitNorm[0]])]
  sdkTimestampUs

/-- The public send functions with their arguments. -/
inductive Send where
  | jointMit (command : JointMIT) (dtUs sdkTimestampUs : Nat)
  | gripperMit (command : JointMIT) (dtUs sdkTimestampUs : Nat)
  | jointPositionVelocity (command : JointPosVel) (sdkTimestampUs : Nat)
  | jointVelocity (command : JointVel) (sdkTimestampUs : Nat)
  | jointPvt (command : JointPVT) (sdkTimestampUs : Nat)
  | cartesianPose (command : CartesianPose) (dtUs sdkTimestampUs : Nat)
  | cartesianVelocity (command : CartesianVelocities) (dtUs sdkTimestampUs : Nat)
  | gripperPositionVelocity (command : JointPosVel) (sdkTimestampUs : Nat)
  | gripperVelocity (command : JointVel) (sdkTimestampUs : Nat)
  | gripperPvt (command : JointPVT) (sdkTimestampUs : Nat)

def Send.spec : Send → SendSpec
  | .jointMit c dt sent => sendJointMit c dt sent
  | .gripperMit c dt sent => sendGripperMit c dt sent
  | .jointPositionVelocity c sent => sendJointPositionVelocity c sent
  | .jointVelocity c sent => sendJointVelocity c sent
  | .jointPvt c sent => sendJointPvt c sent
  | .cartesianPose c dt sent => sendCartesianPose c dt sent
  | .cartesianVelocity c dt sent => sendCartesianVelocity c dt sent
  | .gripperPositionVelocity c sent => sendGripperPositionVelocity c sent
  | .gripperVelocity c sent => sendGripperVelocity c sent
  | .gripperPvt c sent => sendGripperPvt c sent

/-! ### Encoding -/

/-- `wlc_putv`: seven bits a byte, low bits first; ten bytes hold a 64-bit value. -/
def putV : Nat → Nat → List UInt8
  | 0, _ => []
  | fuel + 1, v =>
    if v < 128 then [UInt8.ofNat v] else UInt8.ofNat (v % 128 + 128) :: putV fuel (v / 128)

/-- `wlc_put32` -/
def put32 (v : BitVec 32) : List UInt8 :=
  [24, 16, 8, 0].map fun shift => UInt8.ofNat (v.toNat >>> shift)

/-- `wlc_put64` -/
def put64 (v : Nat) : List UInt8 :=
  put32 (BitVec.ofNat 32 (v >>> 32)) ++ put32 (BitVec.ofNat 32 v)

/-- The kinds of fields command messages have. -/
inductive WireValue where
  | packed (xs : List Binary32)
  | float (x : Binary32)
  | varint (v : Nat)
  | fixed32 (v : BitVec 32)
  | fixed64 (v : Nat)

def WireValue.type : WireValue → Nat
  | .varint _ => 0
  | .fixed64 _ => 1
  | .packed _ => 2
  | .float _ | .fixed32 _ => 5

def WireValue.body : WireValue → List UInt8
  | .packed xs => putV 10 (4 * xs.length) ++ xs.flatMap put32
  | .float x => put32 x
  | .varint v => putV 10 v
  | .fixed32 v => put32 v
  | .fixed64 v => put64 v

/-- The fields of a message in the order of its descriptor. Arrays are packed, the single
values of gripper messages are not. -/
def CommandWire.values (wire : CommandWire) : List WireValue :=
  wire.floats.map (fun field =>
    match field.2 with
    | [x] => .float x
    | xs => .packed xs) ++
  wire.enabledMask.toList.map .varint ++
  wire.dtUs.toList.map (fun dt => .fixed32 (BitVec.ofNat 32 dt)) ++
  [.fixed32 wire.sequence] ++
  wire.gravityCompensation.toList.map (fun on => .varint on.toNat) ++
  [.fixed64 wire.sdkTimestampUs] ++ [.fixed64 wire.leaseToken]

/-- `wlc_emit_fields`: each field behind its key, the fields numbered in order. -/
def emitFields : Nat → List WireValue → List UInt8
  | _, [] => []
  | number, v :: rest => UInt8.ofNat (8 * number + v.type) :: v.body ++ emitFields (number + 1) rest

/-- The generated `*_command_encode`; it refuses only for want of room. -/
def CommandWire.encode (capacity : Nat) (wire : CommandWire) : Option (List UInt8) :=
  let payload := emitFields 1 wire.values
  if capacity < payload.length then none else some payload

theorem emitFields_append (number : Nat) (vs ws : List WireValue) :
    emitFields number (vs ++ ws) = emitFields number vs ++ emitFields (number + vs.length) ws := by
  induction vs generalizing number with
  | nil => rfl
  | cons v vs ih =>
    simp only [List.cons_append, emitFields, ih, List.length_cons, List.append_assoc]
    rw [Nat.add_comm vs.length, ← Nat.add_assoc]

theorem emitFields_single (number : Nat) (v : WireValue) :
    emitFields number [v] = [UInt8.ofNat (8 * number + v.type)] ++ v.body := by
  simp [emitFields]

/-- Every payload ends with its lease token. -/
theorem CommandWire.encode_token {capacity : Nat} {wire : CommandWire} {payload : List UInt8}
    (encoded : wire.encode capacity = some payload) :
    ∃ front, payload = front ++ put64 wire.leaseToken := by
  unfold encode at encoded
  dsimp only at encoded
  split at encoded
  · cases encoded
  · obtain rfl := Option.some.inj encoded
    unfold values
    rw [emitFields_append, emitFields_single, ← List.append_assoc]
    exact ⟨_, rfl⟩

/-! ### The common routine -/

/-- A capability the word read by the call advertises, where the message needs one. -/
def SendSpec.supported (spec : SendSpec) (capabilities : Nat) : Bool :=
  spec.capability.all fun c => capabilities &&& c.bit != 0

def SendSpec.validArguments (spec : SendSpec) : Bool :=
  !(spec.dtUs == some 0) && spec.checked.all allFinite

/-- The checks ahead of `s_commandToken`, in their order. -/
def SendSpec.check (spec : SendSpec) (capabilities : Nat) : Except FciEndpointStatus Unit :=
  if !spec.supported capabilities then .error .unsupported
  else if !spec.validArguments then .error .invalidArgument
  else .ok ()

/-- The message as it is encoded. -/
def SendSpec.wire (spec : SendSpec) (leaseToken : Nat) (sequence : BitVec 32) : CommandWire where
  message := spec.message
  floats := spec.floats
  dtUs := spec.dtUs
  enabledMask := spec.enabledMask
  sequence
  gravityCompensation := spec.gravityCompensation
  sdkTimestampUs := spec.sdkTimestampUs
  leaseToken

/-- Result codes of the executor. -/
inductive WlResult where
  | ok | queueFull | noSpace | busy | wouldBlock | invalidArg | notSupported | noData | cancelled
  | notInitialized | invalidState | other (code : Int)
  deriving DecidableEq, Repr

/-- `s_endpointStatus` -/
def endpointStatus : WlResult → FciEndpointStatus
  | .ok => .ok
  | .queueFull | .noSpace => .queueFull
  | .busy | .wouldBlock => .busy
  | .invalidArg => .invalidArgument
  | .notSupported => .unsupported
  | .noData => .noData
  | .cancelled => .cancelled
  | .notInitialized | .invalidState => .notReady
  | .other _ => .linkError

theorem endpointStatus_ok {result : WlResult} : endpointStatus result = .ok ↔ result = .ok := by
  cases result <;> simp [endpointStatus]

/-- A message without NaN or infinity, and without a zero period. -/
def CommandWire.Sound (wire : CommandWire) : Prop :=
  (∀ field ∈ wire.floats, ∀ x ∈ field.2, x.isFinite = true) ∧ wire.dtUs ≠ some 0

/-- Every field any of the ten messages carries is among the values its call checks. -/
theorem Send.floats_checked (c : Send) : ∀ field ∈ c.spec.floats, field.2 ∈ c.spec.checked := by
  cases c <;>
    simp [spec, sendJointMit, sendGripperMit, sendJointPositionVelocity, sendJointVelocity,
      sendJointPvt, sendCartesianPose, sendCartesianVelocity, sendGripperPositionVelocity,
      sendGripperVelocity, sendGripperPvt]

/-- What passes the checks makes a sound message. -/
theorem Send.wire_sound {c : Send} (valid : c.spec.validArguments = true) (leaseToken : Nat)
    (sequence : BitVec 32) : (c.spec.wire leaseToken sequence).Sound := by
  simp only [SendSpec.validArguments, Bool.and_eq_true, Bool.not_eq_true', beq_eq_false_iff_ne,
    List.all_eq_true] at valid
  refine ⟨?_, valid.1⟩
  intro field member x inside
  have finite := valid.2 field.2 (c.floats_checked field member)
  exact List.all_eq_true.mp finite x inside

theorem SendSpec.check_ok {spec : SendSpec} {capabilities : Nat}
    (passed : spec.check capabilities = .ok ()) :
    spec.supported capabilities = true ∧ spec.validArguments = true := by
  unfold check at passed
  split at passed
  · cases passed
  · rename_i supported
    split at passed
    · cases passed
    · rename_i valid
      exact ⟨by simpa using supported, by simpa using valid⟩

/-- The capability a message needs on the device. -/
def CommandMessage.capability : CommandMessage → Option CommandCapability
  | .cartesianPose => some .cartesianPose
  | .cartesianVelocity => some .cartesianVelocity
  | _ => none

/-- Each call asks for the capability its message needs. -/
theorem Send.capability_eq (c : Send) : c.spec.capability = c.spec.message.capability := by
  cases c <;> rfl

end Florid.Wirelink
