import Florid.Binary32

/-! Data of the Wirelink endpoint: statuses, lease record, operation slots, RPC
completions and responses. Field and constructor names follow the source without
their `m_` and `k` marks. Telemetry (arm status, diagnostics) is not part of the
operation queue and is left out. -/
namespace Florid.Wirelink

/-- Milliseconds of the endpoint's wrapping 32-bit clock. -/
abbrev TimeMs := BitVec 32

inductive FciEndpointStatus where
  | ok | notReady | queueFull | busy | invalidArgument | unsupported | noLease | noData
  | codecError | linkError | timeout | cancelled | domainError | internalError
  deriving DecidableEq, Repr

inductive FciOperationState where
  | unknown | queued | linkPending | waitingResponse | completed | timedOut | cancelled
  | linkFailed | domainError
  deriving DecidableEq, Repr

inductive FciControlLeaseState where
  | released | acquireQueued | acquiring | held | renewQueued | renewing | releaseQueued
  | releasing | expired | failed
  deriving DecidableEq, Repr

inductive FciArmMode where
  | pc | drag | damp | retracting | teleop
  deriving DecidableEq, Repr

inductive FciMotorControlMode where
  | mit | positionVelocity | velocity | pvt
  deriving DecidableEq, Repr

inductive RpcKind where
  | none | acquireLease | releaseLease | getDeviceInfo | setDeviceInfo | getDeviceSettings
  | setDeviceSettings | setArmControlMode | setGripperControlMode | setArmMode | home | setZero
  | clearError | clearFaults | emergencyStop | motorRegisterRead | motorRegisterWrite
  | motorStoreParameters | motorSetZero
  deriving DecidableEq, Repr

structure FciSubmitResult where
  status : FciEndpointStatus := .internalError
  requestId : Nat := 0
  deriving DecidableEq, Repr

structure FciOperationResult where
  requestId : Nat := 0
  state : FciOperationState := .unknown
  status : FciEndpointStatus := .noData
  domainStatus : Int := 0
  linkStatus : Int := 0
  deriving DecidableEq, Repr

structure FciControlLeaseSnapshot where
  state : FciControlLeaseState := .released
  status : FciEndpointStatus := .noLease
  domainStatus : Int := 0
  token : Nat := 0
  grantedTimeoutMs : Nat := 0
  deriving DecidableEq, Repr

structure Version where
  major : Nat := 0
  minor : Nat := 0
  patch : Nat := 0
  deriving DecidableEq, Repr

inductive FirmwareType where
  | standardArm | mobileArm | cobotArm | unknown
  deriving DecidableEq, Repr

structure DeviceInfo where
  protocolVersion : Version := {}
  firmwareVersion : Version := {}
  boardName : List UInt8 := []
  customName : List UInt8 := []
  firmwareType : FirmwareType := .unknown
  serialNumber : List UInt8 := []
  commandCapabilities : Nat := 0
  deriving DecidableEq

structure TorqueFoldParameters where
  continuousTorque : Binary32 := 0
  peakTorque : Binary32 := 0
  thermalCapacity : Binary32 := 0
  torqueRampRate : Binary32 := 0
  deriving DecidableEq

structure JointLimits where
  min : Binary32 := 0
  max : Binary32 := 0
  deriving DecidableEq

structure DeviceSettings where
  firmwarePeriodUs : Nat := 2000
  gravityScale : Vector Binary32 6 := .replicate 6 0
  torqueFold : Vector TorqueFoldParameters 7 := .replicate 7 {}
  jointLimits : Vector JointLimits 6 := .replicate 6 {}
  deriving DecidableEq

structure OperationRequest where
  deviceSettings : DeviceSettings := {}
  customName : List UInt8 := []
  leaseToken : Nat := 0
  requestedLeaseTimeoutMs : Nat := 0
  jointId : Nat := 0
  registerId : Nat := 0
  armMode : FciArmMode := .pc
  controlMode : FciMotorControlMode := .mit
  value : Binary32 := 0

/-- The device information kept in a slot; `valid` is set only when every string
fitted its 32-byte buffer. -/
structure FixedDeviceInfo where
  info : DeviceInfo := {}
  valid : Bool := false

structure OperationSlot where
  admitted : Bool := false
  requestId : Nat := 0
  timeoutMs : Nat := 0
  submittedAtMs : TimeMs := 0
  request : OperationRequest := {}
  kind : RpcKind := .none
  state : FciOperationState := .unknown
  status : FciEndpointStatus := .noData
  domainStatus : Int := 0
  linkStatus : Int := 0
  deviceInfo : FixedDeviceInfo := {}
  deviceSettings : DeviceSettings := {}
  motorRegisterValue : Binary32 := 0
  deviceSettingsValid : Bool := false
  motorRegisterValid : Bool := false
  internal : Bool := false
  used : Bool := false

/-- `OperationSlot{}`: what a free slot holds. -/
def OperationSlot.empty : OperationSlot := {}

namespace OperationSlot
@[simp] theorem empty_used : empty.used = false := rfl
@[simp] theorem empty_state : empty.state = .unknown := rfl
@[simp] theorem empty_internal : empty.internal = false := rfl
@[simp] theorem empty_admitted : empty.admitted = false := rfl
end OperationSlot

def operationCapacity : Nat := 8
def publicOperationCapacity : Nat := 7
def maximumDeviceNameBytes : Nat := 31
def maximumRelativeTimeout : Nat := 0x7fffffff

abbrev SlotIndex := Fin 8

/-- The first two public slots, and the one reserved for renewals. -/
abbrev firstSlot : SlotIndex := 0
abbrev secondSlot : SlotIndex := 1
abbrev reservedSlot : SlotIndex := 7

/-- Result codes of the generated runtime that the endpoint tells apart. -/
inductive WlErr where
  | ok | busy | wouldBlock | other (code : Int)
  deriving DecidableEq, Repr

inductive RpcStatus where
  | success | rejected | timedOut | cancelled | failed
  deriving DecidableEq, Repr

structure RpcCompletion where
  status : RpcStatus := .failed
  rejection : Int := 0
  transportError : Int := 0
  deriving DecidableEq, Repr

structure AcquireControlLeaseResponse where
  hasLeaseToken : Bool := false
  leaseToken : Nat := 0
  hasGrantedTimeoutMs : Bool := false
  grantedTimeoutMs : Nat := 0

structure DeviceInfoWire where
  protocolVersion : Version := {}
  firmwareVersion : Version := {}
  boardName : List UInt8 := []
  customName : List UInt8 := []
  firmwareType : Int := 0
  serial : List UInt8 := []
  hasCommandCapabilities : Bool := false
  commandCapabilities : Nat := 0

structure GetDeviceInfoResponse where
  hasInfo : Bool := false
  info : DeviceInfoWire := {}

/-- The settings message: parallel arrays, each with its presence flag. -/
structure DeviceSettingsWire where
  hasFirmwareDtUs : Bool := false
  firmwareDtUs : Nat := 0
  hasGravityScale : Bool := false
  gravityScale : Vector Binary32 6 := .replicate 6 0
  hasTorqueContinuous : Bool := false
  torqueContinuous : Vector Binary32 7 := .replicate 7 0
  hasTorquePeak : Bool := false
  torquePeak : Vector Binary32 7 := .replicate 7 0
  hasThermalCapacity : Bool := false
  thermalCapacity : Vector Binary32 7 := .replicate 7 0
  hasTorqueRampRate : Bool := false
  torqueRampRate : Vector Binary32 7 := .replicate 7 0
  hasJointLimitMin : Bool := false
  jointLimitMin : Vector Binary32 6 := .replicate 6 0
  hasJointLimitMax : Bool := false
  jointLimitMax : Vector Binary32 6 := .replicate 6 0

structure DeviceSettingsResponse where
  hasSettings : Bool := false
  settings : DeviceSettingsWire := {}

structure MotorRegisterReadResponse where
  hasJointId : Bool := false
  jointId : Nat := 0
  hasRegisterId : Bool := false
  registerId : Nat := 0
  hasValue : Bool := false
  value : Binary32 := 0

/-- The typed responses whose fields `s_finalize` inspects; every other RPC has an
acknowledgement only. -/
inductive Response where
  | acquireControlLease (r : AcquireControlLeaseResponse)
  | getDeviceInfo (r : GetDeviceInfoResponse)
  | deviceSettings (r : DeviceSettingsResponse)
  | motorRegisterRead (r : MotorRegisterReadResponse)
  | acknowledged

/-- The generated completion of an RPC carries that RPC's response type. -/
def Response.fits : Response → RpcKind → Bool
  | .acquireControlLease _, kind => kind == .acquireLease
  | .getDeviceInfo _, kind => kind == .getDeviceInfo
  | .deviceSettings _, kind => kind == .getDeviceSettings || kind == .setDeviceSettings
  | .motorRegisterRead _, kind => kind == .motorRegisterRead
  | .acknowledged, kind => !(kind == .acquireLease || kind == .getDeviceInfo ||
      kind == .getDeviceSettings || kind == .setDeviceSettings || kind == .motorRegisterRead)

end Florid.Wirelink
