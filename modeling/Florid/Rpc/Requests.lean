import Florid.Rpc.Calls
import Florid.Codec.Commands
import Florid.Wirelink.Settings

/-! The requests of the endpoint's operations: what `s_startNext` submits for each kind, and what
the device reads of it. -/
namespace Florid.Rpc

open Codec Wirelink

/-- `s_armMode`, with the `ARM_MODE_…` constants -/
def armMode : FciArmMode → Nat
  | .pc => 0
  | .drag => 1
  | .damp => 2
  | .retracting => 3
  | .teleop => 4

/-- `s_controlMode`, with the `MOTOR_CONTROL_…` constants -/
def controlMode : FciMotorControlMode → Nat
  | .mit => 1
  | .positionVelocity => 2
  | .velocity => 3
  | .pvt => 4

/-- The service that an operation calls. -/
def service : RpcKind → Option RpcMethod
  | .none => none
  | .acquireLease => some .acquireControlLease
  | .releaseLease => some .releaseControlLease
  | .getDeviceInfo => some .getDeviceInfo
  | .setDeviceInfo => some .setDeviceInfo
  | .getDeviceSettings => some .getDeviceSettings
  | .setDeviceSettings => some .setDeviceSettings
  | .setArmControlMode => some .setArmControlMode
  | .setGripperControlMode => some .setGripperControlMode
  | .setArmMode => some .setArmMode
  | .home => some .home
  | .setZero => some .setZero
  | .clearError => some .clearError
  | .clearFaults => some .clearFaults
  | .emergencyStop => some .emergencyStop
  | .motorRegisterRead => some .motorRegisterRead
  | .motorRegisterWrite => some .motorRegisterWrite
  | .motorStoreParameters => some .motorStoreParameters
  | .motorSetZero => some .motorSetZero

def word (bits : Nat) : Slot Owned := ⟨true, .word bits⟩

def floats {n : Nat} (has : Bool) (xs : Vector Binary32 n) : Slot Owned :=
  ⟨has, .elements (xs.toList.map BitVec.toNat)⟩

/-- A settings message as the codec stores it. -/
def settingsValue (wire : DeviceSettingsWire) : OwnedSlots := [
  ⟨wire.hasFirmwareDtUs, .word wire.firmwareDtUs⟩,
  floats wire.hasGravityScale wire.gravityScale,
  floats wire.hasTorqueContinuous wire.torqueContinuous,
  floats wire.hasTorquePeak wire.torquePeak,
  floats wire.hasThermalCapacity wire.thermalCapacity,
  floats wire.hasTorqueRampRate wire.torqueRampRate,
  floats wire.hasJointLimitMin wire.jointLimitMin,
  floats wire.hasJointLimitMax wire.jointLimitMax]

/-- A message whose field is the message of settings. -/
def carried (settings : DeviceSettings) : OwnedSlots :=
  [⟨true, .message (settingsValue (settingsToWire settings))⟩]

/-- The request that `s_startNext` fills in for a service. -/
def requestValue (m : RpcMethod) (r : OperationRequest) : OwnedSlots :=
  match m with
  | .acquireControlLease => [word r.requestedLeaseTimeoutMs,
      if r.leaseToken ≠ 0 then word r.leaseToken else ⟨false, .word 0⟩]
  | .releaseControlLease => [word r.leaseToken]
  | .setDeviceInfo => [⟨true, .buffer r.customName.length (filled 31 r.customName)⟩]
  | .setDeviceSettings => carried r.deviceSettings
  | .setArmControlMode | .setGripperControlMode => [word (controlMode r.controlMode)]
  | .setArmMode => [word (armMode r.armMode)]
  | .setZero | .clearError | .motorStoreParameters | .motorSetZero => [word r.jointId]
  | .motorRegisterRead => [word r.jointId, word r.registerId]
  | .motorRegisterWrite => [word r.jointId, word r.registerId, word r.value.toNat]
  | .getDeviceInfo | .getDeviceSettings | .getMotorFeedback | .home | .clearFaults
  | .emergencyStop => []

/-- The widths of the members of an `OperationRequest`. -/
structure Sized (r : OperationRequest) : Prop where
  token : r.leaseToken < 2 ^ 64
  lease : r.requestedLeaseTimeoutMs < 2 ^ 32
  joint : r.jointId < 2 ^ 8
  register : r.registerId < 2 ^ 8
  name : r.customName.length ≤ maximumDeviceNameBytes
  period : r.deviceSettings.firmwarePeriodUs < 2 ^ 32

/-- A value that is normal already, and that can be encoded under a condition. -/
structure Encodable (d : WlcDesc) (value : OwnedSlots) (condition : Prop) : Prop where
  fitting : typedOwned d value = true
  normal : normal d value = value
  whole : (∃ view, valueBorrow d value = .ok view ∧ complete false d view = true) ↔ condition

theorem typed_word {bits number wire : Nat} {kind : Kind WlcDesc} {required : Bool} {key : UInt8}
    (small : bits < kind.range) :
    typedOwnedField (single number kind required wire key) (word bits).value = true := by
  have plain : typedOwnedValue (single number kind required wire key).toWlcRow kind (.word bits) =
      decide (bits < kind.range) := by
    cases kind <;> rfl
  simp only [typedOwnedField, single, word] at plain ⊢
  exact plain.trans (decide_eq_true small)

section Settings

theorem typed_floats {n : Nat} (has : Bool) (xs : Vector Binary32 n) (number : Nat) (required : Bool)
    (key : UInt8) :
    typedOwnedField (packed number .float32 required key 4 n) (floats has xs).value = true := by
  simp only [typedOwnedField, packed, floats, Bool.and_eq_true, beq_iff_eq, List.all_eq_true,
    List.mem_map, decide_eq_true_eq, List.length_map, Vector.length_toList, true_and]
  rintro - ⟨x, -, rfl⟩
  exact x.isLt

theorem settingsValue_encodable {settings : DeviceSettings}
    (word : settings.firmwarePeriodUs < 2 ^ 32) :
    Encodable deviceSettingsDesc (settingsValue (settingsToWire settings)) True where
  fitting := by
    simp only [typedOwned, deviceSettingsDesc, settingsValue, typedOwnedFields, typed_floats,
      Bool.and_true]
    exact decide_eq_true word
  normal := rfl
  whole := iff_of_true ⟨_, rfl, rfl⟩ trivial

theorem floats_inj {n : Nat} {has has' : Bool} {xs ys : Vector Binary32 n} :
    floats has xs = floats has' ys ↔ has = has' ∧ xs = ys := by
  have injective : Function.Injective (BitVec.toNat (w := 32)) := fun _ _ => BitVec.eq_of_toNat_eq
  simp only [floats, Slot.mk.injEq, Owned.elements.injEq, (List.map_injective_iff.mpr injective).eq_iff,
    Vector.toList_inj]

/-- What the codec stores says what the message was. -/
theorem settingsValue_inj {wire wire' : DeviceSettingsWire} :
    settingsValue wire = settingsValue wire' ↔ wire = wire' := by
  constructor
  · intro same
    simp only [settingsValue, List.cons.injEq, Slot.mk.injEq, Owned.word.injEq, floats_inj] at same
    obtain ⟨⟨_, _⟩, ⟨_, _⟩, ⟨_, _⟩, ⟨_, _⟩, ⟨_, _⟩, ⟨_, _⟩, ⟨_, _⟩, ⟨_, _⟩, -⟩ := same
    cases wire
    cases wire'
    simp_all
  · rintro rfl
    rfl

theorem carried_encodable {settings : DeviceSettings} (word : settings.firmwarePeriodUs < 2 ^ 32)
    (number : Nat) (required : Bool) (key : UInt8) :
    Encodable ⟨[single number (.message deviceSettingsDesc) required 2 key], .linear⟩
      (carried settings) True where
  fitting := Bool.and_eq_true_iff.mpr ⟨(settingsValue_encodable word).fitting, rfl⟩
  normal := rfl
  whole := iff_of_true ⟨_, rfl, rfl⟩ trivial

/-- A message that is read from settings is theirs, and reading it gives them back where they are
valid. -/
theorem carried_read {settings : DeviceSettings} {wire : DeviceSettingsWire}
    (read : carried settings = [⟨true, .message (settingsValue wire)⟩]) (before : DeviceSettings) :
    settingsFromWireInto wire before =
      if validSettings settings then (true, settings) else (false, before) := by
  simp only [carried, List.cons.injEq, Slot.mk.injEq, Owned.message.injEq, settingsValue_inj,
    true_and, and_true] at read
  subst read
  rw [settingsFromWireInto, settingsToWire_complete, settingsToWire_domain]
  cases validSettings settings <;> rfl

end Settings

/-- Each service's request. -/
theorem request_encodable (m : RpcMethod) {r : OperationRequest} (sized : Sized r) :
    Encodable m.request (requestValue m r) (m = .setDeviceInfo → wlcUtf8 r.customName = true) := by
  have words : controlMode r.controlMode < 2 ^ 32 ∧ armMode r.armMode < 2 ^ 32 := by
    constructor
    · cases r.controlMode <;> decide
    · cases r.armMode <;> decide
  cases m with
  | setDeviceInfo =>
    have short := sized.name
    simp only [maximumDeviceNameBytes] at short
    have same : (filled 31 r.customName).take r.customName.length = r.customName := by
      simp [filled]
    constructor
    · simp only [typedOwned, RpcMethod.request, setDeviceInfoRequestDesc, requestValue,
        typedOwnedFields, typedOwnedField, single, typedOwnedValue, filled, List.length_append,
        List.length_replicate, Bool.and_true, beq_iff_eq]
      omega
    · simp only [requestValue, RpcMethod.request, setDeviceInfoRequestDesc, Codec.normal,
        normalFields, single, normalField, same, if_true]
    · have fits : ¬31 < r.customName.length := by omega
      simp [requestValue, RpcMethod.request, setDeviceInfoRequestDesc, valueBorrow,
        valueBorrowFields, valueBorrowField, single, same, complete, completeFields, completeField,
        completeValue, checkSpan_isOk, bind, Except.bind, fits, short]
  | setDeviceSettings =>
    obtain ⟨fitting, normal, whole⟩ := carried_encodable sized.period 2 true 18
    exact ⟨fitting, normal, whole.trans (by simp)⟩
  | acquireControlLease =>
    have lease : typedOwnedField (single 2 .f32 true 5 21) (word r.requestedLeaseTimeoutMs).value =
        true := typed_word sized.lease
    by_cases none : r.leaseToken = 0
    · simp only [requestValue, none, ne_eq, not_true_eq_false, if_false]
      exact ⟨Bool.and_eq_true_iff.mpr ⟨lease, rfl⟩, rfl, iff_of_true ⟨_, rfl, rfl⟩ (by simp)⟩
    · have token : typedOwnedField (single 3 .f64 false 1 25) (word r.leaseToken).value = true :=
        typed_word sized.token
      simp only [requestValue, ne_eq, none, not_false_eq_true, if_true]
      exact ⟨Bool.and_eq_true_iff.mpr ⟨lease, Bool.and_eq_true_iff.mpr ⟨token, rfl⟩⟩, rfl,
        iff_of_true ⟨_, rfl, rfl⟩ (by simp)⟩
  | releaseControlLease =>
    exact ⟨Bool.and_eq_true_iff.mpr ⟨typed_word sized.token, rfl⟩, rfl,
      iff_of_true ⟨_, rfl, rfl⟩ (by simp)⟩
  | setArmControlMode | setGripperControlMode =>
    exact ⟨Bool.and_eq_true_iff.mpr ⟨typed_word words.1, rfl⟩, rfl,
      iff_of_true ⟨_, rfl, rfl⟩ (by simp)⟩
  | setArmMode =>
    exact ⟨Bool.and_eq_true_iff.mpr ⟨typed_word words.2, rfl⟩, rfl,
      iff_of_true ⟨_, rfl, rfl⟩ (by simp)⟩
  | setZero | clearError | motorStoreParameters | motorSetZero =>
    exact ⟨Bool.and_eq_true_iff.mpr ⟨typed_word sized.joint, rfl⟩, rfl,
      iff_of_true ⟨_, rfl, rfl⟩ (by simp)⟩
  | motorRegisterRead =>
    exact ⟨Bool.and_eq_true_iff.mpr ⟨typed_word sized.joint,
        Bool.and_eq_true_iff.mpr ⟨typed_word sized.register, rfl⟩⟩, rfl,
      iff_of_true ⟨_, rfl, rfl⟩ (by simp)⟩
  | motorRegisterWrite =>
    exact ⟨Bool.and_eq_true_iff.mpr ⟨typed_word sized.joint, Bool.and_eq_true_iff.mpr
        ⟨typed_word sized.register, Bool.and_eq_true_iff.mpr ⟨typed_word r.value.isLt, rfl⟩⟩⟩, rfl,
      iff_of_true ⟨_, rfl, rfl⟩ (by simp)⟩
  | getDeviceInfo | getDeviceSettings | getMotorFeedback | home | clearFaults | emergencyStop =>
    exact ⟨rfl, rfl, iff_of_true ⟨_, rfl, rfl⟩ (by simp)⟩

/-- The request of every operation has room where the endpoint keeps it, unless it is a name that is
no text, and the device reads from it what the operation asks for. -/
theorem request_received {kind : RpcKind} {m : RpcMethod} (sent : service kind = some m)
    {r : OperationRequest} (sized : Sized r) (operationId : UInt32) (session : UInt64) :
    ((∃ payload, encodeSubmission m (requestValue m r) operationId session requestCapacity =
        .ok payload) ↔
      session ≠ 0 ∧ (kind = .setDeviceInfo → wlcUtf8 r.customName = true)) ∧
    ∀ capacity payload,
      encodeSubmission m (requestValue m r) operationId session capacity = .ok payload →
        (rpcHeaderRead payload 1 = .ok ⟨operationId, 0, session⟩ ↔ operationId ≠ 0) ∧
        valueDecode m.request (payload.drop 20) = .ok (requestValue m r) := by
  obtain ⟨fitting, normal, whole⟩ := request_encodable m sized
  have named : m = .setDeviceInfo ↔ kind = .setDeviceInfo := by
    cases kind <;> cases sent <;> simp
  rw [named] at whole
  constructor
  · rw [← whole]
    exact exists_encodeSubmission m ⟨requestValue m r, fitting⟩ operationId session
  · intro capacity payload submitted
    have read := encodeSubmission_read ⟨requestValue m r, fitting⟩ submitted
    rwa [normal] at read

/-- A device that answers `SetDeviceSettings` with the settings that it read gives the host back
the settings that it sent. -/
theorem settings_echoed {r : OperationRequest} (sized : Sized r)
    (valid : validSettings r.deviceSettings = true) {operationId : UInt32} {session : UInt64}
    {capacity capacity' : Nat} {payload answer : List UInt8} {h : RpcHeader}
    {response : Response RpcMethod.setDeviceSettings.response}
    (submitted : encodeSubmission .setDeviceSettings (requestValue .setDeviceSettings r) operationId
      session capacity = .ok payload)
    (echoed : valueDecode RpcMethod.setDeviceSettings.request (payload.drop 20) =
      .ok response.received)
    (succeeded : h.status = 0)
    (finished : finishResponse .setDeviceSettings h response capacity' = .ok answer)
    (before : DeviceSettings) :
    ∃ wire, valueDecode RpcMethod.setDeviceSettings.response (answer.drop 20) =
        .ok [⟨true, .message (settingsValue wire)⟩] ∧
      settingsFromWireInto wire before = (true, r.deviceSettings) := by
  obtain ⟨fitting, normal, -⟩ := request_encodable .setDeviceSettings sized
  have read := (encodeSubmission_read ⟨requestValue .setDeviceSettings r, fitting⟩ submitted).2
  rw [normal] at read
  have same : carried r.deviceSettings = response.received := Except.ok.inj (read.symm.trans echoed)
  obtain ⟨body, rfl, -, decoded, -⟩ := finishResponse_eq_ok finished
  refine ⟨settingsToWire r.deviceSettings, ?_, ?_⟩
  · rw [drop_header, decoded succeeded, ← same, carried]
  · rw [carried_read rfl, if_pos valid]

section Witness

theorem narrow_sized : Sized { deviceSettings := narrowSettings } :=
  ⟨by decide, by decide, by decide, by decide, by decide, by decide⟩

theorem setZero_received : ∃ payload,
    encodeSubmission .setZero [word 3] 7 5 requestCapacity = .ok payload ∧
      rpcHeaderRead payload 1 = .ok ⟨7, 0, 5⟩ ∧
      valueDecode setZeroRequestDesc (payload.drop 20) = .ok [word 3] := by
  have received := @request_received .setZero .setZero rfl { jointId := 3 }
    ⟨by decide, by decide, by decide, by decide, by decide, by decide⟩ 7 5
  obtain ⟨payload, sent⟩ := received.1.mpr ⟨by decide, by simp⟩
  obtain ⟨header, body⟩ := received.2 requestCapacity payload sent
  exact ⟨payload, sent, header.mpr (by decide), body⟩

def narrowResponse : Response RpcMethod.setDeviceSettings.response :=
  .owned ⟨carried narrowSettings, by decide +kernel⟩

theorem narrow_finished :
    (finishResponse .setDeviceSettings ⟨7, 0, 5⟩ narrowResponse 226).isOk = true := by
  decide +kernel

theorem narrow_echoed : ∃ (answer : List UInt8) (wire : DeviceSettingsWire),
    valueDecode setDeviceSettingsResponseDesc (answer.drop 20) =
        .ok [⟨true, .message (settingsValue wire)⟩] ∧
      settingsFromWireInto wire {} = (true, narrowSettings) := by
  obtain ⟨fitting, normal, whole⟩ := request_encodable .setDeviceSettings narrow_sized
  obtain ⟨payload, submitted⟩ := (exists_encodeSubmission .setDeviceSettings ⟨_, fitting⟩ 7 5).mpr
    ⟨by decide, whole.mpr (by simp)⟩
  have read := (encodeSubmission_read ⟨_, fitting⟩ submitted).2
  have echoed : valueDecode RpcMethod.setDeviceSettings.request (payload.drop 20) =
      .ok narrowResponse.received := by
    rw [read, normal]
    rfl
  cases finished : finishResponse .setDeviceSettings ⟨7, 0, 5⟩ narrowResponse 226 with
  | error err => simpa [finished, Except.isOk, Except.toBool] using narrow_finished
  | ok answer =>
    exact ⟨answer, settings_echoed narrow_sized (by decide +kernel) submitted echoed rfl finished {}⟩

end Witness

end Florid.Rpc
