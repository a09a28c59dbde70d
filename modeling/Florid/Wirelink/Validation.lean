import Florid.Wirelink.Lease

/-! What a completion may leave behind: the verdict of `s_finalize` on every response, and,
over every run, that values, capabilities and lease tokens come from validated ones only. -/
namespace Florid.Wirelink
open Transition

/-! ### The verdict -/

/-- The checks of `s_finalize` on a response, by its type. -/
def Response.valid (request : OperationRequest) : Response → Bool
  | .acquireControlLease r => Endpoint.validGrant r
  | .getDeviceInfo r => (Endpoint.deviceInfoFromWire r).valid
  | .deviceSettings r => r.hasSettings && (settingsFromWire r.settings).isSome
  | .motorRegisterRead r => Endpoint.validRegister request r
  | .acknowledged => true

/-- A completed call without a domain error, with a response that passed its checks. -/
structure Validated (request : OperationRequest) (completion : RpcCompletion) (r : Response) :
    Prop where
  success : completion.status = .success
  accepted : completion.rejection = 0
  valid : r.valid request = true

/-- What a response hands to the caller. -/
def Response.value : Response → Endpoint.TakenValue
  | .getDeviceInfo r => .info (Endpoint.deviceInfoFromWire r).info
  | .deviceSettings r =>
    match settingsFromWire r.settings with
    | some settings => .settings settings
    | none => .none
  | .motorRegisterRead r => .register r.value
  | .acquireControlLease _ | .acknowledged => .none

namespace Endpoint
variable {slot : OperationSlot} {now : TimeMs} {completion : RpcCompletion}

/-- Strings of at most 31 bytes and a serial number are what device information needs. -/
theorem deviceInfoFromWire_valid {r : GetDeviceInfoResponse} :
    (deviceInfoFromWire r).valid = true ↔ r.hasInfo = true ∧ r.info.serial ≠ [] ∧
      r.info.boardName.length ≤ maximumDeviceNameBytes ∧
      r.info.customName.length ≤ maximumDeviceNameBytes ∧
      r.info.serial.length ≤ maximumDeviceNameBytes := by
  have copied (s : List UInt8) : copyString s = if s.length ≤ maximumDeviceNameBytes then some s
      else none := by
    unfold copyString
    by_cases fits : s.length ≤ maximumDeviceNameBytes
    · rw [if_pos fits, if_neg (by omega)]
    · rw [if_neg fits, if_pos (by omega)]
  unfold deviceInfoFromWire
  simp only [copied]
  cases r.hasInfo <;> cases serial : r.info.serial <;> simp
  by_cases board : r.info.boardName.length ≤ maximumDeviceNameBytes <;>
    by_cases custom : r.info.customName.length ≤ maximumDeviceNameBytes <;>
    by_cases last : r.info.serial.length ≤ maximumDeviceNameBytes <;>
    simp_all

/-- Every field present and every value in range are what settings need. -/
theorem settingsFromWire_some {wire : DeviceSettingsWire} {settings : DeviceSettings}
    (read : settingsFromWire wire = some settings) : validSettings settings = true ∧
      wire.hasFirmwareDtUs = true ∧ wire.hasGravityScale = true ∧
      wire.hasTorqueContinuous = true ∧ wire.hasTorquePeak = true ∧
      wire.hasThermalCapacity = true ∧ wire.hasTorqueRampRate = true ∧
      wire.hasJointLimitMin = true ∧ wire.hasJointLimitMax = true := by
  unfold settingsFromWire at read
  split at read
  · cases read
  · rename_i present
    dsimp only at read
    split at read
    · rename_i valid
      obtain rfl := Option.some.inj read
      refine ⟨valid, ?_⟩
      simpa [and_assoc] using present
    · cases read

/-- A success with a missing or invalid response is an internal error. -/
theorem finalization_invalid {response : Option Response} (success : completion.status = .success)
    (invalid : ∀ r, response = some r → r.valid slot.request = false) :
    (finalization slot now completion response).status = .internalError := by
  cases response with
  | none => simp [finalization, success]
  | some r =>
    have refused := invalid r rfl
    cases r with
    | acquireControlLease r | getDeviceInfo r | motorRegisterRead r =>
      simp only [Response.valid] at refused
      simp [finalization, success, refused]
    | deviceSettings r =>
      simp only [Response.valid] at refused
      simp only [finalization, success]
      split
      · rename_i settings read
        split at read
        · simp_all
        · cases read
      · rfl
    | acknowledged => simp [Response.valid] at refused

theorem finalization_valid {r : Response} (success : completion.status = .success)
    (valid : r.valid slot.request = true) :
    (finalization slot now completion (some r)).status =
      if completion.rejection = 0 then .ok else .domainError := by
  cases r with
  | acquireControlLease r | getDeviceInfo r | motorRegisterRead r =>
    simp only [Response.valid] at valid
    simp [finalization, success, valid, completionState, completionStatus]
  | deviceSettings r =>
    simp only [Response.valid, Bool.and_eq_true] at valid
    obtain ⟨settings, read⟩ := Option.isSome_iff_exists.mp valid.2
    simp [finalization, success, valid.1, read, completionState, completionStatus]
  | acknowledged => simp [finalization, success, completionState, completionStatus]

theorem finalization_failed {response : Option Response} (failed : completion.status ≠ .success) :
    (finalization slot now completion response).status =
      completionStatus (completionState completion.status) completion.rejection := by
  cases status : completion.status <;> simp_all [finalization]

/-- Success is recorded for validated responses and no others. -/
theorem finalization_ok {response : Option Response} :
    (finalization slot now completion response).status = .ok ↔
      ∃ r, response = some r ∧ Validated slot.request completion r := by
  constructor
  · intro ok
    by_cases success : completion.status = .success
    · by_cases invalid : ∀ r, response = some r → r.valid slot.request = false
      · rw [finalization_invalid success invalid] at ok
        cases ok
      · simp only [not_forall, Bool.not_eq_false] at invalid
        obtain ⟨r, rfl, valid⟩ := invalid
        rw [finalization_valid success valid] at ok
        split at ok
        · rename_i accepted
          exact ⟨r, rfl, success, accepted, valid⟩
        · cases ok
    · rw [finalization_failed success] at ok
      cases status : completion.status <;>
        simp_all [completionState, completionStatus]
  · rintro ⟨r, rfl, success, accepted, valid⟩
    rw [finalization_valid success valid, if_pos accepted]

/-- A typed take returns the value of the validated response, and always one. -/
theorem value_of_validated {kind : TakeKind} {r : Response} (typed : kind ≠ .operation)
    (accepts : kind.accepts slot.kind = true) (fits : r.fits slot.kind = true)
    (validated : Validated slot.request completion r) :
    kind.value (finalizedSlot slot (finalization slot now completion (some r))) = r.value ∧
      r.value ≠ .none := by
  have ok : (finalization slot now completion (some r)).status = .ok :=
    finalization_ok.mpr ⟨r, rfl, validated⟩
  obtain ⟨success, -, valid⟩ := validated
  cases r with
  | acquireControlLease | acknowledged =>
    cases kind <;> cases same : slot.kind <;> simp_all [TakeKind.accepts, Response.fits]
  | getDeviceInfo r =>
    have kept : (finalization slot now completion (some (.getDeviceInfo r))).deviceInfo =
        deviceInfoFromWire r := by
      simp only [Response.valid] at valid
      simp [finalization, success, valid]
    cases kind <;> cases same : slot.kind <;>
      simp_all [TakeKind.accepts, Response.fits, TakeKind.value, finalizedSlot, Response.valid,
        Response.value]
  | deviceSettings r =>
    simp only [Response.valid, Bool.and_eq_true] at valid
    obtain ⟨settings, read⟩ := Option.isSome_iff_exists.mp valid.2
    have kept :
        (finalization slot now completion (some (.deviceSettings r))).deviceSettings = settings ∧
        (finalization slot now completion (some (.deviceSettings r))).deviceSettingsValid = true :=
      by simp [finalization, success, valid.1, read]
    cases kind <;> cases same : slot.kind <;>
      simp_all [TakeKind.accepts, Response.fits, TakeKind.value, finalizedSlot, Response.value]
  | motorRegisterRead r =>
    have kept :
        (finalization slot now completion (some (.motorRegisterRead r))).motorRegisterValue =
          r.value ∧
        (finalization slot now completion (some (.motorRegisterRead r))).motorRegisterValid = true :=
      by
        simp only [Response.valid] at valid
        simp [finalization, success, valid]
    cases kind <;> cases same : slot.kind <;>
      simp_all [TakeKind.accepts, Response.fits, TakeKind.value, finalizedSlot, Response.value]

end Endpoint
end Florid.Wirelink
