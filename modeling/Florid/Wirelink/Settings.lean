import Mathlib
import Florid.Wirelink.Validation

/-! Device settings and their wire message. The message keeps each quantity of the joints in an
array of its own, the settings keep the quantities of one joint together; writing and reading
regroup them, one undoing the other. -/
namespace Florid.Wirelink

def settingsToWire (settings : DeviceSettings) : DeviceSettingsWire where
  hasFirmwareDtUs := true
  firmwareDtUs := settings.firmwarePeriodUs
  hasGravityScale := true
  gravityScale := settings.gravityScale
  hasTorqueContinuous := true
  hasTorquePeak := true
  hasThermalCapacity := true
  hasTorqueRampRate := true
  torqueContinuous := .ofFn fun i => (settings.torqueFold.get i).continuousTorque
  torquePeak := .ofFn fun i => (settings.torqueFold.get i).peakTorque
  thermalCapacity := .ofFn fun i => (settings.torqueFold.get i).thermalCapacity
  torqueRampRate := .ofFn fun i => (settings.torqueFold.get i).torqueRampRate
  hasJointLimitMin := true
  hasJointLimitMax := true
  jointLimitMin := .ofFn fun i => (settings.jointLimits.get i).min
  jointLimitMax := .ofFn fun i => (settings.jointLimits.get i).max

def DeviceSettingsWire.complete (wire : DeviceSettingsWire) : Bool :=
  wire.hasFirmwareDtUs && wire.hasGravityScale && wire.hasTorqueContinuous &&
    wire.hasTorquePeak && wire.hasThermalCapacity && wire.hasTorqueRampRate &&
    wire.hasJointLimitMin && wire.hasJointLimitMax

/-- `s_domain`: what a complete message says. -/
def DeviceSettingsWire.domain (wire : DeviceSettingsWire) : DeviceSettings where
  firmwarePeriodUs := wire.firmwareDtUs
  gravityScale := wire.gravityScale
  torqueFold := .ofFn fun i => {
    continuousTorque := wire.torqueContinuous.get i
    peakTorque := wire.torquePeak.get i
    thermalCapacity := wire.thermalCapacity.get i
    torqueRampRate := wire.torqueRampRate.get i }
  jointLimits := .ofFn fun i => { min := wire.jointLimitMin.get i, max := wire.jointLimitMax.get i }

/-- `s_settingsFromWire` with its output argument: the caller's settings before the call, and
what it finds in them afterwards. -/
def settingsFromWireInto (wire : DeviceSettingsWire) (settings : DeviceSettings) :
    Bool × DeviceSettings :=
  if !wire.complete then (false, settings)
  else if !validSettings wire.domain then (false, settings)
  else (true, wire.domain)

/-- The output argument says what the optional result says. -/
theorem settingsFromWire_eq (wire : DeviceSettingsWire) (settings : DeviceSettings) :
    settingsFromWire wire =
      if (settingsFromWireInto wire settings).1 then
        some (settingsFromWireInto wire settings).2
      else none := by
  have missing : (!wire.hasFirmwareDtUs || !wire.hasGravityScale || !wire.hasTorqueContinuous ||
      !wire.hasTorquePeak || !wire.hasThermalCapacity || !wire.hasTorqueRampRate ||
      !wire.hasJointLimitMin || !wire.hasJointLimitMax) = !wire.complete := by
    simp [DeviceSettingsWire.complete]
  have read : settingsFromWire wire =
      if !wire.complete then none
      else if validSettings wire.domain then some wire.domain else none := by
    rw [settingsFromWire, missing]
    rfl
  rw [read, settingsFromWireInto]
  cases wire.complete <;> cases validSettings wire.domain <;> rfl

theorem settingsFromWireInto_accepted {wire : DeviceSettingsWire} {before after : DeviceSettings}
    (accepted : settingsFromWireInto wire before = (true, after)) :
    wire.complete = true ∧ validSettings wire.domain = true ∧ wire.domain = after := by
  unfold settingsFromWireInto at accepted
  cases complete : wire.complete <;> cases valid : validSettings wire.domain <;>
    simp_all

theorem settingsToWire_complete (settings : DeviceSettings) :
    (settingsToWire settings).complete = true := rfl

/-- Reading undoes writing, for any settings: joint by joint, and for each array of its own
length. -/
theorem settingsToWire_domain (settings : DeviceSettings) :
    (settingsToWire settings).domain = settings := by
  obtain ⟨period, gravity, folds, limits⟩ := settings
  have folded : (settingsToWire ⟨period, gravity, folds, limits⟩).domain.torqueFold = folds := by
    ext i inside
    simp [settingsToWire, DeviceSettingsWire.domain, Vector.get_eq_getElem]
  have limited : (settingsToWire ⟨period, gravity, folds, limits⟩).domain.jointLimits = limits := by
    ext i inside
    simp [settingsToWire, DeviceSettingsWire.domain, Vector.get_eq_getElem]
  have shape : (settingsToWire ⟨period, gravity, folds, limits⟩).domain =
      ⟨period, gravity, (settingsToWire ⟨period, gravity, folds, limits⟩).domain.torqueFold,
        (settingsToWire ⟨period, gravity, folds, limits⟩).domain.jointLimits⟩ := rfl
  rw [shape, folded, limited]

/-- Writing undoes reading, for any complete message. -/
theorem domain_toWire {wire : DeviceSettingsWire} (complete : wire.complete = true) :
    settingsToWire wire.domain = wire := by
  simp only [DeviceSettingsWire.complete, Bool.and_eq_true] at complete
  obtain ⟨⟨⟨⟨⟨⟨⟨period, gravity⟩, continuous⟩, peak⟩, capacity⟩, ramp⟩, low⟩, high⟩ := complete
  cases wire
  simp_all [settingsToWire, DeviceSettingsWire.domain, Vector.get_eq_getElem]

/-- Settings and messages stand for each other: valid settings come back from their message as
they were, an accepted message comes back from its settings, and a refused one changes
nothing. -/
theorem settings_round_trip :
    (∀ settings before, validSettings settings = true →
      settingsFromWireInto (settingsToWire settings) before = (true, settings)) ∧
    (∀ wire before settings, settingsFromWireInto wire before = (true, settings) →
      settingsToWire settings = wire) ∧
    (∀ wire before, (settingsFromWireInto wire before).1 = false →
      (settingsFromWireInto wire before).2 = before) := by
  refine ⟨fun settings before valid => ?_, fun wire before settings accepted => ?_,
    fun wire before refused => ?_⟩
  · simp [settingsFromWireInto, settingsToWire_complete, settingsToWire_domain, valid]
  · obtain ⟨complete, -, rfl⟩ := settingsFromWireInto_accepted accepted
    exact domain_toWire complete
  · unfold settingsFromWireInto at refused ⊢
    split
    · rfl
    · split
      · rfl
      · simp_all

/-- Joints that may turn between -1 and 1 rad, with folds of zero torque. -/
def narrowSettings : DeviceSettings :=
  { jointLimits := .replicate 6 { min := 0xBF800000, max := 0x3F800000 } }

theorem settings_round_trip_narrow :
    settingsFromWireInto (settingsToWire narrowSettings) {} = (true, narrowSettings) ∧
    (settingsFromWireInto {} narrowSettings).2 = narrowSettings :=
  ⟨settings_round_trip.1 narrowSettings {} (by decide),
    settings_round_trip.2.2 {} narrowSettings (by decide)⟩

end Florid.Wirelink
