import Florid.Discovery.Usb
import Florid.Upgrade.Session

/-! `DeviceDiscovery`: probing the devices that USB lists, and the selection of one of them. What
a listing returns and how the sessions of a probe end are inputs. -/
namespace Florid.Discovery
open Wirelink Upgrade

/-- `UsbError`, as far as it is asked for -/
inductive UsbError where
  | permissionDenied | interfaceBusy | deviceDisconnected | deviceNotFound | other (code : Int)
  deriving DecidableEq, Repr

/-- A `std::error_code` that is an error, with its message. -/
structure SystemError where
  code : UsbError
  message : String
  deriving DecidableEq, Repr

inductive DeviceAccessStatus where
  | notProbed | ready | permissionDenied | busy | disconnected | unavailable
  deriving DecidableEq, Repr

inductive DeviceCompatibility where
  | unknown | compatible | protocolMismatch | identityMismatch | probeFailed
  deriving DecidableEq, Repr

inductive DeviceDiscoveryError where
  | none | enumerationFailed | invalidSelector | deviceNotFound | ambiguous | timeout
  deriving DecidableEq, Repr

structure DeviceDescriptor where
  usb : UsbBulkDeviceInfo
  deviceInfo : Option DeviceInfo := none
  access : DeviceAccessStatus := .notProbed
  compatibility : DeviceCompatibility := .unknown
  systemError : Option SystemError := none
  errorMessage : String := ""
  displayName : List UInt8 := []
  deriving DecidableEq

def DeviceDescriptor.serialNumber (d : DeviceDescriptor) : List UInt8 :=
  match d.deviceInfo with
  | some info => if info.serialNumber ≠ [] then info.serialNumber else d.usb.serialNumber
  | none => d.usb.serialNumber

structure DeviceSelector where
  serialNumber : Option (List UInt8) := none
  customName : Option (List UInt8) := none
  firmwareType : Option FirmwareType := none
  deriving DecidableEq

structure DeviceDiscoveryResult where
  devices : List DeviceDescriptor := []
  error : DeviceDiscoveryError := .none
  systemError : Option SystemError := none

structure DeviceSelectionResult where
  device : Option DeviceDescriptor := none
  candidates : List DeviceDescriptor := []
  error : DeviceDiscoveryError := .none
  deriving DecidableEq

/-- `explicit operator bool` -/
def DeviceSelectionResult.ok (r : DeviceSelectionResult) : Bool :=
  r.device.isSome && r.error == .none

section Probe

def accessFromError : Option SystemError → DeviceAccessStatus
  | some ⟨.permissionDenied, _⟩ => .permissionDenied
  | some ⟨.interfaceBusy, _⟩ => .busy
  | some ⟨.deviceDisconnected, _⟩ | some ⟨.deviceNotFound, _⟩ => .disconnected
  | _ => .unavailable

def displayName (d : DeviceDescriptor) : List UInt8 :=
  match d.deviceInfo with
  | some info =>
    if info.customName = [] then d.usb.displayName
    else if d.usb.displayName ≠ [] ∧ info.customName ≠ d.usb.displayName then
      info.customName ++ bytes [' ', '('] ++ d.usb.displayName ++ bytes [')']
    else info.customName
  | none => d.usb.displayName

def unprobed (usb : UsbBulkDeviceInfo) : DeviceDescriptor :=
  { usb, displayName := usb.displayName }

def failProbe (d : DeviceDescriptor) (access : DeviceAccessStatus) (message : String)
    (error : Option SystemError := none) : DeviceDescriptor :=
  { d with access, compatibility := .probeFailed, systemError := error, errorMessage := message }

/-- How the calls of a session end that a probe makes. -/
structure ProbeSession where
  initialized : FciEndpointStatus
  attached : FciEndpointStatus
  lastError : Option SystemError
  started : FciEndpointStatus
  submitted : FciEndpointStatus
  waited : FciEndpointStatus
  taken : FciEndpointStatus
  info : DeviceInfo

/-- What a probe makes of the info that a device sent. -/
def judgeProbe (d : DeviceDescriptor) (info : DeviceInfo) : DeviceDescriptor :=
  let d := { d with deviceInfo := some info, errorMessage := "" }
  let d :=
    if d.usb.serialNumber ≠ [] ∧ info.serialNumber ≠ [] ∧ d.usb.serialNumber ≠ info.serialNumber then
      { d with
        compatibility := .identityMismatch
        errorMessage := "USB serial and firmware serial do not match" }
    else if !isProtocolVersionCompatible info.protocolVersion then
      { d with
        compatibility := .protocolMismatch
        errorMessage := "unsupported FCI protocol version" }
    else { d with compatibility := .compatible }
  { d with displayName := displayName d }

def probeDevice (usb : UsbBulkDeviceInfo) (timeoutMs : Int) (s : ProbeSession) : DeviceDescriptor :=
  let d := unprobed usb
  if timeoutMs ≤ 0 then failProbe d .unavailable "probe timeout must be positive"
  else if s.initialized ≠ .ok then failProbe d .unavailable "Wirelink probe initialization failed"
  else if s.attached ≠ .ok then
    failProbe d (accessFromError s.lastError)
      ((s.lastError.map (·.message)).getD "USB interface open failed") s.lastError
  else if s.started ≠ .ok then failProbe d .unavailable "Wirelink probe start failed"
  else
    let d := { d with access := .ready }
    if s.submitted ≠ .ok then failProbe d .ready "GetDeviceInfo submission failed"
    else if s.waited ≠ .ok then
      failProbe d .ready
        (if s.waited = .busy then "GetDeviceInfo probe timed out" else "GetDeviceInfo probe failed")
    else if s.taken ≠ .ok then failProbe d .ready "GetDeviceInfo response was invalid"
    else judgeProbe d s.info

/-- `discoverUsbBulkDevices`, of what the USB library lists. -/
def discoverUsbBulkDevices (listing : Except SystemError (List UsbBulkDeviceInfo))
    (vendorId : UInt16 := defaultUsbVendorId) (productId : UInt16 := defaultUsbProductId) :
    Except SystemError (List UsbBulkDeviceInfo) :=
  listing.map fun devices =>
    (devices.filter fun d => d.vendorId == vendorId && d.productId == productId).map
      completeDeviceInfo

structure DeviceDiscoveryOptions where
  probe : Bool := false
  probeTimeout : Int := 1500

/-- A listing, and the session of a probe of each device in it. -/
structure Bus where
  listing : Except SystemError (List UsbBulkDeviceInfo)
  probed : UsbBulkDeviceInfo → ProbeSession

def discoverDevices (options : DeviceDiscoveryOptions) (bus : Bus) : DeviceDiscoveryResult :=
  match discoverUsbBulkDevices bus.listing with
  | .error error => { error := .enumerationFailed, systemError := some error }
  | .ok devices =>
    { devices := devices.map fun usb =>
        if options.probe then probeDevice usb options.probeTimeout (bus.probed usb)
        else unprobed usb }

end Probe

section Select

/-- `s_matches` -/
def DeviceSelector.accepts (s : DeviceSelector) (d : DeviceDescriptor) : Bool :=
  (d.compatibility == .unknown || d.compatibility == .compatible) &&
    s.serialNumber.all (d.serialNumber == ·) &&
    s.customName.all (fun name => d.deviceInfo.any (·.customName == name)) &&
    s.firmwareType.all (fun type => d.deviceInfo.any (·.firmwareType == type))

/-- A selector that asks for an empty text asks for nothing. -/
def DeviceSelector.valid (s : DeviceSelector) : Bool :=
  s.serialNumber != some [] && s.customName != some []

def selectDevice (devices : List DeviceDescriptor) (s : DeviceSelector) : DeviceSelectionResult :=
  if !s.valid then { error := .invalidSelector }
  else
    match devices.filter s.accepts with
    | [] => { error := .deviceNotFound }
    | [d] => { device := some d, candidates := [d] }
    | candidates => { candidates, error := .ambiguous }

theorem selectDevice_device {devices : List DeviceDescriptor} {s : DeviceSelector}
    {d : DeviceDescriptor} : (selectDevice devices s).device = some d ↔
      s.valid = true ∧ devices.filter s.accepts = [d] := by
  rw [selectDevice]
  cases s.valid with
  | false => simp
  | true =>
    simp only [Bool.not_true, Bool.false_eq_true, if_false, true_and]
    split
    · rename_i none
      simp [none]
    · rename_i only
      simp [only]
    · rename_i many
      simp only [reduceCtorEq, false_iff]
      exact many d

theorem selectDevice_ok {devices : List DeviceDescriptor} {s : DeviceSelector} :
    (selectDevice devices s).ok = true ↔ ∃ d, (selectDevice devices s).device = some d := by
  rw [DeviceSelectionResult.ok, Bool.and_eq_true, Option.isSome_iff_exists, beq_iff_eq]
  refine ⟨And.left, fun found => ⟨found, ?_⟩⟩
  obtain ⟨d, found⟩ := found
  obtain ⟨valid, only⟩ := selectDevice_device.mp found
  rw [selectDevice, valid, only]
  rfl

theorem accepted_of_select {devices : List DeviceDescriptor} {s : DeviceSelector}
    {d : DeviceDescriptor} (found : (selectDevice devices s).device = some d) :
    d ∈ devices ∧ s.accepts d = true ∧ ∀ e ∈ devices, s.accepts e = true → e = d := by
  obtain ⟨-, only⟩ := selectDevice_device.mp found
  have here : d ∈ devices.filter s.accepts := by simp [only]
  obtain ⟨listed, accepted⟩ := List.mem_filter.mp here
  refine ⟨listed, accepted, fun e member accepted' => ?_⟩
  have other : e ∈ devices.filter s.accepts := List.mem_filter.mpr ⟨member, accepted'⟩
  simpa [only] using other

def presented (serial : List UInt8) (port : UInt8) : UsbBulkDeviceInfo where
  vendorId := defaultUsbVendorId
  productId := defaultUsbProductId
  busNumber := 1
  deviceAddress := port
  portPath := [port]
  manufacturer := []
  product := []
  serialNumber := serial

end Select

section Wait

def DeviceSelector.needsProbe (s : DeviceSelector) : Bool :=
  s.customName.isSome || s.firmwareType.isSome

/-- One pass of the loop of `waitForDevice`: what is on the bus, and the clock after it was looked
at, in nanoseconds. -/
structure Round where
  bus : Bus
  now : Int

/-- How a pass ends: with a result, or with a sleep of so many milliseconds. -/
inductive Pass where
  | finished (result : DeviceSelectionResult)
  | sleep (ms : Int)
  deriving DecidableEq

def waitPass (s : DeviceSelector) (poll deadline : Int) (r : Round) : Pass :=
  let discovery := discoverDevices { probe := s.needsProbe } r.bus
  if discovery.error ≠ .none then .finished { error := discovery.error }
  else
    let selection := selectDevice discovery.devices s
    if selection.ok ∨ selection.error = .ambiguous then .finished selection
    else if deadline ≤ r.now then .finished { error := .timeout }
    else .sleep (min poll ((deadline - r.now) / 1000000))

/-- The result, or none while the passes so far found none, and the sleeps between the passes. -/
def waitLoop (s : DeviceSelector) (poll deadline : Int) :
    List Round → Option DeviceSelectionResult × List Int
  | [] => (none, [])
  | r :: rest =>
    match waitPass s poll deadline r with
    | .finished result => (some result, [])
    | .sleep ms =>
      let (result, sleeps) := waitLoop s poll deadline rest
      (result, ms :: sleeps)

def waitForDevice (s : DeviceSelector) (timeout poll start : Int) (rounds : List Round) :
    Option DeviceSelectionResult × List Int :=
  if timeout < 0 ∨ poll ≤ 0 then (some { error := .invalidSelector }, [])
  else waitLoop s poll (start + timeout * 1000000) rounds

variable {s : DeviceSelector} {poll deadline : Int}

theorem discoverDevices_error (options : DeviceDiscoveryOptions) (bus : Bus) :
    (discoverDevices options bus).error = .none ∨
      (discoverDevices options bus).error = .enumerationFailed := by
  rw [discoverDevices]
  cases discoverUsbBulkDevices bus.listing with
  | error => exact .inr rfl
  | ok => exact .inl rfl

/-- A pass that found neither one device nor several. -/
structure Fruitless (s : DeviceSelector) (r : Round) : Prop where
  listed : (discoverDevices { probe := s.needsProbe } r.bus).error = .none
  unmatched : s.valid = true →
    ∀ d ∈ (discoverDevices { probe := s.needsProbe } r.bus).devices, s.accepts d = false

/-- What a result says about the pass that it came from. -/
def Justified (s : DeviceSelector) (deadline : Int) (r : Round) (result : DeviceSelectionResult) :
    Prop :=
  let discovery := discoverDevices { probe := s.needsProbe } r.bus
  match result.error with
  | .none => s.valid = true ∧ ∃ d, result.device = some d ∧ discovery.devices.filter s.accepts = [d]
  | .ambiguous => s.valid = true ∧ result.device = none ∧
      result.candidates = discovery.devices.filter s.accepts ∧ 2 ≤ result.candidates.length
  | .timeout => Fruitless s r ∧ deadline ≤ r.now ∧ result.device = none
  | .enumerationFailed => discovery.error = .enumerationFailed ∧ result.device = none
  | .invalidSelector | .deviceNotFound => False

theorem selectDevice_cases (devices : List DeviceDescriptor) (s : DeviceSelector) :
    ((selectDevice devices s).ok = true ∧ s.valid = true ∧
      ∃ d, selectDevice devices s = { device := some d, candidates := [d] } ∧
        devices.filter s.accepts = [d]) ∨
    (s.valid = true ∧ selectDevice devices s =
        { candidates := devices.filter s.accepts, error := .ambiguous } ∧
      2 ≤ (devices.filter s.accepts).length) ∨
    (∃ error, selectDevice devices s = { error } ∧ error ≠ .none ∧ error ≠ .ambiguous ∧
      (s.valid = true → ∀ d ∈ devices, s.accepts d = false)) := by
  rw [selectDevice]
  cases valid : s.valid with
  | false => exact .inr (.inr ⟨.invalidSelector, rfl, by simp, by simp, by simp⟩)
  | true =>
    simp only [Bool.not_true, Bool.false_eq_true, if_false, true_and, true_implies]
    split
    · rename_i none
      refine .inr (.inr ⟨.deviceNotFound, rfl, by simp, by simp, fun d member => ?_⟩)
      simpa using List.filter_eq_nil_iff.mp none d member
    · rename_i d only
      exact .inl ⟨rfl, d, rfl, only⟩
    · rename_i none many
      refine .inr (.inl ⟨rfl, ?_⟩)
      generalize devices.filter s.accepts = found at none many
      rcases found with - | ⟨d, - | ⟨e, rest⟩⟩
      · exact absurd rfl none
      · exact absurd rfl (many d)
      · simp

theorem waitPass_finished {r : Round} {result : DeviceSelectionResult}
    (ended : waitPass s poll deadline r = .finished result) : Justified s deadline r result := by
  rw [waitPass] at ended
  rcases discoverDevices_error { probe := s.needsProbe } r.bus with
    listed | failed
  · simp only [listed, ne_eq, not_true_eq_false, if_false] at ended
    rcases selectDevice_cases (discoverDevices { probe := s.needsProbe } r.bus).devices s with
      ⟨ok, valid, d, selected, only⟩ | ⟨valid, selected, several⟩ | ⟨error, selected, -, single, unmatched⟩
    · simp only [selected, DeviceSelectionResult.ok, Option.isSome_some, beq_self_eq_true,
        Bool.and_self, true_or, if_true, Pass.finished.injEq] at ended
      subst ended
      exact ⟨valid, d, rfl, only⟩
    · simp only [selected, or_true, if_true, Pass.finished.injEq] at ended
      subst ended
      exact ⟨valid, rfl, rfl, several⟩
    · simp only [selected, DeviceSelectionResult.ok, Option.isSome_none, Bool.false_and, single,
        Bool.false_eq_true, or_self, if_false] at ended
      split at ended
      · rename_i late
        obtain rfl := Pass.finished.inj ended
        exact ⟨⟨listed, unmatched⟩, late, rfl⟩
      · contradiction
  · simp only [failed, ne_eq, reduceCtorEq, not_false_eq_true, if_true, Pass.finished.injEq] at ended
    subst ended
    exact ⟨failed, rfl⟩

theorem waitPass_sleep {r : Round} {ms : Int} (ended : waitPass s poll deadline r = .sleep ms) :
    Fruitless s r ∧ r.now < deadline ∧ ms = min poll ((deadline - r.now) / 1000000) := by
  rw [waitPass] at ended
  rcases discoverDevices_error { probe := s.needsProbe } r.bus with
    listed | failed
  · simp only [listed, ne_eq, not_true_eq_false, if_false] at ended
    rcases selectDevice_cases (discoverDevices { probe := s.needsProbe } r.bus).devices s with
      ⟨ok, -⟩ | ⟨-, selected, -⟩ | ⟨error, selected, -, single, unmatched⟩
    · simp [ok] at ended
    · simp [selected] at ended
    · simp only [selected, DeviceSelectionResult.ok, Option.isSome_none, Bool.false_and, single,
        Bool.false_eq_true, or_self, if_false] at ended
      split at ended
      · contradiction
      · rename_i early
        exact ⟨⟨listed, unmatched⟩, not_le.mp early, (Pass.sleep.inj ended).symm⟩
  · simp [failed] at ended

theorem waitLoop_result {rounds : List Round} {result : DeviceSelectionResult}
    (ended : (waitLoop s poll deadline rounds).1 = some result) :
    ∃ earlier last rest, rounds = earlier ++ last :: rest ∧
      (waitLoop s poll deadline rounds).2.length = earlier.length ∧
      (∀ r ∈ earlier, Fruitless s r ∧ r.now < deadline) ∧ Justified s deadline last result := by
  induction rounds with
  | nil => contradiction
  | cons r rest ih =>
    rw [waitLoop] at ended ⊢
    cases pass : waitPass s poll deadline r with
    | finished found =>
      simp only [pass, Option.some.injEq] at ended ⊢
      exact ⟨[], r, rest, rfl, rfl, by simp, ended ▸ waitPass_finished pass⟩
    | sleep ms =>
      simp only [pass] at ended ⊢
      obtain ⟨fruitless, early, -⟩ := waitPass_sleep pass
      obtain ⟨earlier, last, rest, rfl, length, before, justified⟩ := ih ended
      refine ⟨r :: earlier, last, rest, rfl, by simp [length], ?_, justified⟩
      intro r' member
      cases member with
      | head => exact ⟨fruitless, early⟩
      | tail _ member => exact before r' member

theorem waitLoop_waiting {rounds : List Round}
    (waiting : (waitLoop s poll deadline rounds).1 = none) :
    ∀ r ∈ rounds, Fruitless s r ∧ r.now < deadline := by
  induction rounds with
  | nil => simp
  | cons r rest ih =>
    rw [waitLoop] at waiting
    cases pass : waitPass s poll deadline r with
    | finished found => simp [pass] at waiting
    | sleep ms =>
      simp only [pass] at waiting
      obtain ⟨fruitless, early, -⟩ := waitPass_sleep pass
      exact List.forall_mem_cons.mpr ⟨⟨fruitless, early⟩, ih waiting⟩

/-- A sleep lasts as long as it was asked for, and the clock does not run backwards. -/
def Clocked : Int → List Round → List Int → Prop
  | start, r :: rest, ms :: sleeps => start ≤ r.now ∧ Clocked (r.now + ms * 1000000) rest sleeps
  | start, r :: _, [] => start ≤ r.now
  | _, [], _ => True

theorem sleep_fits {now : Int} (positive : 0 < poll) (early : now < deadline) :
    0 ≤ min poll ((deadline - now) / 1000000) ∧
      now + min poll ((deadline - now) / 1000000) * 1000000 ≤ deadline := by
  have := Int.ediv_mul_le (deadline - now) (show (1000000 : Int) ≠ 0 by decide)
  omega

theorem waitLoop_sleeps {start : Int} {rounds : List Round} (positive : 0 < poll)
    (before : start ≤ deadline)
    (clocked : Clocked start rounds (waitLoop s poll deadline rounds).2) :
    start + (waitLoop s poll deadline rounds).2.sum * 1000000 ≤ deadline ∧
      ∀ ms ∈ (waitLoop s poll deadline rounds).2, 0 ≤ ms ∧ ms ≤ poll := by
  induction rounds generalizing start with
  | nil => simp [waitLoop, before]
  | cons r rest ih =>
    rw [waitLoop] at clocked ⊢
    cases pass : waitPass s poll deadline r with
    | finished found => simpa [pass] using before
    | sleep ms =>
      simp only [pass, Clocked] at clocked ⊢
      obtain ⟨-, early, rfl⟩ := waitPass_sleep pass
      obtain ⟨nonneg, inside⟩ := sleep_fits positive early
      obtain ⟨sum, each⟩ := ih inside clocked.2
      rw [List.sum_cons]
      constructor
      · have := clocked.1
        linarith
      · exact List.forall_mem_cons.mpr ⟨⟨nonneg, min_le_left _ _⟩, each⟩

/-- A wait ends with what its last look at the bus showed, and no look before it showed a device
that the selector accepts; a look that comes after the deadline is the last one. While the clock
honours the sleeps, they last no longer than the timeout in all and the poll interval each. -/
theorem waitForDevice_run (s : DeviceSelector) (timeout poll start : Int) (rounds : List Round)
    (nonneg : 0 ≤ timeout) (positive : 0 < poll) :
    (∀ result, (waitForDevice s timeout poll start rounds).1 = some result →
      ∃ earlier last rest, rounds = earlier ++ last :: rest ∧
        (waitForDevice s timeout poll start rounds).2.length = earlier.length ∧
        (∀ r ∈ earlier, Fruitless s r ∧ r.now < start + timeout * 1000000) ∧
        Justified s (start + timeout * 1000000) last result) ∧
    ((waitForDevice s timeout poll start rounds).1 = none →
      ∀ r ∈ rounds, Fruitless s r ∧ r.now < start + timeout * 1000000) ∧
    (Clocked start rounds (waitForDevice s timeout poll start rounds).2 →
      (waitForDevice s timeout poll start rounds).2.sum ≤ timeout ∧
        ∀ ms ∈ (waitForDevice s timeout poll start rounds).2, 0 ≤ ms ∧ ms ≤ poll) := by
  rw [waitForDevice, if_neg (by omega)]
  refine ⟨fun result => waitLoop_result, waitLoop_waiting, fun clocked => ?_⟩
  obtain ⟨sum, each⟩ := waitLoop_sleeps positive (by omega) clocked
  exact ⟨by omega, each⟩

/-- A device that no one opened. -/
def closed : ProbeSession where
  initialized := .ok
  attached := .notReady
  lastError := none
  started := .ok
  submitted := .ok
  waited := .ok
  taken := .ok
  info := {}

def looks : List Round :=
  [⟨⟨.ok [], fun _ => closed⟩, 5000000⟩,
    ⟨⟨.ok [presented [65] 1, presented [66] 2], fun _ => closed⟩, 110000000⟩]

theorem waitForDevice_second :
    (waitForDevice { serialNumber := some [66] } 1000 100 0 looks).1 =
        some (selectDevice [unprobed (completeDeviceInfo (presented [66] 2))] {}) ∧
      (waitForDevice { serialNumber := some [66] } 1000 100 0 looks).2.sum ≤ 1000 :=
  ⟨by decide, ((waitForDevice_run { serialNumber := some [66] } 1000 100 0 looks (by decide)
    (by decide)).2.2 ⟨by decide, (by decide : (105000000 : Int) ≤ 110000000)⟩).1⟩

end Wait

end Florid.Discovery
