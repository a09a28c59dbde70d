import Florid.Discovery.Devices
import Florid.Discovery.UsbRoundTrip

/-! `FirmwareUpdater::connect`: from a selector, a descriptor or a URI to an updater. The device is
identified again in the session that is kept, whatever a discovery showed before. -/
namespace Florid.Discovery
open Wirelink Upgrade

inductive FirmwareConnectionError where
  | none | invalidSelector | enumerationFailed | deviceNotFound | ambiguous | permissionDenied
  | busy | transportError | timeout | protocolMismatch | identityMismatch | probeFailed
  deriving DecidableEq, Repr

structure FirmwareConnectionResult where
  /-- `m_updater` is not null. -/
  updater : Bool := false
  error : FirmwareConnectionError := .none
  probeError : FirmwareUpdateError := .none
  deviceStatus : Int := 0
  systemError : Option SystemError := .none
  errorMessage : String := ""
  device : Option DeviceDescriptor := .none
  candidates : List DeviceDescriptor := []

/-- `explicit operator bool` -/
def FirmwareConnectionResult.ok (r : FirmwareConnectionResult) : Bool :=
  r.error == .none && r.updater

def discoveryError : DeviceDiscoveryError → FirmwareConnectionError
  | .none => .none
  | .invalidSelector => .invalidSelector
  | .enumerationFailed => .enumerationFailed
  | .deviceNotFound => .deviceNotFound
  | .ambiguous => .ambiguous
  | .timeout => .timeout

def deviceDiscoveryErrorMessage : DeviceDiscoveryError → String
  | .none => "no error"
  | .enumerationFailed => "USB enumeration failed"
  | .invalidSelector => "invalid device selector"
  | .deviceNotFound => "device not found"
  | .ambiguous => "selector matches multiple devices"
  | .timeout => "timed out waiting for device"

def usbDiscoveryErrorMessage : UsbDiscoveryError → String
  | .none => "no error"
  | .invalidUri => "invalid USB URI"
  | .enumerationFailed => "USB enumeration failed"
  | .deviceNotFound => "USB device not found"
  | .ambiguous => "USB selector matches multiple devices"

/-- What the calls of a connection throw. -/
inductive Thrown where
  | system (error : SystemError) (what : String)
  | other (what : String)

/-- How the calls of the session end that a connection opens. -/
structure ConnectSession where
  /-- Whether `initialize`, `attachDirectTransport` and `start` all succeed. -/
  opened : Except Thrown Bool
  lastError : Option SystemError
  info : Except Thrown FirmwareDeviceInfoResult

/-- The info of a result that converts to true. -/
def found (r : FirmwareDeviceInfoResult) : Option DeviceInfo :=
  if r.error = .none then r.info else none

section Descriptor

/-- The descriptor as it is before the session says anything about the device. -/
def unidentified (d : DeviceDescriptor) : DeviceDescriptor :=
  { d with
    deviceInfo := none
    access := .notProbed
    compatibility := .unknown
    systemError := none
    errorMessage := "" }

/-- `s_finish` -/
def finishConnection (c : FirmwareConnectionResult) : FirmwareConnectionResult :=
  { c with
    device := c.device.map fun d =>
      { d with
        systemError := c.systemError
        errorMessage := c.errorMessage
        compatibility :=
          if c.error ≠ .none ∧ d.compatibility = .unknown then .probeFailed else d.compatibility } }

def caught (c : FirmwareConnectionResult) : Thrown → FirmwareConnectionResult
  | .system error what =>
    { c with error := .transportError, systemError := some error, errorMessage := what }
  | .other what => { c with error := .transportError, errorMessage := what }

def openFailed (d : DeviceDescriptor) (lastError : Option SystemError) : FirmwareConnectionResult :=
  let error : FirmwareConnectionError :=
    match lastError with
    | some ⟨.permissionDenied, _⟩ => .permissionDenied
    | some ⟨.interfaceBusy, _⟩ => .busy
    | _ => .transportError
  let access : DeviceAccessStatus :=
    match error with
    | .permissionDenied => .permissionDenied
    | .busy => .busy
    | _ => .unavailable
  { error
    systemError := lastError
    errorMessage := (lastError.map (·.message)).getD "Wirelink endpoint initialization/start failed"
    device := some { d with access } }

/-- Whether the device that answers is not the one that the descriptor names. -/
def otherIdentity (descriptor : DeviceDescriptor) (info : DeviceInfo) : Bool :=
  (descriptor.usb.serialNumber != [] && descriptor.usb.serialNumber != info.serialNumber) ||
    descriptor.deviceInfo.any fun cached =>
      cached.serialNumber != info.serialNumber || cached.boardName != info.boardName ||
        cached.firmwareType != info.firmwareType

def judgeConnection (descriptor : DeviceDescriptor) (info : DeviceInfo) : FirmwareConnectionResult :=
  let probed := { unidentified descriptor with access := .ready, deviceInfo := some info }
  if otherIdentity descriptor info then
    { error := .identityMismatch
      errorMessage := "USB/discovered identity differs from connected firmware"
      device := some { probed with compatibility := .identityMismatch } }
  else if !isProtocolVersionCompatible info.protocolVersion then
    { error := .protocolMismatch
      errorMessage := "unsupported FCI protocol version"
      device := some { probed with compatibility := .protocolMismatch } }
  else
    { updater := true
      device := some
        { probed with
          compatibility := .compatible
          displayName :=
            if info.customName = [] then descriptor.usb.displayName else info.customName } }

def identify (descriptor : DeviceDescriptor) (r : FirmwareDeviceInfoResult) :
    FirmwareConnectionResult :=
  match found r with
  | none =>
    { error := if r.error = .timeout then .timeout else .probeFailed
      probeError := r.error
      deviceStatus := r.deviceStatus
      errorMessage := "same-session GetDeviceInfo probe failed"
      device := some { unidentified descriptor with access := .ready } }
  | some info => judgeConnection descriptor info

/-- What a descriptor needs before a device is opened by it. -/
def addressable (usb : UsbBulkDeviceInfo) : Bool :=
  usb.vendorId != 0 && usb.productId != 0 && (usb.serialNumber != [] || usb.portPath != [])

/-- `connect(const DeviceDescriptor&, std::chrono::milliseconds)` -/
def connectDescriptor (descriptor : DeviceDescriptor) (timeoutMs : Int) (s : ConnectSession) :
    FirmwareConnectionResult :=
  if !validTimeout timeoutMs || !addressable descriptor.usb then
    { error := .invalidSelector
      errorMessage := "descriptor requires VID/PID and an exact serial or port path; query timeout must be valid" }
  else
    let blank := unidentified descriptor
    finishConnection
      (match s.opened with
      | .error thrown => caught { device := some blank } thrown
      | .ok false => openFailed blank s.lastError
      | .ok true =>
        match s.info with
        | .error thrown => caught { device := some { blank with access := .ready } } thrown
        | .ok r => identify descriptor r)

/-- The session identifies the device as one that the descriptor allows. -/
structure Identified (descriptor : DeviceDescriptor) (s : ConnectSession) (info : DeviceInfo) :
    Prop where
  opened : s.opened = .ok true
  answered : ∃ r, s.info = .ok r ∧ r.error = .none ∧ r.info = some info
  usb : descriptor.usb.serialNumber ≠ [] → info.serialNumber = descriptor.usb.serialNumber
  cached : ∀ known, descriptor.deviceInfo = some known → info.serialNumber = known.serialNumber ∧
    info.boardName = known.boardName ∧ info.firmwareType = known.firmwareType
  protocol : isProtocolVersionCompatible info.protocolVersion = true

/-- The device of a connection that holds. -/
def connected (descriptor : DeviceDescriptor) (info : DeviceInfo) : DeviceDescriptor :=
  { usb := descriptor.usb
    deviceInfo := some info
    access := .ready
    compatibility := .compatible
    displayName := if info.customName = [] then descriptor.usb.displayName else info.customName }

theorem otherIdentity_eq_false {descriptor : DeviceDescriptor} {info : DeviceInfo} :
    otherIdentity descriptor info = false ↔
      (descriptor.usb.serialNumber ≠ [] → info.serialNumber = descriptor.usb.serialNumber) ∧
        ∀ known, descriptor.deviceInfo = some known → info.serialNumber = known.serialNumber ∧
          info.boardName = known.boardName ∧ info.firmwareType = known.firmwareType := by
  rw [otherIdentity, Bool.or_eq_false_iff, Option.any_eq_false]
  refine and_congr ?_ (forall₂_congr fun known _ => ?_)
  · rw [Bool.and_eq_false_iff, bne_eq_false_iff_eq, bne_eq_false_iff_eq, or_iff_not_imp_left]
    exact imp_congr_right fun _ => eq_comm
  · simp only [Bool.or_eq_false_iff, bne_eq_false_iff_eq, and_assoc]
    exact and_congr eq_comm (and_congr eq_comm eq_comm)

theorem found_eq_some {r : FirmwareDeviceInfoResult} {info : DeviceInfo} :
    found r = some info ↔ r.error = .none ∧ r.info = some info := by
  rw [found]
  split
  · rename_i none
    simp [none]
  · rename_i failed
    simp [failed]

/-- A connection that failed: it names an error, and its device counts as neither unknown nor
compatible. -/
structure Refused (r : FirmwareConnectionResult) : Prop where
  updater : r.updater = false
  error : r.error ≠ .none
  device : ∀ d, r.device = some d → d.compatibility ≠ .unknown ∧ d.compatibility ≠ .compatible

theorem Refused.not_ok {r : FirmwareConnectionResult} (refused : Refused r) : r.ok = false := by
  simp [FirmwareConnectionResult.ok, refused.updater]

theorem refused_finish {c : FirmwareConnectionResult} (updater : c.updater = false)
    (error : c.error ≠ .none) (device : ∀ d, c.device = some d → d.compatibility ≠ .compatible) :
    Refused (finishConnection c) where
  updater := updater
  error := error
  device := by
    intro d finished
    rw [finishConnection, Option.map_eq_some_iff] at finished
    obtain ⟨d, given, rfl⟩ := finished
    by_cases unknown : d.compatibility = .unknown
    · simp [unknown, error]
    · simp [unknown, device d given]

theorem caught_refused {c : FirmwareConnectionResult} {d : DeviceDescriptor} (thrown : Thrown)
    (updater : c.updater = false) (device : c.device = some d) (unknown : d.compatibility = .unknown) :
    Refused (finishConnection (caught c thrown)) := by
  cases thrown with
  | system error what => exact refused_finish updater (by simp [caught]) (by simp [caught, device, unknown])
  | other what => exact refused_finish updater (by simp [caught]) (by simp [caught, device, unknown])

theorem openFailed_refused {d : DeviceDescriptor} (lastError : Option SystemError)
    (unknown : d.compatibility = .unknown) : Refused (finishConnection (openFailed d lastError)) := by
  refine refused_finish rfl ?_ (by simp [openFailed, unknown])
  rcases lastError with - | ⟨code, message⟩
  · simp [openFailed]
  · cases code <;> simp [openFailed]

theorem judgeConnection_cases (d : DeviceDescriptor) (info : DeviceInfo) :
    (otherIdentity d info = false ∧ isProtocolVersionCompatible info.protocolVersion = true ∧
        finishConnection (judgeConnection d info) =
          { updater := true, device := some (connected d info) }) ∨
      (¬ (otherIdentity d info = false ∧ isProtocolVersionCompatible info.protocolVersion = true) ∧
        Refused (finishConnection (judgeConnection d info))) := by
  rw [judgeConnection]
  cases other : otherIdentity d info with
  | true => exact .inr ⟨by simp, refused_finish rfl (by simp) (by simp)⟩
  | false =>
    cases compatible : isProtocolVersionCompatible info.protocolVersion with
    | false => exact .inr ⟨by simp, refused_finish rfl (by simp) (by simp)⟩
    | true => exact .inl ⟨rfl, rfl, rfl⟩

/-- A connection by a descriptor holds exactly when the session that is kept identifies the device
as one that the descriptor allows. -/
theorem connectDescriptor_cases (d : DeviceDescriptor) (timeoutMs : Int) (s : ConnectSession) :
    (validTimeout timeoutMs = true ∧ addressable d.usb = true ∧ ∃ info, Identified d s info ∧
        connectDescriptor d timeoutMs s = { updater := true, device := some (connected d info) }) ∨
      (¬ (validTimeout timeoutMs = true ∧ addressable d.usb = true ∧ ∃ info, Identified d s info) ∧
        Refused (connectDescriptor d timeoutMs s)) := by
  rw [connectDescriptor]
  by_cases asked : (!validTimeout timeoutMs || !addressable d.usb) = true
  · rw [if_pos asked]
    refine .inr ⟨?_, rfl, by simp, by simp⟩
    rintro ⟨valid, addressable, -⟩
    simp [valid, addressable] at asked
  · rw [if_neg asked]
    simp only [Bool.or_eq_true, Bool.not_eq_true', not_or, Bool.not_eq_false] at asked
    cases opened : s.opened with
    | error thrown =>
      refine .inr ⟨?_, caught_refused thrown rfl rfl rfl⟩
      rintro ⟨-, -, info, held⟩
      simpa [opened] using held.opened
    | ok open' =>
      cases open' with
      | false =>
        refine .inr ⟨?_, openFailed_refused s.lastError rfl⟩
        rintro ⟨-, -, info, held⟩
        simpa [opened] using held.opened
      | true =>
        cases answered : s.info with
        | error thrown =>
          refine .inr ⟨?_, caught_refused thrown rfl rfl rfl⟩
          rintro ⟨-, -, info, held⟩
          obtain ⟨r, given, -⟩ := held.answered
          simp [answered] at given
        | ok r =>
          dsimp only
          rw [identify]
          cases result : found r with
          | none =>
            refine .inr ⟨?_, refused_finish rfl (by dsimp only; split <;> simp)
              (by simp [unidentified])⟩
            rintro ⟨-, -, info, held⟩
            obtain ⟨r', given, none, some'⟩ := held.answered
            obtain rfl := Except.ok.inj (answered.symm.trans given)
            simp [found_eq_some.mpr ⟨none, some'⟩] at result
          | some info =>
            have answer := found_eq_some.mp result
            rcases judgeConnection_cases d info with ⟨same, protocol, held⟩ | ⟨other, refused⟩
            · obtain ⟨usb, cached⟩ := otherIdentity_eq_false.mp same
              exact .inl ⟨asked.1, asked.2, info,
                ⟨opened, ⟨r, answered, answer⟩, usb, cached, protocol⟩, held⟩
            · refine .inr ⟨?_, refused⟩
              rintro ⟨-, -, info', held⟩
              obtain ⟨r', given, none, some'⟩ := held.answered
              obtain rfl := Except.ok.inj (answered.symm.trans given)
              obtain rfl := Option.some.inj (answer.2.symm.trans some')
              exact other ⟨otherIdentity_eq_false.mpr ⟨held.usb, held.cached⟩, held.protocol⟩

end Descriptor

section Entries

/-- `connect(const DeviceSelector&, std::chrono::milliseconds)` -/
def connectSelector (s : DeviceSelector) (timeoutMs : Int) (bus : Bus)
    (session : UsbBulkDeviceInfo → ConnectSession) : FirmwareConnectionResult :=
  if !validTimeout timeoutMs || !s.valid then
    { error := .invalidSelector, errorMessage := "invalid selector or query timeout" }
  else
    let devices := discoverDevices { probe := s.needsProbe, probeTimeout := timeoutMs } bus
    if devices.error ≠ .none then
      { error := discoveryError devices.error
        systemError := devices.systemError
        errorMessage := deviceDiscoveryErrorMessage devices.error }
    else
      let selection := selectDevice devices.devices s
      match selection.ok, selection.device with
      | true, some d =>
        let result := connectDescriptor d timeoutMs (session d.usb)
        -- The name or the type of the device may have changed since the probe.
        if result.ok ∧ !(selectDevice result.device.toList s).ok then
          { result with
            updater := false
            error := .identityMismatch
            errorMessage := "connected device no longer matches selector" }
        else result
      | _, _ =>
        { error := discoveryError selection.error
          errorMessage := deviceDiscoveryErrorMessage selection.error
          candidates := selection.candidates }

def resolveUsbBulkDevice (listing : Except SystemError (List UsbBulkDeviceInfo)) (uri : List UInt8) :
    UsbBulkSelectionResult × Option SystemError :=
  match parseSelector uri with
  | none => ({ error := .invalidUri }, none)
  | some selector =>
    match discoverUsbBulkDevices listing selector.vendorId selector.productId with
    | .error error => ({ error := .enumerationFailed }, some error)
    | .ok devices => (selectUsbBulkDevice devices uri, none)

/-- `connect(const std::string&, std::chrono::milliseconds)` -/
def connectUri (uri : List UInt8) (timeoutMs : Int)
    (listing : Except SystemError (List UsbBulkDeviceInfo))
    (session : UsbBulkDeviceInfo → ConnectSession) : FirmwareConnectionResult :=
  if !validTimeout timeoutMs then
    { error := .invalidSelector
      errorMessage := "query timeout must be in (0, 2^31) milliseconds" }
  else
    let (selection, systemError) := resolveUsbBulkDevice listing uri
    match selection.error, selection.device with
    | .none, some usb => connectDescriptor { usb } timeoutMs (session usb)
    | error, _ =>
      { error :=
          match error with
          | .invalidUri => .invalidSelector
          | .enumerationFailed => .enumerationFailed
          | .ambiguous => .ambiguous
          | _ => .deviceNotFound
        systemError
        errorMessage := usbDiscoveryErrorMessage error }

theorem discoveryError_ne_none {error : DeviceDiscoveryError} (failed : error ≠ .none) :
    discoveryError error ≠ .none := by
  cases error <;> simp_all [discoveryError]

/-- A selection of one device: it succeeds when the selector accepts the device. -/
theorem selectDevice_singleton {s : DeviceSelector} (valid : s.valid = true) (d : DeviceDescriptor) :
    (selectDevice [d] s).ok = s.accepts d := by
  rw [selectDevice, valid]
  cases accepted : s.accepts d <;> simp [accepted, DeviceSelectionResult.ok]

/-- What a connection by a selector rests on: the bus shows one device that the selector accepts,
and in the session that is kept that device is the same and still accepted. -/
structure Chosen (s : DeviceSelector) (timeoutMs : Int) (bus : Bus)
    (session : UsbBulkDeviceInfo → ConnectSession) (d : DeviceDescriptor) (info : DeviceInfo) :
    Prop where
  asked : validTimeout timeoutMs = true ∧ s.valid = true
  listed : (discoverDevices { probe := s.needsProbe, probeTimeout := timeoutMs } bus).error = .none
  only : (discoverDevices { probe := s.needsProbe, probeTimeout := timeoutMs } bus).devices.filter
    s.accepts = [d]
  addressable : addressable d.usb = true
  identified : Identified d (session d.usb) info
  accepted : s.accepts (connected d info) = true

variable {s : DeviceSelector} {timeoutMs : Int} {bus : Bus}
  {session : UsbBulkDeviceInfo → ConnectSession}

theorem Identified.unique {d : DeviceDescriptor} {c : ConnectSession} {info info' : DeviceInfo}
    (held : Identified d c info) (held' : Identified d c info') : info = info' := by
  obtain ⟨r, given, -, some⟩ := held.answered
  obtain ⟨r', given', -, some'⟩ := held'.answered
  obtain rfl := Except.ok.inj (given.symm.trans given')
  exact Option.some.inj (some.symm.trans some')

theorem connectSelector_cases (s : DeviceSelector) (timeoutMs : Int) (bus : Bus)
    (session : UsbBulkDeviceInfo → ConnectSession) :
    (∃ d info, Chosen s timeoutMs bus session d info ∧ connectSelector s timeoutMs bus session =
        { updater := true, device := some (connected d info) }) ∨
      ((¬ ∃ d info, Chosen s timeoutMs bus session d info) ∧
        (connectSelector s timeoutMs bus session).updater = false ∧
          (connectSelector s timeoutMs bus session).error ≠ .none) := by
  rw [connectSelector]
  by_cases asked : (!validTimeout timeoutMs || !s.valid) = true
  · rw [if_pos asked]
    refine .inr ⟨?_, rfl, by simp⟩
    rintro ⟨d, info, chosen⟩
    simp [chosen.asked] at asked
  rw [if_neg asked]
  simp only [Bool.or_eq_true, Bool.not_eq_true', not_or, Bool.not_eq_false] at asked
  dsimp only
  by_cases listed :
      (discoverDevices { probe := s.needsProbe, probeTimeout := timeoutMs } bus).error = .none
  swap
  · rw [if_pos listed]
    refine .inr ⟨?_, rfl, discoveryError_ne_none listed⟩
    rintro ⟨d, info, chosen⟩
    exact listed chosen.listed
  rw [if_neg (not_not_intro listed)]
  have unmatched (other : ∀ d, (discoverDevices { probe := s.needsProbe, probeTimeout := timeoutMs }
      bus).devices.filter s.accepts ≠ [d]) : ¬ ∃ d info, Chosen s timeoutMs bus session d info := by
    rintro ⟨d, info, chosen⟩
    exact other d chosen.only
  rcases selectDevice_cases
      (discoverDevices { probe := s.needsProbe, probeTimeout := timeoutMs } bus).devices s with
    ⟨-, -, d, selected, only⟩ | ⟨-, selected, several⟩ | ⟨error, selected, failed, -, nothing⟩
  · have ok : (DeviceSelectionResult.mk (some d) [d] .none).ok = true := rfl
    rw [selected, ok]
    dsimp only
    rcases connectDescriptor_cases d timeoutMs (session d.usb) with
      ⟨-, addressable, info, identified, held⟩ | ⟨unidentified, refused⟩
    · rw [held, Option.toList_some, selectDevice_singleton asked.2]
      cases accepted : s.accepts (connected d info) with
      | true => exact .inl ⟨d, info, ⟨asked, listed, only, addressable, identified, accepted⟩, rfl⟩
      | false =>
        refine .inr ⟨?_, rfl, by simp [FirmwareConnectionResult.ok]⟩
        rintro ⟨d', info', chosen⟩
        obtain rfl : d = d' := by simpa using only.symm.trans chosen.only
        simp [identified.unique chosen.identified, chosen.accepted] at accepted
    · rw [if_neg (by simp [refused.not_ok])]
      refine .inr ⟨?_, refused.updater, refused.error⟩
      rintro ⟨d', info, chosen⟩
      obtain rfl : d = d' := by simpa using only.symm.trans chosen.only
      exact unidentified ⟨asked.1, chosen.addressable, info, chosen.identified⟩
  · rw [selected]
    exact .inr ⟨unmatched fun d only => by simp [only] at several, rfl, by simp [discoveryError]⟩
  · rw [selected]
    refine .inr ⟨unmatched fun d only => ?_, rfl, discoveryError_ne_none failed⟩
    have here : d ∈ (discoverDevices { probe := s.needsProbe, probeTimeout := timeoutMs }
        bus).devices.filter s.accepts := by simp [only]
    obtain ⟨listed, accepted⟩ := List.mem_filter.mp here
    simp [nothing asked.2 d listed] at accepted

theorem serialNumber_connected {d : DeviceDescriptor} {c : ConnectSession} {info : DeviceInfo}
    (identified : Identified d c info) : (connected d info).serialNumber = info.serialNumber := by
  rw [DeviceDescriptor.serialNumber, connected]
  dsimp only
  split
  · rfl
  · rename_i silent
    rw [not_not] at silent
    by_cases empty : d.usb.serialNumber = []
    · rw [empty, silent]
    · exact (identified.usb empty).symm

/-- What the selector asks for is what the device says of itself in the session that is kept. -/
theorem Chosen.reported {d : DeviceDescriptor} {info : DeviceInfo}
    (chosen : Chosen s timeoutMs bus session d info) :
    (∀ serial, s.serialNumber = some serial → info.serialNumber = serial) ∧
      (∀ name, s.customName = some name → info.customName = name) ∧
        ∀ type, s.firmwareType = some type → info.firmwareType = type := by
  have accepted := chosen.accepted
  simp only [DeviceSelector.accepts, Bool.and_eq_true, serialNumber_connected chosen.identified]
    at accepted
  obtain ⟨⟨⟨-, serial⟩, name⟩, type⟩ := accepted
  refine ⟨fun _ asked => ?_, fun _ asked => ?_, fun _ asked => ?_⟩
  · simpa [asked] using serial
  · simpa [asked, connected] using name
  · simpa [asked, connected] using type

/-- A connection by a selector yields an updater exactly when the bus showed one device that the
selector accepts and the session that is kept identifies that device again, as one that the
selector accepts; else it yields an error. The device of the updater says of itself all that the
selector asks for. -/
theorem connectSelector_spec (s : DeviceSelector) (timeoutMs : Int) (bus : Bus)
    (session : UsbBulkDeviceInfo → ConnectSession) :
    ((connectSelector s timeoutMs bus session).updater = true ↔
        ∃ d info, Chosen s timeoutMs bus session d info) ∧
      ((connectSelector s timeoutMs bus session).error = .none ↔
        (connectSelector s timeoutMs bus session).updater = true) ∧
      ∀ d info, Chosen s timeoutMs bus session d info →
        (connectSelector s timeoutMs bus session).device = some (connected d info) ∧
          (∀ serial, s.serialNumber = some serial → info.serialNumber = serial) ∧
          (∀ name, s.customName = some name → info.customName = name) ∧
          ∀ type, s.firmwareType = some type → info.firmwareType = type := by
  rcases connectSelector_cases s timeoutMs bus session with
    ⟨d, info, chosen, held⟩ | ⟨none, updater, error⟩
  · rw [held]
    refine ⟨by simpa using ⟨d, info, chosen⟩, by simp, fun d' info' chosen' => ?_⟩
    obtain rfl : d = d' := by simpa using chosen.only.symm.trans chosen'.only
    obtain rfl := chosen.identified.unique chosen'.identified
    exact ⟨rfl, chosen.reported⟩
  · rw [updater]
    exact ⟨by simpa using none, by simpa using error, fun d info chosen => absurd ⟨d, info, chosen⟩ none⟩

theorem accepts_completeDeviceInfo (selector : UsbSelector) (device : UsbBulkDeviceInfo) :
    selector.accepts (completeDeviceInfo device) = selector.accepts device := rfl

theorem completeDeviceInfo_twice (device : UsbBulkDeviceInfo) :
    completeDeviceInfo (completeDeviceInfo device) = completeDeviceInfo device := rfl

/-- The listing is narrowed to the selector's numbers before the selector looks at it. -/
theorem filter_discovered (selector : UsbSelector) (devices : List UsbBulkDeviceInfo) :
    (((devices.filter fun d => d.vendorId == selector.vendorId &&
        d.productId == selector.productId).map completeDeviceInfo).filter selector.accepts) =
      (devices.filter selector.accepts).map completeDeviceInfo := by
  rw [List.filter_map, List.filter_filter]
  congr 1
  apply List.filter_congr
  intro device _
  rw [Function.comp_apply, accepts_completeDeviceInfo, UsbSelector.accepts]
  by_cases vendor : device.vendorId = selector.vendorId <;>
    by_cases product : device.productId = selector.productId <;> simp [vendor, product]

theorem selectUsbBulkDevice_cases {uri : List UInt8} {selector : UsbSelector}
    (parsed : parseSelector uri = some selector) (devices : List UsbBulkDeviceInfo) :
    (∃ device, devices.filter selector.accepts = [device] ∧
        (selectUsbBulkDevice devices uri).device = some (completeDeviceInfo device) ∧
          (selectUsbBulkDevice devices uri).error = .none) ∨
      ((∀ device, devices.filter selector.accepts ≠ [device]) ∧
        (selectUsbBulkDevice devices uri).error ≠ .none) := by
  rw [selectUsbBulkDevice, parsed]
  dsimp only
  rw [selectLoop_spec, Nat.zero_add, List.countP_eq_length_filter, ← List.head?_filter]
  rcases devices.filter selector.accepts with - | ⟨device, - | ⟨other, rest⟩⟩
  · simp
  · exact .inl ⟨device, rfl, rfl, rfl⟩
  · simp

/-- A connection by a URI yields an updater exactly when one device listed is accepted by the
selector that the URI spells and the session that is kept identifies it; else it yields an error. -/
theorem connectUri_spec (uri : List UInt8) (timeoutMs : Int)
    (listing : Except SystemError (List UsbBulkDeviceInfo))
    (session : UsbBulkDeviceInfo → ConnectSession) :
    ((connectUri uri timeoutMs listing session).updater = true ↔
      validTimeout timeoutMs = true ∧ ∃ selector devices usb info,
        parseSelector uri = some selector ∧ listing = .ok devices ∧
        devices.filter selector.accepts = [usb] ∧ addressable usb = true ∧
        Identified { usb := completeDeviceInfo usb } (session (completeDeviceInfo usb)) info) ∧
    ((connectUri uri timeoutMs listing session).error = .none ↔
      (connectUri uri timeoutMs listing session).updater = true) := by
  rw [connectUri]
  cases valid : validTimeout timeoutMs with
  | false => simp
  | true =>
    rw [if_neg (by simp), resolveUsbBulkDevice]
    cases parsed : parseSelector uri with
    | none => simp
    | some selector =>
      cases listing with
      | error e => simp [discoverUsbBulkDevices, Except.map]
      | ok devices =>
        simp only [discoverUsbBulkDevices, Except.map]
        rcases selectUsbBulkDevice_cases parsed (((devices.filter fun d =>
            d.vendorId == selector.vendorId && d.productId == selector.productId).map
              completeDeviceInfo)) with ⟨device, only, selected, error⟩ | ⟨several, error⟩
        · rw [filter_discovered, List.map_eq_singleton_iff] at only
          obtain ⟨usb, only, rfl⟩ := only
          rw [selected, error]
          dsimp only
          rw [completeDeviceInfo_twice]
          rcases connectDescriptor_cases { usb := completeDeviceInfo usb } timeoutMs
              (session (completeDeviceInfo usb)) with
            ⟨-, addressable, info, identified, held⟩ | ⟨unidentified, refused⟩
          · rw [held]
            simpa using ⟨usb, only, addressable, info, identified⟩
          · rw [refused.updater]
            have none : ¬ ∃ usb', devices.filter selector.accepts = [usb'] ∧ addressable usb' = true ∧
                ∃ info, Identified { usb := completeDeviceInfo usb' }
                  (session (completeDeviceInfo usb')) info := by
              rintro ⟨usb', only', addressable, info, identified⟩
              obtain rfl : usb = usb' := by simpa using only.symm.trans only'
              exact unidentified ⟨valid, addressable, info, identified⟩
            exact ⟨by simpa using none, by simpa using refused.error⟩
        · rw [filter_discovered] at several
          have unmatched : ∀ usb, devices.filter selector.accepts ≠ [usb] := fun usb only =>
            several (completeDeviceInfo usb) (by rw [only, List.map_singleton])
          generalize selectUsbBulkDevice _ uri = selection at error
          cases error' : selection.error <;> simp_all

end Entries

end Florid.Discovery
