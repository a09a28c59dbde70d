import Florid.Discovery.Connect

/-! `Arm::connect` and the constructor of `ArmImpl` below it, over a transport that carries
Wirelink itself, as all of them do. How the calls of the session end is an input; the calls are
recorded in their order. -/
namespace Florid.Arm
open Wirelink Upgrade Discovery

inductive ArmConnectionError where
  | none | enumerationFailed | invalidSelector | deviceNotFound | ambiguous | permissionDenied
  | deviceBusy | deviceDisconnected | incompatibleDevice | controlUnavailable | transportError
  | protocolError
  deriving DecidableEq, Repr

/-- The exceptions that the constructor throws. -/
inductive ArmThrown where
  | incompatibleVersion (what : String)
  | network (what : String) (systemError : Option SystemError)
  | command (what : String)
  | protocol (what : String)

inductive ArmCall where
  | attachDirectTransport | start | getDeviceInfo | acquireControlLease | getDeviceSettings | stop
  deriving DecidableEq, Repr

/-- How an operation ends: its submission, the wait for it and the take of it. -/
structure Asked where
  submitted : FciEndpointStatus
  waited : FciEndpointStatus
  taken : FciEndpointStatus
  domainStatus : Int := 0
  linkStatus : Int := 0

structure Fetched (α : Type) extends Asked where
  value : α

structure ArmSession where
  initialized : FciEndpointStatus
  attached : FciEndpointStatus
  lastError : Option SystemError
  callbacks : FciEndpointStatus
  started : FciEndpointStatus
  info : Fetched DeviceInfo
  lease : Asked
  settings : Fetched DeviceSettings

section Construct

def operationError (operation : String) (status : FciEndpointStatus) (result : Option Asked := none) :
    String :=
  operation ++ " failed (endpoint=" ++ toString status.ctorIdx ++
    (match result with
    | some a => ", domain=" ++ toString a.domainStatus ++ ", link=" ++ toString a.linkStatus
    | none => "") ++ ")"

def requireOperation (a : Asked) (operation : String) : Except ArmThrown Unit :=
  if a.submitted ≠ .ok then .error (.command (operationError operation a.submitted))
  else if a.waited = .busy then .error (.command (operationError operation a.waited a))
  else if a.taken ≠ .ok then .error (.command (operationError operation a.taken a))
  else .ok ()

/-- `s_fetchDeviceInfo` and `s_fetchDeviceSettings` -/
def fetch {α : Type} (f : Fetched α) (operation : String) : Except ArmThrown α :=
  if f.submitted ≠ .ok then
    .error (.protocol (operationError (operation ++ " submit") f.submitted))
  else if f.waited ≠ .ok ∨ f.taken ≠ .ok then
    .error (.protocol (operationError operation f.taken f.toAsked))
  else .ok f.value

/-- Both serial numbers are known and differ. -/
def otherSerial (expected : List UInt8) (info : DeviceInfo) : Bool :=
  expected != [] && info.serialNumber != [] && expected != info.serialNumber

def versionText (v : Version) : String :=
  toString v.major ++ "." ++ toString v.minor ++ "." ++ toString v.patch

def validatePeer (expected : List UInt8) (info : DeviceInfo) : Except ArmThrown Unit :=
  if !isProtocolVersionCompatible info.protocolVersion then
    .error (.incompatibleVersion
      ("unsupported FCI protocol version " ++ versionText info.protocolVersion))
  else if otherSerial expected info then
    .error (.incompatibleVersion "USB serial and firmware serial do not match")
  else .ok ()

/-- The part of the constructor whose failure stops the endpoint. -/
def takeControl (expected : List UInt8) (s : ArmSession) :
    List ArmCall × Except ArmThrown (DeviceInfo × DeviceSettings) :=
  match fetch s.info "GetDeviceInfo" with
  | .error e => ([.getDeviceInfo], .error e)
  | .ok info =>
    match validatePeer expected info with
    | .error e => ([.getDeviceInfo], .error e)
    | .ok () =>
      match requireOperation s.lease "AcquireControlLease" with
      | .error e => ([.getDeviceInfo, .acquireControlLease], .error e)
      | .ok () =>
        ([.getDeviceInfo, .acquireControlLease, .getDeviceSettings],
          (fetch s.settings "GetDeviceSettings").map fun settings => (info, settings))

/-- `ArmImpl::ArmImpl` -/
def construct (expected : List UInt8) (s : ArmSession) :
    List ArmCall × Except ArmThrown (DeviceInfo × DeviceSettings) :=
  if s.initialized ≠ .ok then
    ([], .error (.protocol (operationError "Wirelink endpoint initialization" s.initialized)))
  else if s.attached ≠ .ok then
    ([.attachDirectTransport],
      .error (match s.lastError with
        | some error =>
          .network ("Wirelink direct transport setup failed: " ++ error.message) (some error)
        | none => .protocol (operationError "Wirelink direct transport setup" s.attached)))
  else if s.callbacks ≠ .ok then
    ([.attachDirectTransport],
      .error (.protocol (operationError "Wirelink callback setup" s.callbacks)))
  else if s.started ≠ .ok then
    ([.attachDirectTransport, .start],
      .error (.protocol (operationError "Wirelink endpoint start" s.started)))
  else
    let (calls, result) := takeControl expected s
    match result with
    | .error e => ([.attachDirectTransport, .start] ++ calls ++ [.stop], .error e)
    | .ok held => ([.attachDirectTransport, .start] ++ calls, .ok held)

/-- The device identifies itself as one that may be controlled. -/
structure Trusted (expected : List UInt8) (s : ArmSession) (info : DeviceInfo) : Prop where
  reached : s.initialized = .ok ∧ s.attached = .ok ∧ s.callbacks = .ok ∧ s.started = .ok
  answered : s.info.submitted = .ok ∧ s.info.waited = .ok ∧ s.info.taken = .ok ∧ s.info.value = info
  protocol : isProtocolVersionCompatible info.protocolVersion = true
  serial : expected ≠ [] → info.serialNumber ≠ [] → expected = info.serialNumber

/-- The device grants control and tells its settings. -/
structure Controlled (s : ArmSession) (settings : DeviceSettings) : Prop where
  leased : s.lease.submitted = .ok ∧ s.lease.waited ≠ .busy ∧ s.lease.taken = .ok
  answered : s.settings.submitted = .ok ∧ s.settings.waited = .ok ∧ s.settings.taken = .ok ∧
    s.settings.value = settings

theorem fetch_eq_ok {α : Type} {f : Fetched α} {operation : String} {value : α} :
    fetch f operation = .ok value ↔
      f.submitted = .ok ∧ f.waited = .ok ∧ f.taken = .ok ∧ f.value = value := by
  rw [fetch]
  split
  · rename_i refused
    simp [refused]
  · split
    · rename_i failed
      rw [← not_and_or] at failed
      simp only [reduceCtorEq, false_iff]
      exact fun held => failed ⟨held.2.1, held.2.2.1⟩
    · rename_i submitted done
      rw [not_or, not_not, not_not] at done
      simp [not_not.mp submitted, done]

theorem requireOperation_eq_ok {a : Asked} {operation : String} :
    requireOperation a operation = .ok () ↔ a.submitted = .ok ∧ a.waited ≠ .busy ∧ a.taken = .ok := by
  rw [requireOperation]
  split
  · rename_i refused
    simp [refused]
  · split
    · rename_i busy
      simp [busy]
    · split
      · rename_i failed
        simp [failed]
      · simp_all

theorem validatePeer_eq_ok {expected : List UInt8} {info : DeviceInfo} :
    validatePeer expected info = .ok () ↔ isProtocolVersionCompatible info.protocolVersion = true ∧
      (expected ≠ [] → info.serialNumber ≠ [] → expected = info.serialNumber) := by
  rw [validatePeer]
  cases isProtocolVersionCompatible info.protocolVersion with
  | false => simp
  | true =>
    simp only [Bool.not_true, Bool.false_eq_true, if_false, true_and]
    cases other : otherSerial expected info with
    | true =>
      simp only [otherSerial, Bool.and_eq_true, bne_iff_ne] at other
      simp [other]
    | false =>
      simp only [if_false, Bool.false_eq_true, true_iff]
      intro known answered
      simpa [otherSerial, known, answered] using other

theorem Trusted.fetched {expected : List UInt8} {s : ArmSession} {info : DeviceInfo}
    (trusted : Trusted expected s info) : fetch s.info "GetDeviceInfo" = .ok info ∧
      validatePeer expected info = .ok () :=
  ⟨fetch_eq_ok.mpr trusted.answered, validatePeer_eq_ok.mpr ⟨trusted.protocol, trusted.serial⟩⟩

/-- A constructor that threw: the endpoint is stopped once it has started, and control was asked
for only of a device that identified itself. -/
structure Abandoned (expected : List UInt8) (s : ArmSession) (calls : List ArmCall) : Prop where
  stopped : ArmCall.getDeviceInfo ∈ calls → calls.getLast? = some .stop
  asked : ArmCall.acquireControlLease ∈ calls → ∃ info, Trusted expected s info

/-- How the constructor ends. -/
inductive Outcome (expected : List UInt8) (s : ArmSession) :
    List ArmCall × Except ArmThrown (DeviceInfo × DeviceSettings) → Prop where
  | controlled (info : DeviceInfo) (settings : DeviceSettings) (trusted : Trusted expected s info)
      (controlled : Controlled s settings) :
      Outcome expected s
        ([.attachDirectTransport, .start, .getDeviceInfo, .acquireControlLease, .getDeviceSettings],
          .ok (info, settings))
  | abandoned (calls : List ArmCall) (e : ArmThrown) (abandoned : Abandoned expected s calls)
      (never : ¬ ∃ info settings, Trusted expected s info ∧ Controlled s settings) :
      Outcome expected s (calls, .error e)

theorem Outcome.unreached {expected : List UInt8} {s : ArmSession} {calls : List ArmCall}
    {e : ArmThrown} (early : ArmCall.acquireControlLease ∉ calls)
    (stopped : ArmCall.getDeviceInfo ∈ calls → calls.getLast? = some .stop)
    (never : ∀ info, ¬ Trusted expected s info) : Outcome expected s (calls, .error e) := by
  refine .abandoned calls e ⟨stopped, fun asked => absurd asked early⟩ ?_
  rintro ⟨info, settings, trusted, -⟩
  exact never info trusted

theorem construct_outcome (expected : List UInt8) (s : ArmSession) :
    Outcome expected s (construct expected s) := by
  by_cases initialized : s.initialized = .ok
  swap
  · rw [construct, if_pos initialized]
    exact .unreached (by simp) (by simp) fun _ trusted => initialized trusted.reached.1
  by_cases attached : s.attached = .ok
  swap
  · rw [construct, if_neg (not_not_intro initialized), if_pos attached]
    exact .unreached (by simp) (by simp) fun _ trusted => attached trusted.reached.2.1
  by_cases callbacks : s.callbacks = .ok
  swap
  · rw [construct, if_neg (not_not_intro initialized), if_neg (not_not_intro attached),
      if_pos callbacks]
    exact .unreached (by simp) (by simp) fun _ trusted => callbacks trusted.reached.2.2.1
  by_cases started : s.started = .ok
  swap
  · rw [construct, if_neg (not_not_intro initialized), if_neg (not_not_intro attached),
      if_neg (not_not_intro callbacks), if_pos started]
    exact .unreached (by simp) (by simp) fun _ trusted => started trusted.reached.2.2.2
  rw [construct, if_neg (not_not_intro initialized), if_neg (not_not_intro attached),
    if_neg (not_not_intro callbacks), if_neg (not_not_intro started), takeControl]
  cases answered : fetch s.info "GetDeviceInfo" with
  | error e =>
    refine .unreached (by simp) (by simp) fun info trusted => ?_
    simp [trusted.fetched] at answered
  | ok info =>
    dsimp only
    cases valid : validatePeer expected info with
    | error e =>
      refine .unreached (by simp) (by simp) fun info' trusted => ?_
      obtain rfl := Except.ok.inj (answered.symm.trans trusted.fetched.1)
      simp [trusted.fetched] at valid
    | ok checked =>
      have trusted : Trusted expected s info :=
        ⟨⟨initialized, attached, callbacks, started⟩, fetch_eq_ok.mp answered,
          (validatePeer_eq_ok.mp valid).1, (validatePeer_eq_ok.mp valid).2⟩
      dsimp only
      cases leased : requireOperation s.lease "AcquireControlLease" with
      | error e =>
        refine .abandoned _ _ ⟨by simp, fun _ => ⟨info, trusted⟩⟩ ?_
        rintro ⟨info, settings, -, controlled⟩
        simp [requireOperation_eq_ok.mpr controlled.leased] at leased
      | ok granted =>
        dsimp only
        cases told : fetch s.settings "GetDeviceSettings" with
        | error e =>
          refine .abandoned _ _ ⟨by simp, fun _ => ⟨info, trusted⟩⟩ ?_
          rintro ⟨info, settings, -, controlled⟩
          simp [fetch_eq_ok.mpr controlled.answered] at told
        | ok settings =>
          exact .controlled info settings trusted
            ⟨requireOperation_eq_ok.mp leased, fetch_eq_ok.mp told⟩

end Construct

section Connect

def connectionErrorOf : DeviceDiscoveryError → ArmConnectionError
  | .none => .none
  | .enumerationFailed => .enumerationFailed
  | .invalidSelector => .invalidSelector
  | .deviceNotFound | .timeout => .deviceNotFound
  | .ambiguous => .ambiguous

/-- `s_connectionError(const std::error_code&)` -/
def connectionErrorOfSystem (e : SystemError) : ArmConnectionError :=
  match e.code with
  | .permissionDenied => .permissionDenied
  | .interfaceBusy => .deviceBusy
  | .deviceDisconnected | .deviceNotFound => .deviceDisconnected
  | .other _ => .transportError

def armConnectionErrorMessage : ArmConnectionError → String
  | .none => "no error"
  | .enumerationFailed => "USB enumeration failed"
  | .invalidSelector => "invalid device selector"
  | .deviceNotFound => "device not found"
  | .ambiguous => "selector matches multiple devices"
  | .permissionDenied => "USB device permission denied"
  | .deviceBusy => "USB interface is busy"
  | .deviceDisconnected => "USB device disconnected"
  | .incompatibleDevice => "incompatible device"
  | .controlUnavailable => "device control is unavailable"
  | .transportError => "transport connection failed"
  | .protocolError => "protocol connection failed"

structure ArmConnectionResult where
  /-- The arm, with what its constructor read. -/
  arm : Option (DeviceInfo × DeviceSettings) := none
  error : ArmConnectionError := .none
  systemError : Option SystemError := none
  message : String := ""
  device : Option DeviceDescriptor := none
  candidates : List DeviceDescriptor := []

/-- What a discovery already showed to be wrong with the device. -/
def refusal (d : DeviceDescriptor) : ArmConnectionError :=
  match d.access with
  | .permissionDenied => .permissionDenied
  | .busy => .deviceBusy
  | .disconnected => .deviceDisconnected
  | _ =>
    if d.compatibility ≠ .unknown ∧ d.compatibility ≠ .compatible then .incompatibleDevice else .none

def thrownResult (d : DeviceDescriptor) : ArmThrown → ArmConnectionResult
  | .incompatibleVersion what =>
    { error := .incompatibleDevice, message := what, device := some d }
  | .network what systemError =>
    { error := (systemError.map connectionErrorOfSystem).getD .transportError
      systemError
      message := what
      device := some d }
  | .command what => { error := .controlUnavailable, message := what, device := some d }
  | .protocol what => { error := .protocolError, message := what, device := some d }

/-- `Arm::connect(const DeviceDescriptor&)`, with the calls of its constructor. -/
def connectDescriptor (d : DeviceDescriptor) (s : ArmSession) : List ArmCall × ArmConnectionResult :=
  if refusal d ≠ .none then
    ([], { error := refusal d
           systemError := d.systemError
           message :=
             if d.errorMessage = "" then armConnectionErrorMessage (refusal d) else d.errorMessage
           device := some d })
  else
    let (calls, result) := construct d.usb.serialNumber s
    match result with
    | .ok held => (calls, { arm := some held, device := some d })
    | .error e => (calls, thrownResult d e)

/-- `Arm::connect(const DeviceSelector&)` -/
def connectSelector (s : DeviceSelector) (bus : Bus) (session : UsbBulkDeviceInfo → ArmSession) :
    List ArmCall × ArmConnectionResult :=
  let discovery := discoverDevices { probe := s.needsProbe } bus
  if discovery.error ≠ .none then
    ([], { error := connectionErrorOf discovery.error
           systemError := discovery.systemError
           message := deviceDiscoveryErrorMessage discovery.error })
  else
    let selection := selectDevice discovery.devices s
    match selection.ok, selection.device with
    | true, some d => connectDescriptor d (session d.usb)
    | _, _ =>
      ([], { error := connectionErrorOf selection.error
             candidates := selection.candidates
             message := deviceDiscoveryErrorMessage selection.error })

theorem connectionErrorOf_ne_none {error : DeviceDiscoveryError} (failed : error ≠ .none) :
    connectionErrorOf error ≠ .none := by
  cases error <;> simp_all [connectionErrorOf]

theorem thrownResult_failed (d : DeviceDescriptor) (e : ArmThrown) :
    (thrownResult d e).arm = none ∧ (thrownResult d e).error ≠ .none := by
  cases e with
  | network what systemError =>
    refine ⟨rfl, ?_⟩
    rcases systemError with - | ⟨code, message⟩
    · simp [thrownResult]
    · cases code <;> simp [thrownResult, connectionErrorOfSystem]
  | incompatibleVersion what => simp [thrownResult]
  | command what => simp [thrownResult]
  | protocol what => simp [thrownResult]

theorem judgeProbe_access (d : DeviceDescriptor) (info : DeviceInfo) :
    (judgeProbe d info).access = d.access := by
  rw [judgeProbe]
  dsimp only
  split
  · rfl
  · split <;> rfl

/-- A probe fails, or judges the info that the device sent over an open session. -/
theorem probeDevice_cases (usb : UsbBulkDeviceInfo) (timeoutMs : Int) (p : ProbeSession) :
    (probeDevice usb timeoutMs p).compatibility = .probeFailed ∨
      probeDevice usb timeoutMs p = judgeProbe { unprobed usb with access := .ready } p.info := by
  rw [probeDevice]
  dsimp only
  repeat' split
  all_goals first | exact .inl rfl | exact .inr rfl

/-- A device that a discovery lists and a selector accepts is not refused. -/
theorem refusal_of_discovered {options : DeviceDiscoveryOptions} {bus : Bus} {s : DeviceSelector}
    {d : DeviceDescriptor} (listed : d ∈ (discoverDevices options bus).devices)
    (accepted : s.accepts d = true) : refusal d = .none := by
  simp only [DeviceSelector.accepts, Bool.and_eq_true, Bool.or_eq_true, beq_iff_eq] at accepted
  obtain ⟨⟨⟨compatible, -⟩, -⟩, -⟩ := accepted
  have open' : d.access = .notProbed ∨ d.access = .ready := by
    rw [discoverDevices] at listed
    cases listing : discoverUsbBulkDevices bus.listing with
    | error e => simp [listing] at listed
    | ok devices =>
      simp only [listing, List.mem_map] at listed
      obtain ⟨usb, -, rfl⟩ := listed
      split at compatible
      · rename_i probed
        rw [if_pos probed]
        rcases probeDevice_cases usb options.probeTimeout (bus.probed usb) with failed | judged
        · simp [failed] at compatible
        · rw [judged, judgeProbe_access]
          exact .inr rfl
      · rename_i unprobed
        rw [if_neg unprobed]
        exact .inl rfl
  rcases open' with access | access <;> simp only [refusal, access] <;>
    rw [if_neg (by rintro ⟨a, b⟩; exact compatible.elim a b)]

/-- The bus shows this device alone to the selector. -/
def Alone (s : DeviceSelector) (bus : Bus) (d : DeviceDescriptor) : Prop :=
  s.valid = true ∧
    (discoverDevices { probe := s.needsProbe } bus).error = .none ∧
      (discoverDevices { probe := s.needsProbe } bus).devices.filter s.accepts = [d]

/-- A connection by a selector ends as the constructor does for the one device that the bus shows
to the selector, or it opens no device for control at all. -/
theorem connectSelector_cases (s : DeviceSelector) (bus : Bus)
    (session : UsbBulkDeviceInfo → ArmSession) :
    (∃ d, Alone s bus d ∧
      (connectSelector s bus session).1 = (construct d.usb.serialNumber (session d.usb)).1 ∧
      ((∃ held, (construct d.usb.serialNumber (session d.usb)).2 = .ok held ∧
          (connectSelector s bus session).2 = { arm := some held, device := some d }) ∨
        ∃ e, (construct d.usb.serialNumber (session d.usb)).2 = .error e ∧
          (connectSelector s bus session).2 = thrownResult d e)) ∨
    ((∀ d, ¬ Alone s bus d) ∧ (connectSelector s bus session).1 = [] ∧
      (connectSelector s bus session).2.arm = none ∧
        (connectSelector s bus session).2.error ≠ .none) := by
  rw [connectSelector]
  dsimp only
  by_cases listed : (discoverDevices { probe := s.needsProbe } bus).error = .none
  swap
  · rw [if_pos listed]
    exact .inr ⟨fun d alone => listed alone.2.1, rfl, rfl, connectionErrorOf_ne_none listed⟩
  rw [if_neg (not_not_intro listed)]
  rcases selectDevice_cases (discoverDevices { probe := s.needsProbe } bus).devices s with
    ⟨-, valid, d, selected, only⟩ | ⟨-, selected, several⟩ | ⟨error, selected, failed, -, nothing⟩
  · have ok : (DeviceSelectionResult.mk (some d) [d] .none).ok = true := rfl
    rw [selected, ok]
    dsimp only
    have here : d ∈ (discoverDevices { probe := s.needsProbe } bus).devices.filter s.accepts := by
      simp [only]
    obtain ⟨member, accepted⟩ := List.mem_filter.mp here
    rw [connectDescriptor, if_neg (not_not_intro (refusal_of_discovered member accepted))]
    refine .inl ⟨d, ⟨valid, listed, only⟩, ?_⟩
    generalize construct d.usb.serialNumber (session d.usb) = constructed
    obtain ⟨calls, result⟩ := constructed
    cases result with
    | ok held => exact ⟨rfl, .inl ⟨held, rfl, rfl⟩⟩
    | error e => exact ⟨rfl, .inr ⟨e, rfl, rfl⟩⟩
  · rw [selected]
    refine .inr ⟨fun d alone => ?_, rfl, rfl, by simp [connectionErrorOf]⟩
    simp [alone.2.2] at several
  · rw [selected]
    refine .inr ⟨fun d alone => ?_, rfl, rfl, connectionErrorOf_ne_none failed⟩
    have here : d ∈ (discoverDevices { probe := s.needsProbe } bus).devices.filter s.accepts := by
      simp [alone.2.2]
    obtain ⟨member, accepted⟩ := List.mem_filter.mp here
    simp [nothing alone.1 d member] at accepted

/-- A connection by a selector asks for control only of the one device that the bus shows to the
selector, and only after that device identified itself in the same session with a protocol that is
supported and a serial number that does not contradict the listing. It yields an arm exactly when
control is then granted and the settings are told, else an error and a stopped endpoint. -/
theorem connectSelector_control (s : DeviceSelector) (bus : Bus)
    (session : UsbBulkDeviceInfo → ArmSession) :
    (ArmCall.acquireControlLease ∈ (connectSelector s bus session).1 →
      ∃ d info, Alone s bus d ∧ Trusted d.usb.serialNumber (session d.usb) info) ∧
    ((connectSelector s bus session).2.arm.isSome = true ↔ ∃ d info settings, Alone s bus d ∧
      Trusted d.usb.serialNumber (session d.usb) info ∧ Controlled (session d.usb) settings) ∧
    ((connectSelector s bus session).2.error = .none ↔
      (connectSelector s bus session).2.arm.isSome = true) ∧
    ((connectSelector s bus session).2.arm = none →
      ArmCall.getDeviceInfo ∈ (connectSelector s bus session).1 →
        (connectSelector s bus session).1.getLast? = some .stop) := by
  rcases connectSelector_cases s bus session with ⟨d, alone, calls, ended⟩ | ⟨none, calls, arm, error⟩
  · rw [calls]
    have outcome := construct_outcome d.usb.serialNumber (session d.usb)
    generalize construct d.usb.serialNumber (session d.usb) = constructed at outcome ended
    cases outcome with
    | controlled info settings trusted controlled =>
      rcases ended with ⟨held, -, ended⟩ | ⟨e, other, -⟩
      · rw [ended]
        exact ⟨fun _ => ⟨d, info, alone, trusted⟩,
          by simpa using ⟨d, alone, ⟨info, trusted⟩, settings, controlled⟩, by simp, by simp⟩
      · contradiction
    | abandoned calls e abandoned never =>
      rcases ended with ⟨held, other, -⟩ | ⟨e', -, ended⟩
      · contradiction
      · obtain ⟨arm, error⟩ := thrownResult_failed d e'
        rw [ended, arm]
        refine ⟨fun asked => ?_, ?_, by simpa using error, fun _ => abandoned.stopped⟩
        · obtain ⟨info, trusted⟩ := abandoned.asked asked
          exact ⟨d, info, alone, trusted⟩
        · simp only [Option.isSome_none, Bool.false_eq_true, false_iff]
          rintro ⟨d', info, settings, alone', trusted, controlled⟩
          obtain rfl : d = d' := by simpa using alone.2.2.symm.trans alone'.2.2
          exact never ⟨info, settings, trusted, controlled⟩
  · rw [calls, arm]
    refine ⟨by simp, ?_, by simpa using error, by simp⟩
    simp only [Option.isSome_none, Bool.false_eq_true, false_iff]
    rintro ⟨d, -, -, alone, -⟩
    exact none d alone

end Connect

end Florid.Arm
