import Florid.Rpc.Header
import Florid.Transition

/-! Managed calls between a client and the servers that answer it, over a network that loses,
repeats and reorders what they send. -/
namespace Florid.Rpc

open Codec

/-- The managed services of the device. -/
inductive RpcMethod where
  | acquireControlLease | clearError | clearFaults | emergencyStop | getDeviceInfo
  | getDeviceSettings | getMotorFeedback | home | motorRegisterRead | motorRegisterWrite
  | motorSetZero | motorStoreParameters | releaseControlLease | setArmControlMode | setArmMode
  | setDeviceInfo | setDeviceSettings | setGripperControlMode | setZero
  deriving DecidableEq, Repr

namespace RpcMethod

def all : List RpcMethod := [
  .acquireControlLease, .clearError, .clearFaults, .emergencyStop, .getDeviceInfo,
  .getDeviceSettings, .getMotorFeedback, .home, .motorRegisterRead, .motorRegisterWrite,
  .motorSetZero, .motorStoreParameters, .releaseControlLease, .setArmControlMode, .setArmMode,
  .setDeviceInfo, .setDeviceSettings, .setGripperControlMode, .setZero]

def requestMessageId : RpcMethod → Nat
  | .acquireControlLease => 25097
  | .clearError => 24841
  | .clearFaults => 25093
  | .emergencyStop => 25347
  | .getDeviceInfo => 25109
  | .getDeviceSettings => 25128
  | .getMotorFeedback => 25107
  | .home => 25089
  | .motorRegisterRead => 25117
  | .motorRegisterWrite => 25119
  | .motorSetZero => 25123
  | .motorStoreParameters => 25121
  | .releaseControlLease => 25099
  | .setArmControlMode => 25113
  | .setArmMode => 25125
  | .setDeviceInfo => 25111
  | .setDeviceSettings => 25130
  | .setGripperControlMode => 25115
  | .setZero => 24839

def responseMessageId : RpcMethod → Nat
  | .acquireControlLease => 25098
  | .clearError => 24842
  | .clearFaults => 25094
  | .emergencyStop => 25348
  | .getDeviceInfo => 25110
  | .getDeviceSettings => 25129
  | .getMotorFeedback => 25108
  | .home => 25090
  | .motorRegisterRead => 25118
  | .motorRegisterWrite => 25120
  | .motorSetZero => 25124
  | .motorStoreParameters => 25122
  | .releaseControlLease => 25100
  | .setArmControlMode => 25114
  | .setArmMode => 25126
  | .setDeviceInfo => 25112
  | .setDeviceSettings => 25131
  | .setGripperControlMode => 25116
  | .setZero => 24840

def request : RpcMethod → WlcDesc
  | .acquireControlLease => acquireControlLeaseRequestDesc
  | .clearError => clearErrorRequestDesc
  | .clearFaults => clearFaultsRequestDesc
  | .emergencyStop => emergencyStopRequestDesc
  | .getDeviceInfo => getDeviceInfoRequestDesc
  | .getDeviceSettings => getDeviceSettingsRequestDesc
  | .getMotorFeedback => getMotorFeedbackRequestDesc
  | .home => homeRequestDesc
  | .motorRegisterRead => motorRegisterReadRequestDesc
  | .motorRegisterWrite => motorRegisterWriteRequestDesc
  | .motorSetZero => motorSetZeroRequestDesc
  | .motorStoreParameters => motorStoreParametersRequestDesc
  | .releaseControlLease => releaseControlLeaseRequestDesc
  | .setArmControlMode => setArmControlModeRequestDesc
  | .setArmMode => setArmModeRequestDesc
  | .setDeviceInfo => setDeviceInfoRequestDesc
  | .setDeviceSettings => setDeviceSettingsRequestDesc
  | .setGripperControlMode => setGripperControlModeRequestDesc
  | .setZero => setZeroRequestDesc

def response : RpcMethod → WlcDesc
  | .acquireControlLease => acquireControlLeaseResponseDesc
  | .clearError => clearErrorResponseDesc
  | .clearFaults => clearFaultsResponseDesc
  | .emergencyStop => emergencyStopResponseDesc
  | .getDeviceInfo => getDeviceInfoResponseDesc
  | .getDeviceSettings => getDeviceSettingsResponseDesc
  | .getMotorFeedback => getMotorFeedbackResponseDesc
  | .home => homeResponseDesc
  | .motorRegisterRead => motorRegisterReadResponseDesc
  | .motorRegisterWrite => motorRegisterWriteResponseDesc
  | .motorSetZero => motorSetZeroResponseDesc
  | .motorStoreParameters => motorStoreParametersResponseDesc
  | .releaseControlLease => releaseControlLeaseResponseDesc
  | .setArmControlMode => setArmControlModeResponseDesc
  | .setArmMode => setArmModeResponseDesc
  | .setDeviceInfo => setDeviceInfoResponseDesc
  | .setDeviceSettings => setDeviceSettingsResponseDesc
  | .setGripperControlMode => setGripperControlModeResponseDesc
  | .setZero => setZeroResponseDesc

end RpcMethod

/-- `FCI_DEVICE_ENDPOINT_REQUEST_CAPACITY`, and the capacity of a response by default -/
def requestCapacity : Nat := 226

/-- `wl_err_t`, as far as a submission returns it -/
inductive WlErr where
  | bufTooSmall | invalidArg | corruptPayload
  deriving DecidableEq, Repr

/-- `fci_device_…_encode_submission` -/
def encodeSubmission (m : RpcMethod) (request : OwnedSlots) (operationId : UInt32)
    (session : UInt64) (capacity : Nat) : Except WlErr (List UInt8) :=
  if capacity < 20 then .error .bufTooSmall
  else if session = 0 then .error .invalidArg
  else
    match valueEncode m.request request (capacity - 20) with
    | .error _ => .error .corruptPayload
    | .ok body => .ok (rpcHeaderWrite 1 ⟨operationId, 0, session⟩ ++ body)

/-- The response that a service hands over: an owned value or a view. -/
inductive Response (d : WlcDesc) where
  | owned (m : OwnedMessage d)
  | view (m : Message d)

/-- `fci_device_…_encode_response` -/
def encodeResponse {d : WlcDesc} : Response d → Nat → Except Status (List UInt8)
  | .owned m, cap => valueEncode d m.value cap
  | .view m, cap => wlcEncode d m.slots cap

/-- How `fci_device_rpc_finish_response` fails before it commits. -/
inductive FinishErr where
  | responseTooLarge | codec (status : Status)
  deriving DecidableEq, Repr

/-- What `fci_device_rpc_finish_response` commits for a request's operation and session, in a
buffer of a capacity. -/
def finishResponse (m : RpcMethod) (h : RpcHeader) (response : Response m.response)
    (capacity : Nat) : Except FinishErr (List UInt8) :=
  if capacity < 20 then .error .responseTooLarge
  else if h.status = 0 then
    match encodeResponse response (capacity - 20) with
    | .error status => .error (.codec status)
    | .ok body => .ok (rpcHeaderWrite 2 h ++ body)
  else .ok (rpcHeaderWrite 2 h)

/-- `wl_rpc_client_state_t`, as far as the runtime asks for it -/
inductive ClientState where
  | linkPending | waitResponse | completed | applicationError | timedOut | other
  deriving DecidableEq, Repr

/-- `wl_rpc_client_result_t` -/
structure ClientResult where
  requestMessageId : Nat
  responseMessageId : Nat
  state : ClientState
  applicationStatus : Int32
  response : List UInt8
  deriving DecidableEq, Repr

/-- The client of the link library: its calls that the runtime makes when a response arrives, and
those that the endpoint makes otherwise. -/
structure ClientTable (σ ω : Type) where
  get : σ → UInt32 → Except RpcErr ClientResult
  poll : σ → Nat → σ
  onResponse : σ → Nat → UInt32 → Int32 → List UInt8 → Except RpcErr Unit × σ
  own : ω → σ → σ
  /-- `wl_rpc_async_completion` makes a success of the result. -/
  success : ClientResult → Bool

structure Event where
  reliable : Bool
  messageId : Nat
  payload : List UInt8

/-- `fci_device_runtime_result_t`, as far as a response sets it -/
inductive Domain where
  | ok | unknownMessage | missingRoute | deliveryMismatch | codecError | rpcError
  deriving DecidableEq, Repr

structure RuntimeResult where
  domain : Domain
  rpcResult : Option RpcErr := none
  codecStatus : Option Status := none
  deriving DecidableEq, Repr

section Client
variable {σ ω : Type} (t : ClientTable σ ω)

/-- The scratch that a response without an error is decoded into. -/
def decodeResponse (m : RpcMethod) (h : RpcHeader) (payload : List UInt8) : Except Status Unit :=
  if h.status = 0 then do
    let _ ← wlcDecode m.response (payload.drop 20)
    .ok ()
  else .ok ()

/-- The branch of `fci_device_runtime_dispatch_event` for a service's response. -/
def dispatchResponse (m : RpcMethod) (session : UInt64) (now : Nat) (event : Event) (s : σ) :
    RuntimeResult × σ :=
  if !event.reliable then (⟨.deliveryMismatch, none, none⟩, s)
  else
    match rpcHeaderRead event.payload 2 with
    | .error _ => (⟨.rpcError, some .malformedMetadata, none⟩, s)
    | .ok h =>
      if h.status ≠ 0 ∧ event.payload.length ≠ 20 then
        (⟨.rpcError, some .malformedMetadata, none⟩, s)
      else if h.session ≠ session then (⟨.ok, some .sessionMismatch, none⟩, s)
      else
        let s := t.poll s now
        match t.get s h.operationId with
        | .error .notFound => (⟨.ok, some .notFound, none⟩, s)
        | .error _ => (⟨.rpcError, some .responseMismatch, none⟩, s)
        | .ok client =>
          if client.requestMessageId ≠ m.requestMessageId ∨
              client.responseMessageId ≠ m.responseMessageId then
            (⟨.rpcError, some .responseMismatch, none⟩, s)
          else if client.state ≠ .linkPending ∧ client.state ≠ .waitResponse then
            (⟨.ok, some .invalidState, none⟩, s)
          else
            match decodeResponse m h event.payload with
            | .error status => (⟨.codecError, none, some status⟩, s)
            | .ok () =>
              match t.onResponse s m.responseMessageId h.operationId h.status event.payload with
              | (.ok (), s) => (⟨.ok, none, none⟩, s)
              | (.error err, s) => (⟨.rpcError, some err, none⟩, s)

/-- `fci_device_runtime_dispatch_event`, for the messages of the services. -/
def dispatchEvent (session : UInt64) (now : Nat) (event : Event) (s : σ) : RuntimeResult × σ :=
  match RpcMethod.all.find? (·.responseMessageId == event.messageId) with
  | some m => dispatchResponse t m session now event s
  | none =>
    if RpcMethod.all.any (·.requestMessageId == event.messageId) then
      (⟨if event.reliable then .missingRoute else .deliveryMismatch, none, none⟩, s)
    else (⟨.unknownMessage, none, none⟩, s)

/-- What `fci_device_endpoint_…_prepare` makes of a result: the response that the callback is given
when the call succeeded. -/
def prepare (m : RpcMethod) (client : ClientResult) : Option OwnedSlots :=
  if t.success client then
    if client.response.length < 20 then none
    else
      match valueDecode m.response (client.response.drop 20) with
      | .error _ => none
      | .ok value => some value
  else none

end Client

/-- What the peer of a response makes of it. -/
def Response.received {d : WlcDesc} : Response d → OwnedSlots
  | .owned m => normal d m.value
  | .view m => valueCopy d (reset d m.slots)

theorem RpcMethod.fits (m : RpcMethod) :
    (wellFormed m.request = true ∧ ∃ most, maxEncoded m.request = some most ∧
      most + 20 ≤ requestCapacity) ∧
    wellFormed m.response = true ∧ ∃ most, maxEncoded m.response = some most ∧
      most + 20 ≤ requestCapacity := by
  have each : (RpcMethod.all.all fun m => [m.request, m.response].all fun d => wellFormed d &&
      ((maxEncoded d).any (· + 20 ≤ requestCapacity))) = true := by
    decide +kernel
  have here := List.all_eq_true.mp each m (by cases m <;> decide)
  simpa [Option.any_eq_true] using here

theorem encodeResponse_eq_ok {d : WlcDesc} {response : Response d} {cap most : Nat}
    {body : List UInt8} (fits : wellFormed d = true) (bound : maxEncoded d = some most)
    (written : encodeResponse response cap = .ok body) :
    valueDecode d body = .ok response.received ∧ body.length ≤ most := by
  cases response with
  | owned m =>
    exact ⟨valueDecode_of_encode fits m written, valueEncode_length fits m bound written⟩
  | view m =>
    obtain ⟨present, rfl, -, small⟩ := (wlcEncode_eq_ok fits m.fitting).mp written
    have read := decodes fits m.slots m.fitting present (by simp only [sizeMax] at small; omega)
    exact ⟨bind_eq_ok.mpr ⟨_, read, rfl⟩, bounded fits m.slots most bound m.fitting present⟩

theorem RpcMethod.find_response (m : RpcMethod) :
    RpcMethod.all.find? (·.responseMessageId == m.responseMessageId) = some m := by
  cases m <;> rfl

theorem RpcMethod.requestMessageId_inj {m m' : RpcMethod} :
    m.requestMessageId = m'.requestMessageId ↔ m = m' := by
  constructor
  · cases m <;> cases m' <;> simp [requestMessageId]
  · rintro rfl
    rfl

theorem drop_header (kind : UInt8) (h : RpcHeader) (body : List UInt8) :
    (rpcHeaderWrite kind h ++ body).drop 20 = body :=
  List.drop_left' (length_rpcHeaderWrite kind h)

theorem encodeSubmission_eq_ok {m : RpcMethod} {request : OwnedSlots} {operationId : UInt32}
    {session : UInt64} {capacity : Nat} {payload : List UInt8} :
    encodeSubmission m request operationId session capacity = .ok payload ↔
      20 ≤ capacity ∧ session ≠ 0 ∧ ∃ body, valueEncode m.request request (capacity - 20) = .ok body ∧
        payload = rpcHeaderWrite 1 ⟨operationId, 0, session⟩ ++ body := by
  constructor
  · intro submitted
    rw [encodeSubmission] at submitted
    split at submitted
    · contradiction
    · rename_i room
      split at submitted
      · contradiction
      · rename_i proper
        split at submitted
        · contradiction
        · rename_i body written
          cases submitted
          exact ⟨Nat.le_of_not_lt room, proper, body, written, rfl⟩
  · rintro ⟨room, proper, body, written, rfl⟩
    rw [encodeSubmission, if_neg (Nat.not_lt_of_le room), if_neg proper, written]

/-- A request has room where the endpoint keeps it as soon as it is complete. -/
theorem exists_encodeSubmission (m : RpcMethod) (request : OwnedMessage m.request)
    (operationId : UInt32) (session : UInt64) :
    (∃ payload, encodeSubmission m request.value operationId session requestCapacity =
        .ok payload) ↔
      session ≠ 0 ∧ ∃ view, valueBorrow m.request request.value = .ok view ∧
        complete false m.request view = true := by
  obtain ⟨fits, most, bound, room⟩ := m.fits.1
  simp only [encodeSubmission_eq_ok]
  constructor
  · rintro ⟨payload, -, proper, body, written, -⟩
    obtain ⟨view, borrowed, present, -⟩ := (valueEncode_eq_ok fits request.fitting).mp written
    exact ⟨proper, view, borrowed, present⟩
  · rintro ⟨proper, view, borrowed, present⟩
    have fitting := (borrows m.request request.value view request.fitting borrowed).1
    have short := bounded fits view most bound fitting present
    simp only [requestCapacity] at room ⊢
    refine ⟨_, by decide, proper, canonical m.request view, ?_, rfl⟩
    exact (valueEncode_eq_ok fits request.fitting).mpr
      ⟨view, borrowed, present, rfl, by omega, by simp only [sizeMax]; omega⟩

/-- What a server reads of a request that was submitted. -/
theorem encodeSubmission_read {m : RpcMethod} (request : OwnedMessage m.request)
    {operationId : UInt32} {session : UInt64} {capacity : Nat} {payload : List UInt8}
    (submitted : encodeSubmission m request.value operationId session capacity = .ok payload) :
    (rpcHeaderRead payload 1 = .ok ⟨operationId, 0, session⟩ ↔ operationId ≠ 0) ∧
      valueDecode m.request (payload.drop 20) = .ok (normal m.request request.value) := by
  obtain ⟨-, proper, body, written, rfl⟩ := encodeSubmission_eq_ok.mp submitted
  constructor
  · rw [rpcHeaderRead_eq_ok]
    constructor
    · exact fun read => read.1.2.1
    · exact fun some => ⟨⟨proper, some, fun _ => rfl⟩, body, rfl⟩
  · rw [drop_header]
    exact valueDecode_of_encode m.fits.1.1 request written

/-- A request fits where the endpoint keeps it as soon as it is complete, and the server reads the
operation, the session and the value that were submitted. -/
theorem encodeSubmission_fits (m : RpcMethod) (request : OwnedMessage m.request)
    (operationId : UInt32) (session : UInt64) :
    ((∃ payload, encodeSubmission m request.value operationId session requestCapacity =
        .ok payload) ↔
      session ≠ 0 ∧ ∃ view, valueBorrow m.request request.value = .ok view ∧
        complete false m.request view = true) ∧
    ∀ capacity payload,
      encodeSubmission m request.value operationId session capacity = .ok payload →
        (rpcHeaderRead payload 1 = .ok ⟨operationId, 0, session⟩ ↔ operationId ≠ 0) ∧
        valueDecode m.request (payload.drop 20) = .ok (normal m.request request.value) := by
  constructor
  · exact exists_encodeSubmission m request operationId session
  · intro capacity payload submitted
    exact encodeSubmission_read request submitted

theorem finishResponse_eq_ok {m : RpcMethod} {h : RpcHeader} {response : Response m.response}
    {capacity : Nat} {payload : List UInt8}
    (finished : finishResponse m h response capacity = .ok payload) :
    ∃ body, payload = rpcHeaderWrite 2 h ++ body ∧ (h.status ≠ 0 → body = []) ∧
      (h.status = 0 → valueDecode m.response body = .ok response.received) ∧
      payload.length ≤ requestCapacity := by
  obtain ⟨fits, most, bound, room⟩ := m.fits.2
  rw [finishResponse] at finished
  split at finished
  · contradiction
  · split at finished
    · rename_i succeeded
      split at finished
      · contradiction
      · rename_i body written
        cases finished
        obtain ⟨read, short⟩ := encodeResponse_eq_ok fits bound written
        refine ⟨body, rfl, fun failed => absurd succeeded failed, fun _ => read, ?_⟩
        rw [List.length_append, length_rpcHeaderWrite]
        omega
    · rename_i failed
      cases finished
      exact ⟨[], by simp, fun _ => rfl, fun succeeded => absurd succeeded failed, by
        rw [length_rpcHeaderWrite, requestCapacity]
        omega⟩

theorem decodeResponse_finished {m : RpcMethod} {h : RpcHeader} {response : Response m.response}
    {capacity : Nat} {payload : List UInt8}
    (finished : finishResponse m h response capacity = .ok payload) :
    decodeResponse m h payload = .ok () := by
  obtain ⟨body, rfl, -, read, -⟩ := finishResponse_eq_ok finished
  rw [decodeResponse, drop_header]
  split
  · rename_i succeeded
    obtain ⟨view, held, -⟩ := bind_eq_ok.mp (read succeeded)
    exact bind_eq_ok.mpr ⟨view, held, rfl⟩
  · rfl

section Dispatch
variable {σ ω : Type} {t : ClientTable σ ω} {s : σ} {now : Nat}

/-- A call that still waits for its response, as a client keeps it. -/
structure Waits (t : ClientTable σ ω) (s : σ) (m : RpcMethod) (operationId : UInt32)
    (r : ClientResult) : Prop where
  held : t.get s operationId = .ok r
  request : r.requestMessageId = m.requestMessageId
  response : r.responseMessageId = m.responseMessageId
  pending : r.state = .linkPending ∨ r.state = .waitResponse

/-- A response leaves a client as it was, but for the deadlines that have passed, or it is handed
to the call of its operation, which waits for it. -/
theorem dispatchResponse_cases (t : ClientTable σ ω) (m : RpcMethod) (session : UInt64) (now : Nat)
    (event : Event) (s : σ) :
    (dispatchResponse t m session now event s).2 = s ∨
    (dispatchResponse t m session now event s).2 = t.poll s now ∨
    ∃ h r, event.reliable = true ∧ rpcHeaderRead event.payload 2 = .ok h ∧ h.session = session ∧
      Waits t (t.poll s now) m h.operationId r ∧
      (dispatchResponse t m session now event s).2 =
        (t.onResponse (t.poll s now) m.responseMessageId h.operationId h.status event.payload).2 := by
  cases reliable : event.reliable with
  | false => exact .inl (by simp [dispatchResponse, reliable])
  | true =>
    cases read : rpcHeaderRead event.payload 2 with
    | error err => exact .inl (by simp [dispatchResponse, reliable, read])
    | ok h =>
      by_cases long : h.status ≠ 0 ∧ event.payload.length ≠ 20
      · exact .inl (by simp [dispatchResponse, reliable, read, long])
      · by_cases other : h.session ≠ session
        · exact .inl (by simp [dispatchResponse, reliable, read, long, other])
        · right
          rw [ne_eq, not_not] at other
          simp only [dispatchResponse, reliable, read, if_neg long, Bool.not_true,
            Bool.false_eq_true, if_false, other, ne_eq, not_true_eq_false]
          split
          · exact .inl rfl
          · exact .inl rfl
          · rename_i r held
            split
            · exact .inl rfl
            · rename_i ids
              split
              · exact .inl rfl
              · rename_i state
                rw [not_or, not_not, not_not] at ids
                split
                · exact .inl rfl
                · refine .inr ⟨h, r, trivial, rfl, other, ⟨held, ids.1, ids.2, ?_⟩, ?_⟩
                  · by_contra settled
                    exact state (not_or.mp settled)
                  · split <;> rename_i handed <;> rw [handed]

/-- The response that a server finished for a call that waits is never refused: it is decoded, and
handed to the call. -/
theorem dispatch_finished {m : RpcMethod} {h : RpcHeader} {response : Response m.response}
    {capacity : Nat} {payload : List UInt8} {r : ClientResult}
    (finished : finishResponse m h response capacity = .ok payload)
    (accepted : h.session ≠ 0 ∧ h.operationId ≠ 0)
    (waits : Waits t (t.poll s now) m h.operationId r) :
    payload.length ≤ requestCapacity ∧
    (∀ s', t.onResponse (t.poll s now) m.responseMessageId h.operationId h.status payload =
        (.ok (), s') →
      dispatchEvent t h.session now ⟨true, m.responseMessageId, payload⟩ s =
        (⟨.ok, none, none⟩, s')) ∧
    ∀ err s', t.onResponse (t.poll s now) m.responseMessageId h.operationId h.status payload =
        (.error err, s') →
      dispatchEvent t h.session now ⟨true, m.responseMessageId, payload⟩ s =
        (⟨.rpcError, some err, none⟩, s') := by
  obtain ⟨body, whole, failed, -, short⟩ := finishResponse_eq_ok finished
  have read : rpcHeaderRead payload 2 = .ok h :=
    rpcHeaderRead_eq_ok.mpr ⟨⟨accepted.1, accepted.2, by simp⟩, body, whole⟩
  have sized : ¬(h.status ≠ 0 ∧ payload.length ≠ 20) := by
    rintro ⟨unsuccessful, long⟩
    rw [whole, failed unsuccessful, List.append_nil] at long
    exact long (length_rpcHeaderWrite 2 h)
  have ids : ¬(r.requestMessageId ≠ m.requestMessageId ∨
      r.responseMessageId ≠ m.responseMessageId) := by
    rw [waits.request, waits.response]
    simp
  have state : ¬(r.state ≠ .linkPending ∧ r.state ≠ .waitResponse) := by
    rcases waits.pending with pending | pending <;> simp [pending]
  have turn : dispatchEvent t h.session now ⟨true, m.responseMessageId, payload⟩ s =
      dispatchResponse t m h.session now ⟨true, m.responseMessageId, payload⟩ s := by
    rw [dispatchEvent, m.find_response]
  refine ⟨short, fun s' handed => ?_, fun err s' handed => ?_⟩
  · rw [turn, dispatchResponse]
    simp only [Bool.not_true, Bool.false_eq_true, if_false, read, sized, ne_eq, not_true_eq_false,
      waits.held, if_neg ids, if_neg state, decodeResponse_finished finished, handed]
  · rw [turn, dispatchResponse]
    simp only [Bool.not_true, Bool.false_eq_true, if_false, read, sized, ne_eq, not_true_eq_false,
      waits.held, if_neg ids, if_neg state, decodeResponse_finished finished, handed]

end Dispatch

/-- A response that a server finished. -/
structure Answer where
  method : RpcMethod
  header : RpcHeader
  response : Response method.response
  capacity : Nat
  payload : List UInt8
  finished : finishResponse method header response capacity = .ok payload

theorem Answer.header_read (a : Answer) (h : RpcHeader)
    (read : rpcHeaderRead a.payload 2 = .ok h) : a.header = h := by
  obtain ⟨body, whole, -⟩ := finishResponse_eq_ok a.finished
  rw [whole, rpcHeaderRead_write] at read
  split at read
  · contradiction
  · exact Except.ok.inj read

/-- A client and everything that servers ever answered. -/
structure Calls (σ : Type) where
  table : σ
  answers : List Answer

/-- A server answers a request, of this session or of another; an answer arrives, which may have
arrived before; the endpoint calls its client. -/
inductive Action (ω : Type) where
  | answer (m : RpcMethod) (h : RpcHeader) (response : Response m.response) (capacity : Nat)
  | deliver (index : Nat) (reliable : Bool) (now : Nat)
  | own (op : ω)

section Runs
variable {σ ω : Type} (t : ClientTable σ ω) (session : UInt64) (start : σ)

def Calls.step (w : Calls σ) : Action ω → Option (Calls σ × Option RuntimeResult)
  | .answer m h response capacity =>
    match finished : finishResponse m h response capacity with
    | .error _ => none
    | .ok payload =>
      some ({ w with answers := ⟨m, h, response, capacity, payload, finished⟩ :: w.answers }, none)
  | .deliver index reliable now =>
    match w.answers[index]? with
    | none => none
    | some a =>
      let (result, table) :=
        dispatchEvent t session now ⟨reliable, a.method.responseMessageId, a.payload⟩ w.table
      some ({ w with table }, some result)
  | .own op => some ({ w with table := t.own op w.table }, none)

def calls : Transition.Machine (Calls σ) (Action ω) (Option RuntimeResult) :=
  ⟨⟨start, []⟩, Calls.step t session⟩

/-- What the runtime relies on of the client: that only a response completes a call, with what it
was handed, where it succeeds. -/
structure Lawful : Prop where
  started : ∀ op r, t.get start op = .ok r → r.state ≠ .completed
  poll : ∀ s now op r, t.get (t.poll s now) op = .ok r → r.state = .completed → t.get s op = .ok r
  own : ∀ s call op r, t.get (t.own call s) op = .ok r → r.state = .completed → t.get s op = .ok r
  onResponse : ∀ s id op status data op' r',
    t.get (t.onResponse s id op status data).2 op' = .ok r' → r'.state = .completed →
      t.get s op' = .ok r' ∨ op' = op ∧ status = 0 ∧ r'.response = data ∧
        ∃ r, t.get s op = .ok r ∧ r'.requestMessageId = r.requestMessageId
  success : ∀ r, t.success r = true → r.state = .completed

/-- Each call that is completed holds an answer to it. -/
def Answered (w : Calls σ) : Prop :=
  ∀ op r, t.get w.table op = .ok r → r.state = .completed → ∃ a ∈ w.answers,
    r.requestMessageId = a.method.requestMessageId ∧ a.header = ⟨op, 0, session⟩ ∧
      r.response = a.payload

variable {t session start}

theorem answered_step {w w' : Calls σ} {a : Action ω} {result : Option RuntimeResult}
    (lawful : Lawful t start) (held : Answered t session w)
    (stepped : w.step t session a = some (w', result)) : Answered t session w' := by
  cases a with
  | answer m h response capacity =>
    simp only [Calls.step] at stepped
    split at stepped
    · contradiction
    · cases stepped
      intro op r got done
      obtain ⟨a, member, rest⟩ := held op r got done
      exact ⟨a, List.mem_cons_of_mem _ member, rest⟩
  | own call =>
    cases stepped
    exact fun op r got done => held op r (lawful.own _ _ _ _ got done) done
  | deliver index reliable now =>
    simp only [Calls.step] at stepped
    split at stepped
    · contradiction
    · rename_i a found
      cases stepped
      have member := List.mem_of_getElem? found
      intro op r got done
      simp only [dispatchEvent, a.method.find_response] at got
      rcases dispatchResponse_cases t a.method session now
        ⟨reliable, a.method.responseMessageId, a.payload⟩ w.table with
        same | polled | ⟨h, waiting, -, read, this, waits, handed⟩
      · exact held op r (same ▸ got) done
      · exact held op r (lawful.poll _ _ _ _ (polled ▸ got) done) done
      · rw [handed] at got
        rcases lawful.onResponse _ _ _ _ _ _ _ got done with
          before | ⟨rfl, success, data, r', got', same⟩
        · exact held op r (lawful.poll _ _ _ _ before done) done
        · have equal := waits.held.symm.trans got'
          cases equal
          have header := Answer.header_read a h read
          refine ⟨a, member, same.trans waits.request, ?_, data⟩
          obtain ⟨operation, status, _⟩ := h
          cases this
          cases success
          exact header

/-- A call that succeeds is given the response that a server finished for its operation in its
session, in whatever order the answers arrived, however often, and whatever else was answered. -/
theorem completion_answered (lawful : Lawful t start)
    {es : List (Transition.Entry (Calls σ) (Action ω) (Option RuntimeResult))} {w : Calls σ}
    (run : Transition.Run (calls t session start) es w) {op : UInt32} {r : ClientResult}
    {m : RpcMethod} {value : OwnedSlots} (held : t.get w.table op = .ok r)
    (service : r.requestMessageId = m.requestMessageId) (done : prepare t m r = some value) :
    ∃ a ∈ w.answers, a.method = m ∧ a.header = ⟨op, 0, session⟩ ∧ value = a.response.received := by
  have answered : Answered t session w := by
    apply run.invariant (P := Answered t session)
    · exact fun op r got done => absurd done (lawful.started op r got)
    · exact fun held stepped => answered_step lawful held stepped
  rw [prepare] at done
  split at done
  · rename_i succeeded
    obtain ⟨a, member, ids, header, payload⟩ := answered op r held (lawful.success r succeeded)
    obtain rfl := RpcMethod.requestMessageId_inj.mp (ids.symm.trans service)
    obtain ⟨body, whole, -, read, -⟩ := finishResponse_eq_ok a.finished
    have decoded := read (by rw [header])
    split at done
    · contradiction
    · rw [payload, whole, drop_header, decoded] at done
      exact ⟨a, member, rfl, header, (Option.some.inj done).symm⟩
  · contradiction

end Runs

section OneCall

/-- A client that keeps one call. -/
def oneCall : ClientTable (Option (UInt32 × ClientResult)) (UInt32 × RpcMethod) where
  get s op :=
    match s with
    | some (id, r) => if id = op then .ok r else .error .notFound
    | none => .error .notFound
  poll s _ := s
  onResponse s id op status data :=
    match s with
    | some (op', r) =>
      if op' = op ∧ r.responseMessageId = id then
        (.ok (), some (op', { r with
          state := if status = 0 then .completed else .applicationError
          applicationStatus := status
          response := data }))
      else (.error .notFound, s)
    | none => (.error .notFound, s)
  own call _ :=
    some (call.1, ⟨call.2.requestMessageId, call.2.responseMessageId, .waitResponse, 0, []⟩)
  success r := r.state == .completed

theorem oneCall_lawful : Lawful oneCall none where
  started op r got := by simp [oneCall] at got
  poll _ _ _ _ got _ := got
  own s call op r got done := by
    simp only [oneCall] at got
    split at got
    · cases got
      contradiction
    · contradiction
  onResponse s id op status data op' r' got done := by
    cases s with
    | none => simp [oneCall] at got
    | some call =>
      obtain ⟨held, r⟩ := call
      simp only [oneCall] at got ⊢
      by_cases matching : held = op ∧ r.responseMessageId = id
      · right
        rw [if_pos matching] at got
        obtain ⟨rfl, -⟩ := matching
        by_cases this : held = op'
        · subst this
          simp only [if_true, Except.ok.injEq] at got
          subst got
          by_cases succeeded : status = 0
          · exact ⟨rfl, succeeded, rfl, r, if_pos rfl, rfl⟩
          · simp [succeeded] at done
        · simp [this] at got
      · left
        rw [if_neg matching] at got
        exact got
  success r done := by simpa [oneCall] using done

theorem home_dispatched :
    dispatchEvent oneCall 5 0 ⟨true, 25090, rpcHeaderWrite 2 ⟨7, 0, 5⟩⟩
      (some (7, ⟨25089, 25090, .waitResponse, 0, []⟩)) =
        (⟨.ok, none, none⟩, some (7, ⟨25089, 25090, .completed, 0, rpcHeaderWrite 2 ⟨7, 0, 5⟩⟩)) :=
  (dispatch_finished
    (show finishResponse .home ⟨7, 0, 5⟩ (.owned ⟨[], rfl⟩) 226 =
      .ok (rpcHeaderWrite 2 ⟨7, 0, 5⟩) by decide +kernel)
    (by decide) ⟨rfl, rfl, rfl, .inr rfl⟩).2.1 _ rfl

/-- A call that is started, answered and completed. -/
def homeCall : List (Action (UInt32 × RpcMethod)) :=
  [.own (7, .home), .answer .home ⟨7, 0, 5⟩ (.owned ⟨[], rfl⟩) 226, .deliver 0 true 0]

theorem homeCall_runs : (Transition.exec (calls oneCall 5 none) homeCall []
    (calls oneCall 5 none).init).isSome = true := by
  decide +kernel

theorem homeCall_answered :
    ∃ a ∈ ((Transition.exec (calls oneCall 5 none) homeCall []
        (calls oneCall 5 none).init).get homeCall_runs).2.answers,
      a.method = .home ∧ a.header = ⟨7, 0, 5⟩ ∧ [] = a.response.received :=
  completion_answered oneCall_lawful (Transition.exec_get homeCall_runs)
    (show oneCall.get _ 7 = .ok ⟨25089, 25090, .completed, 0, rpcHeaderWrite 2 ⟨7, 0, 5⟩⟩ by
      decide +kernel) (by rfl) (by rfl)

end OneCall

end Florid.Rpc
