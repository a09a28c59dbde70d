import Mathlib.Order.Bounds.Defs
import Florid.Codec.Fingerprint

/-! The largest encoding of a descriptor's messages, and the descriptors of the protocol. -/
namespace Florid.Codec

/-- The most bytes that a scalar takes. -/
def Kind.maxSize {δ : Type} (kind : Kind δ) : Nat :=
  if kind.width ≠ 0 then kind.width else wlcVsize (kind.range - 1)

mutual
/-- The most bytes that a message takes, where its spans are bounded. -/
def maxEncoded : WlcDesc → Option Nat
  | .mk fields _ => maxFields fields

def maxFields : List (WlcField WlcDesc) → Option Nat
  | [] => some 0
  | f :: fields => do
    let first ← maxField f
    let rest ← maxFields fields
    some (f.keySize + first + rest)

def maxField : WlcField WlcDesc → Option Nat
  | ⟨row, kind⟩ =>
    match row.card with
    | .packed =>
      some (wlcVsize (row.element * row.packedCount) + row.element * row.packedCount)
    | .optional => maxValue row kind

def maxValue (row : WlcRow) : Kind WlcDesc → Option Nat
  | .bytes | .string =>
    if row.maxLength = 0 then none else some (wlcVsize row.maxLength + row.maxLength)
  | .message nested => do
    let child ← maxEncoded nested
    some (wlcVsize child + child)
  | kind => some kind.maxSize
end

mutual
/-- A message whose every field takes the most bytes. -/
def largest : WlcDesc → Slots
  | .mk fields _ => largestFields fields

def largestFields : List (WlcField WlcDesc) → Slots
  | [] => []
  | f :: fields => ⟨true, largestField f⟩ :: largestFields fields

def largestField : WlcField WlcDesc → Value
  | ⟨row, kind⟩ =>
    match row.card with
    | .packed => .elements (List.replicate row.packedCount 0)
    | .optional => largestValue row kind

/-- The least of the signed numbers has the longest varint. -/
def largestValue (row : WlcRow) : Kind WlcDesc → Value
  | .bytes | .string => .span (List.replicate row.maxLength 0x41)
  | .message nested => .message (largest nested)
  | .i8 => .word (2 ^ 7)
  | .i16 => .word (2 ^ 15)
  | .i32 | .enum => .word (2 ^ 31)
  | .i64 => .word (2 ^ 63)
  | kind => .word (kind.range - 1)
end

section Bound

theorem varintOf_lt_range {kind : Kind WlcDesc} {bits v : Nat} (small : bits < kind.range)
    (held : varintOf kind bits = some v) : v < kind.range := by
  cases kind <;> simp only [varintOf, Option.some.injEq, reduceCtorEq, wlcZ32_eq_encode,
    wlcZ64_eq_encode, Int8.toInt_toInt32, Int16.toInt_toInt32] at held
  case bool => exact held ▸ small
  case u8 => exact held ▸ UInt8.toNat_lt _
  case u16 => exact held ▸ UInt16.toNat_lt _
  case u32 => exact held ▸ UInt32.toNat_lt _
  case u64 => exact held ▸ UInt64.toNat_lt _
  case i8 => exact held ▸ encode_toInt_lt (UInt8.ofNat bits).toBitVec
  case i16 => exact held ▸ encode_toInt_lt (UInt16.ofNat bits).toBitVec
  case i64 => exact held ▸ encode_toInt_lt (UInt64.ofNat bits).toBitVec
  all_goals exact held ▸ encode_toInt_lt (UInt32.ofNat bits).toBitVec

theorem payloadValue_scalar_le {kind : Kind WlcDesc} {bits : Nat} (small : bits < kind.range) :
    (payloadValue kind (.word bits)).length ≤ kind.maxSize := by
  cases held : varintOf kind bits with
  | some v =>
    have bound := wlcVsize_mono (Nat.le_sub_one_of_lt (varintOf_lt_range small held))
    have narrow : kind.width = 0 := by cases kind <;> simp_all [varintOf, Kind.width]
    have written : payloadValue kind (.word bits) = wlcPutv v := by
      cases kind <;> simp_all [payloadValue, varintOf]
    rw [written, ← wlcVsize_eq_length, Kind.maxSize, if_neg (by simp [narrow])]
    exact bound
  | none =>
    have wide : kind.width ≠ 0 := by cases kind <;> simp_all [varintOf, Kind.width, Kind.range]
    have written : payloadValue kind (.word bits) = BigEndian.encode kind.width bits := by
      cases kind <;> simp_all [payloadValue, varintOf]
    rw [written, BigEndian.length_encode, Kind.maxSize, if_pos wide]

/-- No complete message of a descriptor takes more than this. -/
def Bounded (d : WlcDesc) : Prop :=
  ∀ slots most, maxEncoded d = some most → typed d slots = true → complete false d slots = true →
    (canonical d slots).length ≤ most

theorem maxField_bound {f : WlcField WlcDesc} {value : Value} {most : Nat} (fits : f.fits = true)
    (bound : maxField f = some most) (fitting : typedField f value = true)
    (whole : completeField false f value = true)
    (nested : ∀ inner, f.kind = .message inner → Bounded inner) :
    (payload f value).length ≤ most := by
  cases card : f.card with
  | packed =>
    obtain ⟨bits, -, count, -, written⟩ := payload_packed card fitting
    obtain ⟨row, kind⟩ := f
    simp only at card
    simp only [maxField, card, Option.some.injEq] at bound
    rw [written, List.length_append, length_elements, count, ← wlcVsize_eq_length, ← bound]
  | optional =>
    obtain ⟨row, kind⟩ := f
    simp only at card nested
    simp only [maxField, card] at bound
    simp only [typedField, card] at fitting
    simp only [completeField, card] at whole
    simp only [payload, card]
    cases value with
    | word bits =>
      have small := typedValue_word.mp fitting
      have scalar : maxValue row kind = some kind.maxSize := by
        cases kind <;> simp_all [maxValue, Kind.range]
      rw [scalar, Option.some.injEq] at bound
      exact bound ▸ payloadValue_scalar_le small
    | elements bits => cases kind <;> simp [typedValue] at fitting
    | span bytes =>
      have span : maxValue row kind =
            (if row.maxLength = 0 then none else some (wlcVsize row.maxLength + row.maxLength)) ∧
          payloadValue kind (.span bytes) = wlcPutv bytes.length ++ bytes ∧
          (row.maxLength ≠ 0 → bytes.length ≤ row.maxLength) := by
        cases kind <;> simp only [typedValue, Bool.false_eq_true] at fitting
        all_goals
          simp only [completeValue, checkSpan_isOk] at whole
          exact ⟨rfl, rfl, fun limited => by have := whole.1; omega⟩
      obtain ⟨limit, written, short⟩ := span
      rw [limit, Option.ite_none_left_eq_some, Option.some.injEq] at bound
      obtain ⟨limited, rfl⟩ := bound
      have size := wlcVsize_mono (short limited)
      have := short limited
      rw [written, List.length_append, ← wlcVsize_eq_length]
      omega
    | message slots =>
      cases kind <;> simp only [typedValue, Bool.false_eq_true] at fitting
      rename_i inner
      simp only [completeValue] at whole
      simp only [maxValue, Option.bind_eq_bind, Option.bind_eq_some_iff, Option.some.injEq] at bound
      obtain ⟨child, room, rfl⟩ := bound
      have short := nested inner rfl slots child room fitting whole
      have size := wlcVsize_mono short
      rw [payloadValue, List.length_append, ← wlcVsize_eq_length]
      omega

theorem bounded {d : WlcDesc} (fits : wellFormed d = true) : Bounded d := by
  induction d using WlcDesc.induct with
  | step d ih =>
    obtain ⟨fields, lookup⟩ := d
    obtain ⟨-, each⟩ := wellFormed_iff.mp fits
    intro slots most bound fitting whole
    rw [maxEncoded] at bound
    rw [typed] at fitting
    rw [complete] at whole
    rw [canonical]
    clear fits
    induction fields generalizing slots most with
    | nil => cases slots <;> simp [canonicalFields]
    | cons f fields rest =>
      cases slots with
      | nil => simp [canonicalFields]
      | cons slot slots =>
        rw [typedFields, Bool.and_eq_true] at fitting
        rw [completeFields, Bool.and_eq_true] at whole
        simp only [maxFields, Option.bind_eq_bind, Option.bind_eq_some_iff, Option.some.injEq]
          at bound
        obtain ⟨first, here, others, room, rfl⟩ := bound
        obtain ⟨⟨row, inner⟩, rows⟩ := List.forall_mem_cons.mp each
        obtain ⟨child, children⟩ := List.forall_mem_cons.mp ih
        have tail := rest children rows slots others room fitting.2 whole.2
        rw [canonicalFields, List.length_append]
        cases has : slot.has with
        | false =>
          simp only [Bool.false_eq_true, if_false, List.length_nil]
          omega
        | true =>
          have head := whole.1
          rw [has, if_pos rfl] at head
          have short := maxField_bound row here fitting.1 head fun nested same =>
            child nested same (inner nested same)
          rw [if_pos rfl, List.length_append, (wlcPutKey_eq row).2.2]
          omega

theorem wlcUtf8_ascii (n : Nat) : wlcUtf8 (List.replicate n 0x41) = true := by
  induction n with
  | zero => simp [wlcUtf8]
  | succ n ih =>
    rw [List.replicate_succ]
    exact wlcUtf8_cons.mpr (Or.inl ⟨by decide, ih⟩)

/-- The descriptor has a complete message of this many bytes. -/
structure Attains (d : WlcDesc) (most : Nat) : Prop where
  fitting : typed d (largest d) = true
  whole : complete false d (largest d) = true
  length : (canonical d (largest d)).length = most

theorem largestField_attains {f : WlcField WlcDesc} {most : Nat} (fits : f.fits = true)
    (bound : maxField f = some most)
    (nested : ∀ inner, f.kind = .message inner → ∀ child, maxEncoded inner = some child →
      Attains inner child) :
    typedField f (largestField f) = true ∧ completeField false f (largestField f) = true ∧
      (payload f (largestField f)).length = most := by
  cases card : f.card with
  | packed =>
    obtain ⟨-, wide, element, -⟩ := packed_fits fits card
    obtain ⟨row, kind⟩ := f
    simp only at card element wide
    simp only [maxField, card, Option.some.injEq] at bound
    simp only [typedField, completeField, largestField, payload, card, List.length_append,
      length_elements, List.length_replicate, ← wlcVsize_eq_length, bound]
    simp
  | optional =>
    obtain ⟨row, kind⟩ := f
    simp only at card nested
    simp only [maxField, card] at bound
    simp only [typedField, completeField, largestField, payload, card]
    cases kind
    case message inner =>
      simp only [maxValue, Option.bind_eq_bind, Option.bind_eq_some_iff, Option.some.injEq] at bound
      obtain ⟨child, room, rfl⟩ := bound
      obtain ⟨fitting, whole, length⟩ := nested inner rfl child room
      refine ⟨fitting, whole, ?_⟩
      rw [largestValue, payloadValue, List.length_append, length, ← wlcVsize_eq_length]
    case bytes | string =>
      simp only [maxValue, Option.ite_none_left_eq_some, Option.some.injEq] at bound
      obtain ⟨-, rfl⟩ := bound
      refine ⟨rfl, ?_, ?_⟩
      · simp [largestValue, completeValue, checkSpan_isOk, wlcUtf8_ascii]
      · simp [largestValue, payloadValue, ← wlcVsize_eq_length]
    all_goals
      simp only [maxValue, Option.some.injEq] at bound
      subst bound
      refine ⟨rfl, rfl, ?_⟩
      simp only [largestValue]
      decide +kernel

theorem attains {d : WlcDesc} {most : Nat} (fits : wellFormed d = true)
    (bound : maxEncoded d = some most) : Attains d most := by
  induction d using WlcDesc.induct generalizing most with
  | step d ih =>
    obtain ⟨fields, lookup⟩ := d
    obtain ⟨-, each⟩ := wellFormed_iff.mp fits
    rw [maxEncoded] at bound
    suffices whole : typedFields fields (largestFields fields) = true ∧
        completeFields false fields (largestFields fields) = true ∧
        (canonicalFields fields (largestFields fields)).length = most from
      ⟨by rw [typed, largest, whole.1], by rw [complete, largest, whole.2.1],
        by rw [canonical, largest, whole.2.2]⟩
    clear fits
    induction fields generalizing most with
    | nil => exact ⟨rfl, rfl, by simpa [maxFields, largestFields, canonicalFields] using bound⟩
    | cons f fields rest =>
      simp only [maxFields, Option.bind_eq_bind, Option.bind_eq_some_iff, Option.some.injEq]
        at bound
      obtain ⟨first, here, others, room, rfl⟩ := bound
      obtain ⟨⟨row, inner⟩, rows⟩ := List.forall_mem_cons.mp each
      obtain ⟨child, children⟩ := List.forall_mem_cons.mp ih
      obtain ⟨fitting, whole, length⟩ := rest children room rows
      obtain ⟨fitting', whole', length'⟩ := largestField_attains row here fun nested same most bound =>
        child nested same (inner nested same) bound
      rw [largestFields, typedFields, completeFields, canonicalFields, Bool.and_eq_true,
        Bool.and_eq_true, if_pos rfl, if_pos rfl, List.length_append, List.length_append,
        (wlcPutKey_eq row).2.2, length, length']
      exact ⟨⟨fitting', fitting⟩, ⟨whole', whole⟩, rfl⟩

end Bound

section Protocol

/-- A row of an optional field, whose key is one byte. -/
def single (number : Nat) (kind : Kind WlcDesc) (required : Bool) (wire : Nat) (key : UInt8)
    (maxLength : Nat := 0) : WlcField WlcDesc where
  number
  card := .optional
  required
  wire
  keySize := 1
  key := [key, 0, 0]
  element := 0
  maxLength
  kind

/-- A row of an array. -/
def packed (number : Nat) (kind : Kind WlcDesc) (required : Bool) (key : UInt8)
    (element packedCount : Nat) : WlcField WlcDesc where
  number
  card := .packed
  required
  wire := 2
  keySize := 1
  key := [key, 0, 0]
  element
  packedCount
  kind

def semanticVersionDesc : WlcDesc :=
  ⟨[single 1 .u32 true 0 8, single 2 .u32 true 0 16, single 3 .u32 true 0 24], .linear⟩

def version : Slots := [⟨true, .word 1⟩, ⟨true, .word 2⟩, ⟨true, .word 300⟩]

theorem version_written :
    wlcEncode semanticVersionDesc version 7 = .ok [8, 1, 16, 2, 24, 172, 2] := by
  decide +kernel

theorem version_read : wlcDecode semanticVersionDesc [8, 1, 16, 2, 24, 172, 2] = .ok version := by
  have small : canonical semanticVersionDesc version = [8, 1, 16, 2, 24, 172, 2] := by
    decide +kernel
  have read : wlcDecode semanticVersionDesc (canonical semanticVersionDesc version) = .ok version :=
    decodes (by decide +kernel) version rfl rfl (by rw [small]; decide)
  rwa [small] at read

theorem version_decoded : wlcDecode semanticVersionDesc [8, 1, 16, 2, 24, 172, 2] = .ok version :=
  decode_of_encode (by decide +kernel) ⟨version, rfl⟩ version_written

theorem version_encoded : typed semanticVersionDesc version = true ∧
    ∃ bytes, wlcEncode semanticVersionDesc version 7 = .ok bytes ∧
      wlcDecode semanticVersionDesc bytes = .ok version :=
  encode_of_decode (by decide +kernel) (by decide) version_read

theorem version_fingerprint : ∃ bytes, wlcEncode semanticVersionDesc version 7 = .ok bytes ∧
    fingerprint semanticVersionDesc version 7 = .ok (bytes.foldl hashByte 7, bytes.length) :=
  fingerprint_of_decode 7 (by decide +kernel) (by decide) version_read

/-- A record of a number, as all fields of a version are. -/
def numeral (number v : Nat) (numbered : 1 ≤ number ∧ number ≤ 65535) (word : v < 2 ^ 64) : Record :=
  ⟨number, 0, wlcPutv v, numbered, .inl ⟨rfl, v, word, rfl⟩⟩

def majorRecord : Record := numeral 1 1 (by decide) (by decide)
def minorRecord : Record := numeral 2 2 (by decide) (by decide)
def patchRecord : Record := numeral 3 300 (by decide) (by decide)
def laterRecord : Record := numeral 9 5 (by decide) (by decide)

theorem version_shuffled :
    wlcDecode semanticVersionDesc
      ([patchRecord, laterRecord, majorRecord, minorRecord].flatMap Record.bytes) = .ok version ↔
    wlcDecode semanticVersionDesc
      ([majorRecord, minorRecord, patchRecord].flatMap Record.bytes) = .ok version :=
  wlcDecode_known (by decide +kernel)
    (show [patchRecord, majorRecord, minorRecord].Perm [majorRecord, minorRecord, patchRecord] from
      @List.perm_append_comm _ [patchRecord] [majorRecord, minorRecord])

def deviceInfoDesc : WlcDesc :=
  ⟨[single 1 (.message semanticVersionDesc) true 2 10,
    single 2 (.message semanticVersionDesc) true 2 18, single 3 .string true 2 26 31,
    single 4 .string true 2 34 31, single 5 .enum true 0 40, single 6 .string true 2 50 31,
    single 7 .f64 false 1 57], .linear⟩

def deviceSettingsDesc : WlcDesc :=
  ⟨[single 1 .f32 true 5 13, packed 2 .float32 true 18 4 6, packed 3 .float32 true 26 4 7,
    packed 4 .float32 true 34 4 7, packed 5 .float32 true 42 4 7, packed 6 .float32 true 50 4 7,
    packed 7 .float32 true 58 4 6, packed 8 .float32 true 66 4 6], .linear⟩

def armStatusDesc : WlcDesc :=
  ⟨[single 1 .enum true 0 8, single 2 .f32 true 5 21, single 3 .f64 true 1 25,
    packed 4 .float32 true 34 4 6, packed 5 .float32 true 42 4 6, packed 6 .float32 true 50 4 6,
    packed 7 .float32 true 58 4 3, single 8 .float32 true 5 69, single 9 .float32 true 5 77,
    single 10 .float32 true 5 85, packed 11 .float32 true 90 4 16, packed 12 .float32 true 98 4 6,
    single 13 .f32 true 5 109, single 14 .f64 true 1 113], .dense⟩

theorem armStatus_located :
    locate armStatusDesc 3 9 = wlcFindField ⟨armStatusDesc.fields, .linear⟩ 9 :=
  locate_linear 3 (by decide +kernel) (by decide)

def motorFeedbackDesc : WlcDesc :=
  ⟨[packed 1 .float32 true 10 4 7, packed 2 .float32 true 18 4 7, packed 3 .float32 true 26 4 7,
    packed 4 .float32 true 34 4 7, single 5 .f32 true 5 45, single 6 .u8 true 0 48], .linear⟩

def armDiagnosticsDesc : WlcDesc :=
  ⟨[single 1 .f32 true 5 13, single 2 .f32 true 5 21, single 3 .f32 true 5 29,
    single 4 .bool true 0 32, single 5 .u8 true 0 40, single 6 .u16 true 0 48,
    single 7 .u16 true 0 56, single 8 .u8 true 0 64, packed 9 .float32 true 74 4 6,
    single 10 .bool true 0 80, single 11 .float32 true 5 93, single 12 .u8 true 0 96], .dense⟩

def setZeroRequestDesc : WlcDesc :=
  ⟨[single 2 .u8 true 0 16], .linear⟩

def setZeroResponseDesc : WlcDesc :=
  ⟨[], .linear⟩

def clearErrorRequestDesc : WlcDesc :=
  ⟨[single 2 .u8 true 0 16], .linear⟩

def clearErrorResponseDesc : WlcDesc :=
  ⟨[], .linear⟩

def homeRequestDesc : WlcDesc :=
  ⟨[], .linear⟩

def homeResponseDesc : WlcDesc :=
  ⟨[], .linear⟩

def clearFaultsRequestDesc : WlcDesc :=
  ⟨[], .linear⟩

def clearFaultsResponseDesc : WlcDesc :=
  ⟨[], .linear⟩

def acquireControlLeaseRequestDesc : WlcDesc :=
  ⟨[single 2 .f32 true 5 21, single 3 .f64 false 1 25], .linear⟩

def acquireControlLeaseResponseDesc : WlcDesc :=
  ⟨[single 3 .f64 false 1 25, single 4 .f32 false 5 37], .linear⟩

def releaseControlLeaseRequestDesc : WlcDesc :=
  ⟨[single 2 .f64 true 1 17], .linear⟩

def releaseControlLeaseResponseDesc : WlcDesc :=
  ⟨[], .linear⟩

def getMotorFeedbackRequestDesc : WlcDesc :=
  ⟨[], .linear⟩

def getMotorFeedbackResponseDesc : WlcDesc :=
  ⟨[single 3 (.message motorFeedbackDesc) false 2 26], .linear⟩

def getDeviceInfoRequestDesc : WlcDesc :=
  ⟨[], .linear⟩

def getDeviceInfoResponseDesc : WlcDesc :=
  ⟨[single 3 (.message deviceInfoDesc) false 2 26], .linear⟩

def setDeviceInfoRequestDesc : WlcDesc :=
  ⟨[single 2 .string true 2 18 31], .linear⟩

def setDeviceInfoResponseDesc : WlcDesc :=
  ⟨[], .linear⟩

def setArmControlModeRequestDesc : WlcDesc :=
  ⟨[single 2 .enum true 0 16], .linear⟩

def setArmControlModeResponseDesc : WlcDesc :=
  ⟨[], .linear⟩

def setGripperControlModeRequestDesc : WlcDesc :=
  ⟨[single 2 .enum true 0 16], .linear⟩

def setGripperControlModeResponseDesc : WlcDesc :=
  ⟨[], .linear⟩

def motorRegisterReadRequestDesc : WlcDesc :=
  ⟨[single 2 .u8 true 0 16, single 3 .u8 true 0 24], .linear⟩

def motorRegisterReadResponseDesc : WlcDesc :=
  ⟨[single 3 .u8 false 0 24, single 4 .u8 false 0 32, single 5 .float32 false 5 45], .linear⟩

def motorRegisterWriteRequestDesc : WlcDesc :=
  ⟨[single 2 .u8 true 0 16, single 3 .u8 true 0 24, single 4 .float32 true 5 37], .linear⟩

def motorRegisterWriteResponseDesc : WlcDesc :=
  ⟨[], .linear⟩

def motorStoreParametersRequestDesc : WlcDesc :=
  ⟨[single 2 .u8 true 0 16], .linear⟩

def motorStoreParametersResponseDesc : WlcDesc :=
  ⟨[], .linear⟩

def motorSetZeroRequestDesc : WlcDesc :=
  ⟨[single 2 .u8 true 0 16], .linear⟩

def motorSetZeroResponseDesc : WlcDesc :=
  ⟨[], .linear⟩

def setArmModeRequestDesc : WlcDesc :=
  ⟨[single 2 .enum true 0 16], .linear⟩

def setArmModeResponseDesc : WlcDesc :=
  ⟨[], .linear⟩

def getDeviceSettingsRequestDesc : WlcDesc :=
  ⟨[], .linear⟩

def getDeviceSettingsResponseDesc : WlcDesc :=
  ⟨[single 3 (.message deviceSettingsDesc) false 2 26], .linear⟩

def setDeviceSettingsRequestDesc : WlcDesc :=
  ⟨[single 2 (.message deviceSettingsDesc) true 2 18], .linear⟩

def setDeviceSettingsResponseDesc : WlcDesc :=
  ⟨[single 3 (.message deviceSettingsDesc) false 2 26], .linear⟩

def jointMitCommandDesc : WlcDesc :=
  ⟨[packed 1 .float32 true 10 4 6, packed 2 .float32 true 18 4 6, packed 3 .float32 true 26 4 6,
    packed 4 .float32 true 34 4 6, packed 5 .float32 true 42 4 6, single 6 .f32 true 5 53,
    single 7 .f32 true 5 61, single 8 .bool true 0 64, single 9 .f64 true 1 73,
    single 10 .f64 true 1 81], .dense⟩

def emergencyStopRequestDesc : WlcDesc :=
  ⟨[], .linear⟩

def emergencyStopResponseDesc : WlcDesc :=
  ⟨[], .linear⟩

def gripperMitCommandDesc : WlcDesc :=
  ⟨[single 1 .float32 true 5 13, single 2 .float32 true 5 21, single 3 .float32 true 5 29,
    single 4 .float32 true 5 37, single 5 .float32 true 5 45, single 6 .f32 true 5 53,
    single 7 .f32 true 5 61, single 8 .bool true 0 64, single 9 .f64 true 1 73,
    single 10 .f64 true 1 81], .dense⟩

def jointPositionVelocityCommandDesc : WlcDesc :=
  ⟨[packed 1 .float32 true 10 4 6, packed 2 .float32 true 18 4 6, single 3 .u8 true 0 24,
    single 4 .f32 true 5 37, single 5 .f64 true 1 41, single 6 .f64 true 1 49], .linear⟩

def jointVelocityCommandDesc : WlcDesc :=
  ⟨[packed 1 .float32 true 10 4 6, single 2 .u8 true 0 16, single 3 .f32 true 5 29,
    single 4 .f64 true 1 33, single 5 .f64 true 1 41], .linear⟩

def jointPvtCommandDesc : WlcDesc :=
  ⟨[packed 1 .float32 true 10 4 6, packed 2 .float32 true 18 4 6, packed 3 .float32 true 26 4 6,
    single 4 .u8 true 0 32, single 5 .f32 true 5 45, single 6 .f64 true 1 49,
    single 7 .f64 true 1 57], .linear⟩

def cartesianPoseCommandDesc : WlcDesc :=
  ⟨[packed 1 .float32 true 10 4 16, packed 2 .float32 true 18 4 6, packed 3 .float32 true 26 4 6,
    single 4 .f32 true 5 37, single 5 .f32 true 5 45, single 6 .bool true 0 48,
    single 7 .f64 true 1 57, single 8 .f64 true 1 65], .linear⟩

def cartesianVelocityCommandDesc : WlcDesc :=
  ⟨[packed 1 .float32 true 10 4 6, packed 2 .float32 true 18 4 6, packed 3 .float32 true 26 4 6,
    single 4 .f32 true 5 37, single 5 .f32 true 5 45, single 6 .bool true 0 48,
    single 7 .f64 true 1 57, single 8 .f64 true 1 65], .linear⟩

def gripperPositionVelocityCommandDesc : WlcDesc :=
  ⟨[single 1 .float32 true 5 13, single 2 .float32 true 5 21, single 3 .f32 true 5 29,
    single 4 .f64 true 1 33, single 5 .f64 true 1 41], .linear⟩

def gripperVelocityCommandDesc : WlcDesc :=
  ⟨[single 1 .float32 true 5 13, single 2 .f32 true 5 21, single 3 .f64 true 1 25,
    single 4 .f64 true 1 33], .linear⟩

def gripperPvtCommandDesc : WlcDesc :=
  ⟨[single 1 .float32 true 5 13, single 2 .float32 true 5 21, single 3 .float32 true 5 29,
    single 4 .f32 true 5 37, single 5 .f64 true 1 41, single 6 .f64 true 1 49], .linear⟩

def imageVersionDesc : WlcDesc :=
  ⟨[single 1 .u8 true 0 8, single 2 .u8 true 0 16, single 3 .u16 true 0 24,
    single 4 .u32 true 0 32], .linear⟩

def bootStatusInfoDesc : WlcDesc :=
  ⟨[single 1 .u16 true 0 8, single 2 .enum true 0 16, single 3 .enum true 0 24,
    single 4 .enum true 0 32, single 5 .enum true 0 40, single 6 .enum true 0 48,
    single 7 .u16 true 0 56, single 8 .u16 true 0 64, single 9 .f32 true 5 77,
    single 10 .f32 true 5 85, single 11 .f32 true 5 93, single 12 .f32 true 5 101,
    single 13 .f64 true 1 105, single 14 .f32 false 5 117], .dense⟩

def bulkBeginDesc : WlcDesc :=
  ⟨[single 1 .f32 true 5 13, single 2 .f64 true 1 17, single 3 .f32 true 5 29,
    single 4 .f32 true 5 37], .linear⟩

def bulkChunkDesc : WlcDesc :=
  ⟨[single 1 .f32 true 5 13, single 2 .f64 true 1 17, single 3 .bytes true 2 26 2031], .linear⟩

def bulkEndDesc : WlcDesc :=
  ⟨[single 1 .f32 true 5 13, single 2 .f64 true 1 17, single 3 .f32 true 5 29], .linear⟩

def bulkAbortDesc : WlcDesc :=
  ⟨[single 1 .f32 true 5 13, single 2 .i32 true 0 16], .linear⟩

def bulkStatusDesc : WlcDesc :=
  ⟨[single 1 .f32 true 5 13, single 2 .enum true 0 16, single 3 .enum true 0 24,
    single 4 .f64 true 1 33, single 5 .f32 true 5 45], .linear⟩

def getBootStatusRequestDesc : WlcDesc :=
  ⟨[single 1 .u32 true 0 8], .linear⟩

def getBootStatusResponseDesc : WlcDesc :=
  ⟨[single 1 .u32 true 0 8, single 2 .enum true 0 16,
    single 3 (.message bootStatusInfoDesc) false 2 26], .linear⟩

def startUpgradeRequestDesc : WlcDesc :=
  ⟨[single 1 .u32 true 0 8, single 2 .enum true 0 16, single 3 .enum true 0 24,
    single 4 .u8 true 0 32, single 5 (.message imageVersionDesc) true 2 42,
    single 6 .f64 true 1 49, single 7 .f32 true 5 61], .linear⟩

def startUpgradeResponseDesc : WlcDesc :=
  ⟨[single 1 .u32 true 0 8, single 2 .enum true 0 16, single 3 .f32 false 5 29,
    single 4 .f64 false 1 33, single 5 .u16 false 0 40, single 6 .u16 false 0 48], .linear⟩

def rebootRequestDesc : WlcDesc :=
  ⟨[single 1 .u32 true 0 8, single 2 .enum true 0 16], .linear⟩

def rebootResponseDesc : WlcDesc :=
  ⟨[single 1 .u32 true 0 8, single 2 .enum true 0 16, single 3 .enum true 0 24], .linear⟩

/-- A message of the protocol and its `…_MAX_ENCODED_SIZE`. -/
structure MessageType where
  desc : WlcDesc
  maxEncodedSize : Nat

/-- The messages of the protocol, in the order of the generated codec. -/
def protocol : List MessageType := [
  ⟨semanticVersionDesc, 18⟩, ⟨deviceInfoDesc, 154⟩, ⟨deviceSettingsDesc, 203⟩,
  ⟨armStatusDesc, 233⟩, ⟨motorFeedbackDesc, 128⟩, ⟨armDiagnosticsDesc, 67⟩,
  ⟨setZeroRequestDesc, 3⟩, ⟨setZeroResponseDesc, 0⟩, ⟨clearErrorRequestDesc, 3⟩,
  ⟨clearErrorResponseDesc, 0⟩, ⟨homeRequestDesc, 0⟩, ⟨homeResponseDesc, 0⟩,
  ⟨clearFaultsRequestDesc, 0⟩, ⟨clearFaultsResponseDesc, 0⟩, ⟨acquireControlLeaseRequestDesc, 14⟩,
  ⟨acquireControlLeaseResponseDesc, 14⟩, ⟨releaseControlLeaseRequestDesc, 9⟩,
  ⟨releaseControlLeaseResponseDesc, 0⟩, ⟨getMotorFeedbackRequestDesc, 0⟩,
  ⟨getMotorFeedbackResponseDesc, 131⟩, ⟨getDeviceInfoRequestDesc, 0⟩,
  ⟨getDeviceInfoResponseDesc, 157⟩, ⟨setDeviceInfoRequestDesc, 33⟩,
  ⟨setDeviceInfoResponseDesc, 0⟩, ⟨setArmControlModeRequestDesc, 6⟩,
  ⟨setArmControlModeResponseDesc, 0⟩, ⟨setGripperControlModeRequestDesc, 6⟩,
  ⟨setGripperControlModeResponseDesc, 0⟩, ⟨motorRegisterReadRequestDesc, 6⟩,
  ⟨motorRegisterReadResponseDesc, 11⟩, ⟨motorRegisterWriteRequestDesc, 11⟩,
  ⟨motorRegisterWriteResponseDesc, 0⟩, ⟨motorStoreParametersRequestDesc, 3⟩,
  ⟨motorStoreParametersResponseDesc, 0⟩, ⟨motorSetZeroRequestDesc, 3⟩,
  ⟨motorSetZeroResponseDesc, 0⟩, ⟨setArmModeRequestDesc, 6⟩, ⟨setArmModeResponseDesc, 0⟩,
  ⟨getDeviceSettingsRequestDesc, 0⟩, ⟨getDeviceSettingsResponseDesc, 206⟩,
  ⟨setDeviceSettingsRequestDesc, 206⟩, ⟨setDeviceSettingsResponseDesc, 206⟩,
  ⟨jointMitCommandDesc, 160⟩, ⟨emergencyStopRequestDesc, 0⟩, ⟨emergencyStopResponseDesc, 0⟩,
  ⟨gripperMitCommandDesc, 55⟩, ⟨jointPositionVelocityCommandDesc, 78⟩,
  ⟨jointVelocityCommandDesc, 52⟩, ⟨jointPvtCommandDesc, 104⟩, ⟨cartesianPoseCommandDesc, 148⟩,
  ⟨cartesianVelocityCommandDesc, 108⟩, ⟨gripperPositionVelocityCommandDesc, 33⟩,
  ⟨gripperVelocityCommandDesc, 28⟩, ⟨gripperPvtCommandDesc, 38⟩, ⟨imageVersionDesc, 16⟩,
  ⟨bootStatusInfoDesc, 76⟩, ⟨bulkBeginDesc, 24⟩, ⟨bulkChunkDesc, 2048⟩, ⟨bulkEndDesc, 19⟩,
  ⟨bulkAbortDesc, 11⟩, ⟨bulkStatusDesc, 31⟩, ⟨getBootStatusRequestDesc, 6⟩,
  ⟨getBootStatusResponseDesc, 90⟩, ⟨startUpgradeRequestDesc, 53⟩, ⟨startUpgradeResponseDesc, 34⟩,
  ⟨rebootRequestDesc, 12⟩, ⟨rebootResponseDesc, 18⟩]

/-- `FCI_DEVICE_ENDPOINT_MAX_PAYLOAD` -/
def endpointMaxPayload : Nat := 2048

theorem protocol_fits {e : MessageType} (member : e ∈ protocol) :
    wellFormed e.desc = true ∧ maxEncoded e.desc = some e.maxEncodedSize ∧
      e.maxEncodedSize ≤ endpointMaxPayload := by
  have each : (protocol.all fun e => wellFormed e.desc &&
      (maxEncoded e.desc == some e.maxEncodedSize) &&
        decide (e.maxEncodedSize ≤ endpointMaxPayload)) = true := by
    decide +kernel
  have here := List.all_eq_true.mp each e member
  simp only [Bool.and_eq_true, beq_iff_eq, decide_eq_true_eq] at here
  exact ⟨here.1.1, here.1.2, here.2⟩

/-- A protocol message is encoded in the size that the codec declares for its type exactly when it
is complete, and the size is the length of some encoding. -/
theorem maxEncodedSize_isGreatest {e : MessageType} (member : e ∈ protocol) :
    (∀ m : Message e.desc, (∃ bytes, wlcEncode e.desc m.slots e.maxEncodedSize = .ok bytes) ↔
      complete false e.desc m.slots = true) ∧
    IsGreatest {n | ∃ (m : Message e.desc) (bytes : List UInt8),
      wlcEncode e.desc m.slots endpointMaxPayload = .ok bytes ∧ bytes.length = n}
      e.maxEncodedSize := by
  obtain ⟨fits, bound, small⟩ := protocol_fits member
  have payload : endpointMaxPayload ≤ sizeMax := by decide
  refine ⟨fun m => ?_, ?_, ?_⟩
  · simp only [wlcEncode_eq_ok fits m.fitting]
    constructor
    · rintro ⟨bytes, whole, -⟩
      exact whole
    · intro whole
      have short := bounded fits m.slots _ bound m.fitting whole
      exact ⟨_, whole, rfl, short, by omega⟩
  · obtain ⟨fitting, whole, length⟩ := attains fits bound
    exact ⟨⟨_, fitting⟩, _, (wlcEncode_eq_ok fits fitting).mpr
      ⟨whole, rfl, by omega, by omega⟩, length⟩
  · rintro n ⟨m, bytes, written, rfl⟩
    obtain ⟨whole, rfl, -⟩ := (wlcEncode_eq_ok fits m.fitting).mp written
    exact bounded fits m.slots _ bound m.fitting whole

theorem bulkChunk_maxEncodedSize :
    IsGreatest {n | ∃ (m : Message bulkChunkDesc) (bytes : List UInt8),
      wlcEncode bulkChunkDesc m.slots endpointMaxPayload = .ok bytes ∧ bytes.length = n} 2048 :=
  (maxEncodedSize_isGreatest (e := ⟨bulkChunkDesc, 2048⟩) (by simp [protocol])).2

end Protocol

end Florid.Codec
