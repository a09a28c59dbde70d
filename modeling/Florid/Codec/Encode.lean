import Florid.BigEndian
import Florid.Codec.Schema

/-! Measuring and writing a message: `wlc_measure`, `wlc_emit_fields`, `wlc_encode`, and the same
writer over the sink that hashes. -/
namespace Florid.Codec

def wlcPut32 (v : Nat) : List UInt8 :=
  [UInt8.ofNat (v >>> 24), UInt8.ofNat (v >>> 16), UInt8.ofNat (v >>> 8), UInt8.ofNat v]

def wlcPut64 (v : Nat) : List UInt8 := wlcPut32 (v >>> 32) ++ wlcPut32 v

def wlcPutKey (row : WlcRow) : List UInt8 :=
  row.key.take 1 ++
    if 1 < row.keySize then
      (row.key.drop 1).take 1 ++ if 2 < row.keySize then (row.key.drop 2).take 1 else []
    else []

def wlcPackedBytes (row : WlcRow) : Except Status Nat :=
  if row.packedCount ≠ 0 ∧ sizeMax / row.packedCount < row.element then .error .overflow
  else .ok (row.element * row.packedCount)

/-- The number that a scalar's varint holds, from the bits in its storage. -/
def varintOf {δ : Type} : Kind δ → Nat → Option Nat
  | .bool, bits => some bits
  | .u8, bits => some (UInt8.ofNat bits).toNat
  | .u16, bits => some (UInt16.ofNat bits).toNat
  | .u32, bits => some (UInt32.ofNat bits).toNat
  | .u64, bits => some (UInt64.ofNat bits).toNat
  | .i8, bits => some (wlcZ32 (UInt8.ofNat bits).toInt8.toInt32)
  | .i16, bits => some (wlcZ32 (UInt16.ofNat bits).toInt16.toInt32)
  | .i32, bits | .enum, bits => some (wlcZ32 (UInt32.ofNat bits).toInt32)
  | .i64, bits => some (wlcZ64 (UInt64.ofNat bits).toInt64)
  | _, _ => none

/-- `max_length` and, for a string not yet checked, its encoding. -/
def checkSpan (row : WlcRow) (text : Bool) (bytes : List UInt8) : Except Status Unit :=
  if row.maxLength ≠ 0 ∧ row.maxLength < bytes.length then .error .invalidValue
  else if text && !wlcUtf8 bytes then .error .utf8
  else .ok ()

mutual
def wlcMeasureImpl (validated : Bool) : WlcDesc → Slots → Except Status Nat
  | .mk fields _, slots => measureFields validated fields slots 0

/-- The loop over the fields, after those that measured `n`. -/
def measureFields (validated : Bool) : List (WlcField WlcDesc) → Slots → Nat → Except Status Nat
  | f :: fields, slot :: slots, n => do
    let n ← measureField validated f slot n
    measureFields validated fields slots n
  | _, _, n => .ok n

def measureField (validated : Bool) : WlcField WlcDesc → Slot Value → Nat → Except Status Nat
  | ⟨row, kind⟩, slot, n =>
    if !slot.has then if row.required then .error .missingRequiredField else .ok n
    else
      match row.card with
      | .packed => do
        let bytes ← wlcPackedBytes row
        let n ← wlcAdd n row.keySize
        let n ← wlcAdd n (wlcVsize bytes)
        wlcAdd n bytes
      | .optional => do
        let body ← wlcBody validated row kind slot.value
        let n ← wlcAdd n row.keySize
        wlcAdd n body

def wlcBody (validated : Bool) (row : WlcRow) : Kind WlcDesc → Value → Except Status Nat
  | .bool, .word bits => if bits ≠ 0 ∧ bits ≠ 1 then .error .invalidValue else .ok 1
  | .f32, .word _ | .float32, .word _ => .ok 4
  | .f64, .word _ | .float64, .word _ => .ok 8
  | .bytes, .span bytes => do
    checkSpan row false bytes
    wlcAdd (wlcVsize bytes.length) bytes.length
  | .string, .span bytes => do
    checkSpan row (!validated) bytes
    wlcAdd (wlcVsize bytes.length) bytes.length
  | .message nested, .message slots => do
    let child ← wlcMeasureImpl validated nested slots
    wlcAdd (wlcVsize child) child
  | kind, .word bits =>
    match varintOf kind bits with
    | some v => .ok (wlcVsize v)
    | none => .error .invalidValue
  | _, _ => .error .invalidValue
end

/-- Where the bytes of a message go. -/
structure Sink (σ : Type) where
  put : σ → List UInt8 → σ
  putKey : WlcRow → List UInt8
  validated : Bool

section Emit
variable {σ : Type} (sink : Sink σ)

def emitFixed : Kind WlcDesc → Nat → σ → Except Status σ
  | .f32, bits, out | .float32, bits, out => .ok (sink.put out (wlcPut32 bits))
  | .f64, bits, out | .float64, bits, out => .ok (sink.put out (wlcPut64 bits))
  | _, _, _ => .error .invalidValue

/-- The elements of an array, one after the other. -/
def emitElements (kind : Kind WlcDesc) : List Nat → σ → Except Status σ
  | [], out => .ok out
  | bits :: rest, out => do
    let out ← emitFixed sink kind bits out
    emitElements kind rest out

def emitPacked (row : WlcRow) (kind : Kind WlcDesc) (value : Value) (out : σ) : Except Status σ := do
  let bytes ← wlcPackedBytes row
  let out := sink.put out (wlcPutv bytes)
  match value with
  | .elements elements =>
    if kind.width = 0 then .error .invalidValue else emitElements sink kind elements out
  | _ => .error .invalidValue

mutual
def emitMessage : WlcDesc → Slots → σ → Except Status σ
  | .mk fields _, slots, out => emitFields fields slots out

def emitFields : List (WlcField WlcDesc) → Slots → σ → Except Status σ
  | f :: fields, slot :: slots, out => do
    let out ← emitField f slot out
    emitFields fields slots out
  | _, _, out => .ok out

def emitField : WlcField WlcDesc → Slot Value → σ → Except Status σ
  | ⟨row, kind⟩, slot, out =>
    if !slot.has then .ok out
    else
      let out := sink.put out (sink.putKey row)
      match row.card with
      | .packed => emitPacked sink row kind slot.value out
      | .optional => emitValue kind slot.value out

def emitValue : Kind WlcDesc → Value → σ → Except Status σ
  | .bytes, .span bytes, out | .string, .span bytes, out =>
    .ok (sink.put (sink.put out (wlcPutv bytes.length)) bytes)
  | .message nested, .message slots, out => do
    let child ← wlcMeasureImpl sink.validated nested slots
    emitMessage nested slots (sink.put out (wlcPutv child))
  | kind, .word bits, out =>
    match varintOf kind bits with
    | some v => .ok (sink.put out (wlcPutv v))
    | none => emitFixed sink kind bits out
  | _, _, _ => .error .invalidValue
end

end Emit

/-- `wlc_measure` -/
def wlcMeasure (d : WlcDesc) (slots : Slots) : Except Status Nat := wlcMeasureImpl false d slots

/-- `wlc_measure_validated` -/
def wlcMeasureValidated (d : WlcDesc) (slots : Slots) : Except Status Nat :=
  wlcMeasureImpl true d slots

/-- The bytes written so far. -/
def bytesSink : Sink (List UInt8) where
  put out bytes := out ++ bytes
  putKey := wlcPutKey
  validated := false

/-- The bytes that `wlc_emit_fields` writes. -/
def wlcEmitFields (d : WlcDesc) (slots : Slots) : Except Status (List UInt8) :=
  emitMessage bytesSink d slots []

def wlcEncode (d : WlcDesc) (slots : Slots) (cap : Nat) : Except Status (List UInt8) := do
  let n ← wlcMeasure d slots
  if cap < n then .error .capacity else wlcEmitFields d slots

mutual
/-- The encoding of a message: its fields in the order of the descriptor, each absent one left
out. -/
def canonical : WlcDesc → Slots → List UInt8
  | .mk fields _, slots => canonicalFields fields slots

def canonicalFields : List (WlcField WlcDesc) → Slots → List UInt8
  | f :: fields, slot :: slots =>
    (if slot.has then wlcPutv (8 * f.number + f.wire) ++ payload f slot.value else []) ++
      canonicalFields fields slots
  | _, _ => []

/-- What follows a field's key. -/
def payload : WlcField WlcDesc → Value → List UInt8
  | ⟨row, kind⟩, value =>
    match row.card, value with
    | .packed, .elements bits =>
      wlcPutv (row.element * row.packedCount) ++ bits.flatMap (BigEndian.encode row.element)
    | .packed, _ => []
    | .optional, value => payloadValue kind value

def payloadValue : Kind WlcDesc → Value → List UInt8
  | .bytes, .span bytes | .string, .span bytes => wlcPutv bytes.length ++ bytes
  | .message nested, .message slots =>
    wlcPutv (canonical nested slots).length ++ canonical nested slots
  | kind, .word bits =>
    match varintOf kind bits with
    | some v => wlcPutv v
    | none => BigEndian.encode kind.width bits
  | _, _ => []
end

mutual
/-- A message has what its descriptor requires, and its spans are those allowed. -/
def complete (validated : Bool) : WlcDesc → Slots → Bool
  | .mk fields _, slots => completeFields validated fields slots

def completeFields (validated : Bool) : List (WlcField WlcDesc) → Slots → Bool
  | f :: fields, slot :: slots =>
    (if slot.has then completeField validated f slot.value else !f.required) &&
      completeFields validated fields slots
  | _, _ => true

def completeField (validated : Bool) : WlcField WlcDesc → Value → Bool
  | ⟨row, kind⟩, value =>
    match row.card with
    | .packed => true
    | .optional => completeValue validated row kind value

def completeValue (validated : Bool) (row : WlcRow) : Kind WlcDesc → Value → Bool
  | .bytes, .span bytes => (checkSpan row false bytes).isOk
  | .string, .span bytes => (checkSpan row (!validated) bytes).isOk
  | .message nested, .message slots => complete validated nested slots
  | _, _ => true
end

theorem bind_eq_ok {α β : Type} {x : Except Status α} {f : α → Except Status β} {b : β} :
    x >>= f = .ok b ↔ ∃ a, x = .ok a ∧ f a = .ok b := by
  cases x <;> simp [bind, Except.bind]

theorem length_wlcPutv_le {v : Nat} (word : v < 2 ^ 64) : (wlcPutv v).length ≤ 10 := by
  rw [wlcPutv_eq_encode, Base128.length_encode_le]
  omega

theorem wlcPut32_eq (v : Nat) : wlcPut32 v = BigEndian.encode 4 v := by
  simp only [wlcPut32, BigEndian.encode, Nat.shiftRight_eq_div_pow]
  norm_num

theorem wlcPut64_eq (v : Nat) : wlcPut64 v = BigEndian.encode 8 v := by
  simp only [wlcPut64, wlcPut32, BigEndian.encode, Nat.shiftRight_eq_div_pow, Nat.div_div_eq_div_mul,
    List.cons_append, List.nil_append]
  norm_num

theorem wlcPutKey_eq {f : WlcField WlcDesc} (fits : f.fits = true) :
    wlcPutKey f.toWlcRow = wlcPutv (8 * f.number + f.wire) ∧
      f.key.take f.keySize = wlcPutv (8 * f.number + f.wire) ∧
        (wlcPutv (8 * f.number + f.wire)).length = f.keySize := by
  simp only [WlcField.fits, Bool.and_eq_true, decide_eq_true_eq, beq_iff_eq] at fits
  obtain ⟨⟨⟨⟨⟨-, three⟩, least⟩, most⟩, key⟩, -⟩ := fits
  obtain ⟨a, b, c, bytes⟩ := List.length_eq_three.mp three
  refine ⟨?_, key, ?_⟩
  · rw [← key, wlcPutKey, bytes]
    obtain one | two | three : f.keySize = 1 ∨ f.keySize = 2 ∨ f.keySize = 3 := by omega
    · simp [one]
    · simp [two]
    · simp [three]
  · rw [← key, List.length_take, three]
    omega

theorem varintOf_lt {kind : Kind WlcDesc} {bits v : Nat} (small : bits < kind.range)
    (held : varintOf kind bits = some v) : v < 2 ^ 64 := by
  have z32 (x : Int32) : wlcZ32 x < 2 ^ 64 := lt_trans (UInt32.toNat_lt _) (by decide)
  cases kind <;> simp only [varintOf, Option.some.injEq, reduceCtorEq, Kind.range] at held small
  case bool => omega
  case u8 => exact held ▸ lt_trans (UInt8.toNat_lt _) (by decide)
  case u16 => exact held ▸ lt_trans (UInt16.toNat_lt _) (by decide)
  case u32 => exact held ▸ lt_trans (UInt32.toNat_lt _) (by decide)
  case u64 => exact held ▸ UInt64.toNat_lt _
  case i64 => exact held ▸ UInt64.toNat_lt _
  all_goals exact held ▸ z32 _

/-- A number's length is known from its kind and value. -/
theorem wlcBody_word {kind : Kind WlcDesc} {bits : Nat} (validated : Bool) (row : WlcRow)
    (small : bits < kind.range) :
    wlcBody validated row kind (.word bits) = .ok (payloadValue kind (.word bits)).length ∧
      (payloadValue kind (.word bits)).length ≤ 10 := by
  cases held : varintOf kind bits with
  | some v =>
    have bound := length_wlcPutv_le (varintOf_lt small held)
    rw [← wlcVsize_eq_length] at bound
    cases kind <;> simp only [varintOf, reduceCtorEq] at held
    case bool =>
      obtain rfl | rfl : bits = 0 ∨ bits = 1 := by simp only [Kind.range] at small; omega
      all_goals simp [wlcBody, payloadValue, varintOf, wlcPutv]
    all_goals
      simp only [Option.some.injEq] at held
      subst held
      simp only [wlcBody, payloadValue, varintOf, ← wlcVsize_eq_length]
      exact ⟨trivial, bound⟩
  | none =>
    cases kind <;> simp only [varintOf, reduceCtorEq] at held
    case bytes => exact absurd small (Nat.not_lt_zero _)
    case string => exact absurd small (Nat.not_lt_zero _)
    case message => exact absurd small (Nat.not_lt_zero _)
    all_goals simp [wlcBody, payloadValue, varintOf, Kind.width]

/-- A span or a message with its length before it. -/
theorem wlcAdd_prefix {length n : Nat} :
    wlcAdd (wlcVsize length) length = .ok n ↔
      n = (wlcPutv length).length + length ∧ n ≤ sizeMax := by
  by_cases word : length < 2 ^ 64
  · have bound := length_wlcPutv_le word
    rw [← wlcVsize_eq_length] at bound ⊢
    exact wlcAdd_eq_ok (le_trans bound (by decide))
  · rw [← wlcVsize_eq_length]
    unfold wlcAdd
    split
    · simp only [reduceCtorEq, sizeMax, false_iff]
      omega
    · rename_i fits
      simp only [sizeMax] at fits
      omega

theorem typedValue_word {kind : Kind WlcDesc} {bits : Nat} :
    typedValue kind (.word bits) = true ↔ bits < kind.range := by
  cases kind <;> simp only [typedValue, decide_eq_true_eq]

theorem completeValue_word {kind : Kind WlcDesc} {bits : Nat} (validated : Bool) (row : WlcRow) :
    completeValue validated row kind (.word bits) = true := by
  cases kind <;> rfl

theorem checkSpan_eq_ok {row : WlcRow} {text : Bool} {bytes : List UInt8} :
    checkSpan row text bytes = .ok () ↔ (checkSpan row text bytes).isOk = true := by
  cases checkSpan row text bytes with
  | ok value => simp [Except.isOk, Except.toBool]
  | error status => simp [Except.isOk, Except.toBool]

/-- The measure of a descriptor's messages is the length of what is written for those that are
complete. -/
def Measured (validated : Bool) (d : WlcDesc) : Prop :=
  ∀ {slots n}, typed d slots = true →
    (wlcMeasureImpl validated d slots = .ok n ↔
      complete validated d slots = true ∧ n = (canonical d slots).length ∧ n ≤ sizeMax)

theorem wlcBody_eq_ok {kind : Kind WlcDesc} {value : Value} {n : Nat} {validated : Bool}
    {row : WlcRow} (fitting : typedValue kind value = true)
    (nested : ∀ inner, kind = .message inner → Measured validated inner) :
    wlcBody validated row kind value = .ok n ↔
      completeValue validated row kind value = true ∧ n = (payloadValue kind value).length ∧
        n ≤ sizeMax := by
  cases value with
  | word bits =>
    obtain ⟨body, short⟩ := wlcBody_word validated row (typedValue_word.mp fitting)
    rw [body, completeValue_word, Except.ok.injEq]
    constructor
    · rintro rfl
      exact ⟨rfl, rfl, le_trans short (by decide)⟩
    · rintro ⟨-, rfl, -⟩
      rfl
  | span bytes =>
    cases kind <;> simp only [typedValue, Bool.false_eq_true] at fitting
    all_goals
      simp only [wlcBody, completeValue, payloadValue, bind_eq_ok, wlcAdd_prefix, List.length_append,
        ← checkSpan_eq_ok]
      constructor
      · rintro ⟨_, checked, size⟩
        exact ⟨checked, size⟩
      · rintro ⟨checked, size⟩
        exact ⟨(), checked, size⟩
  | elements bits => cases kind <;> simp [typedValue] at fitting
  | message slots =>
    cases kind <;> simp only [typedValue, Bool.false_eq_true] at fitting
    rename_i inner
    simp only [wlcBody, completeValue, payloadValue, bind_eq_ok, nested inner rfl fitting,
      wlcAdd_prefix, List.length_append]
    constructor
    · rintro ⟨_, ⟨whole, rfl, -⟩, size⟩
      exact ⟨whole, size⟩
    · rintro ⟨whole, rfl, small⟩
      exact ⟨_, ⟨whole, rfl, by omega⟩, rfl, small⟩

/-- The key and two parts added to a size. -/
theorem wlcAdd_parts {n a b c m : Nat} (small : n ≤ sizeMax) :
    (do
      let n ← wlcAdd n a
      let n ← wlcAdd n b
      wlcAdd n c) = .ok m ↔ m = n + (a + (b + c)) ∧ m ≤ sizeMax := by
  simp only [bind_eq_ok]
  constructor
  · rintro ⟨x, first, y, second, third⟩
    obtain ⟨rfl, fits⟩ := (wlcAdd_eq_ok small).mp first
    obtain ⟨rfl, fits'⟩ := (wlcAdd_eq_ok fits).mp second
    obtain ⟨rfl, fits''⟩ := (wlcAdd_eq_ok fits').mp third
    exact ⟨by omega, by omega⟩
  · rintro ⟨rfl, fits⟩
    exact ⟨n + a, (wlcAdd_eq_ok small).mpr ⟨rfl, by omega⟩, n + a + b,
      (wlcAdd_eq_ok (by omega)).mpr ⟨rfl, by omega⟩, (wlcAdd_eq_ok (by omega)).mpr ⟨by omega, fits⟩⟩

theorem packed_fits {f : WlcField WlcDesc} (fits : f.fits = true) (packed : f.card = .packed) :
    f.wire = 2 ∧ 0 < f.kind.width ∧ f.element = f.kind.width ∧
      f.element * f.packedCount ≤ sizeMax := by
  simp only [WlcField.fits, packed, Bool.and_eq_true, decide_eq_true_eq, beq_iff_eq] at fits
  exact ⟨fits.2.1.1.1, fits.2.1.1.2, fits.2.1.2, fits.2.2⟩

theorem wlcPackedBytes_eq {f : WlcField WlcDesc} (fits : f.fits = true) (packed : f.card = .packed) :
    wlcPackedBytes f.toWlcRow = .ok (f.element * f.packedCount) := by
  obtain ⟨-, -, -, small⟩ := packed_fits fits packed
  rw [wlcPackedBytes, if_neg]
  rintro ⟨some, excess⟩
  have : f.element ≤ sizeMax / f.packedCount :=
    (Nat.le_div_iff_mul_le (Nat.pos_of_ne_zero some)).mpr small
  omega

/-- An array that has the type of its field, and its bytes. -/
theorem payload_packed {f : WlcField WlcDesc} {value : Value} (packed : f.card = .packed)
    (fitting : typedField f value = true) :
    ∃ bits, value = .elements bits ∧ bits.length = f.packedCount ∧
      (∀ b ∈ bits, b < 256 ^ f.element) ∧
      payload f value =
        wlcPutv (f.element * f.packedCount) ++ bits.flatMap (BigEndian.encode f.element) := by
  obtain ⟨row, kind⟩ := f
  simp only at packed
  cases value <;> simp only [typedField, packed, Bool.false_eq_true] at fitting
  rename_i bits
  rw [Bool.and_eq_true, beq_iff_eq, List.all_eq_true] at fitting
  exact ⟨bits, rfl, fitting.1, fun b member => of_decide_eq_true (fitting.2 b member),
    by simp only [payload, packed]⟩

theorem length_elements (k : Nat) (bits : List Nat) :
    (bits.flatMap (BigEndian.encode k)).length = k * bits.length := by
  induction bits with
  | nil => simp
  | cons b bits ih =>
    rw [List.flatMap_cons, List.length_append, ih, BigEndian.length_encode, List.length_cons,
      Nat.mul_succ, Nat.add_comm]

/-- A field's bytes, or none. -/
theorem measureField_eq_ok {f : WlcField WlcDesc} {slot : Slot Value} {n m : Nat}
    {validated : Bool} (fits : f.fits = true) (fitting : typedField f slot.value = true)
    (small : n ≤ sizeMax)
    (nested : ∀ inner, f.kind = .message inner → Measured validated inner) :
    measureField validated f slot n = .ok m ↔
      (if slot.has then completeField validated f slot.value else !f.required) = true ∧
        m = n + (if slot.has then wlcPutv (8 * f.number + f.wire) ++ payload f slot.value
          else []).length ∧ m ≤ sizeMax := by
  obtain ⟨-, -, key⟩ := wlcPutKey_eq fits
  cases present : slot.has with
  | false =>
    obtain ⟨row, kind⟩ := f
    cases required : row.required with
    | false =>
      simp only [measureField, present, required, Bool.not_false, if_true, Bool.false_eq_true,
        if_false, Except.ok.injEq, true_and, List.length_nil, Nat.add_zero]
      constructor
      · rintro rfl
        exact ⟨rfl, small⟩
      · rintro ⟨rfl, -⟩
        rfl
    | true => simp [measureField, present, required]
  | true =>
    rw [if_pos rfl, if_pos rfl, List.length_append, key]
    cases card : f.card with
    | optional =>
      obtain ⟨row, kind⟩ := f
      simp only at card nested key
      simp only [typedField, card] at fitting
      simp only [measureField, present, card, completeField, payload, Bool.not_true,
        Bool.false_eq_true, if_false, bind_eq_ok, wlcBody_eq_ok fitting nested]
      constructor
      · rintro ⟨body, ⟨whole, rfl, -⟩, k, first, second⟩
        obtain ⟨rfl, fits⟩ := (wlcAdd_eq_ok small).mp first
        obtain ⟨rfl, fits'⟩ := (wlcAdd_eq_ok fits).mp second
        exact ⟨whole, by omega, fits'⟩
      · rintro ⟨whole, rfl, fits⟩
        exact ⟨_, ⟨whole, rfl, by omega⟩, n + row.keySize,
          (wlcAdd_eq_ok small).mpr ⟨rfl, by omega⟩,
          (wlcAdd_eq_ok (by omega)).mpr ⟨by omega, fits⟩⟩
    | packed =>
      obtain ⟨bits, -, count, -, whole⟩ := payload_packed card fitting
      have bytes := wlcPackedBytes_eq fits card
      rw [whole, List.length_append, length_elements, count]
      obtain ⟨row, kind⟩ := f
      simp only at card bytes
      simp only [measureField, present, card, completeField, Bool.not_true, Bool.false_eq_true,
        if_false, bytes, true_and, ← wlcVsize_eq_length]
      exact wlcAdd_parts small

theorem measureFields_eq_ok {fields : List (WlcField WlcDesc)} {slots : Slots} {n m : Nat}
    {validated : Bool} (fits : wellFormedFields fields = true)
    (fitting : typedFields fields slots = true) (small : n ≤ sizeMax)
    (nested : ∀ f ∈ fields, ∀ inner, f.kind = .message inner → Measured validated inner) :
    measureFields validated fields slots n = .ok m ↔
      completeFields validated fields slots = true ∧
        m = n + (canonicalFields fields slots).length ∧ m ≤ sizeMax := by
  induction fields generalizing slots n with
  | nil =>
    cases slots with
    | nil =>
      simp only [measureFields, completeFields, canonicalFields, List.length_nil, Nat.add_zero,
        Except.ok.injEq, true_and]
      constructor
      · rintro rfl
        exact ⟨rfl, small⟩
      · rintro ⟨rfl, -⟩
        rfl
    | cons slot slots => simp [typedFields] at fitting
  | cons f fields ih =>
    cases slots with
    | nil => simp [typedFields] at fitting
    | cons slot slots =>
      rw [wellFormedFields, Bool.and_eq_true, Bool.and_eq_true] at fits
      rw [typedFields, Bool.and_eq_true] at fitting
      obtain ⟨⟨row, -⟩, rows⟩ := fits
      obtain ⟨first, others⟩ := fitting
      obtain ⟨inner, inners⟩ := List.forall_mem_cons.mp nested
      simp only [measureFields, bind_eq_ok, measureField_eq_ok row first small inner,
        completeFields, canonicalFields, List.length_append, Bool.and_eq_true]
      constructor
      · rintro ⟨k, ⟨whole, rfl, fits⟩, rest⟩
        obtain ⟨wholes, rfl, fits'⟩ := (ih rows others fits inners).mp rest
        exact ⟨⟨whole, wholes⟩, by omega, fits'⟩
      · rintro ⟨⟨whole, wholes⟩, rfl, fits⟩
        exact ⟨_, ⟨whole, rfl, by omega⟩,
          (ih rows others (by omega) inners).mpr ⟨wholes, by omega, fits⟩⟩

theorem measured {d : WlcDesc} (validated : Bool) (fits : wellFormed d = true) :
    Measured validated d := by
  induction d using WlcDesc.induct with
  | step d ih =>
    obtain ⟨fields, lookup⟩ := d
    intro slots n fitting
    obtain ⟨-, each⟩ := wellFormed_iff.mp fits
    rw [wlcMeasureImpl, complete, canonical,
      measureFields_eq_ok (wellFormedFields_iff.mpr each) (by simpa [typed] using fitting)
        (Nat.zero_le _) fun f member inner same =>
          ih f member inner same ((each f member).2 inner same),
      Nat.zero_add]

section Tracks
variable {σ : Type} {sink : Sink σ} {R : σ → List UInt8 → Prop}

/-- A relation between a sink and the bytes put into it, while these can be counted. -/
structure Tracks (sink : Sink σ) (R : σ → List UInt8 → Prop) : Prop where
  put : ∀ {out bytes more}, R out bytes → (bytes ++ more).length ≤ sizeMax →
    R (sink.put out more) (bytes ++ more)
  putKey : ∀ f : WlcField WlcDesc, f.fits = true →
    sink.putKey f.toWlcRow = wlcPutv (8 * f.number + f.wire)

/-- What one part of the writer does: it succeeds, and puts these bytes. -/
def Emits (R : σ → List UInt8 → Prop) (emit : σ → Except Status σ) (more : List UInt8) : Prop :=
  ∀ out bytes, R out bytes → (bytes ++ more).length ≤ sizeMax →
    ∃ out', emit out = .ok out' ∧ R out' (bytes ++ more)

theorem Emits.bind {first second : σ → Except Status σ} {a b : List UInt8}
    (emits : Emits R first a) (emits' : Emits R second b) :
    Emits R (fun out => first out >>= second) (a ++ b) := by
  intro out bytes related small
  rw [← List.append_assoc] at small ⊢
  obtain ⟨middle, done, related⟩ := emits out bytes related (by
    rw [List.length_append] at small
    omega)
  obtain ⟨last, done', related⟩ := emits' middle _ related small
  exact ⟨last, bind_eq_ok.mpr ⟨middle, done, done'⟩, related⟩

theorem Emits.put (tracks : Tracks sink R) (more : List UInt8) :
    Emits R (fun out => .ok (sink.put out more)) more :=
  fun _ _ related small => ⟨_, rfl, tracks.put related small⟩

theorem emits_fixed (tracks : Tracks sink R) {kind : Kind WlcDesc} (wide : 0 < kind.width)
    (bits : Nat) : Emits R (emitFixed sink kind bits) (BigEndian.encode kind.width bits) := by
  cases kind <;> simp only [Kind.width, Nat.lt_irrefl] at wide
  case f32 => exact wlcPut32_eq bits ▸ Emits.put tracks (wlcPut32 bits)
  case float32 => exact wlcPut32_eq bits ▸ Emits.put tracks (wlcPut32 bits)
  case f64 => exact wlcPut64_eq bits ▸ Emits.put tracks (wlcPut64 bits)
  case float64 => exact wlcPut64_eq bits ▸ Emits.put tracks (wlcPut64 bits)

theorem emits_elements (tracks : Tracks sink R) {kind : Kind WlcDesc} (wide : 0 < kind.width)
    (elements : List Nat) :
    Emits R (emitElements sink kind elements)
      (elements.flatMap (BigEndian.encode kind.width)) := by
  induction elements with
  | nil =>
    intro out bytes related small
    exact ⟨out, rfl, by simpa using related⟩
  | cons bits elements ih =>
    rw [List.flatMap_cons]
    exact Emits.bind (emits_fixed tracks wide bits) ih

theorem emits_packed (tracks : Tracks sink R) {f : WlcField WlcDesc} {value : Value}
    (fits : f.fits = true) (packed : f.card = .packed) (fitting : typedField f value = true) :
    Emits R (emitPacked sink f.toWlcRow f.kind value) (payload f value) := by
  obtain ⟨bits, rfl, -, -, whole⟩ := payload_packed packed fitting
  obtain ⟨-, wide, element, -⟩ := packed_fits fits packed
  have bytes := wlcPackedBytes_eq fits packed
  have parts := Emits.bind (Emits.put tracks (wlcPutv (f.element * f.packedCount)))
    (emits_elements tracks wide bits)
  rw [whole, element]
  rw [element] at parts bytes
  have same : emitPacked sink f.toWlcRow f.kind (.elements bits) = fun out =>
      .ok (sink.put out (wlcPutv (f.kind.width * f.packedCount))) >>=
        emitElements sink f.kind bits := by
    funext out
    simp only [emitPacked, bytes, if_neg (Nat.ne_of_gt wide)]
    rfl
  rw [same]
  exact parts

/-- The writer puts the canonical encoding of each complete message. -/
def EmitsMessages (sink : Sink σ) (R : σ → List UInt8 → Prop) (d : WlcDesc) : Prop :=
  ∀ {slots}, typed d slots = true → complete sink.validated d slots = true →
    Emits R (emitMessage sink d slots) (canonical d slots)

theorem emits_value (tracks : Tracks sink R) {row : WlcRow} {kind : Kind WlcDesc} {value : Value}
    (fitting : typedValue kind value = true)
    (whole : completeValue sink.validated row kind value = true)
    (nested : ∀ inner, kind = .message inner →
      EmitsMessages sink R inner ∧ Measured sink.validated inner) :
    Emits R (emitValue sink kind value) (payloadValue kind value) := by
  cases value with
  | word bits =>
    have small := typedValue_word.mp fitting
    cases held : varintOf kind bits with
    | some v =>
      have same : emitValue sink kind (.word bits) = fun out => .ok (sink.put out (wlcPutv v)) := by
        funext out
        cases kind <;> simp_all [emitValue, varintOf]
      have bytes : payloadValue kind (.word bits) = wlcPutv v := by
        cases kind <;> simp_all [payloadValue, varintOf]
      rw [same, bytes]
      exact Emits.put tracks _
    | none =>
      have wide : 0 < kind.width := by cases kind <;> simp_all [varintOf, Kind.width, Kind.range]
      have same : emitValue sink kind (.word bits) = emitFixed sink kind bits := by
        funext out
        cases kind <;> simp_all [emitValue, varintOf]
      have bytes : payloadValue kind (.word bits) = BigEndian.encode kind.width bits := by
        cases kind <;> simp_all [payloadValue, varintOf]
      rw [same, bytes]
      exact emits_fixed tracks wide bits
  | span bytes =>
    cases kind <;> simp only [typedValue, Bool.false_eq_true] at fitting
    all_goals
      exact Emits.bind (Emits.put tracks (wlcPutv bytes.length)) (Emits.put tracks bytes)
  | elements bits => cases kind <;> simp [typedValue] at fitting
  | message slots =>
    cases kind <;> simp only [typedValue, Bool.false_eq_true] at fitting
    rename_i inner
    obtain ⟨emits, measured⟩ := nested inner rfl
    simp only [completeValue] at whole
    simp only [payloadValue]
    intro out bytes related small
    have size : wlcMeasureImpl sink.validated inner slots = .ok (canonical inner slots).length :=
      (measured fitting).mpr ⟨whole, rfl, by
        simp only [List.length_append] at small
        omega⟩
    obtain ⟨last, done, related⟩ := Emits.bind
      (Emits.put tracks (wlcPutv (canonical inner slots).length)) (emits fitting whole)
      out bytes related small
    refine ⟨last, ?_, related⟩
    rw [emitValue, size]
    exact done

theorem emits_field (tracks : Tracks sink R) {f : WlcField WlcDesc} {slot : Slot Value}
    (fits : f.fits = true) (fitting : typedField f slot.value = true)
    (whole : (if slot.has then completeField sink.validated f slot.value else !f.required) = true)
    (nested : ∀ inner, f.kind = .message inner →
      EmitsMessages sink R inner ∧ Measured sink.validated inner) :
    Emits R (emitField sink f slot)
      (if slot.has then wlcPutv (8 * f.number + f.wire) ++ payload f slot.value else []) := by
  have key := Emits.put tracks (wlcPutv (8 * f.number + f.wire))
  rw [← tracks.putKey f fits] at key ⊢
  cases present : slot.has with
  | false =>
    intro out bytes related small
    obtain ⟨row, kind⟩ := f
    exact ⟨out, by simp [emitField, present], by simpa using related⟩
  | true =>
    rw [present, if_pos rfl] at whole
    rw [if_pos rfl]
    cases card : f.card with
    | optional =>
      obtain ⟨row, kind⟩ := f
      simp only at card nested
      simp only [typedField, card] at fitting
      simp only [completeField, card] at whole
      have same : emitField sink ⟨row, kind⟩ slot = fun out =>
          .ok (sink.put out (sink.putKey row)) >>= emitValue sink kind slot.value := by
        funext out
        simp only [emitField, present, card]
        rfl
      rw [same]
      simp only [payload, card]
      exact Emits.bind key (emits_value tracks fitting whole nested)
    | packed =>
      have body := emits_packed tracks fits card fitting
      obtain ⟨row, kind⟩ := f
      simp only at card
      have same : emitField sink ⟨row, kind⟩ slot = fun out =>
          .ok (sink.put out (sink.putKey row)) >>= emitPacked sink row kind slot.value := by
        funext out
        simp only [emitField, present, card]
        rfl
      rw [same]
      exact Emits.bind key body

theorem emits_fields (tracks : Tracks sink R) {fields : List (WlcField WlcDesc)} {slots : Slots}
    (fits : wellFormedFields fields = true) (fitting : typedFields fields slots = true)
    (whole : completeFields sink.validated fields slots = true)
    (nested : ∀ f ∈ fields, ∀ inner, f.kind = .message inner →
      EmitsMessages sink R inner ∧ Measured sink.validated inner) :
    Emits R (emitFields sink fields slots) (canonicalFields fields slots) := by
  induction fields generalizing slots with
  | nil =>
    cases slots with
    | nil =>
      intro out bytes related small
      exact ⟨out, rfl, by simpa [canonicalFields] using related⟩
    | cons slot slots => simp [typedFields] at fitting
  | cons f fields ih =>
    cases slots with
    | nil => simp [typedFields] at fitting
    | cons slot slots =>
      rw [wellFormedFields, Bool.and_eq_true, Bool.and_eq_true] at fits
      rw [typedFields, Bool.and_eq_true] at fitting
      rw [completeFields, Bool.and_eq_true] at whole
      obtain ⟨inner, inners⟩ := List.forall_mem_cons.mp nested
      exact Emits.bind (emits_field tracks fits.1.1 fitting.1 whole.1 inner)
        (ih fits.2 fitting.2 whole.2 inners)

theorem emits_message (tracks : Tracks sink R) {d : WlcDesc} (fits : wellFormed d = true) :
    EmitsMessages sink R d := by
  induction d using WlcDesc.induct with
  | step d ih =>
    obtain ⟨fields, lookup⟩ := d
    intro slots fitting whole
    obtain ⟨-, each⟩ := wellFormed_iff.mp fits
    rw [typed] at fitting
    rw [complete] at whole
    rw [canonical]
    apply emits_fields tracks (wellFormedFields_iff.mpr each) fitting whole
    intro f member inner same
    have fits := (each f member).2 inner same
    exact ⟨ih f member inner same fits, measured _ fits⟩

end Tracks

theorem bytesSink_tracks : Tracks bytesSink (fun out bytes => out = bytes) where
  put := by
    rintro _ bytes more rfl -
    rfl
  putKey _ fits := (wlcPutKey_eq fits).1

section Message
variable {d : WlcDesc} {slots : Slots}

theorem wlcMeasure_eq_ok {n : Nat} (fits : wellFormed d = true) (fitting : typed d slots = true) :
    wlcMeasure d slots = .ok n ↔
      complete false d slots = true ∧ n = (canonical d slots).length ∧ n ≤ sizeMax :=
  measured false fits fitting

/-- What can be measured is written. -/
theorem wlcEmitFields_eq_ok {n : Nat} (fits : wellFormed d = true) (fitting : typed d slots = true)
    (size : wlcMeasure d slots = .ok n) : wlcEmitFields d slots = .ok (canonical d slots) := by
  obtain ⟨whole, rfl, small⟩ := (wlcMeasure_eq_ok fits fitting).mp size
  obtain ⟨_, done, rfl⟩ := emits_message bytesSink_tracks fits fitting whole [] [] rfl
    (by simpa using small)
  exact done

theorem wlcEncode_eq_ok {cap : Nat} {bytes : List UInt8} (fits : wellFormed d = true)
    (fitting : typed d slots = true) :
    wlcEncode d slots cap = .ok bytes ↔
      complete false d slots = true ∧ bytes = canonical d slots ∧ bytes.length ≤ cap ∧
        bytes.length ≤ sizeMax := by
  rw [wlcEncode, bind_eq_ok]
  constructor
  · rintro ⟨n, size, emitted⟩
    have written := wlcEmitFields_eq_ok fits fitting size
    obtain ⟨whole, rfl, small⟩ := (wlcMeasure_eq_ok fits fitting).mp size
    split at emitted
    · contradiction
    · rw [written, Except.ok.injEq] at emitted
      subst emitted
      exact ⟨whole, rfl, by omega, small⟩
  · rintro ⟨whole, rfl, room, small⟩
    have size := (wlcMeasure_eq_ok fits fitting).mpr ⟨whole, rfl, small⟩
    refine ⟨_, size, ?_⟩
    rw [if_neg (by omega), wlcEmitFields_eq_ok fits fitting size]

end Message

end Florid.Codec
