import Florid.Codec.Encode

/-! Reading a message: `wlc_skip`, `wlc_read_value`, `wlc_read_packed` and `wlc_decode`, and what
one record of the input is to each of them. -/
namespace Florid.Codec

/-- A value and the bytes after it. -/
abbrev Reader := List UInt8 → Except Status (Value × List UInt8)

def wlcSkip (wire : Nat) (input : List UInt8) : Except Status (List UInt8) :=
  if wire = 0 then do
    let (_, rest) ← wlcGetv input
    .ok rest
  else if wire = 1 then if input.length < 8 then .error .malformed else .ok (input.drop 8)
  else if wire = 5 then if input.length < 4 then .error .malformed else .ok (input.drop 4)
  else if wire ≠ 2 then .error .malformed
  else do
    let (length, rest) ← wlcGetv input
    if rest.length < length then .error .malformed else .ok (rest.drop length)

def wlcReadFixed (kind : Kind WlcDesc) (input : List UInt8) : Except Status (Nat × List UInt8) :=
  let bytes := match kind with
    | .f32 | .float32 => 4
    | _ => 8
  if input.length < bytes then .error .malformed
  else
    let bits := BigEndian.value (input.take bytes)
    match kind with
    | .f32 | .float32 => .ok (bits % 2 ^ 32, input.drop bytes)
    | .f64 | .float64 => .ok (bits, input.drop bytes)
    | _ => .error .invalidValue

/-- The storage of a scalar after its varint. -/
def ofVarint : Kind WlcDesc → Nat → Except Status Nat
  | .bool, v => if 1 < v then .error .invalidValue else .ok (if v ≠ 0 then 1 else 0)
  | .u8, v => if 255 < v then .error .overflow else .ok (UInt8.ofNat v).toNat
  | .u16, v => if 65535 < v then .error .overflow else .ok (UInt16.ofNat v).toNat
  | .u32, v => if 4294967295 < v then .error .overflow else .ok (UInt32.ofNat v).toNat
  | .u64, v => .ok v
  | .i8, v =>
    if 255 < v then .error .overflow
    else .ok (wlcUz32 (UInt32.ofNat v)).toInt8.toUInt8.toNat
  | .i16, v =>
    if 65535 < v then .error .overflow
    else .ok (wlcUz32 (UInt32.ofNat v)).toInt16.toUInt16.toNat
  | .i32, v | .enum, v =>
    if 4294967295 < v then .error .overflow else .ok (wlcUz32 (UInt32.ofNat v)).toUInt32.toNat
  | .i64, v => .ok (wlcUz64 (UInt64.ofNat v)).toUInt64.toNat
  | _, _ => .error .invalidValue

/-- A number, of fixed size or as a varint. -/
def readScalar (kind : Kind WlcDesc) : Reader := fun input =>
  if kind.width ≠ 0 then do
    let (bits, rest) ← wlcReadFixed kind input
    .ok (.word bits, rest)
  else do
    let (v, rest) ← wlcGetv input
    let bits ← ofVarint kind v
    .ok (.word bits, rest)

/-- The bytes of a span or a nested message: its length, checked against a bound if there is one,
and as many bytes. -/
def readSpan (bound : Nat) (input : List UInt8) : Except Status (List UInt8 × List UInt8) := do
  let (length, rest) ← wlcGetv input
  if bound ≠ 0 ∧ bound < length then .error .invalidValue
  else if rest.length < length then .error .malformed
  else .ok (rest.take length, rest.drop length)

/-- The elements of an array, of which all bytes are there. -/
def readElements (width : Nat) : Nat → List UInt8 → List Nat × List UInt8
  | 0, input => ([], input)
  | count + 1, input =>
    let (bits, rest) := readElements width count (input.drop width)
    (BigEndian.value (input.take width) :: bits, rest)

def wlcReadPacked (row : WlcRow) (kind : Kind WlcDesc) : Reader := fun input => do
  let (encoded, rest) ← wlcGetv input
  let expected ← wlcPackedBytes row
  if encoded ≠ expected ∨ rest.length < expected then .error .malformed
  else if kind.width = 0 then .error .invalidValue
  else
    let (bits, rest) := readElements kind.width row.packedCount rest
    .ok (.elements bits, rest)

/-- Where a decoder stands: the message so far, and the field it expects next. -/
structure Cursor where
  slots : Slots
  next : Nat

/-- One turn of the loop of `wlc_decode`, with a reader for each field. -/
def decodeRecord (d : WlcDesc) (readers : List Reader) (s : Cursor) (input : List UInt8) :
    Except Status (Cursor × List UInt8) := do
  let (key, rest) ← wlcGetv input
  let rawNumber := key >>> 3
  let wire := key &&& 7
  if rawNumber = 0 ∨ 65535 < rawNumber ∨ (wire ≠ 0 ∧ wire ≠ 1 ∧ wire ≠ 2 ∧ wire ≠ 5) then
    .error .malformed
  else
    match locate d s.next rawNumber with
    | none => do
      let rest ← wlcSkip wire rest
      .ok (s, rest)
    | some i =>
      match d.fields[i]?, readers[i]?, s.slots[i]? with
      | some f, some read, some slot =>
        if wire ≠ f.wire then .error .wireType
        else if slot.has then .error .duplicateField
        else do
          let (value, rest) ← read rest
          .ok (⟨s.slots.set i ⟨true, value⟩, i + 1⟩, rest)
      | _, _, _ => .error .invalidValue

/-- The loop of `wlc_decode`: each turn takes a byte at least, so that as many turns as there are
bytes are enough. -/
def decodeLoop (d : WlcDesc) (readers : List Reader) :
    Nat → Cursor → List UInt8 → Except Status Slots
  | _, s, [] => .ok s.slots
  | 0, _, _ :: _ => .error .malformed
  | turns + 1, s, b :: input => do
    let (s, rest) ← decodeRecord d readers s (b :: input)
    decodeLoop d readers turns s rest

/-- The loop that follows it. -/
def requireFields : List (WlcField WlcDesc) → Slots → Except Status Unit
  | f :: fields, slot :: slots =>
    if f.required && !slot.has then .error .missingRequiredField else requireFields fields slots
  | _, _ => .ok ()

mutual
def wlcDecode : WlcDesc → List UInt8 → Except Status Slots
  | .mk fields lookup, input => do
    let slots ← decodeLoop (.mk fields lookup) (fieldReaders fields) input.length
      ⟨clearFields fields, 0⟩ input
    requireFields fields slots
    .ok slots

def fieldReaders : List (WlcField WlcDesc) → List Reader
  | [] => []
  | f :: fields => fieldReader f :: fieldReaders fields

/-- What reads a field once its key is read. -/
def fieldReader : WlcField WlcDesc → Reader
  | ⟨row, kind⟩ => if row.card = .packed then wlcReadPacked row kind else wlcReadValue row kind

def wlcReadValue (row : WlcRow) : Kind WlcDesc → Reader
  | .bytes => fun input => do
    let (bytes, rest) ← readSpan row.maxLength input
    .ok (.span bytes, rest)
  | .string => fun input => do
    let (bytes, rest) ← readSpan row.maxLength input
    if !wlcUtf8 bytes then .error .utf8 else .ok (.span bytes, rest)
  | .message nested => fun input => do
    let (bytes, rest) ← readSpan 0 input
    let slots ← wlcDecode nested bytes
    .ok (.message slots, rest)
  | kind => readScalar kind
end

/-- The bytes that follow a key of a wire type. -/
def Framed (wire : Nat) (payload : List UInt8) : Prop :=
  (wire = 0 ∧ ∃ v, v < 2 ^ 64 ∧ payload = wlcPutv v) ∨
    (wire = 1 ∧ payload.length = 8) ∨ (wire = 5 ∧ payload.length = 4) ∨
      (wire = 2 ∧ ∃ bytes : List UInt8, bytes.length < 2 ^ 64 ∧
        payload = wlcPutv bytes.length ++ bytes)

/-- A reader takes a value from the front of its input exactly where the bytes there hold it. -/
def Reads (read : Reader) (Holds : List UInt8 → Value → Prop) : Prop :=
  ∀ input value rest, read input = .ok (value, rest) ↔
    ∃ payload, Holds payload value ∧ input = payload ++ rest

theorem take_eq_ok {k : Nat} {input rest : List UInt8} :
    (if input.length < k then Except.error Status.malformed else .ok (input.drop k)) = .ok rest ↔
      ∃ payload, payload.length = k ∧ input = payload ++ rest := by
  constructor
  · intro done
    split at done
    · contradiction
    · rename_i enough
      obtain rfl : input.drop k = rest := by simpa using done
      exact ⟨input.take k, by rw [List.length_take]; omega, (List.take_append_drop k input).symm⟩
  · rintro ⟨payload, rfl, rfl⟩
    rw [if_neg (by simp), List.drop_left]

theorem wlcGetv_append (v : Nat) (word : v < 2 ^ 64) (rest : List UInt8) :
    wlcGetv (wlcPutv v ++ rest) = .ok (v, rest) :=
  wlcGetv_eq_ok.mpr ⟨word, rfl⟩

theorem wlcSkip_eq_ok {wire : Nat} {input rest : List UInt8} :
    wlcSkip wire input = .ok rest ↔ ∃ payload, Framed wire payload ∧ input = payload ++ rest := by
  unfold wlcSkip Framed
  split
  · rename_i varint
    subst varint
    simp only [bind_eq_ok, Prod.exists, wlcGetv_eq_ok, Except.ok.injEq]
    constructor
    · rintro ⟨v, after, ⟨word, rfl⟩, rfl⟩
      exact ⟨wlcPutv v, Or.inl ⟨trivial, v, word, rfl⟩, rfl⟩
    · rintro ⟨_, ⟨-, v, word, rfl⟩ | ⟨other, -⟩ | ⟨other, -⟩ | ⟨other, -⟩, rfl⟩
      · exact ⟨v, rest, ⟨word, rfl⟩, rfl⟩
      all_goals omega
  · split
    · rename_i wide
      subst wide
      simp only [take_eq_ok]
      constructor
      · rintro ⟨payload, size, rfl⟩
        exact ⟨payload, Or.inr (Or.inl ⟨trivial, size⟩), rfl⟩
      · rintro ⟨payload, ⟨other, -⟩ | ⟨-, size⟩ | ⟨other, -⟩ | ⟨other, -⟩, rfl⟩
        · omega
        · exact ⟨payload, size, rfl⟩
        all_goals omega
    · split
      · rename_i narrow
        subst narrow
        simp only [take_eq_ok]
        constructor
        · rintro ⟨payload, size, rfl⟩
          exact ⟨payload, Or.inr (Or.inr (Or.inl ⟨trivial, size⟩)), rfl⟩
        · rintro ⟨payload, ⟨other, -⟩ | ⟨other, -⟩ | ⟨-, size⟩ | ⟨other, -⟩, rfl⟩
          · omega
          · omega
          · exact ⟨payload, size, rfl⟩
          · omega
      · split
        · rename_i unknown
          simp only [reduceCtorEq, false_iff]
          rintro ⟨payload, ⟨other, -⟩ | ⟨other, -⟩ | ⟨other, -⟩ | ⟨other, -⟩, -⟩ <;> omega
        · rename_i spanned
          obtain rfl : wire = 2 := by omega
          simp only [bind_eq_ok, Prod.exists, wlcGetv_eq_ok, take_eq_ok]
          constructor
          · rintro ⟨length, after, ⟨word, rfl⟩, bytes, rfl, rfl⟩
            exact ⟨wlcPutv bytes.length ++ bytes, Or.inr (Or.inr (Or.inr ⟨trivial, bytes, word, rfl⟩)),
              (List.append_assoc _ _ _).symm⟩
          · rintro ⟨_, ⟨other, -⟩ | ⟨other, -⟩ | ⟨other, -⟩ | ⟨-, bytes, word, rfl⟩, rfl⟩
            · omega
            · omega
            · omega
            · exact ⟨bytes.length, bytes ++ rest, ⟨word, List.append_assoc _ _ _⟩, bytes, rfl, rfl⟩

theorem toInt_uz32 {v : Nat} (small : v < 2 ^ 32) :
    (wlcUz32 (UInt32.ofNat v)).toInt = Zigzag.decode v := by
  rw [toInt_wlcUz32, UInt32.toNat_ofNat', Nat.mod_eq_of_lt small]

theorem toInt_uz64 {v : Nat} (small : v < 2 ^ 64) :
    (wlcUz64 (UInt64.ofNat v)).toInt = Zigzag.decode v := by
  rw [toInt_wlcUz64, UInt64.toNat_ofNat', Nat.mod_eq_of_lt small]

theorem toInt_uz8 {v : Nat} (small : v < 2 ^ 8) :
    (wlcUz32 (UInt32.ofNat v)).toInt8.toInt = Zigzag.decode v := by
  have range := Zigzag.decode_range (2 ^ 7) small
  rw [Int32.toInt_toInt8, toInt_uz32 (by omega)]
  exact Int.bmod_eq_of_le (by omega) (by omega)

theorem toInt_uz16 {v : Nat} (small : v < 2 ^ 16) :
    (wlcUz32 (UInt32.ofNat v)).toInt16.toInt = Zigzag.decode v := by
  have range := Zigzag.decode_range (2 ^ 15) small
  rw [Int32.toInt_toInt16, toInt_uz32 (by omega)]
  exact Int.bmod_eq_of_le (by omega) (by omega)

theorem encode_toInt_lt {w : Nat} (x : BitVec (w + 1)) : Zigzag.encode x.toInt < 2 ^ (w + 1) := by
  rw [← Zigzag.encode_toInt]
  exact BitVec.isLt _

/-- What the reader stores is what the writer would write back. -/
theorem ofVarint_eq_ok {kind : Kind WlcDesc} {v bits : Nat} (word : v < 2 ^ 64) :
    ofVarint kind v = .ok bits ↔ varintOf kind bits = some v ∧ bits < kind.range := by
  have above {x bound : Nat} (large : bound - 1 < v) (small : x < bound) : x ≠ v := by omega
  cases kind <;>
    simp only [ofVarint, varintOf, Kind.range, Option.some.injEq, reduceCtorEq, false_and,
      wlcZ32_eq_encode, wlcZ64_eq_encode, Int8.toInt_toInt32, Int16.toInt_toInt32]
  case bool =>
    split
    · simp only [reduceCtorEq, false_iff]
      omega
    · rw [Except.ok.injEq]
      split <;> omega
  case u8 =>
    split
    · simp only [reduceCtorEq, false_iff, UInt8.toNat_ofNat']
      omega
    · simp only [Except.ok.injEq, UInt8.toNat_ofNat']
      omega
  case u16 =>
    split
    · simp only [reduceCtorEq, false_iff, UInt16.toNat_ofNat']
      omega
    · simp only [Except.ok.injEq, UInt16.toNat_ofNat']
      omega
  case u32 =>
    split
    · simp only [reduceCtorEq, false_iff, UInt32.toNat_ofNat']
      omega
    · simp only [Except.ok.injEq, UInt32.toNat_ofNat']
      omega
  case u64 =>
    simp only [Except.ok.injEq, UInt64.toNat_ofNat']
    omega
  case i8 =>
    split
    · rename_i large
      simp only [reduceCtorEq, false_iff, not_and]
      exact fun code => absurd code (above large (encode_toInt_lt (UInt8.ofNat bits).toBitVec))
    · rw [Except.ok.injEq]
      exact Zigzag.toNat_eq_iff (toInt_uz8 (by omega))
  case i16 =>
    split
    · rename_i large
      simp only [reduceCtorEq, false_iff, not_and]
      exact fun code => absurd code (above large (encode_toInt_lt (UInt16.ofNat bits).toBitVec))
    · rw [Except.ok.injEq]
      exact Zigzag.toNat_eq_iff (toInt_uz16 (by omega))
  case i64 =>
    rw [Except.ok.injEq]
    exact Zigzag.toNat_eq_iff (toInt_uz64 word)
  all_goals
    split
    · rename_i large
      simp only [reduceCtorEq, false_iff, not_and]
      exact fun code => absurd code (above large (encode_toInt_lt (UInt32.ofNat bits).toBitVec))
    · rw [Except.ok.injEq]
      exact Zigzag.toNat_eq_iff (toInt_uz32 (by omega))

theorem wlcReadFixed_eq_ok {kind : Kind WlcDesc} {input rest : List UInt8} {bits : Nat}
    (wide : 0 < kind.width) :
    wlcReadFixed kind input = .ok (bits, rest) ↔
      bits < 256 ^ kind.width ∧ input = BigEndian.encode kind.width bits ++ rest := by
  have shape : wlcReadFixed kind input =
      if input.length < kind.width then .error .malformed
      else .ok (BigEndian.value (input.take kind.width), input.drop kind.width) := by
    have narrow : BigEndian.value (input.take 4) % 2 ^ 32 = BigEndian.value (input.take 4) := by
      apply Nat.mod_eq_of_lt
      calc BigEndian.value (input.take 4) < 256 ^ (input.take 4).length := BigEndian.value_lt _
        _ ≤ 256 ^ 4 := Nat.pow_le_pow_right (by decide) (List.length_take_le 4 input)
    cases kind <;> simp only [Kind.width, Nat.lt_irrefl] at wide
    all_goals
      simp only [wlcReadFixed, Kind.width, narrow]
      rfl
  rw [shape]
  constructor
  · intro read
    split at read
    · contradiction
    · rename_i enough
      simp only [Except.ok.injEq, Prod.mk.injEq] at read
      obtain ⟨rfl, rfl⟩ := read
      have size : (input.take kind.width).length = kind.width := by
        rw [List.length_take]
        omega
      have bound := BigEndian.value_lt (input.take kind.width)
      have whole := BigEndian.encode_value (input.take kind.width)
      rw [size] at bound whole
      exact ⟨bound, by rw [whole, List.take_append_drop]⟩
  · rintro ⟨small, rfl⟩
    have size := BigEndian.length_encode kind.width bits
    rw [if_neg (by rw [List.length_append]; omega), List.take_left' size, List.drop_left' size,
      BigEndian.value_encode small]

theorem readSpan_eq_ok {bound : Nat} {input bytes rest : List UInt8} :
    readSpan bound input = .ok (bytes, rest) ↔
      bytes.length < 2 ^ 64 ∧ (bound = 0 ∨ bytes.length ≤ bound) ∧
        input = wlcPutv bytes.length ++ bytes ++ rest := by
  simp only [readSpan, bind_eq_ok, Prod.exists, wlcGetv_eq_ok]
  constructor
  · rintro ⟨length, after, ⟨word, rfl⟩, read⟩
    split at read
    · contradiction
    · split at read
      · contradiction
      · simp only [Except.ok.injEq, Prod.mk.injEq] at read
        obtain ⟨rfl, rfl⟩ := read
        have size : (after.take length).length = length := by
          rw [List.length_take]
          omega
        rw [size]
        exact ⟨word, by omega, by rw [List.append_assoc, List.take_append_drop]⟩
  · rintro ⟨word, allowed, rfl⟩
    refine ⟨bytes.length, bytes ++ rest, ⟨word, List.append_assoc _ _ _⟩, ?_⟩
    rw [if_neg (by omega), if_neg (by simp), List.take_left, List.drop_left]

theorem readElements_eq {k count : Nat} {input : List UInt8} {bits : List Nat} {rest : List UInt8}
    (enough : k * count ≤ input.length) :
    readElements k count input = (bits, rest) ↔
      bits.length = count ∧ (∀ b ∈ bits, b < 256 ^ k) ∧
        input = bits.flatMap (BigEndian.encode k) ++ rest := by
  induction count generalizing input bits with
  | zero =>
    simp only [readElements, Prod.mk.injEq]
    constructor
    · rintro ⟨rfl, rfl⟩
      simp
    · rintro ⟨none, -, rfl⟩
      obtain rfl := List.length_eq_zero_iff.mp none
      exact ⟨rfl, rfl⟩
  | succ count ih =>
    rw [Nat.mul_succ] at enough
    have size : (input.take k).length = k := by
      rw [List.length_take]
      omega
    have others : k * count ≤ (input.drop k).length := by
      rw [List.length_drop]
      omega
    simp only [readElements, Prod.mk.injEq]
    constructor
    · rintro ⟨rfl, rfl⟩
      obtain ⟨length, each, whole⟩ := (ih others).mp rfl
      have bound := BigEndian.value_lt (input.take k)
      have first := BigEndian.encode_value (input.take k)
      rw [size] at bound first
      refine ⟨by rw [List.length_cons, length], List.forall_mem_cons.mpr ⟨bound, each⟩, ?_⟩
      rw [List.flatMap_cons, first, List.append_assoc, ← whole, List.take_append_drop]
    · rintro ⟨length, each, rfl⟩
      obtain ⟨b, bits, rfl⟩ := List.exists_cons_of_length_eq_add_one length
      obtain ⟨small, each⟩ := List.forall_mem_cons.mp each
      have size := BigEndian.length_encode k b
      rw [List.flatMap_cons, List.append_assoc] at others ⊢
      rw [List.drop_left' size] at others ⊢
      obtain read := (ih others).mpr ⟨by simpa using length, each, rfl⟩
      rw [read, List.take_left' size, BigEndian.value_encode small]
      exact ⟨rfl, rfl⟩

/-- The bytes after a field's key hold a value: those that the writer puts there for a complete
value, or any encoding of a nested message. -/
def Holds (f : WlcField WlcDesc) (held : List UInt8) (value : Value) : Prop :=
  match f.kind with
  | .message nested => ∃ bytes slots, bytes.length < 2 ^ 64 ∧ held = wlcPutv bytes.length ++ bytes ∧
      wlcDecode nested bytes = .ok slots ∧ value = .message slots
  | _ => typedField f value = true ∧ completeField false f value = true ∧
      held = payload f value ∧ ∀ bytes, value = .span bytes → bytes.length < 2 ^ 64

theorem packed_plain {f : WlcField WlcDesc} (fits : f.fits = true) (packed : f.card = .packed)
    (nested : WlcDesc) : f.kind ≠ .message nested := by
  obtain ⟨-, wide, -⟩ := packed_fits fits packed
  intro same
  simp [same, Kind.width] at wide

theorem holds_plain {f : WlcField WlcDesc} (plain : ∀ nested, f.kind ≠ .message nested)
    {held : List UInt8} {value : Value} :
    Holds f held value ↔ typedField f value = true ∧ completeField false f value = true ∧
      held = payload f value ∧ ∀ bytes, value = .span bytes → bytes.length < 2 ^ 64 := by
  unfold Holds
  split
  · rename_i nested same
    exact absurd same (plain nested)
  · rfl

theorem typedField_elements {f : WlcField WlcDesc} {bits : List Nat} (packed : f.card = .packed)
    (count : bits.length = f.packedCount) (each : ∀ b ∈ bits, b < 256 ^ f.element) :
    typedField f (.elements bits) = true ∧ completeField false f (.elements bits) = true := by
  obtain ⟨row, kind⟩ := f
  simp only at packed count each
  simp only [typedField, completeField, packed, Bool.and_eq_true, beq_iff_eq, List.all_eq_true,
    decide_eq_true_eq]
  exact ⟨⟨count, each⟩, trivial⟩

theorem reads_packed {f : WlcField WlcDesc} (fits : f.fits = true) (packed : f.card = .packed) :
    Reads (wlcReadPacked f.toWlcRow f.kind) (Holds f) := by
  obtain ⟨-, wide, element, small⟩ := packed_fits fits packed
  have bytes := wlcPackedBytes_eq fits packed
  have word : f.element * f.packedCount < 2 ^ 64 := by simp only [sizeMax] at small; omega
  intro input value rest
  simp only [wlcReadPacked, bind_eq_ok, Prod.exists, wlcGetv_eq_ok, bytes, Except.ok.injEq,
    holds_plain (packed_plain fits packed)]
  constructor
  · rintro ⟨encoded, after, ⟨-, rfl⟩, _, rfl, read⟩
    split at read
    · contradiction
    · rename_i all
      obtain ⟨rfl, enough⟩ : encoded = f.element * f.packedCount ∧
          f.kind.width * f.packedCount ≤ after.length := by
        rw [← element]
        omega
      rw [if_neg (Nat.ne_of_gt wide)] at read
      obtain ⟨bits, after', elements⟩ : ∃ bits after',
          readElements f.kind.width f.packedCount after = (bits, after') := ⟨_, _, rfl⟩
      simp only [elements, Except.ok.injEq, Prod.mk.injEq] at read
      obtain ⟨rfl, rfl⟩ := read
      obtain ⟨count, each, rfl⟩ := (readElements_eq enough).mp elements
      rw [← element] at each ⊢
      obtain ⟨fitting, whole⟩ := typedField_elements packed count each
      obtain ⟨bits', same, -, -, written⟩ := payload_packed packed fitting
      cases same
      exact ⟨_, ⟨fitting, whole, rfl, by simp⟩, by rw [written, List.append_assoc]⟩
  · rintro ⟨_, ⟨fitting, -, rfl, -⟩, rfl⟩
    obtain ⟨bits, rfl, count, each, written⟩ := payload_packed packed fitting
    have size := length_elements f.element bits
    rw [count] at size
    refine ⟨_, _, ⟨word, by rw [written, List.append_assoc]⟩, _, rfl, ?_⟩
    rw [if_neg (by rw [List.length_append]; omega), if_neg (Nat.ne_of_gt wide)]
    rw [element] at each size ⊢
    rw [(readElements_eq (by rw [List.length_append]; omega)).mpr ⟨count, each, rfl⟩]

theorem checkSpan_isOk {row : WlcRow} {text : Bool} {bytes : List UInt8} :
    (checkSpan row text bytes).isOk = true ↔
      (row.maxLength = 0 ∨ bytes.length ≤ row.maxLength) ∧ (text = true → wlcUtf8 bytes = true) := by
  unfold checkSpan
  split
  · simp only [Except.isOk, Except.toBool, Bool.false_eq_true, false_iff]
    omega
  · split
    · rename_i refused
      simp_all [Except.isOk, Except.toBool]
    · rename_i accepted
      simp_all [Except.isOk, Except.toBool]
      omega

theorem typedValue_scalar {kind : Kind WlcDesc} {value : Value} (scalar : 0 < kind.range) :
    typedValue kind value = true ↔ ∃ bits, value = .word bits ∧ bits < kind.range := by
  cases value with
  | word bits => simp [typedValue_word]
  | span bytes => cases kind <;> simp_all [typedValue, Kind.range]
  | elements bits => cases kind <;> simp_all [typedValue, Kind.range]
  | message slots => cases kind <;> simp_all [typedValue, Kind.range]

theorem wlcReadValue_scalar (row : WlcRow) {kind : Kind WlcDesc} (scalar : 0 < kind.range) :
    wlcReadValue row kind = readScalar kind := by
  cases kind <;> first | rfl | exact absurd scalar (Nat.lt_irrefl _)

/-- A number is read where the writer would put it. -/
theorem readScalar_eq_ok {kind : Kind WlcDesc} {input rest : List UInt8} {value : Value}
    (scalar : 0 < kind.range) :
    readScalar kind input = .ok (value, rest) ↔
      ∃ bits, value = .word bits ∧ bits < kind.range ∧
        input = payloadValue kind (.word bits) ++ rest := by
  unfold readScalar
  by_cases wide : kind.width ≠ 0
  · have range : 256 ^ kind.width = kind.range := by
      cases kind <;> first | rfl | exact absurd rfl wide
    have written (bits : Nat) :
        payloadValue kind (.word bits) = BigEndian.encode kind.width bits := by
      cases kind <;> first | rfl | exact absurd rfl wide
    simp only [if_pos wide, bind_eq_ok, Prod.exists, wlcReadFixed_eq_ok (Nat.pos_of_ne_zero wide),
      Except.ok.injEq, Prod.mk.injEq, range, written]
    constructor
    · rintro ⟨bits, _, ⟨small, rfl⟩, rfl, rfl⟩
      exact ⟨bits, rfl, small, rfl⟩
    · rintro ⟨bits, rfl, small, rfl⟩
      exact ⟨bits, rest, ⟨small, rfl⟩, rfl, rfl⟩
  · have held (bits : Nat) : ∃ v, varintOf kind bits = some v := by
      cases kind <;> simp_all [varintOf, Kind.width, Kind.range]
    have written {bits v : Nat} (same : varintOf kind bits = some v) :
        payloadValue kind (.word bits) = wlcPutv v := by
      cases kind <;> simp_all [payloadValue, varintOf]
    simp only [if_neg wide, bind_eq_ok, Prod.exists, wlcGetv_eq_ok, Except.ok.injEq, Prod.mk.injEq]
    constructor
    · rintro ⟨v, _, ⟨word, rfl⟩, bits, read, rfl, rfl⟩
      obtain ⟨same, small⟩ := (ofVarint_eq_ok word).mp read
      exact ⟨bits, rfl, small, by rw [written same]⟩
    · rintro ⟨bits, rfl, small, rfl⟩
      obtain ⟨v, same⟩ := held bits
      have word := varintOf_lt small same
      exact ⟨v, rest, ⟨word, by rw [written same]⟩, bits, (ofVarint_eq_ok word).mpr ⟨same, small⟩,
        rfl, rfl⟩

theorem reads_scalar {row : WlcRow} {kind : Kind WlcDesc} (single : row.card = .optional)
    (scalar : 0 < kind.range) : Reads (wlcReadValue row kind) (Holds ⟨row, kind⟩) := by
  have plain (nested : WlcDesc) : (⟨row, kind⟩ : WlcField WlcDesc).kind ≠ .message nested := by
    rintro same
    simp only at same
    simp [same, Kind.range] at scalar
  intro input value rest
  rw [wlcReadValue_scalar row scalar, readScalar_eq_ok scalar]
  simp only [holds_plain plain, typedField, completeField, payload, single,
    typedValue_scalar scalar]
  constructor
  · rintro ⟨bits, rfl, small, rfl⟩
    exact ⟨_, ⟨⟨bits, rfl, small⟩, completeValue_word false row, rfl, by simp⟩, rfl⟩
  · rintro ⟨_, ⟨⟨bits, rfl, small⟩, -, rfl, -⟩, rfl⟩
    exact ⟨bits, rfl, small, rfl⟩

theorem reads_value {row : WlcRow} {kind : Kind WlcDesc} (single : row.card = .optional) :
    Reads (wlcReadValue row kind) (Holds ⟨row, kind⟩) := by
  cases kind
  case message nested =>
    intro input value rest
    simp only [wlcReadValue, Holds, bind_eq_ok, Prod.exists, readSpan_eq_ok]
    constructor
    · rintro ⟨bytes, after, ⟨word, -, rfl⟩, slots, read, done⟩
      simp only [Except.ok.injEq, Prod.mk.injEq] at done
      obtain ⟨rfl, rfl⟩ := done
      exact ⟨_, ⟨bytes, slots, word, rfl, read, rfl⟩, rfl⟩
    · rintro ⟨_, ⟨bytes, slots, word, rfl, read, rfl⟩, rfl⟩
      exact ⟨bytes, rest, ⟨word, Or.inl trivial, rfl⟩, slots, read, rfl⟩
  case bytes =>
    have plain (nested : WlcDesc) : (⟨row, .bytes⟩ : WlcField WlcDesc).kind ≠ .message nested := by
      simp
    intro input value rest
    simp only [wlcReadValue, holds_plain plain, bind_eq_ok, Prod.exists, readSpan_eq_ok,
      typedField, completeField, payload, single]
    constructor
    · rintro ⟨bytes, after, ⟨word, allowed, rfl⟩, done⟩
      simp only [Except.ok.injEq, Prod.mk.injEq] at done
      obtain ⟨rfl, rfl⟩ := done
      refine ⟨_, ⟨rfl, checkSpan_isOk.mpr ⟨allowed, by simp⟩, rfl, ?_⟩, rfl⟩
      rintro _ ⟨⟩
      exact word
    · rintro ⟨_, ⟨fitting, whole, rfl, word⟩, rfl⟩
      cases value <;> simp only [typedValue, Kind.range, Nat.not_lt_zero, decide_false,
        Bool.false_eq_true] at fitting
      rename_i bytes
      exact ⟨bytes, rest, ⟨word bytes rfl, (checkSpan_isOk.mp whole).1, rfl⟩, rfl⟩
  case string =>
    have plain (nested : WlcDesc) : (⟨row, .string⟩ : WlcField WlcDesc).kind ≠ .message nested := by
      simp
    intro input value rest
    simp only [wlcReadValue, holds_plain plain, bind_eq_ok, Prod.exists, readSpan_eq_ok,
      typedField, completeField, payload, single]
    constructor
    · rintro ⟨bytes, after, ⟨word, allowed, rfl⟩, done⟩
      split at done
      · contradiction
      · rename_i text
        simp only [Except.ok.injEq, Prod.mk.injEq] at done
        obtain ⟨rfl, rfl⟩ := done
        refine ⟨_, ⟨rfl, checkSpan_isOk.mpr ⟨allowed, fun _ => by simpa using text⟩, rfl, ?_⟩, rfl⟩
        rintro _ ⟨⟩
        exact word
    · rintro ⟨_, ⟨fitting, whole, rfl, word⟩, rfl⟩
      cases value <;> simp only [typedValue, Kind.range, Nat.not_lt_zero, decide_false,
        Bool.false_eq_true] at fitting
      rename_i bytes
      obtain ⟨allowed, text⟩ := checkSpan_isOk.mp whole
      refine ⟨bytes, rest, ⟨word bytes rfl, allowed, rfl⟩, ?_⟩
      rw [if_neg (by simpa using text rfl)]
  all_goals exact reads_scalar single (by decide)

/-- A field's reader accepts exactly the bytes that hold a value of the field. -/
theorem reads_field {f : WlcField WlcDesc} (fits : f.fits = true) :
    Reads (fieldReader f) (Holds f) := by
  cases card : f.card with
  | optional =>
    obtain ⟨row, kind⟩ := f
    simp only at card
    simp only [fieldReader, card, reduceCtorEq, if_false]
    exact reads_value card
  | packed =>
    have reads := reads_packed fits card
    obtain ⟨row, kind⟩ := f
    simp only at card
    simp only [fieldReader, card, if_true]
    exact reads

end Florid.Codec
