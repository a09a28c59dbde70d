import Florid.Codec.Protocol
import Florid.Wirelink.Commands

/-! The command messages in the codec's terms: the payload of a `send*` call is what `wlc_encode`
writes for the message of its descriptor, so the device decodes the values of the call. -/
namespace Florid.Codec
open Wirelink

def commandDesc : CommandMessage → WlcDesc
  | .jointMit => jointMitCommandDesc
  | .gripperMit => gripperMitCommandDesc
  | .jointPositionVelocity => jointPositionVelocityCommandDesc
  | .jointVelocity => jointVelocityCommandDesc
  | .jointPvt => jointPvtCommandDesc
  | .cartesianPose => cartesianPoseCommandDesc
  | .cartesianVelocity => cartesianVelocityCommandDesc
  | .gripperPositionVelocity => gripperPositionVelocityCommandDesc
  | .gripperVelocity => gripperVelocityCommandDesc
  | .gripperPvt => gripperPvtCommandDesc

/-- What a field's value is in the storage of the message. -/
def stored : WireValue → Value
  | .packed xs => .elements (xs.map BitVec.toNat)
  | .float x => .word x.toNat
  | .varint v => .word v
  | .fixed32 v => .word v.toNat
  | .fixed64 v => .word (v % 2 ^ 64)

/-- The message that a command call fills in; all its fields are present. -/
def commandSlots (wire : CommandWire) : Slots := wire.values.map fun v => ⟨true, stored v⟩

theorem put32_eq (v : BitVec 32) : put32 v = BigEndian.encode 4 v.toNat := by
  simp only [put32, BigEndian.encode, List.map_cons, List.map_nil, Nat.shiftRight_eq_div_pow]
  norm_num

theorem put64_eq (v : Nat) : put64 v = BigEndian.encode 8 (v % 2 ^ 64) := by
  rw [show (2 : Nat) ^ 64 = 256 ^ 8 by norm_num, BigEndian.encode_mod, put64, put32_eq, put32_eq,
    BitVec.toNat_ofNat, BitVec.toNat_ofNat, show (2 : Nat) ^ 32 = 256 ^ 4 by norm_num,
    BigEndian.encode_mod, BigEndian.encode_mod]
  simp only [BigEndian.encode, Nat.shiftRight_eq_div_pow, Nat.div_div_eq_div_mul, List.cons_append,
    List.nil_append]
  norm_num

theorem putV_eq (fuel v : Nat) (small : v < 128 ^ (fuel + 1)) :
    putV (fuel + 1) v = Base128.encode v := by
  induction fuel generalizing v with
  | zero => rw [putV, Base128.encode, if_pos (by omega), if_pos (by omega)]
  | succ fuel ih =>
    rw [putV, Base128.encode]
    split
    · rfl
    · rw [ih]
      rw [Nat.div_lt_iff_lt_mul (by decide), ← Nat.pow_succ]
      exact small

/-- A field that takes a value: what the two models of the encoder write for it is the same. -/
structure Carries (number : Nat) (v : WireValue) (f : WlcField WlcDesc) : Prop where
  number : f.number = number
  wire : f.wire = v.type
  fitting : typedField f (stored v) = true
  whole : completeField false f (stored v) = true
  body : payload f (stored v) = v.body

inductive CarriesAll : Nat → List WireValue → List (WlcField WlcDesc) → Prop where
  | nil {number : Nat} : CarriesAll number [] []
  | cons {number : Nat} {v : WireValue} {vs : List WireValue} {f : WlcField WlcDesc}
      {fields : List (WlcField WlcDesc)} (carries : Carries number v f)
      (rest : CarriesAll (number + 1) vs fields) : CarriesAll number (v :: vs) (f :: fields)

theorem type_le (v : WireValue) : v.type ≤ 5 := by
  cases v <;> simp [WireValue.type]

theorem reset_stored (f : WlcField WlcDesc) (v : WireValue) : resetField f (stored v) = stored v := by
  obtain ⟨row, kind⟩ := f
  cases kind <;> cases v <;> rfl

/-- The two models of the encoder agree on a whole message. -/
theorem CarriesAll.agrees {number : Nat} {vs : List WireValue} {fields : List (WlcField WlcDesc)}
    (all : CarriesAll number vs fields) (few : number + vs.length ≤ 15) :
    typedFields fields (vs.map fun v => ⟨true, stored v⟩) = true ∧
      completeFields false fields (vs.map fun v => ⟨true, stored v⟩) = true ∧
      canonicalFields fields (vs.map fun v => ⟨true, stored v⟩) = Wirelink.emitFields number vs ∧
      resetFields fields (vs.map fun v => ⟨true, stored v⟩) = vs.map fun v => ⟨true, stored v⟩ := by
  induction all with
  | nil => exact ⟨rfl, rfl, rfl, rfl⟩
  | @cons number v vs f fields carries rest ih =>
    rw [List.length_cons] at few
    obtain ⟨fitting, whole, written, kept⟩ := ih (by omega)
    have least : 8 * number + v.type < 128 := by have := type_le v; omega
    rw [List.map_cons, typedFields, completeFields, canonicalFields, Wirelink.emitFields, resetFields,
      fitting, whole, written, kept, carries.fitting, carries.number, carries.wire, carries.body,
      reset_stored, wlcPutv_eq_encode, Base128.encode_last least]
    simp [carries.whole]

section Fields
variable {number : Nat} {key : UInt8}

theorem carries_packed {xs : List Binary32} {count : Nat} (length : xs.length = count)
    (few : 4 * count < 128 ^ 10) :
    Carries number (.packed xs) (packed number .float32 true key 4 count) where
  number := rfl
  wire := rfl
  fitting := by
    simp only [typedField, stored, packed, Bool.and_eq_true, beq_iff_eq, List.all_eq_true,
      List.mem_map, decide_eq_true_eq, List.length_map]
    refine ⟨length, ?_⟩
    rintro - ⟨x, -, rfl⟩
    exact x.isLt
  whole := rfl
  body := by
    have words : put32 = fun x => BigEndian.encode 4 x.toNat := funext put32_eq
    simp only [payload, stored, packed, WireValue.body, wlcPutv_eq_encode, length,
      putV_eq 9 (4 * count) few, List.flatMap_map, words]

theorem carries_float (x : Binary32) : Carries number (.float x) (single number .float32 true 5 key) where
  number := rfl
  wire := rfl
  fitting := by simpa only [typedField, stored, single] using typedValue_word.mpr x.isLt
  whole := rfl
  body := by
    simp only [payload, stored, single, payloadValue, varintOf, WireValue.body, put32_eq, Kind.width]

theorem carries_fixed32 (v : BitVec 32) :
    Carries number (.fixed32 v) (single number .f32 true 5 key) where
  number := rfl
  wire := rfl
  fitting := by simpa only [typedField, stored, single] using typedValue_word.mpr v.isLt
  whole := rfl
  body := by
    simp only [payload, stored, single, payloadValue, varintOf, WireValue.body, put32_eq, Kind.width]

theorem carries_fixed64 (v : Nat) : Carries number (.fixed64 v) (single number .f64 true 1 key) where
  number := rfl
  wire := rfl
  fitting := by
    have small : v % 2 ^ 64 < 2 ^ 64 := Nat.mod_lt _ (by decide)
    simpa only [typedField, stored, single] using typedValue_word.mpr small
  whole := rfl
  body := by
    simp only [payload, stored, single, payloadValue, varintOf, WireValue.body, put64_eq, Kind.width]

theorem carries_mask {v : Nat} (small : v < 2 ^ 8) :
    Carries number (.varint v) (single number .u8 true 0 key) where
  number := rfl
  wire := rfl
  fitting := by simpa only [typedField, stored, single] using typedValue_word.mpr small
  whole := rfl
  body := by
    have byte : (UInt8.ofNat v).toNat = v := UInt8.toNat_ofNat_of_lt' small
    simp only [payload, stored, single, payloadValue, varintOf, WireValue.body, wlcPutv_eq_encode,
      byte]
    rw [putV_eq 9 v (by omega)]

theorem carries_bool (on : Bool) : Carries number (.varint on.toNat) (single number .bool true 0 key) where
  number := rfl
  wire := rfl
  fitting := by cases on <;> rfl
  whole := rfl
  body := by
    simp only [payload, stored, single, payloadValue, varintOf, WireValue.body, wlcPutv_eq_encode]
    rw [putV_eq 9 _ (by cases on <;> decide)]

/-- A field of floats as the message has it: packed, unless it is one value. -/
def floatValue (field : CommandField × List Binary32) : WireValue :=
  match field.2 with
  | [x] => .float x
  | xs => .packed xs

theorem values_eq (wire : CommandWire) : wire.values =
    wire.floats.map floatValue ++ wire.enabledMask.toList.map .varint ++
      wire.dtUs.toList.map (fun dt => .fixed32 (BitVec.ofNat 32 dt)) ++ [.fixed32 wire.sequence] ++
      wire.gravityCompensation.toList.map (fun on => .varint on.toNat) ++
      [.fixed64 wire.sdkTimestampUs] ++ [.fixed64 wire.leaseToken] := rfl

theorem floatValue_packed {name : CommandField} {xs : List Binary32} (several : xs.length ≠ 1) :
    floatValue (name, xs) = .packed xs := by
  rcases xs with - | ⟨x, - | ⟨y, xs⟩⟩
  · rfl
  · exact absurd rfl several
  · rfl

theorem carries_floats {name : CommandField} {k : Nat} (xs : Vector Binary32 k)
    (size : 1 < k ∧ k ≤ 16) :
    Carries number (floatValue (name, xs.toList)) (packed number .float32 true key 4 k) := by
  rw [floatValue_packed (by rw [Vector.length_toList]; omega)]
  exact carries_packed (by simp) (by omega)

end Fields

/-- The fields of each command message are those of its descriptor, in order. -/
theorem command_carries (c : Send) (token : Nat) (sequence : BitVec 32) :
    CarriesAll 1 (c.spec.wire token sequence).values (commandDesc c.spec.message).fields := by
  have six : 1 < 6 ∧ 6 ≤ 16 := by decide
  have sixteen : 1 < 16 ∧ 16 ≤ 16 := by decide
  have mask : 0x3f < 2 ^ 8 := by decide
  rw [values_eq]
  cases c with
  | jointMit c dtUs sent =>
    exact .cons (carries_floats c.q six) <| .cons (carries_floats c.dq six) <|
      .cons (carries_floats c.tau six) <| .cons (carries_floats c.kp six) <|
      .cons (carries_floats c.kd six) <| .cons (carries_fixed32 _) <| .cons (carries_fixed32 _) <|
      .cons (carries_bool _) <| .cons (carries_fixed64 _) <| .cons (carries_fixed64 _) .nil
  | gripperMit c dtUs sent =>
    exact .cons (carries_float _) <| .cons (carries_float _) <| .cons (carries_float _) <|
      .cons (carries_float _) <| .cons (carries_float _) <| .cons (carries_fixed32 _) <|
      .cons (carries_fixed32 _) <| .cons (carries_bool _) <| .cons (carries_fixed64 _) <|
      .cons (carries_fixed64 _) .nil
  | jointPositionVelocity c sent =>
    exact .cons (carries_floats c.q six) <| .cons (carries_floats c.dq six) <|
      .cons (carries_mask mask) <| .cons (carries_fixed32 _) <| .cons (carries_fixed64 _) <|
      .cons (carries_fixed64 _) .nil
  | jointVelocity c sent =>
    exact .cons (carries_floats c.dq six) <| .cons (carries_mask mask) <|
      .cons (carries_fixed32 _) <| .cons (carries_fixed64 _) <| .cons (carries_fixed64 _) .nil
  | jointPvt c sent =>
    exact .cons (carries_floats c.q six) <| .cons (carries_floats c.dqLimit six) <|
      .cons (carries_floats c.currentLimitNorm six) <| .cons (carries_mask mask) <|
      .cons (carries_fixed32 _) <| .cons (carries_fixed64 _) <| .cons (carries_fixed64 _) .nil
  | cartesianPose c dtUs sent =>
    exact .cons (carries_floats c.transform sixteen) <| .cons (carries_floats c.kp six) <|
      .cons (carries_floats c.kd six) <| .cons (carries_fixed32 _) <| .cons (carries_fixed32 _) <|
      .cons (carries_bool _) <| .cons (carries_fixed64 _) <| .cons (carries_fixed64 _) .nil
  | cartesianVelocity c dtUs sent =>
    exact .cons (carries_floats c.v six) <| .cons (carries_floats c.kp six) <|
      .cons (carries_floats c.kd six) <| .cons (carries_fixed32 _) <| .cons (carries_fixed32 _) <|
      .cons (carries_bool _) <| .cons (carries_fixed64 _) <| .cons (carries_fixed64 _) .nil
  | gripperPositionVelocity c sent =>
    exact .cons (carries_float _) <| .cons (carries_float _) <| .cons (carries_fixed32 _) <|
      .cons (carries_fixed64 _) <| .cons (carries_fixed64 _) .nil
  | gripperVelocity c sent =>
    exact .cons (carries_float _) <| .cons (carries_fixed32 _) <| .cons (carries_fixed64 _) <|
      .cons (carries_fixed64 _) .nil
  | gripperPvt c sent =>
    exact .cons (carries_float _) <| .cons (carries_float _) <| .cons (carries_float _) <|
      .cons (carries_fixed32 _) <| .cons (carries_fixed64 _) <| .cons (carries_fixed64 _) .nil

theorem command_fits (m : CommandMessage) : wellFormed (commandDesc m) = true ∧
    (commandDesc m).fields.length ≤ 10 := by
  cases m <;> exact ⟨by decide +kernel, by decide⟩

theorem CarriesAll.length {number : Nat} {vs : List WireValue} {fields : List (WlcField WlcDesc)}
    (all : CarriesAll number vs fields) : vs.length = fields.length := by
  induction all with
  | nil => rfl
  | cons carries rest ih => rw [List.length_cons, List.length_cons, ih]

/-- The message of a command call has the type of its descriptor and all its fields. -/
theorem command_whole (c : Send) (token : Nat) (sequence : BitVec 32) :
    typed (commandDesc c.spec.message) (commandSlots (c.spec.wire token sequence)) = true ∧
      complete false (commandDesc c.spec.message) (commandSlots (c.spec.wire token sequence)) = true ∧
      canonical (commandDesc c.spec.message) (commandSlots (c.spec.wire token sequence)) =
        Wirelink.emitFields 1 (c.spec.wire token sequence).values ∧
      reset (commandDesc c.spec.message) (commandSlots (c.spec.wire token sequence)) =
        commandSlots (c.spec.wire token sequence) := by
  have all := command_carries c token sequence
  have few := (command_fits c.spec.message).2
  rw [← all.length] at few
  obtain ⟨fitting, whole, written, kept⟩ := all.agrees (by omega)
  rw [commandSlots]
  generalize commandDesc c.spec.message = d at *
  obtain ⟨fields, lookup⟩ := d
  rw [typed, complete, canonical, reset]
  exact ⟨fitting, whole, written, kept⟩

/-- The payload of a `send*` call is what the codec writes for the message of its descriptor, in the
same room, and the device that decodes it reads every value of the call. -/
theorem command_received (c : Send) (token : Nat) (sequence : BitVec 32) {capacity : Nat}
    (room : capacity ≤ sizeMax) (bytes : List UInt8) :
    ((c.spec.wire token sequence).encode capacity = some bytes ↔
      wlcEncode (commandDesc c.spec.message) (commandSlots (c.spec.wire token sequence)) capacity =
        .ok bytes) ∧
    ((c.spec.wire token sequence).encode capacity = some bytes →
      wlcDecode (commandDesc c.spec.message) bytes =
        .ok (commandSlots (c.spec.wire token sequence))) := by
  obtain ⟨fitting, whole, written, kept⟩ := command_whole c token sequence
  have fits := (command_fits c.spec.message).1
  have encoded : (c.spec.wire token sequence).encode capacity = some bytes ↔
      bytes = Wirelink.emitFields 1 (c.spec.wire token sequence).values ∧ bytes.length ≤ capacity := by
    rw [CommandWire.encode]
    split
    · rename_i short
      simp only [reduceCtorEq, false_iff]
      rintro ⟨rfl, enough⟩
      omega
    · rename_i enough
      rw [Option.some.injEq]
      constructor
      · rintro rfl
        exact ⟨rfl, by omega⟩
      · rintro ⟨rfl, -⟩
        rfl
  rw [wlcEncode_eq_ok fits fitting, encoded, written]
  refine ⟨?_, ?_⟩
  · constructor
    · rintro ⟨same, enough⟩
      exact ⟨whole, same, enough, Nat.le_trans enough room⟩
    · rintro ⟨-, same, enough, -⟩
      exact ⟨same, enough⟩
  · rintro ⟨rfl, enough⟩
    have read := decodes fits _ fitting whole
      (by rw [written]; simp only [sizeMax] at room; omega)
    rwa [written, kept] at read

theorem gripperVelocity_received :
    wlcDecode gripperVelocityCommandDesc
        (Wirelink.emitFields 1 ((sendGripperVelocity {} 5).wire 7 9).values) =
      .ok (commandSlots ((sendGripperVelocity {} 5).wire 7 9)) :=
  (command_received (.gripperVelocity {} 5) 7 9 (by decide : 2048 ≤ sizeMax) _).2 (by decide +kernel)

end Florid.Codec
