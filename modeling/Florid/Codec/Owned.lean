import Florid.Codec.Protocol

/-! Owned values: messages whose strings and bytes are held in arrays of their own, and the calls
that encode and decode them. -/
namespace Florid.Codec

/-- What lies in a `…_value_t`: as in a view, with a length and an array in place of a span. -/
inductive Owned where
  | word (bits : Nat)
  | buffer (length : Nat) (data : List UInt8)
  | elements (bits : List Nat)
  | message (slots : List (Slot Owned))

abbrev OwnedSlots := List (Slot Owned)

mutual
/-- `…_value_clear`, which is `…_value_defaults` over zeroed memory -/
def valueClear : WlcDesc → OwnedSlots
  | .mk fields _ => valueDefaults fields

def valueDefaults : List (WlcField WlcDesc) → OwnedSlots
  | [] => []
  | f :: fields => ⟨false, valueDefault f⟩ :: valueDefaults fields

def valueDefault : WlcField WlcDesc → Owned
  | ⟨row, kind⟩ =>
    match row.card with
    | .packed => .elements (List.replicate row.packedCount 0)
    | .optional => optionalDefault row kind

def optionalDefault (row : WlcRow) : Kind WlcDesc → Owned
  | .message nested => .message (valueClear nested)
  | .bytes | .string => .buffer 0 (List.replicate row.maxLength 0)
  | kind =>
    match clearValue row kind with
    | .word bits => .word bits
    | _ => .word 0
end

/-- An array of `maxLength` bytes that starts with these, over zeroed memory. -/
def filled (maxLength : Nat) (bytes : List UInt8) : List UInt8 :=
  bytes ++ List.replicate (maxLength - bytes.length) 0

mutual
/-- `…_wlc_detail_value_copy` -/
def valueCopy : WlcDesc → Slots → OwnedSlots
  | .mk fields _, view => valueCopyFields fields view

def valueCopyFields : List (WlcField WlcDesc) → Slots → OwnedSlots
  | f :: fields, slot :: view =>
    (if slot.has then ⟨true, valueCopyField f slot.value⟩ else ⟨false, valueDefault f⟩) ::
      valueCopyFields fields view
  | _, _ => []

def valueCopyField : WlcField WlcDesc → Value → Owned
  | ⟨_, .message nested⟩, .message view => .message (valueCopy nested view)
  | ⟨row, _⟩, .span bytes => .buffer bytes.length (filled row.maxLength bytes)
  | _, .elements bits => .elements bits
  | _, .word bits => .word bits
  | _, .message _ => .message []
end

mutual
/-- `…_value_borrow`: the view of an owned value, whose spans lie in its arrays. -/
def valueBorrow : WlcDesc → OwnedSlots → Except Status Slots
  | .mk fields _, value => valueBorrowFields fields value

def valueBorrowFields : List (WlcField WlcDesc) → OwnedSlots → Except Status Slots
  | f :: fields, slot :: value => do
    let first ← (if slot.has then valueBorrowField f slot.value else .ok (clearField f) :
      Except Status Value)
    let rest ← valueBorrowFields fields value
    .ok (⟨slot.has, first⟩ :: rest)
  | _, _ => .ok []

def valueBorrowField : WlcField WlcDesc → Owned → Except Status Value
  | ⟨_, .message nested⟩, .message value => do
    let view ← valueBorrow nested value
    .ok (.message view)
  | ⟨row, _⟩, .buffer length data =>
    if row.maxLength < length then .error .invalidValue else .ok (.span (data.take length))
  | _, .elements bits => .ok (.elements bits)
  | _, .word bits => .ok (.word bits)
  | _, .message _ => .ok (.message [])
end

/-- `…_value_from_view` -/
def valueFromView (d : WlcDesc) (view : Slots) : Except Status OwnedSlots := do
  let _ ← wlcMeasure d view
  .ok (valueCopy d view)

/-- `…_value_to_view` -/
def valueToView (d : WlcDesc) (value : OwnedSlots) : Except Status Slots := do
  let view ← valueBorrow d value
  let _ ← wlcMeasure d view
  .ok view

/-- `…_value_encode` -/
def valueEncode (d : WlcDesc) (value : OwnedSlots) (cap : Nat) : Except Status (List UInt8) := do
  let view ← valueBorrow d value
  wlcEncode d view cap

/-- `…_value_decode` -/
def valueDecode (d : WlcDesc) (input : List UInt8) : Except Status OwnedSlots := do
  let view ← wlcDecode d input
  .ok (valueCopy d view)

mutual
/-- An owned value has the C type that its descriptor describes. -/
def typedOwned : WlcDesc → OwnedSlots → Bool
  | .mk fields _, value => typedOwnedFields fields value

def typedOwnedFields : List (WlcField WlcDesc) → OwnedSlots → Bool
  | [], [] => true
  | f :: fields, slot :: value => typedOwnedField f slot.value && typedOwnedFields fields value
  | _, _ => false

def typedOwnedField : WlcField WlcDesc → Owned → Bool
  | ⟨row, kind⟩, value =>
    match row.card, value with
    | .packed, .elements bits => bits.length == row.packedCount && bits.all (· < 256 ^ row.element)
    | .packed, _ => false
    | .optional, value => typedOwnedValue row kind value

def typedOwnedValue (row : WlcRow) : Kind WlcDesc → Owned → Bool
  | .message nested, .message value => typedOwned nested value
  | .bytes, .buffer _ data | .string, .buffer _ data => data.length == row.maxLength
  | kind, .word bits => bits < kind.range
  | _, _ => false
end

mutual
/-- The fields that an owned value does not have at their defaults, and its arrays zero from their
lengths on. -/
def normal : WlcDesc → OwnedSlots → OwnedSlots
  | .mk fields _, value => normalFields fields value

def normalFields : List (WlcField WlcDesc) → OwnedSlots → OwnedSlots
  | f :: fields, slot :: value =>
    (if slot.has then ⟨true, normalField f slot.value⟩ else ⟨false, valueDefault f⟩) ::
      normalFields fields value
  | _, _ => []

def normalField : WlcField WlcDesc → Owned → Owned
  | ⟨_, .message nested⟩, .message value => .message (normal nested value)
  | ⟨row, _⟩, .buffer length data => .buffer length (filled row.maxLength (data.take length))
  | _, value => value
end

/-- What a descriptor's owned values are as views: messages that no reset changes, from which the
normal values are copied. -/
def Borrows (d : WlcDesc) : Prop :=
  ∀ value view, typedOwned d value = true → valueBorrow d value = .ok view →
    typed d view = true ∧ reset d view = view ∧ valueCopy d view = normal d value

/-- What copies of a descriptor's views are: normal values, which borrow as the views. -/
def Copies (d : WlcDesc) : Prop :=
  ∀ view, typed d view = true → reset d view = view → complete false d view = true →
    (maxEncoded d).isSome = true →
      typedOwned d (valueCopy d view) = true ∧ valueBorrow d (valueCopy d view) = .ok view ∧
        normal d (valueCopy d view) = valueCopy d view

section Field
variable {f : WlcField WlcDesc} {value : Owned} {held : Value}

theorem borrows_field (fitting : typedOwnedField f value = true)
    (borrowed : valueBorrowField f value = .ok held)
    (nested : ∀ inner, f.kind = .message inner → Borrows inner) :
    typedField f held = true ∧ resetField f held = held ∧
      valueCopyField f held = normalField f value := by
  obtain ⟨row, kind⟩ := f
  cases card : row.card with
  | packed =>
    cases value <;> simp only [typedOwnedField, card, Bool.false_eq_true] at fitting
    rename_i bits
    have same : held = .elements bits := by cases kind <;> simp_all [valueBorrowField]
    subst same
    refine ⟨by simpa only [typedField, card] using fitting, ?_, ?_⟩
    · cases kind <;> rfl
    · cases kind <;> rfl
  | optional =>
    simp only [typedOwnedField, card] at fitting
    simp only [typedField, card]
    cases value with
    | word bits =>
      have small : bits < kind.range := by cases kind <;> simp_all [typedOwnedValue]
      have same : held = .word bits := by cases kind <;> simp_all [valueBorrowField]
      subst same
      refine ⟨typedValue_word.mpr small, ?_, ?_⟩
      · cases kind <;> rfl
      · cases kind <;> rfl
    | elements bits => cases kind <;> simp [typedOwnedValue] at fitting
    | buffer length data =>
      cases kind <;> simp only [typedOwnedValue, Bool.false_eq_true, beq_iff_eq] at fitting
      all_goals
        simp only [valueBorrowField] at borrowed
        split at borrowed
        · contradiction
        · rename_i fits
          cases borrowed
          have count : (data.take length).length = length := by
            rw [List.length_take]
            omega
          exact ⟨rfl, rfl, by rw [valueCopyField, normalField, count]⟩
    | message inner =>
      cases kind <;> simp only [typedOwnedValue, Bool.false_eq_true] at fitting
      rename_i d
      simp only [valueBorrowField, bind_eq_ok, Except.ok.injEq] at borrowed
      obtain ⟨view, borrowed, rfl⟩ := borrowed
      obtain ⟨fitting', kept, copied⟩ := nested d rfl inner view fitting borrowed
      simp only [typedValue, resetField, valueCopyField, normalField, fitting', kept, copied,
        and_self]

theorem copied_field (fitting : typedField f held = true) (kept : resetField f held = held)
    (whole : completeField false f held = true) (owned : (maxField f).isSome = true)
    (nested : ∀ inner, f.kind = .message inner → Copies inner) :
    typedOwnedField f (valueCopyField f held) = true ∧
      valueBorrowField f (valueCopyField f held) = .ok held ∧
      normalField f (valueCopyField f held) = valueCopyField f held := by
  obtain ⟨row, kind⟩ := f
  cases card : row.card with
  | packed =>
    cases held <;> simp only [typedField, card, Bool.false_eq_true] at fitting
    refine ⟨?_, ?_, ?_⟩
    · cases kind <;> simpa only [valueCopyField, typedOwnedField, card] using fitting
    · cases kind <;> rfl
    · cases kind <;> rfl
  | optional =>
    simp only [typedField, card] at fitting
    simp only [completeField, card] at whole
    simp only [maxField, card] at owned
    simp only [typedOwnedField, card]
    cases held with
    | word bits =>
      have small := typedValue_word.mp fitting
      refine ⟨?_, ?_, ?_⟩
      · cases kind <;> simp_all [valueCopyField, typedOwnedValue, Kind.range]
      · cases kind <;> rfl
      · cases kind <;> rfl
    | elements bits => cases kind <;> simp [typedValue] at fitting
    | span bytes =>
      cases kind <;> simp only [typedValue, Bool.false_eq_true] at fitting
      all_goals
        simp only [completeValue, checkSpan_isOk] at whole
        simp only [maxValue] at owned
        have limited : row.maxLength ≠ 0 := by
          rintro none
          simp [none] at owned
        have short : bytes.length ≤ row.maxLength := by have := whole.1; omega
        have same : (filled row.maxLength bytes).take bytes.length = bytes := by simp [filled]
        refine ⟨?_, ?_, ?_⟩
        · simp only [valueCopyField, typedOwnedValue, filled, List.length_append,
            List.length_replicate, beq_iff_eq]
          omega
        · rw [valueCopyField, valueBorrowField, if_neg (by omega), same]
        · rw [valueCopyField, normalField, same]
    | message view =>
      cases kind <;> simp only [typedValue, Bool.false_eq_true] at fitting
      rename_i d
      simp only [completeValue] at whole
      simp only [resetField, Value.message.injEq] at kept
      simp only [maxValue, Option.bind_eq_bind, Option.isSome_bind] at owned
      have inner : (maxEncoded d).isSome = true := by
        cases bound : maxEncoded d with
        | none => simp [bound] at owned
        | some most => rfl
      obtain ⟨fitting', borrowed, copied⟩ := nested d rfl view fitting kept whole inner
      simp only [valueCopyField, typedOwnedValue, valueBorrowField, normalField, fitting', borrowed,
        copied, bind, Except.bind, and_self]

end Field

/-- A default has the type of its field when that of the message nested in it has. -/
theorem typedOwned_default_of (f : WlcField WlcDesc)
    (inner : ∀ nested, f.kind = .message nested → typedOwned nested (valueClear nested) = true) :
    typedOwnedField f (valueDefault f) = true := by
  have plain := typed_clearField_of f fun nested _ => typed_clear nested
  obtain ⟨row, kind⟩ := f
  cases card : row.card with
  | packed => simp [valueDefault, typedOwnedField, card]
  | optional =>
    simp only [typedField, clearField, card, reduceCtorEq, if_false] at plain
    simp only [typedOwnedField, valueDefault, card]
    cases kind
    case message nested => exact inner nested rfl
    case bytes | string => simp [optionalDefault, typedOwnedValue]
    all_goals exact plain

theorem typedOwned_clear (d : WlcDesc) : typedOwned d (valueClear d) = true := by
  induction d using WlcDesc.induct with
  | step d ih =>
    obtain ⟨fields, lookup⟩ := d
    rw [typedOwned, valueClear]
    induction fields with
    | nil => rfl
    | cons f fields each =>
      obtain ⟨inner, inners⟩ := List.forall_mem_cons.mp ih
      rw [valueDefaults, typedOwnedFields, Bool.and_eq_true]
      exact ⟨typedOwned_default_of f inner, each inners⟩

theorem typedOwned_default (f : WlcField WlcDesc) : typedOwnedField f (valueDefault f) = true :=
  typedOwned_default_of f fun nested _ => typedOwned_clear nested

theorem borrows (d : WlcDesc) : Borrows d := by
  induction d using WlcDesc.induct with
  | step d ih =>
    obtain ⟨fields, lookup⟩ := d
    intro value view fitting borrowed
    rw [typedOwned] at fitting
    rw [valueBorrow] at borrowed
    rw [typed, reset, valueCopy, normal]
    induction fields generalizing value view with
    | nil =>
      cases value with
      | nil =>
        cases borrowed
        exact ⟨rfl, rfl, rfl⟩
      | cons slot value => simp [typedOwnedFields] at fitting
    | cons f fields rest =>
      cases value with
      | nil => simp [typedOwnedFields] at fitting
      | cons slot value =>
        rw [typedOwnedFields, Bool.and_eq_true] at fitting
        simp only [valueBorrowFields, bind_eq_ok, Except.ok.injEq] at borrowed
        obtain ⟨first, here, others, there, rfl⟩ := borrowed
        obtain ⟨child, children⟩ := List.forall_mem_cons.mp ih
        obtain ⟨typed, kept, copied⟩ := rest children value others fitting.2 there
        rw [typedFields, resetFields, valueCopyFields, normalFields, Bool.and_eq_true, typed, kept,
          copied]
        cases has : slot.has with
        | false =>
          rw [has, if_neg Bool.false_ne_true, Except.ok.injEq] at here
          subst here
          exact ⟨⟨typed_clearField_of f fun nested _ => typed_clear nested, rfl⟩, rfl, rfl⟩
        | true =>
          rw [has, if_pos rfl] at here
          obtain ⟨typed', kept', copied'⟩ := borrows_field fitting.1 here child
          exact ⟨⟨typed', rfl⟩, by simp [kept'], by simp [copied']⟩

theorem copies (d : WlcDesc) : Copies d := by
  induction d using WlcDesc.induct with
  | step d ih =>
    obtain ⟨fields, lookup⟩ := d
    intro view fitting kept whole owned
    rw [typed] at fitting
    rw [reset] at kept
    rw [complete] at whole
    rw [maxEncoded] at owned
    rw [typedOwned, valueBorrow, normal, valueCopy]
    induction fields generalizing view with
    | nil =>
      cases view with
      | nil => exact ⟨rfl, rfl, rfl⟩
      | cons slot view => simp [typedFields] at fitting
    | cons f fields rest =>
      cases view with
      | nil => simp [typedFields] at fitting
      | cons slot view =>
        rw [typedFields, Bool.and_eq_true] at fitting
        rw [completeFields, Bool.and_eq_true] at whole
        rw [resetFields, List.cons.injEq] at kept
        obtain ⟨here, there⟩ : (maxField f).isSome = true ∧ (maxFields fields).isSome = true := by
          cases first : maxField f <;> cases others : maxFields fields <;>
            simp_all [maxFields]
        obtain ⟨child, children⟩ := List.forall_mem_cons.mp ih
        obtain ⟨typed, borrowed, copied⟩ := rest children view fitting.2 kept.2 whole.2 there
        obtain ⟨has, held⟩ := slot
        cases has with
        | false =>
          have cleared : clearField f = held := by simpa using kept.1
          rw [valueCopyFields, typedOwnedFields, valueBorrowFields, normalFields, typed, borrowed,
            copied]
          simp [cleared, typedOwned_default, bind, Except.bind]
        | true =>
          obtain ⟨typed', borrowed', copied'⟩ := copied_field fitting.1 (by simpa using kept.1)
            (by simpa using whole.1) here child
          rw [valueCopyFields, typedOwnedFields, valueBorrowFields, normalFields, typed, borrowed,
            copied]
          simp [typed', borrowed', copied', bind, Except.bind]

/-- An owned value of the type that a descriptor describes. -/
structure OwnedMessage (d : WlcDesc) where
  value : OwnedSlots
  fitting : typedOwned d value = true

theorem valueEncode_eq_ok {d : WlcDesc} {value : OwnedSlots} {cap : Nat} {bytes : List UInt8}
    (fits : wellFormed d = true) (fitting : typedOwned d value = true) :
    valueEncode d value cap = .ok bytes ↔ ∃ view, valueBorrow d value = .ok view ∧
      complete false d view = true ∧ bytes = canonical d view ∧ bytes.length ≤ cap ∧
        bytes.length ≤ sizeMax := by
  rw [valueEncode, bind_eq_ok]
  refine exists_congr fun view => and_congr_right fun borrowed => ?_
  exact wlcEncode_eq_ok fits (borrows d value view fitting borrowed).1

/-- An owned value that is encoded is decoded as it was, but for what it does not have. -/
theorem valueDecode_of_encode {d : WlcDesc} (fits : wellFormed d = true) (m : OwnedMessage d)
    {cap : Nat} {bytes : List UInt8} (written : valueEncode d m.value cap = .ok bytes) :
    valueDecode d bytes = .ok (normal d m.value) := by
  obtain ⟨view, borrowed, present, rfl, -, small⟩ := (valueEncode_eq_ok fits m.fitting).mp written
  obtain ⟨fitting, kept, copied⟩ := borrows d m.value view m.fitting borrowed
  have read := decodes fits view fitting present (by simp only [sizeMax] at small; omega)
  rw [kept] at read
  exact bind_eq_ok.mpr ⟨view, read, by rw [copied]⟩

theorem valueEncode_length {d : WlcDesc} (fits : wellFormed d = true) (m : OwnedMessage d)
    {cap most : Nat} {bytes : List UInt8} (bound : maxEncoded d = some most)
    (written : valueEncode d m.value cap = .ok bytes) : bytes.length ≤ most := by
  obtain ⟨view, borrowed, present, rfl, -⟩ := (valueEncode_eq_ok fits m.fitting).mp written
  exact bounded fits view most bound (borrows d m.value view m.fitting borrowed).1 present

/-- An owned value that is decoded has its type and nothing that it does not need, and is encoded
in the room it came from and decoded from there as it was. -/
theorem valueEncode_of_decode {d : WlcDesc} {input : List UInt8} {value : OwnedSlots}
    (fits : wellFormed d = true) (owned : (maxEncoded d).isSome = true)
    (held : input.length ≤ sizeMax) (decoded : valueDecode d input = .ok value) :
    typedOwned d value = true ∧ normal d value = value ∧
      ∃ bytes, valueEncode d value input.length = .ok bytes ∧ valueDecode d bytes = .ok value := by
  obtain ⟨view, read, same⟩ := bind_eq_ok.mp decoded
  cases same
  obtain ⟨fitting, present, kept, shorter⟩ := decodesSound fits read
  obtain ⟨typed, borrowed, same⟩ := copies d view fitting kept present owned
  have written := (wlcEncode_eq_ok fits fitting).mpr
    ⟨present, rfl, shorter, Nat.le_trans shorter held⟩
  have again := decodes fits view fitting present (by simp only [sizeMax] at held; omega)
  rw [kept] at again
  exact ⟨typed, same, _, bind_eq_ok.mpr ⟨view, borrowed, written⟩,
    bind_eq_ok.mpr ⟨view, again, rfl⟩⟩

def armName : OwnedSlots := [⟨true, .buffer 3 (filled 31 [97, 114, 109])⟩]

theorem armName_read : valueDecode setDeviceInfoRequestDesc [18, 3, 97, 114, 109] = .ok armName :=
  valueDecode_of_encode (by decide +kernel) ⟨armName, by decide +kernel⟩
    (show valueEncode setDeviceInfoRequestDesc armName 5 = .ok [18, 3, 97, 114, 109] by
      decide +kernel)

theorem armName_encoded : typedOwned setDeviceInfoRequestDesc armName = true ∧
    normal setDeviceInfoRequestDesc armName = armName ∧
      ∃ bytes, valueEncode setDeviceInfoRequestDesc armName 5 = .ok bytes ∧
        valueDecode setDeviceInfoRequestDesc bytes = .ok armName :=
  valueEncode_of_decode (by decide +kernel) (by decide +kernel) (by decide) armName_read

end Florid.Codec
