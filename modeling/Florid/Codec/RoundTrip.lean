import Florid.Codec.Records

/-! A message encoded and decoded is itself, and what a decoder accepts can be encoded again in
as much room. -/
namespace Florid.Codec

mutual
/-- The fields that a message does not have at their defaults, as `wlc_clear` leaves them. -/
def reset : WlcDesc → Slots → Slots
  | .mk fields _, slots => resetFields fields slots

def resetFields : List (WlcField WlcDesc) → Slots → Slots
  | f :: fields, slot :: slots =>
    (if slot.has then ⟨true, resetField f slot.value⟩ else ⟨false, clearField f⟩) ::
      resetFields fields slots
  | _, _ => []

def resetField : WlcField WlcDesc → Value → Value
  | ⟨_, .message nested⟩, .message slots => .message (reset nested slots)
  | _, value => value
end

theorem resetField_plain {f : WlcField WlcDesc} (plain : ∀ nested, f.kind ≠ .message nested)
    (value : Value) : resetField f value = value := by
  obtain ⟨row, kind⟩ := f
  cases kind
  case message nested => exact absurd rfl (plain nested)
  all_goals rfl

/-- A cleared field has its type when the message nested in it has. -/
theorem typed_clearField_of (f : WlcField WlcDesc)
    (inner : ∀ nested, f.kind = .message nested → typed nested (wlcClear nested) = true) :
    typedField f (clearField f) = true := by
  obtain ⟨row, kind⟩ := f
  cases card : row.card with
  | packed => simp [clearField, typedField, card]
  | optional =>
    simp only [clearField, typedField, card, reduceCtorEq, if_false]
    cases kind
    case message nested => simpa only [clearValue, typedValue] using inner nested rfl
    case bytes | string | float32 | float64 => rfl
    case bool =>
      simp only [clearValue]
      split <;> rfl
    all_goals exact decide_eq_true (by simp only [Kind.range]; omega)

theorem typed_clear (d : WlcDesc) : typed d (wlcClear d) = true := by
  induction d using WlcDesc.induct with
  | step d ih =>
    obtain ⟨fields, lookup⟩ := d
    rw [typed, wlcClear]
    induction fields with
    | nil => rfl
    | cons f fields each =>
      obtain ⟨inner, inners⟩ := List.forall_mem_cons.mp ih
      rw [clearFields, typedFields, Bool.and_eq_true]
      exact ⟨typed_clearField_of f inner, each inners⟩

/-- One field of a message that a decoder returned. -/
structure Sound (f : WlcField WlcDesc) (slot : Slot Value) : Prop where
  fitting : typedField f slot.value = true
  whole : slot.has = true → completeField false f slot.value = true
  kept : (if slot.has then ⟨true, resetField f slot.value⟩ else ⟨false, clearField f⟩) = slot

section Decoded
variable {fields : List (WlcField WlcDesc)} {slots : Slots}

theorem typedFields_of_sound (sound : List.Forall₂ Sound fields slots) :
    typedFields fields slots = true := by
  induction sound with
  | nil => rfl
  | cons head _ ih =>
    rw [typedFields, Bool.and_eq_true]
    exact ⟨head.fitting, ih⟩

theorem resetFields_of_sound (sound : List.Forall₂ Sound fields slots) :
    resetFields fields slots = slots := by
  induction sound with
  | nil => rfl
  | cons head _ ih => rw [resetFields, head.kept, ih]

theorem completeFields_of_sound (sound : List.Forall₂ Sound fields slots)
    (required : requireFields fields slots = .ok ()) : completeFields false fields slots = true := by
  induction sound with
  | nil => rfl
  | @cons f slot fields slots head _ ih =>
    rw [requireFields] at required
    split at required
    · contradiction
    · rename_i allowed
      rw [completeFields, Bool.and_eq_true]
      refine ⟨?_, ih required⟩
      split
      · rename_i present
        exact head.whole present
      · rename_i absent
        simpa [absent] using allowed

end Decoded

/-- What holds of a descriptor's decoder: it returns messages that can be written again, in no more
room than they were read from. -/
structure DecodesSound (d : WlcDesc) (input : List UInt8) (m : Slots) : Prop where
  fitting : typed d m = true
  whole : complete false d m = true
  kept : reset d m = m
  shorter : (canonical d m).length ≤ input.length

section Fields
variable {f : WlcField WlcDesc} {held : List UInt8} {value : Value}

/-- A value that was read is one that can be written. -/
theorem sound_of_holds (fits : f.fits = true) (holds : Holds f held value)
    (nested : ∀ inner, f.kind = .message inner → ∀ input m, wlcDecode inner input = .ok m →
      DecodesSound inner input m) :
    Sound f ⟨true, value⟩ ∧ (payload f value).length ≤ held.length := by
  by_cases message : ∃ inner, f.kind = .message inner
  · obtain ⟨inner, kind⟩ := message
    have single : f.card = .optional := by
      cases card : f.card with
      | optional => rfl
      | packed => exact absurd kind (packed_plain fits card inner)
    simp only [Holds, kind] at holds
    obtain ⟨bytes, slots, -, rfl, read, rfl⟩ := holds
    obtain ⟨fitting, whole, kept, shorter⟩ := nested inner kind bytes slots read
    obtain ⟨row, kind'⟩ := f
    simp only at kind single
    subst kind
    have prefixes := wlcVsize_mono shorter
    rw [wlcVsize_eq_length, wlcVsize_eq_length] at prefixes
    refine ⟨⟨?_, fun _ => ?_, ?_⟩, ?_⟩
    · simpa only [typedField, single, typedValue] using fitting
    · simpa only [completeField, single, completeValue] using whole
    · simp only [if_true, resetField, kept]
    · simp only [payload, single, payloadValue, List.length_append]
      omega
  · have plain (inner : WlcDesc) : f.kind ≠ .message inner := fun same => message ⟨inner, same⟩
    obtain ⟨fitting, whole, rfl, -⟩ := (holds_plain plain).mp holds
    exact ⟨⟨fitting, fun _ => whole, by simp only [if_true, resetField_plain plain]⟩, Nat.le_refl _⟩

end Fields

theorem sound_clear (fields : List (WlcField WlcDesc)) :
    List.Forall₂ Sound fields (clearFields fields) := by
  induction fields with
  | nil => exact List.Forall₂.nil
  | cons f fields ih =>
    apply List.Forall₂.cons _ ih
    exact ⟨typed_clearField_of f fun nested _ => typed_clear nested, by simp, rfl⟩

theorem canonicalFields_clear (fields : List (WlcField WlcDesc)) :
    canonicalFields fields (clearFields fields) = [] := by
  induction fields with
  | nil => rfl
  | cons f fields ih => simp [clearFields, canonicalFields, ih]

theorem Sound.set {fields : List (WlcField WlcDesc)} {slots : Slots} {i : Nat}
    {f : WlcField WlcDesc} {slot : Slot Value} (sound : List.Forall₂ Sound fields slots)
    (found : fields[i]? = some f) (here : Sound f slot) :
    List.Forall₂ Sound fields (slots.set i slot) := by
  induction sound generalizing i with
  | nil => simp at found
  | cons head rest ih =>
    cases i with
    | zero =>
      obtain rfl : _ = f := by simpa using found
      exact List.Forall₂.cons here rest
    | succ i => exact List.Forall₂.cons head (ih (by simpa using found))

/-- A field that is new adds its own bytes. -/
theorem canonicalFields_set {fields : List (WlcField WlcDesc)} {slots : Slots} {i : Nat}
    {f : WlcField WlcDesc} {slot : Slot Value} (value : Value) (found : fields[i]? = some f)
    (stored : slots[i]? = some slot) (fresh : slot.has = false) :
    (canonicalFields fields (slots.set i ⟨true, value⟩)).length =
      (canonicalFields fields slots).length +
        (wlcPutv (8 * f.number + f.wire) ++ payload f value).length := by
  induction fields generalizing slots i with
  | nil => simp at found
  | cons g fields ih =>
    cases slots with
    | nil => simp at stored
    | cons first slots =>
      cases i with
      | zero =>
        obtain rfl : g = f := by simpa using found
        obtain rfl : first = slot := by simpa using stored
        simp only [List.set_cons_zero, canonicalFields, if_true, fresh, Bool.false_eq_true, if_false,
          List.nil_append, List.length_append]
        omega
      | succ i =>
        have others := ih (by simpa using found) (by simpa using stored)
        simp only [List.set_cons_succ, canonicalFields, List.length_append] at others ⊢
        omega

theorem sound_of_run {d : WlcDesc} {slots m : Slots} {records : List Record}
    (fits : wellFormed d = true) (run : Run d slots records m)
    (nested : ∀ f ∈ d.fields, ∀ inner, f.kind = .message inner → ∀ input m,
      wlcDecode inner input = .ok m → DecodesSound inner input m)
    (sound : List.Forall₂ Sound d.fields slots) :
    List.Forall₂ Sound d.fields m ∧ (canonicalFields d.fields m).length ≤
      (canonicalFields d.fields slots).length + (records.flatMap Record.bytes).length := by
  induction run with
  | nil => exact ⟨sound, Nat.le_add_right _ _⟩
  | @cons slots middle last r rs first rest ih =>
    rw [List.flatMap_cons, List.length_append]
    cases first with
    | unknown none =>
      obtain ⟨sound', shorter⟩ := ih sound
      exact ⟨sound', by omega⟩
    | @known i f slot value found number wire stored fresh holds =>
      have member := List.mem_of_getElem? found
      obtain ⟨here, short⟩ :=
        sound_of_holds ((wellFormed_iff.mp fits).2 f member).1 holds (nested f member)
      obtain ⟨sound', shorter⟩ := ih (Sound.set sound found here)
      refine ⟨sound', ?_⟩
      rw [canonicalFields_set value found stored fresh, number, wire] at shorter
      simp only [Record.bytes, List.length_append] at shorter ⊢
      omega

theorem decodesSound {d : WlcDesc} {input : List UInt8} {m : Slots} (fits : wellFormed d = true)
    (read : wlcDecode d input = .ok m) : DecodesSound d input m := by
  induction d using WlcDesc.induct generalizing input m with
  | step d ih =>
    obtain ⟨required, records, rfl, run⟩ := (wlcDecode_eq_ok_run fits).mp read
    have nested : ∀ f ∈ d.fields, ∀ inner, f.kind = .message inner → ∀ input m,
        wlcDecode inner input = .ok m → DecodesSound inner input m :=
      fun f member inner same input m read =>
        ih f member inner same (((wellFormed_iff.mp fits).2 f member).2 inner same) read
    obtain ⟨fields, lookup⟩ := d
    rw [wlcClear] at run
    obtain ⟨sound, shorter⟩ := sound_of_run fits run nested (sound_clear fields)
    rw [canonicalFields_clear, List.length_nil, Nat.zero_add] at shorter
    exact ⟨typedFields_of_sound sound, completeFields_of_sound sound required,
      by rw [reset, resetFields_of_sound sound], by rwa [canonical]⟩

/-- A decoder returns each message that was encoded, with the defaults where it has nothing. -/
def Decodes (d : WlcDesc) : Prop :=
  ∀ m, typed d m = true → complete false d m = true → (canonical d m).length < 2 ^ 64 →
    wlcDecode d (canonical d m) = .ok (reset d m)

theorem holds_payload {f : WlcField WlcDesc} {value : Value} (fits : f.fits = true)
    (fitting : typedField f value = true) (whole : completeField false f value = true)
    (small : (payload f value).length < 2 ^ 64)
    (nested : ∀ inner, f.kind = .message inner → Decodes inner) :
    Holds f (payload f value) (resetField f value) := by
  by_cases message : ∃ inner, f.kind = .message inner
  · obtain ⟨inner, kind⟩ := message
    have single : f.card = .optional := by
      cases card : f.card with
      | optional => rfl
      | packed => exact absurd kind (packed_plain fits card inner)
    have decodes := nested inner kind
    obtain ⟨row, kind'⟩ := f
    simp only at kind single
    subst kind
    simp only [typedField, single] at fitting
    simp only [completeField, single] at whole
    simp only [payload, single] at small ⊢
    cases value <;> simp only [typedValue, Kind.range, Nat.not_lt_zero, decide_false,
      Bool.false_eq_true] at fitting
    rename_i slots
    simp only [completeValue] at whole
    simp only [payloadValue, List.length_append] at small ⊢
    exact ⟨canonical inner slots, reset inner slots, by omega, rfl,
      decodes slots fitting whole (by omega), rfl⟩
  · have plain (inner : WlcDesc) : f.kind ≠ .message inner := fun same => message ⟨inner, same⟩
    rw [resetField_plain plain, holds_plain plain]
    refine ⟨fitting, whole, rfl, ?_⟩
    rintro bytes rfl
    obtain ⟨row, kind⟩ := f
    cases card : row.card with
    | packed => simp [typedField, card] at fitting
    | optional =>
      simp only [typedField, card] at fitting
      simp only [payload, card] at small
      cases kind <;> simp only [typedValue, Bool.false_eq_true] at fitting
      all_goals
        simp only [payloadValue, List.length_append] at small
        omega

/-- The record of a field that a message has. -/
theorem exists_record {f : WlcField WlcDesc} {held : List UInt8} {value : Value}
    (fits : f.fits = true) (holds : Holds f held value) :
    ∃ r : Record, r.number = f.number ∧ r.wire = f.wire ∧ r.payload = held := by
  have numbered : 1 ≤ f.number ∧ f.number ≤ 65535 := by
    simp only [WlcField.fits, Bool.and_eq_true, decide_eq_true_eq] at fits
    exact ⟨fits.1.1.1.1.1.1, fits.1.1.1.1.1.2⟩
  exact ⟨⟨f.number, f.wire, held, numbered, framed_of_holds fits holds⟩, rfl, rfl, rfl⟩

/-- Reading what was written for the fields that remain completes the message. -/
theorem run_fields {d : WlcDesc} (before : List (WlcField WlcDesc)) (done : Slots)
    {fields : List (WlcField WlcDesc)} {slots : Slots}
    (whole : d.fields = before ++ fields) (count : done.length = before.length)
    (fits : wellFormedFields fields = true) (fitting : typedFields fields slots = true)
    (present : completeFields false fields slots = true)
    (small : (canonicalFields fields slots).length < 2 ^ 64)
    (nested : ∀ f ∈ fields, ∀ inner, f.kind = .message inner → Decodes inner) :
    ∃ records : List Record, canonicalFields fields slots = records.flatMap Record.bytes ∧
      Run d (done ++ clearFields fields) records (done ++ resetFields fields slots) := by
  induction fields generalizing before done slots with
  | nil => exact ⟨[], by simp [canonicalFields], by simpa [clearFields, resetFields] using Run.nil⟩
  | cons f fields ih =>
    cases slots with
    | nil => simp [typedFields] at fitting
    | cons slot slots =>
      rw [wellFormedFields, Bool.and_eq_true, Bool.and_eq_true] at fits
      rw [typedFields, Bool.and_eq_true] at fitting
      rw [completeFields, Bool.and_eq_true] at present
      simp only [canonicalFields, List.length_append] at small
      obtain ⟨inner, inners⟩ := List.forall_mem_cons.mp nested
      have rest (next : Slot Value) := ih (before ++ [f]) (done ++ [next])
        (by rw [whole, List.append_assoc, List.singleton_append])
        (by rw [List.length_append, List.length_append, count]; rfl) fits.2 fitting.2 present.2
        (by omega) inners
      simp only [List.append_assoc, List.singleton_append] at rest
      simp only [canonicalFields, clearFields, resetFields]
      cases has : slot.has with
      | false =>
        simpa [has] using rest ⟨false, clearField f⟩
      | true =>
        simp only [has, if_true] at small present ⊢
        rw [List.length_append] at small
        have holds := holds_payload fits.1.1 fitting.1 present.1 (by omega) inner
        obtain ⟨r, number, wire, held⟩ := exists_record fits.1.1 holds
        obtain ⟨records, bytes, run⟩ := rest ⟨true, resetField f slot.value⟩
        refine ⟨r :: records, ?_, ?_⟩
        · rw [List.flatMap_cons, Record.bytes, number, wire, held, bytes]
        · have found : d.fields[before.length]? = some f := by
            rw [whole, List.getElem?_append_right (Nat.le_refl _), Nat.sub_self,
              List.getElem?_cons_zero]
          have stored : (done ++ ⟨false, clearField f⟩ :: clearFields fields)[before.length]? =
              some ⟨false, clearField f⟩ := by
            rw [← count, List.getElem?_append_right (Nat.le_refl _), Nat.sub_self,
              List.getElem?_cons_zero]
          have first := Applies.known found number.symm wire.symm stored rfl (held ▸ holds)
          rw [← count, List.set_append_right _ _ (Nat.le_refl _), Nat.sub_self,
            List.set_cons_zero] at first
          exact Run.cons first run

theorem requireFields_reset {fields : List (WlcField WlcDesc)} {slots : Slots}
    (present : completeFields false fields slots = true) :
    requireFields fields (resetFields fields slots) = .ok () := by
  induction fields generalizing slots with
  | nil => rfl
  | cons f fields ih =>
    cases slots with
    | nil => rfl
    | cons slot slots =>
      rw [completeFields, Bool.and_eq_true] at present
      rw [resetFields, requireFields]
      cases has : slot.has with
      | false =>
        have optional : f.required = false := by simpa [has] using present.1
        simpa [optional] using ih present.2
      | true => simpa using ih present.2

theorem decodes {d : WlcDesc} (fits : wellFormed d = true) : Decodes d := by
  induction d using WlcDesc.induct with
  | step d ih =>
    intro m fitting present small
    obtain ⟨-, each⟩ := wellFormed_iff.mp fits
    have nested : ∀ f ∈ d.fields, ∀ inner, f.kind = .message inner → Decodes inner :=
      fun f member inner same => ih f member inner same ((each f member).2 inner same)
    rw [wlcDecode_eq_ok_run fits]
    obtain ⟨fields, lookup⟩ := d
    rw [typed] at fitting
    rw [complete] at present
    rw [canonical] at small ⊢
    rw [reset, wlcClear]
    exact ⟨requireFields_reset present,
      run_fields [] [] rfl rfl (wellFormedFields_iff.mpr each) fitting present
        small nested⟩

/-- A message of the type that a descriptor describes. -/
structure Message (d : WlcDesc) where
  slots : Slots
  fitting : typed d slots = true

/-- What is encoded is decoded, with the defaults where the message has nothing. -/
theorem decode_of_encode {d : WlcDesc} (fits : wellFormed d = true) (m : Message d) {cap : Nat}
    {bytes : List UInt8} (written : wlcEncode d m.slots cap = .ok bytes) :
    wlcDecode d bytes = .ok (reset d m.slots) := by
  obtain ⟨present, rfl, -, small⟩ := (wlcEncode_eq_ok fits m.fitting).mp written
  exact decodes fits m.slots m.fitting present (by simp only [sizeMax] at small; omega)

/-- What is decoded is a message of its type, which is encoded again in the room it came from, and
decoded from there as it was. -/
theorem encode_of_decode {d : WlcDesc} {input : List UInt8} {m : Slots}
    (fits : wellFormed d = true) (held : input.length ≤ sizeMax)
    (read : wlcDecode d input = .ok m) :
    typed d m = true ∧ ∃ bytes, wlcEncode d m input.length = .ok bytes ∧
      wlcDecode d bytes = .ok m := by
  obtain ⟨fitting, present, kept, shorter⟩ := decodesSound fits read
  have written := (wlcEncode_eq_ok fits fitting).mpr
    ⟨present, rfl, shorter, Nat.le_trans shorter held⟩
  have again := decodes fits m fitting present (by simp only [sizeMax] at held; omega)
  rw [kept] at again
  exact ⟨fitting, canonical d m, written, again⟩

end Florid.Codec
