import Florid.Codec.Decode

/-! The input of a decoder as records: what `wlc_decode` accepts is a sequence of them, and the
message it returns depends on which there are, not on their order. -/
namespace Florid.Codec

/-- A key and what follows it. -/
structure Record where
  number : Nat
  wire : Nat
  payload : List UInt8
  numbered : 1 ≤ number ∧ number ≤ 65535
  framed : Framed wire payload

def Record.bytes (r : Record) : List UInt8 := wlcPutv (8 * r.number + r.wire) ++ r.payload

theorem wire_of_framed {wire : Nat} {held : List UInt8} (framed : Framed wire held) :
    wire = 0 ∨ wire = 1 ∨ wire = 2 ∨ wire = 5 := by
  rcases framed with ⟨rfl, -⟩ | ⟨rfl, -⟩ | ⟨rfl, -⟩ | ⟨rfl, -⟩ <;> simp

theorem optional_wire {f : WlcField WlcDesc} (fits : f.fits = true) (single : f.card = .optional) :
    f.wire = f.kind.wire := by
  simp only [WlcField.fits, single, Bool.and_eq_true, beq_iff_eq] at fits
  exact fits.2

/-- What holds a value of a field has the shape that the field's wire type says. -/
theorem framed_of_holds {f : WlcField WlcDesc} {held : List UInt8} {value : Value}
    (fits : f.fits = true) (holds : Holds f held value) : Framed f.wire held := by
  by_cases message : ∃ nested, f.kind = .message nested
  · obtain ⟨nested, kind⟩ := message
    have single : f.card = .optional := by
      cases card : f.card with
      | optional => rfl
      | packed => exact absurd kind (packed_plain fits card nested)
    have wire : f.wire = 2 := by rw [optional_wire fits single, kind, Kind.wire]
    simp only [Holds, kind] at holds
    obtain ⟨bytes, -, word, rfl, -⟩ := holds
    exact Or.inr (Or.inr (Or.inr ⟨wire, bytes, word, rfl⟩))
  · have plain (nested : WlcDesc) : f.kind ≠ .message nested := fun same => message ⟨nested, same⟩
    obtain ⟨fitting, -, rfl, word⟩ := (holds_plain plain).mp holds
    cases card : f.card with
    | packed =>
      obtain ⟨wire, -, -, small⟩ := packed_fits fits card
      obtain ⟨bits, -, count, -, written⟩ := payload_packed card fitting
      have size := length_elements f.element bits
      rw [count] at size
      refine Or.inr (Or.inr (Or.inr ⟨wire, bits.flatMap (BigEndian.encode f.element), ?_, ?_⟩))
      · simp only [sizeMax] at small
        omega
      · rw [written, size]
    | optional =>
      rw [optional_wire fits card]
      obtain ⟨row, kind⟩ := f
      simp only at card plain
      simp only [typedField, card] at fitting
      simp only [payload, card]
      cases value with
      | word bits =>
        have small := typedValue_word.mp fitting
        cases kind
        case f32 | float32 => exact Or.inr (Or.inr (Or.inl ⟨rfl, BigEndian.length_encode _ _⟩))
        case f64 | float64 => exact Or.inr (Or.inl ⟨rfl, BigEndian.length_encode _ _⟩)
        case bytes | string | message => exact absurd small (Nat.not_lt_zero _)
        all_goals exact Or.inl ⟨rfl, _, varintOf_lt small rfl, rfl⟩
      | span bytes =>
        cases kind <;> simp only [typedValue, Bool.false_eq_true] at fitting
        all_goals exact Or.inr (Or.inr (Or.inr ⟨rfl, bytes, word bytes rfl, rfl⟩))
      | elements bits => cases kind <;> simp [typedValue] at fitting
      | message slots =>
        cases kind <;> simp only [typedValue, Bool.false_eq_true] at fitting
        exact absurd rfl (plain _)

/-- What one record does to a message. -/
inductive Applies (d : WlcDesc) : Slots → Record → Slots → Prop where
  | known {slots : Slots} {r : Record} {i : Nat} {f : WlcField WlcDesc} {slot : Slot Value}
      {value : Value} (found : d.fields[i]? = some f) (number : f.number = r.number)
      (wire : f.wire = r.wire) (stored : slots[i]? = some slot) (fresh : slot.has = false)
      (holds : Holds f r.payload value) : Applies d slots r (slots.set i ⟨true, value⟩)
  | unknown {slots : Slots} {r : Record} (none : ∀ i, ¬Numbered d i r.number) :
      Applies d slots r slots

/-- Records applied one after the other. -/
inductive Run (d : WlcDesc) : Slots → List Record → Slots → Prop where
  | nil {slots : Slots} : Run d slots [] slots
  | cons {slots middle last : Slots} {r : Record} {rs : List Record} (first : Applies d slots r middle)
      (rest : Run d middle rs last) : Run d slots (r :: rs) last

theorem fieldReaders_get {fields : List (WlcField WlcDesc)} (i : Nat) :
    (fieldReaders fields)[i]? = fields[i]?.map fieldReader := by
  induction fields generalizing i with
  | nil => simp [fieldReaders]
  | cons f fields ih => cases i <;> simp [fieldReaders, ih]

theorem key_parts (key : Nat) : key >>> 3 = key / 8 ∧ key &&& 7 = key % 8 :=
  ⟨Nat.shiftRight_eq_div_pow key 3, Nat.and_two_pow_sub_one_eq_mod key 3⟩

theorem located {d : WlcDesc} {next number : Nat} (fits : wellFormed d = true)
    (small : number ≤ 65535) :
    locate d next number = none ↔ ∀ i, ¬Numbered d i number := by
  rw [Option.eq_none_iff_forall_ne_some]
  exact forall_congr' fun i => not_congr (locate_eq_some fits small)

section Decoder
variable {d : WlcDesc}

/-- A turn of the loop takes a record. -/
theorem applies_of_decodeRecord {s s' : Cursor} {input rest : List UInt8}
    (fits : wellFormed d = true)
    (turn : decodeRecord d (fieldReaders d.fields) s input = .ok (s', rest)) :
    ∃ r : Record, input = r.bytes ++ rest ∧ Applies d s.slots r s'.slots := by
  simp only [decodeRecord, bind_eq_ok, Prod.exists, wlcGetv_eq_ok, key_parts] at turn
  obtain ⟨key, after, ⟨-, rfl⟩, turn⟩ := turn
  have whole : 8 * (key / 8) + key % 8 = key := Nat.div_add_mod key 8
  split at turn
  · contradiction
  · rename_i proper
    have numbered : 1 ≤ key / 8 ∧ key / 8 ≤ 65535 := by omega
    split at turn
    · rename_i absent
      obtain ⟨_, skipped, turn⟩ := bind_eq_ok.mp turn
      simp only [Except.ok.injEq, Prod.mk.injEq] at turn
      obtain ⟨rfl, rfl⟩ := turn
      obtain ⟨held, framed, rfl⟩ := wlcSkip_eq_ok.mp skipped
      refine ⟨⟨key / 8, key % 8, held, numbered, framed⟩, ?_,
        Applies.unknown ((located fits numbered.2).mp absent)⟩
      rw [Record.bytes, whole, List.append_assoc]
    · rename_i i present
      obtain ⟨f', found', number'⟩ := (locate_eq_some fits numbered.2).mp present
      split at turn
      · rename_i f read slot found reader stored
        rw [found, Option.some.injEq] at found'
        subst found'
        rw [fieldReaders_get, found, Option.map_some, Option.some.injEq] at reader
        subst reader
        split at turn
        · contradiction
        · rename_i wire
          split at turn
          · contradiction
          · rename_i fresh
            simp only [bind_eq_ok, Prod.exists, Except.ok.injEq, Prod.mk.injEq] at turn
            obtain ⟨value, _, read, rfl, rfl⟩ := turn
            have row := ((wellFormed_iff.mp fits).2 f (List.mem_of_getElem? found)).1
            obtain ⟨held, holds, rfl⟩ := (reads_field row _ _ _).mp read
            have wire : key % 8 = f.wire := by omega
            refine ⟨⟨key / 8, key % 8, held, numbered, wire ▸ framed_of_holds row holds⟩, ?_,
              Applies.known found number' wire.symm stored (by simpa using fresh) holds⟩
            rw [Record.bytes, whole, List.append_assoc]
      · contradiction

/-- Whatever the loop expects and whatever follows, it takes each record that applies. -/
theorem decodeRecord_of_applies {slots slots' : Slots} {r : Record} (fits : wellFormed d = true)
    (applies : Applies d slots r slots') (next : Nat) (rest : List UInt8) :
    ∃ next', decodeRecord d (fieldReaders d.fields) ⟨slots, next⟩ (r.bytes ++ rest) =
      .ok (⟨slots', next'⟩, rest) := by
  have wire := wire_of_framed r.framed
  have numbered := r.numbered
  have key : wlcGetv (r.bytes ++ rest) =
      .ok (8 * r.number + r.wire, r.payload ++ rest) := by
    rw [Record.bytes, List.append_assoc]
    exact wlcGetv_append _ (by omega) _
  have parts : (8 * r.number + r.wire) / 8 = r.number ∧ (8 * r.number + r.wire) % 8 = r.wire := by
    omega
  have proper : ¬(r.number = 0 ∨ 65535 < r.number ∨
      (r.wire ≠ 0 ∧ r.wire ≠ 1 ∧ r.wire ≠ 2 ∧ r.wire ≠ 5)) := by omega
  simp only [decodeRecord, key, bind, Except.bind, key_parts, parts, if_neg proper]
  cases applies with
  | unknown none =>
    rw [(located fits numbered.2).mpr none]
    have skipped : wlcSkip r.wire (r.payload ++ rest) = .ok rest :=
      wlcSkip_eq_ok.mpr ⟨r.payload, r.framed, rfl⟩
    simp only [skipped]
    exact ⟨next, rfl⟩
  | @known i f slot value found number wire stored fresh holds =>
    have row := ((wellFormed_iff.mp fits).2 f (List.mem_of_getElem? found)).1
    have read := (reads_field row (r.payload ++ rest) value rest).mpr ⟨r.payload, holds, rfl⟩
    rw [(locate_eq_some fits numbered.2).mpr ⟨f, found, number⟩]
    simp only [found, stored, fieldReaders_get, Option.map_some, wire, ne_eq, not_true_eq_false,
      if_false, fresh, Bool.false_eq_true, read]
    exact ⟨i + 1, rfl⟩

theorem Record.length_bytes (r : Record) : 0 < r.bytes.length := by
  rw [Record.bytes, List.length_append, ← wlcVsize_eq_length]
  exact Nat.lt_of_lt_of_le (wlcVsize_pos _) (Nat.le_add_right _ _)

theorem records_nil {records : List Record} : [] = records.flatMap Record.bytes ↔ records = [] := by
  cases records with
  | nil => simp
  | cons r records =>
    have := r.length_bytes
    simp only [List.flatMap_cons, reduceCtorEq, iff_false]
    intro same
    obtain ⟨none, -⟩ := List.append_eq_nil_iff.mp same.symm
    simp [none] at this

/-- The loop accepts exactly the sequences of records that run. -/
theorem decodeLoop_eq_ok {turns : Nat} {s : Cursor} {input : List UInt8} {m : Slots}
    (fits : wellFormed d = true) (enough : input.length ≤ turns) :
    decodeLoop d (fieldReaders d.fields) turns s input = .ok m ↔
      ∃ records : List Record, input = records.flatMap Record.bytes ∧ Run d s.slots records m := by
  induction turns generalizing s input with
  | zero =>
    obtain rfl := List.length_eq_zero_iff.mp (Nat.le_zero.mp enough)
    simp only [decodeLoop, Except.ok.injEq]
    constructor
    · rintro rfl
      exact ⟨[], rfl, Run.nil⟩
    · rintro ⟨records, none, run⟩
      obtain rfl := records_nil.mp none
      cases run
      rfl
  | succ turns ih =>
    cases input with
    | nil =>
      simp only [decodeLoop, Except.ok.injEq]
      constructor
      · rintro rfl
        exact ⟨[], rfl, Run.nil⟩
      · rintro ⟨records, none, run⟩
        obtain rfl := records_nil.mp none
        cases run
        rfl
    | cons b input =>
      simp only [decodeLoop, bind_eq_ok, Prod.exists]
      constructor
      · rintro ⟨s', rest, turn, loop⟩
        obtain ⟨r, whole, applies⟩ := applies_of_decodeRecord fits turn
        have shorter := congrArg List.length whole
        have := r.length_bytes
        rw [List.length_append] at shorter
        obtain ⟨records, rfl, run⟩ := (ih (by omega)).mp loop
        exact ⟨r :: records, whole, Run.cons applies run⟩
      · rintro ⟨records, whole, run⟩
        cases run with
        | nil => simp at whole
        | @cons _ middle _ r records first others =>
          rw [List.flatMap_cons] at whole
          have shorter := congrArg List.length whole
          have := r.length_bytes
          rw [List.length_append] at shorter
          obtain ⟨next, turn⟩ :=
            decodeRecord_of_applies fits first s.next (records.flatMap Record.bytes)
          rw [← whole] at turn
          exact ⟨⟨middle, next⟩, _, turn, (ih (by omega)).mpr ⟨records, rfl, others⟩⟩

/-- `wlc_decode` accepts exactly the sequences of records that run from the cleared message and
leave it with every field that is required. -/
theorem wlcDecode_eq_ok_run {input : List UInt8} {m : Slots} (fits : wellFormed d = true) :
    wlcDecode d input = .ok m ↔ requireFields d.fields m = .ok () ∧
      ∃ records : List Record, input = records.flatMap Record.bytes ∧ Run d (wlcClear d) records m := by
  obtain ⟨fields, lookup⟩ := d
  simp only [wlcDecode, bind_eq_ok, wlcClear]
  have loop (m : Slots) := decodeLoop_eq_ok (s := ⟨clearFields fields, 0⟩) (m := m) fits
    (Nat.le_refl input.length)
  constructor
  · rintro ⟨m', done, _, required, same⟩
    obtain rfl : m' = m := by simpa using same
    exact ⟨required, (loop _).mp done⟩
  · rintro ⟨required, run⟩
    exact ⟨m, (loop m).mpr run, (), required, rfl⟩

/-- What a message has of records read into it, whatever their order: each field at most once, the
value that its record holds, and what was there before where there is no record. -/
structure Denotes (d : WlcDesc) (slots : Slots) (records : List Record) (m : Slots) : Prop where
  length : m.length = slots.length
  once : records.Pairwise fun r r' => (∃ i, Numbered d i r.number) → r.number ≠ r'.number
  present : ∀ r ∈ records, ∀ (i : Nat) (f : WlcField WlcDesc),
    d.fields[i]? = some f → f.number = r.number → f.wire = r.wire ∧
      (∃ slot : Slot Value, slots[i]? = some slot ∧ slot.has = false) ∧
        ∃ value, m[i]? = some (Slot.mk true value) ∧ Holds f r.payload value
  absent : ∀ i : Nat, (∀ r ∈ records, ¬Numbered d i r.number) → m[i]? = slots[i]?

theorem denotes_of_run {slots m : Slots} {records : List Record} (fits : wellFormed d = true)
    (run : Run d slots records m) : Denotes d slots records m := by
  induction run with
  | nil => exact ⟨rfl, List.Pairwise.nil, by simp, by simp⟩
  | @cons slots middle last r rs first rest ih =>
    cases first with
    | unknown none =>
      refine ⟨ih.length, List.Pairwise.cons ?_ ih.once, List.forall_mem_cons.mpr ⟨?_, ih.present⟩, ?_⟩
      · rintro r' - ⟨i, numbered⟩
        exact absurd numbered (none i)
      · intro i f found number
        exact absurd ⟨f, found, number⟩ (none i)
      · intro i others
        exact ih.absent i fun r' member => others r' (List.mem_cons_of_mem _ member)
    | @known i f slot value found number wire stored fresh holds =>
      have inside : i < slots.length := (List.getElem?_eq_some_iff.mp stored).1
      have written : (slots.set i ⟨true, value⟩)[i]? = some ⟨true, value⟩ :=
        List.getElem?_set_self inside
      -- a second record of the field would have found it there
      have distinct : ∀ r' ∈ rs, r.number ≠ r'.number := by
        intro r' member same
        obtain ⟨-, ⟨slot', stored', fresh'⟩, -⟩ :=
          ih.present r' member i f found (number.trans same)
        rw [written, Option.some.injEq] at stored'
        simp [← stored'] at fresh'
      have kept : last[i]? = some ⟨true, value⟩ := by
        rw [← written]
        apply ih.absent
        rintro r' member ⟨f', found', number'⟩
        rw [found, Option.some.injEq] at found'
        subst found'
        exact distinct r' member (number.symm.trans number')
      refine ⟨by rw [ih.length, List.length_set],
        List.Pairwise.cons (fun r' member _ => distinct r' member) ih.once,
        List.forall_mem_cons.mpr ⟨?_, ?_⟩, ?_⟩
      · intro j f' found' number'
        obtain rfl := numbered_unique fits ⟨f', found', number'⟩ ⟨f, found, number⟩
        rw [found, Option.some.injEq] at found'
        subst found'
        exact ⟨wire, ⟨slot, stored, fresh⟩, value, kept, holds⟩
      · intro r' member j f' found' number'
        obtain ⟨wire', ⟨slot', stored', fresh'⟩, value', last', holds'⟩ :=
          ih.present r' member j f' found' number'
        refine ⟨wire', ⟨slot', ?_, fresh'⟩, value', last', holds'⟩
        rwa [List.getElem?_set_ne] at stored'
        rintro rfl
        rw [found, Option.some.injEq] at found'
        subst found'
        exact distinct r' member (number.symm.trans number')
      · intro j others
        rw [ih.absent j fun r' member => others r' (List.mem_cons_of_mem _ member),
          List.getElem?_set_ne]
        rintro rfl
        exact others r List.mem_cons_self ⟨f, found, number⟩

theorem run_of_denotes {slots m : Slots} {records : List Record} (fits : wellFormed d = true)
    (denotes : Denotes d slots records m) : Run d slots records m := by
  induction records generalizing slots with
  | nil =>
    have same : m = slots := List.ext_getElem? fun i => denotes.absent i (by simp)
    subst same
    exact Run.nil
  | cons r records ih =>
    obtain ⟨distinct, once⟩ := List.pairwise_cons.mp denotes.once
    obtain ⟨here, others⟩ := List.forall_mem_cons.mp denotes.present
    by_cases known : ∃ i, Numbered d i r.number
    · obtain ⟨i, f, found, number⟩ := known
      obtain ⟨wire, ⟨slot, stored, fresh⟩, value, last, holds⟩ := here i f found number
      have inside : i < slots.length := (List.getElem?_eq_some_iff.mp stored).1
      have elsewhere {j : Nat} {f' : WlcField WlcDesc} {r' : Record} (member : r' ∈ records)
          (found' : d.fields[j]? = some f') (number' : f'.number = r'.number) : i ≠ j := by
        rintro rfl
        rw [found, Option.some.injEq] at found'
        subst found'
        exact distinct r' member ⟨i, f, found, number⟩ (number.symm.trans number')
      apply Run.cons (Applies.known found number wire stored fresh holds)
      apply ih
      refine ⟨by rw [denotes.length, List.length_set], once, ?_, ?_⟩
      · intro r' member j f' found' number'
        rw [List.getElem?_set_ne (elsewhere member found' number')]
        exact others r' member j f' found' number'
      · intro j none
        by_cases same : i = j
        · subst same
          rw [last, List.getElem?_set_self inside]
        · rw [List.getElem?_set_ne same]
          apply denotes.absent
          refine List.forall_mem_cons.mpr ⟨?_, none⟩
          exact fun numbered => same (numbered_unique fits ⟨f, found, number⟩ numbered)
    · have none (i : Nat) : ¬Numbered d i r.number := fun numbered => known ⟨i, numbered⟩
      apply Run.cons (Applies.unknown none)
      apply ih
      exact ⟨denotes.length, once, others, fun i absent =>
        denotes.absent i (List.forall_mem_cons.mpr ⟨none i, absent⟩)⟩

/-- `wlc_decode` accepts exactly the sequences of records that denote a message with every field
that is required, and returns that message. -/
theorem wlcDecode_eq_ok {input : List UInt8} {m : Slots} (fits : wellFormed d = true) :
    wlcDecode d input = .ok m ↔ requireFields d.fields m = .ok () ∧
      ∃ records : List Record, input = records.flatMap Record.bytes ∧
        Denotes d (wlcClear d) records m := by
  rw [wlcDecode_eq_ok_run fits]
  constructor
  · rintro ⟨required, records, whole, run⟩
    exact ⟨required, records, whole, denotes_of_run fits run⟩
  · rintro ⟨required, records, whole, denotes⟩
    exact ⟨required, records, whole, run_of_denotes fits denotes⟩

theorem framed_append_inj {wire : Nat} {p q s t : List UInt8} (framed : Framed wire p)
    (framed' : Framed wire q) (same : p ++ s = q ++ t) : p = q ∧ s = t := by
  have fixed {k : Nat} (size : p.length = k) (size' : q.length = k) : p = q ∧ s = t :=
    List.append_inj same (size.trans size'.symm)
  rcases framed with ⟨rfl, v, -, rfl⟩ | ⟨rfl, size⟩ | ⟨rfl, size⟩ | ⟨rfl, bytes, -, rfl⟩ <;>
    rcases framed' with ⟨other, w, -, rfl⟩ | ⟨other, size'⟩ | ⟨other, size'⟩ |
      ⟨other, bytes', -, rfl⟩ <;>
    first
    | exact absurd other (by decide)
    | skip
  · obtain ⟨rfl, rfl⟩ := wlcPutv_append_inj same
    exact ⟨rfl, rfl⟩
  · exact fixed size size'
  · exact fixed size size'
  · rw [List.append_assoc, List.append_assoc] at same
    obtain ⟨length, same⟩ := wlcPutv_append_inj same
    obtain ⟨rfl, rfl⟩ := List.append_inj same length
    exact ⟨rfl, rfl⟩

/-- No record is the beginning of another: bytes are one sequence of records at most. -/
theorem Record.bytes_append_inj {r r' : Record} {s t : List UInt8}
    (same : r.bytes ++ s = r'.bytes ++ t) : r = r' ∧ s = t := by
  rw [Record.bytes, Record.bytes, List.append_assoc, List.append_assoc] at same
  obtain ⟨key, same⟩ := wlcPutv_append_inj same
  have wire := wire_of_framed r.framed
  have wire' := wire_of_framed r'.framed
  obtain ⟨number, payload⟩ : r.number = r'.number ∧ r.wire = r'.wire := by omega
  obtain ⟨number₁, wire₁, held₁, numbered₁, framed₁⟩ := r
  obtain ⟨number₂, wire₂, held₂, numbered₂, framed₂⟩ := r'
  simp only at number payload same framed₁ framed₂
  subst number payload
  obtain ⟨-, same⟩ := wlcPutv_append_inj same
  obtain ⟨rfl, rfl⟩ := framed_append_inj framed₁ framed₂ same
  exact ⟨rfl, rfl⟩

theorem records_unique {records records' : List Record}
    (same : records.flatMap Record.bytes = records'.flatMap Record.bytes) : records = records' := by
  induction records generalizing records' with
  | nil => exact (records_nil.mp same).symm
  | cons r records ih =>
    cases records' with
    | nil => exact absurd (records_nil.mp same.symm) (List.cons_ne_nil _ _)
    | cons r' records' =>
      rw [List.flatMap_cons, List.flatMap_cons] at same
      obtain ⟨rfl, rest⟩ := Record.bytes_append_inj same
      rw [ih rest]

/-- The descriptor has a field of the record's number. -/
def knows (d : WlcDesc) (r : Record) : Bool := d.fields.any (·.number == r.number)

theorem knows_iff {r : Record} : knows d r = true ↔ ∃ i, Numbered d i r.number := by
  simp only [knows, List.any_eq_true, beq_iff_eq, Numbered]
  constructor
  · rintro ⟨f, member, number⟩
    obtain ⟨i, found⟩ := List.getElem?_of_mem member
    exact ⟨i, f, found, number⟩
  · rintro ⟨i, f, found, number⟩
    exact ⟨f, List.mem_of_getElem? found, number⟩

/-- Records that the descriptor does not know change nothing. -/
theorem denotes_filter {slots m : Slots} {records : List Record} :
    Denotes d slots records m ↔ Denotes d slots (records.filter (knows d)) m := by
  have known {r : Record} {i : Nat} (numbered : Numbered d i r.number) : knows d r = true :=
    knows_iff.mpr ⟨i, numbered⟩
  constructor
  · rintro ⟨length, once, present, absent⟩
    refine ⟨length, once.filter _, fun r member => present r (List.mem_of_mem_filter member), ?_⟩
    intro i others
    apply absent
    exact fun r member numbered =>
      others r (List.mem_filter.mpr ⟨member, known numbered⟩) numbered
  · rintro ⟨length, once, present, absent⟩
    refine ⟨length, ?_, ?_, ?_⟩
    · rw [List.pairwise_filter] at once
      apply once.imp_of_mem
      rintro r r' - - distinct ⟨i, numbered⟩ same
      exact distinct (known numbered) (known (same ▸ numbered)) ⟨i, numbered⟩ same
    · intro r member i f found number
      exact present r (List.mem_filter.mpr ⟨member, known ⟨f, found, number⟩⟩) i f found number
    · intro i others
      exact absent i fun r member => others r (List.mem_of_mem_filter member)

/-- Their order does not matter. -/
theorem Denotes.perm {slots m : Slots} {records records' : List Record}
    (same : records.Perm records') (denotes : Denotes d slots records m) :
    Denotes d slots records' m := by
  obtain ⟨length, once, present, absent⟩ := denotes
  refine ⟨length, (same.pairwise_iff ?_).mp once, fun r member => present r (same.mem_iff.mpr member),
    fun i others => absent i fun r member => others r (same.mem_iff.mp member)⟩
  intro r r' distinct known equal
  exact distinct (equal ▸ known) equal.symm

/-- Two inputs with the same known records, in any order and among any others, decode alike. -/
theorem wlcDecode_known {records records' : List Record} {m : Slots} (fits : wellFormed d = true)
    (same : (records.filter (knows d)).Perm (records'.filter (knows d))) :
    wlcDecode d (records.flatMap Record.bytes) = .ok m ↔
      wlcDecode d (records'.flatMap Record.bytes) = .ok m := by
  have whole (records : List Record) : (∃ others : List Record,
      records.flatMap Record.bytes = others.flatMap Record.bytes ∧
        Denotes d (wlcClear d) others m) ↔
      Denotes d (wlcClear d) (records.filter (knows d)) m := by
    rw [← denotes_filter]
    constructor
    · rintro ⟨others, bytes, denotes⟩
      exact records_unique bytes ▸ denotes
    · exact fun denotes => ⟨records, rfl, denotes⟩
  rw [wlcDecode_eq_ok fits, wlcDecode_eq_ok fits, whole, whole]
  exact and_congr_right' ⟨Denotes.perm same, Denotes.perm same.symm⟩

end Decoder

end Florid.Codec
