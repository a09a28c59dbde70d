import Florid.Bisect
import Florid.Codec.Utf8
import Florid.Codec.Varint

/-! Message descriptors, the messages they describe, and how a decoder finds a field. -/
namespace Florid.Codec

/-- `WLC_OPTIONAL` and `WLC_PACKED` -/
inductive Card where
  | optional | packed
  deriving DecidableEq, Repr

inductive Kind (δ : Type) where
  | bool | u8 | u16 | u32 | u64 | i8 | i16 | i32 | i64 | f32 | f64 | float32 | float64 | bytes
  | string | enum
  | message (nested : δ)
  deriving DecidableEq, Repr

/-- `WLC_LOOKUP_…` -/
inductive Lookup where
  | linear | dense | binary
  deriving DecidableEq, Repr

/-- The columns of a `wlc_field_t`, its kind apart. A field's place in the message is its place
in the descriptor. -/
structure WlcRow where
  number : Nat
  card : Card
  required : Bool
  wire : Nat
  keySize : Nat
  key : List UInt8
  element : Nat
  packedCount : Nat := 0
  maxLength : Nat := 0
  signedDefault : Int := 0
  unsignedDefault : Nat := 0
  stringDefault : List UInt8 := []
  deriving DecidableEq, Repr

structure WlcField (δ : Type) extends WlcRow where
  kind : Kind δ
  deriving DecidableEq, Repr

/-- `wlc_desc_t` -/
inductive WlcDesc where
  | mk (fields : List (WlcField WlcDesc)) (lookup : Lookup)

abbrev WlcDesc.fields : WlcDesc → List (WlcField WlcDesc)
  | .mk fields _ => fields

abbrev WlcDesc.lookup : WlcDesc → Lookup
  | .mk _ lookup => lookup

mutual
/-- What holds of a descriptor when it holds of those nested in it holds of all. -/
theorem WlcDesc.induct {P : WlcDesc → Prop}
    (step : ∀ d : WlcDesc, (∀ f ∈ d.fields, ∀ nested, f.kind = .message nested → P nested) → P d) :
    ∀ d, P d
  | .mk fields _ => step _ (nested_induct step fields)

theorem nested_induct {P : WlcDesc → Prop}
    (step : ∀ d : WlcDesc, (∀ f ∈ d.fields, ∀ nested, f.kind = .message nested → P nested) → P d) :
    ∀ fields : List (WlcField WlcDesc), ∀ f ∈ fields, ∀ nested, f.kind = .message nested → P nested
  | [], _, member, _, _ => absurd member List.not_mem_nil
  | ⟨row, kind⟩ :: fields, f, member, nested, same => by
    rcases List.mem_cons.mp member with rfl | member
    · cases kind with
      | message inner =>
        cases same
        exact WlcDesc.induct step nested
      | _ => contradiction
    · exact nested_induct step fields f member nested same
end

/-- `has_x` and `x` of a message. -/
structure Slot (ν : Type) where
  has : Bool
  value : ν
  deriving DecidableEq, Repr

/-- What lies in a message's storage: the bits of a number, a span of bytes, an array's elements
or a message. -/
inductive Value where
  | word (bits : Nat)
  | span (bytes : List UInt8)
  | elements (bits : List Nat)
  | message (slots : List (Slot Value))

abbrev Slots := List (Slot Value)

mutual
/-- The message that `wlc_clear` leaves. -/
def wlcClear : WlcDesc → Slots
  | .mk fields _ => clearFields fields

def clearFields : List (WlcField WlcDesc) → Slots
  | [] => []
  | f :: fields => ⟨false, clearField f⟩ :: clearFields fields

def clearField : WlcField WlcDesc → Value
  | ⟨row, kind⟩ =>
    if row.card = .packed then .elements (List.replicate row.packedCount 0) else clearValue row kind

def clearValue (row : WlcRow) : Kind WlcDesc → Value
  | .message nested => .message (wlcClear nested)
  | .string => .span row.stringDefault
  | .bytes => .span []
  | .float32 | .float64 => .word 0
  | .bool => .word (if row.unsignedDefault ≠ 0 then 1 else 0)
  | .i8 => .word (row.signedDefault % 2 ^ 8).toNat
  | .i16 => .word (row.signedDefault % 2 ^ 16).toNat
  | .i32 | .enum => .word (row.signedDefault % 2 ^ 32).toNat
  | .i64 => .word (row.signedDefault % 2 ^ 64).toNat
  | .u8 => .word (row.unsignedDefault % 2 ^ 8)
  | .u16 => .word (row.unsignedDefault % 2 ^ 16)
  | .u32 | .f32 => .word (row.unsignedDefault % 2 ^ 32)
  | .u64 | .f64 => .word (row.unsignedDefault % 2 ^ 64)
end

/-- How many bit patterns a scalar's C type has. -/
def Kind.range {δ : Type} : Kind δ → Nat
  | .bool => 2
  | .u8 | .i8 => 2 ^ 8
  | .u16 | .i16 => 2 ^ 16
  | .u32 | .i32 | .enum | .f32 | .float32 => 2 ^ 32
  | .u64 | .i64 | .f64 | .float64 => 2 ^ 64
  | .bytes | .string | .message _ => 0

mutual
/-- A message has the C type that its descriptor describes. -/
def typed : WlcDesc → Slots → Bool
  | .mk fields _, slots => typedFields fields slots

def typedFields : List (WlcField WlcDesc) → Slots → Bool
  | [], [] => true
  | f :: fields, slot :: slots => typedField f slot.value && typedFields fields slots
  | _, _ => false

def typedField : WlcField WlcDesc → Value → Bool
  | ⟨row, kind⟩, value =>
    match row.card, value with
    | .packed, .elements bits => bits.length == row.packedCount && bits.all (· < 256 ^ row.element)
    | .packed, _ => false
    | .optional, value => typedValue kind value

def typedValue : Kind WlcDesc → Value → Bool
  | .message nested, .message slots => typed nested slots
  | .bytes, .span _ | .string, .span _ => true
  | kind, .word bits => bits < kind.range
  | _, _ => false
end

/-- The wire type of a kind's values. -/
def Kind.wire {δ : Type} : Kind δ → Nat
  | .f64 | .float64 => 1
  | .bytes | .string | .message _ => 2
  | .f32 | .float32 => 5
  | _ => 0

/-- The bytes of a kind of fixed size. -/
def Kind.width {δ : Type} : Kind δ → Nat
  | .f32 | .float32 => 4
  | .f64 | .float64 => 8
  | _ => 0

section Fields
variable {δ : Type}

/-- What a generated row says of itself agrees: the wire type with the kind, the key's bytes with
the number and the wire type, an array's element with its kind. -/
def WlcField.fits (f : WlcField δ) : Bool :=
  1 ≤ f.number && f.number ≤ 65535 && f.key.length == 3 && 1 ≤ f.keySize && f.keySize ≤ 3 &&
    f.key.take f.keySize == wlcPutv (8 * f.number + f.wire) &&
    match f.card with
    | .optional => f.wire == f.kind.wire
    | .packed =>
      f.wire == 2 && 0 < f.kind.width && f.element == f.kind.width &&
        f.element * f.packedCount ≤ sizeMax

/-- The fields are in the order of their numbers, which follow each other where the lookup relies
on it. -/
def ordered (fields : List (WlcField δ)) (lookup : Lookup) : Bool :=
  let numbers := fields.map (·.number)
  decide (numbers.Pairwise (· < ·)) &&
    (lookup != .dense || numbers == List.range' (numbers.headD 0) numbers.length)

end Fields

mutual
def wellFormed : WlcDesc → Bool
  | .mk fields lookup => ordered fields lookup && wellFormedFields fields

def wellFormedFields : List (WlcField WlcDesc) → Bool
  | [] => true
  | f :: fields => f.fits && wellFormedKind f && wellFormedFields fields

def wellFormedKind : WlcField WlcDesc → Bool
  | ⟨_, .message nested⟩ => wellFormed nested
  | _ => true
end

theorem wellFormedFields_iff {fields : List (WlcField WlcDesc)} :
    wellFormedFields fields = true ↔ ∀ f ∈ fields, f.fits = true ∧
      ∀ nested, f.kind = .message nested → wellFormed nested = true := by
  induction fields with
  | nil => simp [wellFormedFields]
  | cons f fields ih =>
    have kind : wellFormedKind f = true ↔
        ∀ nested, f.kind = .message nested → wellFormed nested = true := by
      obtain ⟨row, kind⟩ := f
      cases kind <;> simp [wellFormedKind]
    rw [wellFormedFields, Bool.and_eq_true, Bool.and_eq_true, ih, kind, List.forall_mem_cons]

theorem wellFormed_iff {d : WlcDesc} :
    wellFormed d = true ↔ ordered d.fields d.lookup = true ∧ ∀ f ∈ d.fields, f.fits = true ∧
      ∀ nested, f.kind = .message nested → wellFormed nested = true := by
  cases d
  rw [wellFormed, Bool.and_eq_true, wellFormedFields_iff]

/-- The index of the field that `wlc_find_field` returns. -/
def wlcFindField (d : WlcDesc) (number : Nat) : Option Nat :=
  match d.lookup with
  | .dense =>
    let index := (number + 2 ^ 64 - (d.fields.map (·.number)).headD 0) % 2 ^ 64
    if index < d.fields.length then some index else none
  | .binary =>
    Bisect.search (fun mid => (d.fields.map (·.number)).getD mid 0) number 0 d.fields.length
  | .linear => d.fields.findIdx? (·.number == number)

/-- The field of a number: the one after the last field read, or the one that is looked up. -/
def locate (d : WlcDesc) (next number : Nat) : Option Nat :=
  match d.fields[next]? with
  | some f => if f.number = number then some next else wlcFindField d number
  | none => wlcFindField d number

/-- The field at an index has a number. -/
def Numbered (d : WlcDesc) (i number : Nat) : Prop := ∃ f, d.fields[i]? = some f ∧ f.number = number

theorem numbered_iff_get {d : WlcDesc} {i number : Nat} :
    Numbered d i number ↔ (d.fields.map (·.number))[i]? = some number := by
  simp [Numbered, List.getElem?_map]

theorem numbers_increasing {d : WlcDesc} (fits : wellFormed d = true) :
    (d.fields.map (·.number)).Pairwise (· < ·) := by
  obtain ⟨order, -⟩ := wellFormed_iff.mp fits
  rw [ordered, Bool.and_eq_true, decide_eq_true_eq] at order
  exact order.1

theorem numbers_consecutive {d : WlcDesc} (fits : wellFormed d = true) (dense : d.lookup = .dense) :
    d.fields.map (·.number) =
      List.range' ((d.fields.map (·.number)).headD 0) d.fields.length := by
  obtain ⟨order, -⟩ := wellFormed_iff.mp fits
  rw [ordered, Bool.and_eq_true, dense] at order
  simpa using order.2

theorem numbered_bounds {d : WlcDesc} {i number : Nat} (fits : wellFormed d = true)
    (numbered : Numbered d i number) : i < d.fields.length ∧ 1 ≤ number ∧ number ≤ 65535 := by
  obtain ⟨f, found, rfl⟩ := numbered
  obtain ⟨inside, same⟩ := List.getElem?_eq_some_iff.mp found
  obtain ⟨row, -⟩ := (wellFormed_iff.mp fits).2 f (same ▸ List.getElem_mem inside)
  simp only [WlcField.fits, Bool.and_eq_true, decide_eq_true_eq] at row
  exact ⟨inside, row.1.1.1.1.1.1, row.1.1.1.1.1.2⟩

theorem numbered_unique {d : WlcDesc} {i j number : Nat} (fits : wellFormed d = true)
    (first : Numbered d i number) (second : Numbered d j number) : i = j := by
  obtain ⟨inside, same⟩ := List.getElem?_eq_some_iff.mp (numbered_iff_get.mp first)
  obtain ⟨inside', same'⟩ := List.getElem?_eq_some_iff.mp (numbered_iff_get.mp second)
  have increasing := List.pairwise_iff_getElem.mp (numbers_increasing fits)
  rcases lt_trichotomy i j with before | equal | after
  · have := increasing i j inside inside' before
    omega
  · exact equal
  · have := increasing j i inside' inside after
    omega

/-- Each of the three lookups finds the field of a number, and nothing else. -/
theorem wlcFindField_eq_some {d : WlcDesc} {i number : Nat} (fits : wellFormed d = true)
    (small : number ≤ 65535) : wlcFindField d number = some i ↔ Numbered d i number := by
  cases lookup : d.lookup with
  | linear =>
    simp only [wlcFindField, lookup]
    constructor
    · intro found
      obtain ⟨inside, same, -⟩ := List.findIdx?_eq_some_iff_getElem.mp found
      exact ⟨d.fields[i], List.getElem?_eq_getElem inside, by simpa using same⟩
    · rintro ⟨f, found, same⟩
      obtain ⟨inside, rfl⟩ := List.getElem?_eq_some_iff.mp found
      refine List.findIdx?_eq_some_iff_getElem.mpr ⟨inside, by simpa using same, ?_⟩
      intro j before equal
      have other : Numbered d j number :=
        ⟨d.fields[j], List.getElem?_eq_getElem (by omega), by simpa using equal⟩
      have := numbered_unique fits other ⟨_, List.getElem?_eq_getElem inside, same⟩
      omega
  | dense =>
    have consecutive := numbers_consecutive fits lookup
    generalize start : (d.fields.map (·.number)).headD 0 = first at consecutive
    have numbered (j n : Nat) : Numbered d j n ↔ j < d.fields.length ∧ first + j = n := by
      rw [numbered_iff_get, consecutive, List.getElem?_eq_some_iff]
      simp [List.getElem_range']
    simp only [wlcFindField, lookup, start, numbered]
    have bounded (j : Nat) (inside : j < d.fields.length) : first + j ≤ 65535 :=
      (numbered_bounds fits ((numbered j _).mpr ⟨inside, rfl⟩)).2.2
    rcases Nat.eq_zero_or_pos d.fields.length with empty | present
    · simp [empty]
    · have low := bounded 0 present
      have high := bounded (d.fields.length - 1) (by omega)
      rw [Option.ite_none_right_eq_some, Option.some.injEq]
      omega
  | binary =>
    have increasing := List.pairwise_iff_getElem.mp (numbers_increasing fits)
    have at_index (j : Nat) (inside : j < d.fields.length) :
        (d.fields.map (·.number)).getD j 0 = d.fields[j].number := by
      simp [List.getD_eq_getElem?_getD, inside]
    simp only [wlcFindField, lookup]
    rw [Bisect.search_eq_some]
    · constructor
      · rintro ⟨-, inside, same⟩
        rw [at_index i inside] at same
        exact ⟨d.fields[i], List.getElem?_eq_getElem inside, same⟩
      · rintro ⟨f, found, rfl⟩
        obtain ⟨inside, rfl⟩ := List.getElem?_eq_some_iff.mp found
        exact ⟨Nat.zero_le _, inside, at_index i inside⟩
    · intro a b _ before inside
      rw [at_index a (by omega), at_index b inside]
      have := increasing a b (by simp; omega) (by simpa using inside) before
      rwa [List.getElem_map, List.getElem_map] at this

/-- The hint changes nothing: whichever field it points at, the field found is the one whose
number it is. -/
theorem locate_eq_some {d : WlcDesc} {next i number : Nat} (fits : wellFormed d = true)
    (small : number ≤ 65535) : locate d next number = some i ↔ Numbered d i number := by
  unfold locate
  split
  · rename_i f expected
    split
    · rename_i same
      rw [Option.some.injEq]
      constructor
      · rintro rfl
        exact ⟨f, expected, same⟩
      · exact numbered_unique fits ⟨f, expected, same⟩
    · exact wlcFindField_eq_some fits small
  · exact wlcFindField_eq_some fits small

/-- Whichever lookup a descriptor names and wherever the hint of the decoder points, the field found
is the one that a search from the first field on finds. -/
theorem locate_linear {d : WlcDesc} (next : Nat) {number : Nat} (fits : wellFormed d = true)
    (small : number ≤ 65535) : locate d next number = wlcFindField ⟨d.fields, .linear⟩ number := by
  have plain : wellFormed ⟨d.fields, .linear⟩ = true := by
    rw [wellFormed_iff, ordered, Bool.and_eq_true] at fits ⊢
    exact ⟨⟨fits.1.1, rfl⟩, fits.2⟩
  apply Option.ext
  intro i
  rw [locate_eq_some fits small, wlcFindField_eq_some plain small]
  rfl

end Florid.Codec
