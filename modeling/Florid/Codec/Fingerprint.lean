import Florid.Codec.RoundTrip

/-! The writer over the hashing sink: `wlc_hash_emit_fields` and the fingerprint of a decoded
message. -/
namespace Florid.Codec

/-- `wlc_hash_state_t`; no status is `WL_CODEC_OK` -/
structure HashState where
  hash : UInt64
  length : Nat
  status : Option Status
  deriving DecidableEq, Repr

/-- One byte hashed. -/
def hashByte (hash : UInt64) (b : UInt8) : UInt64 := (hash ^^^ b.toUInt64) * 0x100000001b3

def wlcHashCopySpan (out : HashState) (bytes : List UInt8) : HashState :=
  match out.status with
  | some _ => out
  | none =>
    match wlcAdd out.length bytes.length with
    | .error status => { out with status := some status }
    | .ok length => { out with length, hash := bytes.foldl hashByte out.hash }

/-- `wlc_hash_put_key` hashes `key_size` bytes, and the length of a nested message is measured
without a second look at its strings. -/
def hashSink : Sink HashState where
  put := wlcHashCopySpan
  putKey row := row.key.take row.keySize
  validated := true

def wlcHashEmitFields (d : WlcDesc) (slots : Slots) (out : HashState) : Except Status HashState :=
  emitMessage hashSink d slots out

/-- `…_wlc_detail_fingerprint`: the hash from a seed, and the count of bytes hashed. -/
def fingerprint (d : WlcDesc) (slots : Slots) (seed : UInt64) : Except Status (UInt64 × Nat) := do
  let state ← wlcHashEmitFields d slots ⟨seed, 0, none⟩
  match state.status with
  | some status => .error status
  | none => .ok (state.hash, state.length)

/-- The sink has hashed these bytes. -/
def Hashed (seed : UInt64) (state : HashState) (bytes : List UInt8) : Prop :=
  state = ⟨bytes.foldl hashByte seed, bytes.length, none⟩

theorem hashSink_tracks (seed : UInt64) : Tracks hashSink (Hashed seed) where
  put := by
    rintro _ bytes more rfl small
    rw [List.length_append] at small
    have fits := (wlcAdd_eq_ok (b := more.length) (by omega)).mpr ⟨rfl, small⟩
    simp only [hashSink, wlcHashCopySpan, fits, Hashed, List.foldl_append, List.length_append]
  putKey _ fits := (wlcPutKey_eq fits).2.1

theorem completeValue_validated {row : WlcRow} {kind : Kind WlcDesc} {value : Value}
    (whole : completeValue false row kind value = true)
    (inner : ∀ nested, kind = .message nested → ∀ slots, complete false nested slots = true →
      complete true nested slots = true) : completeValue true row kind value = true := by
  cases value with
  | word bits => exact completeValue_word true row
  | elements bits => cases kind <;> rfl
  | span bytes =>
    cases kind
    case bytes => exact whole
    case string => exact checkSpan_isOk.mpr ⟨(checkSpan_isOk.mp whole).1, by simp⟩
    all_goals rfl
  | message slots =>
    cases kind
    case message nested => exact inner nested rfl slots whole
    all_goals rfl

/-- A message that passes every check passes those that are left when its strings are trusted. -/
theorem complete_validated {d : WlcDesc} {slots : Slots} (whole : complete false d slots = true) :
    complete true d slots = true := by
  induction d using WlcDesc.induct generalizing slots with
  | step d ih =>
    obtain ⟨fields, lookup⟩ := d
    rw [complete] at whole ⊢
    induction fields generalizing slots with
    | nil => rfl
    | cons f fields each =>
      cases slots with
      | nil => rfl
      | cons slot slots =>
        obtain ⟨inner, inners⟩ := List.forall_mem_cons.mp ih
        rw [completeFields, Bool.and_eq_true] at whole ⊢
        refine ⟨?_, each inners whole.2⟩
        cases has : slot.has with
        | false => simpa [has] using whole.1
        | true =>
          have first := whole.1
          rw [has, if_pos rfl] at first
          rw [if_pos rfl]
          obtain ⟨row, kind⟩ := f
          cases card : row.card with
          | packed => simp only [completeField, card]
          | optional =>
            simp only [completeField, card] at first ⊢
            exact completeValue_validated first fun nested same slots => inner nested same

/-- The fingerprint of a decoded message is the hash of its encoding, whatever the bytes it was
decoded from. -/
theorem fingerprint_of_decode {d : WlcDesc} {input : List UInt8} {m : Slots} (seed : UInt64)
    (fits : wellFormed d = true) (held : input.length ≤ sizeMax)
    (read : wlcDecode d input = .ok m) :
    ∃ bytes, wlcEncode d m input.length = .ok bytes ∧
      fingerprint d m seed = .ok (bytes.foldl hashByte seed, bytes.length) := by
  obtain ⟨fitting, present, -, shorter⟩ := decodesSound fits read
  have small := Nat.le_trans shorter held
  refine ⟨canonical d m, (wlcEncode_eq_ok fits fitting).mpr ⟨present, rfl, shorter, small⟩, ?_⟩
  obtain ⟨_, done, rfl⟩ := emits_message (hashSink_tracks seed) fits fitting
    (complete_validated present) ⟨seed, 0, none⟩ [] rfl (by simpa using small)
  simp only [fingerprint, wlcHashEmitFields, done, bind, Except.bind, List.nil_append]

end Florid.Codec
