import Florid.Codec.Owned

/-! The header of a managed call's payloads, and what its zero discriminator keeps apart. -/
namespace Florid.Rpc

open Codec

/-- `wl_rpc_err_t`, as far as the runtime returns it -/
inductive RpcErr where
  | malformedMetadata | responseMismatch | sessionMismatch | notFound | invalidState
  | responseTooLarge | other
  deriving DecidableEq, Repr

/-- What a header says of its payload, its kind apart. -/
structure RpcHeader where
  operationId : UInt32
  status : Int32
  session : UInt64
  deriving DecidableEq, Repr

/-- `fci_device_rpc_read_u32` -/
def rpcReadU32 (data : List UInt8) : UInt32 :=
  (data.getD 0 0).toUInt32 <<< 24 ||| (data.getD 1 0).toUInt32 <<< 16 |||
    (data.getD 2 0).toUInt32 <<< 8 ||| (data.getD 3 0).toUInt32

/-- `fci_device_rpc_write_u32` -/
def rpcWriteU32 (value : UInt32) : List UInt8 :=
  [(value >>> 24).toUInt8, (value >>> 16).toUInt8, (value >>> 8).toUInt8, value.toUInt8]

/-- `fci_device_rpc_header_read` -/
def rpcHeaderRead (data : List UInt8) (kind : UInt8) : Except RpcErr RpcHeader :=
  if data.length < 20 ∨ data.getD 0 0 ≠ 0 ∨ data.getD 1 0 ≠ 2 ∨ data.getD 2 0 ≠ kind ∨
      data.getD 3 0 ≠ 0 then .error .malformedMetadata
  else
    let operationId := rpcReadU32 (data.drop 4)
    let bits := rpcReadU32 (data.drop 8)
    let session := (rpcReadU32 (data.drop 12)).toUInt64 <<< 32 |||
      (rpcReadU32 (data.drop 16)).toUInt64
    let status := if bits ≤ 0x7fffffff then bits.toInt32 else -1 - (0xffffffff - bits).toInt32
    if session = 0 ∨ operationId = 0 ∨ kind = 1 ∧ status ≠ 0 then .error .malformedMetadata
    else .ok ⟨operationId, status, session⟩

/-- `fci_device_rpc_header_write` -/
def rpcHeaderWrite (kind : UInt8) (h : RpcHeader) : List UInt8 :=
  [0, 2, kind, 0] ++ rpcWriteU32 h.operationId ++ rpcWriteU32 h.status.toUInt32 ++
    rpcWriteU32 (h.session >>> 32).toUInt32 ++ rpcWriteU32 h.session.toUInt32

/-- A header that a reader of its kind accepts. -/
def Accepted (kind : UInt8) (h : RpcHeader) : Prop :=
  h.session ≠ 0 ∧ h.operationId ≠ 0 ∧ (kind = 1 → h.status = 0)

theorem rpcWriteU32_eq (value : UInt32) : rpcWriteU32 value = BigEndian.encode 4 value.toNat := by
  simp only [rpcWriteU32, BigEndian.encode, List.cons.injEq, ← UInt8.toNat_inj]
  simp [Nat.shiftRight_eq_div_pow]

theorem shiftLeft_or {x b : Nat} (k : Nat) (byte : b < 2 ^ 8) :
    x <<< (k + 8) ||| b <<< k = (x * 256 + b) <<< k := by
  rw [Nat.add_comm k 8, Nat.shiftLeft_add, ← Nat.shiftLeft_or_distrib,
    ← Nat.shiftLeft_add_eq_or_of_lt byte, Nat.shiftLeft_eq x 8]

theorem rpcReadU32_toNat (a b c d : UInt8) (rest : List UInt8) :
    (rpcReadU32 (a :: b :: c :: d :: rest)).toNat = BigEndian.value [a, b, c, d] := by
  have first := shiftLeft_or (x := a.toNat) 16 b.toNat_lt
  have second := shiftLeft_or (x := a.toNat * 256 + b.toNat) 8 c.toNat_lt
  have third := shiftLeft_or (x := (a.toNat * 256 + b.toNat) * 256 + c.toNat) 0 d.toNat_lt
  have small (byte : UInt8) (k : Nat) (inside : k ≤ 24) : byte.toNat <<< k < 2 ^ 32 := by
    rw [Nat.shiftLeft_eq]
    calc byte.toNat * 2 ^ k < 2 ^ 8 * 2 ^ k :=
          Nat.mul_lt_mul_of_pos_right byte.toNat_lt (Nat.pow_pos (by decide))
      _ = 2 ^ (8 + k) := (Nat.pow_add 2 8 k).symm
      _ ≤ 2 ^ 32 := Nat.pow_le_pow_right (by decide) (by omega)
  simp only [rpcReadU32, List.getD_cons_zero, List.getD_cons_succ, UInt32.toNat_or,
    UInt32.toNat_shiftLeft, UInt8.toNat_toUInt32, UInt32.reduceToNat, Nat.reduceMod]
  rw [Nat.mod_eq_of_lt (small a 24 (by decide)), Nat.mod_eq_of_lt (small b 16 (by decide)),
    Nat.mod_eq_of_lt (small c 8 (by decide)), first, second]
  simpa [BigEndian.value] using third

theorem rpcReadU32_append (value : UInt32) (rest : List UInt8) :
    rpcReadU32 (rpcWriteU32 value ++ rest) = value := by
  have whole := BigEndian.value_encode (k := 4) value.toNat_lt
  rw [← rpcWriteU32_eq] at whole
  rw [← UInt32.toNat_inj]
  exact (rpcReadU32_toNat _ _ _ _ rest).trans whole

theorem rpcWriteU32_read (a b c d : UInt8) (rest : List UInt8) :
    rpcWriteU32 (rpcReadU32 (a :: b :: c :: d :: rest)) = [a, b, c, d] := by
  rw [rpcWriteU32_eq, rpcReadU32_toNat]
  exact BigEndian.encode_value [a, b, c, d]

theorem session_toNat (high low : UInt32) :
    (high.toUInt64 <<< 32 ||| low.toUInt64).toNat = high.toNat * 2 ^ 32 + low.toNat := by
  have small : high.toNat <<< 32 < 2 ^ 64 := by
    have := high.toNat_lt
    rw [Nat.shiftLeft_eq]
    omega
  simp only [UInt64.toNat_or, UInt64.toNat_shiftLeft, UInt32.toNat_toUInt64, UInt64.reduceToNat,
    Nat.reduceMod]
  rw [Nat.mod_eq_of_lt small, ← Nat.shiftLeft_add_eq_or_of_lt low.toNat_lt, Nat.shiftLeft_eq]

/-- A session is its two halves. -/
theorem session_eq (session : UInt64) (high low : UInt32) :
    high.toUInt64 <<< 32 ||| low.toUInt64 = session ↔
      high = (session >>> 32).toUInt32 ∧ low = session.toUInt32 := by
  have bound := session.toNat_lt
  have bound' := high.toNat_lt
  have bound'' := low.toNat_lt
  simp only [← UInt64.toNat_inj, session_toNat, ← UInt32.toNat_inj, UInt64.toNat_toUInt32,
    UInt64.toNat_shiftRight, UInt64.reduceToNat, Nat.reduceMod, Nat.shiftRight_eq_div_pow]
  omega

theorem status_eq (bits : UInt32) :
    (if bits ≤ 0x7fffffff then bits.toInt32 else -1 - (0xffffffff - bits).toInt32) =
      bits.toInt32 := by
  split
  · rfl
  · apply Int32.toBitVec_inj.mp
    have ones : (-1 : Int32).toBitVec = 4294967295#32 := rfl
    have ones' : (0xffffffff : UInt32).toBitVec = 4294967295#32 := rfl
    simp only [Int32.toBitVec_sub, UInt32.toBitVec_toInt32, UInt32.toBitVec_sub, ones, ones']
    bv_omega

theorem length_rpcHeaderWrite (kind : UInt8) (h : RpcHeader) :
    (rpcHeaderWrite kind h).length = 20 := rfl

/-- What a reader finds behind the discriminator. -/
theorem rpcHeaderRead_write (kind : UInt8) (h : RpcHeader) (rest : List UInt8) :
    rpcHeaderRead (rpcHeaderWrite kind h ++ rest) kind =
      if h.session = 0 ∨ h.operationId = 0 ∨ kind = 1 ∧ h.status ≠ 0 then .error .malformedMetadata
      else .ok h := by
  have long : ¬(rpcHeaderWrite kind h ++ rest).length < 20 := by
    rw [List.length_append, length_rpcHeaderWrite]
    omega
  have operation : rpcReadU32 ((rpcHeaderWrite kind h ++ rest).drop 4) = h.operationId :=
    rpcReadU32_append h.operationId _
  have bits : rpcReadU32 ((rpcHeaderWrite kind h ++ rest).drop 8) = h.status.toUInt32 :=
    rpcReadU32_append h.status.toUInt32 _
  have high : rpcReadU32 ((rpcHeaderWrite kind h ++ rest).drop 12) = (h.session >>> 32).toUInt32 :=
    rpcReadU32_append (h.session >>> 32).toUInt32 _
  have low : rpcReadU32 ((rpcHeaderWrite kind h ++ rest).drop 16) = h.session.toUInt32 :=
    rpcReadU32_append h.session.toUInt32 rest
  have session := (session_eq h.session _ _).mpr ⟨rfl, rfl⟩
  have marked : ¬((rpcHeaderWrite kind h ++ rest).length < 20 ∨
      (rpcHeaderWrite kind h ++ rest).getD 0 0 ≠ 0 ∨ (rpcHeaderWrite kind h ++ rest).getD 1 0 ≠ 2 ∨
      (rpcHeaderWrite kind h ++ rest).getD 2 0 ≠ kind ∨
      (rpcHeaderWrite kind h ++ rest).getD 3 0 ≠ 0) := by
    rintro (short | wrong | wrong | wrong | wrong)
    · exact long short
    all_goals exact wrong rfl
  rw [rpcHeaderRead, if_neg marked, operation, bits, high, low]
  simp only [session, status_eq]
  rw [Int32.toInt32_toUInt32]

theorem exists_four (data : List UInt8) (long : 4 ≤ data.length) :
    ∃ a b c d rest, data = a :: b :: c :: d :: rest := by
  rcases data with - | ⟨a, - | ⟨b, - | ⟨c, - | ⟨d, rest⟩⟩⟩⟩
  · contradiction
  · simp at long
  · simp at long
  · simp at long
  · exact ⟨a, b, c, d, rest, rfl⟩

/-- What starts with the discriminator and is long enough starts with a header. -/
theorem exists_header {data : List UInt8} {kind : UInt8} (long : 20 ≤ data.length)
    (zero : data.getD 0 0 = 0) (version : data.getD 1 0 = 2) (kinds : data.getD 2 0 = kind)
    (reserved : data.getD 3 0 = 0) : ∃ h rest, data = rpcHeaderWrite kind h ++ rest := by
  obtain ⟨_, _, _, _, data, rfl⟩ := exists_four data (by omega)
  simp only [List.length_cons] at long
  obtain ⟨a, b, c, d, data, rfl⟩ := exists_four data (by omega)
  simp only [List.length_cons] at long
  obtain ⟨a', b', c', d', data, rfl⟩ := exists_four data (by omega)
  simp only [List.length_cons] at long
  obtain ⟨a₂, b₂, c₂, d₂, data, rfl⟩ := exists_four data (by omega)
  simp only [List.length_cons] at long
  obtain ⟨a₃, b₃, c₃, d₃, rest, rfl⟩ := exists_four data (by omega)
  simp only [List.getD_cons_zero, List.getD_cons_succ] at zero version kinds reserved
  obtain ⟨high, low⟩ := (session_eq _ (rpcReadU32 [a₂, b₂, c₂, d₂])
    (rpcReadU32 [a₃, b₃, c₃, d₃])).mp rfl
  refine ⟨⟨rpcReadU32 [a, b, c, d], (rpcReadU32 [a', b', c', d']).toInt32,
    (rpcReadU32 [a₂, b₂, c₂, d₂]).toUInt64 <<< 32 ||| (rpcReadU32 [a₃, b₃, c₃, d₃]).toUInt64⟩,
    rest, ?_⟩
  rw [rpcHeaderWrite, ← high, ← low, UInt32.toUInt32_toInt32, rpcWriteU32_read, rpcWriteU32_read,
    rpcWriteU32_read, rpcWriteU32_read, zero, version, kinds, reserved]
  rfl

/-- A reader of a kind accepts what a writer of that kind wrote of an accepted header, and nothing
else. -/
theorem rpcHeaderRead_eq_ok {data : List UInt8} {kind : UInt8} {h : RpcHeader} :
    rpcHeaderRead data kind = .ok h ↔
      Accepted kind h ∧ ∃ rest, data = rpcHeaderWrite kind h ++ rest := by
  have accepted (h : RpcHeader) :
      ¬(h.session = 0 ∨ h.operationId = 0 ∨ kind = 1 ∧ h.status ≠ 0) ↔ Accepted kind h := by
    simp only [Accepted, not_or, not_and, not_not]
  constructor
  · intro read
    have marked := read
    rw [rpcHeaderRead] at marked
    split at marked
    · contradiction
    · rename_i shape
      simp only [not_or, not_not, Nat.not_lt] at shape
      obtain ⟨long, zero, version, kinds, reserved⟩ := shape
      obtain ⟨h', rest, rfl⟩ := exists_header long zero version kinds reserved
      rw [rpcHeaderRead_write] at read
      split at read
      · contradiction
      · rename_i proper
        cases read
        exact ⟨(accepted h).mp proper, rest, rfl⟩
  · rintro ⟨proper, rest, rfl⟩
    rw [rpcHeaderRead_write, if_neg ((accepted h).mpr proper)]

/-- No decoder takes what starts with the discriminator. -/
theorem wlcDecode_zero (d : WlcDesc) (rest : List UInt8) :
    wlcDecode d (0 :: rest) = .error .malformed := by
  obtain ⟨fields, lookup⟩ := d
  have key : wlcGetv (0 :: rest) = .ok (0, rest) := wlcGetv_eq_ok.mpr ⟨by decide, by simp [wlcPutv]⟩
  simp only [wlcDecode, List.length_cons, decodeLoop, decodeRecord, key, bind, Except.bind,
    Nat.zero_shiftRight, true_or, if_true]

/-- What a reader of headers accepts is exactly what starts with a header that it accepts, and no
decoder of messages takes it, nor a reader of headers of another kind. -/
theorem managed_payload (data : List UInt8) (kind : UInt8) (h : RpcHeader) :
    (rpcHeaderRead data kind = .ok h ↔ Accepted kind h ∧ data.take 20 = rpcHeaderWrite kind h) ∧
    (rpcHeaderRead data kind = .ok h → (∀ d, wlcDecode d data = .error .malformed) ∧
      ∀ other, other ≠ kind → rpcHeaderRead data other = .error .malformedMetadata) := by
  constructor
  · rw [rpcHeaderRead_eq_ok]
    refine and_congr_right fun _ => ⟨?_, fun first => ?_⟩
    · rintro ⟨rest, rfl⟩
      exact List.take_left' (length_rpcHeaderWrite kind h)
    · exact ⟨data.drop 20, by rw [← first, List.take_append_drop]⟩
  · intro managed
    obtain ⟨-, rest, rfl⟩ := rpcHeaderRead_eq_ok.mp managed
    refine ⟨fun d => wlcDecode_zero d _, fun other distinct => ?_⟩
    rw [rpcHeaderRead, if_pos]
    exact .inr (.inr (.inr (.inl (Ne.symm distinct))))

end Florid.Rpc
