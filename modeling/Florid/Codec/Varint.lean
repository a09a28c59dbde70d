import Florid.Base128
import Florid.Zigzag

/-! The numbers of the wire format: `wlc_vsize`, `wlc_putv` and `wlc_getv`, and the zigzag code
of the signed ones. A cursor is the list of the bytes it has before it. -/
namespace Florid.Codec

/-- `wl_codec_status_t`, without `WL_CODEC_OK` -/
inductive Status where
  | invalidValue | missingRequiredField | overflow | capacity | malformed | utf8 | wireType
  | duplicateField
  deriving DecidableEq, Repr

/-- `SIZE_MAX` -/
def sizeMax : Nat := 18446744073709551615

def wlcAdd (a b : Nat) : Except Status Nat :=
  if sizeMax - a < b then .error .overflow else .ok (a + b)

def wlcVsize (v : Nat) : Nat := if 128 ≤ v then wlcVsize (v >>> 7) + 1 else 1

/-- The bytes that `wlc_putv` appends. -/
def wlcPutv (v : Nat) : List UInt8 :=
  if 128 ≤ v then UInt8.ofNat (v ||| 128) :: wlcPutv (v >>> 7) else [UInt8.ofNat v]

/-- The loop of `wlc_getv`, after `n` bytes that gave `v`. -/
def wlcGetvLoop (n v : Nat) : List UInt8 → Except Status (Nat × List UInt8)
  | [] => .error .malformed
  | b :: rest =>
    if 10 ≤ n then .error .overflow
    else if n = 9 ∧ 1 < b then .error .overflow
    else
      let v := v ||| (b &&& 127).toNat <<< (7 * n)
      if b &&& 128 = 0 then
        if wlcVsize v ≠ n + 1 then .error .malformed else .ok (v, rest)
      else wlcGetvLoop (n + 1) v rest

def wlcGetv (input : List UInt8) : Except Status (Nat × List UInt8) := wlcGetvLoop 0 0 input

def wlcZ32 (v : Int32) : Nat :=
  ((v.toUInt32 <<< 1) ^^^ (0 - (if v < 0 then 1 else 0))).toNat

def wlcZ64 (v : Int64) : Nat :=
  ((v.toUInt64 <<< 1) ^^^ (0 - (if v < 0 then 1 else 0))).toNat

def wlcUz32 (v : UInt32) : Int32 := ((v >>> 1) ^^^ (0 - (v &&& 1))).toInt32

def wlcUz64 (v : UInt64) : Int64 := ((v >>> 1) ^^^ (0 - (v &&& 1))).toInt64

@[simp] theorem wlcAdd_eq_ok {a b n : Nat} (fits : a ≤ sizeMax) :
    wlcAdd a b = .ok n ↔ n = a + b ∧ n ≤ sizeMax := by
  unfold wlcAdd
  split <;> simp <;> omega

theorem wlcPutv_eq_encode (v : Nat) : wlcPutv v = Base128.encode v := by
  fun_induction wlcPutv v with
  | case1 v large ih =>
    have high : (v ||| 128) % 256 = v % 128 + 128 := by
      have low := Nat.or_mod_two_pow (a := v) (b := 128) (n := 8)
      have split : v % 256 ||| 128 = v % 128 + 128 :=
        (by decide +kernel : ∀ n : Fin 256, n.val ||| 128 = n.val % 128 + 128)
          ⟨v % 256, Nat.mod_lt _ (by decide)⟩ |>.trans (by simp only []; omega)
      exact low.trans split
    rw [ih, Base128.encode_group large, Nat.shiftRight_eq_div_pow]
    congr 1
    rw [← UInt8.toNat_inj, UInt8.toNat_ofNat', UInt8.toNat_ofNat']
    omega
  | case2 v small => rw [Base128.encode_last (by omega)]

theorem wlcVsize_eq_length (v : Nat) : wlcVsize v = (wlcPutv v).length := by
  fun_induction wlcPutv v with
  | case1 v large ih => rw [wlcVsize, if_pos large, ih, List.length_cons]
  | case2 v small => rw [wlcVsize, if_neg small, List.length_singleton]

theorem wlcVsize_pos (v : Nat) : 0 < wlcVsize v := by
  rw [wlcVsize_eq_length, wlcPutv_eq_encode]
  exact Base128.length_pos v

theorem wlcVsize_mono {m n : Nat} (le : m ≤ n) : wlcVsize m ≤ wlcVsize n := by
  simpa only [wlcVsize_eq_length, wlcPutv_eq_encode] using Base128.length_encode_mono le

theorem wlcPutv_append_inj {m n : Nat} {after rest : List UInt8}
    (same : wlcPutv m ++ after = wlcPutv n ++ rest) : m = n ∧ after = rest := by
  simp only [wlcPutv_eq_encode] at same
  exact Base128.encode_append_inj same

theorem low_group (b : UInt8) : (b &&& 127).toNat = b.toNat % 128 := by
  rw [UInt8.toNat_and]
  exact Nat.and_two_pow_sub_one_eq_mod b.toNat 7

theorem last_group (b : UInt8) : b &&& 128 = 0 ↔ b.toNat < 128 := by
  have bits : ∀ b : Fin 256, b.val &&& 128 = 0 ↔ b.val < 128 := by decide +kernel
  rw [← UInt8.toNat_inj, UInt8.toNat_and]
  exact bits ⟨b.toNat, b.toNat_lt⟩

/-- The groups read so far and the next one do not overlap. -/
theorem or_group {n v group : Nat} (low : v < 128 ^ n) :
    v ||| group <<< (7 * n) = v + 128 ^ n * group := by
  have base : (128 : Nat) ^ n = 2 ^ (7 * n) := by rw [Nat.pow_mul]
  rw [base] at low ⊢
  rw [Nat.or_comm, Nat.shiftLeft_eq, Nat.mul_comm, ← Nat.two_pow_add_eq_or_of_lt low, Nat.add_comm]

/-- The first byte of a number says whether it is the last. -/
theorem cons_eq_wlcPutv_append {b : UInt8} {input rest : List UInt8} {high : Nat} :
    b :: input = wlcPutv high ++ rest ↔
      (b.toNat < 128 ∧ high = b.toNat ∧ input = rest) ∨
        (128 ≤ b.toNat ∧ ∃ higher, 0 < higher ∧ high = b.toNat % 128 + 128 * higher ∧
          input = wlcPutv higher ++ rest) := by
  have bound := b.toNat_lt
  rw [wlcPutv_eq_encode]
  by_cases small : high < 128
  · rw [Base128.encode_last small, List.singleton_append, List.cons.injEq, ← UInt8.toNat_inj,
      UInt8.toNat_ofNat']
    constructor
    · rintro ⟨head, tail⟩
      exact Or.inl ⟨by omega, by omega, tail⟩
    · rintro (⟨_, whole, tail⟩ | ⟨_, higher, present, whole, _⟩)
      · exact ⟨by omega, tail⟩
      · omega
  · rw [Base128.encode_group (by omega), List.cons_append, List.cons.injEq, ← UInt8.toNat_inj,
      UInt8.toNat_ofNat']
    constructor
    · rintro ⟨head, tail⟩
      exact Or.inr ⟨by omega, high / 128, by omega, by omega, by rwa [wlcPutv_eq_encode]⟩
    · rintro (⟨_, whole, _⟩ | ⟨_, higher, present, whole, tail⟩)
      · omega
      · have quotient : high / 128 = higher := by omega
        rw [wlcPutv_eq_encode] at tail
        exact ⟨by omega, by rwa [quotient]⟩

/-- The length that a number's bytes must have for it to be accepted. -/
theorem wlcVsize_groups {n v last : Nat} (low : v < 128 ^ n) (small : last < 128) :
    wlcVsize (v + 128 ^ n * last) = n + 1 ↔ n = 0 ∨ 0 < last := by
  rw [wlcVsize_eq_length, wlcPutv_eq_encode]
  rcases Nat.eq_zero_or_pos last with zero | present
  · subst zero
    cases n with
    | zero =>
      have none : v = 0 := by simpa using low
      simp [none, Base128.encode_last]
    | succ n =>
      have short := Base128.length_encode_le.mpr low
      simp only [Nat.mul_zero, Nat.add_zero]
      constructor <;> intro _ <;> omega
  · rw [Base128.length_encode_add low present, Base128.encode_last small]
    simp [present]

/-- After `n` groups the loop accepts exactly the rest of a shortest code: more groups, of which
the last is not zero, and no more than 64 bits in all. -/
theorem wlcGetvLoop_eq_ok {input rest : List UInt8} {n v w : Nat} (low : v < 128 ^ n)
    (count : n ≤ 9) :
    wlcGetvLoop n v input = .ok (w, rest) ↔
      ∃ high, (n = 0 ∨ 0 < high) ∧ w = v + 128 ^ n * high ∧ w < 2 ^ 64 ∧
        input = wlcPutv high ++ rest := by
  induction input generalizing n v with
  | nil =>
    have absent (high : Nat) : ¬[] = wlcPutv high ++ rest := fun h =>
      Base128.encode_ne_nil high (wlcPutv_eq_encode high ▸ (List.append_eq_nil_iff.mp h.symm).1)
    simp [wlcGetvLoop, absent]
  | cons b input ih =>
    have byte := b.toNat_lt
    rw [wlcGetvLoop, if_neg (by omega)]
    simp only [cons_eq_wlcPutv_append]
    split
    · -- the tenth byte has one bit left
      rename_i tenth
      obtain ⟨ninth, large⟩ := tenth
      have above : 1 < b.toNat := UInt8.lt_iff_toNat_lt.mp large
      subst ninth
      simp only [reduceCtorEq, false_iff, not_exists, not_and]
      rintro high - whole fits (⟨_, same, _⟩ | ⟨_, higher, present, same, _⟩) <;> omega
    · rename_i fitting
      have tenth : n = 9 → b.toNat ≤ 1 := fun ninth =>
        Nat.not_lt.mp fun above => fitting ⟨ninth, UInt8.lt_iff_toNat_lt.mpr above⟩
      simp only [low_group, or_group low, last_group]
      split
      · rename_i last
        have group : b.toNat % 128 = b.toNat := Nat.mod_eq_of_lt last
        rw [group, ite_not]
        have fits : v + 128 ^ n * b.toNat < 2 ^ 64 := by
          rcases Nat.lt_or_ge n 9 with early | late
          · have power : 128 ^ (n + 1) ≤ 128 ^ 9 := Nat.pow_le_pow_right (by decide) (by omega)
            have inside : v + 128 ^ n * b.toNat < 128 ^ (n + 1) := by
              calc v + 128 ^ n * b.toNat < 128 ^ n + 128 ^ n * b.toNat := by omega
                _ = 128 ^ n * (b.toNat + 1) := by ring
                _ ≤ 128 ^ n * 128 := Nat.mul_le_mul_left _ last
            omega
          · obtain rfl : n = 9 := by omega
            have := tenth rfl
            omega
        split
        · rename_i size
          have shortest := (wlcVsize_groups low last).mp size
          constructor
          · intro accepted
            obtain ⟨rfl, rfl⟩ : v + 128 ^ n * b.toNat = w ∧ input = rest := by
              simpa using accepted
            exact ⟨b.toNat, shortest, rfl, fits, Or.inl ⟨last, rfl, rfl⟩⟩
          · rintro ⟨high, -, rfl, -, ⟨-, rfl, rfl⟩ | ⟨continued, -⟩⟩
            · rfl
            · omega
        · rename_i size
          simp only [reduceCtorEq, false_iff, not_exists, not_and]
          rintro high shortest - - (⟨_, rfl, _⟩ | ⟨continued, _⟩)
          · exact size ((wlcVsize_groups low last).mpr shortest)
          · omega
      · rename_i more
        have continued : 128 ≤ b.toNat := Nat.not_lt.mp more
        have early : n + 1 ≤ 9 := by
          by_contra late
          have := tenth (by omega)
          omega
        have inside : v + 128 ^ n * (b.toNat % 128) < 128 ^ (n + 1) := by
          have group : b.toNat % 128 < 128 := Nat.mod_lt _ (by decide)
          calc v + 128 ^ n * (b.toNat % 128) < 128 ^ n + 128 ^ n * (b.toNat % 128) := by omega
            _ = 128 ^ n * (b.toNat % 128 + 1) := by ring
            _ ≤ 128 ^ n * 128 := Nat.mul_le_mul_left _ group
        have regroup (higher : Nat) : v + 128 ^ n * (b.toNat % 128) + 128 ^ (n + 1) * higher =
            v + 128 ^ n * (b.toNat % 128 + 128 * higher) := by
          rw [Nat.pow_succ]
          ring
        rw [ih inside early]
        constructor
        · rintro ⟨higher, present, rfl, fits, rfl⟩
          have present : 0 < higher := present.resolve_left (by omega)
          exact ⟨b.toNat % 128 + 128 * higher, Or.inr (by omega), regroup higher, fits,
            Or.inr ⟨continued, higher, present, rfl, rfl⟩⟩
        · rintro ⟨high, -, rfl, fits, ⟨last, -⟩ | ⟨-, higher, present, rfl, rfl⟩⟩
          · omega
          · exact ⟨higher, Or.inr present, (regroup higher).symm, fits, rfl⟩

/-- `wlc_getv` accepts a number exactly where the input starts with what `wlc_putv` writes for it:
one encoding, the shortest, for each 64-bit number. -/
theorem wlcGetv_eq_ok {input rest : List UInt8} {v : Nat} :
    wlcGetv input = .ok (v, rest) ↔ v < 2 ^ 64 ∧ input = wlcPutv v ++ rest := by
  rw [wlcGetv, wlcGetvLoop_eq_ok (by simp) (by decide)]
  constructor
  · rintro ⟨high, -, rfl, fits, rfl⟩
    exact ⟨fits, by simp⟩
  · rintro ⟨fits, rfl⟩
    exact ⟨v, Or.inl rfl, by simp, fits, rfl⟩

theorem wlcGetv_shortens {input rest : List UInt8} {v : Nat}
    (read : wlcGetv input = .ok (v, rest)) : rest.length < input.length := by
  rw [wlcGetv_eq_ok] at read
  rw [read.2, List.length_append, wlcPutv_eq_encode]
  have := Base128.length_pos v
  omega

theorem wlcZ32_eq_encode (v : Int32) : wlcZ32 v = Zigzag.encode v.toInt := by
  have sign : v < 0 ↔ v.toBitVec.msb = true := by
    rw [Int32.lt_iff_toInt_lt, BitVec.msb_eq_toInt]
    simp
  have code := Zigzag.encode_toInt v.toBitVec
  rw [wlcZ32]
  by_cases negative : v < 0
  · rw [if_pos (sign.mp negative)] at code
    rw [if_pos negative]
    exact code
  · rw [if_neg (mt sign.mpr negative)] at code
    rw [if_neg negative]
    exact code

theorem wlcZ64_eq_encode (v : Int64) : wlcZ64 v = Zigzag.encode v.toInt := by
  have sign : v < 0 ↔ v.toBitVec.msb = true := by
    rw [Int64.lt_iff_toInt_lt, BitVec.msb_eq_toInt]
    simp
  have code := Zigzag.encode_toInt v.toBitVec
  rw [wlcZ64]
  by_cases negative : v < 0
  · rw [if_pos (sign.mp negative)] at code
    rw [if_pos negative]
    exact code
  · rw [if_neg (mt sign.mpr negative)] at code
    rw [if_neg negative]
    exact code

theorem toInt_wlcUz32 (u : UInt32) : (wlcUz32 u).toInt = Zigzag.decode u.toNat :=
  Zigzag.decode_toNat (w := 31) u.toBitVec

theorem toInt_wlcUz64 (u : UInt64) : (wlcUz64 u).toInt = Zigzag.decode u.toNat :=
  Zigzag.decode_toNat (w := 63) u.toBitVec

end Florid.Codec
