import Mathlib.Data.Int.Notation
import Mathlib.Tactic.Ring

/-! Signed numbers as unsigned ones of the same width, small magnitudes first: 0, -1, 1, -2, … -/
namespace Florid.Zigzag

def encode (v : Int) : Nat := if 0 ≤ v then (2 * v).toNat else (-2 * v - 1).toNat

def decode (n : Nat) : Int := if n % 2 = 0 then n / 2 else -(n / 2) - 1

@[simp] theorem decode_encode (v : Int) : decode (encode v) = v := by
  unfold encode decode
  split <;> split <;> omega

@[simp] theorem encode_decode (n : Nat) : encode (decode n) = n := by
  unfold encode decode
  split <;> split <;> omega

/-- The code keeps the width. -/
theorem encode_lt {half : Nat} {v : Int} : encode v < 2 * half ↔ -half ≤ v ∧ v < half := by
  unfold encode
  split <;> omega

theorem decode_range (half : Nat) {n : Nat} (small : n < 2 * half) :
    -half ≤ decode n ∧ decode n < half := by
  rw [← encode_lt, encode_decode]
  exact small

section Machine
variable {w : Nat}

/-- The shift and the mask that compute the code of a machine number. -/
theorem encode_toInt (x : BitVec w) :
    ((x <<< 1) ^^^ (if x.msb then BitVec.allOnes w else 0#w)).toNat = encode x.toInt := by
  have bound := x.isLt
  cases w with
  | zero => simp [BitVec.eq_nil x, encode]
  | succ w =>
    have power : 2 ^ (w + 1) = 2 * 2 ^ w := by rw [Nat.pow_succ']
    have half := BitVec.msb_eq_decide x
    rw [Nat.add_sub_cancel] at half
    rw [power] at bound
    unfold encode
    by_cases negative : x.msb
    · rw [if_pos negative, BitVec.xor_allOnes, BitVec.toNat_not, BitVec.toNat_shiftLeft,
        Nat.shiftLeft_eq, BitVec.toInt_eq_msb_cond, if_pos negative]
      have high : 2 ^ w ≤ x.toNat := by simpa [negative] using half
      have double : x.toNat * 2 ^ 1 % 2 ^ (w + 1) = 2 * x.toNat - 2 * 2 ^ w := by
        rw [power, show x.toNat * 2 ^ 1 = 2 * x.toNat - 2 * 2 ^ w + 2 * 2 ^ w by omega,
          Nat.add_mod_right, Nat.mod_eq_of_lt (by omega)]
      rw [double]
      rw [power]
      split <;> omega
    · have low : x.toNat < 2 ^ w := by simpa [negative] using half
      rw [if_neg negative, BitVec.xor_zero, BitVec.toNat_shiftLeft, Nat.shiftLeft_eq,
        BitVec.toInt_eq_msb_cond, if_neg negative, Nat.mod_eq_of_lt (by omega)]
      split <;> omega

/-- The shift and the mask that undo it. -/
theorem decode_toNat (u : BitVec (w + 1)) :
    ((u >>> 1) ^^^ (0 - (u &&& 1#(w + 1)))).toInt = decode u.toNat := by
  have bound := u.isLt
  have power : 2 ^ (w + 1) = 2 * 2 ^ w := by rw [Nat.pow_succ']
  rw [power] at bound
  have shifted : (u >>> 1).toNat = u.toNat / 2 := by
    rw [BitVec.toNat_ushiftRight, Nat.shiftRight_eq_div_pow]
  have parity : u &&& 1#(w + 1) = BitVec.setWidth (w + 1) (BitVec.ofBool (u.getLsbD 0)) :=
    BitVec.and_one_eq_setWidth_ofBool_getLsbD
  rw [parity]
  unfold decode
  by_cases odd : u.toNat % 2 = 1
  · have bit : u.getLsbD 0 = true := by simpa [BitVec.getLsbD, Nat.testBit_zero] using odd
    have mask : (0 : BitVec (w + 1)) - BitVec.setWidth (w + 1) (BitVec.ofBool true) =
        BitVec.allOnes (w + 1) := by
      simp [← BitVec.neg_one_eq_allOnes]
    rw [bit, mask, BitVec.xor_allOnes, BitVec.toInt_eq_toNat_cond, BitVec.toNat_not, shifted,
      if_neg (by omega), if_neg (by omega), power]
    omega
  · have bit : u.getLsbD 0 = false := by simpa [BitVec.getLsbD, Nat.testBit_zero] using odd
    have mask : (0 : BitVec (w + 1)) - BitVec.setWidth (w + 1) (BitVec.ofBool false) = 0#(w + 1) := by
      simp
    rw [bit, mask, BitVec.xor_zero, BitVec.toInt_eq_toNat_cond, shifted, if_pos (by omega),
      if_pos (by omega)]
    rfl

/-- The storage of a machine number whose code is known. -/
theorem toNat_eq_iff {x : BitVec w} {n bits : Nat} (read : x.toInt = decode n) :
    x.toNat = bits ↔ encode (BitVec.ofNat w bits).toInt = n ∧ bits < 2 ^ w := by
  constructor
  · rintro rfl
    rw [BitVec.ofNat_toNat, BitVec.setWidth_eq, read, encode_decode]
    exact ⟨rfl, x.isLt⟩
  · rintro ⟨code, small⟩
    have same : x = BitVec.ofNat w bits := by
      apply BitVec.eq_of_toInt_eq
      rw [read, ← code, decode_encode]
    rw [same, BitVec.toNat_ofNat, Nat.mod_eq_of_lt small]

end Machine
end Florid.Zigzag
