import Mathlib.Data.Nat.Notation
import Mathlib.Tactic.Ring

/-! Numbers as a fixed count of bytes, most significant first. -/
namespace Florid.BigEndian

def encode : Nat → Nat → List UInt8
  | 0, _ => []
  | k + 1, n => UInt8.ofNat (n / 256 ^ k) :: encode k n

def value (bytes : List UInt8) : Nat := bytes.foldl (fun n b => n * 256 + b.toNat) 0

@[simp] theorem length_encode (k n : Nat) : (encode k n).length = k := by
  induction k with
  | zero => rfl
  | succ k ih => rw [encode, List.length_cons, ih]

theorem foldl_value (bytes : List UInt8) (n : Nat) :
    bytes.foldl (fun n b => n * 256 + b.toNat) n = n * 256 ^ bytes.length + value bytes := by
  induction bytes generalizing n with
  | nil => simp [value]
  | cons b bytes ih =>
    rw [value, List.foldl_cons, List.foldl_cons, ih, ih (0 * 256 + b.toNat), List.length_cons,
      Nat.pow_succ]
    ring

theorem value_cons (b : UInt8) (bytes : List UInt8) :
    value (b :: bytes) = b.toNat * 256 ^ bytes.length + value bytes := by
  rw [value, List.foldl_cons, foldl_value]
  simp

theorem value_lt (bytes : List UInt8) : value bytes < 256 ^ bytes.length := by
  induction bytes with
  | nil => simp [value]
  | cons b bytes ih =>
    have byte := b.toNat_lt
    rw [value_cons, List.length_cons, Nat.pow_succ]
    calc b.toNat * 256 ^ bytes.length + value bytes
        < b.toNat * 256 ^ bytes.length + 256 ^ bytes.length := Nat.add_lt_add_left ih _
      _ = (b.toNat + 1) * 256 ^ bytes.length := by ring
      _ ≤ 256 * 256 ^ bytes.length := Nat.mul_le_mul_right _ byte
      _ = 256 ^ bytes.length * 256 := Nat.mul_comm _ _

theorem encode_mod (k n : Nat) : encode k (n % 256 ^ k) = encode k n := by
  induction k generalizing n with
  | zero => rfl
  | succ k ih =>
    have lower : n % 256 ^ (k + 1) % 256 ^ k = n % 256 ^ k :=
      Nat.mod_mod_of_dvd n (Nat.pow_dvd_pow 256 (Nat.le_succ k))
    have upper : n % 256 ^ (k + 1) / 256 ^ k % 256 = n / 256 ^ k % 256 := by
      rw [Nat.pow_succ, Nat.mod_mul_right_div_self, Nat.mod_mod]
    rw [encode, encode, ← ih (n % 256 ^ (k + 1)), lower, ih]
    congr 1
    rw [← UInt8.toNat_inj, UInt8.toNat_ofNat', UInt8.toNat_ofNat']
    exact upper

theorem value_encode {k n : Nat} (small : n < 256 ^ k) : value (encode k n) = n := by
  induction k generalizing n with
  | zero =>
    have none : n = 0 := by simpa using small
    rw [none, encode, value, List.foldl_nil]
  | succ k ih =>
    have high : n / 256 ^ k < 256 := by
      rw [Nat.div_lt_iff_lt_mul (Nat.pow_pos (by decide)), ← Nat.pow_succ']
      exact small
    rw [encode, value_cons, length_encode, ← encode_mod, ih (Nat.mod_lt _ (Nat.pow_pos (by decide))),
      UInt8.toNat_ofNat', Nat.mod_eq_of_lt high]
    exact Nat.div_add_mod' n (256 ^ k)

theorem encode_value (bytes : List UInt8) : encode bytes.length (value bytes) = bytes := by
  induction bytes with
  | nil => rfl
  | cons b bytes ih =>
    have below := value_lt bytes
    have positive : 0 < 256 ^ bytes.length := Nat.pow_pos (by decide)
    have high : (b.toNat * 256 ^ bytes.length + value bytes) / 256 ^ bytes.length = b.toNat := by
      rw [Nat.mul_comm, Nat.mul_add_div positive, Nat.div_eq_of_lt below, Nat.add_zero]
    have low : (b.toNat * 256 ^ bytes.length + value bytes) % 256 ^ bytes.length = value bytes := by
      rw [Nat.mul_comm, Nat.mul_add_mod, Nat.mod_eq_of_lt below]
    rw [List.length_cons, value_cons, encode, high, ← encode_mod, low, ih, UInt8.ofNat_toNat]

end Florid.BigEndian
