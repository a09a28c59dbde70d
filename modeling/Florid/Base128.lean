import Mathlib.Data.Nat.Notation
import Mathlib.Tactic.Ring

/-! Numbers in groups of seven bits, the lowest group first. Every group but the last has its
high bit set, so a number ends where its last group does. -/
namespace Florid.Base128

/-- The shortest groups of a number. -/
def encode (n : Nat) : List UInt8 :=
  if n < 128 then [UInt8.ofNat n] else UInt8.ofNat (n % 128 + 128) :: encode (n / 128)

theorem encode_last (small : n < 128) : encode n = [UInt8.ofNat n] := by
  rw [encode, if_pos small]

theorem encode_group (large : 128 ≤ n) :
    encode n = UInt8.ofNat (n % 128 + 128) :: encode (n / 128) := by
  rw [encode, if_neg (by omega)]

/-- The groups of a number whose lowest group is given apart. -/
theorem encode_append_group {low high : Nat} (small : low < 128) (present : 0 < high) :
    encode (low + 128 * high) = UInt8.ofNat (low + 128) :: encode high := by
  have lowest : (low + 128 * high) % 128 = low := by omega
  have others : (low + 128 * high) / 128 = high := by omega
  rw [encode_group (by omega), lowest, others]

theorem encode_ne_nil (n : Nat) : encode n ≠ [] := by
  unfold encode
  split <;> exact List.cons_ne_nil _ _

theorem length_pos (n : Nat) : 0 < (encode n).length := List.length_pos_iff.mpr (encode_ne_nil n)

theorem length_encode_le {k n : Nat} : (encode n).length ≤ k + 1 ↔ n < 128 ^ (k + 1) := by
  induction k generalizing n with
  | zero =>
    by_cases small : n < 128
    · simp [encode_last small, small]
    · have := length_pos (n / 128)
      rw [encode_group (by omega), List.length_cons]
      constructor <;> intro bound <;> omega
  | succ k ih =>
    by_cases small : n < 128
    · have : 128 ^ 1 ≤ 128 ^ (k + 1 + 1) := Nat.pow_le_pow_right (by decide) (by omega)
      simp only [encode_last small, List.length_singleton]
      constructor <;> intro _ <;> omega
    · rw [encode_group (by omega), List.length_cons, Nat.add_le_add_iff_right, ih,
        Nat.div_lt_iff_lt_mul (by decide), ← Nat.pow_succ]

theorem length_encode_mono {m n : Nat} (le : m ≤ n) : (encode m).length ≤ (encode n).length := by
  obtain ⟨k, size⟩ := Nat.exists_eq_succ_of_ne_zero (Nat.ne_of_gt (length_pos n))
  rw [size, length_encode_le]
  exact lt_of_le_of_lt le (length_encode_le.mp size.le)

/-- Groups below a number add to its length what they are. -/
theorem length_encode_add {k low high : Nat} (small : low < 128 ^ k) (present : 0 < high) :
    (encode (low + 128 ^ k * high)).length = k + (encode high).length := by
  induction k generalizing low with
  | zero =>
    have none : low = 0 := by simpa using small
    simp [none]
  | succ k ih =>
    have others : low / 128 < 128 ^ k :=
      Nat.div_lt_of_lt_mul (by rwa [Nat.pow_succ'] at small)
    have regroup : low + 128 ^ (k + 1) * high = low % 128 + 128 * (low / 128 + 128 ^ k * high) := by
      calc low + 128 ^ (k + 1) * high
          = low % 128 + 128 * (low / 128) + 128 * (128 ^ k * high) := by
            rw [Nat.mod_add_div, Nat.pow_succ']
            ring
        _ = low % 128 + 128 * (low / 128 + 128 ^ k * high) := by ring
    have positive : 0 < low / 128 + 128 ^ k * high :=
      Nat.lt_of_lt_of_le (Nat.mul_pos (Nat.pow_pos (by decide)) present) (Nat.le_add_left _ _)
    rw [regroup, encode_append_group (Nat.mod_lt _ (by decide)) positive, List.length_cons,
      ih others]
    omega

/-- Whatever follows two numbers, equal bytes hold equal numbers. -/
theorem encode_append_inj {m n : Nat} {after rest : List UInt8}
    (same : encode m ++ after = encode n ++ rest) : m = n ∧ after = rest := by
  induction m using Nat.strongRecOn generalizing n with
  | ind m ih =>
    by_cases smallM : m < 128 <;> by_cases smallN : n < 128
    · rw [encode_last smallM, encode_last smallN, List.singleton_append, List.singleton_append,
        List.cons.injEq] at same
      obtain ⟨head, tail⟩ := same
      have := congrArg UInt8.toNat head
      simp only [UInt8.toNat_ofNat'] at this
      exact ⟨by omega, tail⟩
    · rw [encode_last smallM, encode_group (by omega), List.singleton_append, List.cons_append,
        List.cons.injEq] at same
      have := congrArg UInt8.toNat same.1
      simp only [UInt8.toNat_ofNat'] at this
      omega
    · rw [encode_last smallN, encode_group (by omega), List.singleton_append, List.cons_append,
        List.cons.injEq] at same
      have := congrArg UInt8.toNat same.1
      simp only [UInt8.toNat_ofNat'] at this
      omega
    · rw [encode_group (n := m) (by omega), encode_group (n := n) (by omega), List.cons_append,
        List.cons_append, List.cons.injEq] at same
      obtain ⟨head, tail⟩ := same
      have := congrArg UInt8.toNat head
      simp only [UInt8.toNat_ofNat'] at this
      obtain ⟨high, following⟩ := ih (m / 128) (by omega) tail
      exact ⟨by omega, following⟩

end Florid.Base128
