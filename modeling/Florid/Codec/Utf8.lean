import Mathlib.Data.Nat.Notation
import Mathlib.Data.List.Basic

/-! `wlc_utf8`, the check that every string of the wire format passes: it accepts exactly the
encodings of texts. -/
namespace Florid.Codec

/-- What the first byte of a longer sequence says: how many bytes follow, and its own bits. -/
def wlcUtf8Lead (a : UInt8) : Option (Nat × Nat) :=
  if 0xC2 ≤ a ∧ a ≤ 0xDF then some (1, (a &&& 0x1F).toNat)
  else if 0xE0 ≤ a ∧ a ≤ 0xEF then some (2, (a &&& 0x0F).toNat)
  else if 0xF0 ≤ a ∧ a ≤ 0xF4 then some (3, (a &&& 0x07).toNat)
  else none

/-- The bytes that must follow, of which there are enough. -/
def wlcUtf8Tail : Nat → Nat → List UInt8 → Option (Nat × List UInt8)
  | 0, v, rest => some (v, rest)
  | _ + 1, _, [] => none
  | need + 1, v, b :: rest =>
    if b &&& 0xC0 ≠ 0x80 then none
    else wlcUtf8Tail need (v <<< 6 ||| (b &&& 0x3F).toNat) rest

/-- A sequence longer than its value needs, or of no scalar value. -/
def wlcUtf8Refused (a : UInt8) (v : Nat) : Bool :=
  (a == 0xE0 && v < 0x800) || (a == 0xED && 0xD800 ≤ v) || (a == 0xF0 && v < 0x10000) ||
    (a == 0xF4 && 0x10FFFF < v)

theorem length_of_wlcUtf8Tail {need v w : Nat} {rest after : List UInt8}
    (read : wlcUtf8Tail need v rest = some (w, after)) : after.length ≤ rest.length := by
  fun_induction wlcUtf8Tail need v rest with
  | case1 v rest =>
    obtain ⟨-, rfl⟩ : v = w ∧ rest = after := by simpa using read
    exact Nat.le_refl _
  | case2 => contradiction
  | case3 => contradiction
  | case4 need v b rest continued ih =>
    have := ih read
    simp only [List.length_cons]
    omega

def wlcUtf8 : List UInt8 → Bool
  | [] => true
  | a :: rest =>
    if a < 0x80 then wlcUtf8 rest
    else
      match wlcUtf8Lead a with
      | none => false
      | some (need, v) =>
        if rest.length < need then false
        else
          match _read : wlcUtf8Tail need v rest with
          | none => false
          | some (v, after) => if wlcUtf8Refused a v then false else wlcUtf8 after
termination_by s => s.length
decreasing_by
  · simp
  · have := length_of_wlcUtf8Tail _read
    simp only [List.length_cons]
    omega

/-- A byte that may not start a sequence. -/
def Continuation (b : UInt8) : Prop := 0x80 ≤ b.toNat ∧ b.toNat < 0xC0

theorem continuation_mask (b : UInt8) : b &&& 0xC0 = 0x80 ↔ Continuation b := by
  have bits : ∀ b : Fin 256, b.val &&& 0xC0 = 0x80 ↔ 0x80 ≤ b.val ∧ b.val < 0xC0 := by
    decide +kernel
  rw [← UInt8.toNat_inj, UInt8.toNat_and]
  exact bits ⟨b.toNat, b.toNat_lt⟩

theorem continuation_bits (v : Nat) (b : UInt8) :
    v <<< 6 ||| (b &&& 0x3F).toNat = 64 * v + b.toNat % 64 := by
  have low : (b &&& 0x3F).toNat = b.toNat % 64 := by
    rw [UInt8.toNat_and]
    exact Nat.and_two_pow_sub_one_eq_mod b.toNat 6
  have small : b.toNat % 64 < 2 ^ 6 := Nat.mod_lt _ (by decide)
  rw [low, Nat.shiftLeft_eq, Nat.mul_comm, ← Nat.two_pow_add_eq_or_of_lt small]

/-- The value of a sequence: six bits from each byte that follows. -/
def tailValue (v : Nat) (tail : List UInt8) : Nat :=
  tail.foldl (fun v b => 64 * v + b.toNat % 64) v

theorem wlcUtf8Tail_eq_some {need v w : Nat} {rest after : List UInt8} :
    wlcUtf8Tail need v rest = some (w, after) ↔
      ∃ tail, rest = tail ++ after ∧ tail.length = need ∧ (∀ b ∈ tail, Continuation b) ∧
        w = tailValue v tail := by
  induction need generalizing v rest with
  | zero =>
    constructor
    · intro read
      obtain ⟨rfl, rfl⟩ : v = w ∧ rest = after := by simpa [wlcUtf8Tail] using read
      exact ⟨[], rfl, rfl, by simp, rfl⟩
    · rintro ⟨tail, rfl, none, -, rfl⟩
      obtain rfl := List.length_eq_zero_iff.mp none
      rfl
  | succ need ih =>
    cases rest with
    | nil =>
      simp only [wlcUtf8Tail, reduceCtorEq, false_iff, not_exists, not_and]
      rintro tail whole count
      obtain ⟨rfl, -⟩ := List.append_eq_nil_iff.mp whole.symm
      simp at count
    | cons b rest =>
      rw [wlcUtf8Tail, ite_not, continuation_bits]
      constructor
      · intro read
        obtain ⟨continued, read⟩ : b &&& 0xC0 = 0x80 ∧
            wlcUtf8Tail need (64 * v + b.toNat % 64) rest = some (w, after) := by
          simpa using read
        obtain ⟨tail, rfl, rfl, each, rfl⟩ := ih.mp read
        exact ⟨b :: tail, rfl, rfl,
          List.forall_mem_cons.mpr ⟨(continuation_mask b).mp continued, each⟩, rfl⟩
      · rintro ⟨tail, whole, count, each, rfl⟩
        obtain ⟨first, tail, rfl⟩ := List.exists_cons_of_length_eq_add_one count
        obtain ⟨rfl, rfl⟩ : b = first ∧ rest = tail ++ after := by simpa using whole
        rw [if_pos ((continuation_mask b).mpr (each b List.mem_cons_self))]
        exact ih.mpr ⟨tail, rfl, by simpa using count,
          fun b member => each b (List.mem_cons_of_mem _ member), rfl⟩

/-- A first byte, the bytes that follow it and the value they hold. -/
structure Sequence (a : UInt8) (tail : List UInt8) : Prop where
  lead : ∃ v, wlcUtf8Lead a = some (tail.length, v) ∧ wlcUtf8Refused a (tailValue v tail) = false
  each : ∀ b ∈ tail, Continuation b

theorem wlcUtf8_cons {a : UInt8} {rest : List UInt8} :
    wlcUtf8 (a :: rest) = true ↔
      (a.toNat < 0x80 ∧ wlcUtf8 rest = true) ∨
        (0x80 ≤ a.toNat ∧ ∃ tail after, rest = tail ++ after ∧ Sequence a tail ∧
          wlcUtf8 after = true) := by
  have ascii : a < 0x80 ↔ a.toNat < 0x80 := UInt8.lt_iff_toNat_lt
  rw [wlcUtf8]
  split
  · rename_i small
    have := ascii.mp small
    constructor
    · exact fun valid => Or.inl ⟨this, valid⟩
    · rintro (⟨-, valid⟩ | ⟨large, -⟩)
      · exact valid
      · omega
  · rename_i large
    have high : 0x80 ≤ a.toNat := Nat.not_lt.mp (mt ascii.mpr large)
    constructor
    · intro valid
      split at valid
      · contradiction
      · rename_i need v lead
        split at valid
        · contradiction
        · split at valid
          · contradiction
          · rename_i w after read
            obtain ⟨tail, rfl, rfl, each, rfl⟩ := wlcUtf8Tail_eq_some.mp read
            obtain ⟨accepted, valid⟩ :
                wlcUtf8Refused a (tailValue v tail) = false ∧ wlcUtf8 after = true := by
              simpa using valid
            exact Or.inr ⟨high, tail, after, rfl, ⟨⟨v, lead, accepted⟩, each⟩, valid⟩
    · rintro (⟨small, -⟩ | ⟨-, tail, after, rfl, ⟨⟨v, lead, accepted⟩, each⟩, valid⟩)
      · omega
      · have read : wlcUtf8Tail tail.length v (tail ++ after) = some (tailValue v tail, after) :=
          wlcUtf8Tail_eq_some.mpr ⟨tail, rfl, rfl, each, rfl⟩
        have enough : ¬(tail ++ after).length < tail.length := by simp
        simp only [lead, enough, if_false]
        split
        · rename_i unread
          rw [read] at unread
          contradiction
        · rename_i w rest read'
          rw [read] at read'
          obtain ⟨rfl, rfl⟩ : tailValue v tail = w ∧ after = rest := by simpa using read'
          simp [accepted, valid]

theorem wlcUtf8Lead_eq_some {a : UInt8} {need v : Nat} :
    wlcUtf8Lead a = some (need, v) ↔
      (need = 1 ∧ 0xC2 ≤ a.toNat ∧ a.toNat ≤ 0xDF ∧ v = a.toNat % 32) ∨
        (need = 2 ∧ 0xE0 ≤ a.toNat ∧ a.toNat ≤ 0xEF ∧ v = a.toNat % 16) ∨
          (need = 3 ∧ 0xF0 ≤ a.toNat ∧ a.toNat ≤ 0xF4 ∧ v = a.toNat % 8) := by
  have five : (a &&& 0x1F).toNat = a.toNat % 32 := by
    rw [UInt8.toNat_and]
    exact Nat.and_two_pow_sub_one_eq_mod a.toNat 5
  have four : (a &&& 0x0F).toNat = a.toNat % 16 := by
    rw [UInt8.toNat_and]
    exact Nat.and_two_pow_sub_one_eq_mod a.toNat 4
  have three : (a &&& 0x07).toNat = a.toNat % 8 := by
    rw [UInt8.toNat_and]
    exact Nat.and_two_pow_sub_one_eq_mod a.toNat 3
  simp only [wlcUtf8Lead, five, four, three, UInt8.le_iff_toNat_le, UInt8.reduceToNat]
  split
  · simp only [Option.some.injEq, Prod.mk.injEq]
    omega
  · split
    · simp only [Option.some.injEq, Prod.mk.injEq]
      omega
    · split
      · simp only [Option.some.injEq, Prod.mk.injEq]
        omega
      · simp only [reduceCtorEq, false_iff]
        omega

theorem wlcUtf8Refused_eq_false {a : UInt8} {v : Nat} :
    wlcUtf8Refused a v = false ↔
      (a.toNat = 0xE0 → 0x800 ≤ v) ∧ (a.toNat = 0xED → v < 0xD800) ∧
        (a.toNat = 0xF0 → 0x10000 ≤ v) ∧ (a.toNat = 0xF4 → v ≤ 0x10FFFF) := by
  simp only [wlcUtf8Refused, Bool.or_eq_false_iff, Bool.and_eq_false_imp, beq_iff_eq,
    decide_eq_false_iff_not, ← UInt8.toNat_inj, UInt8.reduceToNat, Nat.not_le, Nat.not_lt]
  tauto

theorem ofNat_eq_byte {n : Nat} {b : UInt8} : UInt8.ofNat n = b ↔ n % 256 = b.toNat := by
  rw [← UInt8.toNat_inj, UInt8.toNat_ofNat']

theorem exists_char {w : Nat} (valid : w.isValidChar) : ∃ c : Char, c.val.toNat = w :=
  ⟨Char.ofNatAux w valid, rfl⟩

/-- What a sequence holds is a scalar value, and the sequence is its encoding. -/
theorem char_of_sequence {a : UInt8} {tail : List UInt8} (sequence : Sequence a tail) :
    ∃ c : Char, String.utf8EncodeChar c = a :: tail := by
  obtain ⟨⟨v, lead, accepted⟩, each⟩ := sequence
  rw [wlcUtf8Refused_eq_false] at accepted
  obtain ⟨surplus, surrogate, surplus', beyond⟩ := accepted
  rcases wlcUtf8Lead_eq_some.mp lead with
    ⟨count, low, high, rfl⟩ | ⟨count, low, high, rfl⟩ | ⟨count, low, high, rfl⟩
  · obtain ⟨b, rfl⟩ := List.length_eq_one_iff.mp count
    obtain ⟨least, most⟩ := each b (by simp)
    simp only [tailValue, List.foldl_cons, List.foldl_nil] at surplus surrogate surplus' beyond
    obtain ⟨c, value⟩ := exists_char (w := 64 * (a.toNat % 32) + b.toNat % 64)
      (by unfold Nat.isValidChar; omega)
    refine ⟨c, ?_⟩
    simp only [String.utf8EncodeChar, value]
    rw [if_neg (by omega), if_pos (by omega)]
    simp only [List.cons.injEq, ofNat_eq_byte, and_true]
    omega
  · obtain ⟨b, b', rfl⟩ := List.length_eq_two.mp count
    obtain ⟨least, most⟩ := each b (by simp)
    obtain ⟨least', most'⟩ := each b' (by simp)
    simp only [tailValue, List.foldl_cons, List.foldl_nil] at surplus surrogate surplus' beyond
    obtain ⟨c, value⟩ :=
      exists_char (w := 64 * (64 * (a.toNat % 16) + b.toNat % 64) + b'.toNat % 64)
        (by unfold Nat.isValidChar; omega)
    refine ⟨c, ?_⟩
    simp only [String.utf8EncodeChar, value]
    rw [if_neg (by omega), if_neg (by omega), if_pos (by omega)]
    simp only [List.cons.injEq, ofNat_eq_byte, and_true]
    omega
  · obtain ⟨b, b', b'', rfl⟩ := List.length_eq_three.mp count
    obtain ⟨least, most⟩ := each b (by simp)
    obtain ⟨least', most'⟩ := each b' (by simp)
    obtain ⟨least'', most''⟩ := each b'' (by simp)
    simp only [tailValue, List.foldl_cons, List.foldl_nil] at surplus surrogate surplus' beyond
    obtain ⟨c, value⟩ :=
      exists_char
        (w := 64 * (64 * (64 * (a.toNat % 8) + b.toNat % 64) + b'.toNat % 64) + b''.toNat % 64)
        (by unfold Nat.isValidChar; omega)
    refine ⟨c, ?_⟩
    simp only [String.utf8EncodeChar, value]
    rw [if_neg (by omega), if_neg (by omega), if_neg (by omega)]
    simp only [List.cons.injEq, ofNat_eq_byte, and_true]
    omega

/-- The encoding of a character is one byte below 0x80 or a sequence. -/
theorem utf8EncodeChar_cases (c : Char) :
    (∃ a : UInt8, a.toNat < 0x80 ∧ String.utf8EncodeChar c = [a]) ∨
      ∃ a tail, 0x80 ≤ a.toNat ∧ Sequence a tail ∧ String.utf8EncodeChar c = a :: tail := by
  have valid : c.val.toNat.isValidChar := c.valid
  unfold Nat.isValidChar at valid
  generalize scalar : c.val.toNat = v at valid
  have byte (n : Nat) : (UInt8.ofNat n).toNat = n % 256 := UInt8.toNat_ofNat'
  simp only [String.utf8EncodeChar, scalar]
  split
  · exact Or.inl ⟨_, by rw [byte]; omega, rfl⟩
  · right
    split
    · refine ⟨_, _, by rw [byte]; omega, ⟨⟨_, wlcUtf8Lead_eq_some.mpr (Or.inl ⟨rfl, ?_, ?_, rfl⟩),
        wlcUtf8Refused_eq_false.mpr ?_⟩, ?_⟩, rfl⟩
      · rw [byte]; omega
      · rw [byte]; omega
      · simp only [tailValue, List.foldl_cons, List.foldl_nil, byte]
        omega
      · simp only [List.mem_cons, List.not_mem_nil, or_false, forall_eq, Continuation, byte]
        omega
    · split
      · refine ⟨_, _, by rw [byte]; omega, ⟨⟨_,
          wlcUtf8Lead_eq_some.mpr (Or.inr (Or.inl ⟨rfl, ?_, ?_, rfl⟩)),
          wlcUtf8Refused_eq_false.mpr ?_⟩, ?_⟩, rfl⟩
        · rw [byte]; omega
        · rw [byte]; omega
        · simp only [tailValue, List.foldl_cons, List.foldl_nil, byte]
          omega
        · simp only [List.mem_cons, List.not_mem_nil, or_false, forall_eq_or_imp, forall_eq,
            Continuation, byte]
          omega
      · refine ⟨_, _, by rw [byte]; omega, ⟨⟨_,
          wlcUtf8Lead_eq_some.mpr (Or.inr (Or.inr ⟨rfl, ?_, ?_, rfl⟩)),
          wlcUtf8Refused_eq_false.mpr ?_⟩, ?_⟩, rfl⟩
        · rw [byte]; omega
        · rw [byte]; omega
        · simp only [tailValue, List.foldl_cons, List.foldl_nil, byte]
          omega
        · simp only [List.mem_cons, List.not_mem_nil, or_false, forall_eq_or_imp, forall_eq,
            Continuation, byte]
          omega

/-- `wlc_utf8` accepts exactly the encodings of texts: no overlong sequence, no surrogate, nothing
above the last scalar value and no sequence cut short. -/
theorem wlcUtf8_eq_true {input : List UInt8} :
    wlcUtf8 input = true ↔ ∃ text : List Char, input = text.flatMap String.utf8EncodeChar := by
  constructor
  · intro valid
    induction size : input.length using Nat.strongRecOn generalizing input with
    | ind size ih =>
      subst size
      cases input with
      | nil => exact ⟨[], rfl⟩
      | cons a rest =>
        rcases wlcUtf8_cons.mp valid with ⟨small, valid⟩ | ⟨-, tail, after, rfl, sequence, valid⟩
        · obtain ⟨text, rfl⟩ := ih rest.length (by simp) valid rfl
          obtain ⟨c, value⟩ := exists_char (w := a.toNat) (Or.inl (by omega))
          refine ⟨c :: text, ?_⟩
          have encoded : String.utf8EncodeChar c = [a] := by
            simp only [String.utf8EncodeChar, value]
            rw [if_pos (by omega), UInt8.ofNat_toNat]
          rw [List.flatMap_cons, encoded, List.singleton_append]
        · obtain ⟨text, rfl⟩ := ih after.length
            (by simp only [List.length_cons, List.length_append]; omega) valid rfl
          obtain ⟨c, encoded⟩ := char_of_sequence sequence
          refine ⟨c :: text, ?_⟩
          rw [List.flatMap_cons, encoded, List.cons_append]
  · rintro ⟨text, rfl⟩
    induction text with
    | nil => simp [wlcUtf8]
    | cons c text ih =>
      rw [List.flatMap_cons]
      rcases utf8EncodeChar_cases c with ⟨a, small, encoded⟩ | ⟨a, tail, large, sequence, encoded⟩
      · rw [encoded]
        exact wlcUtf8_cons.mpr (Or.inl ⟨small, ih⟩)
      · rw [encoded]
        exact wlcUtf8_cons.mpr (Or.inr ⟨large, tail, _, rfl, sequence, ih⟩)

end Florid.Codec
