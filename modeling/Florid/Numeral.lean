import Mathlib.Data.Nat.Digits.Lemmas

/-! Numbers in a base, most significant digit first, over an alphabet that says which
symbol is which digit. -/
namespace Florid.Numeral
variable {C : Type} {base : Nat}

def digits (base n : Nat) : List Nat := if n = 0 then [0] else (Nat.digits base n).reverse

def value (base : Nat) (ds : List Nat) : Nat := ds.foldl (fun n d => n * base + d) 0

/-- The longest prefix of a text that is made of digits, and what follows it. -/
def scan (digit : C → Option Nat) : List C → List Nat × List C
  | [] => ([], [])
  | c :: rest =>
    match digit c with
    | none => ([], c :: rest)
    | some d => ((d :: (scan digit rest).1), (scan digit rest).2)

theorem value_append_singleton (ds : List Nat) (d : Nat) :
    value base (ds ++ [d]) = value base ds * base + d := by
  simp [value]

theorem value_reverse (ds : List Nat) : value base ds.reverse = Nat.ofDigits base ds := by
  induction ds with
  | nil => rfl
  | cons d ds ih =>
    rw [List.reverse_cons, value_append_singleton, ih, Nat.ofDigits_cons, Nat.mul_comm,
      Nat.add_comm]

theorem value_digits (n : Nat) : value base (digits base n) = n := by
  unfold digits
  split
  · rename_i zero
    rw [zero]
    simp [value]
  · rw [value_reverse, Nat.ofDigits_digits]

/-- Leading zeros change nothing. -/
theorem value_zeros (k : Nat) (ds : List Nat) :
    value base (List.replicate k 0 ++ ds) = value base ds := by
  induction k with
  | zero => rfl
  | succ k ih =>
    rw [List.replicate_succ, List.cons_append]
    simpa [value] using ih

theorem digits_ne_nil (base n : Nat) : digits base n ≠ [] := by
  unfold digits
  split
  · simp
  · rename_i nonzero
    simpa [Nat.digits_eq_nil_iff_eq_zero] using nonzero

theorem digits_lt (wide : 1 < base) {n d : Nat} (member : d ∈ digits base n) : d < base := by
  unfold digits at member
  split at member
  · rw [List.mem_singleton] at member
    omega
  · exact Nat.digits_lt_base wide (List.mem_reverse.mp member)

/-- Digits that are written so that they read back are scanned up to the next symbol. -/
theorem scan_map {digit : C → Option Nat} {symbol : Nat → C} {ds : List Nat} {rest : List C}
    (reads : ∀ d ∈ ds, digit (symbol d) = some d) (stops : ∀ c, rest.head? = some c → digit c = none) :
    scan digit (ds.map symbol ++ rest) = (ds, rest) := by
  induction ds with
  | nil =>
    cases rest with
    | nil => rfl
    | cons c rest => simp [scan, stops c rfl]
  | cons d ds ih =>
    have tail := ih fun e member => reads e (List.mem_cons_of_mem d member)
    simp only [List.map_cons, List.cons_append, scan, reads d List.mem_cons_self, tail]

end Florid.Numeral
