import Mathlib.Order.Lattice
import Mathlib.Order.Nat
import Mathlib.Tactic.Common

/-! The halving search of a strictly increasing sequence. -/
namespace Florid.Bisect
variable {α : Type} [LinearOrder α]

/-- The index in `[lo, hi)` at which the sequence has a value. -/
def search (key : Nat → α) (x : α) (lo hi : Nat) : Option Nat :=
  if lo < hi then
    let mid := lo + (hi - lo) / 2
    if key mid = x then some mid
    else if key mid < x then search key x (mid + 1) hi
    else search key x lo mid
  else none
termination_by hi - lo

theorem search_eq_some {key : Nat → α} {x : α} {lo hi i : Nat}
    (increasing : ∀ a b, lo ≤ a → a < b → b < hi → key a < key b) :
    search key x lo hi = some i ↔ lo ≤ i ∧ i < hi ∧ key i = x := by
  fun_induction search key x lo hi with
  | case1 lo hi inside mid found =>
    rw [Option.some.injEq]
    constructor
    · rintro rfl
      exact ⟨by omega, by omega, found⟩
    · rintro ⟨low, high, same⟩
      rcases lt_trichotomy mid i with before | equal | after
      · exact absurd (found.trans same.symm) (increasing mid i (by omega) before high).ne
      · exact equal
      · exact absurd (same.trans found.symm) (increasing i mid low after (by omega)).ne
  | case2 lo hi inside mid other below ih =>
    rw [ih fun a b low => increasing a b (by omega)]
    constructor
    · rintro ⟨low, high, same⟩
      exact ⟨by omega, high, same⟩
    · rintro ⟨low, high, same⟩
      refine ⟨?_, high, same⟩
      by_contra early
      rcases Nat.lt_or_ge i mid with before | reached
      · exact absurd (increasing i mid low before (by omega)) (by rw [same]; exact not_lt_of_gt below)
      · obtain rfl : i = mid := by omega
        exact other same
  | case3 lo hi inside mid other notBelow ih =>
    have above : x < key mid := lt_of_le_of_ne (not_lt.mp notBelow) (Ne.symm other)
    rw [ih fun a b low before high => increasing a b low before (by omega)]
    constructor
    · rintro ⟨low, high, same⟩
      exact ⟨low, by omega, same⟩
    · rintro ⟨low, high, same⟩
      refine ⟨low, ?_, same⟩
      by_contra late
      rcases Nat.lt_or_ge mid i with after | reached
      · exact absurd (increasing mid i (by omega) after high) (by rw [same]; exact not_lt_of_gt above)
      · obtain rfl : i = mid := by omega
        exact other same
  | case4 lo hi outside =>
    constructor
    · intro found
      contradiction
    · rintro ⟨low, high, -⟩
      omega

end Florid.Bisect
