import Mathlib.Data.Rat.Floor
import Mathlib.Algebra.Order.Ring.Rat

/-! Values of a floating-point type: rational numbers, two infinities and NaN. Comparisons with
NaN are false, and the standard library's `min`, `max` and `clamp` are what they are by their
comparisons, so that the order of their arguments matters. The two zeros are one. -/
namespace Florid

inductive FloatValue where
  | nan
  | negInf
  | finite (x : ℚ)
  | posInf
deriving DecidableEq, Repr

namespace FloatValue

def isFinite : FloatValue → Bool
  | finite _ => true
  | _ => false

/-- `x < y` -/
def less : FloatValue → FloatValue → Bool
  | nan, _ | _, nan => false
  | finite x, finite y => decide (x < y)
  | negInf, negInf | posInf, _ | _, negInf => false
  | negInf, _ | _, posInf => true

def abs : FloatValue → FloatValue
  | nan => nan
  | finite x => finite |x|
  | negInf | posInf => posInf

/-- `std::max` -/
def max (a b : FloatValue) : FloatValue := if a.less b then b else a

/-- `std::min` -/
def min (a b : FloatValue) : FloatValue := if b.less a then b else a

/-- `std::clamp` -/
def clamp (v low high : FloatValue) : FloatValue :=
  if v.less low then low else if high.less v then high else v

/-- `x <= y` -/
def AtMost (x y : FloatValue) : Prop := x ≠ nan ∧ y ≠ nan ∧ y.less x = false

theorem isFinite_iff {v : FloatValue} : v.isFinite = true ↔ ∃ x, v = finite x := by
  cases v <;> simp [isFinite]

/-- A finite value ends up between the bounds. -/
theorem clamp_finite {x low high : ℚ} (ordered : low ≤ high) :
    ∃ r, clamp (finite x) (finite low) (finite high) = finite r ∧ low ≤ r ∧ r ≤ high := by
  simp only [clamp, less, decide_eq_true_eq]
  split
  · exact ⟨low, rfl, le_rfl, ordered⟩
  · rename_i above
    split
    · exact ⟨high, rfl, ordered, le_rfl⟩
    · rename_i below
      exact ⟨x, rfl, not_lt.mp above, not_lt.mp below⟩

/-- A positive bound over a positive floor leaves a positive value within the bound, even of an
infinity or a NaN. -/
theorem min_max_pos {limit floor : ℚ} (bound : 0 < limit) (positive : 0 < floor)
    (v : FloatValue) :
    ∃ r, min (finite limit) (max v (finite floor)) = finite r ∧ 0 < r ∧ r ≤ limit := by
  cases v with
  | nan => exact ⟨limit, rfl, bound, le_rfl⟩
  | posInf => exact ⟨limit, rfl, bound, le_rfl⟩
  | negInf =>
    simp only [max, less, if_true, min, decide_eq_true_eq]
    split
    · exact ⟨floor, rfl, positive, le_of_lt ‹_›⟩
    · exact ⟨limit, rfl, bound, le_rfl⟩
  | finite x =>
    have top : ∃ y, max (finite x) (finite floor) = finite y ∧ 0 < y := by
      simp only [max, less, decide_eq_true_eq]
      split
      · exact ⟨floor, rfl, positive⟩
      · rename_i above
        exact ⟨x, rfl, positive.trans_le (not_lt.mp above)⟩
    obtain ⟨y, top, above⟩ := top
    rw [top]
    simp only [min, less, decide_eq_true_eq]
    split
    · exact ⟨y, rfl, above, le_of_lt ‹_›⟩
    · exact ⟨limit, rfl, bound, le_rfl⟩

end FloatValue
end Florid
