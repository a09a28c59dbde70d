import Mathlib.Data.Int.Basic
import Mathlib.Tactic.Linarith
import Mathlib.Tactic.Ring

/-! Periodic work without catching up. The deadlines lie on a grid from the start time on; after
an iteration the next one is the first grid point that is still ahead, and the grid points passed
by are counted as missed. -/
namespace Florid

/-- A schedule: its start, the deadline of the iteration to come, the grid points passed by and
the iterations completed. -/
structure Pace where
  start : ℤ
  next : ℤ
  missed : ℤ := 0
  iterations : ℕ := 0
deriving DecidableEq, Repr

namespace Pace
variable {period done : ℤ} {p : Pace}

def startingAt (now : ℤ) : Pace := { start := now, next := now }

/-- The deadline after an iteration that ends at `done`. -/
def complete (period : ℤ) (p : Pace) (done : ℤ) : Pace :=
  let next := p.next + period
  let p := { p with iterations := p.iterations + 1 }
  if next ≤ done then
    let missed := (done - next) / period + 1
    { p with missed := p.missed + missed, next := next + missed * period }
  else { p with next }

/-- The deadline is the grid point after those worked on and those passed by. -/
structure OnGrid (period : ℤ) (p : Pace) : Prop where
  deadline : p.next = p.start + (p.iterations + p.missed) * period
  missed : 0 ≤ p.missed

/-- An iteration that ended at `done` has led from one pace to the next: the new deadline is
ahead, by one period at most, and the grid points passed by are those up to `done`. -/
structure Advanced (period done : ℤ) (before after : Pace) : Prop where
  ahead : done < after.next
  soon : after.next ≤ done + period
  iterations : after.iterations = before.iterations + 1
  skipped : ∀ k : ℤ, 1 ≤ k →
    (before.next + k * period ≤ done ↔ k ≤ after.missed - before.missed)
  counted : before.missed ≤ after.missed

theorem startingAt_onGrid (now : ℤ) : (startingAt now).OnGrid period := by
  constructor <;> simp [startingAt]

theorem complete_onGrid (held : p.OnGrid period) (positive : 0 < period) :
    (p.complete period done).OnGrid period := by
  obtain ⟨deadline, missed⟩ := held
  simp only [complete]
  split
  · rename_i late
    have skipped : 0 ≤ (done - (p.next + period)) / period :=
      Int.ediv_nonneg (by omega) positive.le
    refine ⟨?_, by dsimp only; omega⟩
    dsimp only
    rw [deadline]
    push_cast
    ring
  · refine ⟨?_, missed⟩
    dsimp only
    rw [deadline]
    push_cast
    ring

theorem complete_advanced (positive : 0 < period) (begun : p.next ≤ done) :
    Advanced period done p (p.complete period done) := by
  simp only [complete]
  split
  · rename_i late
    -- as many periods as fit between the deadline missed and `done`
    have below : period * ((done - (p.next + period)) / period) ≤ done - (p.next + period) :=
      Int.mul_ediv_self_le positive.ne'
    have above : done - (p.next + period) <
        period * ((done - (p.next + period)) / period) + period :=
      Int.lt_mul_ediv_self_add positive
    generalize (done - (p.next + period)) / period = fits at below above
    have counted : 0 ≤ fits := by
      by_contra negative
      have : period * (fits + 1) ≤ 0 := mul_nonpos_of_nonneg_of_nonpos positive.le (by omega)
      linarith
    refine ⟨?_, ?_, rfl, fun k first => ?_, ?_⟩
    · dsimp only
      linarith
    · dsimp only
      linarith
    · dsimp only
      constructor
      · intro passed
        by_contra beyond
        have : period * (fits + 2) ≤ period * k := mul_le_mul_of_nonneg_left (by omega) positive.le
        linarith
      · intro within
        have : period * k ≤ period * (fits + 1) := mul_le_mul_of_nonneg_left (by omega) positive.le
        linarith
    · dsimp only
      omega
  · rename_i early
    refine ⟨not_le.mp early, by dsimp only; omega, rfl, fun k first => ?_, le_rfl⟩
    have : period * 1 ≤ period * k := mul_le_mul_of_nonneg_left first positive.le
    constructor
    · intro passed
      linarith
    · intro within
      simp only [sub_self] at within
      omega

end Pace
end Florid
