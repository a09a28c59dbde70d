import Mathlib.Data.List.Basic
import Mathlib.Data.List.Perm.Basic
import Mathlib.Order.Nat

/-! A window over the last values of a sequence, kept in a ring: cells are filled one after the
other, then overwritten from the first again. In which order the cells hold the values depends
on how often the ring has come round; which values they hold does not. -/
namespace Florid
variable {α : Type} {size : Nat}

structure Window (α : Type) (size : Nat) where
  cells : Vector α size
  idx : Fin size
  count : Nat := 0

namespace Window

def push (w : Window α size) (v : α) : Window α size where
  cells := w.cells.set w.idx v
  idx := ⟨(w.idx + 1) % size, Nat.mod_lt _ (Nat.zero_lt_of_lt w.idx.isLt)⟩
  count := if w.count < size then w.count + 1 else w.count

/-- The cells that have been filled. -/
def entries (w : Window α size) : List α := w.cells.toList.take w.count

/-- The cells, apart at the next one to be written. -/
theorem cells_split (w : Window α size) : ∃ before old after,
    w.cells.toList = before ++ old :: after ∧ before.length = (w.idx : Nat) := by
  have bound : (w.idx : Nat) < w.cells.toList.length := by simp
  refine ⟨w.cells.toList.take w.idx, w.cells.toList[(w.idx : Nat)],
    w.cells.toList.drop (w.idx + 1), ?_, by simp⟩
  rw [← List.drop_eq_getElem_cons bound, List.take_append_drop]

/-- The window after these values: before the ring comes round they stand in their order, from
then on the last of them do, from the next cell to be written on. -/
structure Shows (w : Window α size) (values : List α) : Prop where
  count : w.count = min values.length size
  idx : (w.idx : Nat) = values.length % size
  filling : values.length ≤ size → w.cells.toList.take values.length = values
  turning : size ≤ values.length →
    w.cells.toList.drop w.idx ++ w.cells.toList.take w.idx = values.drop (values.length - size)

namespace Shows
variable {w : Window α size} {values : List α} {v : α}

theorem init {w : Window α size} (first : (w.idx : Nat) = 0) (blank : w.count = 0) :
    w.Shows [] where
  count := by simp [blank]
  idx := by simp [first]
  filling := by simp
  turning := by
    intro full
    have none : size = 0 := by simpa using full
    exact absurd w.idx.isLt (by omega)

theorem push_filling (shown : w.Shows values) (room : values.length < size) :
    (w.push v).cells.toList.take (values.length + 1) = values ++ [v] := by
  have here : (w.idx : Nat) = values.length := by rw [shown.idx, Nat.mod_eq_of_lt room]
  have bound : values.length < w.cells.toList.length := by simpa using room
  simp only [push, Vector.toList_set, here, List.take_set]
  rw [List.take_succ_eq_append_getElem bound, shown.filling room.le]
  simp

theorem push_turning (shown : w.Shows values) (full : size ≤ values.length) :
    (w.push v).cells.toList.drop (w.push v).idx ++ (w.push v).cells.toList.take (w.push v).idx =
      (values ++ [v]).drop ((values ++ [v]).length - size) := by
  obtain ⟨before, old, after, cells, apart⟩ := cells_split w
  have length : before.length + 1 + after.length = size := by
    have := congrArg List.length cells
    simp only [Vector.length_toList, List.length_append, List.length_cons] at this
    omega
  have written : (w.push v).cells.toList = before ++ v :: after := by
    simp [push, Vector.toList_set, cells, ← apart]
  have kept : old :: (after ++ before) = values.drop (values.length - size) := by
    simpa [cells, ← apart] using shown.turning full
  have moved : (values ++ [v]).drop ((values ++ [v]).length - size) = after ++ before ++ [v] := by
    have shift : (values ++ [v]).length - size = values.length - size + 1 := by
      simp only [List.length_append, List.length_singleton]
      omega
    rw [shift, List.drop_append_of_le_length (by have := w.idx.isLt; omega), ← List.tail_drop,
      ← kept, List.tail_cons]
  rw [moved, written]
  by_cases last : before.length + 1 = size
  · -- the last cell was written: the ring comes round
    have round : ((w.push v).idx : Nat) = 0 := by simp [push, ← apart, last]
    have none : after = [] := List.eq_nil_of_length_eq_zero (by omega)
    simp [round, none]
  · have next : ((w.push v).idx : Nat) = before.length + 1 := by
      simp only [push, ← apart]
      exact Nat.mod_eq_of_lt (by omega)
    have split : before ++ v :: after = (before ++ [v]) ++ after := by simp
    have reach : before.length + 1 = (before ++ [v]).length := by simp
    rw [next, split, reach, List.drop_left, List.take_left, List.append_assoc]

theorem push_shows (shown : w.Shows values) : (w.push v).Shows (values ++ [v]) where
  count := by
    simp only [push, shown.count, List.length_append, List.length_singleton]
    split <;> omega
  idx := by simp [push, shown.idx]
  filling room := by
    have fits : values.length < size := by
      simp only [List.length_append, List.length_singleton] at room
      omega
    simpa using shown.push_filling fits
  turning full := by
    rcases Nat.lt_or_ge values.length size with room | full'
    · -- this value fills the ring
      have whole : values.length + 1 = size := by
        simp only [List.length_append, List.length_singleton] at full
        omega
      have first : ((w.push v).idx : Nat) = 0 := by
        simp [push, shown.idx, Nat.mod_eq_of_lt room, whole]
      have filled := shown.push_filling (v := v) room
      rw [List.take_of_length_le (by simp [whole])] at filled
      simp [first, filled, whole]
    · exact shown.push_turning full'

/-- The filled cells hold the last values, as many as there are up to the size of the ring. -/
theorem entries_perm (shown : w.Shows values) :
    w.entries.Perm (values.drop (values.length - min values.length size)) := by
  rw [entries, shown.count]
  rcases Nat.le_total values.length size with room | full
  · rw [Nat.min_eq_left room, shown.filling room]
    simp
  · rw [Nat.min_eq_right full, List.take_of_length_le (by simp), ← shown.turning full]
    nth_rewrite 1 [← List.take_append_drop w.idx w.cells.toList]
    exact List.perm_append_comm

end Shows
end Window
end Florid
