import Mathlib.Order.Basic

/-! A mailbox for one publisher and one reader that keeps the newest unread value. Where every
publication has a greater key than those before, a reader never goes back: what it holds, what
waits for it and what has been published at all are in order. -/
namespace Florid
variable {α κ : Type} [Preorder κ] {key : α → κ} {held bound : κ} {v : α}

/-- The newest publication that has not been read. -/
structure Latest (α : Type) where
  unread : Option α := none

namespace Latest
variable {box : Latest α}

def publish (_ : Latest α) (v : α) : Latest α := ⟨some v⟩

/-- What a reader has after a read: an unread publication, or its own value. -/
def read (box : Latest α) (own : α) : α := box.unread.getD own

def drained : Latest α := {}

/-- A reader holding a value of key `held` is behind what is unread, and nothing is published
beyond `bound`. -/
def Ordered (key : α → κ) (held bound : κ) (box : Latest α) : Prop :=
  held ≤ bound ∧ ∀ v, box.unread = some v → held < key v ∧ key v ≤ bound

namespace Ordered

theorem start (below : held ≤ bound) : Ordered key held bound (drained : Latest α) := by
  refine ⟨below, ?_⟩
  intro v unread
  cases unread

theorem mono {further : κ} (ordered : Ordered key held bound box) (above : bound ≤ further) :
    Ordered key held further box := by
  obtain ⟨below, unread⟩ := ordered
  refine ⟨below.trans above, ?_⟩
  intro v waits
  exact ⟨(unread v waits).1, (unread v waits).2.trans above⟩

theorem publish (ordered : Ordered key held bound box) (newer : bound < key v) :
    Ordered key held (key v) (box.publish v) := by
  refine ⟨ordered.1.trans newer.le, ?_⟩
  rintro u ⟨⟩
  exact ⟨ordered.1.trans_lt newer, le_rfl⟩

/-- A read does not go back. -/
theorem le_read {own : α} (ordered : Ordered key (key own) bound box) :
    key own ≤ key (box.read own) := by
  unfold read
  cases waits : box.unread with
  | none => exact le_rfl
  | some v => exact (ordered.2 v waits).1.le

theorem read {own : α} (ordered : Ordered key (key own) bound box) :
    Ordered key (key (box.read own)) bound drained := by
  refine start ?_
  unfold Latest.read
  cases waits : box.unread with
  | none => exact ordered.1
  | some v => exact (ordered.2 v waits).2

end Ordered
end Latest
end Florid
