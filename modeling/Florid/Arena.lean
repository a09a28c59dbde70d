import Mathlib

/-! Blocks laid out one behind the other, each at a multiple of its alignment. -/
namespace Florid.Arena

/-- The least multiple of an alignment that is not before an offset. -/
def alignUp (alignment offset : Nat) : Nat := (offset + (alignment - 1)) / alignment * alignment

section AlignUp
variable {alignment offset : Nat}

theorem dvd_alignUp : alignment ∣ alignUp alignment offset := Nat.dvd_mul_left _ _

theorem le_alignUp (positive : 0 < alignment) : offset ≤ alignUp alignment offset := by
  have rest := Nat.mod_lt (offset + (alignment - 1)) positive
  have split := Nat.div_add_mod' (offset + (alignment - 1)) alignment
  simp only [alignUp]
  omega

theorem alignUp_le : alignUp alignment offset ≤ offset + (alignment - 1) :=
  Nat.div_mul_le_self _ _

end AlignUp

structure Block where
  alignment : Nat
  size : Nat

structure Region where
  offset : Nat
  size : Nat
  deriving DecidableEq

/-- Where blocks come to lie from an offset on. -/
def place : List Block → Nat → List Region
  | [], _ => []
  | b :: blocks, offset =>
    ⟨alignUp b.alignment offset, b.size⟩ :: place blocks (alignUp b.alignment offset + b.size)

/-- Where the last of them ends. -/
def extent : List Block → Nat → Nat
  | [], offset => offset
  | b :: blocks, offset => extent blocks (alignUp b.alignment offset + b.size)

section Place
variable {blocks : List Block}

theorem le_extent (positive : ∀ b ∈ blocks, 0 < b.alignment) (offset : Nat) :
    offset ≤ extent blocks offset := by
  induction blocks generalizing offset with
  | nil => exact Nat.le_refl _
  | cons b blocks ih =>
    obtain ⟨first, rest⟩ := List.forall_mem_cons.mp positive
    have start := @le_alignUp _ offset first
    have stop := ih rest (alignUp b.alignment offset + b.size)
    simp only [extent]
    omega

/-- All regions lie between the offset and the extent. -/
theorem place_inside (positive : ∀ b ∈ blocks, 0 < b.alignment) (offset : Nat) {r : Region}
    (member : r ∈ place blocks offset) : offset ≤ r.offset ∧ r.offset + r.size ≤ extent blocks offset := by
  induction blocks generalizing offset with
  | nil => cases member
  | cons b blocks ih =>
    obtain ⟨first, rest⟩ := List.forall_mem_cons.mp positive
    have start := @le_alignUp _ offset first
    rcases List.mem_cons.mp member with rfl | later
    · exact ⟨start, le_extent rest _⟩
    · obtain ⟨after, inside⟩ := ih rest _ later
      exact ⟨by omega, inside⟩

/-- No region starts before all earlier ones have ended. -/
theorem place_disjoint (positive : ∀ b ∈ blocks, 0 < b.alignment) (offset : Nat) :
    (place blocks offset).Pairwise fun r r' => r.offset + r.size ≤ r'.offset := by
  induction blocks generalizing offset with
  | nil => exact List.Pairwise.nil
  | cons b blocks ih =>
    obtain ⟨-, rest⟩ := List.forall_mem_cons.mp positive
    apply List.Pairwise.cons
    · intro r later
      exact (place_inside rest _ later).1
    · exact ih rest _

/-- Each region is that of its block. -/
theorem place_fits (blocks : List Block) (offset : Nat) :
    List.Forall₂ (fun b r => b.alignment ∣ r.offset ∧ r.size = b.size) blocks
      (place blocks offset) := by
  induction blocks generalizing offset with
  | nil => exact List.Forall₂.nil
  | cons b blocks ih => exact List.Forall₂.cons ⟨dvd_alignUp, rfl⟩ (ih _)

/-- The extent is at most the sizes and the most padding that each alignment asks for. -/
theorem extent_le (blocks : List Block) (offset : Nat) :
    extent blocks offset ≤ offset + (blocks.map fun b => b.alignment - 1 + b.size).sum := by
  induction blocks generalizing offset with
  | nil => exact Nat.le_refl _
  | cons b blocks ih =>
    have start := @alignUp_le b.alignment offset
    have stop := ih (alignUp b.alignment offset + b.size)
    simp only [extent, List.map_cons, List.sum_cons]
    omega

end Place

end Florid.Arena
