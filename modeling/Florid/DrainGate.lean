import Mathlib.Data.Finset.Card
import Mathlib.Data.Finset.Range
import Mathlib.Logic.Function.Basic

/-! A gate with generations. A user holds the generation it was admitted under, is
counted before it acts, and looks at the generation again once counted. Whoever closes a
generation advances it and waits until nobody is counted. Both words come round: the
generation after `span` values, the count after `width`. -/
namespace Florid.DrainGate
variable {T : Type} [DecidableEq T]

/-- Where a user of the gate stands. Whoever is counted has yet to leave. -/
inductive Position where
  | outside
  | checked (generation : Nat)
  | counted (generation : Nat)
  | inside (generation : Nat)
  | leaving
  deriving DecidableEq

def Position.counts : Position → Bool
  | .counted _ | .inside _ | .leaving => true
  | _ => false

structure Gate (T : Type) where
  generation : Nat
  inflight : Nat
  position : T → Position

def Gate.move (gate : Gate T) (t : T) (position : Position) : Gate T :=
  { gate with position := Function.update gate.position t position }

/-- What may happen at the gate, one atomic access at a time. -/
inductive Step (span width : Nat) (gate : Gate T) : Gate T → Prop where
  | stay : Step span width gate gate
  | check {t} : gate.position t = .outside →
      Step span width gate (gate.move t (.checked gate.generation))
  | count {t g} : gate.position t = .checked g →
      Step span width gate
        { gate.move t (.counted g) with inflight := (gate.inflight + 1) % width }
  | accept {t} : gate.position t = .counted gate.generation →
      Step span width gate (gate.move t (.inside gate.generation))
  | refuse {t g} : gate.position t = .counted g → g ≠ gate.generation →
      Step span width gate (gate.move t .leaving)
  | finish {t g} : gate.position t = .inside g → Step span width gate (gate.move t .leaving)
  | leave {t} : gate.position t = .leaving →
      Step span width gate
        { gate.move t .outside with inflight := (gate.inflight + width - 1) % width }
  | advance : Step span width gate { gate with generation := (gate.generation + 1) % span }

namespace Gate
variable {gate next : Gate T} {span width : Nat}

/-- The count is that of the users it stands for. -/
def Tally (width : Nat) (gate : Gate T) : Prop :=
  ∃ users : Finset T, (∀ t, t ∈ users ↔ (gate.position t).counts = true) ∧
    gate.inflight = users.card % width

/-- Fewer users are counted than the word can tell apart. -/
def Uncrowded (width : Nat) (gate : Gate T) : Prop :=
  ∀ users : Finset T, (∀ t ∈ users, (gate.position t).counts = true) → users.card < width

/-- With fewer users than the word can tell apart the gate is never crowded. -/
theorem Uncrowded.of_bound {gate : Gate Nat} {n : Nat} (few : n < width)
    (outside : ∀ t, n ≤ t → (gate.position t).counts = false) : gate.Uncrowded width := by
  intro users counted
  have inside : users ⊆ Finset.range n := by
    intro t user
    rw [Finset.mem_range]
    by_contra above
    have uncounted := outside t (Nat.le_of_not_lt above)
    rw [counted t user] at uncounted
    cases uncounted
  calc users.card ≤ (Finset.range n).card := Finset.card_le_card inside
    _ = n := Finset.card_range n
    _ < width := few

/-- Nobody acts. -/
def Clear (gate : Gate T) : Prop := ∀ t g, gate.position t ≠ .inside g

theorem mem_users {users : Finset T} (exact : ∀ t, t ∈ users ↔ (gate.position t).counts = true)
    {t : T} {position : Position} (same : position.counts = (gate.position t).counts) (u : T) :
    u ∈ users ↔ ((gate.move t position).position u).counts = true := by
  rw [exact]
  by_cases mine : u = t
  · subst mine
    simp [move, same]
  · simp [move, Function.update_of_ne mine]

/-- A user that moves without being counted or discounted. -/
theorem Tally.move (tally : gate.Tally width) {t : T} {position : Position}
    (same : position.counts = (gate.position t).counts) :
    (gate.move t position).Tally width := by
  obtain ⟨users, exact, count⟩ := tally
  exact ⟨users, mem_users exact same, count⟩

theorem Tally.step (tally : gate.Tally width) (positive : 0 < width)
    (step : Step span width gate next) : next.Tally width := by
  cases step with
  | stay => exact tally
  | check at' | accept at' | refuse at' | finish at' => exact tally.move (by rw [at']; rfl)
  | advance => exact tally
  | count at' =>
    rename_i t g
    obtain ⟨users, exact, count⟩ := tally
    have new : t ∉ users := by
      rw [exact, at']
      simp [Position.counts]
    refine ⟨insert t users, ?_, ?_⟩
    · intro u
      by_cases mine : u = t
      · subst mine
        simp [Gate.move, Position.counts]
      · simp [Gate.move, exact, mine]
    · dsimp only
      rw [Finset.card_insert_of_notMem new, count, Nat.mod_add_mod]
  | leave at' =>
    rename_i t
    obtain ⟨users, exact, count⟩ := tally
    have member : t ∈ users := by
      rw [exact, at']
      rfl
    refine ⟨users.erase t, ?_, ?_⟩
    · intro u
      by_cases mine : u = t
      · subst mine
        simp [Gate.move, Position.counts]
      · simp [Gate.move, exact, mine]
    · have occupied := Finset.card_pos.mpr ⟨t, member⟩
      dsimp only
      rw [Finset.card_erase_of_mem member, count, Nat.add_sub_assoc positive, Nat.mod_add_mod,
        show users.card + (width - 1) = users.card - 1 + width by omega, Nat.add_mod_right]

omit [DecidableEq T] in
/-- An uncrowded word tells how many users are counted. -/
theorem Tally.exact (tally : gate.Tally width) (uncrowded : gate.Uncrowded width) :
    ∃ users : Finset T, (∀ t, t ∈ users ↔ (gate.position t).counts = true) ∧
      gate.inflight = users.card := by
  obtain ⟨users, exact, count⟩ := tally
  have few := uncrowded users fun t member => (exact t).mp member
  exact ⟨users, exact, count.trans (Nat.mod_eq_of_lt few)⟩

omit [DecidableEq T] in
theorem Tally.nobody (tally : gate.Tally width) (uncrowded : gate.Uncrowded width)
    (zero : gate.inflight = 0) (t : T) : (gate.position t).counts = false := by
  obtain ⟨users, exact, count⟩ := tally.exact uncrowded
  have none : users = ∅ := Finset.card_eq_zero.mp (count.symm.trans zero)
  have absent : t ∉ users := by simp [none]
  rw [exact] at absent
  exact Bool.eq_false_iff.mpr absent

omit [DecidableEq T] in
/-- A zero count means that nobody is counted, and so nobody acts. -/
theorem Tally.drained (tally : gate.Tally width) (uncrowded : gate.Uncrowded width)
    (zero : gate.inflight = 0) : gate.Clear := by
  intro t g inside
  have uncounted := tally.nobody uncrowded zero t
  rw [inside] at uncounted
  cases uncounted

/-- While no counted user holds the current generation, nobody starts to act. -/
theorem Clear.step (clear : gate.Clear)
    (stale : ∀ t g, gate.position t = .counted g → g ≠ gate.generation)
    (step : Step span width gate next) : next.Clear := by
  have moved {t position} (other : ∀ g, position ≠ .inside g) :
      (gate.move t position).Clear := by
    intro u g
    by_cases mine : u = t
    · subst mine
      simpa [move] using other g
    · simpa [move, Function.update_of_ne mine] using clear u g
  cases step with
  | stay | advance => exact clear
  | check | count | refuse | finish | leave => exact moved (by simp)
  | accept at' => exact absurd rfl (stale _ _ at')

end Gate
end Florid.DrainGate
