import Mathlib.Data.Finset.Card
import Mathlib.Logic.Function.Basic

/-! Wake-ups through a semaphore, coalesced by a flag. Whoever has news raises the flag
and releases a token if the flag was down; whoever takes the token lowers the flag and
then looks for the news. A caller who closes the place wakes in the same way. -/
namespace Florid.CoalescedWake
variable {T : Type} [DecidableEq T]

inductive Role where
  | away
  /-- Has news, or has closed, and has yet to reach the flag. -/
  | announcing
  | closing
  /-- Found the flag down; the token comes next. -/
  | releasing
  /-- In a wait that only a token ends. -/
  | blocked
  /-- Has taken the token; the flag is still up. -/
  | holding
  /-- Has lowered the flag and looks for the news next. -/
  | looking
  deriving DecidableEq

structure Wake (T : Type) where
  count : Nat
  pending : Bool
  /-- There is news that nobody has taken. -/
  fresh : Bool
  closed : Bool
  role : T → Role

/-- Counted against the flag. -/
def Role.counted : Role → Bool
  | .releasing | .holding => true
  | _ => false

/-- On the way to a token. -/
def Role.waking : Role → Bool
  | .announcing | .closing | .releasing => true
  | _ => false

/-- Will see that there is news. -/
def Role.minds : Role → Bool
  | .announcing | .releasing | .holding | .looking => true
  | _ => false

def Wake.move (w : Wake T) (t : T) (role : Role) : Wake T :=
  { w with role := Function.update w.role t role }

/-- What a step does with the token and the flag. -/
inductive Mark (T : Type) where
  | plain
  | took (t : T)
  /-- A wake-up is left out because the flag is up. -/
  | skipped (t : T)
  /-- A token was taken and the news is not looked for. -/
  | dropped

/-- One access of somebody. A timed wait may take a token without ever being blocked. -/
inductive Step (w : Wake T) : Mark T → Wake T → Prop where
  | stay : Step w .plain w
  | reopen : Step w .plain { w with closed := false }
  | taken : Step w .plain { w with fresh := false }
  | announce {t fresh} : w.role t = .away → Step w .plain { w.move t .announcing with fresh }
  | close {t} : w.role t = .away → Step w .plain { w.move t .closing with closed := true }
  | skip {t} : w.role t = .announcing ∨ w.role t = .closing → w.pending = true →
      Step w (.skipped t) (w.move t .away)
  | raise {t} : w.role t = .announcing ∨ w.role t = .closing → w.pending = false →
      Step w .plain { w.move t .releasing with pending := true }
  | release {t} : w.role t = .releasing →
      Step w .plain { w.move t .away with count := w.count + 1 }
  | block {t} : w.role t = .away → w.closed = false → Step w .plain (w.move t .blocked)
  | acquire {t} : w.role t = .away ∨ w.role t = .blocked → 0 < w.count →
      Step w (.took t) { w.move t .holding with count := w.count - 1 }
  | lower {t} : w.role t = .holding → Step w .plain { w.move t .looking with pending := false }
  | take {t} : w.role t = .looking → Step w .plain { w.move t .away with fresh := false }
  | drop {t} : w.role t = .looking → Step w .dropped (w.move t .away)

namespace Wake
variable {w next : Wake T} {t : T} {role : Role}

theorem move_self (w : Wake T) (t : T) (role : Role) : (w.move t role).role t = role := by
  simp [move]

theorem move_of_ne {u : T} (apart : u ≠ t) : (w.move t role).role u = w.role u := by
  simp [move, Function.update_of_ne apart]

/-! ### One token -/

/-- The tokens and those who count against the flag are one while it is up. -/
def Tally (w : Wake T) : Prop :=
  ∃ users : Finset T, (∀ t, t ∈ users ↔ (w.role t).counted = true) ∧
    w.count + users.card = w.pending.toNat

/-- Somebody moves without being counted or discounted. -/
theorem Tally.move (tally : w.Tally) (same : role.counted = (w.role t).counted) :
    (w.move t role).Tally := by
  obtain ⟨users, exact, total⟩ := tally
  refine ⟨users, ?_, total⟩
  intro u
  rw [exact]
  by_cases mine : u = t
  · subst mine
    rw [move_self, same]
  · rw [move_of_ne mine]

theorem Tally.enter (tally : w.Tally) (outside : (w.role t).counted = false)
    (inside : role.counted = true) {count : Nat} {pending : Bool}
    (total : ∀ n, w.count + n = w.pending.toNat → count + (n + 1) = pending.toNat) :
    Tally { w.move t role with count, pending } := by
  obtain ⟨users, exact, before⟩ := tally
  have new : t ∉ users := by simp [exact, outside]
  refine ⟨insert t users, ?_, ?_⟩
  · intro u
    by_cases mine : u = t
    · subst mine
      simp [Wake.move, inside]
    · simp [Wake.move, mine, exact]
  · rw [Finset.card_insert_of_notMem new]
    exact total _ before

theorem Tally.leave (tally : w.Tally) (inside : (w.role t).counted = true)
    (outside : role.counted = false) {count : Nat} {pending : Bool}
    (total : ∀ n, w.count + (n + 1) = w.pending.toNat → count + n = pending.toNat) :
    Tally { w.move t role with count, pending } := by
  obtain ⟨users, exact, before⟩ := tally
  have member : t ∈ users := by rw [exact, inside]
  refine ⟨users.erase t, ?_, ?_⟩
  · intro u
    by_cases mine : u = t
    · subst mine
      simp [Wake.move, outside]
    · simp [Wake.move, mine, exact]
  · apply total
    rw [Finset.card_erase_add_one member]
    exact before

theorem Tally.step (tally : w.Tally) {mark : Mark T} (step : Step w mark next) : next.Tally := by
  cases step with
  | stay => exact tally
  | reopen => exact tally
  | taken => exact tally
  | announce at' => exact tally.move (by rw [at']; rfl)
  | close at' => exact tally.move (by rw [at']; rfl)
  | skip at' => exact tally.move (by rcases at' with at' | at' <;> rw [at'] <;> rfl)
  | raise at' down =>
    refine tally.enter (by rcases at' with at' | at' <;> rw [at'] <;> rfl) rfl ?_
    intro n total
    rw [down] at total
    simp only [Bool.toNat_false, Bool.toNat_true, Wake.move] at total ⊢
    omega
  | release at' =>
    refine tally.leave (by rw [at']; rfl) rfl ?_
    intro n total
    dsimp only [Wake.move]
    omega
  | block at' => exact tally.move (by rw [at']; rfl)
  | acquire at' some' =>
    refine tally.enter (by rcases at' with at' | at' <;> rw [at'] <;> rfl) rfl ?_
    intro n total
    dsimp only [Wake.move]
    omega
  | lower at' =>
    refine tally.leave (by rw [at']; rfl) rfl ?_
    intro n total
    have most := w.pending.toNat_le
    simp only [Bool.toNat_false, Wake.move]
    omega
  | take at' => exact tally.move (by rw [at']; rfl)
  | drop at' => exact tally.move (by rw [at']; rfl)

omit [DecidableEq T] in
theorem Tally.at_most_one (tally : w.Tally) {users : Finset T}
    (counted : ∀ t ∈ users, (w.role t).counted = true) : w.count + users.card ≤ 1 := by
  obtain ⟨all, exact, total⟩ := tally
  have inside : users ⊆ all := fun t user => (exact t).mpr (counted t user)
  have few := Finset.card_le_card inside
  have most := w.pending.toNat_le
  omega

omit [DecidableEq T] in
/-- While the flag is up there is a token, or somebody is on the way to one or has it. -/
theorem Tally.up (tally : w.Tally) (up : w.pending = true) :
    0 < w.count ∨ ∃ t, (w.role t).counted = true := by
  obtain ⟨users, exact, total⟩ := tally
  rcases Finset.eq_empty_or_nonempty users with rfl | ⟨t, user⟩
  · rw [up, Bool.toNat_true, Finset.card_empty] at total
    exact .inl (by omega)
  · exact .inr ⟨t, (exact t).mp user⟩

/-! ### No news is lost -/

def Kept (w : Wake T) : Prop :=
  w.fresh = true → 0 < w.count ∨ ∃ t, (w.role t).minds = true

theorem minds_of_counted {role : Role} (counted : role.counted = true) : role.minds = true := by
  cases role <;> first | rfl | cases counted

/-- Somebody goes on minding. -/
theorem Kept.minding (t : T) {role : Role} (minds : role.minds = true) {count : Nat}
    {pending fresh closed : Bool} :
    Kept { w.move t role with count, pending, fresh, closed } :=
  fun _ => .inr ⟨t, by simpa [Wake.move] using minds⟩

/-- Somebody moves who does not mind. -/
theorem Kept.move (kept : w.Kept) (unminding : (w.role t).minds = false) {closed : Bool} :
    Kept { w.move t role with closed } := by
  intro fresh
  rcases kept fresh with token | ⟨u, minds⟩
  · exact .inl token
  · have apart : u ≠ t := by
      rintro rfl
      rw [minds] at unminding
      cases unminding
    exact .inr ⟨u, by simpa [Wake.move, apart] using minds⟩

/-- Every step but a drop keeps the news in sight. -/
theorem Kept.step (kept : w.Kept) (tally : w.Tally) {mark : Mark T} (step : Step w mark next)
    (undropped : mark ≠ .dropped) : next.Kept := by
  cases step with
  | stay => exact kept
  | reopen => exact kept
  | taken => exact fun fresh => by cases fresh
  | announce at' => exact Kept.minding _ rfl
  | close at' => exact kept.move (by rw [at']; rfl)
  | skip at' up =>
    rename_i t
    intro _
    rcases tally.up up with token | ⟨u, counted⟩
    · exact .inl token
    · have apart : u ≠ t := by
        rintro rfl
        rcases at' with at' | at' <;> rw [at'] at counted <;> cases counted
      exact .inr ⟨u, by rw [move_of_ne apart]; exact minds_of_counted counted⟩
  | raise at' down => exact Kept.minding _ rfl
  | release at' => exact fun _ => .inl (Nat.succ_pos _)
  | block at' => exact kept.move (by rw [at']; rfl)
  | acquire at' some' => exact Kept.minding _ rfl
  | lower at' => exact Kept.minding _ rfl
  | take at' => exact fun fresh => by cases fresh
  | drop at' => exact absurd rfl undropped

/-! ### Those who are left waiting -/

/-- The place is closed, somebody waits for a token, and none is there or coming. -/
def Hung (w : Wake T) : Prop :=
  w.closed = true ∧ w.count = 0 ∧ (∃ t, w.role t = .blocked) ∧ ∀ t, (w.role t).waking = false

/-- Somebody else waits, and nobody else is on the way to a token. -/
def Leaves (w : Wake T) (t : T) : Prop :=
  w.closed = true ∧ (∃ u, u ≠ t ∧ w.role u = .blocked) ∧ ∀ u, u ≠ t → (w.role u).waking = false

/-- What is left when somebody moves who neither waits nor wakes afterwards. -/
theorem hung_move (quiet : role ≠ .blocked) (asleep : role.waking = false) {count : Nat}
    {pending : Bool} : Hung { w.move t role with count, pending } ↔ count = 0 ∧ w.Leaves t := by
  constructor
  · rintro ⟨closed, empty, ⟨u, waits⟩, nobody⟩
    have apart : u ≠ t := by
      rintro rfl
      exact quiet (by simpa [Wake.move] using waits)
    refine ⟨empty, closed, ⟨u, apart, by simpa [Wake.move, apart] using waits⟩, ?_⟩
    intro v other
    simpa [Wake.move, other] using nobody v
  · rintro ⟨empty, closed, ⟨u, apart, waits⟩, nobody⟩
    refine ⟨closed, empty, ⟨u, by simpa [Wake.move, apart] using waits⟩, ?_⟩
    intro v
    by_cases mine : v = t
    · subst mine
      simpa [Wake.move] using asleep
    · simpa [Wake.move, mine] using nobody v mine

omit [DecidableEq T] in
/-- Whoever wakes keeps the place from hanging. -/
theorem not_hung_waking {u : T} (wakes : (w.role u).waking = true) : ¬ w.Hung := by
  rintro ⟨-, -, -, nobody⟩
  rw [nobody u] at wakes
  cases wakes

/-- Somebody moves who neither waits nor wakes, before or afterwards. -/
theorem not_hung_move (calm : ¬ w.Hung) (asleep : (w.role t).waking = false) (quiet : role ≠ .blocked)
    (after : role.waking = false) {pending fresh : Bool} :
    ¬ Hung { w.move t role with pending, fresh } := by
  intro hung
  have left : Hung { w.move t role with count := w.count, pending } := hung
  obtain ⟨empty, closed, ⟨u, -, waits⟩, nobody⟩ := (hung_move quiet after).mp left
  refine calm ⟨closed, empty, ⟨u, waits⟩, ?_⟩
  intro v
  by_cases mine : v = t
  · rw [mine, asleep]
  · exact nobody v mine

end Wake

/-- The steps that leave somebody waiting. -/
def Mark.Strands (w : Wake T) : Mark T → Prop
  | .took t => w.Leaves t
  | .skipped t => w.count = 0 ∧ w.Leaves t
  | _ => False

namespace Wake

theorem hung_iff {w next : Wake T} (calm : ¬ w.Hung) (tally : w.Tally) {mark : Mark T} (step : Step w mark next) :
    next.Hung ↔ mark.Strands w := by
  have waking {next : Wake T} {u : T} (wakes : (next.role u).waking = true) :
      next.Hung ↔ False := iff_of_false (not_hung_waking wakes) id
  cases step with
  | stay => exact iff_of_false calm id
  | reopen => exact iff_of_false (fun hung => Bool.false_ne_true hung.1) id
  | taken => exact iff_of_false calm id
  | announce at' => rename_i t fresh; exact waking (u := t) (by simp [move, Role.waking])
  | close at' => rename_i t; exact waking (u := t) (by simp [move, Role.waking])
  | raise at' down => rename_i t; exact waking (u := t) (by simp [move, Role.waking])
  | release at' => exact iff_of_false (fun hung => Nat.succ_ne_zero _ hung.2.1) id
  | block at' unclosed =>
    refine iff_of_false ?_ id
    rintro ⟨closed, -⟩
    rw [show (w.move _ _).closed = w.closed from rfl, unclosed] at closed
    cases closed
  | skip at' up => exact hung_move (by simp) rfl
  | acquire at' some' =>
    have single : w.count + (∅ : Finset T).card ≤ 1 := tally.at_most_one (by simp)
    rw [Finset.card_empty] at single
    refine (hung_move (by simp) rfl).trans ?_
    exact and_iff_right (by omega)
  | lower at' => exact iff_of_false (not_hung_move calm (by rw [at']; rfl) (by simp) rfl) id
  | take at' => exact iff_of_false (not_hung_move calm (by rw [at']; rfl) (by simp) rfl) id
  | drop at' => exact iff_of_false (not_hung_move calm (by rw [at']; rfl) (by simp) rfl) id

end Wake
end Florid.CoalescedWake
