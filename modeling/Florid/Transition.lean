import Mathlib.Data.List.Induction

/-! Labelled machines and their finite runs. A step is a partial function of the
state and the chosen action, so every run can be evaluated; nondeterminism (other
threads, the peer, the clock) is the choice of actions. A run keeps both ends of
each step, so that a property can speak about the state a step was taken from. -/
namespace Florid.Transition
variable {S A E : Type}

structure Machine (S A E : Type) where
  init : S
  step : S → A → Option (S × E)

structure Entry (S A E : Type) where
  before : S
  action : A
  event : E
  after : S

/-- Runs from the initial state, extended at the end by one enabled step. -/
inductive Run (m : Machine S A E) : List (Entry S A E) → S → Prop where
  | nil : Run m [] m.init
  | snoc {es s a e t} : Run m es s → m.step s a = some (t, e) → Run m (es ++ [⟨s, a, e, t⟩]) t

def Reachable (m : Machine S A E) (s : S) : Prop := ∃ es, Run m es s

/-- Every step of the run was taken from a state and by an action that meet `C`. -/
def Meets (C : S → A → Prop) (es : List (Entry S A E)) : Prop :=
  ∀ e ∈ es, C e.before e.action

theorem Meets.append {C : S → A → Prop} {es fs : List (Entry S A E)} :
    Meets C (es ++ fs) ↔ Meets C es ∧ Meets C fs := by
  simp only [Meets, List.mem_append]
  constructor
  · intro all
    exact ⟨fun e member => all e (.inl member), fun e member => all e (.inr member)⟩
  · rintro ⟨left, right⟩ e (member | member)
    · exact left e member
    · exact right e member

theorem Meets.single {C : S → A → Prop} {e : Entry S A E} :
    Meets C [e] ↔ C e.before e.action := by
  simp [Meets]

/-- A condition that can be evaluated is checked entry by entry. -/
theorem Meets.of_all {c : S → A → Bool} {es : List (Entry S A E)}
    (checked : es.all (fun e => c e.before e.action) = true) : Meets (fun s a => c s a = true) es :=
  List.all_eq_true.mp checked

namespace Run
variable {m : Machine S A E} {es fs : List (Entry S A E)} {s t : S}

theorem reachable (run : Run m es s) : Reachable m s := ⟨es, run⟩

/-- What holds initially and is kept by every step holds of every run and its
whole history. -/
theorem history {P : List (Entry S A E) → S → Prop} (start : P [] m.init)
    (keeps : ∀ {es s a e t}, Run m es s → P es s → m.step s a = some (t, e) →
      P (es ++ [⟨s, a, e, t⟩]) t) (run : Run m es s) : P es s := by
  induction run with
  | nil => exact start
  | snoc before stepped ih => exact keeps before ih stepped

theorem invariant {P : S → Prop} (start : P m.init)
    (keeps : ∀ {s a e t}, P s → m.step s a = some (t, e) → P t) (run : Run m es s) : P s :=
  run.history (P := fun _ s => P s) start (fun _ held stepped => keeps held stepped)

/-- The same under a condition on the steps taken. -/
theorem guarded {C : S → A → Prop} {P : S → Prop} (start : P m.init)
    (keeps : ∀ {s a e t}, P s → C s a → m.step s a = some (t, e) → P t)
    (run : Run m es s) (met : Meets C es) : P s := by
  induction run with
  | nil => exact start
  | snoc before stepped ih =>
    obtain ⟨earlier, last⟩ := Meets.append.mp met
    exact keeps (ih earlier) (Meets.single.mp last) stepped

/-- Where a step keeps a property exactly under a condition on it, a run keeps the property
throughout exactly when all its steps meet the condition. -/
theorem always_iff {P : S → Prop} {C : S → A → Prop} (start : P m.init)
    (exact : ∀ {es s a e t}, Run m es s → P s → m.step s a = some (t, e) → (P t ↔ C s a))
    (run : Run m es s) : (∀ e ∈ es, P e.after) ↔ Meets C es := by
  have both : ((∀ e ∈ es, P e.after) ↔ Meets C es) ∧ ((∀ e ∈ es, P e.after) → P s) := by
    induction run with
    | nil => exact ⟨by simp [Meets], fun _ => start⟩
    | snoc before stepped ih =>
      rename_i es s a e t
      obtain ⟨same, reaches⟩ := ih
      have split : (∀ f ∈ es ++ [⟨s, a, e, t⟩], P f.after) ↔ (∀ f ∈ es, P f.after) ∧ P t := by
        rw [List.forall_mem_append]
        exact and_congr_right' (List.forall_mem_singleton ..)
      refine ⟨?_, fun all => (split.mp all).2⟩
      rw [split, Meets.append, Meets.single]
      constructor
      · rintro ⟨earlier, last⟩
        exact ⟨same.mp earlier, (exact before (reaches earlier) stepped).mp last⟩
      · rintro ⟨earlier, last⟩
        have held := same.mpr earlier
        exact ⟨held, (exact before (reaches held) stepped).mpr last⟩
  exact both.1

theorem of_snoc {e : Entry S A E} (run : Run m (es ++ [e]) t) :
    Run m es e.before ∧ m.step e.before e.action = some (e.after, e.event) ∧ t = e.after := by
  generalize whole : es ++ [e] = trace at run
  cases run with
  | nil => simp at whole
  | snoc before stepped =>
    obtain ⟨rfl, last⟩ := List.append_inj' whole rfl
    obtain rfl := List.singleton_inj.mp last
    exact ⟨before, stepped, rfl⟩

/-- A history leads to one state. -/
theorem unique (first : Run m es s) (second : Run m es t) : s = t := by
  rcases List.eq_nil_or_concat es with rfl | ⟨past, e, rfl⟩
  · have initial {u : S} (run : Run m [] u) : u = m.init := by
      generalize none : ([] : List (Entry S A E)) = trace at run
      cases run with
      | nil => rfl
      | snoc => simp at none
    exact (initial first).trans (initial second).symm
  · rw [List.concat_eq_append] at first second
    exact first.of_snoc.2.2.trans second.of_snoc.2.2.symm

/-- A run ends where its last entry does. -/
theorem last (run : Run m (es ++ fs) t) (nonempty : fs ≠ []) : ∃ e ∈ fs, e.after = t ∧
    fs.getLast? = some e := by
  obtain ⟨before, e, rfl⟩ := List.eq_nil_or_concat fs |>.resolve_left nonempty
  rw [List.concat_eq_append, ← List.append_assoc] at run
  exact ⟨e, by simp, run.of_snoc.2.2.symm, by simp⟩

/-- A run splits at any point of its history. -/
theorem split : Run m (es ++ fs) t → ∃ s, Run m es s := by
  induction fs using List.reverseRecOn generalizing t with
  | nil =>
    intro run
    exact ⟨t, by simpa using run⟩
  | append_singleton fs e ih =>
    intro run
    rw [← List.append_assoc] at run
    exact ih run.of_snoc.1

/-- Each entry of a run is an enabled step from the state its past reaches. -/
theorem entry {e : Entry S A E} (run : Run m (es ++ e :: fs) t) :
    Run m es e.before ∧ m.step e.before e.action = some (e.after, e.event) := by
  have apart : Run m ((es ++ [e]) ++ fs) t := by simpa using run
  obtain ⟨s, past⟩ := apart.split
  exact ⟨past.of_snoc.1, past.of_snoc.2.1⟩

/-- What holds when the past ends and is kept by every later step holds of the rest. -/
theorem since {P : List (Entry S A E) → S → Prop} (start : ∀ {s}, Run m es s → P [] s)
    (keeps : ∀ {fs s a e t}, Run m (es ++ fs) s → P fs s → m.step s a = some (t, e) →
      P (fs ++ [⟨s, a, e, t⟩]) t) (run : Run m (es ++ fs) t) : P fs t := by
  induction fs using List.reverseRecOn generalizing t with
  | nil => exact start (by simpa using run)
  | append_singleton fs e ih =>
    rw [← List.append_assoc] at run
    obtain ⟨before, stepped, rfl⟩ := run.of_snoc
    exact keeps before (ih before) stepped

theorem entry_of_mem {e : Entry S A E} (run : Run m es t) (member : e ∈ es) :
    ∃ past, Run m past e.before ∧ m.step e.before e.action = some (e.after, e.event) := by
  obtain ⟨past, rest, rfl⟩ := List.append_of_mem member
  exact ⟨past, run.entry⟩

end Run

/-- Evaluate a list of actions, keeping the history. -/
def exec (m : Machine S A E) : List A → List (Entry S A E) → S → Option (List (Entry S A E) × S)
  | [], es, s => some (es, s)
  | a :: rest, es, s =>
    match m.step s a with
    | none => none
    | some (t, e) => exec m rest (es ++ [⟨s, a, e, t⟩]) t

theorem exec_run {m : Machine S A E} {actions : List A} {es fs : List (Entry S A E)} {s t : S}
    (run : Run m es s) (done : exec m actions es s = some (fs, t)) : Run m fs t := by
  induction actions generalizing es s with
  | nil =>
    simp only [exec, Option.some.injEq, Prod.mk.injEq] at done
    obtain ⟨rfl, rfl⟩ := done
    exact run
  | cons a rest ih =>
    simp only [exec] at done
    cases stepped : m.step s a with
    | none => simp [stepped] at done
    | some next =>
      rw [stepped] at done
      exact ih (.snoc run stepped) done

/-- A list of actions that can be taken from the initial state gives a run. -/
theorem exec_get {m : Machine S A E} {actions : List A}
    (done : (exec m actions [] m.init).isSome = true) :
    Run m ((exec m actions [] m.init).get done).1 ((exec m actions [] m.init).get done).2 :=
  exec_run .nil (Option.some_get done).symm

/-- The same run with its entry number `k` singled out. -/
theorem Run.at_index {m : Machine S A E} {es : List (Entry S A E)} {s : S} (run : Run m es s)
    (k : Fin es.length) : Run m (es.take k ++ es.get k :: es.drop (k + 1)) s := by
  simpa using run

/-- The state a list of actions leads to. -/
def follow (m : Machine S A E) : List A → S → Option S
  | [], s => some s
  | a :: rest, s =>
    match m.step s a with
    | none => none
    | some (t, _) => follow m rest t

theorem follow_run {m : Machine S A E} {actions : List A} {es : List (Entry S A E)} {s t : S}
    (run : Run m es s) (done : follow m actions s = some t) :
    ∃ fs, fs.length = actions.length ∧ Run m (es ++ fs) t := by
  induction actions generalizing es s with
  | nil =>
    obtain rfl := Option.some.inj done
    exact ⟨[], rfl, by simpa using run⟩
  | cons a rest ih =>
    simp only [follow] at done
    cases stepped : m.step s a with
    | none => simp [stepped] at done
    | some next =>
      rw [stepped] at done
      obtain ⟨fs, length, run⟩ := ih (.snoc run stepped) done
      exact ⟨⟨s, a, next.2, next.1⟩ :: fs, by simp [length], by simpa using run⟩

/-- The state a list of actions leads to is the one its evaluation ends in. -/
theorem exec_follow {m : Machine S A E} {actions : List A} {t : S}
    (done : (exec m actions [] m.init).isSome = true) (led : follow m actions m.init = some t) :
    ((exec m actions [] m.init).get done).2 = t := by
  have general (actions : List A) (es : List (Entry S A E)) (s : S) :
      (exec m actions es s).map Prod.snd = follow m actions s := by
    induction actions generalizing es s with
    | nil => rfl
    | cons a rest ih =>
      simp only [exec, follow]
      cases m.step s a with
      | none => rfl
      | some next => exact ih _ _
  have ends := general actions [] m.init
  rw [led, Option.map_eq_some_iff] at ends
  obtain ⟨⟨fs, u⟩, evaluated, rfl⟩ := ends
  simp [evaluated]

/-- A cycle of actions taken over and over. -/
theorem follow_cycle {m : Machine S A E} {actions : Nat → List A} {state : Nat → S}
    (turn : ∀ n, follow m (actions n) (state n) = some (state (n + 1)))
    {es : List (Entry S A E)} (run : Run m es (state 0)) (n : Nat) :
    ∃ fs, Run m (es ++ fs) (state n) := by
  induction n with
  | zero => exact ⟨[], by simpa using run⟩
  | succ n ih =>
    obtain ⟨fs, before⟩ := ih
    obtain ⟨gs, -, after⟩ := follow_run before (turn n)
    exact ⟨fs ++ gs, by simpa using after⟩

end Florid.Transition
