import Florid.Mpc.Output

/-! The reference as a function of time, over every run of `outputLoop`: pieced together
from what `s_sample` stands for after each iteration, it is continuous in position and
velocity from the first plan on. -/
noncomputable section
namespace Florid.Mpc
open Transition

theorem MPCPlan.dt_pos : 0 < MPCPlan.dt := by norm_num [MPCPlan.dt]

/-- The last knot of a plan, in seconds after its origin. -/
def MPCPlan.horizon : ℝ := MPCPlan.dt * 5

theorem horizon_of_age {c : MPCControlConfig} (valid : c.Valid) {now checked origin : ℤ}
    (order : now ≤ checked) (age : checked - origin ≤ milliseconds c.planTimeout) :
    seconds (now - origin) + MPCPlan.dt ≤ MPCPlan.horizon := by
  have bound : now - origin ≤ 80000000 := by
    have := valid.plan.2
    unfold milliseconds at age
    omega
  have real : ((now : ℝ) - origin) ≤ 80000000 := by exact_mod_cast bound
  unfold seconds MPCPlan.horizon MPCPlan.dt
  linarith

namespace Loop
variable {c : MPCControlConfig} {l next : Loop} {now checked : ℤ} {m : MPCMeasurement}

/-- The bridge of a loop ends on its plan, inside the plan's horizon. -/
def Joined (l : Loop) : Prop :=
  ∀ bridge, l.bridge = some bridge →
    seconds (l.bridgeStart - l.active.origin) + MPCPlan.dt ≤ MPCPlan.horizon ∧
    ∃ start, bridge = .between start (sampleMPC (n := 4) l.active.knots MPCPlan.dt
      (seconds (l.bridgeStart - l.active.origin) + MPCPlan.dt)) MPCPlan.dt

/-- Bridge and plan meet where the bridge ends. -/
theorem Joined.smooth (joined : l.Joined) : Smooth l.sample := by
  have elapsed (origin : ℤ) : Continuous fun t : ℝ => seconds (t - origin) := by
    unfold seconds
    fun_prop
  have plan : Smooth fun t => sampleMPC (n := 4) l.active.knots MPCPlan.dt
      (seconds (t - l.active.origin)) :=
    (sampleMPC_smooth MPCPlan.dt_pos).comp (elapsed _)
  cases held : l.bridge with
  | none =>
    intro i
    simp only [Loop.sample, held]
    exact plan i
  | some bridge =>
    obtain ⟨-, start, rfl⟩ := joined bridge held
    have curve : Smooth fun t => (MPCCubic.between start (sampleMPC (n := 4) l.active.knots
        MPCPlan.dt (seconds (l.bridgeStart - l.active.origin) + MPCPlan.dt)) MPCPlan.dt).sample
          (seconds (t - l.bridgeStart)) :=
      (MPCCubic.sample_smooth _).comp (elapsed _)
    have meet (t : ℝ) (stop : seconds (t - l.bridgeStart) = MPCPlan.dt) :
        (MPCCubic.between start (sampleMPC (n := 4) l.active.knots MPCPlan.dt
          (seconds (l.bridgeStart - l.active.origin) + MPCPlan.dt)) MPCPlan.dt).sample
            (seconds (t - l.bridgeStart)) =
          sampleMPC (n := 4) l.active.knots MPCPlan.dt (seconds (t - l.active.origin)) := by
      have there : seconds (t - l.active.origin) =
          seconds (l.bridgeStart - l.active.origin) + MPCPlan.dt := by
        rw [← stop]
        unfold seconds
        ring
      rw [stop, MPCCubic.between_stop MPCPlan.dt_pos, there]
    intro i
    simp only [Loop.sample, held, apply_ite MPCJointState.q, apply_ite MPCJointState.dq, ite_apply]
    constructor
    · refine (curve i).1.if_le (plan i).1 (elapsed _) continuous_const ?_
      intro t stop
      exact congrFun (congrArg MPCJointState.q (meet t stop)) i
    · refine (curve i).2.if_le (plan i).2 (elapsed _) continuous_const ?_
      intro t stop
      exact congrFun (congrArg MPCJointState.dq (meet t stop)) i

/-- A settled plan is the old one, or a bridge leads from the anchor to the new one. -/
theorem switch_cases (switched : l.switch c now checked m = .ok next) :
    (next = l ∧ l.fresh.generation = l.active.generation) ∨
      (l.fresh.generation ≠ l.active.generation ∧
        checked - l.fresh.origin ≤ milliseconds c.planTimeout ∧
        next = { l with
          active := l.fresh, bridge := some (l.transition now m), bridgeStart := now }) := by
  unfold switch at switched
  split at switched
  · cases switched
  · split at switched
    · rename_i new
      split at switched
      · cases switched
      · rename_i young
        split at switched
        · cases switched
        · split at switched
          · cases switched
          · cases switched
            exact .inr ⟨new, not_lt.mp young, rfl⟩
    · rename_i same
      cases switched
      exact .inl ⟨rfl, not_not.mp same⟩

theorem switch_joined (valid : c.Valid) (order : now ≤ checked)
    (switched : l.switch c now checked m = .ok next) (joined : l.Joined) : next.Joined := by
  rcases switch_cases switched with ⟨rfl, -⟩ | ⟨-, young, rfl⟩
  · exact joined
  · rintro bridge ⟨⟩
    exact ⟨horizon_of_age valid order young, _, rfl⟩

/-- At the switch the reference is where it was, or at the measurement. -/
theorem switch_handoff (switched : l.switch c now checked m = .ok next) :
    next = l ∨ next.sample now = l.anchor now m := by
  rcases switch_cases switched with ⟨rfl, -⟩ | ⟨-, -, rfl⟩
  · exact .inl rfl
  · right
    have zero : seconds ((now : ℝ) - now) = 0 := by simp [seconds]
    simp only [Loop.sample, zero, if_pos MPCPlan.dt_pos.le]
    exact MPCCubic.between_start MPCPlan.dt_pos.ne'

/-- Everything `s_sample` reads. -/
theorem sample_congr (active : next.active = l.active) (bridge : next.bridge = l.bridge)
    (start : next.bridgeStart = l.bridgeStart) : next.sample = l.sample := by
  funext t
  simp only [Loop.sample, active, bridge, start]

theorem joined_congr (active : next.active = l.active) (bridge : next.bridge = l.bridge)
    (start : next.bridgeStart = l.bridgeStart) (joined : l.Joined) : next.Joined := by
  unfold Joined
  rw [active, bridge, start]
  exact joined

end Loop

/-! ### The pieces of a run -/

abbrev OutputTrace := List (Entry Output OutputAction OutputEvent)

/-- A stretch of the reference: when it begins and the loop it is sampled from. -/
abbrev Piece := ℤ × Loop

/-- The stretch an iteration begins once it has settled on a plan. -/
def settledAt (c : MPCControlConfig) (e : Entry Output OutputAction OutputEvent) : Option Piece :=
  match e.before.pc, e.action with
  | .looping l, .iterate x =>
    match l.settle c x with
    | .ok (settled, _) => if settled.active.generation ≠ 0 then some (x.now, settled) else none
    | .error _ => none
  | _, _ => none

def pieces (c : MPCControlConfig) (es : OutputTrace) : List Piece := es.filterMap (settledAt c)

open Classical in
/-- The reference at any time: the latest stretch that has begun. -/
def glue (ps : List Piece) (t : ℝ) : MPCJointState :=
  match (ps.filter fun p => (p.1 : ℝ) ≤ t).getLast? with
  | some p => p.2.sample t
  | none => {}

def reference (c : MPCControlConfig) (es : OutputTrace) : ℝ → MPCJointState := glue (pieces c es)

open Classical in
theorem glue_snoc (ps : List Piece) (p : Piece) (t : ℝ) :
    glue (ps ++ [p]) t = if (p.1 : ℝ) ≤ t then p.2.sample t else glue ps t := by
  unfold glue
  by_cases begun : (p.1 : ℝ) ≤ t
  · simp [List.filter_append, begun]
  · simp [List.filter_append, begun]

/-- After everything has begun, the last stretch is in force. -/
theorem glue_last {ps : List Piece} {p : Piece} {t : ℝ} (begun : ∀ q ∈ ps, (q.1 : ℝ) ≤ t)
    (last : ps.getLast? = some p) : glue ps t = p.2.sample t := by
  have all : ps.filter (fun q => (q.1 : ℝ) ≤ t) = ps := by
    rw [List.filter_eq_self]
    intro q member
    simpa using begun q member
  unfold glue
  rw [all, last]

/-- A stretch that takes over where the reference is keeps it smooth. -/
theorem glue_smooth {ps : List Piece} {p : Piece} {start : ℤ}
    (before : Smooth fun t => glue ps (max start t)) (after : Smooth p.2.sample)
    (meet : p.2.sample p.1 = glue ps p.1) : Smooth fun t => glue (ps ++ [p]) (max start t) := by
  have clamp : Continuous fun t : ℝ => max (start : ℝ) t := by fun_prop
  have taken := after.comp clamp
  intro i
  simp only [glue_snoc, apply_ite MPCJointState.q, apply_ite MPCJointState.dq, ite_apply]
  constructor
  · refine (taken i).1.if_le (before i).1 continuous_const clamp ?_
    intro t here
    change (p.2.sample (max (start : ℝ) t)).q i = (glue ps (max (start : ℝ) t)).q i
    rw [← here, meet]
  · refine (taken i).2.if_le (before i).2 continuous_const clamp ?_
    intro t here
    change (p.2.sample (max (start : ℝ) t)).dq i = (glue ps (max (start : ℝ) t)).dq i
    rw [← here, meet]

/-- The planner numbers its plans from one. -/
def Numbered (es : OutputTrace) : Prop :=
  ∀ e ∈ es, ∀ x plan, e.action = .iterate x → x.plan = .fresh plan → plan.generation ≠ 0

/-- The first stretch begins at a measurement. -/
def StartsAt (es : OutputTrace) (time : ℤ) (state : MPCJointState) : Prop :=
  ∃ e ∈ es, ∃ x m, e.action = .iterate x ∧ x.now = time ∧ x.measurement = some m ∧
    state = ⟨m.q, m.dq⟩

/-- The loop and the reference so far. -/
structure Pieced (c : MPCControlConfig) (es : OutputTrace) (s : Output) : Prop where
  waiting : s.pc = .waiting → pieces c es = []
  joined : ∀ l, s.pc = .looping l → l.Joined
  numbered : ∀ l, s.pc = .looping l → l.fresh.generation = 0 → l.active.generation = 0
  running : ∀ l, s.pc = .looping l → (pieces c es = [] ↔ l.active.generation = 0)
  begun : ∀ p ∈ pieces c es, p.1 ≤ s.clock
  ends : ∀ p ∈ pieces c es, p.2.Joined
  current : ∀ l p, s.pc = .looping l → (pieces c es).getLast? = some p → l.sample = p.2.sample
  smooth : ∀ p, (pieces c es).head? = some p → Smooth fun t => reference c es (max p.1 t)
  first : ∀ p, (pieces c es).head? = some p → StartsAt es p.1 (reference c es p.1)

theorem pieces_snoc (c : MPCControlConfig) (es : OutputTrace)
    (e : Entry Output OutputAction OutputEvent) :
    pieces c (es ++ [e]) = pieces c es ++ (settledAt c e).toList := by
  cases settled : settledAt c e <;> simp [pieces, List.filterMap_append, settled]

theorem StartsAt.snoc {es : OutputTrace} {e : Entry Output OutputAction OutputEvent} {time : ℤ}
    {state : MPCJointState} (starts : StartsAt es time state) : StartsAt (es ++ [e]) time state := by
  obtain ⟨entry, member, rest⟩ := starts
  exact ⟨entry, by simp [member], rest⟩

section Step
variable {c : MPCControlConfig} {es : OutputTrace} {s t : Output} {l next : Loop} {x : Iteration}
  {m : MPCMeasurement}

/-- A step that begins no stretch. -/
theorem Pieced.silent {e : Entry Output OutputAction OutputEvent} (before : Pieced c es s)
    (none : settledAt c e = none) (later : s.clock ≤ t.clock)
    (waiting : t.pc = .waiting → pieces c es = [])
    (loop : ∀ l, t.pc = .looping l → l.Joined ∧ (l.fresh.generation = 0 → l.active.generation = 0) ∧
      pieces c es = [] ∧ l.active.generation = 0) : Pieced c (es ++ [e]) t := by
  have same : pieces c (es ++ [e]) = pieces c es := by simp [pieces_snoc, none]
  have same' : reference c (es ++ [e]) = reference c es := by simp only [reference, same]
  refine ⟨?_, ?_, ?_, ?_, ?_, ?_, ?_, ?_, ?_⟩
  · rw [same]
    exact waiting
  · exact fun l looping => (loop l looping).1
  · exact fun l looping => (loop l looping).2.1
  · intro l looping
    rw [same]
    exact iff_of_true (loop l looping).2.2.1 (loop l looping).2.2.2
  · rw [same]
    exact fun p member => (before.begun p member).trans later
  · rw [same]
    exact before.ends
  · intro l p looping last
    rw [same, (loop l looping).2.2.1] at last
    cases last
  · rw [same, same']
    exact before.smooth
  · intro p head
    rw [same] at head
    rw [same']
    exact (before.first p head).snoc

/-- The loop after an iteration that settled on a plan. -/
theorem settle_loop (valid : c.Valid) (ordered : x.ordered s.clock) (looping : s.pc = .looping l)
    (before : Pieced c es s) (fresh : ∀ plan, x.plan = .fresh plan → plan.generation ≠ 0)
    (settled : l.settle c x = .ok (next, m)) :
    next.Joined ∧ (next.fresh.generation = 0 → next.active.generation = 0) ∧
      (next.active.generation = 0 → l.active.generation = 0) ∧
      (next.active.generation ≠ 0 → next.sample x.now = l.anchor x.now m) := by
  obtain ⟨cached, received, switched⟩ := (Loop.settle_reached settled).received
  obtain ⟨-, active, bridge, start, -⟩ := Loop.receive_some received
  have joined := Loop.joined_congr active bridge start (before.joined l looping)
  have numbered : cached.fresh.generation = 0 → cached.active.generation = 0 := by
    cases read : x.plan with
    | fresh plan =>
      rw [read] at received
      cases received
      exact fun zero => absurd zero (fresh plan read)
    | noData =>
      rw [read] at received
      cases received
      exact before.numbered l looping
    | failed =>
      rw [read] at received
      cases received
  have anchors : cached.anchor x.now m = l.anchor x.now m := by
    simp only [Loop.anchor, active, Loop.sample_congr active bridge start]
  refine ⟨Loop.switch_joined valid ordered.2.1 switched joined, ?_⟩
  rcases Loop.switch_cases switched with ⟨rfl, same⟩ | ⟨new, -, rfl⟩
  · refine ⟨numbered, by rw [active]; exact id, ?_⟩
    intro running
    rw [active] at running
    rw [Loop.anchor, if_pos running, Loop.sample_congr active bridge start]
  · refine ⟨id, ?_, ?_⟩
    · intro zero
      exact absurd (Eq.trans zero (numbered zero).symm) new
    · intro _
      rcases Loop.switch_handoff switched with same | handoff
      · exact absurd (congrArg (·.active.generation) same) new
      · exact handoff.trans anchors

/-- A stretch that begins at an iteration. -/
theorem Pieced.extend {e : Entry Output OutputAction OutputEvent} (before : Pieced c es s)
    (looping : s.pc = .looping l) (later : s.clock ≤ x.now) (ends : x.now ≤ t.clock)
    (action : e.action = .iterate x) (measured : x.measurement = some m)
    (piece : settledAt c e = some (x.now, next)) (joined : next.Joined)
    (handoff : next.sample x.now = l.anchor x.now m)
    (looping' : t.pc ≠ .waiting)
    (loop : ∀ l, t.pc = .looping l → l.Joined ∧ (l.fresh.generation = 0 → l.active.generation = 0) ∧
      l.active.generation ≠ 0 ∧ l.sample = next.sample) : Pieced c (es ++ [e]) t := by
  have longer : pieces c (es ++ [e]) = pieces c es ++ [(x.now, next)] := by
    simp [pieces_snoc, piece]
  have begun : ∀ p ∈ pieces c es, (p.1 : ℝ) ≤ x.now := by
    intro p member
    exact_mod_cast (before.begun p member).trans later
  -- the reference is continued where it was, or begins at the measurement
  have meet (p : Piece) (last : (pieces c es).getLast? = some p) :
      next.sample x.now = glue (pieces c es) x.now := by
    have running : l.active.generation ≠ 0 := by
      intro zero
      rw [(before.running l looping).mpr zero] at last
      cases last
    rw [handoff, Loop.anchor, if_pos running, before.current l p looping last, glue_last begun last]
  refine ⟨fun waiting => absurd waiting looping', fun l looping => (loop l looping).1,
    fun l looping => (loop l looping).2.1, ?_, ?_, ?_, ?_, ?_, ?_⟩
  · intro l looping
    rw [longer]
    exact iff_of_false (by simp) (loop l looping).2.2.1
  · intro p member
    rw [longer] at member
    rcases List.mem_append.mp member with old | new
    · exact ((before.begun p old).trans later).trans ends
    · rw [List.mem_singleton.mp new]
      exact ends
  · intro p member
    rw [longer] at member
    rcases List.mem_append.mp member with old | new
    · exact before.ends p old
    · rw [List.mem_singleton.mp new]
      exact joined
  · intro l p looping last
    rw [longer, List.getLast?_append, List.getLast?_singleton, Option.some_or,
      Option.some.injEq] at last
    rw [(loop l looping).2.2.2, ← last]
  · intro p head
    unfold reference
    rw [longer] at head ⊢
    cases old : pieces c es with
    | nil =>
      rw [old] at head
      obtain rfl : (x.now, next) = p := Option.some.inj head
      have after := joined.smooth.comp (show Continuous fun t : ℝ => max (x.now : ℝ) t by fun_prop)
      have alone (t : ℝ) :
          glue [(x.now, next)] (max (x.now : ℝ) t) = next.sample (max (x.now : ℝ) t) := by
        have begins : ∀ q ∈ [(x.now, next)], (q.1 : ℝ) ≤ max (x.now : ℝ) t := by simp
        exact glue_last begins rfl
      intro i
      simp only [List.nil_append, alone]
      exact after i
    | cons q rest =>
      have first : (pieces c es).head? = some p := by
        rw [old] at head ⊢
        exact head
      obtain ⟨last, ended⟩ : ∃ last, (pieces c es).getLast? = some last := by
        rw [old, List.getLast?_cons]
        exact ⟨_, rfl⟩
      rw [← old]
      exact glue_smooth (before.smooth p first) joined.smooth (meet last ended)
  · intro p head
    unfold reference
    rw [longer] at head ⊢
    rw [glue_snoc]
    cases old : pieces c es with
    | nil =>
      rw [old] at head
      obtain rfl : (x.now, next) = p := Option.some.inj head
      have idle : l.active.generation = 0 := (before.running l looping).mp old
      rw [if_pos le_rfl, handoff, Loop.anchor, if_neg (not_not.mpr idle)]
      exact ⟨e, by simp, x, m, action, rfl, measured, rfl⟩
    | cons q rest =>
      have first : (pieces c es).head? = some p := by
        rw [old] at head ⊢
        exact head
      obtain ⟨last, ended⟩ : ∃ last, (pieces c es).getLast? = some last := by
        rw [old, List.getLast?_cons]
        exact ⟨_, rfl⟩
      have starts := (before.first p first).snoc (e := e)
      rw [← old]
      split
      · rename_i already
        have here : (p.1 : ℝ) = x.now :=
          le_antisymm (begun p (List.mem_of_mem_head? first)) already
        rw [here, meet last ended, ← here]
        exact starts
      · exact starts

theorem Pieced.step (valid : c.Valid) {a : OutputAction} {event : OutputEvent}
    (before : Pieced c es s) (numbered : Numbered [⟨s, a, event, t⟩])
    (stepped : s.step c a = some (t, event)) : Pieced c (es ++ [⟨s, a, event, t⟩]) t := by
  cases a with
  | start now firstTarget =>
    simp only [Output.step] at stepped
    split at stepped
    · rename_i waiting
      split at stepped <;> cases stepped
      rename_i order
      have quiet : settledAt c ⟨s, .start now firstTarget, .quiet,
          ⟨.looping ⟨now, firstTarget, {}, {}, none, 0, none⟩, now⟩⟩ = none := by
        simp [settledAt]
      refine before.silent quiet order ?_ ?_
      · intro still
        cases still
      · rintro l ⟨⟩
        refine ⟨?_, fun _ => rfl, before.waiting waiting, rfl⟩
        intro bridge installed
        cases installed
    · cases stepped
  | iterate x =>
    have fresh (plan : MPCPlan) (read : x.plan = .fresh plan) : plan.generation ≠ 0 :=
      numbered ⟨s, .iterate x, event, t⟩ (by simp) x plan rfl read
    simp only [Output.step] at stepped
    split at stepped
    · rename_i l looping
      split at stepped
      · rename_i ordered
        simp only [Option.some.injEq, Prod.mk.injEq] at stepped
        obtain ⟨rfl, -⟩ := stepped
        have later : s.clock ≤ x.done :=
          ((ordered.1.trans ordered.2.1).trans ordered.2.2.1).trans ordered.2.2.2
        rcases outcome : l.settle c x with reason | ⟨next, m⟩
        · have ended : (l.iterate c x).2 = .error reason := by simp [Loop.iterate, outcome]
          refine before.silent (by simp [settledAt, looping, outcome]) later (by simp [ended]) ?_
          simp [ended]
        · obtain ⟨joined, counted, kept, handoff⟩ :=
            settle_loop valid ordered looping before fresh outcome
          have output : l.iterate c x = next.output c x m := by simp [Loop.iterate, outcome]
          -- what the next iteration starts from
          have goes (after : Loop) (continued : (next.output c x m).2 = .ok after) :
              after.Joined ∧ (after.fresh.generation = 0 → after.active.generation = 0) ∧
                after.active = next.active ∧ after.sample = next.sample := by
            obtain ⟨previous, rfl⟩ := Loop.output_ok continued
            exact ⟨Loop.joined_congr rfl rfl rfl joined, counted, rfl, Loop.sample_congr rfl rfl rfl⟩
          rw [output]
          by_cases running : next.active.generation = 0
          · have idle := (before.running l looping).mpr (kept running)
            refine before.silent (by simp [settledAt, looping, outcome, running]) later ?_ ?_
            · exact fun _ => idle
            · intro after continued
              cases ended : (next.output c x m).2 with
              | error reason => simp [ended] at continued
              | ok loop =>
                simp only [ended, OutputPc.looping.injEq] at continued
                obtain ⟨joined, counted, active, -⟩ := goes loop ended
                exact continued ▸ ⟨joined, counted, idle, by rw [active]; exact running⟩
          · have measured := (Loop.settle_reached outcome).measured
            refine before.extend looping ordered.1
              ((ordered.2.1.trans ordered.2.2.1).trans ordered.2.2.2) rfl measured
              (by simp [settledAt, looping, outcome, running]) joined (handoff running) ?_ ?_
            · cases (next.output c x m).2 <;> simp
            · intro after continued
              cases ended : (next.output c x m).2 with
              | error reason => simp [ended] at continued
              | ok loop =>
                simp only [ended, OutputPc.looping.injEq] at continued
                obtain ⟨joined, counted, active, sample⟩ := goes loop ended
                exact continued ▸ ⟨joined, counted, by rw [active]; exact running, sample⟩
      · cases stepped
    · cases stepped

end Step

theorem pieced_of_run {c : MPCControlConfig} (valid : c.Valid) {es : OutputTrace} {s : Output}
    (run : Run (outputMachine c) es s) (numbered : Numbered es) : Pieced c es s := by
  induction run with
  | nil =>
    have empty : pieces c [] = [] := rfl
    constructor <;> simp [outputMachine, empty]
  | snoc before stepped ih =>
    have earlier := ih fun e member => numbered e (List.mem_append_left _ member)
    refine earlier.step valid ?_ stepped
    intro e member
    exact numbered e (List.mem_append_right _ member)

/-- From the first plan on the reference is continuous in position and velocity, whatever
plans follow; it begins at the measurement, every bridge ends on its plan, and no command is
taken past its plan's last knot. -/
theorem reference_c1 {c : MPCControlConfig} (valid : c.Valid) {es : OutputTrace} {s : Output}
    (run : Run (outputMachine c) es s) (numbered : Numbered es) :
    (∀ p, (pieces c es).head? = some p →
      Smooth (fun t => reference c es (max p.1 t)) ∧ StartsAt es p.1 (reference c es p.1)) ∧
    (∀ p ∈ pieces c es, Smooth p.2.sample ∧ ∀ bridge, p.2.bridge = some bridge →
      seconds (p.2.bridgeStart - p.2.active.origin) + MPCPlan.dt ≤ MPCPlan.horizon) ∧
    ∀ past e rest x command state active, es = past ++ e :: rest → e.action = .iterate x →
      e.event = .sent command state active →
      seconds (x.now - active.origin) ≤ MPCPlan.horizon ∧
        state = reference c (past ++ [e]) x.now := by
  have whole := pieced_of_run valid run numbered
  refine ⟨fun p head => ⟨whole.smooth p head, whole.first p head⟩, ?_, ?_⟩
  · intro p member
    exact ⟨(whole.ends p member).smooth, fun bridge held => (whole.ends p member bridge held).1⟩
  · rintro past e rest x command state active rfl action sent
    obtain ⟨before, stepped⟩ := run.entry
    obtain ⟨start, act, event, after⟩ := e
    obtain rfl : act = .iterate x := action
    obtain rfl : event = .sent command state active := sent
    simp only [outputMachine, Output.step] at stepped
    split at stepped
    · rename_i l looping
      split at stepped
      · rename_i ordered
        simp only [Option.some.injEq, Prod.mk.injEq] at stepped
        obtain ⟨-, told⟩ := stepped
        rcases Loop.iterate_cases c l x with ⟨reason, early⟩ | ⟨m, settled, settling, late⟩
        · rw [early] at told
          cases told
        · rw [late] at told
          obtain ⟨rfl, sent⟩ := Loop.output_sent told
          obtain ⟨cached, -, switched⟩ := (Loop.settle_reached settling).received
          have age := (Loop.switch_settled switched).age sent.running
          constructor
          · have room := horizon_of_age valid ordered.2.1 age
            linarith [MPCPlan.dt_pos]
          · have piece : settledAt c ⟨start, .iterate x, .sent command state settled.active, after⟩ =
                some (x.now, settled) := by
              simp [settledAt, looping, settling, sent.running]
            rw [reference, pieces_snoc, piece, Option.toList_some, glue_snoc, if_pos le_rfl]
            exact sent.sampled
      · cases stepped
    · cases stepped

theorem reference_c1_still : ∃ next es, es = [stillStart] ++ stillOutput next :: [] ∧
    (pieces {} es).head? = some (1, bridgedLoop) ∧
    Smooth (fun t => reference {} es (max 1 t)) ∧ StartsAt es 1 (reference {} es 1) := by
  obtain ⟨next, run⟩ := still_run
  have numbered : Numbered ([stillStart] ++ stillOutput next :: []) := by
    intro e member x plan action read
    rcases List.mem_append.mp member with start | output
    · rw [List.mem_singleton.mp start] at action
      cases action
    · rw [List.mem_singleton.mp output] at action
      cases action
      cases read
      decide
  have first : (pieces {} ([stillStart] ++ stillOutput next :: [])).head? = some (1, bridgedLoop) := by
    have none : settledAt {} stillStart = none := rfl
    have some : settledAt {} (stillOutput next) = some (1, bridgedLoop) := by
      simp only [settledAt, stillOutput, stillSettled]
      rfl
    simp [pieces, none, some]
  obtain ⟨smooth, starts⟩ :=
    (reference_c1 MPCControlConfig.default_valid run numbered).1 _ first
  exact ⟨next, _, rfl, first, by simpa using smooth, by simpa using starts⟩

end Florid.Mpc

end
