import Florid.Arm.Operations
import Florid.Wirelink.RequestLife

/-! Who is responsible for a slot. While every wait that gives up and every take finds
its operation terminal, each public slot in use belongs to a thread that will take it. -/
namespace Florid.Arm
open Transition Wirelink

/-- Every way an action of the arm can go. -/
inductive Moves (s : State) : ArmAction → State → Option Event → Prop where
  | start {t m} : s.threads t = .idle →
      Moves s (.start t m) (s.setThread s.world t (.entering m.program)) none
  | refused {t use next w status} : s.threads t = .calling use next →
      s.world.step (.call t use.call) = some (w, .refused status) →
      Moves s (.call t) (s.setThread w t (.entering (next false))) (some (.refused status))
  | called {t use next w event} : s.threads t = .calling use next →
      s.world.step (.call t use.call) = some (w, event) → (∀ status, event ≠ .refused status) →
      Moves s (.call t) (s.setThread w t (.submitting use next)) (some event)
  | blocked {t use next w internal sub result} : s.threads t = .submitting use next →
      s.world.step (.gate t) = some (w, .submitted internal sub result) →
      Moves s (.gate t) (s.setThread w t (.entering (next false)))
        (some (.submitted internal sub result))
  | passed {t use next w event} : s.threads t = .submitting use next →
      s.world.step (.gate t) = some (w, event) →
      (∀ internal sub result, event ≠ .submitted internal sub result) →
      Moves s (.gate t) (s.setThread w t (.submitting use next)) (some event)
  | submitted {t clock use next w internal sub result} : s.threads t = .submitting use next →
      s.world.step (.submit t clock) = some (w, .submitted internal sub result) →
      Moves s (.submit t clock) (s.setThread w t
          (if result.status = .ok then .waiting result.requestId use next
            else .entering (next false)))
        (some (.submitted internal sub result))
  | waited {t expired id use next w taken} : s.threads t = .waiting id use next →
      s.world.step (.wait id expired) = some (w, .observed taken) →
      Moves s (.wait t expired) (s.setThread w t
          (if use.collect = .required ∧ taken.status = .busy then .entering (next false)
            else .taking id use next (taken.status == .ok)))
        (some (.observed taken))
  | took {t id use next waited w taken} : s.threads t = .taking id use next waited →
      s.world.step (.take use.collect.takeKind id) = some (w, .took taken) →
      Moves s (.take t) (s.setThread w t (.entering (next
          (taken.status == .ok && (waited || use.collect == .required)))))
        (some (.took taken))
  | endpoint {a w event} : environment a = true → s.world.step a = some (w, event) →
      Moves s (.endpoint a) { s with world := w } (some event)

theorem step_moves {s next : State} {a : ArmAction} {event : Option Event}
    (stepped : s.step a = some (next, event)) : Moves s a next event := by
  cases a with
  | start t m =>
    simp only [State.step] at stepped
    split at stepped <;> cases stepped
    exact .start ‹_›
  | call t =>
    simp only [State.step] at stepped
    split at stepped
    · split at stepped <;> cases stepped
      · exact .refused ‹_› ‹_›
      · rename_i other made
        refine .called ‹_› made ?_
        rintro status rfl
        exact other _ rfl
    · cases stepped
  | gate t =>
    simp only [State.step] at stepped
    split at stepped
    · split at stepped <;> cases stepped
      · exact .blocked ‹_› ‹_›
      · rename_i other made
        refine .passed ‹_› made ?_
        rintro internal sub result rfl
        exact other _ _ _ rfl
    · cases stepped
  | submit t clock =>
    simp only [State.step] at stepped
    split at stepped
    · split at stepped <;> cases stepped
      exact .submitted ‹_› ‹_›
    · cases stepped
  | wait t expired =>
    simp only [State.step] at stepped
    split at stepped
    · split at stepped <;> cases stepped
      exact .waited ‹_› ‹_›
    · cases stepped
  | take t =>
    simp only [State.step] at stepped
    split at stepped
    · split at stepped <;> cases stepped
      exact .took ‹_› ‹_›
    · cases stepped
  | endpoint a =>
    simp only [State.step] at stepped
    split at stepped
    · simp only [Option.map_eq_some_iff, Prod.mk.injEq] at stepped
      obtain ⟨⟨w, event⟩, made, rfl, rfl⟩ := stepped
      exact .endpoint ‹_› made
    · cases stepped

/-- The thread an action of the arm belongs to. -/
def ArmAction.thread : ArmAction → Option Nat
  | .start t _ | .call t | .gate t | .submit t _ | .wait t _ | .take t => some t
  | .endpoint _ => none

namespace Moves
variable {s next : State} {a : ArmAction} {event : Option Event}

theorem thread_frame (moved : Moves s a next event) {t : Nat} (other : a.thread ≠ some t) :
    next.threads t = s.threads t := by
  cases moved with
  | endpoint => rfl
  | start | refused | called | blocked | passed | submitted | waited | took =>
    refine Function.update_of_ne ?_ _ _
    rintro rfl
    exact other rfl

/-- A step of the arm is a step of the endpoint or leaves it alone. -/
theorem world (moved : Moves s a next event) :
    event = none ∧ next.world = s.world ∨
      ∃ b made, event = some made ∧ s.world.step b = some (next.world, made) := by
  cases moved with
  | start => exact .inl ⟨rfl, rfl⟩
  | refused _ made | called _ made | blocked _ made | passed _ made | submitted _ made
  | waited _ made | took _ made | endpoint _ made => exact .inr ⟨_, _, rfl, made⟩

end Moves

/-- A history of the arm. -/
abbrev ArmTrace := List (Entry State ArmAction (Option Event))

def armSubmissions (es : ArmTrace) : Nat := es.countP fun e => e.event.any Event.accepted

theorem armSubmissions_snoc (es : ArmTrace) (e : Entry State ArmAction (Option Event)) :
    armSubmissions (es ++ [e]) =
      armSubmissions es + if e.event.any Event.accepted then 1 else 0 := by
  simp [armSubmissions, List.countP_append, List.countP_cons]

/-- The endpoint under the arm runs as the endpoint alone does. -/
theorem world_run {es : ArmTrace} {s : State} (run : Run armMachine es s) :
    ∃ fs, Run machine fs s.world ∧ submissions fs = armSubmissions es := by
  induction run with
  | nil => exact ⟨[], .nil, rfl⟩
  | snoc before stepped ih =>
    obtain ⟨fs, inner, count⟩ := ih
    rcases (step_moves stepped).world with ⟨rfl, same⟩ | ⟨b, made, rfl, inside⟩
    · refine ⟨fs, same ▸ inner, ?_⟩
      rw [armSubmissions_snoc, count]
      rfl
    · refine ⟨_, .snoc inner inside, ?_⟩
      rw [armSubmissions_snoc, submissions_snoc, count]
      rfl

/-! ### What a thread submits -/

theorem ThreadPc.entering_ne (p : Program) (use : Use) (rest : Bool → Program) :
    ThreadPc.entering p ≠ .submitting use rest := by
  cases p <;> simp [entering]

@[simp] theorem ThreadPc.entering_holding (p : Program) : (ThreadPc.entering p).holding = none := by
  cases p <;> rfl

/-- A thread in `s_submit` is submitting the operation of its call. -/
def Submitting (s : State) : Prop :=
  ∀ t use next, s.threads t = .submitting use next →
    ∀ sub, (s.world.callers t).submission = some sub → sub.kind = use.call.kind

namespace Submitting
variable {s next : State} {a : ArmAction} {event : Option Event}

/-- Another thread's step leaves what thread `u` submits alone. -/
theorem other (held : Submitting s) {t u : Nat} (apart : u ≠ t) {b : Action} {w : World}
    {made : Event} {pc : ThreadPc} (stepped : s.world.step b = some (w, made))
    (mine : b.thread = some t ∨ b.thread = none) {use : Use} {rest : Bool → Program}
    (at' : (s.setThread w t pc).threads u = .submitting use rest) {sub : Submission}
    (pending : (w.callers u).submission = some sub) : sub.kind = use.call.kind := by
  have frame : w.callers u = s.world.callers u := by
    refine (Wirelink.step_moves stepped).caller_frame ?_
    rcases mine with h | h <;> simp [h, apart.symm]
  refine held u use rest ?_ sub (frame ▸ pending)
  simpa [State.setThread, Function.update_of_ne apart] using at'

/-- A thread that moves out of `s_submit`. -/
theorem leave (held : Submitting s) {t : Nat} {b : Action} {w : World} {made : Event}
    {pc : ThreadPc} (stepped : s.world.step b = some (w, made))
    (mine : b.thread = some t ∨ b.thread = none) (outside : ∀ use rest, pc ≠ .submitting use rest) :
    Submitting (s.setThread w t pc) := by
  intro u use rest at' sub pending
  by_cases same : u = t
  · subst same
    simp only [State.setThread, Function.update_self] at at'
    exact absurd at' (outside use rest)
  · exact held.other same stepped mine at' pending

theorem moves (held : Submitting s) (moved : Moves s a next event) : Submitting next := by
  cases moved with
  | start idle =>
    rename_i t m
    intro u use rest at' sub pending
    by_cases same : u = t
    · subst same
      simp only [State.setThread, Function.update_self] at at'
      exact absurd at' (ThreadPc.entering_ne _ use rest)
    · exact held u use rest (by simpa [State.setThread, Function.update_of_ne same] using at') sub
        pending
  | called calling made unrefused =>
    rename_i t use next w event
    intro u use' rest at' sub pending
    by_cases same : u = t
    · subst same
      simp only [State.setThread, Function.update_self, ThreadPc.submitting.injEq] at at'
      obtain ⟨rfl, rfl⟩ := at'
      cases Wirelink.step_moves made with
      | refused => exact absurd rfl (unrefused _)
      | called _ prepared =>
        simp only [State.setThread, World.setCaller, Function.update_self, CallerPc.submission,
          Option.some.injEq] at pending
        subst pending
        exact Call.prepare_kind prepared
    · exact held.other same made (.inl rfl) at' pending
  | passed submitting made unsubmitted =>
    rename_i t use next w event
    intro u use' rest at' sub pending
    by_cases same : u = t
    · subst same
      simp only [State.setThread, Function.update_self, ThreadPc.submitting.injEq] at at'
      obtain ⟨rfl, rfl⟩ := at'
      rcases (Wirelink.step_moves made).submission_cases pending with earlier | ⟨c, call, -⟩
      · exact held u use next submitting sub earlier
      · cases call
    · exact held.other same made (.inl rfl) at' pending
  | endpoint outside made =>
    intro u use rest at' sub pending
    rcases (Wirelink.step_moves made).submission_cases pending with earlier | ⟨c, rfl, -⟩
    · exact held u use rest at' sub earlier
    · cases outside
  | refused _ made | blocked _ made | took _ made =>
    exact held.leave made (by simp [Action.thread]) (ThreadPc.entering_ne _)
  | submitted _ made =>
    refine held.leave made (.inl rfl) ?_
    split
    · simp
    · exact ThreadPc.entering_ne _
  | waited _ made =>
    refine held.leave made (.inr rfl) ?_
    split
    · exact ThreadPc.entering_ne _
    · simp

theorem of_run {es : ArmTrace} (run : Run armMachine es s) : Submitting s := by
  refine run.invariant (P := Submitting) ?_ ?_
  · intro t use rest at'
    cases at'
  · intro s a event next held stepped
    exact held.moves (step_moves stepped)

end Submitting

/-! ### Who takes which slot -/

/-- A call gives an operation up only when the operation has ended: its wait does not
end busy before a failed `s_requireOperation`, and its take does not find it pending. -/
def timely (s : State) : ArmAction → Bool
  | .wait t true =>
    match s.threads t with
    | .waiting id use _ => use.collect != .required || s.world.endpoint.ended id
    | _ => true
  | .take t =>
    match s.threads t with
    | .taking id _ _ _ => s.world.endpoint.ended id
    | _ => true
  | _ => true

theorem holding_setThread {s : State} {w : World} {t : Nat} {pc : ThreadPc}
    (same : pc.holding = (s.threads t).holding) (u : Nat) :
    ((s.setThread w t pc).threads u).holding = (s.threads u).holding := by
  by_cases mine : u = t
  · subst mine
    simpa [State.setThread] using same
  · simp [State.setThread, Function.update_of_ne mine]

/-- Besides the blocking calls only renewals are submitted. -/
theorem environment_internal {w next : World} {b : Action} {internal : Bool} {sub : Submission}
    {result : FciSubmitResult} (outside : environment b = true)
    (moved : Wirelink.Moves w b next (.submitted internal sub result)) : internal = true := by
  generalize made : Event.submitted internal sub result = event at moved
  cases moved with
  | blocked | rejected | queued => cases outside
  | renewalRejected | renewalQueued =>
    cases made
    rfl
  | _ => cases made

/-- After `n` submissions every public slot is held by a thread whose take accepts it. -/
structure Responsible (n : Nat) (s : State) : Prop where
  fits : ∀ t id use, (s.threads t).holding = some (id, use) → id ≤ n ∧
    ∀ i, (s.world.endpoint.operations i).used = true →
      (s.world.endpoint.operations i).requestId = id →
      use.collect.takeKind.accepts (s.world.endpoint.operations i).kind = true
  owned : ∀ i, (s.world.endpoint.operations i).used = true →
    (s.world.endpoint.operations i).internal = false →
    ∃ t use, (s.threads t).holding = some ((s.world.endpoint.operations i).requestId, use)

namespace Responsible
variable {n : Nat} {s next : State} {a : ArmAction} {event : Option Event}

/-- A step without a submission; a thread may let go of an id that has no slot left. -/
theorem quiet (held : Responsible n s) (inv : SlotsInv s.world) {b : Action} {made : Event}
    (stepped : s.world.step b = some (next.world, made)) (unaccepted : made.accepted = false)
    (fewer : ∀ t id use, (next.threads t).holding = some (id, use) →
      (s.threads t).holding = some (id, use))
    (kept : ∀ i, (next.world.endpoint.operations i).used = true → ∀ t use,
      (s.threads t).holding = some ((next.world.endpoint.operations i).requestId, use) →
      (next.threads t).holding = some ((next.world.endpoint.operations i).requestId, use)) :
    Responsible n next := by
  have earlier i := (inv.slot_change (Wirelink.step_moves stepped) i).same_operation unaccepted
  refine ⟨?_, ?_⟩
  · intro t id use holding
    obtain ⟨older, accepts⟩ := held.fits t id use (fewer t id use holding)
    refine ⟨older, ?_⟩
    intro i used same
    obtain ⟨before, sameId, -, sameKind⟩ := earlier i used
    rw [sameKind]
    exact accepts i before (sameId ▸ same)
  · intro i used isPublic
    obtain ⟨before, sameId, sameOwner, -⟩ := earlier i used
    obtain ⟨t, use, holding⟩ := held.owned i before (sameOwner ▸ isPublic)
    exact ⟨t, use, kept i used t use (sameId ▸ holding)⟩

/-- A submission; a public one is held by the thread that made it. -/
theorem accept (held : Responsible n s) (ids : IdsInv n s.world) (bound : n + 1 < 2 ^ 64)
    {b : Action} {internal : Bool} {sub : Submission} {result : FciSubmitResult}
    (stepped : s.world.step b = some (next.world, .submitted internal sub result))
    (accepted : result.status = .ok)
    (holders : ∀ t id use, (next.threads t).holding = some (id, use) →
      (s.threads t).holding = some (id, use) ∨
        id = result.requestId ∧ use.collect.takeKind.accepts sub.kind = true)
    (kept : ∀ t id use, (s.threads t).holding = some (id, use) →
      (next.threads t).holding = some (id, use))
    (new : internal = false → ∃ t use, (next.threads t).holding = some (result.requestId, use)) :
    Responsible (n + 1) next := by
  obtain ⟨internal', sub', clock, i, made, -, free, filled, -⟩ :=
    (Wirelink.step_moves stepped).accepted (by simp [Event.accepted, accepted])
  cases made
  dsimp only at holders new
  have nextId := ids.next_id bound
  have slot j : j ≠ i → next.world.endpoint.operations j = s.world.endpoint.operations j := by
    intro apart
    rw [filled, Function.update_of_ne apart]
  refine ⟨?_, ?_⟩
  · intro t id use holding
    rcases holders t id use holding with before | ⟨rfl, fits⟩
    · obtain ⟨older, accepts⟩ := held.fits t id use before
      refine ⟨by omega, ?_⟩
      intro j used same
      by_cases mine : j = i
      · subst mine
        rw [filled] at same
        simp only [Function.update_self, Endpoint.submittedSlot] at same
        omega
      · rw [slot j mine] at used same ⊢
        exact accepts j used same
    · refine ⟨by omega, ?_⟩
      intro j used same
      by_cases mine : j = i
      · subst mine
        rw [filled]
        simpa [Endpoint.submittedSlot] using fits
      · rw [slot j mine] at used same
        have := (ids.bounds j used).2
        omega
  · intro j used isPublic
    by_cases mine : j = i
    · subst mine
      rw [filled] at isPublic ⊢
      simp only [Function.update_self, Endpoint.submittedSlot] at isPublic ⊢
      exact new isPublic
    · rw [slot j mine] at used isPublic ⊢
      obtain ⟨t, use, holding⟩ := held.owned j used isPublic
      exact ⟨t, use, kept t _ use holding⟩

/-- A step after which every thread holds what it held. -/
theorem same_holders (held : Responsible n s) (inv : SlotsInv s.world) {b : Action} {made : Event}
    (stepped : s.world.step b = some (next.world, made)) (unaccepted : made.accepted = false)
    (same : ∀ t, (next.threads t).holding = (s.threads t).holding) : Responsible n next := by
  refine held.quiet inv stepped unaccepted ?_ ?_
  · intro t id use holding
    rw [← same]
    exact holding
  · intro i used t use holding
    rw [same]
    exact holding

theorem waited (held : Responsible n s) (inv : SlotsInv s.world) (idle : NeverBusy s.world)
    {t id : Nat} {expired : Bool} {use : Use} {rest : Bool → Program} {w : World}
    {taken : Endpoint.Taken} (waiting : s.threads t = .waiting id use rest)
    (made : s.world.step (.wait id expired) = some (w, .observed taken))
    (prompt : timely s (.wait t expired) = true) :
    Responsible n (s.setThread w t
      (if use.collect = .required ∧ taken.status = .busy then .entering (rest false)
        else .taking id use rest (taken.status == .ok))) := by
  have patient : ¬(use.collect = .required ∧ taken.status = .busy) := by
    rintro ⟨required, busy⟩
    have answered : s.world.endpoint.waitOperation id expired = some taken := by
      cases Wirelink.step_moves made with
      | waited answered => exact answered
    unfold Endpoint.waitOperation at answered
    split at answered
    · cases answered
      cases busy
    · rename_i i found
      dsimp only at answered
      split at answered
      · cases answered
        exact idle.slots i busy
      · rename_i live
        split at answered
        · rename_i late
          subst late
          simp [timely, waiting, required, Endpoint.ended, found, live] at prompt
        · cases answered
  rw [if_neg patient]
  refine held.same_holders (b := .wait id expired) inv made rfl ?_
  exact holding_setThread (by rw [waiting]; rfl)

/-- A take of an ended operation empties its slot, so its thread may forget the id. -/
theorem took (held : Responsible n s) (inv : SlotsInv s.world) (ids : IdsInv n s.world)
    {t id : Nat} {use : Use} {rest : Bool → Program} {waited : Bool} {w : World}
    {taken : Endpoint.Taken} {p : Program} (taking : s.threads t = .taking id use rest waited)
    (made : s.world.step (.take use.collect.takeKind id) = some (w, .took taken))
    (prompt : timely s (.take t) = true) : Responsible n (s.setThread w t (.entering p)) := by
  have holds : (s.threads t).holding = some (id, use) := by rw [taking]; rfl
  have ended : s.world.endpoint.ended id = true := by simpa [timely, taking] using prompt
  have emptied : w.endpoint.Gone id := by
    cases Wirelink.step_moves made with
    | tookNothing unchanged why =>
      cases found : s.world.endpoint.findSlot id with
      | none => exact Endpoint.findSlot_none found
      | some i =>
        obtain ⟨used, same⟩ := Endpoint.findSlot_some found
        have accepts := (held.fits t id use holds).2 i used same
        have done : terminal (s.world.endpoint.operations i).state = true := by
          simpa [Endpoint.ended, found] using ended
        rcases why with rfl | ⟨j, other, live, rfl⟩
        · simp [Endpoint.take, found, accepts, done] at unchanged
        · obtain rfl : i = j := Option.some.inj (found.symm.trans other)
          simp [done] at live
    | took found =>
      rename_i i _ _
      obtain ⟨used, same⟩ := Endpoint.findSlot_some found
      intro j usedJ sameJ
      have apart : j ≠ i := by
        rintro rfl
        simp at usedJ
      simp only [Endpoint.setSlot_operations, Function.update_of_ne apart] at usedJ sameJ
      exact apart (ids.distinct j i usedJ used (sameJ.trans same.symm))
  refine held.quiet (b := .take use.collect.takeKind id) inv made rfl ?_ ?_
  · intro u id' use' holding
    by_cases mine : u = t
    · subst mine
      simp [State.setThread] at holding
    · simpa [State.setThread, Function.update_of_ne mine] using holding
  · intro i used u use' holding
    by_cases mine : u = t
    · subst mine
      rw [holds] at holding
      cases holding
      exact absurd rfl (emptied i used)
    · simpa [State.setThread, Function.update_of_ne mine] using holding

theorem submitted (held : Responsible n s) (inv : SlotsInv s.world) (ids : IdsInv n s.world)
    (kinds : Submitting s) {t : Nat} {clock : TimeMs} {use : Use} {rest : Bool → Program}
    {w : World} {internal : Bool} {sub : Submission} {result : FciSubmitResult}
    (submitting : s.threads t = .submitting use rest)
    (made : s.world.step (.submit t clock) = some (w, .submitted internal sub result))
    (bound : result.status = .ok → n + 1 < 2 ^ 64) :
    Responsible (n + if result.status = .ok then 1 else 0) (s.setThread w t
      (if result.status = .ok then .waiting result.requestId use rest
        else .entering (rest false))) := by
  have kind : sub.kind = use.call.kind := by
    refine kinds t use rest submitting sub ?_
    cases Wirelink.step_moves made with
    | rejected pc | queued pc => rw [pc]; rfl
  by_cases accepted : result.status = .ok
  · rw [if_pos accepted, if_pos accepted]
    refine held.accept (b := .submit t clock) ids (bound accepted) made accepted ?_ ?_ ?_
    · intro u id use' holding
      by_cases mine : u = t
      · subst mine
        simp only [State.setThread, Function.update_self, ThreadPc.holding, Option.some.injEq,
          Prod.mk.injEq] at holding
        obtain ⟨rfl, rfl⟩ := holding
        exact .inr ⟨rfl, kind ▸ use.fits⟩
      · exact .inl (by simpa [State.setThread, Function.update_of_ne mine] using holding)
    · intro u id use' holding
      by_cases mine : u = t
      · subst mine
        simp [submitting, ThreadPc.holding] at holding
      · simpa [State.setThread, Function.update_of_ne mine] using holding
    · intro _
      exact ⟨t, use, by simp [State.setThread, ThreadPc.holding]⟩
  · rw [if_neg accepted, if_neg accepted]
    refine held.same_holders (b := .submit t clock) inv made ?_
      (holding_setThread (by rw [submitting, ThreadPc.entering_holding]; rfl))
    simpa [Event.accepted] using accepted

theorem moves (held : Responsible n s) (inv : SlotsInv s.world) (ids : IdsInv n s.world)
    (idle : NeverBusy s.world) (kinds : Submitting s) (moved : Moves s a next event)
    (prompt : timely s a = true) (bound : event.any Event.accepted = true → n + 1 < 2 ^ 64) :
    Responsible (n + if event.any Event.accepted then 1 else 0) next := by
  cases moved with
  | start at' =>
    rename_i t m
    have same (u : Nat) : ((s.setThread s.world t (.entering m.program)).threads u).holding =
        (s.threads u).holding :=
      holding_setThread (by rw [at', ThreadPc.entering_holding]; rfl) u
    refine ⟨?_, ?_⟩ <;> simp only [same]
    · exact held.fits
    · exact held.owned
  | refused at' made =>
    exact held.same_holders (b := .call _ _) inv made rfl
      (holding_setThread (by rw [at', ThreadPc.entering_holding]; rfl))
  | called at' made =>
    rename_i t use next w event unrefused
    have quiet : event.accepted = false := by
      cases Wirelink.step_moves made <;> rfl
    simp only [Option.any_some, quiet]
    exact held.same_holders (b := .call _ _) inv made quiet
      (holding_setThread (by rw [at']; rfl))
  | blocked at' made =>
    rename_i t use next w internal sub result
    have quiet : result.status ≠ .ok := by
      cases Wirelink.step_moves made
      simp
    have unaccepted : (Event.submitted internal sub result).accepted = false := by
      simpa [Event.accepted] using quiet
    simp only [Option.any_some, unaccepted]
    exact held.same_holders (b := .gate _) inv made unaccepted
      (holding_setThread (by rw [at', ThreadPc.entering_holding]; rfl))
  | passed at' made unsubmitted =>
    rename_i t use next w event
    have quiet : event.accepted = false := by
      cases Wirelink.step_moves made with
      | blocked => exact absurd rfl (unsubmitted _ _ _)
      | passed => rfl
    simp only [Option.any_some, quiet]
    exact held.same_holders (b := .gate _) inv made quiet (holding_setThread (by rw [at']))
  | submitted at' made =>
    simp only [Option.any_some, Event.accepted, beq_iff_eq] at bound ⊢
    exact held.submitted inv ids kinds at' made bound
  | waited at' made => exact held.waited inv idle at' made prompt
  | took at' made => exact held.took inv ids at' made prompt
  | endpoint outside made =>
    rename_i b w event
    cases accepted : event.accepted
    · simp only [Option.any_some, accepted]
      exact held.same_holders (b := b) inv made accepted fun _ => rfl
    · obtain ⟨internal, sub, clock, i, rfl, -⟩ := (Wirelink.step_moves made).accepted accepted
      simp only [Option.any_some, accepted]
      refine held.accept (b := b) ids (bound accepted) made rfl (fun _ _ _ => .inl)
        (fun _ _ _ => id) ?_
      intro isPublic
      rw [environment_internal outside (Wirelink.step_moves made)] at isPublic
      cases isPublic

theorem of_run {es : ArmTrace} (run : Run armMachine es s) :
    Meets (fun s a => timely s a = true) es → armSubmissions es < 2 ^ 64 →
      Responsible (armSubmissions es) s := by
  refine run.history (P := fun es s => Meets (fun s a => timely s a = true) es →
    armSubmissions es < 2 ^ 64 → Responsible (armSubmissions es) s) ?_ ?_
  · intro _ _
    refine ⟨?_, ?_⟩
    · intro t id use holding
      cases holding
    · intro i used
      cases used
  · intro es s a event next before ih stepped met bound
    obtain ⟨earlier, last⟩ := Meets.append.mp met
    obtain ⟨fs, inner, count⟩ := world_run before
    rw [armSubmissions_snoc] at bound ⊢
    have fewer : armSubmissions es < 2 ^ 64 := by omega
    have ids := IdsInv.of_run inner (count ▸ fewer)
    rw [count] at ids
    refine (ih earlier fewer).moves (SlotsInv.of_run inner) ids (NeverBusy.of_run inner)
      (Submitting.of_run before) (step_moves stepped) (Meets.single.mp last) ?_
    intro accepted
    simpa only [accepted, if_true] using bound

end Responsible

/-- While the calls give up no operation that is still pending, an idle arm whose
operations have ended leaves every public slot free. -/
theorem slots_released {es : ArmTrace} {s : State} (run : Run armMachine es s)
    (met : Meets (fun s a => timely s a = true) es) (bound : armSubmissions es < 2 ^ 64)
    (quiet : ∀ t, s.threads t = .idle)
    (ended : ∀ i, i ≠ 7 → (s.world.endpoint.operations i).used = true →
      terminal (s.world.endpoint.operations i).state = true) :
    (∀ i, i ≠ 7 → (s.world.endpoint.operations i).used = false) ∧
    ∀ kind timeoutMs now request,
      (s.world.endpoint.submit kind timeoutMs now request false).2.status ≠ .queueFull := by
  obtain ⟨fs, inner, -⟩ := world_run run
  have inv := SlotsInv.of_run inner
  have free i (isPublic : i ≠ 7) : (s.world.endpoint.operations i).used = false := by
    by_contra used
    rw [Bool.not_eq_false] at used
    have outer : (s.world.endpoint.operations i).internal = false := by
      by_contra internal
      rw [Bool.not_eq_false] at internal
      have := (inv.table.renewal i internal).2
      simp [ended i isPublic used] at this
    obtain ⟨t, use, holding⟩ := (Responsible.of_run run met bound).owned i used outer
    simp [quiet t, ThreadPc.holding] at holding
  refine ⟨free, ?_⟩
  intro kind timeoutMs now request full
  have first : s.world.endpoint.allocateSlot false = some 0 := by
    simp [Endpoint.allocateSlot, publicOperationCapacity, List.finRange_succ,
      free 0 (by decide)]
  simp only [Endpoint.submit, first] at full
  split at full <;> cases full

def ThreadPc.isIdle : ThreadPc → Bool
  | .idle => true
  | _ => false

/-- A thread that never acts stays idle. -/
theorem idle_of_run {es : ArmTrace} {s : State} {t : Nat} (run : Run armMachine es s) :
    (∀ e ∈ es, e.action.thread ≠ some t) → s.threads t = .idle := by
  refine run.history (P := fun es s => (∀ e ∈ es, e.action.thread ≠ some t) →
    s.threads t = .idle) (fun _ => rfl) ?_
  intro es s a event next before ih stepped absent
  rw [(step_moves stepped).thread_frame (absent ⟨s, a, event, next⟩ (by simp))]
  exact ih fun e member => absent e (by simp [member])

/-- The submission of `enable` on thread 0. -/
def enableSubmitted : List ArmAction :=
  [.start 0 (.setArmMode .pc), .call 0, .gate 0, .submit 0 0]

/-- `enable`, with its operation completed at time 1 and taken. -/
def enableTaken : List ArmAction :=
  enableSubmitted ++ (Action.pass 0 :: ownerTurns 14 0 .ok ++
    [Action.complete firstSlot 1 { status := .success } (some .acknowledged),
      Action.owner 1 .ok]).map .endpoint ++ [.wait 0 false, .take 0]

/-- Only thread 0 acts. -/
def firstThreadOnly (es : ArmTrace) : Bool :=
  es.all fun e => e.action.thread.all fun t => t == 0

theorem quiet_of_first {es : ArmTrace} {s : State} (run : Run armMachine es s)
    (only : firstThreadOnly es = true) (first : (s.threads 0).isIdle = true) (t : Nat) :
    s.threads t = .idle := by
  by_cases zero : t = 0
  · subst zero
    cases pc : s.threads 0 <;> simp [pc, ThreadPc.isIdle] at first ⊢
  · refine idle_of_run run ?_
    intro e member acts
    have := List.all_eq_true.mp only e member
    simp [acts, zero] at this

theorem enableTaken_runs : (exec armMachine enableTaken [] armMachine.init).isSome = true := by
  decide +kernel

theorem slots_released_enable : ∃ es s, Run armMachine es s ∧ armSubmissions es = 1 ∧
    ∀ i, i ≠ 7 → (s.world.endpoint.operations i).used = false := by
  have run := exec_get enableTaken_runs
  refine ⟨_, _, run, by decide +kernel, ?_⟩
  exact (slots_released run (Meets.of_all (by decide +kernel)) (by decide +kernel)
    (quiet_of_first run (by decide +kernel) (by decide +kernel)) (by decide +kernel)).1

/-- `waitUntilReady` of one millisecond against a device that does not answer: the local
wait ends long before the acquire times out in slot `i`. -/
def earlyWait (i : SlotIndex) : List ArmAction :=
  let clock : TimeMs := BitVec.ofNat 32 (1000 * i)
  [.start 0 (.waitUntilReady 1), .call 0, .gate 0, .submit 0 clock] ++
    (Action.pass clock :: ownerTurns 14 clock .ok).map .endpoint ++ [.wait 0 true] ++
    [Action.complete i (clock + 500) { status := .timedOut } none,
      Action.owner (clock + 500) .ok].map .endpoint

/-- Seven such calls, one after the other. -/
def earlyWaits : List ArmAction :=
  ((List.finRange 8).take 7).flatMap earlyWait

theorem earlyWaits_runs : (exec armMachine earlyWaits [] armMachine.init).isSome = true := by
  decide +kernel

/-- No call is in progress and every operation has ended, but no slot is free. -/
theorem slots_leaked : ∃ es s, Run armMachine es s ∧ (∀ t, s.threads t = .idle) ∧
    (∀ i, (s.world.endpoint.operations i).used = true →
      terminal (s.world.endpoint.operations i).state = true) ∧
    (∀ i, i ≠ 7 → (s.world.endpoint.operations i).used = true) ∧
    ∀ kind timeoutMs now request,
      (s.world.endpoint.submit kind timeoutMs now request false).2.status = .queueFull := by
  have run := exec_get earlyWaits_runs
  refine ⟨_, _, run, quiet_of_first run (by decide +kernel) (by decide +kernel),
    by decide +kernel, by decide +kernel, ?_⟩
  intro kind timeoutMs now request
  rw [Endpoint.submit, if_neg (by decide +kernel)]
  rfl

end Florid.Arm
