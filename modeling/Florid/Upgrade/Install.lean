import Florid.Upgrade.Verification

/-! The contract of `rebootAndWait` over every run: at most one reboot request, sent at
most once, a report that rests on one later peer session, and a gate that is free when the
call returns. -/
namespace Florid.Upgrade
open Transition Wirelink

/-- The event is an accepted reboot request of any caller. -/
def Event.asks : Event → Bool
  | .rebootRequested _ => true
  | _ => false

def Event.sends : Event → Bool
  | .rebootSent => true
  | _ => false

/-- Reboot requests of `rebootAndWait` in a history. -/
def requests (es : UpdateTrace) : Nat := es.countP (·.event.requests)

/-- Reboot requests handed to the link in a history. -/
def sends (es : UpdateTrace) : Nat := es.countP (·.event.sends)

/-! ### A request is sent at most once -/

namespace Client

/-- A request is pending and has not been handed to the link. -/
def unsent (c : Client) : Bool := c.rebootPending && c.rebootId == 0 && !c.reboot.requestAccepted

theorem finishReboot_unsent (c : Client) (reboot : FirmwareRebootResult) :
    (c.finishReboot reboot).unsent = false := rfl

theorem pollReboot_unsent (c : Client) (p : Poll FirmwareRebootMode) :
    ((c.pollReboot p).2 = true → c.unsent = true ∧ (c.pollReboot p).1.unsent = false) ∧
    ((c.pollReboot p).1.unsent = true → c.unsent = true) := by
  unfold pollReboot
  split
  · exact ⟨nofun, id⟩
  · rename_i pending
    split
    · exact ⟨nofun, nofun⟩
    · split
      · exact ⟨nofun, id⟩
      · rename_i unanswered
        split
        · rename_i free
          split
          · rename_i id nonzero started
            have was : c.unsent = true := by simp_all [unsent]
            exact ⟨fun _ => ⟨was, by simp [unsent, nonzero]⟩, fun _ => was⟩
          · exact ⟨nofun, id⟩
          · exact ⟨nofun, nofun⟩
        · split
          · exact ⟨nofun, nofun⟩
          · exact ⟨nofun, id⟩
          · dsimp only
            split
            · rename_i accepted
              exact ⟨nofun, by simp [unsent, accepted]⟩
            · exact ⟨nofun, nofun⟩

theorem disconnected_unsent (c : Client) (departed : Bool) (p : Poll FirmwareRebootMode) :
    (c.disconnected departed p).unsent = false := by
  simp only [disconnected]
  generalize (if c.rebootPending && c.rebootId != 0 then (c.pollReboot p).1 else c) = d
  cases d.bootPending <;> cases d.rebootPending <;> simp [unsent, finishBoot, finishReboot]

theorem bootRequest_unsent (c : Client) : c.bootRequest.1.unsent = c.unsent := by
  unfold bootRequest
  split
  · rfl
  · split <;> rfl

theorem startUpload_unsent (c : Client) : c.startUpload.1.unsent = c.unsent := by
  unfold startUpload
  split
  · rfl
  · split <;> rfl

theorem beginVerification_unsent (c : Client) : c.beginVerification.1.unsent = c.unsent := by
  unfold beginVerification
  split
  · rfl
  · split <;> rfl

theorem pollBoot_unsent (c : Client) (p : Poll BootInfo) : (c.pollBoot p).unsent = c.unsent := by
  unfold pollBoot
  split
  · rfl
  · split
    · rfl
    · split
      · split <;> rfl
      · split <;> rfl

/-- A request that is refused changes nothing. -/
theorem rebootRequest_refused {c d : Client} {mode : FirmwareRebootMode} {verification : Bool}
    {error : FirmwareUpdateError} (made : c.rebootRequest mode verification = (d, error))
    (refused : error ≠ .none) : d = c := by
  unfold rebootRequest at made
  split at made
  · cases made
    rfl
  · split at made
    · cases made
      rfl
    · cases made
      exact absurd rfl refused

end Client

/-- What a step does to a request on its way. -/
structure Carried (s : State) (event : Event) (t : State) : Prop where
  sent : event.sends = true → s.client.unsent = true ∧ t.client.unsent = false
  kept : t.client.unsent = true → s.client.unsent = true ∨ event.asks = true

section Carried
variable {s t : State} {a : Action} {event : Event}

theorem Carried.same (same : t.client.unsent = s.client.unsent) (silent : event.sends = false) :
    Carried s event t :=
  ⟨by simp [silent], fun unsent => .inl (same ▸ unsent)⟩

theorem Carried.finished (finished : t.client.unsent = false) (silent : event.sends = false) :
    Carried s event t :=
  ⟨by simp [silent], by simp [finished]⟩

theorem Carried.asked (asked : event.asks = true) (silent : event.sends = false) :
    Carried s event t :=
  ⟨by simp [silent], fun _ => .inr asked⟩

theorem Carried.goto {pc : SessionPc} (moved : s.goto pc = some (t, event)) : Carried s event t := by
  cases moved
  exact .same rfl rfl

theorem advance_carried {ok : Bool} {status : FciEndpointStatus}
    (stepped : s.advance ok status = some (t, event)) : Carried s event t := by
  cases pc : s.pc <;> simp only [State.advance, pc] at stepped
  case idle => cases stepped
  case admitting call =>
    have same := s.client.beginVerification_unsent
    split at stepped <;> rename_i made <;> cases stepped <;> rw [made] at same
    · exact .same same rfl
    · exact .same same rfl
  case infoStale q =>
    split at stepped
    · exact .goto stepped
    · split at stepped
      · split at stepped
        · exact .goto stepped
        · cases stepped
          exact .same rfl rfl
      · exact .goto stepped
  case infoSubmit q peer =>
    split at stepped
    · cases stepped
      exact .same rfl rfl
    · exact .goto stepped
  case infoTake q peer =>
    split at stepped
    · exact .goto stepped
    · cases stepped
      exact .same rfl rfl
    · split at stepped <;> cases stepped <;> exact .same rfl rfl
  case infoResponse q peer info =>
    split at stepped
    · exact .goto stepped
    · split at stepped
      · exact .goto stepped
      · split at stepped <;> exact .goto stepped
  case rebootRequest k =>
    split at stepped
    · cases stepped
      exact .asked rfl rfl
    · rename_i made
      cases stepped
      exact .same (by rw [Client.rebootRequest_refused made ‹_›]) rfl
  case rebootWait k =>
    split at stepped
    · exact .goto stepped
    · split at stepped
      · cases stepped
      · exact .goto stepped
  case matchPeer k info peer =>
    split at stepped
    · split at stepped <;> exact .goto stepped
    · exact .goto stepped
  case bootRequest k info peer =>
    have same := s.client.bootRequest_unsent
    split at stepped
    · exact .goto stepped
    · split at stepped <;> rename_i made <;> cases stepped <;> rw [made] at same
      · exact .same same rfl
      · exact .same same rfl
  case bootWait k info peer =>
    split at stepped
    · exact .goto stepped
    · split at stepped
      · cases stepped
      · exact .goto stepped
  case exiting r =>
    cases stepped
    exact .same rfl rfl
  all_goals exact .goto stepped

theorem step_carried (stepped : s.step a = some (t, event)) : Carried s event t := by
  cases a with
  | begin call =>
    simp only [State.step] at stepped
    split at stepped
    · split at stepped
      · exact .goto stepped
      · cases stepped
        exact .same rfl rfl
    · cases stepped
  | step ok status => exact advance_carried stepped
  | peerSession current =>
    simp only [State.step] at stepped
    split at stepped <;> cases stepped
    exact .same rfl rfl
  | departed p =>
    simp only [State.step] at stepped
    split at stepped <;> cases stepped
    exact .finished (Client.disconnected_unsent _ _ _) rfl
  | transportState connected p =>
    simp only [State.step] at stepped
    split at stepped <;> cases stepped
    split
    · exact .finished (Client.disconnected_unsent _ _ _) rfl
    · exact .same rfl rfl
  | close p =>
    simp only [State.step] at stepped
    split at stepped <;> cases stepped
    exact .finished (Client.disconnected_unsent _ _ _) rfl
  | connected running =>
    cases stepped
    exact .same rfl rfl
  | progress boot reboot uploading =>
    simp only [State.step] at stepped
    split at stepped <;> cases stepped
    obtain ⟨sent, kept⟩ := (s.client.pollBoot boot).pollReboot_unsent reboot
    rw [Client.pollBoot_unsent] at sent kept
    refine ⟨?_, fun unsent => .inl (kept unsent)⟩
    split
    · rename_i started
      exact fun _ => sent started
    · simp [Event.sends]
  | infoComplete reply =>
    simp only [State.step] at stepped
    split at stepped <;> cases stepped
    exact .same rfl rfl
  | otherInfo request operation =>
    simp only [State.step] at stepped
    split at stepped <;> cases stepped
    exact .same rfl rfl
  | otherBoot =>
    simp only [State.step] at stepped
    split at stepped <;> cases stepped
    exact .same s.client.bootRequest_unsent rfl
  | otherReboot mode =>
    simp only [State.step] at stepped
    split at stepped
    · cases stepped
    · split at stepped
      · cases stepped
        exact .asked rfl rfl
      · rename_i made
        cases stepped
        exact .same (by rw [Client.rebootRequest_refused made ‹_›]) rfl
  | otherUpload =>
    cases stepped
    exact .same s.client.startUpload_unsent rfl

end Carried

theorem sends_snoc (es : UpdateTrace) (x : Entry State Action Event) :
    sends (es ++ [x]) = sends es + if x.event.sends then 1 else 0 := by
  simp [sends, List.countP_append, List.countP_singleton]

theorem requests_snoc (es : UpdateTrace) (x : Entry State Action Event) :
    requests (es ++ [x]) = requests es + if x.event.requests then 1 else 0 := by
  simp [requests, List.countP_append, List.countP_singleton]

/-- Until the next request is accepted, at most one send follows, and none is left to come
after it. -/
theorem sends_bounded {past later : UpdateTrace} {s : State}
    (run : Run updateMachine (past ++ later) s) (alone : ∀ y ∈ later, y.event.asks = false) :
    sends later + (if s.client.unsent then 1 else 0) ≤ 1 := by
  refine run.since (P := fun fs s => (∀ y ∈ fs, y.event.asks = false) →
    sends fs + (if s.client.unsent then 1 else 0) ≤ 1) ?_ ?_ alone
  · intro s _ _
    simp only [sends, List.countP_nil]
    split <;> simp
  · intro fs s a event t _ bounded stepped alone
    have before := bounded fun y member => alone y (by simp [member])
    have quiet : event.asks = false := alone ⟨s, a, event, t⟩ (by simp)
    obtain ⟨sent, kept⟩ := step_carried stepped
    rw [sends_snoc]
    cases sending : event.sends with
    | true =>
      obtain ⟨was, now⟩ := sent sending
      simpa [was, now] using before
    | false =>
      cases now : t.client.unsent with
      | true =>
        have was := (kept now).resolve_right (by simp [quiet])
        simpa [was] using before
      | false =>
        have fewer : sends fs ≤ 1 := Nat.le_of_add_right_le before
        simpa using fewer

/-! ### The gate over runs -/

/-- What every run keeps: the client has met its peer, and the gate is the call's. -/
structure Kept (es : UpdateTrace) (s : State) : Prop where
  met : Met es s.client.peerSession
  verifying : s.client.verifying = s.pc.admitted

theorem Kept.step {es : UpdateTrace} {s t : State} {a : Action} {event : Event} (kept : Kept es s)
    (stepped : s.step a = some (t, event)) : Kept (es ++ [⟨s, a, event, t⟩]) t := by
  cases outside : a.outside with
  | true =>
    obtain ⟨pc, verifying, peer, -, -, -⟩ := outside_step stepped outside
    refine ⟨?_, by rw [verifying, pc, kept.verifying]⟩
    rcases peer with same | new
    · rw [same]
      exact kept.met.snoc
    · exact .inr ⟨_, List.mem_append_right _ (List.mem_singleton_self _), new⟩
  | false =>
    have gated : Gated s t := by
      cases a with
      | begin call =>
        simp only [State.step] at stepped
        split at stepped
        · rename_i idle
          have free : s.client.verifying = false := by rw [kept.verifying, idle]; rfl
          split at stepped <;> cases stepped
          · exact ⟨free, rfl⟩
          · exact ⟨kept.verifying, rfl⟩
        · cases stepped
      | step ok status => exact advance_gated kept.verifying stepped
      | _ => cases outside
    refine ⟨?_, gated.verifying⟩
    rw [gated.peerSession]
    exact kept.met.snoc

theorem run_kept {es : UpdateTrace} {s : State} (run : Run updateMachine es s) : Kept es s :=
  run.history (P := Kept) ⟨.inl rfl, rfl⟩ fun _ kept stepped => kept.step stepped

/-! ### The call -/

theorem begin_facts (past : UpdateTrace) {s t : State} {c : Call} {event : Event}
    (stepped : s.step (.begin c) = some (t, event)) :
    Facts (past ++ [⟨s, .begin c, event, t⟩]) [⟨s, .begin c, event, t⟩] c 0 t.pc ∧
      t.pc.silent = true ∧ event.requests = false ∧
      ∀ r, event = .returned r → t.pc = .idle ∧ ResultOk [] c 0 r := by
  simp only [State.step] at stepped
  split at stepped
  · rename_i idle
    split at stepped <;> cases stepped
    · rename_i valid
      exact ⟨⟨rfl, valid, rfl⟩, rfl, rfl, by simp⟩
    · refine ⟨by rw [idle]; exact Nat.zero_le _, by rw [idle]; rfl, rfl, ?_⟩
      rintro r ⟨⟩
      exact ⟨idle, .unknown rfl (by simp)⟩
  · cases stepped

/-- Where the call asks for the reboot, and where it returns. -/
theorem advance_events {s t : State} {event : Event} {ok : Bool} {status : FciEndpointStatus}
    (stepped : s.advance ok status = some (t, event)) :
    (event.requests = true → ∃ k, s.pc = .rebootRequest k) ∧
      ∀ r, event = .returned r → t.pc = .idle := by
  -- a step that only moves the call tells nothing
  have silent {pc : SessionPc} {event : Event} (quiet : event = .quiet) :
      (event.requests = true → ∃ k, pc = .rebootRequest k) ∧
        ∀ r, event = .returned r → t.pc = .idle := by
    rw [quiet]
    exact ⟨by simp [Event.requests], by simp⟩
  have moved {u : State} {pc : SessionPc} (moved : u.goto pc = some (t, event)) :
      event = .quiet := by
    cases moved
    rfl
  cases pc : s.pc <;> simp only [State.advance, pc] at stepped
  case idle => cases stepped
  case admitting call =>
    split at stepped <;> cases stepped
    · exact silent rfl
    · exact ⟨by simp [Event.requests], fun _ _ => rfl⟩
  case infoStale q =>
    split at stepped
    · exact silent (moved stepped)
    · split at stepped
      · split at stepped
        · exact silent (moved stepped)
        · cases stepped
          exact silent rfl
      · exact silent (moved stepped)
  case infoSubmit q peer =>
    split at stepped
    · cases stepped
      exact silent rfl
    · exact silent (moved stepped)
  case infoTake q peer =>
    split at stepped
    · exact silent (moved stepped)
    · cases stepped
      exact silent rfl
    · split at stepped <;> exact silent (moved stepped)
  case infoResponse q peer info =>
    split at stepped
    · exact silent (moved stepped)
    · split at stepped
      · exact silent (moved stepped)
      · split at stepped <;> exact silent (moved stepped)
  case rebootRequest k =>
    split at stepped <;> cases stepped
    · exact ⟨fun _ => ⟨k, rfl⟩, by simp⟩
    · exact silent rfl
  case rebootWait k =>
    split at stepped
    · exact silent (moved stepped)
    · split at stepped
      · cases stepped
      · exact silent (moved stepped)
  case matchPeer k info peer =>
    split at stepped
    · split at stepped <;> exact silent (moved stepped)
    · exact silent (moved stepped)
  case bootRequest k info peer =>
    split at stepped
    · exact silent (moved stepped)
    · split at stepped <;> cases stepped <;> exact silent rfl
  case bootWait k info peer =>
    split at stepped
    · exact silent (moved stepped)
    · split at stepped
      · cases stepped
      · exact silent (moved stepped)
  case exiting r =>
    cases stepped
    exact ⟨by simp [Event.requests], fun _ _ => rfl⟩
  all_goals exact silent (moved stepped)

section Call
variable {past own : UpdateTrace} {e : Entry State Action Event} {s : State} {c : Call}

/-- What the call knows at every moment until the next one begins. -/
theorem followed (run : Run updateMachine (past ++ e :: own) s) (begun : e.action = .begin c)
    (single : ∀ x ∈ own, ∀ other, x.action ≠ .begin other) (fresh : FreshPeers (past ++ e :: own)) :
    Facts (past ++ e :: own) (e :: own) c (requests own) s.pc ∧
      Heard (past ++ e :: own) (e :: own) s := by
  rw [← List.singleton_append, ← List.append_assoc] at run
  refine run.since (P := fun fs s => (∀ x ∈ fs, ∀ other, x.action ≠ .begin other) →
    FreshPeers (past ++ e :: fs) → Facts (past ++ e :: fs) (e :: fs) c (requests fs) s.pc ∧
      Heard (past ++ e :: fs) (e :: fs) s) ?_ ?_ single fresh
  · intro s run _ _
    obtain ⟨-, stepped, rfl⟩ := run.of_snoc
    obtain ⟨before, action, event, after⟩ := e
    obtain rfl : action = .begin c := begun
    obtain ⟨facts, silent, -, -⟩ := begin_facts past stepped
    exact ⟨facts, .of_silent silent⟩
  · intro fs s a event t run ih stepped single fresh
    have longer : past ++ e :: (fs ++ [⟨s, a, event, t⟩]) =
        (past ++ e :: fs) ++ [⟨s, a, event, t⟩] := by simp
    rw [longer] at fresh ⊢
    obtain ⟨fresh, new⟩ := fresh.snoc
    obtain ⟨facts, heard⟩ := ih (fun x member => single x (by simp [member])) fresh
    rw [requests_snoc, ← List.cons_append]
    cases outside : a.outside with
    | true =>
      have out := outside_step stepped outside
      refine ⟨?_, heard.outside facts out new⟩
      simp only [out.quiet.1, out.pc, Bool.false_eq_true, if_false, Nat.add_zero]
      exact facts.snoc
    | false =>
      cases a with
      | begin other => exact absurd rfl (single ⟨s, _, event, t⟩ (by simp) other)
      | step ok status =>
        have met := (run_kept run).met
        rw [List.append_assoc, List.singleton_append] at met
        have advanced := advance_facts facts heard met stepped
        exact ⟨advanced.facts.snoc, advanced.heard.snoc⟩
      | _ => cases outside

theorem Facts.once {es : UpdateTrace} {n : Nat} {pc : SessionPc} (facts : Facts es own c n pc) :
    n ≤ 1 := by
  have query {q : Query} (query : QueryOk own c n q) : n ≤ 1 := by
    cases q with
    | before => exact query.2.2 ▸ Nat.zero_le _
    | poll => exact query.2
  cases pc with
  | idle => exact facts
  | admitting => exact facts.2.2 ▸ Nat.zero_le _
  | infoLock | infoStale | infoPeer => exact query facts
  | infoSubmit | infoWait | infoTake | infoResponse => exact query facts.1
  | comparePeer | rebootLock | rebootRequest => exact facts.2 ▸ Nat.zero_le _
  | rebootWait | looping => exact facts.2
  | matchPeer | bootLock | bootRequest | bootWait | bootCheck => exact facts.1.2
  | exiting => exact facts.1

/-- An entry of the call after its first is a step of its own, or tells nothing. -/
theorem call_entry {mid later : UpdateTrace} {x : Entry State Action Event}
    (run : Run updateMachine (past ++ e :: (mid ++ x :: later)) s) (begun : e.action = .begin c)
    (single : ∀ y ∈ mid ++ x :: later, ∀ other, y.action ≠ .begin other)
    (fresh : FreshPeers (past ++ e :: (mid ++ x :: later))) :
    (x.event.requests = false ∧ ∀ r, x.event ≠ .returned r) ∨
      ∃ ok status, x.before.advance ok status = some (x.after, x.event) ∧
        Facts (past ++ e :: mid) (e :: mid) c (requests mid) x.before.pc ∧
        Advanced (past ++ e :: mid) (e :: mid) c (requests mid) x.event x.after := by
  rw [← List.cons_append, ← List.append_assoc] at run
  obtain ⟨earlier, stepped⟩ := run.entry
  have shorter : FreshPeers (past ++ e :: mid) := by
    intro before y rest split
    exact fresh before y (rest ++ x :: later) (by
      rw [← List.cons_append, ← List.append_assoc, split, List.append_assoc, List.cons_append])
  obtain ⟨facts, heard⟩ :=
    followed earlier begun (fun y member => single y (by simp [member])) shorter
  have met := (run_kept earlier).met
  obtain ⟨before, action, event, after⟩ := x
  cases outside : action.outside with
  | true => exact .inl (outside_step stepped outside).quiet
  | false =>
    cases action with
    | begin other => exact absurd rfl (single ⟨before, _, event, after⟩ (by simp) other)
    | step ok status =>
      exact .inr ⟨ok, status, stepped, facts, advance_facts facts heard met stepped⟩
    | _ => cases outside

end Call

/-! ### An update that goes through -/

def oldInfo : DeviceInfo :=
  { protocolVersion := supportedProtocolVersion, firmwareVersion := ⟨1, 0, 0⟩, boardName := [1]
    firmwareType := .standardArm, serialNumber := [2] }

def newInfo : DeviceInfo := { oldInfo with firmwareVersion := ⟨1, 1, 0⟩ }

def newBoot : BootInfo :=
  { protocolVersion := 1, activeSlot := slotPrimary, confirmedSlot := slotPrimary
    slot0Size := 1, slot1Size := 1 }

def installCall : Call := ⟨⟨1, 1, 0⟩, {}⟩

/-- `n` steps of the call that find every lock free and every deadline ahead. -/
def proceed (n : Nat) : List Action := List.replicate n (.step true .ok)

/-- The device answers, accepts the reboot, comes back as another peer with the new
firmware and confirms it. -/
def installActions : List Action :=
  [.peerSession 1, .begin installCall] ++ proceed 5 ++ [.infoComplete ⟨.ok, 0, oldInfo⟩] ++
    proceed 6 ++ [.progress {} { start := .ok 13 (by decide) } false,
      .progress {} { inspect := .finished { decoded := some .tryBoot } } false,
      .peerSession 2, .departed {}] ++
    proceed 6 ++ [.infoComplete ⟨.ok, 0, newInfo⟩] ++ proceed 6 ++
    [.progress { start := .ok 9 (by decide) } {} false,
      .progress { inspect := .finished { decoded := some newBoot } } {} false] ++ proceed 3

def installTrace : UpdateTrace :=
  ((exec updateMachine installActions [] updateMachine.init).get (by decide +kernel)).1

theorem installTrace_length : 35 < installTrace.length := by decide +kernel

theorem installTrace_split (k : Nat) (bound : k < installTrace.length) :
    installTrace = installTrace.take k ++ installTrace.get ⟨k, bound⟩ :: installTrace.drop (k + 1) := by
  simp

/-- The last entry of the run. -/
def installReturn : Entry State Action Event := installTrace.get ⟨35, installTrace_length⟩

def installResult : FirmwareInstallResult :=
  match installReturn.event with
  | .returned r => r
  | _ => {}

end Florid.Upgrade
