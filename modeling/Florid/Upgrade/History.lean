import Florid.Upgrade.Session

/-! What a history of the update session says about the peer: which sessions it has met,
what was answered in each of them, and which of them are over. -/
namespace Florid.Upgrade
open Transition Wirelink

/-- A history of the update session. -/
abbrev UpdateTrace := List (Entry State Action Event)

/-- Wirelink session ids are nonzero and never repeat. -/
def FreshPeers (es : UpdateTrace) : Prop :=
  ∀ past x rest, es = past ++ x :: rest → ∀ peer, x.action = .peerSession peer →
    peer ≠ 0 ∧ ∀ y ∈ past, y.action ≠ .peerSession peer

theorem FreshPeers.snoc {es : UpdateTrace} {x : Entry State Action Event}
    (fresh : FreshPeers (es ++ [x])) : FreshPeers es ∧ ∀ peer, x.action = .peerSession peer →
      peer ≠ 0 ∧ ∀ y ∈ es, y.action ≠ .peerSession peer := by
  refine ⟨?_, fresh es x [] rfl⟩
  intro past y rest split
  exact fresh past y (rest ++ [x]) (by simp [split])

/-- The peer session an action announces. -/
def Action.announces : Action → Option Nat
  | .peerSession peer => some peer
  | _ => none

theorem FreshPeers.of_nodup {es : UpdateTrace} (nonzero : 0 ∉ es.filterMap (·.action.announces))
    (distinct : (es.filterMap (·.action.announces)).Nodup) : FreshPeers es := by
  rintro past x rest rfl peer announced
  have here : x.action.announces = some peer := by rw [announced]; rfl
  simp only [List.filterMap_append, List.filterMap_cons, here] at nonzero distinct
  refine ⟨?_, ?_⟩
  · rintro rfl
    exact nonzero (by simp)
  · intro y member earlier
    have before : peer ∈ past.filterMap (·.action.announces) :=
      List.mem_filterMap.mpr ⟨y, member, by rw [earlier]; rfl⟩
    exact (List.nodup_append.mp distinct).2.2 peer before peer (by simp) rfl

/-- The client has known this peer session; zero stands for none. -/
def Met (es : UpdateTrace) (peer : Nat) : Prop := peer = 0 ∨ ∃ x ∈ es, x.action = .peerSession peer

/-- The device answered a query with `info` in this peer session. -/
def Said (es : UpdateTrace) (peer : Nat) (info : DeviceInfo) : Prop :=
  ∃ x ∈ es, ∃ reply, x.action = .infoComplete reply ∧ reply.status = .ok ∧ reply.info = info ∧
    x.before.client.peerSession = peer

/-- The device answered a boot query with `boot` in this peer session. -/
def BootSaid (es : UpdateTrace) (peer : Nat) (boot : BootStatus) : Prop :=
  ∃ x ∈ es, ∃ poll reboot uploading reply, x.action = .progress poll reboot uploading ∧
    x.before.client.bootPending = true ∧ x.before.client.bootId ≠ 0 ∧ poll.expired = false ∧
    poll.inspect = .finished reply ∧ bootOf reply = boot ∧ x.before.client.peerSession = peer

/-- The peer session is over. -/
def Gone (es : UpdateTrace) (s : State) (peer : Nat) : Prop :=
  Met es peer ∧ s.client.peerSession ≠ peer

section Growing
variable {es : UpdateTrace} {x : Entry State Action Event} {peer : Nat}

theorem Met.snoc (met : Met es peer) : Met (es ++ [x]) peer := by
  rcases met with zero | ⟨y, member, action⟩
  · exact .inl zero
  · exact .inr ⟨y, by simp [member], action⟩

theorem Said.snoc {info : DeviceInfo} (said : Said es peer info) : Said (es ++ [x]) peer info := by
  obtain ⟨y, member, rest⟩ := said
  exact ⟨y, by simp [member], rest⟩

theorem BootSaid.snoc {boot : BootStatus} (said : BootSaid es peer boot) :
    BootSaid (es ++ [x]) peer boot := by
  obtain ⟨y, member, rest⟩ := said
  exact ⟨y, by simp [member], rest⟩

end Growing

/-! ### The client's fields -/

namespace Client
variable (c : Client)

/-- What the gates, the requests and the polls leave alone. -/
structure Frame (c d : Client) : Prop where
  verifying : d.verifying = c.verifying
  peerSession : d.peerSession = c.peerSession

/-- Where a poll may leave the boot query: as it is, started, or with a result. -/
inductive BootChange (c d : Client) : Prop where
  | kept : d.bootDone = c.bootDone → d.boot = c.boot → BootChange c d
  | asked : d.bootDone = false → BootChange c d
  | failed : d.boot.error ≠ .none → BootChange c d

variable {c}

theorem bootRequest_frame : Frame c c.bootRequest.1 := by
  unfold bootRequest
  split
  · exact ⟨rfl, rfl⟩
  · split <;> exact ⟨rfl, rfl⟩

theorem bootRequest_change : BootChange c c.bootRequest.1 := by
  unfold bootRequest
  split
  · exact .kept rfl rfl
  · split
    · exact .kept rfl rfl
    · exact .asked rfl

theorem bootRequest_asked {d : Client} (made : c.bootRequest = (d, .none)) : d.bootDone = false := by
  unfold bootRequest at made
  split at made
  · cases made
  · split at made <;> cases made
    rfl

theorem rebootRequest_frame (mode : FirmwareRebootMode) (verification : Bool) :
    Frame c (c.rebootRequest mode verification).1 ∧
      BootChange c (c.rebootRequest mode verification).1 := by
  unfold rebootRequest
  split
  · exact ⟨⟨rfl, rfl⟩, .kept rfl rfl⟩
  · split <;> exact ⟨⟨rfl, rfl⟩, .kept rfl rfl⟩

theorem startUpload_frame : Frame c c.startUpload.1 ∧ BootChange c c.startUpload.1 := by
  unfold startUpload
  split
  · exact ⟨⟨rfl, rfl⟩, .kept rfl rfl⟩
  · split <;> exact ⟨⟨rfl, rfl⟩, .kept rfl rfl⟩

/-- A poll of the boot query, by what it collects. -/
theorem pollBoot_cases (p : Poll BootInfo) : Frame c (c.pollBoot p) ∧
    (BootChange c (c.pollBoot p) ∨ ∃ reply, c.bootPending = true ∧ c.bootId ≠ 0 ∧
      p.expired = false ∧ p.inspect = .finished reply ∧ (c.pollBoot p).boot = bootOf reply) := by
  unfold pollBoot
  split
  · exact ⟨⟨rfl, rfl⟩, .inl (.kept rfl rfl)⟩
  · rename_i pending
    split
    · exact ⟨⟨rfl, rfl⟩, .inl (.failed (by simp [finishBoot]))⟩
    · rename_i intime
      split
      · split
        · exact ⟨⟨rfl, rfl⟩, .inl (.kept rfl rfl)⟩
        · exact ⟨⟨rfl, rfl⟩, .inl (.kept rfl rfl)⟩
        · exact ⟨⟨rfl, rfl⟩, .inl (.failed (by simp [finishBoot]))⟩
      · rename_i started
        split
        · exact ⟨⟨rfl, rfl⟩, .inl (.failed (by simp [finishBoot]))⟩
        · exact ⟨⟨rfl, rfl⟩, .inl (.kept rfl rfl)⟩
        · rename_i reply inspected
          exact ⟨⟨rfl, rfl⟩, .inr ⟨reply, by simpa using pending, started,
            by simpa using intime, inspected, rfl⟩⟩

theorem pollReboot_frame (p : Poll FirmwareRebootMode) :
    Frame c (c.pollReboot p).1 ∧ (c.pollReboot p).1.bootDone = c.bootDone ∧
      (c.pollReboot p).1.boot = c.boot ∧ (c.pollReboot p).1.bootPending = c.bootPending := by
  unfold pollReboot
  split
  · exact ⟨⟨rfl, rfl⟩, rfl, rfl, rfl⟩
  · split
    · exact ⟨⟨rfl, rfl⟩, rfl, rfl, rfl⟩
    · split
      · exact ⟨⟨rfl, rfl⟩, rfl, rfl, rfl⟩
      · split
        · split <;> exact ⟨⟨rfl, rfl⟩, rfl, rfl, rfl⟩
        · split
          · exact ⟨⟨rfl, rfl⟩, rfl, rfl, rfl⟩
          · exact ⟨⟨rfl, rfl⟩, rfl, rfl, rfl⟩
          · dsimp only
            split <;> exact ⟨⟨rfl, rfl⟩, rfl, rfl, rfl⟩

theorem disconnected_frame (departed : Bool) (p : Poll FirmwareRebootMode) :
    Frame c (c.disconnected departed p) ∧ BootChange c (c.disconnected departed p) := by
  have collected : ∃ d : Client, (if c.rebootPending && c.rebootId != 0 then (c.pollReboot p).1
      else c) = d ∧ Frame c d ∧ d.bootDone = c.bootDone ∧ d.boot = c.boot := by
    split
    · exact ⟨_, rfl, (pollReboot_frame p).1, (pollReboot_frame p).2.1, (pollReboot_frame p).2.2.1⟩
    · exact ⟨c, rfl, ⟨rfl, rfl⟩, rfl, rfl⟩
  obtain ⟨d, eq, frame, done, boot⟩ := collected
  simp only [disconnected, eq]
  cases d.bootPending <;> cases d.rebootPending <;>
    simp only [finishBoot, finishReboot, if_true, Bool.false_eq_true, if_false]
  · exact ⟨⟨frame.1, frame.2⟩, .kept done boot⟩
  · exact ⟨⟨frame.1, frame.2⟩, .kept done boot⟩
  · exact ⟨⟨frame.1, frame.2⟩, .failed (by simp)⟩
  · exact ⟨⟨frame.1, frame.2⟩, .failed (by simp)⟩

end Client

/-- The actions of the owner thread, the peer and other callers. -/
def Action.outside : Action → Bool
  | .begin _ | .step _ _ => false
  | _ => true

/-- The event is an accepted reboot request of `rebootAndWait`. -/
def Event.requests : Event → Bool
  | .rebootRequested verification => verification
  | _ => false

/-- What others may do to the state a running call relies on. -/
structure Outside (s : State) (a : Action) (event : Event) (t : State) : Prop where
  pc : t.pc = s.pc
  verifying : t.client.verifying = s.client.verifying
  peer : t.client.peerSession = s.client.peerSession ∨ a = .peerSession t.client.peerSession
  operation : s.querying = true → t.operation = s.operation ∨
    ∃ reply, a = .infoComplete reply ∧ t.operation = .done reply
  boot : Client.BootChange s.client t.client ∨ ∃ poll reboot uploading reply,
    a = .progress poll reboot uploading ∧ s.client.bootPending = true ∧ s.client.bootId ≠ 0 ∧
    poll.expired = false ∧ poll.inspect = .finished reply ∧ t.client.boot = bootOf reply
  quiet : event.requests = false ∧ ∀ result, event ≠ .returned result

theorem Outside.client {s : State} {a : Action} {event : Event} {client : Client} {owner : OwnerPc}
    (frame : s.client.Frame client) (boot : s.client.BootChange client)
    (quiet : event.requests = false ∧ ∀ result, event ≠ .returned result) :
    Outside s a event { s with client, owner } :=
  ⟨rfl, frame.verifying, .inl frame.peerSession, fun _ => .inl rfl, .inl boot, quiet⟩

theorem outside_step {s t : State} {a : Action} {event : Event}
    (stepped : s.step a = some (t, event)) (outside : a.outside = true) :
    Outside s a event t := by
  have nothing : Event.requests .quiet = false ∧ ∀ result, Event.quiet ≠ .returned result := by
    simp [Event.requests]
  cases a with
  | begin | step => cases outside
  | peerSession current =>
    simp only [State.step] at stepped
    split at stepped <;> cases stepped
    exact ⟨rfl, rfl, .inr rfl, fun _ => .inl rfl, .inl (.kept rfl rfl), nothing⟩
  | departed p =>
    simp only [State.step] at stepped
    split at stepped <;> cases stepped
    exact .client (Client.disconnected_frame true p).1 (Client.disconnected_frame true p).2 nothing
  | transportState connected p =>
    simp only [State.step] at stepped
    split at stepped <;> cases stepped
    split
    · have effect := Client.disconnected_frame
        (c := { s.client with transportConnected := connected }) true p
      refine .client ⟨effect.1.1, effect.1.2⟩ ?_ nothing
      rcases effect.2 with ⟨done, boot⟩ | asked | failed
      · exact .kept done boot
      · exact .asked asked
      · exact .failed failed
    · exact .client ⟨rfl, rfl⟩ (.kept rfl rfl) nothing
  | close p =>
    simp only [State.step] at stepped
    split at stepped <;> cases stepped
    exact .client (Client.disconnected_frame false p).1 (Client.disconnected_frame false p).2 nothing
  | connected running =>
    cases stepped
    exact .client ⟨rfl, rfl⟩ (.kept rfl rfl) nothing
  | progress boot reboot uploading =>
    simp only [State.step] at stepped
    split at stepped <;> cases stepped
    obtain ⟨frame, change⟩ := Client.pollBoot_cases (c := s.client) boot
    obtain ⟨frame', done, same, -⟩ := Client.pollReboot_frame (c := s.client.pollBoot boot) reboot
    refine ⟨rfl, frame'.verifying.trans frame.verifying,
      .inl (frame'.peerSession.trans frame.peerSession), fun _ => .inl rfl, ?_, ?_⟩
    · rcases change with change | ⟨reply, pending, started, intime, finished, collected⟩
      · left
        rcases change with ⟨kept, boot⟩ | asked | failed
        · exact .kept (done.trans kept) (same.trans boot)
        · exact .asked (done.trans asked)
        · exact .failed (by rw [same]; exact failed)
      · exact .inr ⟨_, _, _, reply, rfl, pending, started, intime, finished, same.trans collected⟩
    · split <;> simp [Event.requests]
  | infoComplete reply =>
    simp only [State.step] at stepped
    split at stepped <;> cases stepped
    exact ⟨rfl, rfl, .inl rfl, fun _ => .inr ⟨reply, rfl, rfl⟩, .inl (.kept rfl rfl), nothing⟩
  | otherInfo request operation =>
    simp only [State.step] at stepped
    split at stepped
    · cases stepped
    · rename_i elsewhere
      cases stepped
      exact ⟨rfl, rfl, .inl rfl, fun querying => absurd querying elsewhere,
        .inl (.kept rfl rfl), nothing⟩
  | otherBoot =>
    simp only [State.step] at stepped
    split at stepped <;> cases stepped
    exact .client Client.bootRequest_frame Client.bootRequest_change nothing
  | otherReboot mode =>
    have effect := Client.rebootRequest_frame (c := s.client) mode false
    simp only [State.step] at stepped
    split at stepped
    · cases stepped
    · split at stepped <;> rename_i made <;> cases stepped <;> rw [made] at effect
      · exact .client effect.1 effect.2 (by simp [Event.requests])
      · exact .client effect.1 effect.2 nothing
  | otherUpload =>
    cases stepped
    exact .client Client.startUpload_frame.1 Client.startUpload_frame.2 nothing

end Florid.Upgrade
