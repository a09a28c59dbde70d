import Florid.Upgrade.History

/-! `rebootAndWait` over every run: what it reports is backed by answers of two different
peer sessions, and it asks for at most one reboot. -/
namespace Florid.Upgrade
open Transition Wirelink

/-! ### What the call knows at each position -/

/-- A device on which a reboot may be tried. -/
structure Fit (c : Call) (info : DeviceInfo) : Prop where
  protocol : isProtocolVersionCompatible info.protocolVersion = true
  serial : info.serialNumber ≠ []
  board : info.boardName ≠ []
  version : sameVersion c.expected info.firmwareVersion = false

structure KnownOk (own : UpdateTrace) (c : Call) (k : Known) : Prop where
  call : k.call = c
  options : c.options.valid = true
  said : Said own k.previousPeer k.previous
  recorded : k.result.previousInfo = some k.previous
  state : k.result.state = .unknown
  fit : Fit c k.previous

/-- A device that identified itself in a later session. -/
structure Polled (es own : UpdateTrace) (k : Known) (info : DeviceInfo) (peer : Nat) : Prop where
  said : Said own peer info
  other : peer ≠ k.previousPeer
  met : Met es peer

/-- The polled device is the one from before, with a protocol we speak. -/
structure Identified (k : Known) (info : DeviceInfo) : Prop where
  serial : info.serialNumber = k.previous.serialNumber
  board : info.boardName = k.previous.boardName
  type : info.firmwareType = k.previous.firmwareType
  protocol : isProtocolVersionCompatible info.protocolVersion = true
  recorded : k.result.deviceInfo = some info

/-- The boot state the install report asks for. -/
structure Healthy (boot : BootStatus) : Prop where
  state : boot.bootState = bootIdle
  active : boot.activeSlot = slotPrimary
  confirmed : boot.confirmedSlot = slotPrimary
  pending : boot.pendingSlot = slotNone
  transfer : boot.activeTransferId = 0
  slot0 : boot.slot0Size ≠ 0
  slot1 : boot.slot1Size ≠ 0

/-- The report rests on two answers of one peer session, which is not the one that
answered before the reboot. -/
structure Attributed (own : UpdateTrace) (r : FirmwareInstallResult)
    (version : DeviceInfo → Version) (previous info : DeviceInfo) (boot : BootStatus)
    (before after : Nat) : Prop where
  previousInfo : r.previousInfo = some previous
  deviceInfo : r.deviceInfo = some info
  bootStatus : r.bootStatus = some boot
  saidBefore : Said own before previous
  saidAfter : Said own after info
  bootSaid : BootSaid own after boot
  other : after ≠ before
  serial : info.serialNumber = previous.serialNumber
  board : info.boardName = previous.boardName
  type : info.firmwareType = previous.firmwareType
  protocol : isProtocolVersionCompatible info.protocolVersion = true
  version : sameVersion info.firmwareVersion (version previous) = true
  healthy : Healthy boot

/-- A result after `n` reboot requests. -/
structure ResultOk (own : UpdateTrace) (c : Call) (n : Nat) (r : FirmwareInstallResult) : Prop where
  target : r.state = .targetConfirmed → ∃ previous info boot before after,
    Attributed own r (fun _ => c.expected) previous info boot before after
  previous : r.state = .previousFirmware → ∃ previous info boot before after,
    Attributed own r DeviceInfo.firmwareVersion previous info boot before after
  asked : n ≠ 0 → c.options.valid = true ∧ ∃ previous, r.previousInfo = some previous ∧
    Fit c previous

def QueryOk (own : UpdateTrace) (c : Call) (n : Nat) : Query → Prop
  | .before call => call = c ∧ c.options.valid = true ∧ n = 0
  | .poll k => KnownOk own c k ∧ n ≤ 1

/-- What holds of the locals at each position, after `n` reboot requests of the call. -/
def Facts (es own : UpdateTrace) (c : Call) (n : Nat) : SessionPc → Prop
  | .idle => n ≤ 1
  | .admitting call => call = c ∧ c.options.valid = true ∧ n = 0
  | .infoLock q | .infoStale q | .infoPeer q => QueryOk own c n q
  | .infoSubmit q peer | .infoWait q peer | .infoTake q peer | .infoResponse q peer _ =>
    QueryOk own c n q ∧ Met es peer
  | .comparePeer k | .rebootLock k | .rebootRequest k => KnownOk own c k ∧ n = 0
  | .rebootWait k | .looping k => KnownOk own c k ∧ n ≤ 1
  | .matchPeer k info peer => (KnownOk own c k ∧ n ≤ 1) ∧ Polled es own k info peer
  | .bootLock k info peer | .bootRequest k info peer | .bootWait k info peer
  | .bootCheck k info peer _ =>
    (KnownOk own c k ∧ n ≤ 1) ∧ Polled es own k info peer ∧ Identified k info
  | .exiting r => n ≤ 1 ∧ ResultOk own c n r

/-- What was heard of the peer whose answer is awaited. -/
def Heard (es own : UpdateTrace) (s : State) : Prop :=
  match s.pc with
  | .infoWait _ peer | .infoTake _ peer => ∀ reply, s.operation = .done reply →
      reply.status = .ok → peer ≠ 0 → Gone es s peer ∨ Said own peer reply.info
  | .infoResponse _ peer info => peer ≠ 0 → Gone es s peer ∨ Said own peer info
  | .bootWait _ _ peer => s.client.bootDone = true → s.client.boot.error = .none →
      Gone es s peer ∨ BootSaid own peer s.client.boot
  | .bootCheck _ _ peer boot => boot.error = .none → Gone es s peer ∨ BootSaid own peer boot
  | _ => True

/-! ### A longer history says more -/

section Growing
variable {es own : UpdateTrace} {x : Entry State Action Event} {c : Call} {n : Nat}

theorem KnownOk.snoc {k : Known} (known : KnownOk own c k) : KnownOk (own ++ [x]) c k :=
  { known with said := known.said.snoc }

theorem Polled.snoc {k : Known} {info : DeviceInfo} {peer : Nat} (polled : Polled es own k info peer) :
    Polled (es ++ [x]) (own ++ [x]) k info peer :=
  { polled with said := polled.said.snoc, met := polled.met.snoc }

theorem Attributed.snoc {r : FirmwareInstallResult} {version : DeviceInfo → Version}
    {previous info : DeviceInfo} {boot : BootStatus} {before after : Nat}
    (attributed : Attributed own r version previous info boot before after) :
    Attributed (own ++ [x]) r version previous info boot before after :=
  { attributed with
    saidBefore := attributed.saidBefore.snoc
    saidAfter := attributed.saidAfter.snoc
    bootSaid := attributed.bootSaid.snoc }

theorem ResultOk.snoc {r : FirmwareInstallResult} (result : ResultOk own c n r) :
    ResultOk (own ++ [x]) c n r where
  target state := by
    obtain ⟨previous, info, boot, before, after, attributed⟩ := result.target state
    exact ⟨previous, info, boot, before, after, attributed.snoc⟩
  previous state := by
    obtain ⟨previous, info, boot, before, after, attributed⟩ := result.previous state
    exact ⟨previous, info, boot, before, after, attributed.snoc⟩
  asked := result.asked

theorem QueryOk.snoc {q : Query} (query : QueryOk own c n q) : QueryOk (own ++ [x]) c n q := by
  cases q with
  | before => exact query
  | poll => exact ⟨query.1.snoc, query.2⟩

theorem Facts.snoc {pc : SessionPc} (facts : Facts es own c n pc) : Facts (es ++ [x]) (own ++ [x]) c n pc := by
  cases pc with
  | idle | admitting => exact facts
  | infoLock | infoStale | infoPeer => exact QueryOk.snoc facts
  | infoSubmit | infoWait | infoTake | infoResponse => exact ⟨facts.1.snoc, facts.2.snoc⟩
  | comparePeer | rebootLock | rebootRequest | rebootWait | looping =>
    exact ⟨facts.1.snoc, facts.2⟩
  | matchPeer => exact ⟨⟨facts.1.1.snoc, facts.1.2⟩, facts.2.snoc⟩
  | bootLock | bootRequest | bootWait | bootCheck =>
    exact ⟨⟨facts.1.1.snoc, facts.1.2⟩, facts.2.1.snoc, facts.2.2⟩
  | exiting => exact ⟨facts.1, facts.2.snoc⟩

end Growing

/-! ### The pure decisions -/

section Decisions
variable {es own : UpdateTrace} {c : Call} {n : Nat} {k : Known} {q : Query} {info : DeviceInfo}
  {peer : Nat}

/-- A result that claims nothing about the firmware. -/
theorem ResultOk.unknown {r : FirmwareInstallResult} (state : r.state = .unknown)
    (asked : n ≠ 0 → c.options.valid = true ∧ ∃ previous, r.previousInfo = some previous ∧
      Fit c previous) : ResultOk own c n r where
  target target := by simp [state] at target
  previous previous := by simp [state] at previous
  asked := asked

/-- Leaving with the result so far and an error. -/
theorem KnownOk.leave (known : KnownOk own c k) {r : FirmwareInstallResult}
    (same : r.previousInfo = k.result.previousInfo) (state : r.state = k.result.state) :
    ResultOk own c n r :=
  .unknown (state.trans known.state) fun _ =>
    ⟨known.options, k.previous, same.trans known.recorded, known.fit⟩

theorem KnownOk.record (known : KnownOk own c k) {r : FirmwareInstallResult}
    (same : r.previousInfo = k.result.previousInfo) (state : r.state = k.result.state) :
    KnownOk own c { k with result := r } :=
  { known with recorded := same.trans known.recorded, state := state.trans known.state }

theorem judgeBefore_facts (options : c.options.valid = true) (said : Said own peer info) :
    (∀ r, judgeBefore c info peer = .inl r → ResultOk own c 0 r) ∧
    ∀ k, judgeBefore c info peer = .inr k → KnownOk own c k := by
  unfold judgeBefore
  dsimp only
  split
  · refine ⟨?_, by simp⟩
    rintro r ⟨⟩
    exact .unknown rfl (by simp)
  · rename_i protocol
    split
    · refine ⟨?_, by simp⟩
      rintro r ⟨⟩
      exact .unknown rfl (by simp)
    · rename_i identity
      split
      · refine ⟨?_, by simp⟩
        rintro r ⟨⟩
        exact .unknown rfl (by simp)
      · rename_i version
        split
        · refine ⟨?_, by simp⟩
          rintro r ⟨⟩
          exact .unknown rfl (by simp)
        · refine ⟨by simp, ?_⟩
          rintro k ⟨⟩
          simp only [Bool.or_eq_true, List.isEmpty_iff, not_or] at identity
          exact ⟨rfl, options, said, rfl, rfl, by simpa using protocol, identity.1, identity.2,
            by simpa using version⟩

theorem infoReturn_failed (query : QueryOk own c n q) {r : FirmwareDeviceInfoResult}
    (failed : r.info = none) : Facts es own c n (infoReturn q r) := by
  cases q with
  | before call =>
    obtain ⟨-, -, rfl⟩ := query
    simp only [infoReturn, failed]
    exact ⟨Nat.zero_le _, .unknown rfl (by simp)⟩
  | poll k =>
    simp only [infoReturn, failed]
    exact query

theorem infoReturn_answered (query : QueryOk own c n q) (said : Said own peer info)
    (met : Met es peer) :
    Facts es own c n (infoReturn q { info := some info, peerSession := peer }) := by
  cases q with
  | before call =>
    obtain ⟨rfl, options, rfl⟩ := query
    obtain ⟨left, right⟩ := judgeBefore_facts options said
    simp only [infoReturn]
    cases judged : judgeBefore call info peer with
    | inl r => exact ⟨Nat.zero_le _, left r judged⟩
    | inr k => exact ⟨right k judged, rfl⟩
  | poll k =>
    simp only [infoReturn]
    split
    · rename_i apart
      exact ⟨query, said, apart.2, met⟩
    · exact query

theorem judgeReboot_facts (known : KnownOk own c k) (once : n ≤ 1)
    (reboot : FirmwareRebootResult) : Facts es own c n (judgeReboot k reboot) := by
  unfold judgeReboot
  dsimp only
  split
  · exact ⟨known.record rfl rfl, once⟩
  · exact ⟨known.record rfl rfl, once⟩
  · exact ⟨known.record rfl rfl, once⟩
  · exact ⟨once, known.leave rfl rfl⟩

theorem judgeCurrent_facts (known : KnownOk own c k) (polled : Polled es own k info peer) :
    (∀ r, judgeCurrent k info = .inl r → ResultOk own c n r) ∧
    ∀ k', judgeCurrent k info = .inr k' →
      KnownOk own c k' ∧ Polled es own k' info peer ∧ Identified k' info := by
  unfold judgeCurrent
  dsimp only
  split
  · refine ⟨?_, by simp⟩
    rintro r ⟨⟩
    exact known.leave rfl rfl
  · rename_i same
    split
    · refine ⟨?_, by simp⟩
      rintro r ⟨⟩
      exact known.leave rfl rfl
    · rename_i protocol
      refine ⟨by simp, ?_⟩
      rintro k' ⟨⟩
      simp only [not_or, not_not] at same
      exact ⟨known.record rfl rfl, ⟨polled.said, polled.other, polled.met⟩, same.1, same.2.1,
        same.2.2, by simpa using protocol, rfl⟩

theorem BootStatus.confirmed_healthy {boot : BootStatus} (confirmed : boot.confirmed = true) :
    boot.error = .none ∧ Healthy boot := by
  simp only [BootStatus.confirmed, Bool.and_eq_true, beq_iff_eq, bne_iff_ne, ne_eq] at confirmed
  obtain ⟨⟨⟨⟨⟨⟨⟨⟨error, -⟩, state⟩, active⟩, primary⟩, pending⟩, transfer⟩, slot0⟩, slot1⟩ :=
    confirmed
  exact ⟨error, state, active, primary, pending, transfer, slot0, slot1⟩

theorem judgeBoot_facts (known : KnownOk own c k) (once : n ≤ 1) (polled : Polled es own k info peer)
    (identified : Identified k info) {boot : BootStatus}
    (said : boot.error = .none → BootSaid own peer boot) :
    Facts es own c n (judgeBoot k info boot) := by
  have attributed {r : FirmwareInstallResult} {version : DeviceInfo → Version}
      (shape : r.previousInfo = k.result.previousInfo ∧ r.deviceInfo = k.result.deviceInfo ∧
        r.bootStatus = some boot) (confirmed : boot.confirmed = true)
      (same : sameVersion info.firmwareVersion (version k.previous) = true) :
      Attributed own r version k.previous info boot k.previousPeer peer := by
    obtain ⟨error, healthy⟩ := BootStatus.confirmed_healthy confirmed
    exact ⟨shape.1.trans known.recorded, shape.2.1.trans identified.recorded, shape.2.2, known.said,
      polled.said, said error, polled.other, identified.serial, identified.board, identified.type,
      identified.protocol, same, healthy⟩
  have asked (r : FirmwareInstallResult) (same : r.previousInfo = k.result.previousInfo) :
      n ≠ 0 → c.options.valid = true ∧ ∃ previous, r.previousInfo = some previous ∧
        Fit c previous :=
    fun _ => ⟨known.options, k.previous, same.trans known.recorded, known.fit⟩
  unfold judgeBoot
  dsimp only
  split
  · rename_i confirmed
    split
    · rename_i target
      refine ⟨once, ?_, by simp, asked _ rfl⟩
      intro _
      exact ⟨_, _, _, _, _, attributed ⟨rfl, rfl, rfl⟩ confirmed (by rw [← known.call]; exact target)⟩
    · split
      · rename_i previous
        refine ⟨once, by simp, ?_, asked _ rfl⟩
        intro _
        exact ⟨_, _, _, _, _, attributed ⟨rfl, rfl, rfl⟩ confirmed previous⟩
      · exact ⟨known.record rfl rfl, once⟩
  · exact ⟨known.record rfl rfl, once⟩

end Decisions

/-! ### Steps -/

section Steps
variable {es own : UpdateTrace} {c : Call} {n : Nat} {s t : State} {a : Action} {event : Event}

/-- A session that is over stays so. -/
theorem Gone.step {peer : Nat} (gone : Gone es s peer)
    (change : t.client.peerSession = s.client.peerSession ∨ a = .peerSession t.client.peerSession)
    (fresh : ∀ peer, a = .peerSession peer → peer ≠ 0 ∧ ∀ y ∈ es, y.action ≠ .peerSession peer) :
    Gone (es ++ [⟨s, a, event, t⟩]) t peer := by
  refine ⟨gone.1.snoc, ?_⟩
  rcases change with same | new
  · rw [same]
    exact gone.2
  · rintro rfl
    obtain ⟨nonzero, unseen⟩ := fresh _ new
    rcases gone.1 with zero | ⟨y, member, earlier⟩
    · exact nonzero zero
    · exact unseen y member earlier

/-- Peer sessions change before anything is heard from the new one. -/
theorem Heard.outside (heard : Heard es own s) (facts : Facts es own c n s.pc)
    (out : Outside s a event t)
    (fresh : ∀ peer, a = .peerSession peer → peer ≠ 0 ∧ ∀ y ∈ es, y.action ≠ .peerSession peer) :
    Heard (es ++ [⟨s, a, event, t⟩]) (own ++ [⟨s, a, event, t⟩]) t := by
  have kept {peer : Nat} {P Q : Prop} (before : Gone es s peer ∨ P) (said : P → Q) :
      Gone (es ++ [⟨s, a, event, t⟩]) t peer ∨ Q :=
    before.imp (fun gone => gone.step out.peer fresh) said
  -- an answer that arrives now belongs to the peer session of now
  have now {peer : Nat} {Q : Prop} (met : Met es peer) (other : ∀ p, a ≠ .peerSession p)
      (said : s.client.peerSession = peer → Q) : Gone (es ++ [⟨s, a, event, t⟩]) t peer ∨ Q := by
    by_cases current : s.client.peerSession = peer
    · exact .inr (said current)
    · exact .inl (Gone.step ⟨met, current⟩ out.peer fresh)
  have position := out.pc
  unfold Heard at heard ⊢
  rw [position]
  cases pc : s.pc with
  | infoWait q peer | infoTake q peer =>
    rw [pc] at heard facts
    intro reply done ok nonzero
    rcases out.operation (by simp [State.querying, pc]) with same | ⟨arrived, rfl, ended⟩
    · exact kept (heard reply (same ▸ done) ok nonzero) Said.snoc
    · obtain rfl : arrived = reply := by
        rw [ended] at done
        exact InfoOperation.done.inj done
      exact now facts.2 (by simp) fun current =>
        ⟨_, List.mem_append_right _ (List.mem_singleton_self _), _, rfl, ok, rfl, current⟩
  | infoResponse q peer info =>
    rw [pc] at heard
    intro nonzero
    exact kept (heard nonzero) Said.snoc
  | bootWait k info peer =>
    rw [pc] at heard facts
    intro done error
    rcases out.boot with change | ⟨poll, reboot, uploading, reply, rfl, pending, started, intime,
      finished, collected⟩
    · rcases change with ⟨sameDone, sameBoot⟩ | asked | failed
      · rw [sameBoot] at error ⊢
        exact kept (heard (sameDone ▸ done) error) BootSaid.snoc
      · simp [asked] at done
      · exact absurd error failed
    · rw [collected]
      exact now facts.2.1.met (by simp) fun current =>
        ⟨_, List.mem_append_right _ (List.mem_singleton_self _), _, _, _, _, rfl, pending, started,
          intime, finished, rfl, current⟩
  | bootCheck k info peer boot =>
    rw [pc] at heard
    intro error
    exact kept (heard error) BootSaid.snoc
  | _ => trivial

/-- An answer of the session the client is in is not one of a session that is over. -/
theorem said_current {peer : Nat} {P : Prop} (current : s.client.peerSession = peer)
    (heard : Gone es s peer ∨ P) : P :=
  heard.resolve_left fun gone => gone.2 current

theorem Heard.snoc {x : Entry State Action Event} (heard : Heard es own s) : Heard (es ++ [x]) (own ++ [x]) s := by
  have gone {peer : Nat} : Gone es s peer → Gone (es ++ [x]) s peer :=
    fun gone => ⟨gone.1.snoc, gone.2⟩
  unfold Heard at heard ⊢
  cases pc : s.pc with
  | infoWait q peer | infoTake q peer =>
    rw [pc] at heard
    intro reply done ok nonzero
    exact (heard reply done ok nonzero).imp gone Said.snoc
  | infoResponse q peer info =>
    rw [pc] at heard
    intro nonzero
    exact (heard nonzero).imp gone Said.snoc
  | bootWait k info peer =>
    rw [pc] at heard
    intro done error
    exact (heard done error).imp gone BootSaid.snoc
  | bootCheck k info peer boot =>
    rw [pc] at heard
    intro error
    exact (heard error).imp gone BootSaid.snoc
  | _ => trivial

/-- Positions at which no answer is awaited. -/
def SessionPc.silent : SessionPc → Bool
  | .infoWait _ _ | .infoTake _ _ | .infoResponse _ _ _ | .bootWait _ _ _ | .bootCheck _ _ _ _ =>
    false
  | _ => true

theorem Heard.of_silent (silent : s.pc.silent = true) : Heard es own s := by
  unfold Heard
  cases pc : s.pc <;> simp [pc, SessionPc.silent] at silent ⊢

theorem infoReturn_silent (q : Query) (r : FirmwareDeviceInfoResult) :
    (infoReturn q r).silent = true := by
  unfold infoReturn
  split
  · rfl
  · split <;> rfl
  · rfl
  · split <;> rfl

theorem judgeReboot_silent (k : Known) (r : FirmwareRebootResult) :
    (judgeReboot k r).silent = true := by
  unfold judgeReboot
  dsimp only
  split <;> rfl

theorem judgeBoot_silent (k : Known) (info : DeviceInfo) (boot : BootStatus) :
    (judgeBoot k info boot).silent = true := by
  unfold judgeBoot
  dsimp only
  split
  · split
    · rfl
    · split <;> rfl
  · rfl

/-- What a step of the call establishes. -/
structure Advanced (es own : UpdateTrace) (c : Call) (n : Nat) (event : Event) (t : State) : Prop where
  facts : Facts es own c (n + if event.requests then 1 else 0) t.pc
  heard : Heard es own t
  result : ∀ r, event = .returned r → ResultOk own c n r

/-- A step that only moves the call. -/
theorem Advanced.goto {pc : SessionPc} (moved : s.goto pc = some (t, event))
    (facts : Facts es own c n pc) (heard : Heard es own { s with pc }) : Advanced es own c n event t := by
  cases moved
  exact ⟨facts, heard, by simp⟩

theorem advance_facts {ok : Bool} {status : FciEndpointStatus} (facts : Facts es own c n s.pc)
    (heard : Heard es own s) (met : Met es s.client.peerSession)
    (stepped : s.advance ok status = some (t, event)) : Advanced es own c n event t := by
  have failed {q : Query} {error : FirmwareUpdateError} (query : QueryOk own c n q) :
      ∀ {t event}, s.goto (infoReturn q { error }) = some (t, event) →
        Advanced es own c n event t := fun moved =>
    .goto moved (infoReturn_failed query rfl) (.of_silent (infoReturn_silent _ _))
  have judged {k : Known} {r : FirmwareRebootResult} (known : KnownOk own c k) (once : n ≤ 1) :
      ∀ {t event}, s.goto (judgeReboot k r) = some (t, event) → Advanced es own c n event t :=
    fun moved => .goto moved (judgeReboot_facts known once r) (.of_silent (judgeReboot_silent k r))
  unfold Heard at heard
  cases pc : s.pc <;> rw [pc] at facts heard <;> simp only [State.advance, pc] at stepped
  case idle => cases stepped
  case admitting call =>
    obtain ⟨rfl, options, rfl⟩ := facts
    split at stepped <;> cases stepped
    · exact ⟨⟨rfl, options, rfl⟩, .of_silent rfl, by simp⟩
    · refine ⟨Nat.zero_le _, .of_silent rfl, ?_⟩
      rintro r ⟨⟩
      exact .unknown rfl (by simp)
  case infoLock q =>
    split at stepped
    · exact .goto stepped facts (.of_silent rfl)
    · exact failed facts stepped
  case infoStale q =>
    split at stepped
    · exact failed facts stepped
    · split at stepped
      · split at stepped
        · exact failed facts stepped
        · cases stepped
          exact ⟨facts, .of_silent rfl, by simp⟩
      · exact .goto stepped facts (.of_silent rfl)
  case infoPeer q => exact .goto stepped ⟨facts, met⟩ (.of_silent rfl)
  case infoSubmit q peer =>
    split at stepped
    · cases stepped
      refine ⟨facts, ?_, by simp⟩
      intro reply done
      cases done
    · exact failed facts.1 stepped
  case infoWait q peer => exact .goto stepped facts heard
  case infoTake q peer =>
    split at stepped
    · exact failed facts.1 stepped
    · cases stepped
      exact ⟨infoReturn_failed facts.1 rfl, .of_silent (infoReturn_silent _ _), by simp⟩
    · rename_i reply done
      split at stepped
      · rename_i ok
        exact .goto stepped facts (heard reply done ok)
      · exact .goto stepped (infoReturn_failed facts.1 rfl) (.of_silent (infoReturn_silent _ _))
  case infoResponse q peer info =>
    split at stepped
    · exact failed facts.1 stepped
    · split at stepped
      · exact failed facts.1 stepped
      · rename_i same
        split at stepped
        · split at stepped
          · exact .goto stepped facts.1 (.of_silent rfl)
          · exact failed facts.1 stepped
        · rename_i nonzero
          have current : s.client.peerSession = peer := by
            by_contra other
            exact same ⟨nonzero, Ne.symm other⟩
          rw [current] at stepped
          exact .goto stepped
            (infoReturn_answered facts.1 (said_current current (heard nonzero)) facts.2)
            (.of_silent (infoReturn_silent _ _))
  case comparePeer k =>
    split at stepped
    · exact .goto stepped facts (.of_silent rfl)
    · obtain ⟨known, rfl⟩ := facts
      exact .goto stepped ⟨Nat.zero_le _, known.leave rfl rfl⟩ (.of_silent rfl)
  case rebootLock k =>
    split at stepped
    · exact .goto stepped facts (.of_silent rfl)
    · obtain ⟨known, rfl⟩ := facts
      exact judged known (Nat.zero_le _) stepped
  case rebootRequest k =>
    obtain ⟨known, rfl⟩ := facts
    split at stepped <;> cases stepped
    · exact ⟨⟨known, le_refl _⟩, .of_silent rfl, by simp⟩
    · exact ⟨judgeReboot_facts known (Nat.zero_le _) _, .of_silent (judgeReboot_silent _ _),
        by simp⟩
  case rebootWait k =>
    split at stepped
    · exact judged facts.1 facts.2 stepped
    · split at stepped
      · cases stepped
      · exact judged facts.1 facts.2 stepped
  case looping k =>
    split at stepped
    · exact .goto stepped facts (.of_silent rfl)
    · exact .goto stepped ⟨facts.2, facts.1.leave rfl rfl⟩ (.of_silent rfl)
  case matchPeer k info peer =>
    obtain ⟨⟨known, once⟩, polled⟩ := facts
    obtain ⟨left, right⟩ := judgeCurrent_facts (n := n) known polled
    split at stepped
    · split at stepped
      · rename_i r judged
        exact .goto stepped ⟨once, left r judged⟩ (.of_silent rfl)
      · rename_i k' judged
        obtain ⟨known', polled', identified⟩ := right k' judged
        split at stepped
        · exact .goto stepped ⟨⟨known', once⟩, polled', identified⟩ (.of_silent rfl)
        · exact .goto stepped ⟨once, known'.leave rfl rfl⟩ (.of_silent rfl)
    · exact .goto stepped ⟨known, once⟩ (.of_silent rfl)
  case bootLock k info peer =>
    split at stepped
    · exact .goto stepped facts (.of_silent rfl)
    · exact .goto stepped facts fun error => by cases error
  case bootRequest k info peer =>
    split at stepped
    · exact .goto stepped facts fun error => by cases error
    · split at stepped
      · rename_i client made
        cases stepped
        refine ⟨facts, ?_, by simp⟩
        intro done
        simp [Client.bootRequest_asked made] at done
      · rename_i client error refused made
        cases stepped
        refine ⟨facts, ?_, by simp⟩
        intro none
        exact absurd none refused
  case bootWait k info peer =>
    split at stepped
    · rename_i done
      exact .goto stepped facts (heard done)
    · split at stepped
      · cases stepped
      · exact .goto stepped facts fun error => by cases error
  case bootCheck k info peer boot =>
    obtain ⟨⟨known, once⟩, polled, identified⟩ := facts
    split at stepped
    · rename_i current
      exact .goto stepped (judgeBoot_facts known once polled identified fun error =>
        said_current current.symm (heard error)) (.of_silent (judgeBoot_silent _ _ _))
    · exact .goto stepped ⟨known, once⟩ (.of_silent rfl)
  case exiting r =>
    cases stepped
    refine ⟨facts.1, .of_silent rfl, ?_⟩
    rintro r' ⟨⟩
    exact facts.2

end Steps

/-! ### The gate and the peer session -/

/-- The call holds the verification gate. -/
def SessionPc.admitted : SessionPc → Bool
  | .idle | .admitting _ => false
  | _ => true

theorem infoReturn_admitted (q : Query) (r : FirmwareDeviceInfoResult) :
    (infoReturn q r).admitted = true := by
  unfold infoReturn
  split
  · rfl
  · split <;> rfl
  · rfl
  · split <;> rfl

theorem judgeReboot_admitted (k : Known) (r : FirmwareRebootResult) :
    (judgeReboot k r).admitted = true := by
  unfold judgeReboot
  dsimp only
  split <;> rfl

theorem judgeBoot_admitted (k : Known) (info : DeviceInfo) (boot : BootStatus) :
    (judgeBoot k info boot).admitted = true := by
  unfold judgeBoot
  dsimp only
  split
  · split
    · rfl
    · split <;> rfl
  · rfl

/-- What one step of the call does to the gate and the peer session. -/
structure Gated (s t : State) : Prop where
  verifying : t.client.verifying = t.pc.admitted
  peerSession : t.client.peerSession = s.client.peerSession

section Gate
variable {s t : State} {event : Event}

theorem Gated.goto {pc : SessionPc} (held : s.client.verifying = true)
    (moved : s.goto pc = some (t, event)) (admitted : pc.admitted = true) : Gated s t := by
  cases moved
  exact ⟨held.trans admitted.symm, rfl⟩

theorem Gated.frame {client : Client} {pc : SessionPc} (held : s.client.verifying = true)
    (frame : s.client.Frame client) (admitted : pc.admitted = true) :
    Gated s { s with client, pc } :=
  ⟨frame.verifying.trans (held.trans admitted.symm), frame.peerSession⟩

theorem beginVerification_cases (c : Client) :
    (∃ client, c.beginVerification = (client, .none) ∧ client.verifying = true ∧
      client.peerSession = c.peerSession) ∨
    ∃ error, error ≠ .none ∧ c.beginVerification = (c, error) := by
  unfold Client.beginVerification
  split
  · exact .inr ⟨_, by simp, rfl⟩
  · split
    · exact .inr ⟨_, by simp, rfl⟩
    · exact .inl ⟨_, rfl, rfl, rfl⟩

/-- The gate is held exactly while the call is past its admission. -/
theorem advance_gated {ok : Bool} {status : FciEndpointStatus}
    (held : s.client.verifying = s.pc.admitted)
    (stepped : s.advance ok status = some (t, event)) : Gated s t := by
  have info {q : Query} {r : FirmwareDeviceInfoResult} := infoReturn_admitted q r
  have reboot {k : Known} {r : FirmwareRebootResult} := judgeReboot_admitted k r
  cases pc : s.pc <;> rw [pc] at held <;> simp only [State.advance, pc] at stepped
  case idle => cases stepped
  case admitting call =>
    rcases beginVerification_cases s.client with ⟨client, made, verifying, peer⟩ | ⟨error, refused, made⟩
    · rw [made] at stepped
      cases stepped
      exact ⟨verifying, peer⟩
    · rw [made] at stepped
      split at stepped
      · rename_i same
        exact absurd (Prod.ext_iff.mp same).2 refused
      · rename_i same
        cases stepped
        obtain rfl := (Prod.ext_iff.mp same).1
        exact ⟨held, rfl⟩
  case infoLock q =>
    refine .goto held stepped ?_
    split
    · rfl
    · exact info
  case infoStale q =>
    split at stepped
    · exact .goto held stepped info
    · split at stepped
      · split at stepped
        · exact .goto held stepped info
        · cases stepped
          exact ⟨held, rfl⟩
      · exact .goto held stepped rfl
  case infoPeer q => exact .goto held stepped rfl
  case infoSubmit q peer =>
    split at stepped
    · cases stepped
      exact ⟨held, rfl⟩
    · exact .goto held stepped info
  case infoWait q peer => exact .goto held stepped rfl
  case infoTake q peer =>
    split at stepped
    · exact .goto held stepped info
    · cases stepped
      exact ⟨held.trans info.symm, rfl⟩
    · split at stepped
      · cases stepped
        exact ⟨held, rfl⟩
      · cases stepped
        exact ⟨held.trans info.symm, rfl⟩
  case infoResponse q peer response =>
    split at stepped
    · exact .goto held stepped info
    · split at stepped
      · exact .goto held stepped info
      · split at stepped
        · refine .goto held stepped ?_
          split
          · rfl
          · exact info
        · exact .goto held stepped info
  case comparePeer k =>
    refine .goto held stepped ?_
    split <;> rfl
  case rebootLock k =>
    refine .goto held stepped ?_
    split
    · rfl
    · exact reboot
  case rebootRequest k =>
    have frame := (Client.rebootRequest_frame (c := s.client) .tryBoot true).1
    split at stepped <;> rename_i made <;> cases stepped <;> rw [made] at frame
    · exact .frame held frame rfl
    · exact .frame held frame reboot
  case rebootWait k =>
    split at stepped
    · exact .goto held stepped reboot
    · split at stepped
      · cases stepped
      · exact .goto held stepped reboot
  case looping k =>
    refine .goto held stepped ?_
    split <;> rfl
  case matchPeer k response peer =>
    split at stepped
    · split at stepped
      · exact .goto held stepped rfl
      · refine .goto held stepped ?_
        split <;> rfl
    · exact .goto held stepped rfl
  case bootLock k response peer =>
    refine .goto held stepped ?_
    split <;> rfl
  case bootRequest k response peer =>
    have frame := Client.bootRequest_frame (c := s.client)
    split at stepped
    · exact .goto held stepped rfl
    · split at stepped <;> rename_i made <;> cases stepped <;> rw [made] at frame
      · exact .frame held frame rfl
      · exact .frame held frame rfl
  case bootWait k response peer =>
    split at stepped
    · exact .goto held stepped rfl
    · split at stepped
      · cases stepped
      · exact .goto held stepped rfl
  case bootCheck k response peer boot =>
    refine .goto held stepped ?_
    split
    · exact judgeBoot_admitted _ _ _
    · rfl
  case exiting r =>
    cases stepped
    exact ⟨rfl, rfl⟩

end Gate
end Florid.Upgrade
