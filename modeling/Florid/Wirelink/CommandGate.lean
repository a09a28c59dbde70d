import Florid.Wirelink.Commands
import Florid.Wirelink.Provenance

/-! Senders at work on the endpoint: any number of threads inside `send*` calls, next to
everything else that happens to it. A call reads the capability word, passes `s_commandToken`
in its two regions, draws a sequence number, encodes, and hands the payload to the executor.

The room of a message's payload buffer is a parameter. Of the executor it is assumed that it
keeps a payload exactly when it answers `WL_OK`; `lanes` lists what it kept. -/
namespace Florid.Wirelink
open Transition

/-- Where a thread stands in a `send*` call: before the upgrade gate, before the locked region
of `s_commandToken`, before `fetch_add`, before encoding. -/
inductive SenderPc where
  | idle
  | gate (c : Send)
  | read (c : Send)
  | sequence (c : Send) (leaseToken : Nat)
  | submit (wire : CommandWire)

structure CommandWorld where
  link : World := {}
  senders : Nat → SenderPc := fun _ => .idle
  commandSequence : BitVec 32 := 0
  lanes : List (Nat × List UInt8) := []

inductive CommandAction where
  | link (a : Action)
  | send (t : Nat) (c : Send)
  | gate (t : Nat)
  | read (t : Nat)
  | sequence (t : Nat)
  | submit (t : Nat) (answer : WlResult)

inductive CommandEvent where
  | quiet
  | link (e : Event)
  | drew (sequence : BitVec 32)
  | returned (t : Nat) (status : FciEndpointStatus)

namespace CommandWorld

def setSender (w : CommandWorld) (t : Nat) (pc : SenderPc) : CommandWorld :=
  { w with senders := Function.update w.senders t pc }

/-- A thread inside a call takes no step outside it. -/
def free (w : CommandWorld) (a : Action) : Bool :=
  match a.thread with
  | none => true
  | some t =>
    match w.senders t with
    | .idle => true
    | _ => false

def step (capacity : CommandMessage → Nat) (w : CommandWorld) :
    CommandAction → Option (CommandWorld × CommandEvent)
  | .link a =>
    if w.free a then (w.link.step a).map fun next => ({ w with link := next.1 }, .link next.2)
    else none
  | .send t c =>
    match w.senders t, w.link.callers t with
    | .idle, .idle =>
      match c.spec.check w.link.endpoint.commandCapabilities with
      | .error status => some (w, .returned t status)
      | .ok () => some (w.setSender t (.gate c), .quiet)
    | _, _ => none
  | .gate t =>
    match w.senders t with
    | .gate c =>
      match w.link.step (.token t) with
      | some (link, .token status _) =>
        some ({ w.setSender t .idle with link }, .returned t status)
      | some (link, _) => some ({ w.setSender t (.read c) with link }, .quiet)
      | none => none
    | _ => none
  | .read t =>
    match w.senders t with
    | .read c =>
      match w.link.step (.tokenRead t) with
      | some (link, .token .ok value) =>
        some ({ w.setSender t (.sequence c value) with link }, .quiet)
      | some (link, .token status _) =>
        some ({ w.setSender t .idle with link }, .returned t status)
      | _ => none
    | _ => none
  | .sequence t =>
    match w.senders t with
    | .sequence c leaseToken =>
      let next := w.commandSequence + 1
      some ({ w.setSender t (.submit (c.spec.wire leaseToken next)) with commandSequence := next },
        .drew next)
    | _ => none
  | .submit t answer =>
    match w.senders t with
    | .submit wire =>
      match wire.encode (capacity wire.message) with
      | none => some (w.setSender t .idle, .returned t .codecError)
      | some payload =>
        some ({ w.setSender t .idle with
          lanes := if answer = .ok then w.lanes ++ [(wire.message.id, payload)] else w.lanes },
          .returned t (endpointStatus answer))
    | _ => none

end CommandWorld

/-- The endpoint with its senders. -/
def sending (capacity : CommandMessage → Nat) :
    Machine CommandWorld CommandAction CommandEvent := ⟨{}, CommandWorld.step capacity⟩

abbrev CommandTrace := List (Entry CommandWorld CommandAction CommandEvent)

variable {capacity : CommandMessage → Nat} {w next : CommandWorld} {a : CommandAction}
  {event : CommandEvent} {es : CommandTrace}

/-- Every way a step can go. -/
inductive CommandMoves (capacity : CommandMessage → Nat) (w : CommandWorld) :
    CommandAction → CommandWorld → CommandEvent → Prop where
  | link {a link e} : w.free a = true → w.link.step a = some (link, e) →
      CommandMoves capacity w (.link a) { w with link } (.link e)
  | unfit {t c status} : w.senders t = .idle → status ≠ .ok →
      CommandMoves capacity w (.send t c) w (.returned t status)
  | begun {t c} : w.senders t = .idle →
      c.spec.check w.link.endpoint.commandCapabilities = .ok () →
      CommandMoves capacity w (.send t c) (w.setSender t (.gate c)) .quiet
  | upgrading {t c} : w.senders t = .gate c →
      w.link.step (.token t) = some (w.link, .token .busy 0) →
      CommandMoves capacity w (.gate t) (w.setSender t .idle) (.returned t .busy)
  | gated {t c link} : w.senders t = .gate c → w.link.upgradeActive = false →
      w.link.step (.token t) = some (link, .quiet) →
      CommandMoves capacity w (.gate t) { w.setSender t (.read c) with link } .quiet
  | unleased {t c link status value} : w.senders t = .read c → status ≠ .ok →
      w.link.step (.tokenRead t) = some (link, .token status value) →
      CommandMoves capacity w (.read t) { w.setSender t .idle with link } (.returned t status)
  | leased {t c link} : w.senders t = .read c → w.link.endpoint.running = true →
      Endpoint.leaseUsable w.link.endpoint.lease.state = true →
      w.link.endpoint.lease.token ≠ 0 →
      w.link.step (.tokenRead t) = some (link, .token .ok w.link.endpoint.lease.token) →
      CommandMoves capacity w (.read t)
        { w.setSender t (.sequence c w.link.endpoint.lease.token) with link } .quiet
  | drew {t c leaseToken} : w.senders t = .sequence c leaseToken →
      CommandMoves capacity w (.sequence t)
        { w.setSender t (.submit (c.spec.wire leaseToken (w.commandSequence + 1))) with
          commandSequence := w.commandSequence + 1 } (.drew (w.commandSequence + 1))
  | unencoded {t wire answer} : w.senders t = .submit wire →
      wire.encode (capacity wire.message) = none →
      CommandMoves capacity w (.submit t answer) (w.setSender t .idle) (.returned t .codecError)
  | dropped {t wire answer} : w.senders t = .submit wire → answer ≠ .ok →
      CommandMoves capacity w (.submit t answer) (w.setSender t .idle)
        (.returned t (endpointStatus answer))
  | submitted {t wire payload} : w.senders t = .submit wire →
      wire.encode (capacity wire.message) = some payload →
      CommandMoves capacity w (.submit t .ok)
        { w.setSender t .idle with lanes := w.lanes ++ [(wire.message.id, payload)] }
        (.returned t .ok)

/-- `s_commandToken` answers ok only with the token of a usable lease. -/
theorem Endpoint.commandToken_ok {e : Endpoint} {value : Nat} (ok : e.commandToken = (.ok, value)) :
    e.running = true ∧ leaseUsable e.lease.state = true ∧ e.lease.token ≠ 0 ∧
      value = e.lease.token := by
  unfold commandToken at ok
  split at ok
  · cases ok
  · rename_i running
    split at ok
    · cases ok
    · rename_i usable
      simp only [Prod.mk.injEq, true_and] at ok
      simp only [Bool.or_eq_true, Bool.not_eq_true', beq_iff_eq, not_or, Bool.not_eq_false] at usable
      exact ⟨by simpa using running, usable.1, usable.2, ok.symm⟩

theorem command_moves (stepped : w.step capacity a = some (next, event)) :
    CommandMoves capacity w a next event := by
  cases a with
  | link a =>
    simp only [CommandWorld.step] at stepped
    split at stepped
    · rename_i free
      simp only [Option.map_eq_some_iff, Prod.mk.injEq] at stepped
      obtain ⟨⟨link, e⟩, inner, rfl, rfl⟩ := stepped
      exact .link free inner
    · cases stepped
  | send t c =>
    simp only [CommandWorld.step] at stepped
    split at stepped
    · rename_i pc _
      split at stepped
      · rename_i status failed
        simp only [Option.some.injEq, Prod.mk.injEq] at stepped
        obtain ⟨rfl, rfl⟩ := stepped
        refine .unfit pc ?_
        rintro rfl
        unfold SendSpec.check at failed
        split at failed
        · cases failed
        · split at failed <;> cases failed
      · rename_i passed
        simp only [Option.some.injEq, Prod.mk.injEq] at stepped
        obtain ⟨rfl, rfl⟩ := stepped
        exact .begun pc passed
    · cases stepped
  | gate t =>
    simp only [CommandWorld.step] at stepped
    split at stepped
    · rename_i c pc
      cases inner : w.link.step (.token t) with
      | none => simp [inner] at stepped
      | some result =>
        obtain ⟨link, e⟩ := result
        cases step_moves inner with
        | tokenBusy idle active =>
          simp only [inner, Option.some.injEq, Prod.mk.injEq] at stepped
          obtain ⟨rfl, rfl⟩ := stepped
          exact .upgrading pc inner
        | tokenGate idle inactive =>
          simp only [inner, Option.some.injEq, Prod.mk.injEq] at stepped
          obtain ⟨rfl, rfl⟩ := stepped
          exact .gated pc inactive inner
    · cases stepped
  | read t =>
    simp only [CommandWorld.step] at stepped
    split at stepped
    · rename_i c pc
      split at stepped
      · rename_i link value inner
        simp only [Option.some.injEq, Prod.mk.injEq] at stepped
        obtain ⟨rfl, rfl⟩ := stepped
        have token : w.link.endpoint.commandToken = (.ok, value) := by
          generalize emitted : Event.token .ok value = e at inner
          cases step_moves inner with
          | tokenRead =>
            simp only [Event.token.injEq] at emitted
            exact Prod.ext emitted.1.symm emitted.2.symm
        obtain ⟨running, usable, nonzero, rfl⟩ := Endpoint.commandToken_ok token
        exact .leased pc running usable nonzero inner
      · rename_i link status value failed inner
        simp only [Option.some.injEq, Prod.mk.injEq] at stepped
        obtain ⟨rfl, rfl⟩ := stepped
        refine .unleased pc ?_ inner
        rintro rfl
        exact failed rfl
      · cases stepped
    · cases stepped
  | sequence t =>
    simp only [CommandWorld.step] at stepped
    split at stepped
    · rename_i pc
      simp only [Option.some.injEq, Prod.mk.injEq] at stepped
      obtain ⟨rfl, rfl⟩ := stepped
      exact .drew pc
    · cases stepped
  | submit t answer =>
    simp only [CommandWorld.step] at stepped
    split at stepped
    · rename_i wire pc
      split at stepped
      · rename_i failed
        simp only [Option.some.injEq, Prod.mk.injEq] at stepped
        obtain ⟨rfl, rfl⟩ := stepped
        exact .unencoded pc failed
      · rename_i payload encoded
        simp only [Option.some.injEq, Prod.mk.injEq] at stepped
        obtain ⟨rfl, rfl⟩ := stepped
        by_cases ok : answer = .ok
        · subst ok
          exact .submitted pc encoded
        · rw [if_neg ok]
          exact .dropped pc ok
    · cases stepped

theorem command_moves_of {past : CommandTrace} {x : Entry CommandWorld CommandAction CommandEvent}
    (run : Run (sending capacity) (past ++ [x]) w) :
    Run (sending capacity) past x.before ∧ CommandMoves capacity x.before x.action w x.event := by
  obtain ⟨before, stepped, rfl⟩ := run.of_snoc
  exact ⟨before, command_moves stepped⟩

/-! ### The endpoint under its senders -/

/-- What a step does on the endpoint. -/
def CommandAction.onLink : CommandAction → Option Action
  | .link a => some a
  | .gate t => some (.token t)
  | .read t => some (.tokenRead t)
  | _ => none

def linkEntry (x : Entry CommandWorld CommandAction CommandEvent) :
    Option (Entry World Action Event) :=
  x.action.onLink.bind fun a =>
    (x.before.link.step a).map fun next => ⟨x.before.link, a, next.2, next.1⟩

/-- The endpoint's own history. -/
def linkTrace (es : CommandTrace) : Trace := es.filterMap linkEntry

theorem CommandMoves.link_cases (moved : CommandMoves capacity w a next event) :
    a.onLink = none ∧ next.link = w.link ∨
      ∃ b e, a.onLink = some b ∧ w.link.step b = some (next.link, e) := by
  cases moved with
  | link _ stepped => exact .inr ⟨_, _, rfl, stepped⟩
  | upgrading _ stepped => exact .inr ⟨_, _, rfl, stepped⟩
  | gated _ _ stepped => exact .inr ⟨_, _, rfl, stepped⟩
  | unleased _ _ stepped => exact .inr ⟨_, _, rfl, stepped⟩
  | leased _ _ _ _ stepped => exact .inr ⟨_, _, rfl, stepped⟩
  | _ => exact .inl ⟨rfl, rfl⟩

/-- The senders take the endpoint through runs of its own machine. -/
theorem link_run (run : Run (sending capacity) es w) : Run machine (linkTrace es) w.link := by
  refine run.history (P := fun es w => Run machine (linkTrace es) w.link) .nil ?_
  intro es s a e t before held stepped
  unfold linkTrace at held ⊢
  rw [List.filterMap_append]
  rcases (command_moves stepped).link_cases with ⟨apart, same⟩ | ⟨b, e', onLink, inner⟩
  · simpa [linkEntry, apart, same] using held
  · have kept := held.snoc inner
    simpa [linkEntry, onLink, inner] using kept

/-! ### The steps of one call -/

def CommandAction.thread : CommandAction → Option Nat
  | .send t _ | .gate t | .read t | .sequence t | .submit t _ => some t
  | .link _ => none

/-- The steps of thread `t` in `send*` calls. -/
def ownSteps (t : Nat) (es : CommandTrace) : CommandTrace :=
  es.filter fun x => x.action.thread == some t

theorem ownSteps_snoc (t : Nat) (es : CommandTrace)
    (x : Entry CommandWorld CommandAction CommandEvent) :
    ownSteps t (es ++ [x]) = if x.action.thread = some t then ownSteps t es ++ [x]
      else ownSteps t es := by
  by_cases own : x.action.thread = some t <;> simp [ownSteps, own]

section
variable (t : Nat) (c : Send) (x : Entry CommandWorld CommandAction CommandEvent)

/-- The call began with valid arguments and on a device that supports it. -/
def Began : Prop :=
  x.action = .send t c ∧ c.spec.supported x.before.link.endpoint.commandCapabilities = true ∧
    c.spec.validArguments = true

/-- No upgrade was active. -/
def Gated : Prop := x.action = .gate t ∧ x.before.link.upgradeActive = false

/-- The endpoint was running and held a usable lease with a token. -/
def Leased : Prop :=
  x.action = .read t ∧ x.before.link.endpoint.running = true ∧
    Endpoint.leaseUsable x.before.link.endpoint.lease.state = true ∧
    x.before.link.endpoint.lease.token ≠ 0

def Drew (sequence : BitVec 32) : Prop := x.action = .sequence t ∧ x.event = .drew sequence

end

/-- The last steps of the thread are one call up to its encoding of `wire`: arguments and
capability, upgrade gate, lease, sequence number. -/
def Authorised (t : Nat) (c : Send) (wire : CommandWire) (es : CommandTrace) : Prop :=
  ∃ earlier b g r n sequence, ownSteps t es = earlier ++ [b, g, r, n] ∧ Began t c b ∧
    Gated t g ∧ Leased t r ∧ Drew t n sequence ∧
    wire = c.spec.wire r.before.link.endpoint.lease.token sequence

/-- What the steps of a thread have established when it stands at a place. -/
def Established (t : Nat) (es : CommandTrace) : SenderPc → Prop
  | .idle => True
  | .gate c => ∃ earlier b, ownSteps t es = earlier ++ [b] ∧ Began t c b
  | .read c => ∃ earlier b g, ownSteps t es = earlier ++ [b, g] ∧ Began t c b ∧ Gated t g
  | .sequence c leaseToken =>
    ∃ earlier b g r, ownSteps t es = earlier ++ [b, g, r] ∧ Began t c b ∧ Gated t g ∧
      Leased t r ∧ leaseToken = r.before.link.endpoint.lease.token
  | .submit wire => ∃ c, Authorised t c wire es

theorem Established.congr {t : Nat} {es fs : CommandTrace} {pc : SenderPc}
    (same : ownSteps t fs = ownSteps t es) (held : Established t es pc) :
    Established t fs pc := by
  cases pc with
  | idle => trivial
  | gate | read | sequence | submit =>
    simp only [Established, Authorised, same] at held ⊢
    exact held

theorem CommandMoves.sender_frame (moved : CommandMoves capacity w a next event) {t : Nat}
    (other : a.thread ≠ some t) : next.senders t = w.senders t := by
  cases moved with
  | link | unfit => rfl
  | _ =>
    refine Function.update_of_ne ?_ _ _
    rintro rfl
    exact other rfl

/-- One step carries what a thread has established to its next place. -/
theorem Established.step {t : Nat} (held : Established t es (w.senders t))
    (moved : CommandMoves capacity w a next event) :
    Established t (es ++ [⟨w, a, event, next⟩]) (next.senders t) := by
  by_cases own : a.thread = some t
  · have grown : ownSteps t (es ++ [⟨w, a, event, next⟩]) =
        ownSteps t es ++ [⟨w, a, event, next⟩] := by
      rw [ownSteps_snoc, if_pos own]
    cases moved with
    | link => cases own
    | unfit pc =>
      cases own
      rw [pc]
      trivial
    | begun pc passed =>
      cases own
      obtain ⟨supported, valid⟩ := SendSpec.check_ok passed
      change Established t _ (Function.update w.senders t _ t)
      rw [Function.update_self]
      exact ⟨_, _, grown, rfl, supported, valid⟩
    | gated pc inactive =>
      cases own
      rw [pc] at held
      obtain ⟨earlier, b, steps, began⟩ := held
      change Established t _ (Function.update w.senders t _ t)
      rw [Function.update_self]
      exact ⟨earlier, b, _, by rw [grown, steps, List.append_assoc]; rfl, began, rfl, inactive⟩
    | leased pc running usable nonzero =>
      cases own
      rw [pc] at held
      obtain ⟨earlier, b, g, steps, began, gated⟩ := held
      change Established t _ (Function.update w.senders t _ t)
      rw [Function.update_self]
      exact ⟨earlier, b, g, _, by rw [grown, steps, List.append_assoc]; rfl, began, gated,
        ⟨rfl, running, usable, nonzero⟩, rfl⟩
    | drew pc =>
      cases own
      rw [pc] at held
      obtain ⟨earlier, b, g, r, steps, began, gated, leased, rfl⟩ := held
      change Established t _ (Function.update w.senders t _ t)
      rw [Function.update_self]
      exact ⟨_, earlier, b, g, r, _, _, by rw [grown, steps, List.append_assoc]; rfl, began, gated, leased,
        ⟨rfl, rfl⟩, rfl⟩
    | upgrading | unleased | unencoded | dropped | submitted =>
      cases own
      change Established t _ (Function.update w.senders t _ t)
      rw [Function.update_self]
      trivial
  · rw [moved.sender_frame own]
    refine held.congr ?_
    rw [ownSteps_snoc, if_neg own]

theorem Established.of_run (run : Run (sending capacity) es w) (t : Nat) :
    Established t es (w.senders t) := by
  refine run.history (P := fun es w => Established t es (w.senders t)) ?_ ?_
  · change Established t [] .idle
    trivial
  intro es s a e next before held stepped
  exact held.step (command_moves stepped)

/-! ### Sequence numbers -/

def drawnBy (x : Entry CommandWorld CommandAction CommandEvent) : Option (BitVec 32) :=
  match x.event with
  | .drew sequence => some sequence
  | _ => none

/-- The sequence numbers handed out, in their order. -/
def drawn (es : CommandTrace) : List (BitVec 32) := es.filterMap drawnBy

theorem CommandMoves.sequence_cases (moved : CommandMoves capacity w a next event) :
    drawnBy ⟨w, a, event, next⟩ = none ∧ next.commandSequence = w.commandSequence ∨
    drawnBy ⟨w, a, event, next⟩ = some (w.commandSequence + 1) ∧
      next.commandSequence = w.commandSequence + 1 := by
  cases moved with
  | drew => exact .inr ⟨rfl, rfl⟩
  | _ => exact .inl ⟨rfl, rfl⟩

/-- The `k`-th number handed out is `k`. -/
theorem drawn_eq (run : Run (sending capacity) es w) :
    drawn es = (List.range' 1 (drawn es).length).map (BitVec.ofNat 32) ∧
      w.commandSequence = BitVec.ofNat 32 (drawn es).length := by
  refine run.history (P := fun es w =>
    drawn es = (List.range' 1 (drawn es).length).map (BitVec.ofNat 32) ∧
      w.commandSequence = BitVec.ofNat 32 (drawn es).length) ⟨rfl, rfl⟩ ?_
  intro es s a e t before held stepped
  obtain ⟨numbers, counter⟩ := held
  rcases (command_moves stepped).sequence_cases with ⟨quiet, same⟩ | ⟨drew, next⟩
  · have unchanged : drawn (es ++ [⟨s, a, e, t⟩]) = drawn es := by
      simp [drawn, quiet]
    rw [unchanged]
    exact ⟨numbers, same.trans counter⟩
  · have grown : drawn (es ++ [⟨s, a, e, t⟩]) = drawn es ++ [s.commandSequence + 1] := by
      simp [drawn, drew]
    have successor : s.commandSequence + 1 = BitVec.ofNat 32 ((drawn es).length + 1) := by
      rw [counter, BitVec.ofNat_add]
      rfl
    rw [grown, List.length_append, List.length_singleton, next]
    refine ⟨?_, successor⟩
    rw [List.range'_concat, List.map_append, ← numbers, successor, Nat.one_mul, Nat.add_comm 1]
    rfl

/-- Fewer than 2^32 numbers are handed out in increasing order. -/
theorem drawn_increasing (run : Run (sending capacity) es w) (bound : (drawn es).length < 2 ^ 32) :
    ((drawn es).map BitVec.toNat).Pairwise (· < ·) := by
  have plain : (drawn es).map BitVec.toNat = List.range' 1 (drawn es).length := by
    conv_lhs => rw [(drawn_eq run).1]
    rw [List.map_map]
    refine (List.map_congr_left ?_).trans (List.map_id _)
    intro k member
    obtain ⟨-, upper⟩ := List.mem_range'_1.mp member
    exact Nat.mod_eq_of_lt (by omega)
  rw [plain]
  exact List.pairwise_lt_range' _

/-! ### The gate -/

/-- The last successful `GetDeviceInfo` before the call advertised what its message needs. -/
def Supported (c : Send) (past : CommandTrace) : Prop :=
  ∀ capability, c.spec.message.capability = some capability →
    ∃ info, lastDeviceInfo (linkTrace past) = some info ∧
      info.commandCapabilities &&& capability.bit ≠ 0

theorem Began.device_supports {t : Nat} {c : Send} {past rest : CommandTrace}
    {b : Entry CommandWorld CommandAction CommandEvent} (began : Began t c b)
    (run : Run (sending capacity) (past ++ b :: rest) w) : Supported c past := by
  intro capability needed
  have supported := began.2.1
  rw [capabilities_of_run (link_run run.entry.1), SendSpec.supported, c.capability_eq, needed]
    at supported
  simp only [Option.all_some, bne_iff_ne, advertised] at supported
  split at supported
  · simp at supported
  · rename_i info last
    exact ⟨info, last, supported⟩

/-- In every run: a `send*` call that returns ok has passed the gate in its own steps (running
endpoint, no upgrade, usable lease, a device that supports it) and has submitted one sound message
under the token it read. No other step submits anything, and the sequence numbers increase. -/
theorem sends_gated {past : CommandTrace} {x : Entry CommandWorld CommandAction CommandEvent}
    (run : Run (sending capacity) (past ++ [x]) w) :
    (∀ t, x.event = .returned t .ok → ∃ c wire payload, Authorised t c wire past ∧
      (∀ b earlier later, past = earlier ++ b :: later → Began t c b → Supported c earlier) ∧
      wire.Sound ∧ wire.leaseToken ≠ 0 ∧ (∃ front, payload = front ++ put64 wire.leaseToken) ∧
      wire.encode (capacity wire.message) = some payload ∧
      w.lanes = x.before.lanes ++ [(wire.message.id, payload)]) ∧
    ((∀ t, x.event ≠ .returned t .ok) → w.lanes = x.before.lanes) ∧
    ((drawn (past ++ [x])).length < 2 ^ 32 →
      ((drawn (past ++ [x])).map BitVec.toNat).Pairwise (· < ·)) := by
  obtain ⟨before, moved⟩ := command_moves_of run
  refine ⟨?_, ?_, drawn_increasing run⟩
  · intro t ok
    generalize x.action = action, returned : x.event = event at moved
    rw [ok] at returned
    cases moved with
    | unfit _ failed | unleased _ failed =>
      cases returned
      exact absurd rfl failed
    | link | begun | upgrading | gated | leased | drew | unencoded => cases returned
    | dropped _ refused =>
      simp only [CommandEvent.returned.injEq] at returned
      exact absurd (endpointStatus_ok.mp returned.2.symm) refused
    | submitted pc encoded =>
      cases returned
      have held := Established.of_run before t
      rw [pc] at held
      obtain ⟨c, authorised⟩ := held
      refine ⟨c, _, _, authorised, ?_, ?_, ?_, CommandWire.encode_token encoded, encoded, rfl⟩
      · intro b earlier later split began
        subst split
        exact began.device_supports before
      · obtain ⟨_, b, _, _, _, _, -, began, -, -, -, rfl⟩ := authorised
        exact Send.wire_sound began.2.2 _ _
      · obtain ⟨_, _, _, r, _, _, -, -, -, leased, -, rfl⟩ := authorised
        exact leased.2.2.2
  · intro other
    generalize x.action = action, x.event = event at moved other
    cases moved with
    | submitted => exact absurd rfl (other _)
    | _ => rfl

/-- A joint velocity call under a held lease, up to its encoding, with 2048 bytes of room. -/
def velocityDrawn : CommandTrace × CommandWorld :=
  (exec (sending fun _ => 2048)
    (heldLease.map .link ++ [.send 1 (.jointVelocity {} 0), .gate 1, .read 1, .sequence 1])
    [] (sending fun _ => 2048).init).get (by decide +kernel)

theorem sends_gated_jointVelocity : ∃ past x c wire payload,
    Run (sending fun _ => 2048) (past ++ [x]) x.after ∧ Authorised 1 c wire past ∧
    wire.leaseToken ≠ 0 ∧ x.after.lanes = x.before.lanes ++ [(wire.message.id, payload)] := by
  have past : Run (sending fun _ => 2048) velocityDrawn.1 velocityDrawn.2 := exec_get _
  have submitted : ((sending fun _ => 2048).step velocityDrawn.2 (.submit 1 .ok)).map
      (fun next => next.1.lanes.length) = some 1 := by decide +kernel
  have before : velocityDrawn.2.lanes.length = 0 := by decide +kernel
  obtain ⟨⟨next, event⟩, stepped, after⟩ := Option.map_eq_some_iff.mp submitted
  obtain ⟨gated, silent, -⟩ := sends_gated (past.snoc stepped)
  have returned : event = .returned 1 .ok := by
    generalize velocityDrawn.2 = w at stepped before
    have moved : CommandMoves (fun _ => 2048) w (.submit 1 .ok) next event := command_moves stepped
    cases moved with
    | submitted => rfl
    | dropped _ refused => exact absurd rfl refused
    | unencoded =>
      have none : w.lanes.length = 1 := after
      omega
  obtain ⟨c, wire, payload, authorised, -, -, token, -, -, lanes⟩ := gated 1 returned
  exact ⟨_, _, c, wire, payload, past.snoc stepped, authorised, token, lanes⟩

end Florid.Wirelink
