import Florid.Upgrade.Session
import Florid.Wirelink.Provenance

/-! `FirmwareUpdateSession::deviceInfo` on the endpoint: any number of threads call it (so does
`rebootAndWait`, under the same mutex), one at a time gets past `m_call_mutex`, and everything
else on the endpoint goes on around it. A step is one locked region of the call, of the endpoint,
or of `on_peer_session`.

Assumed of the link: peer sessions are nonzero and never come back, and a response is delivered
only while the session of its sender is the current one. -/
namespace Florid.Upgrade.InfoQuery
open Transition
open Wirelink (World Endpoint OperationSlot SlotIndex TimeMs RpcCompletion Response
  FciOperationResult FciEndpointStatus DeviceInfo SlotsInv IdsInv)

/-- Where the thread that holds `m_call_mutex` stands in `s_deviceInfo`. -/
inductive QueryPc where
  | entry
  | recover
  | readPeer
  | submit (before : Nat)
  | gate (before : Nat)
  | enqueue (before : Nat)
  | wait (before : Nat)
  | take (before : Nat)
  | respond (before : Nat) (info : DeviceInfo)

/-- The call in progress with its locals `s_timeout` and `s_operation`. -/
structure Query where
  thread : Nat
  timeout : Int
  operation : FciOperationResult := {}
  pc : QueryPc := .entry

structure InfoWorld where
  link : World := {}
  /-- `m_peer_session`, and every session there has been. -/
  peer : Nat := 0
  peers : List Nat := []
  query : Option Query := none
  infoRequest : Nat := 0

inductive InfoAction where
  | link (a : Wirelink.Action)
  /-- A completion; a response comes from `sender`. -/
  | reply (i : SlotIndex) (clock : TimeMs) (completion : RpcCompletion)
      (response : Option Response) (sender : Nat)
  | peerSession (current : Nat)
  | begin (t : Nat) (timeout : Int)
  /-- The next region of the call. `remaining` is what is left until its deadline. -/
  | step (clock : TimeMs) (expired : Bool) (remaining : Int)

inductive InfoEvent where
  | quiet
  | link (e : Wirelink.Event)
  | refused (t : Nat)
  | submitted (id : Nat)
  | returned (r : FirmwareDeviceInfoResult)

/-- What a region of the call does on the endpoint. -/
def Query.linkAction (q : Query) (infoRequest : Nat) (clock : TimeMs) (expired : Bool) :
    Option Wirelink.Action :=
  match q.pc with
  | .entry | .readPeer | .respond _ _ => none
  | .recover | .take _ => some (.take .deviceInfo infoRequest)
  | .submit _ => some (.call q.thread (.getDeviceInfo q.timeout.toNat))
  | .gate _ => some (.gate q.thread)
  | .enqueue _ => some (.submit q.thread clock)
  | .wait _ => some (.wait infoRequest expired)

/-- What the endpoint answered: a refusal or a submission, or a taken or observed result. -/
def refusal : Wirelink.Event → Option FciEndpointStatus
  | .refused status => some status
  | .submitted _ _ result => if result.status = .ok then none else some result.status
  | _ => none

def submittedId : Wirelink.Event → Nat
  | .submitted _ _ result => result.requestId
  | _ => 0

def takenOf : Wirelink.Event → Endpoint.Taken
  | .took taken | .observed taken => taken
  | _ => { status := .noData }

def infoOf : Endpoint.TakenValue → DeviceInfo
  | .info info => info
  | _ => {}

namespace InfoWorld

def goto (w : InfoWorld) (q : Query) (pc : QueryPc) : InfoWorld :=
  { w with query := some { q with pc } }

def finish (w : InfoWorld) (r : FirmwareDeviceInfoResult) : InfoWorld × InfoEvent :=
  ({ w with query := none }, .returned r)

/-- The regions that touch the session only. -/
def localStep (w : InfoWorld) (q : Query) (remaining : Int) : Option (InfoWorld × InfoEvent) :=
  match q.pc with
  | .entry =>
    if !validTimeout q.timeout then some (w.finish { error := .invalidArgument })
    else some (w.goto q (if w.infoRequest ≠ 0 then .recover else .readPeer), .quiet)
  | .readPeer => some (w.goto q (.submit w.peer), .quiet)
  | .respond before info =>
    if w.peer = 0 then some (w.finish { error := .protocolError })
    else if before ≠ 0 ∧ before ≠ w.peer then some (w.finish { error := .transportError })
    else if before = 0 then
      if remaining ≤ 0 then some (w.finish { error := .timeout })
      else if remaining ≤ q.timeout then
        some ({ w with query := some { thread := q.thread, timeout := remaining } }, .quiet)
      else none
    else some (w.finish { info := some info, peerSession := w.peer })
  | _ => none

/-- The regions of the endpoint's functions, with what the call does with their answers. -/
def answered (w : InfoWorld) (q : Query) (link : World) (e : Wirelink.Event) :
    InfoWorld × InfoEvent :=
  let w := { w with link }
  match q.pc with
  | .recover =>
    if (takenOf e).status = .busy then w.finish { error := .busy }
    else ({ w with infoRequest := 0 }.goto
      { q with operation := (takenOf e).result.getD q.operation } .readPeer, .quiet)
  | .submit before =>
    match refusal e with
    | some status => w.finish { error := errorOf status }
    | none => (w.goto q (.gate before), .quiet)
  | .gate before =>
    match refusal e with
    | some status => w.finish { error := errorOf status }
    | none => (w.goto q (.enqueue before), .quiet)
  | .enqueue before =>
    match refusal e with
    | some status => w.finish { error := errorOf status }
    | none => ({ w with infoRequest := submittedId e }.goto q (.wait before),
        .submitted (submittedId e))
  | .wait before =>
    (w.goto { q with operation := (takenOf e).result.getD q.operation } (.take before), .quiet)
  | .take before =>
    let operation := (takenOf e).result.getD q.operation
    if (takenOf e).status = .busy then w.finish { error := .timeout }
    else if (takenOf e).status ≠ .ok then
      { w with infoRequest := 0 }.finish
        { error := errorOf (takenOf e).status, deviceStatus := operation.domainStatus }
    else ({ w with infoRequest := 0 }.goto { q with operation }
      (.respond before (infoOf (takenOf e).value)), .quiet)
  | _ => (w, .quiet)

/-- A thread inside the call takes no step of its own outside it; completions come as replies. -/
def free (w : InfoWorld) : Wirelink.Action → Bool
  | .complete _ _ _ _ => false
  | a => match w.query with
    | none => true
    | some q => a.thread != some q.thread

def step (w : InfoWorld) : InfoAction → Option (InfoWorld × InfoEvent)
  | .link a =>
    if w.free a then (w.link.step a).map fun next => ({ w with link := next.1 }, .link next.2)
    else none
  | .reply i clock completion response sender =>
    if response.isSome && sender != w.peer then none
    else (w.link.step (.complete i clock completion response)).map fun next =>
      ({ w with link := next.1 }, .link next.2)
  | .peerSession current =>
    if current = 0 ∨ current ∈ w.peers then none
    else some ({ w with peer := current, peers := current :: w.peers }, .quiet)
  | .begin t timeout =>
    match w.query, w.link.callers t with
    | none, .idle => some ({ w with query := some { thread := t, timeout } }, .quiet)
    | some q, .idle => if q.thread = t then none else some (w, .refused t)
    | _, _ => none
  | .step clock expired remaining =>
    match w.query with
    | none => none
    | some q =>
      match q.linkAction w.infoRequest clock expired with
      | none => w.localStep q remaining
      | some a => (w.link.step a).map fun next => w.answered q next.1 next.2

end InfoWorld

/-- The endpoint with its firmware update session. -/
def infoMachine : Machine InfoWorld InfoAction InfoEvent := ⟨{}, InfoWorld.step⟩

abbrev InfoTrace := List (Entry InfoWorld InfoAction InfoEvent)

variable {w next : InfoWorld} {a : InfoAction} {event : InfoEvent} {es : InfoTrace}

/-! ### Moves -/

/-- The take of a region, on the endpoint's side. -/
def InfoWorld.takeInfo (w : InfoWorld) : Endpoint × Endpoint.Taken :=
  w.link.endpoint.take .deviceInfo w.infoRequest

theorem take_step (w : InfoWorld) : w.link.step (.take .deviceInfo w.infoRequest) =
    some ({ w.link with endpoint := w.takeInfo.1 }, .took w.takeInfo.2) := rfl

/-- Every way a step can go. -/
inductive InfoMoves (w : InfoWorld) : InfoAction → InfoWorld → InfoEvent → Prop where
  | link {a link e} : w.free a = true → w.link.step a = some (link, e) →
      InfoMoves w (.link a) { w with link } (.link e)
  | reply {i clock completion response sender link e} :
      (response.isSome = true → sender = w.peer) →
      w.link.step (.complete i clock completion response) = some (link, e) →
      InfoMoves w (.reply i clock completion response sender) { w with link } (.link e)
  | peerSession {current} : current ≠ 0 → current ∉ w.peers →
      InfoMoves w (.peerSession current) { w with peer := current, peers := current :: w.peers }
        .quiet
  | begun {t timeout} : w.query = none →
      InfoMoves w (.begin t timeout) { w with query := some { thread := t, timeout } } .quiet
  | refused {t timeout q} : w.query = some q → InfoMoves w (.begin t timeout) w (.refused t)
  | ended {clock expired remaining q r} : w.query = some q →
      q.linkAction w.infoRequest clock expired = none → r.info = none →
      InfoMoves w (.step clock expired remaining) { w with query := none } (.returned r)
  | succeeded {clock expired remaining q before info} : w.query = some q →
      q.pc = .respond before info → w.peer ≠ 0 → before = w.peer →
      InfoMoves w (.step clock expired remaining) { w with query := none }
        (.returned { info := some info, peerSession := w.peer })
  | again {clock expired remaining q info} : w.query = some q → q.pc = .respond 0 info →
      w.peer ≠ 0 →
      InfoMoves w (.step clock expired remaining)
        { w with query := some { thread := q.thread, timeout := remaining } } .quiet
  | entered {clock expired remaining q} : w.query = some q → q.pc = .entry →
      InfoMoves w (.step clock expired remaining)
        (w.goto q (if w.infoRequest ≠ 0 then .recover else .readPeer)) .quiet
  | sawPeer {clock expired remaining q} : w.query = some q → q.pc = .readPeer →
      InfoMoves w (.step clock expired remaining) (w.goto q (.submit w.peer)) .quiet
  | stillPending {clock expired remaining q r} : w.query = some q →
      (q.pc = .recover ∨ ∃ before, q.pc = .take before) → w.takeInfo.2.status = .busy →
      r.info = none →
      InfoMoves w (.step clock expired remaining)
        { w with link := { w.link with endpoint := w.takeInfo.1 }, query := none } (.returned r)
  | recovered {clock expired remaining q operation} : w.query = some q → q.pc = .recover →
      w.takeInfo.2.status ≠ .busy →
      InfoMoves w (.step clock expired remaining)
        { w with
          link := { w.link with endpoint := w.takeInfo.1 }, infoRequest := 0
          query := some { q with operation, pc := .readPeer } } .quiet
  | unsubmitted {clock expired remaining q a link e r before} : w.query = some q →
      (q.pc = .submit before ∨ q.pc = .gate before ∨ q.pc = .enqueue before) →
      q.linkAction w.infoRequest clock expired = some a → w.link.step a = some (link, e) →
      (refusal e).isSome = true → r.info = none →
      InfoMoves w (.step clock expired remaining) { w with link, query := none } (.returned r)
  | called {clock expired remaining q link e before} : w.query = some q →
      q.pc = .submit before →
      w.link.step (.call q.thread (.getDeviceInfo q.timeout.toNat)) = some (link, e) →
      refusal e = none →
      InfoMoves w (.step clock expired remaining)
        { w with link, query := some { q with pc := .gate before } } .quiet
  | gated {clock expired remaining q link e before} : w.query = some q → q.pc = .gate before →
      w.link.step (.gate q.thread) = some (link, e) → refusal e = none →
      InfoMoves w (.step clock expired remaining)
        { w with link, query := some { q with pc := .enqueue before } } .quiet
  | queued {clock expired remaining q link e before} : w.query = some q →
      q.pc = .enqueue before → w.link.step (.submit q.thread clock) = some (link, e) →
      refusal e = none →
      InfoMoves w (.step clock expired remaining)
        { w with
          link, infoRequest := submittedId e, query := some { q with pc := .wait before } }
        (.submitted (submittedId e))
  | waited {clock expired remaining q link e before operation} : w.query = some q →
      q.pc = .wait before → w.link.step (.wait w.infoRequest expired) = some (link, e) →
      InfoMoves w (.step clock expired remaining)
        { w with link, query := some { q with operation, pc := .take before } } .quiet
  | failed {clock expired remaining q before r} : w.query = some q → q.pc = .take before →
      w.takeInfo.2.status ≠ .busy → r.info = none →
      InfoMoves w (.step clock expired remaining)
        { w with
          link := { w.link with endpoint := w.takeInfo.1 }, infoRequest := 0, query := none }
        (.returned r)
  | took {clock expired remaining q before operation} : w.query = some q →
      q.pc = .take before → w.takeInfo.2.status = .ok →
      InfoMoves w (.step clock expired remaining)
        { w with
          link := { w.link with endpoint := w.takeInfo.1 }, infoRequest := 0
          query := some { q with
            operation, pc := .respond before (infoOf w.takeInfo.2.value) } } .quiet

theorem local_moves {clock : TimeMs} {expired : Bool} {remaining : Int} {q : Query}
    (query : w.query = some q) (own : q.linkAction w.infoRequest clock expired = none)
    (stepped : w.localStep q remaining = some (next, event)) :
    InfoMoves w (.step clock expired remaining) next event := by
  unfold InfoWorld.localStep at stepped
  cases pc : q.pc with
  | entry =>
    simp only [pc] at stepped
    split at stepped
    · simp only [InfoWorld.finish, Option.some.injEq, Prod.mk.injEq] at stepped
      obtain ⟨rfl, rfl⟩ := stepped
      exact .ended query own rfl
    · simp only [Option.some.injEq, Prod.mk.injEq] at stepped
      obtain ⟨rfl, rfl⟩ := stepped
      exact .entered query pc
  | readPeer =>
    simp only [pc, Option.some.injEq, Prod.mk.injEq] at stepped
    obtain ⟨rfl, rfl⟩ := stepped
    exact .sawPeer query pc
  | respond before info =>
    simp only [pc, InfoWorld.finish] at stepped
    split at stepped
    · simp only [Option.some.injEq, Prod.mk.injEq] at stepped
      obtain ⟨rfl, rfl⟩ := stepped
      exact .ended query own rfl
    · rename_i known
      split at stepped
      · simp only [Option.some.injEq, Prod.mk.injEq] at stepped
        obtain ⟨rfl, rfl⟩ := stepped
        exact .ended query own rfl
      · rename_i same
        split at stepped
        · rename_i first
          subst first
          split at stepped
          · simp only [Option.some.injEq, Prod.mk.injEq] at stepped
            obtain ⟨rfl, rfl⟩ := stepped
            exact .ended query own rfl
          · split at stepped
            · simp only [Option.some.injEq, Prod.mk.injEq] at stepped
              obtain ⟨rfl, rfl⟩ := stepped
              exact .again query pc known
            · cases stepped
        · rename_i later
          simp only [Option.some.injEq, Prod.mk.injEq] at stepped
          obtain ⟨rfl, rfl⟩ := stepped
          refine .succeeded query pc known ?_
          by_contra changed
          exact same ⟨later, changed⟩
  | recover | submit | gate | enqueue | wait | take => simp [pc] at stepped

theorem answered_moves {clock : TimeMs} {expired : Bool} {remaining : Int} {q : Query}
    {b : Wirelink.Action} {link : World} {e : Wirelink.Event} (query : w.query = some q)
    (own : q.linkAction w.infoRequest clock expired = some b)
    (stepped : w.link.step b = some (link, e)) :
    InfoMoves w (.step clock expired remaining) (w.answered q link e).1
      (w.answered q link e).2 := by
  have taken (pc : q.pc = .recover ∨ ∃ before, q.pc = .take before) :
      link = { w.link with endpoint := w.takeInfo.1 } ∧ e = .took w.takeInfo.2 := by
    have take : b = .take .deviceInfo w.infoRequest := by
      rcases pc with pc | ⟨before, pc⟩ <;> simp only [Query.linkAction, pc] at own <;>
        exact (Option.some.inj own).symm
    rw [take, take_step, Option.some.injEq, Prod.mk.injEq] at stepped
    exact ⟨stepped.1.symm, stepped.2.symm⟩
  cases pc : q.pc with
  | entry | readPeer | respond => simp [Query.linkAction, pc] at own
  | recover =>
    obtain ⟨rfl, rfl⟩ := taken (.inl pc)
    simp only [InfoWorld.answered, pc, takenOf]
    split
    · exact .stillPending query (.inl pc) ‹_› rfl
    · exact .recovered (q := q) query pc ‹_›
  | submit before =>
    have call := own
    simp only [Query.linkAction, pc, Option.some.injEq] at call
    simp only [InfoWorld.answered, pc]
    cases refused : refusal e with
    | some status =>
      exact .unsubmitted query (.inl pc) own stepped (by simp [refused]) rfl
    | none =>
      subst call
      exact .called query pc stepped refused
  | gate before =>
    have call := own
    simp only [Query.linkAction, pc, Option.some.injEq] at call
    simp only [InfoWorld.answered, pc]
    cases refused : refusal e with
    | some status =>
      exact .unsubmitted query (.inr (.inl pc)) own stepped (by simp [refused]) rfl
    | none =>
      subst call
      exact .gated query pc stepped refused
  | enqueue before =>
    have call := own
    simp only [Query.linkAction, pc, Option.some.injEq] at call
    simp only [InfoWorld.answered, pc]
    cases refused : refusal e with
    | some status =>
      exact .unsubmitted query (.inr (.inr pc)) own stepped (by simp [refused]) rfl
    | none =>
      subst call
      exact .queued query pc stepped refused
  | wait before =>
    simp only [Query.linkAction, pc, Option.some.injEq] at own
    simp only [InfoWorld.answered, pc]
    subst own
    exact .waited (q := q) query pc stepped
  | take before =>
    obtain ⟨rfl, rfl⟩ := taken (.inr ⟨before, pc⟩)
    simp only [InfoWorld.answered, pc, takenOf]
    split
    · exact .stillPending query (.inr ⟨before, pc⟩) ‹_› rfl
    · rename_i ended
      split
      · exact .failed query pc ended rfl
      · rename_i ok
        exact .took (q := q) query pc (not_not.mp ok)

theorem info_moves (stepped : w.step a = some (next, event)) : InfoMoves w a next event := by
  cases a with
  | link a =>
    simp only [InfoWorld.step] at stepped
    split at stepped
    · rename_i free
      simp only [Option.map_eq_some_iff, Prod.mk.injEq] at stepped
      obtain ⟨⟨link, e⟩, inner, rfl, rfl⟩ := stepped
      exact .link free inner
    · cases stepped
  | reply i clock completion response sender =>
    simp only [InfoWorld.step] at stepped
    split at stepped
    · cases stepped
    · rename_i current
      simp only [Option.map_eq_some_iff, Prod.mk.injEq] at stepped
      obtain ⟨⟨link, e⟩, inner, rfl, rfl⟩ := stepped
      refine .reply ?_ inner
      intro carried
      simpa [carried] using current
  | peerSession current =>
    simp only [InfoWorld.step] at stepped
    split at stepped
    · cases stepped
    · rename_i new
      simp only [Option.some.injEq, Prod.mk.injEq] at stepped
      obtain ⟨rfl, rfl⟩ := stepped
      rw [not_or] at new
      exact .peerSession new.1 new.2
  | begin t timeout =>
    simp only [InfoWorld.step] at stepped
    split at stepped
    · simp only [Option.some.injEq, Prod.mk.injEq] at stepped
      obtain ⟨rfl, rfl⟩ := stepped
      exact .begun ‹_›
    · split at stepped
      · cases stepped
      · simp only [Option.some.injEq, Prod.mk.injEq] at stepped
        obtain ⟨rfl, rfl⟩ := stepped
        exact .refused ‹_›
    · cases stepped
  | step clock expired remaining =>
    simp only [InfoWorld.step] at stepped
    split at stepped
    · cases stepped
    · rename_i q query
      split at stepped
      · exact local_moves query ‹_› stepped
      · simp only [Option.map_eq_some_iff] at stepped
        obtain ⟨⟨link, e⟩, inner, same⟩ := stepped
        have moved : InfoMoves w (.step clock expired remaining) _ _ :=
          answered_moves query ‹_› inner
        rw [same] at moved
        exact moved

end Florid.Upgrade.InfoQuery
