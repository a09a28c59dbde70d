import Florid.Upgrade.InfoOwnership

/-! What a `deviceInfo` call may conclude: it issues at most two requests, and the information it
returns was sent within the peer session it names, known before the request was submitted. -/
namespace Florid.Upgrade.InfoQuery
open Transition
open Wirelink (World Endpoint OperationSlot SlotIndex TimeMs RpcCompletion Response
  FciOperationResult FciEndpointStatus DeviceInfo SlotsInv IdsInv Trace Moves step_moves
  submissions submissions_append Validated Recorded)

variable {w next : InfoWorld} {a : InfoAction} {event : InfoEvent} {es past rest : InfoTrace}
  {x : Entry InfoWorld InfoAction InfoEvent}

theorem entry_moves (run : Run infoMachine (past ++ x :: rest) w) :
    Run infoMachine past x.before ∧ InfoMoves x.before x.action x.after x.event :=
  ⟨run.entry.1, info_moves run.entry.2⟩

def InfoEvent.returns : InfoEvent → Bool
  | .returned _ => true
  | _ => false

/-- No call has returned. -/
def Silent (es : InfoTrace) : Prop := ∀ x ∈ es, x.event.returns = false

theorem Silent.snoc (silent : Silent es) (quiet : x.event.returns = false) :
    Silent (es ++ [x]) := by
  intro y member
  rcases List.mem_append.mp member with earlier | last
  · exact silent y earlier
  · obtain rfl := List.mem_singleton.mp last
    exact quiet

/-! ### Requests of a call -/

/-- How many requests a call at this place can have issued. -/
def QueryPc.allows (pc : QueryPc) (requests peer : Nat) : Prop :=
  match pc with
  | .entry | .recover | .readPeer => requests = 0 ∨ requests = 1 ∧ peer ≠ 0
  | .submit before | .gate before | .enqueue before =>
    requests = 0 ∨ requests = 1 ∧ before ≠ 0
  | .wait before | .take before | .respond before _ =>
    requests = 1 ∨ requests = 2 ∧ before ≠ 0

theorem QueryPc.allows_two {pc : QueryPc} {requests peer : Nat}
    (allowed : pc.allows requests peer) : requests ≤ 2 := by
  cases pc <;> simp only [allows] at allowed <;> omega

/-- A new session is a known one. -/
theorem QueryPc.allows_session {pc : QueryPc} {requests peer current : Nat}
    (allowed : pc.allows requests peer) (known : current ≠ 0) : pc.allows requests current := by
  cases pc <;> simp only [allows] at allowed ⊢ <;> omega

/-- A call goes on within its requests, or returns. -/
theorem allows_step {q : Query} {n : Nat} (query : w.query = some q)
    (allowed : q.pc.allows n w.peer) (moved : InfoMoves w a next event)
    (quiet : event.returns = false) :
    ∃ q', next.query = some q' ∧
      q'.pc.allows (n + (issuedBy ⟨w, a, event, next⟩).toList.length) next.peer := by
  cases moved with
  | link | reply | refused => exact ⟨q, query, allowed⟩
  | peerSession known => exact ⟨q, query, QueryPc.allows_session allowed known⟩
  | begun idle => simp [query] at idle
  | ended | succeeded | stillPending | unsubmitted | failed => cases quiet
  | again query' pc known =>
    obtain rfl := Option.some.inj (query.symm.trans query')
    rw [pc] at allowed
    refine ⟨_, rfl, ?_⟩
    simp only [QueryPc.allows, issuedBy, Option.toList_none, List.length_nil] at allowed ⊢
    omega
  | entered query' pc =>
    obtain rfl := Option.some.inj (query.symm.trans query')
    rw [pc] at allowed
    refine ⟨_, rfl, ?_⟩
    dsimp only
    split <;> exact allowed
  | recovered query' pc =>
    obtain rfl := Option.some.inj (query.symm.trans query')
    rw [pc] at allowed
    exact ⟨_, rfl, allowed⟩
  | sawPeer query' pc | called query' pc | gated query' pc | waited query' pc | took query' pc =>
    obtain rfl := Option.some.inj (query.symm.trans query')
    rw [pc] at allowed
    exact ⟨_, rfl, allowed⟩
  | queued query' pc =>
    obtain rfl := Option.some.inj (query.symm.trans query')
    rw [pc] at allowed
    refine ⟨_, rfl, ?_⟩
    simp only [QueryPc.allows, issuedBy, Option.toList_some, List.length_singleton] at allowed ⊢
    omega

/-- The step begins a call that has the mutex. -/
def Begins (x : Entry InfoWorld InfoAction InfoEvent) : Prop :=
  (∃ t timeout, x.action = .begin t timeout) ∧ x.before.query = none

theorem requests_le_two (run : Run infoMachine (past ++ x :: rest) w) (begins : Begins x)
    (silent : Silent rest) : (issued rest).length ≤ 2 := by
  have moved := (entry_moves run).2
  obtain ⟨⟨t, timeout, action⟩, idle⟩ := begins
  have started : x.after.query = some { thread := t, timeout } := by
    rw [action] at moved
    generalize x.event = event, x.after = after at moved
    cases moved with
    | begun => rfl
    | refused busy => simp [idle] at busy
  rw [show past ++ x :: rest = (past ++ [x]) ++ rest by simp] at run
  have within := run.since (P := fun fs s => Silent fs →
    ∃ q, s.query = some q ∧ q.pc.allows (issued fs).length s.peer) ?start ?keeps
  · obtain ⟨q, -, allowed⟩ := within silent
    exact QueryPc.allows_two allowed
  case start =>
    intro s reached _
    obtain rfl := reached.of_snoc.2.2
    exact ⟨_, started, .inl rfl⟩
  case keeps =>
    intro fs s a e t reached held stepped silent
    obtain ⟨q, query, allowed⟩ := held fun y member => silent y (List.mem_append_left _ member)
    have quiet := silent _ (List.mem_append_right _ (List.mem_singleton_self _))
    obtain ⟨q', query', allowed'⟩ := allows_step query allowed (info_moves stepped) quiet
    refine ⟨q', query', ?_⟩
    rw [issued_snoc, List.length_append]
    exact allowed'

/-! ### Sessions -/

/-- The current session, once known, is among those there have been. -/
theorem peer_known (run : Run infoMachine es w) : w.peer ≠ 0 → w.peer ∈ w.peers := by
  refine run.invariant (P := fun w => w.peer ≠ 0 → w.peer ∈ w.peers) ?_ ?_
  · intro known
    exact absurd rfl known
  · intro s a e t held stepped
    cases info_moves stepped with
    | peerSession =>
      intro _
      exact List.mem_cons_self
    | _ => exact held

/-- A session that is current at two times has been current in between. -/
theorem session_constant {p : Nat} (known : p ≠ 0)
    (run : Run infoMachine (past ++ rest) w) (first : ∀ s, Run infoMachine past s → s.peer = p)
    (last : w.peer = p) : ∀ y ∈ rest, y.before.peer = p := by
  have history := run.since (P := fun fs s => (s.peer = p ∧ ∀ y ∈ fs, y.before.peer = p) ∨
    (p ∈ s.peers ∧ s.peer ≠ p)) ?start ?keeps
  · rcases history with ⟨-, all⟩ | ⟨-, gone⟩
    · exact all
    · exact absurd last gone
  case start =>
    intro s reached
    exact .inl ⟨first s reached, List.forall_mem_nil _⟩
  case keeps =>
    intro fs s a e t reached held stepped
    rcases held with ⟨current, all⟩ | ⟨past, gone⟩
    · have grown : ∀ y ∈ fs ++ [⟨s, a, e, t⟩], y.before.peer = p := by
        intro y member
        rcases List.mem_append.mp member with earlier | now
        · exact all y earlier
        · obtain rfl := List.mem_singleton.mp now
          exact current
      cases info_moves stepped with
      | peerSession _ new =>
        have member := peer_known reached (by rw [current]; exact known)
        rw [current] at member
        refine .inr ⟨List.mem_cons_of_mem _ member, ?_⟩
        rintro rfl
        exact new member
      | _ => exact .inl ⟨current, grown⟩
    · cases info_moves stepped with
      | peerSession _ new =>
        refine .inr ⟨List.mem_cons_of_mem _ past, ?_⟩
        rintro rfl
        exact new past
      | _ => exact .inr ⟨past, gone⟩

/-! ### Answers -/

/-- The step reads the peer session, before anything is submitted. -/
def Reads (x : Entry InfoWorld InfoAction InfoEvent) (before : Nat) : Prop :=
  (∃ q clock expired remaining, x.before.query = some q ∧ q.pc = .readPeer ∧
    x.action = .step clock expired remaining) ∧ x.before.peer = before

/-- The step answers the request with valid information of the current session. -/
def Answers (x : Entry InfoWorld InfoAction InfoEvent) (id : Nat) (info : DeviceInfo) : Prop :=
  ∃ i clock completion r,
    x.action = .reply i clock completion (some (.getDeviceInfo r)) x.before.peer ∧
    (x.before.link.endpoint.operations i).requestId = id ∧
    Validated (x.before.link.endpoint.operations i).request completion (.getDeviceInfo r) ∧
    info = (Endpoint.deviceInfoFromWire r).info

/-- The call has read the peer session. -/
def Seen (es : InfoTrace) (before : Nat) : Prop :=
  ∃ past x rest, es = past ++ x :: rest ∧ Reads x before ∧ Silent rest

/-- After that it has submitted a request. -/
def Requested (es : InfoTrace) (before id : Nat) : Prop :=
  ∃ past x rest, es = past ++ x :: rest ∧ Seen past before ∧ x.event = .submitted id ∧ Silent rest

/-- After that the request has been answered. -/
def Answered (es : InfoTrace) (before id : Nat) (info : DeviceInfo) : Prop :=
  ∃ past x rest, es = past ++ x :: rest ∧ Requested past before id ∧ Answers x id info ∧
    Silent rest

theorem Seen.snoc {before : Nat} (seen : Seen es before) (quiet : x.event.returns = false) :
    Seen (es ++ [x]) before := by
  obtain ⟨past, y, rest, rfl, reads, silent⟩ := seen
  exact ⟨past, y, rest ++ [x], by simp, reads, silent.snoc quiet⟩

theorem Requested.snoc {before id : Nat} (requested : Requested es before id)
    (quiet : x.event.returns = false) : Requested (es ++ [x]) before id := by
  obtain ⟨past, y, rest, rfl, seen, event, silent⟩ := requested
  exact ⟨past, y, rest ++ [x], by simp, seen, event, silent.snoc quiet⟩

theorem Answered.snoc {before id : Nat} {info : DeviceInfo} (answered : Answered es before id info)
    (quiet : x.event.returns = false) : Answered (es ++ [x]) before id info := by
  obtain ⟨past, y, rest, rfl, requested, answers, silent⟩ := answered
  exact ⟨past, y, rest ++ [x], by simp, requested, answers, silent.snoc quiet⟩

/-- A completion in the endpoint's history is a reply from the session current then. -/
theorem completed_reply (run : Run infoMachine es w) {slot : OperationSlot} {r : Response}
    (completed : Wirelink.CompletedWith (linkTrace es) slot r) :
    ∃ past x rest i clock completion, es = past ++ x :: rest ∧
      x.action = .reply i clock completion (some r) x.before.peer ∧
      x.before.link.endpoint.operations i = slot ∧ slot.used = true ∧ r.fits slot.kind = true ∧
      Validated slot.request completion r := by
  obtain ⟨y, member, i, clock, completion, action, same, fits, validated⟩ := completed
  obtain ⟨x, inside, entry⟩ := List.mem_filterMap.mp member
  obtain ⟨past, rest, rfl⟩ := List.append_of_mem inside
  obtain ⟨before, moved⟩ := entry_moves run
  obtain ⟨b, onLink, ⟨link, e⟩, inner, rfl⟩ : ∃ b, x.before.onLink x.action = some b ∧
      ∃ next, x.before.link.step b = some next ∧ ⟨x.before.link, b, next.2, next.1⟩ = y := by
    simpa [linkEntry, Option.bind_eq_some_iff] using entry
  dsimp only at action same
  subst action same
  have used : (x.before.link.endpoint.operations i).used = true := by
    have inv := SlotsInv.of_run (link_run before)
    have owner := inv.owner
    cases step_moves inner with
    | complete idle owed =>
      simp only [World.OwnerOk, idle] at owner
      exact (inv.table.active i ((owner.1 i).mp owed)).1
  refine ⟨past, x, rest, i, clock, completion, rfl, ?_, rfl, used, fits, validated⟩
  generalize x.action = a, x.event = e, x.after = after at moved onLink ⊢
  cases a with
  | link b =>
    cases moved with
    | link free =>
      obtain rfl : b = _ := Option.some.inj onLink
      cases free
  | reply j clock' completion' response sender =>
    have same : Wirelink.Action.complete j clock' completion' response = _ := Option.some.inj onLink
    cases same
    cases moved with
    | reply current => rw [current rfl]
  | peerSession | begin => cases onLink
  | step clock' expired remaining =>
    obtain ⟨q, -, own⟩ := Option.bind_eq_some_iff.mp onLink
    unfold Query.linkAction at own
    split at own <;> cases own

/-- A request is numbered by the submissions before it. -/
theorem submitted_number (run : Run infoMachine es w)
    (bound : submissions (linkTrace es) < 2 ^ 64 - 1) (moved : InfoMoves w a next event) {id : Nat}
    (submitted : event = .submitted id) : id = submissions (linkTrace es) + 1 ∧ ∃ clock expired remaining,
      a = .step clock expired remaining := by
  cases moved with
  | queued query pc inner accepted =>
    cases submitted
    obtain ⟨number, -⟩ := submitted_slot (step_moves inner) accepted
    have next := (IdsInv.of_run (link_run run) (by omega)).next_id (by omega)
    exact ⟨number.trans next, _, _, _, rfl⟩
  | _ => cases submitted

theorem submissions_le (past rest : InfoTrace) :
    submissions (linkTrace past) ≤ submissions (linkTrace (past ++ rest)) := by
  rw [linkTrace_append, submissions_append]
  exact Nat.le_add_right _ _

/-- What a take returns has been answered after the request that it is for. -/
theorem Requested.answered {before : Nat} (requested : Requested es before w.infoRequest)
    (run : Run infoMachine es w) (bound : submissions (linkTrace es) < 2 ^ 64 - 1)
    (ok : w.takeInfo.2.status = .ok) :
    Answered es before w.infoRequest (infoOf w.takeInfo.2.value) := by
  have takes := Wirelink.takes_validated
    (x := ⟨w.link, .take .deviceInfo w.infoRequest, _, _⟩) (Recorded.of_run (link_run run))
    (step_moves (take_step w))
  obtain ⟨slot, r, completed, same, accepts, value⟩ := (takes .deviceInfo _ _ rfl rfl).2 ok
  obtain ⟨past, x, rest, i, clock, completion, split, action, rfl, used, fits, validated⟩ :=
    completed_reply run completed
  have kind : (x.before.link.endpoint.operations i).kind = .getDeviceInfo := by
    simpa [Endpoint.TakeKind.accepts] using accepts
  rw [kind] at fits
  obtain ⟨info, rfl⟩ : ∃ info, r = .getDeviceInfo info := by
    cases r <;> simp_all [Response.fits]
  have answers : Answers x w.infoRequest (infoOf w.takeInfo.2.value) := by
    refine ⟨i, clock, completion, info, action, same, validated, ?_⟩
    rw [value (by intro untyped; cases untyped)]
    rfl
  obtain ⟨first, n, later, whole, seen, submitted, silent⟩ := requested
  have numbered := run
  rw [whole] at numbered
  obtain ⟨before', moved⟩ := entry_moves numbered
  have few := submissions_le first (n :: later)
  rw [← whole] at few
  obtain ⟨number, _, _, _, step⟩ := submitted_number before' (by omega) moved submitted
  -- The slot held the request when the reply came, so the reply came after the submission.
  have given : submissions (linkTrace first) < submissions (linkTrace past) := by
    rw [split] at run
    have upper := submissions_le past (x :: rest)
    rw [← split] at upper
    have ids := IdsInv.of_run (link_run run.entry.1) (by omega)
    have := (ids.bounds i used).2
    omega
  rw [whole] at split
  rcases List.append_eq_append_iff.mp split with ⟨between, rfl, tail⟩ | ⟨extra, rfl, -⟩
  · cases between with
    | nil => simp at given
    | cons z between =>
      obtain ⟨rfl, rfl⟩ := List.cons.inj tail
      refine ⟨first ++ n :: between, x, rest, by rw [whole]; simp, ?_, answers, ?_⟩
      · refine ⟨first, n, between, rfl, seen, submitted, ?_⟩
        intro y member
        exact silent y (List.mem_append_left _ member)
      · intro y member
        exact silent y (List.mem_append_right _ (List.mem_cons_of_mem _ member))
  · have := submissions_le past extra
    omega

/-- What has been done for a call at this place. -/
def QueryPc.established (pc : QueryPc) (es : InfoTrace) (infoRequest : Nat) : Prop :=
  match pc with
  | .entry | .recover | .readPeer => True
  | .submit before | .gate before | .enqueue before => Seen es before
  | .wait before | .take before => Requested es before infoRequest
  | .respond before info => ∃ id, Answered es before id info

theorem QueryPc.established_snoc {pc : QueryPc} {id : Nat} (held : pc.established es id)
    (quiet : x.event.returns = false) : pc.established (es ++ [x]) id := by
  cases pc with
  | entry | recover | readPeer => trivial
  | submit | gate | enqueue => exact Seen.snoc held quiet
  | wait | take => exact Requested.snoc held quiet
  | respond =>
    obtain ⟨id, answered⟩ := held
    exact ⟨id, answered.snoc quiet⟩

theorem established_step (run : Run infoMachine es w)
    (bound : submissions (linkTrace es) < 2 ^ 64 - 1)
    (held : ∀ q, w.query = some q → q.pc.established es w.infoRequest)
    (moved : InfoMoves w a next event) :
    ∀ q, next.query = some q → q.pc.established (es ++ [⟨w, a, event, next⟩]) next.infoRequest := by
  cases moved with
  | link | reply | peerSession | refused =>
    intro q query
    exact QueryPc.established_snoc (held q query) rfl
  | ended | succeeded | stillPending | unsubmitted | failed =>
    intro q query
    cases query
  | begun | again =>
    rintro q ⟨⟩
    trivial
  | entered =>
    rintro q ⟨⟩
    dsimp only
    split <;> trivial
  | recovered =>
    rintro q ⟨⟩
    trivial
  | sawPeer query pc =>
    rintro q ⟨⟩
    exact ⟨es, _, [], rfl, ⟨⟨_, _, _, _, query, pc, rfl⟩, rfl⟩, List.forall_mem_nil _⟩
  | called query pc | gated query pc | waited query pc =>
    rintro q ⟨⟩
    have before := held _ query
    rw [pc] at before
    exact before.snoc rfl
  | queued query pc =>
    rintro q ⟨⟩
    have seen := held _ query
    rw [pc] at seen
    exact ⟨es, _, [], rfl, seen, rfl, List.forall_mem_nil _⟩
  | took query pc ok =>
    rintro q ⟨⟩
    have requested := held _ query
    rw [pc] at requested
    exact ⟨_, (Requested.answered requested run bound ok).snoc rfl⟩

theorem established_of_run (run : Run infoMachine es w) :
    submissions (linkTrace es) < 2 ^ 64 - 1 →
      ∀ q, w.query = some q → q.pc.established es w.infoRequest := by
  refine run.history (P := fun es w => submissions (linkTrace es) < 2 ^ 64 - 1 →
    ∀ q, w.query = some q → q.pc.established es w.infoRequest) ?_ ?_
  · intro _ q query
    cases query
  · intro es s a e t before ih stepped bound
    have earlier := (submissions_le es [⟨s, a, e, t⟩]).trans_lt bound
    exact established_step before earlier (ih earlier) (info_moves stepped)

/-! ### Calls -/

/-- The information comes from an answer of the session `peer` to a request that was submitted
after the call had read that session. -/
def AnsweredWithin (es : InfoTrace) (peer : Nat) (info : DeviceInfo) : Prop :=
  ∃ past y rest id, es = past ++ y :: rest ∧ Requested past peer id ∧ Answers y id info ∧
    y.before.peer = peer ∧ Silent rest

/-- What was answered for a call that began under the session was answered by the session. -/
theorem Answered.within {p id : Nat} {info : DeviceInfo} (known : p ≠ 0)
    (run : Run infoMachine es w) (answered : Answered es p id info) (last : w.peer = p) :
    AnsweredWithin es p info := by
  obtain ⟨past, y, rest, rfl, requested, answers, silent⟩ := answered
  refine ⟨past, y, rest, id, rfl, requested, answers, ?_, silent⟩
  obtain ⟨first, n, later, rfl, ⟨earliest, r, gap, rfl, ⟨-, peer⟩, -⟩, -⟩ := requested
  have whole : earliest ++ r :: gap ++ n :: later ++ y :: rest =
      earliest ++ (r :: (gap ++ n :: (later ++ y :: rest))) := by simp
  rw [whole] at run
  refine session_constant known run ?_ last y (by simp)
  intro s reached
  rw [reached.unique run.entry.1]
  exact peer

theorem success_within (run : Run infoMachine es w)
    (bound : submissions (linkTrace es) < 2 ^ 64 - 1) (moved : InfoMoves w a next event)
    {r : FirmwareDeviceInfoResult} {info : DeviceInfo} (returned : event = .returned r)
    (success : r.info = some info) :
    r.peerSession ≠ 0 ∧ AnsweredWithin es r.peerSession info := by
  cases moved with
  | succeeded query pc known same =>
    cases returned
    cases success
    have held := established_of_run run bound _ query
    rw [pc, same] at held
    obtain ⟨id, answered⟩ := held
    exact ⟨known, answered.within known run rfl⟩
  | ended _ _ failed | stillPending _ _ _ failed | unsubmitted _ _ _ _ _ failed
  | failed _ _ _ failed =>
    cases returned
    rw [failed] at success
    cases success
  | _ => cases returned

/-- A call submits only when the session has no slot. -/
theorem submits_unowned (run : Run infoMachine es w)
    (bound : submissions (linkTrace es) < 2 ^ 64 - 1) (moved : InfoMoves w a next event) {id : Nat}
    (submitted : event = .submitted id) (i : SlotIndex) : ¬Owns es w i := by
  have held := Ownership.of_run run bound
  cases moved with
  | queued query pc =>
    have place := (held.place _ query).1
    rw [pc] at place
    exact held.none_owned place i
  | _ => cases submitted

/-- In every run of the endpoint with its session: one slot at most, none when a request is
submitted, two requests a call, and information only from the session it names. -/
theorem deviceInfo_session (run : Run infoMachine es w)
    (few : submissions (linkTrace es) < 2 ^ 64 - 1) :
    (∀ i j, Owns es w i → Owns es w j → i = j) ∧
      ∀ past x rest, es = past ++ x :: rest →
        (∀ id, x.event = .submitted id → ∀ i, ¬Owns past x.before i) ∧
        (Begins x → Silent rest → (issued rest).length ≤ 2) ∧
        ∀ r info, x.event = .returned r → r.info = some info →
          r.peerSession ≠ 0 ∧ AnsweredWithin past r.peerSession info := by
  constructor
  · intro i j
    exact (Ownership.of_run run few).unique run few
  · rintro past x rest rfl
    obtain ⟨before, moved⟩ := entry_moves run
    have bound := (submissions_le past (x :: rest)).trans_lt few
    refine ⟨?_, requests_le_two run, ?_⟩
    · intro id submitted
      exact submits_unowned before bound moved submitted
    · intro r info returned success
      exact success_within before bound moved returned success

/-- A call that begins under session 7 and whose request is answered, up to its last region. -/
def infoAnswered : InfoTrace × InfoWorld :=
  let info : Wirelink.DeviceInfoWire :=
    { serial := [49], hasCommandCapabilities := true, commandCapabilities := 3 }
  (exec infoMachine
    (.peerSession 7 :: .begin 1 100 :: .replicate 5 (.step 0 false 0) ++
      (.pass 0 :: Wirelink.ownerTurns 14 0 .ok).map .link ++
      .reply Wirelink.firstSlot 0 { status := .success } (some (.getDeviceInfo { hasInfo := true, info })) 7 ::
      .link (.owner 0 .ok) :: .replicate 2 (.step 0 false 0)) [] infoMachine.init).get
    (by decide +kernel)

theorem deviceInfo_session_answered : ∃ es w info, Run infoMachine es w ∧
    AnsweredWithin infoAnswered.1 7 info ∧ info.commandCapabilities = 3 := by
  have past : Run infoMachine infoAnswered.1 infoAnswered.2 := exec_get _
  have few : submissions (linkTrace infoAnswered.1) = 1 := by decide +kernel
  have success : (infoMachine.step infoAnswered.2 (.step 0 false 0)).map (fun next =>
      match next.2 with
      | .returned r => r.peerSession == 7 && r.info.any fun info => info.commandCapabilities == 3
      | _ => false) = some true := by decide +kernel
  obtain ⟨⟨next, event⟩, stepped, shape⟩ := Option.map_eq_some_iff.mp success
  cases event with
  | returned r =>
    simp only [Bool.and_eq_true, beq_iff_eq] at shape
    obtain ⟨peer, answer⟩ := shape
    cases info : r.info with
    | none => simp [info] at answer
    | some value =>
      have run := past.snoc stepped
      have bound (x : Entry InfoWorld InfoAction InfoEvent) :
          submissions (linkTrace (infoAnswered.1 ++ [x])) < 2 ^ 64 - 1 := by
        have last : submissions (linkTrace [x]) ≤ 1 :=
          (List.countP_le_length ..).trans (List.length_filterMap_le linkEntry [x])
        rw [linkTrace_append, submissions_append, few]
        omega
      obtain ⟨-, parts⟩ := deviceInfo_session run (bound _)
      obtain ⟨-, -, returned⟩ := parts _ _ [] rfl
      obtain ⟨-, within⟩ := returned r value rfl info
      rw [peer] at within
      exact ⟨_, _, value, run, within, by simpa [info] using answer⟩
  | _ => cases shape

/-! ### When the id counter comes round -/

/-- The request on record is one the session has issued. -/
theorem request_issued (run : Run infoMachine es w) :
    w.infoRequest ≠ 0 → w.infoRequest ∈ issued es := by
  refine run.history (P := fun es w => w.infoRequest ≠ 0 → w.infoRequest ∈ issued es) ?_ ?_
  · intro outstanding
    exact absurd rfl outstanding
  · intro es s a e t before held stepped outstanding
    rw [issued_snoc]
    cases info_moves stepped with
    | queued => exact List.mem_append_right _ List.mem_cons_self
    | recovered | failed | took => exact absurd rfl outstanding
    | _ => exact List.mem_append_left _ (held outstanding)

/-- Calls of other threads go on while the session has none. -/
theorem follow_link (idle : w.query = none) {actions : List Wirelink.Action}
    (free : ∀ a ∈ actions, w.free a = true) {link : World}
    (done : follow Wirelink.machine actions w.link = some link) :
    follow infoMachine (actions.map .link) w = some { w with link } := by
  induction actions generalizing w with
  | nil =>
    obtain rfl := Option.some.inj done
    rfl
  | cons a rest ih =>
    simp only [follow] at done
    split at done
    · cases done
    · rename_i inner e stepped
      have step : infoMachine.step w (.link a) = some ({ w with link := inner }, .link e) := by
        simp only [infoMachine, InfoWorld.step, free a List.mem_cons_self, if_true]
        rw [show w.link.step a = _ from stepped]
        rfl
      simp only [List.map_cons, follow, step]
      refine ih (w := { w with link := inner }) idle ?_ done
      intro b member
      rw [← free b (List.mem_cons_of_mem _ member)]
      simp only [InfoWorld.free]

/-- A request under id 2 that has ended in its slot after its caller had given up. -/
def orphanSlot : OperationSlot :=
  let slot : OperationSlot :=
    { used := true, requestId := 2, kind := .getDeviceInfo, timeoutMs := 1, state := .queued
      status := .ok }
  Endpoint.finalizedSlot slot (Endpoint.finalization slot 1 { status := .timedOut } none)

def orphaned (id timeouts : Nat) : InfoWorld :=
  { link := Wirelink.besideWorld orphanSlot id timeouts, infoRequest := 2 }

/-- Another caller has slot 0 while the session submits and gives up. -/
def orphaning : List InfoAction :=
  ((Wirelink.Call.getDeviceInfo 1).through 0).map .link ++
    .begin 1 1 :: List.replicate 7 (.step 0 true 0) ++
    (.pass 1 :: (Wirelink.ownerTurns 14 1 .ok ++ [.take .operation 1])).map .link

theorem follow_orphaning : follow infoMachine orphaning infoMachine.init = some (orphaned 3 2) := by
  simp [orphaning, orphaned, orphanSlot, Wirelink.besideWorld, infoMachine, InfoWorld.step,
    InfoWorld.localStep, InfoWorld.answered, InfoWorld.free, InfoWorld.goto, InfoWorld.finish,
    Query.linkAction, refusal, submittedId, takenOf, validTimeout,
    Wirelink.Call.through, Wirelink.ownerTurns, List.replicate, follow, World.step,
    World.ownerStep, World.setCaller, World.beginFinalize, Wirelink.Call.prepare,
    Wirelink.checked, Wirelink.validTimeout, Wirelink.maximumRelativeTimeout,
    Wirelink.publicOperationCapacity, List.finRange, Wirelink.OwnerPc.resumed,
    Wirelink.queueRemaining, Wirelink.terminal, Endpoint.submit, Endpoint.allocateSlot,
    Endpoint.setSlot, Endpoint.queueExpired, Endpoint.finalizeCounters, Endpoint.finalization,
    Endpoint.completionState, Endpoint.finalizedSlot, Endpoint.finalize, Endpoint.finalizeLease,
    Endpoint.expireLease, Endpoint.startNext, Endpoint.findQueuedSlot, Endpoint.findQueuedFrom,
    Endpoint.leaseAfterSubmit, Endpoint.renewalCheck, Endpoint.take, Endpoint.findSlot,
    Endpoint.TakeKind.accepts, Endpoint.waitOperation, Endpoint.successorId, Wirelink.secondSlot]
  funext i
  by_cases second : i = 1
  · subst second
    rfl
  · by_cases first : i = 0
    · subst first
      rfl
    · simp [first, second]

/-- One more request of another caller that expires in the queue and is taken. -/
theorem follow_orphaned (id timeouts : Nat) :
    follow infoMachine ((Wirelink.expiringRequest id).map .link) (orphaned id timeouts) =
      some (orphaned (Endpoint.successorId id) (timeouts + 1)) := by
  refine follow_link (w := orphaned id timeouts) rfl ?_
    (Wirelink.follow_beside (by decide) id timeouts)
  simp [Wirelink.expiringRequest, Wirelink.Call.through, Wirelink.ownerTurns, InfoWorld.free,
    orphaned]

/-- Another caller gets id 2 again, and the session's recovery looks at that caller's slot. -/
def misled : List InfoAction :=
  ((Wirelink.Call.home 1).through 0).map .link ++
    .begin 1 1 :: List.replicate 6 (.step 0 true 0)

theorem follow_misled (timeouts : Nat) :
    ∃ w, follow infoMachine misled (orphaned 2 timeouts) = some w ∧ w.infoRequest = 3 ∧
      (w.link.endpoint.operations 1).used = true ∧
      (w.link.endpoint.operations 1).requestId = 2 ∧
      (w.link.endpoint.operations 2).used = true ∧
      (w.link.endpoint.operations 2).requestId = 3 := ⟨_, rfl, rfl, rfl, rfl, rfl, rfl⟩

/-- The session has two slots after its recovery has looked at another request of the same id. -/
theorem info_slots_doubled : ∃ es w, Run infoMachine es w ∧ Owns es w 1 ∧ Owns es w 2 ∧
    (w.link.endpoint.operations 1).requestId ≠ (w.link.endpoint.operations 2).requestId := by
  obtain ⟨first, -, orphan⟩ := follow_run .nil follow_orphaning
  have turn (n : Nat) : follow infoMachine
      ((Wirelink.expiringRequest (Endpoint.successorId^[n] 3)).map .link)
      (orphaned (Endpoint.successorId^[n] 3) (2 + n)) =
        some (orphaned (Endpoint.successorId^[n + 1] 3) (2 + (n + 1))) := by
    rw [Function.iterate_succ_apply']
    exact follow_orphaned _ _
  obtain ⟨gone, cycled⟩ := follow_cycle turn orphan (2 ^ 64 - 2)
  have back : Endpoint.successorId^[2 ^ 64 - 2] 3 = 2 := by
    have start : Endpoint.successorId^[2] 1 = 3 := rfl
    obtain ⟨n, round⟩ : ∃ n, n + 1 = 2 ^ 64 - 1 := ⟨2 ^ 64 - 2, rfl⟩
    rw [← start, ← Function.iterate_add_apply, show 2 ^ 64 - 2 + 2 = n + 2 by omega,
      Function.iterate_succ_apply', Function.iterate_succ_apply',
      Wirelink.successorId_iterate (by omega), round]
    rfl
  rw [back] at cycled
  obtain ⟨w, done, request, used, id, used', id'⟩ := follow_misled (2 + (2 ^ 64 - 2))
  obtain ⟨last, -, run⟩ := follow_run cycled done
  have earlier := request_issued orphan (show (2 : Nat) ≠ 0 by decide)
  have later := request_issued run (by rw [request]; decide)
  refine ⟨_, w, run, ⟨used, ?_⟩, ⟨used', ?_⟩, by rw [id, id']; decide⟩
  · rw [id]
    rw [issued, List.filterMap_append, List.filterMap_append]
    exact List.mem_append_left _ (List.mem_append_left _ earlier)
  · rw [id', ← request]
    exact later

end Florid.Upgrade.InfoQuery
