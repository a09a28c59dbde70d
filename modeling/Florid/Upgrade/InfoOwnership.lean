import Florid.Upgrade.InfoQuery
import Florid.Wirelink.RequestLife

/-! The slots of `deviceInfo` queries: at most one at any time, recovered before the next
request, and at most two requests a call. -/
namespace Florid.Upgrade.InfoQuery
open Transition
open Wirelink (World Endpoint OperationSlot SlotIndex TimeMs RpcCompletion Response
  FciOperationResult FciEndpointStatus DeviceInfo SlotsInv IdsInv Trace Moves step_moves
  submissions submissions_snoc submissions_append)

variable {w next : InfoWorld} {a : InfoAction} {event : InfoEvent} {es : InfoTrace}

/-! ### The endpoint under its session -/

/-- What a step does on the endpoint. -/
def InfoWorld.onLink (w : InfoWorld) : InfoAction → Option Wirelink.Action
  | .link a => some a
  | .reply i clock completion response _ => some (.complete i clock completion response)
  | .step clock expired _ => w.query.bind fun q => q.linkAction w.infoRequest clock expired
  | _ => none

def linkEntry (x : Entry InfoWorld InfoAction InfoEvent) :
    Option (Entry World Wirelink.Action Wirelink.Event) :=
  (x.before.onLink x.action).bind fun a =>
    (x.before.link.step a).map fun next => ⟨x.before.link, a, next.2, next.1⟩

/-- The endpoint's own history. -/
def linkTrace (es : InfoTrace) : Trace := es.filterMap linkEntry

theorem linkTrace_append (es fs : InfoTrace) :
    linkTrace (es ++ fs) = linkTrace es ++ linkTrace fs := List.filterMap_append

theorem InfoMoves.link_cases (moved : InfoMoves w a next event) :
    w.onLink a = none ∧ next.link = w.link ∨
      ∃ b e, w.onLink a = some b ∧ w.link.step b = some (next.link, e) := by
  have at' {q : Query} {clock : TimeMs} {expired : Bool} {remaining : Int}
      (query : w.query = some q) : w.onLink (.step clock expired remaining) = q.linkAction w.infoRequest clock expired := by
    simp [InfoWorld.onLink, query]
  cases moved with
  | link _ stepped | reply _ stepped => exact .inr ⟨_, _, rfl, stepped⟩
  | peerSession | begun | refused => exact .inl ⟨rfl, rfl⟩
  | ended query own => exact .inl ⟨(at' query).trans own, rfl⟩
  | succeeded query pc | again query pc | entered query pc | sawPeer query pc =>
    exact .inl ⟨(at' query).trans (by simp [Query.linkAction, pc]), rfl⟩
  | stillPending query pc =>
    refine .inr ⟨_, _, (at' query).trans ?_, take_step w⟩
    rcases pc with pc | ⟨before, pc⟩ <;> simp [Query.linkAction, pc]
  | recovered query pc | failed query pc | took query pc =>
    exact .inr ⟨_, _, (at' query).trans (by simp [Query.linkAction, pc]), take_step w⟩
  | unsubmitted query _ own stepped => exact .inr ⟨_, _, (at' query).trans own, stepped⟩
  | called query pc stepped | gated query pc stepped | queued query pc stepped
  | waited query pc stepped =>
    exact .inr ⟨_, _, (at' query).trans (by simp [Query.linkAction, pc]), stepped⟩

/-- The session takes the endpoint through runs of its own machine. -/
theorem link_run (run : Run infoMachine es w) : Run Wirelink.machine (linkTrace es) w.link := by
  refine run.history (P := fun es w => Run Wirelink.machine (linkTrace es) w.link) .nil ?_
  intro es s a e t before held stepped
  rw [linkTrace_append]
  rcases (info_moves stepped).link_cases with ⟨apart, same⟩ | ⟨b, e', onLink, inner⟩
  · simpa [linkTrace, linkEntry, apart, same] using held
  · have kept := held.snoc inner
    simpa [linkTrace, linkEntry, onLink, inner] using kept

/-! ### Requests -/

def issuedBy (x : Entry InfoWorld InfoAction InfoEvent) : Option Nat :=
  match x.event with
  | .submitted id => some id
  | _ => none

/-- The ids of the requests the session has issued. -/
def issued (es : InfoTrace) : List Nat := es.filterMap issuedBy

theorem issued_snoc (es : InfoTrace) (x : Entry InfoWorld InfoAction InfoEvent) :
    issued (es ++ [x]) = issued es ++ (issuedBy x).toList := by
  cases made : issuedBy x <;> simp [issued, made]

/-- A slot of the endpoint holds a request of the session. -/
def Owns (es : InfoTrace) (w : InfoWorld) (i : SlotIndex) : Prop :=
  (w.link.endpoint.operations i).used = true ∧
    (w.link.endpoint.operations i).requestId ∈ issued es

/-- What a place in the call says about `m_info_request`. -/
def QueryPc.holds : QueryPc → Nat → Prop
  | .entry, _ => True
  | .recover, id | .wait _, id | .take _, id => id ≠ 0
  | .readPeer, id | .submit _, id | .gate _, id | .enqueue _, id | .respond _ _, id => id = 0

/-- The operation a thread is about to submit in a call. -/
def QueryPc.carries : QueryPc → Wirelink.CallerPc → Prop
  | .gate _, pc => ∃ s, pc = .gate s ∧ s.kind = .getDeviceInfo
  | .enqueue _, pc => ∃ s, pc = .enqueue s ∧ s.kind = .getDeviceInfo
  | _, _ => True

/-- The session knows the one slot it has. -/
structure Ownership (es : InfoTrace) (w : InfoWorld) : Prop where
  ids : ∀ id ∈ issued es, 1 ≤ id ∧ id ≤ submissions (linkTrace es)
  request : w.infoRequest ≠ 0 → w.infoRequest ∈ issued es
  owned : ∀ i, Owns es w i → (w.link.endpoint.operations i).requestId = w.infoRequest ∧
    (w.link.endpoint.operations i).kind = .getDeviceInfo
  place : ∀ q, w.query = some q →
    q.pc.holds w.infoRequest ∧ q.pc.carries (w.link.callers q.thread)

namespace Ownership

/-- Without an outstanding request the session has no slot. -/
theorem none_owned (held : Ownership es w) (clear : w.infoRequest = 0) (i : SlotIndex) :
    ¬Owns es w i := by
  intro owns
  have same := (held.owned i owns).1
  have positive := (held.ids _ owns.2).1
  omega

theorem unique (held : Ownership es w) (run : Run infoMachine es w)
    (bound : submissions (linkTrace es) < 2 ^ 64 - 1) {i j : SlotIndex} (first : Owns es w i)
    (second : Owns es w j) : i = j := by
  have ids := IdsInv.of_run (link_run run) (by omega)
  exact ids.distinct i j first.1 second.1
    ((held.owned i first).1.trans (held.owned j second).1.symm)

/-- A slot under an id issued earlier is one the session had before. -/
theorem kept_slot (held : Ownership es w) (run : Run infoMachine es w)
    (bound : submissions (linkTrace es) < 2 ^ 64 - 1) (moved : InfoMoves w a next event)
    {i : SlotIndex} (used : (next.link.endpoint.operations i).used = true)
    (old : (next.link.endpoint.operations i).requestId ∈ issued es) :
    Owns es w i ∧
      (next.link.endpoint.operations i).requestId = (w.link.endpoint.operations i).requestId ∧
      (next.link.endpoint.operations i).kind = (w.link.endpoint.operations i).kind := by
  rcases moved.link_cases with ⟨-, same⟩ | ⟨b, e, -, inner⟩
  · rw [same] at used old ⊢
    exact ⟨⟨used, old⟩, rfl, rfl⟩
  · have before := link_run run
    have upper := (held.ids _ old).2
    obtain ⟨usedBefore, id, kind⟩ := (SlotsInv.of_run before).old_slot
      (IdsInv.of_run before (by omega)) (by omega) (step_moves inner) used upper
    exact ⟨⟨usedBefore, id ▸ old⟩, id, kind⟩

/-- A take that was not told to wait leaves the session without a slot. -/
theorem cleared (held : Ownership es w) (run : Run infoMachine es w)
    (bound : submissions (linkTrace es) < 2 ^ 64 - 1) (ended : w.takeInfo.2.status ≠ .busy)
    {i : SlotIndex} (owns : Owns es w i) : (w.takeInfo.1.operations i).used = false := by
  obtain ⟨same, kind⟩ := held.owned i owns
  have ids := IdsInv.of_run (link_run run) (by omega)
  unfold InfoWorld.takeInfo at ended ⊢
  rw [← same] at ended ⊢
  exact Endpoint.take_removes ids.distinct owns.1
    (by rw [kind]; rfl) ended

end Ownership

/-- An accepted submission of a caller: its slot holds the operation under the next id. -/
theorem submitted_slot {link after : World} {t : Nat} {clock : TimeMs} {e : Wirelink.Event}
    (moved : Moves link (.submit t clock) after e) (accepted : refusal e = none) :
    submittedId e = link.endpoint.nextRequestId ∧ e.accepted = true ∧
      ∃ s j, link.callers t = .enqueue s ∧
        (∀ i, i ≠ j → after.endpoint.operations i = link.endpoint.operations i) ∧
        (after.endpoint.operations j).kind = s.kind ∧
        (after.endpoint.operations j).requestId = link.endpoint.nextRequestId := by
  cases moved with
  | rejected pc failed => simp [refusal, failed] at accepted
  | queued pc running free =>
    rename_i s j _
    refine ⟨rfl, rfl, s, j, pc, ?_, ?_, ?_⟩
    · intro i apart
      exact Function.update_of_ne apart _ _
    · simp [Endpoint.submittedSlot]
    · simp [Endpoint.submittedSlot]

namespace Ownership

theorem step (held : Ownership es w) (run : Run infoMachine es w)
    (bound : submissions (linkTrace es) < 2 ^ 64 - 1)
    (stepped : w.step a = some (next, event)) :
    Ownership (es ++ [⟨w, a, event, next⟩]) next := by
  have moved := info_moves stepped
  have grown : submissions (linkTrace es) ≤
      submissions (linkTrace (es ++ [⟨w, a, event, next⟩])) := by
    rw [linkTrace_append, submissions_append]
    exact Nat.le_add_right _ _
  -- Steps that issue nothing keep what is on record, or clear it with its slot.
  have quiet (none : issuedBy ⟨w, a, event, next⟩ = none)
      (record : next.infoRequest = w.infoRequest ∨
        next.infoRequest = 0 ∧ next.link.endpoint = w.takeInfo.1 ∧ w.takeInfo.2.status ≠ .busy)
      (place : ∀ q, next.query = some q →
        q.pc.holds next.infoRequest ∧ q.pc.carries (next.link.callers q.thread)) :
      Ownership (es ++ [⟨w, a, event, next⟩]) next := by
    have same : issued (es ++ [⟨w, a, event, next⟩]) = issued es := by
      simp [issued_snoc, none]
    refine ⟨?_, ?_, ?_, place⟩
    · rw [same]
      intro id member
      have := held.ids id member
      omega
    · rw [same]
      intro outstanding
      rcases record with kept | ⟨clear, -⟩
      · rw [kept] at outstanding ⊢
        exact held.request outstanding
      · exact absurd clear outstanding
    · rintro i ⟨used, member⟩
      rw [same] at member
      obtain ⟨owns, id, kind⟩ := held.kept_slot run bound moved used member
      rcases record with kept | ⟨-, taken, ended⟩
      · rw [id, kind, kept]
        exact held.owned i owns
      · have gone := held.cleared run bound ended owns
        rw [taken, gone] at used
        cases used
  cases moved with
  | link free inner =>
    refine quiet rfl (.inl rfl) ?_
    intro q query
    have place := held.place q query
    refine ⟨place.1, ?_⟩
    rw [(step_moves inner).caller_frame]
    · exact place.2
    · intro own
      have query' : w.query = some q := query
      unfold InfoWorld.free at free
      split at free
      · cases own
      · simp [query', own] at free
  | reply _ inner =>
    refine quiet rfl (.inl rfl) ?_
    intro q query
    have place := held.place q query
    refine ⟨place.1, ?_⟩
    rw [(step_moves inner).caller_frame (by intro own; cases own)]
    exact place.2
  | peerSession | refused => exact quiet rfl (.inl rfl) held.place
  | begun =>
    refine quiet rfl (.inl rfl) ?_
    rintro q ⟨⟩
    exact ⟨trivial, trivial⟩
  | ended | succeeded | stillPending | unsubmitted =>
    refine quiet rfl (.inl rfl) ?_
    intro q query
    cases query
  | again =>
    refine quiet rfl (.inl rfl) ?_
    rintro q ⟨⟩
    exact ⟨trivial, trivial⟩
  | entered query pc =>
    refine quiet rfl (.inl rfl) ?_
    rintro q ⟨⟩
    dsimp only [InfoWorld.goto]
    split
    · exact ⟨‹_›, trivial⟩
    · exact ⟨not_not.mp ‹_›, trivial⟩
  | sawPeer query pc =>
    refine quiet rfl (.inl rfl) ?_
    rintro q ⟨⟩
    have place := held.place _ query
    rw [pc] at place
    exact ⟨place.1, trivial⟩
  | recovered query pc ended =>
    refine quiet rfl (.inr ⟨rfl, rfl, ended⟩) ?_
    rintro q ⟨⟩
    exact ⟨rfl, trivial⟩
  | failed query pc ended =>
    refine quiet rfl (.inr ⟨rfl, rfl, ended⟩) ?_
    intro q query
    cases query
  | took query pc ok =>
    refine quiet rfl (.inr ⟨rfl, rfl, by rw [ok]; decide⟩) ?_
    rintro q ⟨⟩
    exact ⟨rfl, trivial⟩
  | waited query pc =>
    refine quiet rfl (.inl rfl) ?_
    rintro q ⟨⟩
    have place := held.place _ query
    rw [pc] at place
    exact ⟨place.1, trivial⟩
  | called query pc inner accepted =>
    refine quiet rfl (.inl rfl) ?_
    rintro q ⟨⟩
    have place := held.place _ query
    rw [pc] at place
    refine ⟨place.1, ?_⟩
    generalize made : Wirelink.Action.call _ _ = b at inner
    cases step_moves inner with
    | refused => simp [refusal] at accepted
    | called idle prepared =>
      cases made
      exact ⟨_, by simp [World.setCaller], Wirelink.Call.prepare_kind prepared⟩
    | _ => cases made
  | gated query pc inner accepted =>
    refine quiet rfl (.inl rfl) ?_
    rintro q ⟨⟩
    have place := held.place _ query
    rw [pc] at place
    obtain ⟨request, s, carried, kind⟩ := place
    refine ⟨request, ?_⟩
    generalize made : Wirelink.Action.gate _ = b at inner
    cases step_moves inner with
    | blocked => simp [refusal] at accepted
    | passed there =>
      cases made
      rw [carried] at there
      cases there
      exact ⟨s, by simp [World.setCaller], kind⟩
    | _ => cases made
  | queued query pc inner accepted =>
    rename_i clock expired remaining q link e before
    have place := held.place _ query
    rw [pc] at place
    obtain ⟨clear, s, carried, kind⟩ := place
    have run' := link_run run
    obtain ⟨id, made, s', j, carried', others, does, numbered⟩ :=
      submitted_slot (step_moves inner) accepted
    rw [carried] at carried'
    cases carried'
    have number := (IdsInv.of_run run' (by omega)).next_id (by omega)
    rw [number] at id numbered
    have total (x : Entry InfoWorld InfoAction InfoEvent) (before : x.before = w)
        (action : x.action = .step clock expired remaining) :
        submissions (linkTrace (es ++ [x])) = submissions (linkTrace es) + 1 := by
      have entry : linkEntry x = some ⟨w.link, .submit q.thread clock, e, link⟩ := by
        simp [linkEntry, before, action, InfoWorld.onLink, query, Query.linkAction, pc, inner]
      rw [linkTrace_append, submissions_append]
      simp [linkTrace, entry, submissions, made]
    refine ⟨?_, ?_, ?_, ?_⟩
    · intro k member
      rw [issued_snoc] at member
      rw [total _ rfl rfl]
      rcases List.mem_append.mp member with earlier | last
      · have := held.ids k earlier
        omega
      · have same : k = submittedId e := by simpa [issuedBy] using last
        omega
    · intro _
      rw [issued_snoc]
      simp [issuedBy]
    · rintro i ⟨used, member⟩
      rw [issued_snoc] at member
      dsimp only at used member ⊢
      rcases List.mem_append.mp member with earlier | last
      · obtain ⟨owns, -⟩ := held.kept_slot run bound (info_moves stepped) used earlier
        exact absurd owns (held.none_owned clear i)
      · have same : (link.endpoint.operations i).requestId = submittedId e := by
          simpa [issuedBy] using last
        by_cases new : i = j
        · subst new
          exact ⟨same, does.trans kind⟩
        · rw [others i new] at used same
          have upper := ((IdsInv.of_run run' (by omega)).bounds i used).2
          omega
    · rintro q' ⟨⟩
      refine ⟨?_, trivial⟩
      change submittedId e ≠ 0
      omega

theorem of_run (run : Run infoMachine es w) :
    submissions (linkTrace es) < 2 ^ 64 - 1 → Ownership es w := by
  refine run.history (P := fun es w => submissions (linkTrace es) < 2 ^ 64 - 1 →
    Ownership es w) ?_ ?_
  · intro _
    refine ⟨?_, ?_, ?_, ?_⟩
    · intro id member
      cases member
    · intro outstanding
      exact absurd rfl outstanding
    · rintro i ⟨used, -⟩
      cases used
    · intro q query
      cases query
  · intro es s a e t before ih stepped bound
    have earlier : submissions (linkTrace es) < 2 ^ 64 - 1 := by
      rw [linkTrace_append, submissions_append] at bound
      omega
    exact (ih earlier).step before earlier stepped

end Ownership

end Florid.Upgrade.InfoQuery
