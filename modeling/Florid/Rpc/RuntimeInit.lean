import Florid.Rpc.Storage

/-! The initialisation of the device runtime until its layout, plain and checked: which storages both
accept, and what the regions of an accepted one are. -/
namespace Florid.Rpc

open Arena

structure RuntimeStorage where
  data : UInt64
  size : UInt64

/-- The storage that an instance at an address needs overlaps the instance. -/
def overlaps (abi : Abi) (address : UInt64) (storage : RuntimeStorage) (storageSize : UInt64) :
    Bool :=
  decide (storage.data ≤ address ∧ address - storage.data < storageSize) ||
    decide (address < storage.data ∧ storage.data - address < abi.instanceSize)

/-- `fci_device_runtime_init` until its layout, for an instance at an address. -/
def runtimeInit (abi : Abi) (config : RuntimeConfig) (storage : RuntimeStorage)
    (address : UInt64) : Except InitErr RuntimeLayout := do
  let requirements ← runtimeRequirements abi config
  if storage.size < requirements.storageSize then .error .bufTooSmall
  else if requirements.storageSize ≠ 0 ∧
      (storage.data = 0 ∨ storage.data &&& (requirements.storageAlignment - 1) ≠ 0) then
    .error .invalidArg
  else if requirements.storageSize ≠ 0 ∧ overlaps abi address storage requirements.storageSize then
    .error .invalidArg
  else (runtimeLayout abi config storage.data storage.size).map Prod.fst

inductive InitIssue where
  | roleEnable
  | rpcClientCapacity
  | layoutOverflow
  | storageTooSmall
  | storageNull
  | storageAlignment
  | storageOverlap
  deriving DecidableEq

structure InitDiagnostic where
  issue : InitIssue
  field : String
  required : UInt64
  provided : UInt64
  result : InitErr

/-- `fci_device_runtime_init_validate` of arguments that are not null: the requirements, or its
diagnostic and its result. -/
def initValidate (abi : Abi) (config : RuntimeConfig) (storage : RuntimeStorage)
    (address : UInt64) : Except InitDiagnostic RuntimeRequirements :=
  if config.rolesValid = false then
    .error ⟨.roleEnable, "endpoint.rpc_role", 0, 1, .notSupported⟩
  else if config.rpcClientEnabled > 1 then
    .error ⟨.roleEnable, "rpc_client_enabled", 1, config.rpcClientEnabled.toUInt64, .invalidArg⟩
  else if config.rpcServerEnabled > 1 then
    .error ⟨.roleEnable, "rpc_server_enabled", 1, config.rpcServerEnabled.toUInt64, .invalidArg⟩
  else if config.rpcClientEnabled ≠ 0 ∧ config.rpcClientSlotCount = 0 then
    .error ⟨.rpcClientCapacity, "rpc_client_slot_count", 1, 0, .invalidArg⟩
  else if config.rpcClientEnabled ≠ 0 ∧ config.rpcClientResponseCapacity = 0 then
    .error ⟨.rpcClientCapacity, "rpc_client_response_capacity", 1, 0, .invalidArg⟩
  else match runtimeRequirements abi config with
  | .error result => .error ⟨.layoutOverflow, "config", 0, 0, result⟩
  | .ok requirements =>
    if storage.size < requirements.storageSize then
      .error ⟨.storageTooSmall, "storage.size", requirements.storageSize, storage.size,
        .bufTooSmall⟩
    else if requirements.storageSize ≠ 0 ∧ storage.data = 0 then
      .error ⟨.storageNull, "storage.data", requirements.storageSize, 0, .invalidArg⟩
    else if requirements.storageSize ≠ 0 ∧
        storage.data &&& (requirements.storageAlignment - 1) ≠ 0 then
      .error ⟨.storageAlignment, "storage.data", requirements.storageAlignment,
        storage.data &&& (requirements.storageAlignment - 1), .invalidArg⟩
    else if requirements.storageSize ≠ 0 ∧
        overlaps abi address storage requirements.storageSize then
      .error ⟨.storageOverlap, "storage.data", requirements.storageSize, storage.size, .invalidArg⟩
    else .ok requirements

/-! ### The checks -/

/-- What both initialisations ask of a storage. -/
structure StorageAccepted (abi : Abi) (storage : RuntimeStorage) (address : UInt64)
    (need : RuntimeRequirements) : Prop where
  room : need.storageSize ≤ storage.size
  data : need.storageSize ≠ 0 → storage.data ≠ 0
  aligned : need.storageSize ≠ 0 → storage.data &&& (need.storageAlignment - 1) = 0
  apart : need.storageSize ≠ 0 → overlaps abi address storage need.storageSize = false

theorem runtimeInit_eq_ok {abi : Abi} {config : RuntimeConfig} {storage : RuntimeStorage}
    {address : UInt64} {l : RuntimeLayout} :
    runtimeInit abi config storage address = .ok l ↔
      ∃ need, StorageAccepted abi storage address need ∧
        runtimeLayout abi config storage.data storage.size = .ok (l, need) := by
  simp only [runtimeInit, sequence_eq_ok, refuse_eq_ok, UInt64.not_lt, not_and, not_or, not_not,
    Bool.not_eq_true]
  constructor
  · rintro ⟨need, required, room, placed, apart, done⟩
    obtain ⟨l', laid⟩ := (runtimeLayout_exact abi config storage.data storage.size need).mpr
      ⟨required, room⟩
    rw [laid] at done
    cases done
    exact ⟨need, ⟨room, fun needed => (placed needed).1, fun needed => (placed needed).2, apart⟩, laid⟩
  · rintro ⟨need, accepted, laid⟩
    obtain ⟨required, room⟩ :=
      (runtimeLayout_exact abi config storage.data storage.size need).mp ⟨l, laid⟩
    exact ⟨need, required, room, fun needed => ⟨accepted.data needed, accepted.aligned needed⟩,
      accepted.apart, by rw [laid]; rfl⟩

theorem initValidate_eq_ok {abi : Abi} {config : RuntimeConfig} {storage : RuntimeStorage}
    {address : UInt64} {need : RuntimeRequirements} :
    initValidate abi config storage address = .ok need ↔
      runtimeRequirements abi config = .ok need ∧ StorageAccepted abi storage address need := by
  rw [initValidate]
  cases required : runtimeRequirements abi config with
  | error e =>
    simp only [refuse_eq_ok]
    constructor
    · rintro ⟨-, -, -, -, -, failed⟩
      cases failed
    · rintro ⟨failed, -⟩
      cases failed
  | ok need' =>
    obtain ⟨routes, -, valid, -⟩ := runtimeLayout_iff.mp (runtimeRequirements_eq_ok.mp required)
    have server := RuntimeConfig.server_eq_zero valid.roles
    simp only [refuse_eq_ok, valid.roles, server, UInt64.not_lt, not_and, not_not, Bool.not_eq_true,
      Bool.true_eq_false, not_false_eq_true, true_and, Except.ok.injEq]
    constructor
    · rintro ⟨-, -, -, -, room, data, aligned, apart, rfl⟩
      exact ⟨rfl, room, data, aligned, apart⟩
    · rintro ⟨rfl, room, data, aligned, apart⟩
      exact ⟨UInt8.not_lt.mpr valid.client, by decide, valid.slots, valid.responses, room, data,
        aligned, apart, rfl⟩

theorem initValidate_iff {abi : Abi} {config : RuntimeConfig} {storage : RuntimeStorage}
    {address : UInt64} {need : RuntimeRequirements} :
    initValidate abi config storage address = .ok need ↔
      (∃ l, runtimeInit abi config storage address = .ok l) ∧
        runtimeRequirements abi config = .ok need := by
  rw [initValidate_eq_ok]
  constructor
  · rintro ⟨required, accepted⟩
    obtain ⟨l, laid⟩ := (runtimeLayout_exact abi config storage.data storage.size need).mpr
      ⟨required, accepted.room⟩
    exact ⟨⟨l, runtimeInit_eq_ok.mpr ⟨need, accepted, laid⟩⟩, required⟩
  · rintro ⟨⟨l, done⟩, required⟩
    obtain ⟨need', accepted, laid⟩ := runtimeInit_eq_ok.mp done
    obtain ⟨required', -⟩ :=
      (runtimeLayout_exact abi config storage.data storage.size need').mp ⟨l, laid⟩
    cases required.symm.trans required'
    exact ⟨required, accepted⟩

/-- The routes' regions fit into the address space. -/
def Routes.Fit (abi : Abi) (routes : Routes) : Prop :=
  extent ([⟨abi.armStatus, 1, routes.armStatus⟩, ⟨abi.motorFeedback, 1, routes.motorFeedback⟩,
    ⟨abi.armDiagnostics, 1, routes.armDiagnostics⟩].map RegionCall.block) 0 < 2 ^ 64

/-- The configuration that the layout refuses behind the routes, and how. -/
theorem runtimeRequirements_refused {abi : Abi} {config : RuntimeConfig} {routes : Routes}
    {e : InitErr} (answered : Routes.Answered abi config routes) (fit : routes.Fit abi)
    (refused : config.rolesValid = false ∧ e = .notSupported ∨
      config.rolesValid = true ∧ e = .invalidArg ∧
        (config.rpcClientEnabled > 1 ∨ config.rpcServerEnabled > 1 ∨ config.rpcClientEnabled ≠ 0 ∧
          (config.rpcClientSlotCount = 0 ∨ config.rpcClientResponseCapacity = 0))) :
    runtimeRequirements abi config = .error e := by
  have handed := (@storageRegions_eq_ok ⟨0, sizeTMax, 0⟩ _ _ _ (Nat.zero_le _)).mpr
    ⟨Nat.le_sub_one_of_lt fit, rfl, rfl⟩
  obtain ⟨status, _, status', handed, -⟩ := storageRegions_cons_inv handed
  obtain ⟨feedback, _, feedback', handed, -⟩ := storageRegions_cons_inv handed
  obtain ⟨diagnostics, _, diagnostics', -, -⟩ := storageRegions_cons_inv handed
  dsimp only at status' feedback' diagnostics'
  simp only [runtimeRequirements, runtimeLayout, latestRegion, answered.armStatus,
    answered.motorFeedback, answered.armDiagnostics, status', feedback', diagnostics', bind,
    Except.bind]
  rcases refused with ⟨roles, rfl⟩ | ⟨roles, rfl, why⟩
  · rw [if_pos roles]
    rfl
  · rw [if_neg (by simp only [roles, Bool.true_eq_false, not_false_eq_true])]
    by_cases enabled : config.rpcClientEnabled > 1 ∨ config.rpcServerEnabled > 1
    · rw [if_pos enabled]
      rfl
    · rw [if_neg enabled]
      obtain ⟨client, server⟩ := not_or.mp enabled
      obtain ⟨on, empty⟩ := (why.resolve_left client).resolve_left server
      rw [if_pos on, if_pos empty]
      rfl

theorem runtimeInit_refused {abi : Abi} {config : RuntimeConfig} {storage : RuntimeStorage}
    {address : UInt64} {e : InitErr} (refused : runtimeRequirements abi config = .error e) :
    runtimeInit abi config storage address = .error e := by
  rw [runtimeInit, refused]
  rfl

/-- The diagnostic carries the code that the plain initialisation returns. -/
theorem initValidate_result {abi : Abi} {config : RuntimeConfig} {routes : Routes}
    {storage : RuntimeStorage} {address : UInt64} {d : InitDiagnostic}
    (answered : Routes.Answered abi config routes) (fit : routes.Fit abi)
    (refused : initValidate abi config storage address = .error d) :
    runtimeInit abi config storage address = .error d.result := by
  have layout {e : InitErr} := @runtimeRequirements_refused abi config routes e answered fit
  unfold initValidate at refused
  split at refused
  · rename_i roles
    cases refused
    exact runtimeInit_refused (layout (.inl ⟨roles, rfl⟩))
  rename_i roles
  rw [Bool.not_eq_false] at roles
  split at refused
  · rename_i client
    cases refused
    exact runtimeInit_refused (layout (.inr ⟨roles, rfl, .inl client⟩))
  split at refused
  · rename_i server
    cases refused
    exact runtimeInit_refused (layout (.inr ⟨roles, rfl, .inr (.inl server)⟩))
  split at refused
  · rename_i slots
    cases refused
    exact runtimeInit_refused (layout (.inr ⟨roles, rfl, .inr (.inr ⟨slots.1, .inl slots.2⟩)⟩))
  split at refused
  · rename_i responses
    cases refused
    exact runtimeInit_refused
      (layout (.inr ⟨roles, rfl, .inr (.inr ⟨responses.1, .inr responses.2⟩)⟩))
  split at refused
  · rename_i e required
    cases refused
    exact runtimeInit_refused required
  rename_i need required
  simp only [runtimeInit, required, bind, Except.bind]
  split at refused
  · rename_i room
    cases refused
    rw [if_pos room]
  rename_i room
  rw [if_neg room]
  split at refused
  · rename_i data
    cases refused
    rw [if_pos ⟨data.1, .inl data.2⟩]
  split at refused
  · rename_i aligned
    cases refused
    rw [if_pos ⟨aligned.1, .inr aligned.2⟩]
  rename_i data aligned
  have placed : ¬ (need.storageSize ≠ 0 ∧ (storage.data = 0 ∨
      storage.data &&& (need.storageAlignment - 1) ≠ 0)) := by
    rintro ⟨needed, null | odd⟩
    · exact data ⟨needed, null⟩
    · exact aligned ⟨needed, odd⟩
  rw [if_neg placed]
  split at refused
  · rename_i apart
    cases refused
    rw [if_pos apart]
  · cases refused

/-- Both initialisations accept the same instances, configurations and storages: the layout never
fails behind the checks. Where the routes fit into the address space, they refuse with one code. -/
theorem initValidate_agrees (abi : Abi) (config : RuntimeConfig) (storage : RuntimeStorage)
    (address : UInt64) :
    (∀ need, initValidate abi config storage address = .ok need ↔
      (∃ l, runtimeInit abi config storage address = .ok l) ∧
        runtimeRequirements abi config = .ok need) ∧
    ∀ routes d, Routes.Answered abi config routes → routes.Fit abi →
      initValidate abi config storage address = .error d →
      runtimeInit abi config storage address = .error d.result :=
  ⟨fun _ => initValidate_iff, fun _ _ answered fit => initValidate_result answered fit⟩

/-! ### The regions -/

/-- A region of memory that holds values of an alignment. -/
structure Piece where
  alignment : Nat
  address : Nat
  size : Nat

/-- The regions of a layout. -/
def RuntimeLayout.pieces (abi : Abi) (config : RuntimeConfig) (routes : Routes)
    (l : RuntimeLayout) : List Piece :=
  [⟨abi.armStatus.alignment.toNat, l.armStatusLatestStorage.toNat, routes.armStatus.toNat⟩,
    ⟨abi.motorFeedback.alignment.toNat, l.motorFeedbackLatestStorage.toNat,
      routes.motorFeedback.toNat⟩,
    ⟨abi.armDiagnostics.alignment.toNat, l.armDiagnosticsLatestStorage.toNat,
      routes.armDiagnostics.toNat⟩] ++
  if config.rpcClientEnabled ≠ 0 then
    [⟨abi.rpcClientSlot.alignment.toNat, l.rpcClientSlots.toNat,
        config.rpcClientSlotCount.toNat * abi.rpcClientSlot.size.toNat⟩,
      ⟨1, l.rpcClientResponses.toNat, l.rpcClientResponsesSize.toNat⟩]
  else []

/-- The piece of a block that lies at an address. -/
def Piece.of (b : Block) (data : UInt64) : Piece := ⟨b.alignment, data.toNat, b.size⟩

theorem pieces_eq {abi : Abi} {config : RuntimeConfig} {routes : Routes} {l : RuntimeLayout}
    (filled : l.Filled config) :
    l.pieces abi config routes =
      List.zipWith Piece.of (config.blocks abi routes) (l.data config) := by
  by_cases client : config.rpcClientEnabled = 0
  · simp only [RuntimeLayout.pieces, RuntimeConfig.blocks, RuntimeConfig.calls, RuntimeLayout.data,
      if_neg (not_not.mpr client), List.append_nil, List.map_cons, List.map_nil,
      List.zipWith_cons_cons, List.zipWith_nil_left, Piece.of, RegionCall.block]
    simp only [UInt64.toNat_one, Nat.one_mul]
  · have count := config.rpcClientSlotCount.toNat_lt
    have capacity := config.rpcClientResponseCapacity.toNat_lt
    have small : config.rpcClientSlotCount.toNat * config.rpcClientResponseCapacity.toNat < 2 ^ 64 :=
      Nat.lt_of_lt_of_le (Nat.mul_lt_mul'' count capacity) (by decide)
    simp only [RuntimeLayout.pieces, RuntimeConfig.blocks, RuntimeConfig.calls, RuntimeLayout.data,
      if_pos client, List.cons_append, List.nil_append, List.map_cons, List.map_nil,
      List.zipWith_cons_cons, List.zipWith_nil_left, Piece.of, RegionCall.block,
      filled.enabled client, UInt64.toNat_ofNat_of_lt' small]
    simp only [UInt64.toNat_one, Nat.one_mul, UInt16.toNat_toUInt64, RuntimeConfig.byteLayout]

/-! ### Alignment -/

/-- An alignment: a power of two. -/
def Power (x : UInt64) : Prop := ∃ k < 64, x.toNat = 2 ^ k

theorem Power.dvd {x y : UInt64} (px : Power x) (py : Power y) (le : x ≤ y) : x.toNat ∣ y.toNat := by
  obtain ⟨i, -, xEq⟩ := px
  obtain ⟨j, -, yEq⟩ := py
  rw [UInt64.le_iff_toNat_le, xEq, yEq, Nat.pow_le_pow_iff_right (by decide)] at le
  rw [xEq, yEq]
  exact Nat.pow_dvd_pow 2 le

theorem Power.raised {x y : UInt64} (px : Power x) (py : Power y) : Power (raised x y) := by
  rw [Rpc.raised]
  split
  · exact py
  · exact px

theorem le_raised {x y z : UInt64} (le : z ≤ x) : z ≤ raised x y := by
  rw [raised]
  split
  · rename_i less
    exact UInt64.le_trans le (UInt64.le_of_lt less)
  · exact le

theorem le_raised_right (x y : UInt64) : y ≤ raised x y := by
  rw [raised]
  split
  · exact UInt64.le_refl y
  · rename_i notLess
    exact UInt64.not_lt.mp notLess

theorem alignment_power (abi : Abi) (config : RuntimeConfig) : Power (config.alignment abi) := by
  have one : Power 1 := ⟨0, by decide, rfl⟩
  have routes := ((one.raised abi.armStatus.power).raised abi.motorFeedback.power).raised
    abi.armDiagnostics.power
  rw [RuntimeConfig.alignment]
  split
  · exact routes.raised abi.rpcClientSlot.power
  · exact routes

/-- The alignment that the layout asks for is enough for all of its regions. -/
theorem calls_aligned (abi : Abi) (config : RuntimeConfig) (routes : Routes) :
    ∀ call ∈ config.calls abi routes, call.type.alignment ≤ config.alignment abi := by
  have status := le_raised_right 1 abi.armStatus.alignment
  have feedback := le_raised_right (raised 1 abi.armStatus.alignment) abi.motorFeedback.alignment
  have diagnostics := le_raised_right
    (raised (raised 1 abi.armStatus.alignment) abi.motorFeedback.alignment)
    abi.armDiagnostics.alignment
  have one := le_raised (y := abi.armStatus.alignment) (UInt64.le_refl 1)
  have routes : ∀ x, x = 1 ∨ x = abi.armStatus.alignment ∨ x = abi.motorFeedback.alignment ∨
      x = abi.armDiagnostics.alignment →
      x ≤ raised (raised (raised 1 abi.armStatus.alignment) abi.motorFeedback.alignment)
        abi.armDiagnostics.alignment := by
    rintro x (rfl | rfl | rfl | rfl)
    · exact le_raised (le_raised one)
    · exact le_raised (le_raised status)
    · exact le_raised feedback
    · exact diagnostics
  intro call member
  by_cases client : config.rpcClientEnabled = 0
  · simp only [RuntimeConfig.calls, if_neg (not_not.mpr client), List.append_nil, List.mem_cons,
      List.not_mem_nil, or_false] at member
    simp only [RuntimeConfig.alignment, if_neg (not_not.mpr client)]
    apply routes
    rcases member with rfl | rfl | rfl
    · exact .inr (.inl rfl)
    · exact .inr (.inr (.inl rfl))
    · exact .inr (.inr (.inr rfl))
  · simp only [RuntimeConfig.calls, if_pos client, List.cons_append, List.nil_append, List.mem_cons,
      List.not_mem_nil, or_false] at member
    simp only [RuntimeConfig.alignment, if_pos client]
    rcases member with rfl | rfl | rfl | rfl | rfl
    · exact le_raised (routes _ (.inr (.inl rfl)))
    · exact le_raised (routes _ (.inr (.inr (.inl rfl))))
    · exact le_raised (routes _ (.inr (.inr (.inr rfl))))
    · exact le_raised_right _ _
    · exact le_raised (routes _ (.inl rfl))

/-! ### The regions of an accepted storage -/

theorem toNat_regionAddress {base : UInt64} {r : Region} (null : base = 0 → r.offset = 0)
    (object : base.toNat + r.offset < 2 ^ 64) :
    (regionAddress base r).toNat = base.toNat + r.offset := by
  rw [regionAddress]
  split
  · rename_i zero
    rw [null zero, zero]
    rfl
  · have small : r.offset < 2 ^ 64 := by omega
    rw [UInt64.toNat_add, UInt64.toNat_ofNat_of_lt' small, Nat.mod_eq_of_lt object]

section Pieces
variable {blocks : List Block} {regions : List Region} {data : Region → UInt64}

theorem mem_pieces
    (fits : List.Forall₂ (fun b r => b.alignment ∣ r.offset ∧ r.size = b.size) blocks regions)
    {p : Piece} (member : p ∈ List.zipWith Piece.of blocks (regions.map data)) :
    ∃ b ∈ blocks, ∃ r ∈ regions, b.alignment ∣ r.offset ∧
      p = ⟨b.alignment, (data r).toNat, r.size⟩ := by
  induction fits with
  | nil => cases member
  | @cons b r blocks regions fit _ ih =>
    rcases List.mem_cons.mp member with rfl | later
    · refine ⟨b, List.mem_cons_self, r, List.mem_cons_self, fit.1, ?_⟩
      rw [fit.2]
      rfl
    · obtain ⟨b', inside, r', inside', aligned, made⟩ := ih later
      exact ⟨b', List.mem_cons_of_mem b inside, r', List.mem_cons_of_mem r inside', aligned, made⟩

theorem pieces_pairwise {base : Nat}
    (fits : List.Forall₂ (fun b r => b.alignment ∣ r.offset ∧ r.size = b.size) blocks regions)
    (apart : regions.Pairwise fun r r' => r.offset + r.size ≤ r'.offset)
    (located : ∀ r ∈ regions, (data r).toNat = base + r.offset) :
    (List.zipWith Piece.of blocks (regions.map data)).Pairwise
      fun p q => p.address + p.size ≤ q.address := by
  induction fits with
  | nil => exact List.Pairwise.nil
  | @cons b r blocks regions fit rest ih =>
    obtain ⟨before, apart⟩ := List.pairwise_cons.mp apart
    obtain ⟨here, located⟩ := List.forall_mem_cons.mp located
    apply List.Pairwise.cons
    · intro q member
      obtain ⟨-, -, r', inside, -, rfl⟩ := mem_pieces rest member
      have after := before r' inside
      rw [fit.2] at after
      rw [Piece.of, here, located r' inside]
      dsimp only
      omega
    · exact ih apart located

end Pieces

theorem overlaps_eq_false {abi : Abi} {address : UInt64} {storage : RuntimeStorage} {size : UInt64}
    (apart : overlaps abi address storage size = false) :
    storage.data.toNat + size.toNat ≤ address.toNat ∨
      address.toNat + abi.instanceSize.toNat ≤ storage.data.toNat := by
  simp only [overlaps, Bool.or_eq_false_iff, decide_eq_false_iff_not, not_and, UInt64.not_lt] at apart
  obtain ⟨behind, before⟩ := apart
  rcases Nat.lt_or_ge address.toNat storage.data.toNat with less | notLess
  · right
    have room := before (UInt64.lt_iff_toNat_lt.mpr less)
    rw [UInt64.le_iff_toNat_le, UInt64.toNat_sub_of_le _ _ (UInt64.le_iff_toNat_le.mpr less.le)] at room
    omega
  · left
    have le := UInt64.le_iff_toNat_le.mpr notLess
    have room := behind le
    rw [UInt64.le_iff_toNat_le, UInt64.toNat_sub_of_le _ _ le] at room
    omega

/-- The regions of an accepted storage: each is aligned for what it holds and lies in the storage
and outside of the instance, and no two of them meet. -/
theorem runtimeInit_regions {abi : Abi} {config : RuntimeConfig} {storage : RuntimeStorage}
    {address : UInt64} {l : RuntimeLayout}
    (done : runtimeInit abi config storage address = .ok l)
    (object : storage.data.toNat + storage.size.toNat < 2 ^ 64) :
    ∃ routes, Routes.Answered abi config routes ∧
      (∀ p ∈ l.pieces abi config routes, 0 < p.size →
        p.alignment ∣ p.address ∧ storage.data.toNat ≤ p.address ∧
          p.address + p.size ≤ storage.data.toNat + storage.size.toNat ∧
          (p.address + p.size ≤ address.toNat ∨
            address.toNat + abi.instanceSize.toNat ≤ p.address)) ∧
      (l.pieces abi config routes).Pairwise fun p q => p.address + p.size ≤ q.address := by
  obtain ⟨need, accepted, laid⟩ := runtimeInit_eq_ok.mp done
  obtain ⟨routes, answered, -, ⟨stop, handed, offset⟩, filled, alignment⟩ :=
    runtimeLayout_handed laid
  obtain ⟨inside, placed, rfl⟩ := (storageRegions_eq_ok (Nat.zero_le _)).mp handed
  change config.bytes abi routes ≤ storage.size.toNat at inside
  have positive := block_positive (config.calls abi routes)
  have fits := place_fits ((config.calls abi routes).map RegionCall.block) 0
  have needed : need.storageSize.toNat = config.bytes abi routes := by
    rw [← offset]
    exact UInt64.toNat_ofNat_of_lt' (Nat.lt_of_le_of_lt inside storage.size.toNat_lt)
  have located : ∀ r ∈ place (config.blocks abi routes) 0,
      (regionAddress storage.data r).toNat = storage.data.toNat + r.offset := by
    intro r member
    have stop : r.offset + r.size ≤ config.bytes abi routes := (place_inside positive 0 member).2
    apply toNat_regionAddress
    · intro null
      have empty : need.storageSize = 0 := by
        by_contra taken
        exact accepted.data taken null
      have none : config.bytes abi routes = 0 := by rw [← needed, empty]; rfl
      omega
    · omega
  refine ⟨routes, answered, ?_, ?_⟩
  · intro p member taken
    rw [pieces_eq filled, placed] at member
    obtain ⟨b, called, r, region, aligned, rfl⟩ := mem_pieces fits member
    have stop : r.offset + r.size ≤ config.bytes abi routes := (place_inside positive 0 region).2
    have occupied : need.storageSize ≠ 0 := by
      intro empty
      rw [empty, UInt64.toNat_zero] at needed
      dsimp only at taken
      omega
    have apart := overlaps_eq_false (accepted.apart occupied)
    have base := accepted.aligned occupied
    rw [needed] at apart
    rw [located r region]
    refine ⟨?_, ?_, ?_, ?_⟩
    · rw [alignment] at base
      have whole := (TypeLayout.land_alignment_eq_zero ⟨0, _, alignment_power abi config⟩ _).mp base
      obtain ⟨call, listed, rfl⟩ := List.mem_map.mp called
      have part := Power.dvd call.type.power (alignment_power abi config)
        (calls_aligned abi config routes call listed)
      exact Nat.dvd_add (Nat.dvd_trans part whole) aligned
    · exact Nat.le_add_right _ _
    · dsimp only
      omega
    · dsimp only
      omega
  · rw [pieces_eq filled, placed]
    exact pieces_pairwise fits (place_disjoint positive 0) located

section Sample

/-- A library with three slots for each route. -/
def threeSlots : Abi where
  armStatus := ⟨20, 4, 2, by decide, rfl⟩
  motorFeedback := ⟨72, 8, 3, by decide, rfl⟩
  armDiagnostics := ⟨12, 4, 2, by decide, rfl⟩
  rpcClientSlot := ⟨56, 8, 3, by decide, rfl⟩
  instanceSize := 4096
  latestRequirements size alignment _ := .ok ((size + (alignment - 1)) / alignment * alignment * 3)

def fourCalls : RuntimeConfig where
  armStatusLatestInitialGeneration := 1
  motorFeedbackLatestInitialGeneration := 1
  armDiagnosticsLatestInitialGeneration := 1
  rpcClientEnabled := 1
  rpcClientSlotCount := 4
  rpcClientResponseCapacity := 226
  rpcServerEnabled := 0
  requestHandlers := List.replicate 22 false

/-- The regions of `fourCalls` in a storage of exactly the size that it needs. -/
def fourRegions : RuntimeLayout := ⟨0x10000, 0x10040, 0x10118, 0x10140, 0x10220, 904⟩

theorem fourRegions_apart :
    runtimeInit threeSlots fourCalls ⟨0x10000, 1448⟩ 0x20000 = .ok fourRegions ∧
      ∃ routes, Routes.Answered threeSlots fourCalls routes ∧
        (∀ p ∈ fourRegions.pieces threeSlots fourCalls routes, 0 < p.size →
          p.alignment ∣ p.address ∧ 0x10000 ≤ p.address ∧ p.address + p.size ≤ 0x10000 + 1448 ∧
            (p.address + p.size ≤ 0x20000 ∨ 0x20000 + 4096 ≤ p.address)) ∧
        (fourRegions.pieces threeSlots fourCalls routes).Pairwise
          fun p q => p.address + p.size ≤ q.address :=
  have accepted : runtimeInit threeSlots fourCalls ⟨0x10000, 1448⟩ 0x20000 = .ok fourRegions := by
    decide +kernel
  ⟨accepted, runtimeInit_regions accepted (by decide)⟩

end Sample

/-! ### The arena of an endpoint -/

/-- `FCI_DEVICE_RUNTIME_DEFAULT_STORAGE_ALIGNMENT`, that of a union. -/
def defaultStorageAlignment (abi : Abi) : UInt64 :=
  raised (raised (raised (raised 1 abi.armStatus.alignment) abi.motorFeedback.alignment)
    abi.armDiagnostics.alignment) abi.rpcClientSlot.alignment

/-- `FCI_DEVICE_RUNTIME_DEFAULT_STORAGE_CAPACITY`, with `WL_LATEST_SLOT_COUNT`. -/
def defaultStorageCapacity (abi : Abi) (latestSlotCount : Nat) : Nat :=
  let padding := (defaultStorageAlignment abi).toNat - 1
  1 + (padding + (abi.armStatus.size.toNat + padding) * latestSlotCount) +
    (padding + (abi.motorFeedback.size.toNat + padding) * latestSlotCount) +
    (padding + (abi.armDiagnostics.size.toNat + padding) * latestSlotCount) +
    (padding + abi.rpcClientSlot.size.toNat) + 226

/-- `FCI_DEVICE_ENDPOINT_RUNTIME_CAPACITY`, with `FCI_DEVICE_ENDPOINT_RPC_CAPACITY`. -/
def endpointRuntimeCapacity (abi : Abi) (latestSlotCount rpcCapacity : Nat) : Nat :=
  defaultStorageCapacity abi latestSlotCount +
    (rpcCapacity - 1) * (abi.rpcClientSlot.size.toNat + 226)

/-- The library asks for no more than the capacity reckons with: its slots, each padded. -/
structure Routes.Reckoned (abi : Abi) (latestSlotCount : Nat) (routes : Routes) : Prop where
  armStatus : routes.armStatus.toNat ≤ (abi.armStatus.size.toNat +
    (abi.armStatus.alignment.toNat - 1)) * latestSlotCount
  motorFeedback : routes.motorFeedback.toNat ≤ (abi.motorFeedback.size.toNat +
    (abi.motorFeedback.alignment.toNat - 1)) * latestSlotCount
  armDiagnostics : routes.armDiagnostics.toNat ≤ (abi.armDiagnostics.size.toNat +
    (abi.armDiagnostics.alignment.toNat - 1)) * latestSlotCount

theorem alignment_le_default (abi : Abi) (config : RuntimeConfig) :
    config.alignment abi ≤ defaultStorageAlignment abi := by
  rw [RuntimeConfig.alignment, defaultStorageAlignment]
  split
  · exact UInt64.le_refl _
  · exact le_raised (UInt64.le_refl _)

theorem default_power (abi : Abi) : Power (defaultStorageAlignment abi) :=
  have one : Power 1 := ⟨0, by decide, rfl⟩
  (((one.raised abi.armStatus.power).raised abi.motorFeedback.power).raised
    abi.armDiagnostics.power).raised abi.rpcClientSlot.power

theorem overlaps_of_apart {abi : Abi} {address : UInt64} {storage : RuntimeStorage} {size : UInt64}
    (held : 0 < abi.instanceSize.toNat)
    (apart : storage.data.toNat + size.toNat ≤ address.toNat ∨
      address.toNat + abi.instanceSize.toNat ≤ storage.data.toNat) :
    overlaps abi address storage size = false := by
  simp only [overlaps, Bool.or_eq_false_iff, decide_eq_false_iff_not, not_and, UInt64.not_lt]
  constructor
  · intro le
    rw [UInt64.le_iff_toNat_le, UInt64.toNat_sub_of_le _ _ le]
    rw [UInt64.le_iff_toNat_le] at le
    omega
  · intro less
    rw [UInt64.le_iff_toNat_le, UInt64.toNat_sub_of_le _ _ (UInt64.le_of_lt less)]
    rw [UInt64.lt_iff_toNat_lt] at less
    omega

theorem route_le {alignment padding size latest bytes : Nat} (less : alignment - 1 ≤ padding)
    (reckoned : bytes ≤ (size + (alignment - 1)) * latest) :
    alignment - 1 + bytes ≤ padding + (size + padding) * latest := by
  have wider : (size + (alignment - 1)) * latest ≤ (size + padding) * latest :=
    Nat.mul_le_mul_right _ (Nat.add_le_add_left less _)
  omega

theorem bytes_le_capacity {abi : Abi} {config : RuntimeConfig} {routes : Routes}
    {latestSlotCount rpcCapacity : Nat} (reckoned : routes.Reckoned abi latestSlotCount)
    (one : 1 ≤ rpcCapacity) (slots : config.rpcClientSlotCount.toNat ≤ rpcCapacity)
    (responses : config.rpcClientResponseCapacity.toNat ≤ 226) :
    config.bytes abi routes ≤ endpointRuntimeCapacity abi latestSlotCount rpcCapacity := by
  have padded (type : TypeLayout) (le : type.alignment ≤ defaultStorageAlignment abi) :
      type.alignment.toNat - 1 ≤ (defaultStorageAlignment abi).toNat - 1 :=
    Nat.sub_le_sub_right (UInt64.le_iff_toNat_le.mp le) 1
  have status := padded abi.armStatus
    (le_raised (le_raised (le_raised (le_raised_right 1 abi.armStatus.alignment))))
  have feedback := padded abi.motorFeedback (le_raised (le_raised (le_raised_right _ _)))
  have diagnostics := padded abi.armDiagnostics (le_raised (le_raised_right _ _))
  have slot := padded abi.rpcClientSlot (le_raised_right _ _)
  have statusRoute := route_le status reckoned.armStatus
  have feedbackRoute := route_le feedback reckoned.motorFeedback
  have diagnosticsRoute := route_le diagnostics reckoned.armDiagnostics
  have total := extent_le (config.blocks abi routes) 0
  refine total.trans ?_
  rw [endpointRuntimeCapacity, defaultStorageCapacity]
  by_cases client : config.rpcClientEnabled = 0
  · simp only [RuntimeConfig.blocks, RuntimeConfig.calls, RegionCall.block,
      if_neg (not_not.mpr client), List.append_nil, List.map_cons, List.map_nil, List.sum_cons,
      List.sum_nil, UInt64.toNat_one, Nat.one_mul]
    omega
  · have slotBytes := Nat.mul_le_mul_right abi.rpcClientSlot.size.toNat slots
    have responseBytes := Nat.mul_le_mul slots responses
    have whole : rpcCapacity * abi.rpcClientSlot.size.toNat + rpcCapacity * 226 =
        (rpcCapacity - 1) * (abi.rpcClientSlot.size.toNat + 226) +
          (abi.rpcClientSlot.size.toNat + 226) := by
      rw [← Nat.mul_add, ← Nat.succ_mul, Nat.succ_eq_add_one, Nat.sub_add_cancel one]
    simp only [RuntimeConfig.blocks, RuntimeConfig.calls, RegionCall.block, if_pos client,
      List.cons_append, List.nil_append, List.map_cons, List.map_nil, List.sum_cons, List.sum_nil,
      UInt64.toNat_one, Nat.one_mul, UInt16.toNat_toUInt64, RuntimeConfig.byteLayout]
    omega

/-- The arena of an endpoint is enough for every configuration that the endpoint passes on, with the
responses of the default one. -/
theorem endpoint_arena_accepted {abi : Abi} {config : RuntimeConfig} {routes : Routes}
    {latestSlotCount rpcCapacity : Nat} {arena : RuntimeStorage} {address : UInt64}
    (answered : Routes.Answered abi config routes)
    (reckoned : routes.Reckoned abi latestSlotCount) (valid : config.Valid)
    (one : 1 ≤ rpcCapacity) (slots : config.rpcClientSlotCount.toNat ≤ rpcCapacity)
    (responses : config.rpcClientResponseCapacity.toNat ≤ 226)
    (size : arena.size.toNat = endpointRuntimeCapacity abi latestSlotCount rpcCapacity)
    (data : arena.data ≠ 0) (aligned : (defaultStorageAlignment abi).toNat ∣ arena.data.toNat)
    (held : 0 < abi.instanceSize.toNat)
    (apart : arena.data.toNat + arena.size.toNat ≤ address.toNat ∨
      address.toNat + abi.instanceSize.toNat ≤ arena.data.toNat) :
    ∃ l, runtimeInit abi config arena address = .ok l := by
  have fits : config.bytes abi routes ≤ arena.size.toNat := by
    rw [size]
    exact bytes_le_capacity reckoned one slots responses
  have small : config.bytes abi routes < 2 ^ 64 := Nat.lt_of_le_of_lt fits arena.size.toNat_lt
  have needed := UInt64.toNat_ofNat_of_lt' small
  obtain ⟨l, laid⟩ := (@runtimeLayout_iff abi config arena.data arena.size _).mpr
    ⟨routes, answered, valid, fits, rfl⟩
  refine ⟨l, runtimeInit_eq_ok.mpr ⟨_, ⟨?_, fun _ => data, fun _ => ?_, fun _ => ?_⟩, laid⟩⟩
  · rw [UInt64.le_iff_toNat_le, needed]
    exact fits
  · have part := (alignment_power abi config).dvd (default_power abi) (alignment_le_default abi config)
    exact (TypeLayout.land_alignment_eq_zero ⟨0, _, alignment_power abi config⟩ _).mpr
      (Nat.dvd_trans part aligned)
  · apply overlaps_of_apart held
    rw [needed]
    omega

theorem fourCalls_accepted :
    ∃ l, runtimeInit threeSlots fourCalls
      ⟨0x10000, .ofNat (endpointRuntimeCapacity threeSlots 3 4)⟩ 0x20000 = .ok l :=
  @endpoint_arena_accepted threeSlots fourCalls ⟨60, 216, 36⟩ 3 4 _ _
    ⟨by decide +kernel, by decide +kernel, by decide +kernel⟩ ⟨by decide, by decide, by decide⟩
    ⟨by decide, by decide, by decide, by decide⟩ (by decide) (by decide) (by decide)
    (by decide +kernel) (by decide) (by decide +kernel) (by decide) (by decide +kernel)

end Florid.Rpc
