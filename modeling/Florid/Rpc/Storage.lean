import Florid.Arena

/-! The layout of the device runtime's storage: where its regions lie, and how much storage
`fci_device_runtime_requirements` asks for. -/
namespace Florid.Rpc

open Arena

/-- The codes that the layout returns; `latest` is any of the link library. -/
inductive InitErr where
  | invalidArg
  | bufTooSmall
  | notSupported
  | latest (code : Int)
  deriving DecidableEq

/-- `sizeof` and `_Alignof` of a type. -/
structure TypeLayout where
  size : UInt64
  alignment : UInt64
  power : ∃ k < 64, alignment.toNat = 2 ^ k

/-- What the compiler and the link library bring: the types that the storage holds, the size of the
instance, and `wl_latest_requirements` of a size, an alignment and a generation. -/
structure Abi where
  armStatus : TypeLayout
  motorFeedback : TypeLayout
  armDiagnostics : TypeLayout
  rpcClientSlot : TypeLayout
  instanceSize : UInt64
  latestRequirements : UInt64 → UInt64 → UInt32 → Except InitErr UInt64

/-- The members of `fci_device_runtime_config_t` that decide about the storage. -/
structure RuntimeConfig where
  armStatusLatestInitialGeneration : UInt32
  motorFeedbackLatestInitialGeneration : UInt32
  armDiagnosticsLatestInitialGeneration : UInt32
  rpcClientEnabled : UInt8
  rpcClientSlotCount : UInt16
  rpcClientResponseCapacity : UInt16
  rpcServerEnabled : UInt8
  /-- Whether each of the request handlers is set. -/
  requestHandlers : List Bool

/-- `fci_device_runtime_roles_valid`: this host has no server role. -/
def RuntimeConfig.rolesValid (config : RuntimeConfig) : Bool :=
  config.rpcServerEnabled == 0 && config.requestHandlers.all (! ·)

def sizeTMax : UInt64 := 0xFFFFFFFFFFFFFFFF

structure StorageCursor where
  base : UInt64
  size : UInt64
  offset : UInt64

/-- What `fci_device_runtime_storage_region` writes: the data and the size of the region, and the
cursor behind it. -/
structure StorageRegion where
  data : UInt64
  size : UInt64
  cursor : StorageCursor

/-- `fci_device_runtime_storage_region`; a null base hands out null. -/
def storageRegion (cursor : StorageCursor) (alignment count elementSize : UInt64) :
    Except InitErr StorageRegion :=
  if alignment = 0 ∨ alignment &&& (alignment - 1) ≠ 0 then .error .invalidArg
  else if count ≠ 0 ∧ elementSize > sizeTMax / count then .error .invalidArg
  else
    let regionSize := count * elementSize
    if cursor.offset > sizeTMax - (alignment - 1) then .error .invalidArg
    else
      let aligned := (cursor.offset + (alignment - 1)) &&& ~~~(alignment - 1)
      if regionSize > sizeTMax - aligned then .error .invalidArg
      else if aligned + regionSize > cursor.size then .error .bufTooSmall
      else .ok {
        data := if cursor.base = 0 then 0 else cursor.base + aligned
        size := regionSize
        cursor := { cursor with offset := aligned + regionSize } }

structure RuntimeRequirements where
  storageSize : UInt64
  storageAlignment : UInt64

structure RuntimeLayout where
  armStatusLatestStorage : UInt64
  motorFeedbackLatestStorage : UInt64
  armDiagnosticsLatestStorage : UInt64
  rpcClientSlots : UInt64
  rpcClientResponses : UInt64
  rpcClientResponsesSize : UInt64
  deriving DecidableEq

/-- The alignment of the storage, raised to that of a type. -/
def raised (alignment type : UInt64) : UInt64 := if alignment < type then type else alignment

/-- The block of a route in `fci_device_runtime_layout`. -/
def latestRegion (abi : Abi) (type : TypeLayout) (generation : UInt32) (cursor : StorageCursor) :
    Except InitErr StorageRegion := do
  let storageSize ← abi.latestRequirements type.size type.alignment generation
  storageRegion cursor type.alignment 1 storageSize

/-- `fci_device_runtime_layout`. The server's regions stand behind a role that
`fci_device_runtime_roles_valid` has refused by then. -/
def runtimeLayout (abi : Abi) (config : RuntimeConfig) (base size : UInt64) :
    Except InitErr (RuntimeLayout × RuntimeRequirements) := do
  let start : StorageCursor := ⟨base, size, 0⟩
  let status ← latestRegion abi abi.armStatus config.armStatusLatestInitialGeneration start
  let feedback ← latestRegion abi abi.motorFeedback config.motorFeedbackLatestInitialGeneration
    status.cursor
  let diagnostics ← latestRegion abi abi.armDiagnostics config.armDiagnosticsLatestInitialGeneration
    feedback.cursor
  let alignment := raised (raised (raised 1 abi.armStatus.alignment) abi.motorFeedback.alignment)
    abi.armDiagnostics.alignment
  if config.rolesValid = false then .error .notSupported
  else if config.rpcClientEnabled > 1 ∨ config.rpcServerEnabled > 1 then .error .invalidArg
  else if config.rpcClientEnabled ≠ 0 then
    if config.rpcClientSlotCount = 0 ∨ config.rpcClientResponseCapacity = 0 then .error .invalidArg
    else
      let slots ← storageRegion diagnostics.cursor abi.rpcClientSlot.alignment
        config.rpcClientSlotCount.toUInt64 abi.rpcClientSlot.size
      let responses ← storageRegion slots.cursor 1 config.rpcClientSlotCount.toUInt64
        config.rpcClientResponseCapacity.toUInt64
      return (⟨status.data, feedback.data, diagnostics.data, slots.data, responses.data,
        responses.size⟩, ⟨responses.cursor.offset, raised alignment abi.rpcClientSlot.alignment⟩)
  else return (⟨status.data, feedback.data, diagnostics.data, 0, 0, 0⟩,
    ⟨diagnostics.cursor.offset, alignment⟩)

def runtimeRequirements (abi : Abi) (config : RuntimeConfig) : Except InitErr RuntimeRequirements :=
  (runtimeLayout abi config 0 sizeTMax).map Prod.snd

/-! ### One region -/

theorem land_not_mask {x k : Nat} (small : x < 2 ^ 64) (width : k < 64) :
    x &&& (2 ^ 64 - 1 - (2 ^ k - 1)) = x / 2 ^ k * 2 ^ k := by
  have mask : 2 ^ 64 - 1 - (2 ^ k - 1) = 2 ^ 64 - ((2 ^ k - 1) + 1) := by omega
  have inside : 2 ^ k - 1 < 2 ^ 64 := by
    have := Nat.pow_lt_pow_right (a := 2) (by decide) width
    omega
  apply Nat.eq_of_testBit_eq
  intro i
  rw [mask, Nat.testBit_and, Nat.testBit_two_pow_sub_succ inside, Nat.testBit_two_pow_sub_one,
    ← Nat.shiftRight_eq_div_pow, ← Nat.shiftLeft_eq, Nat.testBit_shiftLeft, Nat.testBit_shiftRight]
  by_cases low : i < k
  · simp [low]
  · have same : k + (i - k) = i := by omega
    by_cases high : i < 64
    · simp [low, high, same, Nat.le_of_not_lt low]
    · have none : x.testBit i = false :=
        Nat.testBit_lt_two_pow (Nat.lt_of_lt_of_le small (Nat.pow_le_pow_right (by decide) (by omega)))
      simp [none, same]

namespace TypeLayout
variable (type : TypeLayout)

theorem positive : 1 ≤ type.alignment.toNat := by
  obtain ⟨k, -, power⟩ := type.power
  rw [power]
  exact Nat.two_pow_pos k

theorem toNat_alignment_sub_one : (type.alignment - 1).toNat = type.alignment.toNat - 1 := by
  rw [UInt64.toNat_sub_of_le]
  · rfl
  · rw [UInt64.le_iff_toNat_le]
    exact type.positive

theorem land_alignment_eq_zero (x : UInt64) :
    x &&& (type.alignment - 1) = 0 ↔ type.alignment.toNat ∣ x.toNat := by
  obtain ⟨k, -, power⟩ := type.power
  rw [← UInt64.toNat_inj, UInt64.toNat_and, type.toNat_alignment_sub_one, power,
    Nat.and_two_pow_sub_one_eq_mod, Nat.dvd_iff_mod_eq_zero]
  rfl

theorem toNat_aligned {offset : UInt64}
    (fits : offset.toNat + (type.alignment.toNat - 1) < 2 ^ 64) :
    ((offset + (type.alignment - 1)) &&& ~~~(type.alignment - 1)).toNat =
      alignUp type.alignment.toNat offset.toNat := by
  obtain ⟨k, width, power⟩ := type.power
  have less := type.toNat_alignment_sub_one
  have sum : (offset + (type.alignment - 1)).toNat = offset.toNat + (type.alignment.toNat - 1) := by
    rw [UInt64.toNat_add, less, Nat.mod_eq_of_lt fits]
  rw [UInt64.toNat_and, UInt64.toNat_not, less, sum, alignUp, power]
  rw [power] at fits
  exact land_not_mask fits width

/-- An offset in the last aligned block of the address space has nothing aligned behind it. -/
theorem alignUp_overflow {offset : Nat} (last : 2 ^ 64 - type.alignment.toNat < offset) :
    2 ^ 64 ≤ alignUp type.alignment.toNat offset := by
  obtain ⟨k, width, power⟩ := type.power
  have start := @le_alignUp type.alignment.toNat offset type.positive
  obtain ⟨q, multiple⟩ := @dvd_alignUp type.alignment.toNat offset
  have whole : type.alignment.toNat * 2 ^ (64 - k) = 2 ^ 64 := by
    rw [power, ← Nat.pow_add, Nat.add_sub_of_le width.le]
  rw [multiple] at start ⊢
  rw [← whole]
  apply Nat.mul_le_mul_left
  by_contra fewer
  have step : type.alignment.toNat * (q + 1) ≤ type.alignment.toNat * 2 ^ (64 - k) :=
    Nat.mul_le_mul_left _ (Nat.not_le.mp fewer)
  rw [whole, Nat.mul_succ] at step
  omega

end TypeLayout

/-- What a cursor hands out for so many bytes that fit. -/
def StorageCursor.claim (cursor : StorageCursor) (alignment bytes : Nat) : StorageRegion :=
  let start := alignUp alignment cursor.offset.toNat
  { data := if cursor.base = 0 then 0 else cursor.base + .ofNat start
    size := .ofNat bytes
    cursor := { cursor with offset := .ofNat (start + bytes) } }

theorem product_fits (count elementSize : UInt64) :
    ¬ (count ≠ 0 ∧ sizeTMax / count < elementSize) ↔ count.toNat * elementSize.toNat < 2 ^ 64 := by
  have top : sizeTMax.toNat = 2 ^ 64 - 1 := rfl
  rw [UInt64.lt_iff_toNat_lt, UInt64.toNat_div, top, ne_eq, ← UInt64.toNat_inj]
  rcases Nat.eq_zero_or_pos count.toNat with zero | positive
  · simp [zero]
  · rw [Nat.div_lt_iff_lt_mul positive, Nat.mul_comm elementSize.toNat]
    have nonzero : count.toNat ≠ (0 : UInt64).toNat := Nat.ne_of_gt positive
    simp only [nonzero, not_false_eq_true, true_and]
    omega

theorem refuse_eq_ok {ε α : Type} {p : Prop} [Decidable p] {e : ε} {x : Except ε α} {a : α} :
    (if p then .error e else x) = .ok a ↔ ¬ p ∧ x = .ok a := by
  split
  · rename_i refused
    constructor
    · intro h
      cases h
    · intro h
      exact absurd refused h.1
  · rename_i passed
    exact (and_iff_right passed).symm

/-- The sums that `storageRegion` compares do not wrap behind its guards. -/
structure Unwrapped (type : TypeLayout) (offset count elementSize : UInt64) : Prop where
  bytes : (count * elementSize).toNat = count.toNat * elementSize.toNat
  start : ((offset + (type.alignment - 1)) &&& ~~~(type.alignment - 1)).toNat =
    alignUp type.alignment.toNat offset.toNat

theorem TypeLayout.unwrapped (type : TypeLayout) {offset count elementSize : UInt64}
    (product : count.toNat * elementSize.toNat < 2 ^ 64)
    (last : offset.toNat ≤ 2 ^ 64 - type.alignment.toNat) : Unwrapped type offset count elementSize where
  bytes := by rw [UInt64.toNat_mul, Nat.mod_eq_of_lt product]
  start := by
    have positive := type.positive
    have width := type.alignment.toNat_lt
    apply type.toNat_aligned
    omega

theorem toNat_sizeTMax_sub (x : UInt64) : (sizeTMax - x).toNat = 2 ^ 64 - 1 - x.toNat := by
  have width := x.toNat_lt
  rw [UInt64.toNat_sub_of_le]
  · rfl
  · rw [UInt64.le_iff_toNat_le]
    exact Nat.le_sub_one_of_lt width

/-- A region is handed out if it ends inside the storage. -/
theorem storageRegion_eq_ok {cursor : StorageCursor} {count elementSize : UInt64}
    {r : StorageRegion} (type : TypeLayout) :
    storageRegion cursor type.alignment count elementSize = .ok r ↔
      alignUp type.alignment.toNat cursor.offset.toNat + count.toNat * elementSize.toNat ≤
          cursor.size.toNat ∧
        r = cursor.claim type.alignment.toNat (count.toNat * elementSize.toNat) := by
  have positive := type.positive
  have width := type.alignment.toNat_lt
  have size := cursor.size.toNat_lt
  have near := @alignUp_le type.alignment.toNat cursor.offset.toNat
  have power : ¬ (type.alignment = 0 ∨ type.alignment &&& (type.alignment - 1) ≠ 0) := by
    rw [not_or, not_not, type.land_alignment_eq_zero, ← UInt64.toNat_inj]
    exact ⟨Nat.ne_of_gt positive, Nat.dvd_refl _⟩
  rw [storageRegion, if_neg power]
  simp only [refuse_eq_ok, gt_iff_lt, product_fits, Except.ok.injEq]
  simp only [UInt64.lt_iff_toNat_lt, toNat_sizeTMax_sub, type.toNat_alignment_sub_one, not_lt]
  constructor
  · rintro ⟨product, last, sum, inside, rfl⟩
    obtain ⟨bytes, start⟩ := @type.unwrapped cursor.offset count elementSize product (by omega)
    rw [start, bytes] at sum
    rw [UInt64.toNat_add, start, bytes, Nat.mod_eq_of_lt (by omega)] at inside
    refine ⟨inside, ?_⟩
    rw [StorageCursor.claim, ← start, ← bytes]
    simp only [UInt64.ofNat_add, UInt64.ofNat_toNat]
  · rintro ⟨inside, rfl⟩
    have product : count.toNat * elementSize.toNat < 2 ^ 64 := by omega
    have last : cursor.offset.toNat ≤ 2 ^ 64 - type.alignment.toNat := by
      apply Nat.not_lt.mp
      intro beyond
      have := type.alignUp_overflow beyond
      omega
    obtain ⟨bytes, start⟩ := @type.unwrapped cursor.offset count elementSize product last
    refine ⟨product, by omega, ?_, ?_, ?_⟩
    · rw [start, bytes]
      omega
    · rwa [UInt64.toNat_add, start, bytes, Nat.mod_eq_of_lt (by omega)]
    · rw [StorageCursor.claim, ← start, ← bytes]
      simp only [UInt64.ofNat_add, UInt64.ofNat_toNat]

/-! ### All regions -/

theorem sequence_eq_ok {ε α β : Type} {x : Except ε α} {f : α → Except ε β} {b : β} :
    (x >>= f) = .ok b ↔ ∃ a, x = .ok a ∧ f a = .ok b := by
  cases x with
  | error e =>
    constructor
    · intro failed
      cases failed
    · rintro ⟨a, failed, -⟩
      cases failed
  | ok a =>
    constructor
    · intro done
      exact ⟨a, rfl, done⟩
    · rintro ⟨a', same, done⟩
      cases same
      exact done

/-- The arguments of a call of `storageRegion`. -/
structure RegionCall where
  type : TypeLayout
  count : UInt64
  elementSize : UInt64

def RegionCall.block (call : RegionCall) : Block :=
  ⟨call.type.alignment.toNat, call.count.toNat * call.elementSize.toNat⟩

/-- Regions handed out one behind the other. -/
def storageRegions (cursor : StorageCursor) :
    List RegionCall → Except InitErr (List UInt64 × StorageCursor)
  | [] => .ok ([], cursor)
  | call :: calls => do
    let region ← storageRegion cursor call.type.alignment call.count call.elementSize
    let (data, stop) ← storageRegions region.cursor calls
    return (region.data :: data, stop)

/-- The address of a region of a storage at a base. -/
def regionAddress (base : UInt64) (r : Region) : UInt64 := if base = 0 then 0 else base + .ofNat r.offset

theorem block_positive (calls : List RegionCall) :
    ∀ b ∈ calls.map RegionCall.block, 0 < b.alignment := by
  intro b member
  obtain ⟨call, -, rfl⟩ := List.mem_map.mp member
  exact call.type.positive

theorem toNat_claim {cursor : StorageCursor} {alignment bytes : Nat}
    (fits : alignUp alignment cursor.offset.toNat + bytes ≤ cursor.size.toNat) :
    (cursor.claim alignment bytes).cursor.offset.toNat =
      alignUp alignment cursor.offset.toNat + bytes :=
  UInt64.toNat_ofNat_of_lt' (Nat.lt_of_le_of_lt fits cursor.size.toNat_lt)

theorem storageRegions_eq_ok {cursor : StorageCursor} {calls : List RegionCall}
    {data : List UInt64} {stop : StorageCursor} (within : cursor.offset.toNat ≤ cursor.size.toNat) :
    storageRegions cursor calls = .ok (data, stop) ↔
      extent (calls.map RegionCall.block) cursor.offset.toNat ≤ cursor.size.toNat ∧
        data = (place (calls.map RegionCall.block) cursor.offset.toNat).map (regionAddress cursor.base) ∧
        stop = { cursor with
          offset := .ofNat (extent (calls.map RegionCall.block) cursor.offset.toNat) } := by
  induction calls generalizing cursor data stop with
  | nil =>
    simp only [storageRegions, Except.ok.injEq, Prod.mk.injEq, List.map_nil, extent, place,
      UInt64.ofNat_toNat, within, true_and, @eq_comm _ [], @eq_comm _ cursor]
  | cons call calls ih =>
    have rest := le_extent (block_positive calls)
      (alignUp call.block.alignment cursor.offset.toNat + call.block.size)
    simp only [storageRegions, sequence_eq_ok, storageRegion_eq_ok, List.map_cons, extent, place]
    constructor
    · rintro ⟨_, ⟨fits, rfl⟩, ⟨tail, last⟩, handed, made⟩
      have offset := @toNat_claim cursor call.block.alignment call.block.size fits
      obtain ⟨inside, tailEq, lastEq⟩ := (ih (offset.trans_le fits)).mp handed
      rw [offset] at inside tailEq lastEq
      cases made
      exact ⟨inside, by rw [tailEq]; rfl, lastEq⟩
    · rintro ⟨inside, rfl, rfl⟩
      have fits := Nat.le_trans rest inside
      have offset := @toNat_claim cursor call.block.alignment call.block.size fits
      refine ⟨_, ⟨fits, rfl⟩, _, (ih (offset.trans_le fits)).mpr ⟨?_, rfl, rfl⟩, ?_⟩
      · rw [offset]
        exact inside
      · rw [offset]
        rfl

/-! ### The layout -/

/-- What the link library asks for the routes. -/
structure Routes where
  armStatus : UInt64
  motorFeedback : UInt64
  armDiagnostics : UInt64

structure Routes.Answered (abi : Abi) (config : RuntimeConfig) (routes : Routes) : Prop where
  armStatus : abi.latestRequirements abi.armStatus.size abi.armStatus.alignment
    config.armStatusLatestInitialGeneration = .ok routes.armStatus
  motorFeedback : abi.latestRequirements abi.motorFeedback.size abi.motorFeedback.alignment
    config.motorFeedbackLatestInitialGeneration = .ok routes.motorFeedback
  armDiagnostics : abi.latestRequirements abi.armDiagnostics.size abi.armDiagnostics.alignment
    config.armDiagnosticsLatestInitialGeneration = .ok routes.armDiagnostics

namespace RuntimeConfig

/-- What both checks of a configuration ask for. -/
structure Valid (config : RuntimeConfig) : Prop where
  roles : config.rolesValid = true
  client : config.rpcClientEnabled ≤ 1
  slots : config.rpcClientEnabled ≠ 0 → config.rpcClientSlotCount ≠ 0
  responses : config.rpcClientEnabled ≠ 0 → config.rpcClientResponseCapacity ≠ 0

theorem server_eq_zero {config : RuntimeConfig} (roles : config.rolesValid = true) :
    config.rpcServerEnabled = 0 := by
  simp only [rolesValid, Bool.and_eq_true, beq_iff_eq] at roles
  exact roles.1

def byteLayout : TypeLayout := ⟨1, 1, 0, by decide, rfl⟩

/-- The regions that the layout hands out. -/
def calls (abi : Abi) (config : RuntimeConfig) (routes : Routes) : List RegionCall :=
  [⟨abi.armStatus, 1, routes.armStatus⟩, ⟨abi.motorFeedback, 1, routes.motorFeedback⟩,
    ⟨abi.armDiagnostics, 1, routes.armDiagnostics⟩] ++
  if config.rpcClientEnabled ≠ 0 then
    [⟨abi.rpcClientSlot, config.rpcClientSlotCount.toUInt64, abi.rpcClientSlot.size⟩,
      ⟨byteLayout, config.rpcClientSlotCount.toUInt64, config.rpcClientResponseCapacity.toUInt64⟩]
  else []

/-- The alignment that the layout asks for. -/
def alignment (abi : Abi) (config : RuntimeConfig) : UInt64 :=
  let routes := raised (raised (raised 1 abi.armStatus.alignment) abi.motorFeedback.alignment)
    abi.armDiagnostics.alignment
  if config.rpcClientEnabled ≠ 0 then raised routes abi.rpcClientSlot.alignment else routes

end RuntimeConfig

namespace RuntimeLayout

/-- The regions of a layout, as the layout hands them out. -/
def data (config : RuntimeConfig) (l : RuntimeLayout) : List UInt64 :=
  [l.armStatusLatestStorage, l.motorFeedbackLatestStorage, l.armDiagnosticsLatestStorage] ++
  if config.rpcClientEnabled ≠ 0 then [l.rpcClientSlots, l.rpcClientResponses] else []

/-- The members of a layout that are not addresses of regions. -/
structure Filled (config : RuntimeConfig) (l : RuntimeLayout) : Prop where
  enabled : config.rpcClientEnabled ≠ 0 → l.rpcClientResponsesSize =
    .ofNat (config.rpcClientSlotCount.toNat * config.rpcClientResponseCapacity.toNat)
  disabled : config.rpcClientEnabled = 0 →
    l.rpcClientSlots = 0 ∧ l.rpcClientResponses = 0 ∧ l.rpcClientResponsesSize = 0

end RuntimeLayout

theorem storageRegions_cons {cursor : StorageCursor} {call : RegionCall} {calls : List RegionCall}
    {r : StorageRegion} {data : List UInt64} {stop : StorageCursor}
    (handed : storageRegion cursor call.type.alignment call.count call.elementSize = .ok r)
    (rest : storageRegions r.cursor calls = .ok (data, stop)) :
    storageRegions cursor (call :: calls) = .ok (r.data :: data, stop) := by
  simp only [storageRegions, handed, rest, bind, Except.bind, pure, Except.pure]

theorem storageRegions_cons_inv {cursor : StorageCursor} {call : RegionCall}
    {calls : List RegionCall} {data : List UInt64} {stop : StorageCursor}
    (handed : storageRegions cursor (call :: calls) = .ok (data, stop)) :
    ∃ r tail, storageRegion cursor call.type.alignment call.count call.elementSize = .ok r ∧
      storageRegions r.cursor calls = .ok (tail, stop) ∧ data = r.data :: tail := by
  simp only [storageRegions, sequence_eq_ok] at handed
  obtain ⟨r, region, ⟨tail, last⟩, rest, made⟩ := handed
  cases made
  exact ⟨r, tail, region, rest, rfl⟩

/-- The layout hands out the regions of its calls. -/
theorem runtimeLayout_handed {abi : Abi} {config : RuntimeConfig} {base size : UInt64}
    {l : RuntimeLayout} {need : RuntimeRequirements}
    (done : runtimeLayout abi config base size = .ok (l, need)) :
    ∃ routes, Routes.Answered abi config routes ∧ config.Valid ∧
      (∃ stop, storageRegions ⟨base, size, 0⟩ (config.calls abi routes) = .ok (l.data config, stop) ∧
        stop.offset = need.storageSize) ∧
      l.Filled config ∧ need.storageAlignment = config.alignment abi := by
  simp only [runtimeLayout, latestRegion, sequence_eq_ok, refuse_eq_ok, not_or, UInt8.not_lt,
    gt_iff_lt, Bool.not_eq_false] at done
  obtain ⟨status, ⟨s, answerS, status'⟩, feedback, ⟨f, answerF, feedback'⟩, diagnostics,
    ⟨d, answerD, diagnostics'⟩, roles, ⟨enabled, -⟩, done⟩ := done
  refine ⟨⟨s, f, d⟩, ⟨answerS, answerF, answerD⟩, ?_⟩
  by_cases client : config.rpcClientEnabled = 0
  · rw [if_neg (not_not.mpr client)] at done
    cases done
    refine ⟨⟨roles, enabled, fun on => absurd client on, fun on => absurd client on⟩,
      ⟨diagnostics.cursor, ?_, rfl⟩, ⟨fun on => absurd client on, fun _ => ⟨rfl, rfl, rfl⟩⟩, ?_⟩
    · simp only [RuntimeConfig.calls, RuntimeLayout.data, if_neg (not_not.mpr client)]
      exact storageRegions_cons status' (storageRegions_cons feedback'
        (storageRegions_cons diagnostics' rfl))
    · simp only [RuntimeConfig.alignment, if_neg (not_not.mpr client)]
  · rw [if_pos client] at done
    simp only [sequence_eq_ok, refuse_eq_ok, not_or] at done
    obtain ⟨⟨slotCount, capacity⟩, slots, slots', responses, responses', made⟩ := done
    cases made
    refine ⟨⟨roles, enabled, fun _ => slotCount, fun _ => capacity⟩,
      ⟨responses.cursor, ?_, rfl⟩, ⟨fun _ => ?_, fun off => absurd off client⟩, ?_⟩
    · simp only [RuntimeConfig.calls, RuntimeLayout.data, if_pos client]
      exact storageRegions_cons status' (storageRegions_cons feedback'
        (storageRegions_cons diagnostics' (storageRegions_cons slots'
          (storageRegions_cons responses' rfl))))
    · obtain ⟨-, rfl⟩ := (storageRegion_eq_ok RuntimeConfig.byteLayout).mp responses'
      simp only [StorageCursor.claim, UInt16.toNat_toUInt64]
    · simp only [RuntimeConfig.alignment, if_pos client]

/-- It hands them out whenever they fit. -/
theorem runtimeLayout_of_handed {abi : Abi} {config : RuntimeConfig} {base size : UInt64}
    {routes : Routes} {data : List UInt64} {stop : StorageCursor}
    (answered : Routes.Answered abi config routes) (valid : config.Valid)
    (handed : storageRegions ⟨base, size, 0⟩ (config.calls abi routes) = .ok (data, stop)) :
    ∃ l, runtimeLayout abi config base size = .ok (l, ⟨stop.offset, config.alignment abi⟩) := by
  have server := RuntimeConfig.server_eq_zero valid.roles
  have enabled : ¬ (config.rpcClientEnabled > 1 ∨ config.rpcServerEnabled > 1) := by
    rw [server]
    exact not_or.mpr ⟨UInt8.not_lt.mpr valid.client, by decide⟩
  obtain ⟨status, _, status', handed, -⟩ := storageRegions_cons_inv handed
  obtain ⟨feedback, _, feedback', handed, -⟩ := storageRegions_cons_inv handed
  obtain ⟨diagnostics, _, diagnostics', handed, -⟩ := storageRegions_cons_inv handed
  dsimp only at status' feedback' diagnostics'
  simp only [runtimeLayout, latestRegion, answered.armStatus, answered.motorFeedback,
    answered.armDiagnostics, status', feedback', diagnostics', bind, Except.bind, valid.roles,
    if_neg enabled, Bool.true_eq_false, if_false]
  by_cases client : config.rpcClientEnabled = 0
  · rw [if_neg (not_not.mpr client)]
    rw [if_neg (not_not.mpr client)] at handed
    cases handed
    simp only [RuntimeConfig.alignment, if_neg (not_not.mpr client)]
    exact ⟨_, rfl⟩
  · have capacities :
        ¬ (config.rpcClientSlotCount = 0 ∨ config.rpcClientResponseCapacity = 0) :=
      not_or.mpr ⟨valid.slots client, valid.responses client⟩
    rw [if_pos client, if_neg capacities]
    rw [if_pos client] at handed
    obtain ⟨slots, _, slots', handed, -⟩ := storageRegions_cons_inv handed
    obtain ⟨responses, _, responses', handed, -⟩ := storageRegions_cons_inv handed
    cases handed
    dsimp only [RuntimeConfig.byteLayout] at slots' responses'
    simp only [slots', responses', RuntimeConfig.alignment, if_pos client]
    exact ⟨_, rfl⟩

namespace RuntimeConfig

def blocks (abi : Abi) (config : RuntimeConfig) (routes : Routes) : List Block :=
  (config.calls abi routes).map RegionCall.block

/-- The bytes that the regions take. -/
def bytes (abi : Abi) (config : RuntimeConfig) (routes : Routes) : Nat :=
  extent (config.blocks abi routes) 0

end RuntimeConfig

theorem runtimeLayout_iff {abi : Abi} {config : RuntimeConfig} {base size : UInt64}
    {need : RuntimeRequirements} :
    (∃ l, runtimeLayout abi config base size = .ok (l, need)) ↔
      ∃ routes, Routes.Answered abi config routes ∧ config.Valid ∧
        config.bytes abi routes ≤ size.toNat ∧
        need = ⟨.ofNat (config.bytes abi routes), config.alignment abi⟩ := by
  constructor
  · rintro ⟨l, done⟩
    obtain ⟨routes, answered, valid, ⟨stop, handed, offset⟩, -, aligned⟩ := runtimeLayout_handed done
    obtain ⟨inside, -, rfl⟩ := (storageRegions_eq_ok (Nat.zero_le _)).mp handed
    obtain ⟨_, _⟩ := need
    cases offset
    cases aligned
    exact ⟨routes, answered, valid, inside, rfl⟩
  · rintro ⟨routes, answered, valid, inside, rfl⟩
    exact runtimeLayout_of_handed answered valid
      ((storageRegions_eq_ok (Nat.zero_le _)).mpr ⟨inside, rfl, rfl⟩)

theorem runtimeRequirements_eq_ok {abi : Abi} {config : RuntimeConfig}
    {need : RuntimeRequirements} :
    runtimeRequirements abi config = .ok need ↔
      ∃ l, runtimeLayout abi config 0 sizeTMax = .ok (l, need) := by
  rw [runtimeRequirements]
  cases runtimeLayout abi config 0 sizeTMax with
  | error e =>
    constructor
    · intro failed
      cases failed
    · rintro ⟨l, failed⟩
      cases failed
  | ok pair =>
    obtain ⟨l, need'⟩ := pair
    constructor
    · intro done
      cases done
      exact ⟨l, rfl⟩
    · rintro ⟨l', done⟩
      cases done
      rfl

/-- The requirements are the least storage that the layout succeeds with, and the layout then uses
no more of it. -/
theorem runtimeLayout_exact (abi : Abi) (config : RuntimeConfig) (base size : UInt64)
    (need : RuntimeRequirements) :
    (∃ l, runtimeLayout abi config base size = .ok (l, need)) ↔
      runtimeRequirements abi config = .ok need ∧ need.storageSize ≤ size := by
  have top : sizeTMax.toNat = 2 ^ 64 - 1 := rfl
  rw [runtimeRequirements_eq_ok, runtimeLayout_iff, runtimeLayout_iff, UInt64.le_iff_toNat_le, top]
  have room := size.toNat_lt
  constructor
  · rintro ⟨routes, answered, valid, inside, rfl⟩
    have small : config.bytes abi routes < 2 ^ 64 := by omega
    refine ⟨⟨routes, answered, valid, by omega, rfl⟩, ?_⟩
    rwa [UInt64.toNat_ofNat_of_lt' small]
  · rintro ⟨⟨routes, answered, valid, small, rfl⟩, inside⟩
    rw [UInt64.toNat_ofNat_of_lt' (Nat.lt_of_le_of_lt small (by decide))] at inside
    exact ⟨routes, answered, valid, inside, rfl⟩

end Florid.Rpc
