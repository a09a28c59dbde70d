import Mathlib.Data.Rat.Floor
import Mathlib.Algebra.BigOperators.Group.List.Basic
import Mathlib.Tactic.Linarith
import Mathlib.Tactic.Ring
import Mathlib.Tactic.FieldSimp
import Mathlib.Tactic.Positivity
import Florid.Window

/-! What the receive callback makes of the arm's status frames: the age of the last frame, the
gaps between frames in a ring, and a round trip time from the host timestamp that the frame
echoes. Times are microseconds since the host process started, differences wrap at 64 bits, and
what the code computes in `double` is exact here. -/
namespace Florid.Arm

/-- `g_window_size`. -/
def windowSize : Nat := 64

/-- `0.1f`. -/
def alpha : ℚ := 13421773 / 134217728

structure LatencyEstimator where
  recvTimeUs : UInt64 := 0
  prevRecvTimeUs : UInt64 := 0
  intervals : Window UInt64 windowSize := ⟨Vector.replicate windowSize 0, ⟨0, by decide⟩, 0⟩
  smoothedRttMs : ℚ := 0
  /-- The square of `m_jitter_us`. -/
  jitterSquared : ℚ := 0
  hasValidRtt : Bool := false

namespace LatencyEstimator

def stateAgeUs (e : LatencyEstimator) (hostNowUs : UInt64) : UInt64 :=
  if e.recvTimeUs = 0 then 0 else hostNowUs - e.recvTimeUs

def estimatedLatencyMs (e : LatencyEstimator) : ℚ := e.smoothedRttMs

/-- Mean and variance of the gaps in the window. -/
def mean (entries : List UInt64) : ℚ :=
  (entries.map fun gap => (gap.toNat : ℚ)).sum / entries.length

def variance (entries : List UInt64) : ℚ :=
  (entries.map fun gap => ((gap.toNat : ℚ) - mean entries) ^ 2).sum / entries.length

def markInterval (e : LatencyEstimator) (hostNowUs : UInt64) : LatencyEstimator :=
  if 0 < e.prevRecvTimeUs then
    let intervals := e.intervals.push (hostNowUs - e.prevRecvTimeUs)
    { e with
      intervals
      jitterSquared :=
        if 4 ≤ intervals.count then variance intervals.entries else e.jitterSquared }
  else e

def markEcho (e : LatencyEstimator) (echoTimestampUs hostNowUs : UInt64) : LatencyEstimator :=
  if 0 < echoTimestampUs then
    let rttMs : ℚ := ((hostNowUs - echoTimestampUs).toNat : ℚ) / 1000
    if e.hasValidRtt then
      { e with smoothedRttMs := alpha * rttMs + (1 - alpha) * e.smoothedRttMs }
    else { e with smoothedRttMs := rttMs, hasValidRtt := true }
  else e

def markReceived (e : LatencyEstimator) (echoTimestampUs hostNowUs : UInt64) :
    LatencyEstimator :=
  let spaced := { e with recvTimeUs := hostNowUs }.markInterval hostNowUs
  { spaced with prevRecvTimeUs := hostNowUs }.markEcho echoTimestampUs hostNowUs

def receiveHz (e : LatencyEstimator) : ℚ :=
  if e.intervals.count < 4 then 0
  else
    let sum : UInt64 := e.intervals.entries.foldl (· + ·) 0
    let avgUs : ℚ := (sum.toNat : ℚ) / e.intervals.count
    if avgUs ≤ 0 then 0 else 1000000 / avgUs

end LatencyEstimator

/-- One status frame: the host timestamp it echoes, and the time it arrives at. -/
structure Receipt where
  echo : UInt64
  now : UInt64
deriving DecidableEq, Repr

def received (frames : List Receipt) : LatencyEstimator :=
  frames.foldl (fun e frame => e.markReceived frame.echo frame.now) {}

/-! What the ring holds. -/

/-- From each value to the next. -/
def gaps {α : Type} [Sub α] (times : List α) : List α :=
  times.zipWith (fun previous next => next - previous) times.tail

section Gaps
variable {α : Type} [Sub α]

@[simp] theorem gaps_cons_cons (a b : α) (rest : List α) :
    gaps (a :: b :: rest) = (b - a) :: gaps (b :: rest) := rfl

@[simp] theorem gaps_singleton (a : α) : gaps [a] = [] := rfl

@[simp] theorem gaps_nil : gaps ([] : List α) = [] := rfl

theorem gaps_length (times : List α) : (gaps times).length = times.length - 1 := by
  simp [gaps]

theorem gaps_drop (times : List α) (count : Nat) :
    gaps (times.drop count) = (gaps times).drop count := by
  simp [gaps, List.drop_zipWith, ← List.drop_one, Nat.add_comm]

theorem gaps_snoc (times : List α) (last next : α) :
    gaps (times ++ [last] ++ [next]) = gaps (times ++ [last]) ++ [next - last] := by
  induction times with
  | nil => rfl
  | cons a rest ih =>
    cases rest with
    | nil => rfl
    | cons b rest => simpa using ih

end Gaps

/-- The gaps of a rising sequence add up to the way from its first value to its last. -/
theorem gaps_sum {first : Nat} {rest : List Nat} (rising : (first :: rest).Pairwise (· ≤ ·)) :
    first + (gaps (first :: rest)).sum = (first :: rest).getLast (by simp) := by
  induction rest generalizing first with
  | nil => simp
  | cons next rest ih =>
    obtain ⟨below, rising⟩ := List.pairwise_cons.mp rising
    have step : first ≤ next := below next (by simp)
    rw [List.getLast_cons (by simp), ← ih rising, gaps_cons_cons, List.sum_cons]
    omega

theorem gaps_toNat {times : List UInt64} (rising : times.Pairwise (· < ·)) :
    (gaps times).map UInt64.toNat = gaps (times.map UInt64.toNat) := by
  induction times with
  | nil => rfl
  | cons a rest ih =>
    obtain ⟨below, rising⟩ := List.pairwise_cons.mp rising
    cases rest with
    | nil => rfl
    | cons b rest =>
      have step : a ≤ b := UInt64.le_of_lt (below b (by simp))
      simpa [UInt64.toNat_sub_of_le _ _ step] using ih rising

/-- A 64-bit sum does not wrap while the exact sum fits. -/
theorem foldl_toNat (values : List UInt64) (sum : UInt64)
    (fits : sum.toNat + (values.map UInt64.toNat).sum < 2 ^ 64) :
    (values.foldl (· + ·) sum).toNat = sum.toNat + (values.map UInt64.toNat).sum := by
  induction values generalizing sum with
  | nil => simp
  | cons value rest ih =>
    simp only [List.map_cons, List.sum_cons] at fits
    have here : (sum + value).toNat = sum.toNat + value.toNat := by
      rw [UInt64.toNat_add]
      exact Nat.mod_eq_of_lt (by omega)
    rw [List.foldl_cons, ih _ (by omega), here, List.map_cons, List.sum_cons]
    omega

theorem received_snoc (frames : List Receipt) (frame : Receipt) :
    received (frames ++ [frame]) = (received frames).markReceived frame.echo frame.now := by
  simp [received]

namespace LatencyEstimator
variable (e : LatencyEstimator) (echo now : UInt64)

@[simp] theorem markEcho_prev : (e.markEcho echo now).prevRecvTimeUs = e.prevRecvTimeUs := by
  simp only [markEcho]
  split <;> (try split) <;> rfl

@[simp] theorem markEcho_intervals : (e.markEcho echo now).intervals = e.intervals := by
  simp only [markEcho]
  split <;> (try split) <;> rfl

theorem markReceived_prev : (e.markReceived echo now).prevRecvTimeUs = now := by
  simp [markReceived]

theorem markReceived_intervals :
    (e.markReceived echo now).intervals =
      if 0 < e.prevRecvTimeUs then e.intervals.push (now - e.prevRecvTimeUs)
      else e.intervals := by
  simp only [markReceived, markEcho_intervals, markInterval]
  split <;> rfl

end LatencyEstimator

/-- After any frames at positive times the ring shows the gaps between them. -/
theorem received_shows (frames : List Receipt) (positive : ∀ frame ∈ frames, 0 < frame.now) :
    (received frames).intervals.Shows (gaps (frames.map Receipt.now)) := by
  induction frames using List.reverseRecOn with
  | nil => exact .init rfl rfl
  | append_singleton frames frame ih =>
    rw [received_snoc, LatencyEstimator.markReceived_intervals]
    have shown := ih fun other past => positive other (by simp [past])
    rcases List.eq_nil_or_concat' frames with rfl | ⟨past, last, rfl⟩
    · simpa [received] using shown
    · have before : (received (past ++ [last])).prevRecvTimeUs = last.now := by
        rw [received_snoc, LatencyEstimator.markReceived_prev]
      have known : 0 < last.now := positive last (by simp)
      rw [before, if_pos known]
      simpa [gaps_snoc, ← List.append_assoc] using shown.push_shows (v := frame.now - last.now)

/-- The frames' times, as numbers. -/
def arrivals (frames : List Receipt) : List Nat := frames.map fun frame => frame.now.toNat

/-- How many gaps the ring shows. -/
def windowed (frames : List Receipt) : Nat := min (frames.length - 1) windowSize

section Rising
variable {frames : List Receipt} (positive : ∀ frame ∈ frames, 0 < frame.now)
  (rising : frames.Pairwise fun earlier later => earlier.now < later.now)

include positive in
theorem windowed_count : (received frames).intervals.count = windowed frames := by
  rw [(received_shows frames positive).count, gaps_length, List.length_map, windowed]

include rising in
theorem arrivals_gaps :
    (gaps (frames.map Receipt.now)).map UInt64.toNat = gaps (arrivals frames) := by
  have times : arrivals frames = (frames.map Receipt.now).map UInt64.toNat := by
    simp [arrivals]
  rw [times, gaps_toNat (List.pairwise_map.mpr rising)]

include positive rising in
theorem window_perm :
    ((received frames).intervals.entries.map UInt64.toNat).Perm
      ((gaps (arrivals frames)).drop (frames.length - 1 - windowed frames)) := by
  have held := ((received_shows frames positive).entries_perm).map UInt64.toNat
  rw [List.map_drop, arrivals_gaps rising, gaps_length, List.length_map] at held
  exact held

include rising in
theorem arrivals_lt {early late first last : Nat} (leading : (arrivals frames)[early]? = some first)
    (ending : (arrivals frames)[late]? = some last) (apart : early < late) : first < last := by
  have strict : (arrivals frames).Pairwise (· < ·) := List.pairwise_map.mpr rising
  obtain ⟨early', rfl⟩ := List.getElem?_eq_some_iff.mp leading
  obtain ⟨late', rfl⟩ := List.getElem?_eq_some_iff.mp ending
  exact List.pairwise_iff_getElem.mp strict early late early' late' apart

theorem arrivals_fit {place time : Nat} (present : (arrivals frames)[place]? = some time) :
    time < 2 ^ 64 := by
  obtain ⟨frame, -, rfl⟩ := List.mem_map.mp (List.mem_of_getElem? present)
  exact frame.now.toNat_lt

include rising in
/-- The gaps shown span the time from the first of their frames to the last. -/
theorem window_span (some_frames : frames ≠ []) : ∃ first last,
    (arrivals frames)[frames.length - 1]? = some last ∧
    (arrivals frames)[frames.length - 1 - windowed frames]? = some first ∧
    first + ((gaps (arrivals frames)).drop (frames.length - 1 - windowed frames)).sum = last := by
  have length : (arrivals frames).length = frames.length := by simp [arrivals]
  have nonempty : 0 < frames.length := List.length_pos_of_ne_nil some_frames
  have monotone : (arrivals frames).Pairwise (· ≤ ·) :=
    List.pairwise_map.mpr (rising.imp fun below => Nat.le_of_lt below)
  have inside : frames.length - 1 - windowed frames < (arrivals frames).length := by omega
  obtain ⟨first, rest, shown⟩ : ∃ first rest,
      (arrivals frames).drop (frames.length - 1 - windowed frames) = first :: rest :=
    ⟨_, _, List.drop_eq_getElem_cons inside⟩
  have leading : (arrivals frames)[frames.length - 1 - windowed frames]? = some first := by
    have := congrArg (·[0]?) shown
    simpa using this
  have ending : (arrivals frames)[frames.length - 1]? =
      some ((first :: rest).getLast (by simp)) := by
    have same : (first :: rest).getLast? = (arrivals frames).getLast? := by
      rw [← shown, List.getLast?_drop, if_neg (by omega)]
    rw [← List.getLast?_eq_some_getLast, same, List.getLast?_eq_getElem?, length]
  refine ⟨first, _, ending, leading, ?_⟩
  rw [← gaps_drop, shown]
  exact gaps_sum (shown ▸ monotone.drop)

end Rising

/-- At rising times the ring holds the last gaps, in some order, and the rate is their number
over the time they span. -/
theorem window_gaps (frames : List Receipt) (positive : ∀ frame ∈ frames, 0 < frame.now)
    (rising : frames.Pairwise fun earlier later => earlier.now < later.now) :
    (received frames).intervals.count = windowed frames ∧
    ((received frames).intervals.entries.map UInt64.toNat).Perm
      ((gaps (arrivals frames)).drop (frames.length - 1 - windowed frames)) ∧
    (4 ≤ windowed frames → ∃ first last,
      (arrivals frames)[frames.length - 1 - windowed frames]? = some first ∧
      (arrivals frames)[frames.length - 1]? = some last ∧ first < last ∧
      (received frames).receiveHz =
        1000000 * (windowed frames : ℚ) / ((last : ℚ) - (first : ℚ))) := by
  have count := windowed_count positive
  have held := window_perm positive rising
  refine ⟨count, held, fun enough => ?_⟩
  have some_frames : frames ≠ [] := by
    rintro rfl
    simp [windowed] at enough
  obtain ⟨first, last, ending, leading, span⟩ := window_span rising some_frames
  have before : first < last :=
    arrivals_lt rising leading ending (by simp only [windowed] at enough ⊢; omega)
  have added : ((received frames).intervals.entries.map UInt64.toNat).sum = last - first := by
    rw [held.sum_eq]
    omega
  have summed := foldl_toNat (received frames).intervals.entries 0
    (by have := arrivals_fit ending; simp only [added, UInt64.toNat_zero]; omega)
  have total : ((((received frames).intervals.entries.foldl (· + ·) 0).toNat : Nat) : ℚ) =
      (last : ℚ) - (first : ℚ) := by
    rw [summed, added, UInt64.toNat_zero, Nat.zero_add, Nat.cast_sub before.le]
  have spanned : (0 : ℚ) < (last : ℚ) - (first : ℚ) := sub_pos.mpr (Nat.cast_lt.mpr before)
  have counted : (0 : ℚ) < (windowed frames : ℚ) := Nat.cast_pos.mpr (by omega)
  refine ⟨first, last, leading, ending, before, ?_⟩
  simp only [LatencyEstimator.receiveHz, count, total]
  rw [if_neg (by omega), if_neg (not_le.mpr (div_pos spanned counted)), div_div_eq_mul_div]

def steadyFrames : List Receipt :=
  [⟨0, 1000⟩, ⟨0, 2000⟩, ⟨0, 3000⟩, ⟨0, 4000⟩, ⟨0, 5000⟩]

theorem window_gaps_steady :
    (received steadyFrames).intervals.count = 4 ∧ (received steadyFrames).receiveHz = 1000 := by
  obtain ⟨count, -, rate⟩ := window_gaps steadyFrames (by decide) (by decide)
  obtain ⟨first, last, leading, ending, -, rate⟩ := rate (by decide)
  obtain rfl : 1000 = first := Option.some.inj leading
  obtain rfl : 5000 = last := Option.some.inj ending
  refine ⟨count, rate.trans ?_⟩
  norm_num [show windowed steadyFrames = 4 by decide]

/-! The smoothed round trip. A frame that echoes a timestamp of this host's own clock, read
before the frame arrived, contributes a difference that lies between zero and the time of its
arrival. A larger timestamp, as one from an earlier process of the host, wraps. -/

namespace LatencyEstimator
variable {e : LatencyEstimator} {echo now : UInt64}

/-- The round trip that one frame shows, in milliseconds. -/
def sample (echo now : UInt64) : ℚ := ((now - echo).toNat : ℚ) / 1000

theorem sample_nonneg (echo now : UInt64) : 0 ≤ sample echo now :=
  div_nonneg (Nat.cast_nonneg _) (by norm_num)

/-- A sample stays below the time of its arrival just when it does not wrap. -/
theorem sample_le_iff : sample echo now ≤ (now.toNat : ℚ) / 1000 ↔ echo ≤ now := by
  have scaled : sample echo now ≤ (now.toNat : ℚ) / 1000 ↔ (now - echo).toNat ≤ now.toNat := by
    rw [sample, div_le_div_iff_of_pos_right (by norm_num), Nat.cast_le]
  rw [scaled]
  constructor
  · intro below
    by_contra wrapped
    have wrapped : now.toNat < echo.toNat := UInt64.not_le.mp wrapped
    rw [UInt64.toNat_sub, Nat.mod_eq_of_lt (by have := echo.toNat_lt; omega)] at below
    have := echo.toNat_lt
    omega
  · intro own
    rw [UInt64.toNat_sub_of_le _ _ own]
    omega

theorem markReceived_estimate :
    (e.markReceived echo now).estimatedLatencyMs =
      if 0 < echo then
        if e.hasValidRtt then alpha * sample echo now + (1 - alpha) * e.estimatedLatencyMs
        else sample echo now
      else e.estimatedLatencyMs := by
  have kept : ∀ spaced : LatencyEstimator, (spaced.markInterval now).smoothedRttMs =
      spaced.smoothedRttMs ∧ (spaced.markInterval now).hasValidRtt = spaced.hasValidRtt := by
    intro spaced
    simp only [markInterval]
    split <;> simp
  simp only [markReceived, markEcho, estimatedLatencyMs, sample, kept]
  split <;> (try split) <;> simp

/-- An average of two values within a bound is within it. -/
theorem average_within {sample estimate bound : ℚ} (sampled : 0 ≤ sample ∧ sample ≤ bound)
    (before : 0 ≤ estimate ∧ estimate ≤ bound) :
    0 ≤ alpha * sample + (1 - alpha) * estimate ∧
      alpha * sample + (1 - alpha) * estimate ≤ bound := by
  have low : 0 ≤ alpha := by norm_num [alpha]
  have high : 0 ≤ 1 - alpha := by norm_num [alpha]
  refine ⟨add_nonneg (mul_nonneg low sampled.1) (mul_nonneg high before.1), ?_⟩
  calc alpha * sample + (1 - alpha) * estimate
      ≤ alpha * bound + (1 - alpha) * bound :=
        add_le_add (mul_le_mul_of_nonneg_left sampled.2 low)
          (mul_le_mul_of_nonneg_left before.2 high)
    _ = bound := by ring

theorem markReceived_within {bound : ℚ} (own : echo ≤ now)
    (before : 0 ≤ e.estimatedLatencyMs ∧ e.estimatedLatencyMs ≤ bound)
    (later : bound ≤ (now.toNat : ℚ) / 1000) :
    0 ≤ (e.markReceived echo now).estimatedLatencyMs ∧
      (e.markReceived echo now).estimatedLatencyMs ≤ (now.toNat : ℚ) / 1000 := by
  have sampled := And.intro (sample_nonneg echo now) (sample_le_iff.mpr own)
  have before := And.intro before.1 (before.2.trans later)
  rw [markReceived_estimate]
  split
  · split
    · exact average_within sampled before
    · exact sampled
  · exact before

end LatencyEstimator

/-- The estimate lies between zero and the time of the last frame, in milliseconds. -/
def EstimateWithin (frames : List Receipt) : Prop :=
  0 ≤ (received frames).estimatedLatencyMs ∧
    (received frames).estimatedLatencyMs ≤
      ((frames.getLast?.elim 0 fun frame => frame.now.toNat : Nat) : ℚ) / 1000

/-- While no frame echoes a timestamp larger than its own time, the estimate stays within the
time of the last frame, after every frame. -/
theorem latency_bounded (frames : List Receipt)
    (ordered : frames.Pairwise fun earlier later => earlier.now ≤ later.now)
    (own : ∀ frame ∈ frames, frame.echo ≤ frame.now) :
    ∀ past, past <+: frames → EstimateWithin past := by
  intro past started
  have ordered := ordered.sublist started.sublist
  have own : ∀ frame ∈ past, frame.echo ≤ frame.now :=
    fun frame present => own frame (started.subset present)
  clear started
  induction past using List.reverseRecOn with
  | nil => simp [EstimateWithin, received, LatencyEstimator.estimatedLatencyMs]
  | append_singleton past frame ih =>
    obtain ⟨ordered, -, later⟩ := List.pairwise_append.mp ordered
    have before := ih ordered fun other present => own other (by simp [present])
    have latest : ((past.getLast?.elim 0 fun frame => frame.now.toNat : Nat) : ℚ) / 1000 ≤
        (frame.now.toNat : ℚ) / 1000 := by
      have reached : (past.getLast?.elim 0 fun frame => frame.now.toNat) ≤ frame.now.toNat := by
        rcases List.eq_nil_or_concat' past with rfl | ⟨earlier, last, rfl⟩
        · simp
        · simpa using UInt64.le_iff_toNat_le.mp (later last (by simp) frame (by simp))
      rw [div_le_div_iff_of_pos_right (by norm_num)]
      exact Nat.cast_le.mpr reached
    have within := LatencyEstimator.markReceived_within (own frame (by simp)) before latest
    simpa [EstimateWithin, received_snoc] using within

theorem latency_bounded_steady :
    EstimateWithin [⟨400, 1000⟩, ⟨0, 1000⟩, ⟨1500, 2000⟩] :=
  latency_bounded [⟨400, 1000⟩, ⟨0, 1000⟩, ⟨1500, 2000⟩] (by decide) (by decide) _
    (List.prefix_refl _)

/-- A frame that arrives in the first second of the host process, with an echo that an earlier
process of the host sent in its fifth. -/
theorem estimate_wrapped : ¬ EstimateWithin [⟨5000000, 1000000⟩] := by
  rintro ⟨-, below⟩
  have wrapped : ¬ (5000000 : UInt64) ≤ 1000000 := by decide
  refine wrapped (LatencyEstimator.sample_le_iff.mp ?_)
  have first : (received [⟨5000000, 1000000⟩]).estimatedLatencyMs =
      LatencyEstimator.sample 5000000 1000000 := by
    have echoed : (0 : UInt64) < 5000000 := by decide
    simp [received, LatencyEstimator.markReceived_estimate, echoed]
  simpa [first] using below

end Florid.Arm
