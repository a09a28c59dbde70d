import Mathlib
import Florid.Numeral

/-! Double-precision numbers and their decimal text, as a scripting language reads and writes
them: reading a numeral rounds it to the nearest double, and the general format rounds a double
to a number of significant digits, fixed or with an exponent. -/
namespace Florid.Decimal

/-- A double by its value: a zero has a sign, the sign of a NaN is not observed. -/
inductive Double where
  | nan
  | infinite (negative : Bool)
  | finite (negative : Bool) (magnitude : ℚ≥0)
deriving DecidableEq

namespace Double

def neg : Double → Double
  | nan => nan
  | infinite negative => infinite !negative
  | finite negative magnitude => finite (!negative) magnitude

def negative : Double → Bool
  | nan => false
  | infinite negative | finite negative _ => negative

/-- `x < 0` -/
def lessThanZero : Double → Bool
  | nan => false
  | infinite negative => negative
  | finite negative magnitude => negative && magnitude != 0

/-- The number that a double stands for, if it is one. -/
def value : Double → Option ℚ
  | nan | infinite _ => none
  | finite negative magnitude => some (if negative then -magnitude else magnitude)

/-- The finite double of an exact value. -/
def ofRat (x : ℚ) : Double := finite (decide (x < 0)) ⟨|x|, abs_nonneg x⟩

end Double

/-! ### Rounding -/

/-- The nearest integer, of two equally near ones the even one. -/
def roundEven (x : ℚ≥0) : Nat :=
  let n := ⌊x⌋₊
  if x + x < (2 * n + 1 : Nat) then n
  else if (2 * n + 1 : Nat) < x + x then n + 1
  else if n % 2 = 0 then n else n + 1

/-- The nearest double of a non-negative number: a multiple of the unit of its binade, or
infinite. -/
def nearest (negative : Bool) (x : ℚ≥0) : Double :=
  if x = 0 then .finite negative 0
  else
    let unit := ((2 : Nat) : ℚ≥0) ^ max (Int.log 2 x - 52) (-1074)
    let rounded := roundEven (x / unit) * unit
    if rounded < (2 ^ 1024 : Nat) then .finite negative rounded else .infinite negative

/-- A number to so many significant digits: the digits as an integer, and the exponent of the
first of them. -/
def significant (precision : Nat) (x : ℚ≥0) : Nat × ℤ :=
  if x = 0 then (0, 0)
  else
    let e := Int.log 10 x
    let m := roundEven (x / 10 ^ (e - (precision - 1)))
    if m = 10 ^ precision then (10 ^ (precision - 1), e + 1) else (m, e)

/-- The value of these digits. -/
def toDigits (precision : Nat) (x : ℚ≥0) : ℚ≥0 :=
  (significant precision x).1 * 10 ^ ((significant precision x).2 - (precision - 1))

/-! ### Numerals -/

/-- The parts of a numeral: digits before and after the point, and an exponent. -/
structure Parts where
  whole : List Nat
  fraction : List Nat
  exponent : Option ℤ

def Parts.value (parts : Parts) : ℚ≥0 :=
  Numeral.value 10 (parts.whole ++ parts.fraction) *
    10 ^ (parts.exponent.getD 0 - parts.fraction.length)

def pad (width : Nat) (ds : List Nat) : List Nat := List.replicate (width - ds.length) 0 ++ ds

def trim (ds : List Nat) : List Nat := ds.rdropWhile (· == 0)

/-- The general format's choice: an exponent for the very small and for what its digits do not
reach, and no zeros at the end of a fraction. -/
def general (ds : List Nat) (e : ℤ) : Parts :=
  if e < -4 ∨ ds.length ≤ e then ⟨ds.take 1, trim (ds.drop 1), some e⟩
  else if e < 0 then ⟨[0], List.replicate (-e - 1).toNat 0 ++ trim ds, none⟩
  else ⟨ds.take (e.toNat + 1), trim (ds.drop (e.toNat + 1)), none⟩

def writeExponent : Option ℤ → List Char
  | none => []
  | some e =>
    'e' :: (if e < 0 then '-' else '+') ::
      (pad 2 (Numeral.digits 10 e.natAbs)).map Nat.digitChar

def Parts.write (parts : Parts) : List Char :=
  parts.whole.map Nat.digitChar ++
    ((if parts.fraction = [] then [] else '.' :: parts.fraction.map Nat.digitChar) ++
      writeExponent parts.exponent)

def minus (negative : Bool) : List Char := if negative then ['-'] else []

/-- `f"{x:.{precision}g}"` -/
def write (precision : Nat) : Double → List Char
  | .nan => ['n', 'a', 'n']
  | .infinite negative => minus negative ++ ['i', 'n', 'f']
  | .finite negative x =>
    let (m, e) := significant precision x
    minus negative ++ (general (pad precision (Numeral.digits 10 m)) e).write

/-! ### Reading -/

def digit (c : Char) : Option Nat := if c.isDigit then some (c.toNat - 48) else none

def sign : List Char → Bool × List Char
  | '-' :: rest => (true, rest)
  | '+' :: rest => (false, rest)
  | rest => (false, rest)

def readExponent : List Char → Option ℤ
  | [] => some 0
  | c :: rest =>
    if c = 'e' ∨ c = 'E' then
      let (negative, rest) := sign rest
      let (ds, rest) := Numeral.scan digit rest
      if ds = [] ∨ rest ≠ [] then none
      else some (if negative then -(Numeral.value 10 ds : ℤ) else Numeral.value 10 ds)
    else none

def readFraction : List Char → List Nat × List Char
  | '.' :: rest => Numeral.scan digit rest
  | rest => ([], rest)

def readParts (text : List Char) : Option Parts :=
  let (whole, rest) := Numeral.scan digit text
  let (fraction, rest) := readFraction rest
  if whole ++ fraction = [] then none
  else (readExponent rest).map fun e => ⟨whole, fraction, some e⟩

/-- Underscores between digits are dropped; elsewhere they are an error. -/
def dropUnderscores (previous : Char) : List Char → Option (List Char)
  | [] => if previous = '_' then none else some []
  | c :: rest =>
    if c = '_' then if previous.isDigit then dropUnderscores c rest else none
    else if previous = '_' ∧ ¬ c.isDigit then none
    else (dropUnderscores c rest).map (c :: ·)

/-- `float(text)` of a text without blanks, `none` for its `ValueError`. -/
def read (text : List Char) : Option Double := do
  let plain ← dropUnderscores ' ' text
  let (negative, rest) := sign plain
  let word := rest.map Char.toLower
  if word = ['n', 'a', 'n'] then some .nan
  else if word = ['i', 'n', 'f'] ∨ word = ['i', 'n', 'f', 'i', 'n', 'i', 't', 'y'] then
    some (.infinite negative)
  else (readParts rest).map fun parts => nearest negative parts.value

/-! ### The value written -/

theorem roundEven_le {x : ℚ≥0} {n : Nat} (below : x < n) : roundEven x ≤ n := by
  have floored : ⌊x⌋₊ + 1 ≤ n := (Nat.floor_lt zero_le).mpr below
  simp only [roundEven]
  split_ifs <;> omega

theorem significant_lt {precision : Nat} (some : 0 < precision) (x : ℚ≥0) :
    (significant precision x).1 < 10 ^ precision := by
  have shorter : 10 ^ (precision - 1) < 10 ^ precision := Nat.pow_lt_pow_right (by omega) (by omega)
  simp only [significant]
  split
  · simp
  · rename_i nonzero
    split
    · exact shorter
    · rename_i carried
      refine lt_of_le_of_ne (roundEven_le ?_) carried
      have top : x < 10 ^ (Int.log 10 x + 1) := Int.lt_zpow_succ_log_self (by norm_num) x
      rw [div_lt_iff₀ (by positivity)]
      refine top.trans_eq ?_
      rw [Nat.cast_pow, ← zpow_natCast, Nat.cast_ofNat, ← zpow_add₀ (by norm_num)]
      congr 1
      omega

theorem value_append_zeros (ds : List Nat) (k : Nat) :
    Numeral.value 10 (ds ++ List.replicate k 0) = Numeral.value 10 ds * 10 ^ k := by
  induction k with
  | zero => simp
  | succ k ih =>
    rw [List.replicate_succ', ← List.append_assoc, Numeral.value_append_singleton, ih, pow_succ]
    ring

theorem trim_append (ds : List Nat) : ∃ k, ds = trim ds ++ List.replicate k 0 := by
  have whole : trim ds ++ ds.rtakeWhile (· == 0) = ds := List.rdropWhile_append_rtakeWhile
  refine ⟨(ds.rtakeWhile (· == 0)).length, ?_⟩
  have zeros : ds.rtakeWhile (· == 0) = List.replicate (ds.rtakeWhile (· == 0)).length 0 := by
    rw [List.eq_replicate_iff]
    exact ⟨rfl, fun d member => by simpa using List.mem_rtakeWhile_imp member⟩
  rw [← zeros]
  exact whole.symm

/-- Zeros at the end of a fraction change nothing. -/
theorem trim_value (front ds : List Nat) (x : ℤ) :
    (Numeral.value 10 (front ++ trim ds) : ℚ≥0) * 10 ^ (x - (trim ds).length) =
      Numeral.value 10 (front ++ ds) * 10 ^ (x - ds.length) := by
  obtain ⟨k, split⟩ := trim_append ds
  have long : (ds.length : ℤ) = (trim ds).length + k := by
    conv_lhs => rw [split]
    simp
  have shifted : Numeral.value 10 (front ++ ds) = Numeral.value 10 (front ++ trim ds) * 10 ^ k := by
    conv_lhs => rw [split]
    rw [← List.append_assoc, value_append_zeros]
  rw [shifted, long, Nat.cast_mul, Nat.cast_pow, Nat.cast_ofNat, mul_assoc, ← zpow_natCast,
    ← zpow_add₀ (by norm_num)]
  congr 2
  omega

theorem general_value {ds : List Nat} (nonempty : ds ≠ []) (e : ℤ) :
    (general ds e).value = Numeral.value 10 ds * 10 ^ (e - (ds.length - 1)) := by
  have positive : 0 < ds.length := List.length_pos_iff.mpr nonempty
  unfold general
  split_ifs with scientific small
  · simp only [Parts.value, Option.getD_some, trim_value, List.take_append_drop,
      List.length_drop]
    rw [Nat.cast_sub positive, Nat.cast_one]
  · have zeros : Numeral.value 10 ([0] ++ (List.replicate (-e - 1).toNat 0 ++ trim ds)) =
        Numeral.value 10 ([] ++ trim ds) := by
      have all : [0] ++ (List.replicate (-e - 1).toNat 0 ++ trim ds) =
          List.replicate ((-e - 1).toNat + 1) 0 ++ trim ds := by
        simp [List.replicate_succ]
      rw [all, Numeral.value_zeros, List.nil_append]
    have shift : (0 : ℤ) - (List.replicate (-e - 1).toNat 0 ++ trim ds).length =
        e + 1 - (trim ds).length := by
      rw [List.length_append, List.length_replicate]
      omega
    have trimmed := trim_value [] ds (e + 1)
    simp only [List.nil_append] at trimmed
    simp only [Parts.value, Option.getD_none, zeros, shift, List.nil_append, trimmed]
    congr 2
    omega
  · simp only [Parts.value, Option.getD_none, trim_value, List.take_append_drop,
      List.length_drop]
    congr 2
    omega

/-! ### Reading what is written -/

theorem digit_digitChar {d : Nat} (small : d < 10) : digit d.digitChar = some d := by
  revert d
  decide

theorem scan_digits {ds : List Nat} {rest : List Char} (small : ∀ d ∈ ds, d < 10)
    (stops : ∀ c, rest.head? = some c → digit c = none) :
    Numeral.scan digit (ds.map Nat.digitChar ++ rest) = (ds, rest) :=
  Numeral.scan_map (fun d member => digit_digitChar (small d member)) stops

theorem pad_small {width : Nat} {ds : List Nat} (small : ∀ d ∈ ds, d < 10) :
    ∀ d ∈ pad width ds, d < 10 := by
  intro d member
  rcases List.mem_append.mp member with zero | member
  · rw [(List.mem_replicate.mp zero).2]
    decide
  · exact small d member

theorem readExponent_write (exponent : Option ℤ) :
    readExponent (writeExponent exponent) = some (exponent.getD 0) := by
  cases exponent with
  | none => rfl
  | some e =>
    have small : ∀ d ∈ pad 2 (Numeral.digits 10 e.natAbs), d < 10 :=
      pad_small fun d member => Numeral.digits_lt (by decide) member
    have scanned : Numeral.scan digit
        ((pad 2 (Numeral.digits 10 e.natAbs)).map Nat.digitChar ++ []) =
          (pad 2 (Numeral.digits 10 e.natAbs), []) := scan_digits small (by simp)
    rw [List.append_nil] at scanned
    have present : pad 2 (Numeral.digits 10 e.natAbs) ≠ [] := by
      simp [pad, Numeral.digits_ne_nil]
    have value : Numeral.value 10 (pad 2 (Numeral.digits 10 e.natAbs)) = e.natAbs := by
      rw [pad, Numeral.value_zeros, Numeral.value_digits]
    by_cases negative : e < 0
    · simp [readExponent, writeExponent, negative, sign, scanned, present, value,
        abs_of_neg negative]
    · simp [readExponent, writeExponent, negative, sign, scanned, present, value,
        abs_of_nonneg (not_lt.mp negative)]

theorem readParts_write {parts : Parts} (present : parts.whole ≠ [])
    (whole : ∀ d ∈ parts.whole, d < 10) (fraction : ∀ d ∈ parts.fraction, d < 10) :
    readParts parts.write =
      some ⟨parts.whole, parts.fraction, some (parts.exponent.getD 0)⟩ := by
  have exponent : ∀ c, (writeExponent parts.exponent).head? = some c → c = 'e' := by
    cases parts.exponent <;> simp [writeExponent]
  have stops : ∀ c, (writeExponent parts.exponent).head? = some c → digit c = none := by
    intro c head
    rw [exponent c head]
    decide
  unfold readParts Parts.write
  by_cases none : parts.fraction = []
  · rw [if_pos none, List.nil_append, scan_digits whole stops]
    have skipped : readFraction (writeExponent parts.exponent) =
        ([], writeExponent parts.exponent) := by
      unfold readFraction
      split
      · rename_i rest shape
        have := exponent '.' (by rw [shape]; rfl)
        simp at this
      · rfl
    simp [skipped, present, readExponent_write, none]
  · rw [if_neg none, scan_digits whole (by simp [digit])]
    simp [readFraction, scan_digits fraction stops, present, readExponent_write]

theorem dropUnderscores_plain {text : List Char} (plain : '_' ∉ text) {previous : Char}
    (before : previous ≠ '_') : dropUnderscores previous text = some text := by
  induction text generalizing previous with
  | nil => simp [dropUnderscores, before]
  | cons c rest ih =>
    have other : c ≠ '_' := fun same => plain (same ▸ List.mem_cons_self)
    have rest := ih (fun member => plain (List.mem_cons_of_mem c member)) other
    simp [dropUnderscores, before, other, rest]

/-- The characters that are ever written. -/
def Written (c : Char) : Prop := c.isDigit ∨ c ∈ ['-', '+', '.', 'e', 'i', 'n', 'f', 'a']

theorem written_digitChar {d : Nat} (small : d < 10) : Written d.digitChar :=
  .inl (by revert d; decide)

theorem written_writeExponent {exponent : Option ℤ} :
    ∀ c ∈ writeExponent exponent, Written c := by
  cases exponent with
  | none => simp [writeExponent]
  | some e =>
    intro c member
    have small : ∀ d ∈ pad 2 (Numeral.digits 10 e.natAbs), d < 10 :=
      pad_small fun d member => Numeral.digits_lt (by decide) member
    simp only [writeExponent, List.mem_cons, List.mem_map] at member
    rcases member with rfl | rfl | ⟨d, member, rfl⟩
    · exact .inr (by decide)
    · split <;> exact .inr (by decide)
    · exact written_digitChar (small d member)

theorem Parts.written_write {parts : Parts} (whole : ∀ d ∈ parts.whole, d < 10)
    (fraction : ∀ d ∈ parts.fraction, d < 10) : ∀ c ∈ parts.write, Written c := by
  intro c member
  simp only [Parts.write, List.mem_append, List.mem_map] at member
  rcases member with ⟨d, member, rfl⟩ | member | member
  · exact written_digitChar (whole d member)
  · split at member
    · simp at member
    · rcases List.mem_cons.mp member with rfl | member
      · exact .inr (by decide)
      · obtain ⟨d, inside, rfl⟩ := List.mem_map.mp member
        exact written_digitChar (fraction d inside)
  · exact written_writeExponent c member

theorem general_small {ds : List Nat} (small : ∀ d ∈ ds, d < 10) (e : ℤ) :
    (∀ d ∈ (general ds e).whole, d < 10) ∧ ∀ d ∈ (general ds e).fraction, d < 10 := by
  have trimmed (xs : List Nat) : ∀ d ∈ trim xs, d ∈ xs := fun d member =>
    (List.rdropWhile_prefix _ _).subset member
  unfold general
  split_ifs
  · exact ⟨fun d member => small d (List.mem_of_mem_take member),
      fun d member => small d (List.mem_of_mem_drop (trimmed _ d member))⟩
  · refine ⟨by simp, fun d member => ?_⟩
    rcases List.mem_append.mp member with zero | member
    · rw [(List.mem_replicate.mp zero).2]
      decide
    · exact small d (trimmed _ d member)
  · exact ⟨fun d member => small d (List.mem_of_mem_take member),
      fun d member => small d (List.mem_of_mem_drop (trimmed _ d member))⟩

theorem general_whole {ds : List Nat} (nonempty : ds ≠ []) (e : ℤ) :
    (general ds e).whole ≠ [] := by
  unfold general
  split_ifs <;> simp [nonempty]

/-- The digits that a magnitude is written with. -/
def digitsOf (precision : Nat) (x : ℚ≥0) : List Nat :=
  pad precision (Numeral.digits 10 (significant precision x).1)

theorem digitsOf_small (precision : Nat) (x : ℚ≥0) : ∀ d ∈ digitsOf precision x, d < 10 :=
  pad_small fun _ member => Numeral.digits_lt (by decide) member

theorem digitsOf_ne_nil (precision : Nat) (x : ℚ≥0) : digitsOf precision x ≠ [] := by
  simp [digitsOf, pad, Numeral.digits_ne_nil]

theorem digitsOf_length {precision : Nat} (some : 0 < precision) (x : ℚ≥0) :
    (digitsOf precision x).length = precision := by
  have short : (Numeral.digits 10 (significant precision x).1).length ≤ precision := by
    unfold Numeral.digits
    split
    · exact some
    · rw [List.length_reverse]
      exact (Nat.digits_length_le_iff (by decide) _).mpr (significant_lt some x)
  rw [digitsOf, pad, List.length_append, List.length_replicate]
  omega

theorem digitsOf_value {precision : Nat} (x : ℚ≥0) :
    Numeral.value 10 (digitsOf precision x) = (significant precision x).1 := by
  rw [digitsOf, pad, Numeral.value_zeros, Numeral.value_digits]

/-- The magnitude that is written: its parts, and the text of these. -/
def partsOf (precision : Nat) (x : ℚ≥0) : Parts :=
  general (digitsOf precision x) (significant precision x).2

theorem write_finite (precision : Nat) (negative : Bool) (x : ℚ≥0) :
    write precision (.finite negative x) = minus negative ++ (partsOf precision x).write := rfl

theorem partsOf_value {precision : Nat} (some : 0 < precision) (x : ℚ≥0) :
    (partsOf precision x).value = toDigits precision x := by
  rw [partsOf, general_value (digitsOf_ne_nil _ x), digitsOf_value, digitsOf_length some, toDigits]

theorem partsOf_read (precision : Nat) (x : ℚ≥0) :
    ∃ parts, readParts (partsOf precision x).write = some parts ∧
      parts.value = (partsOf precision x).value := by
  obtain ⟨whole, fraction⟩ :=
    general_small (digitsOf_small precision x) (significant precision x).2
  exact ⟨_, readParts_write (general_whole (digitsOf_ne_nil _ x) _) whole fraction, rfl⟩

/-- A written magnitude begins with a digit. -/
theorem partsOf_head (precision : Nat) (x : ℚ≥0) :
    ∃ d rest, d < 10 ∧ (partsOf precision x).write = d.digitChar :: rest := by
  obtain ⟨whole, -⟩ :=
    general_small (digitsOf_small precision x) (significant precision x).2
  have present := general_whole (digitsOf_ne_nil precision x)
    (significant precision x).2
  obtain ⟨d, ds, shape⟩ := List.exists_cons_of_ne_nil present
  have first : (partsOf precision x).whole = d :: ds := shape
  have small : d < 10 := whole d (by rw [shape]; exact List.mem_cons_self)
  rw [Parts.write, first, List.map_cons, List.cons_append]
  exact ⟨d, _, small, rfl⟩

theorem sign_digitChar {d : Nat} (small : d < 10) (rest : List Char) :
    sign (d.digitChar :: rest) = (false, d.digitChar :: rest) := by
  interval_cases d <;> rfl

theorem toLower_digitChar {d : Nat} (small : d < 10) :
    d.digitChar.toLower ≠ 'n' ∧ d.digitChar.toLower ≠ 'i' := by
  revert d
  decide

/-- What is left of a double in its text. -/
def rounded (precision : Nat) : Double → Double
  | .nan => .nan
  | .infinite negative => .infinite negative
  | .finite negative x => nearest negative (toDigits precision x)

theorem written_write (precision : Nat) (v : Double) : ∀ c ∈ write precision v, Written c := by
  cases v with
  | nan => simp [write, Written]
  | infinite negative => cases negative <;> simp [write, minus, Written]
  | finite negative x =>
    obtain ⟨whole, fraction⟩ :=
      general_small (digitsOf_small precision x) (significant precision x).2
    intro c member
    rw [write_finite] at member
    rcases List.mem_append.mp member with member | member
    · cases negative <;> simp_all [minus, Written]
    · exact Parts.written_write whole fraction c member

theorem read_minus {text : List Char} (plain : '_' ∉ text) (unsigned : sign text = (false, text))
    (negative : Bool) :
    read (minus negative ++ text) =
      (let word := text.map Char.toLower
      if word = ['n', 'a', 'n'] then some .nan
      else if word = ['i', 'n', 'f'] ∨ word = ['i', 'n', 'f', 'i', 'n', 'i', 't', 'y'] then
        some (.infinite negative)
      else (readParts text).map fun parts => nearest negative parts.value) := by
  have kept : '_' ∉ minus negative ++ text := by
    cases negative <;> simp [minus, plain]
  have signed : sign (minus negative ++ text) = (negative, text) := by
    cases negative
    · exact unsigned
    · rfl
  have dropped : dropUnderscores ' ' (minus negative ++ text) = some (minus negative ++ text) :=
    dropUnderscores_plain kept (by decide)
  simp [read, dropped, signed]

/-- Reading the text of a double gives the double rounded to the digits of the text. -/
theorem read_write {precision : Nat} (some : 0 < precision) (v : Double) :
    read (write precision v) = .some (rounded precision v) := by
  cases v with
  | nan =>
    change read ['n', 'a', 'n'] = .some .nan
    decide +kernel
  | infinite negative =>
    change read (minus negative ++ ['i', 'n', 'f']) = .some (.infinite negative)
    revert negative
    decide +kernel
  | finite negative x =>
    obtain ⟨d, rest, small, head⟩ := partsOf_head precision x
    have plain : '_' ∉ (partsOf precision x).write := by
      intro member
      have written := written_write precision (.finite false x) '_' (by simpa [write_finite, minus])
      simp [Written] at written
    have unsigned : sign (partsOf precision x).write = (false, (partsOf precision x).write) := by
      rw [head]
      exact sign_digitChar small rest
    obtain ⟨noNan, noInf⟩ := toLower_digitChar small
    obtain ⟨parts, parsed, value⟩ := partsOf_read precision x
    rw [write_finite, read_minus plain unsigned, parsed, Option.map_some, value,
      partsOf_value some, if_neg, if_neg, rounded]
    · simp [head, noInf]
    · simp [head, noNan]

/-! ### Signs -/

theorem negative_nearest (negative : Bool) (x : ℚ≥0) : (nearest negative x).negative = negative := by
  simp only [nearest]
  split_ifs <;> rfl

theorem negative_rounded (precision : Nat) (v : Double) :
    (rounded precision v).negative = v.negative := by
  cases v with
  | nan => rfl
  | infinite negative => rfl
  | finite negative x => exact negative_nearest negative _

theorem rounded_nan {precision : Nat} {v : Double} : rounded precision v = .nan ↔ v = .nan := by
  cases v with
  | nan => simp [rounded]
  | infinite negative => simp [rounded]
  | finite negative x =>
    simp only [rounded, nearest, reduceCtorEq, iff_false]
    split_ifs <;> simp

theorem Double.negative_neg {v : Double} (number : v ≠ .nan) : v.neg.negative = !v.negative := by
  cases v with
  | nan => exact absurd rfl number
  | infinite negative => rfl
  | finite negative x => rfl

theorem Double.value_neg (v : Double) : v.neg.value = v.value.map Neg.neg := by
  cases v with
  | nan => rfl
  | infinite negative => rfl
  | finite negative x => cases negative <;> simp [Double.neg, Double.value]

theorem Double.value_ofRat (x : ℚ) : (Double.ofRat x).value = some x := by
  by_cases negative : x < 0
  · simp [Double.ofRat, Double.value, negative, abs_of_neg negative]
  · simp [Double.ofRat, Double.value, negative, abs_of_nonneg (not_lt.mp negative)]

/-- Rounding does not look at the sign. -/
theorem rounded_neg (precision : Nat) (v : Double) :
    rounded precision v.neg = (rounded precision v).neg := by
  cases v with
  | nan => rfl
  | infinite negative => rfl
  | finite negative x =>
    simp only [rounded, Double.neg, nearest]
    split_ifs <;> rfl

/-- The text of a double begins with a minus where the double is negative. -/
theorem write_head (precision : Nat) (v : Double) :
    (write precision v).head? = some '-' ↔ v.negative = true := by
  cases v with
  | nan => simp [write, Double.negative]
  | infinite negative => cases negative <;> simp [write, minus, Double.negative]
  | finite negative x =>
    obtain ⟨d, rest, small, head⟩ := partsOf_head precision x
    have other : d.digitChar ≠ '-' := by
      clear head
      revert d
      decide
    cases negative <;> simp [write_finite, head, minus, other, Double.negative]

theorem write_ne_nil (precision : Nat) (v : Double) : write precision v ≠ [] := by
  cases v with
  | nan => simp [write]
  | infinite negative => simp [write]
  | finite negative x =>
    obtain ⟨d, rest, -, head⟩ := partsOf_head precision x
    simp [write_finite, head]

end Florid.Decimal
