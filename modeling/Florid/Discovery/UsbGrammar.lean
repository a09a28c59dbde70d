import Florid.Discovery.UsbRoundTrip
import Mathlib.Data.List.Forall2

/-! The language of device URIs, stated without the reader, and how far `parseSelector`
accepts it. Each scanner is compared with its part of the grammar. -/
namespace Florid.Discovery
variable {text rest : List UInt8}

/-! ### The grammar -/

/-- A number from 1 to `most` in a base, of any number of digits. -/
structure Number (base most : Nat) (text : List UInt8) (n : Nat) : Prop where
  present : text ≠ []
  digits : ∃ ds, List.Forall₂ (fun c d => hexDigit c = some d ∧ d < base) text ds ∧
    Numeral.value base ds = n
  positive : n ≠ 0
  bounded : n ≤ most

/-- Any number of hexadecimal digits, with or without a prefix. -/
inductive Hex16 : List UInt8 → UInt16 → Prop where
  | bare {text n} : Number 16 0xffff text n → Hex16 text n.toUInt16
  | lower {text n} : Number 16 0xffff text n → Hex16 (byte '0' :: byte 'x' :: text) n.toUInt16
  | upper {text n} : Number 16 0xffff text n → Hex16 (byte '0' :: byte 'X' :: text) n.toUInt16

/-- Percent-encoded text and what it stands for. -/
inductive Escaped : List UInt8 → List UInt8 → Prop where
  | nil : Escaped [] []
  | plain {c text value} : c ≠ byte '%' → Escaped text value → Escaped (c :: text) (c :: value)
  | escape {h l high low text value} : hexDigit h = some high → hexDigit l = some low →
      (16 * high + low).toUInt8 ≠ 0 → Escaped text value →
      Escaped (byte '%' :: h :: l :: text) ((16 * high + low).toUInt8 :: value)

/-- Numbers from 1 to 255 with single dots between them. -/
inductive PortPath : List UInt8 → List UInt8 → Prop where
  | last {text n} : Number 10 0xff text n → PortPath text [n.toUInt8]
  | next {text n rest path} : Number 10 0xff text n → PortPath rest path →
      PortPath (text ++ byte '.' :: rest) (n.toUInt8 :: path)

/-- Vendor and product, which may be left out together. -/
inductive Ids : List UInt8 → UInt16 → UInt16 → Prop where
  | default : Ids [] defaultUsbVendorId defaultUsbProductId
  | pair {vendor product v p} : Hex16 vendor v → Hex16 product p →
      Ids (vendor ++ byte ':' :: product) v p

def scheme : List UInt8 := bytes ['u', 's', 'b', ':', '/', '/']

def portPrefix : List UInt8 := bytes ['?', 'p', 'o', 'r', 't', '=']

/-- The accepted forms and the selector each denotes. -/
inductive Denotes : List UInt8 → UsbSelector → Prop where
  | bare {ids v p} : Ids ids v p → Denotes (scheme ++ ids) { vendorId := v, productId := p }
  | serial {ids v p text value} : Ids ids v p → text ≠ [] → byte '?' ∉ text → Escaped text value →
      Denotes (scheme ++ (ids ++ byte '/' :: text))
        { vendorId := v, productId := p, serialNumber := some value }
  | port {ids v p text path} : Ids ids v p → PortPath text path →
      Denotes (scheme ++ (ids ++ (portPrefix ++ text)))
        { vendorId := v, productId := p, portPath := some path }

/-! ### Numbers -/

theorem scan_forall₂ {base : Nat} {ds : List Nat}
    (reads : List.Forall₂ (fun c d => hexDigit c = some d ∧ d < base) text ds) :
    Numeral.scan (fun c => (hexDigit c).filter (· < base)) text = (ds, []) := by
  induction reads with
  | nil => rfl
  | @cons c d text ds first _ ih =>
    have read : (hexDigit c).filter (· < base) = some d := by
      rw [first.1, Option.filter_some, if_pos (by simpa using first.2)]
    rw [Numeral.scan, read, ih]

theorem forall₂_scan {base : Nat} {ds : List Nat}
    (scanned : Numeral.scan (fun c => (hexDigit c).filter (· < base)) text = (ds, [])) :
    List.Forall₂ (fun c d => hexDigit c = some d ∧ d < base) text ds := by
  induction text generalizing ds with
  | nil =>
    cases scanned
    exact .nil
  | cons c text ih =>
    rw [Numeral.scan] at scanned
    split at scanned
    · cases scanned
    · rename_i d digit
      obtain ⟨rfl, finished⟩ := Prod.mk.inj scanned
      rw [Option.filter_eq_some_iff] at digit
      refine .cons ⟨digit.1, by simpa using digit.2⟩ (ih ?_)
      rw [← finished]

/-- The reader of numbers accepts the numbers of the grammar. -/
theorem fromCharsWhole_iff {base most n : Nat} (fits : most < 2 ^ 32) :
    fromCharsWhole base most text = some n ↔ Number base most text n := by
  constructor
  · intro read
    rw [fromCharsWhole, fromChars] at read
    generalize scanned : Numeral.scan (fun c => (hexDigit c).filter (· < base)) text = found at read
    obtain ⟨ds, left⟩ := found
    dsimp only at read
    by_cases empty : ds = []
    · rw [if_pos empty] at read
      cases read
    by_cases small : Numeral.value base ds < 2 ^ 32
    · rw [if_neg empty, if_pos small] at read
      cases left with
      | cons => cases read
      | nil =>
        dsimp only at read
        split at read
        · cases read
        · rename_i inside
          obtain rfl := Option.some.inj read
          have digits := forall₂_scan scanned
          constructor
          · rintro rfl
            cases digits
            exact empty rfl
          · exact ⟨ds, digits, rfl⟩
          · exact fun zero => inside (.inl zero)
          · exact not_lt.mp fun large => inside (.inr large)
    · rw [if_neg empty, if_neg small] at read
      cases read
  · rintro ⟨present, ⟨ds, digits, value⟩, positive, bounded⟩
    have nonempty : ds ≠ [] := by
      rintro rfl
      cases digits
      exact present rfl
    rw [fromCharsWhole, fromChars, scan_forall₂ digits]
    dsimp only
    rw [if_neg nonempty, value, if_pos (by omega)]
    dsimp only
    rw [if_neg (by omega)]

theorem Number.hexDigit {base most n : Nat} (number : Number base most text n) {c : UInt8}
    (member : c ∈ text) : ∃ d, hexDigit c = some d := by
  obtain ⟨ds, digits, -⟩ := number.digits
  clear number
  induction digits with
  | nil => cases member
  | @cons _ d _ _ first _ ih =>
    rcases List.mem_cons.mp member with rfl | later
    · exact ⟨d, first.1⟩
    · exact ih later

/-- A digit is none of the characters that structure a URI. -/
theorem isMark_hexDigit {c : UInt8} {d : Nat} (digit : hexDigit c = some d) : isMark c = false := by
  have all : ∀ m ∈ bytes ['x', 'X', ':', '/', '?', '.'], Discovery.hexDigit m = none := by
    decide +kernel
  by_contra marked
  have member : c ∈ bytes ['x', 'X', ':', '/', '?', '.'] := by
    simpa [isMark, List.contains_iff_mem] using marked
  rw [all c member] at digit
  cases digit

theorem parseHex16_iff {value : UInt16} : parseHex16 text = some value ↔ Hex16 text value := by
  have read {digits : List UInt8} {v : UInt16} :
      (if digits = [] then none else (fromCharsWhole 16 0xffff digits).map Nat.toUInt16) = some v ↔
        ∃ n, Number 16 0xffff digits n ∧ n.toUInt16 = v := by
    by_cases empty : digits = []
    · rw [if_pos empty]
      constructor
      · intro found
        cases found
      · rintro ⟨n, number, -⟩
        exact absurd empty number.present
    · rw [if_neg empty, Option.map_eq_some_iff]
      simp only [fromCharsWhole_iff (show 0xffff < 2 ^ 32 by decide)]
  constructor
  · intro parsed
    rw [parseHex16] at parsed
    by_cases prefixed : bytes ['0', 'x'] <+: text ∨ bytes ['0', 'X'] <+: text
    · rw [if_pos prefixed] at parsed
      obtain ⟨n, number, rfl⟩ := read.mp parsed
      rcases prefixed with ⟨digits, rfl⟩ | ⟨digits, rfl⟩
      · exact .lower number
      · exact .upper number
    · rw [if_neg prefixed] at parsed
      obtain ⟨n, number, rfl⟩ := read.mp parsed
      exact .bare number
  · intro hex
    rw [parseHex16]
    cases hex with
    | bare number =>
      have bare : ¬ (bytes ['0', 'x'] <+: text ∨ bytes ['0', 'X'] <+: text) := by
        rintro (⟨digits, rfl⟩ | ⟨digits, rfl⟩)
        · obtain ⟨d, digit⟩ := number.hexDigit (c := byte 'x') (by simp [bytes])
          cases isMark_hexDigit digit
        · obtain ⟨d, digit⟩ := number.hexDigit (c := byte 'X') (by simp [bytes])
          cases isMark_hexDigit digit
      rw [if_neg bare]
      exact read.mpr ⟨_, number, rfl⟩
    | lower number =>
      rename_i digits n
      have headed : bytes ['0', 'x'] <+: byte '0' :: byte 'x' :: digits := List.prefix_append _ digits
      rw [if_pos (Or.inl headed)]
      exact read.mpr ⟨n, number, rfl⟩
    | upper number =>
      rename_i digits n
      have headed : bytes ['0', 'X'] <+: byte '0' :: byte 'X' :: digits := List.prefix_append _ digits
      rw [if_pos (Or.inr headed)]
      exact read.mpr ⟨n, number, rfl⟩

/-- Neither the digits nor the prefix of a number look like a separator. -/
theorem Hex16.separator {value : UInt16} (hex : Hex16 text value) {c : UInt8} (member : c ∈ text) :
    c ≠ byte ':' ∧ inIds c = true := by
  have plain {n : Nat} {digits : List UInt8} (number : Number 16 0xffff digits n)
      (inside : c ∈ digits) : c ≠ byte ':' ∧ inIds c = true := by
    obtain ⟨d, digit⟩ := number.hexDigit inside
    have unmarked := isMark_hexDigit digit
    constructor
    · rintro rfl
      cases unmarked
    · simp only [inIds, Bool.and_eq_true, decide_eq_true_eq]
      constructor
      · rintro rfl
        cases unmarked
      · rintro rfl
        cases unmarked
  cases hex with
  | bare number => exact plain number member
  | lower number | upper number =>
    simp only [List.mem_cons] at member
    rcases member with rfl | rfl | inside
    · decide
    · decide
    · exact plain number inside

/-! ### Serial numbers -/

theorem percentDecodeLoop_complete {value : List UInt8} (escaped : Escaped text value)
    (result : List UInt8) (present : result ++ text ≠ []) :
    percentDecodeLoop result text = some (result ++ value) := by
  induction escaped generalizing result with
  | nil =>
    rw [List.append_nil] at present ⊢
    rw [percentDecodeLoop, if_neg present]
  | plain unescaped _ ih =>
    rw [percentDecodeLoop_plain unescaped, ih _ (by simp), List.append_assoc, List.singleton_append]
  | escape high low nonzero _ ih =>
    rw [percentDecodeLoop, if_neg (by simp)]
    simp only [high, low]
    rw [if_neg nonzero, ih _ (by simp), List.append_assoc, List.singleton_append]

theorem percentDecodeLoop_sound {result value : List UInt8}
    (decoded : percentDecodeLoop result text = some value) :
    ∃ tail, Escaped text tail ∧ value = result ++ tail := by
  induction result, text using percentDecodeLoop.induct generalizing value with
  | case1 => simp [percentDecodeLoop] at decoded
  | case2 result present =>
    rw [percentDecodeLoop, if_neg present] at decoded
    exact ⟨[], .nil, by simpa using decoded.symm⟩
  | case3 result c rest unescaped ih =>
    rw [percentDecodeLoop_plain unescaped] at decoded
    obtain ⟨tail, escaped, rfl⟩ := ih decoded
    exact ⟨c :: tail, .plain unescaped escaped, by simp⟩
  | case4 result c marked h l rest high low lowDigit highDigit =>
    rename_i zero
    rw [percentDecodeLoop, if_neg marked] at decoded
    simp only [highDigit, lowDigit] at decoded
    rw [if_pos zero] at decoded
    cases decoded
  | case5 result c marked h l rest high low lowDigit highDigit =>
    rename_i nonzero ih
    obtain rfl := not_not.mp marked
    rw [percentDecodeLoop, if_neg marked] at decoded
    simp only [highDigit, lowDigit] at decoded
    rw [if_neg nonzero] at decoded
    obtain ⟨tail, escaped, rfl⟩ := ih decoded
    refine ⟨_, .escape highDigit lowDigit nonzero escaped, ?_⟩
    rw [List.append_assoc, List.singleton_append]
  | case6 result c marked h l rest undigit =>
    rw [percentDecodeLoop, if_neg marked] at decoded
    dsimp only at decoded
    split at decoded
    · rename_i high low
      exact (undigit _ _ high low).elim
    · cases decoded
  | case7 result c rest marked short =>
    rw [percentDecodeLoop.eq_def] at decoded
    dsimp only at decoded
    rw [if_neg marked] at decoded
    split at decoded
    · exact (short _ _ _ rfl).elim
    · cases decoded

theorem percentDecode_iff {value : List UInt8} :
    percentDecode text = some value ↔ text ≠ [] ∧ Escaped text value := by
  constructor
  · intro decoded
    obtain ⟨tail, escaped, rfl⟩ := percentDecodeLoop_sound decoded
    refine ⟨?_, escaped⟩
    rintro rfl
    rw [percentDecode, percentDecodeLoop, if_pos rfl] at decoded
    cases decoded
  · rintro ⟨present, escaped⟩
    exact percentDecodeLoop_complete escaped [] present

/-! ### Port paths -/

theorem Number.undotted {base most n : Nat} (number : Number base most text n) :
    ∀ c ∈ text, decide (c ≠ byte '.') = true := by
  intro c member
  obtain ⟨d, digit⟩ := number.hexDigit member
  have unmarked := isMark_hexDigit digit
  simp only [decide_eq_true_eq]
  rintro rfl
  cases unmarked

/-- A port path of the grammar with at most one dot after it: what the reader accepts. -/
def Dotted (text path : List UInt8) : Prop :=
  PortPath text path ∨ ∃ whole, text = whole ++ [byte '.'] ∧ PortPath whole path

theorem PortPath.ne_nil {path : List UInt8} (ports : PortPath text path) : text ≠ [] := by
  cases ports with
  | last number => exact number.present
  | next number => simp

/-- The last component of the text, up to its end. -/
theorem parsePortPathLoop_last {n : Nat} (number : Number 10 0xff text n) (result : List UInt8) :
    parsePortPathLoop result text = some (result ++ [n.toUInt8]) := by
  have all : text.takeWhile (· ≠ byte '.') = text := List.takeWhile_eq_self_iff.mpr number.undotted
  have none : text.dropWhile (· ≠ byte '.') = [] := List.dropWhile_eq_nil_iff.mpr number.undotted
  have read := (fromCharsWhole_iff (by decide)).mpr number
  rw [parsePortPathLoop, if_neg number.present]
  simp only [all, read]
  split
  · rfl
  · rename_i found
    rw [none] at found
    cases found

/-- A component and the dot after it. -/
theorem parsePortPathLoop_next {n : Nat} (number : Number 10 0xff text n) (result : List UInt8) :
    parsePortPathLoop result (text ++ byte '.' :: rest) =
      parsePortPathLoop (result ++ [n.toUInt8]) rest := by
  have stop : decide (byte '.' ≠ byte '.') = false := by simp
  have read := (fromCharsWhole_iff (by decide)).mpr number
  rw [parsePortPathLoop, if_neg (by simp)]
  simp only [takeWhile_stop number.undotted stop, read]
  split
  · rename_i found
    rw [dropWhile_stop number.undotted stop] at found
    cases found
  · rename_i found
    rw [dropWhile_stop number.undotted stop] at found
    obtain ⟨-, rfl⟩ := List.cons.inj found
    rfl

theorem parsePortPathLoop_complete {path : List UInt8} (ports : PortPath text path)
    (result : List UInt8) : parsePortPathLoop result text = some (result ++ path) ∧
      parsePortPathLoop result (text ++ [byte '.']) = some (result ++ path) := by
  induction ports generalizing result with
  | last number =>
    refine ⟨parsePortPathLoop_last number result, ?_⟩
    rw [parsePortPathLoop_next number, parsePortPathLoop, if_pos rfl, if_neg (by simp)]
  | next number _ ih =>
    rw [List.append_assoc, List.cons_append, parsePortPathLoop_next number,
      parsePortPathLoop_next number, (ih _).1, (ih _).2]
    simp

theorem parsePortPathLoop_sound {result path : List UInt8}
    (parsed : parsePortPathLoop result text = some path) :
    text = [] ∧ path = result ∨ ∃ tail, Dotted text tail ∧ path = result ++ tail := by
  induction result, text using parsePortPathLoop.induct generalizing path with
  | case1 => simp [parsePortPathLoop] at parsed
  | case2 result present =>
    rw [parsePortPathLoop, if_pos rfl, if_neg present] at parsed
    exact .inl ⟨rfl, (Option.some.inj parsed).symm⟩
  | case3 result text present =>
    rename_i unread
    have none : fromCharsWhole 10 0xff (text.takeWhile (· ≠ byte '.')) = none := unread
    rw [parsePortPathLoop, if_neg present] at parsed
    simp only [none] at parsed
    cases parsed
  | case4 result text present =>
    rename_i n read finished
    have component := (fromCharsWhole_iff (by decide)).mp read
    have whole : text.takeWhile (· ≠ byte '.') = text :=
      List.takeWhile_eq_self_iff.mpr (List.dropWhile_eq_nil_iff.mp finished)
    have number : Number 10 0xff text n := whole ▸ component
    rw [parsePortPathLoop_last number] at parsed
    exact .inr ⟨[n.toUInt8], .inl (.last number), (Option.some.inj parsed).symm⟩
  | case5 result text present =>
    rename_i n read head rest found ih
    have number : Number 10 0xff (text.takeWhile (· ≠ byte '.')) n :=
      (fromCharsWhole_iff (by decide)).mp read
    have dot : head = byte '.' := by
      have stops := List.head?_dropWhile_not (· ≠ byte '.') text
      rw [found] at stops
      simpa using stops
    have split := List.takeWhile_append_dropWhile (p := (· ≠ byte '.')) (l := text)
    rw [found, dot] at split
    rw [← split, parsePortPathLoop_next number] at parsed
    rw [← split]
    obtain ⟨rfl, rfl⟩ | ⟨tail, ports | ⟨whole, rfl, ports⟩, rfl⟩ := ih parsed
    · exact .inr ⟨[n.toUInt8], .inr ⟨_, rfl, .last number⟩, rfl⟩
    · exact .inr ⟨n.toUInt8 :: tail, .inl (.next number ports), by simp⟩
    · refine .inr ⟨n.toUInt8 :: tail, .inr ⟨_, ?_, .next number ports⟩, by simp⟩
      rw [List.append_assoc, List.cons_append]

theorem parsePortPath_iff {path : List UInt8} : parsePortPath text = some path ↔ Dotted text path := by
  constructor
  · intro parsed
    rcases parsePortPathLoop_sound parsed with ⟨rfl, rfl⟩ | ⟨tail, dotted, rfl⟩
    · simp [parsePortPath, parsePortPathLoop] at parsed
    · exact dotted
  · rintro (ports | ⟨whole, rfl, ports⟩)
    · exact (parsePortPathLoop_complete ports []).1
    · exact (parsePortPathLoop_complete ports []).2

/-! ### Selectors -/

theorem parseIds_iff {ids : List UInt8} {selector : UsbSelector} :
    parseIds ids = some selector ↔
      ∃ v p, Ids ids v p ∧ selector = { vendorId := v, productId := p } := by
  constructor
  · intro parsed
    rw [parseIds] at parsed
    split at parsed
    · rename_i empty
      subst empty
      exact ⟨_, _, .default, (Option.some.inj parsed).symm⟩
    · split at parsed
      · cases parsed
      · rename_i colon product found
        have head : colon = byte ':' := by
          have stops := List.head?_dropWhile_not (· ≠ byte ':') ids
          rw [found] at stops
          simpa using stops
        have split := List.takeWhile_append_dropWhile (p := (· ≠ byte ':')) (l := ids)
        rw [found, head] at split
        split at parsed
        · rename_i v p vendorRead productRead
          refine ⟨v, p, ?_, (Option.some.inj parsed).symm⟩
          rw [← split]
          exact .pair (parseHex16_iff.mp vendorRead) (parseHex16_iff.mp productRead)
        · cases parsed
  · rintro ⟨v, p, written, rfl⟩
    cases written with
    | default => rfl
    | @pair a b _ _ vendor product =>
      have uncoloned : ∀ c ∈ a, decide (c ≠ byte ':') = true := by
        intro c member
        exact decide_eq_true (vendor.separator member).1
      rw [parseIds, if_neg (by simp), takeWhile_stop uncoloned (by simp),
        dropWhile_stop uncoloned (by simp)]
      dsimp only
      rw [parseHex16_iff.mpr vendor, parseHex16_iff.mpr product]

theorem Ids.inIds {ids : List UInt8} {v p : UInt16} (written : Ids ids v p) :
    ∀ c ∈ ids, inIds c = true := by
  intro c member
  cases written with
  | default => cases member
  | pair vendor product =>
    rcases List.mem_append.mp member with inside | later
    · exact (vendor.separator inside).2
    · rcases List.mem_cons.mp later with rfl | inside
      · decide
      · exact (product.separator inside).2

/-- After the scheme and the numbers the reader is at the suffix. -/
theorem parseSelector_split {ids suffix : List UInt8} {v p : UInt16} (written : Ids ids v p)
    (stops : ∀ c, suffix.head? = some c → inIds c = false) :
    parseSelector (scheme ++ (ids ++ suffix)) =
      parseSuffix { vendorId := v, productId := p } suffix := by
  have read := parseIds_iff.mpr ⟨v, p, written, rfl⟩
  have numbers : (ids ++ suffix).takeWhile inIds = ids := by
    rw [List.takeWhile_append_of_pos written.inIds]
    cases suffix with
    | nil => simp
    | cons c suffix => rw [List.takeWhile_cons_of_neg (by simp [stops c rfl]), List.append_nil]
  have left : (ids ++ suffix).dropWhile inIds = suffix := by
    rw [List.dropWhile_append_of_pos written.inIds]
    cases suffix with
    | nil => rfl
    | cons c suffix => rw [List.dropWhile_cons_of_neg (by simp [stops c rfl])]
  have headed : bytes ['u', 's', 'b', ':', '/', '/'] <+: scheme ++ (ids ++ suffix) :=
    List.prefix_append _ _
  rw [parseSelector, if_neg (not_not_intro headed)]
  dsimp only
  rw [show 6 = scheme.length from rfl, List.drop_left, numbers, left, read]

/-- A selector of the grammar that names a port path, with one dot too many. -/
def DottedPort (uri : List UInt8) (selector : UsbSelector) : Prop :=
  ∃ whole, uri = whole ++ [byte '.'] ∧ Denotes whole selector ∧ selector.portPath ≠ none

theorem parseSelector_sound {uri : List UInt8} {selector : UsbSelector}
    (parsed : parseSelector uri = some selector) :
    Denotes uri selector ∨ DottedPort uri selector := by
  rw [parseSelector] at parsed
  split at parsed
  · cases parsed
  rename_i headed
  obtain ⟨tail, rfl⟩ := not_not.mp headed
  have rest : (bytes ['u', 's', 'b', ':', '/', '/'] ++ tail).drop 6 = tail := rfl
  simp only [rest] at parsed
  change Denotes (scheme ++ tail) selector ∨ DottedPort (scheme ++ tail) selector
  split at parsed
  · cases parsed
  rename_i ids read
  obtain ⟨v, p, written, rfl⟩ := parseIds_iff.mp read
  rw [← List.takeWhile_append_dropWhile (p := inIds) (l := tail)]
  cases suffix : tail.dropWhile inIds with
  | nil =>
    rw [suffix] at parsed
    obtain rfl := Option.some.inj parsed
    rw [List.append_nil]
    exact .inl (.bare written)
  | cons separator value =>
    have stops : inIds separator = false := by
      have head := List.head?_dropWhile_not inIds tail
      rw [suffix] at head
      exact head
    rw [suffix, parseSuffix] at parsed
    split at parsed
    · rename_i slash
      subst slash
      split at parsed
      · cases parsed
      · rename_i single
        obtain ⟨serial, decoded, rfl⟩ := Option.map_eq_some_iff.mp parsed
        obtain ⟨present, escaped⟩ := percentDecode_iff.mp decoded
        exact .inl (.serial written present single escaped)
    · rename_i other
      have query : separator = byte '?' := by
        simpa [inIds, other] using stops
      subst query
      split at parsed
      · rename_i leading
        obtain ⟨path, rfl⟩ := leading
        rw [show 5 = (bytes ['p', 'o', 'r', 't', '=']).length from rfl, List.drop_left] at parsed
        obtain ⟨ports, read, rfl⟩ := Option.map_eq_some_iff.mp parsed
        rcases parsePortPath_iff.mp read with exact' | ⟨whole, rfl, dotless⟩
        · exact .inl (.port written exact')
        · refine .inr ⟨_, ?_, .port written dotless, by simp⟩
          simp [portPrefix, bytes]
      · cases parsed

theorem parseSelector_port {ids text path : List UInt8} {v p : UInt16} (written : Ids ids v p)
    (ports : Dotted text path) : parseSelector (scheme ++ (ids ++ (portPrefix ++ text))) =
      some { vendorId := v, productId := p, portPath := some path } := by
  have query : portPrefix ++ text = byte '?' :: (bytes ['p', 'o', 'r', 't', '='] ++ text) := rfl
  have stops : ∀ c, (portPrefix ++ text).head? = some c → inIds c = false := by
    rintro c ⟨⟩
    decide
  rw [parseSelector_split written stops, query, parseSuffix, if_neg (by decide),
    if_pos (List.prefix_append _ _), show 5 = (bytes ['p', 'o', 'r', 't', '=']).length from rfl,
    List.drop_left, parsePortPath_iff.mpr ports, Option.map_some]

theorem parseSelector_complete {uri : List UInt8} {selector : UsbSelector}
    (denotes : Denotes uri selector) : parseSelector uri = some selector := by
  cases denotes with
  | bare written =>
    have read : parseSelector (scheme ++ (_ ++ [])) = _ := parseSelector_split written (by simp)
    rw [List.append_nil] at read
    exact read
  | serial written present single escaped =>
    rw [parseSelector_split written (by rintro c ⟨⟩; decide), parseSuffix, if_pos rfl, if_neg single,
      percentDecode_iff.mpr ⟨present, escaped⟩, Option.map_some]
  | port written ports => exact parseSelector_port written (.inl ports)

/-- The grammar gives a text one meaning at most. -/
theorem Denotes.unique {uri : List UInt8} {selector other : UsbSelector}
    (denotes : Denotes uri selector) (again : Denotes uri other) : selector = other :=
  Option.some.inj ((parseSelector_complete denotes).symm.trans (parseSelector_complete again))

/-- A port path of the grammar ends with a digit. -/
theorem PortPath.getLast? {path : List UInt8} (ports : PortPath text path) :
    text.getLast? ≠ some (byte '.') := by
  induction ports with
  | last number =>
    intro dot
    have undotted := number.undotted _ (List.mem_of_getLast? dot)
    simp at undotted
  | next _ later ih =>
    rename_i text n rest path number
    obtain ⟨c, ending⟩ := Option.ne_none_iff_exists'.mp
      (fun none => later.ne_nil (List.getLast?_eq_none_iff.mp none))
    rw [List.getLast?_append, List.getLast?_cons, ending]
    rw [ending] at ih
    simpa using ih

theorem Denotes.undotted {uri : List UInt8} {selector : UsbSelector} (denotes : Denotes uri selector)
    (port : selector.portPath ≠ none) : uri.getLast? ≠ some (byte '.') := by
  cases denotes with
  | bare | serial => exact absurd rfl port
  | port written ports =>
    obtain ⟨c, ending⟩ := Option.ne_none_iff_exists'.mp
      (fun none => ports.ne_nil (List.getLast?_eq_none_iff.mp none))
    have last := ports.getLast?
    rw [ending] at last
    simpa [List.getLast?_append, ending] using last

theorem parseSelector_iff {uri : List UInt8} {selector : UsbSelector} :
    parseSelector uri = some selector ↔ Denotes uri selector ∨ DottedPort uri selector := by
  constructor
  · exact parseSelector_sound
  · rintro (denotes | ⟨whole, rfl, denotes, port⟩)
    · exact parseSelector_complete denotes
    · cases denotes with
      | bare | serial => exact absurd rfl port
      | port written ports =>
        have read := parseSelector_port written (.inr ⟨_, rfl, ports⟩)
        simpa only [List.append_assoc] using read

/-- `parseSelector` reads exactly the grammar where the text is not a port selector with a dot
after it. -/
theorem selector_grammar (uri : List UInt8) :
    (∀ selector, parseSelector uri = some selector ↔ Denotes uri selector) ↔
      ¬ ∃ selector, DottedPort uri selector := by
  constructor
  · rintro exactly ⟨selector, dotted⟩
    have denotes := (exactly selector).mp (parseSelector_iff.mpr (.inr dotted))
    obtain ⟨whole, rfl, -, port⟩ := dotted
    exact denotes.undotted port (by simp)
  · intro undotted selector
    rw [parseSelector_iff]
    exact or_iff_left fun dotted => undotted ⟨selector, dotted⟩

/-- A path that stops at its separator: `usb://?port=1.` -/
def danglingPort : List UInt8 := scheme ++ (portPrefix ++ [byte '1', byte '.'])

theorem danglingPort_accepted :
    parseSelector danglingPort = some { portPath := some [1] } ∧
    ¬ ∀ selector, parseSelector danglingPort = some selector ↔ Denotes danglingPort selector := by
  have one : Number 10 0xff [byte '1'] 1 := by
    refine ⟨by simp, ⟨[1], ?_, by decide⟩, by decide, by decide⟩
    exact .cons ⟨by decide, by decide⟩ .nil
  have accepted : parseSelector danglingPort = some { portPath := some [1] } :=
    parseSelector_port (.default : Ids [] _ _) (.inr ⟨[byte '1'], rfl, .last one⟩)
  refine ⟨accepted, ?_⟩
  intro exactly
  exact ((exactly _).mp accepted).undotted (by simp) (by simp [danglingPort])

end Florid.Discovery
