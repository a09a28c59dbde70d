import Florid.Discovery.UsbGrammar

/-! The `udp://` URIs of `Arm::create`: the host and the port that a `UdpTransport` is constructed
with. The port is converted by `std::stoul` and narrowed to 16 bits. -/
namespace Florid.Discovery
variable {text : List UInt8}

/-! ### Reading -/

/-- `std::isspace` in the "C" locale. -/
def isSpace (c : UInt8) : Bool := c = byte ' ' || (9 ≤ c && c ≤ 13)

def decimalDigit (c : UInt8) : Option Nat := (hexDigit c).filter (· < 10)

/-- One optional sign: whether it is a minus, and what follows it. -/
def sign : List UInt8 → Bool × List UInt8
  | [] => (false, [])
  | c :: rest =>
    if c = byte '-' then (true, rest) else if c = byte '+' then (false, rest) else (false, c :: rest)

/-- `std::stoul` with an `unsigned long` of this many bits: blanks, a sign and digits; what
follows them is ignored. It throws where nothing can be converted or the number does not fit. A
minus negates in the unsigned type. -/
def stoul (bits : Nat) (text : List UInt8) : Option Nat :=
  let (negative, text) := sign (text.dropWhile isSpace)
  let ds := (Numeral.scan decimalDigit text).1
  let n := Numeral.value 10 ds
  if ds = [] then none
  else if 2 ^ bits ≤ n then none
  else some (if negative then (2 ^ bits - n) % 2 ^ bits else n)

/-- The text before and after the last mark. -/
def rsplit (mark : UInt8) (text : List UInt8) : Option (List UInt8 × List UInt8) :=
  match text.reverse.dropWhile (· ≠ mark) with
  | [] => none
  | _ :: before => some (before.reverse, (text.reverse.takeWhile (· ≠ mark)).reverse)

def udpScheme : List UInt8 := bytes ['u', 'd', 'p', ':', '/', '/']

def defaultPort : UInt16 := 5080

/-- `Arm::create` for such a URI: the arguments of the transport it constructs, if it does. -/
def createUdp (bits : Nat) (uri : List UInt8) : Option (List UInt8 × UInt16) :=
  if ¬ udpScheme <+: uri then none
  else
    let host := uri.drop 6
    match rsplit (byte ':') host with
    | none => if host = [] then none else some (host, defaultPort)
    | some (host, port) =>
      match stoul bits port with
      | none => none
      | some n => if host = [] then none else some (host, n.toUInt16)

/-! ### The grammar -/

/-- A plain decimal numeral of a value up to 65535. -/
structure Port (text : List UInt8) (n : Nat) : Prop where
  present : text ≠ []
  digits : ∃ ds, List.Forall₂ (fun c d => hexDigit c = some d ∧ d < 10) text ds ∧
    Numeral.value 10 ds = n
  bounded : n ≤ 65535

/-- What follows the scheme, and the host and the port that it names. -/
inductive Names : List UInt8 → List UInt8 → UInt16 → Prop where
  | bare {host} : host ≠ [] → byte ':' ∉ host → Names host host defaultPort
  | ported {host port n} : host ≠ [] → byte ':' ∉ port → Port port n →
      Names (host ++ byte ':' :: port) host n.toUInt16

/-- A port part after a host that is not a port, and that `stoul` converts all the same. -/
def Misread (bits : Nat) (rest : List UInt8) : Prop :=
  ∃ host port, rest = host ++ byte ':' :: port ∧ byte ':' ∉ port ∧ host ≠ [] ∧
    (stoul bits port).isSome = true ∧ ¬∃ n, Port port n

/-! ### The last mark -/

theorem rsplit_none {mark : UInt8} (absent : rsplit mark text = none) : mark ∉ text := by
  unfold rsplit at absent
  split at absent
  · rename_i none
    rw [List.dropWhile_eq_nil_iff] at none
    intro present
    simpa using none mark (List.mem_reverse.mpr present)
  · cases absent

theorem rsplit_append {mark : UInt8} {before after : List UInt8} (last : mark ∉ after) :
    rsplit mark (before ++ mark :: after) = some (before, after) := by
  have shape : (before ++ mark :: after).reverse = after.reverse ++ mark :: before.reverse := by
    simp
  have plain : ∀ x ∈ after.reverse, decide (x ≠ mark) = true := by
    intro x present
    have : x ≠ mark := by
      rintro rfl
      exact last (List.mem_reverse.mp present)
    simpa using this
  rw [rsplit, shape, dropWhile_stop plain (by simp), takeWhile_stop plain (by simp)]
  simp

theorem rsplit_some {mark : UInt8} {before after : List UInt8}
    (found : rsplit mark text = some (before, after)) :
    text = before ++ mark :: after ∧ mark ∉ after := by
  unfold rsplit at found
  split at found
  · cases found
  · rename_i first front dropped
    cases found
    obtain rfl : first = mark := by
      have stopped := List.head?_dropWhile_not (fun x => decide (x ≠ mark)) text.reverse
      rw [dropped] at stopped
      simpa using stopped
    have whole := List.takeWhile_append_dropWhile (p := (· ≠ first)) (l := text.reverse)
    rw [dropped] at whole
    refine ⟨?_, ?_⟩
    · have turned := congrArg List.reverse whole
      rw [List.reverse_reverse] at turned
      refine turned.symm.trans ?_
      simp
    · intro present
      simpa using List.mem_takeWhile_imp (List.mem_reverse.mp present)

/-! ### Numbers -/

/-- A decimal digit is neither a blank nor a sign. -/
theorem digit_plain {c : UInt8} {d : Nat} (digit : hexDigit c = some d) (decimal : d < 10) :
    isSpace c = false ∧ c ≠ byte '-' ∧ c ≠ byte '+' := by
  have bounds : byte '0' ≤ c ∧ c ≤ byte '9' := by
    unfold hexDigit at digit
    split at digit
    · assumption
    · split at digit
      · cases digit
        omega
      · split at digit
        · cases digit
          omega
        · cases digit
  obtain ⟨low, high⟩ := bounds
  have low : 48 ≤ c.toNat := UInt8.le_iff_toNat_le.mp low
  have high : c.toNat ≤ 57 := UInt8.le_iff_toNat_le.mp high
  refine ⟨?_, ?_, ?_⟩
  · simp only [isSpace, Bool.or_eq_false_iff, Bool.and_eq_false_iff, decide_eq_false_iff_not]
    refine ⟨?_, .inr fun blank => ?_⟩
    · rintro rfl
      exact absurd low (by decide)
    · have blank : c.toNat ≤ 13 := UInt8.le_iff_toNat_le.mp blank
      omega
  · rintro rfl
    exact absurd low (by decide)
  · rintro rfl
    exact absurd low (by decide)

/-- A plain numeral is converted to its value. -/
theorem Port.stoul {bits n : Nat} (port : Port text n) (wide : 16 ≤ bits) :
    Discovery.stoul bits text = some n := by
  obtain ⟨present, ⟨ds, digits, value⟩, bounded⟩ := port
  have fits : n < 2 ^ bits :=
    Nat.lt_of_lt_of_le (Nat.lt_succ_of_le bounded) (Nat.pow_le_pow_right Nat.two_pos wide)
  cases digits with
  | nil => exact absurd rfl present
  | @cons c d text ds first rest =>
    obtain ⟨solid, minus, plus⟩ := digit_plain first.1 first.2
    have scanned := scan_forall₂ (.cons first rest)
    have plain : sign ((c :: text).dropWhile isSpace) = (false, c :: text) := by
      simp [solid, sign, minus, plus]
    have read : Numeral.scan decimalDigit (c :: text) = (d :: ds, []) := scanned
    simp only [Discovery.stoul, plain, read, value]
    rw [if_neg (by simp), if_neg (by omega)]
    simp

/-! ### URIs -/

theorem createUdp_scheme (bits : Nat) (rest : List UInt8) :
    createUdp bits (udpScheme ++ rest) =
      match rsplit (byte ':') rest with
      | none => if rest = [] then none else some (rest, defaultPort)
      | some (host, port) =>
        match stoul bits port with
        | none => none
        | some n => if host = [] then none else some (host, n.toUInt16) := by
  rw [createUdp, if_neg (not_not.mpr (List.prefix_append _ _))]
  rfl

theorem names_bare {rest host : List UInt8} {port : UInt16} (single : byte ':' ∉ rest) :
    Names rest host port ↔ rest ≠ [] ∧ host = rest ∧ port = defaultPort := by
  constructor
  · intro names
    cases names with
    | bare present => exact ⟨present, rfl, rfl⟩
    | ported => exact absurd (by simp) single
  · rintro ⟨present, rfl, rfl⟩
    exact .bare present single

theorem names_ported {before after host : List UInt8} {port : UInt16} (last : byte ':' ∉ after) :
    Names (before ++ byte ':' :: after) host port ↔
      before ≠ [] ∧ host = before ∧ ∃ n, Port after n ∧ port = n.toUInt16 := by
  constructor
  · intro names
    generalize whole : before ++ byte ':' :: after = rest at names
    cases names with
    | bare present single => exact absurd (by simp [← whole]) single
    | ported present last' numeral =>
      have split : rsplit (byte ':') (before ++ byte ':' :: after) = some (before, after) :=
        rsplit_append last
      rw [whole, rsplit_append last'] at split
      cases split
      exact ⟨present, rfl, _, numeral, rfl⟩
  · rintro ⟨present, rfl, n, numeral, rfl⟩
    exact .ported present last numeral

/-- A transport is constructed as the URI says, and none otherwise, for every URI but those
whose port part is misread. -/
theorem udp_uri_iff (bits : Nat) (wide : 32 ≤ bits) (rest : List UInt8) :
    (∀ host port, createUdp bits (udpScheme ++ rest) = some (host, port) ↔
      Names rest host port) ↔ ¬Misread bits rest := by
  rw [createUdp_scheme]
  cases split : rsplit (byte ':') rest with
  | none =>
    have single := rsplit_none split
    refine ⟨fun _ => ?_, fun _ host port => ?_⟩
    · rintro ⟨host, port, rfl, -⟩
      simp at single
    · rw [names_bare single]
      by_cases empty : rest = []
      · simp [empty]
      · simp [empty, eq_comm]
  | some parts =>
    obtain ⟨before, after⟩ := parts
    obtain ⟨rfl, last⟩ := rsplit_some split
    have misread : Misread bits (before ++ byte ':' :: after) ↔
        before ≠ [] ∧ (stoul bits after).isSome = true ∧ ¬∃ n, Port after n := by
      constructor
      · rintro ⟨host, port, same, last', present, converted, other⟩
        rw [same, rsplit_append last'] at split
        cases split
        exact ⟨present, converted, other⟩
      · rintro ⟨present, converted, other⟩
        exact ⟨before, after, rfl, last, present, converted, other⟩
    simp only [misread, names_ported last]
    by_cases present : before = []
    · -- no host: refused, whatever follows
      cases stoul bits after <;> simp [present]
    by_cases numeral : ∃ n, Port after n
    · obtain ⟨n, numeral⟩ := numeral
      have read (m : Nat) (other : Port after m) : stoul bits after = some m :=
        other.stoul (by omega)
      refine ⟨fun _ wrong => wrong.2.2 ⟨n, numeral⟩, fun _ host port => ?_⟩
      simp only [read n numeral, if_neg present]
      constructor
      · intro made
        cases made
        exact ⟨present, rfl, n, numeral, rfl⟩
      · rintro ⟨-, rfl, m, other, rfl⟩
        have same := (read n numeral).symm.trans (read m other)
        rw [Option.some.inj same]
    · cases converted : stoul bits after with
      | none =>
        refine ⟨fun _ wrong => by simp at wrong, fun _ host port => ⟨fun made => ?_, ?_⟩⟩
        · cases made
        · rintro ⟨-, -, m, other, -⟩
          exact absurd ⟨m, other⟩ numeral
      | some n =>
        -- a transport is constructed, which nothing names
        simp only [if_neg present]
        refine ⟨fun right => ?_, fun right => absurd ⟨present, rfl, numeral⟩ right⟩
        obtain ⟨-, -, m, other, -⟩ := (right before n.toUInt16).mp rfl
        exact absurd ⟨m, other⟩ numeral

theorem port_eighty : Port (bytes ['8', '0']) 80 where
  present := by decide
  digits := ⟨[8, 0], .cons (by decide) (.cons (by decide) .nil), by decide⟩
  bounded := by decide

theorem udp_uri_iff_eighty : createUdp 64 (udpScheme ++ bytes ['h', ':', '8', '0']) =
    some (bytes ['h'], 80) := by
  have right : ¬Misread 64 (bytes ['h', ':', '8', '0']) := by
    rintro ⟨host, port, split, last, -, -, other⟩
    have parts : rsplit (byte ':') (bytes ['h', ':', '8', '0']) = some (host, port) :=
      split ▸ rsplit_append last
    have known : rsplit (byte ':') (bytes ['h', ':', '8', '0']) =
        some (bytes ['h'], bytes ['8', '0']) := by decide +kernel
    obtain ⟨rfl, rfl⟩ := Prod.mk.inj (Option.some.inj (parts.symm.trans known))
    exact other ⟨80, port_eighty⟩
  refine ((udp_uri_iff 64 (by decide) _).mpr right _ _).mpr ?_
  have named : Names (bytes ['h'] ++ byte ':' :: bytes ['8', '0']) (bytes ['h']) (80 : Nat).toUInt16 :=
    .ported (by decide) (by decide) port_eighty
  exact named

/-- A port one bit too long binds another port. -/
theorem udp_port_narrowed :
    createUdp 64 (udpScheme ++ bytes ['h', ':', '7', '0', '0', '0', '0']) =
      some (bytes ['h'], 4464) ∧
    ¬∃ host port, Names (bytes ['h', ':', '7', '0', '0', '0', '0']) host port := by
  refine ⟨by decide +kernel, ?_⟩
  rintro ⟨host, port, names⟩
  have split : bytes ['h', ':', '7', '0', '0', '0', '0'] =
      bytes ['h'] ++ byte ':' :: bytes ['7', '0', '0', '0', '0'] := rfl
  rw [split, names_ported (by decide)] at names
  obtain ⟨-, -, n, numeral, -⟩ := names
  have read : stoul 64 (bytes ['7', '0', '0', '0', '0']) = some n := numeral.stoul (by decide)
  have value : stoul 64 (bytes ['7', '0', '0', '0', '0']) = some 70000 := by decide +kernel
  have bounded := numeral.bounded
  rw [Option.some.inj (read.symm.trans value)] at bounded
  omega

end Florid.Discovery
