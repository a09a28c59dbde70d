import Florid.Discovery.Usb
import Mathlib.Data.List.TakeWhile

/-! What a device's URI is read back as, and which device it selects. -/
namespace Florid.Discovery

/-! ### Numbers -/

theorem hexDigit_hexLower {d : Nat} (small : d < 16) : hexDigit (hexLower d) = some d := by
  have all : ∀ d < 16, hexDigit (hexLower d) = some d := by decide
  exact all d small

theorem hexDigit_hexUpper {d : Nat} (small : d < 16) : hexDigit (hexUpper d) = some d := by
  have all : ∀ d < 16, hexDigit (hexUpper d) = some d := by decide
  exact all d small

/-- The characters that structure a URI. -/
def isMark (c : UInt8) : Bool := bytes ['x', 'X', ':', '/', '?', '.'] |>.contains c

theorem isMark_hexLower {d : Nat} (small : d < 16) : isMark (hexLower d) = false := by
  have all : ∀ d < 16, isMark (hexLower d) = false := by decide
  exact all d small

/-- A printed number, with any zeros in front of it, is read back. -/
theorem fromChars_digits {base n : Nat} (wide : 1 < base) (narrow : base ≤ 16) (fits : n < 2 ^ 32)
    (zeros : Nat) :
    fromChars base ((List.replicate zeros 0 ++ Numeral.digits base n).map hexLower) =
      some (n, []) := by
  have reads : ∀ d ∈ List.replicate zeros 0 ++ Numeral.digits base n,
      (hexDigit (hexLower d)).filter (· < base) = some d := by
    intro d member
    have small : d < base := by
      rcases List.mem_append.mp member with padding | digit
      · rw [List.eq_of_mem_replicate padding]
        omega
      · exact Numeral.digits_lt wide digit
    rw [hexDigit_hexLower (by omega)]
    simp [Option.filter, small]
  have scanned : Numeral.scan (fun c => (hexDigit c).filter (· < base))
      ((List.replicate zeros 0 ++ Numeral.digits base n).map hexLower ++ []) =
        (List.replicate zeros 0 ++ Numeral.digits base n, []) :=
    Numeral.scan_map reads (by simp)
  rw [List.append_nil] at scanned
  have present : List.replicate zeros 0 ++ Numeral.digits base n ≠ [] := by
    simp [Numeral.digits_ne_nil]
  rw [fromChars, scanned]
  dsimp only
  rw [if_neg present, Numeral.value_zeros, Numeral.value_digits, if_pos fits]

theorem fromCharsWhole_digits {base n most : Nat} (wide : 1 < base) (narrow : base ≤ 16)
    (fits : most < 2 ^ 32) (positive : n ≠ 0) (bounded : n ≤ most) (zeros : Nat) :
    fromCharsWhole base most ((List.replicate zeros 0 ++ Numeral.digits base n).map hexLower) =
      some n := by
  rw [fromCharsWhole, fromChars_digits wide narrow (by omega)]
  dsimp only
  rw [if_neg (by omega)]

theorem hex4_eq (n : UInt16) : ∃ zeros, hex4 n =
    (List.replicate zeros 0 ++ Numeral.digits 16 n.toNat).map hexLower := by
  refine ⟨4 - (Numeral.digits 16 n.toNat).length, ?_⟩
  rw [List.map_append, List.map_replicate, hex4, List.leftpad, List.length_map]
  rfl

theorem isMark_hex4 {n : UInt16} {c : UInt8} (member : c ∈ hex4 n) : isMark c = false := by
  obtain ⟨zeros, printed⟩ := hex4_eq n
  rw [printed, List.mem_map] at member
  obtain ⟨d, digit, rfl⟩ := member
  apply isMark_hexLower
  rcases List.mem_append.mp digit with padding | digit
  · rw [List.eq_of_mem_replicate padding]
    decide
  · exact Numeral.digits_lt (by decide) digit

theorem hex4_ne_nil (n : UInt16) : hex4 n ≠ [] := by
  obtain ⟨zeros, printed⟩ := hex4_eq n
  simp [printed, Numeral.digits_ne_nil]

theorem parseHex16_hex4 {n : UInt16} (positive : n ≠ 0) : parseHex16 (hex4 n) = some n := by
  have unmarked {c : UInt8} (marked : isMark c = true) : ¬ [byte '0', c] <+: hex4 n := by
    intro leading
    have plain := isMark_hex4 (leading.subset (List.mem_cons_of_mem _ List.mem_cons_self))
    rw [marked] at plain
    cases plain
  have bare : ¬ (bytes ['0', 'x'] <+: hex4 n ∨ bytes ['0', 'X'] <+: hex4 n) := by
    rintro (leading | leading)
    · exact unmarked (by decide) leading
    · exact unmarked (by decide) leading
  have bounded : n.toNat ≤ 0xffff := by
    have below := n.toNat_lt
    omega
  have nonzero : n.toNat ≠ 0 := by
    intro zero
    exact positive (UInt16.toNat_inj.mp zero)
  obtain ⟨zeros, printed⟩ := hex4_eq n
  have read : fromCharsWhole 16 0xffff (hex4 n) = some n.toNat := by
    rw [printed]
    exact fromCharsWhole_digits (by decide) (by decide) (by decide) nonzero bounded zeros
  rw [parseHex16, if_neg bare, if_neg (hex4_ne_nil n), read, Option.map_some]
  simp

/-! ### Splitting -/

variable {a b : List UInt8} {c : UInt8} {p : UInt8 → Bool}

theorem takeWhile_stop (all : ∀ x ∈ a, p x = true) (stop : p c = false) :
    (a ++ c :: b).takeWhile p = a := by
  rw [List.takeWhile_append_of_pos all, List.takeWhile_cons_of_neg (by simp [stop]), List.append_nil]

theorem dropWhile_stop (all : ∀ x ∈ a, p x = true) (stop : p c = false) :
    (a ++ c :: b).dropWhile p = c :: b := by
  rw [List.dropWhile_append_of_pos all, List.dropWhile_cons_of_neg (by simp [stop])]

theorem parseIds_vendorProduct {vendorId productId : UInt16} (vendor : vendorId ≠ 0)
    (product : productId ≠ 0) :
    parseIds (vendorProduct vendorId productId) = some { vendorId, productId } := by
  have uncoloned : ∀ x ∈ hex4 vendorId, decide (x ≠ byte ':') = true := by
    intro x member
    have plain := isMark_hex4 member
    simp only [decide_eq_true_eq]
    rintro rfl
    cases plain
  have present : vendorProduct vendorId productId ≠ [] := by simp [vendorProduct]
  rw [parseIds, if_neg present, vendorProduct, takeWhile_stop uncoloned (by simp),
    dropWhile_stop uncoloned (by simp)]
  dsimp only
  rw [parseHex16_hex4 vendor, parseHex16_hex4 product]

theorem inIds_vendorProduct {vendorId productId : UInt16} {x : UInt8}
    (member : x ∈ vendorProduct vendorId productId) : inIds x = true := by
  have plain {y : UInt8} (unmarked : isMark y = false) : inIds y = true := by
    simp only [inIds, Bool.and_eq_true, decide_eq_true_eq]
    constructor
    · rintro rfl
      cases unmarked
    · rintro rfl
      cases unmarked
  rw [vendorProduct, List.mem_append, List.mem_cons] at member
  rcases member with digit | rfl | digit
  · exact plain (isMark_hex4 digit)
  · decide
  · exact plain (isMark_hex4 digit)

/-! ### Serial numbers -/

theorem isUnreserved_ne {c mark : UInt8} (plain : isUnreserved c = true)
    (marked : isUnreserved mark = false) : c ≠ mark := by
  rintro rfl
  rw [plain] at marked
  cases marked

theorem percentDecodeLoop_plain {c : UInt8} (plain : c ≠ byte '%') (result rest : List UInt8) :
    percentDecodeLoop result (c :: rest) = percentDecodeLoop (result ++ [c]) rest := by
  rw [percentDecodeLoop.eq_def]
  dsimp only
  rw [if_pos plain]

theorem percentDecodeLoop_encode {text : List UInt8} (nonzero : ∀ c ∈ text, c ≠ 0)
    (result : List UInt8) (present : result ++ text ≠ []) :
    percentDecodeLoop result (percentEncode text) = some (result ++ text) := by
  induction text generalizing result with
  | nil =>
    rw [List.append_nil] at present
    simp [percentEncode, percentDecodeLoop, present]
  | cons c text ih =>
    have tail := ih (fun x member => nonzero x (List.mem_cons_of_mem c member)) (result ++ [c]) (by simp)
    rw [List.append_assoc, List.singleton_append] at tail
    rw [percentEncode, List.flatMap_cons]
    change percentDecodeLoop result (_ ++ percentEncode text) = _
    cases plain : isUnreserved c with
    | true =>
      have unescaped : c ≠ byte '%' := isUnreserved_ne plain (by decide)
      rw [if_pos rfl, List.singleton_append, percentDecodeLoop_plain unescaped, tail]
    | false =>
      have below := c.toNat_lt
      have decoded : (16 * (c.toNat / 16) + c.toNat % 16).toUInt8 = c := by
        rw [Nat.div_add_mod]
        simp
      rw [if_neg (by simp)]
      simp only [List.cons_append, List.nil_append]
      rw [percentDecodeLoop, if_neg (by simp)]
      dsimp only
      rw [hexDigit_hexUpper (by omega), hexDigit_hexUpper (Nat.mod_lt _ (by decide))]
      dsimp only
      rw [decoded, if_neg (nonzero c List.mem_cons_self), tail]

theorem mem_percentEncode {text : List UInt8} {c : UInt8} (member : c ∈ percentEncode text) :
    isUnreserved c = true ∨ c = byte '%' := by
  have upper : ∀ d < 16, isUnreserved (hexUpper d) = true := by decide
  obtain ⟨x, -, written⟩ := List.mem_flatMap.mp member
  have below := x.toNat_lt
  split at written
  · rename_i plain
    rw [List.mem_singleton] at written
    exact .inl (written ▸ plain)
  · simp only [List.mem_cons, List.not_mem_nil, or_false] at written
    rcases written with rfl | rfl | rfl
    · exact .inr rfl
    · exact .inl (upper _ (by omega))
    · exact .inl (upper _ (by omega))

/-! ### Port paths -/

theorem isMark_toString {n c : UInt8} (member : c ∈ toString n) : isMark c = false := by
  obtain ⟨d, digit, rfl⟩ := List.mem_map.mp member
  have small : d < 10 := Numeral.digits_lt (by decide) digit
  exact isMark_hexLower (by omega)

theorem fromCharsWhole_toString {n : UInt8} (positive : n ≠ 0) :
    fromCharsWhole 10 0xff (toString n) = some n.toNat := by
  have nonzero : n.toNat ≠ 0 := by
    intro zero
    exact positive (UInt8.toNat_inj.mp zero)
  have bounded : n.toNat ≤ 0xff := by
    have below := n.toNat_lt
    omega
  exact fromCharsWhole_digits (by decide) (by decide) (by decide) nonzero bounded 0

theorem writePortPath_cons (n m : UInt8) (path : List UInt8) :
    writePortPath (n :: m :: path) = toString n ++ byte '.' :: writePortPath (m :: path) := by
  simp [writePortPath, List.intercalate]

theorem toString_ne_nil (n : UInt8) : toString n ≠ [] := by
  simp [toString, Numeral.digits_ne_nil]

theorem parsePortPathLoop_write {path : List UInt8} (nonzero : ∀ n ∈ path, n ≠ 0)
    (present : path ≠ []) (result : List UInt8) :
    parsePortPathLoop result (writePortPath path) = some (result ++ path) := by
  induction path generalizing result with
  | nil => exact absurd rfl present
  | cons n path ih =>
    have undotted : ∀ x ∈ toString n, decide (x ≠ byte '.') = true := by
      intro x member
      have plain := isMark_toString member
      simp only [decide_eq_true_eq]
      rintro rfl
      cases plain
    have read := fromCharsWhole_toString (nonzero n List.mem_cons_self)
    have same : n.toNat.toUInt8 = n := by simp
    cases path with
    | nil =>
      have whole : writePortPath [n] = toString n := by simp [writePortPath, List.intercalate]
      have all : (toString n).takeWhile (· ≠ byte '.') = toString n :=
        List.takeWhile_eq_self_iff.mpr undotted
      have rest : (toString n).dropWhile (· ≠ byte '.') = [] :=
        List.dropWhile_eq_nil_iff.mpr undotted
      rw [whole, parsePortPathLoop, if_neg (toString_ne_nil n)]
      simp only [all, read]
      split
      · rw [same]
      · rename_i found
        rw [rest] at found
        cases found
    | cons m path =>
      have tail := ih (fun x member => nonzero x (List.mem_cons_of_mem n member)) (by simp)
        (result ++ [n])
      rw [writePortPath_cons, parsePortPathLoop, if_neg (by simp)]
      simp only [takeWhile_stop undotted (show decide (byte '.' ≠ byte '.') = false by simp), read]
      split
      · rename_i found
        rw [dropWhile_stop undotted (by simp)] at found
        cases found
      · rename_i found
        rw [dropWhile_stop undotted (by simp)] at found
        obtain ⟨-, rfl⟩ := List.cons.inj found
        rw [same, tail]
        simp

/-! ### Selection -/

theorem selectLoop_spec (selector : UsbSelector) (devices : List UsbBulkDeviceInfo)
    (selected : Option UsbBulkDeviceInfo) (count : Nat) :
    selectLoop selector devices selected count =
      (selected <|> devices.find? selector.accepts, count + devices.countP selector.accepts) := by
  induction devices generalizing selected count with
  | nil => simp [selectLoop]
  | cons device rest ih =>
    rw [selectLoop]
    cases accepted : selector.accepts device with
    | true =>
      rw [if_pos rfl, ih, List.find?_cons_of_pos accepted, List.countP_cons_of_pos accepted]
      congr 1
      · cases selected <;> rfl
      · omega
    | false =>
      have refused : ¬ selector.accepts device = true := by simp [accepted]
      rw [if_neg (by simp), ih, List.find?_cons_of_neg refused, List.countP_cons_of_neg refused]

/-- One match is returned; none and several are errors. -/
theorem selectUsbBulkDevice_spec {uri : List UInt8} {selector : UsbSelector}
    (parsed : parseSelector uri = some selector) (devices : List UsbBulkDeviceInfo) :
    (selectUsbBulkDevice devices uri).matchCount = devices.countP selector.accepts ∧
    (selectUsbBulkDevice devices uri).device =
      if devices.countP selector.accepts = 1 then
        (devices.find? selector.accepts).map completeDeviceInfo
      else none := by
  rw [selectUsbBulkDevice, parsed]
  dsimp only
  rw [selectLoop_spec]
  dsimp only
  rw [Nat.zero_add]
  split
  · rename_i missing
    rw [missing]
    exact ⟨rfl, rfl⟩
  · split
    · rename_i several
      rw [if_neg (by omega)]
      exact ⟨rfl, rfl⟩
    · rename_i some' few
      rw [if_pos (by omega)]
      exact ⟨rfl, by simp⟩

/-- What a device's URI says of it. -/
def selectorOf (device : UsbBulkDeviceInfo) : UsbSelector :=
  { vendorId := device.vendorId
    productId := device.productId
    serialNumber := if device.serialNumber ≠ [] then some device.serialNumber else none
    portPath := if device.serialNumber ≠ [] then none else some device.portPath }

/-- The devices that have an exact URI. -/
structure Addressable (device : UsbBulkDeviceInfo) : Prop where
  vendor : device.vendorId ≠ 0
  product : device.productId ≠ 0
  named : (device.serialNumber ≠ [] ∧ ∀ c ∈ device.serialNumber, c ≠ 0) ∨
    (device.serialNumber = [] ∧ device.portPath ≠ [] ∧ ∀ n ∈ device.portPath, n ≠ 0)

theorem parseSelector_base {vendorId productId : UInt16} (vendor : vendorId ≠ 0)
    (product : productId ≠ 0) {separator : UInt8} (ends : inIds separator = false)
    (value : List UInt8) :
    parseSelector (baseUri vendorId productId ++ separator :: value) =
      parseSuffix { vendorId, productId } (separator :: value) := by
  have plain : ∀ x ∈ vendorProduct vendorId productId, inIds x = true :=
    fun x member => inIds_vendorProduct member
  rw [parseSelector, baseUri, List.append_assoc]
  have headed := List.prefix_append (bytes ['u', 's', 'b', ':', '/', '/'])
    (vendorProduct vendorId productId ++ separator :: value)
  rw [if_neg (not_not_intro headed)]
  dsimp only
  rw [show 6 = (bytes ['u', 's', 'b', ':', '/', '/']).length from rfl, List.drop_left,
    takeWhile_stop plain ends, dropWhile_stop plain ends, parseIds_vendorProduct vendor product]

theorem parseSelector_uri {device : UsbBulkDeviceInfo} (addressable : Addressable device) :
    parseSelector (completeDeviceInfo device).uri = some (selectorOf device) := by
  have base {separator : UInt8} (ends : inIds separator = false) (value : List UInt8) :=
    parseSelector_base addressable.vendor addressable.product ends value
  rcases addressable.named with ⟨serial, nonzero⟩ | ⟨unnamed, path, nonzero⟩
  · have decoded : percentDecode (percentEncode device.serialNumber) = some device.serialNumber :=
      percentDecodeLoop_encode nonzero [] serial
    have single : byte '?' ∉ percentEncode device.serialNumber := by
      intro member
      rcases mem_percentEncode member with plain | escaped
      · cases plain
      · cases escaped
    simp only [completeDeviceInfo, if_pos serial]
    rw [base (by decide), parseSuffix, if_pos rfl, if_neg single, decoded, Option.map_some, selectorOf,
      if_pos serial, if_pos serial]
  · have named : ¬ device.serialNumber ≠ [] := not_not_intro unnamed
    have parsed : parsePortPath (writePortPath device.portPath) = some device.portPath :=
      parsePortPathLoop_write nonzero path []
    have query : bytes ['?', 'p', 'o', 'r', 't', '='] ++ writePortPath device.portPath =
      byte '?' :: (bytes ['p', 'o', 'r', 't', '='] ++ writePortPath device.portPath) := rfl
    simp only [completeDeviceInfo, if_neg named, if_pos path]
    rw [query, base (by decide), parseSuffix, if_neg (by decide), if_pos (List.prefix_append _ _),
      show 5 = (bytes ['p', 'o', 'r', 't', '=']).length from rfl, List.drop_left, parsed,
      Option.map_some, selectorOf, if_neg named, if_neg named]

/-- The same vendor and product, and the same name where the URI has one. -/
def Shares (device other : UsbBulkDeviceInfo) : Prop :=
  other.vendorId = device.vendorId ∧ other.productId = device.productId ∧
    if device.serialNumber ≠ [] then other.serialNumber = device.serialNumber
    else other.portPath = device.portPath

theorem accepts_selectorOf (device other : UsbBulkDeviceInfo) :
    (selectorOf device).accepts other = true ↔ Shares device other := by
  simp only [UsbSelector.accepts, Shares, Bool.and_eq_true, decide_eq_true_eq, and_assoc]
  simp only [selectorOf]
  split <;> simp

theorem selectUsbBulkDevice_uri {device : UsbBulkDeviceInfo} (addressable : Addressable device)
    {before after : List UsbBulkDeviceInfo} (unique : ∀ other ∈ before ++ after, ¬ Shares device other) :
    selectUsbBulkDevice (before ++ device :: after) (completeDeviceInfo device).uri =
      { device := some (completeDeviceInfo device), matchCount := 1 } := by
  have mine : (selectorOf device).accepts device = true :=
    (accepts_selectorOf device device).mpr ⟨rfl, rfl, by split <;> rfl⟩
  have refused (other : UsbBulkDeviceInfo) (member : other ∈ before ++ after) :
      ¬ (selectorOf device).accepts other = true := by
    rw [accepts_selectorOf]
    exact unique other member
  have none_before : ∀ other ∈ before, ¬ (selectorOf device).accepts other = true :=
    fun other member => refused other (List.mem_append_left _ member)
  have none_after : ∀ other ∈ after, ¬ (selectorOf device).accepts other = true :=
    fun other member => refused other (List.mem_append_right _ member)
  have found : (before ++ device :: after).find? (selectorOf device).accepts = some device := by
    rw [List.find?_append, List.find?_eq_none.mpr none_before, Option.none_or,
      List.find?_cons_of_pos mine]
  have single : (before ++ device :: after).countP (selectorOf device).accepts = 1 := by
    rw [List.countP_append, List.countP_eq_zero.mpr none_before, List.countP_cons_of_pos mine,
      List.countP_eq_zero.mpr none_after]
  rw [selectUsbBulkDevice, parseSelector_uri addressable]
  dsimp only
  rw [selectLoop_spec, found, single]
  rfl

theorem usb_uri_round_trip :
    (∀ device, Addressable device →
      parseSelector (completeDeviceInfo device).uri = some
        { vendorId := device.vendorId
          productId := device.productId
          serialNumber := if device.serialNumber ≠ [] then some device.serialNumber else none
          portPath := if device.serialNumber ≠ [] then none else some device.portPath } ∧
      ∀ before after, (∀ other ∈ before ++ after, ¬ Shares device other) →
        selectUsbBulkDevice (before ++ device :: after) (completeDeviceInfo device).uri =
          { device := some (completeDeviceInfo device), matchCount := 1 }) ∧
    ∀ devices uri, (selectUsbBulkDevice devices uri).device ≠ none →
      (selectUsbBulkDevice devices uri).matchCount = 1 ∧ ∃ selector,
        parseSelector uri = some selector ∧ devices.countP selector.accepts = 1 := by
  constructor
  · intro device addressable
    exact ⟨parseSelector_uri addressable, fun _ _ unique => selectUsbBulkDevice_uri addressable unique⟩
  · intro devices uri returned
    cases parsed : parseSelector uri with
    | none =>
      rw [selectUsbBulkDevice, parsed] at returned
      exact absurd rfl returned
    | some selector =>
      obtain ⟨counted, selected⟩ := selectUsbBulkDevice_spec parsed devices
      rw [selected] at returned
      split at returned
      · rename_i single
        exact ⟨counted.trans single, selector, rfl, single⟩
      · exact absurd rfl returned

/-- A serial number with a slash and a space in it. -/
def namedDevice : UsbBulkDeviceInfo :=
  { vendorId := defaultUsbVendorId
    productId := defaultUsbProductId
    busNumber := 1
    deviceAddress := 2
    portPath := [1, 4]
    manufacturer := []
    product := []
    serialNumber := bytes ['F', '/', 'S', ' ', 'A'] }

def unnamedDevice : UsbBulkDeviceInfo := { namedDevice with serialNumber := [], portPath := [2, 8] }

theorem usb_uri_round_trip_two :
    selectUsbBulkDevice [unnamedDevice, namedDevice] (completeDeviceInfo namedDevice).uri =
      { device := some (completeDeviceInfo namedDevice), matchCount := 1 } ∧
    selectUsbBulkDevice [unnamedDevice, namedDevice] (completeDeviceInfo unnamedDevice).uri =
      { device := some (completeDeviceInfo unnamedDevice), matchCount := 1 } := by
  have named : Addressable namedDevice := ⟨by decide +kernel, by decide +kernel, .inl ⟨by decide +kernel, by decide +kernel⟩⟩
  have unnamed : Addressable unnamedDevice :=
    ⟨by decide +kernel, by decide +kernel, .inr ⟨rfl, by decide +kernel, by decide +kernel⟩⟩
  have apart : ¬ Shares namedDevice unnamedDevice := by
    rintro ⟨-, -, same⟩
    exact absurd same (by decide +kernel)
  have apart' : ¬ Shares unnamedDevice namedDevice := by
    rintro ⟨-, -, same⟩
    exact absurd same (by decide +kernel)
  obtain ⟨selected, -⟩ := usb_uri_round_trip
  exact ⟨(selected namedDevice named).2 [unnamedDevice] [] (by simpa using apart),
    (selected unnamedDevice unnamed).2 [] [namedDevice] (by simpa using apart')⟩

end Florid.Discovery
