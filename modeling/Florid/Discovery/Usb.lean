import Florid.Numeral
import Mathlib.Data.List.TakeDrop
import Mathlib.Data.UInt

/-! `UsbDiscovery`: device URIs and the selection of one device by them. Texts are lists
of bytes, as the source's strings are. -/
namespace Florid.Discovery

def byte (c : Char) : UInt8 := c.toNat.toUInt8

def bytes (text : List Char) : List UInt8 := text.map byte

def defaultUsbVendorId : UInt16 := 0x2fe3
def defaultUsbProductId : UInt16 := 0x574c

structure UsbBulkDeviceInfo where
  vendorId : UInt16
  productId : UInt16
  busNumber : UInt8
  deviceAddress : UInt8
  portPath : List UInt8
  manufacturer : List UInt8
  product : List UInt8
  serialNumber : List UInt8
  displayName : List UInt8 := []
  uri : List UInt8 := []
  deriving DecidableEq

structure UsbSelector where
  vendorId : UInt16 := defaultUsbVendorId
  productId : UInt16 := defaultUsbProductId
  serialNumber : Option (List UInt8) := none
  portPath : Option (List UInt8) := none
  deriving DecidableEq

inductive UsbDiscoveryError where
  | none
  | invalidUri
  | enumerationFailed
  | deviceNotFound
  | ambiguous
  deriving DecidableEq

structure UsbBulkSelectionResult where
  device : Option UsbBulkDeviceInfo := .none
  error : UsbDiscoveryError := .none
  matchCount : Nat := 0
  deriving DecidableEq

/-! ### Reading -/

def hexDigit (c : UInt8) : Option Nat :=
  if byte '0' ≤ c ∧ c ≤ byte '9' then some (c.toNat - (byte '0').toNat)
  else if byte 'a' ≤ c ∧ c ≤ byte 'f' then some (c.toNat - (byte 'a').toNat + 10)
  else if byte 'A' ≤ c ∧ c ≤ byte 'F' then some (c.toNat - (byte 'A').toNat + 10)
  else none

/-- `std::from_chars` into an `unsigned int`, for a base up to 16. -/
def fromChars (base : Nat) (text : List UInt8) : Option (Nat × List UInt8) :=
  let (ds, rest) := Numeral.scan (fun c => (hexDigit c).filter (· < base)) text
  if ds = [] then none
  else if Numeral.value base ds < 2 ^ 32 then some (Numeral.value base ds, rest)
  else none

/-- The whole of `text` as a number from 1 to `most`. -/
def fromCharsWhole (base most : Nat) (text : List UInt8) : Option Nat :=
  match fromChars base text with
  | some (n, []) => if n = 0 ∨ most < n then none else some n
  | _ => none

def parseHex16 (text : List UInt8) : Option UInt16 :=
  let text := if bytes ['0', 'x'] <+: text ∨ bytes ['0', 'X'] <+: text then text.drop 2 else text
  if text = [] then none else (fromCharsWhole 16 0xffff text).map Nat.toUInt16

def percentDecodeLoop : List UInt8 → List UInt8 → Option (List UInt8)
  | result, [] => if result = [] then none else some result
  | result, c :: rest =>
    if c ≠ byte '%' then percentDecodeLoop (result ++ [c]) rest
    else
      match rest with
      | high :: low :: rest =>
        match hexDigit high, hexDigit low with
        | some high, some low =>
          let decoded := (16 * high + low).toUInt8
          if decoded = 0 then none else percentDecodeLoop (result ++ [decoded]) rest
        | _, _ => none
      | _ => none

def percentDecode (text : List UInt8) : Option (List UInt8) := percentDecodeLoop [] text

def parsePortPathLoop (result text : List UInt8) : Option (List UInt8) :=
  if text = [] then if result = [] then none else some result
  else
    let component := text.takeWhile (· ≠ byte '.')
    match fromCharsWhole 10 0xff component with
    | none => none
    | some n =>
      match _found : text.dropWhile (· ≠ byte '.') with
      | [] => some (result ++ [n.toUInt8])
      | _ :: rest => parsePortPathLoop (result ++ [n.toUInt8]) rest
termination_by text.length
decreasing_by
  have shorter := (List.dropWhile_suffix (l := text) (· ≠ byte '.')).length_le
  rw [_found, List.length_cons] at shorter
  omega

def parsePortPath (text : List UInt8) : Option (List UInt8) := parsePortPathLoop [] text

/-- The two numbers before the suffix of a URI, which may be left out together. -/
def parseIds (ids : List UInt8) : Option UsbSelector :=
  if ids = [] then some {}
  else
    match ids.dropWhile (· ≠ byte ':') with
    | [] => none
    | _ :: product =>
      match parseHex16 (ids.takeWhile (· ≠ byte ':')), parseHex16 product with
      | some vendorId, some productId => some { vendorId, productId }
      | _, _ => none

/-- Not one of the characters that end the numbers. -/
def inIds (c : UInt8) : Bool := c ≠ byte '/' && c ≠ byte '?'

/-- What follows the numbers: nothing, a serial number or a port path. -/
def parseSuffix (selector : UsbSelector) : List UInt8 → Option UsbSelector
  | [] => some selector
  | separator :: value =>
    if separator = byte '/' then
      if byte '?' ∈ value then none
      else (percentDecode value).map fun serial => { selector with serialNumber := some serial }
    else if bytes ['p', 'o', 'r', 't', '='] <+: value then
      (parsePortPath (value.drop 5)).map fun path => { selector with portPath := some path }
    else none

def parseSelector (uri : List UInt8) : Option UsbSelector :=
  if ¬ bytes ['u', 's', 'b', ':', '/', '/'] <+: uri then none
  else
    let uri := uri.drop 6
    match parseIds (uri.takeWhile inIds) with
    | none => none
    | some selector => parseSuffix selector (uri.dropWhile inIds)

/-! ### Writing -/

def isUnreserved (c : UInt8) : Bool :=
  (byte 'a' ≤ c && c ≤ byte 'z') || (byte 'A' ≤ c && c ≤ byte 'Z') ||
    (byte '0' ≤ c && c ≤ byte '9') || c = byte '-' || c = byte '.' || c = byte '_' || c = byte '~'

/-- `s_hex` -/
def hexUpper (d : Nat) : UInt8 := byte ("0123456789ABCDEF".toList.getD d '0')

/-- A digit as `%x` and `std::to_string` print it. -/
def hexLower (d : Nat) : UInt8 := byte ("0123456789abcdef".toList.getD d '0')

def percentEncode (text : List UInt8) : List UInt8 :=
  text.flatMap fun c =>
    if isUnreserved c then [c] else [byte '%', hexUpper (c.toNat / 16), hexUpper (c.toNat % 16)]

def toString (n : UInt8) : List UInt8 := (Numeral.digits 10 n.toNat).map hexLower

/-- `%04x` -/
def hex4 (n : UInt16) : List UInt8 :=
  ((Numeral.digits 16 n.toNat).map hexLower).leftpad 4 (byte '0')

def vendorProduct (vendorId productId : UInt16) : List UInt8 :=
  hex4 vendorId ++ byte ':' :: hex4 productId

def baseUri (vendorId productId : UInt16) : List UInt8 :=
  bytes ['u', 's', 'b', ':', '/', '/'] ++ vendorProduct vendorId productId

/-- The components of a port path with dots between them. -/
def writePortPath (path : List UInt8) : List UInt8 := [byte '.'].intercalate (path.map toString)

def completeDeviceInfo (device : UsbBulkDeviceInfo) : UsbBulkDeviceInfo :=
  { device with
    displayName :=
      if device.product ≠ [] then device.product
      else if device.manufacturer ≠ [] then device.manufacturer
      else bytes ['U', 'S', 'B', ' ', 'd', 'e', 'v', 'i', 'c', 'e', ' '] ++
        vendorProduct device.vendorId device.productId
    uri := baseUri device.vendorId device.productId ++
      if device.serialNumber ≠ [] then byte '/' :: percentEncode device.serialNumber
      else if device.portPath ≠ [] then
        bytes ['?', 'p', 'o', 'r', 't', '='] ++ writePortPath device.portPath
      else [] }

/-! ### Selecting -/

def UsbSelector.accepts (selector : UsbSelector) (device : UsbBulkDeviceInfo) : Bool :=
  device.vendorId = selector.vendorId && device.productId = selector.productId &&
    selector.serialNumber.all (device.serialNumber = ·) &&
    selector.portPath.all (device.portPath = ·)

def selectLoop (selector : UsbSelector) :
    List UsbBulkDeviceInfo → Option UsbBulkDeviceInfo → Nat → Option UsbBulkDeviceInfo × Nat
  | [], selected, count => (selected, count)
  | device :: rest, selected, count =>
    if selector.accepts device then selectLoop selector rest (selected <|> some device) (count + 1)
    else selectLoop selector rest selected count

def selectUsbBulkDevice (devices : List UsbBulkDeviceInfo) (uri : List UInt8) :
    UsbBulkSelectionResult :=
  match parseSelector uri with
  | none => { error := .invalidUri }
  | some selector =>
    let (selected, count) := selectLoop selector devices none 0
    if count = 0 then { error := .deviceNotFound }
    else if 1 < count then { error := .ambiguous, matchCount := count }
    else { device := selected.map completeDeviceInfo, matchCount := count }

end Florid.Discovery
