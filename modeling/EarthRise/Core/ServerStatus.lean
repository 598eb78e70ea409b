import EarthRise.Core.Json
import Mathlib.Data.Int.Log
import Mathlib.Data.List.DropRight
import Mathlib.Data.Nat.Digits.Defs
import Mathlib.Data.Rat.Floor

/-!
# The Server Status Record

What a server says of itself on its diagnostic port, as a flat JSON object.

The record is written member by member: integers in decimal, flags as literals, doubles in
the short form of four significant digits. It is read back with the typed reads of the JSON
reader, each with the default that stands for a missing member. An integer is a double on
the way, and the conversion back is undefined where it does not fit.

## Main definitions

* `ServerStatus`: The record.
* `decimal`, `formatReal`: Integers and doubles in text.
* `encodeStatusJson`, `parseStatusJson`: The text of a record, and the record of a text.
-/

namespace EarthRise

namespace Net

open Json (Value)

def STATUS_PROTOCOL_VERSION : UInt8 := 1

structure ServerStatus where
  protocolVersion : UInt8 := STATUS_PROTOCOL_VERSION
  uptimeSeconds : UInt64 := 0
  simTick : UInt64 := 0
  connectionsPending : UInt32 := 0
  connectionsActive : UInt32 := 0
  objectsSpawned : UInt64 := 0
  projectiles : UInt64 := 0
  simP99Ms : Float := 0.0
  encodeP99Ms : Float := 0.0
  dilation : Float := 1.0
  downstreamBytes : UInt64 := 0
  upstreamBytes : UInt64 := 0
  datagramsIn : UInt64 := 0
  datagramsOut : UInt64 := 0
  baselineBytes : UInt64 := 0
  listenPort : UInt16 := 0
  devAuthStub : Bool := false
  persistenceEnabled : Bool := false

def ascii (s : String) : JsonText.Bytes := s.toList.map fun c => UInt8.ofNat c.toNat

section Formats

def digit (n : Nat) : UInt8 := UInt8.ofNat (0x30 + n % 10)

/-- An integer in decimal. -/
def decimal (n : Nat) : JsonText.Bytes := if n = 0 then [0x30] else (Nat.digits 10 n).reverse.map digit

/-- To a whole number, ties to the even one. -/
def roundHalfEven (q : ℚ) : Nat :=
  let n := ⌊q⌋₊
  if q - n < 1 / 2 ∨ q - n = 1 / 2 ∧ n % 2 = 0 then n else n + 1

/-- Four significant digits and the power of ten of the first one. -/
def significant (q : ℚ) : Int × Nat :=
  let x := Int.log 10 q
  let d := roundHalfEven (q * 10 ^ (3 - x))
  if d < 10000 then (x, d) else (x + 1, 1000)

def fourDigits (d : Nat) : JsonText.Bytes := [digit (d / 1000), digit (d / 100), digit (d / 10), digit d]

/-- A fraction without the zeros at its end, and its point if it is not empty. -/
def point (fraction : JsonText.Bytes) : JsonText.Bytes :=
  let kept := fraction.rdropWhile (· == 0x30)
  if kept = [] then [] else 0x2E :: kept

/-- An exponent, of two digits at least. -/
def twoDigits (n : Nat) : JsonText.Bytes := if n < 10 then 0x30 :: decimal n else decimal n

/-- A positive number with `%.4g`: with an exponent if it is far from one. -/
def general (q : ℚ) : JsonText.Bytes :=
  let (x, d) := significant q
  let digits := fourDigits d
  if -4 ≤ x ∧ x < 4 then
    if 0 ≤ x then digits.take (x.toNat + 1) ++ point (digits.drop (x.toNat + 1))
    else 0x30 :: point (List.replicate (-x - 1).toNat 0x30 ++ digits)
  else
    digits.take 1 ++ point (digits.drop 1) ++
      0x65 :: (if x < 0 then 0x2D else 0x2B) :: twoDigits x.natAbs

def minus : Float.Model.UnpackedFloat.Sign → JsonText.Bytes
  | .positive => []
  | .negative => [0x2D]

/-- A double with `%.4g`. -/
def formatReal (x : Float) : JsonText.Bytes :=
  match x.toModel.unpack with
  | .notANumber => ascii "nan"
  | .infinity s => minus s ++ ascii "inf"
  | .zero s => minus s ++ [0x30]
  | .finite s m e _ => minus s ++ general (m * 2 ^ e)

end Formats

section Encoding

/-- What the record holds: counts, doubles and flags. -/
inductive Scalar where
  | count (n : Nat)
  | real (x : Float)
  | flag (b : Bool)

def Scalar.text : Scalar → JsonText.Bytes
  | count n => decimal n
  | real x => formatReal x
  | flag b => ascii (if b then "true" else "false")

/-- The members in the order in which they are written. -/
def members (s : ServerStatus) : List (String × Scalar) := [
  ("protocolVersion", .count s.protocolVersion.toNat),
  ("uptimeSeconds", .count s.uptimeSeconds.toNat),
  ("simTick", .count s.simTick.toNat),
  ("connectionsPending", .count s.connectionsPending.toNat),
  ("connectionsActive", .count s.connectionsActive.toNat),
  ("objectsSpawned", .count s.objectsSpawned.toNat),
  ("projectiles", .count s.projectiles.toNat),
  ("simP99Ms", .real s.simP99Ms),
  ("encodeP99Ms", .real s.encodeP99Ms),
  ("dilation", .real s.dilation),
  ("downstreamBytes", .count s.downstreamBytes.toNat),
  ("upstreamBytes", .count s.upstreamBytes.toNat),
  ("datagramsIn", .count s.datagramsIn.toNat),
  ("datagramsOut", .count s.datagramsOut.toNat),
  ("baselineBytes", .count s.baselineBytes.toNat),
  ("listenPort", .count s.listenPort.toNat),
  ("devAuthStub", .flag s.devAuthStub),
  ("persistenceEnabled", .flag s.persistenceEnabled)]

/-- A key in quotation marks, a colon and the text of its value. -/
def member (m : String × Scalar) : JsonText.Bytes := 0x22 :: ascii m.1 ++ 0x22 :: 0x3A :: m.2.text

/-- Members with commas between them. -/
def separated : List (String × Scalar) → JsonText.Bytes
  | [] => []
  | [m] => member m
  | m :: rest => member m ++ 0x2C :: separated rest

def encodeStatusJson (s : ServerStatus) : JsonText.Bytes := 0x7B :: separated (members s) ++ [0x7D]

end Encoding

section Decoding

/-- Read the members of an object, unless a conversion is undefined. -/
def readStatus (root : Value) : Option ServerStatus := do
  let protocolVersion ← Json.getUint32 root (ascii "protocolVersion")
    STATUS_PROTOCOL_VERSION.toUInt32
  let uptimeSeconds ← Json.getUint64 root (ascii "uptimeSeconds") 0
  let simTick ← Json.getUint64 root (ascii "simTick") 0
  let connectionsPending ← Json.getUint32 root (ascii "connectionsPending") 0
  let connectionsActive ← Json.getUint32 root (ascii "connectionsActive") 0
  let objectsSpawned ← Json.getUint64 root (ascii "objectsSpawned") 0
  let projectiles ← Json.getUint64 root (ascii "projectiles") 0
  let simP99Ms := Json.asNumber root (ascii "simP99Ms") 0.0
  let encodeP99Ms := Json.asNumber root (ascii "encodeP99Ms") 0.0
  let dilation := Json.asNumber root (ascii "dilation") 1.0
  let downstreamBytes ← Json.getUint64 root (ascii "downstreamBytes") 0
  let upstreamBytes ← Json.getUint64 root (ascii "upstreamBytes") 0
  let datagramsIn ← Json.getUint64 root (ascii "datagramsIn") 0
  let datagramsOut ← Json.getUint64 root (ascii "datagramsOut") 0
  let baselineBytes ← Json.getUint64 root (ascii "baselineBytes") 0
  let listenPort ← Json.getUint32 root (ascii "listenPort") 0
  let devAuthStub := Json.getBool root (ascii "devAuthStub") false
  let persistenceEnabled := Json.getBool root (ascii "persistenceEnabled") false
  some ⟨protocolVersion.toUInt8, uptimeSeconds, simTick, connectionsPending, connectionsActive,
    objectsSpawned, projectiles, simP99Ms, encodeP99Ms, dilation, downstreamBytes,
    upstreamBytes, datagramsIn, datagramsOut, baselineBytes, listenPort.toUInt16, devAuthStub,
    persistenceEnabled⟩

/-- The record of a text that is an object. The outer option is `none` where a conversion is
    undefined, the inner one where the text is refused. -/
def parseStatusJson (text : JsonText.Bytes) : Option (Option ServerStatus) :=
  match Json.parse text with
  | some (.ok (.object ms)) => (readStatus (.object ms)).map some
  | _ => some none

end Decoding

end Net

end EarthRise
