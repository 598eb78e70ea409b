import EarthRise.Lib.Assoc
import EarthRise.Lib.Doubles
import EarthRise.Lib.JsonText

/-!
# Reading JSON

The parser that the configuration files and the status replies are read with.

A recursive descent over the bytes of a text, where a place in the text is what is left of
it. Every failing path goes through `fail` with its message, and the line and the column
are counted only for the report. A literal ends the reading as soon as it is compared, a
number as soon as a byte does not go on with it; what is allowed to follow is the caller's
business.

The calls carry a supply that is used up by one for each call and runs out at
`Failure.spent`, which the source knows nothing of. The nesting is bounded by nothing else:
a text that is nested too deeply for the stack is not modelled.

## Main definitions

* `Result`, `fail`: What a step of the parser gives back.
* `parseString`, `parseUnicodeEscape`, `readHex4`, `appendUtf8`: Strings.
* `parseNumber`, `strtod`: Numbers.
* `parseValue`, `parseObject`, `parseArray`: The descent.
* `Parser.parse`, `parse`: A whole text.
* `find`, `getUint32`, `getUint64`, `getBool`, `asNumber`: Typed reads of a member.
-/

namespace EarthRise

namespace Json

open JsonText (Bytes isBlank isDigit hexDigit Decimal)

abbrev Value := JsonText.Value Float

/-- A message with what is left of the text where it applies, or a supply that ran out. -/
inductive Failure where
  | here (message : String) (rest : Bytes)
  | spent

/-- What was read and what is left of the text. -/
abbrev Result (α : Type) := Except Failure (α × Bytes)

def fail {α : Type} (message : String) (rest : Bytes) : Except Failure α :=
  .error (.here message rest)

def skipWhitespace (s : Bytes) : Bytes := s.dropWhile isBlank

section Strings

/-- Go on with a code unit by some hexadecimal digits. -/
@[simp] def hexDigits : Nat → Nat → Bytes → Result Nat
  | 0, out, s => .ok (out, s)
  | _ + 1, _, [] => fail "truncated \\u escape" []
  | n + 1, out, c :: s =>
    match hexDigit c with
    | some d => hexDigits n (out <<< 4 ||| d) s
    | none => fail "invalid hex digit in \\u escape" s

def readHex4 (s : Bytes) : Result Nat :=
  if s.length < 4 then fail "truncated \\u escape" s else hexDigits 4 0 s

def appendUtf8 (cp : Nat) (out : Bytes) : Bytes :=
  if cp ≤ 0x7F then out ++ [.ofNat cp]
  else if cp ≤ 0x7FF then out ++ [.ofNat (0xC0 ||| cp >>> 6), .ofNat (0x80 ||| cp &&& 0x3F)]
  else if cp ≤ 0xFFFF then
    out ++ [.ofNat (0xE0 ||| cp >>> 12), .ofNat (0x80 ||| cp >>> 6 &&& 0x3F),
      .ofNat (0x80 ||| cp &&& 0x3F)]
  else
    out ++ [.ofNat (0xF0 ||| cp >>> 18), .ofNat (0x80 ||| cp >>> 12 &&& 0x3F),
      .ofNat (0x80 ||| cp >>> 6 &&& 0x3F), .ofNat (0x80 ||| cp &&& 0x3F)]

/-- The four digits after a backslash and a `u`, and those of the second half of a pair. -/
def parseUnicodeEscape (out : Bytes) (s : Bytes) : Result Bytes :=
  (readHex4 s).bind fun (cp, s) =>
    if 0xD800 ≤ cp ∧ cp ≤ 0xDBFF then
      if s.head? = some 0x5C ∧ s.tail.head? = some 0x75 then
        (readHex4 s.tail.tail).bind fun (low, s) =>
          if low < 0xDC00 ∨ 0xDFFF < low then fail "invalid low surrogate" s
          else .ok (appendUtf8 (0x10000 + (cp - 0xD800) <<< 10 + (low - 0xDC00)) out, s)
      else fail "missing low surrogate after high surrogate" s
    else if 0xDC00 ≤ cp ∧ cp ≤ 0xDFFF then fail "unexpected low surrogate" s
    else .ok (appendUtf8 cp out, s)

/-- The character of an escape of two characters. -/
def escaped (esc : UInt8) : Option UInt8 :=
  if esc = 0x22 then some 0x22
  else if esc = 0x5C then some 0x5C
  else if esc = 0x2F then some 0x2F
  else if esc = 0x62 then some 0x08
  else if esc = 0x66 then some 0x0C
  else if esc = 0x6E then some 0x0A
  else if esc = 0x72 then some 0x0D
  else if esc = 0x74 then some 0x09
  else none

/-- What follows the backslash of an escape. -/
def parseEscape (out : Bytes) : Bytes → Result Bytes
  | [] => fail "unterminated escape in string" []
  | esc :: s =>
    if esc = 0x75 then parseUnicodeEscape out s
    else match escaped esc with
      | some b => .ok (out ++ [b], s)
      | none => fail "invalid escape sequence" s

@[simp] def stringLoop : Nat → Bytes → Bytes → Result Bytes
  | 0, _, _ => .error .spent
  | _ + 1, _, [] => fail "unterminated string" []
  | fuel + 1, out, c :: s =>
    if c = 0x22 then .ok (out, s)
    else if c = 0x5C then (parseEscape out s).bind fun (out, s) => stringLoop fuel out s
    else if c < 0x20 then fail "unescaped control character in string" s
    else stringLoop fuel (out ++ [c]) s

/-- A string after its quotation mark. -/
def parseString (s : Bytes) : Result Bytes := stringLoop (s.length + 1) [] s

end Strings

section Literals

/-- Compare what is next with a literal. -/
def literal (text : Bytes) (s : Bytes) : Option Bytes :=
  if s.take text.length = text then some (s.drop text.length) else none

def parseBool (s : Bytes) : Result Value :=
  match literal [0x74, 0x72, 0x75, 0x65] s, literal [0x66, 0x61, 0x6C, 0x73, 0x65] s with
  | some s, _ => .ok (.bool true, s)
  | none, some s => .ok (.bool false, s)
  | none, none => fail "invalid literal (expected true/false)" s

def parseNull (s : Bytes) : Result Value :=
  match literal [0x6E, 0x75, 0x6C, 0x6C] s with
  | some s => .ok (.null, s)
  | none => fail "invalid literal (expected null)" s

end Literals

section Numbers

/-- The double nearest to a decimal, infinite where none is near enough. -/
def Decimal.toDouble (d : Decimal) : Float :=
  let x := Float.ofModel (Float.Model.ofScientific d.digits d.exponent)
  if d.negative then -x else x

def isSign (b : UInt8) : Bool := b == 0x2B || b == 0x2D

/-- The letter in front of an exponent. -/
def isMark (b : UInt8) : Bool := b == 0x65 || b == 0x45

def skipMinus (s : Bytes) : Bytes := if s.head? = some 0x2D then s.tail else s

def skipSign (s : Bytes) : Bytes := if s.head?.any isSign then s.tail else s

/-- The digits after a point, and what comes after them. -/
def scanFraction (s : Bytes) : Bytes × Bytes :=
  if s.head? = some 0x2E then (s.tail.takeWhile isDigit, s.tail.dropWhile isDigit) else ([], s)

/-- The power of ten after a letter. -/
def scanPower (s : Bytes) : Int :=
  if s.head?.any isMark then
    let size := JsonText.Digits.valueFrom 0 ((skipSign s.tail).takeWhile isDigit)
    if s.tail.head? = some 0x2D then -size else size
  else 0

/-- The longest part of a token that is a decimal number. -/
def scan (token : Bytes) : Decimal :=
  let magnitude := skipMinus token
  let (fraction, s) := scanFraction (magnitude.dropWhile isDigit)
  ⟨token.head? = some 0x2D,
    JsonText.Digits.valueFrom 0 (magnitude.takeWhile isDigit ++ fraction),
    scanPower s - fraction.length⟩

/-- The library's conversion. The tokens it is given have no blanks and are no infinities,
    hexadecimals or the like. -/
def strtod (token : Bytes) : Float := Decimal.toDouble (scan token)

/-- Digits, at least one. -/
def skipDigits (message : String) (s : Bytes) : Except Failure Bytes :=
  if s.head?.any isDigit then .ok (s.dropWhile isDigit) else fail message s

def skipFraction (s : Bytes) : Except Failure Bytes :=
  if s.head? = some 0x2E then
    skipDigits "invalid number (no digits after decimal point)" s.tail
  else .ok s

def skipExponent (s : Bytes) : Except Failure Bytes :=
  if s.head?.any isMark then
    skipDigits "invalid number (no digits in exponent)" (skipSign s.tail)
  else .ok s

def parseNumber (s : Bytes) : Result Value :=
  (skipDigits "invalid number" (skipMinus s)).bind fun rest =>
    (skipFraction rest).bind fun rest =>
      (skipExponent rest).bind fun rest =>
        .ok (.number (strtod (s.take (s.length - rest.length))), rest)

end Numbers

section Descent

mutual

def parseValue : Nat → Bytes → Result Value
  | 0, _ => .error .spent
  | _ + 1, [] => fail "unexpected end of input" []
  | fuel + 1, c :: s =>
    if c = 0x7B then parseObject fuel s
    else if c = 0x5B then parseArray fuel s
    else if c = 0x22 then (parseString s).map fun (text, s) => (.string text, s)
    else if c = 0x74 ∨ c = 0x66 then parseBool (c :: s)
    else if c = 0x6E then parseNull (c :: s)
    else parseNumber (c :: s)

/-- An object after its brace. -/
def parseObject : Nat → Bytes → Result Value
  | 0, _ => .error .spent
  | fuel + 1, s =>
    if (skipWhitespace s).head? = some 0x7D then .ok (.object [], (skipWhitespace s).tail)
    else (parseMembers fuel [] (skipWhitespace s)).map fun (out, s) => (.object out, s)

/-- The loop over the members, with those read so far. -/
def parseMembers : Nat → List (Bytes × Value) → Bytes → Result (List (Bytes × Value))
  | 0, _, _ => .error .spent
  | fuel + 1, out, s =>
    if (skipWhitespace s).head? ≠ some 0x22 then
      fail "expected string key in object" (skipWhitespace s)
    else (parseString (skipWhitespace s).tail).bind fun (key, s) =>
      if (skipWhitespace s).head? ≠ some 0x3A then
        fail "expected ':' after object key" (skipWhitespace s)
      else (parseValue fuel (skipWhitespace (skipWhitespace s).tail)).bind fun (child, s) =>
        let out := out ++ [(key, child)]
        match skipWhitespace s with
        | [] => fail "unterminated object" []
        | c :: s =>
          if c = 0x2C then parseMembers fuel out s
          else if c = 0x7D then .ok (out, s)
          else fail "expected ',' or '\x7d' in object" (c :: s)

/-- An array after its bracket. -/
def parseArray : Nat → Bytes → Result Value
  | 0, _ => .error .spent
  | fuel + 1, s =>
    if (skipWhitespace s).head? = some 0x5D then .ok (.array [], (skipWhitespace s).tail)
    else (parseElements fuel [] (skipWhitespace s)).map fun (out, s) => (.array out, s)

/-- The loop over the elements, with those read so far. -/
def parseElements : Nat → List Value → Bytes → Result (List Value)
  | 0, _, _ => .error .spent
  | fuel + 1, out, s =>
    (parseValue fuel (skipWhitespace s)).bind fun (child, s) =>
      let out := out ++ [child]
      match skipWhitespace s with
      | [] => fail "unterminated array" []
      | c :: s =>
        if c = 0x2C then parseElements fuel out s
        else if c = 0x5D then .ok (out, s)
        else fail "expected ',' or ']' in array" (c :: s)

end

end Descent

namespace Parser

def parse (text : Bytes) : Except Failure Value :=
  (parseValue (3 * text.length + 1) (skipWhitespace text)).bind fun (out, s) =>
    if skipWhitespace s = [] then .ok out
    else fail "trailing characters after top-level value" (skipWhitespace s)

end Parser

/-- The line and the column after a part of a text, both from 1. -/
def place (before : Bytes) : Nat × Nat :=
  before.foldl (fun (p : Nat × Nat) (b : UInt8) => if b = 0x0A then (p.1 + 1, 1) else (p.1, p.2 + 1))
    (1, 1)

/-- The diagnostic for a message, at what is left of the text. -/
def report (text : Bytes) (message : String) (rest : Bytes) : String :=
  let (line, col) := place (text.take (text.length - rest.length))
  "JSON parse error at line " ++ toString line ++ ", column " ++ toString col ++ ": " ++ message

/-- A text from memory, or a diagnostic. There is no result if the supply runs out. -/
def parse (text : Bytes) : Option (Except String Value) :=
  match Parser.parse text with
  | .ok out => some (.ok out)
  | .error (.here message rest) => some (.error (report text message rest))
  | .error .spent => none

section Reads

/-- The first member with a key, of an object. -/
def find (v : Value) (key : Bytes) : Option Value :=
  match v with
  | .object members => Assoc.lookup members key
  | _ => none

/-- A conversion to an unsigned integer of some bits: the fraction is cut off, and a number
    that does not fit is undefined. -/
def castUnsigned (bits : Nat) (x : Float) : Option Nat :=
  (Doubles.truncated x).bind fun n => if 0 ≤ n ∧ n < 2 ^ bits then some n.toNat else none

def getBool (v : Value) (key : Bytes) (fallback : Bool) : Bool :=
  match find v key with
  | some (.bool b) => b
  | _ => fallback

def getUint32 (v : Value) (key : Bytes) (fallback : UInt32) : Option UInt32 :=
  match find v key with
  | some (.number x) => (castUnsigned 32 x).map UInt32.ofNat
  | _ => some fallback

def getUint64 (v : Value) (key : Bytes) (fallback : UInt64) : Option UInt64 :=
  match find v key with
  | some (.number x) => (castUnsigned 64 x).map UInt64.ofNat
  | _ => some fallback

/-- The number of a member. A missing member reads as null, which is no number either. -/
def asNumber (v : Value) (key : Bytes) (fallback : Float) : Float :=
  match find v key with
  | some (.number x) => x
  | _ => fallback

end Reads

end Json

end EarthRise
