import Mathlib.Data.List.Basic

/-!
# The Grammar of JSON

Texts of the data interchange format, as trees, and the values they stand for.

A text is a list of bytes. Each production of the grammar is a constructor that carries
the bytes the grammar leaves open (blanks, digits, unescaped characters) with a proof that
they are of the right kind, so a tree that is no text cannot be built. Rendering a tree
writes its bytes. Blanks are allowed around every value and every key; where the grammar
has two runs of blanks next to each other a tree has one.

Reading a tree gives its value: members in the order in which they stand, numbers by a
function of the reader's choice, strings with their escapes decoded to UTF-8. Two escapes
that are a surrogate pair stand for one character. A surrogate without its partner stands
for none, so a tree with one has no reading.

A numeral may start with zeros here. `Strict` trees are those of the standard, which does
not allow them.

## Main definitions

* `Value`: What a text stands for.
* `Numeral`, `Piece`: Numbers, and the parts of a string.
* `Tree`, `Tree.render`, `Tree.read`: Parse trees with their text and their reading.
* `Document`: A value with the blanks around it.
* `Document.Strict`: No numeral starts with a zero it does not need.

## Theorems

* `Numeral.head_render`: A numeral starts with a minus sign or a digit.
* `Tree.head_render`: A value starts with no blank.
-/

namespace EarthRise

namespace JsonText

abbrev Bytes := List UInt8

/-- What a text stands for. Members keep their order. -/
inductive Value (N : Type) where
  | null
  | bool (b : Bool)
  | number (n : N)
  | string (s : Bytes)
  | array (items : List (Value N))
  | object (members : List (Bytes × Value N))

section Bytes

/-- Space, tab, line feed, carriage return. -/
def isBlank (b : UInt8) : Bool := b == 0x20 || b == 0x09 || b == 0x0A || b == 0x0D

def isDigit (b : UInt8) : Bool := 0x30 ≤ b && b ≤ 0x39

/-- The value of a hexadecimal digit, in either case. -/
def hexDigit (b : UInt8) : Option Nat :=
  if 0x30 ≤ b ∧ b ≤ 0x39 then some (b - 0x30).toNat
  else if 0x61 ≤ b ∧ b ≤ 0x66 then some ((b - 0x61).toNat + 10)
  else if 0x41 ≤ b ∧ b ≤ 0x46 then some ((b - 0x41).toNat + 10)
  else none

/-- A byte that may stand for itself in a string: no control character, quotation mark or
    backslash. -/
def isUnescaped (b : UInt8) : Bool := 0x20 ≤ b && b != 0x22 && b != 0x5C

end Bytes

/-- A run of blanks. -/
structure Blanks where
  bytes : Bytes
  blank : ∀ b ∈ bytes, isBlank b

/-- One digit or more. -/
structure Digits where
  bytes : Bytes
  digit : ∀ b ∈ bytes, isDigit b
  nonempty : bytes ≠ []

namespace Digits

/-- The number that digits write, after the digits read so far. -/
def valueFrom (n : Nat) (digits : Bytes) : Nat :=
  digits.foldl (fun n b => 10 * n + (b - 0x30).toNat) n

def value (d : Digits) : Nat := valueFrom 0 d.bytes

end Digits

/-- A power of ten: the letter, a sign or none, digits. -/
structure Exponent where
  upper : Bool
  sign : Option Bool
  digits : Digits

namespace Exponent

/-- A plus or a minus sign, or none. -/
def signBytes : Option Bool → Bytes
  | none => []
  | some false => [0x2B]
  | some true => [0x2D]

def render (e : Exponent) : Bytes :=
  (if e.upper then 0x45 else 0x65) :: signBytes e.sign ++ e.digits.bytes

def value (e : Exponent) : Int :=
  if e.sign = some true then -(e.digits.value : Int) else e.digits.value

end Exponent

/-- A number in decimal: `± digits · 10 ^ exponent`. -/
structure Decimal where
  negative : Bool
  digits : Nat
  exponent : Int
  deriving DecidableEq

/-- A number as it is written. -/
structure Numeral where
  negative : Bool
  whole : Digits
  fraction : Option Digits
  exponent : Option Exponent

namespace Numeral

def renderFraction : Option Digits → Bytes
  | none => []
  | some d => 0x2E :: d.bytes

def renderExponent : Option Exponent → Bytes
  | none => []
  | some e => e.render

def render (n : Numeral) : Bytes :=
  (if n.negative then [0x2D] else []) ++ n.whole.bytes ++ renderFraction n.fraction ++
    renderExponent n.exponent

/-- The digits after the point. -/
def fractionBytes (n : Numeral) : Bytes := n.fraction.elim [] Digits.bytes

/-- The number that a numeral writes. -/
def decimal (n : Numeral) : Decimal where
  negative := n.negative
  digits := Digits.valueFrom 0 (n.whole.bytes ++ n.fractionBytes)
  exponent := n.exponent.elim 0 Exponent.value - n.fractionBytes.length

/-- No zero in front of another digit. -/
def Plain (n : Numeral) : Prop := n.whole.bytes.head? = some 0x30 → n.whole.bytes.length = 1

/-- A numeral starts with a minus sign or a digit. -/
theorem head_render (n : Numeral) :
    ∃ b rest, n.render = b :: rest ∧ (b = 0x2D ∨ isDigit b) := by
  unfold render
  cases n.negative with
  | true => exact ⟨0x2D, _, rfl, .inl rfl⟩
  | false =>
    rcases hwhole : n.whole.bytes with _ | ⟨b, digits⟩
    · exact absurd hwhole n.whole.nonempty
    · refine ⟨b, _, rfl, .inr (n.whole.digit b ?_)⟩
      rw [hwhole]
      exact List.mem_cons_self

end Numeral

/-- The escapes of two characters. -/
inductive Short where
  | quote | backslash | slash | backspace | formFeed | lineFeed | carriageReturn | tab

namespace Short

/-- The character after the backslash. -/
def letter : Short → UInt8
  | quote => 0x22
  | backslash => 0x5C
  | slash => 0x2F
  | backspace => 0x62
  | formFeed => 0x66
  | lineFeed => 0x6E
  | carriageReturn => 0x72
  | tab => 0x74

/-- The character that the escape stands for. -/
def byte : Short → UInt8
  | quote => 0x22
  | backslash => 0x5C
  | slash => 0x2F
  | backspace => 0x08
  | formFeed => 0x0C
  | lineFeed => 0x0A
  | carriageReturn => 0x0D
  | tab => 0x09

end Short

/-- Four hexadecimal digits, with their values. -/
structure Hex4 where
  (a b c d : UInt8)
  (va vb vc vd : Nat)
  digits : hexDigit a = some va ∧ hexDigit b = some vb ∧ hexDigit c = some vc ∧
    hexDigit d = some vd

namespace Hex4

def bytes (h : Hex4) : Bytes := [h.a, h.b, h.c, h.d]

/-- The code unit of UTF-16 that the digits write. -/
def value (h : Hex4) : Nat := ((h.va * 16 + h.vb) * 16 + h.vc) * 16 + h.vd

end Hex4

/-- A part of a string. -/
inductive Piece where
  | raw (b : UInt8) (unescaped : isUnescaped b)
  | short (e : Short)
  | unit (h : Hex4)

namespace Piece

def render : Piece → Bytes
  | raw b _ => [b]
  | short e => [0x5C, e.letter]
  | unit h => 0x5C :: 0x75 :: h.bytes

/-- The first half of a surrogate pair. -/
def isHigh (u : Nat) : Prop := 0xD800 ≤ u ∧ u ≤ 0xDBFF

/-- The second half. -/
def isLow (u : Nat) : Prop := 0xDC00 ≤ u ∧ u ≤ 0xDFFF

instance (u : Nat) : Decidable (isHigh u) := inferInstanceAs (Decidable (_ ∧ _))
instance (u : Nat) : Decidable (isLow u) := inferInstanceAs (Decidable (_ ∧ _))

/-- The character of a surrogate pair. -/
def paired (high low : Nat) : Nat := 0x10000 + (high - 0xD800) * 0x400 + (low - 0xDC00)

def utf8 (codepoint : Nat) : Bytes := String.utf8EncodeChar (Char.ofNat codepoint)

/-- The bytes that the parts of a string stand for. -/
@[simp] def decode : List Piece → Option Bytes
  | [] => some []
  | .raw b _ :: rest => (decode rest).map (b :: ·)
  | .short e :: rest => (decode rest).map (e.byte :: ·)
  | .unit h :: rest =>
    if isHigh h.value then
      match rest with
      | .unit l :: rest =>
        if isLow l.value then (decode rest).map (utf8 (paired h.value l.value) ++ ·) else none
      | _ => none
    else if isLow h.value then none
    else (decode rest).map (utf8 h.value ++ ·)

/-- The text of a string, without the quotation mark in front. -/
def renderAll (s : List Piece) : Bytes := s.flatMap render ++ [0x22]

end Piece

/-- What a tree is a tree of: a value, or the inside of an array or of an object with the
    bracket that closes it. -/
inductive Part where
  | value | elements | members

/-- What a tree of each kind stands for. -/
abbrev Part.Meaning (N : Type) : Part → Type
  | .value => Value N
  | .elements => List (Value N)
  | .members => List (Bytes × Value N)

inductive Tree : Part → Type where
  | null : Tree .value
  | bool (b : Bool) : Tree .value
  | number (n : Numeral) : Tree .value
  | string (s : List Piece) : Tree .value
  | emptyArray (inside : Blanks) : Tree .value
  | array (elements : Tree .elements) : Tree .value
  | emptyObject (inside : Blanks) : Tree .value
  | object (members : Tree .members) : Tree .value
  | last (before : Blanks) (v : Tree .value) (after : Blanks) : Tree .elements
  | cons (before : Blanks) (v : Tree .value) (after : Blanks) (rest : Tree .elements) :
      Tree .elements
  | lastMember (before : Blanks) (key : List Piece) (colon : Blanks × Blanks) (v : Tree .value)
      (after : Blanks) : Tree .members
  | consMember (before : Blanks) (key : List Piece) (colon : Blanks × Blanks) (v : Tree .value)
      (after : Blanks) (rest : Tree .members) : Tree .members

namespace Tree

/-- `null`. -/
def nullBytes : Bytes := [0x6E, 0x75, 0x6C, 0x6C]

/-- `true` and `false`. -/
def boolBytes : Bool → Bytes
  | true => [0x74, 0x72, 0x75, 0x65]
  | false => [0x66, 0x61, 0x6C, 0x73, 0x65]

/-- A key with its colon, and the blanks around both. -/
def renderKey (before : Blanks) (key : List Piece) (colon : Blanks × Blanks) : Bytes :=
  before.bytes ++ 0x22 :: Piece.renderAll key ++ colon.1.bytes ++ 0x3A :: colon.2.bytes

/-- The text of a tree. -/
@[simp] def render : {p : Part} → Tree p → Bytes
  | _, null => nullBytes
  | _, bool b => boolBytes b
  | _, number n => n.render
  | _, string s => 0x22 :: Piece.renderAll s
  | _, emptyArray inside => 0x5B :: inside.bytes ++ [0x5D]
  | _, array elements => 0x5B :: elements.render
  | _, emptyObject inside => 0x7B :: inside.bytes ++ [0x7D]
  | _, object members => 0x7B :: members.render
  | _, last before v after => before.bytes ++ v.render ++ after.bytes ++ [0x5D]
  | _, cons before v after rest => before.bytes ++ v.render ++ after.bytes ++ 0x2C :: rest.render
  | _, lastMember before key colon v after =>
    renderKey before key colon ++ v.render ++ after.bytes ++ [0x7D]
  | _, consMember before key colon v after rest =>
    renderKey before key colon ++ v.render ++ after.bytes ++ 0x2C :: rest.render

variable {N : Type} (numberOf : Decimal → N)

/-- What a tree stands for, if its surrogates are paired. -/
@[simp] def read : {p : Part} → Tree p → Option (p.Meaning N)
  | _, null => some .null
  | _, bool b => some (.bool b)
  | _, number n => some (.number (numberOf n.decimal))
  | _, string s => (Piece.decode s).map .string
  | _, emptyArray _ => some (.array [])
  | _, array elements => elements.read.map .array
  | _, emptyObject _ => some (.object [])
  | _, object members => members.read.map .object
  | _, last _ v _ => v.read.map fun x => [x]
  | _, cons _ v _ rest => v.read.bind fun x => rest.read.map fun xs => x :: xs
  | _, lastMember _ key _ v _ =>
    (Piece.decode key).bind fun k => v.read.map fun x => [(k, x)]
  | _, consMember _ key _ v _ rest =>
    (Piece.decode key).bind fun k => v.read.bind fun x => rest.read.map fun xs => (k, x) :: xs

/-- The numerals of a tree are those of the standard. -/
def Strict : {p : Part} → Tree p → Prop
  | _, null | _, bool _ | _, string _ | _, emptyArray _ | _, emptyObject _ => True
  | _, number n => n.Plain
  | _, array elements => elements.Strict
  | _, object members => members.Strict
  | _, last _ v _ | _, lastMember _ _ _ v _ => v.Strict
  | _, cons _ v _ rest | _, consMember _ _ _ v _ rest => v.Strict ∧ rest.Strict

/-- A value starts with no blank and closes no bracket. -/
theorem head_render (t : Tree .value) :
    ∃ b rest, t.render = b :: rest ∧ isBlank b = false ∧ b ≠ 0x5D ∧ b ≠ 0x7D := by
  cases t with
  | null => exact ⟨_, _, rfl, by decide⟩
  | bool b => cases b <;> exact ⟨_, _, rfl, by decide⟩
  | number n =>
    obtain ⟨b, rest, hrender, hhead⟩ := n.head_render
    refine ⟨b, rest, hrender, ?_⟩
    rcases hhead with rfl | hdigit
    · decide
    · simp only [isDigit, isBlank, Bool.and_eq_true, decide_eq_true_eq, Bool.or_eq_false_iff,
        beq_eq_false_iff_ne, UInt8.le_iff_toNat_le, ne_eq, ← UInt8.toNat_inj] at hdigit ⊢
      simp only [UInt8.reduceToNat] at hdigit ⊢
      omega
  | string s => exact ⟨_, _, rfl, by decide⟩
  | emptyArray inside => exact ⟨_, _, rfl, by decide⟩
  | array elements => exact ⟨_, _, rfl, by decide⟩
  | emptyObject inside => exact ⟨_, _, rfl, by decide⟩
  | object members => exact ⟨_, _, rfl, by decide⟩

end Tree

/-- A text: a value with blanks around it. -/
structure Document where
  before : Blanks
  value : Tree .value
  after : Blanks

namespace Document

def render (d : Document) : Bytes := d.before.bytes ++ d.value.render ++ d.after.bytes

def Strict (d : Document) : Prop := d.value.Strict

def read {N : Type} (numberOf : Decimal → N) (d : Document) : Option (Value N) :=
  d.value.read numberOf

end Document

/-- A text with a numeral that starts with a zero it does not need. -/
def ZeroLed (text : Bytes) : Prop := ∃ d : Document, d.render = text ∧ ¬ d.Strict

end JsonText

end EarthRise
