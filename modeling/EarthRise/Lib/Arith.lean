import Mathlib.Data.Rat.Floor

/-!
# Floating-Point Arithmetic

The operations that a program has on a floating-point type, and a pair of such types
with the conversions between them.

Nothing is assumed of the operations, so what is proved over them holds of any
rounding and of exact arithmetic alike. The machine's own types are an instance: the
operations are those of the IEEE formats, with their infinities, their signed zeros
and the one NaN. Lean leaves a few conversions of its types opaque; they are defined
here on the unpacked numbers.

## Main definitions

* `Floating`: The operations of one type.
* `Widens`: A narrow type and a wide one.
* `fmax`, `fmin`: The larger and the smaller, the first one where they do not compare.
-/

namespace EarthRise

/-- The operations of a floating-point type. -/
class Floating (F : Type) extends Zero F, One F, Add F, Sub F, Mul F, Div F, LT F, LE F,
    OfScientific F where
  decLt : DecidableLT F
  decLe : DecidableLE F
  decEq : DecidableEq F
  /-- The closest number to an integer. -/
  ofInt : Int → F
  sqrt : F → F
  floor : F → F
  /-- The closest integer, a half away from zero. -/
  lround : F → Int
  /-- The integer part. -/
  trunc : F → Int

instance Floating.decidableLT {F : Type} [Floating F] : DecidableLT F := Floating.decLt

instance Floating.decidableLE {F : Type} [Floating F] : DecidableLE F := Floating.decLe

instance Floating.decidableEq {F : Type} [Floating F] : DecidableEq F := Floating.decEq

/-- A narrow type and a wide one. -/
class Widens (F : Type) (D : outParam Type) where
  widen : F → D
  narrow : D → F
  cos : D → D
  sin : D → D
  /-- The pattern of a number. -/
  bits : F → UInt32

export Floating (ofInt lround trunc)

export Widens (widen narrow)

section

variable {F : Type} [Floating F]

/-- The larger of two, and the first where they are equal or do not compare. -/
def fmax (a b : F) : F := if a < b then b else a

/-- The smaller of two, and the first where they are equal or do not compare. -/
def fmin (a b : F) : F := if b < a then b else a

end

/-! ## The machine's types -/

namespace Ieee

open Float.Model Float.Model.UnpackedFloat

/-- A number in another format. -/
def convert (spec : Format) : UnpackedFloat → UnpackedFloat
  | .finite sign mantissa exponent _ => UnpackedFloat.round spec sign mantissa exponent
  | f => f

/-- The integer part of `m * 2 ^ e`. -/
def wholePart (m : Nat) (e : Int) : Nat := if 0 ≤ e then m <<< e.toNat else m >>> (-e).toNat

/-- `m * 2 ^ e` to the closest integer, a half up. -/
def halfUp (m : Nat) (e : Int) : Nat :=
  if 0 ≤ e then m <<< e.toNat else (m + 1 <<< ((-e).toNat - 1)) >>> (-e).toNat

/-- The integer part; where there is none C leaves the result open. -/
def trunc : UnpackedFloat → Int
  | .finite sign mantissa exponent _ => sign.apply (wholePart mantissa exponent)
  | _ => 0

/-- The closest integer, a half away from zero. -/
def lround : UnpackedFloat → Int
  | .finite sign mantissa exponent _ => sign.apply (halfUp mantissa exponent)
  | _ => 0

/-- The largest integer that is not above, as a number; infinities, zeros and integers
    are their own. -/
def floor (spec : Format) : UnpackedFloat → UnpackedFloat
  | .finite sign mantissa exponent h =>
      if 0 ≤ exponent then .finite sign mantissa exponent h
      else UnpackedFloat.ofInt spec (sign.apply mantissa >>> (-exponent).toNat)
  | f => f

end Ieee

open Float.Model in
instance : Floating Float32 where
  decLt := inferInstance
  decLe := inferInstance
  decEq := inferInstance
  ofInt := Float32.ofInt
  sqrt := Float32.sqrt
  floor x := ⟨Float32.Model.pack (Ieee.floor .binary32 x.toModel.unpack)⟩
  lround x := Ieee.lround x.toModel.unpack
  trunc x := Ieee.trunc x.toModel.unpack

open Float.Model in
instance : Floating Float where
  decLt := inferInstance
  decLe := inferInstance
  decEq := inferInstance
  ofInt := Float.ofInt
  sqrt := Float.sqrt
  floor x := ⟨Float.Model.pack (Ieee.floor .binary64 x.toModel.unpack)⟩
  lround x := Ieee.lround x.toModel.unpack
  trunc x := Ieee.trunc x.toModel.unpack

open Float.Model in
instance : Widens Float32 Float where
  widen x := ⟨Float.Model.pack (Ieee.convert .binary64 x.toModel.unpack)⟩
  narrow x := ⟨Float32.Model.pack (Ieee.convert .binary32 x.toModel.unpack)⟩
  cos := Float.cos
  sin := Float.sin
  bits := Float32.toBits

example : lround (19.7 : Float32) = 20 ∧ lround (-2.5 : Float) = -3 ∧ trunc (-2.5 : Float32) = -2 := by
  decide +kernel

example : Floating.floor (-0.5 : Float32) = -1 ∧ narrow (widen (0.1 : Float32)) = (0.1 : Float32) := by
  decide +kernel

end EarthRise
