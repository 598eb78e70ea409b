import Mathlib.Data.Rat.Floor

/-!
# Positions and Sectors

Absolute positions in whole metres, the sector grid over them, and the offset
within a sector. Offsets are exact rationals here; every offset that the codec
produces has a denominator of 64 and is exact in the code's floats too.

## Main definitions

* `UniversePos`, `SectorId`: A position and a grid cell.
* `universeToSector`, `sectorToOrigin`: Between the two.
-/

namespace EarthRise

namespace Universe

structure Vec3 (α : Type) where
  x : α
  y : α
  z : α
  deriving DecidableEq, Repr

namespace Vec3

def map {α β : Type} (f : α → β) (v : Vec3 α) : Vec3 β := ⟨f v.x, f v.y, f v.z⟩

def zipWith {α β γ : Type} (f : α → β → γ) (v : Vec3 α) (w : Vec3 β) : Vec3 γ :=
  ⟨f v.x w.x, f v.y w.y, f v.z w.z⟩

/-- Every axis satisfies `p`. -/
def All {α : Type} (p : α → Prop) (v : Vec3 α) : Prop := p v.x ∧ p v.y ∧ p v.z

end Vec3

/-- Metres on each axis. -/
abbrev UniversePos := Vec3 Int

/-- Cell indices on each axis. -/
abbrev SectorId := Vec3 Int

/-- The side of a sector, in metres: two to the sector shift. -/
def sectorSize : Int := 16384

/-- The sector of a position. The arithmetic shift down is a floored division. -/
def universeToSector (p : UniversePos) : SectorId := p.map (· / sectorSize)

/-- The lowest corner of a sector. -/
def sectorToOrigin (s : SectorId) : UniversePos := s.map (· * sectorSize)

end Universe

end EarthRise
