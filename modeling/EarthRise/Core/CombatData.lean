import EarthRise.Lib.Arith

/-!
# The Combat Catalog

The hulls, modules and fits that a universe spawns its units from.

The catalog is data: it is cooked from a file or is the default one below, and a server
may replace it while it runs. A fit names its hull and its modules by their codes.

## Main definitions

* `ResistProfile`, `HullClass`, `ModuleDef`, `FitTemplate`, `CombatCatalog`: The catalog.
* `defaultCombatCatalog`: The catalog that a universe starts with.
-/

namespace EarthRise

namespace Shard

inductive DamageType
  | kinetic
  | thermal
  | em
  deriving DecidableEq, Repr

inductive DefenseLayer
  | shield
  | armor
  | hull
  deriving DecidableEq, Repr

inductive SlotType
  | high
  | mid
  | low
  deriving DecidableEq, Repr

inductive ModuleKind
  | weapon
  | shieldBooster
  | remoteRep
  | jammer
  | web
  | warpDisruptor
  | sensorDamp
  | armorPlate
  | damageAmp
  | trackingEnhancer
  | afterburner
  deriving DecidableEq, Repr

inductive HullSize
  | light
  | medium
  | heavy
  | industrial
  | capital
  deriving DecidableEq, Repr

/-- The reductions of one layer, by damage type. -/
structure Resists (F : Type) where
  kinetic : F
  thermal : F
  em : F
  deriving DecidableEq

/-- The part of the damage that each layer takes off, by damage type. -/
structure ResistProfile (F : Type) where
  shield : Resists F
  armor : Resists F
  hull : Resists F
  deriving DecidableEq

/-- One value for each slot family. -/
structure BySlot (α : Type) where
  high : α
  mid : α
  low : α
  deriving DecidableEq

structure HullClass (F : Type) where
  code : String
  size : HullSize
  tier : UInt8
  slots : BySlot UInt8
  pgMax : F
  cpuMax : F
  mass : F
  signature : F
  maxSpeed : F
  shieldHp : Int
  armorHp : Int
  hullHp : Int
  shieldRegenPerSec : F
  resists : ResistProfile F
  deriving DecidableEq

structure ModuleDef (F : Type) where
  code : String
  kind : ModuleKind
  slot : SlotType
  tier : UInt8
  pgCost : F
  cpuCost : F
  damageType : DamageType
  baseDamage : F
  rateOfFire : F
  optimal : F
  falloff : F
  tracking : F
  projectileSpeed : F
  effectLayer : DefenseLayer
  strength : F
  duration : F
  range : F
  deriving DecidableEq

structure FitTemplate where
  name : String
  hull : String
  modules : List String
  deriving DecidableEq

structure CombatCatalog (F : Type) where
  hulls : List (HullClass F)
  modules : List (ModuleDef F)
  fits : List FitTemplate
  deriving DecidableEq

namespace Resists

variable {F : Type}

def get (r : Resists F) : DamageType → F
  | .kinetic => r.kinetic
  | .thermal => r.thermal
  | .em => r.em

end Resists

namespace ResistProfile

variable {F : Type}

/-- The reduction of a layer against a damage type. -/
def get (r : ResistProfile F) : DefenseLayer → DamageType → F
  | .shield => r.shield.get
  | .armor => r.armor.get
  | .hull => r.hull.get

end ResistProfile

namespace BySlot

variable {α : Type}

def get (s : BySlot α) : SlotType → α
  | .high => s.high
  | .mid => s.mid
  | .low => s.low

def set (s : BySlot α) (slot : SlotType) (a : α) : BySlot α :=
  match slot with
  | .high => { s with high := a }
  | .mid => { s with mid := a }
  | .low => { s with low := a }

end BySlot

namespace CombatCatalog

variable {F : Type}

def findHull (c : CombatCatalog F) (code : String) : Option (HullClass F) :=
  c.hulls.find? fun h => h.code = code

def findModule (c : CombatCatalog F) (code : String) : Option (ModuleDef F) :=
  c.modules.find? fun m => m.code = code

def findFit (c : CombatCatalog F) (name : String) : Option FitTemplate :=
  c.fits.find? fun f => f.name = name

end CombatCatalog

/-! ## The default catalog -/

section

variable {F : Type} [Floating F]

def defaultResists : ResistProfile F where
  shield := ⟨0.40, 0.25, 0⟩
  armor := ⟨0.25, 0, 0.40⟩
  hull := ⟨0, 0, 0⟩

def defaultHull (code : String) (size : HullSize) (tier h m l : UInt8)
    (pg cpu sig speed : Int) (sh ar hu : Int) (regen : F) : HullClass F where
  code := code
  size := size
  tier := tier
  slots := ⟨h, m, l⟩
  pgMax := ofInt pg
  cpuMax := ofInt cpu
  mass := 0
  signature := ofInt sig
  maxSpeed := ofInt speed
  shieldHp := sh
  armorHp := ar
  hullHp := hu
  shieldRegenPerSec := regen
  resists := defaultResists

def defaultWeapon (code : String) (dt : DamageType) (pg cpu dmg : Int) (rof : F)
    (opt fall : Int) (track : F) (projSpeed : Int) : ModuleDef F where
  code := code
  kind := .weapon
  slot := .high
  tier := 1
  pgCost := ofInt pg
  cpuCost := ofInt cpu
  damageType := dt
  baseDamage := ofInt dmg
  rateOfFire := rof
  optimal := ofInt opt
  falloff := ofInt fall
  tracking := track
  projectileSpeed := ofInt projSpeed
  effectLayer := .shield
  strength := 0
  duration := 0
  range := 0

def defaultModule (code : String) (kind : ModuleKind) (slot : SlotType) (pg cpu : Int)
    (layer : DefenseLayer) (strength duration : F) (range : Int) : ModuleDef F where
  code := code
  kind := kind
  slot := slot
  tier := 1
  pgCost := ofInt pg
  cpuCost := ofInt cpu
  damageType := .kinetic
  baseDamage := 0
  rateOfFire := 0
  optimal := 0
  falloff := 0
  tracking := 0
  projectileSpeed := 0
  effectLayer := layer
  strength := strength
  duration := duration
  range := ofInt range

/-- The catalog that a universe starts with. -/
def defaultCombatCatalog : CombatCatalog F where
  hulls := [
    defaultHull "hull.light" .light 1 2 2 1 50 60 40 3200 180 140 120 6.0,
    defaultHull "hull.medium" .medium 1 3 3 3 120 150 120 2000 420 380 340 9.0,
    defaultHull "hull.heavy" .heavy 2 4 3 4 250 220 300 1200 760 900 820 12.0,
    defaultHull "hull.industrial" .industrial 1 1 2 2 90 120 280 1100 300 360 520 5.0,
    defaultHull "hull.capital" .capital 1 4 4 4 1000 1000 2000 400 6000 7000 9000 30.0]
  modules := [
    defaultWeapon "module.railgun.t1" .kinetic 15 10 44 1.0 1800 900 0.6 6000,
    defaultWeapon "module.laser.t1" .thermal 15 12 40 1.2 1400 700 0.9 0,
    defaultWeapon "module.pulser.t1" .em 15 10 46 1.0 1500 800 0.7 5000,
    defaultModule "module.shieldbooster.t1" .shieldBooster .mid 10 20 .shield 15.0 0 0,
    defaultModule "module.remoteshield.t1" .remoteRep .high 18 22 .shield 25.0 0 3000,
    defaultModule "module.remotearmor.t1" .remoteRep .high 22 20 .armor 22.0 0 2500,
    defaultModule "module.jammer.t1" .jammer .mid 8 30 .shield 0.0 5.0 2500,
    defaultModule "module.web.t1" .web .mid 6 25 .shield 0.5 4.0 1500,
    defaultModule "module.warpdisruptor.t1" .warpDisruptor .mid 5 20 .shield 0.0 6.0 2000,
    defaultModule "module.sensordamp.t1" .sensorDamp .mid 7 28 .shield 0.5 5.0 2500,
    defaultModule "module.armorplate.t1" .armorPlate .low 12 5 .armor 200.0 0 0,
    defaultModule "module.damageamp.t1" .damageAmp .low 8 15 .shield 0.2 0 0,
    defaultModule "module.trackingenh.t1" .trackingEnhancer .low 5 12 .shield 0.3 0 0,
    defaultModule "module.afterburner.t1" .afterburner .mid 10 10 .shield 1.4 0 0]
  fits := [
    ⟨"scout-tackle", "hull.light",
      ["module.railgun.t1", "module.warpdisruptor.t1", "module.afterburner.t1",
        "module.trackingenh.t1"]⟩,
    ⟨"fighter-em", "hull.medium",
      ["module.pulser.t1", "module.pulser.t1", "module.pulser.t1", "module.shieldbooster.t1",
        "module.web.t1", "module.afterburner.t1", "module.damageamp.t1", "module.trackingenh.t1",
        "module.armorplate.t1"]⟩,
    ⟨"fighter-kin", "hull.medium",
      ["module.railgun.t1", "module.railgun.t1", "module.railgun.t1", "module.shieldbooster.t1",
        "module.web.t1", "module.afterburner.t1", "module.damageamp.t1", "module.trackingenh.t1",
        "module.armorplate.t1"]⟩,
    ⟨"heavy-anchor", "hull.heavy",
      ["module.railgun.t1", "module.railgun.t1", "module.railgun.t1", "module.railgun.t1",
        "module.shieldbooster.t1", "module.web.t1", "module.afterburner.t1",
        "module.armorplate.t1", "module.armorplate.t1", "module.damageamp.t1",
        "module.trackingenh.t1"]⟩,
    ⟨"logi-shield", "hull.medium",
      ["module.remoteshield.t1", "module.remoteshield.t1", "module.remoteshield.t1",
        "module.shieldbooster.t1", "module.afterburner.t1", "module.web.t1",
        "module.armorplate.t1", "module.armorplate.t1"]⟩,
    ⟨"ewar-jam", "hull.medium",
      ["module.pulser.t1", "module.jammer.t1", "module.jammer.t1", "module.afterburner.t1",
        "module.damageamp.t1", "module.trackingenh.t1", "module.armorplate.t1"]⟩,
    ⟨"base-firesupport", "hull.capital",
      ["module.railgun.t1", "module.railgun.t1", "module.remoteshield.t1",
        "module.remoteshield.t1", "module.shieldbooster.t1", "module.shieldbooster.t1",
        "module.sensordamp.t1", "module.afterburner.t1", "module.armorplate.t1",
        "module.armorplate.t1", "module.armorplate.t1", "module.armorplate.t1"]⟩]

end

end Shard

end EarthRise
