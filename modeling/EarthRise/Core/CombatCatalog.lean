import EarthRise.Core.Components
import EarthRise.Core.Serde

/-!
# The Cooked Combat Catalog

The catalog as the tools cook it and the server loads it: hulls, modules and fits with their
codes as text, the bytes they are written as, the rule for a fit, and what a fit puts on a
unit.

A slot family, a module kind, a damage type and a layer are bytes here, whatever the byte
is, and only the low ones have a name. The counts that the rule keeps stand in a table with
three entries of eight bits, looked up by the byte of the slot; a look outside the table is
an outcome of its own. Loading a catalog decodes it and does nothing else.

## Main definitions

* `HullClass`, `ModuleDef`, `FitTemplate`, `CombatCatalog`: The catalog.
* `encodeCombatCatalog`, `decodeCombatCatalog`: The format.
* `validateFit`: The rule for a fit.
* `loadCombatFromCooked`, `installFit`: From bytes to a unit.
* `resistAt`: A look into the table of resists.
-/

namespace EarthRise

namespace Cooked

open Serde
open Shard (Resists ResistProfile BySlot SlotType DefenseLayers LayerHp)

/-- A code or a name, as the bytes it is kept in. -/
abbrev Code := List UInt8

structure HullClass (F : Type) where
  code : Code
  size : UInt8
  tier : UInt8
  slots : BySlot UInt8
  pgMax : F
  cpuMax : F
  mass : F
  signature : F
  maxSpeed : F
  shieldHp : Int32
  armorHp : Int32
  hullHp : Int32
  shieldRegenPerSec : F
  resists : ResistProfile F
  deriving DecidableEq

structure ModuleDef (F : Type) where
  code : Code
  kind : UInt8
  slot : UInt8
  tier : UInt8
  pgCost : F
  cpuCost : F
  damageType : UInt8
  baseDamage : F
  rateOfFire : F
  optimal : F
  falloff : F
  tracking : F
  projectileSpeed : F
  effectLayer : UInt8
  strength : F
  duration : F
  range : F
  deriving DecidableEq

structure FitTemplate where
  name : Code
  hull : Code
  modules : List Code
  deriving DecidableEq

structure CombatCatalog (F : Type) where
  hulls : List (HullClass F)
  modules : List (ModuleDef F)
  fits : List FitTemplate
  deriving DecidableEq

namespace CombatCatalog

variable {F : Type}

def findHull (c : CombatCatalog F) (code : Code) : Option (HullClass F) :=
  c.hulls.find? fun h => h.code = code

def findModule (c : CombatCatalog F) (code : Code) : Option (ModuleDef F) :=
  c.modules.find? fun m => m.code = code

def findFit (c : CombatCatalog F) (name : Code) : Option FitTemplate :=
  c.fits.find? fun f => f.name = name

end CombatCatalog

/-! ## The format -/

section

variable {F : Type} [FloatBits F]

def writeLayerResists (r : Resists F) : WriteM := do
  writeFloat r.kinetic
  writeFloat r.thermal
  writeFloat r.em

def writeResists (p : ResistProfile F) : WriteM := do
  writeLayerResists p.shield
  writeLayerResists p.armor
  writeLayerResists p.hull

def writeHull (h : HullClass F) : WriteM := do
  writeStr h.code
  writeUint8 h.size
  writeUint8 h.tier
  writeUint8 h.slots.high
  writeUint8 h.slots.mid
  writeUint8 h.slots.low
  writeFloat h.pgMax
  writeFloat h.cpuMax
  writeFloat h.mass
  writeFloat h.signature
  writeFloat h.maxSpeed
  writeInt32 h.shieldHp
  writeInt32 h.armorHp
  writeInt32 h.hullHp
  writeFloat h.shieldRegenPerSec
  writeResists h.resists

def writeModule (m : ModuleDef F) : WriteM := do
  writeStr m.code
  writeUint8 m.kind
  writeUint8 m.slot
  writeUint8 m.tier
  writeFloat m.pgCost
  writeFloat m.cpuCost
  writeUint8 m.damageType
  writeFloat m.baseDamage
  writeFloat m.rateOfFire
  writeFloat m.optimal
  writeFloat m.falloff
  writeFloat m.tracking
  writeFloat m.projectileSpeed
  writeUint8 m.effectLayer
  writeFloat m.strength
  writeFloat m.duration
  writeFloat m.range

def writeFit (f : FitTemplate) : WriteM := do
  writeStr f.name
  writeStr f.hull
  writeList16 writeStr f.modules

def writeCombatCatalog (c : CombatCatalog F) : WriteM := do
  writeList16 writeHull c.hulls
  writeList16 writeModule c.modules
  writeList16 writeFit c.fits

def readLayerResists : ReadM (Resists F) := do
  let kinetic ← readFloat
  let thermal ← readFloat
  let em ← readFloat
  pure ⟨kinetic, thermal, em⟩

def readResists : ReadM (ResistProfile F) := do
  let shield ← readLayerResists
  let armor ← readLayerResists
  let hull ← readLayerResists
  pure ⟨shield, armor, hull⟩

def readHull : ReadM (HullClass F) := do
  let code ← readStr
  let size ← readUint8
  let tier ← readUint8
  let high ← readUint8
  let mid ← readUint8
  let low ← readUint8
  let pgMax ← readFloat
  let cpuMax ← readFloat
  let mass ← readFloat
  let signature ← readFloat
  let maxSpeed ← readFloat
  let shieldHp ← readInt32
  let armorHp ← readInt32
  let hullHp ← readInt32
  let shieldRegenPerSec ← readFloat
  let resists ← readResists
  pure ⟨code, size, tier, ⟨high, mid, low⟩, pgMax, cpuMax, mass, signature, maxSpeed,
    shieldHp, armorHp, hullHp, shieldRegenPerSec, resists⟩

def readModule : ReadM (ModuleDef F) := do
  let code ← readStr
  let kind ← readUint8
  let slot ← readUint8
  let tier ← readUint8
  let pgCost ← readFloat
  let cpuCost ← readFloat
  let damageType ← readUint8
  let baseDamage ← readFloat
  let rateOfFire ← readFloat
  let optimal ← readFloat
  let falloff ← readFloat
  let tracking ← readFloat
  let projectileSpeed ← readFloat
  let effectLayer ← readUint8
  let strength ← readFloat
  let duration ← readFloat
  let range ← readFloat
  pure ⟨code, kind, slot, tier, pgCost, cpuCost, damageType, baseDamage, rateOfFire, optimal,
    falloff, tracking, projectileSpeed, effectLayer, strength, duration, range⟩

def readFit : ReadM FitTemplate := do
  let name ← readStr
  let hull ← readStr
  let modules ← readList16 readStr
  pure ⟨name, hull, modules⟩

def readCombatCatalog : ReadM (CombatCatalog F) := do
  let hulls ← readList16 readHull
  let modules ← readList16 readModule
  let fits ← readList16 readFit
  pure ⟨hulls, modules, fits⟩

def encodeCombatCatalog (c : CombatCatalog F) : List UInt8 := encode (writeCombatCatalog c)

def decodeCombatCatalog (body : List UInt8) : Option (CombatCatalog F) :=
  decode readCombatCatalog body

/-- Load a cooked catalog: what it decodes to. -/
def loadCombatFromCooked (blob : List UInt8) : Option (CombatCatalog F) :=
  decodeCombatCatalog blob

end

/-! ## Tables looked up by a byte -/

/-- The slot family of a byte. -/
def slotOf : UInt8 → Option SlotType
  | 0 => some .high
  | 1 => some .mid
  | 2 => some .low
  | _ => none

/-- An entry of a row by the byte of a damage type. -/
def resistIn {F : Type} (r : Resists F) : UInt8 → Option F
  | 0 => some r.kinetic
  | 1 => some r.thermal
  | 2 => some r.em
  | _ => none

/-- An entry of the table of resists, or a look outside it. -/
def resistAt {F : Type} (p : ResistProfile F) (layer type : UInt8) : Option F :=
  match layer with
  | 0 => resistIn p.shield type
  | 1 => resistIn p.armor type
  | 2 => resistIn p.hull type
  | _ => none

/-! ## The rule for a fit -/

inductive FitError
  | unknownModule (code : Code)
  | slotCapacity (hull : Code) (slot : SlotType)
  | pgBudget (hull : Code)
  | cpuBudget (hull : Code)
  /-- A slot that the table of counts has no entry for is looked up in it all the same. -/
  | outsideTable (slot : UInt8)
  deriving DecidableEq

/-- What a fit uses of its hull. -/
structure FitUse (F : Type) where
  pgUsed : F
  cpuUsed : F
  used : BySlot UInt8

section

variable {F : Type} [Floating F]

/-- Fit the modules one after the other. The counts have eight bits. -/
def fitModules (hull : HullClass F) (cat : CombatCatalog F) :
    List Code → FitUse F → Except FitError (FitUse F)
  | [], r => .ok r
  | code :: rest, r =>
      match cat.findModule code with
      | none => .error (.unknownModule code)
      | some m =>
          match slotOf m.slot with
          | none => .error (.outsideTable m.slot)
          | some s =>
              let n := r.used.get s + 1
              if hull.slots.get s < n then .error (.slotCapacity hull.code s)
              else
                fitModules hull cat rest
                  { pgUsed := r.pgUsed + m.pgCost, cpuUsed := r.cpuUsed + m.cpuCost
                    used := r.used.set s n }

def validateFit (hull : HullClass F) (moduleCodes : List Code) (cat : CombatCatalog F) :
    Except FitError (FitUse F) :=
  match fitModules hull cat moduleCodes ⟨0, 0, ⟨0, 0, 0⟩⟩ with
  | .error e => .error e
  | .ok r =>
      if hull.pgMax < r.pgUsed then .error (.pgBudget hull.code)
      else if hull.cpuMax < r.cpuUsed then .error (.cpuBudget hull.code)
      else .ok r

end

/-! ## What a fit puts on a unit -/

def kindWeapon : UInt8 := 0

def kindShieldBooster : UInt8 := 1

def kindArmorPlate : UInt8 := 7

def kindDamageAmp : UInt8 := 8

def kindTrackingEnhancer : UInt8 := 9

/-- A fitted module, with its own copy of the catalog's entry. -/
structure ModuleInstance (F : Type) where
  info : ModuleDef F
  cooldown : F
  pending : F
  deriving DecidableEq

structure Fitting (F : Type) where
  modules : List (ModuleInstance F)
  pgUsed : F
  pgMax : F
  cpuUsed : F
  cpuMax : F
  slots : BySlot UInt8
  deriving DecidableEq

/-- The layers, the resists and the modules of a fit. -/
structure Installed (F : Type) where
  defense : DefenseLayers F
  resists : ResistProfile F
  fitting : Fitting F
  deriving DecidableEq

/-- What the passive modules of a fit add up to. -/
structure FitBonus (F : Type) where
  dmgAmp : F
  trackAmp : F
  shieldBoost : F
  plateArmor : Int

section

variable {F : Type} [Floating F]

def FitBonus.add (b : FitBonus F) (m : ModuleDef F) : FitBonus F :=
  if m.kind = kindDamageAmp then { b with dmgAmp := b.dmgAmp + m.strength }
  else if m.kind = kindTrackingEnhancer then { b with trackAmp := b.trackAmp + m.strength }
  else if m.kind = kindShieldBooster then { b with shieldBoost := b.shieldBoost + m.strength }
  else if m.kind = kindArmorPlate then
    { b with plateArmor := b.plateArmor + Floating.trunc m.strength }
  else b

/-- A module as it is fitted; a weapon has the passive bonuses in its numbers. -/
def fitModule (b : FitBonus F) (m : ModuleDef F) : ModuleInstance F where
  info :=
    if m.kind = kindWeapon then
      { m with baseDamage := m.baseDamage * (1 + b.dmgAmp), tracking := m.tracking + b.trackAmp }
    else m
  cooldown := 0
  pending := 0

def installFitDirect (hull : HullClass F) (mods : List (ModuleDef F)) : Installed F :=
  let b := mods.foldl FitBonus.add ⟨0, 0, 0, 0⟩
  let armor := hull.armorHp.toInt + b.plateArmor
  { defense :=
      { shield := ⟨hull.shieldHp.toInt, hull.shieldHp.toInt⟩
        armor := ⟨armor, armor⟩
        hull := ⟨hull.hullHp.toInt, hull.hullHp.toInt⟩
        shieldRegenPerSec := hull.shieldRegenPerSec + b.shieldBoost
        regenPending := 0 }
    resists := hull.resists
    fitting :=
      { modules := mods.map (fitModule b)
        pgUsed := mods.foldl (fun x m => x + m.pgCost) 0
        pgMax := hull.pgMax
        cpuUsed := mods.foldl (fun x m => x + m.cpuCost) 0
        cpuMax := hull.cpuMax
        slots := hull.slots } }

/-- Install the fit of a name, unless it or its hull is unknown. Modules that are unknown are
    left out. -/
def installFit (combat : CombatCatalog F) (fitName : Code) : Option (Installed F) :=
  match combat.findFit fitName with
  | none => none
  | some ft =>
      match combat.findHull ft.hull with
      | none => none
      | some hull => some (installFitDirect hull (ft.modules.filterMap combat.findModule))

end

end Cooked

end EarthRise
