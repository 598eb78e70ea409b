import EarthRise.Core.Navigation

/-!
# Combat

What a blow does to a unit's layers, what brings them back, the factors of a shot, the
flight of a projectile, and electronic warfare.

A blow goes through the layers from the shield inward. A layer that holds takes the
rounded damage and stops the blow; one that does not is emptied and lets the rest of
the blow through. Hit points are integers and damage is not, so the two branches
disagree about damage just below what a layer has left: it holds, and rounding empties
it.

## Main definitions

* `hitLayer`, `damageLayers`, `applyTypedDamage`: A blow.
* `regenDefenses`, `remoteRep`: Repair.
* `falloffFactor`, `trackingFactor`, `resolveShotDamage`: A shot.
* `stepProjectile`: A projectile.
-/

namespace EarthRise

namespace Shard

open Universe (Vec3 UniversePos)

/-- The innermost layer that a blow broke. -/
inductive DamageOutcome
  | absorbed
  | shieldDown
  | armorDown
  | killed
  deriving DecidableEq, Repr

/-- What breaking a layer is called. -/
def DefenseLayer.broke : DefenseLayer → DamageOutcome
  | .shield => .shieldDown
  | .armor => .armorDown
  | .hull => .killed

section

variable {F D : Type} [Floating F] [Floating D] [Widens F D]

/-! ## A blow -/

/-- A layer after a blow, what is left of the blow, and whether the layer broke. -/
structure LayerHit (F : Type) where
  layer : LayerHp
  raw : F
  broke : Bool

def hitLayer (l : LayerHp) (resist raw : F) : LayerHit F :=
  if l.cur ≤ 0 then ⟨l, raw, false⟩
  else
    let mult := 1 - resist
    let effective := raw * mult
    if effective < ofInt l.cur then
      -- The layer holds, even where the rounded damage is all that it has.
      ⟨{ l with cur := max 0 (l.cur - lround effective) }, 0, false⟩
    else
      let rawToBreak := if 0 < mult then ofInt l.cur / mult else raw
      ⟨{ l with cur := 0 }, if rawToBreak < raw then raw - rawToBreak else 0, true⟩

/-- A blow on its way inward. -/
structure Blow (F : Type) where
  outcome : DamageOutcome
  raw : F
  layers : DefenseLayers F

/-- A blow meets a layer, unless nothing is left of it. -/
def Blow.meet (resist : ResistProfile F) (type : DamageType) (b : Blow F)
    (layer : DefenseLayer) : Blow F :=
  if 0 < b.raw then
    let h := hitLayer (b.layers.get layer) (resist.get layer type) b.raw
    { outcome := if h.broke then layer.broke else b.outcome
      raw := h.raw
      layers := b.layers.set layer h.layer }
  else b

/-- The blow through a list of layers. -/
def damageLayers (resist : ResistProfile F) (type : DamageType) (layers : List DefenseLayer)
    (b : Blow F) : Blow F :=
  layers.foldl (Blow.meet resist type) b

/-- Damage of one type to all layers. -/
def applyTypedDamage (d : DefenseLayers F) (resist : ResistProfile F) (type : DamageType)
    (effectiveBase : F) : DamageOutcome × DefenseLayers F :=
  if effectiveBase ≤ 0 then (.absorbed, d)
  else
    let b := damageLayers resist type [.shield, .armor, .hull] ⟨.absorbed, effectiveBase, d⟩
    (b.outcome, b.layers)

/-! ## Repair -/

/-- The shield comes back by itself, in whole points. -/
def regenDefenses (d : DefenseLayers F) (dt : F) : DefenseLayers F :=
  if d.hull.cur ≤ 0 then d
  else if d.shield.max ≤ d.shield.cur ∨ d.shieldRegenPerSec ≤ 0 then d
  else
    let pending := d.regenPending + d.shieldRegenPerSec * dt
    if 1 ≤ pending then
      let add := trunc pending
      { d with
        regenPending := pending - ofInt add
        shield := { d.shield with cur := min d.shield.max (d.shield.cur + add) } }
    else { d with regenPending := pending }

/-- Repair of a layer that is neither full nor gone. -/
def remoteRep (d : DefenseLayers F) (layer : DefenseLayer) (amount : Int) :
    Int × DefenseLayers F :=
  let l := d.get layer
  if amount ≤ 0 ∨ l.max ≤ l.cur ∨ l.cur ≤ 0 then (0, d)
  else
    let cur := min l.max (l.cur + amount)
    (cur - l.cur, d.set layer { l with cur := cur })

/-! ## Electronic warfare -/

namespace EwarStatus

def applyJam (s : EwarStatus F) (duration : F) : EwarStatus F :=
  { s with jammedFor := fmax s.jammedFor duration }

def applyTackle (s : EwarStatus F) (duration : F) : EwarStatus F :=
  { s with tackledFor := fmax s.tackledFor duration }

def applyWeb (s : EwarStatus F) (factor duration : F) : EwarStatus F :=
  { s with webFactor := fmin s.webFactor factor, webFor := fmax s.webFor duration }

def applySensorDamp (s : EwarStatus F) (factor duration : F) : EwarStatus F :=
  { s with
    sensorDampFactor := fmin s.sensorDampFactor factor
    sensorDampFor := fmax s.sensorDampFor duration }

/-- Time passes, and what has run out has no effect. -/
def tick (s : EwarStatus F) (dt : F) : EwarStatus F :=
  let webFor := fmax 0 (s.webFor - dt)
  let sensorDampFor := fmax 0 (s.sensorDampFor - dt)
  { jammedFor := fmax 0 (s.jammedFor - dt)
    tackledFor := fmax 0 (s.tackledFor - dt)
    webFactor := if webFor ≤ 0 then 1 else s.webFactor
    webFor := webFor
    sensorDampFactor := if sensorDampFor ≤ 0 then 1 else s.sensorDampFactor
    sensorDampFor := sensorDampFor }

def isJammed (s : EwarStatus F) : Prop := 0 < s.jammedFor

instance (s : EwarStatus F) : Decidable s.isJammed := inferInstanceAs (Decidable (_ < _))

def isTackled (s : EwarStatus F) : Prop := 0 < s.tackledFor

instance (s : EwarStatus F) : Decidable s.isTackled := inferInstanceAs (Decidable (_ < _))

end EwarStatus

/-! ## A shot -/

/-- How much of a shot a distance leaves. -/
def falloffFactor (dist : D) (optimal falloff : F) : F :=
  if dist ≤ widen optimal then 1
  else if falloff ≤ 0 then 0
  else
    let f : F := 1 - narrow ((dist - widen optimal) / widen falloff)
    if f ≤ 0 then 0 else if 1 ≤ f then 1 else f

/-- How much of a shot hits a target of a size and a speed. -/
def trackingFactor (tracking targetSignature targetSpeed : F) : F :=
  let track := tracking * targetSignature
  let denom := track + targetSpeed * 0.02
  if denom ≤ 0 then 1
  else
    let f := track / denom
    if f < 0 then 0 else if 1 < f then 1 else f

/-- A weapon reaches a distance at all. -/
def inEngagementRange (weapon : ModuleDef F) (dist : D) (sensorDampFactor : F) : Prop :=
  dist ≤ widen ((weapon.optimal + weapon.falloff) * sensorDampFactor)

instance (weapon : ModuleDef F) (dist : D) (sensorDampFactor : F) :
    Decidable (inEngagementRange weapon dist sensorDampFactor) :=
  inferInstanceAs (Decidable (_ ≤ _))

/-- The damage of a shot when it hits. -/
def resolveShotDamage (baseDamage : F) (dist : D) (optimal falloff tracking targetSignature
    targetSpeed : F) : F :=
  baseDamage * trackingFactor tracking targetSignature targetSpeed *
    falloffFactor dist optimal falloff

/-! ## A projectile -/

/-- The flight of a projectile in a part of a tick. -/
structure Flight (F : Type) where
  hit : Bool
  pos : UniversePos
  ttl : F

/-- Fly straight for a time. -/
def flyStraight (pos : UniversePos) (vel : Vec3 F) (time : F) : UniversePos where
  x := pos.x + lround (widen vel.x * widen time)
  y := pos.y + lround (widen vel.y * widen time)
  z := pos.z + lround (widen vel.z * widen time)

/-- The sub-steps that are left of a tick, the first of them the `i`-th. -/
def flySubSteps (vel : Vec3 F) (targetStart targetEnd : UniversePos) (subDt : F) (hitRadius : D)
    (subSteps : Nat) : Nat → Nat → UniversePos → F → Flight F
  | 0, _, pos, ttl => ⟨false, pos, ttl⟩
  | left + 1, i, pos, ttl =>
      let pos := flyStraight pos vel subDt
      let ttl := ttl - subDt
      let target := advance targetStart targetEnd (ofInt (i + 1) / ofInt subSteps : D)
      if (universeDistance pos target : D) ≤ hitRadius then ⟨true, pos, ttl⟩
      else if ttl ≤ 0 then ⟨false, pos, ttl⟩
      else flySubSteps vel targetStart targetEnd subDt hitRadius subSteps left (i + 1) pos ttl

/-- A tick of a projectile in sub-steps, so that it does not pass its target unseen. -/
def stepProjectile (pos : UniversePos) (vel : Vec3 F) (targetStart targetEnd : UniversePos)
    (ttl dt : F) (hitRadius : D) (subSteps : Nat) : Flight F :=
  let n := max 1 subSteps
  flySubSteps vel targetStart targetEnd (dt / ofInt n) hitRadius n n 0 pos ttl

end

end Shard

end EarthRise
