import EarthRise.Core.Components

/-!
# The Economy

Mining, unloading and building.

A build is paid from the storage of its base when it first advances; where the storage
does not hold the cost by then, the build is dropped.

## Main definitions

* `harvestStep`, `depositAll`: From a node to a ship, and from a ship to a base.
* `canAfford`, `pay`, `buildStep`: Building.
-/

namespace EarthRise

namespace Shard

/-- The balance of the economy. -/
structure EconomyTuning (F : Type) where
  fleetCap : UInt16
  cargoCapacity : F
  storageCapacity : F
  harvestRate : F
  sensorRangeShip : F
  sensorRangeBase : F
  buildOreCost : F
  buildIceCost : F
  buildSeconds : F
  buildShipType : UInt8
  harvesterSpeed : F
  harvestRange : F
  deriving DecidableEq

def EconomyTuning.default {F : Type} [Floating F] : EconomyTuning F where
  fleetCap := 8
  cargoCapacity := 1000.0
  storageCapacity := 50000.0
  harvestRate := 50.0
  sensorRangeShip := 5000.0
  sensorRangeBase := 12000.0
  buildOreCost := 500.0
  buildIceCost := 200.0
  buildSeconds := 20.0
  buildShipType := 1
  harvesterSpeed := 800.0
  harvestRange := 600.0

inductive BuildResult
  | idle
  | inProgress
  | completed
  | insufficient
  deriving DecidableEq, Repr

section

variable {F : Type} [Floating F]

/-! ## Harvest -/

def sumSlots (a : Amounts F) : F := 0 + a.ore + a.ice + a.gas

/-- The room that is left in a hold. -/
def Hold.free (h : Hold F) : F :=
  let f := h.capacity - sumSlots h.amount
  if 0 < f then f else 0

/-- Mine for a while, within what the node has and the hold takes. -/
def harvestStep (node : ResourceNodeTag F) (cargo : Hold F) (rate dt : F) :
    F × ResourceNodeTag F × Hold F :=
  let want := fmin (fmin (rate * dt) node.remaining) cargo.free
  if want ≤ 0 then (0, node, cargo)
  else
    (want, { node with remaining := node.remaining - want },
      { cargo with amount := cargo.amount.set node.type (cargo.amount.get node.type + want) })

/-- Unload the resources one after the other, until there is no room. -/
def depositEach : List ResourceType → F → Hold F → Hold F → F × Hold F × Hold F
  | [], moved, cargo, storage => (moved, cargo, storage)
  | r :: rest, moved, cargo, storage =>
      let room := storage.free
      if room ≤ 0 then (moved, cargo, storage)
      else
        let take := fmin (cargo.amount.get r) room
        depositEach rest (moved + take)
          { cargo with amount := cargo.amount.set r (cargo.amount.get r - take) }
          { storage with amount := storage.amount.set r (storage.amount.get r + take) }

def depositAll (cargo storage : Hold F) : F × Hold F × Hold F :=
  depositEach ResourceType.all 0 cargo storage

/-! ## Build -/

/-- The storage holds the cost of a ship. -/
def canAfford (s : Hold F) (e : EconomyTuning F) : Prop :=
  e.buildOreCost ≤ s.amount.ore ∧ e.buildIceCost ≤ s.amount.ice

instance (s : Hold F) (e : EconomyTuning F) : Decidable (canAfford s e) :=
  inferInstanceAs (Decidable (_ ∧ _))

/-- Take the cost of a ship out of a storage. -/
def pay (s : Hold F) (e : EconomyTuning F) : Hold F :=
  { s with
    amount := { s.amount with
      ore := s.amount.ore - e.buildOreCost, ice := s.amount.ice - e.buildIceCost } }

/-- Go on with a build that is paid. -/
def buildOn (q : BuildQueue F) (e : EconomyTuning F) (dt : F) : BuildResult × BuildQueue F :=
  let progress := q.progress + dt
  if e.buildSeconds ≤ progress then
    (.completed, { q with active := false, paid := false, progress := 0 })
  else (.inProgress, { q with progress := progress })

/-- One step of a build queue. -/
def buildStep (q : BuildQueue F) (s : Hold F) (e : EconomyTuning F) (dt : F) :
    BuildResult × BuildQueue F × Hold F :=
  if q.active = false then (.idle, q, s)
  else if q.paid then
    let r := buildOn q e dt
    (r.1, r.2, s)
  else if canAfford s e then
    let r := buildOn { q with paid := true } e dt
    (r.1, r.2, pay s e)
  else (.insufficient, { q with active := false }, s)

end

end Shard

end EarthRise
