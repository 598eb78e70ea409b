import EarthRise.Core.CombatCatalog
import EarthRise.Theory.Serde
import EarthRise.Theory.UniverseData

/-!
# Cooked Data That Does Not Fit

A dataset and a catalog are read back from their bytes exactly when their texts and lists fit
the counts of the format.

Every count is cast to its width when it is written, and nothing else happens to one that is
too large. The way back is closed by the reader alone: whatever it returns fits, since its
counts have no more bits, so a value that does not fit is never what is read. Nor does
reading have to fail. What a truncated count leaves in the buffer is read as the fields that
follow it, and the end of the buffer is not checked, so there is an accepted dataset whose
bytes are read as another one (`nodes_lost`). The checks of a dataset know none of these
widths.

## Main definitions

* `UniverseDataset.Fits`, `CombatCatalog.Fits`: The widths of the formats.

## Theorems

* `codes_writeUniverseDataset`, `codes_writeCombatCatalog`: What fits is read back.
* `returns_readUniverseDataset`, `returns_readCombatCatalog`: What is read fits.
* `cooked_read_back_iff`: Both together.
* `nodes_lost`: A dataset that is read as another one.
-/

namespace EarthRise

namespace Cooked

open Codec Serde
open Shard (Resists ResistProfile NavTuning EconomyTuning)

/-! ## The widths -/

structure BeaconDef.Fits (b : BeaconDef) : Prop where
  name : b.name.length ≤ 65535
  region : b.region.length ≤ 65535
  links : b.links.length ≤ 65535 ∧ ∀ l ∈ b.links, l.length ≤ 65535

structure ResourceFieldDef.Fits {F : Type} (f : ResourceFieldDef F) : Prop where
  name : f.name.length ≤ 65535
  region : f.region.length ≤ 65535
  nodes : f.nodes.length ≤ 255

/-- The counts of a dataset have the bits that they are written with. -/
structure UniverseDataset.Fits {F : Type} (d : UniverseDataset F) : Prop where
  regions : d.regions.length ≤ 65535 ∧ ∀ r ∈ d.regions, r.name.length ≤ 65535
  beacons : d.beacons.length ≤ 65535 ∧ ∀ b ∈ d.beacons, b.Fits
  fields : d.fields.length ≤ 65535 ∧ ∀ f ∈ d.fields, f.Fits

structure FitTemplate.Fits (f : FitTemplate) : Prop where
  name : f.name.length ≤ 65535
  hull : f.hull.length ≤ 65535
  modules : f.modules.length ≤ 65535 ∧ ∀ m ∈ f.modules, m.length ≤ 65535

/-- The counts of a catalog have the bits that they are written with. -/
structure CombatCatalog.Fits {F : Type} (c : CombatCatalog F) : Prop where
  hulls : c.hulls.length ≤ 65535 ∧ ∀ h ∈ c.hulls, h.code.length ≤ 65535
  modules : c.modules.length ≤ 65535 ∧ ∀ m ∈ c.modules, m.code.length ≤ 65535
  fits : c.fits.length ≤ 65535 ∧ ∀ f ∈ c.fits, f.Fits

section

variable {F : Type} [FloatBits F]

/-! ## What fits is read back -/

theorem codes_writeRegion (r : RegionDef F) (h : r.name.length ≤ 65535) :
    Codes buffer (writeRegion r) readRegion r :=
  (codes_writeStr r.name h).bind <| (codes_writeUint8 r.security).bind <|
    (codes_writeInt64 r.bounds.x0).bind <| (codes_writeInt64 r.bounds.x1).bind <|
    (codes_writeInt64 r.bounds.y0).bind <| (codes_writeInt64 r.bounds.y1).bind <|
    (codes_writeInt64 r.bounds.z0).bind <| (codes_writeInt64 r.bounds.z1).bind <|
    (codes_writeFloat r.yieldMult).last

theorem codes_writeBeacon (b : BeaconDef) (h : b.Fits) :
    Codes buffer (writeBeacon b) readBeacon b :=
  (codes_writeStr b.name h.name).bind <| (codes_writeStr b.region h.region).bind <|
    (codes_writePos b.pos).bind <| (codes_writeUint8 b.kind).bind <|
    (codes_writeList16 b.links h.links.1 fun l hl => codes_writeStr l (h.links.2 l hl)).last

theorem codes_writeWeight (n : ResourceWeight F) : Codes buffer (writeWeight n) readWeight n :=
  (codes_writeUint8 n.type).bind <| (codes_writeFloat n.weight).last

theorem codes_writeField (f : ResourceFieldDef F) (h : f.Fits) :
    Codes buffer (writeField f) readField f :=
  (codes_writeStr f.name h.name).bind <| (codes_writeStr f.region h.region).bind <|
    (codes_writePos f.center).bind <| (codes_writeFloat f.radius).bind <|
    (codes_writeList8 f.nodes h.nodes fun n _ => codes_writeWeight n).bind <|
    (codes_writeUint16 f.countMin).bind <| (codes_writeUint16 f.countMax).bind <|
    (codes_writeInt32 f.yieldMin).bind <| (codes_writeInt32 f.yieldMax).bind <|
    (codes_writeUint32 f.respawnSeconds).last

theorem codes_writeNav (n : NavTuning F) : Codes buffer (writeNav n) readNav n :=
  (codes_writeFloat n.warpSpeedShip).bind <| (codes_writeFloat n.warpSpeedBase).bind <|
    (codes_writeFloat n.warpAlignSeconds).bind <| (codes_writeFloat n.jumpFuelShip).bind <|
    (codes_writeFloat n.jumpFuelBase).bind <| (codes_writeFloat n.jumpSpoolShip).bind <|
    (codes_writeFloat n.jumpSpoolBase).bind <| (codes_writeFloat n.jumpCooldownSeconds).bind <|
    (codes_writeFloat n.beaconUseRange).bind <| (codes_writeFloat n.shipFuelMax).bind <|
    (codes_writeFloat n.baseFuelMax).last

theorem codes_writeEconomy (e : EconomyTuning F) :
    Codes buffer (writeEconomy e) readEconomy e :=
  (codes_writeUint16 e.fleetCap).bind <| (codes_writeFloat e.cargoCapacity).bind <|
    (codes_writeFloat e.storageCapacity).bind <| (codes_writeFloat e.harvestRate).bind <|
    (codes_writeFloat e.sensorRangeShip).bind <| (codes_writeFloat e.sensorRangeBase).bind <|
    (codes_writeFloat e.buildOreCost).bind <| (codes_writeFloat e.buildIceCost).bind <|
    (codes_writeFloat e.buildSeconds).bind <| (codes_writeUint8 e.buildShipType).bind <|
    (codes_writeFloat e.harvesterSpeed).bind <| (codes_writeFloat e.harvestRange).last

theorem codes_writeUniverseDataset (d : UniverseDataset F) (h : d.Fits) :
    Codes buffer (writeUniverseDataset d) readUniverseDataset d :=
  (codes_writeList16 d.regions h.regions.1 fun r hr => codes_writeRegion r (h.regions.2 r hr)).bind
    <| (codes_writeList16 d.beacons h.beacons.1 fun b hb => codes_writeBeacon b
      (h.beacons.2 b hb)).bind <|
    (codes_writeList16 d.fields h.fields.1 fun f hf => codes_writeField f
      (h.fields.2 f hf)).bind <|
    (codes_writeNav d.nav).bind <| (codes_writeEconomy d.economy).last

theorem codes_writeLayerResists (r : Resists F) :
    Codes buffer (writeLayerResists r) readLayerResists r :=
  (codes_writeFloat r.kinetic).bind <| (codes_writeFloat r.thermal).bind <|
    (codes_writeFloat r.em).last

theorem codes_writeResists (p : ResistProfile F) : Codes buffer (writeResists p) readResists p :=
  (codes_writeLayerResists p.shield).bind <| (codes_writeLayerResists p.armor).bind <|
    (codes_writeLayerResists p.hull).last

theorem codes_writeHull (h : HullClass F) (hfit : h.code.length ≤ 65535) :
    Codes buffer (writeHull h) readHull h :=
  (codes_writeStr h.code hfit).bind <| (codes_writeUint8 h.size).bind <|
    (codes_writeUint8 h.tier).bind <| (codes_writeUint8 h.slots.high).bind <|
    (codes_writeUint8 h.slots.mid).bind <| (codes_writeUint8 h.slots.low).bind <|
    (codes_writeFloat h.pgMax).bind <| (codes_writeFloat h.cpuMax).bind <|
    (codes_writeFloat h.mass).bind <| (codes_writeFloat h.signature).bind <|
    (codes_writeFloat h.maxSpeed).bind <| (codes_writeInt32 h.shieldHp).bind <|
    (codes_writeInt32 h.armorHp).bind <| (codes_writeInt32 h.hullHp).bind <|
    (codes_writeFloat h.shieldRegenPerSec).bind <| (codes_writeResists h.resists).last

theorem codes_writeModule (m : ModuleDef F) (h : m.code.length ≤ 65535) :
    Codes buffer (writeModule m) readModule m :=
  (codes_writeStr m.code h).bind <| (codes_writeUint8 m.kind).bind <|
    (codes_writeUint8 m.slot).bind <| (codes_writeUint8 m.tier).bind <|
    (codes_writeFloat m.pgCost).bind <| (codes_writeFloat m.cpuCost).bind <|
    (codes_writeUint8 m.damageType).bind <| (codes_writeFloat m.baseDamage).bind <|
    (codes_writeFloat m.rateOfFire).bind <| (codes_writeFloat m.optimal).bind <|
    (codes_writeFloat m.falloff).bind <| (codes_writeFloat m.tracking).bind <|
    (codes_writeFloat m.projectileSpeed).bind <| (codes_writeUint8 m.effectLayer).bind <|
    (codes_writeFloat m.strength).bind <| (codes_writeFloat m.duration).bind <|
    (codes_writeFloat m.range).last

theorem codes_writeFit (f : FitTemplate) (h : f.Fits) : Codes buffer (writeFit f) readFit f :=
  (codes_writeStr f.name h.name).bind <| (codes_writeStr f.hull h.hull).bind <|
    (codes_writeList16 f.modules h.modules.1 fun m hm => codes_writeStr m
      (h.modules.2 m hm)).last

theorem codes_writeCombatCatalog (c : CombatCatalog F) (h : c.Fits) :
    Codes buffer (writeCombatCatalog c) readCombatCatalog c :=
  (codes_writeList16 c.hulls h.hulls.1 fun hu hhu => codes_writeHull hu (h.hulls.2 hu hhu)).bind <|
    (codes_writeList16 c.modules h.modules.1 fun m hm => codes_writeModule m
      (h.modules.2 m hm)).bind <|
    (codes_writeList16 c.fits h.fits.1 fun f hf => codes_writeFit f (h.fits.2 f hf)).last

/-! ## What is read fits -/

theorem returns_readRegion :
    Returns (fun r : RegionDef F => r.name.length ≤ 65535) readRegion :=
  returns_readStr.bind fun _ hname => returns_then fun _ => returns_then fun _ =>
    returns_then fun _ => returns_then fun _ => returns_then fun _ => returns_then fun _ =>
    returns_then fun _ => returns_then fun _ => returns_pure hname

theorem returns_readBeacon : Returns BeaconDef.Fits readBeacon :=
  returns_readStr.bind fun _ hname => returns_readStr.bind fun _ hregion =>
    returns_then fun _ => returns_then fun _ => (returns_readList16 returns_readStr).bind
    fun _ hlinks => returns_pure ⟨hname, hregion, hlinks⟩

theorem returns_readField : Returns (ResourceFieldDef.Fits (F := F)) readField :=
  returns_readStr.bind fun _ hname => returns_readStr.bind fun _ hregion =>
    returns_then fun _ => returns_then fun _ =>
    (returns_readList8 (returns_any readWeight)).bind fun _ hnodes =>
    returns_then fun _ => returns_then fun _ => returns_then fun _ => returns_then fun _ =>
    returns_then fun _ => returns_pure ⟨hname, hregion, hnodes.1⟩

theorem returns_readUniverseDataset :
    Returns (UniverseDataset.Fits (F := F)) readUniverseDataset :=
  (returns_readList16 returns_readRegion).bind fun _ hregions =>
    (returns_readList16 returns_readBeacon).bind fun _ hbeacons =>
    (returns_readList16 returns_readField).bind fun _ hfields =>
    returns_then fun _ => returns_then fun _ => returns_pure ⟨hregions, hbeacons, hfields⟩

theorem returns_readHull : Returns (fun h : HullClass F => h.code.length ≤ 65535) readHull :=
  returns_readStr.bind fun _ hcode => returns_then fun _ => returns_then fun _ =>
    returns_then fun _ => returns_then fun _ => returns_then fun _ => returns_then fun _ =>
    returns_then fun _ => returns_then fun _ => returns_then fun _ => returns_then fun _ =>
    returns_then fun _ => returns_then fun _ => returns_then fun _ => returns_then fun _ =>
    returns_then fun _ => returns_pure hcode

theorem returns_readModule : Returns (fun m : ModuleDef F => m.code.length ≤ 65535) readModule :=
  returns_readStr.bind fun _ hcode => returns_then fun _ => returns_then fun _ =>
    returns_then fun _ => returns_then fun _ => returns_then fun _ => returns_then fun _ =>
    returns_then fun _ => returns_then fun _ => returns_then fun _ => returns_then fun _ =>
    returns_then fun _ => returns_then fun _ => returns_then fun _ => returns_then fun _ =>
    returns_then fun _ => returns_then fun _ => returns_pure hcode

theorem returns_readFit : Returns FitTemplate.Fits readFit :=
  returns_readStr.bind fun _ hname => returns_readStr.bind fun _ hhull =>
    (returns_readList16 returns_readStr).bind fun _ hmodules =>
    returns_pure ⟨hname, hhull, hmodules⟩

theorem returns_readCombatCatalog : Returns (CombatCatalog.Fits (F := F)) readCombatCatalog :=
  (returns_readList16 returns_readHull).bind fun _ hhulls =>
    (returns_readList16 returns_readModule).bind fun _ hmodules =>
    (returns_readList16 returns_readFit).bind fun _ hfits =>
    returns_pure ⟨hhulls, hmodules, hfits⟩

/-- A dataset and a catalog are read back from their bytes when their counts fit, and else
    they are not. -/
theorem cooked_read_back_iff :
    (∀ d : UniverseDataset F,
      decodeUniverseDataset (encodeUniverseDataset d) = some d ↔ d.Fits) ∧
    ∀ c : CombatCatalog F, decodeCombatCatalog (encodeCombatCatalog c) = some c ↔ c.Fits := by
  refine ⟨fun d => ⟨fun h => ?_, fun h => ?_⟩, fun c => ⟨fun h => ?_, fun h => ?_⟩⟩
  · exact decode_returns returns_readUniverseDataset h
  · exact decode_encode (codes_writeUniverseDataset d h)
  · exact decode_returns returns_readCombatCatalog h
  · exact decode_encode (codes_writeCombatCatalog c h)

end

/-! ## Too many nodes -/

/-- A field with more nodes than a count of eight bits has. -/
def crowded : ResourceFieldDef Float32 where
  name := [66]
  region := [65]
  center := ⟨0, 0, 0⟩
  radius := 1
  nodes := List.replicate 256 ⟨0, 0.00390625⟩
  countMin := 1
  countMax := 1
  yieldMin := 1
  yieldMax := 1
  respawnSeconds := 1

/-- A dataset with that field alone. -/
def manyNodes : UniverseDataset Float32 where
  regions := [⟨[65], 1, ⟨0, 1, 0, 1, 0, 1⟩, 1⟩]
  beacons := []
  fields := [crowded]
  nav := .default
  economy := .default

section

variable {F : Type} [FloatBits F]

theorem putsLength_writeWeight (n : ResourceWeight F) : PutsLength buffer (writeWeight n) 5 :=
  (putsLength_writeUint8 n.type).bind (putsLength_writeFloat n.weight)

theorem takesLength_readNav : TakesLength buffer (readNav : ReadM (Shard.NavTuning F)) 44 :=
  takesLength_readFloat.bind fun _ => takesLength_readFloat.bind fun _ =>
    takesLength_readFloat.bind fun _ => takesLength_readFloat.bind fun _ =>
    takesLength_readFloat.bind fun _ => takesLength_readFloat.bind fun _ =>
    takesLength_readFloat.bind fun _ => takesLength_readFloat.bind fun _ =>
    takesLength_readFloat.bind fun _ => takesLength_readFloat.bind fun _ =>
    takesLength_readFloat.bind fun _ => takesLength_pure _

theorem takesLength_readEconomy :
    TakesLength buffer (readEconomy : ReadM (Shard.EconomyTuning F)) 43 :=
  takesLength_readUint16.bind fun _ => takesLength_readFloat.bind fun _ =>
    takesLength_readFloat.bind fun _ => takesLength_readFloat.bind fun _ =>
    takesLength_readFloat.bind fun _ => takesLength_readFloat.bind fun _ =>
    takesLength_readFloat.bind fun _ => takesLength_readFloat.bind fun _ =>
    takesLength_readFloat.bind fun _ => takesLength_readUint8.bind fun _ =>
    takesLength_readFloat.bind fun _ => takesLength_readFloat.bind fun _ => takesLength_pure _

end

/-- The nodes are written behind a count of zero, and the fields that follow are read from
    them. -/
theorem feeds_manyNodes : Feeds buffer (writeUniverseDataset manyNodes)
    (readUniverseDataset : ReadM (UniverseDataset Float32)) := by
  unfold writeUniverseDataset readUniverseDataset
  refine Codes.feeds (codes_writeList16 manyNodes.regions (by decide) fun r hr =>
    codes_writeRegion r ?_) (Codes.feeds (codes_writeList16 manyNodes.beacons (by decide)
    fun b hb => codes_writeBeacon b ?_) ?_)
  · decide +revert
  · exact absurd hb List.not_mem_nil
  have hone : manyNodes.fields.forM writeField =
      (writeField crowded >>= fun _ => pure PUnit.unit) := by
    unfold manyNodes
    exact List.forM_cons
  have htimes : readTimes (readField : ReadM (ResourceFieldDef Float32)) (1 : UInt16).toNat =
      (readField >>= fun a => pure [a]) := rfl
  unfold writeList16 readList16
  rw [bind_assoc, bind_assoc]
  refine (codes_writeUint16 1).feeds ?_
  rw [hone, htimes]
  -- The field of the nodes, up to their count.
  unfold writeField readField
  simp only [bind_assoc, pure_bind]
  refine (codes_writeStr _ (by decide)).feeds <| (codes_writeStr _ (by decide)).feeds <|
    (codes_writePos _).feeds <| (codes_writeFloat _).feeds ?_
  unfold writeList8 readList8
  simp only [bind_assoc]
  refine (codes_writeUint8 _).feeds ?_
  have hzero : (UInt8.ofNat crowded.nodes.length).toNat = 0 := by
    unfold crowded
    rw [List.length_replicate]
    decide
  have hnodes := putsLength_forM putsLength_writeWeight crowded.nodes
  have hlen : crowded.nodes.length = 256 := List.length_replicate
  rw [hlen] at hnodes
  rw [hzero]
  have hrest := hnodes.bind <|
    (codes_writeUint16 crowded.countMin).puts.bind <|
    (codes_writeUint16 crowded.countMax).puts.bind <|
    (codes_writeInt32 crowded.yieldMin).puts.bind <|
    (codes_writeInt32 crowded.yieldMax).puts.bind <|
    (codes_writeUint32 crowded.respawnSeconds).puts.bind <|
    (codes_writeNav manyNodes.nav).puts.bind (codes_writeEconomy manyNodes.economy).puts
  refine hrest.feeds (n := 0 + 103) ?_ (by decide)
  exact (takesLength_pure []).bind fun _ => takesLength_readUint16.bind fun _ =>
    takesLength_readUint16.bind fun _ => takesLength_readInt32.bind fun _ =>
    takesLength_readInt32.bind fun _ => takesLength_readUint32.bind fun _ =>
    takesLength_readNav.bind fun _ => takesLength_readEconomy.bind fun _ => takesLength_pure _

/-- An accepted dataset that is read as another one. -/
theorem nodes_lost : validateUniverseDataset manyNodes = [] ∧
    ∃ d, decodeUniverseDataset (encodeUniverseDataset manyNodes) = some d ∧ d ≠ manyNodes := by
  refine ⟨by decide +kernel, ?_⟩
  rcases decode_feeds feeds_manyNodes with ⟨d, hd⟩
  refine ⟨d, hd, fun heq => ?_⟩
  have hfits : d.Fits := decode_returns returns_readUniverseDataset hd
  have hnodes := (heq ▸ hfits).fields.2 crowded List.mem_cons_self
  have hlen : crowded.nodes.length = 256 := List.length_replicate
  exact absurd hnodes.nodes (by omega)

end Cooked

end EarthRise
