import EarthRise.Theory.Shard.Beacons
import EarthRise.Theory.Shard.Restore

/-!
# The Map After a Restart

What a restart leaves of the beacons and the nodes that were loaded before it.

A restart destroys whatever has a net id, and a load gives one to everything that it spawns.
What is made again is a base, a ship or an NPC for each one of the snapshot, and none of
these is a beacon or a node. The tables of the beacons are not touched, so a name still has
its net id; nobody has that id, or a unit of the snapshot. So a map outlives a restart only
when there is nothing of it (`map_survives_iff`), whatever is done to the universe between
the load and the restart and whatever the snapshot is.

## Main definitions

* `harvestable`, `loadedNodes`: The nodes of a load.
* `Survives`: What is asked of a map after a restart.

## Theorems

* `restored_plain`: Nothing that is restored is a beacon or a node.
* `find_restored_any`: What an id leads to is restored, for any snapshot.
* `loaded_harvestable`: Before the restart the nodes are there.
* `map_survives_iff`: Only an empty map survives.
-/

namespace EarthRise

namespace Shard

open Ecs (World EntityHandle)
open Universe (Vec3 UniversePos)

section

variable {F D : Type}

/-- An id that may be given as the node of a harvest order. -/
def ServerUniverse.harvestable (u : ServerUniverse F D) (n : UInt32) : Bool :=
  ((u.ents.find n).bind Components.resourceNode).isSome

/-! ## Insertions -/

/-- An id leads to what was inserted, or to what it led to. -/
theorem find_insertAny (l : List (Components F)) (e : Entities F) (he : e.world.Sound)
    (n : UInt32) (c : Components F) (hc : (l.foldl Entities.insert e).find n = some c) :
    c ∈ l ∨ e.find n = some c := by
  induction l generalizing e with
  | nil => exact Or.inr hc
  | cons a l ih =>
      rcases ih (e.insert a) (he.createEntity a) hc with hmem | hfind
      · exact Or.inl (List.mem_cons_of_mem a hmem)
      · rcases Entities.find_eq_some.mp hfind with ⟨h, hof, hget⟩
        have hget' := he.get_createEntity a h
        rw [show (e.insert a).world = (e.world.createEntity a).2 from rfl, hget'] at hget
        by_cases hnew : h = (e.world.createEntity a).1
        · rw [if_pos hnew, Option.some.injEq] at hget
          exact Or.inl (hget ▸ List.mem_cons_self)
        · -- An older handle is not the one that the new id leads to.
          rw [if_neg hnew] at hget
          rw [Entities.entityOf_insert] at hof
          split at hof
          · exact absurd (Option.some.inj hof).symm hnew
          · exact Or.inr (Entities.find_eq_some.mpr ⟨h, hof, hget⟩)

/-- Each spawn takes one id. -/
theorem counter_foldl {α : Type} {f : ServerUniverse F D → α → ServerUniverse F D}
    (hf : ∀ u a, (f u a).nextNetId = u.nextNetId + 1) (l : List α) (u : ServerUniverse F D) :
    (l.foldl f u).nextNetId = u.nextNetId + l.length := by
  induction l generalizing u with
  | nil => rfl
  | cons a l ih =>
      rw [List.foldl_cons, ih, hf, List.length_cons]
      omega

/-! ## More nodes -/

theorem mem_takenSince {u u' : ServerUniverse F D} {n : UInt32} : n ∈ u.takenSince u' ↔
    ∃ k, u.nextNetId ≤ k ∧ k < u'.nextNetId ∧ UInt32.ofNat k = n := by
  unfold ServerUniverse.takenSince
  rw [List.mem_map]
  constructor
  · rintro ⟨k, hk, hn⟩
    rw [List.mem_range'_1] at hk
    exact ⟨k, hk.1, by omega, hn⟩
  · rintro ⟨k, hle, hlt, hn⟩
    exact ⟨k, List.mem_range'_1.mpr ⟨hle, by omega⟩, hn⟩

/-- A universe and one with more nodes: the nodes there were, and one for each id since. -/
structure Seeds (u u' : ServerUniverse F D) : Prop where
  follows : Follows u u'
  keeps : u.Sound → u'.NoWrap → ∀ n, u.harvestable n = true → u'.harvestable n = true
  sown : u.Sound → u'.NoWrap → ∀ n ∈ u.takenSince u', u'.harvestable n = true

theorem Seeds.refl (u : ServerUniverse F D) : Seeds u u where
  follows := Follows.refl u
  keeps _ _ _ h := h
  sown _ _ n hn := by
    rcases mem_takenSince.mp hn with ⟨k, hle, hlt, _⟩
    omega

theorem Seeds.trans {u u' u'' : ServerUniverse F D} (h : Seeds u u') (h' : Seeds u' u'') :
    Seeds u u'' where
  follows := h.follows.trans h'.follows
  keeps hu hw n hn := by
    have hw' : u'.NoWrap := Nat.le_trans h'.follows.counter hw
    exact h'.keeps (h.follows.sound hu hw') hw n (h.keeps hu hw' n hn)
  sown hu hw n hn := by
    have hw' : u'.NoWrap := Nat.le_trans h'.follows.counter hw
    have hu' : u'.Sound := h.follows.sound hu hw'
    rcases mem_takenSince.mp hn with ⟨k, hle, hlt, hk⟩
    by_cases hkk : k < u'.nextNetId
    · exact h'.keeps hu' hw n (h.sown hu hw' n (mem_takenSince.mpr ⟨k, hle, hkk, hk⟩))
    · exact h'.sown hu' hw n (mem_takenSince.mpr ⟨k, by omega, hlt, hk⟩)

theorem seeds_foldl {α : Type} {f : ServerUniverse F D → α → ServerUniverse F D}
    (hf : ∀ u a, Seeds u (f u a)) (l : List α) (u : ServerUniverse F D) :
    Seeds u (l.foldl f u) := by
  induction l generalizing u with
  | nil => exact Seeds.refl u
  | cons a l ih => exact (hf u a).trans (ih (f u a))

end

section

variable {F D : Type} [Floating F] [Floating D] [Widens F D]

/-! ## The nodes of a load -/

/-- The ids that a load gives out after those of its beacons, one for each node. -/
def loadedNodes (u : ServerUniverse F D) (d : UniverseDataset F) : List UInt32 :=
  (u.loadUniverse { d with fields := [] }).takenSince (u.loadUniverse d)

/-- The map of a dataset after a restart: its beacons are alive and are found under their
    names, apart from the units of the snapshot, and its nodes can be harvested. -/
structure Survives (d : UniverseDataset F) (nodes : List UInt32) (s : PersistState F)
    (u : ServerUniverse F D) : Prop where
  beacons : ∀ b ∈ d.beacons, ∃ c, u.ents.find (u.beaconNetId b.name) = some c ∧
    c.shapeId.kind = .structure' ∧ c.beaconTag.isSome = true ∧ c.transform.pos = b.pos
  apart : ∀ b ∈ d.beacons, u.beaconNetId b.name ∉ s.ids
  nodes : ∀ n ∈ nodes, u.harvestable n = true

/-! ## What is restored -/

omit [Floating D] [Widens F D] in
/-- Nothing that is restored is a beacon or a node. -/
theorem restored_plain (v : ServerUniverse F D) (s : PersistState F) :
    ∀ c ∈ v.restored s, c.beaconTag = none ∧ c.resourceNode = none := by
  refine forall_restored (fun b _ => ?_) (fun sh _ => ?_) fun n _ => ?_
  all_goals
    exact installFitGetD_induct (P := fun c => c.beaconTag = none ∧ c.resourceNode = none)
      ⟨rfl, rfl⟩ (fun _ _ => ⟨rfl, rfl⟩) _

omit [Widens F D] in
/-- What an id leads to after a restart was restored, also where a snapshot has an id twice. -/
theorem find_restored_any (v : ServerUniverse F D) (hv : v.ents.world.Sound)
    (order : List EntityHandle) (s : PersistState F) (n : UInt32) (c : Components F)
    (hc : (v.restoreState order s).ents.find n = some c) : c ∈ v.restored s := by
  have hwipe : (ServerUniverse.wipe v.ents order).world.Sound := destroyAll_sound order hv
  refine (find_insertAny _ _ hwipe n c hc).resolve_right ?_
  rw [wipe_find]
  exact fun h => absurd h nofun

/-! ## What a load spawns -/

omit [Floating D] [Widens F D] in
theorem spawnResourceNode_seeds (u : ServerUniverse F D) (type : ResourceType) (yield : F)
    (pos : UniversePos) : Seeds u (u.spawnResourceNode type yield pos) := by
  have hfind : u.Sound → ∀ n, (u.spawnResourceNode type yield pos).harvestable n =
      if n = u.nextId then true else u.harvestable n := by
    intro hu n
    unfold ServerUniverse.harvestable ServerUniverse.spawnResourceNode ServerUniverse.spawn
    simp only [hu.ents.find_insert, Components.bare]
    split <;> rfl
  refine ⟨spawnResourceNode_follows u type yield pos, fun hu _ n hn => ?_, fun hu _ n hn => ?_⟩
  · rw [hfind hu, hn, ite_self]
  · rcases mem_takenSince.mp hn with ⟨k, hle, hlt, hk⟩
    have hnext : (u.spawnResourceNode type yield pos).nextNetId = u.nextNetId + 1 := rfl
    have hkk : k = u.nextNetId := by omega
    rw [hfind hu, if_pos (by rw [← hk, hkk]; rfl)]

theorem spawnField_seeds (u : ServerUniverse F D) (f : ResourceFieldDef F) :
    Seeds u (u.spawnField f) := by
  unfold ServerUniverse.spawnField
  exact seeds_foldl (fun v _ => spawnResourceNode_seeds v _ _ _) _ u

/-- A field has a node at least. -/
theorem spawnField_counter (u : ServerUniverse F D) (f : ResourceFieldDef F) :
    u.nextNetId < (u.spawnField f).nextNetId := by
  unfold ServerUniverse.spawnField
  refine Nat.lt_of_lt_of_eq ?_ (counter_foldl (fun _ _ => rfl) _ u).symm
  simp

/-- A load spawns its beacons and then the nodes of its fields. -/
theorem loadUniverse_split (u : ServerUniverse F D) (d : UniverseDataset F) :
    ∃ v, u.loadUniverse d = d.fields.foldl ServerUniverse.spawnField v ∧ Follows u v ∧
      v.nextNetId = (u.loadUniverse { d with fields := [] }).nextNetId := by
  have hset : Follows u { u with dataset := d, nav := d.nav, economy := d.economy } :=
    follows_of_eq rfl rfl
  have hcounter := counter_foldl
    (f := fun (u : ServerUniverse F D) (b : BeaconDef × Nat) =>
      u.spawnBeacon (UInt16.ofNat b.2) b.1) (fun _ _ => rfl)
  refine ⟨_, rfl, hset.trans (follows_foldl
    (fun v (b : BeaconDef × Nat) => spawnBeacon_follows v (UInt16.ofNat b.2) b.1) _ _), ?_⟩
  exact (hcounter _ _).trans (hcounter _
    { u with dataset := { d with fields := [] }, nav := d.nav, economy := d.economy }).symm

/-- The nodes of a load can be harvested when it is done. -/
theorem loaded_harvestable (u : ServerUniverse F D) (hu : u.Sound) (d : UniverseDataset F)
    (hw : (u.loadUniverse d).NoWrap) :
    ∀ n ∈ loadedNodes u d, (u.loadUniverse d).harvestable n = true := by
  intro n hn
  rcases loadUniverse_split u d with ⟨v, hload, hfollows, hcounter⟩
  have hseeds : Seeds v (u.loadUniverse d) := hload ▸ seeds_foldl spawnField_seeds d.fields v
  have hsound : v.Sound := hfollows.sound hu (Nat.le_trans hseeds.follows.counter hw)
  refine hseeds.sown hsound hw n (mem_takenSince.mpr ?_)
  rcases mem_takenSince.mp hn with ⟨k, hle, hlt, hk⟩
  exact ⟨k, hcounter ▸ hle, hlt, hk⟩

/-- A load without nodes is one without fields. -/
theorem loadedNodes_eq_nil (u : ServerUniverse F D) (d : UniverseDataset F) :
    (∀ n, n ∉ loadedNodes u d) ↔ d.fields = [] := by
  rcases loadUniverse_split u d with ⟨v, hload, _, hcounter⟩
  constructor
  · intro hnone
    cases hfields : d.fields with
    | nil => rfl
    | cons f fields =>
        -- The first field takes the id after those of the beacons.
        have hfirst := spawnField_counter v f
        have hrest := (seeds_foldl spawnField_seeds fields (v.spawnField f)).follows.counter
        rw [hfields, List.foldl_cons] at hload
        refine absurd (mem_takenSince.mpr ⟨v.nextNetId, hcounter.ge, ?_, rfl⟩) (hnone _)
        rw [hload]
        exact Nat.lt_of_lt_of_le hfirst hrest
  · intro hfields n hn
    rcases mem_takenSince.mp hn with ⟨k, hle, hlt, _⟩
    rw [hload, hfields, List.foldl_nil, hcounter] at hlt
    omega

/-! ## The map after a restart -/

/-- A map survives a restart when there is nothing of it, whatever was done in between. -/
theorem map_survives_iff {u : ServerUniverse F D} (hu : u.Reachable) (d : UniverseDataset F)
    (ops : List (Op F)) (hw : (ops.foldl ServerUniverse.apply (u.loadUniverse d)).NoWrap)
    (order : List EntityHandle) (s : PersistState F) :
    Survives d (loadedNodes u d) s
      ((ops.foldl ServerUniverse.apply (u.loadUniverse d)).restoreState order s) ↔
        d.beacons = [] ∧ d.fields = [] := by
  have hload : (u.apply (.loadUniverse d)).Reachable :=
    hu.apply (.loadUniverse d) (Nat.le_trans (applyAll_counter ops _) hw)
  have hsound := (reachable_applyAll hload ops hw).sound.ents.world
  constructor
  · intro h
    constructor
    · cases hbeacons : d.beacons with
      | nil => rfl
      | cons b _ =>
          rcases h.beacons b (hbeacons ▸ List.mem_cons_self) with ⟨c, hc, _, htag, _⟩
          have hplain := restored_plain _ s c (find_restored_any _ hsound order s _ c hc)
          rw [hplain.1] at htag
          exact absurd htag Bool.false_ne_true
    · refine (loadedNodes_eq_nil u d).mp fun n hn => ?_
      have hnode := h.nodes n hn
      unfold ServerUniverse.harvestable at hnode
      rcases Option.isSome_iff_exists.mp hnode with ⟨r, hr⟩
      rcases Option.bind_eq_some_iff.mp hr with ⟨c, hc, hr⟩
      have hplain := restored_plain _ s c (find_restored_any _ hsound order s n c hc)
      rw [hplain.2] at hr
      exact absurd hr nofun
  · rintro ⟨hbeacons, hfields⟩
    refine ⟨fun b hb => ?_, fun b hb => ?_, fun n hn => ?_⟩
    · exact absurd (hbeacons ▸ hb) List.not_mem_nil
    · exact absurd (hbeacons ▸ hb) List.not_mem_nil
    · exact absurd hn ((loadedNodes_eq_nil u d).mpr hfields n)

/-- A fresh universe with one beacon, and the snapshot of one with a base. -/
def lonelyMap : ServerUniverse Float32 Float := ServerUniverse.fresh.loadUniverse loneBeacon

def lonelyBase : PersistState Float32 :=
  ((ServerUniverse.fresh : ServerUniverse Float32 Float).spawnBase ⟨0, 0, 0⟩
    ⟨0, 0, 0⟩).captureState

/-- The name of the beacon has the id of the base after the restart. -/
theorem beacon_becomes_base :
    let u := lonelyMap.restoreState lonelyMap.handles lonelyBase
    (u.ents.find (u.beaconNetId "X")).map Components.baseTag = some true ∧
      u.beaconNetId "X" ∈ lonelyBase.ids ∧
      ¬ Survives loneBeacon (loadedNodes (.fresh : ServerUniverse Float32 Float) loneBeacon)
        lonelyBase u := by
  have hbase : ((lonelyMap.restoreState lonelyMap.handles lonelyBase).ents.find
      ((lonelyMap.restoreState lonelyMap.handles lonelyBase).beaconNetId "X")).map
        Components.baseTag = some true := by decide +kernel
  have hid : (lonelyMap.restoreState lonelyMap.handles lonelyBase).beaconNetId "X" ∈
      lonelyBase.ids := by decide +kernel
  exact ⟨hbase, hid, fun h => h.apart _ List.mem_cons_self hid⟩

theorem map_survives_lonely :
    ¬ Survives loneBeacon (loadedNodes (.fresh : ServerUniverse Float32 Float) loneBeacon)
      lonelyBase (lonelyMap.restoreState lonelyMap.handles lonelyBase) := by
  intro h
  have hnone := (map_survives_iff .fresh loneBeacon [] (by decide +kernel) lonelyMap.handles
    lonelyBase).mp h
  exact absurd hnone.1 (List.cons_ne_nil _ _)

end

end Shard

end EarthRise
