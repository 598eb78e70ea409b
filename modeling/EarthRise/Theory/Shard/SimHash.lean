import EarthRise.Theory.Shard.Bases

/-!
# What the Hash of a Universe Depends On

The hash is that of the entities, not of the slots that they are in.

In a sound universe the entity that a net id leads to is the one in the slot, so what is
looked up under the id of an entity is its own. The rows are then those of the entities, and
since their ids differ there is one way to sort them. What the slots went through before,
which of them are free and how often they were used has no part in it.

Ids differ as long as the counter of net ids has not come round. When it has, an id is given
to a second entity, and the first one is not looked up any more: its hit points are hashed as
zero from then on, even when the second is gone and the ids differ again
(`hash_of_lost_base`).

## Main definitions

* `Components.row`: The row of an entity by its own parts.
* `liveIds`, `liveRows`: The ids and the rows of all that is alive.

## Theorems

* `Sound.simRow`: What is looked up is the entity's own.
* `sort_rows`: Rows with different ids are sorted in one way.
* `simHash_regardless`: Equal rows give an equal hash.
-/

namespace EarthRise

namespace Shard

section

variable {F D : Type} [Floating F] [Floating D] [Widens F D] {u v : ServerUniverse F D}

/-- The row of an entity by its own parts. -/
def Components.row (c : Components F) : Row where
  netId := c.netId
  pos := c.transform.pos
  hp := c.health.elim 0 Health.hp
  kind := c.shapeId.kind
  phase := c.navState.elim 0 fun n => n.phase.toByte
  fuelBits := c.fuel.elim 0 fun f => Widens.bits f.current

/-- The net ids of all that is alive. -/
def ServerUniverse.liveIds (u : ServerUniverse F D) : List UInt32 :=
  u.ents.world.alive.map Components.netId

/-- The rows of all that is alive. -/
def ServerUniverse.liveRows (u : ServerUniverse F D) : List Row :=
  u.ents.world.alive.map Components.row

omit [Floating F] [Floating D] in
/-- What is looked up under the id of an entity is its own. -/
theorem ServerUniverse.Sound.simRow (hu : u.Sound) {c : Components F}
    (hc : c ∈ u.ents.world.alive) : u.simRow c = c.row := by
  unfold ServerUniverse.simRow Components.row
  rw [hu.ents.find_of_mem_alive hc]
  rfl

omit [Floating F] [Floating D] in
theorem ServerUniverse.Sound.simRows (hu : u.Sound) : u.simRows = u.liveRows :=
  List.map_congr_left fun _ hc => hu.simRow hc

omit [Floating F] [Floating D] [Widens F D] in
theorem ServerUniverse.Sound.liveIds_nodup (hu : u.Sound) : u.liveIds.Nodup :=
  alive_ids_nodup hu.ents

omit [Floating F] [Floating D] in
theorem liveRows_ids (u : ServerUniverse F D) : u.liveRows.map Row.netId = u.liveIds := by
  unfold ServerUniverse.liveRows ServerUniverse.liveIds
  rw [List.map_map]
  rfl

instance : Std.Total fun a b : Row => a.netId ≤ b.netId := ⟨fun _ _ => UInt32.le_total _ _⟩

instance : IsTrans Row fun a b => a.netId ≤ b.netId := ⟨fun _ _ _ => UInt32.le_trans⟩

/-- Rows with different ids are sorted in one way, wherever they were. -/
theorem sort_rows {l l' : List Row} (h : l.Perm l') (hl : (l.map Row.netId).Nodup) :
    l.insertionSort (fun a b => a.netId ≤ b.netId) =
      l'.insertionSort (fun a b => a.netId ≤ b.netId) := by
  refine List.Perm.eq_of_pairwise ?_ (List.pairwise_insertionSort _ l)
    (List.pairwise_insertionSort _ l') ?_
  · -- Rows with one id are one row.
    intro a b ha hb hab hba
    have ha' : a ∈ l := (List.mem_insertionSort _).mp ha
    have hb' : b ∈ l := h.mem_iff.mpr ((List.mem_insertionSort _).mp hb)
    exact List.inj_on_of_nodup_map hl ha' hb' (UInt32.le_antisymm hab hba)
  · exact ((List.perm_insertionSort _ l).trans h).trans (List.perm_insertionSort _ l').symm

omit [Floating F] [Floating D] in
/-- Sound universes with the same tick and the same rows have one hash. -/
theorem ServerUniverse.Sound.simHash_eq (hu : u.Sound) (hv : v.Sound) (htick : u.tick = v.tick)
    (hrows : ∀ r, r ∈ u.liveRows ↔ r ∈ v.liveRows) : u.simHash = v.simHash := by
  have hnodup : ∀ w : ServerUniverse F D, w.Sound → (w.liveRows.map Row.netId).Nodup := by
    intro w hw
    rw [liveRows_ids]
    exact hw.liveIds_nodup
  have hperm : u.liveRows.Perm v.liveRows :=
    (List.perm_ext_iff_of_nodup (hnodup u hu).of_map (hnodup v hv).of_map).mpr hrows
  unfold ServerUniverse.simHash
  simp only []
  rw [hu.simRows, hv.simRows, sort_rows hperm (hnodup u hu), htick]

/-- In all universes that a host gets to before the ids run out, net ids are unique, kills and
    expiries leave them so, and any two of them with the same tick and the same rows have one
    hash, whatever their slots went through. -/
theorem simHash_regardless (hu : u.Reachable) (hv : v.Reachable) :
    u.liveIds.Nodup ∧ (∀ n, (u.destroyUnit n).liveIds.Nodup) ∧
      (u.tick = v.tick → (∀ r, r ∈ u.liveRows ↔ r ∈ v.liveRows) → u.simHash = v.simHash) := by
  refine ⟨hu.sound.liveIds_nodup, ?_, fun htick hrows => hu.sound.simHash_eq hv.sound htick hrows⟩
  intro n
  exact (destroyUnit_sound hu.sound n).liveIds_nodup

end

/-- The first of two bases leaves. -/
def leftFirst : List (Op Float32) :=
  [.spawnBase ⟨0, 0, 0⟩ Vec3.zero, .spawnBase ⟨0, 0, 0⟩ Vec3.zero, .despawnBase 1]

/-- It leaves before the second one comes, which gets its slot. -/
def leftBefore : List (Op Float32) :=
  [.spawnBase ⟨0, 0, 0⟩ Vec3.zero, .despawnBase 1, .spawnBase ⟨0, 0, 0⟩ Vec3.zero]

/-- The second base is in one slot or the other, and the hash is the same. -/
theorem simHash_regardless_slots :
    (leftFirst.foldl ServerUniverse.apply (.fresh : ServerUniverse Float32 Float)).simHash =
      (leftBefore.foldl ServerUniverse.apply .fresh).simHash := by
  have hu := reachable_applyAll (D := Float) .fresh leftFirst (by decide +kernel)
  have hv := reachable_applyAll (D := Float) .fresh leftBefore (by decide +kernel)
  have hrows : (leftFirst.foldl ServerUniverse.apply
      (.fresh : ServerUniverse Float32 Float)).liveRows =
      (leftBefore.foldl ServerUniverse.apply .fresh).liveRows := by
    decide +kernel
  exact (simHash_regardless hu hv).2.2 (by decide +kernel) fun r => by rw [hrows]

/-- The two bases when the ids have come round. -/
def roundDuel : ServerUniverse Float32 Float :=
  (visits (2 ^ 32 - 2)).foldl ServerUniverse.apply duel

/-- The visitor who comes then. -/
def lateVisit : Op Float32 := .spawnBase ⟨0, 0, 0⟩ Vec3.zero

/-- One more base gets the id of the first. When it has left, the ids are unique again and the
    rows are those from before all visits, but the hash is another one. -/
theorem hash_of_lost_base :
    (roundDuel.liveIds.Nodup ∧ ¬ (roundDuel.apply lateVisit).liveIds.Nodup) ∧
      ((roundDuel.apply lateVisit).apply (.despawnBase 1)).liveIds.Nodup ∧
      ((roundDuel.apply lateVisit).apply (.despawnBase 1)).tick = duel.tick ∧
      ((roundDuel.apply lateVisit).apply (.despawnBase 1)).liveRows = duel.liveRows ∧
      ((roundDuel.apply lateVisit).apply (.despawnBase 1)).simHash ≠ duel.simHash := by
  unfold roundDuel
  rw [visits_duel (by decide) (by decide)]
  exact ⟨⟨by decide +kernel, by decide +kernel⟩, by decide +kernel, by decide +kernel,
    by decide +kernel, by decide +kernel⟩

end Shard

end EarthRise
