import EarthRise.Theory.Shard.MapRestart

/-!
# Net Ids over the Life of a Shard

When a net id is given out twice.

A universe counts its ids upward, so between restarts each one is new. A restart does not
know how far the counter was: it goes on after the highest id of the snapshot. The ids of
what a snapshot leaves out, of whatever was destroyed before it and of all that was spawned
after it, are given out again where they are higher. So ids stay unique through every restart
whose snapshot has an id that is as high as any that was given out, and a restart from another
one can be followed by calls that give some id out again (`reuse_of_uncovered`).

## Main definitions

* `Unique`: No id was given to two entities.
* `Covered`: An event after which the counter is past all ids.

## Theorems

* `apply_grows`: What is new after a call has an id of the call.
* `captured_found`: The ids of a snapshot are those of the living.
* `ids_unique_of_covered`: Every state of a covered run.
* `reuse_of_uncovered`: What may follow a restart that is not covered.
-/

namespace EarthRise

namespace Shard

open Ecs (EntityHandle)
open Universe (Vec3 UniversePos)

section

variable {F D : Type} [Floating F] [Floating D] [Widens F D] {n : UInt32} {s : Life F D}

/-! ## The ids of the living -/

/-- Whatever a call leaves is an entity that there was, a base where that was one, or has an
    id that the counter gave out. -/
theorem apply_grows (u : ServerUniverse F D) (o : Op F) :
    ∃ R New, (∀ c c', R c c' → c'.baseTag = c.baseTag) ∧ Grows R New u (u.apply o) := by
  by_cases hstep : ∃ dt, o = .step dt
  · rcases hstep with ⟨dt, rfl⟩
    exact ⟨_, _, fun _ _ h => (steady_lawful .all).baseTag h, (step_advances dt u).toGrows⟩
  · have hkin : ∀ c c' : Components F, Kin c c' → c'.baseTag = c.baseTag :=
      fun _ _ h => kin_lawful.baseTag h
    by_cases hdespawn : ∃ n, o = .despawnBase n
    · rcases hdespawn with ⟨m, rfl⟩
      exact ⟨_, _, hkin, despawnBase_grows u m⟩
    · exact ⟨_, _, hkin,
        (apply_follows u o (not_exists.mp hstep) (not_exists.mp hdespawn)).toGrows⟩

omit [Floating D] [Widens F D] in
/-- The ids of a snapshot are ids of the living. -/
theorem captured_found {u : ServerUniverse F D} (hu : u.Sound)
    (hn : n ∈ u.captureState.ids) : ∃ c, u.ents.find n = some c := by
  have hfound : ∀ c ∈ u.ents.world.alive, c.netId = n → ∃ c, u.ents.find n = some c :=
    fun c hc hid => ⟨c, hid ▸ hu.ents.find_of_mem_alive hc⟩
  unfold PersistState.ids at hn
  rcases List.mem_append.mp hn with hn | hn
  · rcases List.mem_append.mp hn with hn | hn
    · rcases List.mem_map.mp hn with ⟨b, hb, hid⟩
      rcases mem_captured_bases hb with ⟨c, hc, _, rfl⟩
      exact hfound c hc hid
    · rcases List.mem_map.mp hn with ⟨sh, hsh, hid⟩
      rcases List.mem_filterMap.mp hsh with ⟨c, hc, hcap⟩
      exact hfound c hc ((captureShip_eq_some hcap).2.1.symm.trans hid)
  · rcases List.mem_map.mp hn with ⟨p, hp, hid⟩
    rcases List.mem_filterMap.mp hp with ⟨c, hc, hcap⟩
    exact hfound c hc ((captureNpc_eq_some hcap).2.symm.trans hid)

omit [Floating F] [Floating D] [Widens F D] in
/-- The ids between two values of a counter that has not wrapped are all different. -/
theorem takenSince_nodup (u u' : ServerUniverse F D) (hw : u'.NoWrap) :
    (u.takenSince u').Nodup := by
  unfold ServerUniverse.takenSince
  refine List.Nodup.map_on ?_ List.nodup_range'
  intro j hj k hk hjk
  rw [List.mem_range'_1] at hj hk
  have hle : u'.nextNetId ≤ 2 ^ 32 := hw
  have hnat := congrArg UInt32.toNat hjk
  rw [UInt32.toNat_ofNat', UInt32.toNat_ofNat', Nat.mod_eq_of_lt (by omega),
    Nat.mod_eq_of_lt (by omega)] at hnat
  exact hnat

omit [Floating F] [Floating D] [Widens F D] in
theorem toNat_of_taken {u u' : ServerUniverse F D} (hw : u'.NoWrap)
    (hn : n ∈ u.takenSince u') : u.nextNetId ≤ n.toNat ∧ n.toNat < u'.nextNetId := by
  rcases mem_takenSince.mp hn with ⟨k, hle, hlt, rfl⟩
  have hwrap : u'.nextNetId ≤ 2 ^ 32 := hw
  rw [UInt32.toNat_ofNat', Nat.mod_eq_of_lt (by omega)]
  exact ⟨hle, hlt⟩

/-! ## The life of a shard -/

/-- No id was given to two entities, and whatever is alive was given its id. -/
structure Unique (s : Life F D) : Prop where
  once : s.taken.Nodup
  given : ∀ n c, s.running.ents.find n = some c → n ∈ s.taken

/-- An event after which the counter is past all ids: a call that does not run out of them,
    a snapshot, or a restart from a snapshot that has an id as high as any that was given out,
    into a universe that some host got to. -/
def Covered (s : Life F D) : Event F D → Prop
  | .call o => (s.running.apply o).NoWrap
  | .capture => True
  | .restore i into order => into.Reachable ∧ order.Perm into.handles ∧
      ∀ snapshot, s.snapshots[i]? = some snapshot →
        ∀ n ∈ s.taken, n ≤ ServerUniverse.maxNetId snapshot

/-- The shard is sound, its counter is past all ids, and its snapshots are of universes whose
    ids it gave out. -/
structure Counted (s : Life F D) : Prop extends Unique s where
  sound : s.running.Sound
  wrap : s.running.NoWrap
  below : ∀ n ∈ s.taken, n.toNat < s.running.nextNetId
  snapshots : ∀ p ∈ s.snapshots, ∃ u : ServerUniverse F D, u.Sound ∧ p = u.captureState ∧
    ∀ n ∈ p.ids, n ∈ s.taken

omit [Widens F D] in
theorem counted_start : Counted (Life.start : Life F D) where
  once := List.nodup_nil
  given n c h := absurd h (by simp only [Life.start, ServerUniverse.fresh, Entities.find,
    Entities.entityOf, Entities.fresh, Assoc.lookup_nil, Option.bind_none, reduceCtorEq,
    not_false_eq_true])
  sound := fresh_sound
  wrap := (by decide : (1 : Nat) ≤ 2 ^ 32)
  below _ h := absurd h List.not_mem_nil
  snapshots _ h := absurd h List.not_mem_nil

omit [Floating D] [Widens F D] in
/-- A universe that grew out of the running one has given out the ids since. -/
theorem Counted.grow (hs : Counted s) {u : ServerUniverse F D}
    {R : Components F → Components F → Prop} {New : Components F → Prop}
    (h : Grows R New s.running u) (hw : u.NoWrap) :
    Counted { s with running := u, taken := s.taken ++ s.running.takenSince u } where
  once := by
    refine List.nodup_append.mpr ⟨hs.once, takenSince_nodup _ _ hw, ?_⟩
    rintro n hold m hnew rfl
    exact Nat.lt_irrefl _
      (Nat.lt_of_lt_of_le (hs.below n hold) (toNat_of_taken hw hnew).1)
  given n c hc := by
    rcases h.origin hs.sound hw n c hc with ⟨c', hc', _⟩ | ⟨hnew, _⟩
    · exact List.mem_append_left _ (hs.given n c' hc')
    · have hbelow := (h.sound hs.sound hw).below n c hc
      exact List.mem_append_right _
        (mem_takenSince.mpr ⟨n.toNat, hnew, hbelow, UInt32.ofNat_toNat⟩)
  sound := h.sound hs.sound hw
  wrap := hw
  below n hn := by
    rcases List.mem_append.mp hn with hold | hnew
    · exact Nat.lt_of_lt_of_le (hs.below n hold) h.counter
    · exact (toNat_of_taken hw hnew).2
  snapshots p hp := by
    rcases hs.snapshots p hp with ⟨u, hu, hcap, hids⟩
    exact ⟨u, hu, hcap, fun n hn => List.mem_append_left _ (hids n hn)⟩

omit [Floating D] [Widens F D] in
theorem Counted.capture (hs : Counted s) :
    Counted { s with snapshots := s.snapshots ++ [s.running.captureState] } where
  once := hs.once
  given := hs.given
  sound := hs.sound
  wrap := hs.wrap
  below := hs.below
  snapshots p hp := by
    rcases List.mem_append.mp hp with hp | hp
    · exact hs.snapshots p hp
    · refine ⟨s.running, hs.sound, List.mem_singleton.mp hp, fun n hn => ?_⟩
      rw [List.mem_singleton.mp hp] at hn
      rcases captured_found hs.sound hn with ⟨c, hc⟩
      exact hs.given n c hc

theorem Counted.restore (hs : Counted s) {p : PersistState F}
    (hp : p ∈ s.snapshots) {v : ServerUniverse F D} (hv : v.Reachable)
    {order : List EntityHandle} (horder : order.Perm v.handles)
    (hmax : ∀ n ∈ s.taken, n ≤ ServerUniverse.maxNetId p) :
    Counted { s with running := v.restoreState order p } where
  once := hs.once
  given n c hc := by
    rcases hs.snapshots p hp with ⟨u, hu, rfl, hids⟩
    rcases (find_restoreState hu hv.sound horder n c).mp hc with ⟨hmem, rfl⟩
    have hid : c.netId ∈ (v.restored u.captureState).map Components.netId :=
      List.mem_map_of_mem hmem
    rw [restored_ids] at hid
    exact hids _ hid
  sound := by
    rcases hs.snapshots p hp with ⟨u, hu, rfl, _⟩
    exact restoreState_sound hu hv.sound horder
  wrap := restoreState_noWrap v order p
  below n hn := Nat.lt_succ_of_le (UInt32.le_iff_toNat_le.mp (hmax n hn))
  snapshots := hs.snapshots

/-- An event that is covered keeps the ids unique. -/
theorem Counted.event {s t : Life F D} (hs : Counted s) (e : Event F D) (hcover : Covered s e)
    (hlive : live s e = some t) : Counted t := by
  cases e with
  | call o =>
      rw [← Option.some.inj hlive]
      rcases apply_grows s.running o with ⟨_, _, _, hgrows⟩
      exact hs.grow hgrows hcover
  | capture =>
      rw [← Option.some.inj hlive]
      exact hs.capture
  | restore i into order =>
      rcases hcover with ⟨hinto, horder, hmax⟩
      rcases Option.map_eq_some_iff.mp hlive with ⟨p, hp, rfl⟩
      exact hs.restore (List.mem_of_getElem? hp) hinto horder (hmax p hp)

/-- Ids are unique in every state of a run whose events are covered. -/
theorem ids_unique_of_covered {s : Life F D} (h : Run.Reaches live Covered .start s) : Unique s :=
  (Run.Reaches.invariant (fun _ e _ hs hcover hlive => Counted.event hs e hcover hlive) h
    counted_start).toUnique

/-! ## After a restart that is not covered -/

/-- Props take the ids after the counter, as many as one likes. -/
theorem spawns_take (k : Nat) (s : Life F D) : ∃ t, Run.Reaches live Run.free s t ∧
    t.running.nextNetId = s.running.nextNetId + k ∧ ∃ l, t.taken = s.taken ++ l ∧
      ∀ j, s.running.nextNetId ≤ j → j < s.running.nextNetId + k → UInt32.ofNat j ∈ l := by
  induction k with
  | zero =>
      refine ⟨s, Run.Reaches.refl, rfl, [], (List.append_nil _).symm, fun j hle hlt => ?_⟩
      omega
  | succ k ih =>
      rcases ih with ⟨t, hreach, hnext, l, htaken, hall⟩
      have hspawn : (t.running.apply (.spawnProp 0 ⟨0, 0, 0⟩)).nextNetId =
          t.running.nextNetId + 1 := rfl
      refine ⟨_, hreach.tail (.call (.spawnProp 0 ⟨0, 0, 0⟩)) trivial rfl, ?_,
        l ++ t.running.takenSince (t.running.apply (.spawnProp 0 ⟨0, 0, 0⟩)), ?_, ?_⟩
      · exact hspawn.trans (by omega)
      · rw [← List.append_assoc, ← htaken]
      · intro j hle hlt
        by_cases hj : j < s.running.nextNetId + k
        · exact List.mem_append_left _ (hall j hle hj)
        · exact List.mem_append_right _ (mem_takenSince.mpr ⟨j, by omega, by omega, rfl⟩)

/-- After a restart from a snapshot whose ids are lower than one that was given out, that one
    is given out again when enough is spawned. -/
theorem reuse_of_uncovered {s t : Life F D} {i : Nat} {p : PersistState F}
    {v : ServerUniverse F D} {order : List EntityHandle} (hp : s.snapshots[i]? = some p)
    (hlive : live s (.restore i v order) = some t) (hn : n ∈ s.taken)
    (hlow : ServerUniverse.maxNetId p < n) :
    ∃ r, Run.Reaches live Run.free t r ∧ ¬ Unique r := by
  have ht : t = { s with running := v.restoreState order p } := by
    simp only [live, hp, Option.map_some, Option.some.injEq] at hlive
    exact hlive.symm
  have hnext : t.running.nextNetId = (ServerUniverse.maxNetId p).toNat + 1 := by
    rw [ht]
    rfl
  have hlt : (ServerUniverse.maxNetId p).toNat < n.toNat := UInt32.lt_iff_toNat_lt.mp hlow
  rcases spawns_take (n.toNat - (ServerUniverse.maxNetId p).toNat) t with
    ⟨r, hreach, _, l, htaken, hall⟩
  refine ⟨r, hreach, fun h => ?_⟩
  have hagain := hall n.toNat (by omega) (by omega)
  rw [UInt32.ofNat_toNat] at hagain
  have hbefore : n ∈ t.taken := by
    rw [ht]
    exact hn
  have honce := h.once
  rw [htaken] at honce
  exact (List.nodup_append.mp honce).2.2 n hbefore n hagain rfl

/-- Two bases, the second of which is gone when the snapshot is taken, and one more after the
    restart. -/
def secondLife : List (Event Float32 Float) := [
  .call (.spawnBase ⟨0, 0, 0⟩ ⟨0, 0, 0⟩), .call (.spawnBase ⟨0, 0, 0⟩ ⟨0, 0, 0⟩),
  .call (.despawnBase 2), .capture, .restore 0 .fresh [],
  .call (.spawnBase ⟨0, 0, 0⟩ ⟨0, 0, 0⟩)]

/-- The base that is spawned after the restart has the id of the one that is gone. -/
theorem id_reused : ∃ s : Life Float32 Float, Run.Reaches live Run.free .start s ∧
    s.taken = [1, 2, 2] ∧ ¬ Unique s := by
  have htaken : (Run.runLabels live (.start : Life Float32 Float) secondLife).any
      (fun s => s.taken = [1, 2, 2]) = true := by decide +kernel
  rcases Run.exists_of_runLabels secondLife htaken with ⟨s, hreach, hs⟩
  have hids : s.taken = [1, 2, 2] := of_decide_eq_true hs
  refine ⟨s, hreach, hids, fun h => ?_⟩
  have honce := h.once
  rw [hids] at honce
  exact absurd honce (by decide)

/-- A base, a restart from its snapshot, and another base. -/
def restartedLife : List (Event Float32 Float) := [
  .call (.spawnBase ⟨0, 0, 0⟩ ⟨0, 0, 0⟩), .capture, .restore 0 .fresh [],
  .call (.spawnBase ⟨0, 0, 0⟩ ⟨0, 0, 0⟩)]

theorem ids_unique_restarted :
    ∃ s, Run.runLabels live (.start : Life Float32 Float) restartedLife = some s ∧ Unique s := by
  refine ⟨_, rfl, ids_unique_of_covered ?_⟩
  refine Run.Reaches.head (.call (.spawnBase ⟨0, 0, 0⟩ ⟨0, 0, 0⟩)) ?_ rfl ?_
  · simp only [Covered]
    decide +kernel
  refine Run.Reaches.head .capture trivial rfl ?_
  refine Run.Reaches.head (.restore 0 .fresh []) ?_ rfl ?_
  · refine ⟨.fresh, List.Perm.refl _, fun p hp => ?_⟩
    rw [← Option.some.inj hp]
    -- over the list, since the ids themselves are too many to go through
    refine @of_decide_eq_true _ (List.decidableBAll _ _) ?_
    decide +kernel
  refine Run.Reaches.head (.call (.spawnBase ⟨0, 0, 0⟩ ⟨0, 0, 0⟩)) ?_ rfl Run.Reaches.refl
  simp only [Covered]
  decide +kernel

end

end Shard

end EarthRise
