import EarthRise.Core.ClientApp
import EarthRise.Theory.FleetControl

/-!
# From the Bytes of a Snapshot to the Bytes of a Command

A run of the client: snapshots arrive, frames are drawn and keys are pressed, in any order. The
replica holds what the decoder knows, relative to one origin for all of it, and a command that
leaves the client is about entities that were drawn at some point of the run up to then, with the
kind and the owner that they were drawn with.

What has been shown is read off the prefixes of the run, so it only grows as the run goes on.

## Main definitions

* `Sane`: The decoder's entities are under their own keys, within their metres.
* `Mirrors`: The replica holds the decoder's entities.
* `Shown`: What has been shown in a run, and whom to.

## Theorems

* `sane_apply`: The decoder stays sane.
* `update_mirrors`: A snapshot makes the replica hold what is known then.
* `replica_mirrors`: What the replica holds in every state of a run.
* `commands_grounded`: What every command of a run is about.
-/

namespace EarthRise

namespace Client

open Sim (EntityKind SnapshotEntity DeltaDecodeState DeltaRecord NetId)
open Universe (Vec3 UniversePos universeToSector sectorToOrigin)

/-! ## The decoder -/

/-- Each entity is under its own key, and the offset within its metre is less than a metre. -/
structure Sane (st : DeltaDecodeState) : Prop where
  keyed : ∀ k e, st.entities.find? k = some e → e.netId = k
  within : ∀ k e, st.entities.find? k = some e → e.localOffset.All fun q => 0 ≤ q ∧ q < 1

theorem sane_fresh : Sane .fresh where
  keyed _ _ h := by cases h
  within _ _ h := by cases h

theorem within_initial : SnapshotEntity.initial.localOffset.All fun q => 0 ≤ q ∧ q < 1 := by
  unfold SnapshotEntity.initial Vec3.All
  norm_num

theorem within_overwrite {e : SnapshotEntity} (he : e.localOffset.All fun q => 0 ≤ q ∧ q < 1)
    (r : DeltaRecord) :
    (DeltaDecodeState.overwrite e r).localOffset.All fun q => 0 ≤ q ∧ q < 1 := by
  unfold DeltaDecodeState.overwrite
  dsimp only
  split
  · exact ⟨⟨Int.fract_nonneg _, Int.fract_lt_one _⟩, ⟨Int.fract_nonneg _, Int.fract_lt_one _⟩,
      Int.fract_nonneg _, Int.fract_lt_one _⟩
  · exact he

theorem sane_applyRecord {st : DeltaDecodeState} (h : Sane st) (tick : Nat) (r : DeltaRecord) :
    Sane (DeltaDecodeState.applyRecord tick st r) := by
  -- the entity that the record is about, before the record
  have hold : ((st.entities.find? r.netId).getD SnapshotEntity.initial).localOffset.All
      fun q => 0 ≤ q ∧ q < 1 := by
    cases hfind : st.entities.find? r.netId with
    | none => exact within_initial
    | some e => exact h.within _ e hfind
  have hafter : ∀ k e, (if r.mask.tomb then st.entities.erase r.netId
      else st.entities.insert r.netId (DeltaDecodeState.overwrite
        ((st.entities.find? r.netId).getD SnapshotEntity.initial) r)).find? k = some e →
      e.netId = k ∧ e.localOffset.All fun q => 0 ≤ q ∧ q < 1 := by
    intro k e hfind
    split at hfind
    · rw [OrdMap.find?_erase] at hfind
      split at hfind
      · cases hfind
      · exact ⟨h.keyed k e hfind, h.within k e hfind⟩
    · rw [OrdMap.find?_insert] at hfind
      split at hfind
      · rename_i hk
        cases hfind
        exact ⟨hk.symm, within_overwrite hold r⟩
      · exact ⟨h.keyed k e hfind, h.within k e hfind⟩
  unfold DeltaDecodeState.applyRecord
  split
  · exact h
  · exact ⟨fun k e hfind => (hafter k e hfind).1, fun k e hfind => (hafter k e hfind).2⟩

theorem sane_apply {st st' : DeltaDecodeState} (h : Sane st) {body : List UInt8}
    (happly : st.apply body = some st') : Sane st' := by
  unfold DeltaDecodeState.apply at happly
  obtain ⟨snap, -, rfl⟩ := Option.map_eq_some_iff.mp happly
  unfold DeltaDecodeState.applySnapshot
  exact List.foldlRecOn _ _ ⟨h.keyed, h.within⟩ fun st hst r _ => sane_applyRecord hst _ r

/-! ## The replica -/

/-- The offset within the metre does not show. -/
theorem wholeMetres_of_within {q : ℚ} (h : 0 ≤ q ∧ q < 1) : wholeMetres q = 0 :=
  Int.tdiv_eq_zero_of_lt (Rat.num_nonneg.mpr h.1) (Rat.num_lt_denom_iff.mpr h.2)

section

variable {F : Type} [Floating F] {order : HashOrder} {m m' : ReplicaManager F} {body : List UInt8}
  {e : SnapshotEntity} {st : DeltaDecodeState} {player : UInt32}

/-- An entity as the replica shows it: on each axis the whole metres from the origin. -/
structure ShownAs (origin : UniversePos) (e : SnapshotEntity) (r : ReplicaEntity F) : Prop where
  id : r.networkId = UInt32.ofNat e.netId.val
  kind : r.kind = e.kind
  owner : r.ownerPlayer = UInt32.ofNat e.ownerPlayer.val
  hp : r.hp = e.hp
  shape : r.shapeId = e.shapeId
  x : r.x = ofInt (e.pos.x - origin.x)
  y : r.y = ofInt (e.pos.y - origin.y)
  z : r.z = ofInt (e.pos.z - origin.z)

theorem projectEntity_shownAs (origin : UniversePos)
    (h : e.localOffset.All fun q => 0 ≤ q ∧ q < 1) :
    ShownAs origin e (projectEntity origin e : ReplicaEntity F) := by
  obtain ⟨hx, hy, hz⟩ := h
  refine ⟨rfl, rfl, rfl, rfl, rfl, ?_, ?_, ?_⟩
  · unfold projectEntity
    dsimp only
    rw [wholeMetres_of_within hx, add_zero]
  · unfold projectEntity
    dsimp only
    rw [wholeMetres_of_within hy, add_zero]
  · unfold projectEntity
    dsimp only
    rw [wholeMetres_of_within hz, add_zero]

/-- What the replica shows is what the decoder knows. -/
structure Mirrors (m : ReplicaManager F) : Prop where
  sane : Sane m.decode
  shown : ∀ r ∈ m.current.entities, ∃ e, m.decode.entities.find? e.netId = some e ∧
    ShownAs m.origin e r

theorem mem_walk
    (he : e ∈ ReplicaManager.walk st order) : ∃ k, st.entities.find? k = some e := by
  obtain ⟨k, -, hfind⟩ := List.mem_filterMap.mp he
  exact ⟨k, hfind⟩

theorem update_eq
    (hupdate : m.update body player order = some m') :
    m.decode.apply body = some m'.decode ∧
      m'.origin = ReplicaManager.rebase m.origin player (ReplicaManager.walk m'.decode order) ∧
      m'.current.entities = ((ReplicaManager.walk m'.decode order).take maxEntities).map
        (projectEntity m'.origin) := by
  unfold ReplicaManager.update at hupdate
  split at hupdate
  · cases hupdate
  · rename_i st happly
    cases hupdate
    exact ⟨happly, rfl, rfl⟩

/-- A snapshot makes the replica show what is known then, whatever it showed before. -/
theorem update_mirrors (h : Sane m.decode)
    (hupdate : m.update body player order = some m') :
    Mirrors m' := by
  obtain ⟨happly, -, hcurrent⟩ := update_eq hupdate
  have hsane := sane_apply h happly
  refine ⟨hsane, fun r hr => ?_⟩
  rw [hcurrent] at hr
  obtain ⟨e, he, rfl⟩ := List.mem_map.mp hr
  obtain ⟨k, hfind⟩ := mem_walk (List.take_subset _ _ he)
  have hkey := hsane.keyed k e hfind
  rw [← hkey] at hfind
  exact ⟨e, hfind, projectEntity_shownAs _ (hsane.within _ e hfind)⟩

/-- As many entities as there are keys, and each key once. -/
structure Complete (m : ReplicaManager F) : Prop where
  distinct : (m.current.entities.map ReplicaEntity.networkId).Nodup
  count : m.current.entities.length = min maxEntities m.decode.entities.keys.length

theorem filterMap_find?_keys (h : Sane st) :
    ∀ keys : List NetId, (∀ k ∈ keys, k ∈ st.entities.keys) →
      (keys.filterMap st.entities.find?).map SnapshotEntity.netId = keys := by
  intro keys
  induction keys with
  | nil => exact fun _ => rfl
  | cons k keys ih =>
      intro hkeys
      obtain ⟨e, hfind⟩ := Option.isSome_iff_exists.mp
        ((OrdMap.mem_keys _ _).mp (hkeys k List.mem_cons_self))
      have hrest := ih fun k' hk' => hkeys k' (List.mem_cons_of_mem k hk')
      rw [List.filterMap_cons_some hfind, List.map_cons, h.keyed k e hfind, hrest]

/-- A walk comes by each entity once. -/
theorem walk_perm (h : Sane st) (order : HashOrder) :
    ((ReplicaManager.walk st order).map SnapshotEntity.netId).Perm st.entities.keys := by
  unfold ReplicaManager.walk
  rw [filterMap_find?_keys h _ fun k hk => (order.perm _).mem_iff.mp hk]
  exact order.perm _

theorem networkId_injective : Function.Injective fun k : NetId => UInt32.ofNat k.val := by
  intro k k' h
  have hval := congrArg UInt32.toNat h
  rw [UInt32.toNat_ofNat_of_lt' k.isLt, UInt32.toNat_ofNat_of_lt' k'.isLt] at hval
  exact Fin.ext hval

/-- A snapshot shows everything that is known, up to the room of the replica. -/
theorem update_complete (h : Sane m.decode)
    (hupdate : m.update body player order = some m') :
    Complete m' := by
  obtain ⟨happly, -, hcurrent⟩ := update_eq hupdate
  have hwalk := walk_perm (sane_apply h happly) order
  constructor
  · rw [hcurrent, List.map_map]
    have hid : (ReplicaEntity.networkId ∘ projectEntity (F := F) m'.origin) =
        (fun k : NetId => UInt32.ofNat k.val) ∘ SnapshotEntity.netId := rfl
    rw [hid, ← List.map_map]
    refine List.Nodup.map networkId_injective ?_
    rw [List.map_take]
    exact (List.take_sublist _ _).nodup (hwalk.nodup_iff.mpr m'.decode.entities.keys_nodup)
  · have hlength := hwalk.length_eq
    rw [List.length_map] at hlength
    rw [hcurrent, List.length_map, List.length_take, hlength]

/-- The player's own entity is in the sector of the origin. -/
theorem update_origin (h : Sane m.decode)
    (hupdate : m.update body player order = some m')
    (hplayer : player ≠ 0)
    (hknown : m'.decode.entities.find? e.netId = some e)
    (hself : UInt32.ofNat e.netId.val = player) :
    m'.origin = sectorToOrigin (universeToSector e.pos) := by
  obtain ⟨happly, horigin, -⟩ := update_eq hupdate
  have hsane := sane_apply h happly
  have hmem : e ∈ ReplicaManager.walk m'.decode order := by
    refine List.mem_filterMap.mpr ⟨e.netId, (order.perm _).mem_iff.mpr ?_, hknown⟩
    rw [OrdMap.mem_keys, hknown]
    rfl
  rw [horigin]
  unfold ReplicaManager.rebase
  split
  · rename_i hnone
    have hself' := List.find?_eq_none.mp hnone e hmem
    simp only [decide_eq_true_eq, not_or] at hself'
    exact absurd hself hself'.1
  · -- the walk finds no other entity with the player's id
    rename_i e' hfind
    have hid := List.find?_some hfind
    simp only [decide_eq_true_eq, or_iff_left hplayer] at hid
    obtain ⟨k, hfound⟩ := mem_walk (List.mem_of_find?_eq_some hfind)
    have hkey := hsane.keyed k e' hfound
    have heq : e'.netId = e.netId := networkId_injective (hid.trans hself.symm)
    rw [← hkey, heq, hknown] at hfound
    cases hfound
    rfl

/-- In the sector of the origin every coordinate is one within the side of a sector. -/
theorem within_sector (pos : UniversePos) :
    Vec3.All (fun d => 0 ≤ d ∧ d < Universe.sectorSize)
      (pos.zipWith (· - ·) (sectorToOrigin (universeToSector pos))) := by
  unfold Vec3.All Vec3.zipWith sectorToOrigin universeToSector Vec3.map Universe.sectorSize
  dsimp only
  omega

/-! ## Runs -/

variable [FloatBits F] {a : App F}

namespace App

theorem run_append (a : App F) (es es' : List (Option UInt32 × AppEvent F)) :
    a.run (es ++ es') =
      ((((a.run es).1).run es').1, (a.run es).2 ++ (((a.run es).1).run es').2) := by
  induction es generalizing a with
  | nil => rfl
  | cons e es ih =>
      obtain ⟨session, ev⟩ := e
      rw [List.cons_append, run, run, ih, List.append_assoc]

end App

/-- The replica and the state that is drawn are the same, and they mirror the decoder. -/
structure Kept (a : App F) : Prop where
  same : a.interp.curr = a.replica.current
  mirrors : Mirrors a.replica
  complete : Complete a.replica

omit [FloatBits F] in
theorem kept_fresh (alpha : F) : Kept (App.fresh alpha) where
  same := rfl
  mirrors := ⟨sane_fresh, fun _ hr => absurd hr List.not_mem_nil⟩
  complete := ⟨List.nodup_nil, rfl⟩

omit [FloatBits F] in
theorem pollSnapshot_some {session : Option UInt32}
    {m : ReplicaManager F}
    (hupdate : a.replica.update (body.take App.snapBufSize) (session.getD 0) order = some m) :
    a.pollSnapshot session body order =
      { a with replica := m, interp := a.interp.advance m.current } := by
  unfold App.pollSnapshot
  rw [hupdate]

/-- Only a snapshot that decodes changes the replica. -/
theorem step_replica (a : App F) (session : Option UInt32) (ev : AppEvent F) :
    ((a.step session ev).1.replica = a.replica ∧ (a.step session ev).1.interp = a.interp) ∨
      ∃ body order m, ev = .snapshot body order ∧
        a.replica.update (body.take App.snapBufSize) (session.getD 0) order = some m ∧
        (a.step session ev).1.replica = m ∧
        (a.step session ev).1.interp.curr = m.current := by
  cases ev with
  | snapshot body order =>
      change ((a.pollSnapshot session body order).replica = a.replica ∧
        (a.pollSnapshot session body order).interp = a.interp) ∨ _
      cases hupdate : a.replica.update (body.take App.snapBufSize) (session.getD 0) order with
      | none =>
          refine Or.inl ?_
          unfold App.pollSnapshot
          rw [hupdate]
          exact ⟨rfl, rfl⟩
      | some m =>
          refine Or.inr ⟨body, order, m, rfl, hupdate, ?_⟩
          change (a.pollSnapshot session body order).replica = m ∧
            (a.pollSnapshot session body order).interp.curr = m.current
          rw [pollSnapshot_some hupdate]
          exact ⟨rfl, rfl⟩
  | frame input => exact Or.inl ⟨rfl, rfl⟩
  | key key =>
      refine Or.inl ?_
      cases key with
      | digit group ctrl =>
          cases ctrl with
          | true => exact ⟨rfl, rfl⟩
          | false => exact ⟨rfl, rfl⟩
      | selectAll => exact ⟨rfl, rfl⟩
      | build => exact ⟨rfl, rfl⟩
      | stop => exact ⟨rfl, rfl⟩

theorem Kept.step (h : Kept a) (session : Option UInt32) (ev : AppEvent F) :
    Kept (a.step session ev).1 := by
  rcases step_replica a session ev with ⟨hreplica, hinterp⟩ |
    ⟨body, order, m, -, hupdate, hm, hcurr⟩
  · refine ⟨?_, ?_, ?_⟩
    · rw [hreplica, hinterp]
      exact h.same
    · rw [hreplica]
      exact h.mirrors
    · rw [hreplica]
      exact h.complete
  · refine ⟨?_, ?_, ?_⟩
    · rw [hm, hcurr]
    · rw [hm]
      exact update_mirrors h.mirrors.sane hupdate
    · rw [hm]
      exact update_complete h.mirrors.sane hupdate

/-- What has been shown in a run: what was drawn when something happened, to the player that the
    session had then. -/
def Shown (alpha : F) (es : List (Option UInt32 × AppEvent F)) : Showing :=
  fun id kind owner self => ∃ pre session ev, pre ++ [(session, ev)] <+: es ∧
    session.getD 0 = self ∧ ∃ r ∈ ((App.fresh alpha).run pre).1.interp.curr.entities,
      r.networkId = id ∧ r.kind = kind ∧ r.ownerPlayer = owner

theorem Shown.mono {alpha : F} {es es' : List (Option UInt32 × AppEvent F)} (h : es <+: es')
    (id : UInt32) (kind : EntityKind) (owner self : UInt32) :
    Shown alpha es id kind owner self → Shown alpha es' id kind owner self := by
  rintro ⟨pre, session, ev, hpre, hself, hdrawn⟩
  exact ⟨pre, session, ev, hpre.trans h, hself, hdrawn⟩

/-- What one event keeps and asks for, with what it shows itself. -/
theorem step_sound {shown : Showing} (player : UInt32 → Prop)
    (h : Grounded shown a.fleet) {session : Option UInt32}
    (hshows : Shows shown a.interp.curr (session.getD 0))
    (hplayer : ∀ p, session = some p → player p) (ev : AppEvent F) :
    Sound shown player ((a.step session ev).1.fleet, (a.step session ev).2) := by
  cases ev with
  | snapshot body order =>
      have hfleet : (a.pollSnapshot session body order).fleet = a.fleet := by
        unfold App.pollSnapshot
        split
        · rfl
        · rfl
      change Sound shown player ((a.pollSnapshot session body order).fleet, [])
      rw [hfleet]
      exact Sound.silent h
  | frame input =>
      exact handleFrame_sound (i := a.fleetInput session input) h hshows input.focusX input.focusZ
  | key key =>
      cases key with
      | digit group ctrl =>
          cases ctrl with
          | true => exact Sound.silent (setControlGroup_grounded h _)
          | false => exact Sound.silent (recallControlGroup_grounded h _)
      | selectAll => exact Sound.silent (selectAllOwnShips_grounded h hshows)
      | build => exact ⟨h, sendBuild_asked hplayer⟩
      | stop => exact ⟨h, sendStop_asked h session⟩

/-- What holds of a run so far: a command is about what was shown up to the event that sent it,
    and a build is for the player of that event. -/
structure RunKept (alpha : F) (es : List (Option UInt32 × AppEvent F)) : Prop where
  kept : Kept ((App.fresh alpha).run es).1
  grounded : Grounded (Shown alpha es) ((App.fresh alpha).run es).1.fleet
  asked : ∀ body ∈ ((App.fresh alpha).run es).2, ∃ pre session ev, pre ++ [(session, ev)] <+: es ∧
    body ∈ (((App.fresh alpha).run pre).1.step session ev).2 ∧
      AskedBody F (Shown alpha (pre ++ [(session, ev)])) (session = some ·) body

theorem run_kept (alpha : F) (es : List (Option UInt32 × AppEvent F)) : RunKept alpha es := by
  induction es using List.reverseRecOn with
  | nil =>
      exact ⟨kept_fresh alpha, grounded_fresh, fun _ hbody => absurd hbody List.not_mem_nil⟩
  | append_singleton es last ih =>
      obtain ⟨session, ev⟩ := last
      have hprefix : es <+: es ++ [(session, ev)] := List.prefix_append _ _
      have hrun : (App.fresh alpha).run (es ++ [(session, ev)]) =
          ((((App.fresh alpha).run es).1.step session ev).1,
            ((App.fresh alpha).run es).2 ++ (((App.fresh alpha).run es).1.step session ev).2) := by
        rw [App.run_append, App.run, App.run, List.append_nil]
      have hshows : Shows (Shown alpha (es ++ [(session, ev)]))
          ((App.fresh alpha).run es).1.interp.curr (session.getD 0) :=
        fun r hr => ⟨es, session, ev, List.prefix_refl _, rfl, r, hr, rfl, rfl, rfl⟩
      obtain ⟨hgrounded, hsent⟩ := step_sound (session = some ·)
        (ih.grounded.mono (Shown.mono hprefix)) hshows (fun _ => id) ev
      refine ⟨?_, ?_, ?_⟩
      · rw [hrun]
        exact ih.kept.step session ev
      · rw [hrun]
        exact hgrounded
      · intro body hbody
        rw [hrun] at hbody
        rcases List.mem_append.mp hbody with hb | hb
        · obtain ⟨pre, session', ev', hpre, hrest⟩ := ih.asked body hb
          exact ⟨pre, session', ev', hpre.trans hprefix, hrest⟩
        · exact ⟨es, session, ev, List.prefix_refl _, hb, hsent body hb⟩

/-- In every state of a run each known entity is shown once, as long as there is room, where it
    is from an origin that all have in common; and a snapshot puts the player's own entity into
    the sector that starts there. -/
theorem replica_mirrors (alpha : F) (es : List (Option UInt32 × AppEvent F)) :
    let a := ((App.fresh alpha).run es).1
    ((a.interp.curr.entities.map ReplicaEntity.networkId).Nodup ∧
      a.interp.curr.entities.length = min maxEntities a.replica.decode.entities.keys.length ∧
      ∀ r ∈ a.interp.curr.entities, ∃ e, a.replica.decode.entities.find? e.netId = some e ∧
        ShownAs a.replica.origin e r) ∧
    ∀ (session : Option UInt32) (body : List UInt8) (order : HashOrder) (e : SnapshotEntity),
      let a' := (a.step session (.snapshot body order)).1
      (a.replica.decode.apply (body.take App.snapBufSize)).isSome →
        a'.replica.decode.entities.find? e.netId = some e → session.getD 0 ≠ 0 →
          UInt32.ofNat e.netId.val = session.getD 0 →
            (e.pos.zipWith (· - ·) a'.replica.origin).All fun d =>
              0 ≤ d ∧ d < Universe.sectorSize := by
  intro a
  have hkept : Kept a := (run_kept alpha es).kept
  refine ⟨⟨?_, ?_, ?_⟩, ?_⟩
  · rw [hkept.same]
    exact hkept.complete.distinct
  · rw [hkept.same]
    exact hkept.complete.count
  · rw [hkept.same]
    exact hkept.mirrors.shown
  · intro session body order e a' hdecodes hknown hplayer hself
    have hupdates : (a.replica.update (body.take App.snapBufSize) (session.getD 0)
        order).isSome := by
      obtain ⟨st, hst⟩ := Option.isSome_iff_exists.mp hdecodes
      unfold ReplicaManager.update
      rw [hst]
      rfl
    obtain ⟨m, hupdate⟩ := Option.isSome_iff_exists.mp hupdates
    have hreplica : a'.replica = m := by
      change (a.pollSnapshot session body order).replica = m
      rw [pollSnapshot_some hupdate]
    rw [hreplica] at hknown ⊢
    rw [update_origin hkept.mirrors.sane hupdate hplayer hknown hself]
    exact within_sector e.pos

/-- A snapshot with the base of player seven, which has its id, and a ship of its. -/
def ownBody : List UInt8 :=
  Sim.encodeDeltaSnapshot ⟨1, [Sim.makeDeltaRecord { Sim.SnapshotEntity.initial with
      netId := 7, ownerPlayer := 7, kind := .base, pos := ⟨100000, -5, 0⟩ } none,
    Sim.makeDeltaRecord { Sim.SnapshotEntity.initial with
      netId := 9, ownerPlayer := 7, kind := .ship } none]⟩

def anyOrder : HashOrder := ⟨id, fun _ => .refl _⟩

/-- The origin moves to the sector of the base. -/
theorem replica_mirrors_own : ∃ (a : App Float32) (e : SnapshotEntity),
    a = ((App.fresh 0).step (some 7) (.snapshot ownBody anyOrder)).1 ∧
      a.replica.decode.entities.find? e.netId = some e ∧ e.pos = ⟨100000, -5, 0⟩ ∧
      (e.pos.zipWith (· - ·) a.replica.origin).All fun d => 0 ≤ d ∧ d < Universe.sectorSize := by
  have hdecodes : ((App.fresh (0 : Float32)).replica.decode.apply
      (ownBody.take App.snapBufSize)).isSome = true := by decide +kernel
  have hbase : ((((App.fresh (0 : Float32)).step (some 7)
      (.snapshot ownBody anyOrder)).1.replica.decode.entities.find? 7).any fun e =>
        e.netId = 7 ∧ e.pos = ⟨100000, -5, 0⟩) = true := by decide +kernel
  rcases (Option.any_eq_true _ _).mp hbase with ⟨e, he, hb⟩
  rcases of_decide_eq_true hb with ⟨hid, hpos⟩
  rw [← hid] at he
  have hown := (replica_mirrors (0 : Float32) []).2 (some 7) ownBody anyOrder e
  rw [App.run] at hown
  dsimp only at hown
  exact ⟨_, e, rfl, he, hpos, hown hdecodes he nofun (by rw [hid]; rfl)⟩

/-- Every body that leaves the client is read by the server as a command about what has been
    shown up to then: for units that were the player's own, against a target that its verb is
    for. A build is for the player of the session that sends it. -/
theorem commands_grounded (alpha : F) (es : List (Option UInt32 × AppEvent F)) :
    ∀ body ∈ ((App.fresh alpha).run es).2, ∃ pre session ev, pre ++ [(session, ev)] <+: es ∧
      body ∈ (((App.fresh alpha).run pre).1.step session ev).2 ∧
        ∃ cmd : Serde.FleetCommand F, Serde.decodeFleetCommand body = some cmd ∧
          Asked (Shown alpha (pre ++ [(session, ev)])) (session = some ·) cmd :=
  (run_kept alpha es).asked

end

/-- A snapshot shows the player its base and its ship; all ships are selected and stopped. -/
def stopKeys : List (Option UInt32 × AppEvent Float32) :=
  [(some 7, .snapshot ownBody anyOrder), (some 7, .key .selectAll), (some 7, .key .stop)]

/-- One command leaves the client, a stop for the ship. -/
theorem stop_keys_grounded : ∃ body ∈ ((App.fresh 0).run stopKeys).2,
    (Serde.decodeFleetCommand body).any (fun cmd : Serde.FleetCommand Float32 =>
      cmd.units = [9] ∧ cmd.intent = IntentType.stop.code) = true ∧
    ∃ pre session ev, pre ++ [(session, ev)] <+: stopKeys ∧
      body ∈ (((App.fresh 0).run pre).1.step session ev).2 ∧
        ∃ cmd : Serde.FleetCommand Float32, Serde.decodeFleetCommand body = some cmd ∧
          Asked (Shown 0 (pre ++ [(session, ev)])) (session = some ·) cmd := by
  have hsent : ((App.fresh 0).run stopKeys).2.any (fun body =>
      (Serde.decodeFleetCommand body).any fun cmd : Serde.FleetCommand Float32 =>
        cmd.units = [9] ∧ cmd.intent = IntentType.stop.code) = true := by decide +kernel
  rcases List.any_eq_true.mp hsent with ⟨body, hbody, hstop⟩
  exact ⟨body, hbody, hstop, commands_grounded 0 stopKeys body hbody⟩

end Client

end EarthRise
