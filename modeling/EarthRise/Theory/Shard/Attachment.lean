import EarthRise.Core.Attachment
import EarthRise.Theory.Shard.NetIds

/-!
# To Which Entity a Login Attaches an Account

When an account comes back to its own base.

A login looks only whether the id of its row leads to something. That the something is the
base that the account was given has another reason: the row is an id that a login of the
account was given, it was a new base then, a base stays one until it is destroyed or restored,
and nobody else gets its id. The last part fails with a restart from a snapshot that is older
than the base. What is spawned after it may get the id of the row, a base of another account
or anything else, and the account is attached to that (`attached_to_another`).

## Main definitions

* `Own`: What is asked of the logins of a shard.
* `Kept`: An event that gives no id out again.
* `Settled`: The invariant.

## Theorems

* `bindAccountBase_game`: A login of the host is one of the universe.
* `spawnPlayerWorld_follows`, `spawnPlayerWorld_base`: The world that is spawned for a login.
* `Settled.grow`, `Settled.restore`, `Settled.login`: What keeps the invariant.
* `logins_own_of_kept`: Every state of a run that gives no id out again.
-/

namespace EarthRise

namespace Shard

open Ecs (EntityHandle)
open Universe (Vec3 UniversePos)

section

variable {F D : Type} [Floating F] {s : Realm F D}

/-! ## A login in the universe -/

/-- A login of the host is one of the universe. -/
theorem bindAccountBase_game {Key Snap A : Type}
    (rest : Net.GameUniverse (ServerUniverse F D) Snap) (S : Net.AccountService A)
    (h : Net.ServerHost Key (ServerUniverse F D) A) (session : Net.SessionInfo) :
    (h.bindAccountBase (game rest) S session).1 =
        (h.world.bindAccountBase h.conns.length session.baseId).1 ∧
      (h.bindAccountBase (game rest) S session).2.world =
        (h.world.bindAccountBase h.conns.length session.baseId).2 := by
  unfold Net.ServerHost.bindAccountBase ServerUniverse.bindAccountBase
  by_cases hbase : session.baseId ≠ 0 ∧
      (h.world.ents.find (UInt32.ofInt session.baseId)).isSome = true
  · simp only [game, hbase, and_self, decide_true, Bool.not_true, Bool.false_eq_true, if_false,
      if_true, ne_eq, not_false_eq_true]
  · simp only [game, hbase, decide_false, Bool.not_false, if_true, if_false]
    exact ⟨rfl, rfl⟩

theorem setOre_follows (u : ServerUniverse F D) (n : UInt32) : Follows u (u.setOre n) := by
  refine modify_follows fun c _ => kin_of_parts ?_ rfl rfl
  unfold Components.identity
  rw [Option.isSome_map]

/-- Where the base of a login is. -/
def playerStart (slot : Nat) : UniversePos := ⟨Universe.sectorSize - 200, slot * 2000, 0⟩

/-- After its base a login is spawned a ship, and ore. -/
theorem spawnPlayerWorld_rest (u : ServerUniverse F D) (slot : Nat) :
    Follows (u.spawnBase (playerStart slot) ⟨0, 0, 0⟩) (u.spawnPlayerWorld slot).2 := by
  have hship : ∀ (v : ServerUniverse F D) player pos,
      Follows v (v.spawnFleetShipFit player shipShapeId pos defaultShipFit).2 :=
    fun v player pos => Advances.follows rfl (spawnFleetShipFit_advances .none v player _ pos _)
  exact (hship _ _ _).trans (setOre_follows _ _)

theorem spawnPlayerWorld_follows (u : ServerUniverse F D) (slot : Nat) :
    Follows u (u.spawnPlayerWorld slot).2 := by
  have hbase : Follows u (u.spawnBase (playerStart slot) ⟨0, 0, 0⟩) :=
    (base_born u (playerStart slot) ⟨0, 0, 0⟩).spawn_keeps kin_lawful u
  exact hbase.trans (spawnPlayerWorld_rest u slot)

theorem spawnPlayerWorld_counter (u : ServerUniverse F D) (slot : Nat) :
    u.nextNetId < (u.spawnPlayerWorld slot).2.nextNetId :=
  (spawnPlayerWorld_rest u slot).counter

/-- The world of a login has a base under the id that it answers. -/
theorem spawnPlayerWorld_base {u : ServerUniverse F D} (hu : u.Sound) (slot : Nat)
    (hw : (u.spawnPlayerWorld slot).2.NoWrap) :
    ∃ c, (u.spawnPlayerWorld slot).2.ents.find u.nextId = some c ∧ c.baseTag = true := by
  have hrest := spawnPlayerWorld_rest u slot
  have hborn := base_born u (playerStart slot) ⟨0, 0, 0⟩
  have hsound := (hborn.spawn_keeps kin_lawful u).sound hu (Nat.le_trans hrest.counter hw)
  have htag : ((installFit u.combat (u.baseComponents (playerStart slot) ⟨0, 0, 0⟩ u.nextId)
      baseFit).getD (u.baseComponents (playerStart slot) ⟨0, 0, 0⟩ u.nextId)).baseTag = true :=
    installFitGetD_induct (P := fun c => c.baseTag = true) rfl (fun _ _ => rfl) baseFit
  have hfind : (u.spawnBase (playerStart slot) ⟨0, 0, 0⟩).ents.find u.nextId = some
      ((installFit u.combat (u.baseComponents (playerStart slot) ⟨0, 0, 0⟩ u.nextId)
        baseFit).getD (u.baseComponents (playerStart slot) ⟨0, 0, 0⟩ u.nextId)) := by
    unfold ServerUniverse.spawnBase ServerUniverse.spawn
    simp only [hu.ents.find_insert]
    exact if_pos (hborn.netId u.nextId).symm
  rcases (hrest.bases hsound hw _ _ hfind htag).2 with ⟨c', hc', hkin⟩
  exact ⟨c', hc', (kin_lawful.baseTag hkin).trans htag⟩

/-! ## What is asked of the logins -/

/-- A login attaches an account to an entity that there is only if that is a base that the
    account was given before; no two accounts are given one entity; and what an account was
    given is a base. -/
structure Own (s : Realm F D) : Prop where
  mine : ∀ x ∈ s.logins, ∀ isBase, x.before = some isBase → isBase = true ∧ x.again = true
  apart : ∀ x ∈ s.logins, ∀ y ∈ s.logins, x.netId = y.netId → x.account = y.account
  base : ∀ x ∈ s.logins, ∀ c, s.life.running.ents.find x.netId = some c → c.baseTag = true

/-- The ids are counted, the logins were given some of them, a snapshot has these as bases,
    and every row is of a login. -/
structure Settled (s : Realm F D) : Prop extends Own s where
  counted : Counted s.life
  given : ∀ x ∈ s.logins, x.netId ∈ s.life.taken
  captured : ∀ p ∈ s.life.snapshots, ∀ x ∈ s.logins, x.netId ∈ p.ids →
    x.netId ∈ p.bases.map PersistBase.netId
  rows : ∀ account b, Assoc.lookup s.rows account = some b →
    ∃ x ∈ s.logins, x.account = account ∧ b = (x.netId.toNat : Int)

/-! ## What keeps it -/

/-- A universe that grew out of the running one has the bases of the accounts. -/
theorem Settled.grow (hs : Settled s) {u : ServerUniverse F D}
    {R : Components F → Components F → Prop} {New : Components F → Prop}
    (htag : ∀ c c', R c c' → c'.baseTag = c.baseTag) (h : Grows R New s.life.running u)
    (hw : u.NoWrap) : Settled
      { s with
        life := { s.life with running := u, taken := s.life.taken ++ s.life.running.takenSince u } }
    where
  mine := hs.mine
  apart := hs.apart
  base x hx c hc := by
    rcases h.origin hs.counted.sound hw x.netId c hc with ⟨c', hc', hr⟩ | ⟨hnew, _⟩
    · exact (htag c' c hr).trans (hs.base x hx c' hc')
    · -- The id was given out before.
      have hbelow := hs.counted.below x.netId (hs.given x hx)
      omega
  counted := hs.counted.grow h hw
  given x hx := List.mem_append_left _ (hs.given x hx)
  captured := hs.captured
  rows := hs.rows

theorem Settled.capture (hs : Settled s) : Settled
    { s with life := { s.life with snapshots := s.life.snapshots ++ [s.life.running.captureState] } }
    where
  mine := hs.mine
  apart := hs.apart
  base := hs.base
  counted := hs.counted.capture
  given := hs.given
  captured p hp x hx hid := by
    rcases List.mem_append.mp hp with hp | hp
    · exact hs.captured p hp x hx hid
    · rw [List.mem_singleton.mp hp] at hid ⊢
      rcases captured_found hs.counted.sound hid with ⟨c, hc⟩
      rw [captured_bases_ids]
      refine List.mem_map.mpr ⟨c, List.mem_filter.mpr ⟨Entities.mem_alive_of_find hc, ?_⟩, ?_⟩
      · exact hs.base x hx c hc
      · exact hs.counted.sound.ents.netId_of_find hc
  rows := hs.rows

theorem restoreBase_tag (v : ServerUniverse F D) (builds : List (PersistBuild F))
    (b : PersistBase F) : (v.restoreBase builds b).baseTag = true := by
  unfold ServerUniverse.restoreBase
  exact installFitGetD_induct (P := fun c => c.baseTag = true) rfl (fun _ _ => rfl) baseFit

theorem Settled.persist (hs : Settled s) {x : Attached} (hx : x ∈ s.logins) :
    Settled
      { s with rows := (x.account, (x.netId.toNat : Int)) :: Assoc.erase s.rows x.account } where
  mine := hs.mine
  apart := hs.apart
  base := hs.base
  counted := hs.counted
  given := hs.given
  captured := hs.captured
  rows account b hb := by
    rw [Assoc.lookup_cons, Assoc.lookup_erase] at hb
    by_cases haccount : x.account = account
    · rw [if_pos haccount, Option.some.injEq] at hb
      exact ⟨x, hx, haccount, hb.symm⟩
    · rw [if_neg haccount, if_neg fun h => haccount h.symm] at hb
      exact hs.rows account b hb

/-! ## A login -/

omit [Floating F] in
theorem ofInt_toNat (n : UInt32) : UInt32.ofInt (n.toNat : Int) = n := by
  have hlt : n.toNat < 4294967296 := n.toNat_lt
  have hmod : (n.toNat : Int) % 2 ^ 32 = n.toNat := by omega
  simp only [UInt32.ofInt]
  rw [hmod, Int.toNat_natCast, UInt32.ofNat_toNat]

/-- A login that was given a base that is the account's alone, or that is new. -/
theorem Settled.attach (hs : Settled s) (x : Attached)
    (hmine : ∀ isBase, x.before = some isBase → isBase = true ∧ x.again = true)
    (hapart : ∀ y ∈ s.logins, y.netId = x.netId → y.account = x.account)
    (hbase : ∀ c, s.life.running.ents.find x.netId = some c → c.baseTag = true)
    (hgiven : x.netId ∈ s.life.taken)
    (hcaptured : ∀ p ∈ s.life.snapshots, x.netId ∈ p.ids →
      x.netId ∈ p.bases.map PersistBase.netId) :
    Settled { s with logins := s.logins ++ [x] } where
  mine y hy := by
    rcases List.mem_append.mp hy with hy | hy
    · exact hs.mine y hy
    · rw [List.mem_singleton.mp hy]
      exact hmine
  apart y hy z hz hid := by
    rcases List.mem_append.mp hy with hy | hy
    · rcases List.mem_append.mp hz with hz | hz
      · exact hs.apart y hy z hz hid
      · rw [List.mem_singleton.mp hz] at hid ⊢
        exact hapart y hy hid
    · rw [List.mem_singleton.mp hy] at hid ⊢
      rcases List.mem_append.mp hz with hz | hz
      · exact (hapart z hz hid.symm).symm
      · rw [List.mem_singleton.mp hz]
  base y hy := by
    rcases List.mem_append.mp hy with hy | hy
    · exact hs.base y hy
    · rw [List.mem_singleton.mp hy]
      exact hbase
  counted := hs.counted
  given y hy := by
    rcases List.mem_append.mp hy with hy | hy
    · exact hs.given y hy
    · rw [List.mem_singleton.mp hy]
      exact hgiven
  captured p hp y hy := by
    rcases List.mem_append.mp hy with hy | hy
    · exact hs.captured p hp y hy
    · rw [List.mem_singleton.mp hy]
      exact hcaptured p hp
  rows account b hb := by
    rcases hs.rows account b hb with ⟨y, hy, hrow⟩
    exact ⟨y, List.mem_append_left _ hy, hrow⟩

/-- An account that comes back is attached to its base, and another is given a new one. -/
theorem Settled.login (hs : Settled s) (account slot : Nat)
    (hw : (s.login account slot).life.running.NoWrap) : Settled (s.login account slot) := by
  by_cases hback : (Assoc.lookup s.rows account).getD 0 ≠ 0 ∧ (s.life.running.ents.find
      (UInt32.ofInt ((Assoc.lookup s.rows account).getD 0))).isSome = true
  · -- The row is of a login of the account, which was given what the row leads to.
    have hrow : ∃ x ∈ s.logins, x.account = account ∧
        UInt32.ofInt ((Assoc.lookup s.rows account).getD 0) = x.netId := by
      cases hlookup : Assoc.lookup s.rows account with
      | none =>
          rw [hlookup] at hback
          exact absurd rfl hback.1
      | some b =>
          rcases hs.rows account b hlookup with ⟨x, hx, haccount, rfl⟩
          exact ⟨x, hx, haccount, ofInt_toNat x.netId⟩
    rcases hrow with ⟨x, hx, haccount, hid⟩
    have hbind : s.life.running.bindAccountBase slot ((Assoc.lookup s.rows account).getD 0) =
        (x.netId, s.life.running) := by
      unfold ServerUniverse.bindAccountBase
      rw [if_pos hback, hid]
    unfold Realm.login
    simp only [hbind]
    refine (hs.grow (fun _ _ h => kin_lawful.baseTag h)
      (Follows.refl s.life.running).toGrows hs.counted.wrap).attach _ ?_ ?_ ?_ ?_ ?_
    · intro isBase hbefore
      rcases Option.map_eq_some_iff.mp hbefore with ⟨c, hc, rfl⟩
      refine ⟨hs.base x hx c hc, List.any_eq_true.mpr ⟨x, hx, ?_⟩⟩
      exact decide_eq_true ⟨haccount, rfl⟩
    · exact fun y hy hyid => (hs.apart y hy x hx hyid).trans haccount
    · exact hs.base x hx
    · exact List.mem_append_left _ (hs.given x hx)
    · exact fun p hp => hs.captured p hp x hx
  · have hbind : s.life.running.bindAccountBase slot ((Assoc.lookup s.rows account).getD 0) =
        s.life.running.spawnPlayerWorld slot := if_neg hback
    unfold Realm.login at hw ⊢
    simp only [hbind] at hw ⊢
    have hfollows := spawnPlayerWorld_follows s.life.running slot
    have hsound := hfollows.sound hs.counted.sound hw
    rcases spawnPlayerWorld_base hs.counted.sound slot hw with ⟨c, hc, htag⟩
    -- The id is the counter's, which nobody was given before.
    have hid : (s.life.running.spawnPlayerWorld slot).1 = s.life.running.nextId := rfl
    have hnext : s.life.running.nextId.toNat = s.life.running.nextNetId :=
      toNat_nextId (Nat.lt_of_lt_of_le (spawnPlayerWorld_counter s.life.running slot) hw)
    have hnew : s.life.running.nextId ∉ s.life.taken := by
      intro hmem
      have hbelow := hs.counted.below _ hmem
      omega
    have hnone : s.life.running.ents.find s.life.running.nextId = none := by
      cases hfind : s.life.running.ents.find s.life.running.nextId with
      | none => rfl
      | some c' => exact absurd (hs.counted.given _ c' hfind) hnew
    rw [hid, hnone]
    refine (hs.grow (fun _ _ h => kin_lawful.baseTag h) hfollows.toGrows hw).attach _
      ?_ ?_ ?_ ?_ ?_
    · exact fun isBase hbefore => absurd hbefore (by simp only [Option.map_none, reduceCtorEq,
        not_false_eq_true])
    · intro y hy hyid
      have hmem := hs.given y hy
      rw [show y.netId = s.life.running.nextId from hyid] at hmem
      exact absurd hmem hnew
    · intro c' hc'
      have hsame : c' = c := Option.some.inj (hc'.symm.trans hc)
      rw [hsame]
      exact htag
    · refine List.mem_append_right _ (mem_takenSince.mpr ⟨_, Nat.le_refl _, ?_, rfl⟩)
      have hbelow := hsound.below _ c hc
      omega
    · intro p hp hpid
      rcases hs.counted.snapshots p hp with ⟨_, _, _, hids⟩
      exact absurd (hids _ hpid) hnew

end

section

variable {F D : Type} [Floating F] [Floating D] [Widens F D]

/-- What a restart brings back under the id of an account is its base. -/
theorem Settled.restore {s : Realm F D} (hs : Settled s) {p : PersistState F}
    (hp : p ∈ s.life.snapshots) {v : ServerUniverse F D} (hv : v.Reachable)
    {order : List EntityHandle} (horder : order.Perm v.handles)
    (hmax : ∀ n ∈ s.life.taken, n ≤ ServerUniverse.maxNetId p) :
    Settled { s with life := { s.life with running := v.restoreState order p } } where
  mine := hs.mine
  apart := hs.apart
  base x hx c hc := by
    rcases hs.counted.snapshots p hp with ⟨u, hu, hcap, _⟩
    have hcap' := hs.captured p hp x hx
    rw [hcap] at hc hcap'
    have hfind := find_restoreState hu hv.sound horder x.netId
    rcases (hfind c).mp hc with ⟨hmem, hid⟩
    have hids : c.netId ∈ (v.restored u.captureState).map Components.netId :=
      List.mem_map_of_mem hmem
    rw [restored_ids, hid] at hids
    rcases List.mem_map.mp (hcap' hids) with ⟨b, hb, hbid⟩
    have hbase : v.restoreBase u.captureState.builds b ∈ v.restored u.captureState :=
      List.mem_append_left _ (List.mem_append_left _ (List.mem_map_of_mem hb))
    have hsame := (hfind _).mpr ⟨hbase, (restoreBase_netId v _ b).trans hbid⟩
    rw [hc, Option.some.injEq] at hsame
    rw [hsame]
    exact restoreBase_tag v _ b
  counted := hs.counted.restore hp hv horder hmax
  given := hs.given
  captured := hs.captured
  rows := hs.rows

/-! ## Runs -/

/-- An event that gives no id out again. -/
def Kept (s : Realm F D) : RealmEvent F D → Prop
  | .event e => Covered s.life e
  | .persist _ => True
  | .login account slot => (s.login account slot).life.running.NoWrap

omit [Widens F D] in
theorem settled_start : Settled (Realm.start : Realm F D) where
  mine _ h := absurd h List.not_mem_nil
  apart _ h := absurd h List.not_mem_nil
  base _ h := absurd h List.not_mem_nil
  counted := counted_start
  given _ h := absurd h List.not_mem_nil
  captured _ h := absurd h List.not_mem_nil
  rows _ _ h := absurd h (by simp only [Realm.start, Assoc.lookup_nil, reduceCtorEq,
    not_false_eq_true])

theorem Settled.rule {s t : Realm F D} (hs : Settled s) (e : RealmEvent F D) (hkept : Kept s e)
    (hrule : rule s e = some t) : Settled t := by
  cases e with
  | event e =>
      rcases Option.map_eq_some_iff.mp hrule with ⟨l, hl, rfl⟩
      cases e with
      | call o =>
          rw [← Option.some.inj hl]
          rcases apply_grows s.life.running o with ⟨_, _, htag, hgrows⟩
          exact hs.grow htag hgrows hkept
      | capture =>
          rw [← Option.some.inj hl]
          exact hs.capture
      | restore i into order =>
          rcases hkept with ⟨hinto, horder, hmax⟩
          rcases Option.map_eq_some_iff.mp hl with ⟨p, hp, rfl⟩
          exact hs.restore (List.mem_of_getElem? hp) hinto horder (hmax p hp)
  | persist i =>
      rcases Option.map_eq_some_iff.mp hrule with ⟨x, hx, rfl⟩
      exact hs.persist (List.mem_of_getElem? hx)
  | login account slot =>
      rw [← Option.some.inj hrule]
      exact hs.login account slot hkept

/-- Accounts are attached to their own bases in every state of a run that gives no id out
    again. -/
theorem logins_own_of_kept {s : Realm F D} (h : Run.Reaches rule Kept .start s) : Own s :=
  (Run.Reaches.invariant (fun _ e _ hs hkept hrule => Settled.rule hs e hkept hrule) h
    settled_start).toOwn

/-- An account logs in and its row is written. The server comes back with a snapshot from
    before, another account logs in, and then the first one. -/
def olderSnapshot : List (RealmEvent Float32 Float) := [
  .event .capture, .login 1 0, .persist 0, .event (.restore 0 .fresh []), .login 2 0, .login 1 1]

/-- The first account is attached to the base of the second. -/
theorem attached_to_another : ∃ s : Realm Float32 Float,
    Run.Reaches rule Run.free .start s ∧
      s.logins = [⟨1, 1, none, false⟩, ⟨2, 1, none, false⟩, ⟨1, 1, some true, true⟩] ∧
      ¬ Own s := by
  have hlogins : (Run.runLabels rule (.start : Realm Float32 Float) olderSnapshot).any
      (fun s => s.logins =
        [⟨1, 1, none, false⟩, ⟨2, 1, none, false⟩, ⟨1, 1, some true, true⟩]) = true := by
    decide +kernel
  rcases Run.exists_of_runLabels olderSnapshot hlogins with ⟨s, hreach, hs⟩
  have hall : s.logins =
      [⟨1, 1, none, false⟩, ⟨2, 1, none, false⟩, ⟨1, 1, some true, true⟩] := of_decide_eq_true hs
  refine ⟨s, hreach, hall, fun h => ?_⟩
  have hapart := h.apart ⟨2, 1, none, false⟩ (by rw [hall]; decide) ⟨1, 1, some true, true⟩
    (by rw [hall]; decide) rfl
  exact absurd hapart (by decide)

/-- An account logs in, its row is written, and it comes back. -/
def comesBack : List (RealmEvent Float32 Float) := [.login 1 0, .persist 0, .login 1 1]

theorem logins_own_comesBack :
    ∃ s, Run.runLabels rule (.start : Realm Float32 Float) comesBack = some s ∧ Own s := by
  refine ⟨_, rfl, logins_own_of_kept ?_⟩
  refine Run.Reaches.head (.login 1 0) ?_ rfl ?_
  · simp only [Kept]
    decide +kernel
  refine Run.Reaches.head (.persist 0) trivial rfl ?_
  refine Run.Reaches.head (.login 1 1) ?_ rfl Run.Reaches.refl
  simp only [Kept]
  decide +kernel

end

end Shard

end EarthRise
