import EarthRise.Theory.Shard.Commands
import EarthRise.Theory.Shard.Totals

/-!
# How Long Loot Stays

A loot container stays until it is claimed.

A drop carries the time at which it expires, and nothing reads it. Of what a step removes, a
victim has layers and a shot is a shot, and a container is neither; the other calls remove
bases and claimed containers. So a container that nobody claims outlives its time
(`crate_outlives`), and a step does what is said of loot exactly if it ends before the times
that are set: those of the containers there are, and, if a ship is lost in it, that of a drop.

## Main definitions

* `Inert`: A container has no layers and is no shot.
* `dropDate`: When a container that is dropped now expires.
* `Shelters`, `Drops`: A universe and a later one that has lost no container.
* `Claims`: A call in which a container is claimed.
* `ServerUniverse.LosesShip`: A step in which a ship is lost.
* `Expires`, `Timely`: What is said of loot, and when it is so.

## Theorems

* `step_drops`: What the systems of a step do to containers.
* `call_stays`: What the other calls do.
* `step_dates`: The times that are set after a step.
* `loot_expires`: Every call of a run.
-/

namespace EarthRise

namespace Shard

open Universe (UniversePos Vec3)

section

variable {F D : Type}

/-! ## Containers -/

/-- A container has no layers and is no shot. -/
def Inert (c : Components F) : Prop :=
  c.loot.isSome = true → c.defense.isSome = false ∧ c.projectile.isSome = false

theorem Inert.of_identity {c c' : Components F} (h : c'.identity = c.identity) (hc : Inert c) :
    Inert c' := by
  unfold Components.identity at h
  rw [Identity.mk.injEq] at h
  rcases h with ⟨_, _, _, _, _, _, _, hloot, hshot, hhull, _⟩
  have hdefense : c'.defense.isSome = c.defense.isSome := by
    have hsome := congrArg Option.isSome hhull
    rwa [Option.isSome_map, Option.isSome_map] at hsome
  intro hc'
  rw [hdefense, hshot]
  exact hc (hloot.symm.trans hc')

/-- What is no container. -/
theorem inert_of_none {c : Components F} (h : c.loot = none) : Inert c := by
  intro hc
  rw [h] at hc
  exact absurd hc Bool.false_ne_true

/-- The components keep what loot they are. -/
def SameLoot (c c' : Components F) : Prop := c'.loot = c.loot

theorem sameLoot_refl (c : Components F) : SameLoot c c := rfl

theorem sameLoot_trans (a b c : Components F) (h : SameLoot a b) (h' : SameLoot b c) :
    SameLoot a c :=
  Eq.trans h' h

theorem sameLoot_of_goods {x : Effect} (hx : x.trades = false) {c c' : Components F}
    (h : Steady x c c') : SameLoot c c' :=
  congrArg Goods.loot (h.goods hx)

end

section

variable {F D : Type} [Floating F] [Floating D] [Widens F D] {u u' u'' : ServerUniverse F D}
  {mk : UInt32 → Components F}

omit [Floating D] in
theorem issue_inert (h : Issue u mk) (n : UInt32) : Inert (mk n) := by
  cases h with
  | prop _ _ => exact inert_of_none rfl
  | node _ _ _ => exact inert_of_none rfl
  | beacon _ _ => exact inert_of_none rfl
  | base start vel =>
      exact inert_of_none
        (installFitGetD_induct (P := fun c => c.loot = none) rfl (fun _ _ => rfl) _)
  | ship player shapeId pos fitName =>
      exact inert_of_none
        (installFitOr_induct (P := fun c => c.loot = none) rfl (fun _ _ => rfl) _ _)
  | guardian pos siteId fitName =>
      have hnone : (installFitOr u.combat (ServerUniverse.npcComponents (F := F) pos n) fitName
          npcFit).loot = none :=
        installFitOr_induct (P := fun c => c.loot = none) rfl (fun _ _ => rfl) fitName npcFit
      exact inert_of_none hnone
  | shot p => exact inert_of_none rfl
  | loot c => exact fun _ => ⟨rfl, rfl⟩

theorem inert_innate : Innate D (Inert (F := F)) :=
  ⟨fun _ _ h => Inert.of_identity h, fun _ _ h n => issue_inert h n⟩

omit [Floating D] [Widens F D] in
/-- A snapshot has no containers. -/
theorem restored_inert (v : ServerUniverse F D) (s : PersistState F) :
    ∀ c ∈ v.restored s, Inert c := by
  refine forall_restored (fun b _ => ?_) (fun sh _ => ?_) fun n _ => ?_
  all_goals
    refine inert_of_none ?_
    exact installFitGetD_induct (P := fun c => c.loot = none) rfl (fun _ _ => rfl) _

/-- The time, and how long loot is to stay. -/
def ServerUniverse.clock (u : ServerUniverse F D) : D × F := (u.simTime, u.lootExpireSeconds)

/-- When a container that is dropped now expires. -/
def ServerUniverse.dropDate (u : ServerUniverse F D) : F :=
  narrow u.simTime + u.lootExpireSeconds

/-! ## What stays -/

/-- Nothing is lost in the universe, and its containers are only that. -/
structure Calm (u : ServerUniverse F D) : Prop where
  sound : u.Sound
  inert : Everyone Inert u

/-- A universe and a later one that has lost none of the containers whose ids are `kept`. -/
structure Shelters (kept : UInt32 → Prop) (u u' : ServerUniverse F D) : Prop where
  counter : u.nextNetId ≤ u'.nextNetId
  calm : Calm u → u'.NoWrap → Calm u'
  stays : Calm u → u'.NoWrap → ∀ n, kept n → ∀ c, u.ents.find n = some c →
    c.loot.isSome = true → ∃ c', u'.ents.find n = some c' ∧ c'.loot = c.loot

/-- A universe and a later one that has lost no container. It has dropped one exactly if `p`, and
    what it has dropped is due when a drop of now is. -/
structure Drops (p : Prop) (u u' : ServerUniverse F D) : Prop
    extends Shelters (fun _ => True) u u' where
  clock : u'.clock = u.clock
  origin : Calm u → u'.NoWrap → ∀ n c', u'.ents.find n = some c' → ∀ lc, c'.loot = some lc →
    (∃ c, u.ents.find n = some c ∧ c.loot = some lc) ∨ p ∧ lc.expiresAt = u.dropDate
  dropped : Calm u → u'.NoWrap → p → ∃ n c' lc, u'.ents.find n = some c' ∧ c'.loot = some lc ∧
    lc.expiresAt = u.dropDate

variable {kept : UInt32 → Prop} {x : Effect} {p q : Prop} {n : UInt32} {c : Components F}
  {n m : UInt32}

omit [Floating F] [Floating D] [Widens F D] in
theorem Shelters.trans (h : Shelters kept u u') (h' : Shelters kept u' u'') :
    Shelters kept u u'' where
  counter := Nat.le_trans h.counter h'.counter
  calm := fun hu hw => h'.calm (h.calm hu (Nat.le_trans h'.counter hw)) hw
  stays := by
    intro hu hw n hn c hc hloot
    have hw' : u'.NoWrap := Nat.le_trans h'.counter hw
    rcases h.stays hu hw' n hn c hc hloot with ⟨c', hc', hsame⟩
    rcases h'.stays (h.calm hu hw') hw n hn c' hc' (by rw [hsame, hloot]) with ⟨c'', hc'', hsame'⟩
    exact ⟨c'', hc'', hsame'.trans hsame⟩

section

omit [Floating D]

theorem dropDate_of_clock (h : u'.clock = u.clock) : u'.dropDate = u.dropDate := by
  unfold ServerUniverse.clock at h
  rw [Prod.mk.injEq] at h
  unfold ServerUniverse.dropDate
  rw [h.1, h.2]

theorem Drops.congr (h : Drops p u u') (hpq : p ↔ q) : Drops q u u' := propext hpq ▸ h

theorem Drops.trans (h : Drops p u u') (h' : Drops q u' u'') : Drops (p ∨ q) u u'' where
  toShelters := h.toShelters.trans h'.toShelters
  clock := h'.clock.trans h.clock
  origin := by
    intro hu hw n c'' hc'' lc hlc
    have hw' : u'.NoWrap := Nat.le_trans h'.counter hw
    rcases h'.origin (h.calm hu hw') hw n c'' hc'' lc hlc with ⟨c', hc', hloot⟩ | ⟨hq, hdue⟩
    · exact (h.origin hu hw' n c' hc' lc hloot).imp_right (And.imp_left Or.inl)
    · exact Or.inr ⟨Or.inr hq, hdue.trans (dropDate_of_clock h.clock)⟩
  dropped := by
    intro hu hw hpq
    have hw' : u'.NoWrap := Nat.le_trans h'.counter hw
    rcases hpq with hp | hq
    · rcases h.dropped hu hw' hp with ⟨n, c, lc, hc, hlc, hdue⟩
      rcases h'.stays (h.calm hu hw') hw n trivial c hc (by rw [hlc, Option.isSome_some]) with
        ⟨c', hc', hsame⟩
      exact ⟨n, c', lc, hc', hsame.trans hlc, hdue⟩
    · rcases h'.dropped (h.calm hu hw') hw hq with ⟨n, c, lc, hc, hlc, hdue⟩
      exact ⟨n, c, lc, hc, hlc, hdue.trans (dropDate_of_clock h.clock)⟩

theorem Drops.none_trans (h : Drops False u u') (h' : Drops p u' u'') : Drops p u u'' :=
  (h.trans h').congr (.of_eq (false_or p))

theorem Drops.trans_none (h : Drops p u u') (h' : Drops False u' u'') : Drops p u u'' :=
  (h.trans h').congr (.of_eq (or_false p))

end

omit [Floating F] [Floating D] [Widens F D] in
/-- What neither spawns nor destroys and leaves the loot alone. -/
theorem shelters_of_evolves (hsteady : u.ents.Steady x u'.ents)
    (hloot : Entities.Evolves SameLoot u.ents u'.ents) (hcount : u'.nextNetId = u.nextNetId) :
    Shelters kept u u' where
  counter := Nat.le_of_eq hcount.symm
  calm := fun hu hw => ⟨(advances_of_steady hsteady hcount).sound hu.sound hw,
    hu.inert.evolves (fun _ _ hr => Inert.of_identity hr.identity) hsteady⟩
  stays := fun _ _ _ _ _ hc _ => hloot.find_after hc

section

omit [Floating D]

theorem drops_of_evolves (hsteady : u.ents.Steady x u'.ents)
    (hloot : Entities.Evolves SameLoot u.ents u'.ents) (hcount : u'.nextNetId = u.nextNetId)
    (hclock : u'.clock = u.clock) : Drops False u u' where
  toShelters := shelters_of_evolves hsteady hloot hcount
  clock := hclock
  origin := by
    intro _ _ n c' hc' lc hlc
    rcases hloot.find_before hc' with ⟨c, hc, hsame⟩
    exact Or.inl ⟨c, hc, hsame.symm.trans hlc⟩
  dropped := fun _ _ => False.elim

theorem drops_of_eq (hents : u'.ents = u.ents) (hcount : u'.nextNetId = u.nextNetId)
    (hclock : u'.clock = u.clock) : Drops False u u' := by
  refine drops_of_evolves (x := .none) ?_ ?_ hcount hclock
  · rw [hents]
    exact Entities.Steady.refl _ _
  · rw [hents]
    exact Entities.Evolves.refl sameLoot_refl _

/-- A system that changes nothing that anybody holds. -/
theorem onEnts_drops {f : Entities F → Entities F} (hx : x.trades = false)
    (hf : u.ents.Steady x (f u.ents)) : Drops False u (u.onEnts f) :=
  drops_of_evolves hf (Entities.Evolves.mono (fun _ _ => sameLoot_of_goods hx) hf) rfl rfl

theorem drops_foldl {α : Type} {f : ServerUniverse F D → α → ServerUniverse F D}
    (hf : ∀ u a, Drops False u (f u a)) (l : List α) (u : ServerUniverse F D) :
    Drops False u (l.foldl f u) := by
  induction l generalizing u with
  | nil => exact drops_of_eq rfl rfl rfl
  | cons a l ih => exact (hf u a).none_trans (ih (f u a))

/-- What is said of calm universes may be shown of calm universes. -/
theorem Drops.of_calm (hcount : u.nextNetId ≤ u'.nextNetId) (hclock : u'.clock = u.clock)
    (h : Calm u → u'.NoWrap → Drops p u u') : Drops p u u' where
  counter := hcount
  calm := fun hu hw => (h hu hw).calm hu hw
  stays := fun hu hw => (h hu hw).stays hu hw
  clock := hclock
  origin := fun hu hw => (h hu hw).origin hu hw
  dropped := fun hu hw => (h hu hw).dropped hu hw

end

/-! ## Spawning and destroying -/

omit [Floating F] [Floating D] [Widens F D] in
/-- An id that leads to something is not the next one. -/
theorem ServerUniverse.Sound.ne_nextId (hu : u.Sound) (hw : u.nextNetId < 2 ^ 32)
    (hc : u.ents.find n = some c) : n ≠ u.nextId := by
  rintro rfl
  rw [hu.find_nextId hw] at hc
  exact absurd hc nofun

theorem spawn_shelters (hmk : Born mk) (hissue : Issue u mk) :
    Shelters kept u (u.spawn mk) where
  counter := Nat.le_succ _
  calm := fun hu hw => ⟨hmk.spawn_sound hu.sound hw, hu.inert.spawn inert_innate.issue hissue⟩
  stays := by
    intro hu hw n _ c hc _
    exact ⟨c, (hmk.find_spawn hu.sound n).trans ((if_neg (hu.sound.ne_nextId hw hc)).trans hc), rfl⟩

/-- What is spawned is no container, or one that is dropped now. -/
theorem spawn_drops (hmk : Born mk) (hissue : Issue u mk)
    (hloot : ∀ n lc, (mk n).loot = some lc → p ∧ lc.expiresAt = u.dropDate)
    (hp : p → ∀ n, (mk n).loot.isSome = true) : Drops p u (u.spawn mk) where
  toShelters := spawn_shelters hmk hissue
  clock := rfl
  origin := by
    intro hu _ n c' hc' lc hlc
    rw [hmk.find_spawn hu.sound] at hc'
    by_cases hn : n = u.nextId
    · rw [if_pos hn, Option.some.injEq] at hc'
      exact Or.inr (hloot u.nextId lc (by rw [hc', hlc]))
    · rw [if_neg hn] at hc'
      exact Or.inl ⟨c', hc', hlc⟩
  dropped := by
    intro hu _ h
    rcases Option.isSome_iff_exists.mp (hp h u.nextId) with ⟨lc, hlc⟩
    exact ⟨u.nextId, _, lc, (hmk.find_spawn hu.sound u.nextId).trans (if_pos rfl), hlc,
      (hloot u.nextId lc hlc).2⟩

theorem spawn_drops_none (hmk : Born mk) (hissue : Issue u mk)
    (hnone : ∀ n, (mk n).loot = none) : Drops False u (u.spawn mk) :=
  spawn_drops hmk hissue (fun n _ hlc => absurd (hlc.symm.trans (hnone n)) nofun) False.elim

omit [Floating F] [Floating D] [Widens F D] in
theorem destroyUnit_clock (u : ServerUniverse F D) (n : UInt32) :
    (u.destroyUnit n).clock = u.clock := by
  have hleft : ∀ siteId, (u.leaveSite siteId).clock = u.clock := by
    intro siteId
    unfold ServerUniverse.leaveSite
    split
    · rfl
    · split
      · rfl
      · rfl
  unfold ServerUniverse.destroyUnit
  simp only []
  split
  · rfl
  · exact hleft _

omit [Floating F] [Floating D] [Widens F D] in
/-- Destroying what is none of the containers. -/
theorem destroyUnit_shelters
    (hkeep : Calm u → ∀ c, u.ents.find n = some c → kept n → c.loot.isSome = false) :
    Shelters kept u (u.destroyUnit n) where
  counter := Nat.le_of_eq (destroyUnit_nextNetId u n).symm
  calm := fun hu _ => ⟨destroyUnit_sound hu.sound n, hu.inert.destroyUnit n⟩
  stays := by
    intro hu _ m hm c hc hloot
    have hne : m ≠ n := by
      rintro rfl
      rw [hkeep hu c hc hm] at hloot
      exact absurd hloot Bool.false_ne_true
    refine ⟨c, ?_, rfl⟩
    rw [destroyUnit_ents, hu.sound.ents.find_remove, if_neg hne, hc]

omit [Floating D] in
theorem destroyUnit_drops
    (hkeep : Calm u → ∀ c, u.ents.find n = some c → c.loot.isSome = false) :
    Drops False u (u.destroyUnit n) where
  toShelters := destroyUnit_shelters fun hu c hc _ => hkeep hu c hc
  clock := destroyUnit_clock u n
  origin := fun hu _ _ c hc _ hlc =>
    Or.inl ⟨c, (find_of_remove (destroyUnit_ents u n) hu.sound hc).2, hlc⟩
  dropped := fun _ _ => False.elim

omit [Floating D] in
/-- Destroying a list of entities, none of which is a container. -/
theorem destroyUnits_drops (l : List UInt32)
    (hkeep : Calm u → ∀ n ∈ l, ∀ c, u.ents.find n = some c → c.loot.isSome = false) :
    Drops False u (l.foldl ServerUniverse.destroyUnit u) := by
  induction l generalizing u with
  | nil => exact drops_of_eq rfl rfl rfl
  | cons n l ih =>
      refine Drops.of_calm (Nat.le_of_eq (destroyUnits_nextNetId (n :: l) u).symm) ?_ fun hu _ => ?_
      · -- The time does not depend on what is destroyed.
        clear hkeep ih
        induction n :: l generalizing u with
        | nil => rfl
        | cons m k ih => exact (ih (u := u.destroyUnit m)).trans (destroyUnit_clock u m)
      · refine (destroyUnit_drops fun hu => hkeep hu n List.mem_cons_self).none_trans (ih ?_)
        intro _ m hm c hc
        exact hkeep hu m (List.mem_cons_of_mem n hm) c
          (find_of_remove (destroyUnit_ents u n) hu.sound hc).2

/-! ## The systems of a step -/

/-- A kill that leaves loot behind: of a ship that is there and has no hull left. -/
def ServerUniverse.LeavesLoot (u : ServerUniverse F D) (k : Hit F) : Prop :=
  ∃ c, u.ents.find k.victim = some c ∧ c.baseTag = false ∧ c.shipTag.isSome = true ∧
    ∃ d, c.defense = some d ∧ d.hull.cur ≤ 0

/-- One of the hits is such a kill. -/
def ServerUniverse.Looting (u : ServerUniverse F D) (hits : List (Hit F)) : Prop :=
  ∃ k ∈ hits, k.outcome = .killed ∧ u.LeavesLoot k

theorem loot_drops (u : ServerUniverse F D) (k : Hit F)
    (hc : u.ents.find k.victim = some c) : Drops (c.shipTag.isSome = true) u (u.loot c k) := by
  have hrecorded : Drops False u (u.recordKill c k.victim k.killer) := drops_of_eq rfl rfl rfl
  unfold ServerUniverse.loot
  split
  · rename_i hship
    refine hrecorded.none_trans ?_
    unfold ServerUniverse.spawnLoot
    rw [show (u.recordKill c k.victim k.killer).ents.find k.victim = some c from hc]
    have hborn : Born ((u.recordKill c k.victim k.killer).lootContainer c) :=
      thing_born (fun _ => rfl) (fun _ => rfl) (fun _ => rfl) (fun _ => rfl)
    refine (spawn_drops hborn (.loot c) (fun n lc hlc => ⟨hship, ?_⟩) fun _ _ => rfl).trans_none
      (drops_of_eq rfl rfl rfl)
    unfold ServerUniverse.lootContainer at hlc
    rw [← Option.some.inj hlc]
    rfl
  · rename_i hno
    exact hrecorded.congr (iff_of_false id hno)

/-- A victim has layers, so it is no container. -/
theorem processKill_drops (u : ServerUniverse F D) (k : Hit F) :
    Drops (u.LeavesLoot k) u (u.processKill k) := by
  rcases processKill_cases u k with ⟨h, hspared⟩ | ⟨c, hc, hbase, ⟨d, hd, hdead⟩, h⟩
  · rw [h]
    refine (drops_of_eq rfl rfl rfl).congr (iff_of_false id ?_)
    rintro ⟨c, hc, hbase, _, d, hd, hdead⟩
    exact absurd (hspared c hc d hd hdead) (by rw [hbase]; exact Bool.false_ne_true)
  · have hleaves : c.shipTag.isSome = true ↔ u.LeavesLoot k := by
      refine ⟨fun hship => ⟨c, hc, hbase, hship, d, hd, hdead⟩, ?_⟩
      rintro ⟨c', hc', _, hship, _⟩
      rwa [← Option.some.inj (hc'.symm.trans hc)]
    rw [h]
    have hlooted := (loot_drops u k hc).congr hleaves
    refine Drops.of_calm ?_ ?_ fun hu hw => hlooted.trans_none
      (destroyUnit_drops fun hv c' hc' => ?_)
    · rw [destroyUnit_nextNetId]
      exact hlooted.counter
    · rw [destroyUnit_clock, hlooted.clock]
    · have hw' : (u.loot c k).NoWrap := by
        unfold ServerUniverse.NoWrap at hw ⊢
        rwa [destroyUnit_nextNetId] at hw
      rw [find_loot hu.sound c k hw' hc, Option.some.injEq] at hc'
      cases hloot : c'.loot.isSome with
      | false => rfl
      | true =>
          have hnone := ((hu.inert.find hc) (by rw [hc', hloot])).1
          rw [hd] at hnone
          exact absurd hnone (by simp only [Option.isSome_some, Bool.true_eq_false,
            not_false_eq_true])

omit [Floating D] in
/-- A kill without loot neither makes nor changes what another one leaves behind. -/
theorem leavesLoot_processKill (hu : Calm u) (k k' : Hit F) :
    u.LeavesLoot k ∨ (u.processKill k).LeavesLoot k' ↔ u.LeavesLoot k ∨ u.LeavesLoot k' := by
  by_cases hk : u.LeavesLoot k
  · exact iff_of_true (Or.inl hk) (Or.inl hk)
  refine or_congr_right ?_
  rcases processKill_cases u k with ⟨h, _⟩ | ⟨c, hc, hbase, ⟨d, hd, hdead⟩, h⟩
  · rw [h]
  · have hno : ¬ c.shipTag.isSome = true := fun hship => hk ⟨c, hc, hbase, hship, d, hd, hdead⟩
    have hents : (u.processKill k).ents = u.ents.remove k.victim := by
      rw [h, destroyUnit_ents]
      unfold ServerUniverse.loot
      rw [if_neg hno]
      rfl
    unfold ServerUniverse.LeavesLoot
    rw [hents, hu.sound.ents.find_remove]
    by_cases hsame : k'.victim = k.victim
    · rw [if_pos hsame, hsame, hc]
      refine iff_of_false (fun ⟨_, hnone, _⟩ => absurd hnone nofun) ?_
      rintro ⟨c', hc', _, hship, _⟩
      exact hno (by rwa [Option.some.inj hc'])
    · rw [if_neg hsame]

theorem kills_drops (ks : List (Hit F)) (u : ServerUniverse F D) :
    Drops (∃ k ∈ ks, u.LeavesLoot k) u (ks.foldl ServerUniverse.processKill u) := by
  induction ks generalizing u with
  | nil => exact (drops_of_eq rfl rfl rfl).congr (iff_of_false id fun ⟨_, hk, _⟩ =>
      absurd hk List.not_mem_nil)
  | cons k ks ih =>
      have hboth := (processKill_drops u k).trans (ih (u.processKill k))
      refine Drops.of_calm hboth.counter hboth.clock fun hu _ => hboth.congr ?_
      rw [List.exists_mem_cons_iff]
      -- Whether a kill of the rest leaves loot is decided before the first.
      constructor
      · rintro (hk | ⟨k', hk', hleaves⟩)
        · exact Or.inl hk
        · exact ((leavesLoot_processKill hu k k').mp (Or.inr hleaves)).imp_right
            fun h => ⟨k', hk', h⟩
      · rintro (hk | ⟨k', hk', hleaves⟩)
        · exact Or.inl hk
        · exact ((leavesLoot_processKill hu k k').mpr (Or.inr hleaves)).imp_right
            fun h => ⟨k', hk', h⟩

theorem processKills_drops (u : ServerUniverse F D) (hits : List (Hit F)) :
    Drops (u.Looting hits) u (u.processKills hits) := by
  refine (kills_drops _ u).congr (exists_congr fun k => ?_)
  rw [List.mem_filter, decide_eq_true_eq, and_assoc]

/-- Ships are shot down by what hits at once. -/
def ServerUniverse.ShootsDown (dt : F) (u : ServerUniverse F D) : Prop :=
  let b := volleys (D := D) dt u.ents
  (b.projs.foldl ServerUniverse.spawnProjectileEntity { u with ents := b.ents }).Looting b.hits

/-- Ships are shot down by what has been under way. -/
def ServerUniverse.StrikesDown (dt : F) (u : ServerUniverse F D) : Prop :=
  let b := barrage (D := D) u.projectileSubSteps dt u.ents
  (b.expired.foldl ServerUniverse.destroyUnit { u with ents := b.ents }).Looting b.hits

/-- A ship is lost in a step. -/
def ServerUniverse.LosesShip (dt : F) (u : ServerUniverse F D) : Prop :=
  u.combatEnabled = true ∧ ((u.beforeCombat dt).ShootsDown dt ∨
    ((u.beforeCombat dt).combatSystem dt).StrikesDown dt)

theorem combatSystem_drops (dt : F) (u : ServerUniverse F D) :
    Drops (u.ShootsDown dt) u (u.combatSystem dt) := by
  unfold ServerUniverse.combatSystem
  have hfired : Drops False u { u with ents := (volleys (D := D) dt u.ents).ents } :=
    onEnts_drops (f := fun e => (volleys (D := D) dt e).ents) rfl (volleys_steady dt u.ents)
  refine hfired.none_trans (Drops.none_trans (drops_foldl (fun v p => ?_) _ _)
    (processKills_drops _ _))
  exact spawn_drops_none (thing_born (fun _ => rfl) (fun _ => rfl) (fun _ => rfl) fun _ => rfl)
    (.shot p) fun _ => rfl

theorem projectileSystem_drops (dt : F) (u : ServerUniverse F D) :
    Drops (u.StrikesDown dt) u (u.projectileSystem dt) := by
  unfold ServerUniverse.projectileSystem
  simp only []
  have hflown : Drops False u
      { u with ents := (barrage (D := D) u.projectileSubSteps dt u.ents).ents } :=
    onEnts_drops (f := fun e => (barrage (D := D) u.projectileSubSteps dt e).ents) rfl
      (barrage_steady _ dt u.ents)
  refine (hflown.none_trans (destroyUnits_drops _ fun hv n hn c hc => ?_)).none_trans
    (processKills_drops _ _)
  -- What is done is a shot, and a container is none.
  rcases barrage_shots (D := D) u.projectileSubSteps dt u.ents n hn with ⟨i, c₀, hslot, hid, hshot⟩
  have hfind := hv.sound.ents.find_of_slot hslot
  rw [hid, hc, Option.some.injEq] at hfind
  cases hloot : c.loot.isSome with
  | false => rfl
  | true =>
      have hnone := (hv.inert.find hc hloot).2
      rw [hfind, hshot] at hnone
      exact absurd hnone nofun

theorem deliver_drops (u : ServerUniverse F D) (done : UInt32 × UniversePos) :
    Drops False u (u.deliver done) := by
  have hship : Drops False u (u.spawnFleetShip done.1 shipShapeId done.2).2 := by
    unfold ServerUniverse.spawnFleetShip ServerUniverse.spawnFleetShipFit
    split
    · exact drops_of_eq rfl rfl rfl
    · exact spawn_drops_none (ship_born _ _ _ _ _) (.ship _ _ _ _) fun n =>
        installFitOr_induct (P := fun c => c.loot = none) rfl (fun _ _ => rfl) defaultShipFit
          defaultShipFit
  unfold ServerUniverse.deliver
  simp only []
  split
  · exact hship.none_trans (drops_of_eq rfl rfl rfl)
  · exact hship

theorem buildSystem_drops (dt : F) (u : ServerUniverse F D) : Drops False u (u.buildSystem dt) := by
  unfold ServerUniverse.buildSystem
  have hbuilt : Drops False u { u with ents := u.ents.forEach fun c => (buildUnit u.economy dt c).2 } := by
    refine drops_of_evolves (forEach_steady fun c _ => buildUnit_steady _ dt c)
      (Entities.Evolves.forEach fun c _ => ?_) rfl rfl
    unfold buildUnit SameLoot
    split
    · rfl
    · rfl
  exact hbuilt.none_trans (drops_foldl deliver_drops _ _)

omit [Floating D] in
theorem baseRetreatSystem_drops (u : ServerUniverse F D) :
    Drops False u u.baseRetreatSystem := by
  refine drops_of_evolves (baseRetreatSystem_steady u) (Entities.Evolves.forEach fun c _ => ?_) rfl
    rfl
  unfold ServerUniverse.retreatUnit SameLoot
  split
  · rfl
  · rfl
  · rfl

/-- A harvester changes its place, its order and its cargo, and what it takes from and brings
    to. -/
theorem harvestUnit_loot (economy : EconomyTuning F) (dt : F) (e : Entities F) (i : Nat)
    (c : Components F) :
    Entities.Evolves SameLoot e (harvestUnit (D := D) economy dt e i c) := by
  have hat : ∀ (e : Entities F) (f : Components F → Components F),
      (∀ c, (f c).loot = c.loot) → Entities.Evolves SameLoot e (e.modifyAt i f) :=
    fun e f hf => Entities.Evolves.modifyAt sameLoot_refl fun c _ => hf c
  have hother : ∀ n (f : Components F → Components F), (∀ c, (f c).loot = c.loot) →
      Entities.Evolves SameLoot e (e.modify n f) :=
    fun n f hf => Entities.Evolves.modify sameLoot_refl fun c _ => hf c
  unfold harvestUnit
  split
  · rename_i ord cargo _ _
    simp only []
    split
    · exact Entities.Evolves.refl sameLoot_refl e
    · split
      · split
        · exact hat e _ fun _ => rfl
        · exact hat e _ fun _ => rfl
      · exact hat e _ fun _ => rfl
    · split
      · exact hat e _ fun _ => rfl
      · refine Entities.Evolves.trans sameLoot_trans (hother _ _ ?_) (hat _ _ ?_)
        · exact fun _ => rfl
        · exact fun _ => rfl
    · split
      · split
        · exact hat e _ fun _ => rfl
        · exact hat e _ fun _ => rfl
      · exact hat e _ fun _ => rfl
    · split
      · exact hat e _ fun _ => rfl
      · refine Entities.Evolves.trans sameLoot_trans (hother _ _ ?_) (hat _ _ ?_)
        · exact fun _ => rfl
        · exact fun _ => rfl
  · exact Entities.Evolves.refl sameLoot_refl e

theorem harvestSystem_drops (dt : F) (u : ServerUniverse F D) :
    Drops False u (u.onEnts (harvestSystem (D := D) u.economy dt)) :=
  drops_of_evolves (harvestSystem_steady u.economy dt u.ents)
    (Entities.visit_evolves id sameLoot_refl sameLoot_trans
      (fun e i c _ => harvestUnit_loot u.economy dt e i c) u.ents) rfl rfl

theorem beforeTravel_drops (dt : F) (u : ServerUniverse F D) :
    Drops (u.LosesShip dt) u (beforeTravel dt u) := by
  unfold beforeTravel ServerUniverse.LosesShip
  split
  · rename_i hcombat
    refine Drops.trans_none ?_ (baseRetreatSystem_drops _)
    refine Drops.trans_none ?_ (onEnts_drops rfl (regenSystem_steady dt _))
    have hfight := (combatSystem_drops dt (u.beforeCombat dt)).trans (projectileSystem_drops dt _)
    refine Drops.none_trans ?_ (hfight.congr (and_iff_right hcombat).symm)
    refine onEnts_drops (x := .ewar) rfl ?_
    refine ((aiSystem_steady (D := D) u.ents).mono (by decide)).trans ?_
    exact (ewarLogiSystem_steady dt _).trans ((fleetOrderSystem_steady dt _).mono (by decide))
  · rename_i hpeace
    refine Drops.congr ?_ (iff_of_false id fun h => hpeace h.1)
    refine onEnts_drops (x := .ewar) rfl ?_
    exact ((aiSystem_steady (D := D) u.ents).mono (by decide)).trans
      ((fleetOrderSystem_steady dt _).mono (by decide))

/-- A step after its systems. -/
def ServerUniverse.passTime (u : ServerUniverse F D) (dt : F) : ServerUniverse F D :=
  { u with simTime := u.simTime + widen dt, tick := u.tick + 1 }

/-- A step is what its systems do and then the passing of time. -/
theorem step_drops (dt : F) (u : ServerUniverse F D) :
    ∃ v, Drops (u.LosesShip dt) u v ∧ u.step dt = v.passTime dt := by
  refine ⟨((roam dt (beforeTravel dt u)).buildSystem dt).onEnts syncHealthMirror, ?_, ?_⟩
  · refine Drops.trans_none ?_ (onEnts_drops rfl (syncHealthMirror_steady _))
    refine Drops.trans_none ?_ (buildSystem_drops dt _)
    refine (beforeTravel_drops dt u).trans_none ?_
    have hmoved : Drops False (beforeTravel dt u) ((beforeTravel dt u).onEnts fun e =>
        navigationSystem (D := D) (beforeTravel dt u).nav dt (movementSystem dt e)) := by
      refine onEnts_drops (x := .travel) rfl ?_
      exact (movementSystem_steady dt _).trans (navigationSystem_steady _ dt _)
    exact hmoved.none_trans (harvestSystem_drops dt _)
  · rw [step_eq]
    rfl

/-! ## The other calls -/

omit [Floating F] [Floating D] [Widens F D] in
theorem shelters_of_eq (hents : u'.ents = u.ents) (hcount : u'.nextNetId = u.nextNetId) :
    Shelters kept u u' := by
  refine shelters_of_evolves (x := .none) ?_ ?_ hcount
  · rw [hents]
    exact Entities.Steady.refl _ _
  · rw [hents]
    exact Entities.Evolves.refl sameLoot_refl _

omit [Floating F] [Floating D] [Widens F D] in
theorem shelters_foldl {α : Type} {f : ServerUniverse F D → α → ServerUniverse F D}
    (hf : ∀ u a, Shelters kept u (f u a)) (l : List α) (u : ServerUniverse F D) :
    Shelters kept u (l.foldl f u) := by
  induction l generalizing u with
  | nil => exact shelters_of_eq rfl rfl
  | cons a l ih => exact (hf u a).trans (ih (f u a))

/-- The call claims a container, by itself or as one of the orders of a command. -/
def Claims (u : ServerUniverse F D) (n : UInt32) : Op F → Prop
  | .claimLoot claimer container => container = n ∧ (u.claimLoot claimer n).1 = true
  | .applyFleetCommand player cmd => cmd.intent = .claimLoot ∧ cmd.targetNetId = n ∧
      ∃ units claimer rest, cmd.units = units ++ claimer :: rest ∧
        ((u.applyFleetCommand player { cmd with units := units }).2.claimLoot claimer n).1 = true
  | _ => False

/-- A container after something that has not removed it. -/
def Remains (u' : ServerUniverse F D) (n : UInt32) (c : Components F) : Prop :=
  ∃ c', u'.ents.find n = some c' ∧ c'.loot = c.loot

omit [Floating F] [Floating D] [Widens F D] in
theorem remains_modify (hc : u.ents.find n = some c)
    {f : Components F → Components F} (hf : ∀ c, (f c).loot = c.loot) :
    Remains (u.modify m f) n c :=
  (Entities.Evolves.modify (R := SameLoot) sameLoot_refl fun c _ => hf c).find_after hc

omit [Floating D] [Widens F D] in
theorem claimLoot_ents_sound (hu : u.ents.Sound) (claimer container : UInt32) :
    (u.claimLoot claimer container).2.ents.Sound := by
  unfold ServerUniverse.claimLoot
  split
  · rename_i lc cg _ _
    simp only []
    rw [destroyUnit_ents]
    refine Entities.Sound.remove ?_ container
    refine Entities.Evolves.sound (R := fun c c' => c'.netId = c.netId) (fun _ _ h => h) ?_ hu
    exact Entities.Evolves.modify (R := fun c c' => c'.netId = c.netId) (fun _ => rfl) fun _ _ => rfl
  · exact hu

omit [Floating D] [Widens F D] in
/-- A claim of another container. -/
theorem claimLoot_remains (hu : u.ents.Sound) {claimer container n : UInt32}
    (hc : Remains u n c) (hother : n ≠ container) :
    Remains (u.claimLoot claimer container).2 n c := by
  rcases hc with ⟨c₀, hc₀, hsame⟩
  unfold ServerUniverse.claimLoot
  split
  · rename_i lc cg _ _
    simp only []
    rcases remains_modify (m := claimer) hc₀ (f := fun c => { c with
      cargo := some (ServerUniverse.takeLoot ResourceType.all cg lc.items 0).1 }) fun _ => rfl with
      ⟨c', hc', hsame'⟩
    have hsound := Entities.Evolves.sound (R := fun c c' => c'.netId = c.netId) (fun _ _ h => h)
      (Entities.Evolves.modify (n := claimer) (R := fun c c' => c'.netId = c.netId) (fun _ => rfl)
        (f := fun c => { c with
          cargo := some (ServerUniverse.takeLoot ResourceType.all cg lc.items 0).1 })
        fun _ _ => rfl) hu
    refine ⟨c', ?_, hsame'.trans hsame⟩
    show Entities.find (ServerUniverse.destroyUnit _ container).ents n = some c'
    rw [destroyUnit_ents]
    exact (hsound.find_remove container n).trans ((if_neg hother).trans hc')
  · exact ⟨c₀, hc₀, hsame⟩

omit [Floating F] [Floating D] [Widens F D] in
theorem Remains.modify (h : Remains u n c)
    {f : Components F → Components F} (hf : ∀ c, (f c).loot = c.loot) :
    Remains (u.modify m f) n c := by
  rcases h with ⟨c₀, hc₀, hsame⟩
  rcases remains_modify (m := m) hc₀ hf with ⟨c', hc', hsame'⟩
  exact ⟨c', hc', hsame'.trans hsame⟩

omit [Floating F] [Floating D] [Widens F D] in
theorem orderHarvest_remains {n ship node : UInt32} (h : Remains u n c) :
    Remains (u.orderHarvest ship node).2 n c := by
  unfold ServerUniverse.orderHarvest
  split
  · exact h
  · split
    · exact h
    · split
      · exact h.modify fun _ => rfl
      · exact h

omit [Floating D] [Widens F D] in
theorem enqueueBuild_remains {n base : UInt32} (h : Remains u n c) :
    Remains (u.enqueueBuild base).2 n c := by
  unfold ServerUniverse.enqueueBuild
  split
  · exact h
  · split
    · exact h
    · exact h.modify fun _ => rfl

omit [Floating D] [Widens F D] in
theorem beginWarpTo_remains (dest : UniversePos)
    (h : Remains u n c) : Remains (u.beginWarpTo m dest).2 n c := by
  rcases beginWarpTo_cases u m dest with hsame | ⟨_, _, _, _, _, _, hgo⟩
  · rw [hsame]
    exact h
  · rw [hgo]
    exact h.modify fun _ => rfl

theorem beginJumpTo_remains (beacon : String)
    (h : Remains u n c) : Remains (u.beginJumpTo m beacon).2 n c := by
  rcases beginJumpTo_cases u m beacon with ⟨_, hsame⟩ |
    ⟨_, _, _, _, _, _, _, _, _, _, _, _, _, hgo⟩
  · rw [hsame]
    exact h
  · rw [hgo]
    exact h.modify fun _ => rfl

omit [Floating F] [Floating D] [Widens F D] in
theorem pushOrder_remains (entry : FleetOrderEntry F)
    (queue : Bool) (h : Remains u n c) : Remains (u.pushOrder m entry queue).2 n c := by
  unfold ServerUniverse.pushOrder
  split
  · exact h
  · split
    · exact h.modify fun _ => rfl
    · exact h.modify fun _ => rfl

omit [Floating F] [Floating D] [Widens F D] in
theorem pushStance_remains (type : OrderType)
    (cmd : FleetCommand F) (h : Remains u n c) : Remains (u.pushStance m type cmd).2 n c := by
  unfold ServerUniverse.pushStance
  split
  · exact h
  · exact pushOrder_remains _ _ h

/-- No order but a claim removes anything. -/
theorem applyIntentToUnit_remains {cmd : FleetCommand F}
    (hcmd : cmd.intent ≠ .claimLoot) (h : Remains u n c) :
    Remains (u.applyIntentToUnit m cmd).2 n c := by
  unfold ServerUniverse.applyIntentToUnit
  split
  · exact h.modify fun _ => rfl
  · exact orderHarvest_remains h
  · exact beginWarpTo_remains _ h
  · exact beginJumpTo_remains _ h
  · exact enqueueBuild_remains h
  · exact absurd ‹_› hcmd
  · exact pushOrder_remains _ _ h
  · split
    · exact h
    · split
      · exact h
      · exact pushOrder_remains _ _ h
  · exact pushStance_remains _ _ h
  · exact pushStance_remains _ _ h
  · exact pushStance_remains _ _ h
  · exact pushStance_remains _ _ h
  · exact h

theorem applyIntentToUnit_units (u : ServerUniverse F D) (m : UInt32) (cmd : FleetCommand F)
    (l : List UInt32) :
    u.applyIntentToUnit m { cmd with units := l } = u.applyIntentToUnit m cmd := rfl

/-- The last unit of a command. -/
theorem applyFleetCommand_snoc (u : ServerUniverse F D) (player : UInt32) (cmd : FleetCommand F)
    (l : List UInt32) (m : UInt32) :
    (u.applyFleetCommand player { cmd with units := l ++ [m] }).2 =
      if ((u.applyFleetCommand player { cmd with units := l }).2.ents.find m).bind
          Components.ownerId = some player then
        ((u.applyFleetCommand player { cmd with units := l }).2.applyIntentToUnit m cmd).2
      else (u.applyFleetCommand player { cmd with units := l }).2 := by
  unfold ServerUniverse.applyFleetCommand
  simp only [List.foldl_append, List.foldl_cons, List.foldl_nil, applyIntentToUnit_units]
  exact apply_ite Prod.snd _ _ _

/-- When no unit of a command claims the container, the command changes nothing. -/
theorem applyFleetCommand_unclaimed (u : ServerUniverse F D) (player : UInt32)
    {cmd : FleetCommand F} (hclaim : cmd.intent = .claimLoot) (l : List UInt32)
    (hno : ∀ units claimer rest, l = units ++ claimer :: rest →
      ((u.applyFleetCommand player { cmd with units := units }).2.claimLoot claimer
        cmd.targetNetId).1 = false) :
    (u.applyFleetCommand player { cmd with units := l }).2 = u := by
  induction l using List.reverseRecOn with
  | nil => rfl
  | append_singleton l m ih =>
      have hbefore : (u.applyFleetCommand player { cmd with units := l }).2 = u := by
        refine ih fun units claimer rest hl => hno units claimer (rest ++ [m]) ?_
        rw [hl, List.append_assoc, List.cons_append]
      have hlast := hno l m [] rfl
      rw [hbefore] at hlast
      rw [applyFleetCommand_snoc, hbefore]
      split
      · unfold ServerUniverse.applyIntentToUnit
        rw [hclaim]
        exact claimLoot_rejected hlast
      · rfl

/-- A command leaves a container alone, or one of its units claims it. -/
theorem applyFleetCommand_remains (hu : u.ents.Sound)
    (hc : u.ents.find n = some c) (player : UInt32) (cmd : FleetCommand F) :
    Remains (u.applyFleetCommand player cmd).2 n c ∨ Claims u n (.applyFleetCommand player cmd) := by
  have hstart : Remains u n c := ⟨c, hc, rfl⟩
  by_cases hclaim : cmd.intent = .claimLoot
  · by_cases hn : cmd.targetNetId = n
    · by_cases hany : Claims u n (.applyFleetCommand player cmd)
      · exact Or.inr hany
      · have hsame := applyFleetCommand_unclaimed u player hclaim cmd.units ?_
        · refine Or.inl ?_
          rw [show cmd = { cmd with units := cmd.units } from rfl, hsame]
          exact hstart
        · intro units claimer rest hl
          rw [← Bool.not_eq_true]
          exact fun hok => hany ⟨hclaim, hn, units, claimer, rest, hl, by rw [← hn]; exact hok⟩
    · -- The units claim another one, one after the other.
      refine Or.inl (applyFleetCommand_keeps (P := fun v => v.ents.Sound ∧ Remains v n c) player cmd
        (fun v m hv => ?_) u ⟨hu, hstart⟩).2
      unfold ServerUniverse.applyIntentToUnit
      rw [hclaim]
      exact ⟨claimLoot_ents_sound hv.1 _ _, claimLoot_remains hv.1 hv.2 fun h => hn h.symm⟩
  · exact Or.inl (applyFleetCommand_keeps (P := fun v => Remains v n c) player cmd
      (fun v m hv => applyIntentToUnit_remains hclaim hv) u hstart)

/-! ## The spawners -/

theorem spawnNpcSite_shelters (u : ServerUniverse F D) (center : UniversePos) (count : Int)
    (radius : F) (fitName : String) : Shelters kept u (u.spawnNpcSite center count radius fitName) := by
  unfold ServerUniverse.spawnNpcSite
  simp only []
  refine Shelters.trans ?_ (shelters_foldl (fun v i => ?_) _ _)
  · exact shelters_of_eq rfl rfl
  · exact spawn_shelters (npc_born v.combat _ _ fitName) (.guardian _ _ fitName)

theorem spawnResourceNode_shelters (u : ServerUniverse F D) (type : ResourceType) (yield : F)
    (pos : UniversePos) : Shelters kept u (u.spawnResourceNode type yield pos) :=
  spawn_shelters (thing_born (fun _ => rfl) (fun _ => rfl) (fun _ => rfl) fun _ => rfl)
    (.node type yield pos)

theorem loadUniverse_shelters (u : ServerUniverse F D) (data : UniverseDataset F) :
    Shelters kept u (u.loadUniverse data) := by
  unfold ServerUniverse.loadUniverse
  simp only []
  refine Shelters.trans (Shelters.trans ?_ (shelters_foldl (fun v b => ?_) _ _))
    (shelters_foldl (fun v f => ?_) _ _)
  · exact shelters_of_eq rfl rfl
  · unfold ServerUniverse.spawnBeacon
    simp only []
    have hspawned : Shelters kept v (v.spawn _) := spawn_shelters (thing_born (fun _ => rfl)
      (fun _ => rfl) (fun _ => rfl) fun _ => rfl) (.beacon (UInt16.ofNat b.2) b.1.pos)
    exact hspawned.trans (shelters_of_eq rfl rfl)
  · unfold ServerUniverse.spawnField
    exact shelters_foldl (fun v i => spawnResourceNode_shelters v _ _ _) _ _

/-! ## Runs -/

omit [Floating F] [Floating D] [Widens F D] in
/-- The removal of what is no container leaves containers alone. -/
theorem despawnBase_remains (hu : u.Sound)
    (hc : u.ents.find n = some c) (hloot : c.loot.isSome = true)
    (hother : ∀ c, u.ents.find m = some c → c.loot = none) : Remains (u.despawnBase m).2 n c := by
  have hne : n ≠ m := by
    rintro rfl
    rw [hother c hc] at hloot
    exact absurd hloot Bool.false_ne_true
  unfold ServerUniverse.despawnBase
  split
  · exact ⟨c, hc, rfl⟩
  · exact ⟨c, (hu.ents.find_remove m n).trans ((if_neg hne).trans hc), rfl⟩

/-- Every call but a step leaves a container alone or claims it. -/
theorem call_stays (hu : Calm u) (o : Op F) (hw : (u.apply o).NoWrap) (hstep : ∀ dt, o ≠ .step dt)
    (hother : ∀ m, o = .despawnBase m → ∀ c, u.ents.find m = some c → c.loot = none)
    (hc : u.ents.find n = some c) (hloot : c.loot.isSome = true) :
    Remains (u.apply o) n c ∨ Claims u n o := by
  have hsheltered : Shelters (fun _ => True) u (u.apply o) → Remains (u.apply o) n c ∨ Claims u n o :=
    fun h => Or.inl (h.stays hu hw n trivial c hc hloot)
  have hstart : Remains u n c := ⟨c, hc, rfl⟩
  cases o with
  | spawnBase start vel => exact hsheltered (spawn_shelters (base_born u start vel) (.base start vel))
  | spawnProp shapeId pos =>
      exact hsheltered (spawn_shelters (thing_born (fun _ => rfl) (fun _ => rfl) (fun _ => rfl)
        fun _ => rfl) (.prop shapeId pos))
  | spawnResourceNode type yield pos => exact hsheltered (spawnResourceNode_shelters u type yield pos)
  | spawnFleetShip player shapeId pos fitName =>
      refine hsheltered ?_
      simp only [ServerUniverse.apply, ServerUniverse.spawnFleetShipFit]
      split
      · exact shelters_of_eq rfl rfl
      · exact spawn_shelters (ship_born u player shapeId pos fitName) (.ship player shapeId pos fitName)
  | spawnNpcSite center count radius fitName => exact hsheltered (spawnNpcSite_shelters u _ _ _ _)
  | loadUniverse data => exact hsheltered (loadUniverse_shelters u data)
  | beginWarpTo netId dest => exact Or.inl (beginWarpTo_remains dest hstart)
  | beginJumpTo netId beacon => exact Or.inl (beginJumpTo_remains beacon hstart)
  | interdict netId => exact Or.inl (hstart.modify fun _ => rfl)
  | enqueueBuild netId => exact Or.inl (enqueueBuild_remains hstart)
  | orderHarvest ship node => exact Or.inl (orderHarvest_remains hstart)
  | applyFleetCommand player cmd => exact applyFleetCommand_remains hu.sound.ents hc player cmd
  | claimLoot claimer container =>
      by_cases hn : n = container
      · by_cases hok : (u.claimLoot claimer container).1 = true
        · exact Or.inr ⟨hn.symm, hn ▸ hok⟩
        · refine Or.inl ?_
          simp only [ServerUniverse.apply]
          rw [claimLoot_rejected ((Bool.not_eq_true _).mp hok)]
          exact hstart
      · exact Or.inl (claimLoot_remains hu.sound.ents hstart hn)
  | despawnBase m => exact Or.inl (despawnBase_remains hu.sound hc hloot (hother m rfl))
  | drain feed =>
      refine hsheltered ?_
      cases feed <;> exact shelters_of_eq rfl rfl
  | step dt => exact absurd rfl (hstep dt)
  | _ => exact hsheltered (shelters_of_eq rfl rfl)

/-- The times at which the containers of a universe expire. -/
def ServerUniverse.lootDates (u : ServerUniverse F D) : List F :=
  u.ents.world.alive.filterMap fun c => c.loot.map LootContainer.expiresAt

/-- A call that does what is said of loot: after a step no container is there at or after its
    time, and a container stays unless it is claimed. -/
def Expires (u : ServerUniverse F D) (o : Op F) : Prop :=
  (∀ dt, o = .step dt → ∀ c ∈ (u.apply o).ents.world.alive, ∀ lc, c.loot = some lc →
    ¬ widen lc.expiresAt ≤ (u.apply o).simTime) ∧
  ∀ c ∈ u.ents.world.alive, ∀ lc, c.loot = some lc →
    (∃ c' ∈ (u.apply o).ents.world.alive, c'.netId = c.netId ∧ c'.loot = some lc) ∨
      Claims u c.netId o

/-- A call that is asked for the removal of no container, or a step that ends before the times
    that are set: of the containers there are, and of a drop, if a ship is lost. -/
structure Timely (u : ServerUniverse F D) (o : Op F) : Prop where
  other : ∀ n, o = .despawnBase n → ∀ c, u.ents.find n = some c → c.loot = none
  due : ∀ dt, o = .step dt → ∀ t ∈ u.lootDates, ¬ widen t ≤ u.simTime + widen dt
  dropped : ∀ dt, o = .step dt → u.LosesShip dt → ¬ widen u.dropDate ≤ u.simTime + widen dt

/-- A universe as a machine. -/
def call (u : ServerUniverse F D) (o : Op F) : Option (ServerUniverse F D) := some (u.apply o)

theorem ServerUniverse.Reachable.calm (h : u.Reachable) : Calm u := by
  have hreached : Reached u := by
    induction h with
    | fresh => exact .fresh
    | apply o _ _ ih => exact ih.apply o
    | restore order _ _ horder ihu ihv => exact .restore order ihu ihv horder
  exact ⟨h.sound, hreached.everyone inert_innate restored_inert⟩

omit [Floating F] [Floating D] [Widens F D] in
theorem mem_lootDates {t : F} : t ∈ u.lootDates ↔
    ∃ c ∈ u.ents.world.alive, ∃ lc, c.loot = some lc ∧ lc.expiresAt = t := by
  simp only [ServerUniverse.lootDates, List.mem_filterMap, Option.map_eq_some_iff]

/-- The times after a step are those before, and that of a drop if a ship is lost. -/
theorem step_dates (hu : Calm u) {dt : F} (hw : (u.step dt).NoWrap) (t : F) :
    t ∈ (u.step dt).lootDates ↔ t ∈ u.lootDates ∨ u.LosesShip dt ∧ t = u.dropDate := by
  rcases step_drops dt u with ⟨v, hdrops, hstep⟩
  rw [hstep] at hw ⊢
  rw [mem_lootDates, mem_lootDates]
  constructor
  · rintro ⟨c', hc', lc, hlc, rfl⟩
    have hv : Calm v := hdrops.calm hu hw
    have hfind : v.ents.find c'.netId = some c' := hv.sound.ents.find_of_mem_alive hc'
    exact (hdrops.origin hu hw _ c' hfind lc hlc).imp_left fun ⟨c, hc, hloot⟩ =>
      ⟨c, Entities.mem_alive_of_find hc, lc, hloot, rfl⟩
  · rintro (⟨c, hc, lc, hlc, rfl⟩ | ⟨hlost, rfl⟩)
    · rcases hdrops.stays hu hw _ trivial c (hu.sound.ents.find_of_mem_alive hc)
        (by rw [hlc, Option.isSome_some]) with ⟨c', hc', hsame⟩
      exact ⟨c', Entities.mem_alive_of_find hc', lc, hsame.trans hlc, rfl⟩
    · rcases hdrops.dropped hu hw hlost with ⟨_, c', lc, hc', hlc, hdue⟩
      exact ⟨c', Entities.mem_alive_of_find hc', lc, hlc, hdue⟩

theorem step_simTime (dt : F) (u : ServerUniverse F D) :
    (u.step dt).simTime = u.simTime + widen dt := by
  rcases step_drops dt u with ⟨v, hdrops, hstep⟩
  have hclock := hdrops.clock
  unfold ServerUniverse.clock at hclock
  rw [hstep, ← (Prod.mk.inj hclock).1]
  rfl

/-- A step keeps every container. -/
theorem step_stays (hu : Calm u) {dt : F} (hw : (u.step dt).NoWrap)
    (hc : u.ents.find n = some c) (hloot : c.loot.isSome = true) :
    Remains (u.step dt) n c := by
  rcases step_drops dt u with ⟨v, hdrops, hpass⟩
  rw [hpass] at hw ⊢
  exact hdrops.stays hu hw n trivial c hc hloot

omit [Floating F] [Floating D] [Widens F D] in
theorem find_despawnBase (hu : u.ents.Sound) (n : UInt32) :
    (u.despawnBase n).2.ents.find n = none := by
  unfold ServerUniverse.despawnBase
  split
  · rename_i hnone
    unfold Entities.find
    rw [hnone, Option.bind_none]
  · exact (hu.find_remove n n).trans (if_pos rfl)

theorem Expires.timely (hu : Calm u) {o : Op F} (hids : (u.apply o).NoWrap) (h : Expires u o) :
    Timely u o := by
  have hend : ∀ dt, o = .step dt → ∀ t ∈ (u.step dt).lootDates,
      ¬ widen t ≤ u.simTime + widen dt := by
    rintro dt rfl t ht
    rcases mem_lootDates.mp ht with ⟨c, hc, lc, hlc, rfl⟩
    rw [← step_simTime dt u]
    exact h.1 dt rfl c hc lc hlc
  refine ⟨?_, ?_, ?_⟩
  · rintro n rfl c hc
    cases hlc : c.loot with
    | none => rfl
    | some lc =>
        rcases h.2 c (Entities.mem_alive_of_find hc) lc hlc with ⟨c', hc', hsame, -⟩ | hclaims
        · -- Nothing is left under the id.
          have hfind := (apply_sound _ hu.sound hids).ents.find_of_mem_alive hc'
          rw [hsame, hu.sound.ents.netId_of_find hc] at hfind
          exact absurd ((find_despawnBase hu.sound.ents n).symm.trans hfind) nofun
        · exact absurd hclaims not_false
  · rintro dt rfl t ht
    exact hend dt rfl t ((step_dates hu hids t).mpr (Or.inl ht))
  · rintro dt rfl hlost
    exact hend dt rfl _ ((step_dates hu hids _).mpr (Or.inr ⟨hlost, rfl⟩))

theorem Timely.expires (hu : Calm u) {o : Op F} (hids : (u.apply o).NoWrap) (h : Timely u o) :
    Expires u o := by
  constructor
  · rintro dt rfl c hc lc hlc
    rw [show (u.apply (.step dt)).simTime = _ from step_simTime dt u]
    have hdate : lc.expiresAt ∈ (u.step dt).lootDates := mem_lootDates.mpr ⟨c, hc, lc, hlc, rfl⟩
    rcases (step_dates hu hids _).mp hdate with hold | ⟨hlost, hnow⟩
    · exact h.due dt rfl _ hold
    · rw [hnow]
      exact h.dropped dt rfl hlost
  · intro c hc lc hlc
    have hfind := hu.sound.ents.find_of_mem_alive hc
    have hloot : c.loot.isSome = true := by rw [hlc, Option.isSome_some]
    have hremains : Remains (u.apply o) c.netId c ∨ Claims u c.netId o := by
      by_cases hstep : ∃ dt, o = .step dt
      · rcases hstep with ⟨dt, rfl⟩
        exact Or.inl (step_stays hu hids hfind hloot)
      · exact call_stays hu o hids (not_exists.mp hstep) h.other hfind hloot
    rcases hremains with ⟨c', hc', hsame⟩ | hclaims
    · exact Or.inl ⟨c', Entities.mem_alive_of_find hc',
        (apply_sound o hu.sound hids).ents.netId_of_find hc', hsame.trans hlc⟩
    · exact Or.inr hclaims

/-- In every run without an id given out twice, from any universe that a host gets to, a call does
    what is said of loot exactly if it is timely. -/
theorem loot_expires {v : ServerUniverse F D} (hu : u.Reachable)
    (h : Run.Reaches call (fun w o => (w.apply o).NoWrap) u v) (o : Op F)
    (hids : (v.apply o).NoWrap) : Expires v o ↔ Timely v o := by
  have hv : v.Reachable := by
    refine h.invariant (I := ServerUniverse.Reachable) (fun s o t hs ho hcall => ?_) hu
    rw [← Option.some.inj hcall]
    exact hs.apply o ho
  exact ⟨Expires.timely hv.calm hids, Timely.expires hv.calm hids⟩

end

/-- A catalog whose weapons hit at once and hard. -/
def deadlyCatalog : CombatCatalog Float32 :=
  { (defaultCombatCatalog : CombatCatalog Float32) with
    modules := defaultCombatCatalog.modules.map fun m =>
      { m with baseDamage := 1000000.0, projectileSpeed := 0.0, tracking := 1000.0 } }

/-- A base, a hostile ship in its range and one second. -/
def ambush : List (Op Float32) :=
  [.loadCombat deadlyCatalog, .spawnBase ⟨0, 0, 0⟩ Vec3.zero,
    .spawnFleetShip 2 shipShapeId ⟨800, 0, 0⟩ defaultShipFit, .step 1.0]

/-- The base and what is left of the ship. -/
def wreck : ServerUniverse Float32 Float := ambush.foldl ServerUniverse.apply .fresh

theorem wreck_reachable : wreck.Reachable := reachable_applyAll .fresh ambush (by decide +kernel)

/-- The loot expires after 300 seconds, and is still there after 301. -/
theorem crate_outlives : wreck.Reachable ∧ (wreck.apply (.step 300.0)).NoWrap ∧
    ∃ c ∈ (wreck.apply (.step 300.0)).ents.world.alive, ∃ lc, c.loot = some lc ∧
      (widen lc.expiresAt : Float) ≤ (wreck.apply (.step 300.0)).simTime := by
  refine ⟨wreck_reachable, by decide +kernel, ?_⟩
  have hany : ((wreck.apply (.step 300.0)).ents.world.alive.any fun c => c.loot.any fun lc =>
      decide ((widen lc.expiresAt : Float) ≤ (wreck.apply (.step 300.0)).simTime)) = true := by
    decide +kernel
  rcases List.any_eq_true.mp hany with ⟨c, hc, hloot⟩
  rcases (Option.any_eq_true _ _).mp hloot with ⟨lc, hlc, hdue⟩
  exact ⟨c, hc, lc, hlc, of_decide_eq_true hdue⟩

/-- For a while it is there and has not expired. -/
theorem loot_expires_wreck : wreck.Reachable ∧ Expires wreck (.step 200.0) := by
  have hdue : ∀ t ∈ wreck.dropDate :: wreck.lootDates,
      ¬ (widen t : Float) ≤ wreck.simTime + widen (200.0 : Float32) := by
    refine @of_decide_eq_true _ (List.decidableBAll _ _) ?_
    decide +kernel
  refine ⟨wreck_reachable, (loot_expires wreck_reachable .refl (.step 200.0)
    (by decide +kernel)).mpr ⟨fun n h => ?_, fun dt h => ?_, fun dt h _ => ?_⟩⟩
  · exact absurd h nofun
  · rw [← Op.step.inj h]
    exact fun t ht => hdue t (List.mem_cons_of_mem _ ht)
  · rw [← Op.step.inj h]
    exact hdue _ List.mem_cons_self

end Shard

end EarthRise
