import EarthRise.Theory.Shard.Acts

/-!
# Totals of a Universe

What the living of a universe add up to, call by call.

A spawned entity adds its value to a total, one that is removed takes away what its net id led
to, and a change of one entity adds the difference. None of this needs an id to be new, only a
sound entity store.

A kill is one removal with at most one spawn before it, of the victim's loot.

## Main definitions

* `ServerUniverse.total`: The sum of a value over the living.

## Theorems

* `Entities.total_insert`, `Entities.total_remove`, `Entities.total_modify`.
* `processKill_cases`: What a kill does.
* `Act.advances`: An act keeps what a step keeps.
-/

namespace EarthRise

namespace Shard

open Ecs (World EntityHandle)
open Universe (UniversePos Vec3)

section

variable {F M : Type} [AddCommMonoid M] (g : Components F → M) {e : Entities F} {n : UInt32}
  {c : Components F}

theorem Entities.total_insert (he : e.world.Sound) (c : Components F) :
    (e.insert c).world.total g = e.world.total g + g c :=
  World.total_createEntity g he c

theorem Entities.total_remove (hc : e.find n = some c) :
    (e.remove n).world.total g + g c = e.world.total g := by
  rcases find_eq_some.mp hc with ⟨h, hn, hget⟩
  unfold Entities.remove
  rw [hn, Option.elim_some]
  exact World.total_destroyEntity g hget

/-- An id that leads to nothing removes nothing. -/
theorem Entities.remove_world_of_none (hn : e.find n = none) : (e.remove n).world = e.world := by
  unfold Entities.remove
  cases hof : e.entityOf n with
  | none => rfl
  | some h =>
      rw [find_of_entityOf hof] at hn
      refine World.destroyEntity_of_not_alive ?_
      unfold World.isAlive
      rw [hn]
      exact Bool.false_ne_true

theorem Entities.total_modify (hc : e.find n = some c) (f : Components F → Components F) :
    (e.modify n f).world.total g + g c = e.world.total g + g (f c) := by
  rcases find_eq_some.mp hc with ⟨h, hn, hget⟩
  unfold Entities.modify
  rw [hn]
  exact World.total_modify g hget f

end

section

variable {F D M : Type} [AddCommMonoid M]

/-- What the living add up to. -/
def ServerUniverse.total (u : ServerUniverse F D) (g : Components F → M) : M :=
  u.ents.world.total g

variable (g : Components F → M) {u u' : ServerUniverse F D} {c : Components F} {n : UInt32}

theorem total_spawn (hu : u.ents.world.Sound) (mk : UInt32 → Components F) :
    (u.spawn mk).total g = u.total g + g (mk u.nextId) :=
  Entities.total_insert g hu _

theorem total_destroyUnit (hc : u.ents.find n = some c) :
    (u.destroyUnit n).total g + g c = u.total g := by
  unfold ServerUniverse.total
  rw [destroyUnit_ents]
  exact Entities.total_remove g hc

theorem total_destroyUnit_of_none (hn : u.ents.find n = none) :
    (u.destroyUnit n).total g = u.total g := by
  unfold ServerUniverse.total
  rw [destroyUnit_ents, Entities.remove_world_of_none hn]

theorem total_modify (hc : u.ents.find n = some c) (f : Components F → Components F) :
    (u.modify n f).total g + g c = u.total g + g (f c) :=
  Entities.total_modify g hc f

theorem total_of_evolves {R : Components F → Components F → Prop}
    (hR : ∀ c c', R c c' → g c' = g c) (h : Entities.Evolves R u.ents u'.ents) :
    u'.total g = u.total g :=
  h.world.total_eq g hR

end

section

variable {F D : Type} [Floating F] [Floating D] [Widens F D] {u u' : ServerUniverse F D}
  {x : Effect}

/-! ## A kill -/

/-- The universe of a kill, with the loot of the victim, before the victim is gone. -/
def ServerUniverse.loot (u : ServerUniverse F D) (c : Components F) (k : Hit F) :
    ServerUniverse F D :=
  if c.shipTag.isSome then (u.recordKill c k.victim k.killer).spawnLoot k.victim
  else u.recordKill c k.victim k.killer

omit [Floating D] in
/-- A kill changes nothing, or it removes a victim that is no base and has no hull left. -/
theorem processKill_cases (u : ServerUniverse F D) (k : Hit F) :
    (u.processKill k = u ∧ ∀ c, u.ents.find k.victim = some c → ∀ d, c.defense = some d →
      d.hull.cur ≤ 0 → c.baseTag = true) ∨ ∃ c, u.ents.find k.victim = some c ∧ c.baseTag = false ∧
      (∃ d, c.defense = some d ∧ d.hull.cur ≤ 0) ∧
        u.processKill k = (u.loot c k).destroyUnit k.victim := by
  unfold ServerUniverse.processKill
  cases hd : (u.ents.find k.victim).bind Components.defense with
  | none =>
      refine Or.inl ⟨rfl, fun c hc d hdef => absurd hd ?_⟩
      rw [hc, Option.bind_some, hdef]
      simp only [reduceCtorEq, not_false_eq_true]
  | some d =>
      simp only []
      rcases Option.bind_eq_some_iff.mp hd with ⟨c, hc, hdef⟩
      have hsame : ∀ c', u.ents.find k.victim = some c' → ∀ d', c'.defense = some d' →
          c' = c ∧ d' = d := fun c' hc' d' hd' => by
        have hcc : c' = c := Option.some.inj (hc'.symm.trans hc)
        exact ⟨hcc, Option.some.inj (hd'.symm.trans (hcc ▸ hdef))⟩
      by_cases hcur : 0 < d.hull.cur
      · rw [if_pos hcur]
        refine Or.inl ⟨rfl, fun c' hc' d' hd' hle => ?_⟩
        rw [(hsame c' hc' d' hd').2] at hle
        exact absurd hcur (Int.not_lt.mpr hle)
      · rw [if_neg hcur]
        unfold ServerUniverse.onUnitKilled
        rw [hc]
        simp only []
        cases hbase : c.baseTag with
        | true => exact Or.inl ⟨rfl, fun c' hc' d' hd' _ => by
            rw [(hsame c' (hc.trans hc') d' hd').1, hbase]⟩
        | false => exact Or.inr ⟨c, rfl, hbase, ⟨d, hdef, Int.not_lt.mp hcur⟩, rfl⟩

omit [Floating D] in
/-- Loot leaves the ids alone that were taken before. -/
theorem find_loot (hu : u.Sound) (c : Components F) (k : Hit F) (hw : (u.loot c k).NoWrap)
    {n : UInt32} {c' : Components F} (hn : u.ents.find n = some c') :
    (u.loot c k).ents.find n = some c' := by
  unfold ServerUniverse.loot at hw ⊢
  by_cases hship : c.shipTag.isSome
  · rw [if_pos hship] at hw ⊢
    unfold ServerUniverse.spawnLoot at hw ⊢
    split
    · exact hn
    · rename_i d hd
      rw [hd] at hw
      have hlt : u.nextNetId < 2 ^ 32 := hw
      have hne : n ≠ u.nextId := by
        rintro rfl
        rw [hu.find_nextId hlt] at hn
        exact absurd hn nofun
      exact (hu.ents.find_insert _ n).trans ((if_neg hne).trans hn)
  · rw [if_neg hship] at hw ⊢
    exact hn

omit [Floating D] in
theorem total_loot {M : Type} [AddCommMonoid M] (g : Components F → M)
    (hu : u.ents.world.Sound) {c : Components F} {k : Hit F}
    (hc : u.ents.find k.victim = some c) :
    (u.loot c k).total g = u.total g + if c.shipTag.isSome then
      g ((u.recordKill c k.victim k.killer).lootContainer c u.nextId) else 0 := by
  unfold ServerUniverse.loot
  by_cases hship : c.shipTag.isSome
  · rw [if_pos hship, if_pos hship]
    unfold ServerUniverse.spawnLoot
    rw [show (u.recordKill c k.victim k.killer).ents.find k.victim = some c from hc]
    exact total_spawn (u := u.recordKill c k.victim k.killer) g hu _
  · rw [if_neg hship, if_neg hship, add_zero]
    rfl

/-! ## Acts -/

omit [Floating F] [Floating D] [Widens F D] in
theorem Shots.not_base {l : List UInt32} (hshots : Shots u.ents l) (hu : u.Sound) :
    ∀ n ∈ l, ∀ c, u.ents.find n = some c → c.baseTag = false := by
  intro n hn c hc
  rcases hshots n hn with ⟨i, c₀, hslot, hid, hshot⟩
  have hfind := hu.ents.find_of_slot hslot
  rw [hid, hc, Option.some.injEq] at hfind
  rw [← hfind] at hshot
  cases hbase : c.baseTag with
  | false => rfl
  | true =>
      rw [(hu.shaped n c hc).shot hbase] at hshot
      exact absurd hshot Bool.false_ne_true

omit [Floating D] in
/-- An act keeps every base, and every entity after it is an earlier one or a new one. -/
theorem Act.advances (h : Act x u u') : Advances x u u' := by
  cases h with
  | change hents => exact advances_of_steady hents rfl
  | shoot p _ => exact spawnProjectileEntity_advances x u p
  | kill k _ => exact processKill_advances x u k
  | expire l _ hshots => exact destroyUnits_advances x l u hshots.not_base
  | deliver done _ => exact deliver_advances x u done
  | record econ alerts time tick => exact advances_of_eq rfl rfl

omit [Floating D] in
theorem Acts.advances (h : Acts x u u') : Advances x u u' := by
  induction h with
  | refl => exact Advances.refl x u
  | tail _ hlast ih => exact ih.trans hlast.advances

end

end Shard

end EarthRise
