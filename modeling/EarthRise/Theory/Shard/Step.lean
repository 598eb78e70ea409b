import EarthRise.Theory.Shard.Growth

/-!
# A Step as a Whole

The systems of a step one after the other, with the entities that they spawn and destroy.

Only two kinds of entities are destroyed in a step: the victims of a round, which are no
bases, and the shots that are done. So every entity of the universe after a step is an
earlier one that is still itself, or has an id that was not taken before, and no base is
lost.

## Theorems

* `combatSystem_advances`, `projectileSystem_advances`, `buildSystem_advances`: The systems
  that spawn or destroy.
* `step_advances`: A step.
-/

namespace EarthRise

namespace Shard

open Universe (UniversePos Vec3)

section

variable {F D : Type} {u u' : ServerUniverse F D} {x : Effect}

/-- What is said of sound universes may be shown of sound universes. -/
theorem Advances.of_sound (hcount : u.nextNetId ≤ u'.nextNetId)
    (h : u.Sound → u'.NoWrap → Advances x u u') : Advances x u u' where
  counter := hcount
  sound := fun hu hw => (h hu hw).sound hu hw
  origin := fun hu hw => (h hu hw).origin hu hw
  bases := fun hu hw => (h hu hw).bases hu hw

theorem advances_foldl {α : Type} {f : ServerUniverse F D → α → ServerUniverse F D}
    (hf : ∀ u a, Advances x u (f u a)) (l : List α) (u : ServerUniverse F D) :
    Advances x u (l.foldl f u) :=
  (steady_lawful x).keeps_foldl hf l u

theorem onEnts_advances {f : Entities F → Entities F} (hf : u.ents.Steady x (f u.ents)) :
    Advances x u (u.onEnts f) :=
  advances_of_steady hf rfl

/-- What is no base does not become one. -/
theorem Advances.not_base (h : Advances x u u') (hu : u.Sound) (hw : u'.NoWrap) {n : UInt32}
    {c : Components F} (hc : u.ents.find n = some c) (hbase : c.baseTag = false) :
    ∀ c', u'.ents.find n = some c' → c'.baseTag = false := by
  intro c' hc'
  rcases h.origin hu hw n c' hc' with ⟨c₀, hc₀, hr⟩ | ⟨hn, _⟩
  · rw [hc, Option.some.injEq] at hc₀
    have htag := congrArg Identity.baseTag hr.identity
    simp only [Components.identity] at htag
    rw [htag, ← hc₀, hbase]
  · exact absurd (hu.below n c hc) (Nat.not_lt_of_le hn)

theorem destroyUnits_nextNetId (l : List UInt32) (u : ServerUniverse F D) :
    (l.foldl ServerUniverse.destroyUnit u).nextNetId = u.nextNetId := by
  induction l generalizing u with
  | nil => rfl
  | cons n l ih => rw [List.foldl_cons, ih, destroyUnit_nextNetId]

/-- Destroying a list of entities, none of which is a base. -/
theorem destroyUnits_of_sound (x : Effect) (l : List UInt32) {u : ServerUniverse F D} (hu : u.Sound)
    (hbase : ∀ n ∈ l, ∀ c, u.ents.find n = some c → c.baseTag = false) :
    Advances x u (l.foldl ServerUniverse.destroyUnit u) := by
  induction l generalizing u with
  | nil => exact Advances.refl x u
  | cons n l ih =>
      have hfirst : Advances x u (u.destroyUnit n) :=
        destroyUnit_advances x u n fun _ => hbase n List.mem_cons_self
      refine hfirst.trans (ih (destroyUnit_sound hu n) ?_)
      intro m hm c hc
      exact hbase m (List.mem_cons_of_mem n hm) c (find_of_remove (destroyUnit_ents u n) hu hc).2

theorem destroyUnits_advances (x : Effect) (l : List UInt32) (u : ServerUniverse F D)
    (hbase : u.Sound → ∀ n ∈ l, ∀ c, u.ents.find n = some c → c.baseTag = false) :
    Advances x u (l.foldl ServerUniverse.destroyUnit u) :=
  Advances.of_sound (Nat.le_of_eq (destroyUnits_nextNetId l u).symm) fun hu _ =>
    destroyUnits_of_sound x l hu (hbase hu)

end

section

variable {F D : Type} [Floating F] [Floating D] [Widens F D] {u u' : ServerUniverse F D}
  {x : Effect}

/-! ## Kills -/

section

omit [Floating D]

theorem spawnLoot_advances (x : Effect) (u : ServerUniverse F D) (victim : UInt32) :
    Advances x u (u.spawnLoot victim) := by
  unfold ServerUniverse.spawnLoot
  split
  · exact Advances.refl x u
  · have hborn : Born (u.lootContainer ‹Components F›) :=
      thing_born (fun _ => rfl) (fun _ => rfl) (fun _ => rfl) (fun _ => rfl)
    exact (hborn.spawn_advances x u).trans (advances_of_eq rfl rfl)

theorem onUnitKilled_advances (x : Effect) (u : ServerUniverse F D) (victim killer : UInt32) :
    Advances x u (u.onUnitKilled victim killer) := by
  unfold ServerUniverse.onUnitKilled
  split
  · exact Advances.refl x u
  · rename_i c hc
    split
    · exact Advances.refl x u
    · rename_i hbase
      rw [Bool.not_eq_true] at hbase
      simp only []
      have hlooted : Advances x u (if c.shipTag.isSome then
          (u.recordKill c victim killer).spawnLoot victim else u.recordKill c victim killer) := by
        have hrecorded : Advances x u (u.recordKill c victim killer) := advances_of_eq rfl rfl
        refine hrecorded.trans ?_
        split
        · exact spawnLoot_advances x _ victim
        · exact Advances.refl x _
      refine Advances.of_sound ?_ fun hu hw => hlooted.trans (destroyUnit_advances x _ _ fun _ => ?_)
      · rw [destroyUnit_nextNetId]
        exact hlooted.counter
      · unfold ServerUniverse.NoWrap at hw
        rw [destroyUnit_nextNetId] at hw
        exact hlooted.not_base hu hw hc hbase

theorem processKill_advances (x : Effect) (u : ServerUniverse F D) (k : Hit F) :
    Advances x u (u.processKill k) := by
  unfold ServerUniverse.processKill
  split
  · exact Advances.refl x u
  · split
    · exact Advances.refl x u
    · exact onUnitKilled_advances x u _ _

theorem processKills_advances (x : Effect) (u : ServerUniverse F D) (hits : List (Hit F)) :
    Advances x u (u.processKills hits) :=
  advances_foldl (processKill_advances x) _ u

end

/-! ## The systems that spawn or destroy -/

omit [Floating D] [Widens F D] in
theorem spawnProjectileEntity_advances (x : Effect) (u : ServerUniverse F D)
    (p : PendingProjectile F) : Advances x u (u.spawnProjectileEntity p) :=
  Born.spawn_advances (thing_born (fun _ => rfl) (fun _ => rfl) (fun _ => rfl) fun _ => rfl) x u

theorem combatSystem_advances (dt : F) (u : ServerUniverse F D) :
    Advances .fight u (u.combatSystem dt) := by
  unfold ServerUniverse.combatSystem
  have hfired : Advances .fight u { u with ents := (volleys (D := D) dt u.ents).ents } :=
    advances_of_steady (volleys_steady dt u.ents) rfl
  refine hfired.trans ?_
  exact (advances_foldl (spawnProjectileEntity_advances _) _ _).trans (processKills_advances _ _ _)

/-- What a barrage lists as done is a shot. -/
def Barrage.Tidy (b : Barrage F) : Prop :=
  b.ents.Sound ∧ ∀ n ∈ b.expired, ∀ c, b.ents.find n = some c → c.projectile.isSome = true

omit [Floating F] in
theorem Barrage.Tidy.later {b b' : Barrage F} (hb : b.Tidy) (hents : b.ents.Steady x b'.ents)
    (hexpired : ∀ n ∈ b'.expired, n ∈ b.expired ∨
      ∃ c, b.ents.find n = some c ∧ c.projectile.isSome = true) : b'.Tidy := by
  refine ⟨hents.sound hb.1, ?_⟩
  intro n hn c' hc'
  rcases hents.find_before hc' with ⟨c, hc, hr⟩
  have hshot := congrArg Identity.isShot hr.identity
  simp only [Components.identity] at hshot
  rw [hshot]
  rcases hexpired n hn with hn | ⟨c₀, hc₀, hs⟩
  · exact hb.2 n hn c hc
  · rw [hc, Option.some.injEq] at hc₀
    rw [hc₀]
    exact hs

/-- A shot is the only one that a visit lists. -/
theorem flyProjectile_expired (subSteps : Nat) (dt : F) (b : Barrage F) (i : Nat)
    (c : Components F) : ∀ n ∈ (flyProjectile subSteps dt b i c).expired,
      n ∈ b.expired ∨ (n = c.netId ∧ c.projectile.isSome = true) := by
  intro n hn
  unfold flyProjectile at hn
  split at hn
  · exact Or.inl hn
  · rename_i pr hpr
    have hshot : c.projectile.isSome = true := by rw [hpr]; rfl
    have hadd : n ∈ b.expired ++ [c.netId] → n ∈ b.expired ∨ (n = c.netId ∧ c.projectile.isSome) := by
      intro h
      rcases List.mem_append.mp h with h | h
      · exact Or.inl h
      · exact Or.inr ⟨List.mem_singleton.mp h, hshot⟩
    simp only [] at hn
    split at hn
    · split at hn
      · exact hadd hn
      · exact Or.inl hn
    · split at hn
      · exact hadd hn
      · split at hn
        · exact hadd hn
        · exact Or.inl hn

theorem barrage_tidy (subSteps : Nat) (dt : F) (e : Entities F) (he : e.Sound) :
    (barrage subSteps dt e).Tidy := by
  refine Ecs.visit_induct (P := Barrage.Tidy) ⟨he, fun n hn => absurd hn List.not_mem_nil⟩ ?_
  intro b i c hb hc
  refine hb.later (flyProjectile_steady subSteps dt b i c hc) ?_
  intro n hn
  rcases flyProjectile_expired subSteps dt b i c n hn with hn | ⟨hn, hs⟩
  · exact Or.inl hn
  · exact Or.inr ⟨c, by rw [hn]; exact hb.1.find_of_slot hc, hs⟩

theorem projectileSystem_advances (dt : F) (u : ServerUniverse F D) :
    Advances .fight u (u.projectileSystem dt) := by
  unfold ServerUniverse.projectileSystem
  simp only []
  have hflown : Advances .fight u
      { u with ents := (barrage (D := D) u.projectileSubSteps dt u.ents).ents } :=
    advances_of_steady (barrage_steady _ dt u.ents) rfl
  refine Advances.trans ?_ (processKills_advances _ _ _)
  refine Advances.of_sound (Nat.le_of_eq ?_) fun hu _ => ?_
  · rw [destroyUnits_nextNetId]
  refine hflown.trans (destroyUnits_advances _ _ _ fun hv n hn c hc => ?_)
  -- What is done is a shot, and a base is none.
  have hshot := (barrage_tidy (D := D) u.projectileSubSteps dt u.ents hu.ents).2 n hn c hc
  cases hbase : c.baseTag with
  | false => rfl
  | true =>
      rw [(hv.shaped n c hc).shot hbase] at hshot
      exact absurd hshot Bool.false_ne_true

/-! ## Building -/

section

omit [Floating D] [Widens F D]

theorem spawnFleetShipFit_advances (x : Effect) (u : ServerUniverse F D) (player : UInt32)
    (shapeId : UInt16) (pos : UniversePos) (fitName : String) :
    Advances x u (u.spawnFleetShipFit player shapeId pos fitName).2 := by
  unfold ServerUniverse.spawnFleetShipFit
  split
  · exact Advances.refl x u
  · exact (ship_born u player shapeId pos fitName).spawn_advances x u

theorem deliver_advances (x : Effect) (u : ServerUniverse F D) (done : UInt32 × UniversePos) :
    Advances x u (u.deliver done) := by
  have hship : Advances x u (u.spawnFleetShip done.1 shipShapeId done.2).2 :=
    spawnFleetShipFit_advances x u _ _ _ _
  unfold ServerUniverse.deliver
  simp only []
  split
  · exact hship.trans (advances_of_eq rfl rfl)
  · exact hship

theorem buildSystem_advances (dt : F) (u : ServerUniverse F D) :
    Advances .building u (u.buildSystem dt) := by
  unfold ServerUniverse.buildSystem
  refine Advances.trans ?_ (advances_foldl (deliver_advances _) _ _)
  exact advances_of_steady (forEach_steady fun c _ => buildUnit_steady _ dt c) rfl

end

/-! ## The step -/

theorem beforeCombat_advances (dt : F) (u : ServerUniverse F D) :
    Advances .ewar u (u.beforeCombat dt) := by
  refine onEnts_advances ?_
  refine ((aiSystem_steady (D := D) u.ents).mono (by decide)).trans ?_
  exact (ewarLogiSystem_steady dt _).trans ((fleetOrderSystem_steady dt _).mono (by decide))

/-- What a unit does after combat: it travels, harvests and builds. -/
def Effect.trade : Effect := ⟨false, false, true, true, true, false⟩

theorem afterCombat_advances (dt : F) (u : ServerUniverse F D) :
    Advances .trade u (u.afterCombat dt) := by
  unfold ServerUniverse.afterCombat
  simp only []
  have hmoved : Advances .trade u (u.onEnts fun e =>
      harvestSystem (D := D) u.economy dt (navigationSystem u.nav dt (movementSystem dt e))) := by
    refine onEnts_advances ?_
    refine ((movementSystem_steady dt u.ents).mono (by decide)).trans ?_
    refine ((navigationSystem_steady u.nav dt _).mono (by decide)).trans ?_
    exact (harvestSystem_steady u.economy dt _).mono (by decide)
  refine Advances.trans (hmoved.trans ((buildSystem_advances dt _).mono (by decide))) ?_
  exact (onEnts_advances ((syncHealthMirror_steady _).mono (by decide))).trans
    (advances_of_eq rfl rfl)

omit [Floating D] in
theorem baseRetreatSystem_advances (u : ServerUniverse F D) :
    Advances .haul u u.baseRetreatSystem :=
  advances_of_steady (baseRetreatSystem_steady u) rfl

/-- A step keeps every base, and every entity after it is an earlier one or a new one. -/
theorem step_advances (dt : F) (u : ServerUniverse F D) : Advances .all u (u.step dt) := by
  unfold ServerUniverse.step
  split
  · simp only []
    refine Advances.trans ?_ ((afterCombat_advances dt _).mono (by decide))
    refine Advances.trans ?_ ((baseRetreatSystem_advances _).mono (by decide))
    refine Advances.trans ?_ ((onEnts_advances (regenSystem_steady dt _)).mono (by decide))
    refine Advances.trans ?_ ((projectileSystem_advances dt _).mono (by decide))
    exact ((beforeCombat_advances dt u).mono (by decide)).trans
      ((combatSystem_advances dt _).mono (by decide))
  · refine Advances.trans (onEnts_advances ?_) ((afterCombat_advances dt _).mono (by decide))
    exact ((aiSystem_steady (D := D) u.ents).mono (by decide)).trans
      ((fleetOrderSystem_steady dt _).mono (by decide))

end

end Shard

end EarthRise
