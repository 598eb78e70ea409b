import EarthRise.Theory.Shard.Frame

/-!
# Entities Come and Go

What spawning and destroying do to a universe in which nothing is lost.

A universe is sound when its entities are the table of their net ids, every id in it was
taken from the counter, and every entity is put together as one of the spawners does it.
The counter only goes up. As long as it has not gone round, a new id is nobody's, so
spawning keeps the universe sound.

`Grows` says where the entities of a later universe come from: each one is an earlier
entity, changed as a relation allows, or it is new and has an id that was not taken
before. `Keeps` adds that a base stays; `Advances` is that of the systems with an effect.

## Main definitions

* `Shaped`: How the spawners put entities together.
* `ServerUniverse.Sound`: A universe in which nothing is lost.
* `Grows`, `Keeps`, `Advances`: A universe and a later one.
* `Lawful`: Relations that an entity and what becomes of it may be in.

## Theorems

* `Born.spawn_sound`, `Born.spawn_keeps`: Spawning.
* `Lawful.destroyUnit_keeps`: Destroying.
* `Keeps.trans`.
-/

namespace EarthRise

namespace Shard

open Universe (UniversePos Vec3)

section

variable {F D : Type} {c : Components F}

/-! ## How entities are put together -/

/-- A base owns itself, stores, and is neither a ship nor an NPC nor loot nor a shot; only
    bases build. -/
structure Shaped (c : Components F) : Prop where
  owner : c.baseTag = true → c.ownerId = some c.netId
  ship : c.baseTag = true → c.shipTag = none
  npc : c.baseTag = true → c.npcAi.isSome = false
  loot : c.baseTag = true → c.loot.isSome = false
  shot : c.baseTag = true → c.projectile.isSome = false
  storage : c.baseTag = true → c.storage.isSome = true
  queue : c.buildQueue.isSome = true → c.baseTag = true

theorem Shaped.of_identity {c c' : Components F} (h : c'.identity = c.identity) (hc : Shaped c) :
    Shaped c' := by
  unfold Components.identity at h
  rw [Identity.mk.injEq] at h
  rcases h with ⟨hid, hbase, hship, howner, hnpc, hqueue, hstorage, hloot, hshot, _⟩
  refine ⟨?_, ?_, ?_, ?_, ?_, ?_, ?_⟩
  · rw [hbase, howner, hid]
    exact hc.owner
  · rw [hbase, hship]
    exact hc.ship
  · rw [hbase, hnpc]
    exact hc.npc
  · rw [hbase, hloot]
    exact hc.loot
  · rw [hbase, hshot]
    exact hc.shot
  · rw [hbase, hstorage]
    exact hc.storage
  · rw [hbase, hqueue]
    exact hc.queue

/-- What is no base and does not build. -/
theorem Shaped.of_not_base (hbase : c.baseTag = false)
    (hqueue : c.buildQueue = none) : Shaped c := by
  have hno : ¬ c.baseTag = true := by rw [hbase]; exact Bool.false_ne_true
  refine ⟨fun h => absurd h hno, fun h => absurd h hno, fun h => absurd h hno,
    fun h => absurd h hno, fun h => absurd h hno, fun h => absurd h hno, ?_⟩
  rw [hqueue]
  exact fun h => absurd h Bool.false_ne_true

theorem standing_of_none (h : c.defense = none) : c.Standing := by
  intro d hd
  rw [h] at hd
  exact absurd hd nofun

/-! ## A universe in which nothing is lost -/

structure ServerUniverse.Sound (u : ServerUniverse F D) : Prop where
  ents : u.ents.Sound
  below : ∀ n c, u.ents.find n = some c → n.toNat < u.nextNetId
  shaped : ∀ n c, u.ents.find n = some c → Shaped c

/-- Where the entities of a later universe come from: from earlier ones as `R` allows, or
    they are new. -/
structure Grows (R : Components F → Components F → Prop) (New : Components F → Prop)
    (u u' : ServerUniverse F D) : Prop where
  counter : u.nextNetId ≤ u'.nextNetId
  sound : u.Sound → u'.NoWrap → u'.Sound
  origin : u.Sound → u'.NoWrap → ∀ n c', u'.ents.find n = some c' →
    (∃ c, u.ents.find n = some c ∧ R c c') ∨ (u.nextNetId ≤ n.toNat ∧ New c')

theorem Grows.trans {R : Components F → Components F → Prop} {New : Components F → Prop}
    (htrans : ∀ a b c, R a b → R b c → R a c) (hnew : ∀ a b, New a → R a b → New b)
    {u u' u'' : ServerUniverse F D} (h : Grows R New u u') (h' : Grows R New u' u'') :
    Grows R New u u'' where
  counter := Nat.le_trans h.counter h'.counter
  sound := fun hu hw => h'.sound (h.sound hu (Nat.le_trans h'.counter hw)) hw
  origin := by
    intro hu hw n c'' hc''
    have hw' : u'.NoWrap := Nat.le_trans h'.counter hw
    rcases h'.origin (h.sound hu hw') hw n c'' hc'' with ⟨c', hc', hr'⟩ | ⟨hn, hc⟩
    · rcases h.origin hu hw' n c' hc' with ⟨c, hc, hr⟩ | ⟨hn, hc⟩
      · exact Or.inl ⟨c, hc, htrans _ _ _ hr hr'⟩
      · exact Or.inr ⟨hn, hnew _ _ hc hr'⟩
    · exact Or.inr ⟨Nat.le_trans h.counter hn, hc⟩

/-- What may become of an entity: it keeps its identity, and what is new may change as well. -/
structure Lawful (R : Components F → Components F → Prop) (New : Components F → Prop) : Prop where
  refl : ∀ c, R c c
  trans : ∀ a b c, R a b → R b c → R a c
  identity : ∀ c c', R c c' → c'.identity = c.identity
  new : ∀ a b, New a → R a b → New b
  standing : ∀ c, c.Standing → New c

/-- A universe and a later one that has lost no base. -/
structure Keeps (R : Components F → Components F → Prop) (New : Components F → Prop)
    (u u' : ServerUniverse F D) : Prop extends Grows R New u u' where
  bases : u.Sound → u'.NoWrap → ∀ n c, u.ents.find n = some c → c.baseTag = true →
    u'.ents.entityOf n = u.ents.entityOf n ∧ ∃ c', u'.ents.find n = some c' ∧ R c c'

variable {R : Components F → Components F → Prop} {New : Components F → Prop}
  {u u' u'' : ServerUniverse F D}

theorem Lawful.baseTag (hR : Lawful R New) {c c' : Components F} (h : R c c') :
    c'.baseTag = c.baseTag := by
  have htag := congrArg Identity.baseTag (hR.identity c c' h)
  simpa only [Components.identity] using htag

theorem Keeps.trans (hR : Lawful R New) (h : Keeps R New u u') (h' : Keeps R New u' u'') :
    Keeps R New u u'' where
  toGrows := h.toGrows.trans hR.trans hR.new h'.toGrows
  bases := by
    intro hu hw n c hc hbase
    have hw' : u'.NoWrap := Nat.le_trans h'.counter hw
    rcases h.bases hu hw' n c hc hbase with ⟨hn, c', hc', hr⟩
    have hbase' : c'.baseTag = true := by rw [hR.baseTag hr, hbase]
    rcases h'.bases (h.sound hu hw') hw n c' hc' hbase' with ⟨hn', c'', hc'', hr'⟩
    exact ⟨hn'.trans hn, c'', hc'', hR.trans _ _ _ hr hr'⟩

theorem Keeps.weaken {S : Components F → Components F → Prop} {New' : Components F → Prop}
    (hRS : ∀ c c', R c c' → S c c') (hnew : ∀ c, New c → New' c) (h : Keeps R New u u') :
    Keeps S New' u u' where
  counter := h.counter
  sound := h.sound
  origin := by
    intro hu hw n c' hc'
    rcases h.origin hu hw n c' hc' with ⟨c, hc, hr⟩ | ⟨hn, hs⟩
    · exact Or.inl ⟨c, hc, hRS _ _ hr⟩
    · exact Or.inr ⟨hn, hnew _ hs⟩
  bases := by
    intro hu hw n c hc hbase
    rcases h.bases hu hw n c hc hbase with ⟨hn, c', hc', hr⟩
    exact ⟨hn, c', hc', hRS _ _ hr⟩

/-- What neither spawns nor destroys. -/
theorem Lawful.keeps_of_evolves (hR : Lawful R New) (hents : Entities.Evolves R u.ents u'.ents)
    (hcount : u'.nextNetId = u.nextNetId) : Keeps R New u u' where
  counter := Nat.le_of_eq hcount.symm
  sound := by
    intro hu _
    refine ⟨hents.sound (fun c c' h => congrArg Identity.netId (hR.identity c c' h)) hu.ents, ?_, ?_⟩
    · intro n c' hc'
      rcases hents.find_before hc' with ⟨c, hc, _⟩
      rw [hcount]
      exact hu.below n c hc
    · intro n c' hc'
      rcases hents.find_before hc' with ⟨c, hc, hr⟩
      exact (hu.shaped n c hc).of_identity (hR.identity c c' hr)
  origin := fun _ _ n c' hc' => Or.inl (hents.find_before hc')
  bases := fun _ _ n c hc _ => ⟨hents.entityOf n, hents.find_after hc⟩

theorem Lawful.keeps_of_eq (hR : Lawful R New) (hents : u'.ents = u.ents)
    (hcount : u'.nextNetId = u.nextNetId) : Keeps R New u u' :=
  hR.keeps_of_evolves (by rw [hents]; exact Entities.Evolves.refl hR.refl u.ents) hcount

theorem Lawful.keeps_foldl (hR : Lawful R New) {α : Type}
    {f : ServerUniverse F D → α → ServerUniverse F D} (hf : ∀ u a, Keeps R New u (f u a))
    (l : List α) (u : ServerUniverse F D) : Keeps R New u (l.foldl f u) := by
  induction l generalizing u with
  | nil => exact hR.keeps_of_eq rfl rfl
  | cons a l ih => exact (hf u a).trans hR (ih _)

/-- A universe and a later one, after systems with an effect. -/
abbrev Advances (x : Effect) (u u' : ServerUniverse F D) : Prop :=
  Keeps (Steady x) (fun c => x.harms = false → c.Standing) u u'

variable {x : Effect}

theorem steady_lawful (x : Effect) :
    Lawful (F := F) (Steady x) (fun c => x.harms = false → c.Standing) where
  refl := Steady.refl x
  trans := Steady.trans
  identity := fun _ _ h => h.identity
  new := fun _ _ hs hr hx => hr.hull hx (hs hx)
  standing := fun _ hs _ => hs

theorem Advances.trans (h : Advances x u u') (h' : Advances x u' u'') : Advances x u u'' :=
  Keeps.trans (steady_lawful x) h h'

theorem Advances.mono {y : Effect} (hxy : x.within y) (h : Advances x u u') : Advances y u u' :=
  Keeps.weaken (fun c c' hr => hr.mono hxy c c') (fun _ hs hy => hs (hxy.1 hy)) h

/-- Systems that neither spawn nor destroy. -/
theorem advances_of_steady (hents : u.ents.Steady x u'.ents) (hcount : u'.nextNetId = u.nextNetId) :
    Advances x u u' :=
  (steady_lawful x).keeps_of_evolves hents hcount

theorem advances_of_eq (hents : u'.ents = u.ents) (hcount : u'.nextNetId = u.nextNetId) :
    Advances x u u' :=
  (steady_lawful x).keeps_of_eq hents hcount

theorem Advances.refl (x : Effect) (u : ServerUniverse F D) : Advances x u u :=
  advances_of_eq rfl rfl

/-! ## Spawning -/

/-- What a spawner makes of an id. -/
structure Born (mk : UInt32 → Components F) : Prop where
  netId : ∀ n, (mk n).netId = n
  shaped : ∀ n, Shaped (mk n)
  standing : ∀ n, (mk n).Standing

theorem toNat_nextId (hw : u.nextNetId < 2 ^ 32) : u.nextId.toNat = u.nextNetId := by
  unfold ServerUniverse.nextId
  rw [UInt32.toNat_ofNat']
  exact Nat.mod_eq_of_lt hw

/-- The next id is nobody's. -/
theorem ServerUniverse.Sound.find_nextId (hu : u.Sound) (hw : u.nextNetId < 2 ^ 32) :
    u.ents.find u.nextId = none := by
  cases h : u.ents.find u.nextId with
  | none => rfl
  | some c =>
      have hlt := hu.below _ c h
      rw [toNat_nextId hw] at hlt
      exact absurd hlt (Nat.lt_irrefl _)

variable {mk : UInt32 → Components F}

theorem Born.find_spawn (hmk : Born mk) (hu : u.Sound) (n : UInt32) :
    (u.spawn mk).ents.find n = if n = u.nextId then some (mk u.nextId) else u.ents.find n := by
  have hfind := hu.ents.find_insert (mk u.nextId) n
  rw [hmk.netId] at hfind
  exact hfind

theorem Born.spawn_sound (hmk : Born mk) (hu : u.Sound) (hw : (u.spawn mk).NoWrap) :
    (u.spawn mk).Sound := by
  have hlt : u.nextNetId < 2 ^ 32 := hw
  refine ⟨hu.ents.insert ?_, ?_, ?_⟩
  · rw [hmk.netId]
    exact hu.find_nextId hlt
  · intro n c hc
    rw [hmk.find_spawn hu] at hc
    by_cases hn : n = u.nextId
    · rw [hn, toNat_nextId hlt]
      exact Nat.lt_succ_self _
    · rw [if_neg hn] at hc
      exact Nat.lt_succ_of_lt (hu.below n c hc)
  · intro n c hc
    rw [hmk.find_spawn hu] at hc
    by_cases hn : n = u.nextId
    · rw [if_pos hn, Option.some.injEq] at hc
      rw [← hc]
      exact hmk.shaped _
    · rw [if_neg hn] at hc
      exact hu.shaped n c hc

/-- Spawning adds an entity under an id that was not taken before. -/
theorem Born.spawn_keeps (hmk : Born mk) (hR : Lawful R New) (u : ServerUniverse F D) :
    Keeps R New u (u.spawn mk) where
  counter := Nat.le_succ _
  sound := fun hu hw => hmk.spawn_sound hu hw
  origin := by
    intro hu hw n c' hc'
    rw [hmk.find_spawn hu] at hc'
    by_cases hn : n = u.nextId
    · rw [if_pos hn, Option.some.injEq] at hc'
      refine Or.inr ⟨?_, hc' ▸ hR.standing _ (hmk.standing _)⟩
      rw [hn, toNat_nextId (show u.nextNetId < 2 ^ 32 from hw)]
    · rw [if_neg hn] at hc'
      exact Or.inl ⟨c', hc', hR.refl c'⟩
  bases := by
    intro hu hw n c hc _
    have hne : n ≠ u.nextId := by
      rintro rfl
      rw [hu.find_nextId (show u.nextNetId < 2 ^ 32 from hw)] at hc
      exact absurd hc nofun
    refine ⟨?_, c, ?_, hR.refl c⟩
    · exact (Entities.entityOf_insert _ _ n).trans (if_neg (by rw [hmk.netId]; exact hne))
    · rw [hmk.find_spawn hu, if_neg hne, hc]

theorem Born.spawn_advances (hmk : Born mk) (x : Effect) (u : ServerUniverse F D) :
    Advances x u (u.spawn mk) :=
  hmk.spawn_keeps (steady_lawful x) u

/-! ## Destroying -/

theorem leaveSite_nextNetId (u : ServerUniverse F D) (siteId : UInt16) :
    (u.leaveSite siteId).nextNetId = u.nextNetId := by
  unfold ServerUniverse.leaveSite
  split
  · rfl
  · split <;> rfl

theorem destroyUnit_ents (u : ServerUniverse F D) (n : UInt32) :
    (u.destroyUnit n).ents = u.ents.remove n := by
  unfold ServerUniverse.destroyUnit
  rfl

theorem destroyUnit_nextNetId (u : ServerUniverse F D) (n : UInt32) :
    (u.destroyUnit n).nextNetId = u.nextNetId := by
  unfold ServerUniverse.destroyUnit
  simp only []
  split
  · rfl
  · exact leaveSite_nextNetId u _

theorem find_of_remove {n m : UInt32} (hents : u'.ents = u.ents.remove n)
    (hu : u.Sound) (hc : u'.ents.find m = some c) : m ≠ n ∧ u.ents.find m = some c := by
  rw [hents, hu.ents.find_remove] at hc
  by_cases hm : m = n
  · rw [if_pos hm] at hc
    exact absurd hc nofun
  · rw [if_neg hm] at hc
    exact ⟨hm, hc⟩

theorem sound_of_remove {n : UInt32} (hents : u'.ents = u.ents.remove n)
    (hcount : u'.nextNetId = u.nextNetId) (hu : u.Sound) : u'.Sound := by
  refine ⟨by rw [hents]; exact hu.ents.remove n, ?_, ?_⟩
  · intro m c hc
    rw [hcount]
    exact hu.below m c (find_of_remove hents hu hc).2
  · intro m c hc
    exact hu.shaped m c (find_of_remove hents hu hc).2

/-- A universe without one of its entities. -/
theorem grows_of_remove (hrefl : ∀ c, R c c) {n : UInt32} (hents : u'.ents = u.ents.remove n)
    (hcount : u'.nextNetId = u.nextNetId) : Grows R New u u' where
  counter := Nat.le_of_eq hcount.symm
  sound := fun hu _ => sound_of_remove hents hcount hu
  origin := fun hu _ _ c hc => Or.inl ⟨c, (find_of_remove hents hu hc).2, hrefl c⟩

theorem destroyUnit_sound (hu : u.Sound) (n : UInt32) : (u.destroyUnit n).Sound :=
  sound_of_remove (destroyUnit_ents u n) (destroyUnit_nextNetId u n) hu

/-- Destroying what is no base. -/
theorem Lawful.destroyUnit_keeps (hR : Lawful R New) (u : ServerUniverse F D) (n : UInt32)
    (hbase : u.Sound → ∀ c, u.ents.find n = some c → c.baseTag = false) :
    Keeps R New u (u.destroyUnit n) where
  toGrows := grows_of_remove hR.refl (destroyUnit_ents u n) (destroyUnit_nextNetId u n)
  bases := by
    intro hu _ m c hc htag
    have hne : m ≠ n := by
      rintro rfl
      rw [hbase hu c hc] at htag
      exact absurd htag Bool.false_ne_true
    refine ⟨?_, c, ?_, hR.refl c⟩
    · rw [destroyUnit_ents, Entities.entityOf_remove, if_neg hne]
    · rw [destroyUnit_ents, hu.ents.find_remove, if_neg hne, hc]

theorem destroyUnit_advances (x : Effect) (u : ServerUniverse F D) (n : UInt32)
    (hbase : u.Sound → ∀ c, u.ents.find n = some c → c.baseTag = false) :
    Advances x u (u.destroyUnit n) :=
  (steady_lawful x).destroyUnit_keeps u n hbase

/-- What is no unit: a piece of scenery, a node, a beacon, loot or a shot. -/
theorem thing_born {mk : UInt32 → Components F} (hid : ∀ n, (mk n).netId = n)
    (hbase : ∀ n, (mk n).baseTag = false) (hqueue : ∀ n, (mk n).buildQueue = none)
    (hdefense : ∀ n, (mk n).defense = none) : Born mk :=
  ⟨hid, fun n => Shaped.of_not_base (hbase n) (hqueue n), fun n => standing_of_none (hdefense n)⟩

end

section

variable {F D : Type} [Floating F] {P : Components F → Prop} {combat : CombatCatalog F}
  {c : Components F}

/-! ## The spawners -/

/-- What holds of a unit and of it with any fit holds of it with the fit it gets. -/
theorem installFit_induct
    (hdirect : ∀ hull mods, P (installFitDirect c hull mods)) (fitName : String) :
    ∀ c', installFit combat c fitName = some c' → P c' := by
  intro c' h
  unfold installFit at h
  split at h
  · exact absurd h nofun
  · split at h
    · exact absurd h nofun
    · rw [← Option.some.inj h]
      exact hdirect _ _

theorem installFitGetD_induct
    (hc : P c) (hdirect : ∀ hull mods, P (installFitDirect c hull mods))
    (fitName : String) : P ((installFit combat c fitName).getD c) := by
  cases h : installFit combat c fitName with
  | none => exact hc
  | some c' => exact installFit_induct hdirect fitName c' h

theorem installFitOr_induct
    (hc : P c) (hdirect : ∀ hull mods, P (installFitDirect c hull mods))
    (fitName otherwise : String) : P (installFitOr combat c fitName otherwise) := by
  unfold installFitOr
  cases h : installFit combat c fitName with
  | none => exact installFitGetD_induct hc hdirect otherwise
  | some c' => exact installFit_induct hdirect fitName c' h

/-- A fit leaves an entity what it is. -/
theorem installFitDirect_shaped (h : Shaped c) (hull : HullClass F)
    (mods : List (ModuleDef F)) : Shaped (installFitDirect c hull mods) :=
  ⟨h.owner, h.ship, h.npc, h.loot, h.shot, h.storage, h.queue⟩

/-- A unit starts with all the hull that it can have. -/
theorem installFitDirect_standing (c : Components F) (hull : HullClass F)
    (mods : List (ModuleDef F)) : (installFitDirect c hull mods).Standing := by
  intro d hd hmax
  unfold installFitDirect at hd
  rw [Option.some.injEq] at hd
  rw [← hd] at hmax ⊢
  exact hmax

theorem base_born (u : ServerUniverse F D) (start : UniversePos) (vel : Vec3 F) :
    Born fun netId => (installFit u.combat (u.baseComponents start vel netId) baseFit).getD
      (u.baseComponents start vel netId) := by
  refine ⟨fun n => ?_, fun n => ?_, fun n => ?_⟩
  · exact installFitGetD_induct (P := fun c => c.netId = n) rfl (fun _ _ => rfl) baseFit
  · have hshaped : Shaped (u.baseComponents start vel n) :=
      ⟨fun _ => rfl, fun _ => rfl, fun _ => rfl, fun _ => rfl, fun _ => rfl, fun _ => rfl,
        fun _ => rfl⟩
    exact installFitGetD_induct hshaped (installFitDirect_shaped hshaped) baseFit
  · exact installFitGetD_induct (standing_of_none rfl) (installFitDirect_standing _) baseFit

theorem ship_born (u : ServerUniverse F D) (player : UInt32) (shapeId : UInt16)
    (pos : UniversePos) (fitName : String) :
    Born fun netId =>
      installFitOr u.combat (u.shipComponents player shapeId pos netId) fitName defaultShipFit := by
  refine ⟨fun n => ?_, fun n => ?_, fun n => ?_⟩
  · exact installFitOr_induct (P := fun c => c.netId = n) rfl (fun _ _ => rfl) fitName _
  · have hshaped : Shaped (u.shipComponents player shapeId pos n) :=
      Shaped.of_not_base rfl rfl
    exact installFitOr_induct hshaped (installFitDirect_shaped hshaped) fitName _
  · exact installFitOr_induct (standing_of_none rfl) (installFitDirect_standing _) fitName _

theorem npc_born (combat : CombatCatalog F) (pos : UniversePos) (siteId : UInt16)
    (fitName : String) :
    Born fun netId =>
      { installFitOr combat (ServerUniverse.npcComponents pos netId) fitName npcFit with
        npcAi := some ⟨.defend, pos, ServerUniverse.npcAggroRange, ServerUniverse.npcFleeHpFrac, 0,
          siteId⟩ } := by
  refine ⟨fun n => ?_, fun n => ?_, fun n => ?_⟩
  · exact installFitOr_induct (P := fun c => c.netId = n) rfl (fun _ _ => rfl) fitName _
  · refine Shaped.of_not_base ?_ ?_
    · exact installFitOr_induct (P := fun c => c.baseTag = false) rfl (fun _ _ => rfl) fitName _
    · exact installFitOr_induct (P := fun c => c.buildQueue = none) rfl (fun _ _ => rfl) fitName _
  · have hstanding :
        (installFitOr combat (ServerUniverse.npcComponents pos n) fitName npcFit).Standing :=
      installFitOr_induct (standing_of_none rfl) (installFitDirect_standing _) fitName _
    exact hstanding

end

end Shard

end EarthRise
