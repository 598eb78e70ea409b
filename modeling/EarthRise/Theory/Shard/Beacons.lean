import EarthRise.Core.Sites
import EarthRise.Theory.Shard.Totals

/-!
# Which Beacons a Name Stands For

The beacons of a universe, load after load.

A load adds its beacons to those that are alive and its names to those that are known, and
it replaces the list that the names are looked up in. So a universe is charted, every name
that it knows standing for the beacon of the list that has it and every beacon of the list
alive once, as long as no load finds beacons to be replaced and no list is longer than its
index. After any other load it is not: the beacons of the lists before are still alive, and
their names lead to whatever has their place in the new list, or past its end
(`stale_names`).

## Main definitions

* `Aside`: A universe and one with the same beacons.
* `Charted`: Names and beacons are those of the list.
* `Resolves`: What is asked of a universe and of every jump in it.

## Theorems

* `apply_aside`: Calls that load nothing.
* `loadUniverse_beacons`: What a load adds.
* `Charted.load`, `Charted.resolves`: A charted universe.
* `beacons_resolve_iff`: The runs in which every state resolves its names.
-/

namespace EarthRise

namespace Shard

open Universe (Vec3 UniversePos)

section

variable {F D : Type} {u u' u'' : ServerUniverse F D}

theorem find_modify_self {e : Entities F} {n : UInt32} {c : Components F}
    (hc : e.find n = some c) (f : Components F → Components F) :
    (e.modify n f).find n = some (f c) := by
  rcases Entities.find_eq_some.mp hc with ⟨h, hn, hget⟩
  have hmodify : e.modify n f = { e with world := e.world.modify h f } := by
    unfold Entities.modify
    rw [hn]
  refine Entities.find_eq_some.mpr ⟨h, ?_, ?_⟩
  · rw [hmodify]
    exact hn
  · rw [hmodify]
    simp only [Ecs.World.get_modify, if_true, hget, Option.map_some]

theorem liveBeacons_eq (u : ServerUniverse F D) : u.liveBeacons = u.total Components.beacon := rfl

theorem beacon_of_parts {c c' : Components F} (htag : c'.beaconTag = c.beaconTag)
    (htransform : c'.transform = c.transform) : c'.beacon = c.beacon := by
  unfold Components.beacon
  rw [htag, htransform]

theorem beacon_of_none {c : Components F} (h : c.beaconTag = none) : c.beacon = 0 := by
  unfold Components.beacon
  rw [h]
  rfl

/-! ## What leaves the beacons alone -/

/-- A universe and one with the same beacons. -/
structure Aside (u u' : ServerUniverse F D) : Prop where
  world : u.ents.world.Sound → u'.ents.world.Sound
  live : u.ents.world.Sound → u'.liveBeacons = u.liveBeacons
  dataset : u'.dataset = u.dataset
  names : u'.beaconName = u.beaconName

theorem Aside.refl (u : ServerUniverse F D) : Aside u u := ⟨id, fun _ => rfl, rfl, rfl⟩

theorem Aside.trans (h : Aside u u') (h' : Aside u' u'') : Aside u u'' where
  world hu := h'.world (h.world hu)
  live hu := (h'.live (h.world hu)).trans (h.live hu)
  dataset := h'.dataset.trans h.dataset
  names := h'.names.trans h.names

theorem aside_of_eq (hents : u'.ents = u.ents) (hdataset : u'.dataset = u.dataset)
    (hnames : u'.beaconName = u.beaconName) : Aside u u' where
  world hu := by rwa [hents]
  live _ := by
    unfold ServerUniverse.liveBeacons
    rw [hents]
  dataset := hdataset
  names := hnames

theorem aside_foldl {α : Type} {f : ServerUniverse F D → α → ServerUniverse F D}
    (hf : ∀ u a, Aside u (f u a)) (l : List α) (u : ServerUniverse F D) :
    Aside u (l.foldl f u) := by
  induction l generalizing u with
  | nil => exact Aside.refl u
  | cons a l ih => exact (hf u a).trans (ih (f u a))

theorem aside_spawn (u : ServerUniverse F D) (mk : UInt32 → Components F)
    (h : ∀ n, (mk n).beaconTag = none) : Aside u (u.spawn mk) where
  world hu := hu.createEntity _
  live hu := by
    rw [liveBeacons_eq, total_spawn _ hu, beacon_of_none (h _), add_zero]
    rfl
  dataset := rfl
  names := rfl

theorem aside_modify (u : ServerUniverse F D) (n : UInt32) {f : Components F → Components F}
    (htag : ∀ c, (f c).beaconTag = c.beaconTag) (htransform : ∀ c, (f c).transform = c.transform) :
    Aside u (u.modify n f) where
  world hu := by
    have hevolves : Entities.Evolves (fun _ _ => True) u.ents (u.ents.modify n f) :=
      Entities.Evolves.modify (fun _ => trivial) fun _ _ => trivial
    exact hevolves.world.sound hu
  live _ := by
    have hbeacon : ∀ c, u.ents.find n = some c → (f c).beacon = c.beacon := fun c _ =>
      beacon_of_parts (htag c) (htransform c)
    have hrefl : ∀ c : Components F, c.beacon = c.beacon := fun _ => rfl
    have hevolves : Entities.Evolves (fun c c' : Components F => c'.beacon = c.beacon) u.ents
        (u.modify n f).ents := by
      refine Entities.Evolves.modify ?_ ?_
      · exact hrefl
      · exact hbeacon
    rw [liveBeacons_eq, liveBeacons_eq]
    exact total_of_evolves _ (fun _ _ h => h) hevolves
  dataset := rfl
  names := rfl

/-! ## Lists of beacons -/

/-- The beacons of a dataset that a load spawns, with their indices. -/
def UniverseDataset.loaded (d : UniverseDataset F) : List (BeaconDef × Nat) :=
  (d.beacons.take (UInt16.ofNat d.beacons.length).toNat).zipIdx

theorem length_loaded (d : UniverseDataset F) : d.loaded.length = d.beacons.length % 65536 := by
  unfold UniverseDataset.loaded
  rw [List.length_zipIdx, List.length_take, UInt16.toNat_ofNat']
  exact Nat.min_eq_left (Nat.mod_le _ _)

theorem loaded_of_le (d : UniverseDataset F) (h : d.beacons.length ≤ 65535) :
    d.loaded = d.beacons.zipIdx := by
  unfold UniverseDataset.loaded
  rw [UInt16.toNat_ofNat', Nat.mod_eq_of_lt (by omega), List.take_length]

theorem card_sites (d : UniverseDataset F) : d.sites.card = d.beacons.length := by
  unfold UniverseDataset.sites
  rw [Multiset.coe_card, List.length_map, List.length_zipIdx]

/-! ## A charted universe -/

/-- The beacons of the list are alive, and a name that is known stands for a beacon of the
    list that has it. -/
structure Charted (u : ServerUniverse F D) : Prop where
  world : u.ents.world.Sound
  live : u.liveBeacons = u.dataset.sites
  names : ∀ name i, Assoc.lookup u.beaconName name = some i →
    ∃ b, u.dataset.beacons[i.toNat]? = some b ∧ b.name = name

theorem Charted.aside (h : Charted u) (haside : Aside u u') :
    Charted u' where
  world := haside.world h.world
  live := by rw [haside.live h.world, haside.dataset, h.live]
  names := by
    rw [haside.names, haside.dataset]
    exact h.names

end

section

variable {F D : Type} [Floating F] [Floating D] [Widens F D]

/-! ## Calls that load nothing -/

theorem spawnField_aside (u : ServerUniverse F D) (f : ResourceFieldDef F) :
    Aside u (u.spawnField f) := by
  unfold ServerUniverse.spawnField
  exact aside_foldl (fun v _ => aside_spawn v _ fun _ => rfl) _ u

theorem spawnNpcSite_aside (u : ServerUniverse F D) (center : UniversePos) (count : Int)
    (radius : F) (fitName : String) : Aside u (u.spawnNpcSite center count radius fitName) := by
  have hguardian : ∀ (v : ServerUniverse F D) (pos : UniversePos) (siteId : UInt16),
      Aside v (v.spawnNpcGuardian pos siteId fitName) := by
    intro v pos siteId
    unfold ServerUniverse.spawnNpcGuardian
    refine aside_spawn v _ fun n => ?_
    exact installFitOr_induct (P := fun c => c.beaconTag = none) rfl (fun _ _ => rfl) _ _
  unfold ServerUniverse.spawnNpcSite
  simp only []
  refine Aside.trans ?_ (aside_foldl (fun v i => hguardian v _ _) _ _)
  exact aside_of_eq rfl rfl rfl

theorem beginJumpTo_aside (u : ServerUniverse F D) (n : UInt32) (dest : String) :
    Aside u (u.beginJumpTo n dest).2 := by
  rcases beginJumpTo_cases u n dest with
    ⟨_, h⟩ | ⟨c, nav, fuel, i, b, cost, spool, _, _, _, _, _, _, h⟩
  · rw [h]
    exact Aside.refl u
  · rw [h]
    exact aside_modify u n (fun _ => rfl) fun _ => rfl

/-- A call that neither loads a universe nor may remove an entity. -/
theorem apply_aside (u : ServerUniverse F D) (o : Op F) (h : o.Quiet) : Aside u (u.apply o) := by
  cases o with
  | spawnBase start vel =>
      simp only [ServerUniverse.apply, ServerUniverse.spawnBase]
      refine aside_spawn u _ fun n => ?_
      exact installFitGetD_induct (P := fun c => c.beaconTag = none) rfl (fun _ _ => rfl) _
  | spawnProp shapeId pos =>
      simp only [ServerUniverse.apply, ServerUniverse.spawnProp]
      exact aside_spawn u _ fun _ => rfl
  | spawnResourceNode type yield pos =>
      simp only [ServerUniverse.apply, ServerUniverse.spawnResourceNode]
      exact aside_spawn u _ fun _ => rfl
  | spawnFleetShip player shapeId pos fitName =>
      simp only [ServerUniverse.apply, ServerUniverse.spawnFleetShipFit]
      split
      · exact Aside.refl u
      · simp only []
        refine aside_spawn u _ fun n => ?_
        exact installFitOr_induct (P := fun c => c.beaconTag = none) rfl (fun _ _ => rfl) _ _
  | spawnNpcSite center count radius fitName => exact spawnNpcSite_aside u _ _ _ _
  | loadUniverse data => exact absurd h id
  | beginWarpTo n dest =>
      rcases beginWarpTo_cases u n dest with heq | ⟨c, nav, speed, _, _, _, heq⟩
      · simp only [ServerUniverse.apply, heq]
        exact Aside.refl u
      · simp only [ServerUniverse.apply, heq]
        exact aside_modify u n (fun _ => rfl) fun _ => rfl
  | beginJumpTo n beacon => exact beginJumpTo_aside u n beacon
  | interdict n => exact aside_modify u n (fun _ => rfl) fun _ => rfl
  | enqueueBuild n =>
      simp only [ServerUniverse.apply, ServerUniverse.enqueueBuild]
      split
      · exact Aside.refl u
      · split
        · exact Aside.refl u
        · exact aside_modify u n (fun _ => rfl) fun _ => rfl
  | orderHarvest ship node =>
      simp only [ServerUniverse.apply, ServerUniverse.orderHarvest]
      split
      · exact Aside.refl u
      · split
        · exact Aside.refl u
        · split
          · exact aside_modify u ship (fun _ => rfl) fun _ => rfl
          · exact Aside.refl u
  | applyFleetCommand player cmd => exact absurd h id
  | claimLoot claimer container => exact absurd h id
  | despawnBase n => exact absurd h id
  | drain feed => cases feed <;> exact aside_of_eq rfl rfl rfl
  | step dt => exact absurd h id
  | _ => exact aside_of_eq rfl rfl rfl

end

/-! ## A load -/

section

variable {F D : Type} [Floating F]

/-- What a list of beacons adds to the living and to the names. -/
theorem spawnBeacons (l : List (BeaconDef × Nat)) :
    ∀ u : ServerUniverse F D, u.ents.world.Sound →
      let u' := l.foldl (fun u b => u.spawnBeacon (UInt16.ofNat b.2) b.1) u
      u'.ents.world.Sound ∧
      u'.liveBeacons = u.liveBeacons + ↑(l.map fun b => (UInt16.ofNat b.2, b.1.pos)) ∧
      u'.dataset = u.dataset ∧
      ∀ name i, Assoc.lookup u'.beaconName name = some i →
        (∃ b ∈ l, b.1.name = name ∧ UInt16.ofNat b.2 = i) ∨
          Assoc.lookup u.beaconName name = some i := by
  induction l with
  | nil => exact fun u hu => ⟨hu, (add_zero _).symm, rfl, fun _ _ h => Or.inr h⟩
  | cons b l ih =>
      intro u hu
      have hsound : (u.spawnBeacon (UInt16.ofNat b.2) b.1).ents.world.Sound := hu.createEntity _
      have hlive : (u.spawnBeacon (UInt16.ofNat b.2) b.1).liveBeacons =
          u.liveBeacons + {(UInt16.ofNat b.2, b.1.pos)} :=
        total_spawn Components.beacon hu fun netId =>
          { Components.bare netId b.1.pos ⟨beaconShapeId, .structure'⟩ with
            beaconTag := some (UInt16.ofNat b.2) }
      rcases ih _ hsound with ⟨hworld, hall, hdataset, hnames⟩
      refine ⟨hworld, ?_, hdataset, fun name i hi => ?_⟩
      · rw [List.foldl_cons, hall, hlive, add_assoc]
        rfl
      · rcases hnames name i hi with ⟨b', hb', hname⟩ | hold
        · exact Or.inl ⟨b', List.mem_cons_of_mem b hb', hname⟩
        · have hlookup : Assoc.lookup ((b.1.name, UInt16.ofNat b.2) ::
              Assoc.erase u.beaconName b.1.name) name = some i := hold
          rw [Assoc.lookup_cons, Assoc.lookup_erase] at hlookup
          by_cases hname : b.1.name = name
          · rw [if_pos hname, Option.some.injEq] at hlookup
            exact Or.inl ⟨b, List.mem_cons_self, hname, hlookup⟩
          · rw [if_neg hname, if_neg fun heq => hname heq.symm] at hlookup
            exact Or.inr hlookup

end

section

variable {F D : Type} [Floating F] [Floating D] [Widens F D]

/-- A load adds its beacons and its names to those that there are. -/
theorem loadUniverse_beacons (u : ServerUniverse F D) (hu : u.ents.world.Sound)
    (d : UniverseDataset F) :
    (u.loadUniverse d).ents.world.Sound ∧
    (u.loadUniverse d).liveBeacons =
      u.liveBeacons + ↑(d.loaded.map fun b => (UInt16.ofNat b.2, b.1.pos)) ∧
    (u.loadUniverse d).dataset = d ∧
    ∀ name i, Assoc.lookup (u.loadUniverse d).beaconName name = some i →
      (∃ b ∈ d.loaded, b.1.name = name ∧ UInt16.ofNat b.2 = i) ∨
        Assoc.lookup u.beaconName name = some i := by
  have hfields : ∀ v : ServerUniverse F D, Aside v (d.fields.foldl ServerUniverse.spawnField v) :=
    aside_foldl spawnField_aside d.fields
  rcases spawnBeacons d.loaded
    { u with dataset := d, nav := d.nav, economy := d.economy } hu with
    ⟨hworld, hlive, hdataset, hnames⟩
  have haside := hfields (d.loaded.foldl (fun u b => u.spawnBeacon (UInt16.ofNat b.2) b.1)
    { u with dataset := d, nav := d.nav, economy := d.economy })
  refine ⟨haside.world hworld, (haside.live hworld).trans hlive,
    haside.dataset.trans hdataset, fun name i hi => hnames name i ?_⟩
  rw [← haside.names]
  exact hi

theorem card_loadUniverse (u : ServerUniverse F D) (hu : u.ents.world.Sound)
    (d : UniverseDataset F) : (u.loadUniverse d).liveBeacons.card =
      u.liveBeacons.card + d.beacons.length % 65536 := by
  rw [(loadUniverse_beacons u hu d).2.1, Multiset.card_add, Multiset.coe_card, List.length_map,
    length_loaded]

omit [Widens F D] in
theorem charted_fresh : Charted (ServerUniverse.fresh : ServerUniverse F D) where
  world := Ecs.World.Sound.fresh
  live := rfl
  names _ _ h := absurd h (by simp only [ServerUniverse.fresh, Assoc.lookup_nil, reduceCtorEq,
    not_false_eq_true])

/-- A load that finds no beacons to be replaced and has no more than an index counts. -/
theorem Charted.load {u : ServerUniverse F D} (h : Charted u) (hnone : u.dataset.beacons = [])
    (d : UniverseDataset F) (hlength : d.beacons.length ≤ 65535) :
    Charted (u.loadUniverse d) := by
  rcases loadUniverse_beacons u h.world d with ⟨hworld, hlive, hdataset, hnames⟩
  have hempty : u.liveBeacons = 0 := by
    rw [h.live, ← Multiset.card_eq_zero, card_sites, hnone, List.length_nil]
  refine ⟨hworld, ?_, fun name i hi => ?_⟩
  · rw [hlive, hdataset, hempty, zero_add, loaded_of_le d hlength]
    rfl
  · rw [hdataset]
    rcases hnames name i hi with ⟨b, hb, hname, hindex⟩ | hold
    · rw [loaded_of_le d hlength, List.mem_zipIdx_iff_getElem?] at hb
      have hlt : b.2 < d.beacons.length := (List.getElem?_eq_some_iff.mp hb).1
      refine ⟨b.1, ?_, hname⟩
      rw [← hindex, UInt16.toNat_ofNat', Nat.mod_eq_of_lt (by omega)]
      exact hb
    · rcases h.names name i hold with ⟨b, hb, _⟩
      rw [hnone] at hb
      exact absurd hb nofun

/-! ## Jumps -/

omit [Floating F] in
/-- The closest beacon is one of those that are looked at. -/
theorem nearestBeacon_mem (pos : UniversePos) (l : List (BeaconDef × Nat)) :
    ∀ (best : Option (Nat × D)) (i : Nat) (r : D),
      ServerUniverse.nearestBeacon pos l best = some (i, r) →
        (∃ b ∈ l, b.2 = i) ∨ ∃ r', best = some (i, r') := by
  induction l with
  | nil => exact fun best i r h => Or.inr ⟨r, h⟩
  | cons b l ih =>
      obtain ⟨bd, j⟩ := b
      intro best i r h
      simp only [ServerUniverse.nearestBeacon] at h
      rcases ih _ i r h with ⟨b', hb', hi⟩ | ⟨r', hbest⟩
      · exact Or.inl ⟨b', List.mem_cons_of_mem _ hb', hi⟩
      · cases best with
        | none =>
            simp only [Option.some.injEq, Prod.mk.injEq] at hbest
            exact Or.inl ⟨(bd, j), List.mem_cons_self, hbest.1⟩
        | some e =>
            simp only at hbest
            split at hbest
            · simp only [Option.some.injEq, Prod.mk.injEq] at hbest
              exact Or.inl ⟨(bd, j), List.mem_cons_self, hbest.1⟩
            · exact Or.inr ⟨r', hbest⟩

omit [Floating F] in
theorem nearestBeaconWithin_lt (u : ServerUniverse F D) (pos : UniversePos) (range : F) (i : Nat)
    (h : u.nearestBeaconWithin pos range = some i) : i < u.dataset.beacons.length := by
  unfold ServerUniverse.nearestBeaconWithin at h
  split at h
  · exact absurd h nofun
  · rename_i j r hnearest
    rw [Option.ite_none_right_eq_some, Option.some.injEq] at h
    rcases nearestBeacon_mem pos _ none j r hnearest with ⟨b, hb, hj⟩ | ⟨_, hbest⟩
    · rw [List.mem_zipIdx_iff_getElem?] at hb
      rw [← h.2, ← hj]
      exact (List.getElem?_eq_some_iff.mp hb).1
    · exact absurd hbest nofun

/-- What is asked of a universe and of every jump in it. -/
structure Resolves (u : ServerUniverse F D) : Prop where
  live : u.liveBeacons = u.dataset.sites
  inRange : ∀ n dest, u.readsPast n dest = false
  /-- An accepted name is one of the list, and the unit spools for the place of that beacon. -/
  jumps : ∀ n dest, (u.beginJumpTo n dest).1 = .accepted →
    ∃ b ∈ u.dataset.beacons, b.name = dest ∧
      ∃ c nav, (u.beginJumpTo n dest).2.ents.find n = some c ∧ c.navState = some nav ∧
        nav.phase = .spool ∧ nav.target = b.pos

theorem Charted.resolves {u : ServerUniverse F D} (h : Charted u) : Resolves u where
  live := h.live
  inRange n dest := by
    unfold ServerUniverse.readsPast
    split
    · rfl
    · split
      · rename_i destIdx srcIdx _ _ hname hnearest
        rcases h.names dest destIdx hname with ⟨b, hb, _⟩
        have hdest : destIdx.toNat < u.dataset.beacons.length := (List.getElem?_eq_some_iff.mp hb).1
        have hsrc := nearestBeaconWithin_lt u _ _ srcIdx hnearest
        exact decide_eq_false (by omega)
      · rfl
  jumps n dest hacc := by
    rcases beginJumpTo_cases u n dest with
      ⟨hnot, _⟩ | ⟨c, nav, fuel, i, b, cost, spool, hc, _, _, _, hname, hb, hjump⟩
    · exact absurd hacc hnot
    · rcases h.names dest i hname with ⟨b', hb', hname'⟩
      rw [hb, Option.some.injEq] at hb'
      rw [hjump]
      exact
        ⟨b, List.mem_of_getElem? hb, hb' ▸ hname', _, _, find_modify_self hc _, rfl, rfl, rfl⟩

end

/-! ## Runs -/

section

variable {F : Type} (decode : List UInt8 → Option (UniverseDataset F))

/-- The dataset that a call loads. -/
def Setup.data : Setup F → Option (UniverseDataset F)
  | .load d => some d
  | .loadFromCooked blob => decode blob
  | .call _ _ => none

/-- The datasets that are loaded, in their order. -/
def datasets (l : List (Setup F)) : List (UniverseDataset F) := l.filterMap (Setup.data decode)

/-- Only the last list that is loaded has beacons, and none is longer than its index. -/
def Surveyed (l : List (Setup F)) : Prop :=
  ((datasets decode l).Pairwise fun d _ => d.beacons = []) ∧
    ∀ d ∈ datasets decode l, d.beacons.length ≤ 65535

theorem datasets_append (l : List (Setup F)) (s : Setup F) :
    datasets decode (l ++ [s]) = datasets decode l ++ (s.data decode).toList := by
  unfold datasets
  rw [List.filterMap_append]
  cases h : s.data decode with
  | none => rw [List.filterMap_cons_none h]; rfl
  | some d => rw [List.filterMap_cons_some h]; rfl

theorem surveyed_append_none (l : List (Setup F)) (s : Setup F) (h : s.data decode = none) :
    Surveyed decode (l ++ [s]) ↔ Surveyed decode l := by
  unfold Surveyed
  rw [datasets_append, h, Option.toList_none, List.append_nil]

theorem surveyed_append_some (l : List (Setup F)) (s : Setup F) (d : UniverseDataset F)
    (h : s.data decode = some d) : Surveyed decode (l ++ [s]) ↔
      Surveyed decode l ∧ (∀ d' ∈ datasets decode l, d'.beacons = []) ∧
        d.beacons.length ≤ 65535 := by
  unfold Surveyed
  rw [datasets_append, h, Option.toList_some, List.pairwise_append]
  constructor
  · rintro ⟨⟨hpairs, _, hlast⟩, hlength⟩
    exact ⟨⟨hpairs, fun d' hd' => hlength d' (List.mem_append_left _ hd')⟩,
      fun d' hd' => hlast d' hd' d List.mem_cons_self,
      hlength d (List.mem_append_right _ List.mem_cons_self)⟩
  · rintro ⟨⟨hpairs, hlength⟩, hnone, hle⟩
    refine ⟨⟨hpairs, List.pairwise_singleton _ _, fun d' hd' _ _ => hnone d' hd'⟩,
      fun d' hd' => ?_⟩
    rcases List.mem_append.mp hd' with hd' | hd'
    · exact hlength d' hd'
    · rw [List.mem_singleton.mp hd']
      exact hle

end

section

variable {F D : Type} [Floating F] [Floating D] [Widens F D]
  (decode : List UInt8 → Option (UniverseDataset F))

variable (D) in
/-- A fresh universe after some calls. -/
def prepared (l : List (Setup F)) : ServerUniverse F D := l.foldl (setup decode) .fresh

theorem prepared_append (l : List (Setup F)) (s : Setup F) :
    prepared D decode (l ++ [s]) = setup decode (prepared D decode l) s := by
  unfold prepared
  rw [List.foldl_append]
  rfl

theorem setup_of_data (u : ServerUniverse F D) (s : Setup F) (d : UniverseDataset F)
    (h : s.data decode = some d) : setup decode u s = u.loadUniverse d := by
  cases s with
  | load d' => exact congrArg u.loadUniverse (Option.some.inj h)
  | loadFromCooked blob =>
      have hblob : decode blob = some d := h
      simp only [setup, ServerUniverse.loadUniverseFromCooked, hblob]
  | call o hquiet => exact absurd h (by simp only [Setup.data, reduceCtorEq, not_false_eq_true])

theorem setup_of_none (u : ServerUniverse F D) (s : Setup F) (h : s.data decode = none) :
    Aside u (setup decode u s) := by
  cases s with
  | load d => exact absurd h (by simp only [Setup.data, reduceCtorEq, not_false_eq_true])
  | loadFromCooked blob =>
      have hblob : decode blob = none := h
      simp only [setup, ServerUniverse.loadUniverseFromCooked, hblob]
      exact Aside.refl u
  | call o hquiet => exact apply_aside u o hquiet

theorem prepared_world (l : List (Setup F)) : (prepared D decode l).ents.world.Sound := by
  induction l using List.reverseRecOn with
  | nil => exact Ecs.World.Sound.fresh
  | append_singleton l s ih =>
      rw [prepared_append]
      cases hs : s.data decode with
      | none => exact (setup_of_none decode _ s hs).world ih
      | some d =>
          rw [setup_of_data decode _ s d hs]
          exact (loadUniverse_beacons _ ih d).1

/-- The list that is looked up in has beacons when one that was loaded has. -/
theorem prepared_dataset (l : List (Setup F)) (h : Surveyed decode l) :
    (prepared D decode l).dataset.beacons.length ≤ 65535 ∧
      ((prepared D decode l).dataset.beacons = [] ↔ ∀ d ∈ datasets decode l, d.beacons = []) := by
  induction l using List.reverseRecOn with
  | nil => exact ⟨Nat.zero_le _, fun _ _ h => absurd h List.not_mem_nil, fun _ => rfl⟩
  | append_singleton l s ih =>
      rw [prepared_append, datasets_append]
      cases hs : s.data decode with
      | none =>
          rw [surveyed_append_none decode l s hs] at h
          rw [(setup_of_none decode _ s hs).dataset, Option.toList_none, List.append_nil]
          exact ih h
      | some d =>
          rw [surveyed_append_some decode l s d hs] at h
          rw [setup_of_data decode _ s d hs,
            (loadUniverse_beacons _ (prepared_world decode l) d).2.2.1]
          refine ⟨h.2.2, fun hd d' hd' => ?_, fun hall => ?_⟩
          · rcases List.mem_append.mp hd' with hd' | hd'
            · exact h.2.1 d' hd'
            · rw [List.mem_singleton.mp hd']
              exact hd
          · exact hall d (List.mem_append_right _ List.mem_cons_self)

theorem charted_of_surveyed (l : List (Setup F)) (h : Surveyed decode l) :
    Charted (prepared D decode l) := by
  induction l using List.reverseRecOn with
  | nil => exact charted_fresh
  | append_singleton l s ih =>
      rw [prepared_append]
      cases hs : s.data decode with
      | none =>
          rw [surveyed_append_none decode l s hs] at h
          exact (ih h).aside (setup_of_none decode _ s hs)
      | some d =>
          rw [surveyed_append_some decode l s d hs] at h
          rw [setup_of_data decode _ s d hs]
          exact (ih h.1).load ((prepared_dataset decode l h.1).2.mpr h.2.1) d h.2.2

omit [Floating F] in
theorem Surveyed.of_append (l : List (Setup F)) (s : Setup F) (h : Surveyed decode (l ++ [s])) :
    Surveyed decode l := by
  cases hs : s.data decode with
  | none => exact (surveyed_append_none decode l s hs).mp h
  | some d => exact ((surveyed_append_some decode l s d hs).mp h).1

variable (D) in
/-- Every state of a run resolves its names when only the last list that is loaded has
    beacons, and no list is longer than its index. -/
theorem beacons_resolve_iff (l : List (Setup F)) :
    (∀ pre, pre <+: l → Resolves (prepared D decode pre)) ↔ Surveyed decode l := by
  induction l using List.reverseRecOn with
  | nil =>
      constructor
      · exact fun _ => ⟨List.Pairwise.nil, fun _ h => absurd h List.not_mem_nil⟩
      · intro h pre hpre
        rw [List.prefix_nil.mp hpre]
        exact (charted_of_surveyed decode [] h).resolves
  | append_singleton l s ih =>
      constructor
      · intro h
        have hl := ih.mp fun pre hpre => h pre (hpre.trans (List.prefix_append l [s]))
        cases hs : s.data decode with
        | none => exact (surveyed_append_none decode l s hs).mpr hl
        | some d =>
            -- The beacons that are alive are as many as before and those that are spawned.
            have hbefore := (charted_of_surveyed (D := D) decode l hl).live
            have hafter := (h (l ++ [s]) (List.prefix_refl _)).live
            have hworld := prepared_world (D := D) decode l
            rw [prepared_append, setup_of_data decode _ s d hs,
              (loadUniverse_beacons _ hworld d).2.2.1] at hafter
            have hcard := card_loadUniverse _ hworld d
            rw [hafter, hbefore, card_sites, card_sites] at hcard
            rcases prepared_dataset (D := D) decode l hl with ⟨hlength, hnone⟩
            have hempty : (prepared D decode l).dataset.beacons.length = 0 := by omega
            exact (surveyed_append_some decode l s d hs).mpr
              ⟨hl, hnone.mp (List.length_eq_zero_iff.mp hempty), by omega⟩
      · intro h pre hpre
        rcases List.prefix_concat_iff.mp hpre with rfl | hpre
        · exact (charted_of_surveyed decode _ h).resolves
        · exact ih.mpr (h.of_append decode l s) pre hpre

/-! ### A second load -/

/-- One beacon, which is linked to itself. -/
def loneBeacon : UniverseDataset Float32 := ⟨[⟨"X", ⟨0, 0, 0⟩, ["X"]⟩], [], .default, .default⟩

/-- The dev universe, replaced, and a base at the new beacon. -/
def reloaded : List (Setup Float32) :=
  [.load demoDataset, .load loneBeacon, .call (.spawnBase ⟨0, 0, 0⟩ ⟨0, 0, 0⟩) trivial]

/-- A name of the list before is accepted and leads to a beacon of another name, another is
    looked up past the end of the list, and the beacons of the list before are alive. -/
theorem stale_names :
    let u : ServerUniverse Float32 Float := prepared Float (fun _ => none) reloaded
    (u.beginJumpTo 4 "DEMO_GATE_W").1 = .accepted ∧
      (∀ b ∈ u.dataset.beacons, b.name ≠ "DEMO_GATE_W") ∧
      u.readsPast 4 "DEMO_GATE_E" = true ∧ ¬ Resolves u := by
  have haccepted : ((prepared Float (fun _ => none) reloaded).beginJumpTo 4 "DEMO_GATE_W").1 =
      .accepted := by decide +kernel
  have hnames : ∀ b ∈ (prepared Float (fun _ => none) reloaded).dataset.beacons,
      b.name ≠ "DEMO_GATE_W" := by decide +kernel
  have hpast : (prepared Float (fun _ => none) reloaded).readsPast 4 "DEMO_GATE_E" = true := by
    decide +kernel
  refine ⟨haccepted, hnames, hpast, fun h => ?_⟩
  rw [h.inRange] at hpast
  exact absurd hpast Bool.false_ne_true

end

end Shard

end EarthRise
