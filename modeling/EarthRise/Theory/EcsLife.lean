import EarthRise.Theory.EcsStorage

/-!
# The Life of an Entity

Creating and destroying in the stored entity store, and every operation together.

A slot is given out empty: the entity that had it before was destroyed, and with it the
components that its mask named, which are all that it had. Destroying does not fail in the
middle, since a type in the mask has a storage with a component in it.

## Main definitions

* `Occupied`, `Vacated`: What creating and destroying do to a slot.
* `Happened`: What an event says of the table.
* `Legal`: What an operation asserts.

## Theorems

* `Sound.createEntity`, `Sound.destroyEntity`: The store stays sound, and what happens to
  the table.
* `Sound.exec`: The same for every operation.
* `Sound.isSome_exec`: An assertion fails in an operation that is not legal, and in no other.
-/

namespace EarthRise

namespace EcsStorage

namespace World

variable {T : ComponentTypeId → Type} {w w' : World T} {e : EntityHandle} {idx gen : Nat}
  {c : ComponentTypeId}

/-! ## Creating -/

/-- A slot of the free list is given out again, or a new one is made. -/
theorem createEntity_eq_some
    (h : w.createEntity = some (e, w')) :
    (∃ idx rest r, w.freeList = idx :: rest ∧ w.records[idx]? = some r ∧
      EntityHandle.make idx r.generation = some e ∧ w' = { w with
        records := w.records.set idx { r with alive := true, componentMask := 0 }
        freeList := rest }) ∨
    (w.freeList = [] ∧ w.records.length ≤ EntityHandle.maxIndex ∧
      EntityHandle.make w.records.length 0 = some e ∧
      w' = { w with records := w.records ++ [⟨0, 0, true⟩] }) := by
  unfold createEntity at h
  cases hf : w.freeList with
  | cons idx rest =>
      rw [hf] at h
      simp only [] at h
      cases hr : w.records[idx]? with
      | none =>
          rw [hr] at h
          exact absurd h nofun
      | some r =>
          rw [hr] at h
          rcases Option.map_eq_some_iff.mp h with ⟨e', he, heq⟩
          rw [Prod.mk.injEq] at heq
          exact Or.inl ⟨idx, rest, r, rfl, hr, by rw [he, heq.1], heq.2.symm⟩
  | nil =>
      rw [hf] at h
      simp only [] at h
      split at h
      · rename_i hle
        rcases Option.map_eq_some_iff.mp h with ⟨e', he, heq⟩
        rw [Prod.mk.injEq] at heq
        exact Or.inr ⟨rfl, hle, by rw [he, heq.1], heq.2.symm⟩
      · exact absurd h nofun

/-- A slot that is not in use has no bit in its mask. -/
theorem Sound.bit_dead {w : World T} (hw : w.Sound) {i : Nat}
    (h : ∀ r, w.records[i]? = some r → r.alive = false) (c : ComponentTypeId) :
    w.bit c i = false := by
  rw [← hw.present]
  have hrow := congrFun (hw.row_dead h) c
  unfold row at hrow
  rw [hrow, Option.isSome_none]

/-- A slot that was not in use is, without components, and with a generation. -/
structure Occupied (w w' : World T) (idx gen : Nat) : Prop where
  unused : ∀ r, w.records[idx]? = some r → r.alive = false
  records : ∀ i, w'.records[i]? = if i = idx then some ⟨gen, 0, true⟩ else w.records[i]?
  storages : w'.storages = w.storages
  freeList : ∀ i, i ∈ w'.freeList ↔ i ∈ w.freeList ∧ i ≠ idx

theorem Occupied.component (h : w.Occupied w' idx gen)
    (c : ComponentTypeId) (i : Nat) : w'.component c i = w.component c i := by
  unfold World.component
  rw [h.storages]

theorem Occupied.sound (h : w.Occupied w' idx gen)
    (hw : w.Sound) (h0 : idx ≠ 0) (hgen : gen < 2 ^ 12)
    (hsize : 0 < w'.records.length ∧ w'.records.length ≤ 2 ^ 20) (hnodup : w'.freeList.Nodup) :
    w'.Sound where
  size := hsize
  null := by
    intro r hr
    rw [h.records, if_neg fun h => h0 h.symm] at hr
    exact hw.null r hr
  generation := by
    intro i r hr
    rw [h.records] at hr
    by_cases hi : i = idx
    · rw [if_pos hi, Option.some.injEq] at hr
      rw [← hr]
      exact hgen
    · rw [if_neg hi] at hr
      exact hw.generation i r hr
  masked := by
    intro i r hr hdead
    rw [h.records] at hr
    by_cases hi : i = idx
    · rw [if_pos hi, Option.some.injEq] at hr
      rw [← hr]
    · rw [if_neg hi] at hr
      exact hw.masked i r hr hdead
  nodup := hnodup
  free := by
    intro i
    rw [h.freeList, hw.free, h.records]
    by_cases hi : i = idx
    · rw [if_pos hi]
      refine ⟨fun h => absurd hi h.2, fun ⟨_, r, hr, hdead⟩ => ?_⟩
      rw [Option.some.injEq] at hr
      rw [← hr] at hdead
      exact absurd hdead Bool.true_eq_false.mp
    · rw [if_neg hi]
      exact and_iff_left hi
  storage := by
    rw [h.storages]
    exact hw.storage
  present := by
    intro c i
    have hbit : w'.bit c i = if i = idx then false else w.bit c i := by
      unfold bit
      rw [h.records]
      by_cases hi : i = idx
      · rw [if_pos hi, if_pos hi, Option.any_some]
        exact BitVec.getLsbD_zero
      · rw [if_neg hi, if_neg hi]
    rw [h.component, hw.present, hbit]
    by_cases hi : i = idx
    · rw [if_pos hi, hi, hw.bit_dead h.unused]
    · rw [if_neg hi]

theorem Occupied.cell (h : w.Occupied w' idx gen)
    (hw : w.Sound) (i : Nat) : (w'.records[i]?).map (w'.cell i) =
      if i = idx then some ⟨gen, some fun _ => none⟩ else w.table.records[i]? := by
  have hrow : w'.row i = w.row i := by
    funext c
    exact h.component c i
  have hcell : w'.cell i = w.cell i := by
    funext r
    unfold World.cell
    rw [hrow]
  rw [h.records, hcell, getElem?_table]
  by_cases hi : i = idx
  · rw [if_pos hi, if_pos hi, hi, Option.map_some]
    unfold World.cell
    rw [hw.row_dead h.unused]
    rfl
  · rw [if_neg hi, if_neg hi]

/-- An element is the last one of a list, or it is one of the others. -/
theorem getElem?_concat {α : Type} (l : List α) (a : α) (i : Nat) :
    (l ++ [a])[i]? = if i = l.length then some a else l[i]? := by
  by_cases hi : i = l.length
  · rw [if_pos hi, hi, List.getElem?_concat_length]
  · rw [if_neg hi]
    by_cases hlt : i < l.length
    · rw [List.getElem?_append_left hlt]
    · rw [List.getElem?_eq_none (by simp only [List.length_append, List.length_singleton]; omega),
        List.getElem?_eq_none (Nat.le_of_not_lt hlt)]

theorem Sound.createEntity (hw : w.Sound)
    (h : w.createEntity = some (e, w')) : w'.Sound ∧
      e.unpack = (w.table.createEntity fun _ => none).1 ∧
      w'.table = (w.table.createEntity fun _ => none).2 := by
  rcases createEntity_eq_some h with ⟨idx, rest, r, hf, hr, hmake, hw'⟩ | ⟨hf, hle, hmake, hw'⟩
  · -- The slot was freed before.
    rcases EntityHandle.make_eq_some hmake with ⟨hindex, hgen⟩
    rcases (hw.free idx).mp (by rw [hf]; exact List.mem_cons_self) with ⟨h0, r₀, hr₀, hdead⟩
    have hsame : r₀ = r := Option.some.inj (hr₀.symm.trans hr)
    have hlt : idx < w.records.length := (List.getElem?_eq_some_iff.mp hr).1
    have hnodup := hw.nodup
    rw [hf, List.nodup_cons] at hnodup
    have hocc : w.Occupied w' idx r.generation := by
      refine ⟨fun r' hr' => ?_, fun i => ?_, by rw [hw'], fun i => ?_⟩
      · rw [← Option.some.inj (hr₀.symm.trans hr')]
        exact hdead
      · rw [hw']
        simp only []
        rw [List.getElem?_set]
        by_cases hi : i = idx
        · rw [if_pos hi, if_pos hi.symm, if_pos hlt]
        · rw [if_neg hi, if_neg fun h => hi h.symm]
      · rw [hw', hf, List.mem_cons]
        refine ⟨fun hi => ⟨Or.inr hi, ?_⟩, fun hi => hi.1.resolve_left hi.2⟩
        rintro rfl
        exact hnodup.1 hi
    have hgenAt : w.table.generationAt idx = r.generation := by
      rw [generationAt_table, hr, Option.elim_some]
    refine ⟨hocc.sound hw h0 (hw.generation idx r hr) ?_ ?_, ?_, ?_⟩
    · rw [hw', List.length_set]
      exact hw.size
    · rw [hw']
      exact hnodup.2
    · rw [Ecs.World.createEntity_cons (w := w.table) hf, hgenAt, EntityHandle.unpack, hindex, hgen]
    · rw [Ecs.World.createEntity_cons (w := w.table) hf, hgenAt]
      refine table_ext (by rw [hw']) fun i => ?_
      rw [hocc.cell hw, List.getElem?_set, length_table, if_pos hlt]
      by_cases hi : i = idx
      · rw [if_pos hi, if_pos hi.symm]
      · rw [if_neg hi, if_neg fun h => hi h.symm]
  · -- The slot is a new one.
    rcases EntityHandle.make_eq_some hmake with ⟨hindex, hgen⟩
    have hocc : w.Occupied w' w.records.length 0 := by
      refine ⟨fun r hr => ?_, fun i => ?_, by rw [hw'], fun i => ?_⟩
      · rw [List.getElem?_eq_none (Nat.le_refl _)] at hr
        exact absurd hr nofun
      · rw [hw']
        exact getElem?_concat _ _ i
      · rw [hw', hf]
        exact ⟨fun hi => absurd hi List.not_mem_nil, fun hi => absurd hi.1 List.not_mem_nil⟩
    refine ⟨hocc.sound hw (Nat.pos_iff_ne_zero.mp hw.size.1) (by decide) ?_ ?_, ?_, ?_⟩
    · rw [hw', List.length_append, List.length_singleton]
      unfold EntityHandle.maxIndex EntityHandle.indexBits at hle
      omega
    · rw [hw']
      exact hw.nodup
    · rw [Ecs.World.createEntity_nil (w := w.table) hf, length_table, EntityHandle.unpack, hindex,
        hgen]
    · rw [Ecs.World.createEntity_nil (w := w.table) hf]
      refine table_ext (by rw [hw']; rfl) fun i => ?_
      rw [hocc.cell hw, getElem?_concat, length_table]

/-! ## Destroying -/

/-- Removing the component of one type, which is there if the mask has the type. -/
theorem removeMasked_spec {idx : Nat} {mask : BitVec 64}
    {storages : (c : ComponentTypeId) → Option (ComponentStorage (T c))}
    (hsound : ∀ c s, storages c = some s → s.Sound)
    (hpresent : mask.getLsbD c = true → ((storages c).bind fun s => s.get idx).isSome = true) :
    ∃ storages', removeMasked idx mask storages c = some storages' ∧
      (∀ d s, storages' d = some s → s.Sound) ∧
      ∀ d i, (storages' d).bind (fun s => s.get i) =
        if i = idx ∧ d = c ∧ mask.getLsbD c = true then none
        else (storages d).bind fun s => s.get i := by
  unfold removeMasked
  by_cases hbit : mask.getLsbD c = true
  · have hsome := hpresent hbit
    cases hs : storages c with
    | none =>
        rw [hs] at hsome
        exact absurd hsome Bool.false_ne_true
    | some s =>
        have hc := hsound c s hs
        rw [hs, Option.bind_some, hc.isSome_get] at hsome
        rcases Option.isSome_iff_exists.mp hsome with ⟨di, hdi⟩
        rcases Option.isSome_iff_exists.mp (hc.isSome_remove hdi) with ⟨r, hr⟩
        refine ⟨Function.update storages c (some r.2), ?_, fun d s' hs' => ?_, fun d i => ?_⟩
        · rw [if_pos hbit]
          simp only [hr, Option.map_some]
        · by_cases hd : d = c
          · subst hd
            rw [Function.update_self, Option.some.injEq] at hs'
            rw [← hs']
            exact hc.remove hr
          · rw [Function.update_of_ne hd] at hs'
            exact hsound d s' hs'
        · by_cases hd : d = c
          · subst hd
            rw [Function.update_self, Option.bind_some, hc.get_remove hr, hs, Option.bind_some]
            simp only [hbit, and_true]
          · rw [Function.update_of_ne hd, if_neg fun h => hd h.2.1]
  · refine ⟨storages, by rw [if_neg hbit], hsound, fun d i => ?_⟩
    rw [if_neg fun h => hbit h.2.2]

/-- Removing the components of several types. -/
theorem foldlM_removeMasked {idx : Nat} {mask : BitVec 64} {cs : List ComponentTypeId}
    (hnodup : cs.Nodup) {storages : (c : ComponentTypeId) → Option (ComponentStorage (T c))}
    (hsound : ∀ c s, storages c = some s → s.Sound)
    (hpresent : ∀ c ∈ cs, mask.getLsbD c = true →
      ((storages c).bind fun s => s.get idx).isSome = true) :
    ∃ storages', cs.foldlM (removeMasked idx mask) storages = some storages' ∧
      (∀ d s, storages' d = some s → s.Sound) ∧
      ∀ d i, (storages' d).bind (fun s => s.get i) =
        if i = idx ∧ d ∈ cs ∧ mask.getLsbD d = true then none
        else (storages d).bind fun s => s.get i := by
  induction cs generalizing storages with
  | nil =>
      refine ⟨storages, rfl, hsound, fun d i => ?_⟩
      rw [if_neg fun h => List.not_mem_nil h.2.1]
  | cons c cs ih =>
      rw [List.nodup_cons] at hnodup
      rcases removeMasked_spec hsound (hpresent c List.mem_cons_self) with ⟨mid, hmid, hmidS, hget⟩
      have hstill : ∀ d ∈ cs, mask.getLsbD d = true →
          ((mid d).bind fun s => s.get idx).isSome = true := by
        intro d hd hbit
        have hne : d ≠ c := by
          rintro rfl
          exact hnodup.1 hd
        rw [hget, if_neg fun h => hne h.2.1]
        exact hpresent d (List.mem_cons_of_mem c hd) hbit
      rcases ih hnodup.2 hmidS hstill with ⟨last, hlast, hlastS, hget'⟩
      refine ⟨last, ?_, hlastS, fun d i => ?_⟩
      · rw [List.foldlM_cons, hmid]
        exact hlast
      · rw [hget', hget]
        by_cases hi : i = idx
        · by_cases hd : d = c
          · subst hd
            simp only [List.mem_cons, true_or, true_and, hi, hnodup.1, false_and, if_false]
          · simp only [List.mem_cons, hd, false_or, false_and, and_false, if_false]
        · simp only [hi, false_and, if_false]

/-- What destroying an entity leaves: its slot is free, and has no components. -/
structure Vacated (w w' : World T) (idx gen : Nat) : Prop where
  records : w'.records = w.records.set idx ⟨gen, 0, false⟩
  freeList : w'.freeList = idx :: w.freeList
  storage : ∀ c s, w'.storages c = some s → s.Sound
  component : ∀ c i, w'.component c i = if i = idx then none else w.component c i

/-- Destroying does not fail. -/
theorem Sound.destroyEntity_eq {w : World T} (hw : w.Sound)
    (ha : w.isAlive e = true) : ∃ w', w.destroyEntity e = some w' ∧
      w.Vacated w' e.index ((e.generation + 1) % 2 ^ 12) := by
  rcases (isAlive_iff w e).mp ha with ⟨h0, r, hr, hlife, hgen⟩
  have hpresent : ∀ c ∈ List.finRange 64, r.componentMask.getLsbD c = true →
      ((w.storages c).bind fun s => s.get e.index).isSome = true := by
    intro c _ hbit
    have h := hw.present c e.index
    unfold bit at h
    rw [hr, Option.any_some, hbit] at h
    exact h
  rcases foldlM_removeMasked (List.nodup_finRange 64) hw.storage hpresent with
    ⟨storages, hfold, hsound, hget⟩
  unfold World.destroyEntity
  rw [if_pos ha, hr]
  simp only [hfold, Option.map_some]
  refine ⟨_, rfl, ?_, rfl, hsound, fun c i => ?_⟩
  · rw [← hgen]
    exact congrArg (fun g => w.records.set e.index ⟨g, 0, false⟩)
      (Nat.and_two_pow_sub_one_eq_mod (r.generation + 1) 12)
  · unfold World.component
    rw [hget]
    by_cases hi : i = e.index
    · rw [if_pos hi]
      by_cases hbit : r.componentMask.getLsbD c = true
      · rw [if_pos ⟨hi, List.mem_finRange c, hbit⟩]
      · rw [if_neg fun h => hbit h.2.2, hi]
        have h := hw.present c e.index
        unfold bit at h
        rw [hr, Option.any_some, (Bool.not_eq_true _).mp hbit, Option.isSome_eq_false_iff,
          Option.isNone_iff_eq_none] at h
        exact h
    · rw [if_neg fun h => hi h.1, if_neg hi]

theorem Vacated.sound (h : w.Vacated w' idx gen) (hw : w.Sound)
    (h0 : idx ≠ 0) {r : EntityRecord} (hr : w.records[idx]? = some r) (hlife : r.alive = true)
    (hgen : gen < 2 ^ 12) : w'.Sound := by
  have hlt : idx < w.records.length := (List.getElem?_eq_some_iff.mp hr).1
  have hat : ∀ i, w'.records[i]? = if i = idx then some ⟨gen, 0, false⟩ else w.records[i]? := by
    intro i
    rw [h.records, List.getElem?_set]
    by_cases hi : i = idx
    · rw [if_pos hi, if_pos hi.symm, if_pos hlt]
    · rw [if_neg hi, if_neg fun h => hi h.symm]
  refine ⟨?_, ?_, ?_, ?_, ?_, ?_, h.storage, ?_⟩
  · rw [h.records, List.length_set]
    exact hw.size
  · intro r' hr'
    rw [hat, if_neg fun h => h0 h.symm] at hr'
    exact hw.null r' hr'
  · intro i r' hr'
    rw [hat] at hr'
    by_cases hi : i = idx
    · rw [if_pos hi, Option.some.injEq] at hr'
      rw [← hr']
      exact hgen
    · rw [if_neg hi] at hr'
      exact hw.generation i r' hr'
  · intro i r' hr' hdead
    rw [hat] at hr'
    by_cases hi : i = idx
    · rw [if_pos hi, Option.some.injEq] at hr'
      rw [← hr']
    · rw [if_neg hi] at hr'
      exact hw.masked i r' hr' hdead
  · rw [h.freeList, List.nodup_cons]
    refine ⟨fun hmem => ?_, hw.nodup⟩
    rcases (hw.free idx).mp hmem with ⟨_, r', hr', hdead⟩
    rw [hr, Option.some.injEq] at hr'
    rw [← hr', hlife] at hdead
    exact absurd hdead (by decide)
  · intro i
    rw [h.freeList, List.mem_cons, hw.free, hat]
    by_cases hi : i = idx
    · rw [if_pos hi]
      exact ⟨fun _ => ⟨hi ▸ h0, _, rfl, rfl⟩, fun _ => Or.inl hi⟩
    · rw [if_neg hi]
      exact or_iff_right hi
  · intro c i
    unfold bit
    rw [h.component, hat]
    by_cases hi : i = idx
    · rw [if_pos hi, if_pos hi, Option.any_some]
      exact BitVec.getLsbD_zero.symm
    · rw [if_neg hi, if_neg hi]
      exact hw.present c i

theorem Sound.destroyEntity (hw : w.Sound)
    (h : w.destroyEntity e = some w') :
    w'.Sound ∧ w'.table = w.table.destroyEntity e.unpack := by
  by_cases ha : w.isAlive e = true
  · rcases hw.destroyEntity_eq ha with ⟨w₁, hw₁, hvac⟩
    rw [hw₁, Option.some.injEq] at h
    subst h
    rcases (isAlive_iff w e).mp ha with ⟨h0, r, hr, hlife, hgen⟩
    refine ⟨hvac.sound hw h0 hr hlife (Nat.mod_lt _ (by decide)), ?_⟩
    rw [Ecs.World.destroyEntity_of_alive ((isAlive_eq w e).symm.trans ha)]
    refine table_ext hvac.freeList fun i => ?_
    have hlt : e.index < w.records.length := (List.getElem?_eq_some_iff.mp hr).1
    unfold EntityHandle.unpack Ecs.generations
    simp only []
    rw [hvac.records, List.getElem?_set, List.getElem?_set, length_table, if_pos hlt, if_pos hlt]
    by_cases hi : e.index = i
    · rw [if_pos hi, if_pos hi]
      rfl
    · have hrow : w₁.row i = w.row i := by
        funext c
        exact (hvac.component c i).trans (if_neg fun h => hi h.symm)
      have hcell : w₁.cell i = w.cell i := by
        funext r
        unfold World.cell
        rw [hrow]
      rw [if_neg hi, if_neg hi, getElem?_table, hcell]
  · unfold World.destroyEntity at h
    rw [if_neg ha, Option.some.injEq] at h
    rw [← h]
    refine ⟨hw, (Ecs.World.destroyEntity_of_not_alive ?_).symm⟩
    rw [← isAlive_eq]
    exact ha

/-! ## Every operation -/

/-- What an event says of the table before and after it. -/
inductive Happened [∀ c, Inhabited (T c)] (t t' : Ecs.World (Row T)) : Event T → Prop
  | registered (c : ComponentTypeId) (h : t' = t) : Happened t t' (.registered c)
  | created (e : EntityHandle) (h : e.unpack = (t.createEntity fun _ => none).1)
      (h' : t' = (t.createEntity fun _ => none).2) : Happened t t' (.created e)
  | destroyed (e : EntityHandle) (ha : t.isAlive e.unpack = true)
      (h : t' = t.destroyEntity e.unpack) : Happened t t' (.destroyed e)
  | ignored (h : t' = t) : Happened t t' .ignored
  | added (c : ComponentTypeId) (e : EntityHandle) (ha : t.isAlive e.unpack = true)
      (h : t' = t.modify e.unpack fun row => Function.update row c (some default)) :
      Happened t t' (.added c e)
  | removed (c : ComponentTypeId) (e : EntityHandle) (ha : t.isAlive e.unpack = true)
      (h : t' = t.modify e.unpack fun row => Function.update row c none) :
      Happened t t' (.removed c e)
  | wrote (c : ComponentTypeId) (e : EntityHandle) (v : T c) (ha : t.isAlive e.unpack = true)
      (h : t' = t.modify e.unpack fun row => Function.update row c (some v)) :
      Happened t t' (.wrote c e v)

theorem isAlive_of_getComponent {w : World T}
    (h : (w.getComponent c e).isSome = true) : w.isAlive e = true := by
  unfold getComponent at h
  by_contra ha
  rw [if_neg ha] at h
  exact absurd h Bool.false_ne_true

/-- Every operation keeps the store sound, and does to the table what it says. -/
theorem Sound.exec [∀ c, Inhabited (T c)] (hw : w.Sound) {o : Op T}
    {ev : Event T} (h : w.exec o = some (ev, w')) : w'.Sound ∧ Happened w.table w'.table ev := by
  cases o with
  | register c =>
      rcases Option.map_eq_some_iff.mp h with ⟨w₁, hreg, heq⟩
      rw [Prod.mk.injEq] at heq
      rcases heq with ⟨rfl, rfl⟩
      rcases hw.registerComponent hreg with ⟨hw', htable⟩
      exact ⟨hw', .registered c htable⟩
  | create =>
      rcases Option.map_eq_some_iff.mp h with ⟨⟨e, w₁⟩, hcreate, heq⟩
      rw [Prod.mk.injEq] at heq
      rcases heq with ⟨rfl, rfl⟩
      rcases hw.createEntity hcreate with ⟨hw', hhandle, htable⟩
      exact ⟨hw', .created e hhandle htable⟩
  | destroy e =>
      rcases Option.map_eq_some_iff.mp h with ⟨w₁, hdestroy, heq⟩
      rw [Prod.mk.injEq] at heq
      rcases heq with ⟨rfl, rfl⟩
      rcases hw.destroyEntity hdestroy with ⟨hw', htable⟩
      refine ⟨hw', ?_⟩
      by_cases ha : w.isAlive e = true
      · rw [if_pos ha]
        exact .destroyed e ((isAlive_eq w e).symm.trans ha) htable
      · rw [if_neg ha]
        refine .ignored (htable.trans (Ecs.World.destroyEntity_of_not_alive ?_))
        rw [← isAlive_eq]
        exact ha
  | add c e =>
      rcases Option.map_eq_some_iff.mp h with ⟨w₁, hadd, heq⟩
      rw [Prod.mk.injEq] at heq
      rcases heq with ⟨rfl, rfl⟩
      rcases hw.addComponent hadd with ⟨hw', ha, _, htable⟩
      exact ⟨hw', .added c e ((isAlive_eq w e).symm.trans ha) htable⟩
  | remove c e =>
      rcases Option.map_eq_some_iff.mp h with ⟨w₁, hremove, heq⟩
      rw [Prod.mk.injEq] at heq
      rcases heq with ⟨rfl, rfl⟩
      rcases hw.removeComponent hremove with ⟨hw', hhas, htable⟩
      rw [hw.hasComponent_eq] at hhas
      have ha := isAlive_of_getComponent hhas
      exact ⟨hw', .removed c e ((isAlive_eq w e).symm.trans ha) htable⟩
  | write c e v =>
      rcases Option.map_eq_some_iff.mp h with ⟨w₁, hwrite, heq⟩
      rw [Prod.mk.injEq] at heq
      rcases heq with ⟨rfl, rfl⟩
      rcases hw.writeComponent hwrite with ⟨hw', hget, htable⟩
      have ha := isAlive_of_getComponent hget
      exact ⟨hw', .wrote c e v ((isAlive_eq w e).symm.trans ha) htable⟩

/-- What an operation asserts, in a sound store: there is room for a new entity, and a
    component is added to an entity in use that has none of the type, and removed from and
    written to one that has it. -/
def Legal (w : World T) : Op T → Prop
  | .register c => w.storages c = none
  | .create => w.freeList = [] → w.records.length ≤ EntityHandle.maxIndex
  | .destroy _ => True
  | .add c e => w.isAlive e = true ∧ w.hasComponent c e = false ∧ (w.storages c).isSome = true
  | .remove c e | .write c e _ => w.hasComponent c e = true

theorem Sound.isSome_createEntity (hw : w.Sound) :
    w.createEntity.isSome = true ↔ (w.freeList = [] → w.records.length ≤ EntityHandle.maxIndex) := by
  unfold World.createEntity
  cases hf : w.freeList with
  | nil =>
      by_cases hle : w.records.length ≤ EntityHandle.maxIndex
      · have hmake := EntityHandle.isSome_make (Nat.lt_succ_of_le hle) (Nat.two_pow_pos 12)
        simp only [hle, if_true, Option.isSome_map, hmake, implies_true]
      · simp only [hle, if_false, Option.isSome_none, Bool.false_eq_true, forall_const]
  | cons idx rest =>
      rcases (hw.free idx).mp (hf ▸ List.mem_cons_self) with ⟨_, r, hr, _⟩
      have hlt := Nat.lt_of_lt_of_le (List.getElem?_eq_some_iff.mp hr).1 hw.size.2
      have hmake := EntityHandle.isSome_make hlt (hw.generation idx r hr)
      simp only [hr, Option.isSome_map, hmake, reduceCtorEq, false_implies]

/-- What is present has a place in its storage. -/
theorem Sound.place_of_hasComponent {w : World T} (hw : w.Sound)
    (h : w.hasComponent c e = true) : w.isAlive e = true ∧
      ∃ s di x, w.storages c = some s ∧ s.place e.index = some di ∧ s.get e.index = some x := by
  rw [hw.hasComponent_eq] at h
  have ha := isAlive_of_getComponent h
  unfold getComponent component at h
  rw [if_pos ha] at h
  cases hs : w.storages c with
  | none => exact absurd (hs ▸ h) nofun
  | some s =>
      rw [hs, Option.bind_some] at h
      have hplace := (hw.storage c s hs).isSome_get e.index ▸ h
      rcases Option.isSome_iff_exists.mp h with ⟨x, hx⟩
      rcases Option.isSome_iff_exists.mp hplace with ⟨di, hdi⟩
      exact ⟨ha, s, di, x, rfl, hdi, hx⟩

theorem Sound.isSome_addComponent [∀ c, Inhabited (T c)] (hw : w.Sound) :
    (w.addComponent c e).isSome = true ↔
      w.isAlive e = true ∧ w.hasComponent c e = false ∧ (w.storages c).isSome = true := by
  unfold World.addComponent
  by_cases ha : w.isAlive e = true ∧ ¬ w.hasComponent c e
  · have hnot := (Bool.not_eq_true _).mp ha.2
    rw [if_pos ha]
    cases hs : w.storages c with
    | none => exact iff_of_false nofun fun h => absurd h.2.2 nofun
    | some s =>
        refine iff_of_true ?_ ⟨ha.1, hnot, rfl⟩
        -- The slot has no component of the type, so it has no place in the storage.
        rw [hw.hasComponent_eq] at hnot
        unfold getComponent component at hnot
        rw [if_pos ha.1, hs, Option.bind_some, (hw.storage c s hs).isSome_get,
          Option.isSome_eq_false_iff, Option.isNone_iff_eq_none] at hnot
        simp only [Option.isSome_map, SparseSet.insert, SparseSet.place_ensureSparse, hnot,
          if_true, Option.isSome_some]
  · rw [if_neg ha]
    exact iff_of_false nofun fun h => ha ⟨h.1, (Bool.not_eq_true _).mpr h.2.1⟩

theorem Sound.isSome_removeComponent (hw : w.Sound) :
    (w.removeComponent c e).isSome = true ↔ w.hasComponent c e = true := by
  unfold World.removeComponent
  by_cases h : w.hasComponent c e = true
  · rcases hw.place_of_hasComponent h with ⟨_, s, di, x, hs, hplace, _⟩
    have hremove := (hw.storage c s hs).isSome_remove hplace
    simp only [h, if_true, hs, Option.isSome_map, hremove]
  · rw [if_neg h]
    exact iff_of_false nofun h

theorem Sound.isSome_writeComponent (hw : w.Sound) (v : T c) :
    (w.writeComponent c e v).isSome = true ↔ w.hasComponent c e = true := by
  refine ⟨fun h => ?_, fun h => ?_⟩
  · rcases Option.isSome_iff_exists.mp h with ⟨w₁, hwrite⟩
    rw [hw.hasComponent_eq]
    exact (hw.writeComponent hwrite).2.1
  · rcases hw.place_of_hasComponent h with ⟨ha, s, di, x, hs, _, hget⟩
    unfold World.writeComponent getComponent component
    simp only [ha, if_true, hs, Option.bind_some, hget, Option.isSome_some]

/-- No assertion fails in a legal operation on a sound store, and one does in any other. -/
theorem Sound.isSome_exec [∀ c, Inhabited (T c)] (hw : w.Sound) (o : Op T) :
    (w.exec o).isSome = true ↔ w.Legal o := by
  cases o with
  | register c =>
      show ((w.registerComponent c).map _).isSome = true ↔ w.storages c = none
      unfold World.registerComponent
      cases w.storages c with
      | none => exact iff_of_true rfl rfl
      | some s => exact iff_of_false Bool.false_ne_true nofun
  | create => exact (Bool.eq_iff_iff.mp Option.isSome_map).trans hw.isSome_createEntity
  | destroy e =>
      refine iff_of_true (Option.isSome_map.trans ?_) trivial
      by_cases ha : w.isAlive e = true
      · rcases hw.destroyEntity_eq ha with ⟨w₁, hw₁, _⟩
        rw [hw₁, Option.isSome_some]
      · unfold World.destroyEntity
        rw [if_neg ha, Option.isSome_some]
  | add c e => exact (Bool.eq_iff_iff.mp Option.isSome_map).trans hw.isSome_addComponent
  | remove c e => exact (Bool.eq_iff_iff.mp Option.isSome_map).trans hw.isSome_removeComponent
  | write c e v => exact (Bool.eq_iff_iff.mp Option.isSome_map).trans (hw.isSome_writeComponent v)

end World

end EcsStorage

end EarthRise
