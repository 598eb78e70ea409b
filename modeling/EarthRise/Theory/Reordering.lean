import EarthRise.Theory.Reconstruction
import EarthRise.Lib.Occurrences
import Mathlib.Data.Finset.Max

/-!
# Snapshots out of Order

When the order in which a client hears its snapshots does not matter.

The decoder drops a record of an entity that has had a newer one, whole, and a
record carries only some of the entity's fields. What an older record alone
carries is lost if it comes late and kept if it comes in time. The newest record of
an entity therefore has to supersede each older one: carry its fields itself, unless
the older record carried only what an unknown entity has anyway
(`orderFree_iff`). A sector counts only together with a position, and a position
without a sector is put into the sector the client holds.

## Main definitions

* `Delivers`, `OrderFree`: Any order and repetition of a set of bodies, and a set
  for which they all end alike.
* `Superseded`: What the newest record has to carry of an older one.

## Theorems

* `overwrite_superseded`: Two records end like the newer one alone if and only if
  it supersedes the other.
* `orderFree_iff`: When a set of bodies may come in any order.
* `reordered_hull_lost`: A set that may not.
-/

namespace EarthRise

namespace Sim

open Universe Serde DeltaDecodeState

/-! ## Superseded records -/

/-- The newer record `r'` leaves nothing of `r`: it carries its fields, or `r` carries
    what an entity has before any field of it is known. -/
structure Superseded (r r' : DeltaRecord) : Prop where
  pos : r.mask.pos = true → (r'.mask.pos = true ∧ r'.mask.sector = true) ∨
    ((r.mask.sector = true → r.sector = ⟨0, 0, 0⟩) ∧
      (r'.mask.pos = true ∨ r.qpos = ⟨0, 0, 0⟩))
  hp : r.mask.hp = true → r'.mask.hp = true ∨ r.hp = SnapshotEntity.initial.hp
  shape : r.mask.shape = true → r'.mask.shape = true ∨ r.shapeId = SnapshotEntity.initial.shapeId
  owner : r.mask.owner = true →
    r'.mask.owner = true ∨ r.ownerPlayer = SnapshotEntity.initial.ownerPlayer
  kind : r.mask.kind = true → r'.mask.kind = true ∨ r.kind = SnapshotEntity.initial.kind

/-- Whatever differs in an entity from an unknown one, the record `r'` overwrites. -/
structure Neutral (r' : DeltaRecord) (e : SnapshotEntity) : Prop where
  pos : (r'.mask.pos = true ∧ r'.mask.sector = true) ∨
    (universeToSector e.pos = ⟨0, 0, 0⟩ ∧
      (r'.mask.pos = true ∨ (e.pos = SnapshotEntity.initial.pos ∧
        e.localOffset = SnapshotEntity.initial.localOffset)))
  hp : r'.mask.hp = true ∨ e.hp = SnapshotEntity.initial.hp
  shape : r'.mask.shape = true ∨ e.shapeId = SnapshotEntity.initial.shapeId
  owner : r'.mask.owner = true ∨ e.ownerPlayer = SnapshotEntity.initial.ownerPlayer
  kind : r'.mask.kind = true ∨ e.kind = SnapshotEntity.initial.kind

theorem neutral_initial (r' : DeltaRecord) : Neutral r' SnapshotEntity.initial :=
  ⟨Or.inr ⟨by decide, Or.inr ⟨rfl, rfl⟩⟩, Or.inr rfl, Or.inr rfl, Or.inr rfl, Or.inr rfl⟩

/-- The sector that a record's position is put into. -/
def sectorUnder (e : SnapshotEntity) (r : DeltaRecord) : SectorId :=
  if r.mask.sector then r.sector else universeToSector e.pos

/-- The position a record brings lies in its sector, on its steps. -/
theorem overwrite_pos (e : SnapshotEntity) (r : DeltaRecord) (hpos : r.mask.pos = true)
    (hq : r.qpos.All (· < quantSteps)) :
    universeToSector (overwrite e r).pos = sectorUnder e r ∧
      (overwrite e r).fields.qpos = r.qpos := by
  have h := fields_of_reconstructed (sectorUnder e r) r.qpos hq
  simp only at h
  unfold SnapshotEntity.fields overwrite
  simp only [hpos, if_true]
  exact h

theorem overwrite_keeps_pos (e : SnapshotEntity) (r : DeltaRecord) (hpos : r.mask.pos = false) :
    (overwrite e r).pos = e.pos ∧ (overwrite e r).localOffset = e.localOffset := by
  unfold overwrite
  simp only [hpos, Bool.false_eq_true, if_false, and_self]

/-- A field that is overwritten or is at its default is the same either way. -/
theorem field_neutral {α : Type} (c : Bool) (new old dflt : α) (h : c = true ∨ old = dflt) :
    (if c = true then new else old) = if c = true then new else dflt := by
  rcases h with h | h
  · rw [if_pos h, if_pos h]
  · rw [h]

theorem overwrite_neutral (r' : DeltaRecord) (e : SnapshotEntity) (h : Neutral r' e) :
    overwrite e r' = overwrite SnapshotEntity.initial r' := by
  have hzero : universeToSector SnapshotEntity.initial.pos = ⟨0, 0, 0⟩ := by decide
  unfold overwrite
  rw [SnapshotEntity.mk.injEq]
  refine ⟨rfl, field_neutral _ _ _ _ h.kind, ?_, ?_, field_neutral _ _ _ _ h.hp,
    field_neutral _ _ _ _ h.shape, field_neutral _ _ _ _ h.owner⟩
  · rcases h.pos with ⟨hp, hs⟩ | ⟨hsec, hp⟩
    · simp only [hp, hs, if_true]
    · rw [hsec, hzero]
      exact field_neutral _ _ _ _ (hp.imp id And.left)
  · exact field_neutral _ _ _ _ (h.pos.elim (fun h => Or.inl h.1) fun h => h.2.imp id And.right)

/-- The steps of a sector's corner. -/
theorem pos_zero (e : SnapshotEntity) (r : DeltaRecord) (hpos : r.mask.pos = true)
    (hsec : sectorUnder e r = ⟨0, 0, 0⟩) (hq : r.qpos = ⟨0, 0, 0⟩) :
    (overwrite e r).pos = SnapshotEntity.initial.pos ∧
      (overwrite e r).localOffset = SnapshotEntity.initial.localOffset := by
  have hcorner : (⟨0, 0, 0⟩ : Vec3 Nat).map dequantizeSectorLocal = ⟨0, 0, 0⟩ := by decide +kernel
  unfold sectorUnder at hsec
  unfold overwrite
  simp only [hpos, if_true, hq, hcorner, hsec]
  exact ⟨by decide +kernel, by decide +kernel⟩

/-- A superseded record leaves an entity neutral. -/
theorem neutral_overwrite (r r' : DeltaRecord) (e : SnapshotEntity) (h : Superseded r r')
    (hq : r.qpos.All (· < quantSteps)) (he : Neutral r' e) : Neutral r' (overwrite e r) := by
  have hfield : ∀ {α : Type} (c c' : Bool) (new old dflt : α),
      (c = true → c' = true ∨ new = dflt) → (c' = true ∨ old = dflt) →
      c' = true ∨ (if c = true then new else old) = dflt := by
    intro α c c' new old dflt hnew hold
    cases c with
    | true => exact hnew rfl
    | false => exact hold
  refine ⟨?_, hfield _ _ _ _ _ h.hp he.hp, hfield _ _ _ _ _ h.shape he.shape,
    hfield _ _ _ _ _ h.owner he.owner, hfield _ _ _ _ _ h.kind he.kind⟩
  cases hpos : r.mask.pos with
  | false =>
      rcases overwrite_keeps_pos e r hpos with ⟨hp, ho⟩
      rw [hp, ho]
      exact he.pos
  | true =>
      rcases h.pos hpos with hboth | ⟨hsector, hsteps⟩
      · exact Or.inl hboth
      · rcases he.pos with hboth | ⟨hzero, _⟩
        · exact Or.inl hboth
        · have hunder : sectorUnder e r = ⟨0, 0, 0⟩ := by
            unfold sectorUnder
            by_cases hs : r.mask.sector = true
            · rw [if_pos hs]
              exact hsector hs
            · rw [if_neg hs]
              exact hzero
          refine Or.inr ⟨(overwrite_pos e r hpos hq).1.trans hunder, ?_⟩
          exact hsteps.imp id (pos_zero e r hpos hunder)

/-- Two records end like the newer one alone exactly if it supersedes the other. -/
theorem overwrite_superseded (r r' : DeltaRecord) (hq : r.qpos.All (· < quantSteps)) :
    overwrite (overwrite SnapshotEntity.initial r) r' = overwrite SnapshotEntity.initial r' ↔
      Superseded r r' := by
  constructor
  · intro heq
    have hfield : ∀ {α : Type} (c c' : Bool) (new dflt x : α), c = true →
        (if c' = true then x else if c = true then new else dflt) =
          (if c' = true then x else dflt) → c' = true ∨ new = dflt := by
      intro α c c' new dflt x hc h
      cases c' with
      | true => exact Or.inl rfl
      | false =>
          rw [hc] at h
          exact Or.inr h
    refine ⟨fun hpos => ?_, fun hc => hfield _ _ _ _ _ hc (congrArg SnapshotEntity.hp heq),
      fun hc => hfield _ _ _ _ _ hc (congrArg SnapshotEntity.shapeId heq),
      fun hc => hfield _ _ _ _ _ hc (congrArg SnapshotEntity.ownerPlayer heq),
      fun hc => hfield _ _ _ _ _ hc (congrArg SnapshotEntity.kind heq)⟩
    have hfirst := overwrite_pos SnapshotEntity.initial r hpos hq
    have hgiven : r.mask.sector = true →
        sectorUnder SnapshotEntity.initial r = r.sector := fun hs => if_pos hs
    have hpe := congrArg SnapshotEntity.pos heq
    have hoe := congrArg SnapshotEntity.localOffset heq
    cases hpos' : r'.mask.pos with
    | true =>
        cases hsec' : r'.mask.sector with
        | true => exact Or.inl ⟨rfl, rfl⟩
        | false =>
            -- The newer position lands in the older one's sector, and has to be in the first.
            refine Or.inr ⟨fun hs => ?_, Or.inl rfl⟩
            rw [← hgiven hs, ← hfirst.1]
            have hzero : universeToSector SnapshotEntity.initial.pos = ⟨0, 0, 0⟩ := by decide
            generalize overwrite SnapshotEntity.initial r = e at hpe ⊢
            simp only [overwrite, hpos', hsec', if_true, Bool.false_eq_true, if_false, hzero,
              Vec3.mk.injEq, add_left_inj] at hpe
            generalize universeToSector e.pos = s at hpe ⊢
            rcases s with ⟨x, y, z⟩
            simp only [sectorToOrigin, Vec3.map, sectorSize] at hpe
            rw [Vec3.mk.injEq]
            omega
    | false =>
        rcases overwrite_keeps_pos (overwrite SnapshotEntity.initial r) r' hpos' with ⟨h1, h2⟩
        rcases overwrite_keeps_pos SnapshotEntity.initial r' hpos' with ⟨h3, h4⟩
        rw [h1, h3] at hpe
        rw [h2, h4] at hoe
        refine Or.inr ⟨fun hs => ?_, Or.inr ?_⟩
        · rw [← hgiven hs, ← hfirst.1, hpe]
          decide
        · rw [← hfirst.2]
          unfold SnapshotEntity.fields
          simp only [hpe, hoe]
          decide +kernel
  · intro h
    exact overwrite_neutral r' _ (neutral_overwrite r r' _ h hq (neutral_initial r'))

/-! ## Any order of a set of bodies -/

/-- The record of an entity that a body brings: the first one of its net id, as it
    arrives. -/
def recordOf (n : NetId) (snap : DeltaSnapshot) : Option DeltaRecord :=
  snap.wire.records.find? fun r => r.netId = n

/-- A delivery of a set of bodies: each of them at least once, in any order. -/
def Delivers (stream order : List DeltaSnapshot) : Prop := ∀ s, s ∈ order ↔ s ∈ stream

/-- All deliveries of a set of bodies end in the same entities and the same tick. -/
def OrderFree (stream : List DeltaSnapshot) : Prop :=
  ∀ o o', Delivers stream o → Delivers stream o' →
    (∀ n, (received o).entities.find? n = (received o').entities.find? n) ∧
      (received o).latestTick = (received o').latestTick

/-- What a record makes of an entity's copy. -/
def actOn (v : Option SnapshotEntity) (r : DeltaRecord) : Option SnapshotEntity :=
  if r.mask.tomb then none else some (overwrite (v.getD SnapshotEntity.initial) r)

/-- The updates of one entity in a delivery. -/
def updates (n : NetId) (order : List DeltaSnapshot) : List (Nat × DeltaRecord) :=
  order.filterMap fun s => (recordOf n s).map fun r => (s.wire.tick, r)

theorem updates_cons (n : NetId) (s : DeltaSnapshot) (order : List DeltaSnapshot) :
    updates n (s :: order) =
      (recordOf n s).elim (updates n order) fun r => (s.wire.tick, r) :: updates n order := by
  unfold updates
  rw [List.filterMap_cons]
  cases recordOf n s <;> rfl

theorem recordOf_qpos {n : NetId} {snap : DeltaSnapshot} {r : DeltaRecord}
    (h : recordOf n snap = some r) : r.qpos.All (· < quantSteps) := by
  have hmem := List.mem_of_find?_eq_some h
  unfold DeltaSnapshot.wire at hmem
  rcases List.mem_map.mp hmem with ⟨r', _, rfl⟩
  exact wire_qpos_lt r'

/-- An entity's slot is a last-writer-wins value over its updates. -/
theorem slot_foldl (n : NetId) (order : List DeltaSnapshot) (st : DeltaDecodeState) :
    (order.foldl (fun st snap => (st.apply (encodeDeltaSnapshot snap)).getD st) st).slot n =
      (updates n order).foldl (LastWriter.put actOn) (st.slot n) := by
  induction order generalizing st with
  | nil => rfl
  | cons s order ih =>
      have hfind : (s.wire.records.find? fun r => r.netId = n) = recordOf n s := rfl
      rw [List.foldl_cons, ih, apply_encode, Option.getD_some, slot_applySnapshot, hfind,
        updates_cons]
      cases recordOf n s with
      | none => rfl
      | some r => rfl

theorem slot_received (n : NetId) (order : List DeltaSnapshot) :
    (received order).slot n = (updates n order).foldl (LastWriter.put actOn) (none, none) :=
  slot_foldl n order fresh

theorem find_received (n : NetId) (order : List DeltaSnapshot) :
    (received order).entities.find? n =
      ((updates n order).foldl (LastWriter.put actOn) (none, none)).1 :=
  congrArg Prod.fst (slot_received n order)

theorem latestTick_foldl (order : List DeltaSnapshot) (st : DeltaDecodeState) (b : Nat) :
    (order.foldl (fun st snap => (st.apply (encodeDeltaSnapshot snap)).getD st)
      st).latestTick ≤ b ↔ st.latestTick ≤ b ∧ ∀ s ∈ order, s.wire.tick ≤ b := by
  have hrecords : ∀ (tick : Nat) (rs : List DeltaRecord) (st : DeltaDecodeState),
      (rs.foldl (applyRecord tick) st).latestTick = st.latestTick := by
    intro tick rs
    induction rs with
    | nil => exact fun _ => rfl
    | cons r rs ih =>
        intro st
        rw [List.foldl_cons, ih]
        unfold applyRecord
        split <;> rfl
  induction order generalizing st with
  | nil => exact ⟨fun h => ⟨h, fun s hs => absurd hs List.not_mem_nil⟩, fun h => h.1⟩
  | cons s order ih =>
      refine (ih _).trans ?_
      simp only [apply_encode, Option.getD_some, List.forall_mem_cons, ← and_assoc]
      unfold applySnapshot
      rw [hrecords]
      simp only [Nat.max_le]

/-- The tick a delivery ends with is that of its newest body. -/
theorem latestTick_received (stream o o' : List DeltaSnapshot) (ho : Delivers stream o)
    (ho' : Delivers stream o') : (received o).latestTick = (received o').latestTick := by
  refine le_antisymm ?_ ?_
  · refine (latestTick_foldl o fresh _).mpr ⟨Nat.zero_le _, fun s hs => ?_⟩
    exact ((latestTick_foldl o' fresh _).mp (Nat.le_refl _)).2 s ((ho' s).mpr ((ho s).mp hs))
  · refine (latestTick_foldl o' fresh _).mpr ⟨Nat.zero_le _, fun s hs => ?_⟩
    exact ((latestTick_foldl o fresh _).mp (Nat.le_refl _)).2 s ((ho s).mpr ((ho' s).mp hs))

theorem mem_updates {n : NetId} {order : List DeltaSnapshot} {u : Nat × DeltaRecord} :
    u ∈ updates n order ↔ ∃ s ∈ order, recordOf n s = some u.2 ∧ s.wire.tick = u.1 := by
  unfold updates
  rw [List.mem_filterMap]
  constructor
  · rintro ⟨s, hs, h⟩
    rcases Option.map_eq_some_iff.mp h with ⟨r, hr, rfl⟩
    exact ⟨s, hs, hr, rfl⟩
  · rintro ⟨s, hs, hr, ht⟩
    refine ⟨s, hs, ?_⟩
    rw [hr, Option.map_some, ht]

section Stream

variable {stream : List DeltaSnapshot}

/-- The newest record of an entity in a set of bodies. -/
def Newest (stream : List DeltaSnapshot) (n : NetId) (s : DeltaSnapshot) : Prop :=
  ∀ t ∈ stream, (recordOf n t).isSome → t.wire.tick ≤ s.wire.tick

theorem exists_newest (n : NetId) (h : ∃ s ∈ stream, (recordOf n s).isSome) :
    ∃ s ∈ stream, (recordOf n s).isSome ∧ Newest stream n s := by
  have hne : (stream.toFinset.filter fun s => (recordOf n s).isSome).Nonempty := by
    rcases h with ⟨s, hs, hr⟩
    exact ⟨s, Finset.mem_filter.mpr ⟨List.mem_toFinset.mpr hs, hr⟩⟩
  rcases Finset.exists_max_image _ (fun s => s.wire.tick) hne with ⟨s, hs, hmax⟩
  rcases Finset.mem_filter.mp hs with ⟨hmem, hr⟩
  refine ⟨s, List.mem_toFinset.mp hmem, hr, fun t ht hrt => ?_⟩
  exact hmax t (Finset.mem_filter.mpr ⟨List.mem_toFinset.mpr ht, hrt⟩)

/-- If the newest record of an entity supersedes the others, or is a tombstone, it
    alone decides. -/
theorem find_of_superseded (hdistinct : ∀ s ∈ stream, ∀ s' ∈ stream,
      s.wire.tick = s'.wire.tick → s = s') (n : NetId) (s' : DeltaSnapshot) (r' : DeltaRecord)
    (hs' : s' ∈ stream) (hr' : recordOf n s' = some r') (hnewest : Newest stream n s')
    (hsup : r'.mask.tomb = false → ∀ s ∈ stream, ∀ r, recordOf n s = some r →
      r.mask.tomb = false → Superseded r r')
    (o : List DeltaSnapshot) (ho : Delivers stream o) :
    (received o).entities.find? n = actOn none r' := by
  rw [find_received]
  refine LastWriter.run_newest actOn (updates n o) (s'.wire.tick, r')
    (fun v => r'.mask.tomb = false → Neutral r' (v.getD SnapshotEntity.initial)) _
    ?_ ?_ ?_ (none, none) ?_ ?_ ?_
  · intro u hu
    rcases mem_updates.mp hu with ⟨s, hs, hr, htick⟩
    have hle := hnewest s ((ho s).mp hs) (by rw [hr]; rfl)
    rcases Nat.lt_or_eq_of_le hle with hlt | heq
    · exact Or.inr (by rw [← htick]; exact hlt)
    · have hsame := hdistinct s ((ho s).mp hs) s' hs' heq
      rw [hsame, hr', Option.some.injEq] at hr
      rw [hsame] at htick
      exact Or.inl (Prod.ext htick.symm hr.symm)
  · intro u hu _ v hv htomb
    rcases mem_updates.mp hu with ⟨s, hs, hr, _⟩
    unfold actOn
    cases ht : u.2.mask.tomb with
    | true => exact neutral_initial r'
    | false =>
        exact neutral_overwrite u.2 r' _ (hsup htomb s ((ho s).mp hs) u.2 hr ht)
          (recordOf_qpos hr) (hv htomb)
  · intro v hv
    unfold actOn
    cases ht : r'.mask.tomb with
    | true => rfl
    | false =>
        simp only [Bool.false_eq_true, if_false, Option.some.injEq, Option.getD_none]
        exact overwrite_neutral r' _ (hv ht)
  · exact fun _ => neutral_initial r'
  · exact fun last hlast => absurd hlast nofun
  · exact mem_updates.mpr ⟨s', (ho s').mpr hs', hr', rfl⟩

/-- With the newest record first, nothing else is heard of the entity. -/
theorem find_newest_first (n : NetId) (s' : DeltaSnapshot) (r' : DeltaRecord)
    (hr' : recordOf n s' = some r') (hnewest : Newest stream n s') :
    (received (s' :: stream)).entities.find? n = actOn none r' := by
  rw [find_received]
  have hcons : updates n (s' :: stream) = (s'.wire.tick, r') :: updates n stream := by
    rw [updates_cons, hr', Option.elim_some]
  rw [hcons, List.foldl_cons, LastWriter.put_fresh actOn _ _ (by simp),
    LastWriter.run_settled actOn _ _ s'.wire.tick rfl]
  intro u hu
  rcases mem_updates.mp hu with ⟨t, ht, hr, htick⟩
  rw [← htick]
  exact hnewest t ht (by rw [hr]; rfl)

/-- With another record before it, both are. -/
theorem find_newest_second (n : NetId) (s s' : DeltaSnapshot) (r r' : DeltaRecord)
    (hr : recordOf n s = some r) (hr' : recordOf n s' = some r')
    (hlt : s.wire.tick < s'.wire.tick) (hnewest : Newest stream n s') :
    (received (s :: s' :: stream)).entities.find? n = actOn (actOn none r) r' := by
  rw [find_received]
  have hcons : updates n (s :: s' :: stream) =
      (s.wire.tick, r) :: (s'.wire.tick, r') :: updates n stream := by
    rw [updates_cons, hr, Option.elim_some, updates_cons, hr', Option.elim_some]
  have hsecond : LastWriter.put actOn (actOn none r, some s.wire.tick) (s'.wire.tick, r') =
      (actOn (actOn none r) r', some s'.wire.tick) := by
    refine LastWriter.put_fresh actOn _ _ fun last hlast => ?_
    simp only [Option.some.injEq] at hlast
    rw [← hlast]
    exact hlt
  have hfirst : LastWriter.put actOn (none, none) (s.wire.tick, r) =
      (actOn none r, some s.wire.tick) :=
    LastWriter.put_fresh actOn _ _ fun last hlast =>
      absurd hlast nofun
  rw [hcons, List.foldl_cons, List.foldl_cons, hfirst, hsecond, LastWriter.run_settled actOn _ _ s'.wire.tick rfl]
  intro u hu
  rcases mem_updates.mp hu with ⟨t, ht, hr, htick⟩
  rw [← htick]
  exact hnewest t ht (by rw [hr]; rfl)

end Stream

theorem wire_tick (s : DeltaSnapshot) (h : s.tick < 2 ^ 32) : s.wire.tick = s.tick :=
  Nat.mod_eq_of_lt h

theorem superseded_self (r : DeltaRecord) : Superseded r r := by
  refine ⟨fun hp => ?_, Or.inl, Or.inl, Or.inl, Or.inl⟩
  by_cases hs : r.mask.sector = true
  · exact Or.inl ⟨hp, hs⟩
  · exact Or.inr ⟨fun h => absurd h hs, Or.inl hp⟩

/-- Bodies of distinct ticks may come in any order, any number of times, exactly if
    each entity's newest record is a tombstone or supersedes every older one that is
    not. -/
theorem orderFree_iff (stream : List DeltaSnapshot) (htick : ∀ s ∈ stream, s.tick < 2 ^ 32)
    (hdistinct : ∀ s ∈ stream, ∀ s' ∈ stream, s.tick = s'.tick → s = s') :
    OrderFree stream ↔
      ∀ n, ∀ s' ∈ stream, ∀ r', recordOf n s' = some r' →
        (∀ t ∈ stream, (recordOf n t).isSome → t.tick ≤ s'.tick) → r'.mask.tomb = false →
        ∀ s ∈ stream, ∀ r, recordOf n s = some r → r.mask.tomb = false → Superseded r r' := by
  have hnewest : ∀ n, ∀ s' ∈ stream,
      (∀ t ∈ stream, (recordOf n t).isSome → t.tick ≤ s'.tick) ↔ Newest stream n s' := by
    intro n s' hs'
    refine forall₂_congr fun t ht => ?_
    rw [wire_tick t (htick t ht), wire_tick s' (htick s' hs')]
  have hdistinct' : ∀ s ∈ stream, ∀ s' ∈ stream, s.wire.tick = s'.wire.tick → s = s' := by
    intro s hs s' hs' h
    rw [wire_tick s (htick s hs), wire_tick s' (htick s' hs')] at h
    exact hdistinct s hs s' hs' h
  constructor
  · intro hfree n s' hs' r' hr' hmax htomb' s hs r hr htomb
    have hnew := (hnewest n s' hs').mp hmax
    rcases Nat.lt_or_eq_of_le (hnew s hs (by rw [hr]; rfl)) with hlt | heq
    · have ho : Delivers stream (s' :: stream) := by
        intro t
        rw [List.mem_cons]
        exact ⟨fun h => h.elim (fun h => h ▸ hs') id, Or.inr⟩
      have ho' : Delivers stream (s :: s' :: stream) := by
        intro t
        rw [List.mem_cons, ho t]
        exact ⟨fun h => h.elim (fun h => h ▸ hs) id, Or.inr⟩
      have hsame := (hfree _ _ ho' ho).1 n
      rw [find_newest_first n s' r' hr' hnew,
        find_newest_second n s s' r r' hr hr' hlt hnew] at hsame
      unfold actOn at hsame
      simp only [htomb, htomb', Bool.false_eq_true, if_false, Option.some.injEq,
        Option.getD_some, Option.getD_none] at hsame
      exact (overwrite_superseded r r' (recordOf_qpos hr)).mp hsame
    · have hss := hdistinct' s hs s' hs' heq
      rw [hss, hr', Option.some.injEq] at hr
      rw [← hr]
      exact superseded_self r'
  · intro hsup o o' ho ho'
    refine ⟨fun n => ?_, latestTick_received stream o o' ho ho'⟩
    by_cases hany : ∃ s ∈ stream, (recordOf n s).isSome
    · rcases exists_newest n hany with ⟨s', hs', hsome, hnew⟩
      rcases Option.isSome_iff_exists.mp hsome with ⟨r', hr'⟩
      have hsup' := fun ht => hsup n s' hs' r' hr' ((hnewest n s' hs').mpr hnew) ht
      rw [find_of_superseded hdistinct' n s' r' hs' hr' hnew hsup' o ho,
        find_of_superseded hdistinct' n s' r' hs' hr' hnew hsup' o' ho']
    · -- An entity that no body names is in no copy.
      have hempty : ∀ o, Delivers stream o → updates n o = [] := by
        intro o ho
        rw [List.eq_nil_iff_forall_not_mem]
        intro u hu
        rcases mem_updates.mp hu with ⟨s, hs, hr, _⟩
        exact hany ⟨s, (ho s).mp hs, by rw [hr]; rfl⟩
      rw [find_received, find_received, hempty o ho, hempty o' ho']

/-- A first sight at one tick and a change of the hull at the next. -/
def hullStream : List DeltaSnapshot :=
  [⟨1, [makeDeltaRecord ⟨7, EntityKind.ship, ⟨5, 0, 0⟩, ⟨0, 0, 0⟩, 100, 3, 9⟩ none]⟩,
    ⟨2, [makeDeltaRecord ⟨7, EntityKind.ship, ⟨5, 0, 0⟩, ⟨0, 0, 0⟩, 40, 3, 9⟩
      (some ⟨7, EntityKind.ship, ⟨5, 0, 0⟩, ⟨0, 0, 0⟩, 100, 3, 9⟩)]⟩]

/-- The change comes first: the first sight is dropped, and with it the rest. -/
theorem reordered_hull_lost :
    (∀ s ∈ hullStream, ∀ s' ∈ hullStream, s.tick = s'.tick → s = s') ∧
      ¬ OrderFree hullStream := by
  refine ⟨by decide +kernel, fun h => ?_⟩
  have hsame := (h hullStream hullStream.reverse (fun _ => Iff.rfl)
    fun _ => List.mem_reverse).1 7
  exact absurd hsame (by decide +kernel)

/-- Two ships seen whole, moved and hit, and the second gone at last. -/
def wholeStream : List DeltaSnapshot :=
  [⟨1, [makeDeltaRecord ⟨7, EntityKind.ship, ⟨5, 0, 0⟩, ⟨0, 0, 0⟩, 100, 3, 9⟩ none,
      makeDeltaRecord ⟨8, EntityKind.ship, ⟨60, 0, 0⟩, ⟨0, 0, 0⟩, 100, 3, 9⟩ none]⟩,
    ⟨2, [makeDeltaRecord ⟨8, EntityKind.ship, ⟨50, 0, 0⟩, ⟨0, 0, 0⟩, 20, 3, 9⟩ none,
      makeDeltaRecord ⟨7, EntityKind.ship, ⟨9, 0, 0⟩, ⟨0, 0, 0⟩, 40, 3, 9⟩ none]⟩,
    ⟨3, [makeDeltaRecord ⟨7, EntityKind.ship, ⟨12, 0, 0⟩, ⟨0, 0, 0⟩, 35, 3, 9⟩ none,
      tombstoneRecord 8]⟩]

/-- They may come in any order: each record but the tombstone carries every field. -/
theorem orderFree_whole : OrderFree wholeStream := by
  have hfull : ∀ s ∈ wholeStream, ∀ r ∈ s.wire.records, r.mask.tomb = false →
      r.mask = DeltaMask.full := by decide +kernel
  refine (orderFree_iff wholeStream (by decide) (by decide +kernel)).mpr ?_
  intro n s' hs' r' hr' _ htomb' s _ r _ _
  have hmask := hfull s' hs' r' (List.mem_of_find?_eq_some hr') htomb'
  constructor
  · exact fun _ => .inl (by rw [hmask]; exact ⟨rfl, rfl⟩)
  all_goals exact fun _ => .inl (by rw [hmask]; rfl)

end Sim

end EarthRise
