import EarthRise.Core.ServerUniverse
import EarthRise.Theory.Snapshot

/-!
# What a Step of the Server Keeps

Versions and ids over the life of a universe.

`ServerUniverse.Ok` holds between steps: every entity is stamped with the fields
it has, its version is at most the tick, and nothing but entities is stamped or
resident. `Later` compares two moments of one universe: an entity of the later
one that the earlier one could have known was there already, its version has not
gone back, and an unchanged version means unchanged fields. Both rest on the ids
never being reused, so they hold as long as the counters do not wrap.

## Main definitions

* `ServerUniverse.Ok`: What holds of a universe between steps.
* `ServerUniverse.NoWrap`: A step that wraps no counter.
* `ServerUniverse.Later`: One moment of a universe and a later one.

## Theorems

* `ok_step`: A step keeps `Ok`.
* `later_step`: A step leads to a later moment.
-/

namespace EarthRise

namespace Sim

open Universe

namespace InterestGrid

theorem mem_visibleTo (g : InterestGrid) (player n : NetId) :
    n ∈ g.visibleTo player ↔
      ∃ s, g.entitySector.find? n = some s ∧ s ∈ g.subscriptions player := by
  unfold visibleTo
  rw [OrdMap.mem_keys, OrdMap.find?_filter]
  constructor
  · intro h
    rw [Option.isSome_iff_exists] at h
    rcases h with ⟨s, hs⟩
    rw [Option.filter_eq_some_iff] at hs
    exact ⟨s, hs.1, of_decide_eq_true hs.2⟩
  · rintro ⟨s, hs, hsub⟩
    rw [Option.isSome_iff_exists]
    exact ⟨s, Option.filter_eq_some_iff.mpr ⟨hs, decide_eq_true hsub⟩⟩

theorem entitySector_setSubscription (g : InterestGrid) (l : List (NetId × List SectorId)) :
    (l.foldl (fun g e => g.setSubscription e.1 e.2) g).entitySector = g.entitySector := by
  induction l generalizing g with
  | nil => rfl
  | cons e l ih => rw [List.foldl_cons, ih]; rfl

/-- Residents are those there were and those that were homed. -/
theorem resident_homed (l : List (NetId × Entity)) (g : InterestGrid) (n : NetId)
    (h : ((l.foldl (fun g e => g.updateResidency e.1 (universeToSector e.2.repl.pos))
      g).entitySector.find? n).isSome = true) :
    (g.entitySector.find? n).isSome = true ∨ ∃ e, (n, e) ∈ l := by
  induction l generalizing g with
  | nil => exact Or.inl h
  | cons x l ih =>
      rcases ih _ h with h' | ⟨e, he⟩
      · unfold updateResidency at h'
        rw [OrdMap.find?_insert] at h'
        by_cases hn : n = x.1
        · exact Or.inr ⟨x.2, List.mem_cons.mpr (Or.inl (Prod.ext hn rfl))⟩
        · rw [if_neg hn] at h'
          exact Or.inl h'
      · exact Or.inr ⟨e, List.mem_cons_of_mem x he⟩

end InterestGrid

namespace ServerUniverse

def Alive (u : ServerUniverse) (n : NetId) : Prop := (u.entities.find? n).isSome = true

theorem alive_iff (u : ServerUniverse) (n : NetId) :
    u.Alive n ↔ ∃ e, u.entities.find? n = some e := Option.isSome_iff_exists

/-- An entity is stamped as it is, at a version that its ticks allow; and only
    entities are stamped or resident. -/
structure Ok (u : ServerUniverse) : Prop where
  stamped : ∀ n e, u.entities.find? n = some e → ∃ s, u.repl.find? n = some s ∧
    s.last = e.repl ∧ 1 ≤ s.version ∧ s.version ≤ u.tick
  stamps : ∀ n, (u.repl.find? n).isSome = true → u.Alive n
  resident : ∀ n, (u.interest.entitySector.find? n).isSome = true → u.Alive n
  ids : ∀ n, u.Alive n → n.val < u.nextNetId
  tick_lt : u.tick < unsent
  next_le : u.nextNetId < 2 ^ 32

theorem ok_fresh (tick : Fin 4294967295) : (fresh tick).Ok where
  stamped n e h := absurd h (by simp [fresh])
  stamps n h := absurd h (by simp [fresh])
  resident n h := absurd h (by simp [fresh, InterestGrid.fresh])
  ids n h := absurd h (by simp [fresh, Alive])
  tick_lt := tick.isLt
  next_le := by show 1 < 2 ^ 32; decide

def spawns (ops : List WorldOp) : Nat :=
  ops.countP fun op => match op with
    | .spawn _ => true
    | _ => false

/-- The step wraps neither the tick nor the ids. -/
def NoWrap (u : ServerUniverse) (ops : List WorldOp) : Prop :=
  u.tick + 1 < unsent ∧ u.nextNetId + spawns ops < 2 ^ 32

instance (u : ServerUniverse) (ops : List WorldOp) : Decidable (u.NoWrap ops) :=
  inferInstanceAs (Decidable (_ ∧ _))

/-! ## Within a step -/

/-- What the changes of a step have made of the universe `u`, before it is
    stamped again. -/
structure Mid (u w : ServerUniverse) : Prop where
  tick : w.tick = u.tick
  ids : ∀ n, w.Alive n → n.val < w.nextNetId
  next : u.nextNetId ≤ w.nextNetId
  repl : ∀ n s, w.repl.find? n = some s → u.repl.find? n = some s ∧ w.Alive n
  old : ∀ n, w.Alive n → n.val < u.nextNetId →
    u.Alive n ∧ w.repl.find? n = u.repl.find? n
  resident : ∀ n, (w.interest.entitySector.find? n).isSome = true → w.Alive n

theorem mid_refl (u : ServerUniverse) (h : u.Ok) : Mid u u where
  tick := rfl
  ids := h.ids
  next := Nat.le_refl _
  repl n s hs := ⟨hs, h.stamps n (by rw [hs]; rfl)⟩
  old n hn _ := ⟨hn, rfl⟩
  resident := h.resident

/-- A change that touches no id, stamp or residency. -/
theorem mid_same (u w w' : ServerUniverse) (h : Mid u w) (halive : ∀ n, w'.Alive n ↔ w.Alive n)
    (htick : w'.tick = w.tick) (hnext : w'.nextNetId = w.nextNetId) (hrepl : w'.repl = w.repl)
    (hsec : w'.interest.entitySector = w.interest.entitySector) : Mid u w' where
  tick := htick.trans h.tick
  ids n hn := hnext ▸ h.ids n ((halive n).mp hn)
  next := hnext ▸ h.next
  repl n s hs := by
    rw [hrepl] at hs
    exact ⟨(h.repl n s hs).1, (halive n).mpr (h.repl n s hs).2⟩
  old n hn hold := by
    rw [hrepl]
    exact h.old n ((halive n).mp hn) hold
  resident n hn := by
    rw [hsec] at hn
    exact (halive n).mpr (h.resident n hn)

theorem mid_spawn (u w : ServerUniverse) (e : Entity) (h : Mid u w)
    (hwrap : w.nextNetId + 1 < 2 ^ 32) : Mid u (w.applyOp (.spawn e)) := by
  have hid : (Fin.ofNat 4294967296 w.nextNetId).val = w.nextNetId :=
    Nat.mod_eq_of_lt (by omega)
  have hnext : (w.applyOp (.spawn e)).nextNetId = w.nextNetId + 1 := Nat.mod_eq_of_lt hwrap
  have halive : ∀ n, (w.applyOp (.spawn e)).Alive n →
      n = Fin.ofNat 4294967296 w.nextNetId ∨ w.Alive n := by
    intro n hn
    unfold Alive applyOp at hn
    simp only at hn
    rw [OrdMap.find?_insert] at hn
    by_cases hne : n = Fin.ofNat 4294967296 w.nextNetId
    · exact Or.inl hne
    · rw [if_neg hne] at hn
      exact Or.inr hn
  have hkeep : ∀ n, w.Alive n → (w.applyOp (.spawn e)).Alive n := by
    intro n hn
    unfold Alive applyOp
    simp only
    rw [OrdMap.find?_insert]
    by_cases hne : n = Fin.ofNat 4294967296 w.nextNetId
    · rw [if_pos hne]
      rfl
    · rw [if_neg hne]
      exact hn
  refine ⟨h.tick, ?_, by rw [hnext]; exact Nat.le_succ_of_le h.next, ?_, ?_, ?_⟩
  · intro n hn
    rw [hnext]
    rcases halive n hn with rfl | hn
    · omega
    · exact Nat.lt_succ_of_lt (h.ids n hn)
  · intro n s hs
    exact ⟨(h.repl n s hs).1, hkeep n (h.repl n s hs).2⟩
  · -- The new id was not given out before.
    intro n hn hold
    rcases halive n hn with rfl | hn
    · have := h.next
      omega
    · exact h.old n hn hold
  · intro n hn
    exact hkeep n (h.resident n hn)

theorem mid_destroyUnit (u w : ServerUniverse) (netId : NetId) (h : Mid u w) :
    Mid u (w.applyOp (.destroyUnit netId)) := by
  have halive : ∀ n, (w.applyOp (.destroyUnit netId)).Alive n ↔ n ≠ netId ∧ w.Alive n := by
    intro n
    unfold Alive applyOp
    simp only [OrdMap.find?_erase]
    by_cases hn : n = netId <;> simp [hn]
  refine ⟨h.tick, ?_, h.next, ?_, ?_, ?_⟩
  · intro n hn
    exact h.ids n ((halive n).mp hn).2
  · intro n s hs
    unfold applyOp at hs
    simp only [OrdMap.find?_erase] at hs
    by_cases hn : n = netId
    · rw [if_pos hn] at hs
      exact absurd hs nofun
    · rw [if_neg hn] at hs
      exact ⟨(h.repl n s hs).1, (halive n).mpr ⟨hn, (h.repl n s hs).2⟩⟩
  · intro n hn hold
    rcases (halive n).mp hn with ⟨hne, hn⟩
    unfold applyOp
    simp only [OrdMap.find?_erase, if_neg hne]
    exact h.old n hn hold
  · intro n hn
    unfold applyOp InterestGrid.remove at hn
    simp only [OrdMap.find?_erase] at hn
    by_cases hne : n = netId
    · rw [if_pos hne] at hn
      exact absurd hn (by simp)
    · rw [if_neg hne] at hn
      exact (halive n).mpr ⟨hne, h.resident n hn⟩

theorem mid_applyOp (u w : ServerUniverse) (op : WorldOp) (h : Mid u w)
    (hwrap : w.nextNetId + spawns [op] < 2 ^ 32) :
    Mid u (w.applyOp op) ∧ (w.applyOp op).nextNetId = w.nextNetId + spawns [op] := by
  cases op with
  | spawn e => exact ⟨mid_spawn u w e h hwrap, Nat.mod_eq_of_lt hwrap⟩
  | mutate netId e =>
      cases hf : w.entities.find? netId with
      | none =>
          have hsame : w.applyOp (.mutate netId e) = w := by simp only [applyOp, hf]
          rw [hsame]
          exact ⟨h, rfl⟩
      | some e' =>
          have hset : w.applyOp (.mutate netId e) =
              { w with entities := w.entities.insert netId e } := by simp only [applyOp, hf]
          rw [hset]
          refine ⟨mid_same u w _ h (fun n => ?_) rfl rfl rfl rfl, rfl⟩
          unfold Alive
          rw [OrdMap.find?_insert]
          by_cases hn : n = netId <;> simp [hn, hf]
  | destroyUnit netId => exact ⟨mid_destroyUnit u w netId h, rfl⟩
  | prefetchTravelInterest netId dest =>
      cases hf : w.entities.find? netId with
      | none =>
          have hsame : w.applyOp (.prefetchTravelInterest netId dest) = w := by
            simp only [applyOp, hf]
          rw [hsame]
          exact ⟨h, rfl⟩
      | some e =>
          by_cases ho : e.repl.ownerPlayer = 0
          · have hsame : w.applyOp (.prefetchTravelInterest netId dest) = w := by
              simp only [applyOp, hf, if_pos ho]
            rw [hsame]
            exact ⟨h, rfl⟩
          · have hset : w.applyOp (.prefetchTravelInterest netId dest) =
                { w with
                  interest :=
                    w.interest.preSubscribe e.repl.ownerPlayer (universeToSector dest)
                      (e.sensorRange.elim 1 sectorRadiusForRange) } := by
              simp only [applyOp, hf, if_neg ho]
            rw [hset]
            exact ⟨mid_same u w _ h (fun n => Iff.rfl) rfl rfl rfl rfl, rfl⟩

theorem mid_ops (u : ServerUniverse) (ops : List WorldOp) (w : ServerUniverse) (h : Mid u w)
    (hwrap : w.nextNetId + spawns ops < 2 ^ 32) :
    Mid u (ops.foldl applyOp w) ∧
      (ops.foldl applyOp w).nextNetId = w.nextNetId + spawns ops := by
  induction ops generalizing w with
  | nil => exact ⟨h, rfl⟩
  | cons op ops ih =>
      have hsplit : spawns (op :: ops) = spawns [op] + spawns ops := by
        unfold spawns
        rw [← List.countP_append, List.singleton_append]
      rw [hsplit] at hwrap ⊢
      rcases mid_applyOp u w op h (by omega) with ⟨hmid, hnext⟩
      rcases ih (w.applyOp op) hmid (by omega) with ⟨hmid', hnext'⟩
      rw [List.foldl_cons]
      exact ⟨hmid', by omega⟩

/-! ## A whole step -/

theorem entities_step (u : ServerUniverse) (ops : List WorldOp) :
    (u.step ops).entities = (ops.foldl applyOp u).entities := rfl

theorem nextNetId_step (u : ServerUniverse) (ops : List WorldOp) :
    (u.step ops).nextNetId = (ops.foldl applyOp u).nextNetId := rfl

theorem repl_step (u : ServerUniverse) (ops : List WorldOp) (n : NetId) :
    (u.step ops).repl.find? n = ((u.step ops).entities.find? n).elim
      ((ops.foldl applyOp u).repl.find? n) fun e =>
        some (ReplicationStamps.stampEntry ((ops.foldl applyOp u).repl.find? n) e.repl) :=
  OrdMap.find?_upsertAll_entries _ _ _ n

theorem tick_step (u : ServerUniverse) (ops : List WorldOp) (h : u.Ok) (hw : NoWrap u ops) :
    (u.step ops).tick = u.tick + 1 := by
  have hmid := (mid_ops u ops u (mid_refl u h) hw.2).1
  have htick : (u.step ops).tick = ((ops.foldl applyOp u).tick + 1) % 2 ^ 32 := rfl
  have hlt := hw.1
  unfold unsent at hlt
  rw [htick, hmid.tick, Nat.mod_eq_of_lt (by omega)]

/-- The version after a stamp, from the one before. -/
theorem stampEntry_some (s : StampEntry) (cur : ReplFields) :
    (ReplicationStamps.stampEntry (some s) cur).last = cur ∧
      ((s.last = cur ∧ (ReplicationStamps.stampEntry (some s) cur).version = s.version) ∨
        (ReplicationStamps.stampEntry (some s) cur).version = (s.version + 1) % 2 ^ 32) := by
  unfold ReplicationStamps.stampEntry
  by_cases h : s.last = cur
  · simp only [if_pos h]
    exact ⟨h, Or.inl ⟨h, trivial⟩⟩
  · simp only [if_neg h]
    exact ⟨trivial, Or.inr trivial⟩

/-- A step keeps what holds between steps. -/
theorem ok_step (u : ServerUniverse) (ops : List WorldOp) (h : u.Ok) (hw : NoWrap u ops) :
    (u.step ops).Ok := by
  rcases mid_ops u ops u (mid_refl u h) hw.2 with ⟨hmid, hnext⟩
  have htick := tick_step u ops h hw
  have hlt := hw.1
  refine ⟨?_, ?_, ?_, ?_, by omega, ?_⟩
  · intro n e he
    rw [repl_step, he]
    refine ⟨_, rfl, ?_⟩
    cases hold : (ops.foldl applyOp u).repl.find? n with
    | none => exact ⟨rfl, Nat.le_refl _, by rw [htick]; exact Nat.succ_le_succ (Nat.zero_le _)⟩
    | some s =>
        -- An old stamp was one of `u`, at a version its tick allowed.
        rcases hmid.repl n s hold with ⟨hs, _⟩
        rcases (u.alive_iff n).mp (h.stamps n (by rw [hs]; rfl)) with ⟨e', he'⟩
        rcases h.stamped n e' he' with ⟨s', hs', _, h1, hle⟩
        rw [hs, Option.some.injEq] at hs'
        rw [← hs'] at h1 hle
        unfold unsent at hlt
        rcases stampEntry_some s e.repl with ⟨hlast, ⟨_, hv⟩ | hv⟩
        · exact ⟨hlast, by omega, by omega⟩
        · rw [Nat.mod_eq_of_lt (by omega)] at hv
          exact ⟨hlast, by omega, by omega⟩
  · intro n hn
    unfold Alive
    cases he : (u.step ops).entities.find? n with
    | some e => rfl
    | none =>
        rw [repl_step, he] at hn
        rcases Option.isSome_iff_exists.mp hn with ⟨s, hs⟩
        have halive := (hmid.repl n s hs).2
        rw [Alive, ← entities_step, he] at halive
        exact absurd halive (by simp)
  · intro n hn
    have hsec : (u.step ops).interest.entitySector =
        ((ops.foldl applyOp u).entities.entries.foldl
          (fun g e => g.updateResidency e.1 (universeToSector e.2.repl.pos))
          (ops.foldl applyOp u).interest).entitySector :=
      InterestGrid.entitySector_setSubscription _ _
    rw [hsec] at hn
    rcases InterestGrid.resident_homed _ _ n hn with hn | ⟨e, he⟩
    · exact hmid.resident n hn
    · exact (alive_iff _ n).mpr ⟨e, (OrdMap.mem_entries _ n e).mp he⟩
  · intro n hn
    rw [nextNetId_step]
    exact hmid.ids n hn
  · rw [nextNetId_step, hnext]
    exact hw.2

/-! ## Moments of a universe -/

/-- `u'` is `u` or a later moment of the same universe. -/
structure Later (u u' : ServerUniverse) : Prop where
  tick : u.tick ≤ u'.tick
  same : u.tick = u'.tick → u = u'
  next : u.nextNetId ≤ u'.nextNetId
  alive : ∀ n, n.val < u.nextNetId → u'.Alive n → u.Alive n ∧
    u.replVersion n ≤ u'.replVersion n ∧
    (u.replVersion n = u'.replVersion n → u.snapshotEntityOf n = u'.snapshotEntityOf n)

theorem later_refl (u : ServerUniverse) : Later u u where
  tick := Nat.le_refl _
  same _ := rfl
  next := Nat.le_refl _
  alive _ _ hn := ⟨hn, Nat.le_refl _, fun _ => rfl⟩

theorem later_trans (u v w : ServerUniverse) (h1 : Later u v) (h2 : Later v w) : Later u w where
  tick := Nat.le_trans h1.tick h2.tick
  same heq := by
    have ht1 := h1.tick
    have ht2 := h2.tick
    exact (h1.same (by omega)).trans (h2.same (by omega))
  next := Nat.le_trans h1.next h2.next
  alive n hlt hn := by
    rcases h2.alive n (Nat.lt_of_lt_of_le hlt h1.next) hn with ⟨hv, hle2, hsame2⟩
    rcases h1.alive n hlt hv with ⟨hu, hle1, hsame1⟩
    refine ⟨hu, Nat.le_trans hle1 hle2, fun heq => ?_⟩
    exact (hsame1 (by omega)).trans (hsame2 (by omega))

/-- A step leads to a later moment. -/
theorem later_step (u : ServerUniverse) (ops : List WorldOp) (h : u.Ok) (hw : NoWrap u ops) :
    Later u (u.step ops) := by
  rcases mid_ops u ops u (mid_refl u h) hw.2 with ⟨hmid, _⟩
  have htick := tick_step u ops h hw
  refine ⟨by omega, fun heq => absurd heq (by omega), hmid.next, fun n hlt hn => ?_⟩
  rcases hmid.old n hn hlt with ⟨hu, hrepl⟩
  rcases (u.alive_iff n).mp hu with ⟨e, he⟩
  rcases h.stamped n e he with ⟨s, hs, hlast, _, hle⟩
  rcases (alive_iff _ n).mp hn with ⟨e', he'⟩
  have hv : u.replVersion n = s.version := by
    unfold replVersion ReplicationStamps.version
    rw [hs]
    rfl
  have hv' : (u.step ops).replVersion n =
      (ReplicationStamps.stampEntry (some s) e'.repl).version := by
    unfold replVersion ReplicationStamps.version
    rw [repl_step, he', hrepl, hs]
    rfl
  have hlt' := hw.1
  unfold unsent at hlt'
  rw [hv, hv']
  refine ⟨hu, ?_⟩
  rcases stampEntry_some s e'.repl with ⟨_, ⟨hfix, hver⟩ | hver⟩
  · refine ⟨by omega, fun _ => ?_⟩
    unfold snapshotEntityOf
    rw [he, he', Option.map_some, Option.map_some, ← hlast, hfix]
  · rw [Nat.mod_eq_of_lt (by omega)] at hver
    exact ⟨by omega, fun heq => absurd heq (by omega)⟩

/-! ## What is visible -/

theorem alive_of_visible (u : ServerUniverse) (h : u.Ok) (clientId n : NetId)
    (hn : n ∈ u.interest.visibleTo clientId) : u.Alive n := by
  rcases (InterestGrid.mem_visibleTo _ clientId n).mp hn with ⟨s, hs, _⟩
  exact h.resident n (by rw [hs]; rfl)

theorem snapshotEntityOf_of_alive (u : ServerUniverse) (n : NetId) (hn : u.Alive n) :
    ∃ cur, u.snapshotEntityOf n = some cur ∧ cur.netId = n := by
  rcases (u.alive_iff n).mp hn with ⟨e, he⟩
  exact ⟨makeSnapshotEntity n e.repl, by rw [snapshotEntityOf, he]; rfl, rfl⟩

theorem version_pos_of_alive (u : ServerUniverse) (h : u.Ok) (n : NetId) (hn : u.Alive n) :
    1 ≤ u.replVersion n := by
  rcases (u.alive_iff n).mp hn with ⟨e, he⟩
  rcases h.stamped n e he with ⟨s, hs, _, h1, _⟩
  unfold replVersion ReplicationStamps.version
  rw [hs]
  exact h1

end ServerUniverse

end Sim

end EarthRise
