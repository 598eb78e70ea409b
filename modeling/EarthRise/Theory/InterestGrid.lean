import EarthRise.Core.InterestGrid

/-!
# The Interest Grid Represents Two Relations

Where an entity is and where a player looks, each read from either side.

Every change of a cell goes through four operations, and each is described by
what the two lists of every cell are afterwards. A cell that lost its last
member is dropped, which no list can tell from an empty cell; that is why the
walk over a player's cells may prune them as it goes.

`Represents` is the correspondence of the cells with the tables by entity and by
player. A walk of `applyTarget` breaks it and restores it: on the way the
player's own cells are the ones of the walk, which `Tracks` says.

The two tables alone, the grid of `Core.Interest`, show every player the same
entities, after any calls.

## Main definitions

* `Cells.Tidy`: The lists of every cell are sorted and no cell is unused.
* `InterestGrid.Represents`: The cells agree with the tables by entity and by player.
* `InterestGrid.Tracks`: The same in the middle of a walk.
* `InterestGrid.Shows`: The grid of two tables has the same tables.

## Theorems

* `represents_apply`: Every call keeps the correspondence.
* `applyTarget_subscriptions`, `applyTarget_entered`, `applyTarget_left`: What a walk does.
* `residentCell_run`: Where the calls put an entity.
* `grid_represents`: The correspondence after every sequence of calls.
* `run_plain`: The two tables show the same.
-/

namespace EarthRise

namespace Interest

open Universe Sim

/-! ## Cells -/

namespace Cells

/-- The lists of every cell are sorted and no cell is unused. -/
structure Tidy (m : Cells) : Prop where
  residents : ∀ s, SortedList.Sorted (m.residents s)
  subscribers : ∀ s, SortedList.Sorted (m.subscribers s)
  used : ∀ s ∈ m, m.residents s ≠ [] ∨ m.subscribers s ≠ []

theorem tidy_empty : Tidy ∅ where
  residents := fun _ => List.Pairwise.nil
  subscribers := fun _ => List.Pairwise.nil
  used := fun _ hs => absurd hs Finmap.notMem_empty

variable {m : Cells}

/-- A cell that is kept has a member, and a cell with a member is kept. -/
theorem Tidy.mem_iff (hm : m.Tidy) (s : SectorId) :
    s ∈ m ↔ m.residents s ≠ [] ∨ m.subscribers s ≠ [] := by
  constructor
  · exact hm.used s
  · intro h
    by_contra hs
    have hnone : m.lookup s = none := Finmap.lookup_eq_none.mpr hs
    unfold Cells.residents Cells.subscribers at h
    rw [hnone] at h
    rcases h with h | h
    · exact h rfl
    · exact h rfl

theorem residents_insert (m : Cells) (s : SectorId) (c : Cell) (s' : SectorId) :
    Cells.residents (m.insert s c) s' = if s' = s then c.residents else m.residents s' := by
  unfold residents
  by_cases h : s' = s
  · rw [if_pos h, h, Finmap.lookup_insert, Option.getD_some]
  · rw [if_neg h, Finmap.lookup_insert_of_ne m h]

theorem subscribers_insert (m : Cells) (s : SectorId) (c : Cell) (s' : SectorId) :
    Cells.subscribers (m.insert s c) s' = if s' = s then c.subscribers else m.subscribers s' := by
  unfold subscribers
  by_cases h : s' = s
  · rw [if_pos h, h, Finmap.lookup_insert, Option.getD_some]
  · rw [if_neg h, Finmap.lookup_insert_of_ne m h]

/-- Dropping an empty cell changes no list. -/
theorem residents_pruneCell (m : Cells) (s : SectorId) (c : Cell) (s' : SectorId) :
    (m.pruneCell s c).residents s' = if s' = s then c.residents else m.residents s' := by
  unfold pruneCell
  by_cases hc : c.residents = [] ∧ c.subscribers = []
  · rw [if_pos hc]
    unfold residents
    by_cases h : s' = s
    · rw [if_pos h, h, Finmap.lookup_erase, hc.1]
      rfl
    · rw [if_neg h, Finmap.lookup_erase_ne h]
  · rw [if_neg hc, residents_insert]

theorem subscribers_pruneCell (m : Cells) (s : SectorId) (c : Cell) (s' : SectorId) :
    (m.pruneCell s c).subscribers s' = if s' = s then c.subscribers else m.subscribers s' := by
  unfold pruneCell
  by_cases hc : c.residents = [] ∧ c.subscribers = []
  · rw [if_pos hc]
    unfold subscribers
    by_cases h : s' = s
    · rw [if_pos h, h, Finmap.lookup_erase, hc.2]
      rfl
    · rw [if_neg h, Finmap.lookup_erase_ne h]
  · rw [if_neg hc, subscribers_insert]

theorem Tidy.insert (hm : m.Tidy) (s : SectorId) (c : Cell)
    (hr : SortedList.Sorted c.residents) (hs : SortedList.Sorted c.subscribers)
    (hused : c.residents ≠ [] ∨ c.subscribers ≠ []) : Tidy (m.insert s c) where
  residents := by
    intro s'
    rw [residents_insert]
    split
    · exact hr
    · exact hm.residents s'
  subscribers := by
    intro s'
    rw [subscribers_insert]
    split
    · exact hs
    · exact hm.subscribers s'
  used := by
    intro s' hs'
    rw [residents_insert, subscribers_insert]
    by_cases h : s' = s
    · rw [if_pos h, if_pos h]
      exact hused
    · rw [if_neg h, if_neg h]
      exact hm.used s' ((Finmap.mem_insert.mp hs').resolve_left h)

theorem Tidy.pruneCell (hm : m.Tidy) (s : SectorId) (c : Cell)
    (hr : SortedList.Sorted c.residents) (hs : SortedList.Sorted c.subscribers) :
    (m.pruneCell s c).Tidy := by
  by_cases hc : c.residents = [] ∧ c.subscribers = []
  · refine ⟨fun s' => ?_, fun s' => ?_, fun s' hs' => ?_⟩
    · rw [residents_pruneCell]
      split
      · exact hr
      · exact hm.residents s'
    · rw [subscribers_pruneCell]
      split
      · exact hs
      · exact hm.subscribers s'
    · have herase : m.pruneCell s c = m.erase s := if_pos hc
      rw [herase, Finmap.mem_erase] at hs'
      rw [residents_pruneCell, subscribers_pruneCell, if_neg hs'.1, if_neg hs'.1]
      exact hm.used s' hs'.2
  · have hinsert : m.pruneCell s c = m.insert s c := if_neg hc
    rw [hinsert]
    exact hm.insert s c hr hs (by rwa [not_and_or] at hc)

/-! ### The four operations -/

theorem residents_addResident (m : Cells) (s : SectorId) (e : NetId) (s' : SectorId) :
    (m.addResident s e).residents s' =
      if s' = s then SortedList.insert (m.residents s) e else m.residents s' :=
  residents_insert m s _ s'

theorem subscribers_addResident (m : Cells) (s : SectorId) (e : NetId) (s' : SectorId) :
    (m.addResident s e).subscribers s' = m.subscribers s' := by
  unfold addResident
  rw [subscribers_insert]
  split
  · rename_i h
    rw [h]
    rfl
  · rfl

theorem subscribers_addSubscriber (m : Cells) (s : SectorId) (p : NetId) (s' : SectorId) :
    (m.addSubscriber s p).subscribers s' =
      if s' = s then SortedList.insert (m.subscribers s) p else m.subscribers s' :=
  subscribers_insert m s _ s'

theorem residents_addSubscriber (m : Cells) (s : SectorId) (p : NetId) (s' : SectorId) :
    (m.addSubscriber s p).residents s' = m.residents s' := by
  unfold addSubscriber
  rw [residents_insert]
  split
  · rename_i h
    rw [h]
    rfl
  · rfl

theorem residents_removeResident (m : Cells) (s : SectorId) (e : NetId) (s' : SectorId) :
    (m.removeResident s e).residents s' =
      if s' = s then SortedList.erase (m.residents s) e else m.residents s' := by
  unfold removeResident
  cases hl : m.lookup s with
  | none =>
      have hnil : m.residents s = [] := by
        unfold residents
        rw [hl]
        rfl
      by_cases h : s' = s
      · rw [if_pos h, h, hnil]
        rfl
      · rw [if_neg h]
  | some c =>
      have hc : m.residents s = c.residents := by
        unfold residents
        rw [hl]
        rfl
      rw [hc]
      exact residents_pruneCell m s _ s'

theorem subscribers_removeResident (m : Cells) (s : SectorId) (e : NetId) (s' : SectorId) :
    (m.removeResident s e).subscribers s' = m.subscribers s' := by
  unfold removeResident
  cases hl : m.lookup s with
  | none => rfl
  | some c =>
      simp only []
      rw [subscribers_pruneCell]
      split
      · rename_i h
        unfold subscribers
        rw [h, hl]
        rfl
      · rfl

theorem subscribers_removeSubscriber (m : Cells) (s : SectorId) (p : NetId) (s' : SectorId) :
    (m.removeSubscriber s p).subscribers s' =
      if s' = s then SortedList.erase (m.subscribers s) p else m.subscribers s' := by
  unfold removeSubscriber
  cases hl : m.lookup s with
  | none =>
      have hnil : m.subscribers s = [] := by
        unfold subscribers
        rw [hl]
        rfl
      by_cases h : s' = s
      · rw [if_pos h, h, hnil]
        rfl
      · rw [if_neg h]
  | some c =>
      have hc : m.subscribers s = c.subscribers := by
        unfold subscribers
        rw [hl]
        rfl
      rw [hc]
      exact subscribers_pruneCell m s _ s'

theorem residents_removeSubscriber (m : Cells) (s : SectorId) (p : NetId) (s' : SectorId) :
    (m.removeSubscriber s p).residents s' = m.residents s' := by
  unfold removeSubscriber
  cases hl : m.lookup s with
  | none => rfl
  | some c =>
      simp only []
      rw [residents_pruneCell]
      split
      · rename_i h
        unfold residents
        rw [h, hl]
        rfl
      · rfl

theorem Tidy.addResident (hm : m.Tidy) (s : SectorId) (e : NetId) :
    (m.addResident s e).Tidy :=
  hm.insert s _ (SortedList.sorted_insert e (hm.residents s)) (hm.subscribers s)
    (Or.inl (SortedList.insert_ne_nil e (hm.residents s)))

theorem Tidy.addSubscriber (hm : m.Tidy) (s : SectorId) (p : NetId) :
    (m.addSubscriber s p).Tidy :=
  hm.insert s _ (hm.residents s) (SortedList.sorted_insert p (hm.subscribers s))
    (Or.inr (SortedList.insert_ne_nil p (hm.subscribers s)))

theorem Tidy.removeResident (hm : m.Tidy) (s : SectorId) (e : NetId) :
    (m.removeResident s e).Tidy := by
  have hr := hm.residents s
  have hs := hm.subscribers s
  unfold Cells.residents at hr
  unfold Cells.subscribers at hs
  unfold Cells.removeResident
  cases hl : m.lookup s with
  | none => exact hm
  | some c =>
      rw [hl] at hr hs
      exact hm.pruneCell s _ (SortedList.sorted_erase e hr) hs

theorem Tidy.removeSubscriber (hm : m.Tidy) (s : SectorId) (p : NetId) :
    (m.removeSubscriber s p).Tidy := by
  have hr := hm.residents s
  have hs := hm.subscribers s
  unfold Cells.residents at hr
  unfold Cells.subscribers at hs
  unfold Cells.removeSubscriber
  cases hl : m.lookup s with
  | none => exact hm
  | some c =>
      rw [hl] at hr hs
      exact hm.pruneCell s _ hr (SortedList.sorted_erase p hs)

theorem mem_addResident (hm : m.Tidy) (s : SectorId) (e e' : NetId) (s' : SectorId) :
    e' ∈ (m.addResident s e).residents s' ↔ (s' = s ∧ e' = e) ∨ e' ∈ m.residents s' := by
  rw [residents_addResident]
  by_cases h : s' = s
  · rw [if_pos h, SortedList.mem_insert (hm.residents s), h]
    simp only [true_and]
  · rw [if_neg h]
    simp only [h, false_and, false_or]

theorem mem_removeResident (hm : m.Tidy) (s : SectorId) (e e' : NetId)
    (s' : SectorId) :
    e' ∈ (m.removeResident s e).residents s' ↔ e' ∈ m.residents s' ∧ ¬ (s' = s ∧ e' = e) := by
  rw [residents_removeResident]
  by_cases h : s' = s
  · rw [if_pos h, SortedList.mem_erase (hm.residents s), h]
    simp only [true_and]
  · rw [if_neg h]
    simp only [h, false_and, not_false_eq_true, and_true]

theorem mem_addSubscriber (hm : m.Tidy) (s : SectorId) (p q : NetId)
    (s' : SectorId) :
    q ∈ (m.addSubscriber s p).subscribers s' ↔ (s' = s ∧ q = p) ∨ q ∈ m.subscribers s' := by
  rw [subscribers_addSubscriber]
  by_cases h : s' = s
  · rw [if_pos h, SortedList.mem_insert (hm.subscribers s), h]
    simp only [true_and]
  · rw [if_neg h]
    simp only [h, false_and, false_or]

theorem mem_removeSubscriber (hm : m.Tidy) (s : SectorId) (p q : NetId)
    (s' : SectorId) :
    q ∈ (m.removeSubscriber s p).subscribers s' ↔
      q ∈ m.subscribers s' ∧ ¬ (s' = s ∧ q = p) := by
  rw [subscribers_removeSubscriber]
  by_cases h : s' = s
  · rw [if_pos h, SortedList.mem_erase (hm.subscribers s), h]
    simp only [true_and]
  · rw [if_neg h]
    simp only [h, false_and, not_false_eq_true, and_true]

end Cells

/-- Every set can be walked. -/
noncomputable instance : Inhabited Walk :=
  ⟨⟨Finset.toList, Finset.nodup_toList, fun _ _ => Finset.mem_toList⟩⟩

/-! ## The correspondence -/

namespace InterestGrid

/-- The cells agree with the tables by entity and by player. -/
structure Represents (g : InterestGrid) : Prop where
  tidy : g.cells.Tidy
  residents : ∀ n s, n ∈ g.residents s ↔ g.residentCell n = some s
  subscribers : ∀ p s, p ∈ g.subscribers s ↔ s ∈ g.subscriptions p

theorem represents_fresh : fresh.Represents where
  tidy := Cells.tidy_empty
  residents := fun n s => by
    have hnone : fresh.residentCell n = none := rfl
    rw [hnone]
    exact ⟨fun h => absurd h List.not_mem_nil, fun h => absurd h
      nofun⟩
  subscribers := fun p s =>
    ⟨fun h => absurd h List.not_mem_nil, fun h => absurd h (Finset.notMem_empty s)⟩

/-! ### Residency -/

theorem residentCell_updateResidency (g : InterestGrid) (netId : NetId) (sector : SectorId)
    (n : NetId) : (g.updateResidency netId sector).1.residentCell n =
      if n = netId then some sector else g.residentCell n := by
  unfold updateResidency residentCell
  cases hl : g.entitySector.lookup netId with
  | none =>
      simp only []
      by_cases hn : n = netId
      · rw [if_pos hn, hn, Finmap.lookup_insert]
      · rw [if_neg hn, Finmap.lookup_insert_of_ne _ hn]
  | some s =>
      simp only []
      by_cases hs : s = sector
      · rw [if_pos hs]
        by_cases hn : n = netId
        · rw [if_pos hn, hn, hl, hs]
        · rw [if_neg hn]
      · rw [if_neg hs]
        by_cases hn : n = netId
        · rw [if_pos hn, hn, Finmap.lookup_insert]
        · rw [if_neg hn, Finmap.lookup_insert_of_ne _ hn]

theorem residentCell_remove (g : InterestGrid) (netId n : NetId) :
    (g.remove netId).residentCell n = if n = netId then none else g.residentCell n := by
  unfold remove residentCell
  cases hl : g.entitySector.lookup netId with
  | none =>
      by_cases hn : n = netId
      · rw [if_pos hn, hn]
        exact hl
      · rw [if_neg hn]
  | some s =>
      simp only []
      by_cases hn : n = netId
      · rw [if_pos hn, hn, Finmap.lookup_erase]
      · rw [if_neg hn, Finmap.lookup_erase_ne hn]

variable {g : InterestGrid}

theorem represents_updateResidency (hg : g.Represents) (netId : NetId)
    (sector : SectorId) : (g.updateResidency netId sector).1.Represents := by
  have hcell := residentCell_updateResidency g netId sector
  unfold updateResidency at hcell ⊢
  cases hl : g.entitySector.lookup netId with
  | none =>
      rw [hl] at hcell
      refine ⟨hg.tidy.addResident sector netId, fun n s => ?_, fun p s => ?_⟩
      · rw [hcell]
        refine (Cells.mem_addResident hg.tidy sector netId n s).trans ?_
        have hn := hg.residents n s
        unfold residents at hn
        rw [hn]
        by_cases h : n = netId
        · have hnone : g.residentCell n = none := by rw [h]; exact hl
          rw [if_pos h, hnone, Option.some.injEq]
          simp only [h, and_true, reduceCtorEq, or_false]
          exact eq_comm
        · rw [if_neg h]
          simp only [h, and_false, false_or]
      · unfold subscribers
        rw [Cells.subscribers_addResident]
        exact hg.subscribers p s
  | some old =>
      rw [hl] at hcell
      simp only [] at hcell ⊢
      by_cases hs : old = sector
      · rw [if_pos hs]
        exact hg
      · rw [if_neg hs] at hcell ⊢
        have htidy := hg.tidy.removeResident old netId
        refine ⟨htidy.addResident sector netId, fun n s => ?_, fun p s => ?_⟩
        · rw [hcell]
          refine (Cells.mem_addResident htidy sector netId n s).trans ?_
          have hn := hg.residents n s
          unfold residents at hn
          rw [Cells.mem_removeResident hg.tidy, hn]
          by_cases h : n = netId
          · have hold : g.residentCell n = some old := by rw [h]; exact hl
            rw [if_pos h, hold, Option.some.injEq, Option.some.injEq]
            constructor
            · rintro (hin | hin)
              · exact hin.1.symm
              · exact absurd ⟨hin.1.symm, h⟩ hin.2
            · exact fun heq => Or.inl ⟨heq.symm, h⟩
          · rw [if_neg h]
            simp only [h, and_false, not_false_eq_true, and_true, false_or]
        · unfold subscribers
          rw [Cells.subscribers_addResident, Cells.subscribers_removeResident]
          exact hg.subscribers p s

theorem represents_remove (hg : g.Represents) (netId : NetId) :
    (g.remove netId).Represents := by
  have hcell := residentCell_remove g netId
  unfold remove at hcell ⊢
  cases hl : g.entitySector.lookup netId with
  | none => exact hg
  | some old =>
      rw [hl] at hcell
      refine ⟨hg.tidy.removeResident old netId, fun n s => ?_, fun p s => ?_⟩
      · rw [hcell]
        refine (Cells.mem_removeResident hg.tidy old netId n s).trans ?_
        have hn := hg.residents n s
        unfold residents at hn
        rw [hn]
        by_cases h : n = netId
        · have hold : g.residentCell n = some old := by rw [h]; exact hl
          rw [if_pos h, hold, Option.some.injEq]
          constructor
          · exact fun hin => absurd ⟨hin.1.symm, h⟩ hin.2
          · exact fun hc => absurd hc nofun
        · rw [if_neg h]
          simp only [h, and_false, not_false_eq_true, and_true]
      · unfold subscribers
        rw [Cells.subscribers_removeResident]
        exact hg.subscribers p s

/-! ### Single subscriptions -/

/-- The subscriptions after one player's are replaced. -/
theorem subscriptions_insert (g : InterestGrid) (m : Cells) (player p : NetId)
    (subs : Finset SectorId) :
    subscriptions { g with cells := m, playerSubs := g.playerSubs.insert player subs } p =
      if p = player then subs else g.subscriptions p := by
  unfold subscriptions
  by_cases hp : p = player
  · rw [if_pos hp, hp, Finmap.lookup_insert, Option.getD_some]
  · rw [if_neg hp, Finmap.lookup_insert_of_ne _ hp]

theorem isSubscribed_eq (g : InterestGrid) (player : NetId) (s : SectorId) :
    g.isSubscribed player s = decide (s ∈ g.subscriptions player) := by
  unfold isSubscribed subscriptions
  cases g.playerSubs.lookup player with
  | none => exact (decide_eq_false (Finset.notMem_empty s)).symm
  | some subs => rfl

/-- The correspondence for one player's cells given and all others' as before. -/
structure Tracks (g : InterestGrid) (player : NetId) (m : Cells) (cur : Finset SectorId) :
    Prop where
  tidy : m.Tidy
  residents : ∀ s, m.residents s = g.residents s
  subscribers : ∀ p s, p ∈ m.subscribers s ↔ if p = player then s ∈ cur else s ∈ g.subscriptions p

theorem Represents.tracks (hg : g.Represents) (player : NetId) :
    g.Tracks player g.cells (g.subscriptions player) where
  tidy := hg.tidy
  residents := fun _ => rfl
  subscribers := fun p s => by
    refine (hg.subscribers p s).trans ?_
    split
    · rename_i h
      rw [h]
    · rfl

variable {player : NetId} {cur : Finset SectorId}

/-- Put back into the grid, the cells of a walk represent the walked set. -/
theorem Tracks.represents {m : Cells}
    (ht : g.Tracks player m cur) (hg : g.Represents) :
    Represents { g with cells := m, playerSubs := g.playerSubs.insert player cur } where
  tidy := ht.tidy
  residents := fun n s => by
    have hres : m.residents s = g.residents s := ht.residents s
    refine Iff.trans ?_ (hg.residents n s)
    rw [← hres]
    exact Iff.rfl
  subscribers := fun p s => by
    rw [subscriptions_insert]
    refine (ht.subscribers p s).trans ?_
    split
    · exact Iff.rfl
    · exact Iff.rfl

theorem Tracks.add {m : Cells}
    (ht : g.Tracks player m cur) (s : SectorId) :
    g.Tracks player (m.addSubscriber s player) (insert s cur) where
  tidy := ht.tidy.addSubscriber s player
  residents := fun s' => by rw [Cells.residents_addSubscriber, ht.residents]
  subscribers := fun p s' => by
    rw [Cells.mem_addSubscriber ht.tidy, ht.subscribers, Finset.mem_insert]
    by_cases hp : p = player
    · rw [if_pos hp, if_pos hp]
      simp only [hp, and_true]
    · rw [if_neg hp, if_neg hp]
      simp only [hp, and_false, false_or]

theorem Tracks.drop {m : Cells}
    (ht : g.Tracks player m cur) (s : SectorId) :
    g.Tracks player (m.removeSubscriber s player) (cur.erase s) where
  tidy := ht.tidy.removeSubscriber s player
  residents := fun s' => by rw [Cells.residents_removeSubscriber, ht.residents]
  subscribers := fun p s' => by
    rw [Cells.mem_removeSubscriber ht.tidy, ht.subscribers, Finset.mem_erase]
    by_cases hp : p = player
    · rw [if_pos hp, if_pos hp]
      simp only [hp, and_true]
      exact and_comm
    · rw [if_neg hp, if_neg hp]
      simp only [hp, and_false, not_false_eq_true, and_true]

theorem represents_subscribe (hg : g.Represents) (player : NetId)
    (s : SectorId) : (g.subscribe player s).1.Represents := by
  unfold subscribe
  split
  · exact (hg.tracks player).represents hg
  · exact ((hg.tracks player).add s).represents hg

theorem subscriptions_subscribe (g : InterestGrid) (player : NetId) (s : SectorId) (p : NetId) :
    (g.subscribe player s).1.subscriptions p =
      if p = player then insert s (g.subscriptions p) else g.subscriptions p := by
  unfold subscribe
  split
  · rename_i h
    rw [subscriptions_insert]
    by_cases hp : p = player
    · rw [if_pos hp, if_pos hp, hp, Finset.insert_eq_of_mem h]
    · rw [if_neg hp, if_neg hp]
  · rw [subscriptions_insert]
    by_cases hp : p = player
    · rw [if_pos hp, if_pos hp, hp]
    · rw [if_neg hp, if_neg hp]

theorem subscriptions_unsubscribe (g : InterestGrid) (player : NetId) (s : SectorId)
    (p : NetId) : (g.unsubscribe player s).1.subscriptions p =
      if p = player then (g.subscriptions p).erase s else g.subscriptions p := by
  by_cases hp : p = player
  · subst hp
    unfold unsubscribe subscriptions
    cases hl : g.playerSubs.lookup p with
    | none => simp only [hl, if_true, Option.getD_none, Finset.erase_empty]
    | some subs =>
        simp only [if_true, Option.getD_some]
        split
        · rw [Finmap.lookup_insert, Option.getD_some]
        next h => rw [hl, Option.getD_some, Finset.erase_eq_of_notMem h]
  · rw [if_neg hp]
    unfold unsubscribe subscriptions
    cases g.playerSubs.lookup player with
    | none => rfl
    | some subs =>
        simp only []
        split
        · rw [Finmap.lookup_insert_of_ne _ hp]
        · rfl

theorem represents_unsubscribe (hg : g.Represents) (player : NetId)
    (s : SectorId) : (g.unsubscribe player s).1.Represents := by
  unfold unsubscribe
  cases hl : g.playerSubs.lookup player with
  | none => exact hg
  | some subs =>
      have hsubs : g.subscriptions player = subs := by
        unfold subscriptions
        rw [hl, Option.getD_some]
      simp only []
      split
      · have ht := (hg.tracks player).drop s
        rw [hsubs] at ht
        exact ht.represents hg
      · exact hg

/-- The tables that hold cells for players are no part of the correspondence. -/
theorem Represents.withPins (hg : g.Represents)
    (pins : Finmap fun _ : NetId => Finset SectorId) :
    Represents { g with playerPin := pins } :=
  ⟨hg.tidy, hg.residents, hg.subscribers⟩

theorem represents_preSubscribe (hg : g.Represents) (player : NetId)
    (center : SectorId) (radiusCells : Int) :
    (g.preSubscribe player center radiusCells).Represents := by
  unfold preSubscribe
  induction collectNeighbourhood center radiusCells generalizing g with
  | nil => exact hg
  | cons s cells ih =>
      rw [List.foldl_cons]
      exact ih (represents_subscribe (hg.withPins _) player s)

/-! ### The walk of a subscription -/

theorem tracks_leave (target : Finset SectorId)
    (l : List SectorId) {t : TargetPass} (ht : g.Tracks player t.cells t.cur) :
    g.Tracks player (l.foldl (TargetPass.leave player target) t).cells
      (l.foldl (TargetPass.leave player target) t).cur := by
  induction l generalizing t with
  | nil => exact ht
  | cons s l ih =>
      rw [List.foldl_cons]
      refine ih ?_
      unfold TargetPass.leave
      split
      · exact ht
      · exact ht.drop s

theorem tracks_enter (l : List SectorId) {t : TargetPass}
    (ht : g.Tracks player t.cells t.cur) :
    g.Tracks player (l.foldl (TargetPass.enter player) t).cells
      (l.foldl (TargetPass.enter player) t).cur := by
  induction l generalizing t with
  | nil => exact ht
  | cons s l ih =>
      rw [List.foldl_cons]
      refine ih ?_
      unfold TargetPass.enter
      split
      · exact ht
      · exact ht.add s

/-- Leaving drops from the player's cells those walked that are not in the target. -/
theorem cur_leave (player : NetId) (target : Finset SectorId) (l : List SectorId)
    (t : TargetPass) (c : SectorId) :
    c ∈ (l.foldl (TargetPass.leave player target) t).cur ↔
      c ∈ t.cur ∧ ¬ (c ∈ l ∧ c ∉ target) := by
  induction l generalizing t with
  | nil => simp only [List.foldl_nil, List.not_mem_nil, false_and, not_false_eq_true, and_true]
  | cons s l ih =>
      rw [List.foldl_cons, ih, TargetPass.leave, List.mem_cons]
      by_cases hs : s ∈ target
      · rw [if_pos hs]
        by_cases hc : c = s
        · simp only [hc, hs, not_true_eq_false, and_false]
        · simp only [hc, false_or]
      · rw [if_neg hs, Finset.mem_erase]
        by_cases hc : c = s
        · simp only [hc, ne_eq, not_true_eq_false, false_and, hs, not_false_eq_true, true_or,
            and_true, and_false]
        · simp only [ne_eq, hc, not_false_eq_true, true_and, false_or]

/-- The cells left are those walked that are not in the target. -/
theorem delta_leave (player : NetId) (target : Finset SectorId) (l : List SectorId)
    (t : TargetPass) :
    (l.foldl (TargetPass.leave player target) t).delta =
      { entered := t.delta.entered, left := t.delta.left ++ l.filter fun s => s ∉ target } := by
  induction l generalizing t with
  | nil => simp only [List.foldl_nil, List.filter_nil, List.append_nil]
  | cons s l ih =>
      rw [List.foldl_cons, ih, TargetPass.leave]
      by_cases hs : s ∈ target
      · rw [if_pos hs, List.filter_cons_of_neg (by simpa using hs)]
      · rw [if_neg hs, List.filter_cons_of_pos (by simpa using hs), List.append_assoc]
        rfl

theorem cur_enter (player : NetId) (l : List SectorId) (t : TargetPass) (c : SectorId) :
    c ∈ (l.foldl (TargetPass.enter player) t).cur ↔ c ∈ t.cur ∨ c ∈ l := by
  induction l generalizing t with
  | nil => simp only [List.foldl_nil, List.not_mem_nil, or_false]
  | cons s l ih =>
      rw [List.foldl_cons, ih, TargetPass.enter, List.mem_cons]
      by_cases hs : s ∈ t.cur
      · rw [if_pos hs]
        by_cases hc : c = s
        · simp only [hc, hs, true_or]
        · simp only [hc, false_or]
      · rw [if_neg hs, Finset.mem_insert]
        tauto

/-- The cells entered are those walked that the player was not in. A cell stands
    once in a walk, so what was entered on the way makes no difference. -/
theorem delta_enter (player : NetId) (l : List SectorId) (hl : l.Nodup) (t : TargetPass) :
    (l.foldl (TargetPass.enter player) t).delta =
      { entered := t.delta.entered ++ l.filter fun s => s ∉ t.cur, left := t.delta.left } := by
  induction l generalizing t with
  | nil => simp only [List.foldl_nil, List.filter_nil, List.append_nil]
  | cons s l ih =>
      rw [List.nodup_cons] at hl
      rw [List.foldl_cons, ih hl.2, TargetPass.enter]
      by_cases hs : s ∈ t.cur
      · rw [if_pos hs, List.filter_cons_of_neg (by simpa using hs)]
      · rw [if_neg hs, List.filter_cons_of_pos (by simpa using hs), List.append_assoc]
        have hrest : (l.filter fun c => c ∉ insert s t.cur) = l.filter fun c => c ∉ t.cur := by
          refine List.filter_congr fun c hc => ?_
          have hne : c ≠ s := fun heq => hl.1 (heq ▸ hc)
          simp only [Finset.mem_insert, hne, false_or]
        rw [hrest]
        rfl

theorem represents_applyTarget (hg : g.Represents) (walk : Walk)
    (player : NetId) (target : Finset SectorId) :
    (g.applyTarget walk player target).1.Represents :=
  (tracks_enter _ (tracks_leave target _ (hg.tracks player))).represents hg

/-- After the walk the player is in the cells of the target. -/
theorem applyTarget_subscriptions (g : InterestGrid) (walk : Walk) (player : NetId)
    (target : Finset SectorId) (p : NetId) :
    (g.applyTarget walk player target).1.subscriptions p =
      if p = player then target else g.subscriptions p := by
  have hsubs := subscriptions_insert g (g.applyTarget walk player target).1.cells player p
    ((walk.list target).foldl (TargetPass.enter player)
      ((walk.list (g.subscriptions player)).foldl (TargetPass.leave player target)
        { cells := g.cells, cur := g.subscriptions player, delta := {} })).cur
  refine hsubs.trans ?_
  by_cases hp : p = player
  · rw [if_pos hp, if_pos hp]
    ext c
    rw [cur_enter, cur_leave, walk.mem, walk.mem]
    tauto
  · rw [if_neg hp, if_neg hp]

theorem applyTarget_left (g : InterestGrid) (walk : Walk) (player : NetId)
    (target : Finset SectorId) :
    (g.applyTarget walk player target).2.left =
      (walk.list (g.subscriptions player)).filter fun s => s ∉ target := by
  unfold applyTarget
  simp only [delta_enter player _ (walk.nodup target), delta_leave, List.nil_append]

theorem applyTarget_entered (g : InterestGrid) (walk : Walk) (player : NetId)
    (target : Finset SectorId) :
    (g.applyTarget walk player target).2.entered =
      (walk.list target).filter fun s => s ∉ g.subscriptions player := by
  unfold applyTarget
  simp only [delta_enter player _ (walk.nodup target), delta_leave, List.nil_append]
  refine List.filter_congr fun c hc => ?_
  have htarget : c ∈ target := (walk.mem target c).mp hc
  simp only [cur_leave, htarget, not_true_eq_false, and_false, not_false_eq_true, and_true]

/-! ### Held cells -/

/-- The walk over the held cells lets go of those the target covers and adds the
    others to the target. -/
theorem foldl_coverPin (l : List SectorId) (hl : l.Nodup) (pin target : Finset SectorId)
    (hfresh : ∀ c ∈ l, c ∈ pin) :
    l.foldl coverPin (pin, target) =
      (pin.filter fun c => ¬ (c ∈ l ∧ c ∈ target), target ∪ l.toFinset) := by
  induction l generalizing pin target with
  | nil =>
      simp only [List.foldl_nil, List.not_mem_nil, false_and, not_false_eq_true,
        Finset.filter_true, List.toFinset_nil, Finset.union_empty]
  | cons s l ih =>
      rw [List.nodup_cons] at hl
      rw [List.foldl_cons]
      by_cases hs : s ∈ target
      · have hstep : coverPin (pin, target) s = (pin.erase s, target) := if_pos hs
        rw [hstep, ih hl.2 (pin.erase s) target fun c hc => Finset.mem_erase.mpr
          ⟨fun heq => hl.1 (heq ▸ hc), hfresh c (List.mem_cons_of_mem s hc)⟩]
        refine Prod.ext ?_ ?_
        · ext c
          simp only [Finset.mem_filter, Finset.mem_erase, List.mem_cons]
          by_cases hc : c = s
          · simp only [hc, ne_eq, not_true_eq_false, false_and, hs, true_or, and_true, and_false]
          · simp only [ne_eq, hc, not_false_eq_true, true_and, false_or]
        · ext c
          simp only [Finset.mem_union, List.mem_toFinset, List.mem_cons]
          by_cases hc : c = s
          · simp only [hc, hs, true_or]
          · simp only [hc, false_or]
      · have hstep : coverPin (pin, target) s = (pin, insert s target) := if_neg hs
        rw [hstep, ih hl.2 pin (insert s target) fun c hc =>
          hfresh c (List.mem_cons_of_mem s hc)]
        refine Prod.ext ?_ ?_
        · ext c
          simp only [Finset.mem_filter, Finset.mem_insert, List.mem_cons]
          by_cases hc : c = s
          · simp only [hc, hl.1, hs, false_and, and_false]
          · simp only [hc, false_or]
        · ext c
          simp only [Finset.mem_union, Finset.mem_insert, List.mem_toFinset, List.mem_cons]
          tauto

/-- A subscription is the walk to the given cells and the held ones. -/
theorem setSubscription_eq (g : InterestGrid) (walk : Walk) (player : NetId)
    (cells : List SectorId) :
    ∃ pins, g.setSubscription walk player cells =
        { g with playerPin := pins }.applyTarget walk player
          (cells.toFinset ∪ g.pins player) ∧
      ∀ p, (pins.lookup p).getD ∅ =
        if p = player then g.pins p \ cells.toFinset else g.pins p := by
  unfold setSubscription pins
  cases hl : g.playerPin.lookup player with
  | none =>
      refine ⟨g.playerPin, ?_, fun p => ?_⟩
      · simp only [Option.getD_none, Finset.union_empty]
      · by_cases hp : p = player
        · rw [if_pos hp, hp, hl]
          exact (Finset.empty_sdiff _).symm
        · rw [if_neg hp]
  | some pin =>
      simp only [Option.getD_some]
      rw [foldl_coverPin (walk.list pin) (walk.nodup pin) pin cells.toFinset fun c hc =>
        (walk.mem pin c).mp hc]
      have hheld : (pin.filter fun c => ¬ (c ∈ walk.list pin ∧ c ∈ cells.toFinset)) =
          pin \ cells.toFinset := by
        ext c
        rw [Finset.mem_filter, Finset.mem_sdiff, walk.mem]
        tauto
      have hwalk : (walk.list pin).toFinset = pin := by
        ext c
        rw [List.mem_toFinset, walk.mem]
      rw [hheld, hwalk]
      refine ⟨_, rfl, fun p => ?_⟩
      by_cases hnil : pin \ cells.toFinset = ∅
      · rw [if_pos hnil]
        by_cases hp : p = player
        · rw [if_pos hp, hp, Finmap.lookup_erase, hl, Option.getD_some, hnil]
          rfl
        · rw [if_neg hp, Finmap.lookup_erase_ne hp]
      · rw [if_neg hnil]
        by_cases hp : p = player
        · rw [if_pos hp, hp, Finmap.lookup_insert, hl, Option.getD_some, Option.getD_some]
        · rw [if_neg hp, Finmap.lookup_insert_of_ne _ hp]

theorem represents_setSubscription (hg : g.Represents) (walk : Walk)
    (player : NetId) (cells : List SectorId) :
    (g.setSubscription walk player cells).1.Represents := by
  obtain ⟨pins, heq, -⟩ := setSubscription_eq g walk player cells
  rw [heq]
  exact represents_applyTarget (hg.withPins pins) walk player _

theorem setSubscription_pins (g : InterestGrid) (walk : Walk) (player : NetId)
    (cells : List SectorId) (p : NetId) :
    (g.setSubscription walk player cells).1.pins p =
      if p = player then g.pins p \ cells.toFinset else g.pins p := by
  obtain ⟨pins, heq, hpins⟩ := setSubscription_eq g walk player cells
  rw [heq]
  exact hpins p

theorem setSubscription_subscriptions (g : InterestGrid) (walk : Walk) (player : NetId)
    (cells : List SectorId) (p : NetId) :
    (g.setSubscription walk player cells).1.subscriptions p =
      if p = player then cells.toFinset ∪ g.pins player else g.subscriptions p := by
  obtain ⟨pins, heq, -⟩ := setSubscription_eq g walk player cells
  rw [heq, applyTarget_subscriptions]
  rfl

/-! ### Dropping a player -/

theorem tracks_foldl_drop (l : List SectorId) {m : Cells}
    (ht : g.Tracks player m cur) :
    g.Tracks player (l.foldl (fun m s => m.removeSubscriber s player) m)
      (cur.filter fun c => c ∉ l) := by
  induction l generalizing m cur with
  | nil => simpa only [List.foldl_nil, List.not_mem_nil, not_false_eq_true, Finset.filter_true]
      using ht
  | cons s l ih =>
      rw [List.foldl_cons]
      have hrest : (cur.filter fun c => c ∉ s :: l) = (cur.erase s).filter fun c => c ∉ l := by
        ext c
        simp only [Finset.mem_filter, Finset.mem_erase, List.mem_cons]
        tauto
      rw [hrest]
      exact ih (ht.drop s)

theorem represents_removePlayer (hg : g.Represents) (walk : Walk)
    (player : NetId) : (g.removePlayer walk player).Represents := by
  unfold removePlayer
  cases hl : g.playerSubs.lookup player with
  | none => exact hg.withPins _
  | some subs =>
      have hsubs : g.subscriptions player = subs := by
        unfold subscriptions
        rw [hl, Option.getD_some]
      have ht := tracks_foldl_drop (walk.list subs) (hg.tracks player)
      refine ⟨ht.tidy, fun n s => ?_, fun p s => ?_⟩
      · have hres := ht.residents s
        unfold residents at hres ⊢
        rw [hres]
        exact hg.residents n s
      · refine (ht.subscribers p s).trans ?_
        unfold subscriptions
        simp only []
        by_cases hp : p = player
        · rw [if_pos hp, hp, Finmap.lookup_erase, Finset.mem_filter]
          have hin : s ∈ g.subscriptions player → s ∈ walk.list subs := by
            rw [hsubs, walk.mem]
            exact id
          exact ⟨fun h => absurd (hin h.1) h.2, fun h => absurd h (Finset.notMem_empty s)⟩
        · rw [if_neg hp, Finmap.lookup_erase_ne hp]

/-! ## Every sequence of calls -/

/-- Every call keeps the correspondence. -/
theorem represents_apply (hg : g.Represents) (op : GridOp) :
    (g.apply op).Represents := by
  cases op with
  | updateResidency netId sector => exact represents_updateResidency hg netId sector
  | remove netId => exact represents_remove hg netId
  | subscribe player s => exact represents_subscribe hg player s
  | unsubscribe player s => exact represents_unsubscribe hg player s
  | preSubscribe player center radiusCells =>
      exact represents_preSubscribe hg player center radiusCells
  | setSubscription walk player cells => exact represents_setSubscription hg walk player cells
  | removePlayer walk player => exact represents_removePlayer hg walk player

theorem represents_foldl (hg : g.Represents) (ops : List GridOp) :
    (ops.foldl apply g).Represents := by
  induction ops generalizing g with
  | nil => exact hg
  | cons op ops ih => exact ih (represents_apply hg op)

theorem entitySector_preSubscribe (g : InterestGrid) (player : NetId) (center : SectorId)
    (radiusCells : Int) :
    (g.preSubscribe player center radiusCells).entitySector = g.entitySector := by
  unfold preSubscribe
  induction collectNeighbourhood center radiusCells generalizing g with
  | nil => rfl
  | cons s cells ih =>
      rw [List.foldl_cons, ih]
      unfold pinCell subscribe
      split
      · rfl
      · rfl

/-- Only the two residency calls move an entity. -/
theorem residentCell_apply (g : InterestGrid) (op : GridOp) (n : NetId) :
    (g.apply op).residentCell n = match op with
      | .updateResidency netId sector => if netId = n then some sector else g.residentCell n
      | .remove netId => if netId = n then none else g.residentCell n
      | _ => g.residentCell n := by
  cases op with
  | updateResidency netId sector =>
      refine (residentCell_updateResidency g netId sector n).trans ?_
      simp only [eq_comm]
  | remove netId =>
      refine (residentCell_remove g netId n).trans ?_
      simp only [eq_comm]
  | subscribe player s =>
      simp only [apply, subscribe]
      split
      · rfl
      · rfl
  | unsubscribe player s =>
      simp only [apply, unsubscribe]
      cases g.playerSubs.lookup player with
      | none => rfl
      | some subs =>
          simp only []
          split
          · rfl
          · rfl
  | preSubscribe player center radiusCells =>
      simp only [apply, residentCell, entitySector_preSubscribe]
  | setSubscription walk player cells =>
      obtain ⟨pins, heq, -⟩ := setSubscription_eq g walk player cells
      simp only [apply, heq]
      rfl
  | removePlayer walk player =>
      simp only [apply, removePlayer]
      cases g.playerSubs.lookup player with
      | none => rfl
      | some subs => rfl

/-- An entity is where the calls last put it. -/
theorem residentCell_run (ops : List GridOp) (n : NetId) :
    (run ops).residentCell n = lastResidency n ops := by
  suffices h : ∀ (g : InterestGrid) (last : Option SectorId), g.residentCell n = last →
      (ops.foldl apply g).residentCell n = ops.foldl (fun last op => match op with
        | .updateResidency n' sector => if n' = n then some sector else last
        | .remove n' => if n' = n then none else last
        | _ => last) last from h fresh none rfl
  induction ops with
  | nil => exact fun g last hlast => hlast
  | cons op ops ih =>
      intro g last hlast
      rw [List.foldl_cons, List.foldl_cons]
      refine ih _ _ ?_
      rw [← hlast]
      exact residentCell_apply g op n

theorem visibleTo_eq (g : InterestGrid) (walk : Walk) (player : NetId) :
    g.visibleTo walk player =
      SortedList.ofList ((walk.list (g.subscriptions player)).flatMap g.residents) := by
  unfold visibleTo subscriptions
  cases g.playerSubs.lookup player with
  | none =>
      have hnil : walk.list ∅ = [] := by
        rw [List.eq_nil_iff_forall_not_mem]
        intro c hc
        exact absurd ((walk.mem ∅ c).mp hc) (Finset.notMem_empty c)
      simp only [Option.getD_none, hnil, List.flatMap_nil, SortedList.ofList, List.mergeSort_nil,
        List.destutter_nil]
  | some subs => rfl

theorem mem_visibleTo (g : InterestGrid) (walk : Walk) (player n : NetId) :
    n ∈ g.visibleTo walk player ↔ ∃ s ∈ g.subscriptions player, n ∈ g.residents s := by
  rw [visibleTo_eq, SortedList.mem_ofList, List.mem_flatMap]
  exact exists_congr fun s => and_congr_left fun _ => walk.mem _ s

theorem sorted_visibleTo (g : InterestGrid) (walk : Walk) (player : NetId) :
    SortedList.Sorted (g.visibleTo walk player) := by
  rw [visibleTo_eq]
  exact SortedList.sorted_ofList _

/-- After every sequence of calls the cells are the two relations read by sector,
    a subscription leaves the cells it says and returns what it changed, and a
    player sees the residents of its cells. -/
theorem grid_represents (ops : List GridOp) :
    (∀ n s, n ∈ (run ops).residents s ↔ lastResidency n ops = some s) ∧
      (∀ p s, p ∈ (run ops).subscribers s ↔ (run ops).isSubscribed p s = true) ∧
      (∀ s, ((run ops).residents s).Pairwise (· < ·) ∧
        ((run ops).subscribers s).Pairwise (· < ·)) ∧
      (∀ s, s ∈ (run ops).cells ↔ (run ops).residents s ≠ [] ∨ (run ops).subscribers s ≠ []) ∧
      (∀ walk player cells s,
        let g := (run ops).setSubscription walk player cells
        (g.1.isSubscribed player s = true ↔ s ∈ cells ∨ s ∈ g.1.pins player) ∧
          (s ∈ g.1.pins player ↔ s ∈ (run ops).pins player ∧ s ∉ cells) ∧
          (s ∈ g.2.entered ↔
            g.1.isSubscribed player s = true ∧ ¬ (run ops).isSubscribed player s = true) ∧
          (s ∈ g.2.left ↔
            (run ops).isSubscribed player s = true ∧ ¬ g.1.isSubscribed player s = true) ∧
          g.2.entered.Nodup ∧ g.2.left.Nodup) ∧
      ∀ walk player,
        ((run ops).visibleTo walk player).Pairwise (· < ·) ∧
          ∀ n, n ∈ (run ops).visibleTo walk player ↔
            ∃ s, (run ops).isSubscribed player s = true ∧ n ∈ (run ops).residents s := by
  have hg : (run ops).Represents := represents_foldl represents_fresh ops
  refine ⟨fun n s => ?_, fun p s => ?_, fun s => ?_, fun s => ?_, ?_, fun walk player => ?_⟩
  · rw [hg.residents n s, residentCell_run]
  · rw [hg.subscribers p s, isSubscribed_eq, decide_eq_true_eq]
  · exact ⟨hg.tidy.residents s, hg.tidy.subscribers s⟩
  · exact hg.tidy.mem_iff s
  · intro walk player cells s g
    have hsubs := setSubscription_subscriptions (run ops) walk player cells player
    have hpins := setSubscription_pins (run ops) walk player cells player
    obtain ⟨pins, heq, -⟩ := setSubscription_eq (run ops) walk player cells
    have hentered := applyTarget_entered { run ops with playerPin := pins } walk player
      (cells.toFinset ∪ (run ops).pins player)
    have hleft := applyTarget_left { run ops with playerPin := pins } walk player
      (cells.toFinset ∪ (run ops).pins player)
    rw [if_pos rfl] at hsubs hpins
    rw [← heq] at hentered hleft
    have hkept : subscriptions { run ops with playerPin := pins } player =
        (run ops).subscriptions player := rfl
    rw [hkept] at hentered hleft
    rw [isSubscribed_eq, isSubscribed_eq, decide_eq_true_eq, decide_eq_true_eq, hsubs, hpins,
      hentered, hleft]
    simp only [Finset.mem_union, List.mem_toFinset, Finset.mem_sdiff, List.mem_filter, walk.mem,
      decide_eq_true_eq]
    refine ⟨?_, trivial, trivial, trivial, (walk.nodup _).filter _, (walk.nodup _).filter _⟩
    tauto
  · refine ⟨sorted_visibleTo _ walk player, fun n => ?_⟩
    rw [mem_visibleTo]
    refine exists_congr fun s => ?_
    rw [isSubscribed_eq, decide_eq_true_eq]

/-! ## The grid of two tables -/

/-- The grid of two tables has the same tables. -/
structure Shows (g : InterestGrid) (a : Sim.InterestGrid) : Prop where
  sector : ∀ n, a.entitySector.find? n = g.residentCell n
  subs : ∀ p s, s ∈ a.subscriptions p ↔ s ∈ g.subscriptions p
  pins : ∀ p s, s ∈ a.pins p ↔ s ∈ g.pins p

theorem shows_fresh : fresh.Shows Sim.InterestGrid.fresh where
  sector := fun _ => rfl
  subs := fun _ s => ⟨fun h => absurd h List.not_mem_nil, fun h => absurd h (Finset.notMem_empty s)⟩
  pins := fun _ s => ⟨fun h => absurd h List.not_mem_nil, fun h => absurd h (Finset.notMem_empty s)⟩

variable {a : Sim.InterestGrid}

/-- What a player sees is a function of the two tables. -/
theorem visibleTo_shows (hg : g.Represents)
    (hs : g.Shows a) (walk : Walk) (player : NetId) :
    g.visibleTo walk player = a.visibleTo player := by
  refine SortedList.eq_of_mem_iff (sorted_visibleTo g walk player) (OrdMap.keys_sorted _)
    fun n => ?_
  unfold Sim.InterestGrid.visibleTo
  rw [mem_visibleTo, OrdMap.mem_keys, OrdMap.find?_filter, hs.sector, Option.isSome_iff_exists]
  simp only [Option.filter_eq_some_iff, decide_eq_true_eq, hs.subs]
  refine exists_congr fun s => ?_
  rw [hg.residents]
  exact and_comm

/-- A call that leaves the tables by player alone. -/
theorem Shows.moved {g g' : InterestGrid} {a a' : Sim.InterestGrid} (hs : g.Shows a)
    (hsector : ∀ n, a'.entitySector.find? n = g'.residentCell n)
    (hkept : g'.playerSubs = g.playerSubs ∧ g'.playerPin = g.playerPin)
    (hkept' : a'.playerSubs = a.playerSubs ∧ a'.playerPin = a.playerPin) : g'.Shows a' := by
  refine ⟨hsector, fun p s => ?_, fun p s => ?_⟩
  · unfold subscriptions Sim.InterestGrid.subscriptions
    rw [hkept.1, hkept'.1]
    exact hs.subs p s
  · unfold InterestGrid.pins Sim.InterestGrid.pins
    rw [hkept.2, hkept'.2]
    exact hs.pins p s

theorem shows_updateResidency (hs : g.Shows a)
    (netId : NetId) (sector : SectorId) :
    (g.updateResidency netId sector).1.Shows (a.updateResidency netId sector) := by
  refine hs.moved (fun n => ?_) ?_ ⟨rfl, rfl⟩
  · rw [residentCell_updateResidency, ← hs.sector]
    exact OrdMap.find?_insert a.entitySector netId sector n
  · unfold updateResidency
    split
    · exact ⟨rfl, rfl⟩
    · split
      · exact ⟨rfl, rfl⟩
      · exact ⟨rfl, rfl⟩

theorem shows_remove (hs : g.Shows a)
    (netId : NetId) : (g.remove netId).Shows (a.remove netId) := by
  refine hs.moved (fun n => ?_) ?_ ⟨rfl, rfl⟩
  · rw [residentCell_remove, ← hs.sector]
    exact OrdMap.find?_erase a.entitySector netId n
  · unfold remove
    split
    · exact ⟨rfl, rfl⟩
    · exact ⟨rfl, rfl⟩

theorem shows_setSubscription (hs : g.Shows a)
    (walk : Walk) (player : NetId) (cells : List SectorId) :
    (g.setSubscription walk player cells).1.Shows (a.setSubscription player cells) := by
  have hheld : ∀ s, s ∈ (a.pins player).filter (fun c => c ∉ cells) ↔
      s ∈ g.pins player \ cells.toFinset := by
    intro s
    rw [List.mem_filter, Finset.mem_sdiff, List.mem_toFinset, hs.pins, decide_eq_true_eq]
  refine ⟨fun n => ?_, fun p s => ?_, fun p s => ?_⟩
  · rw [show (a.setSubscription player cells).entitySector = a.entitySector from rfl, hs.sector]
    exact (residentCell_apply g (.setSubscription walk player cells) n).symm
  · rw [setSubscription_subscriptions]
    unfold Sim.InterestGrid.setSubscription Sim.InterestGrid.subscriptions
    simp only []
    rw [OrdMap.find?_insert]
    by_cases hp : p = player
    · rw [if_pos hp, if_pos hp, Option.getD_some, List.mem_append, hheld, Finset.mem_union,
        Finset.mem_sdiff, List.mem_toFinset]
      tauto
    · rw [if_neg hp, if_neg hp]
      exact hs.subs p s
  · rw [setSubscription_pins]
    unfold Sim.InterestGrid.setSubscription Sim.InterestGrid.pins
    simp only []
    have hheld' := hheld
    unfold Sim.InterestGrid.pins at hheld'
    by_cases hp : p = player
    · rw [if_pos hp, hp, ← hheld' s]
      split
      · rename_i hnil
        rw [OrdMap.find?_erase, if_pos rfl, hnil]
        exact Iff.rfl
      · rw [OrdMap.find?_insert_self, Option.getD_some]
    · rw [if_neg hp]
      have hother : (if (((a.playerPin.find? player).getD []).filter fun c => c ∉ cells) = []
          then a.playerPin.erase player
          else a.playerPin.insert player
            (((a.playerPin.find? player).getD []).filter fun c => c ∉ cells)).find? p =
          a.playerPin.find? p := by
        split
        · rw [OrdMap.find?_erase, if_neg hp]
        · rw [OrdMap.find?_insert_ne _ _ _ _ hp]
      rw [hother]
      exact hs.pins p s

/-- Holding a list of cells adds them to what a player is subscribed to and to
    what is held for it. -/
theorem foldl_pinCell (g : InterestGrid) (player : NetId) (cells : List SectorId) (p : NetId) :
    (cells.foldl (pinCell player) g).subscriptions p =
        (if p = player then g.subscriptions p ∪ cells.toFinset else g.subscriptions p) ∧
      (cells.foldl (pinCell player) g).pins p =
        if p = player then g.pins p ∪ cells.toFinset else g.pins p := by
  induction cells generalizing g with
  | nil =>
      simp only [List.foldl_nil, List.toFinset_nil, Finset.union_empty, ite_self, and_self]
  | cons s cells ih =>
      have hsubs : (pinCell player g s).subscriptions p =
          if p = player then insert s (g.subscriptions p) else g.subscriptions p :=
        subscriptions_subscribe { g with
          playerPin := g.playerPin.insert player (insert s (g.pins player)) } player s p
      have hpins : (pinCell player g s).pins p =
          if p = player then insert s (g.pins p) else g.pins p := by
        have hpin : (pinCell player g s).playerPin =
            g.playerPin.insert player (insert s (g.pins player)) := by
          unfold pinCell subscribe
          split
          · rfl
          · rfl
        unfold pins at hpin ⊢
        rw [hpin]
        by_cases hp : p = player
        · rw [if_pos hp, hp, Finmap.lookup_insert, Option.getD_some]
        · rw [if_neg hp, Finmap.lookup_insert_of_ne _ hp]
      rw [List.foldl_cons, (ih _).1, (ih _).2, hsubs, hpins]
      by_cases hp : p = player
      · simp only [if_pos hp, List.toFinset_cons, Finset.insert_union, Finset.union_insert,
          and_self]
      · simp only [if_neg hp, and_self]

theorem shows_preSubscribe (hs : g.Shows a)
    (player : NetId) (center : SectorId) (radiusCells : Int) :
    (g.preSubscribe player center radiusCells).Shows
      (a.preSubscribe player center radiusCells) := by
  have hfold := foldl_pinCell g player (collectNeighbourhood center radiusCells)
  refine ⟨fun n => ?_, fun p s => ?_, fun p s => ?_⟩
  · unfold residentCell
    rw [entitySector_preSubscribe]
    exact hs.sector n
  · unfold preSubscribe
    rw [(hfold p).1]
    unfold Sim.InterestGrid.preSubscribe Sim.InterestGrid.subscriptions
    simp only []
    rw [OrdMap.find?_insert]
    by_cases hp : p = player
    · rw [if_pos hp, if_pos hp, Option.getD_some, List.mem_append, Finset.mem_union,
        List.mem_toFinset, hp]
      exact or_congr (hs.subs player s) Iff.rfl
    · rw [if_neg hp, if_neg hp]
      exact hs.subs p s
  · unfold preSubscribe
    rw [(hfold p).2]
    unfold Sim.InterestGrid.preSubscribe Sim.InterestGrid.pins
    simp only []
    rw [OrdMap.find?_insert]
    by_cases hp : p = player
    · rw [if_pos hp, if_pos hp, Option.getD_some, List.mem_append, Finset.mem_union,
        List.mem_toFinset, hp]
      exact or_congr (hs.pins player s) Iff.rfl
    · rw [if_neg hp, if_neg hp]
      exact hs.pins p s

/-- A call that replaces what one player is subscribed to. -/
theorem Shows.replace {g g' : InterestGrid} (hs : g.Shows a)
    {subs : List SectorId} (hsector : ∀ n, g'.residentCell n = g.residentCell n)
    (hpins : g'.playerPin = g.playerPin)
    (hsubs : ∀ p, g'.subscriptions p = if p = player then subs.toFinset else g.subscriptions p) :
    g'.Shows { a with playerSubs := a.playerSubs.insert player subs } := by
  refine ⟨fun n => (hs.sector n).trans (hsector n).symm, fun p s => ?_, fun p s => ?_⟩
  · unfold Sim.InterestGrid.subscriptions
    rw [hsubs, OrdMap.find?_insert]
    by_cases hp : p = player
    · rw [if_pos hp, if_pos hp, Option.getD_some, List.mem_toFinset]
    · rw [if_neg hp, if_neg hp]
      exact hs.subs p s
  · unfold InterestGrid.pins
    rw [hpins]
    exact hs.pins p s

/-- The same call on the plain tables. -/
def plainCall (a : Sim.InterestGrid) : GridOp → Sim.InterestGrid
  | .updateResidency netId sector => a.updateResidency netId sector
  | .remove netId => a.remove netId
  | .subscribe player s =>
      { a with playerSubs := a.playerSubs.insert player (s :: a.subscriptions player) }
  | .unsubscribe player s =>
      { a with
        playerSubs := a.playerSubs.insert player ((a.subscriptions player).filter (· ≠ s)) }
  | .preSubscribe player center radiusCells => a.preSubscribe player center radiusCells
  | .setSubscription _ player cells => a.setSubscription player cells
  | .removePlayer _ player =>
      { a with playerSubs := a.playerSubs.erase player, playerPin := a.playerPin.erase player }

theorem shows_apply (hs : g.Shows a) (op : GridOp) :
    (g.apply op).Shows (plainCall a op) := by
  have hlist : ∀ p, (a.subscriptions p).toFinset = g.subscriptions p := fun p =>
    Finset.ext fun s => List.mem_toFinset.trans (hs.subs p s)
  cases op with
  | updateResidency netId sector => exact shows_updateResidency hs netId sector
  | remove netId => exact shows_remove hs netId
  | preSubscribe player center radiusCells => exact shows_preSubscribe hs player center radiusCells
  | setSubscription walk player cells => exact shows_setSubscription hs walk player cells
  | subscribe player s =>
      refine hs.replace (residentCell_apply g (.subscribe player s)) ?_ fun p => ?_
      · change (g.subscribe player s).1.playerPin = g.playerPin
        unfold subscribe
        split
        · rfl
        · rfl
      · refine (subscriptions_subscribe g player s p).trans ?_
        by_cases hp : p = player
        · rw [if_pos hp, if_pos hp, hp, List.toFinset_cons, hlist]
        · rw [if_neg hp, if_neg hp]
  | unsubscribe player s =>
      refine hs.replace (residentCell_apply g (.unsubscribe player s)) ?_ fun p => ?_
      · change (g.unsubscribe player s).1.playerPin = g.playerPin
        unfold unsubscribe
        split
        · rfl
        · split
          · rfl
          · rfl
      · refine (subscriptions_unsubscribe g player s p).trans ?_
        by_cases hp : p = player
        · rw [if_pos hp, if_pos hp, hp, ← hlist]
          ext s'
          simp only [Finset.mem_erase, List.mem_toFinset, List.mem_filter, decide_eq_true_eq,
            and_comm]
        · rw [if_neg hp, if_neg hp]
  | removePlayer walk player =>
      have hsubs : ∀ p, (g.removePlayer walk player).playerSubs.lookup p =
          (g.playerSubs.erase player).lookup p := by
        intro p
        unfold removePlayer
        cases hl : g.playerSubs.lookup player with
        | none =>
            by_cases hp : p = player
            · rw [hp, Finmap.lookup_erase]
              exact hl
            · exact (Finmap.lookup_erase_ne hp).symm
        | some subs => rfl
      have hpins : (g.removePlayer walk player).playerPin = g.playerPin.erase player := by
        unfold removePlayer
        split
        · rfl
        · rfl
      refine ⟨fun n => (hs.sector n).trans (residentCell_apply g (.removePlayer walk player) n).symm,
        fun p s => ?_, fun p s => ?_⟩
      · unfold Sim.InterestGrid.subscriptions plainCall apply subscriptions
        rw [hsubs, OrdMap.find?_erase]
        by_cases hp : p = player
        · rw [if_pos hp, hp, Finmap.lookup_erase]
          exact shows_fresh.subs p s
        · rw [if_neg hp, Finmap.lookup_erase_ne hp]
          exact hs.subs p s
      · unfold Sim.InterestGrid.pins plainCall apply InterestGrid.pins
        rw [hpins, OrdMap.find?_erase]
        by_cases hp : p = player
        · rw [if_pos hp, hp, Finmap.lookup_erase]
          exact shows_fresh.pins p s
        · rw [if_neg hp, Finmap.lookup_erase_ne hp]
          exact hs.pins p s

/-- The cells and hash tables make no difference: after any calls, in whatever order the sets are
    walked, a player sees what it sees in the plain tables. -/
theorem run_plain (ops : List GridOp) :
    (run ops).Shows (ops.foldl plainCall .fresh) ∧
      ∀ (walk : Walk) (player : NetId),
        (run ops).visibleTo walk player = (ops.foldl plainCall .fresh).visibleTo player := by
  have hshows : (run ops).Shows (ops.foldl plainCall .fresh) := by
    unfold run
    induction ops using List.reverseRecOn with
    | nil => exact shows_fresh
    | append_singleton ops op ih =>
        rw [List.foldl_append, List.foldl_append]
        exact shows_apply ih op
  exact ⟨hshows, fun walk player =>
    visibleTo_shows (represents_foldl represents_fresh ops) hshows walk player⟩

end InterestGrid

end Interest

end EarthRise
