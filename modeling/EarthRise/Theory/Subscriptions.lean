import EarthRise.Theory.ServerUniverse

/-!
# Subscriptions after an Update

What refreshing the subscriptions of the players with sensors does to the subscriptions and
the held cells of each player, and what subscribing ahead does.

A player on the list is subscribed to its cells and to those still held for it; a held cell
among its cells is let go. A player that is not on the list keeps what it has.

## Theorems

* `preSubscribe_adds`: A player that travels.
* `mem_subscriptions_setAll`, `mem_pins_setAll`: After an update of a list of players.
* `visibleTo_eq_nil`: A player that is subscribed to nothing.
* `find?_homed`: Where the entities are.
-/

namespace EarthRise

namespace Sim

open Universe

namespace InterestGrid

variable {g : InterestGrid} {p q : NetId} {s : SectorId}

/-! ## One player -/

theorem subscriptions_setSubscription (g : InterestGrid) (q : NetId) (cells : List SectorId)
    (p : NetId) : (g.setSubscription q cells).subscriptions p =
      if p = q then cells ++ (g.pins q).filter fun c => c ∉ cells else g.subscriptions p := by
  unfold setSubscription subscriptions
  simp only [OrdMap.find?_insert]
  by_cases hp : p = q
  · rw [if_pos hp, if_pos hp]
    rfl
  · rw [if_neg hp, if_neg hp]

theorem pins_setSubscription (g : InterestGrid) (q : NetId) (cells : List SectorId) (p : NetId) :
    (g.setSubscription q cells).pins p =
      if p = q then (g.pins q).filter fun c => c ∉ cells else g.pins p := by
  unfold setSubscription
  generalize hheld : (g.pins q).filter (fun c => c ∉ cells) = held
  unfold pins
  by_cases hempty : held = []
  · simp only [if_pos hempty, OrdMap.find?_erase]
    by_cases hp : p = q
    · rw [if_pos hp, if_pos hp, hempty]
      rfl
    · rw [if_neg hp, if_neg hp]
  · simp only [if_neg hempty, OrdMap.find?_insert]
    by_cases hp : p = q
    · rw [if_pos hp, if_pos hp]
      rfl
    · rw [if_neg hp, if_neg hp]

theorem preSubscribe_adds (g : InterestGrid) (q : NetId) (center : SectorId) (radius : Int)
    (p : NetId) (s : SectorId) :
    (s ∈ (g.preSubscribe q center radius).pins p ↔
      (q = p ∧ s ∈ collectNeighbourhood center radius) ∨ s ∈ g.pins p) ∧
    (s ∈ (g.preSubscribe q center radius).subscriptions p ↔
      (q = p ∧ s ∈ collectNeighbourhood center radius) ∨ s ∈ g.subscriptions p) := by
  have hother : p ≠ q → ((q = p ∧ s ∈ collectNeighbourhood center radius) ↔ False) :=
    fun hne => iff_of_false (fun h => hne h.1.symm) not_false
  unfold preSubscribe
  constructor
  · show s ∈ ((g.playerPin.insert q (g.pins q ++ _)).find? p).getD [] ↔ _
    rw [OrdMap.find?_insert]
    by_cases hp : p = q
    · rw [if_pos hp, Option.getD_some, List.mem_append, hp, or_comm]
      simp only [true_and]
    · rw [if_neg hp, hother hp, false_or]
      rfl
  · show s ∈ ((g.playerSubs.insert q (g.subscriptions q ++ _)).find? p).getD [] ↔ _
    rw [OrdMap.find?_insert]
    by_cases hp : p = q
    · rw [if_pos hp, Option.getD_some, List.mem_append, hp, or_comm]
      simp only [true_and]
    · rw [if_neg hp, hother hp, false_or]
      rfl

theorem visibleTo_eq_nil (h : g.subscriptions p = []) : g.visibleTo p = [] := by
  rw [List.eq_nil_iff_forall_not_mem]
  intro n hn
  unfold visibleTo at hn
  rw [OrdMap.mem_keys, OrdMap.find?_filter, h] at hn
  cases hsector : g.entitySector.find? n with
  | none =>
      rw [hsector] at hn
      exact absurd hn Bool.false_ne_true
  | some t =>
      rw [hsector] at hn
      exact absurd hn Bool.false_ne_true

/-! ## Every player with sensors -/

/-- Subscribe each player of a list to its cells. -/
def setAll (g : InterestGrid) (m : OrdMap NetId (List SectorId)) : InterestGrid :=
  m.entries.foldl (fun g e => g.setSubscription e.1 e.2) g

theorem setAll_of_not_mem (l : List (NetId × List SectorId)) (hp : p ∉ l.map Prod.fst)
    (g : InterestGrid) :
    (l.foldl (fun g e => g.setSubscription e.1 e.2) g).subscriptions p = g.subscriptions p ∧
      (l.foldl (fun g e => g.setSubscription e.1 e.2) g).pins p = g.pins p := by
  induction l generalizing g with
  | nil => exact ⟨rfl, rfl⟩
  | cons e l ih =>
      rw [List.map_cons, List.mem_cons, not_or] at hp
      rcases ih hp.2 (g.setSubscription e.1 e.2) with ⟨hsubs, hpins⟩
      rw [subscriptions_setSubscription, if_neg hp.1] at hsubs
      rw [pins_setSubscription, if_neg hp.1] at hpins
      exact ⟨hsubs, hpins⟩

theorem setAll_of_mem (l : List (NetId × List SectorId)) (hl : (l.map Prod.fst).Nodup)
    {cells : List SectorId} (hp : (p, cells) ∈ l) (g : InterestGrid) :
    (l.foldl (fun g e => g.setSubscription e.1 e.2) g).subscriptions p =
        cells ++ (g.pins p).filter (fun c => c ∉ cells) ∧
      (l.foldl (fun g e => g.setSubscription e.1 e.2) g).pins p =
        (g.pins p).filter fun c => c ∉ cells := by
  induction l generalizing g with
  | nil => exact absurd hp List.not_mem_nil
  | cons e l ih =>
      rw [List.map_cons, List.nodup_cons] at hl
      rcases List.mem_cons.mp hp with rfl | hp
      · rcases setAll_of_not_mem l hl.1 (g.setSubscription p cells) with ⟨hsubs, hpins⟩
        rw [subscriptions_setSubscription, if_pos rfl] at hsubs
        rw [pins_setSubscription, if_pos rfl] at hpins
        exact ⟨hsubs, hpins⟩
      · have hne : p ≠ e.1 := by
          rintro rfl
          exact hl.1 (List.mem_map.mpr ⟨_, hp, rfl⟩)
        have hrest := ih hl.2 hp (g.setSubscription e.1 e.2)
        rwa [pins_setSubscription, if_neg hne] at hrest

theorem not_mem_keys {m : OrdMap NetId (List SectorId)} (h : m.find? p = none) :
    p ∉ m.entries.map Prod.fst := by
  intro hp
  have hsome := (m.mem_keys p).mp hp
  rw [h] at hsome
  exact absurd hsome Bool.false_ne_true

/-- A player with sensors sees its cells and what is held for it; the others see what they
    saw. -/
theorem mem_subscriptions_setAll (g : InterestGrid) (m : OrdMap NetId (List SectorId))
    (p : NetId) (s : SectorId) :
    s ∈ (g.setAll m).subscriptions p ↔
      (∃ cells, m.find? p = some cells ∧ (s ∈ cells ∨ s ∈ g.pins p)) ∨
        m.find? p = none ∧ s ∈ g.subscriptions p := by
  unfold setAll
  cases hm : m.find? p with
  | none =>
      rw [(setAll_of_not_mem m.entries (not_mem_keys hm) g).1]
      simp only [reduceCtorEq, false_and, exists_false, true_and, false_or]
  | some cells =>
      rw [(setAll_of_mem m.entries m.keys_nodup ((m.mem_entries p cells).mpr hm) g).1,
        List.mem_append, List.mem_filter, decide_eq_true_eq]
      simp only [Option.some.injEq, exists_eq_left', reduceCtorEq, false_and, or_false]
      constructor
      · rintro (h | ⟨h, _⟩)
        · exact Or.inl h
        · exact Or.inr h
      · rintro (h | h)
        · exact Or.inl h
        · by_cases hs : s ∈ cells
          · exact Or.inl hs
          · exact Or.inr ⟨h, hs⟩

/-- What is held for a player is held until its cells take it in. -/
theorem mem_pins_setAll (g : InterestGrid) (m : OrdMap NetId (List SectorId)) (p : NetId)
    (s : SectorId) : s ∈ (g.setAll m).pins p ↔
      s ∈ g.pins p ∧ ¬ ∃ cells, m.find? p = some cells ∧ s ∈ cells := by
  unfold setAll
  cases hm : m.find? p with
  | none =>
      rw [(setAll_of_not_mem m.entries (not_mem_keys hm) g).2]
      simp only [reduceCtorEq, false_and, exists_false, not_false_eq_true, and_true]
  | some cells =>
      rw [(setAll_of_mem m.entries m.keys_nodup ((m.mem_entries p cells).mpr hm) g).2,
        List.mem_filter, decide_eq_true_eq]
      simp only [Option.some.injEq, exists_eq_left']

/-! ## Where the entities are -/

theorem entitySector_homed (l : List (NetId × Entity)) (g : InterestGrid) :
    (l.foldl (fun g e => g.updateResidency e.1 (universeToSector e.2.repl.pos)) g).entitySector =
      g.entitySector.insertAll (l.map fun e => (e.1, universeToSector e.2.repl.pos)) := by
  induction l generalizing g with
  | nil => rfl
  | cons e l ih =>
      rw [List.foldl_cons, ih]
      rfl

end InterestGrid

namespace ServerUniverse

theorem updateInterest_eq (u : ServerUniverse) : u.updateInterest =
    { u with
      interest := (u.entities.entries.foldl
        (fun g e => g.updateResidency e.1 (universeToSector e.2.repl.pos)) u.interest).setAll
          u.sensorCells } :=
  rfl

/-- An entity is in the sector that it stands in. -/
theorem find?_homed (u : ServerUniverse) {n : NetId} {e : Entity}
    (he : u.entities.find? n = some e) :
    u.updateInterest.interest.entitySector.find? n = some (universeToSector e.repl.pos) := by
  rw [updateInterest_eq]
  unfold InterestGrid.setAll
  rw [InterestGrid.entitySector_setSubscription, InterestGrid.entitySector_homed]
  refine OrdMap.find?_insertAll_of_mem _ _ n _ ?_ ?_
  · rw [List.map_map]
    exact u.entities.keys_nodup
  · exact List.mem_map.mpr ⟨(n, e), (u.entities.mem_entries n e).mpr he, rfl⟩

theorem homed_players (l : List (NetId × Entity)) (g : InterestGrid) (p : NetId) :
    (l.foldl (fun g e => g.updateResidency e.1 (universeToSector e.2.repl.pos)) g).subscriptions p =
        g.subscriptions p ∧
      (l.foldl (fun g e => g.updateResidency e.1 (universeToSector e.2.repl.pos)) g).pins p =
        g.pins p := by
  induction l generalizing g with
  | nil => exact ⟨rfl, rfl⟩
  | cons e l ih => exact ih (g.updateResidency e.1 (universeToSector e.2.repl.pos))

theorem mem_subscriptions_updateInterest (u : ServerUniverse) (p : NetId) (s : SectorId) :
    s ∈ u.updateInterest.interest.subscriptions p ↔
      (∃ cells, u.sensorCells.find? p = some cells ∧ (s ∈ cells ∨ s ∈ u.interest.pins p)) ∨
        u.sensorCells.find? p = none ∧ s ∈ u.interest.subscriptions p := by
  rcases homed_players u.entities.entries u.interest p with ⟨hsubs, hpins⟩
  rw [updateInterest_eq, InterestGrid.mem_subscriptions_setAll, hsubs, hpins]

end ServerUniverse

end Sim

end EarthRise
