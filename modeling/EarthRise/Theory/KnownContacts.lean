import EarthRise.Core.Sensing
import EarthRise.Theory.Subscriptions

/-!
# Known Contacts on the Delta Path

A player's own entities, the beacons and what it has scanned are detected wherever they are. The
snapshots that a client is sent are taken from the interest grid, which knows of sectors
only.

So a known contact is sent exactly while its sector is watched: by one of the player's sensors,
by a journey that is held for, or, for a player without a sensor, since before.

## Main definitions

* `ServerUniverse.candidates`: What a snapshot of a client is made of.
* `ServerUniverse.KeepsKnown`: Known contacts are sent wherever they are.
* `ServerUniverse.Watched`: A sector is watched.

## Theorems

* `known_detected`: Known contacts are detected.
* `keepsKnown_iff`: When they are sent.
-/

namespace EarthRise

namespace Sim

open Universe

namespace ServerUniverse

/-- What a snapshot of a client is made of, in the order of the ids. -/
def candidates (sqrt : ℚ → ℚ) (u : ServerUniverse) (clientId : NetId) (t : ClientTables) :
    List SchedCandidate :=
  (u.changedFor clientId t).filterMap (u.candidate sqrt clientId t)

/-- Every known contact that a client lacks is among the candidates of its snapshot. -/
def KeepsKnown {F : Type} (sqrt : ℚ → ℚ) (u : ServerUniverse) (fog : Fog F) (player : NetId) :
    Prop :=
  ∀ n e, u.entities.find? n = some e → fog.Known player n e →
    ∀ t : ClientTables, t.baseline.needs n (u.replVersion n) = true →
      n ∈ (u.candidates sqrt player t).map SchedCandidate.netId

/-- A player's sensors or a journey that is held for cover a sector, or the player has no
    sensor and is subscribed to it already. -/
def Watched (u : ServerUniverse) (player : NetId) (s : SectorId) : Prop :=
  (∃ cells, u.sensorCells.find? player = some cells ∧
    (s ∈ cells ∨ s ∈ u.interest.pins player)) ∨
  u.sensorCells.find? player = none ∧ s ∈ u.interest.subscriptions player

variable {n : NetId}

/-- What is known is detected, whatever the sensors reach. -/
theorem known_detected {F : Type} (sqrt : ℚ → ℚ) (u : ServerUniverse) (fog : Fog F)
    (player : NetId) {e : Entity} (he : u.entities.find? n = some e)
    (hknown : fog.Known player n e) : n ∈ u.detectedSet sqrt fog player := by
  unfold detectedSet
  refine List.mem_filterMap.mpr ⟨(n, e), (u.entities.mem_entries n e).mpr he, ?_⟩
  rcases hknown with hown | hscanned
  · exact if_pos hown
  · by_cases hown : e.repl.ownerPlayer = player ∨ e.repl.kind = .structure'
    · exact if_pos hown
    · have hrevealed : fog.isRevealedTo player n = true := decide_eq_true hscanned
      simp only [if_neg hown, if_pos hrevealed]

/-- A living entity is a candidate if the client sees it and lacks it. -/
theorem mem_candidates (sqrt : ℚ → ℚ) (u : ServerUniverse) (player : NetId) (t : ClientTables)
    {e : Entity} (he : u.entities.find? n = some e) :
    n ∈ (u.candidates sqrt player t).map SchedCandidate.netId ↔
      n ∈ u.interest.visibleTo player ∧ t.baseline.needs n (u.replVersion n) = true := by
  have hcandidate : ∀ m c, u.candidate sqrt player t m = some c → c.netId = m := by
    intro m c hc
    unfold candidate at hc
    rcases Option.map_eq_some_iff.mp hc with ⟨cur, _, rfl⟩
    rfl
  have hlacked : n ∈ u.changedFor player t ↔
      n ∈ u.interest.visibleTo player ∧ t.baseline.needs n (u.replVersion n) = true :=
    List.mem_filter
  rw [← hlacked]
  unfold candidates
  rw [List.mem_map]
  constructor
  · rintro ⟨c, hc, rfl⟩
    rcases List.mem_filterMap.mp hc with ⟨m, hm, hc⟩
    rwa [hcandidate m c hc]
  · intro hn
    have hsome : ∃ c, u.candidate sqrt player t n = some c := by
      unfold candidate snapshotEntityOf
      rw [he]
      exact ⟨_, rfl⟩
    rcases hsome with ⟨c, hc⟩
    exact ⟨c, List.mem_filterMap.mpr ⟨n, hn, hc⟩, hcandidate n c hc⟩

/-- Some client lacks an entity of any version but zero. -/
theorem needs_fresh {version : Nat} (h : version ≠ 0) :
    ClientTables.fresh.baseline.needs n version = true :=
  decide_eq_true (Nat.pos_of_ne_zero h)

/-- After an update of the interest grid a client is sent the known contacts that it lacks
    exactly if their sectors are watched. -/
theorem keepsKnown_iff {F : Type} (sqrt : ℚ → ℚ) (u : ServerUniverse) (fog : Fog F)
    (player : NetId) : u.updateInterest.KeepsKnown sqrt fog player ↔
      ∀ n e, u.entities.find? n = some e → fog.Known player n e →
        u.replVersion n = 0 ∨ u.Watched player (universeToSector e.repl.pos) := by
  have hvisible : ∀ n e, u.entities.find? n = some e →
      (n ∈ u.updateInterest.interest.visibleTo player ↔
        u.Watched player (universeToSector e.repl.pos)) := by
    intro n e he
    rw [InterestGrid.mem_visibleTo, find?_homed u he]
    simp only [Option.some.injEq, exists_eq_left']
    exact mem_subscriptions_updateInterest u player _
  constructor
  · intro h n e he hknown
    by_cases hversion : u.replVersion n = 0
    · exact Or.inl hversion
    · have hsent := h n e he hknown ClientTables.fresh (needs_fresh hversion)
      rw [mem_candidates sqrt u.updateInterest player ClientTables.fresh he] at hsent
      exact Or.inr ((hvisible n e he).mp hsent.1)
  · intro h n e he hknown t hneeds
    rw [mem_candidates sqrt u.updateInterest player t he]
    refine ⟨?_, hneeds⟩
    rcases h n e he hknown with hversion | hwatched
    · have hzero : u.updateInterest.replVersion n = 0 := hversion
      rw [hzero] at hneeds
      exact absurd (of_decide_eq_true hneeds) (Nat.not_lt_zero _)
    · exact (hvisible n e he).mpr hwatched

end ServerUniverse

/-- A base at the origin, and a beacon far away from it. -/
def farBeacon : List WorldOp :=
  [.spawn ⟨⟨⟨0, 0, 0⟩, ⟨0, 0, 0⟩, 1000, 1, 68, .base⟩, some 12000, 0⟩,
    .spawn ⟨⟨⟨1000000000, 0, 0⟩, ⟨0, 0, 0⟩, 1000, 0, 50, .structure'⟩, none, 0⟩]

/-- The beacon is detected and never sent. -/
theorem far_beacon_not_sent :
    2 ∈ ((ServerUniverse.fresh 0).step farBeacon).detectedSet id (Fog.fresh (F := Float32)) 1 ∧
      ClientTables.fresh.baseline.needs 2
        (((ServerUniverse.fresh 0).step farBeacon).replVersion 2) = true ∧
      ¬ ((ServerUniverse.fresh 0).step farBeacon).KeepsKnown id (Fog.fresh (F := Float32)) 1 := by
  have hbeacon : ∃ e, ((ServerUniverse.fresh 0).step farBeacon).entities.find? 2 = some e ∧
      e.repl.kind = .structure' := ⟨_, rfl, rfl⟩
  rcases hbeacon with ⟨e, he, hkind⟩
  have hknown : (Fog.fresh (F := Float32)).Known 1 2 e := Or.inl (Or.inr hkind)
  refine ⟨ServerUniverse.known_detected id _ _ 1 he hknown, by decide +kernel, fun h => ?_⟩
  have hsent := h 2 e he hknown ClientTables.fresh (by decide +kernel)
  exact absurd hsent (by decide +kernel)

end Sim

end EarthRise
