import EarthRise.Theory.Pipeline

/-!
# Entities That Come Back Into Sight

Whether an entity that was evicted is sent again in full.

Marking an entity for removal erases its acknowledged version and its delta base,
but what is staged of it under earlier ticks stays staged. An acknowledgement of
such a tick, on its way while the client was already evicting the entity, brings
both back, and the server takes the client to hold what it has just dropped:
`stale_fold` is such a run.

`FoldsHeld` asks of every entity that an acknowledgement adds to the acknowledged
ones that the client has received a live record of it past all the tombstones of it
that it received or that are under way. The acknowledged entities are then among
those the client holds and will not drop, and the known states are of acknowledged
entities. What the client lacks therefore counts as never sent.

## Main definitions

* `Pipeline.FoldsHeld`: An acknowledgement adds only what the client holds.
* `Pipeline.Kept`: What is acknowledged is held, what is known is acknowledged.

## Theorems

* `resent_in_full`: What is visible and not held is lacked and has no base.
* `stale_fold`: A run in which an entity is never sent again.
-/

namespace EarthRise

namespace Sim

open Universe Run

namespace Pipeline

/-- The client received a live record of the entity that is past every tombstone of
    it, received or under way. -/
def HeldForGood (p : Pipeline) (n : NetId) : Prop :=
  ∃ q ∈ p.received, q.Carries n ∧
    ∀ q' ∈ p.received ++ p.flight, q'.Evicts n → q'.snap.tick < q.snap.tick

instance (p : Pipeline) (n : NetId) : Decidable (p.HeldForGood n) :=
  inferInstanceAs (Decidable (∃ q ∈ _, _))

/-- An acknowledgement adds only entities that the client holds for good. -/
def FoldsHeld (p : Pipeline) : PipelineLabel → Prop
  | .ack tick => ∀ x ∈ p.tables.baseline.pending.entries, x.1 ≤ tick →
      ∀ e ∈ x.2, (p.tables.baseline.acked.find? e.1).isSome = true ∨ p.HeldForGood e.1
  | _ => True

instance (p : Pipeline) : ∀ l : PipelineLabel, Decidable (p.FoldsHeld l)
  | .ack _ => inferInstanceAs (Decidable (∀ x ∈ _, _))
  | .world _ | .send _ _ _ | .deliver _ | .drop _ => isTrue trivial

/-- An acknowledged entity is held, with no eviction under way that would be news;
    a known one is acknowledged; and the two tables stage the same entities. -/
structure Kept (p : Pipeline) : Prop where
  held : ∀ n, (p.tables.baseline.acked.find? n).isSome = true →
    (p.client.slot n).1.isSome = true ∧ ∀ q ∈ p.flight, q.Evicts n → Late p.client q n
  known : ∀ n, (p.tables.known.known.find? n).isSome = true →
    (p.tables.baseline.acked.find? n).isSome = true
  staged : p.tables.known.pending.map (·.map SnapshotEntity.netId) =
    p.tables.baseline.pending.map (·.map Prod.fst)

section Steps

variable (sqrt : ℚ → ℚ) (clientId : NetId) (p : Pipeline) (weights : RelevanceWeights)
  (cap budget : Nat)

/-- The states of a list of living entities are states of just these. -/
theorem filterMap_alive (u : ServerUniverse) (l : List NetId) (h : ∀ n ∈ l, u.Alive n) :
    (l.filterMap u.snapshotEntityOf).map SnapshotEntity.netId = l := by
  induction l with
  | nil => rfl
  | cons n l ih =>
      rcases u.snapshotEntityOf_of_alive n (h n List.mem_cons_self) with ⟨cur, hcur, hid⟩
      rw [List.filterMap_cons_some hcur, List.map_cons, hid,
        ih fun m hm => h m (List.mem_cons_of_mem n hm)]

/-- Recording a snapshot stages the same entities in both tables. -/
theorem staged_recordSent (b : ClientBaseline) (k : ClientKnownState) (tick : Nat)
    (sent : List (NetId × Nat)) (states : List SnapshotEntity)
    (hids : states.map SnapshotEntity.netId = sent.map Prod.fst)
    (h : k.pending.map (·.map SnapshotEntity.netId) = b.pending.map (·.map Prod.fst)) :
    (k.recordSent tick states).pending.map (·.map SnapshotEntity.netId) =
      (b.recordSent tick sent).pending.map (·.map Prod.fst) := by
  have hnil : states = [] ↔ sent = [] := by
    rw [← List.map_eq_nil_iff (f := SnapshotEntity.netId), hids, List.map_eq_nil_iff]
  unfold ClientKnownState.recordSent ClientBaseline.recordSent
  by_cases hs : sent = []
  · rw [if_pos hs, if_pos (hnil.mpr hs)]
    exact h
  · rw [if_neg hs, if_neg (fun hc => hs (hnil.mp hc))]
    simp only [OrdMap.map_dropOldest, OrdMap.map_insert, h, hids]

theorem kept_send (h : Linked clientId p) (hk : p.Kept) :
    (p.sendSnapshot sqrt clientId weights cap budget).Kept := by
  rcases p.server.tombstonesFor_spec clientId p.tables with ⟨hspec, _⟩
  have hnew := sound_buildPacket sqrt clientId p weights cap budget h.server_ok
  have hacked : ∀ n, ((p.sendSnapshot sqrt clientId weights cap
      budget).tables.baseline.acked.find? n).isSome = true →
      n ∈ p.server.interest.visibleTo clientId ∧
        (p.tables.baseline.acked.find? n).isSome = true := by
    intro n hn
    have hn' : ((p.server.tombstonesFor clientId p.tables).2.baseline.acked.find? n).isSome =
        true := by
      rw [← acked_buildPacket sqrt clientId p weights cap budget]
      exact hn
    rw [hspec.acked] at hn'
    by_cases hv : n ∈ p.server.interest.visibleTo clientId
    · rw [if_pos hv] at hn'
      exact ⟨hv, hn'⟩
    · rw [if_neg hv] at hn'
      exact absurd hn' (by simp)
  refine ⟨fun n hn => ?_, fun n hn => ?_, ?_⟩
  · rcases hacked n hn with ⟨hv, ha⟩
    refine ⟨(hk.held n ha).1, fun q hq hev => ?_⟩
    rcases List.mem_append.mp hq with hq | hq
    · exact (hk.held n ha).2 q hq hev
    · -- The new packet evicts only what is out of sight.
      rw [List.mem_singleton.mp hq] at hev
      rcases hev with ⟨r, hr, ht⟩
      rcases Packet.recordOf_mem _ n r hr with ⟨hmem, hid⟩
      exact absurd hv (hid ▸ hnew.tomb r hmem ht)
  · have hn' : ((p.server.tombstonesFor clientId p.tables).2.known.known.find? n).isSome = true := by
      rw [← known_buildPacket sqrt clientId p weights cap budget]
      exact hn
    show ((p.buildPacket sqrt clientId weights cap budget).2.baseline.acked.find? n).isSome = true
    rw [acked_buildPacket, hspec.acked]
    rw [hspec.known] at hn'
    by_cases hgone : n ∉ p.server.interest.visibleTo clientId ∧
        (p.tables.baseline.acked.find? n).isSome = true
    · rw [if_pos hgone] at hn'
      exact absurd hn' (by simp)
    · rw [if_neg hgone] at hn'
      have ha := hk.known n hn'
      have hv : n ∈ p.server.interest.visibleTo clientId := by
        by_contra hv
        exact hgone ⟨hv, ha⟩
      rw [if_pos hv]
      exact ha
  · refine staged_recordSent _ _ _ _ _ ?_ ?_
    · rw [filterMap_alive, List.map_map, List.map_id'']
      · intro n
        rfl
      · intro n hn
        rcases List.mem_map.mp hn with ⟨r, hr, rfl⟩
        rw [List.mem_filter, Bool.not_eq_true'] at hr
        exact p.server.alive_of_visible h.server_ok clientId _ (hnew.live r hr.1 hr.2).1
    · show (p.server.tombstonesFor clientId p.tables).2.known.pending.map _ =
        (p.server.tombstonesFor clientId p.tables).2.baseline.pending.map _
      rw [hspec.pending, hspec.knownPending]
      exact hk.staged

theorem kept_deliver (hk : p.Kept) (st' : DeltaDecodeState) (q : Packet) (hq : q ∈ p.flight)
    (hslot : ∀ n, st'.slot n = (q.recordOf n).elim (p.client.slot n)
      fun r => (p.client.slot n).touch q.snap.tick r.wire) :
    Kept { p with client := st', received := p.received ++ [q] } := by
  refine ⟨fun n hn => ?_, hk.known, hk.staged⟩
  rcases hk.held n hn with ⟨hheld, hlate⟩
  refine ⟨?_, fun q' hq' hev => late_mono p.client st' q q' n (hslot n) (hlate q' hq' hev)⟩
  rcases slot_cases p.client st' q n (hslot n) with ⟨hsame, _⟩ | ⟨r, hr, hnews, _, hcopy⟩
  · simp only [hsame]
    exact hheld
  · simp only [hcopy]
    cases ht : r.mask.tomb with
    | false => rfl
    | true => exact absurd (hlate q hq ⟨r, hr, ht⟩) hnews

/-- What the client holds for good, it holds. -/
theorem held_of_heldForGood (h : Linked clientId p) (n : NetId) (hg : p.HeldForGood n) :
    (p.client.slot n).1.isSome = true ∧ ∀ q ∈ p.flight, q.Evicts n → Late p.client q n := by
  rcases hg with ⟨q, hq, ⟨r, hr, _⟩, hlast⟩
  rcases h.view n with ⟨_, hnone⟩ | ⟨q0, hq0, r0, hr0, htick, hcopy, hmax⟩
  · rw [hnone q hq] at hr
    exact absurd hr nofun
  · have hle := hmax q hq (by rw [hr]; rfl)
    constructor
    · rw [hcopy]
      cases ht : r0.mask.tomb with
      | false => rfl
      | true =>
          have := hlast q0 (List.mem_append_left _ hq0) ⟨r0, hr0, ht⟩
          omega
    · intro q' hq' hev
      have := hlast q' (List.mem_append_right _ hq') hev
      rw [late_iff p.client q' n _ htick]
      omega

theorem kept_ack (h : Linked clientId p) (hk : p.Kept) (tick : Nat)
    (hg : p.FoldsHeld (.ack tick)) : Kept { p with tables := p.tables.ackClient tick } := by
  refine ⟨fun n hn => ?_, fun n hn => ?_, ?_⟩
  · rcases (p.tables.baseline.acked_ack_isSome tick n).mp hn with ha | ⟨v, hv⟩
    · exact hk.held n ha
    · rcases (mem_baselineStaged _ tick (n, v)).mp hv with ⟨s, l, hl, hs, he⟩
      rcases hg (s, l) ((OrdMap.mem_entries _ _ _).mpr hl) hs (n, v) he with ha | hgood
      · exact hk.held n ha
      · exact held_of_heldForGood clientId p h n hgood
  · refine (p.tables.baseline.acked_ack_isSome tick n).mpr ?_
    rcases (p.tables.known.known_ack_isSome tick n).mp hn with hknown | ⟨e, he, hid⟩
    · exact Or.inl (hk.known n hknown)
    · -- A staged state has its version staged under the same tick.
      right
      rcases (mem_knownStaged _ tick e).mp he with ⟨s, l, hl, hs, hel⟩
      have hmap : (p.tables.baseline.pending.map (·.map Prod.fst)).find? s =
          some (l.map SnapshotEntity.netId) := by
        rw [← hk.staged, OrdMap.find?_map, hl]
        rfl
      rw [OrdMap.find?_map, Option.map_eq_some_iff] at hmap
      rcases hmap with ⟨l', hl', hids⟩
      have hin : n ∈ l'.map Prod.fst := by
        rw [hids, ← hid]
        exact List.mem_map_of_mem hel
      rcases List.mem_map.mp hin with ⟨x, hx, hxn⟩
      exact ⟨x.2, (mem_baselineStaged _ tick _).mpr ⟨s, l', hl', hs, hxn ▸ hx⟩⟩
  · show (p.tables.known.pending.filter fun t _ => ¬ t ≤ tick).map _ =
      (p.tables.baseline.pending.filter fun t _ => ¬ t ≤ tick).map _
    rw [OrdMap.map_filter, OrdMap.map_filter, hk.staged]

theorem kept_step (l : PipelineLabel) (p' : Pipeline) (h : Linked clientId p) (hk : p.Kept)
    (hg : p.FoldsHeld l) (hstep : step sqrt clientId p l = some p') : p'.Kept := by
  cases l with
  | world ops =>
      rw [step, Option.some.injEq] at hstep
      rw [← hstep]
      exact ⟨hk.held, hk.known, hk.staged⟩
  | send weights cap budget =>
      rw [step, Option.some.injEq] at hstep
      rw [← hstep]
      exact kept_send sqrt clientId p weights cap budget h hk
  | deliver i =>
      rcases step_deliver sqrt clientId p h i p' hstep with ⟨q, hi, st', rfl, hslot⟩
      exact kept_deliver p hk st' q (List.mem_of_getElem? hi) hslot
  | drop i =>
      rw [step_drop sqrt clientId p i p' hstep]
      refine ⟨fun n hn => ⟨(hk.held n hn).1, fun q hq => ?_⟩, hk.known, hk.staged⟩
      exact (hk.held n hn).2 q (List.mem_of_mem_eraseIdx hq)
  | ack tick =>
      rw [(step_ack sqrt clientId p h tick p' hstep).1]
      exact kept_ack clientId p h hk tick hg

end Steps

/-- In every run whose counters do not wrap and whose acknowledgements add only
    what the client holds for good, whatever is visible and not held by the client
    is lacked, and its record is made without a base and carries every field. -/
theorem resent_in_full (sqrt : ℚ → ℚ) (clientId : NetId) (tick : Fin 4294967295) (p : Pipeline)
    (h : Reaches (step sqrt clientId) (fun p l => p.NoWrap l ∧ p.FoldsHeld l) (start tick) p)
    (n : NetId) (hn : n ∈ p.server.interest.visibleTo clientId)
    (hgone : p.client.entities.find? n = none) :
    n ∈ p.server.changedFor clientId p.tables ∧ p.tables.known.base n = none ∧
      ∃ cur r, p.server.snapshotEntityOf n = some cur ∧ p.server.liveRecord p.tables n = some r ∧
        r.mask = DeltaMask.full ∧ r.toFields = cur.fields := by
  have hinv : Linked clientId p ∧ p.Kept := by
    refine Reaches.invariant (I := fun p => Linked clientId p ∧ p.Kept) ?_ h
      ⟨linked_start clientId tick, ⟨fun n hn => ?_, fun n hn => ?_, rfl⟩⟩
    · intro p l p' hI hg hstep
      exact ⟨linked_step sqrt clientId p l p' hI.1 hg.1 hstep,
        kept_step sqrt clientId p l p' hI.1 hI.2 hg.2 hstep⟩
    · exact absurd hn (by simp [start, ClientTables.fresh, ClientBaseline.fresh])
    · exact absurd hn (by simp [start, ClientTables.fresh, ClientKnownState.fresh])
  rcases hinv with ⟨hl, hk⟩
  have hacked : p.tables.baseline.acked.find? n = none := by
    cases ha : p.tables.baseline.acked.find? n with
    | none => rfl
    | some a =>
        have hheld := (hk.held n (by rw [ha]; rfl)).1
        have hslot : (p.client.slot n).1 = none := hgone
        rw [hslot] at hheld
        exact absurd hheld (by simp)
  have hbase : p.tables.known.base n = none := by
    unfold ClientKnownState.base
    cases hb : p.tables.known.known.find? n with
    | none => rfl
    | some e =>
        have ha := hk.known n (by rw [hb]; rfl)
        rw [hacked] at ha
        exact absurd ha (by simp)
  have halive := p.server.alive_of_visible hl.server_ok clientId n hn
  rcases p.server.snapshotEntityOf_of_alive n halive with ⟨cur, hcur, _⟩
  refine ⟨List.mem_filter.mpr ⟨hn, decide_eq_true ?_⟩, hbase, cur, makeDeltaRecord cur none, hcur,
    ?_, rfl, rfl⟩
  · unfold ClientBaseline.ackedVersion
    rw [hacked]
    exact p.server.version_pos_of_alive hl.server_ok n halive
  · unfold ServerUniverse.liveRecord
    rw [hcur, hbase]
    exact if_neg full_ne_none

/-- The sample base after it has moved six sectors away. -/
def sampleBaseAway : Entity :=
  { sampleBase 100 5 with repl := { (sampleBase 100 5).repl with pos := ⟨100000, 200, 300⟩ } }

/-- The run of a base that leaves a prop behind and comes back, every body delivered
    and acknowledged. -/
theorem resent_in_full_prop : ∃ p, Reaches (step id 1) (fun p l => p.NoWrap l ∧ p.FoldsHeld l)
      (start 0) p ∧ (∃ q ∈ p.received, q.Evicts 2) ∧
    2 ∈ p.server.changedFor 1 p.tables ∧ p.tables.known.base 2 = none ∧
      ∃ cur r, p.server.snapshotEntityOf 2 = some cur ∧ p.server.liveRecord p.tables 2 = some r ∧
        r.mask = DeltaMask.full ∧ r.toFields = cur.fields := by
  rcases exists_of_runGuarded (m := step id 1) (G := fun p l => p.NoWrap l ∧ p.FoldsHeld l)
    (s := start 0)
    (b := fun p => decide (∃ q ∈ p.received, q.Evicts 2) &&
      (decide (2 ∈ p.server.interest.visibleTo 1) && decide (p.client.entities.find? 2 = none)))
    [.world [.spawn (sampleBase 100 5), .spawn (sampleProp 500)], sampleSend, .deliver 0, .ack 1,
      .world [.mutate 1 sampleBaseAway], sampleSend, .deliver 1, .ack 2,
      .world [.mutate 1 (sampleBase 100 5)]] (by decide +kernel) with ⟨p, hp, hb⟩
  rw [Bool.and_eq_true, Bool.and_eq_true] at hb
  exact ⟨p, hp, of_decide_eq_true hb.1, resent_in_full id 1 0 p hp 2 (of_decide_eq_true hb.2.1)
    (of_decide_eq_true hb.2.2)⟩

/-- A change of the prop is applied, and its acknowledgement arrives only after the
    base has left and the prop's tombstone is applied. The acknowledgement folds
    the change back in; when the base comes back, the server takes the client to
    hold the prop as it is. -/
theorem stale_fold : ∃ p, Reaches (step id 1) free (start 0) p ∧ p.flight.isEmpty = true ∧
    (∃ q ∈ p.received, q.Evicts 2) ∧ 2 ∈ p.server.interest.visibleTo 1 ∧
    p.client.entities.find? 2 = none ∧ 2 ∉ p.server.changedFor 1 p.tables := by
  rcases exists_of_runLabels (m := step id 1) (s := start 0)
    (b := fun p => p.flight.isEmpty && (decide (∃ q ∈ p.received, q.Evicts 2) &&
      (decide (2 ∈ p.server.interest.visibleTo 1) &&
        (decide (p.client.entities.find? 2 = none) &&
          decide (2 ∉ p.server.changedFor 1 p.tables)))))
    [.world [.spawn (sampleBase 100 5), .spawn (sampleProp 500)], sampleSend, .deliver 0, .ack 1,
      .world [.mutate 2 (sampleProp 600)], sampleSend, .deliver 1,
      .world [.mutate 1 sampleBaseAway], sampleSend, .deliver 2, .ack 2,
      .world [.mutate 1 (sampleBase 100 5)], .drop 0, .drop 0, .drop 0] (by decide +kernel) with
    ⟨p, hp, hb⟩
  simp only [Bool.and_eq_true, decide_eq_true_eq] at hb
  exact ⟨p, hp, hb.1, hb.2.1, hb.2.2.1, hb.2.2.2.1, hb.2.2.2.2⟩

end Pipeline

end Sim

end EarthRise
