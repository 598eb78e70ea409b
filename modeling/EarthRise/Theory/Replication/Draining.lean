import EarthRise.Lib.Execution
import EarthRise.Theory.Replication.Convergence

/-!
# Draining What a Client Lacks

Whether a client ends up with everything when the world stands still.

A tick is answered when its snapshot is delivered and acknowledged before the next
one. After a first such tick nothing is staged any more, and a quiet tick, one that
changes nothing for the client, does two things only (`Settles`): what its snapshot
sends arrives and is up to date, and everything else stays as it was. The number of
lacked entities therefore falls, as long as something lacked can be sent.

It cannot always. The versions count every change of the exact fields, and the
records compare the quantized ones, so an entity can be lacked with nothing to send:
`never_drained` is about one that moved by a millimetre. Others were taken for
acknowledged with an old copy. `Drainable` says that neither is the case, and it is
exactly what the end of the ticks depends on.

## Main definitions

* `Pipeline.answered`: A tick whose snapshot is answered.
* `Pipeline.QuietTick`: One that changes nothing for the client.
* `Pipeline.Settles`: What a quiet tick does.
* `Pipeline.Drainable`, `Pipeline.Drained`: Before the ticks and after them.

## Theorems

* `settles_of_quietTick`: The effect of a quiet tick.
* `drained_iff`: When enough quiet ticks drain.
* `never_drained`: A run that never drains.
-/

namespace EarthRise

namespace Sim

open Universe Run

namespace Pipeline

section Build

variable (sqrt : ℚ → ℚ) (clientId : NetId) (p : Pipeline) (weights : RelevanceWeights)
  (cap budget : Nat)

/-- A snapshot of a budget in range has no more records than the count can say. -/
theorem length_records (hb : budget < 327690) :
    (p.buildPacket sqrt clientId weights cap budget).1.snap.records.length < 2 ^ 16 := by
  have hsum : ∀ rs : List DeltaRecord, 40 * rs.length ≤ (rs.map deltaRecordBits).sum := by
    intro rs
    induction rs with
    | nil => exact Nat.le_refl 0
    | cons r rs ih =>
        have hr := (deltaRecordBits_bounds r).1
        rw [List.length_cons, List.map_cons, List.sum_cons]
        omega
  have hfits : ∀ rs, (takeWhileFits budget deltaHeaderBits rs).1.length < 2 ^ 16 := by
    intro rs
    have hlen := hsum (takeWhileFits budget deltaHeaderBits rs).1
    unfold deltaHeaderBits at hlen ⊢
    rcases takeWhileFits_fits budget (32 + 32 + 16) rs with hnil | hle
    · rw [hnil, List.length_nil]
      omega
    · omega
  exact hfits _

/-- The client reads every record of a snapshot that is not too long. -/
theorem read_of_length (q : Packet) (h : q.snap.records.length < 2 ^ 16) :
    q.read = q.snap.records := by
  unfold Packet.read
  rw [Nat.mod_eq_of_lt h, List.take_length]

/-- A live record of a built snapshot is of a lacked entity, against its base. -/
theorem live_record (h : p.server.Ok) (r : DeltaRecord)
    (hr : r ∈ (p.buildPacket sqrt clientId weights cap budget).1.snap.records)
    (ht : r.mask.tomb = false) :
    r.netId ∈ p.server.changedFor clientId p.tables ∧ r.mask ≠ DeltaMask.none ∧
      ∃ cur, p.server.snapshotEntityOf r.netId = some cur ∧
        r = makeDeltaRecord cur (p.tables.known.base r.netId) := by
  rcases p.server.build_split sqrt clientId weights cap budget p.tables with ⟨rest, hsplit, _⟩
  have hmem := hsplit ▸ List.mem_append_left rest hr
  rcases List.mem_append.mp hmem with hlive | htomb
  · rcases p.server.mem_liveRecords sqrt clientId weights cap p.tables r hlive with
      ⟨n, cur, hn, hcur, hrec, hmask⟩
    have hvis := p.server.visible_of_changed clientId p.tables n hn
    rcases p.server.snapshotEntityOf_of_alive n
      (p.server.alive_of_visible h clientId n hvis) with ⟨cur', hcur', hid⟩
    rw [hcur, Option.some.injEq] at hcur'
    have hrid : r.netId = n := by rw [hrec, makeDeltaRecord_netId, hcur', hid]
    rw [hrid]
    exact ⟨hn, hmask, cur, hcur, hrec⟩
  · rcases List.mem_map.mp htomb with ⟨n, _, rfl⟩
    exact absurd (show true = false from ht) (by decide)

/-- What the client reads of an entity that a snapshot sends. -/
theorem recordOf_of_sends (h : p.server.Ok) (hb : budget < 327690) (n : NetId)
    (hs : (p.buildPacket sqrt clientId weights cap budget).1.Sends n) :
    n ∈ p.server.changedFor clientId p.tables ∧ ∃ cur, p.server.snapshotEntityOf n = some cur ∧
      (p.buildPacket sqrt clientId weights cap budget).1.recordOf n =
        some (makeDeltaRecord cur (p.tables.known.base n)) ∧
      (makeDeltaRecord cur (p.tables.known.base n)).mask ≠ DeltaMask.none := by
  have hsound := sound_buildPacket sqrt clientId p weights cap budget h
  have hread := read_of_length _ (length_records sqrt clientId p weights cap budget hb)
  have hvis := hsound.visible hs
  rcases hs with ⟨r, hr, hn, ht⟩
  rcases live_record sqrt clientId p weights cap budget h r hr ht with
    ⟨hch, hmask, cur, hcur, hrec⟩
  rw [hn] at hch hcur hrec
  refine ⟨hch, cur, hcur, ?_, hrec ▸ hmask⟩
  have hsome : ((p.buildPacket sqrt clientId weights cap budget).1.recordOf n).isSome = true := by
    unfold Packet.recordOf
    rw [hread, List.find?_isSome]
    exact ⟨r, hr, decide_eq_true hn⟩
  rcases Option.isSome_iff_exists.mp hsome with ⟨r', hr'⟩
  rcases Packet.recordOf_mem _ n r' hr' with ⟨hmem', hn'⟩
  -- Every record of a visible entity is live, and all of them are made alike.
  cases ht' : r'.mask.tomb with
  | true => exact absurd (hn' ▸ hvis) (hsound.tomb r' hmem' ht')
  | false =>
      rcases live_record sqrt clientId p weights cap budget h r' hmem' ht' with
        ⟨_, _, cur', hcur', hrec'⟩
      rw [hn'] at hcur' hrec'
      rw [hcur, Option.some.injEq] at hcur'
      rw [hr', hrec', hcur']

/-- The client reads nothing of a visible entity that a snapshot does not send. -/
theorem recordOf_of_not_sends (h : p.server.Ok) (n : NetId)
    (hvis : n ∈ p.server.interest.visibleTo clientId)
    (hs : ¬ (p.buildPacket sqrt clientId weights cap budget).1.Sends n) :
    (p.buildPacket sqrt clientId weights cap budget).1.recordOf n = none := by
  have hsound := sound_buildPacket sqrt clientId p weights cap budget h
  cases hr : (p.buildPacket sqrt clientId weights cap budget).1.recordOf n with
  | none => rfl
  | some r =>
      rcases Packet.recordOf_mem _ n r hr with ⟨hmem, hn⟩
      cases ht : r.mask.tomb with
      | true => exact absurd (hn ▸ hvis) (hsound.tomb r hmem ht)
      | false => exact absurd ⟨r, hmem, hn, ht⟩ hs

/-- Something lacked is sent when nothing lacked is without a change to send and
    the budget has room for a full record. -/
theorem sends_of_lacked (h : p.server.Ok) (hb : 46 ≤ budget)
    (hlack : p.server.changedFor clientId p.tables ≠ [])
    (hmask : ∀ n ∈ p.server.changedFor clientId p.tables, ∀ cur,
      p.server.snapshotEntityOf n = some cur →
        (makeDeltaRecord cur (p.tables.known.base n)).mask ≠ DeltaMask.none) :
    ∃ n ∈ p.server.changedFor clientId p.tables,
      (p.buildPacket sqrt clientId weights cap budget).1.Sends n := by
  have halive : ∀ n ∈ p.server.changedFor clientId p.tables,
      ∃ cur, p.server.snapshotEntityOf n = some cur ∧ cur.netId = n := fun n hn =>
    p.server.snapshotEntityOf_of_alive n
      (p.server.alive_of_visible h clientId n (p.server.visible_of_changed clientId p.tables n hn))
  -- The candidates, their ranking and its cut are not empty.
  have hcands : (p.server.changedFor clientId p.tables).filterMap
      (p.server.candidate sqrt clientId p.tables) ≠ [] := by
    rcases List.exists_mem_of_ne_nil _ hlack with ⟨n, hn⟩
    rcases halive n hn with ⟨cur, hcur, _⟩
    intro hnil
    rw [List.filterMap_eq_nil_iff] at hnil
    have hnone := hnil n hn
    unfold ServerUniverse.candidate at hnone
    rw [hcur, Option.map_some] at hnone
    exact absurd hnone nofun
  have hordered : (scheduleClient ((p.server.changedFor clientId p.tables).filterMap
      (p.server.candidate sqrt clientId p.tables)) weights cap).ordered ≠ [] := by
    have hlen := List.length_pos_iff.mpr hcands
    unfold scheduleClient
    simp only
    intro hnil
    rw [List.map_eq_nil_iff, List.take_eq_nil_iff, ← List.length_eq_zero_iff,
      List.length_insertionSort] at hnil
    split at hnil <;> omega
  rcases List.exists_cons_of_ne_nil hordered with ⟨n, rest, hcons⟩
  have hn : n ∈ p.server.changedFor clientId p.tables := by
    rcases ServerUniverse.mem_ordered _ weights cap n (hcons ▸ List.mem_cons_self) with
      ⟨c, hc, rfl⟩
    rcases List.mem_filterMap.mp hc with ⟨m, hm, hcand⟩
    rw [ServerUniverse.candidate_netId sqrt _ clientId _ m c hcand]
    exact hm
  rcases halive n hn with ⟨cur, hcur, hid⟩
  have hne := hmask n hn cur hcur
  -- So the first live record is one of a lacked entity, and it fits.
  have hlive : p.server.liveRecord p.tables n =
      some (makeDeltaRecord cur (p.tables.known.base n)) := by
    unfold ServerUniverse.liveRecord
    rw [hcur]
    exact if_neg hne
  refine ⟨n, hn, makeDeltaRecord cur (p.tables.known.base n), ?_, ?_, makeDeltaRecord_tomb _ _⟩
  · have hbits := (deltaRecordBits_bounds (makeDeltaRecord cur (p.tables.known.base n))).2
    have hhead : ∃ rs, (p.buildPacket sqrt clientId weights cap budget).1.snap.records =
        (takeWhileFits budget deltaHeaderBits
          (makeDeltaRecord cur (p.tables.known.base n) :: rs)).1 := by
      refine ⟨rest.filterMap (p.server.liveRecord p.tables) ++
        (p.server.tombstonesFor clientId p.tables).1.map tombstoneRecord, ?_⟩
      unfold buildPacket ServerUniverse.buildClientSnapshot buildBudgetedSnapshot
      simp only [hcons, List.filterMap_cons_some hlive, List.cons_append]
    rcases hhead with ⟨rs, hrs⟩
    rw [hrs]
    refine takeWhileFits_head budget deltaHeaderBits _ rs hne ?_
    unfold deltaHeaderBits
    omega
  · rw [makeDeltaRecord_netId, hid]

/-- What a sent snapshot stages in the table of states is of the moment. -/
theorem knownPending_buildPacket (s : Nat) (l : List SnapshotEntity)
    (hl : (p.buildPacket sqrt clientId weights cap budget).2.known.pending.find? s = some l) :
    (s = p.server.tick ∧ ∀ e ∈ l, ∃ n,
      (p.buildPacket sqrt clientId weights cap budget).1.Sends n ∧
        p.server.snapshotEntityOf n = some e) ∨ p.tables.known.pending.find? s = some l := by
  rcases p.server.tombstonesFor_spec clientId p.tables with ⟨hspec, _⟩
  have hl' : ((p.server.tombstonesFor clientId p.tables).2.known.recordSent p.server.tick
      ((((p.buildPacket sqrt clientId weights cap budget).1.snap.records.filter fun r =>
        !r.mask.tomb).map DeltaRecord.netId).filterMap
          p.server.snapshotEntityOf)).pending.find? s = some l := hl
  unfold ClientKnownState.recordSent at hl'
  rw [← hspec.knownPending]
  split at hl'
  · exact Or.inr hl'
  · have hfind := OrdMap.find?_dropOldest _ _ _ _ hl'
    rw [OrdMap.find?_insert] at hfind
    by_cases hs : s = p.server.tick
    · rw [if_pos hs, Option.some.injEq] at hfind
      refine Or.inl ⟨hs, fun e he => ?_⟩
      rw [← hfind, List.mem_filterMap] at he
      rcases he with ⟨n, hn, hcur⟩
      rcases List.mem_map.mp hn with ⟨r, hr, hid⟩
      rw [List.mem_filter, Bool.not_eq_true'] at hr
      exact ⟨n, ⟨r, hr.1, hid, hr.2⟩, hcur⟩
    · rw [if_neg hs] at hfind
      exact Or.inr hfind

/-- Nothing is staged. -/
def NothingStaged (p : Pipeline) : Prop :=
  p.tables.baseline.pending.entries = [] ∧ p.tables.known.pending.entries = []

/-- A snapshot that sends something stages it, when nothing was staged before. -/
theorem staged_of_sends (hnone : p.NothingStaged) (n : NetId)
    (hs : (p.buildPacket sqrt clientId weights cap budget).1.Sends n) :
    (n, p.server.replVersion n) ∈
      (p.buildPacket sqrt clientId weights cap budget).2.baseline.staged p.server.tick := by
  rcases p.server.tombstonesFor_spec clientId p.tables with ⟨hspec, _⟩
  rcases hs with ⟨r, hr, hid, ht⟩
  have hkeep : ∀ (b : ClientBaseline) (t : Nat) (l : List (NetId × Nat)) (ids : List NetId),
      b.pending.entries = [] → l ≠ [] →
        ((b.recordSent t l).recordTombstonesSent t ids).pending.entries = [(t, l)] := by
    intro b t l ids hb hl
    unfold ClientBaseline.recordTombstonesSent ClientBaseline.recordSent
    rw [if_neg hl]
    simp [OrdMap.dropOldest, OrdMap.insert, hb, maxPending]
  have hsent : (n, p.server.replVersion n) ∈
      (((p.buildPacket sqrt clientId weights cap budget).1.snap.records.filter fun r =>
        !r.mask.tomb).map DeltaRecord.netId).map fun n => (n, p.server.replVersion n) :=
    List.mem_map_of_mem (List.mem_map.mpr
      ⟨r, List.mem_filter.mpr ⟨hr, by rw [ht]; rfl⟩, hid⟩)
  have hentries := hkeep (p.server.tombstonesFor clientId p.tables).2.baseline p.server.tick _
    (((p.buildPacket sqrt clientId weights cap budget).1.snap.records.filter fun r =>
      r.mask.tomb).map DeltaRecord.netId) (hspec.pending ▸ hnone.1) (List.ne_nil_of_mem hsent)
  rw [mem_baselineStaged]
  refine ⟨p.server.tick, _, ?_, Nat.le_refl _, hsent⟩
  rw [← OrdMap.mem_entries]
  exact hentries ▸ List.mem_singleton_self _

theorem find?_of_nothingStaged (hnone : p.NothingStaged) (s : Nat) :
    p.tables.baseline.pending.find? s = none ∧ p.tables.known.pending.find? s = none := by
  refine ⟨(OrdMap.find?_eq_none _ _).mpr fun v hv => ?_, (OrdMap.find?_eq_none _ _).mpr fun v hv => ?_⟩
  · rw [hnone.1] at hv
    exact List.not_mem_nil hv
  · rw [hnone.2] at hv
    exact List.not_mem_nil hv

/-- An acknowledged snapshot brings what it sends up to date, when nothing else was
    staged. -/
theorem acked_of_sends (hok : p.server.Ok) (hb : budget < 327690) (hnone : p.NothingStaged)
    (n : NetId) (hs : (p.buildPacket sqrt clientId weights cap budget).1.Sends n) :
    ((p.buildPacket sqrt clientId weights cap budget).2.ackClient
      p.server.tick).baseline.acked.find? n = some (p.server.replVersion n) := by
  have hch := (recordOf_of_sends sqrt clientId p weights cap budget hok hb n hs).1
  have hlack : p.tables.baseline.ackedVersion n < p.server.replVersion n :=
    of_decide_eq_true (List.mem_filter.mp hch).2
  have hstaged := staged_of_sends sqrt clientId p weights cap budget hnone n hs
  rcases ClientBaseline.le_acked_ack _ _ n _ hstaged with ⟨a, ha, hle⟩
  have ha' : ((p.buildPacket sqrt clientId weights cap budget).2.ackClient
      p.server.tick).baseline.acked.find? n = some a := ha
  rcases ClientBaseline.acked_ack _ _ n a ha with hold | hnew
  · -- The version acknowledged before is behind.
    rw [acked_buildPacket, (p.server.tombstonesFor_spec clientId p.tables).1.acked,
      if_pos (p.server.visible_of_changed clientId p.tables n hch)] at hold
    unfold ClientBaseline.ackedVersion at hlack
    rw [hold, Option.getD_some] at hlack
    omega
  · rcases (mem_baselineStaged _ _ _).mp hnew with ⟨s, l, hl, _, hmem⟩
    rcases staged_buildPacket sqrt clientId p weights cap budget s l hl with ⟨_, hver⟩ | hold
    · exact ha'.trans (congrArg some (hver (n, a) hmem).2.symm)
    · rw [(find?_of_nothingStaged p hnone s).1] at hold
      exact absurd hold nofun

/-- And it leaves the tables of every other visible entity as they were. -/
theorem tables_of_not_sends (hnone : p.NothingStaged) (n : NetId)
    (hvis : n ∈ p.server.interest.visibleTo clientId)
    (hs : ¬ (p.buildPacket sqrt clientId weights cap budget).1.Sends n) :
    ((p.buildPacket sqrt clientId weights cap budget).2.ackClient
        p.server.tick).baseline.ackedVersion n = p.tables.baseline.ackedVersion n ∧
      ((p.buildPacket sqrt clientId weights cap budget).2.ackClient
        p.server.tick).known.base n = p.tables.known.base n := by
  rcases p.server.tombstonesFor_spec clientId p.tables with ⟨hspec, _⟩
  -- Nothing that is folded is of this entity.
  have hversions : ∀ e ∈ (p.buildPacket sqrt clientId weights cap budget).2.baseline.staged
      p.server.tick, e.1 ≠ n := by
    intro e he hn
    rcases (mem_baselineStaged _ _ _).mp he with ⟨s, l, hl, _, hmem⟩
    rcases staged_buildPacket sqrt clientId p weights cap budget s l hl with ⟨_, hver⟩ | hold
    · exact hs (hn ▸ (hver e hmem).1)
    · rw [(find?_of_nothingStaged p hnone s).1] at hold
      exact absurd hold nofun
  have hstates : ∀ e ∈ (p.buildPacket sqrt clientId weights cap budget).2.known.staged
      p.server.tick, e.netId ≠ n := by
    intro e he hn
    rcases (mem_knownStaged _ _ _).mp he with ⟨s, l, hl, _, hmem⟩
    rcases knownPending_buildPacket sqrt clientId p weights cap budget s l hl with
      ⟨_, hsent⟩ | hold
    · rcases hsent e hmem with ⟨m, hm, hcur⟩
      unfold ServerUniverse.snapshotEntityOf at hcur
      rcases Option.map_eq_some_iff.mp hcur with ⟨_, _, rfl⟩
      exact hs (hn ▸ hm)
    · rw [(find?_of_nothingStaged p hnone s).2] at hold
      exact absurd hold nofun
  have hacked := ClientBaseline.ackedVersion_ack _ _ n hversions
  have hbase := ClientKnownState.base_ack _ _ n hstates
  have hknown := hspec.known n
  rw [if_neg (fun h => h.1 hvis)] at hknown
  unfold ClientTables.ackClient
  constructor
  · rw [hacked]
    unfold ClientBaseline.ackedVersion
    rw [acked_buildPacket, hspec.acked, if_pos hvis]
  · rw [hbase]
    unfold ClientKnownState.base
    rw [known_buildPacket, hknown]

end Build

/-- What is staged is staged under ticks that have been. -/
def StagedBefore (p : Pipeline) : Prop :=
  (∀ s l, p.tables.baseline.pending.find? s = some l → s ≤ p.server.tick) ∧
    ∀ s l, p.tables.known.pending.find? s = some l → s ≤ p.server.tick

/-- One tick: the changes to the world, and how the snapshot is built. -/
structure Tick where
  ops : List WorldOp
  weights : RelevanceWeights
  visibleCap : Nat
  byteBudget : Nat

/-- A tick whose snapshot is delivered and acknowledged before the next one. -/
def answered (sqrt : ℚ → ℚ) (clientId : NetId) (p : Pipeline) (t : Tick) : Option Pipeline :=
  runLabels (step sqrt clientId) p [.world t.ops, .send t.weights t.visibleCap t.byteBudget,
    .deliver p.flight.length, .ack (p.server.step t.ops).tick]

/-- What the client sees stays as it is, and so does what it sees of it. -/
def Still (clientId : NetId) (u u' : ServerUniverse) : Prop :=
  u'.interest.visibleTo clientId = u.interest.visibleTo clientId ∧
    ∀ n ∈ u.interest.visibleTo clientId, u'.snapshotEntityOf n = u.snapshotEntityOf n

instance (clientId : NetId) (u u' : ServerUniverse) : Decidable (Still clientId u u') :=
  have : Decidable (∀ n ∈ u.interest.visibleTo clientId,
      u'.snapshotEntityOf n = u.snapshotEntityOf n) := List.decidableBAll _ _
  inferInstanceAs (Decidable (_ ∧ _))

section Answers

variable (sqrt : ℚ → ℚ) (clientId : NetId) (p : Pipeline)

theorem stagedBefore_step (l : PipelineLabel) (p' : Pipeline) (h : Linked clientId p)
    (hb : p.StagedBefore) (hw : p.NoWrap l) (hstep : step sqrt clientId p l = some p') :
    p'.StagedBefore := by
  cases l with
  | world ops =>
      rw [step, Option.some.injEq] at hstep
      have htick := p.server.tick_step ops h.server_ok hw
      rw [← hstep]
      refine ⟨fun s l hl => ?_, fun s l hl => ?_⟩
      · have := hb.1 s l hl
        simp only [htick]
        omega
      · have := hb.2 s l hl
        simp only [htick]
        omega
  | send weights cap budget =>
      rw [step, Option.some.injEq] at hstep
      rw [← hstep]
      refine ⟨fun s l hl => ?_, fun s l hl => ?_⟩
      · rcases staged_buildPacket sqrt clientId p weights cap budget s l hl with ⟨hs, _⟩ | hold
        · exact Nat.le_of_eq hs
        · exact hb.1 s l hold
      · rcases knownPending_buildPacket sqrt clientId p weights cap budget s l hl with
          ⟨hs, _⟩ | hold
        · exact Nat.le_of_eq hs
        · exact hb.2 s l hold
  | deliver i =>
      rcases step_deliver sqrt clientId p h i p' hstep with ⟨q, _, st', rfl, _⟩
      exact hb
  | drop i =>
      rw [step_drop sqrt clientId p i p' hstep]
      exact hb
  | ack tick =>
      rw [(step_ack sqrt clientId p h tick p' hstep).1]
      refine ⟨fun s l hl => hb.1 s l ?_, fun s l hl => hb.2 s l ?_⟩
      · have hl' : (p.tables.baseline.pending.filter fun t _ => ¬ t ≤ tick).find? s = some l := hl
        rw [OrdMap.find?_filter, Option.filter_eq_some_iff] at hl'
        exact hl'.1
      · have hl' : (p.tables.known.pending.filter fun t _ => ¬ t ≤ tick).find? s = some l := hl
        rw [OrdMap.find?_filter, Option.filter_eq_some_iff] at hl'
        exact hl'.1

theorem stagedBefore_of_nothingStaged (h : p.NothingStaged) : p.StagedBefore := by
  refine ⟨fun s l hl => ?_, fun s l hl => ?_⟩
  · rw [(find?_of_nothingStaged p h s).1] at hl
    exact absurd hl nofun
  · rw [(find?_of_nothingStaged p h s).2] at hl
    exact absurd hl nofun

/-- An acknowledgement of the present tick leaves nothing staged. -/
theorem nothingStaged_ack (h : p.StagedBefore) :
    NothingStaged { p with tables := p.tables.ackClient p.server.tick } := by
  constructor
  · show (p.tables.baseline.pending.filter fun t _ => ¬ t ≤ p.server.tick).entries = []
    refine List.filter_eq_nil_iff.mpr fun x hx hlate => ?_
    exact (of_decide_eq_true hlate) (h.1 x.1 x.2 ((OrdMap.mem_entries _ _ _).mp hx))
  · show (p.tables.known.pending.filter fun t _ => ¬ t ≤ p.server.tick).entries = []
    refine List.filter_eq_nil_iff.mpr fun x hx hlate => ?_
    exact (of_decide_eq_true hlate) (h.2 x.1 x.2 ((OrdMap.mem_entries _ _ _).mp hx))

/-- A packet of a tick that is still to come is late for nothing. -/
theorem not_late_new (h : Linked clientId p) (q : Packet) (hq : p.server.tick < q.snap.tick)
    (n : NetId) : ¬ Late p.client q n := by
  rcases h.view n with ⟨hempty, _⟩ | ⟨q0, hq0, _, _, htick, _⟩
  · exact not_late_of_none p.client q n (by rw [hempty])
  · have hsent := h.received q0 hq0
    have hle := (h.later q0 hsent).tick
    have hsame := (h.sound q0 hsent).tick
    rw [late_iff p.client q n _ htick]
    omega

/-- A tick is always answered, and this is what the answer leads to. -/
theorem answered_eq (h : Linked clientId p) (t : Tick) (hw : p.server.NoWrap t.ops) :
    ∃ p' q, answered sqrt clientId p t = some p' ∧ Linked clientId p' ∧
      (p.StagedBefore → p'.NothingStaged) ∧
      let p1 := { p with server := p.server.step t.ops }
      let built := p1.buildPacket sqrt clientId t.weights t.visibleCap t.byteBudget
      q = built.1 ∧ p'.server = p1.server ∧ p'.tables = built.2.ackClient p1.server.tick ∧
        ∀ n, p'.client.slot n =
          (q.recordOf n).elim (p.client.slot n) fun r => (p.client.slot n).touch q.snap.tick r.wire := by
  generalize hp1 : ({ p with server := p.server.step t.ops } : Pipeline) = p1
  generalize hbuilt : p1.buildPacket sqrt clientId t.weights t.visibleCap t.byteBudget = built
  generalize hp2 : ({ p1 with
    tables := built.2, flight := p1.flight ++ [built.1], sent := p1.sent ++ [built.1] } :
      Pipeline) = p2
  have hserver : p1.server = p.server.step t.ops := by rw [← hp1]
  have hflight : p2.flight[p.flight.length]? = some built.1 := by
    rw [← hp2, ← hp1]
    simp
  have hclient : p2.client = p.client := by rw [← hp2, ← hp1]
  -- The four steps, one after the other.
  have hs1 : step sqrt clientId p (.world t.ops) = some p1 := by rw [step, hp1]
  have h1 := linked_step sqrt clientId p (.world t.ops) p1 h hw hs1
  have hs2 : step sqrt clientId p1 (.send t.weights t.visibleCap t.byteBudget) = some p2 := by
    rw [step, sendSnapshot, hbuilt, hp2]
  have h2 := linked_step sqrt clientId p1 (.send t.weights t.visibleCap t.byteBudget) p2 h1
    trivial hs2
  have hsound : built.1.Sound clientId := by
    rw [← hbuilt]
    exact sound_buildPacket sqrt clientId p1 t.weights t.visibleCap t.byteBudget h1.server_ok
  have htick : built.1.snap.tick = p1.server.tick := by
    rw [← hbuilt]
    rfl
  rcases hsound.slot p2.client with ⟨st', happly, hslot⟩
  have hs3 : step sqrt clientId p2 (.deliver p.flight.length) =
      some { p2 with client := st', received := p2.received ++ [built.1] } := by
    unfold step
    simp only [hflight, happly]
  have h3 := linked_step sqrt clientId p2 (.deliver p.flight.length) _ h2 trivial hs3
  have hs4 : step sqrt clientId { p2 with client := st', received := p2.received ++ [built.1] }
      (.ack p1.server.tick) = some { p2 with
        client := st', received := p2.received ++ [built.1]
        tables := p2.tables.ackClient p1.server.tick } := by
    have hgot : ∃ q ∈ p2.received ++ [built.1],
        (decodeDeltaSnapshot q.body).map DeltaSnapshot.tick = some p1.server.tick := by
      refine ⟨built.1, List.mem_append_right _ (List.mem_singleton_self _), ?_⟩
      rw [hsound.decode, Option.map_some, htick]
    exact if_pos hgot
  have h4 := linked_step sqrt clientId _ (.ack p1.server.tick) _ h3 trivial hs4
  have htables : p2.tables = built.2 := by rw [← hp2]
  have hserver2 : p2.server = p1.server := by rw [← hp2]
  refine ⟨_, built.1, ?_, h4, fun hb => ?_, by rw [hbuilt], hserver2, by rw [htables, hbuilt],
    fun n => ?_⟩
  · unfold answered
    rw [← hserver]
    simp only [runLabels, hs1, hs2, hs3, hs4, Option.bind_some]
  · have hb1 := stagedBefore_step sqrt clientId p (.world t.ops) p1 h hb hw hs1
    have hb2 := stagedBefore_step sqrt clientId p1 (.send t.weights t.visibleCap t.byteBudget) p2
      h1 hb1 trivial hs2
    have hb3 := stagedBefore_step sqrt clientId p2 (.deliver p.flight.length) _ h2 hb2 trivial hs3
    have hnone := nothingStaged_ack _ hb3
    rw [← hserver2]
    exact hnone
  · rw [← hclient]
    exact hslot n

end Answers

/-- A tick that changes nothing for the client and wraps no counter, and whose
    snapshot has room for a full record, but not for more than can be counted. -/
def Quiet (clientId : NetId) (p : Pipeline) (t : Tick) : Prop :=
  p.server.NoWrap t.ops ∧ Still clientId p.server (p.server.step t.ops) ∧
    46 ≤ t.byteBudget ∧ t.byteBudget < 327690

instance (clientId : NetId) (p : Pipeline) (t : Tick) : Decidable (p.Quiet clientId t) :=
  inferInstanceAs (Decidable (_ ∧ _ ∧ _ ∧ _))

/-- A quiet tick that is answered. -/
def QuietTick (sqrt : ℚ → ℚ) (clientId : NetId) (p p' : Pipeline) : Prop :=
  ∃ t, p.Quiet clientId t ∧ answered sqrt clientId p t = some p'

/-- What a quiet tick does: what is sent arrives and is up to date, and all else of
    what the client sees stays. -/
structure Settles (clientId : NetId) (p p' : Pipeline) (sends : NetId → Prop) : Prop where
  linked : Linked clientId p'
  nothingStaged : p'.NothingStaged
  visible : p'.server.interest.visibleTo clientId = p.server.interest.visibleTo clientId
  same : ∀ n ∈ p.server.interest.visibleTo clientId,
    p'.server.snapshotEntityOf n = p.server.snapshotEntityOf n
  sent : ∀ n, sends n → n ∈ p.server.changedFor clientId p.tables ∧
    n ∉ p'.server.changedFor clientId p'.tables ∧
    ∃ cur, p.server.snapshotEntityOf n = some cur ∧
      (makeDeltaRecord cur (p.tables.known.base n)).mask ≠ DeltaMask.none ∧
      p'.client.entities.find? n = some (DeltaDecodeState.overwrite (p.copyOf n)
        (makeDeltaRecord cur (p.tables.known.base n)).wire)
  kept : ∀ n ∈ p.server.interest.visibleTo clientId, ¬ sends n →
    (n ∈ p'.server.changedFor clientId p'.tables ↔ n ∈ p.server.changedFor clientId p.tables) ∧
    p'.tables.known.base n = p.tables.known.base n ∧ p'.client.slot n = p.client.slot n
  progress : p.server.changedFor clientId p.tables ≠ [] →
    (∀ n ∈ p.server.changedFor clientId p.tables, ∀ cur, p.server.snapshotEntityOf n = some cur →
      (makeDeltaRecord cur (p.tables.known.base n)).mask ≠ DeltaMask.none) →
    ∃ n ∈ p.server.changedFor clientId p.tables, sends n

section Quiet

variable (sqrt : ℚ → ℚ) (clientId : NetId) (p p' : Pipeline)

/-- A version stands still with its entity. -/
theorem version_of_still (u : ServerUniverse) (ops : List WorldOp) (h : u.Ok)
    (hw : u.NoWrap ops) (hstill : Still clientId u (u.step ops)) (n : NetId)
    (hn : n ∈ u.interest.visibleTo clientId) : (u.step ops).replVersion n = u.replVersion n := by
  have halive := u.alive_of_visible h clientId n hn
  have halive' := (u.step ops).alive_of_visible (u.ok_step ops h hw) clientId n (hstill.1 ▸ hn)
  rcases (u.alive_iff n).mp halive with ⟨e, he⟩
  rcases (ServerUniverse.alive_iff _ n).mp halive' with ⟨e', he'⟩
  -- The fields are those that the entity was stamped with.
  have hfields : e'.repl = e.repl := by
    have hsame := hstill.2 n hn
    unfold ServerUniverse.snapshotEntityOf at hsame
    rw [he, he', Option.map_some, Option.map_some, Option.some.injEq] at hsame
    unfold ServerUniverse.makeSnapshotEntity at hsame
    rw [SnapshotEntity.mk.injEq] at hsame
    rcases hsame with ⟨_, hkind, hpos, hoff, hhp, hshape, howner⟩
    cases hr : e.repl
    cases hr' : e'.repl
    simp_all
  rcases h.stamped n e he with ⟨s, hs, hlast, _, _⟩
  rcases u.mid_ops ops u (u.mid_refl h) hw.2 with ⟨hmid, _⟩
  have hold := (hmid.old n halive' (h.ids n halive)).2
  unfold ServerUniverse.replVersion ReplicationStamps.version
  rw [u.repl_step, he', hold, hs, Option.elim_some, Option.elim_some, Option.elim_some, hfields]
  unfold ReplicationStamps.stampEntry
  simp only [if_pos hlast]

theorem changedFor_of_still (u : ServerUniverse) (ops : List WorldOp) (t : ClientTables) (h : u.Ok)
    (hw : u.NoWrap ops) (hstill : Still clientId u (u.step ops)) :
    (u.step ops).changedFor clientId t = u.changedFor clientId t := by
  unfold ServerUniverse.changedFor
  rw [hstill.1]
  refine List.filter_congr fun n hn => ?_
  rw [version_of_still clientId u ops h hw hstill n hn]

theorem settles_of_quietTick (h : Linked clientId p) (hnone : p.NothingStaged)
    (hq : QuietTick sqrt clientId p p') : ∃ sends, Settles clientId p p' sends := by
  rcases hq with ⟨t, ⟨hw, hstill, hlo, hhi⟩, hans⟩
  rcases answered_eq sqrt clientId p h t hw with ⟨p2, q, heq, hl', hn', hq, hserver, htables, hslot⟩
  rw [hans, Option.some.injEq] at heq
  subst heq
  have hok := p.server.ok_step t.ops h.server_ok hw
  have hvis : p'.server.interest.visibleTo clientId = p.server.interest.visibleTo clientId := by
    rw [hserver]
    exact hstill.1
  have hch := changedFor_of_still clientId p.server t.ops p.tables h.server_ok hw hstill
  generalize hp1 : ({ p with server := p.server.step t.ops } : Pipeline) = p1 at hq hserver htables
  have htab1 : p1.tables = p.tables := by rw [← hp1]
  have hsrv1 : p1.server = p.server.step t.ops := by rw [← hp1]
  have hnone1 : p1.NothingStaged := by
    rw [← hp1]
    exact hnone
  rw [← hsrv1] at hok hch hstill
  have hcur1 : ∀ n ∈ p.server.interest.visibleTo clientId,
      p1.server.snapshotEntityOf n = p.server.snapshotEntityOf n := hstill.2
  refine ⟨q.Sends, hl', hn' (stagedBefore_of_nothingStaged p hnone), hvis, ?_, ?_, ?_, ?_⟩
  · intro n hn
    rw [hserver]
    exact hcur1 n hn
  · intro n hs
    rw [hq] at hs
    rcases recordOf_of_sends sqrt clientId p1 _ _ _ hok hhi n hs with
      ⟨hlack, cur, hcur, hrec, hmask⟩
    have hacked := acked_of_sends sqrt clientId p1 _ _ _ hok hhi hnone1 n hs
    rw [htab1] at hlack hrec hmask
    rw [hch] at hlack
    have hn := p.server.visible_of_changed clientId p.tables n hlack
    refine ⟨hlack, ?_, cur, hcur1 n hn ▸ hcur, hmask, ?_⟩
    · intro hmem
      have hlt : p'.tables.baseline.ackedVersion n < p'.server.replVersion n :=
        of_decide_eq_true (List.mem_filter.mp hmem).2
      unfold ClientBaseline.ackedVersion at hlt
      rw [htables, hacked, hserver, Option.getD_some] at hlt
      exact absurd hlt (lt_irrefl _)
    · have hlate : ¬ Late p.client q n := by
        refine not_late_new clientId p h q ?_ n
        have htick : q.snap.tick = p1.server.tick := by
          rw [hq]
          rfl
        rw [htick, hsrv1, p.server.tick_step t.ops h.server_ok hw]
        omega
      have hslot' := hslot n
      rw [hq, hrec, Option.elim_some, ← hq, DeltaDecodeState.Slot.touch_fresh _ _ _ hlate,
        DeltaRecord.wire_mask, makeDeltaRecord_tomb, if_neg (by decide)] at hslot'
      exact congrArg Prod.fst hslot'
  · intro n hn hs
    rw [hq] at hs
    have hn1 : n ∈ p1.server.interest.visibleTo clientId := by rwa [hstill.1]
    rcases tables_of_not_sends sqrt clientId p1 _ _ _ hnone1 n hn1 hs with ⟨hacked, hbase⟩
    have hrec := recordOf_of_not_sends sqrt clientId p1 _ _ _ hok n hn1 hs
    rw [← htables, htab1] at hacked hbase
    refine ⟨?_, hbase, ?_⟩
    · rw [← hch]
      unfold ServerUniverse.changedFor ClientBaseline.needs
      rw [List.mem_filter, List.mem_filter, hserver, hacked]
    · rw [hslot n, hq, hrec]
      rfl
  · intro hne hmask
    rw [← hch, ← htab1] at hne
    rcases sends_of_lacked sqrt clientId p1 t.weights t.visibleCap t.byteBudget hok hlo hne
      (fun n hn cur hcur => by
        rw [htab1, hch] at hn
        rw [htab1]
        rw [hcur1 n (p.server.visible_of_changed clientId p.tables n hn)] at hcur
        exact hmask n hn cur hcur) with ⟨n, hn, hs⟩
    rw [htab1, hch] at hn
    exact ⟨n, hn, hq ▸ hs⟩

end Quiet

/-- The client's copy of an entity has its fields. -/
def HeldCurrent (p : Pipeline) (n : NetId) (cur : SnapshotEntity) : Prop :=
  ∃ e ∈ p.client.entities.find? n, e.fields = cur.fields

instance (p : Pipeline) (n : NetId) (cur : SnapshotEntity) : Decidable (p.HeldCurrent n cur) :=
  decidable_of_iff ((p.client.entities.find? n).any (fun e => e.fields = cur.fields) = true) <| by
    rw [Option.any_eq_true]
    simp only [decide_eq_true_eq]
    rfl

/-- The record of an entity is not empty and takes the client's copy to it. -/
def Mendable (p : Pipeline) (n : NetId) (cur : SnapshotEntity) : Prop :=
  (makeDeltaRecord cur (p.tables.known.base n)).mask ≠ DeltaMask.none ∧
    RecordFits (p.copyOf n) (makeDeltaRecord cur (p.tables.known.base n))

instance (p : Pipeline) (n : NetId) (cur : SnapshotEntity) : Decidable (p.Mendable n cur) :=
  inferInstanceAs (Decidable (_ ∧ _))

/-- What the client lacks can be mended, and what it does not lack it holds. -/
def Drainable (clientId : NetId) (p : Pipeline) : Prop :=
  ∀ n ∈ p.server.interest.visibleTo clientId, ∀ cur ∈ p.server.snapshotEntityOf n,
    (n ∈ p.server.changedFor clientId p.tables → p.Mendable n cur) ∧
      (n ∉ p.server.changedFor clientId p.tables → p.HeldCurrent n cur)

instance (clientId : NetId) (p : Pipeline) : Decidable (p.Drainable clientId) :=
  List.decidableBAll (fun n => ∀ cur ∈ p.server.snapshotEntityOf n,
    (n ∈ p.server.changedFor clientId p.tables → p.Mendable n cur) ∧
      (n ∉ p.server.changedFor clientId p.tables → p.HeldCurrent n cur)) _

/-- The client lacks nothing and holds everything it sees as it is. -/
def Drained (clientId : NetId) (p : Pipeline) : Prop :=
  p.server.changedFor clientId p.tables = [] ∧
    ∀ n ∈ p.server.interest.visibleTo clientId,
      ∃ cur, p.server.snapshotEntityOf n = some cur ∧ p.HeldCurrent n cur

section Drain

variable (sqrt : ℚ → ℚ) (clientId : NetId) (p p' : Pipeline)

theorem fitsInt32_of_wrap32 (c : Int) (h : wrap32 c = c) : FitsInt32 c := by
  have hlo := BitVec.le_toInt (BitVec.ofInt 32 c)
  have hhi := BitVec.toInt_lt (x := BitVec.ofInt 32 c)
  unfold wrap32 at h
  rw [h] at hlo hhi
  exact ⟨by simpa using hlo, by simpa using hhi⟩

/-- A record takes a copy to its entity exactly when it fits the copy. -/
theorem overwrite_current_iff (copy cur : SnapshotEntity) (base : Option SnapshotEntity) :
    (DeltaDecodeState.overwrite copy (makeDeltaRecord cur base).wire).fields = cur.fields ↔
      RecordFits copy (makeDeltaRecord cur base) := by
  have hq : (makeDeltaRecord cur base).qpos.All (· < quantSteps) := fields_qpos_lt cur
  have ht := makeDeltaRecord_tomb cur base
  rw [fields_overwrite_wire copy _ (makeDeltaRecord_pos cur base),
    ← makeDeltaRecord_toFields cur base]
  constructor
  · intro h
    have hsec : (makeDeltaRecord cur base).mask.sector = true →
        (makeDeltaRecord cur base).sector.All FitsInt32 := by
      intro hs
      have hfield := congrArg Fields.sector h
      unfold Fields.merge at hfield
      simp only [hs, if_true] at hfield
      have hwire : (makeDeltaRecord cur base).wire.sector =
          (makeDeltaRecord cur base).sector.map wrap32 := by
        unfold DeltaRecord.wire
        simp only [ht, hs, Bool.false_eq_true, if_false, if_true]
      rw [hwire] at hfield
      exact ⟨fitsInt32_of_wrap32 _ (congrArg Vec3.x hfield),
        fitsInt32_of_wrap32 _ (congrArg Vec3.y hfield),
        fitsInt32_of_wrap32 _ (congrArg Vec3.z hfield)⟩
    rw [merge_wire _ _ ht hq hsec] at h
    exact ⟨h, hsec⟩
  · intro h
    rw [merge_wire _ _ ht hq h.2]
    exact h.1

/-- A quiet tick makes nothing drainable and nothing undrainable. -/
theorem drainable_iff_of_settles (sends : NetId → Prop) (h : Settles clientId p p' sends) :
    Drainable clientId p' ↔ Drainable clientId p := by
  unfold Drainable
  rw [h.visible]
  refine forall_congr' fun n => forall_congr' fun hn => ?_
  rw [h.same n hn]
  refine forall_congr' fun cur => forall_congr' fun hcur => ?_
  rw [Option.mem_def] at hcur
  by_cases hs : sends n
  · rcases h.sent n hs with ⟨hlack, hnot, cur', hcur', hmask, hcopy⟩
    rw [hcur, Option.some.injEq] at hcur'
    rw [← hcur'] at hmask hcopy
    have hheld : p'.HeldCurrent n cur ↔ p.Mendable n cur := by
      unfold HeldCurrent Mendable
      rw [hcopy, ← overwrite_current_iff]
      simp only [Option.mem_def, Option.some.injEq, exists_eq_left', hmask, ne_eq,
        not_false_eq_true, true_and]
    simp only [hlack, hnot, not_true_eq_false, not_false_eq_true, false_implies, true_implies,
      true_and, and_true, hheld]
  · rcases h.kept n hn hs with ⟨hlack, hbase, hslot⟩
    have hcopy : p'.copyOf n = p.copyOf n := by
      unfold copyOf
      rw [hslot]
    have hfind : p'.client.entities.find? n = p.client.entities.find? n := congrArg Prod.fst hslot
    unfold Mendable HeldCurrent
    rw [hlack, hbase, hcopy, hfind]

/-- A quiet tick sends some of what is lacked, as long as all of it can be. -/
theorem lacks_less (sends : NetId → Prop) (h : Settles clientId p p' sends)
    (hd : Drainable clientId p) :
    (p'.server.changedFor clientId p'.tables).length ≤
      (p.server.changedFor clientId p.tables).length - 1 := by
  have hsub : ∀ n ∈ p.server.interest.visibleTo clientId,
      n ∈ p'.server.changedFor clientId p'.tables → n ∈ p.server.changedFor clientId p.tables := by
    intro n hn hlack
    by_cases hs : sends n
    · exact absurd hlack (h.sent n hs).2.1
    · exact (h.kept n hn hs).1.mp hlack
  have heq : p'.server.changedFor clientId p'.tables =
      (p.server.changedFor clientId p.tables).filter
        fun n => p'.tables.baseline.needs n (p'.server.replVersion n) := by
    unfold ServerUniverse.changedFor at hsub ⊢
    rw [List.filter_filter, h.visible]
    rw [h.visible] at hsub
    refine List.filter_congr fun n hn => ?_
    cases hneed : p'.tables.baseline.needs n (p'.server.replVersion n) with
    | false => simp
    | true =>
        have := (List.mem_filter.mp (hsub n hn (List.mem_filter.mpr ⟨hn, hneed⟩))).2
        simp [this]
  by_cases hnil : p.server.changedFor clientId p.tables = []
  · rw [heq, hnil]
    exact Nat.le_refl 0
  · -- The one that is sent is lacked no more.
    rcases h.progress hnil (fun n hn cur hcur =>
      ((hd n (p.server.visible_of_changed clientId p.tables n hn) cur hcur).1 hn).1) with
      ⟨n, hn, hs⟩
    have hlt : ((p.server.changedFor clientId p.tables).filter
        fun n => p'.tables.baseline.needs n (p'.server.replVersion n)).length <
          (p.server.changedFor clientId p.tables).length := by
      rw [List.length_filter_lt_length_iff_exists]
      refine ⟨n, hn, fun hneed => (h.sent n hs).2.1 ?_⟩
      rw [heq]
      exact List.mem_filter.mpr ⟨hn, hneed⟩
    rw [heq]
    omega

/-- What holds after the first answered tick of a run. -/
theorem settled_of_answered (tick : Fin 4294967295) (p0 p : Pipeline) (t : Tick)
    (h0 : Reaches (step sqrt clientId) (fun p l => p.NoWrap l) (start tick) p0)
    (hw : p0.server.NoWrap t.ops) (hans : answered sqrt clientId p0 t = some p) :
    Linked clientId p ∧ p.NothingStaged := by
  have hinv0 : Linked clientId p0 ∧ p0.StagedBefore := by
    refine Reaches.invariant (I := fun p => Linked clientId p ∧ p.StagedBefore) ?_ h0
      ⟨linked_start clientId tick, stagedBefore_of_nothingStaged _ ⟨rfl, rfl⟩⟩
    intro p l p' hI hg hstep
    exact ⟨linked_step sqrt clientId p l p' hI.1 hg hstep,
      stagedBefore_step sqrt clientId p l p' hI.1 hI.2 hg hstep⟩
  rcases answered_eq sqrt clientId p0 hinv0.1 t hw with ⟨p1, _, heq, hl, hnone, _⟩
  rw [hans, Option.some.injEq] at heq
  rw [heq]
  exact ⟨hl, hnone hinv0.2⟩

/-- In the state after the first answered tick, with as many quiet ticks to come as
    there are lacked entities: the client ends up lacking nothing and holding
    everything as it is if and only if what it lacks can be mended and what it does
    not lack it holds. -/
theorem drained_iff (sqrt : ℚ → ℚ) (clientId : NetId) (tick : Fin 4294967295)
    (p0 p p' : Pipeline) (t : Tick) (k : Nat)
    (h0 : Reaches (step sqrt clientId) (fun p l => p.NoWrap l) (start tick) p0)
    (hw : p0.server.NoWrap t.ops) (hans : answered sqrt clientId p0 t = some p)
    (hr : Rounds (QuietTick sqrt clientId) k p p')
    (hk : (p.server.changedFor clientId p.tables).length ≤ k) :
    Drained clientId p' ↔ Drainable clientId p := by
  have hinv := settled_of_answered sqrt clientId tick p0 p t h0 hw hans
  have hpres : ∀ p p', Linked clientId p ∧ p.NothingStaged → QuietTick sqrt clientId p p' →
      Linked clientId p' ∧ p'.NothingStaged := by
    intro p p' hI hq
    rcases settles_of_quietTick sqrt clientId p p' hI.1 hI.2 hq with ⟨sends, hset⟩
    exact ⟨hset.linked, hset.nothingStaged⟩
  have hsame : ∀ p p', Linked clientId p ∧ p.NothingStaged → QuietTick sqrt clientId p p' →
      (Drainable clientId p' ↔ Drainable clientId p) := by
    intro p p' hI hq
    rcases settles_of_quietTick sqrt clientId p p' hI.1 hI.2 hq with ⟨sends, hset⟩
    exact drainable_iff_of_settles clientId p p' sends hset
  constructor
  · intro hdone
    refine Rounds.pullback hpres (fun p p' hI hq => (hsame p p' hI hq).mp) hr hinv ?_
    intro n hn cur hcur
    rcases hdone.2 n hn with ⟨cur', hcur', hheld⟩
    rw [Option.mem_def, hcur', Option.some.injEq] at hcur
    rw [hdone.1]
    exact ⟨fun h => absurd h List.not_mem_nil, fun _ => hcur ▸ hheld⟩
  · intro hd
    have hpres' : ∀ p p', (Linked clientId p ∧ p.NothingStaged) ∧ Drainable clientId p →
        QuietTick sqrt clientId p p' →
          (Linked clientId p' ∧ p'.NothingStaged) ∧ Drainable clientId p' :=
      fun p p' hI hq => ⟨hpres p p' hI.1 hq, (hsame p p' hI.1 hq).mpr hI.2⟩
    have hend := Rounds.invariant hpres' hr ⟨hinv, hd⟩
    have hempty : p'.server.changedFor clientId p'.tables = [] := by
      refine List.length_eq_zero_iff.mp (Rounds.vanishes
        (fun p : Pipeline => (p.server.changedFor clientId p.tables).length) hpres' ?_ hr
        ⟨hinv, hd⟩ hk)
      intro p p' hI hq
      rcases settles_of_quietTick sqrt clientId p p' hI.1.1 hI.1.2 hq with ⟨sends, hset⟩
      exact lacks_less clientId p p' sends hset hI.2
    refine ⟨hempty, fun n hn => ?_⟩
    rcases p'.server.snapshotEntityOf_of_alive n
      (p'.server.alive_of_visible hend.1.1.server_ok clientId n hn) with ⟨cur, hcur, _⟩
    refine ⟨cur, hcur, (hend.2 n hn cur hcur).2 ?_⟩
    rw [hempty]
    exact List.not_mem_nil

/-- What is lacked without anything to send. -/
def Stuck (clientId : NetId) (p : Pipeline) (n : NetId) : Prop :=
  n ∈ p.server.changedFor clientId p.tables ∧ ∀ cur ∈ p.server.snapshotEntityOf n,
    (makeDeltaRecord cur (p.tables.known.base n)).mask = DeltaMask.none

instance (clientId : NetId) (p : Pipeline) (n : NetId) : Decidable (p.Stuck clientId n) :=
  inferInstanceAs (Decidable (_ ∧ ∀ cur ∈ p.server.snapshotEntityOf n, _))

theorem stuck_of_settles (sends : NetId → Prop) (h : Settles clientId p p' sends) (n : NetId)
    (hn : p.Stuck clientId n) : p'.Stuck clientId n := by
  have hvis := p.server.visible_of_changed clientId p.tables n hn.1
  have hs : ¬ sends n := by
    intro hs
    rcases (h.sent n hs).2.2 with ⟨cur, hcur, hmask, _⟩
    exact hmask (hn.2 cur hcur)
  rcases h.kept n hvis hs with ⟨hlack, hbase, _⟩
  unfold Stuck
  rw [hlack, h.same n hvis, hbase]
  exact hn

end Drain

/-- A tick with nothing in it and the default snapshot. -/
def sampleTick : Tick :=
  { ops := [], weights := RelevanceWeights.default, visibleCap := 0, byteBudget := 1164 }

/-- The sample base moved by a millimetre. -/
def sampleNudged : Entity :=
  { sampleBase 100 5 with
    repl := { (sampleBase 100 5).repl with localOffset := ⟨1 / 1000, 0, 0⟩ } }

/-- A base and a prop under a cap of one: one more tick brings the prop. -/
theorem drained_iff_cap : ∃ p p', answered id 1 (start 0)
      { sampleTick with ops := [.spawn (sampleBase 100 5), .spawn (sampleProp 500)]
                        visibleCap := 1 } = some p ∧
    p.server.changedFor 1 p.tables = [2] ∧ Rounds (QuietTick id 1) 1 p p' ∧ Drained 1 p' := by
  have hrun : (answered id 1 (start 0)
      { sampleTick with ops := [.spawn (sampleBase 100 5), .spawn (sampleProp 500)]
                        visibleCap := 1 }).any (fun p =>
        decide (p.server.changedFor 1 p.tables = [2]) && (decide (p.Drainable 1) &&
          (runGuarded (answered id 1) (Quiet 1) p [sampleTick]).isSome)) = true := by
    decide +kernel
  rcases (Option.any_eq_true _ _).mp hrun with ⟨p, hp, hb⟩
  simp only [Bool.and_eq_true, decide_eq_true_eq] at hb
  rcases hb with ⟨hlack, hd, hsome⟩
  rcases Option.isSome_iff_exists.mp hsome with ⟨p', hp'⟩
  have hr : Rounds (QuietTick id 1) 1 p p' := rounds_of_runGuarded [sampleTick] hp'
  refine ⟨p, p', hp, hlack, hr, ?_⟩
  exact (drained_iff id 1 0 (start 0) p p' _ 1 Reaches.refl (by decide) hp hr
    (by rw [hlack]; exact Nat.le_refl 1)).mpr hd

/-- A base that has moved by less than a step of the quantization is lacked for
    good, however long the world stands still. -/
theorem never_drained : ∃ p0 p, Reaches (step id 1) (fun p l => p.NoWrap l) (start 0) p0 ∧
    answered id 1 p0 sampleTick = some p ∧ (∃ p', Rounds (QuietTick id 1) 3 p p') ∧
    ∀ k p', Rounds (QuietTick id 1) k p p' →
      1 ∈ p'.server.changedFor 1 p'.tables ∧ ¬ Drained 1 p' := by
  rcases exists_of_runGuarded (m := step id 1) (G := fun p l => p.NoWrap l) (s := start 0)
    (b := fun p0 => decide (p0.server.NoWrap sampleTick.ops) &&
      (answered id 1 p0 sampleTick).any (fun p => decide (Stuck 1 p 1) &&
        (runGuarded (answered id 1) (Quiet 1) p [sampleTick, sampleTick, sampleTick]).isSome))
    [.world [.spawn (sampleBase 100 5)], sampleSend, .deliver 0, .ack 1,
      .world [.mutate 1 sampleNudged]] (by decide +kernel) with ⟨p0, hp0, hb⟩
  rw [Bool.and_eq_true] at hb
  rcases (Option.any_eq_true _ _).mp hb.2 with ⟨p, hp, hb'⟩
  simp only [Bool.and_eq_true, decide_eq_true_eq] at hb'
  rcases Option.isSome_iff_exists.mp hb'.2 with ⟨p3, hp3⟩
  refine ⟨p0, p, hp0, hp, ⟨p3, rounds_of_runGuarded _ hp3⟩, fun k p' hr => ?_⟩
  have hinv := settled_of_answered id 1 0 p0 p sampleTick hp0 (of_decide_eq_true hb.1) hp
  have hstuck : (Linked 1 p' ∧ p'.NothingStaged) ∧ p'.Stuck 1 1 := by
    refine Rounds.invariant (I := fun p => (Linked 1 p ∧ p.NothingStaged) ∧ p.Stuck 1 1) ?_ hr
      ⟨hinv, hb'.1⟩
    intro p p' hI hq
    rcases settles_of_quietTick id 1 p p' hI.1.1 hI.1.2 hq with ⟨sends, hset⟩
    exact ⟨⟨hset.linked, hset.nothingStaged⟩, stuck_of_settles 1 p p' sends hset 1 hI.2⟩
  refine ⟨hstuck.2.1, fun hdone => ?_⟩
  have hmem := hstuck.2.1
  rw [hdone.1] at hmem
  exact List.not_mem_nil hmem

end Pipeline

end Sim

end EarthRise
