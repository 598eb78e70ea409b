import EarthRise.Core.Pipeline
import EarthRise.Lib.Run
import EarthRise.Theory.ClientTables
import EarthRise.Theory.ServerUniverse

/-!
# What Every Run of a Pipeline Keeps

The facts about the machine of one client that hold in every run whose counters do
not wrap, whatever the network loses, repeats and reorders.

A packet is `Sound`: its body encodes its snapshot, a live record carries the
fields that a visible entity had, and a tombstone is one of an entity out of
sight. `Linked` says that the packets come from moments of one universe in the
order of their ticks, that what is staged under a tick was sent at that tick, and
that the client's slot of every entity was decided by the latest record of it that
was received (`View`).

## Main definitions

* `Packet.recordOf`: The record of an entity that the client reads in a packet.
* `Packet.Sound`: What the server puts in a packet.
* `View`: Which received packet decided the client's slot of an entity.
* `Pipeline.Linked`: What every run keeps.

## Theorems

* `sound_buildPacket`: Every packet sent is sound.
* `view_deliver`: A delivery keeps the view.
* `linked_step`: A step that wraps no counter keeps `Linked`.
-/

namespace EarthRise

namespace Sim

open Universe Run

/-! ## Building a snapshot -/

namespace ServerUniverse

theorem mem_ordered (cands : List SchedCandidate) (w : RelevanceWeights) (cap : Nat) (n : NetId)
    (h : n ∈ (scheduleClient cands w cap).ordered) : ∃ c ∈ cands, c.netId = n := by
  unfold scheduleClient at h
  simp only [List.mem_map] at h
  rcases h with ⟨c, hc, rfl⟩
  exact ⟨c, (List.mem_insertionSort _).mp (List.mem_of_mem_take hc), rfl⟩

theorem candidate_netId (sqrt : ℚ → ℚ) (u : ServerUniverse) (clientId : NetId) (t : ClientTables)
    (n : NetId) (c : SchedCandidate) (h : u.candidate sqrt clientId t n = some c) :
    c.netId = n := by
  unfold candidate at h
  rw [Option.map_eq_some_iff] at h
  rcases h with ⟨cur, _, rfl⟩
  rfl

/-- A live record is made of an entity the client sees, against what it is known
    to hold. -/
theorem liveRecord_some (u : ServerUniverse) (t : ClientTables) (n : NetId) (r : DeltaRecord)
    (h : u.liveRecord t n = some r) :
    ∃ cur, u.snapshotEntityOf n = some cur ∧ r = makeDeltaRecord cur (t.known.base n) ∧
      r.mask ≠ DeltaMask.none := by
  unfold liveRecord at h
  cases hc : u.snapshotEntityOf n with
  | none =>
      rw [hc] at h
      exact absurd h nofun
  | some cur =>
      rw [hc] at h
      simp only at h
      by_cases hm : (makeDeltaRecord cur (t.known.base n)).mask = DeltaMask.none
      · rw [if_pos hm] at h
        exact absurd h nofun
      · rw [if_neg hm, Option.some.injEq] at h
        exact ⟨cur, rfl, h.symm, h ▸ hm⟩

variable (sqrt : ℚ → ℚ) (u : ServerUniverse) (clientId : NetId) (weights : RelevanceWeights)
  (cap budget : Nat) (t : ClientTables)

/-- The ranked and capped live records of a snapshot, before the byte budget. -/
def liveRecords : List DeltaRecord :=
  (scheduleClient ((u.changedFor clientId t).filterMap (u.candidate sqrt clientId t)) weights
    cap).ordered.filterMap (u.liveRecord t)

theorem mem_liveRecords (r : DeltaRecord)
    (h : r ∈ u.liveRecords sqrt clientId weights cap t) :
    ∃ n cur, n ∈ u.changedFor clientId t ∧ u.snapshotEntityOf n = some cur ∧
      r = makeDeltaRecord cur (t.known.base n) ∧ r.mask ≠ DeltaMask.none := by
  unfold liveRecords at h
  rw [List.mem_filterMap] at h
  rcases h with ⟨n, hn, hr⟩
  rcases mem_ordered _ _ _ n hn with ⟨c, hc, rfl⟩
  rw [List.mem_filterMap] at hc
  rcases hc with ⟨m, hm, hcand⟩
  rw [candidate_netId sqrt u clientId t m c hcand] at hr
  rcases liveRecord_some u t m r hr with ⟨cur, hcur, hrec, hmask⟩
  exact ⟨m, cur, hm, hcur, hrec, hmask⟩

/-- The live records and the tombstones are what is sent, and then what spills. -/
theorem build_split :
    ∃ rest, u.liveRecords sqrt clientId weights cap t ++
        (u.tombstonesFor clientId t).1.map tombstoneRecord =
      (u.buildClientSnapshot sqrt clientId weights cap budget t).1.snap.records ++ rest ∧
      (u.buildClientSnapshot sqrt clientId weights cap budget t).1.overflow =
        rest.map DeltaRecord.netId := by
  have hall : (u.liveRecords sqrt clientId weights cap t ++
      (u.tombstonesFor clientId t).1.map tombstoneRecord).filter
        (fun r => r.mask ≠ DeltaMask.none) =
      u.liveRecords sqrt clientId weights cap t ++
        (u.tombstonesFor clientId t).1.map tombstoneRecord := by
    rw [List.filter_eq_self]
    intro r hr
    rw [decide_eq_true_eq]
    rcases List.mem_append.mp hr with hr | hr
    · rcases mem_liveRecords sqrt u clientId weights cap t r hr with ⟨_, _, _, _, _, hm⟩
      exact hm
    · rcases List.mem_map.mp hr with ⟨n, _, rfl⟩
      exact (by decide : DeltaMask.tombstone ≠ DeltaMask.none)
  rcases takeWhileFits_spec budget deltaHeaderBits (u.liveRecords sqrt clientId weights cap t ++
      (u.tombstonesFor clientId t).1.map tombstoneRecord) with ⟨rest, hsplit, hspill⟩
  rw [hall] at hsplit
  exact ⟨rest, hsplit, hspill⟩

/-- A record of a built snapshot is one of a lacked entity or a pending tombstone. -/
theorem mem_records (r : DeltaRecord)
    (h : r ∈ (u.buildClientSnapshot sqrt clientId weights cap budget t).1.snap.records) :
    (∃ n cur, n ∈ u.changedFor clientId t ∧ u.snapshotEntityOf n = some cur ∧
      r = makeDeltaRecord cur (t.known.base n)) ∨
    ∃ n ∈ (u.tombstonesFor clientId t).1, r = tombstoneRecord n := by
  rcases build_split sqrt u clientId weights cap budget t with ⟨rest, hsplit, _⟩
  have hmem := hsplit ▸ List.mem_append_left rest h
  rcases List.mem_append.mp hmem with hlive | htomb
  · rcases mem_liveRecords sqrt u clientId weights cap t r hlive with ⟨n, cur, hn, hcur, hr, _⟩
    exact Or.inl ⟨n, cur, hn, hcur, hr⟩
  · rcases List.mem_map.mp htomb with ⟨n, hn, rfl⟩
    exact Or.inr ⟨n, hn, rfl⟩

/-- A pending tombstone is carried or spills. -/
theorem tombstone_carried_or_spilled (n : NetId) (h : n ∈ (u.tombstonesFor clientId t).1) :
    tombstoneRecord n ∈ (u.buildClientSnapshot sqrt clientId weights cap budget t).1.snap.records ∨
      n ∈ (u.buildClientSnapshot sqrt clientId weights cap budget t).1.overflow := by
  rcases build_split sqrt u clientId weights cap budget t with ⟨rest, hsplit, hspill⟩
  have hmem : tombstoneRecord n ∈ u.liveRecords sqrt clientId weights cap t ++
      (u.tombstonesFor clientId t).1.map tombstoneRecord :=
    List.mem_append_right _ (List.mem_map_of_mem h)
  rw [hsplit] at hmem
  rcases List.mem_append.mp hmem with hsent | hrest
  · exact Or.inl hsent
  · rw [hspill]
    exact Or.inr (List.mem_map.mpr ⟨tombstoneRecord n, hrest, rfl⟩)

theorem visible_of_changed (n : NetId) (h : n ∈ u.changedFor clientId t) :
    n ∈ u.interest.visibleTo clientId := (List.mem_filter.mp h).1

theorem not_visible_of_tombstone (n : NetId) (h : n ∈ (u.tombstonesFor clientId t).1) :
    n ∉ u.interest.visibleTo clientId := by
  rcases tombstonesFor_spec u clientId t with ⟨hspec, hout⟩
  rw [hout, OrdMap.mem_keys, hspec.tombstones] at h
  intro hv
  rw [if_pos hv] at h
  exact absurd h (by simp)

end ServerUniverse

/-! ## Packets -/

namespace Packet

/-- The records the client reads: the count has 16 bits. -/
def read (q : Packet) : List DeltaRecord :=
  q.snap.records.take (q.snap.records.length % 2 ^ 16)

/-- The record of an entity that the client reads first, the one that counts. -/
def recordOf (q : Packet) (n : NetId) : Option DeltaRecord := q.read.find? fun r => r.netId = n

/-- The packet has a live record of the entity. -/
def Sends (q : Packet) (n : NetId) : Prop :=
  ∃ r ∈ q.snap.records, r.netId = n ∧ r.mask.tomb = false

/-- The client reads a live record of the entity. -/
def Carries (q : Packet) (n : NetId) : Prop :=
  ∃ r, q.recordOf n = some r ∧ r.mask.tomb = false

/-- The client reads a tombstone of the entity. -/
def Evicts (q : Packet) (n : NetId) : Prop :=
  ∃ r, q.recordOf n = some r ∧ r.mask.tomb = true

instance (q : Packet) (n : NetId) : Decidable (q.Carries n) :=
  decidable_of_iff ((q.recordOf n).any (fun r => r.mask.tomb = false) = true) <| by
    rw [Option.any_eq_true]
    simp only [decide_eq_true_eq]
    rfl

instance (q : Packet) (n : NetId) : Decidable (q.Evicts n) :=
  decidable_of_iff ((q.recordOf n).any (fun r => r.mask.tomb = true) = true) <| by
    rw [Option.any_eq_true]
    simp only [decide_eq_true_eq]
    rfl

theorem recordOf_mem (q : Packet) (n : NetId) (r : DeltaRecord) (h : q.recordOf n = some r) :
    r ∈ q.snap.records ∧ r.netId = n :=
  ⟨List.mem_of_mem_take (List.mem_of_find?_eq_some h), by simpa using List.find?_some h⟩

/-- What the server puts in a packet for a client. -/
structure Sound (clientId : NetId) (q : Packet) : Prop where
  body : q.body = encodeDeltaSnapshot q.snap
  tick : q.snap.tick = q.server.tick
  ok : q.server.Ok
  live : ∀ r ∈ q.snap.records, r.mask.tomb = false →
    r.netId ∈ q.server.interest.visibleTo clientId ∧
    ∃ cur, q.server.snapshotEntityOf r.netId = some cur ∧ r.toFields = cur.fields ∧
      (r.mask.sector = true → r.mask.pos = true)
  tomb : ∀ r ∈ q.snap.records, r.mask.tomb = true →
    r.netId ∉ q.server.interest.visibleTo clientId

variable {q : Packet}

theorem Sound.tick_lt {clientId : NetId} (h : Sound clientId q) :
    q.snap.tick < unsent := by
  rw [h.tick]
  exact h.ok.tick_lt

theorem Carries.sends {n : NetId} (h : q.Carries n) : q.Sends n := by
  rcases h with ⟨r, hr, ht⟩
  rcases recordOf_mem q n r hr with ⟨hmem, hn⟩
  exact ⟨r, hmem, hn, ht⟩

theorem Sound.visible {clientId n : NetId} (h : Sound clientId q) (hq : q.Sends n) :
    n ∈ q.server.interest.visibleTo clientId := by
  rcases hq with ⟨r, hr, rfl, ht⟩
  exact (h.live r hr ht).1

theorem Sound.alive {clientId n : NetId} (h : Sound clientId q) (hq : q.Sends n) :
    q.server.Alive n := q.server.alive_of_visible h.ok clientId n (h.visible hq)

/-- What a sound body decodes to. -/
theorem Sound.decode {clientId : NetId} (h : Sound clientId q) :
    decodeDeltaSnapshot q.body =
      some { tick := q.snap.tick, records := q.read.map DeltaRecord.wire } := by
  have hlt := h.tick_lt
  unfold unsent at hlt
  rw [h.body, decode_encode, DeltaSnapshot.wire, Nat.mod_eq_of_lt (by omega)]
  rfl

/-- What a sound packet makes of the client's slot of an entity. -/
theorem Sound.slot {clientId : NetId} (h : Sound clientId q)
    (st : DeltaDecodeState) :
    ∃ st', st.apply q.body = some st' ∧ ∀ n, st'.slot n =
      (q.recordOf n).elim (st.slot n) fun r => (st.slot n).touch q.snap.tick r.wire := by
  unfold DeltaDecodeState.apply
  rw [h.decode, Option.map_some]
  refine ⟨_, rfl, fun n => ?_⟩
  rw [DeltaDecodeState.slot_applySnapshot]
  simp only [List.find?_map]
  have hfun : (fun r : DeltaRecord => decide (r.netId = n)) ∘ DeltaRecord.wire =
      fun r => decide (r.netId = n) := by
    funext r
    simp only [Function.comp_apply, DeltaRecord.wire_netId]
  rw [hfun]
  unfold recordOf
  cases q.read.find? fun r => decide (r.netId = n) with
  | none => rfl
  | some r => rfl

end Packet

/-! ## The client's view -/

/-- The client's slot of an entity is empty and no packet it received had a record
    of it, or the slot is what the latest such packet made it. -/
def View (st : DeltaDecodeState) (received : List Packet) (n : NetId) : Prop :=
  (st.slot n = (none, none) ∧ ∀ q ∈ received, q.recordOf n = none) ∨
  ∃ q ∈ received, ∃ r, q.recordOf n = some r ∧ (st.slot n).2 = some q.snap.tick ∧
    ((st.slot n).1.isSome = true ↔ r.mask.tomb = false) ∧
    ∀ q' ∈ received, (q'.recordOf n).isSome = true → q'.snap.tick ≤ q.snap.tick

/-- Whether a packet's records of an entity come too late for the client. -/
def Late (st : DeltaDecodeState) (q : Packet) (n : NetId) : Prop :=
  DeltaDecodeState.Slot.stale (st.slot n) q.snap.tick = true

instance (st : DeltaDecodeState) (q : Packet) (n : NetId) : Decidable (Late st q n) :=
  inferInstanceAs (Decidable (_ = true))

theorem late_iff (st : DeltaDecodeState) (q : Packet) (n : NetId) (L : Nat)
    (h : (st.slot n).2 = some L) : Late st q n ↔ q.snap.tick ≤ L := by
  unfold Late DeltaDecodeState.Slot.stale
  rw [h, Option.elim_some, decide_eq_true_eq]

theorem not_late_of_none (st : DeltaDecodeState) (q : Packet) (n : NetId)
    (h : (st.slot n).2 = none) : ¬ Late st q n := by
  unfold Late DeltaDecodeState.Slot.stale
  rw [h, Option.elim_none]
  exact Bool.false_ne_true

/-- What a delivery makes of one entity's slot: nothing without a record or with
    a late one, and otherwise what the record says. -/
theorem slot_cases (st st' : DeltaDecodeState) (q : Packet) (n : NetId)
    (h : st'.slot n = (q.recordOf n).elim (st.slot n) fun r => (st.slot n).touch q.snap.tick r.wire) :
    (st'.slot n = st.slot n ∧ (q.recordOf n = none ∨ Late st q n)) ∨
    ∃ r, q.recordOf n = some r ∧ ¬ Late st q n ∧ (st'.slot n).2 = some q.snap.tick ∧
      (st'.slot n).1 = if r.mask.tomb then none
        else some (DeltaDecodeState.overwrite ((st.slot n).1.getD SnapshotEntity.initial) r.wire) := by
  cases hr : q.recordOf n with
  | none =>
      rw [hr] at h
      exact Or.inl ⟨h, Or.inl rfl⟩
  | some r =>
      rw [hr, Option.elim_some] at h
      by_cases hl : Late st q n
      · rw [DeltaDecodeState.Slot.touch_stale _ _ _ hl] at h
        exact Or.inl ⟨h, Or.inr hl⟩
      · rw [DeltaDecodeState.Slot.touch_fresh _ _ _ hl, DeltaRecord.wire_mask] at h
        exact Or.inr ⟨r, rfl, hl, by rw [h], by rw [h]⟩

theorem view_deliver (st st' : DeltaDecodeState) (received : List Packet) (q : Packet) (n : NetId)
    (h : st'.slot n = (q.recordOf n).elim (st.slot n) fun r => (st.slot n).touch q.snap.tick r.wire)
    (hv : View st received n) : View st' (received ++ [q]) n := by
  rcases slot_cases st st' q n h with ⟨hsame, hquiet⟩ | ⟨r, hr, hlate, htick, hcopy⟩
  · rcases hv with ⟨hempty, hnone⟩ | ⟨q0, hq0, r0, hr0, htick, hcopy, hmax⟩
    · have hrec : q.recordOf n = none := by
        rcases hquiet with hrec | hlate
        · exact hrec
        · exact absurd hlate (not_late_of_none st q n (by rw [hempty]))
      refine Or.inl ⟨hsame.trans hempty, fun q' hq' => ?_⟩
      rcases List.mem_append.mp hq' with hq' | hq'
      · exact hnone q' hq'
      · rw [List.mem_singleton.mp hq', hrec]
    · refine Or.inr ⟨q0, List.mem_append_left _ hq0, r0, hr0, by rw [hsame]; exact htick,
        by rw [hsame]; exact hcopy, fun q' hq' hsome => ?_⟩
      rcases List.mem_append.mp hq' with hq' | hq'
      · exact hmax q' hq' hsome
      · rw [List.mem_singleton.mp hq'] at hsome ⊢
        rcases hquiet with hrec | hlate
        · rw [hrec] at hsome
          exact absurd hsome (by simp)
        · exact (late_iff st q n _ htick).mp hlate
  · -- The record is news, so its packet now decides the slot.
    refine Or.inr ⟨q, List.mem_append_right _ (List.mem_singleton_self q), r, hr, htick, ?_, ?_⟩
    · rw [hcopy]
      cases r.mask.tomb <;> simp
    · intro q' hq' hsome
      rcases List.mem_append.mp hq' with hq' | hq'
      · rcases hv with ⟨_, hnone⟩ | ⟨q0, _, _, _, htick0, _, hmax⟩
        · rw [hnone q' hq'] at hsome
          exact absurd hsome (by simp)
        · have hle := hmax q' hq' hsome
          have hnew := mt (late_iff st q n _ htick0).mpr hlate
          omega
      · rw [List.mem_singleton.mp hq']

/-- A delivery makes no packet less late. -/
theorem late_mono (st st' : DeltaDecodeState) (q q' : Packet) (n : NetId)
    (h : st'.slot n = (q.recordOf n).elim (st.slot n) fun r => (st.slot n).touch q.snap.tick r.wire)
    (hl : Late st q' n) : Late st' q' n := by
  rcases slot_cases st st' q n h with ⟨hsame, _⟩ | ⟨r, _, hlate, htick, _⟩
  · unfold Late at hl ⊢
    rwa [hsame]
  · rw [late_iff st' q' n _ htick]
    cases hlast : (st.slot n).2 with
    | none => exact absurd hl (not_late_of_none st q' n hlast)
    | some L =>
        rw [late_iff st q' n L hlast] at hl
        rw [late_iff st q n L hlast] at hlate
        omega

/-! ## Runs -/

namespace Pipeline

/-- What every run keeps whose counters do not wrap. -/
structure Linked (clientId : NetId) (p : Pipeline) : Prop where
  server_ok : p.server.Ok
  sound : ∀ q ∈ p.sent, q.Sound clientId
  flight : ∀ q ∈ p.flight, q ∈ p.sent
  received : ∀ q ∈ p.received, q ∈ p.sent
  later : ∀ q ∈ p.sent, q.server.Later p.server
  chain : ∀ q ∈ p.sent, ∀ q' ∈ p.sent, q.snap.tick ≤ q'.snap.tick → q.server.Later q'.server
  view : ∀ n, View p.client p.received n
  staged : ∀ s l, p.tables.baseline.pending.find? s = some l → ∀ e ∈ l,
    ∃ q ∈ p.sent, q.snap.tick = s ∧ q.Sends e.1 ∧ q.server.replVersion e.1 = e.2

/-- The step wraps no counter of the server. -/
def NoWrap (p : Pipeline) : PipelineLabel → Prop
  | .world ops => p.server.NoWrap ops
  | _ => True

instance (p : Pipeline) : ∀ l : PipelineLabel, Decidable (p.NoWrap l)
  | .world ops => inferInstanceAs (Decidable (p.server.NoWrap ops))
  | .send _ _ _ | .deliver _ | .drop _ | .ack _ => isTrue trivial

theorem linked_start (clientId : NetId) (tick : Fin 4294967295) : Linked clientId (start tick) where
  server_ok := ServerUniverse.ok_fresh tick
  sound q hq := absurd hq List.not_mem_nil
  flight q hq := absurd hq List.not_mem_nil
  received q hq := absurd hq List.not_mem_nil
  later q hq := absurd hq List.not_mem_nil
  chain q hq := absurd hq List.not_mem_nil
  view n := Or.inl ⟨rfl, fun q hq => absurd hq List.not_mem_nil⟩
  staged s l h := absurd h (by simp [start, ClientTables.fresh, ClientBaseline.fresh])

section Steps

variable (sqrt : ℚ → ℚ) (clientId : NetId) (p : Pipeline) (weights : RelevanceWeights)
  (cap budget : Nat)

theorem sound_buildPacket (h : p.server.Ok) :
    (p.buildPacket sqrt clientId weights cap budget).1.Sound clientId where
  body := rfl
  tick := rfl
  ok := h
  live r hr ht := by
    rcases p.server.mem_records sqrt clientId weights cap budget p.tables r hr with
      ⟨n, cur, hn, hcur, rfl⟩ | ⟨n, _, rfl⟩
    · have hvis := p.server.visible_of_changed clientId p.tables n hn
      rcases p.server.snapshotEntityOf_of_alive n
        (p.server.alive_of_visible h clientId n hvis) with ⟨cur', hcur', hid⟩
      rw [hcur, Option.some.injEq] at hcur'
      rw [← hcur'] at hid
      rw [makeDeltaRecord_netId, hid]
      exact ⟨hvis, cur, hcur, rfl, makeDeltaRecord_pos cur _⟩
    · exact absurd (show true = false from ht) (by decide)
  tomb r hr ht := by
    rcases p.server.mem_records sqrt clientId weights cap budget p.tables r hr with
      ⟨n, cur, hn, hcur, rfl⟩ | ⟨n, hn, rfl⟩
    · rw [makeDeltaRecord_tomb] at ht
      exact absurd ht Bool.false_ne_true
    · exact p.server.not_visible_of_tombstone clientId p.tables n hn

/-- What a sent snapshot stages is staged under its tick, with the versions of the
    moment. -/
theorem staged_buildPacket (s : Nat) (l : List (NetId × Nat))
    (h : (p.buildPacket sqrt clientId weights cap budget).2.baseline.pending.find? s = some l) :
    (s = p.server.tick ∧ ∀ e ∈ l, (p.buildPacket sqrt clientId weights cap budget).1.Sends e.1 ∧
      p.server.replVersion e.1 = e.2) ∨ p.tables.baseline.pending.find? s = some l := by
  rcases p.server.tombstonesFor_spec clientId p.tables with ⟨hspec, _⟩
  rcases find?_recordSent _ _ _ s l h with ⟨hs, hl⟩ | h
  · refine Or.inl ⟨hs, fun e he => ?_⟩
    rw [hl, List.map_map, List.mem_map] at he
    rcases he with ⟨r, hr, rfl⟩
    rw [List.mem_filter, Bool.not_eq_true'] at hr
    exact ⟨⟨r, hr.1, rfl, hr.2⟩, rfl⟩
  · exact Or.inr (hspec.pending ▸ h)

theorem acked_buildPacket :
    (p.buildPacket sqrt clientId weights cap budget).2.baseline.acked =
      (p.server.tombstonesFor clientId p.tables).2.baseline.acked := by
  have h : ∀ (b : ClientBaseline) (t : Nat) (l : List (NetId × Nat)),
      (b.recordSent t l).acked = b.acked := by
    intro b t l
    unfold ClientBaseline.recordSent
    split <;> rfl
  exact h _ _ _

theorem known_buildPacket :
    (p.buildPacket sqrt clientId weights cap budget).2.known.known =
      (p.server.tombstonesFor clientId p.tables).2.known.known := by
  have h : ∀ (k : ClientKnownState) (t : Nat) (l : List SnapshotEntity),
      (k.recordSent t l).known = k.known := by
    intro k t l
    unfold ClientKnownState.recordSent
    split <;> rfl
  exact h _ _ _

/-- What a delivery does. -/
theorem step_deliver (h : Linked clientId p) (i : Nat) (p' : Pipeline)
    (hstep : step sqrt clientId p (.deliver i) = some p') :
    ∃ q, p.flight[i]? = some q ∧ ∃ st',
      p' = { p with client := st', received := p.received ++ [q] } ∧ ∀ n, st'.slot n =
        (q.recordOf n).elim (p.client.slot n) fun r => (p.client.slot n).touch q.snap.tick r.wire := by
  unfold step at hstep
  simp only at hstep
  cases hq : p.flight[i]? with
  | none =>
      rw [hq] at hstep
      exact absurd hstep nofun
  | some q =>
      have hmem : q ∈ p.flight := List.mem_of_getElem? hq
      rcases (h.sound q (h.flight q hmem)).slot p.client with ⟨st', happly, hslot⟩
      rw [hq] at hstep
      simp only [happly, Option.some.injEq] at hstep
      exact ⟨q, rfl, st', hstep.symm, hslot⟩

theorem step_drop (i : Nat) (p' : Pipeline) (hstep : step sqrt clientId p (.drop i) = some p') :
    p' = { p with flight := p.flight.eraseIdx i } := by
  unfold step at hstep
  simp only at hstep
  by_cases hi : i < p.flight.length
  · rw [if_pos hi, Option.some.injEq] at hstep
    exact hstep.symm
  · rw [if_neg hi] at hstep
    exact absurd hstep nofun

/-- An acknowledgement is of the tick of a packet that was received. -/
theorem step_ack (h : Linked clientId p) (tick : Nat) (p' : Pipeline)
    (hstep : step sqrt clientId p (.ack tick) = some p') :
    p' = { p with tables := p.tables.ackClient tick } ∧ ∃ q ∈ p.received, q.snap.tick = tick := by
  unfold step at hstep
  simp only at hstep
  by_cases ht : ∃ q ∈ p.received, (decodeDeltaSnapshot q.body).map DeltaSnapshot.tick = some tick
  · rw [if_pos ht, Option.some.injEq] at hstep
    rcases ht with ⟨q, hq, htick⟩
    rw [(h.sound q (h.received q hq)).decode, Option.map_some, Option.some.injEq] at htick
    exact ⟨hstep.symm, q, hq, htick⟩
  · rw [if_neg ht] at hstep
    exact absurd hstep nofun

theorem linked_world (ops : List WorldOp) (h : Linked clientId p) (hw : p.server.NoWrap ops) :
    Linked clientId { p with server := p.server.step ops } :=
  { h with
    server_ok := p.server.ok_step ops h.server_ok hw
    later := fun q hq => ServerUniverse.later_trans _ _ _ (h.later q hq)
      (p.server.later_step ops h.server_ok hw) }

theorem linked_send (h : Linked clientId p) :
    Linked clientId (p.sendSnapshot sqrt clientId weights cap budget) := by
  have hnew := sound_buildPacket sqrt clientId p weights cap budget h.server_ok
  have hserver : (p.buildPacket sqrt clientId weights cap budget).1.server = p.server := rfl
  refine ⟨h.server_ok, ?_, ?_, ?_, ?_, ?_, ?_, ?_⟩
  · intro q hq
    rcases List.mem_append.mp hq with hq | hq
    · exact h.sound q hq
    · rw [List.mem_singleton.mp hq]
      exact hnew
  · intro q hq
    rcases List.mem_append.mp hq with hq | hq
    · exact List.mem_append_left _ (h.flight q hq)
    · exact List.mem_append_right _ hq
  · exact fun q hq => List.mem_append_left _ (h.received q hq)
  · intro q hq
    rcases List.mem_append.mp hq with hq | hq
    · exact h.later q hq
    · rw [List.mem_singleton.mp hq]
      exact ServerUniverse.later_refl p.server
  · intro q hq q' hq' htick
    rcases List.mem_append.mp hq with hq | hq
    · rcases List.mem_append.mp hq' with hq' | hq'
      · exact h.chain q hq q' hq' htick
      · rw [List.mem_singleton.mp hq', hserver]
        exact h.later q hq
    · rw [List.mem_singleton.mp hq] at htick ⊢
      rcases List.mem_append.mp hq' with hq' | hq'
      · -- An earlier packet of the same tick saw the same universe.
        have hle := (h.later q' hq').tick
        rw [hnew.tick, (h.sound q' hq').tick, hserver] at htick
        rw [hserver, (h.later q' hq').same (by omega)]
        exact ServerUniverse.later_refl p.server
      · rw [List.mem_singleton.mp hq']
        exact ServerUniverse.later_refl p.server
  · exact h.view
  · intro s l hl e he
    rcases staged_buildPacket sqrt clientId p weights cap budget s l hl with ⟨hs, hnewl⟩ | hold
    · exact ⟨_, List.mem_append_right _ (List.mem_singleton_self _), hnew.tick.trans hs.symm,
        (hnewl e he).1, (hnewl e he).2⟩
    · rcases h.staged s l hold e he with ⟨q, hq, hrest⟩
      exact ⟨q, List.mem_append_left _ hq, hrest⟩

/-- A step that wraps no counter keeps what every run keeps. -/
theorem linked_step (l : PipelineLabel) (p' : Pipeline) (h : Linked clientId p)
    (hw : p.NoWrap l) (hstep : step sqrt clientId p l = some p') : Linked clientId p' := by
  cases l with
  | world ops =>
      rw [step, Option.some.injEq] at hstep
      rw [← hstep]
      exact linked_world clientId p ops h hw
  | send weights cap budget =>
      rw [step, Option.some.injEq] at hstep
      rw [← hstep]
      exact linked_send sqrt clientId p weights cap budget h
  | deliver i =>
      rcases step_deliver sqrt clientId p h i p' hstep with ⟨q, hi, st', rfl, hslot⟩
      have hq := List.mem_of_getElem? hi
      refine { h with received := fun q' hq' => ?_, view := fun n => ?_ }
      · rcases List.mem_append.mp hq' with hq' | hq'
        · exact h.received q' hq'
        · rw [List.mem_singleton.mp hq']
          exact h.flight q hq
      · exact view_deliver p.client st' p.received q n (hslot n) (h.view n)
  | drop i =>
      rw [step_drop sqrt clientId p i p' hstep]
      exact { h with flight := fun q hq => h.flight q (List.mem_of_mem_eraseIdx hq) }
  | ack tick =>
      rw [(step_ack sqrt clientId p h tick p' hstep).1]
      refine { h with staged := fun s l hl => ?_ }
      have hold : p.tables.baseline.pending.find? s = some l := by
        have hl' : (p.tables.baseline.pending.filter fun t _ => ¬ t ≤ tick).find? s = some l := hl
        rw [OrdMap.find?_filter, Option.filter_eq_some_iff] at hl'
        exact hl'.1
      exact h.staged s l hold

end Steps

/-! ## Concrete runs -/

/-- The base of player one, near the corner of sector zero, with a sensor of one
    kilometre. The runs that show a defect are about it. -/
def sampleBase (hp : Int32) (shapeId : UInt16) : Entity :=
  { repl :=
      { pos := ⟨100, 200, 300⟩, localOffset := ⟨0, 0, 0⟩, hp := hp, ownerPlayer := 1
        shapeId := shapeId, kind := EntityKind.base }
    sensorRange := some 1000
    orderTarget := 0 }

/-- A prop of nobody's in a sector that the base sees or does not see. -/
def sampleProp (x : Int) : Entity :=
  { repl :=
      { pos := ⟨x, 500, 500⟩, localOffset := ⟨0, 0, 0⟩, hp := 1000, ownerPlayer := 0
        shapeId := 9, kind := EntityKind.unknown }
    sensorRange := none
    orderTarget := 0 }

/-- A snapshot with the default weights, no cap and the budget of a datagram. -/
def sampleSend : PipelineLabel := .send RelevanceWeights.default 0 1164

end Pipeline

end Sim

end EarthRise
