import EarthRise.Theory.Pipeline

/-!
# Eviction of What Is Out of Sight

Whether the client gets rid of the entities that have left its sight.

Two inferences of the server's are not always right. Only an entity with an
acknowledged version is marked for removal, so a snapshot that is built before the
acknowledgement of what left the client's sight comes in passes it over for good. And
a tombstone is cleared by any acknowledgement past the tick that first carried it,
because every later snapshot repeats it; but the tombstones come last under the byte
budget, and a snapshot that spills one is acknowledged like any other.
`ghost_unacked` and `ghost_spilled` are runs that leave a ghost for good.

`LeavesAcked` and `Unspilled` exclude the two where they happen, at the snapshot and
at the acknowledgement. A leave is pending from the moment it happens until the next
snapshot marks it. Of what was out of sight already at the last snapshot, and the
client holds or may still come to hold, there is then a tombstone, and every snapshot
from its first tick on has carried or spilled it: a packet that the client got of them
and that did not spill it has evicted the entity. `MarksOnce` is about a second
snapshot in one tick, which is dated like the first one.

## Main definitions

* `Pipeline.Threat`: The client holds an entity or is about to.
* `Pipeline.LeftUnacked`: A leave that no snapshot was built for yet.
* `Pipeline.LeavesAcked`, `Pipeline.MarksOnce`, `Pipeline.Unspilled`: The conditions.
* `Pipeline.Watched`, `Pipeline.Dated`: What the runs under them keep.

## Theorems

* `evicts_of_not_lost`: A packet that did not spill a tombstone has it.
* `no_ghosts`: What is out of sight and held is pending, and no tombstone goes undelivered.
* `ghost_spilled`, `ghost_unacked`: Runs that leave a ghost.
-/

namespace EarthRise

namespace Sim

open Universe Run

namespace Pipeline

/-- The client holds an entity, or a record under way would make it hold it. -/
def Threat (p : Pipeline) (n : NetId) : Prop :=
  (p.client.slot n).1.isSome = true ∨ ∃ q ∈ p.flight, q.Carries n ∧ ¬ Late p.client q n

instance (p : Pipeline) (n : NetId) : Decidable (p.Threat n) :=
  inferInstanceAs (Decidable (_ ∨ _))

/-- What the client saw when the last snapshot was built for it. -/
def lastSight (clientId : NetId) (p : Pipeline) : List NetId :=
  p.sent.getLast?.elim [] fun q => q.server.interest.visibleTo clientId

/-- An entity left the client's sight after the last snapshot, and the client has acknowledged
    nothing of it. -/
def LeftUnacked (clientId : NetId) (p : Pipeline) (n : NetId) : Prop :=
  n ∈ p.lastSight clientId ∧ n ∉ p.server.interest.visibleTo clientId ∧
    p.tables.baseline.acked.find? n = none

/-- No snapshot is built while something has left the client's sight that it holds, or may come
    to hold, and has not acknowledged. -/
def LeavesAcked (clientId : NetId) (p : Pipeline) : PipelineLabel → Prop
  | .send _ _ _ => ∀ n ∈ p.lastSight clientId, n ∉ p.server.interest.visibleTo clientId →
      p.Threat n → (p.tables.baseline.acked.find? n).isSome = true
  | _ => True

/-- What a snapshot marks for removal, every other one of its tick has had to carry. -/
def MarksOnce (clientId : NetId) (p : Pipeline) : PipelineLabel → Prop
  | .send _ _ _ => ∀ q ∈ p.sent, q.snap.tick = p.server.tick →
      ∀ n ∈ p.tables.baseline.acked.keys, n ∉ p.server.interest.visibleTo clientId →
        tombstoneRecord n ∈ q.snap.records ∨ n ∈ q.overflow
  | _ => True

/-- Of the packets from a tick on, the client got none but those that spilled a tombstone for
    want of budget or had more records than the count can say. -/
def Lost (p : Pipeline) (n : NetId) (s : Nat) : Prop :=
  ∀ q ∈ p.received, s ≤ q.snap.tick → n ∈ q.overflow ∨ 2 ^ 16 ≤ q.snap.records.length

/-- An acknowledgement clears no tombstone that was spilled by everything the client got since. -/
def Unspilled (p : Pipeline) : PipelineLabel → Prop
  | .ack tick => ∀ x ∈ p.tables.baseline.tombstones.entries, x.2 ≠ unsent → x.2 ≤ tick →
      ¬ p.Lost x.1 x.2
  | _ => True

instance (clientId : NetId) (p : Pipeline) :
    ∀ l : PipelineLabel, Decidable (p.LeavesAcked clientId l)
  | .send _ _ _ =>
      -- Over the list, and not over every id.
      List.decidableBAll (fun n => n ∉ p.server.interest.visibleTo clientId → p.Threat n →
        (p.tables.baseline.acked.find? n).isSome = true) (p.lastSight clientId)
  | .world _ | .deliver _ | .drop _ | .ack _ => isTrue trivial

instance (clientId : NetId) (p : Pipeline) :
    ∀ l : PipelineLabel, Decidable (p.MarksOnce clientId l)
  | .send _ _ _ =>
      have (q : Packet) := List.decidableBAll (fun n => n ∉ p.server.interest.visibleTo clientId →
        tombstoneRecord n ∈ q.snap.records ∨ n ∈ q.overflow) p.tables.baseline.acked.keys
      List.decidableBAll _ p.sent
  | .world _ | .deliver _ | .drop _ | .ack _ => isTrue trivial

instance (p : Pipeline) (n : NetId) (s : Nat) : Decidable (p.Lost n s) :=
  inferInstanceAs (Decidable (∀ q ∈ _, _))

instance (p : Pipeline) : ∀ l : PipelineLabel, Decidable (p.Unspilled l)
  | .ack _ => inferInstanceAs (Decidable (∀ x ∈ _, _))
  | .world _ | .send _ _ _ | .deliver _ | .drop _ => isTrue trivial

/-- The conditions on a step. -/
def Heeds (clientId : NetId) (p : Pipeline) (l : PipelineLabel) : Prop :=
  p.NoWrap l ∧ p.LeavesAcked clientId l ∧ p.MarksOnce clientId l ∧ p.Unspilled l

instance (clientId : NetId) (p : Pipeline) (l : PipelineLabel) : Decidable (p.Heeds clientId l) :=
  inferInstanceAs (Decidable (_ ∧ _ ∧ _ ∧ _))

/-- There is a tombstone of every threat that was out of sight at the last snapshot. -/
def Watched (clientId : NetId) (p : Pipeline) : Prop :=
  ∀ n, n ∉ p.lastSight clientId → p.Threat n →
    (p.tables.baseline.tombstones.find? n).isSome = true

/-- A dated tombstone is newer than every live record of its entity, and every snapshot from its
    first tick on has carried or spilled it; one that is not dated yet, every one of this tick. -/
def Dated (p : Pipeline) : Prop :=
  ∀ n s, p.tables.baseline.tombstones.find? n = some s → ∀ q ∈ p.sent,
    (s ≠ unsent → q.Sends n → q.snap.tick < s) ∧
      (min s p.server.tick ≤ q.snap.tick → tombstoneRecord n ∈ q.snap.records ∨ n ∈ q.overflow)

section Steps

variable (sqrt : ℚ → ℚ) (clientId : NetId) (p : Pipeline) (weights : RelevanceWeights)
  (cap budget : Nat)

/-- The tombstones after a snapshot is built and recorded. -/
theorem tombstones_buildPacket (h : p.server.Ok) (n : NetId) :
    (p.buildPacket sqrt clientId weights cap budget).2.baseline.tombstones.find? n =
      if tombstoneRecord n ∈ (p.buildPacket sqrt clientId weights cap budget).1.snap.records ∧
          (p.server.tombstonesFor clientId p.tables).2.baseline.tombstones.find? n = some unsent
      then some p.server.tick
      else (p.server.tombstonesFor clientId p.tables).2.baseline.tombstones.find? n := by
  have hsame : ∀ (b : ClientBaseline) (t : Nat) (l : List (NetId × Nat)),
      (b.recordSent t l).tombstones = b.tombstones := by
    intro b t l
    unfold ClientBaseline.recordSent
    split <;> rfl
  have hids : n ∈ ((p.server.buildClientSnapshot sqrt clientId weights cap budget
        p.tables).1.snap.records.filter fun r => r.mask.tomb).map DeltaRecord.netId ↔
      tombstoneRecord n ∈
        (p.server.buildClientSnapshot sqrt clientId weights cap budget p.tables).1.snap.records := by
    rw [List.mem_map]
    constructor
    · rintro ⟨r, hr, rfl⟩
      rw [List.mem_filter] at hr
      rcases p.server.mem_records sqrt clientId weights cap budget p.tables r hr.1 with
        ⟨_, cur, _, _, rfl⟩ | ⟨m, _, rfl⟩
      · rw [makeDeltaRecord_tomb] at hr
        exact absurd hr.2 Bool.false_ne_true
      · exact hr.1
    · intro hr
      exact ⟨tombstoneRecord n, List.mem_filter.mpr ⟨hr, rfl⟩, rfl⟩
  have hne : p.server.tick ≠ unsent := Nat.ne_of_lt h.tick_lt
  have hfind := ClientBaseline.find?_recordTombstonesSent
    ((p.server.tombstonesFor clientId p.tables).2.baseline.recordSent p.server.tick
      (((p.server.buildClientSnapshot sqrt clientId weights cap budget
        p.tables).1.snap.records.filter fun r => !r.mask.tomb).map DeltaRecord.netId |>.map
          fun n => (n, p.server.replVersion n))) p.server.tick
    (((p.server.buildClientSnapshot sqrt clientId weights cap budget
        p.tables).1.snap.records.filter fun r => r.mask.tomb).map DeltaRecord.netId) hne n
  simp only [hids, hsame] at hfind
  exact hfind

theorem lastSight_send :
    (p.sendSnapshot sqrt clientId weights cap budget).lastSight clientId =
      p.server.interest.visibleTo clientId := by
  unfold lastSight sendSnapshot
  simp only [List.getLast?_append, List.getLast?_singleton, Option.some_or, Option.elim_some]
  rfl

theorem watched_send (h : Linked clientId p) (hw : p.Watched clientId)
    (hleave : p.LeavesAcked clientId (.send weights cap budget)) :
    (p.sendSnapshot sqrt clientId weights cap budget).Watched clientId := by
  rcases p.server.tombstonesFor_spec clientId p.tables with ⟨hspec, _⟩
  have hnew := sound_buildPacket sqrt clientId p weights cap budget h.server_ok
  intro n hn hthreat
  rw [lastSight_send] at hn
  -- The new packet has no live record of what is out of sight.
  have hold : p.Threat n := by
    rcases hthreat with hheld | ⟨q, hq, hcar, hlate⟩
    · exact Or.inl hheld
    · rcases List.mem_append.mp hq with hq | hq
      · exact Or.inr ⟨q, hq, hcar, hlate⟩
      · rw [List.mem_singleton.mp hq] at hcar
        exact absurd (hnew.visible hcar.sends) hn
  show ((p.buildPacket sqrt clientId weights cap budget).2.baseline.tombstones.find? n).isSome = true
  rw [tombstones_buildPacket sqrt clientId p weights cap budget h.server_ok n]
  have hmark : ((p.server.tombstonesFor clientId p.tables).2.baseline.tombstones.find? n).isSome =
      true := by
    rw [hspec.tombstones, if_neg hn]
    by_cases ha : (p.tables.baseline.acked.find? n).isSome = true
    · rw [if_pos ha]
      rfl
    · rw [if_neg ha]
      by_cases hlast : n ∈ p.lastSight clientId
      · exact absurd (hleave n hlast hn hold) ha
      · exact hw n hlast hold
  split
  · rfl
  · exact hmark

/-- What has a tombstone after a snapshot was marked by it or before. -/
theorem dated_send (h : Linked clientId p) (hd : p.Dated)
    (honce : p.MarksOnce clientId (.send weights cap budget)) :
    (p.sendSnapshot sqrt clientId weights cap budget).Dated := by
  rcases p.server.tombstonesFor_spec clientId p.tables with ⟨hspec, hout⟩
  have hnew := sound_buildPacket sqrt clientId p weights cap budget h.server_ok
  intro n s hs q hq
  have hs' : (p.buildPacket sqrt clientId weights cap budget).2.baseline.tombstones.find? n =
      some s := hs
  rw [tombstones_buildPacket sqrt clientId p weights cap budget h.server_ok n] at hs'
  have hsound : q.Sound clientId ∧ q.server.Later p.server := by
    rcases List.mem_append.mp hq with hq | hq
    · exact ⟨h.sound q hq, h.later q hq⟩
    · rw [List.mem_singleton.mp hq]
      exact ⟨hnew, ServerUniverse.later_refl p.server⟩
  -- The tombstone is among those of the snapshot, so its entity is out of sight.
  obtain ⟨s₀, hs₀⟩ : ∃ s₀,
      (p.server.tombstonesFor clientId p.tables).2.baseline.tombstones.find? n = some s₀ := by
    split at hs'
    · rename_i hdate
      exact ⟨unsent, hdate.2⟩
    · exact ⟨s, hs'⟩
  have hin : n ∈ (p.server.tombstonesFor clientId p.tables).1 := by
    rw [hout, OrdMap.mem_keys, hs₀]
    rfl
  have hv := p.server.not_visible_of_tombstone clientId p.tables n hin
  have hsince : p.server.tick ≤ q.snap.tick →
      tombstoneRecord n ∈ q.snap.records ∨ n ∈ q.overflow := by
    intro hle
    rcases List.mem_append.mp hq with hq | hq
    · have htick : q.snap.tick = p.server.tick := by
        have := hsound.2.tick
        rw [← hsound.1.tick] at this
        omega
      by_cases ha : (p.tables.baseline.acked.find? n).isSome = true
      · exact honce q hq htick n ((OrdMap.mem_keys _ _).mpr ha) hv
      · rw [hspec.tombstones, if_neg hv, if_neg ha] at hs₀
        exact (hd n s₀ hs₀ q hq).2 (by omega)
    · rw [List.mem_singleton.mp hq]
      exact p.server.tombstone_carried_or_spilled sqrt clientId weights cap budget p.tables n hin
  by_cases hdate : tombstoneRecord n ∈
      (p.buildPacket sqrt clientId weights cap budget).1.snap.records ∧
      (p.server.tombstonesFor clientId p.tables).2.baseline.tombstones.find? n = some unsent
  · -- Dated now: the entity is out of sight, now and so far at this tick.
    rw [if_pos hdate, Option.some.injEq] at hs'
    have htick := hsound.2.tick
    rw [← hsound.1.tick] at htick
    refine ⟨fun _ hsends => ?_, fun hle => hsince ?_⟩
    · by_contra hge
      have heq : q.server.tick = p.server.tick := by
        have := hsound.1.tick
        omega
      have hsees := hsound.1.visible hsends
      rw [hsound.2.same heq] at hsees
      exact hv hsees
    · have hle' : min s p.server.tick ≤ q.snap.tick := hle
      omega
  · rw [if_neg hdate, hspec.tombstones, if_neg hv] at hs'
    by_cases hold : p.tables.baseline.tombstones.find? n = some s
    · -- It was there before.
      refine ⟨fun hne hsends => ?_, fun hle => ?_⟩
      · rcases List.mem_append.mp hq with hq | hq
        · exact (hd n s hold q hq).1 hne hsends
        · rw [List.mem_singleton.mp hq] at hsends
          exact absurd (hnew.visible hsends) hv
      · rcases List.mem_append.mp hq with hq' | hq'
        · exact (hd n s hold q hq').2 hle
        · refine hsince ?_
          rw [List.mem_singleton.mp hq']
          exact Nat.le_of_eq hnew.tick.symm
    · -- It was marked now, and spilled.
      have hmark : s = unsent := by
        by_cases ha : (p.tables.baseline.acked.find? n).isSome = true
        · rw [if_pos ha, Option.some.injEq] at hs'
          cases ht : p.tables.baseline.tombstones.find? n with
          | none => rw [← hs', ht, Option.getD_none]
          | some s' =>
              rw [ht, Option.getD_some] at hs'
              exact absurd (by rw [ht, hs']) hold
        · rw [if_neg ha] at hs'
          exact absurd hs' hold
      refine ⟨fun hne => absurd hmark hne, fun hle => hsince ?_⟩
      have hle' : min s p.server.tick ≤ q.snap.tick := hle
      have hlt := h.server_ok.tick_lt
      omega

/-- A tombstone that is not lost is in a packet that the client got. -/
theorem evicts_of_not_lost (h : Linked clientId p) (hd : p.Dated) (n : NetId) (s : Nat)
    (hs : p.tables.baseline.tombstones.find? n = some s) (hlost : ¬ p.Lost n s) :
    ∃ q ∈ p.received, q.Evicts n ∧ s ≤ q.snap.tick := by
  unfold Lost at hlost
  simp only [not_forall, not_or, not_le] at hlost
  rcases hlost with ⟨q, hq, hle, hspill, hcount⟩
  have hsent := h.received q hq
  refine ⟨q, hq, ?_, hle⟩
  have hmem : tombstoneRecord n ∈ q.snap.records :=
    ((hd n s hs q hsent).2 (by omega)).resolve_right hspill
  have hread : q.read = q.snap.records := by
    unfold Packet.read
    rw [Nat.mod_eq_of_lt hcount, List.take_length]
  have hsome : (q.recordOf n).isSome = true := by
    unfold Packet.recordOf
    rw [hread, List.find?_isSome]
    exact ⟨tombstoneRecord n, hmem, by simp [tombstoneRecord]⟩
  rcases Option.isSome_iff_exists.mp hsome with ⟨r, hr⟩
  rcases q.recordOf_mem n r hr with ⟨hrmem, hid⟩
  refine ⟨r, hr, ?_⟩
  cases ht : r.mask.tomb with
  | true => rfl
  | false =>
      have hlive := ((h.sound q hsent).live r hrmem ht).1
      have htomb := (h.sound q hsent).tomb _ hmem rfl
      rw [hid] at hlive
      exact absurd hlive htomb

/-- What the client got a dated tombstone of, it does not hold and will not. -/
theorem no_threat_of_evicted (h : Linked clientId p) (hd : p.Dated) (n : NetId) (s : Nat)
    (hs : p.tables.baseline.tombstones.find? n = some s) (hne : s ≠ unsent) (q : Packet)
    (hq : q ∈ p.received) (hev : q.Evicts n) (hle : s ≤ q.snap.tick) : ¬ p.Threat n := by
  rcases hev with ⟨r, hr, _⟩
  rcases h.view n with ⟨_, hnone⟩ | ⟨q0, hq0, r0, hr0, htick, hcopy, hmax⟩
  · rw [hnone q hq] at hr
    exact absurd hr nofun
  · have hlast := hmax q hq (by rw [hr]; rfl)
    rintro (hheld | ⟨q', hq', hcar, hlate⟩)
    · have hsends : q0.Sends n := Packet.Carries.sends ⟨r0, hr0, hcopy.mp hheld⟩
      have := (hd n s hs q0 (h.received q0 hq0)).1 hne hsends
      omega
    · have := (hd n s hs q' (h.flight q' hq')).1 hne hcar.sends
      have hnew := mt (late_iff p.client q' n _ htick).mpr hlate
      omega

theorem watched_deliver (st' : DeltaDecodeState) (q : Packet) (hq : q ∈ p.flight)
    (hslot : ∀ n, st'.slot n = (q.recordOf n).elim (p.client.slot n)
      fun r => (p.client.slot n).touch q.snap.tick r.wire) (n : NetId)
    (hthreat : Threat { p with client := st', received := p.received ++ [q] } n) :
    p.Threat n := by
  rcases hthreat with hheld | ⟨q', hq', hcar, hlate⟩
  · rcases slot_cases p.client st' q n (hslot n) with ⟨hsame, _⟩ | ⟨r, hr, hlate, _, hcopy⟩
    · left
      rw [← hsame]
      exact hheld
    · right
      refine ⟨q, hq, ⟨r, hr, ?_⟩, hlate⟩
      cases ht : r.mask.tomb with
      | false => rfl
      | true =>
          rw [hcopy, ht] at hheld
          exact absurd hheld (by simp)
  · exact Or.inr ⟨q', hq', hcar, fun hl => hlate (late_mono p.client st' q q' n (hslot n) hl)⟩

theorem watched_step (l : PipelineLabel) (p' : Pipeline) (h : Linked clientId p)
    (hw : p.Watched clientId) (hd : p.Dated) (hg : p.Heeds clientId l)
    (hstep : step sqrt clientId p l = some p') : p'.Watched clientId ∧ p'.Dated := by
  rcases hg with ⟨hwrap, hleave, honce, hspill⟩
  cases l with
  | world ops =>
      rw [step, Option.some.injEq] at hstep
      rw [← hstep]
      have htick := (p.server.later_step ops h.server_ok hwrap).tick
      refine ⟨hw, fun n s hs q hq => ⟨(hd n s hs q hq).1, fun hle => (hd n s hs q hq).2 ?_⟩⟩
      have hle' : min s (p.server.step ops).tick ≤ q.snap.tick := hle
      omega
  | send weights cap budget =>
      rw [step, Option.some.injEq] at hstep
      rw [← hstep]
      exact ⟨watched_send sqrt clientId p weights cap budget h hw hleave,
        dated_send sqrt clientId p weights cap budget h hd honce⟩
  | deliver i =>
      rcases step_deliver sqrt clientId p h i p' hstep with ⟨q, hi, st', rfl, hslot⟩
      refine ⟨fun n hn hthreat => ?_, hd⟩
      exact hw n hn (watched_deliver p st' q (List.mem_of_getElem? hi) hslot n hthreat)
  | drop i =>
      rw [step_drop sqrt clientId p i p' hstep]
      refine ⟨fun n hn hthreat => hw n hn ?_, hd⟩
      rcases hthreat with hheld | ⟨q, hq, hrest⟩
      · exact Or.inl hheld
      · exact Or.inr ⟨q, List.mem_of_mem_eraseIdx hq, hrest⟩
  | ack tick =>
      rw [(step_ack sqrt clientId p h tick p' hstep).1]
      have hts : ∀ n, (p.tables.ackClient tick).baseline.tombstones.find? n =
          (p.tables.baseline.tombstones.find? n).filter fun t => ¬ (t ≠ unsent ∧ t ≤ tick) :=
        p.tables.baseline.find?_tombstones_ack tick
      refine ⟨fun n hn hthreat => ?_, fun n s hs => ?_⟩
      · rcases Option.isSome_iff_exists.mp (hw n hn hthreat) with ⟨s, hs⟩
        by_cases hcl : s ≠ unsent ∧ s ≤ tick
        · -- A cleared tombstone was delivered, so there is no threat.
          rcases evicts_of_not_lost clientId p h hd n s hs
            (hspill (n, s) ((OrdMap.mem_entries _ _ _).mpr hs) hcl.1 hcl.2) with ⟨q, hq, hev, hle⟩
          exact absurd hthreat (no_threat_of_evicted clientId p h hd n s hs hcl.1 q hq hev hle)
        · rw [hts, hs, Option.filter_some, if_pos (decide_eq_true hcl)]
          rfl
      · rw [hts, Option.filter_eq_some_iff] at hs
        exact hd n s hs.1

end Steps

/-- In every run that heeds the conditions, what the client holds is in its sight or pending:
    the server has a tombstone for it, or it has left after the last snapshot and is not
    acknowledged yet. And an acknowledgement clears a tombstone only after the client has applied
    a packet with that tombstone. -/
theorem no_ghosts (sqrt : ℚ → ℚ) (clientId : NetId) (tick : Fin 4294967295) (p : Pipeline)
    (h : Reaches (step sqrt clientId) (Heeds clientId) (start tick) p) :
    (∀ n, (p.client.entities.find? n).isSome = true →
      n ∈ p.server.interest.visibleTo clientId ∨
        n ∈ (p.server.tombstonesFor clientId p.tables).1 ∨ p.LeftUnacked clientId n) ∧
    ∀ t p', p.Unspilled (.ack t) → step sqrt clientId p (.ack t) = some p' →
      ∀ n s, p.tables.baseline.tombstones.find? n = some s →
        p'.tables.baseline.tombstones.find? n = none →
          ∃ q ∈ p.received, q.Evicts n ∧ s ≤ q.snap.tick := by
  have hinv : Linked clientId p ∧ p.Watched clientId ∧ p.Dated := by
    refine Reaches.invariant (I := fun p => Linked clientId p ∧ p.Watched clientId ∧ p.Dated) ?_ h
      ⟨linked_start clientId tick, ?_, ?_⟩
    · intro p l p' hI hg hstep
      exact ⟨linked_step sqrt clientId p l p' hI.1 hg.1 hstep,
        watched_step sqrt clientId p l p' hI.1 hI.2.1 hI.2.2 hg hstep⟩
    · rintro n _ (hheld | ⟨q, hq, _⟩)
      · exact absurd hheld (by simp [start, DeltaDecodeState.fresh, DeltaDecodeState.slot])
      · exact absurd hq List.not_mem_nil
    · intro n s hs
      exact absurd hs (by simp [start, ClientTables.fresh, ClientBaseline.fresh])
  rcases hinv with ⟨hl, hw, hd⟩
  refine ⟨fun n hheld => ?_, fun t p' hspill hstep n s hs hgone => ?_⟩
  · by_cases hv : n ∈ p.server.interest.visibleTo clientId
    · exact Or.inl hv
    · right
      rcases p.server.tombstonesFor_spec clientId p.tables with ⟨hspec, hout⟩
      rw [hout, OrdMap.mem_keys, hspec.tombstones, if_neg hv]
      cases ha : p.tables.baseline.acked.find? n with
      | some v =>
          exact Or.inl rfl
      | none =>
          rw [if_neg (by simp only [Option.isSome_none, Bool.false_eq_true, not_false_eq_true])]
          by_cases hlast : n ∈ p.lastSight clientId
          · exact Or.inr ⟨hlast, hv, ha⟩
          · exact Or.inl (hw n hlast (Or.inl hheld))
  · rw [(step_ack sqrt clientId p hl t p' hstep).1] at hgone
    have hts := p.tables.baseline.find?_tombstones_ack t n
    have hgone' : (p.tables.baseline.ack t).tombstones.find? n = none := hgone
    rw [hgone', hs] at hts
    have hcl : s ≠ unsent ∧ s ≤ t := by
      by_contra hcl
      rw [Option.filter_some, if_pos (decide_eq_true hcl)] at hts
      cases hts
    exact evicts_of_not_lost clientId p hl hd n s hs
      (hspill (n, s) ((OrdMap.mem_entries _ _ _).mpr hs) hcl.1 hcl.2)

/-- The run of a prop that is destroyed before its acknowledgement comes in, and evicted. -/
theorem no_ghosts_prop : ∃ p, Reaches (step id 1) (Heeds 1) (start 0) p ∧ p.flight.isEmpty = true ∧
    (p.server.tombstonesFor 1 p.tables).1 = [] ∧ (∃ q ∈ p.received, q.Evicts 2) ∧
    ∀ n, (p.client.entities.find? n).isSome = true → n ∈ p.server.interest.visibleTo 1 := by
  rcases exists_of_runGuarded (m := step id 1) (G := Heeds 1) (s := start 0)
    (b := fun p => p.flight.isEmpty && (decide ((p.server.tombstonesFor 1 p.tables).1 = []) &&
      (decide (∃ q ∈ p.received, q.Evicts 2) &&
        decide (p.lastSight 1 = p.server.interest.visibleTo 1))))
    [.world [.spawn (sampleBase 100 5), .spawn (sampleProp 500)], sampleSend, .deliver 0,
      .world [.destroyUnit 2], .ack 1, sampleSend, .deliver 1, .ack 2, .drop 0, .drop 0]
    (by decide +kernel) with ⟨p, hp, hb⟩
  simp only [Bool.and_eq_true, decide_eq_true_eq] at hb
  refine ⟨p, hp, hb.1, hb.2.1, hb.2.2.1, fun n hheld => ?_⟩
  rcases (no_ghosts id 1 0 p hp).1 n hheld with hv | htomb | ⟨hlast, hno, _⟩
  · exact hv
  · rw [hb.2.1] at htomb
    exact absurd htomb List.not_mem_nil
  · exact absurd (hb.2.2.2 ▸ hlast) hno

/-- The tombstone of a destroyed prop is lost. The next snapshot has no room for it
    after the base's record, and its acknowledgement clears the tombstone: the
    client keeps the prop. -/
theorem ghost_spilled : ∃ p, Reaches (step id 1) free (start 0) p ∧ p.flight.isEmpty = true ∧
    (p.server.tombstonesFor 1 p.tables).1 = [] ∧ (p.client.entities.find? 2).isSome = true ∧
    2 ∉ p.server.interest.visibleTo 1 ∧ ¬ ∃ q ∈ p.received, q.Evicts 2 := by
  rcases exists_of_runLabels (m := step id 1) (s := start 0)
    (b := fun p => p.flight.isEmpty && (decide ((p.server.tombstonesFor 1 p.tables).1 = []) &&
      ((p.client.entities.find? 2).isSome &&
        (decide (2 ∉ p.server.interest.visibleTo 1) &&
          decide (¬ ∃ q ∈ p.received, q.Evicts 2)))))
    [.world [.spawn (sampleBase 100 5), .spawn (sampleProp 500)], sampleSend, .deliver 0, .ack 1,
      .world [.destroyUnit 2], sampleSend,
      .world [.mutate 1 (sampleBase 50 5)], .send RelevanceWeights.default 0 20, .deliver 2,
      .ack 3, .drop 0, .drop 0, .drop 0] (by decide +kernel) with ⟨p, hp, hb⟩
  simp only [Bool.and_eq_true, decide_eq_true_eq] at hb
  exact ⟨p, hp, hb.1, hb.2.1, hb.2.2.1, hb.2.2.2.1, hb.2.2.2.2⟩

/-- A prop that is destroyed before the client's acknowledgement of it arrives is
    never marked for removal. -/
theorem ghost_unacked : ∃ p, Reaches (step id 1) free (start 0) p ∧ p.flight.isEmpty = true ∧
    (p.server.tombstonesFor 1 p.tables).1 = [] ∧ (p.client.entities.find? 2).isSome = true ∧
    2 ∉ p.server.interest.visibleTo 1 := by
  rcases exists_of_runLabels (m := step id 1) (s := start 0)
    (b := fun p => p.flight.isEmpty && (decide ((p.server.tombstonesFor 1 p.tables).1 = []) &&
      ((p.client.entities.find? 2).isSome && decide (2 ∉ p.server.interest.visibleTo 1))))
    [.world [.spawn (sampleBase 100 5), .spawn (sampleProp 500)], sampleSend, .deliver 0,
      .world [.destroyUnit 2], sampleSend, .deliver 1, .drop 0, .drop 0] (by decide +kernel) with
    ⟨p, hp, hb⟩
  simp only [Bool.and_eq_true, decide_eq_true_eq] at hb
  exact ⟨p, hp, hb.1, hb.2.1, hb.2.2.1, hb.2.2.2⟩

end Pipeline

end Sim

end EarthRise
