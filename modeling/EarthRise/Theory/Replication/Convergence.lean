import EarthRise.Theory.Replication.Acks

/-!
# Convergence of the Client's Copies

Whether the client ends up with the server's values.

A record names the fields in which the entity differs from the state that the
client last acknowledged, and the client overwrites the state that it last applied.
The two are different states between a delivery and its acknowledgement, so a
field that changes and changes back in that time is left out of the record while
the client holds the value in between: `field_lost` is such a run.

`DeltasFit` asks of every live record that the client applies that the fields it
leaves out are those of the client's copy, and that a sector it names fits in the
32 bits it is written in. The copy then always has the fields that the latest
received record was made with, and with covered acknowledgements an entity that is
not lacked any more has had its latest version received.

## Main definitions

* `Pipeline.DeltasFit`: The applied records leave out only what the copy has.
* `Pipeline.Copied`: A copy has the fields of the record that decided it.

## Theorems

* `converged`: The client's copies are current once nothing is lacked.
* `field_lost`: A run that leaves the client with an old value for good.
-/

namespace EarthRise

namespace Sim

open Universe Run

namespace Pipeline

/-- The client's copy of an entity, or what it starts from. -/
def copyOf (p : Pipeline) (n : NetId) : SnapshotEntity :=
  (p.client.slot n).1.getD SnapshotEntity.initial

/-- A live record leaves out only fields that the copy has, and a sector that it
    names fits in 32 bits. -/
def RecordFits (copy : SnapshotEntity) (r : DeltaRecord) : Prop :=
  Fields.merge r.mask r.toFields copy.fields = r.toFields ∧
    (r.mask.sector = true → r.sector.All FitsInt32)

instance (copy : SnapshotEntity) (r : DeltaRecord) : Decidable (RecordFits copy r) :=
  inferInstanceAs (Decidable (_ ∧ (_ → (_ ∧ _ ∧ _))))

/-- Every live record that a delivery applies fits the client's copy. -/
def DeltasFit (p : Pipeline) : PipelineLabel → Prop
  | .deliver i => ∀ q ∈ p.flight[i]?, ∀ r ∈ q.read, r.mask.tomb = false →
      ¬ Late p.client q r.netId → RecordFits (p.copyOf r.netId) r
  | _ => True

instance (p : Pipeline) : ∀ l : PipelineLabel, Decidable (p.DeltasFit l)
  | .deliver i => inferInstanceAs (Decidable (∀ q ∈ p.flight[i]?, _))
  | .world _ | .send _ _ _ | .drop _ | .ack _ => isTrue trivial

/-- A copy has the fields of a received record of the tick that the client last
    applied one of. -/
def Copied (p : Pipeline) : Prop :=
  ∀ n e, (p.client.slot n).1 = some e → ∃ q ∈ p.received, ∃ r, q.recordOf n = some r ∧
    r.mask.tomb = false ∧ (p.client.slot n).2 = some q.snap.tick ∧ e.fields = r.toFields

section Steps

variable (sqrt : ℚ → ℚ) (clientId : NetId) (p : Pipeline)

/-- A record that fits takes the copy to its own fields. -/
theorem fields_of_fits (q : Packet) (h : q.Sound clientId) (copy : SnapshotEntity)
    (r : DeltaRecord) (hr : r ∈ q.snap.records) (ht : r.mask.tomb = false)
    (hfit : RecordFits copy r) : (DeltaDecodeState.overwrite copy r.wire).fields = r.toFields := by
  rcases (h.live r hr ht).2 with ⟨cur, _, hfields, hpos⟩
  have hq : r.qpos.All (· < quantSteps) := by
    have hq' : r.toFields.qpos.All (· < quantSteps) := hfields ▸ fields_qpos_lt cur
    exact hq'
  rw [fields_overwrite_wire copy r hpos, merge_wire r _ ht hq hfit.2]
  exact hfit.1

theorem copied_step (l : PipelineLabel) (p' : Pipeline) (h : Linked clientId p)
    (hc : p.Copied) (hg : p.DeltasFit l) (hstep : step sqrt clientId p l = some p') :
    p'.Copied := by
  cases l with
  | world ops =>
      rw [step, Option.some.injEq] at hstep
      rw [← hstep]
      exact hc
  | send weights cap budget =>
      rw [step, Option.some.injEq] at hstep
      rw [← hstep]
      exact hc
  | deliver i =>
      rcases step_deliver sqrt clientId p h i p' hstep with ⟨q, hi, st', rfl, hslot⟩
      have hq := List.mem_of_getElem? hi
      intro n e he
      simp only at he ⊢
      rcases slot_cases p.client st' q n (hslot n) with
        ⟨hsame, _⟩ | ⟨r, hr, hlate, htick, hcopy⟩
      · rw [hsame] at he ⊢
        rcases hc n e he with ⟨q', hq', hrest⟩
        exact ⟨q', List.mem_append_left _ hq', hrest⟩
      · rcases q.recordOf_mem n r hr with ⟨hmem, hid⟩
        rw [hcopy] at he
        cases ht : r.mask.tomb with
        | true =>
            rw [ht] at he
            exact absurd he (by simp)
        | false =>
            rw [ht, if_neg (by decide), Option.some.injEq] at he
            have hread : r ∈ q.read := List.mem_of_find?_eq_some hr
            have hfit := hg q hi r hread ht (hid.symm ▸ hlate)
            rw [hid] at hfit
            refine ⟨q, List.mem_append_right _ (List.mem_singleton_self q), r, hr, ht, htick, ?_⟩
            rw [← he]
            exact fields_of_fits clientId q (h.sound q (h.flight q hq)) _ r hmem ht hfit
  | drop i =>
      rw [step_drop sqrt clientId p i p' hstep]
      exact hc
  | ack tick =>
      rw [(step_ack sqrt clientId p h tick p' hstep).1]
      exact hc

end Steps

/-- In every run whose counters do not wrap, whose acknowledgements fold only what
    a receipt covers and whose records fit the copies they are applied to, the
    client has the server's current fields of every visible entity that it holds,
    once nothing is lacked. -/
theorem converged (sqrt : ℚ → ℚ) (clientId : NetId) (tick : Fin 4294967295) (p : Pipeline)
    (h : Reaches (step sqrt clientId)
      (fun p l => (p.NoWrap l ∧ p.AcksArrived l) ∧ p.DeltasFit l) (start tick) p)
    (hdone : p.server.changedFor clientId p.tables = []) (n : NetId) (e : SnapshotEntity)
    (hn : n ∈ p.server.interest.visibleTo clientId) (he : p.client.entities.find? n = some e) :
    ∃ cur, p.server.snapshotEntityOf n = some cur ∧ e.fields = cur.fields := by
  have hcopied : Linked clientId p ∧ p.Copied := by
    refine Reaches.invariant (I := fun p => Linked clientId p ∧ p.Copied) ?_ h
      ⟨linked_start clientId tick, fun n e he => absurd he (by simp [start,
        DeltaDecodeState.fresh, DeltaDecodeState.slot])⟩
    intro p l p' hI hg hstep
    exact ⟨linked_step sqrt clientId p l p' hI.1 hg.1.1 hstep,
      copied_step sqrt clientId p l p' hI.1 hI.2 hg.2 hstep⟩
  rcases hcopied with ⟨hl, hc⟩
  rcases ackBound_of_reaches sqrt clientId p tick _ (fun _ _ hg => hg.1) h with ⟨_, hb⟩
  have halive := p.server.alive_of_visible hl.server_ok clientId n hn
  have hpos := p.server.version_pos_of_alive hl.server_ok n halive
  -- The current version is acknowledged, so it was received.
  have hacked : p.server.replVersion n ≤ p.tables.baseline.ackedVersion n := by
    by_contra hlt
    have hmem : n ∈ p.server.changedFor clientId p.tables :=
      List.mem_filter.mpr ⟨hn, decide_eq_true (by omega)⟩
    rw [hdone] at hmem
    exact List.not_mem_nil hmem
  have hrecv : ∃ q ∈ p.received, q.Carries n ∧ p.server.replVersion n ≤ q.server.replVersion n := by
    unfold ClientBaseline.ackedVersion at hacked
    cases ha : p.tables.baseline.acked.find? n with
    | none =>
        rw [ha, Option.getD_none] at hacked
        omega
    | some a =>
        rw [ha, Option.getD_some] at hacked
        rcases hb n a ha with ⟨q, hq, hcar, hle⟩
        exact ⟨q, hq, hcar, Nat.le_trans hacked hle⟩
  rcases hrecv with ⟨q', hq', hcar, hle⟩
  rcases hc n e he with ⟨q, hq, r, hr, ht, htick, hfields⟩
  -- The packet that decided the copy is at least as late as that receipt.
  have hmax : q'.snap.tick ≤ q.snap.tick := by
    rcases hl.view n with ⟨hempty, _⟩ | ⟨q0, _, _, _, htick0, _, hmax⟩
    · rw [hempty] at htick
      cases htick
    · rw [htick, Option.some.injEq] at htick0
      rw [htick0]
      rcases hcar with ⟨r', hr', _⟩
      exact hmax q' hq' (by rw [hr']; rfl)
  have hsends : q.Sends n := Packet.Carries.sends ⟨r, hr, ht⟩
  have hqs := hl.received q hq
  have hsound := hl.sound q hqs
  have hmono := version_mono clientId p hl q' q n (hl.received q' hq') hqs hcar.sends hsends hmax
  rcases (hl.later q hqs).alive n (hsound.ok.ids n (hsound.alive hsends)) halive with
    ⟨_, hle', hsame⟩
  rcases q.recordOf_mem n r hr with ⟨hmem, hid⟩
  rcases (hsound.live r hmem ht).2 with ⟨cur, hcur, hrf, _⟩
  rw [hid, hsame (by omega)] at hcur
  exact ⟨cur, hcur, hfields.trans hrf⟩

/-- The run of a base whose hp changes once, every body delivered and acknowledged. -/
theorem converged_base : ∃ p e cur, Reaches (step id 1)
      (fun p l => (p.NoWrap l ∧ p.AcksArrived l) ∧ p.DeltasFit l) (start 0) p ∧
    p.client.entities.find? 1 = some e ∧ p.server.snapshotEntityOf 1 = some cur ∧
    e.fields = cur.fields := by
  rcases exists_of_runGuarded (m := step id 1)
    (G := fun p l => (p.NoWrap l ∧ p.AcksArrived l) ∧ p.DeltasFit l) (s := start 0)
    (b := fun p => decide (p.server.changedFor 1 p.tables = []) &&
      (decide (1 ∈ p.server.interest.visibleTo 1) && (p.client.entities.find? 1).isSome))
    [.world [.spawn (sampleBase 100 5)], sampleSend, .deliver 0, .ack 1,
      .world [.mutate 1 (sampleBase 50 5)], sampleSend, .deliver 1, .ack 2]
    (by decide +kernel) with ⟨p, hp, hb⟩
  rw [Bool.and_eq_true, Bool.and_eq_true] at hb
  rcases Option.isSome_iff_exists.mp hb.2.2 with ⟨e, he⟩
  rcases converged id 1 0 p hp (of_decide_eq_true hb.1) 1 e (of_decide_eq_true hb.2.1) he with
    ⟨cur, hcur, heq⟩
  exact ⟨p, e, cur, hp, he, hcur, heq⟩

/-- The hp of the base falls and is delivered, but not acknowledged; then it is back
    where it was and another field changes. The record of that change is made
    against the acknowledged hp and leaves it out, and once it is acknowledged
    nothing is lacked: the client keeps the hp in between. -/
theorem field_lost : ∃ p e cur, Reaches (step id 1) free (start 0) p ∧
    p.flight.isEmpty = true ∧ p.server.changedFor 1 p.tables = [] ∧
    1 ∈ p.server.interest.visibleTo 1 ∧ p.client.entities.find? 1 = some e ∧
    p.server.snapshotEntityOf 1 = some cur ∧ e.hp = 50 ∧ cur.hp = 100 := by
  rcases exists_of_runLabels (m := step id 1) (s := start 0)
    (b := fun p => p.flight.isEmpty && (decide (p.server.changedFor 1 p.tables = []) &&
      (decide (1 ∈ p.server.interest.visibleTo 1) &&
        ((p.client.entities.find? 1).any (fun e => e.hp = 50) &&
          (p.server.snapshotEntityOf 1).any (fun cur => cur.hp = 100)))))
    [.world [.spawn (sampleBase 100 5)], sampleSend, .deliver 0, .ack 1,
      .world [.mutate 1 (sampleBase 50 5)], sampleSend, .deliver 1,
      .world [.mutate 1 (sampleBase 100 6)], sampleSend, .deliver 2, .ack 3,
      .drop 0, .drop 0, .drop 0] (by decide +kernel) with ⟨p, hp, hb⟩
  simp only [Bool.and_eq_true, decide_eq_true_eq, Option.any_eq_true] at hb
  rcases hb with ⟨hflight, hdone, hvis, ⟨e, he, hhp⟩, cur, hcur, hhp'⟩
  exact ⟨p, e, cur, hp, hflight, hdone, hvis, he, hcur, hhp, hhp'⟩

end Pipeline

end Sim

end EarthRise
