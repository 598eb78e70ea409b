import EarthRise.Theory.Pipeline

/-!
# What an Acknowledgement Proves

Whether the acknowledged version of an entity was ever received.

`Ack` folds every pending tick up to the acknowledged one, the lost ones too. That
is sound where the later snapshots repeat what the lost ones carried, and they do
not always: the byte budget, the cap and a field that has changed back all keep an
entity out of a later snapshot. `lost_ack` is such a run.

What every fold has to be covered by is a receipt. `AcksArrived` asks, of every
record that an acknowledgement folds, that the client received the record of that
tick, one of a later tick, or one of the same version. Since versions do not go
back over the ticks, no acknowledged version is then ahead of what was received,
and an acknowledgement that is not covered puts one ahead (`not_acked_of_uncovered`).

## Main definitions

* `Pipeline.AckedReceived`: The acknowledged version of an entity was received.
* `Pipeline.AcksArrived`: Every folded record is covered by a receipt.

## Theorems

* `acked_received`: The versions stay behind the receipts in covered runs.
* `lost_ack`: A run that acknowledges a version that was lost.
-/

namespace EarthRise

namespace Sim

open Universe Run

namespace Pipeline

/-- No more of an entity is acknowledged than the client received. -/
def AckedReceived (p : Pipeline) (n : NetId) : Prop :=
  p.tables.baseline.ackedVersion n = 0 ∨
    ∃ q ∈ p.received, q.Carries n ∧
      p.tables.baseline.ackedVersion n ≤ q.server.replVersion n

instance (p : Pipeline) (n : NetId) : Decidable (p.AckedReceived n) :=
  inferInstanceAs (Decidable (_ ∨ _))

/-- A receipt covers a record staged under a tick: it is of that tick or a later
    one, or of the same version. -/
def Covers (q : Packet) (s : Nat) (e : NetId × Nat) : Prop :=
  q.Carries e.1 ∧ (s ≤ q.snap.tick ∨ q.server.replVersion e.1 = e.2)

instance (q : Packet) (s : Nat) (e : NetId × Nat) : Decidable (Covers q s e) :=
  inferInstanceAs (Decidable (_ ∧ _))

/-- Everything that an acknowledgement folds is covered by a receipt. -/
def AcksArrived (p : Pipeline) : PipelineLabel → Prop
  | .ack tick => ∀ x ∈ p.tables.baseline.pending.entries, x.1 ≤ tick →
      ∀ e ∈ x.2, ∃ q ∈ p.received, Covers q x.1 e
  | _ => True

instance (p : Pipeline) : ∀ l : PipelineLabel, Decidable (p.AcksArrived l)
  | .ack _ => inferInstanceAs (Decidable (∀ x ∈ _, _))
  | .world _ | .send _ _ _ | .deliver _ | .drop _ => isTrue trivial

/-- Every acknowledged version is at most a received one. -/
def AckBound (p : Pipeline) : Prop :=
  ∀ n a, p.tables.baseline.acked.find? n = some a →
    ∃ q ∈ p.received, q.Carries n ∧ a ≤ q.server.replVersion n

section Steps

variable (sqrt : ℚ → ℚ) (clientId : NetId) (p : Pipeline)

/-- The versions of an entity in two packets are in the order of their ticks. -/
theorem version_mono (h : Linked clientId p) (q q' : Packet) (n : NetId) (hq : q ∈ p.sent)
    (hq' : q' ∈ p.sent) (hs : q.Sends n) (hs' : q'.Sends n) (hle : q.snap.tick ≤ q'.snap.tick) :
    q.server.replVersion n ≤ q'.server.replVersion n := by
  have hlater := h.chain q hq q' hq' hle
  have hid := (h.sound q hq).ok.ids n ((h.sound q hq).alive hs)
  exact (hlater.alive n hid ((h.sound q' hq').alive hs')).2.1

theorem covered_le (h : Linked clientId p) (s : Nat) (l : List (NetId × Nat))
    (hl : p.tables.baseline.pending.find? s = some l) (e : NetId × Nat) (he : e ∈ l)
    (q : Packet) (hq : q ∈ p.received) (hc : Covers q s e) : e.2 ≤ q.server.replVersion e.1 := by
  rcases hc with ⟨hcar, hle | heq⟩
  · rcases h.staged s l hl e he with ⟨q0, hq0, htick, hsends, hver⟩
    rw [← hver]
    exact version_mono clientId p h q0 q e.1 hq0 (h.received q hq) hsends hcar.sends (by omega)
  · exact Nat.le_of_eq heq.symm

theorem ackBound_ack (h : Linked clientId p) (hb : p.AckBound) (tick : Nat)
    (hg : p.AcksArrived (.ack tick)) :
    AckBound { p with tables := p.tables.ackClient tick } := by
  intro n a ha
  rcases p.tables.baseline.acked_ack tick n a ha with hold | hnew
  · exact hb n a hold
  · rcases (mem_baselineStaged _ tick (n, a)).mp hnew with ⟨s, l, hl, hs, he⟩
    rcases hg (s, l) ((OrdMap.mem_entries _ _ _).mpr hl) hs (n, a) he with ⟨q, hq, hc⟩
    exact ⟨q, hq, hc.1, covered_le clientId p h s l hl (n, a) he q hq hc⟩

theorem ackBound_step (l : PipelineLabel) (p' : Pipeline) (h : Linked clientId p)
    (hb : p.AckBound) (hg : p.AcksArrived l) (hstep : step sqrt clientId p l = some p') :
    p'.AckBound := by
  cases l with
  | world ops =>
      rw [step, Option.some.injEq] at hstep
      rw [← hstep]
      exact hb
  | send weights cap budget =>
      rw [step, Option.some.injEq] at hstep
      rw [← hstep]
      intro n a ha
      have hspec := (p.server.tombstonesFor_spec clientId p.tables).1.acked n
      -- Building a snapshot only forgets acknowledged versions.
      have ha' : (p.server.tombstonesFor clientId p.tables).2.baseline.acked.find? n = some a := by
        rw [← ha]
        exact congrArg (OrdMap.find? · n) (acked_buildPacket sqrt clientId p weights cap budget).symm
      rw [ha'] at hspec
      by_cases hv : n ∈ p.server.interest.visibleTo clientId
      · rw [if_pos hv] at hspec
        exact hb n a hspec.symm
      · rw [if_neg hv] at hspec
        cases hspec
  | deliver i =>
      rcases step_deliver sqrt clientId p h i p' hstep with ⟨q, _, st', rfl, _⟩
      intro n a ha
      rcases hb n a ha with ⟨q', hq', hrest⟩
      exact ⟨q', List.mem_append_left _ hq', hrest⟩
  | drop i =>
      rw [step_drop sqrt clientId p i p' hstep]
      exact hb
  | ack tick =>
      rw [(step_ack sqrt clientId p h tick p' hstep).1]
      exact ackBound_ack clientId p h hb tick hg

/-- What the covered runs keep. -/
theorem ackBound_of_reaches (tick : Fin 4294967295) (G : Pipeline → PipelineLabel → Prop)
    (hG : ∀ p l, G p l → p.NoWrap l ∧ p.AcksArrived l)
    (hr : Reaches (step sqrt clientId) G (start tick) p) :
    Linked clientId p ∧ p.AckBound := by
  refine Reaches.invariant (I := fun p => Linked clientId p ∧ p.AckBound) ?_ hr
    ⟨linked_start clientId tick, ?_⟩
  · intro p l p' hI hg hstep
    rcases hG p l hg with ⟨hw, ha⟩
    exact ⟨linked_step sqrt clientId p l p' hI.1 hw hstep,
      ackBound_step sqrt clientId p l p' hI.1 hI.2 ha hstep⟩
  · intro n a ha
    exact absurd ha (by simp [start, ClientTables.fresh, ClientBaseline.fresh])

end Steps

/-- In every run whose counters do not wrap and whose acknowledgements fold only
    what a receipt covers, no more of an entity is acknowledged than was received,
    and an entity whose version was never received is still to be sent. -/
theorem acked_received (sqrt : ℚ → ℚ) (clientId : NetId) (tick : Fin 4294967295) (p : Pipeline)
    (h : Reaches (step sqrt clientId) (fun p l => p.NoWrap l ∧ p.AcksArrived l) (start tick) p) :
    (∀ n, p.AckedReceived n) ∧
      ∀ n ∈ p.server.interest.visibleTo clientId,
        (∀ q ∈ p.received, q.Carries n → q.server.replVersion n < p.server.replVersion n) →
        n ∈ p.server.changedFor clientId p.tables := by
  rcases ackBound_of_reaches sqrt clientId p tick _ (fun _ _ hg => hg) h with ⟨hl, hb⟩
  have hall : ∀ n, p.AckedReceived n := by
    intro n
    unfold AckedReceived ClientBaseline.ackedVersion
    cases ha : p.tables.baseline.acked.find? n with
    | none => exact Or.inl rfl
    | some a =>
        rcases hb n a ha with ⟨q, hq, hc, hle⟩
        exact Or.inr ⟨q, hq, hc, hle⟩
  refine ⟨hall, fun n hn hlost => ?_⟩
  refine List.mem_filter.mpr ⟨hn, decide_eq_true ?_⟩
  rcases hall n with h0 | ⟨q, hq, hc, hle⟩
  · have hpos := p.server.version_pos_of_alive hl.server_ok n
      (p.server.alive_of_visible hl.server_ok clientId n hn)
    omega
  · have := hlost q hq hc
    omega

/-- The run of a base that is sent and acknowledged. -/
theorem acked_received_base : ∃ p, Reaches (step id 1) (fun p l => p.NoWrap l ∧ p.AcksArrived l)
    (start 0) p ∧ p.tables.baseline.ackedVersion 1 = 1 ∧
    ((∀ n, p.AckedReceived n) ∧
      ∀ n ∈ p.server.interest.visibleTo 1,
        (∀ q ∈ p.received, q.Carries n → q.server.replVersion n < p.server.replVersion n) →
        n ∈ p.server.changedFor 1 p.tables) := by
  rcases exists_of_runGuarded (m := step id 1) (G := fun p l => p.NoWrap l ∧ p.AcksArrived l)
    (s := start 0) (b := fun p => p.tables.baseline.ackedVersion 1 = 1)
    [.world [.spawn (sampleBase 100 5)], sampleSend, .deliver 0, .ack 1] (by decide +kernel) with
    ⟨p, hp, hb⟩
  exact ⟨p, hp, of_decide_eq_true hb, acked_received id 1 0 p hp⟩

/-- The snapshot with the base's new hp is lost. When the hp is back, the base has
    no place in the next snapshot, and the acknowledgement of that one folds the
    version that was lost. -/
theorem lost_ack : ∃ p, Reaches (step id 1) free (start 0) p ∧ ¬ p.AckedReceived 1 := by
  rcases exists_of_runLabels (m := step id 1) (s := start 0)
    (b := fun p => decide (¬ p.AckedReceived 1))
    [.world [.spawn (sampleBase 100 5)], sampleSend, .deliver 0, .ack 1,
      .world [.mutate 1 (sampleBase 50 5)], sampleSend,
      .world [.mutate 1 (sampleBase 100 5), .spawn (sampleProp 500)], sampleSend,
      .deliver 2, .ack 3] (by decide +kernel) with ⟨p, hp, hb⟩
  exact ⟨p, hp, of_decide_eq_true hb⟩

/-- An acknowledgement that folds an uncovered record puts its version ahead of
    everything received. -/
theorem not_acked_of_uncovered (clientId : NetId) (p : Pipeline) (tick s : Nat)
    (l : List (NetId × Nat)) (e : NetId × Nat) (h : Linked clientId p)
    (hl : p.tables.baseline.pending.find? s = some l) (hs : s ≤ tick) (he : e ∈ l)
    (hun : ∀ q ∈ p.received, ¬ Covers q s e) :
    ¬ AckedReceived { p with tables := p.tables.ackClient tick } e.1 := by
  have hstaged : (e.1, e.2) ∈ p.tables.baseline.staged tick :=
    (mem_baselineStaged _ tick _).mpr ⟨s, l, hl, hs, he⟩
  rcases p.tables.baseline.le_acked_ack tick e.1 e.2 hstaged with ⟨a, ha, hle⟩
  rcases h.staged s l hl e he with ⟨q0, hq0, htick, hsends, hver⟩
  have hv : ClientBaseline.ackedVersion (p.tables.ackClient tick).baseline e.1 = a := by
    unfold ClientBaseline.ackedVersion
    have ha' : (p.tables.ackClient tick).baseline.acked.find? e.1 = some a := ha
    rw [ha', Option.getD_some]
  have hpos := q0.server.version_pos_of_alive (h.sound q0 hq0).ok e.1
    ((h.sound q0 hq0).alive hsends)
  unfold AckedReceived
  simp only [hv]
  rintro (h0 | ⟨q, hq, hcar, hqa⟩)
  · omega
  · -- A receipt of an earlier tick has at most the version, and not this one.
    have hnot := hun q hq
    have htick' : ¬ s ≤ q.snap.tick := fun hle => hnot ⟨hcar, Or.inl hle⟩
    have hne : q.server.replVersion e.1 ≠ e.2 := fun heq => hnot ⟨hcar, Or.inr heq⟩
    have hmono := version_mono clientId p h q q0 e.1 (h.received q hq) hq0 hcar.sends hsends
      (by omega)
    omega

end Pipeline

end Sim

end EarthRise
