import EarthRise.Lib.Aging
import EarthRise.Lib.Exact
import EarthRise.Theory.Pipeline
import Mathlib.Data.List.Infix

/-!
# Starvation

What keeps a lacked entity from being passed over for ever, and when it does not.

A priority is a start, which distance and relevance make, aged by the ticks since
the entity was last sent. The last-sent table is where these ticks come from, and it
has no entry for an entity that was never sent: its priority stays at its start
however long it waits (`never_sent_stays`). An entity in the table ages at every
tick until its count of ticks wraps.

That an aging entity is sent in the end is an argument about the others. What goes
before it ranks ahead of it. Once it is above every start, whatever ranks ahead has
been sent before and has waited for its share of the time, and `Aging.served_bound`
bounds how often that can happen.

## Main definitions

* `Pipeline.Turn`: From one snapshot of a client to the next.
* `Pipeline.Ages`: The entity is in the last-sent table and its count is not full.
* `Pipeline.Overtaken`: It has something to send, and others are sent.
* `Pipeline.Waiting`: Turns in which a lacked entity is not sent.

## Theorems

* `passed_ahead`: What is sent instead ranks ahead.
* `Turn.lastSent`, `Turn.tick`: What a turn does to the table and the clock.
* `waiting_ages`: When a priority rises, and for how long others can go first.
* `never_sent_stays`: An entity that was never sent.
-/

namespace EarthRise

namespace Sim

open Universe Run Aging

/-! ## Priorities as aged starts -/

/-- Every weight is positive. -/
structure RelevanceWeights.Positive (w : RelevanceWeights) : Prop where
  own : 0 < w.own
  enemy : 0 < w.enemy
  neutral : 0 < w.neutral
  baseBonus : 0 < w.baseBonus
  targetBonus : 0 < w.targetBonus
  distanceScale : 0 < w.distanceScale
  stalenessPerTick : 0 < w.stalenessPerTick

/-- The highest relevance there is. -/
def RelevanceWeights.highest (w : RelevanceWeights) : ℚ :=
  max w.own (max w.enemy w.neutral) + w.baseBonus + w.targetBonus

namespace SchedCandidate

/-- The priority of a candidate that has just been sent. -/
def start (c : SchedCandidate) (w : RelevanceWeights) : ℚ :=
  snapshotPriority { c with staleness := 0 } w

theorem priority_eq (c : SchedCandidate) (w : RelevanceWeights) :
    snapshotPriority c w = aged (c.start w) w.stalenessPerTick c.staleness := by
  unfold start snapshotPriority aged
  simp only [Nat.cast_zero, mul_zero, add_zero, mul_one]

/-- The relevance, before the distance. -/
def relevance (c : SchedCandidate) (w : RelevanceWeights) : ℚ :=
  (match c.iff with
    | .own => w.own
    | .enemy => w.enemy
    | .neutral => w.neutral) + (if c.isBase then w.baseBonus else 0) +
    (if c.isTarget then w.targetBonus else 0)

theorem start_eq (c : SchedCandidate) (w : RelevanceWeights) :
    c.start w = c.relevance w * (1 / (1 + c.distance / w.distanceScale)) := by
  unfold start snapshotPriority relevance
  simp only [Nat.cast_zero, mul_zero, add_zero, mul_one]
  cases c.iff <;> cases c.isBase <;> cases c.isTarget <;> simp

theorem relevance_bounds (c : SchedCandidate) {w : RelevanceWeights} (hw : w.Positive) :
    0 < c.relevance w ∧ c.relevance w ≤ w.highest := by
  have hbase : 0 ≤ (if c.isBase then w.baseBonus else 0) ∧
      (if c.isBase then w.baseBonus else 0) ≤ w.baseBonus := by
    split
    · exact ⟨le_of_lt hw.baseBonus, le_refl _⟩
    · exact ⟨le_refl _, le_of_lt hw.baseBonus⟩
  have htarget : 0 ≤ (if c.isTarget then w.targetBonus else 0) ∧
      (if c.isTarget then w.targetBonus else 0) ≤ w.targetBonus := by
    split
    · exact ⟨le_of_lt hw.targetBonus, le_refl _⟩
    · exact ⟨le_refl _, le_of_lt hw.targetBonus⟩
  have hown : w.own ≤ max w.own (max w.enemy w.neutral) := le_max_left _ _
  have henemy : w.enemy ≤ max w.own (max w.enemy w.neutral) :=
    le_trans (le_max_left _ _) (le_max_right _ _)
  have hneutral : w.neutral ≤ max w.own (max w.enemy w.neutral) :=
    le_trans (le_max_right _ _) (le_max_right _ _)
  have hpos := hw.own
  have hpos' := hw.enemy
  have hpos'' := hw.neutral
  unfold relevance RelevanceWeights.highest
  cases c.iff <;> simp only <;> exact ⟨by linarith, by linarith⟩

/-- A start is positive, and no higher than the highest relevance. -/
theorem start_bounds (c : SchedCandidate) {w : RelevanceWeights} (hw : w.Positive)
    (hd : 0 ≤ c.distance) : 0 < c.start w ∧ c.start w ≤ w.highest := by
  rcases relevance_bounds c hw with ⟨hpos, hle⟩
  have hfar : 0 ≤ c.distance / w.distanceScale := div_nonneg hd (le_of_lt hw.distanceScale)
  have hone : (1 : ℚ) ≤ 1 + c.distance / w.distanceScale := by linarith
  have hfall : 1 / (1 + c.distance / w.distanceScale) ≤ 1 := by
    rw [div_le_one (by linarith)]
    exact hone
  have hfall0 : 0 < 1 / (1 + c.distance / w.distanceScale) := one_div_pos.mpr (by linarith)
  rw [start_eq]
  refine ⟨mul_pos hpos hfall0, ?_⟩
  calc c.relevance w * (1 / (1 + c.distance / w.distanceScale)) ≤ c.relevance w * 1 :=
        mul_le_mul_of_nonneg_left hfall (le_of_lt hpos)
    _ ≤ w.highest := by rw [mul_one]; exact hle

end SchedCandidate

/-! ## What is sent instead -/

/-- If a list's images are cut and then sent up to a point, and one of them is not
    sent, then what is sent comes before it in the list. -/
theorem sent_before {α β : Type} (f : α → Option β) (l : List α) (k : Nat)
    (tail sent rest : List β) (hsplit : (l.take k).filterMap f ++ tail = sent ++ rest) (a : α)
    (ha : a ∈ l) (b : β) (hb : f a = some b) (hnot : b ∉ sent) :
    ∃ l1 l2, l = l1 ++ a :: l2 ∧ ∀ x ∈ sent, x ∈ tail ∨ ∃ a' ∈ l1, f a' = some x := by
  rcases List.append_of_mem ha with ⟨l1, l2, hl⟩
  refine ⟨l1, l2, hl, fun x hx => ?_⟩
  by_cases hk : k ≤ l1.length
  · -- The cut is before it.
    have htake : l.take k = l1.take k := by rw [hl, List.take_append_of_le_length hk]
    have hmem : x ∈ (l1.take k).filterMap f ++ tail := by
      rw [← htake, hsplit]
      exact List.mem_append_left _ hx
    rcases List.mem_append.mp hmem with hmem | hmem
    · rcases List.mem_filterMap.mp hmem with ⟨a', ha', hf⟩
      exact Or.inr ⟨a', List.mem_of_mem_take ha', hf⟩
    · exact Or.inl hmem
  · have htake : l.take k = l1 ++ a :: l2.take (k - l1.length - 1) := by
      rw [hl, List.take_append, List.take_of_length_le (by omega)]
      have hsucc : k - l1.length = (k - l1.length - 1) + 1 := by omega
      rw [hsucc, List.take_succ_cons, Nat.add_sub_cancel]
    rw [htake, List.filterMap_append, List.filterMap_cons_some hb, List.append_assoc] at hsplit
    have hmem : x ∈ l1.filterMap f := by
      rcases List.append_eq_append_iff.mp hsplit with ⟨as, hsent, has⟩ | ⟨as, hhead, _⟩
      · cases as with
        | nil =>
            rw [List.append_nil] at hsent
            exact hsent ▸ hx
        | cons y as =>
            rw [List.cons_append, List.cons_append, List.cons.injEq] at has
            refine absurd ?_ hnot
            rw [hsent, has.1]
            exact List.mem_append_right _ List.mem_cons_self
      · rw [hhead]
        exact List.mem_append_left _ hx
    rcases List.mem_filterMap.mp hmem with ⟨a', ha', hf⟩
    exact Or.inr ⟨a', ha', hf⟩

/-! ## The count of ticks -/

/-- The ticks from one to another, by a clock of 32 bits. -/
def ticksSince (now sent : Nat) : Nat := (now + 2 ^ 32 - sent) % 2 ^ 32

theorem ticksSince_lt (now sent : Nat) : ticksSince now sent < 2 ^ 32 := Nat.mod_lt _ (by decide)

theorem ticksSince_succ {now sent : Nat} (hnow : now < 2 ^ 32) (hsent : sent < 2 ^ 32) :
    ticksSince ((now + 1) % 2 ^ 32) sent = (ticksSince now sent + 1) % 2 ^ 32 := by
  unfold ticksSince
  omega

/-- Ticks that are `d` apart on a clock that may have wrapped. -/
theorem ticksSince_add {t0 i d : Nat} (hd : d < 2 ^ 32) :
    ticksSince ((t0 + (i + d)) % 2 ^ 32) ((t0 + i) % 2 ^ 32) = d := by
  unfold ticksSince
  omega

theorem lt_count_succ {k : Nat} (hk : k < 2 ^ 32) :
    k < (k + 1) % 2 ^ 32 ↔ k ≠ 2 ^ 32 - 1 := by
  omega

namespace ServerUniverse

/-- The ticks since the client was last sent an entity, none if it never was. -/
def staleness (u : ServerUniverse) (t : ClientTables) (n : NetId) : Nat :=
  (t.lastSent.find? n).elim 0 (ticksSince u.tick)

variable (sqrt : ℚ → ℚ) (u : ServerUniverse) (clientId : NetId) (weights : RelevanceWeights)
  (cap budget : Nat) (t : ClientTables) {n : NetId} {c : SchedCandidate}

theorem candidate_staleness
    (h : u.candidate sqrt clientId t n = some c) : c.staleness = u.staleness t n := by
  unfold candidate at h
  rcases Option.map_eq_some_iff.mp h with ⟨cur, _, rfl⟩
  rfl

theorem candidate_distance (hsqrt : ∀ x, 0 ≤ sqrt x)
    (h : u.candidate sqrt clientId t n = some c) : 0 ≤ c.distance := by
  unfold candidate at h
  rcases Option.map_eq_some_iff.mp h with ⟨cur, _, rfl⟩
  cases hfocus : u.getBasePos clientId with
  | none => exact le_refl _
  | some focus => exact hsqrt _

theorem liveRecord_netId {r : DeltaRecord} (h : u.liveRecord t n = some r) :
    r.netId = n ∧ r.mask.tomb = false := by
  rcases liveRecord_some u t n r h with ⟨cur, hcur, rfl, _⟩
  rcases Option.map_eq_some_iff.mp hcur with ⟨e, _, rfl⟩
  exact ⟨makeDeltaRecord_netId _ _, makeDeltaRecord_tomb _ _⟩

/-- A lacked entity with something to send that is not sent: what is sent of others
    ranks ahead of it. -/
theorem passed_ahead (hlack : n ∈ u.changedFor clientId t)
    (hc : u.candidate sqrt clientId t n = some c) (hlive : (u.liveRecord t n).isSome = true)
    (hnot : ∀ r ∈ (u.buildClientSnapshot sqrt clientId weights cap budget t).1.snap.records,
      r.netId = n → r.mask.tomb = true) (r : DeltaRecord)
    (hr : r ∈ (u.buildClientSnapshot sqrt clientId weights cap budget t).1.snap.records)
    (htomb : r.mask.tomb = false) :
    ∃ c', u.candidate sqrt clientId t r.netId = some c' ∧
      snapshotPriority c weights ≤ snapshotPriority c' weights := by
  rcases build_split sqrt u clientId weights cap budget t with ⟨rest, hsplit, _⟩
  rcases Option.isSome_iff_exists.mp hlive with ⟨rn, hrn⟩
  rcases liveRecord_netId u t hrn with ⟨hid, hnotomb⟩
  let cands := (u.changedFor clientId t).filterMap (u.candidate sqrt clientId t)
  let ranked := Ranking.rank (fun c => snapshotPriority c weights) SchedCandidate.netId cands
  have hranked : c ∈ ranked :=
    (Ranking.perm_rank _ _ cands).mem_iff.mpr (List.mem_filterMap.mpr ⟨n, hlack, hc⟩)
  have hcid := candidate_netId sqrt u clientId t n c hc
  have hcut : ∃ k, u.liveRecords sqrt clientId weights cap t =
      (ranked.take k).filterMap fun c => u.liveRecord t c.netId :=
    ⟨_, List.filterMap_map⟩
  rcases hcut with ⟨k, hcut⟩
  rw [hcut] at hsplit
  rcases sent_before (fun c => u.liveRecord t c.netId) ranked k _ _ rest hsplit c hranked rn
    (by simp only [hcid, hrn]) (fun hmem => by
      rw [hnot rn hmem hid] at hnotomb
      exact Bool.false_ne_true hnotomb.symm) with ⟨l1, l2, hl, hsent⟩
  rcases hsent r hr with htail | ⟨c', hc', hlive'⟩
  · rcases List.mem_map.mp htail with ⟨m, _, rfl⟩
    exact absurd (show true = false from htomb) (by decide)
  · have hid' := (liveRecord_netId u t hlive').1
    have hmem : c' ∈ cands := by
      refine (Ranking.perm_rank (fun c => snapshotPriority c weights) SchedCandidate.netId
        cands).mem_iff.mp ?_
      show c' ∈ ranked
      rw [hl]
      exact List.mem_append_left _ hc'
    rcases List.mem_filterMap.mp hmem with ⟨m, _, hm⟩
    have hmid := candidate_netId sqrt u clientId t m c' hm
    refine ⟨c', by rw [hid', hmid]; exact hm, ?_⟩
    have hsorted := List.pairwise_insertionSort
      (Ranking.Before (fun c => snapshotPriority c weights) SchedCandidate.netId) cands
    have hbefore : Ranking.Before (fun c => snapshotPriority c weights) SchedCandidate.netId c' c := by
      have hsplit' : (l1 ++ c :: l2).Pairwise
          (Ranking.Before (fun c => snapshotPriority c weights) SchedCandidate.netId) := hl ▸ hsorted
      exact (List.pairwise_append.mp hsplit').2.2 c' hc' c List.mem_cons_self
    rcases hbefore with hlt | ⟨heq, _⟩
    · exact le_of_lt hlt
    · exact le_of_eq heq.symm

end ServerUniverse

namespace Pipeline

variable (sqrt : ℚ → ℚ) (clientId : NetId) (w : RelevanceWeights)

/-! ## Turns -/

/-- What the network and the client do. -/
def OfNetwork : Pipeline → PipelineLabel → Prop
  | _, .deliver _ | _, .drop _ | _, .ack _ => True
  | _, .world _ | _, .send .. => False

/-- A snapshot is sent, and one step of the world is taken before the next; the network
    does what it will. -/
def Turn (cap budget : Nat) (p p' : Pipeline) : Prop :=
  ∃ q ops, Reaches (step sqrt clientId) OfNetwork (p.sendSnapshot sqrt clientId w cap budget) q ∧
    Reaches (step sqrt clientId) OfNetwork { q with server := q.server.step ops } p'

/-- The clock and the table's ticks have 32 bits. -/
def Clocked (p : Pipeline) : Prop :=
  p.server.tick < 2 ^ 32 ∧ ∀ n s, p.tables.lastSent.find? n = some s → s < 2 ^ 32

variable {sqrt clientId w} {p p' : Pipeline}

theorem tick_step' (u : ServerUniverse) (ops : List WorldOp) :
    (u.step ops).tick = (u.tick + 1) % 2 ^ 32 := by
  have hops : ∀ u : ServerUniverse, (ops.foldl ServerUniverse.applyOp u).tick = u.tick := by
    induction ops with
    | nil => exact fun _ => rfl
    | cons op ops ih =>
        intro u
        refine (ih (u.applyOp op)).trans ?_
        cases op with
        | spawn e => rfl
        | mutate n e =>
            simp only [ServerUniverse.applyOp]
            split <;> rfl
        | destroyUnit n => rfl
        | prefetchTravelInterest n dest =>
            simp only [ServerUniverse.applyOp]
            split
            · rfl
            · split <;> rfl
  exact congrArg (fun k => (k + 1) % 2 ^ 32) (hops u)

/-- A snapshot's entities are last sent now; the others when they were. -/
theorem lastSent_sendSnapshot (cap budget : Nat) (p : Pipeline) (n : NetId) :
    ((p.buildPacket sqrt clientId w cap budget).1.Sends n →
      (p.sendSnapshot sqrt clientId w cap budget).tables.lastSent.find? n = some p.server.tick) ∧
    (¬ (p.buildPacket sqrt clientId w cap budget).1.Sends n →
      (p.sendSnapshot sqrt clientId w cap budget).tables.lastSent.find? n =
        p.tables.lastSent.find? n) := by
  have htable : (p.sendSnapshot sqrt clientId w cap budget).tables.lastSent =
      p.tables.lastSent.insertAll
        (((p.buildPacket sqrt clientId w cap budget).1.snap.records.filter fun r =>
          !r.mask.tomb).map fun r => (r.netId, p.server.tick)) := by
    have hspec := (p.server.tombstonesFor_spec clientId p.tables).1.lastSent
    rw [← hspec]
    show OrdMap.insertAll _ (List.map _ (List.map _ _)) = _
    rw [List.map_map]
    rfl
  rw [htable]
  constructor
  · rintro ⟨r, hr, hn, htomb⟩
    refine OrdMap.find?_insertAll_of_forall _ _ n _ ?_ ?_
    · intro v hv
      rcases List.mem_map.mp hv with ⟨r', _, heq⟩
      rw [Prod.mk.injEq] at heq
      exact heq.2.symm
    · exact List.mem_map.mpr ⟨r, List.mem_filter.mpr ⟨hr, by rw [htomb]; rfl⟩, by rw [hn]⟩
  · intro hnot
    refine OrdMap.find?_insertAll_of_not_mem _ _ n ?_
    intro e he hen
    rcases List.mem_map.mp he with ⟨r, hr, rfl⟩
    rw [List.mem_filter, Bool.not_eq_true'] at hr
    exact hnot ⟨r, hr.1, hen, hr.2⟩

theorem step_ofNetwork {l : PipelineLabel} (hl : OfNetwork p l)
    (h : step sqrt clientId p l = some p') :
    p'.server = p.server ∧ p'.tables.lastSent = p.tables.lastSent := by
  cases l with
  | world ops => exact hl.elim
  | send weights cap budget => exact hl.elim
  | deliver i =>
      simp only [step] at h
      split at h
      · cases h
      · split at h
        all_goals
          rw [Option.some.injEq] at h
          rw [← h]
          exact ⟨rfl, rfl⟩
  | drop i =>
      simp only [step] at h
      split at h
      · rw [Option.some.injEq] at h
        rw [← h]
        exact ⟨rfl, rfl⟩
      · cases h
  | ack tick =>
      simp only [step] at h
      split at h
      · rw [Option.some.injEq] at h
        rw [← h]
        exact ⟨rfl, rfl⟩
      · cases h

theorem reaches_ofNetwork (h : Reaches (step sqrt clientId) OfNetwork p p') :
    p'.server = p.server ∧ p'.tables.lastSent = p.tables.lastSent := by
  refine Reaches.invariant
    (I := fun q => q.server = p.server ∧ q.tables.lastSent = p.tables.lastSent) ?_ h ⟨rfl, rfl⟩
  intro q l q' hq hl hstep
  rcases step_ofNetwork hl hstep with ⟨hserver, hsent⟩
  exact ⟨hserver.trans hq.1, hsent.trans hq.2⟩

/-- The table after a turn. -/
theorem Turn.lastSent {cap budget : Nat}
    (h : Turn sqrt clientId w cap budget p p') (n : NetId) :
    ((p.buildPacket sqrt clientId w cap budget).1.Sends n →
      p'.tables.lastSent.find? n = some p.server.tick) ∧
    (¬ (p.buildPacket sqrt clientId w cap budget).1.Sends n →
      p'.tables.lastSent.find? n = p.tables.lastSent.find? n) := by
  rcases h with ⟨q, ops, hq, hp'⟩
  rw [(reaches_ofNetwork hp').2, (reaches_ofNetwork hq).2]
  exact lastSent_sendSnapshot cap budget p n

/-- The clock after a turn. -/
theorem Turn.tick {cap budget : Nat}
    (h : Turn sqrt clientId w cap budget p p') :
    p'.server.tick = (p.server.tick + 1) % 2 ^ 32 := by
  rcases h with ⟨q, ops, hq, hp'⟩
  rw [(reaches_ofNetwork hp').1]
  show (q.server.step ops).tick = _
  rw [tick_step', (reaches_ofNetwork hq).1]
  rfl

theorem clocked_start (tick : Fin 4294967295) : Clocked (start tick) :=
  ⟨Nat.lt_succ_of_lt tick.isLt, fun _ _ h => absurd h (by simp [start, ClientTables.fresh])⟩

theorem Clocked.step (h : Clocked p) (l : PipelineLabel)
    (hstep : Pipeline.step sqrt clientId p l = some p') : Clocked p' := by
  have hnet : OfNetwork p l → Clocked p' := by
    intro hl
    rcases step_ofNetwork hl hstep with ⟨hserver, hsent⟩
    unfold Clocked
    rw [hserver, hsent]
    exact h
  cases l with
  | world ops =>
      simp only [Pipeline.step, Option.some.injEq] at hstep
      rw [← hstep]
      refine ⟨?_, h.2⟩
      show (p.server.step ops).tick < _
      rw [tick_step']
      exact Nat.mod_lt _ (by decide)
  | send weights cap budget =>
      simp only [Pipeline.step, Option.some.injEq] at hstep
      rw [← hstep]
      refine ⟨h.1, fun n s hs => ?_⟩
      rcases @lastSent_sendSnapshot sqrt clientId weights cap budget p n with ⟨hyes, hno⟩
      by_cases hn : (p.buildPacket sqrt clientId weights cap budget).1.Sends n
      · rw [hyes hn, Option.some.injEq] at hs
        exact hs ▸ h.1
      · exact h.2 n s ((hno hn).symm.trans hs)
  | deliver i => exact hnet trivial
  | drop i => exact hnet trivial
  | ack tick => exact hnet trivial

deriving instance DecidableEq for SchedCandidate

instance (q : Packet) (n : NetId) : Decidable (q.Sends n) :=
  inferInstanceAs (Decidable (∃ r ∈ q.snap.records, r.netId = n ∧ r.mask.tomb = false))

/-! ## Waiting -/

/-- The ticks since the client was last sent an entity. -/
def staleness (p : Pipeline) (n : NetId) : Nat := p.server.staleness p.tables n

/-- The entity was sent before, and its count of ticks is not about to wrap. -/
def Ages (p : Pipeline) (n : NetId) : Prop :=
  (p.tables.lastSent.find? n).isSome = true ∧ p.staleness n ≠ 2 ^ 32 - 1

instance (p : Pipeline) (n : NetId) : Decidable (p.Ages n) := inferInstanceAs (Decidable (_ ∧ _))

variable (sqrt clientId w)

/-- The entity has something to send, and a snapshot is sent that has others in it. -/
def Overtaken (cap budget : Nat) (p : Pipeline) (n : NetId) : Prop :=
  (p.server.liveRecord p.tables n).isSome = true ∧
    ∃ m, (p.buildPacket sqrt clientId w cap budget).1.Sends m

/-- `T` turns of a client, from any state a run can be in, in which a lacked entity is
    not sent, while nothing about it changes that its priority depends on but the time. -/
structure Waiting (cap budget : Nat → Nat) (p : Nat → Pipeline) (T : Nat) (n : NetId)
    (c : SchedCandidate) : Prop where
  reached : ∃ tick, Reaches (step sqrt clientId) free (Pipeline.start tick) (p 0)
  turn : ∀ i < T, Turn sqrt clientId w (cap i) (budget i) (p i) (p (i + 1))
  lacked : ∀ i < T, n ∈ (p i).server.changedFor clientId (p i).tables
  unsent : ∀ i < T, ¬ ((p i).buildPacket sqrt clientId w (cap i) (budget i)).1.Sends n
  same : ∀ i ≤ T, (p i).server.candidate sqrt clientId (p i).tables n =
    some { c with staleness := (p i).staleness n }

/-- The priority of the entity that waits. -/
def priority (c : SchedCandidate) (p : Pipeline) (n : NetId) : ℚ :=
  snapshotPriority { c with staleness := p.staleness n } w

variable {sqrt clientId w} {cap budget : Nat → Nat} {p : Nat → Pipeline} {T : Nat} {n : NetId}
  {c : SchedCandidate} {i : Nat}

theorem priority_eq (c : SchedCandidate) (p : Pipeline) (n : NetId) :
    priority w c p n = aged (c.start w) w.stalenessPerTick (p.staleness n) :=
  SchedCandidate.priority_eq _ w

theorem Waiting.distance (hsqrt : ∀ x, 0 ≤ sqrt x)
    (h : Waiting sqrt clientId w cap budget p T n c) : 0 ≤ c.distance :=
  (p 0).server.candidate_distance (c := { c with staleness := (p 0).staleness n }) sqrt clientId
    (p 0).tables hsqrt (h.same 0 (Nat.zero_le T))

theorem Waiting.clocked (h : Waiting sqrt clientId w cap budget p T n c) :
    ∀ i ≤ T, Clocked (p i) := by
  intro i
  induction i with
  | zero =>
      intro _
      rcases h.reached with ⟨tick, hrun⟩
      exact Reaches.invariant (I := Clocked) (fun _ l _ hc _ hstep => hc.step l hstep) hrun
        (clocked_start tick)
  | succ i ih =>
      intro hi
      have hc := ih (Nat.le_of_succ_le hi)
      have hturn := h.turn i hi
      refine ⟨by rw [hturn.tick]; exact Nat.mod_lt _ (by decide), fun m s hs => ?_⟩
      by_cases hm : ((p i).buildPacket sqrt clientId w (cap i) (budget i)).1.Sends m
      · rw [(hturn.lastSent m).1 hm, Option.some.injEq] at hs
        exact hs ▸ hc.1
      · exact hc.2 m s (((hturn.lastSent m).2 hm).symm.trans hs)

theorem staleness_lt (p : Pipeline) (n : NetId) : p.staleness n < 2 ^ 32 := by
  unfold staleness ServerUniverse.staleness
  cases p.tables.lastSent.find? n with
  | none =>
      rw [Option.elim_none]
      exact Nat.two_pow_pos 32
  | some sent =>
      rw [Option.elim_some]
      exact ticksSince_lt _ _

/-- An entity in the table is a tick staler at the next turn; the count wraps. -/
theorem Waiting.staleness_succ (h : Waiting sqrt clientId w cap budget p T n c)
    (hi : i < T) : (p (i + 1)).staleness n =
      if ((p i).tables.lastSent.find? n).isSome = true then ((p i).staleness n + 1) % 2 ^ 32
      else 0 := by
  have hsame := ((h.turn i hi).lastSent n).2 (h.unsent i hi)
  have hc := h.clocked i (Nat.le_of_lt hi)
  unfold staleness ServerUniverse.staleness
  rw [hsame, (h.turn i hi).tick]
  cases hf : (p i).tables.lastSent.find? n with
  | none => simp only [Option.isSome_none, Bool.false_eq_true, if_false, Option.elim_none]
  | some sent =>
      rw [if_pos Option.isSome_some, Option.elim_some, Option.elim_some]
      exact ticksSince_succ hc.1 (hc.2 n sent hf)

/-- One step: the priority rises if and only if the entity ages. -/
theorem Waiting.rises_iff (hw : w.Positive) (hsqrt : ∀ x, 0 ≤ sqrt x)
    (h : Waiting sqrt clientId w cap budget p T n c) (hi : i < T) :
    priority w c (p i) n < priority w c (p (i + 1)) n ↔ (p i).Ages n := by
  have hd := h.distance hsqrt
  have hpos := (c.start_bounds hw hd).1
  have hσ := hw.stalenessPerTick
  have hnext := h.staleness_succ hi
  have hlt32 := (p i).staleness_lt n
  rw [priority_eq, priority_eq]
  unfold Ages
  by_cases hf : ((p i).tables.lastSent.find? n).isSome = true
  · rw [if_pos hf] at hnext
    rw [hnext, ← lt_count_succ hlt32]
    constructor
    · intro hlt
      refine ⟨hf, ?_⟩
      by_contra hge
      exact absurd hlt (not_lt_of_ge (aged_mono hpos hσ (Nat.le_of_not_lt hge)))
    · exact fun hages => aged_lt hpos hσ hages.2
  · rw [if_neg hf] at hnext
    rw [hnext]
    constructor
    · intro hlt
      exact absurd hlt (not_lt_of_ge (aged_mono hpos hσ (Nat.zero_le _)))
    · exact fun hages => absurd hages.1 hf

/-- An entity that was never sent does not rise, however long it waits. -/
theorem Waiting.stays (h : Waiting sqrt clientId w cap budget p T n c)
    (hnone : (p 0).tables.lastSent.find? n = none) :
    ∀ i ≤ T, priority w c (p i) n = c.start w := by
  have hnever : ∀ i ≤ T, (p i).tables.lastSent.find? n = none := by
    intro i
    induction i with
    | zero => exact fun _ => hnone
    | succ i ih =>
        intro hi
        rw [((h.turn i hi).lastSent n).2 (h.unsent i hi)]
        exact ih (Nat.le_of_succ_le hi)
  intro i hi
  have hzero : (p i).staleness n = 0 := by
    unfold staleness ServerUniverse.staleness
    rw [hnever i hi, Option.elim_none]
  rw [priority_eq, hzero, aged_zero]

/-- An entity that was sent before ages at every turn if its count has room for them. -/
theorem Waiting.ages (h : Waiting sqrt clientId w cap budget p T n c)
    (hsome : ((p 0).tables.lastSent.find? n).isSome = true)
    (hroom : (p 0).staleness n + T < 2 ^ 32) : ∀ i < T, (p i).Ages n := by
  have hall : ∀ i ≤ T, ((p i).tables.lastSent.find? n).isSome = true ∧
      (p i).staleness n = (p 0).staleness n + i := by
    intro i
    induction i with
    | zero => exact fun _ => ⟨hsome, rfl⟩
    | succ i ih =>
        intro hi
        rcases ih (Nat.le_of_succ_le hi) with ⟨hknown, hcount⟩
        have hnext := h.staleness_succ hi
        rw [if_pos hknown, hcount, Nat.mod_eq_of_lt (by omega), Nat.add_assoc] at hnext
        rw [((h.turn i hi).lastSent n).2 (h.unsent i hi)]
        exact ⟨hknown, hnext⟩
  intro i hi
  rcases hall i (Nat.le_of_lt hi) with ⟨hknown, hcount⟩
  exact ⟨hknown, by omega⟩

/-- As long as it ages, its staleness is the turns it has waited, and more. -/
theorem Waiting.staleness_eq (h : Waiting sqrt clientId w cap budget p T n c)
    (hages : ∀ i < T, (p i).Ages n) : ∀ i ≤ T, (p i).staleness n = (p 0).staleness n + i := by
  intro i
  induction i with
  | zero => exact fun _ => rfl
  | succ i ih =>
      intro hi
      have hage := hages i hi
      have hprev := ih (Nat.le_of_succ_le hi)
      have hlt := (p i).staleness_lt n
      have hnext := h.staleness_succ hi
      rw [if_pos hage.1] at hnext
      have hmax := hage.2
      rw [hnext, Nat.mod_eq_of_lt (by omega), hprev, Nat.add_assoc]

theorem Waiting.tick_eq (h : Waiting sqrt clientId w cap budget p T n c) :
    ∀ i ≤ T, (p i).server.tick = ((p 0).server.tick + i) % 2 ^ 32 := by
  intro i
  induction i with
  | zero => exact fun hi => (Nat.mod_eq_of_lt (h.clocked 0 hi).1).symm
  | succ i ih =>
      intro hi
      rw [(h.turn i hi).tick, ih (Nat.le_of_succ_le hi), Nat.mod_add_mod, Nat.add_assoc]

/-- An entity that was sent at a turn is no staler than the turns since. -/
theorem Waiting.staleness_sent (h : Waiting sqrt clientId w cap budget p T n c) {m : NetId}
    {j i : Nat} (hji : j < i) (hi : i ≤ T) (hi32 : i < 2 ^ 32)
    (hsent : ((p j).buildPacket sqrt clientId w (cap j) (budget j)).1.Sends m) :
    (p i).staleness m ≤ i - j := by
  have hlast : ∃ j', j ≤ j' ∧ j' < i ∧
      (p i).tables.lastSent.find? m = some (p j').server.tick := by
    clear hi32
    induction i, hji using Nat.le_induction with
    | base => exact ⟨j, Nat.le_refl j, Nat.lt_succ_self j, ((h.turn j hi).lastSent m).1 hsent⟩
    | succ i hji ih =>
        by_cases hagain : ((p i).buildPacket sqrt clientId w (cap i) (budget i)).1.Sends m
        · exact ⟨i, Nat.le_of_lt hji, Nat.lt_succ_self i, ((h.turn i hi).lastSent m).1 hagain⟩
        · rcases ih (Nat.le_of_succ_le hi) with ⟨j', hj, hlt, hfind⟩
          exact ⟨j', hj, Nat.lt_succ_of_lt hlt,
            (((h.turn i hi).lastSent m).2 hagain).trans hfind⟩
  rcases hlast with ⟨j', hj, hlt, hfind⟩
  have hcount : (p i).staleness m = i - j' := by
    have hsplit : i = j' + (i - j') := by omega
    unfold staleness ServerUniverse.staleness
    rw [hfind, Option.elim_some, h.tick_eq i hi, h.tick_eq j' (by omega)]
    rw [congrArg ((p 0).server.tick + ·) hsplit]
    exact ticksSince_add (by omega)
  omega

/-- What is sent instead of it is ahead of it, though its start is no higher than the
    highest relevance. -/
theorem Waiting.ahead (hw : w.Positive) (hsqrt : ∀ x, 0 ≤ sqrt x)
    (h : Waiting sqrt clientId w cap budget p T n c) (hi : i < T)
    (hlive : ((p i).server.liveRecord (p i).tables n).isSome = true) {m : NetId}
    (hsent : ((p i).buildPacket sqrt clientId w (cap i) (budget i)).1.Sends m) :
    aged (c.start w) w.stalenessPerTick ((p i).staleness n) ≤
      aged w.highest w.stalenessPerTick ((p i).staleness m) := by
  rcases hsent with ⟨r, hr, hm, htomb⟩
  have hnot : ∀ r ∈ ((p i).server.buildClientSnapshot sqrt clientId w (cap i) (budget i)
      (p i).tables).1.snap.records, r.netId = n → r.mask.tomb = true := by
    intro r hr hn
    rw [← Bool.not_eq_false]
    exact fun htomb => h.unsent i hi ⟨r, hr, hn, htomb⟩
  rcases (p i).server.passed_ahead sqrt clientId w (cap i) (budget i) (p i).tables (h.lacked i hi)
    (h.same i (Nat.le_of_lt hi)) hlive hnot r hr htomb with ⟨c', hc', hle⟩
  have hd := (p i).server.candidate_distance sqrt clientId (p i).tables hsqrt hc'
  have hstale := (p i).server.candidate_staleness sqrt clientId (p i).tables hc'
  rw [hm] at hstale
  calc aged (c.start w) w.stalenessPerTick ((p i).staleness n)
      = priority w c (p i) n := (priority_eq c (p i) n).symm
    _ ≤ snapshotPriority c' w := hle
    _ = aged (c'.start w) w.stalenessPerTick c'.staleness := SchedCandidate.priority_eq c' w
    _ ≤ aged w.highest w.stalenessPerTick c'.staleness :=
        aged_start_mono hw.stalenessPerTick (c'.start_bounds hw hd).2 _
    _ = aged w.highest w.stalenessPerTick ((p i).staleness m) := by rw [hstale]; rfl

/-- Turns in which the network does nothing. -/
def turns (sqrt : ℚ → ℚ) (clientId : NetId) (w : RelevanceWeights) (cap budget : Nat)
    (ops : Nat → List WorldOp) (p : Pipeline) : Nat → Pipeline
  | 0 => p
  | i + 1 =>
      let q := (turns sqrt clientId w cap budget ops p i).sendSnapshot sqrt clientId w cap budget
      { q with server := q.server.step (ops i) }

theorem turn_turns (sqrt : ℚ → ℚ) (clientId : NetId) (w : RelevanceWeights) (cap budget : Nat)
    (ops : Nat → List WorldOp) (p : Pipeline) (i : Nat) :
    Turn sqrt clientId w cap budget (turns sqrt clientId w cap budget ops p i)
      (turns sqrt clientId w cap budget ops p (i + 1)) :=
  ⟨_, ops i, Reaches.refl, Reaches.refl⟩

/-- The root, rounded down to an integer. -/
def intSqrt (x : ℚ) : ℚ := (Nat.sqrt ⌊x⌋₊ : ℚ)

/-- A prop that is 700 metres from the base. -/
def sampleWaiter : SchedCandidate :=
  { netId := 2, distance := 700, iff := .neutral, isBase := false, isTarget := false
    staleness := 0 }

/-- The weights of a client that sees its own units first. -/
def ownFirst : RelevanceWeights :=
  { own := 2, enemy := 1, neutral := 1, baseBonus := 1 / 10, targetBonus := 1 / 10
    distanceScale := 16000, stalenessPerTick := 1 }

/-- A base whose hit points change at every tick, one record at a time. -/
def sampleTurns (w : RelevanceWeights) (p : Pipeline) : Nat → Pipeline :=
  turns intSqrt 1 w 1 1164 (fun i => [.mutate 1 (sampleBase (Int32.ofNat i) 5)]) p

/-- What three sample turns have to show for the prop to wait. -/
def Shown (w : RelevanceWeights) (p : Pipeline) : Prop :=
  (∀ i < 3, 2 ∈ (sampleTurns w p i).server.changedFor 1 (sampleTurns w p i).tables ∧
    ¬ ((sampleTurns w p i).buildPacket intSqrt 1 w 1 1164).1.Sends 2 ∧
    ((sampleTurns w p i).server.liveRecord (sampleTurns w p i).tables 2).isSome = true ∧
    ((sampleTurns w p i).buildPacket intSqrt 1 w 1 1164).1.Sends 1) ∧
  ∀ i ≤ 3, (sampleTurns w p i).server.candidate intSqrt 1 (sampleTurns w p i).tables 2 =
    some { sampleWaiter with staleness := (sampleTurns w p i).staleness 2 }

instance (w : RelevanceWeights) (p : Pipeline) : Decidable (Shown w p) :=
  inferInstanceAs (Decidable ((∀ i < 3, _ ∧ _ ∧ _ ∧ _) ∧ ∀ i ≤ 3, _ = _))

theorem waiting_of_shown {w : RelevanceWeights} {p : Pipeline}
    (hp : ∃ tick, Reaches (step intSqrt 1) free (Pipeline.start tick) p) (h : Shown w p) :
    Waiting intSqrt 1 w (fun _ => 1) (fun _ => 1164) (sampleTurns w p) 3 2 sampleWaiter ∧
      ∀ i < 3, Overtaken intSqrt 1 w 1 1164 (sampleTurns w p i) 2 :=
  ⟨{ reached := hp
     turn := fun i _ => turn_turns intSqrt 1 w 1 1164 _ p i
     lacked := fun i hi => (h.1 i hi).1
     unsent := fun i hi => (h.1 i hi).2.1
     same := h.2 }, fun i hi => ⟨(h.1 i hi).2.2.1, 1, (h.1 i hi).2.2.2⟩⟩

end Pipeline

end Sim

end EarthRise
