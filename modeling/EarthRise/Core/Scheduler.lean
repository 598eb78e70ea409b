import EarthRise.Core.Snapshot
import EarthRise.Lib.SortedList
import Mathlib.Data.List.Sort

/-!
# The Snapshot Scheduler and the Known State

In what order a client's lacked entities go on the wire, and the delta base they
are encoded against.

A candidate's priority is its relevance, falling off with the distance from the
client's focus and growing with the ticks since it was last sent. Candidates are
ranked by priority, ties by net id, and cut to the visible cap. The arithmetic is
exact here where the code rounds to doubles; `scheduleOn` ranks by priorities
however they were rounded.

The delta base of an entity is the state the client last acknowledged. A sent
snapshot stages its states under its tick, at most `maxPending` ticks of them,
and an acknowledgement moves every staged state up to its tick into the base.

## Main definitions

* `snapshotPriority`, `scheduleClient`: The ranking and the cap.
* `scheduleOn`: The ranking and the cap over any priorities.
* `ClientKnownState.recordSent`, `ack`, `forget`: The delta base of a client.
-/

namespace EarthRise

namespace Sim

open Universe

inductive Iff
  | own
  | enemy
  | neutral
  deriving DecidableEq, Repr

structure RelevanceWeights where
  own : ℚ
  enemy : ℚ
  neutral : ℚ
  baseBonus : ℚ
  targetBonus : ℚ
  distanceScale : ℚ
  stalenessPerTick : ℚ

def RelevanceWeights.default : RelevanceWeights :=
  { own := 4, enemy := 3, neutral := 1, baseBonus := 2, targetBonus := 3
    distanceScale := 16000, stalenessPerTick := 1 / 20 }

structure SchedCandidate where
  netId : NetId
  distance : ℚ
  iff : Iff
  isBase : Bool
  isTarget : Bool
  staleness : Nat

/-- Relevance, times the fall-off with distance, times the staleness. -/
def snapshotPriority (c : SchedCandidate) (w : RelevanceWeights) : ℚ :=
  let rel := match c.iff with
    | .own => w.own
    | .enemy => w.enemy
    | .neutral => w.neutral
  let rel := if c.isBase then rel + w.baseBonus else rel
  let rel := if c.isTarget then rel + w.targetBonus else rel
  rel * (1 / (1 + c.distance / w.distanceScale)) * (1 + w.stalenessPerTick * c.staleness)

/-- Higher priority first, ties by net id. -/
def SchedCandidate.Precedes (w : RelevanceWeights) (a b : SchedCandidate) : Prop :=
  snapshotPriority b w < snapshotPriority a w ∨
    (snapshotPriority a w = snapshotPriority b w ∧ a.netId ≤ b.netId)

instance (w : RelevanceWeights) : DecidableRel (SchedCandidate.Precedes w) :=
  fun _ _ => inferInstanceAs (Decidable (_ ∨ _ ∧ _))

structure ScheduleResult where
  ordered : List NetId
  capped : Nat

/-- Rank the candidates and keep the first `visibleCap`; a cap of zero keeps all. -/
def scheduleClient (cands : List SchedCandidate) (w : RelevanceWeights) (visibleCap : Nat) :
    ScheduleResult :=
  let sorted := cands.insertionSort (SchedCandidate.Precedes w)
  let n := if visibleCap = 0 ∨ sorted.length ≤ visibleCap then sorted.length else visibleCap
  { ordered := (sorted.take n).map SchedCandidate.netId
    capped := sorted.length - n }

/-- The same over priorities of any kind: the code's are the doubles that its
    `SnapshotPriority` computes, which are ordered as long as they are finite. -/
def scheduleOn {K : Type*} [LinearOrder K] (priority : SchedCandidate → K)
    (cands : List SchedCandidate) (visibleCap : Nat) : ScheduleResult :=
  let sorted := Ranking.rank priority SchedCandidate.netId cands
  let n := if visibleCap = 0 ∨ sorted.length ≤ visibleCap then sorted.length else visibleCap
  { ordered := (sorted.take n).map SchedCandidate.netId
    capped := sorted.length - n }

/-- The most ticks that a client's tables keep staged. -/
def maxPending : Nat := 64

/-- The states a client has acknowledged, and those staged under each tick. -/
structure ClientKnownState where
  known : OrdMap NetId SnapshotEntity
  pending : OrdMap Nat (List SnapshotEntity)

namespace ClientKnownState

def fresh : ClientKnownState := { known := OrdMap.empty, pending := OrdMap.empty }

/-- The state a client is known to hold of an entity. -/
def base (k : ClientKnownState) (netId : NetId) : Option SnapshotEntity := k.known.find? netId

def recordSent (k : ClientKnownState) (tick : Nat) (sent : List SnapshotEntity) :
    ClientKnownState :=
  if sent = [] then k
  else { k with pending := (k.pending.insert tick sent).dropOldest maxPending }

/-- What is staged up to a tick, oldest first. -/
def staged (k : ClientKnownState) (tick : Nat) : List SnapshotEntity :=
  (k.pending.entries.filter fun e => e.1 ≤ tick).flatMap Prod.snd

def ack (k : ClientKnownState) (tick : Nat) : ClientKnownState :=
  { known := k.known.insertAll ((k.staged tick).map fun e => (e.netId, e))
    pending := k.pending.filter fun t _ => ¬ t ≤ tick }

def forget (k : ClientKnownState) (netId : NetId) : ClientKnownState :=
  { k with known := k.known.erase netId }

end ClientKnownState

end Sim

end EarthRise
