import EarthRise.Core.Scheduler
import EarthRise.Lib.Exact

/-!
# The Order of the Scheduler

What a client is shown, and in which order.

The candidates of a tick have distinct net ids, so their ranking is one list, the
same for every order in which the interest set is walked. The visible cap keeps
its head and counts the rest. None of this depends on how a priority is computed,
only on priorities being ordered, so it holds of exact priorities and of rounded
ones.

## Theorems

* `scheduleClient_eq`: The exact ranking is one of the rankings.
* `scheduleOn_top`: What is kept, in which order, and what is left out.
-/

namespace EarthRise

namespace Sim

open Ranking

variable {K : Type*} [LinearOrder K]

theorem scheduleClient_eq (cands : List SchedCandidate) (w : RelevanceWeights) (cap : Nat) :
    scheduleClient cands w cap = scheduleOn (fun c => snapshotPriority c w) cands cap :=
  rfl

/-- How many of `n` candidates a cap keeps. -/
def keptUnder (cap n : Nat) : Nat := if cap = 0 then n else min n cap

theorem scheduleOn_take (priority : SchedCandidate → K) (cands : List SchedCandidate)
    (cap : Nat) :
    scheduleOn priority cands cap =
      { ordered := ((rank priority SchedCandidate.netId cands).take
          (keptUnder cap cands.length)).map SchedCandidate.netId
        capped := cands.length - keptUnder cap cands.length } := by
  have hkept : (if cap = 0 ∨ cands.length ≤ cap then cands.length else cap) =
      keptUnder cap cands.length := by
    unfold keptUnder
    by_cases hcap : cap = 0
    · rw [if_pos (Or.inl hcap), if_pos hcap]
    · rw [if_neg hcap]
      by_cases hle : cands.length ≤ cap
      · rw [if_pos (Or.inr hle), min_eq_left hle]
      · rw [if_neg (by omega), min_eq_right (by omega)]
  unfold scheduleOn
  simp only [length_rank, hkept]

/-- Candidates of distinct net ids are ranked alike in whatever order they come.
    What is kept is the head of the ranking, each ahead of all that follow it and
    of all that the cap leaves out; those are counted. -/
theorem scheduleOn_top (priority : SchedCandidate → K) (cands : List SchedCandidate) (cap : Nat)
    (h : (cands.map SchedCandidate.netId).Nodup) :
    (∀ w, scheduleClient cands w cap = scheduleOn (fun c => snapshotPriority c w) cands cap) ∧
    (∀ cands', cands.Perm cands' →
      scheduleOn priority cands' cap = scheduleOn priority cands cap) ∧
    ∃ kept left : List SchedCandidate,
      (kept ++ left).Perm cands ∧
      (scheduleOn priority cands cap).ordered = kept.map SchedCandidate.netId ∧
      kept.Pairwise (Ahead priority SchedCandidate.netId) ∧
      (∀ a ∈ kept, ∀ b ∈ left, Ahead priority SchedCandidate.netId a b) ∧
      kept.length = (if cap = 0 then cands.length else min cands.length cap) ∧
      (scheduleOn priority cands cap).capped = left.length := by
  refine ⟨fun w => scheduleClient_eq cands w cap, fun cands' hperm => ?_, ?_⟩
  · rw [scheduleOn_take, scheduleOn_take, rank_perm hperm h, hperm.length_eq]
  · have hn : keptUnder cap cands.length ≤ cands.length := by
      unfold keptUnder
      by_cases hcap : cap = 0
      · rw [if_pos hcap]
      · rw [if_neg hcap]
        exact min_le_left _ _
    have hlength := length_rank priority SchedCandidate.netId cands
    have hahead : (rank priority SchedCandidate.netId cands).Pairwise
        (Ahead priority SchedCandidate.netId) := ahead_rank h
    rw [← List.take_append_drop (keptUnder cap cands.length)
      (rank priority SchedCandidate.netId cands), List.pairwise_append] at hahead
    rw [scheduleOn_take]
    refine ⟨_, _, ?_, rfl, hahead.1, hahead.2.2, ?_, ?_⟩
    · rw [List.take_append_drop]
      exact perm_rank priority SchedCandidate.netId cands
    · rw [List.length_take, hlength, min_eq_left hn, keptUnder]
    · rw [List.length_drop, hlength]

/-- Three candidates of which two tie, ranked under a cap of two. -/
theorem scheduleOn_top_tied :
    ∃ cands : List SchedCandidate, (cands.map SchedCandidate.netId).Nodup ∧
      (scheduleClient cands RelevanceWeights.default 2).ordered = [5, 3] ∧
      (scheduleClient cands RelevanceWeights.default 2).capped = 1 ∧
      ∀ cands', cands.Perm cands' →
        scheduleOn (fun c => snapshotPriority c RelevanceWeights.default) cands' 2 =
          scheduleOn (fun c => snapshotPriority c RelevanceWeights.default) cands 2 := by
  have hids : (([⟨7, 100, .enemy, false, false, 0⟩, ⟨3, 100, .enemy, false, false, 0⟩,
      ⟨5, 0, .own, true, false, 0⟩] : List SchedCandidate).map SchedCandidate.netId).Nodup := by
    decide
  have htop := scheduleOn_top (fun c => snapshotPriority c RelevanceWeights.default)
    [⟨7, 100, .enemy, false, false, 0⟩, ⟨3, 100, .enemy, false, false, 0⟩,
      ⟨5, 0, .own, true, false, 0⟩] 2 hids
  exact ⟨_, hids, by decide +kernel, by decide +kernel, htop.2.1⟩

end Sim

end EarthRise
