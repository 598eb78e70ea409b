import EarthRise.Lib.Run

/-!
# Long Runs

Runs that go on for ever, for what has to happen in the end, and counted runs, for systems that
settle in rounds.

An `Execution` is a run of a labelled machine with a state at every time and a
label between two times, every step passing a guard. Its states are reachable, so
what every guarded step preserves holds at all times. A finite run is one by
repeating a label at its end that changes nothing.

A measure that every round lowers until it is zero is zero after as many rounds as
it was large (`Rounds.vanishes`). The rounds may depend on an invariant, which is
carried along, and what holds at the end of a run holds at its start when no round
makes it true (`Rounds.pullback`).

## Main definitions

* `Execution`: A guarded run without end.
* `Rounds`: A number of steps of a relation.

## Theorems

* `Execution.invariant`: What every guarded step preserves holds at all times.
* `Execution.grows`: What no step undoes is there from then on.
* `exists_execution`: A finite run that idles at its end.
* `Rounds.invariant`: What every round preserves holds at the end.
* `Rounds.pullback`: What no round makes true held at the start.
* `Rounds.vanishes`: A measure that every round lowers runs out.
* `rounds_of_runGuarded`: A followed list of labels is a number of rounds.
-/

namespace EarthRise

namespace Run

variable {S L : Type*}

structure Execution (step : S → L → Option S) (G : S → L → Prop) where
  state : Nat → S
  label : Nat → L
  guarded : ∀ n, G (state n) (label n)
  stepped : ∀ n, step (state n) (label n) = some (state (n + 1))

variable {step : S → L → Option S} {G : S → L → Prop}

namespace Execution

/-- What holds at the start and survives every guarded step holds at all times. -/
theorem invariant {I : S → Prop} (e : Execution step G)
    (hpres : ∀ s l t, I s → G s l → step s l = some t → I t) (h0 : I (e.state 0)) (n : Nat) :
    I (e.state n) := by
  induction n with
  | zero => exact h0
  | succ n ih => exact hpres _ _ _ ih (e.guarded n) (e.stepped n)

/-- What holds at one time and survives every step from then on holds from then
    on. -/
theorem grows {I : S → Prop} (e : Execution step G) (n : Nat)
    (hpres : ∀ m, n ≤ m → I (e.state m) → I (e.state (m + 1))) (hn : I (e.state n)) (m : Nat)
    (hm : n ≤ m) : I (e.state m) := by
  induction hm with
  | refl => exact hn
  | step hm ih => exact hpres _ hm ih

/-- For ever the same state. -/
def idle (s : S) (l : L) (hg : G s l) (hstep : step s l = some s) : Execution step G where
  state := fun _ => s
  label := fun _ => l
  guarded := fun _ => hg
  stepped := fun _ => hstep

/-- One step before an execution. -/
def cons (s : S) (l : L) (e : Execution step G) (hg : G s l)
    (hstep : step s l = some (e.state 0)) : Execution step G where
  state := fun n => match n with
    | 0 => s
    | n + 1 => e.state n
  label := fun n => match n with
    | 0 => l
    | n + 1 => e.label n
  guarded := fun n => match n with
    | 0 => hg
    | n + 1 => e.guarded n
  stepped := fun n => match n with
    | 0 => hstep
    | n + 1 => e.stepped n

end Execution

/-- A followed list of labels, and a label that changes nothing ever after. -/
theorem exists_execution [∀ s l, Decidable (G s l)] (idle : L) (ls : List L) (s t : S)
    (h : runGuarded step G s ls = some t) (hg : G t idle) (hstep : step t idle = some t) :
    ∃ e : Execution step G, e.state 0 = s ∧ ∀ n, ls.length ≤ n → e.state n = t := by
  induction ls generalizing s with
  | nil =>
      rw [runGuarded, Option.some.injEq] at h
      exact ⟨Execution.idle t idle hg hstep, h.symm, fun _ _ => rfl⟩
  | cons l ls ih =>
      rw [runGuarded] at h
      by_cases hgl : G s l
      · rw [if_pos hgl, Option.bind_eq_some_iff] at h
        rcases h with ⟨s', hs', hrest⟩
        rcases ih s' hrest with ⟨e, he0, heq⟩
        rw [← he0] at hs'
        refine ⟨e.cons s l hgl hs', rfl, ?_⟩
        intro n hn
        cases n with
        | zero => exact absurd hn (by simp only [List.length_cons]; omega)
        | succ n => exact heq n (Nat.le_of_succ_le_succ hn)
      · rw [if_neg hgl] at h
        cases h

/-! ## Rounds -/

section

variable {S : Type*}

/-- `k` steps of a relation, one after the other. -/
inductive Rounds (R : S → S → Prop) : Nat → S → S → Prop
  | zero (s : S) : Rounds R 0 s s
  | succ {k : Nat} {s t u : S} : R s t → Rounds R k t u → Rounds R (k + 1) s u

variable {R : S → S → Prop} {k : Nat} {s t : S}

theorem Rounds.invariant {I : S → Prop} (hpres : ∀ s t, I s → R s t → I t)
    (h : Rounds R k s t) (h0 : I s) : I t := by
  induction h with
  | zero s => exact h0
  | succ hstep _ ih => exact ih (hpres _ _ h0 hstep)

/-- What held before a round whenever it holds after it, held at the start. -/
theorem Rounds.pullback {I P : S → Prop} (hpres : ∀ s t, I s → R s t → I t)
    (hback : ∀ s t, I s → R s t → P t → P s) (h : Rounds R k s t) (h0 : I s) (hP : P t) :
    P s := by
  induction h with
  | zero s => exact hP
  | succ hstep _ ih => exact hback _ _ h0 hstep (ih (hpres _ _ h0 hstep) hP)

/-- A measure that every round lowers, unless it is zero already, runs out. -/
theorem Rounds.vanishes {I : S → Prop} (μ : S → Nat) (hpres : ∀ s t, I s → R s t → I t)
    (hlower : ∀ s t, I s → R s t → μ t ≤ μ s - 1) (h : Rounds R k s t) (h0 : I s)
    (hk : μ s ≤ k) : μ t = 0 := by
  induction h with
  | zero s => exact Nat.le_zero.mp hk
  | succ hstep _ ih =>
      have hnext := hlower _ _ h0 hstep
      exact ih (hpres _ _ h0 hstep) (by omega)

/-- The rounds of a labelled machine, read off a list of labels. -/
theorem rounds_of_runGuarded {L : Type*} {step : S → L → Option S} {G : S → L → Prop}
    [∀ s l, Decidable (G s l)] (ls : List L) (h : runGuarded step G s ls = some t) :
    Rounds (fun s t => ∃ l, G s l ∧ step s l = some t) ls.length s t := by
  induction ls generalizing s with
  | nil =>
      rw [runGuarded, Option.some.injEq] at h
      rw [← h]
      exact Rounds.zero s
  | cons l ls ih =>
      rw [runGuarded] at h
      by_cases hg : G s l
      · rw [if_pos hg, Option.bind_eq_some_iff] at h
        rcases h with ⟨s', hstep, hrest⟩
        exact Rounds.succ ⟨l, hg, hstep⟩ (ih hrest)
      · rw [if_neg hg] at h
        cases h

end

end Run

end EarthRise
