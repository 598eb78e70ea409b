import Mathlib.Logic.Function.Basic

/-!
# Runs of a Labelled Machine

A machine is a partial function from a state and a label to the next state;
`none` says that the label is not enabled. A run takes labels one after the
other, and `Reaches` collects the states a run can end in when every step has
to pass a guard.

The guard is what a conditional guarantee is stated with. A property that
holds of every run is the special case of the guard that lets everything
through, and a property that holds as long as one bad step is avoided takes
that avoidance as its guard. `Reaches.invariant` is the only induction over
runs that the developments built on this file need: what holds at the start
and survives every guarded step holds wherever a guarded run ends.

`runLabels` and `runGuarded` are the executable counterparts. They follow a fixed
list of labels, and `reaches_of_runLabels` and `reaches_of_runGuarded` turn the
computed end state into a reachability, which is how a concrete run is exhibited.

## Main definitions

* `Reaches`: The states a guarded run can end in.
* `free`: The guard that lets every step through.
* `runLabels`, `runGuarded`, `runChosen`: Following a list of labels, or of choices.

## Theorems

* `Reaches.trans`: Runs compose.
* `Reaches.head`: Prefixing a run with one step.
* `Reaches.mono`: A weaker guard reaches at least as much.
* `Reaches.invariant`: What every guarded step preserves holds along a run.
* `reaches_of_runLabels`, `reaches_of_runGuarded`: A followed list of labels is a
  run.
-/

namespace EarthRise

namespace Run

variable {S L : Type*}

/-- The states a run out of `s` can end in, when each step passes the guard
    `G` in the state it is taken from. -/
inductive Reaches (step : S → L → Option S) (G : S → L → Prop) (s : S) : S → Prop
  | refl : Reaches step G s s
  | tail {t u : S} (l : L) :
      Reaches step G s t → G t l → step t l = some u → Reaches step G s u

/-- The guard that lets every step through. -/
def free : S → L → Prop := fun _ _ => True

/-- Follow a list of labels, or `none` if one of them is not enabled. -/
def runLabels (step : S → L → Option S) : S → List L → Option S
  | s, [] => some s
  | s, l :: ls => (step s l).bind fun s' => runLabels step s' ls

variable {step : S → L → Option S} {G H : S → L → Prop} {s t u : S} {m : S → L → Option S}
  {b : S → Bool}

theorem Reaches.trans (h1 : Reaches step G s t) (h2 : Reaches step G t u) :
    Reaches step G s u := by
  induction h2 with
  | refl => exact h1
  | tail l _ hg hstep ih => exact Reaches.tail l ih hg hstep

/-- Prefixing a run with one step. -/
theorem Reaches.head (l : L) (hg : G s l) (hstep : step s l = some t)
    (h : Reaches step G t u) : Reaches step G s u :=
  Reaches.trans (Reaches.tail l Reaches.refl hg hstep) h

theorem Reaches.mono (hGH : ∀ s l, G s l → H s l) (h : Reaches step G s t) :
    Reaches step H s t := by
  induction h with
  | refl => exact Reaches.refl
  | tail l _ hg hstep ih => exact Reaches.tail l ih (hGH _ l hg) hstep

/-- What holds at the start and survives every guarded step holds at the end
    of every guarded run. -/
theorem Reaches.invariant {I : S → Prop}
    (hpres : ∀ s l t, I s → G s l → step s l = some t → I t)
    (h : Reaches step G s t) (h0 : I s) : I t := by
  induction h with
  | refl => exact h0
  | tail l _ hg hstep ih => exact hpres _ l _ ih hg hstep

/-- A followed list of labels is a run of the unguarded machine. -/
theorem reaches_of_runLabels (ls : List L) (h : runLabels step s ls = some t) :
    Reaches step free s t := by
  induction ls generalizing s with
  | nil =>
      rw [runLabels, Option.some.injEq] at h
      rw [← h]
      exact Reaches.refl
  | cons l ls ih =>
      rw [runLabels, Option.bind_eq_some_iff] at h
      rcases h with ⟨s', hstep, hrest⟩
      exact Reaches.head l trivial hstep (ih hrest)

/-- A followed list of labels whose end passes a test exhibits a reachable state
    that passes it. -/
theorem exists_of_runLabels (ls : List L)
    (h : (runLabels m s ls).any b = true) : ∃ t, Reaches m free s t ∧ b t = true := by
  rcases (Option.any_eq_true _ _).mp h with ⟨t, ht, hb⟩
  exact ⟨t, reaches_of_runLabels ls ht, hb⟩

/-- Follow a list of labels, or `none` if one of them does not pass the guard or is
    not enabled. -/
def runGuarded (step : S → L → Option S) (G : S → L → Prop) [∀ s l, Decidable (G s l)] :
    S → List L → Option S
  | s, [] => some s
  | s, l :: ls => if G s l then (step s l).bind fun s' => runGuarded step G s' ls else none

theorem reaches_of_runGuarded [∀ s l, Decidable (G s l)] (ls : List L)
    (h : runGuarded step G s ls = some t) : Reaches step G s t := by
  induction ls generalizing s with
  | nil =>
      rw [runGuarded, Option.some.injEq] at h
      rw [← h]
      exact Reaches.refl
  | cons l ls ih =>
      rw [runGuarded] at h
      by_cases hg : G s l
      · rw [if_pos hg, Option.bind_eq_some_iff] at h
        rcases h with ⟨s', hstep, hrest⟩
        exact Reaches.head l hg hstep (ih hrest)
      · rw [if_neg hg] at h
        exact absurd h nofun

/-- The same for a guarded run. -/
theorem exists_of_runGuarded [∀ s l, Decidable (G s l)]
    (ls : List L) (h : (runGuarded m G s ls).any b = true) : ∃ t, Reaches m G s t ∧ b t = true := by
  rcases (Option.any_eq_true _ _).mp h with ⟨t, ht, hb⟩
  exact ⟨t, reaches_of_runGuarded ls ht, hb⟩

/-- Follow a list of choices, each of which picks a label in the state it is made in. -/
def runChosen (step : S → L → Option S) (G : S → L → Prop) [∀ s l, Decidable (G s l)] :
    S → List (S → Option L) → Option S
  | s, [] => some s
  | s, f :: fs => (f s).bind fun l =>
      if G s l then (step s l).bind fun s' => runChosen step G s' fs else none

theorem exists_of_runChosen [∀ s l, Decidable (G s l)]
    (fs : List (S → Option L)) (h : (runChosen m G s fs).any b = true) :
    ∃ t, Reaches m G s t ∧ b t = true := by
  induction fs generalizing s with
  | nil => exact ⟨s, Reaches.refl, h⟩
  | cons f fs ih =>
      rw [runChosen] at h
      cases hf : f s with
      | none =>
          rw [hf] at h
          exact absurd h Bool.false_ne_true
      | some l =>
          rw [hf, Option.bind_some] at h
          by_cases hg : G s l
          · rw [if_pos hg] at h
            cases hstep : m s l with
            | none =>
                rw [hstep] at h
                exact absurd h Bool.false_ne_true
            | some s' =>
                rw [hstep, Option.bind_some] at h
                rcases ih h with ⟨t, ht, hb⟩
                exact ⟨t, Reaches.head l hg hstep ht, hb⟩
          · rw [if_neg hg] at h
            exact absurd h Bool.false_ne_true

end Run

end EarthRise
