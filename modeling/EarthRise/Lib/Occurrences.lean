import Mathlib.Data.List.Induction
import Mathlib.Data.List.Nodup
import Mathlib.Data.List.Basic

/-!
# First Occurrences and Last Writers

A log whose entries carry a key, where an entry repeats an earlier one when
the two share the key. `firstOccs` is the log with the repeats removed: it
keeps, in order, the first entry of every key.

This is the reference an idempotent consumer is compared with. Such a consumer
sees the log entry by entry and drops what it has already taken, so the lemma
that matters is `firstOccs_concat`, which says what one more entry does.

A value with the tick of its last update. An update that is not newer than the last
one is dropped whole; a newer one acts on the value that is there.

Where an update replaces the value, the newest alone decides. Where it writes only
a part, what is there before it still counts, and which of the older updates were
dropped depends on when they came. `run_newest` gives the one way in which this can
be harmless: some property of values that every older update keeps, and that leaves
the newest update nothing to depend on.

## Main definitions

* `firstOccs`: The log without its repeats.
* `stale`, `put`: Whether an update is dropped, and what it does otherwise.

## Theorems

* `firstOccs_concat`: What one more entry at the end adds.
* `mem_keys_firstOccs`: Removing repeats loses no key.
* `run_settled`: Nothing happens after the newest update.
* `run_newest`: When the newest update decides, whatever came before it.
-/

namespace EarthRise

namespace FirstOccs

variable {α κ : Type*} [DecidableEq κ]

/-- The entries of a log whose key is neither among `seen` nor among the keys
    of earlier entries. -/
def firstOccsFrom (key : α → κ) : List κ → List α → List α
  | _, [] => []
  | seen, a :: as =>
      if key a ∈ seen then firstOccsFrom key seen as
      else a :: firstOccsFrom key (key a :: seen) as

/-- The log with later repeats of a key removed. -/
def firstOccs (key : α → κ) (as : List α) : List α := firstOccsFrom key [] as

theorem firstOccsFrom_concat (key : α → κ) (a : α) (as : List α) (seen : List κ) :
    firstOccsFrom key seen (as ++ [a]) =
      if key a ∈ seen ∨ key a ∈ as.map key then firstOccsFrom key seen as
      else firstOccsFrom key seen as ++ [a] := by
  induction as generalizing seen with
  | nil => by_cases h : key a ∈ seen <;> simp [firstOccsFrom, h]
  | cons b bs ih =>
      rw [List.cons_append]
      by_cases hb : key b ∈ seen
      · -- The head is a repeat; sharing its key is sharing one already seen.
        have hab : key a = key b → key a ∈ seen := fun h => h ▸ hb
        simp only [firstOccsFrom, if_pos hb, ih, List.map_cons, List.mem_cons]
        grind
      · simp only [firstOccsFrom, if_neg hb, ih, List.map_cons, List.mem_cons]
        grind

/-- One more entry is kept exactly when its key is new. -/
theorem firstOccs_concat (key : α → κ) (as : List α) (a : α) :
    firstOccs key (as ++ [a]) =
      if key a ∈ as.map key then firstOccs key as else firstOccs key as ++ [a] := by
  simp only [firstOccs, firstOccsFrom_concat, List.not_mem_nil, false_or]

/-- Removing repeats loses no key. -/
theorem mem_keys_firstOccs (key : α → κ) (k : κ) (as : List α) :
    k ∈ (firstOccs key as).map key ↔ k ∈ as.map key := by
  induction as using List.reverseRecOn with
  | nil => rfl
  | append_singleton as a ih =>
      rw [firstOccs_concat, List.map_append, List.mem_append]
      by_cases ha : key a ∈ as.map key
      · rw [if_pos ha, ih]
        simp only [List.map_cons, List.map_nil, List.mem_singleton]
        exact ⟨Or.inl, fun h => h.elim id fun hk => hk ▸ ha⟩
      · rw [if_neg ha, List.map_append, List.mem_append, ih]

end FirstOccs

namespace LastWriter

variable {V R : Type*} (act : V → R → V)

/-- An update that is not newer than the last one. -/
def stale (s : V × Option Nat) (tick : Nat) : Bool := s.2.elim false fun last => tick ≤ last

/-- Drop a stale update; let another act on the value. -/
def put (s : V × Option Nat) (u : Nat × R) : V × Option Nat :=
  if stale s u.1 then s else (act s.1 u.2, some u.1)

theorem put_stale (s : V × Option Nat) (u : Nat × R) (h : stale s u.1 = true) :
    put act s u = s := if_pos h

theorem put_fresh (s : V × Option Nat) (u : Nat × R) (h : ∀ last, s.2 = some last → last < u.1) :
    put act s u = (act s.1 u.2, some u.1) := by
  unfold put
  rw [if_neg]
  unfold stale
  cases hlast : s.2 with
  | none => exact Bool.false_ne_true
  | some last =>
      have hlt := h last hlast
      simp only [Option.elim_some, decide_eq_true_eq]
      omega

/-- After the newest update, nothing changes any more. -/
theorem run_settled (us : List (Nat × R)) (s : V × Option Nat) (newest : Nat)
    (hs : s.2 = some newest) (h : ∀ u ∈ us, u.1 ≤ newest) : us.foldl (put act) s = s := by
  induction us with
  | nil => rfl
  | cons u us ih =>
      have hstale : stale s u.1 = true := by
        unfold stale
        rw [hs]
        exact decide_eq_true (h u List.mem_cons_self)
      rw [List.foldl_cons, put_stale act s u hstale]
      exact ih fun u hu => h u (List.mem_cons_of_mem _ hu)

/-- If the older updates keep a property of the value, and the newest makes the same
    of every value that has it, then that is what any order of them ends with. -/
theorem run_newest (us : List (Nat × R)) (newest : Nat × R) (N : V → Prop) (w : V)
    (hother : ∀ u ∈ us, u = newest ∨ u.1 < newest.1)
    (hstep : ∀ u ∈ us, u.1 < newest.1 → ∀ v, N v → N (act v u.2))
    (hend : ∀ v, N v → act v newest.2 = w) (s : V × Option Nat) (hs : N s.1)
    (hlast : ∀ last, s.2 = some last → last < newest.1) (hmem : newest ∈ us) :
    (us.foldl (put act) s).1 = w := by
  induction us generalizing s with
  | nil => exact absurd hmem List.not_mem_nil
  | cons u us ih =>
      rw [List.foldl_cons]
      rcases hother u List.mem_cons_self with rfl | hlt
      · have hle : ∀ u' ∈ us, u'.1 ≤ u.1 := by
          intro u' hu'
          rcases hother u' (List.mem_cons_of_mem _ hu') with rfl | h
          · exact Nat.le_refl _
          · exact Nat.le_of_lt h
        rw [put_fresh act s u hlast, run_settled act us _ u.1 rfl hle]
        exact hend s.1 hs
      · have hrest : newest ∈ us := by
          rcases List.mem_cons.mp hmem with rfl | h
          · exact absurd hlt (Nat.lt_irrefl _)
          · exact h
        refine ih (fun u hu => hother u (List.mem_cons_of_mem _ hu))
          (fun u hu => hstep u (List.mem_cons_of_mem _ hu)) _ ?_ ?_ hrest
        · unfold put
          split
          · exact hs
          · exact hstep u List.mem_cons_self hlt s.1 hs
        · unfold put
          split
          · exact hlast
          · intro last heq
            rw [Option.some.injEq] at heq
            omega

end LastWriter

end EarthRise
