import Mathlib.Logic.Basic
import Mathlib.Order.Basic
import Mathlib.Data.List.Basic
import Mathlib.Data.List.Induction
import Mathlib.Data.List.Nodup

/-!
# Sliding Acceptance Windows

A window decides number by number whether it has seen enough to refuse a
number. How it stores what it has seen does not matter here; all that does is
`law`: offering `n` makes `n` itself and every number that lies a full width
below `n` stale, and changes nothing else. The law holds whether or not the
offered number was accepted, since a refused number adds nothing that was not
stale already.

From the law, the state after any offers is known by what it still finds fresh
(`fresh_offerAll`), and two runs of the same numbers from different states can
be compared (`verdicts_offerAll_iff`). A window that began with everything fresh
is known by the numbers it accepted alone (`fresh_iff_accepted`).

## Main definitions

* `Window`: A state with a freshness test and an update that obeys the law.
* `Clear`: What a list of offered numbers leaves fresh.
* `verdicts`: The answers to a list of offers.
* `accepted`: The numbers of a list of offers that were accepted.

## Theorems

* `fresh_offerAll`: What is fresh after a list of offers.
* `verdicts_offerAll_iff`: When earlier offers change no later answer.
* `fresh_iff_accepted`: What is fresh, from the numbers accepted.
* `nodup_accepted`: Nothing is accepted twice.
-/

namespace EarthRise

namespace Acceptance

/-- A window of a given width over a state type. -/
structure Window (σ : Type*) where
  width : Nat
  fresh : σ → Nat → Bool
  offer : σ → Nat → σ
  law : ∀ s n g, fresh (offer s n) g = true ↔ fresh s g = true ∧ n ≠ g ∧ n < g + width

namespace Window

variable {σ : Type*} (W : Window σ)

/-- `g` is none of the numbers and no full width below any of them. -/
def Clear (ns : List Nat) (g : Nat) : Prop := ∀ n ∈ ns, n ≠ g ∧ n < g + W.width

instance (ns : List Nat) (g : Nat) : Decidable (W.Clear ns g) :=
  inferInstanceAs (Decidable (∀ n ∈ ns, _))

/-- The state after a list of offers. -/
def offerAll (s : σ) (ns : List Nat) : σ := ns.foldl W.offer s

/-- The answers to a list of offers. -/
def verdicts : σ → List Nat → List Bool
  | _, [] => []
  | s, n :: ns => W.fresh s n :: verdicts (W.offer s n) ns

/-- A list of offers leaves fresh what was fresh and is clear of the list. -/
theorem fresh_offerAll (ns : List Nat) (s : σ) (g : Nat) :
    W.fresh (W.offerAll s ns) g = true ↔ W.fresh s g = true ∧ W.Clear ns g := by
  induction ns generalizing s with
  | nil => exact ⟨fun h => ⟨h, fun n hn => absurd hn List.not_mem_nil⟩, fun h => h.1⟩
  | cons n ns ih =>
      have hcons : W.offerAll s (n :: ns) = W.offerAll (W.offer s n) ns := rfl
      rw [hcons, ih, W.law]
      unfold Clear
      rw [List.forall_mem_cons, and_assoc]

/-- Two states of which the second finds fresh what the first does, less what
    is stale for `fs`, answer a list of offers alike if and only if no number
    the first accepts is stale for `fs`. -/
theorem verdicts_eq_iff (fs gs : List Nat) (s s' : σ)
    (hs : ∀ g, W.fresh s' g = true ↔ W.fresh s g = true ∧ W.Clear fs g) :
    W.verdicts s' gs = W.verdicts s gs ↔
      ∀ pre g post, gs = pre ++ g :: post →
        W.fresh s g = true → W.Clear pre g → W.Clear fs g := by
  induction gs generalizing s s' with
  | nil =>
      refine ⟨fun _ pre g post h => ?_, fun _ => rfl⟩
      exact absurd h (by simp only [List.nil_eq, List.append_eq_nil_iff, reduceCtorEq, and_false,
        not_false_eq_true])
  | cons g gs ih =>
      -- The relation between the two states survives an offer of one number.
      have hnext : ∀ k, W.fresh (W.offer s' g) k = true ↔
          W.fresh (W.offer s g) k = true ∧ W.Clear fs k := by
        intro k
        rw [W.law, W.law, hs]
        exact and_right_comm
      have hhead : W.fresh s' g = W.fresh s g ↔ (W.fresh s g = true → W.Clear fs g) := by
        rw [Bool.eq_iff_iff, hs]
        exact ⟨fun h hf => (h.mpr hf).2, fun h => ⟨fun hf => hf.1, fun hf => ⟨hf, h hf⟩⟩⟩
      simp only [verdicts, List.cons.injEq]
      rw [hhead, ih (W.offer s g) (W.offer s' g) hnext]
      constructor
      · rintro ⟨hg, hrest⟩ pre k post hsplit hk hpre
        cases pre with
        | nil =>
            rw [List.nil_append, List.cons.injEq] at hsplit
            rw [← hsplit.1] at hk ⊢
            exact hg hk
        | cons p pre =>
            rw [List.cons_append, List.cons.injEq] at hsplit
            have hclear := List.forall_mem_cons.mp hpre
            refine hrest pre k post hsplit.2 ?_ hclear.2
            rw [W.law, hsplit.1]
            exact ⟨hk, hclear.1⟩
      · intro h
        refine ⟨fun hg => h [] g gs rfl hg fun n hn => absurd hn List.not_mem_nil, ?_⟩
        intro pre k post hsplit hk hpre
        rw [W.law] at hk
        refine h (g :: pre) k post (by rw [hsplit, List.cons_append]) hk.1 ?_
        exact List.forall_mem_cons.mpr ⟨hk.2, hpre⟩

/-- Offers made beforehand change no later answer if and only if every number
    that would have been accepted is clear of them. -/
theorem verdicts_offerAll_iff (s : σ) (fs gs : List Nat) :
    W.verdicts (W.offerAll s fs) gs = W.verdicts s gs ↔
      ∀ pre g post, gs = pre ++ g :: post →
        W.fresh s g = true → W.Clear pre g → W.Clear fs g :=
  W.verdicts_eq_iff fs gs s (W.offerAll s fs) (W.fresh_offerAll fs s)

/-! ## The numbers accepted -/

/-- The numbers of a list of offers that were fresh when they were offered. -/
def accepted : σ → List Nat → List Nat
  | _, [] => []
  | s, n :: ns =>
      if W.fresh s n then n :: accepted (W.offer s n) ns else accepted (W.offer s n) ns

theorem accepted_cons (s : σ) (n : Nat) (ns : List Nat) :
    W.accepted s (n :: ns) =
      if W.fresh s n then n :: W.accepted (W.offer s n) ns else W.accepted (W.offer s n) ns :=
  rfl

theorem accepted_append (s : σ) (ns ms : List Nat) :
    W.accepted s (ns ++ ms) = W.accepted s ns ++ W.accepted (W.offerAll s ns) ms := by
  induction ns generalizing s with
  | nil => rfl
  | cons n ns ih =>
      have hcons : W.offerAll s (n :: ns) = W.offerAll (W.offer s n) ns := rfl
      rw [List.cons_append, hcons, accepted_cons, accepted_cons]
      by_cases h : W.fresh s n = true
      · rw [if_pos h, if_pos h, ih, List.cons_append]
      · rw [if_neg h, if_neg h, ih]

/-- From a state that refuses nothing, the refused offers leave no trace: one is
    refused for a number at or above it, which bars all that it would bar. -/
theorem clear_accepted (s : σ) (hs : ∀ g, W.fresh s g = true) (ns : List Nat) (g : Nat) :
    W.Clear (W.accepted s ns) g ↔ W.Clear ns g := by
  induction ns using List.reverseRecOn generalizing g with
  | nil => exact Iff.rfl
  | append_singleton ns n ih =>
      have hsnoc : ∀ ms : List Nat, W.Clear (ms ++ [n]) g ↔
          W.Clear ms g ∧ n ≠ g ∧ n < g + W.width := by
        intro ms
        unfold Clear
        rw [List.forall_mem_append, List.forall_mem_singleton]
      rw [accepted_append, accepted_cons]
      by_cases hfresh : W.fresh (W.offerAll s ns) n = true
      · rw [if_pos hfresh]
        simp only [accepted]
        rw [hsnoc, hsnoc, ih]
      · rw [if_neg hfresh]
        simp only [accepted, List.append_nil]
        rw [hsnoc, ih]
        refine ⟨fun h => ⟨h, ?_⟩, fun h => h.1⟩
        have hrefused : ¬ W.Clear ns n := by
          intro hn
          exact hfresh ((W.fresh_offerAll ns s n).mpr ⟨hs n, hn⟩)
        unfold Clear at hrefused
        push Not at hrefused
        rcases hrefused with ⟨m, hm, hbar⟩
        have hmg := h m hm
        refine ⟨?_, ?_⟩
        · intro hng
          rw [← hng] at hmg
          have := hbar hmg.1
          omega
        · by_cases hmn : m = n
          · omega
          · have := hbar hmn
            omega

/-- What is fresh after offers to a state that refused nothing. -/
theorem fresh_iff_accepted (s : σ) (hs : ∀ g, W.fresh s g = true) (ns : List Nat) (g : Nat) :
    W.fresh (W.offerAll s ns) g = true ↔ W.Clear (W.accepted s ns) g := by
  rw [W.fresh_offerAll, W.clear_accepted s hs]
  exact ⟨fun h => h.2, fun h => ⟨hs g, h⟩⟩

theorem nodup_accepted (s : σ) (hs : ∀ g, W.fresh s g = true) (ns : List Nat) :
    (W.accepted s ns).Nodup := by
  induction ns using List.reverseRecOn with
  | nil => exact List.nodup_nil
  | append_singleton ns n ih =>
      rw [accepted_append, accepted_cons]
      by_cases hfresh : W.fresh (W.offerAll s ns) n = true
      · rw [if_pos hfresh]
        have hclear := (W.fresh_iff_accepted s hs ns n).mp hfresh
        simp only [accepted]
        refine List.Nodup.append ih (List.nodup_singleton n) ?_
        intro m hm hmn
        exact (hclear m hm).1 (List.mem_singleton.mp hmn)
      · rw [if_neg hfresh]
        simp only [accepted, List.append_nil]
        exact ih

end Window

end Acceptance

end EarthRise
