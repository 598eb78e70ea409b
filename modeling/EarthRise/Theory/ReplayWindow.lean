import EarthRise.Core.SecureChannel
import EarthRise.Lib.Window

/-!
# The Replay Window as an Acceptance Window

What the bitmask means. Each mask operation is described by what it does to a
single mark, and from that `fresh_checkAndUpdate` follows: recording a number
makes stale the number itself and everything a window's width below it,
whether it was accepted or refused. That is the law of an acceptance window,
and it is all that the channel above needs to know.

The law also gives the window's own specification back, which knows nothing of
masks: `Admits` judges a number by the numbers let in before it.

## Main definitions

* `replayWindow`: The code as an acceptance window.
* `Admits`: When a number is to be let in after the ones let in before.

## Theorems

* `Bits.testBit_setBit`: Setting a mark sets that mark only.
* `Bits.testBit_slideForward`: Sliding moves every mark to an older offset.
* `checkAndUpdate_fst`: The answer is the freshness test.
* `fresh_checkAndUpdate`: What recording a number makes stale.
* `checkAndUpdate_admits`: The code lets in what is to be let in.
-/

namespace EarthRise

namespace Net

open Acceptance

/-! ## The mask operations -/

namespace Bits

theorem testBit_zero (o : Fin 1024) : zero.testBit o = false := by
  simp [testBit, zero]

theorem testBit_setBit (b : Bits) (o p : Fin 1024) :
    (b.setBit o).testBit p = (b.testBit p || decide (o = p)) := by
  have hwo : o.val / 64 < 16 := by omega
  have hwp : p.val / 64 < 16 := by omega
  unfold testBit setBit
  simp only [Fin.getElem_fin]
  rw [Vector.getElem_set]
  by_cases hw : o.val / 64 = p.val / 64
  · have hword : b[o.val / 64] = b[p.val / 64] := by
      congr 1
    have hlt : o.val % 64 < 64 := Nat.mod_lt _ (by omega)
    have hiff : (o = p) ↔ (o.val % 64 = p.val % 64) := by
      rw [Fin.ext_iff]
      omega
    rw [if_pos hw, BitVec.getLsbD_or, hword, ← BitVec.twoPow_eq, BitVec.getLsbD_twoPow,
      decide_eq_decide.mpr hiff, decide_eq_true hlt, Bool.true_and]
  · have hne : o ≠ p := fun h => hw (by rw [h])
    rw [if_neg hw, decide_eq_false hne, Bool.or_false]

theorem wordAt_neg (b : Bits) (i : Int) (hi : i < 0) : b.wordAt i = 0 := by
  unfold wordAt
  rw [dif_neg (by omega)]

/-- Bit `k` of word `i` is the mark of offset `64 * i + k`. -/
theorem getLsbD_wordAt (b : Bits) (i : Int) (k : Nat) (hk : k < 64) (o : Fin 1024)
    (ho : (o.val : Int) = 64 * i + k) : (b.wordAt i).getLsbD k = b.testBit o := by
  have hword : i.toNat = o.val / 64 := by omega
  have hbit : k = o.val % 64 := by omega
  unfold wordAt testBit
  rw [dif_pos (by omega)]
  simp only [hword, hbit]

/-- Sliding by `s` moves the mark of offset `o - s` to offset `o`. -/
theorem testBit_slideForward (b : Bits) (s : Nat) (o : Fin 1024) :
    (b.slideForward s).testBit o =
      if h : s ≤ o.val then b.testBit ⟨o.val - s, by omega⟩ else false := by
  unfold slideForward
  by_cases hs : windowBits ≤ s
  · have : ¬ s ≤ o.val := by unfold windowBits at hs; omega
    rw [if_pos hs, dif_neg this, testBit_zero]
  · rw [if_neg hs]
    by_cases hb : s % 64 = 0
    · -- Whole words move.
      simp only [hb, if_true]
      have hget : testBit (Vector.ofFn fun i : Fin 16 => b.wordAt (i.val - (s / 64 : Nat))) o =
          (b.wordAt ((o.val / 64 : Nat) - (s / 64 : Nat))).getLsbD (o.val % 64) := by
        unfold testBit
        rw [Fin.getElem_fin, Vector.getElem_ofFn]
      rw [hget]
      by_cases hso : s ≤ o.val
      · rw [dif_pos hso]
        exact getLsbD_wordAt b _ _ (by omega) _ (by simp only []; omega)
      · rw [dif_neg hso, wordAt_neg b _ (by omega)]
        exact BitVec.getLsbD_zero
    · simp only [hb, if_false]
      have hget : testBit (Vector.ofFn fun i : Fin 16 =>
          (b.wordAt (i.val - (s / 64 : Nat)) <<< (s % 64)) |||
            (b.wordAt (i.val - (s / 64 : Nat) - 1) >>> (64 - s % 64))) o =
          ((b.wordAt ((o.val / 64 : Nat) - (s / 64 : Nat)) <<< (s % 64)) |||
            (b.wordAt ((o.val / 64 : Nat) - (s / 64 : Nat) - 1) >>> (64 - s % 64))).getLsbD
              (o.val % 64) := by
        unfold testBit
        rw [Fin.getElem_fin, Vector.getElem_ofFn]
      rw [hget, BitVec.getLsbD_or, BitVec.getLsbD_shiftLeft, BitVec.getLsbD_ushiftRight]
      by_cases hjb : o.val % 64 < s % 64
      · -- The bit comes from the top of the word below.
        have hlow : decide (o.val % 64 < s % 64) = true := decide_eq_true hjb
        simp only [hlow, Bool.not_true, Bool.and_false, Bool.false_and, Bool.false_or]
        by_cases hso : s ≤ o.val
        · rw [dif_pos hso]
          exact getLsbD_wordAt b _ _ (by omega) _ (by simp only []; omega)
        · rw [dif_neg hso, wordAt_neg b _ (by omega)]
          exact BitVec.getLsbD_zero
      · -- The bit comes from the same word, further down.
        have hhigh : (b.wordAt ((o.val / 64 : Nat) - (s / 64 : Nat) - 1)).getLsbD
            (64 - s % 64 + o.val % 64) = false :=
          BitVec.getLsbD_of_ge _ _ (by omega)
        rw [hhigh, Bool.or_false, decide_eq_true (by omega : o.val % 64 < 64),
          decide_eq_false hjb]
        simp only [Bool.not_false, Bool.and_self, Bool.true_and]
        by_cases hso : s ≤ o.val
        · rw [dif_pos hso]
          exact getLsbD_wordAt b _ _ (by omega) _ (by simp only []; omega)
        · rw [dif_neg hso, wordAt_neg b _ (by omega)]
          exact BitVec.getLsbD_zero

end Bits

/-! ## The code is a window -/

namespace ReplayWindow

theorem checkAndUpdate_fst (w : ReplayWindow) (n : Nat) :
    (w.checkAndUpdate n).1 = w.fresh n := by
  unfold checkAndUpdate fresh
  by_cases hany : w.seenAny = false
  · simp only [hany, if_true]
  · rw [if_neg hany, if_neg hany]
    by_cases hnew : w.highest < n
    · simp only [hnew, if_true]
    · rw [if_neg hnew, if_neg hnew]
      by_cases hoff : w.highest - n < 1024
      · simp only [dif_pos hoff]
        cases w.bits.testBit ⟨w.highest - n, hoff⟩ with
        | true => rfl
        | false => rfl
      · simp only [dif_neg hoff]

/-- A window that has seen a number judges by offset from the highest. -/
theorem fresh_iff (w : ReplayWindow) (g : Nat) (hany : w.seenAny = true) :
    w.fresh g = true ↔ w.highest < g ∨
      ∃ h : w.highest - g < 1024, g ≤ w.highest ∧ w.bits.testBit ⟨w.highest - g, h⟩ = false := by
  unfold fresh
  rw [if_neg (by rw [hany]; decide)]
  by_cases hnew : w.highest < g
  · rw [if_pos hnew]
    exact ⟨fun _ => Or.inl hnew, fun _ => rfl⟩
  · rw [if_neg hnew]
    by_cases hoff : w.highest - g < 1024
    · rw [dif_pos hoff, Bool.not_eq_true']
      constructor
      · exact fun h => Or.inr ⟨hoff, by omega, h⟩
      · rintro (h | ⟨_, _, h⟩)
        · exact absurd h hnew
        · exact h
    · rw [dif_neg hoff]
      constructor
      · exact fun h => absurd h Bool.false_ne_true
      · rintro (h | ⟨h, _⟩)
        · exact absurd h hnew
        · exact absurd h hoff

/-- Recording the first number: nothing else is marked. -/
theorem fresh_first (w : ReplayWindow) (n g : Nat) (hany : w.seenAny = false) :
    (w.checkAndUpdate n).2.fresh g = true ↔ n ≠ g ∧ n < g + 1024 := by
  have hpost : (w.checkAndUpdate n).2 =
      ⟨Bits.zero.setBit 0, n, true, fun h => absurd h (by decide)⟩ := by
    simp only [checkAndUpdate, hany, if_true, w.clean hany]
  rw [hpost, fresh_iff _ _ rfl]
  simp only [Bits.testBit_setBit, Bits.testBit_zero, Bool.false_or, decide_eq_false_iff_not]
  constructor
  · rintro (h | ⟨hoff, hle, hne⟩)
    · omega
    · exact ⟨fun h => hne (by rw [Fin.ext_iff]; simp [h]), by omega⟩
  · rintro ⟨hne, hlt⟩
    by_cases h : n < g
    · exact Or.inl h
    · exact Or.inr ⟨by omega, by omega, fun h0 => hne (by
        have := congrArg Fin.val h0
        simp only [Fin.val_zero] at this
        omega)⟩

/-- Recording a number past the highest slides the marks under it. -/
theorem fresh_slid (w : ReplayWindow) (n g : Nat) (hany : w.seenAny = true)
    (hnew : w.highest < n) :
    (w.checkAndUpdate n).2.fresh g = true ↔ w.fresh g = true ∧ n ≠ g ∧ n < g + 1024 := by
  have hpost : (w.checkAndUpdate n).2 = ⟨(w.bits.slideForward (n - w.highest)).setBit 0, n, true,
      fun h => absurd h (by decide)⟩ := by
    unfold checkAndUpdate
    rw [if_neg (by rw [hany]; decide), if_pos hnew]
  rw [hpost, fresh_iff _ _ rfl, fresh_iff w g hany]
  simp only [Bits.testBit_setBit, Bits.testBit_slideForward, Bool.or_eq_false_iff,
    decide_eq_false_iff_not]
  constructor
  · rintro (h | ⟨hoff, hle, hbit, hne⟩)
    · exact ⟨Or.inl (by omega), by omega, by omega⟩
    · have hng : n ≠ g := fun h => hne (by rw [Fin.ext_iff]; simp [h])
      refine ⟨?_, hng, by omega⟩
      by_cases hold : g ≤ w.highest
      · have heq : n - g - (n - w.highest) = w.highest - g := by omega
        rw [dif_pos (by omega)] at hbit
        simp only [heq] at hbit
        exact Or.inr ⟨by omega, hold, hbit⟩
      · exact Or.inl (by omega)
  · rintro ⟨hfresh, hne, hlt⟩
    by_cases hgn : n < g
    · exact Or.inl hgn
    · refine Or.inr ⟨by omega, by omega, ?_, fun h0 => hne (by
        have := congrArg Fin.val h0
        simp only [Fin.val_zero] at this
        omega)⟩
      by_cases hold : g ≤ w.highest
      · rcases hfresh with h | ⟨hoff, _, hbit⟩
        · omega
        · have heq : n - g - (n - w.highest) = w.highest - g := by omega
          rw [dif_pos (by omega)]
          simp only [heq]
          exact hbit
      · rw [dif_neg (by omega)]

/-- Recording a number at or below the highest marks at most its own offset. -/
theorem fresh_behind (w : ReplayWindow) (n g : Nat) (hany : w.seenAny = true)
    (hold : ¬ w.highest < n) :
    (w.checkAndUpdate n).2.fresh g = true ↔ w.fresh g = true ∧ n ≠ g ∧ n < g + 1024 := by
  have hstep : (w.checkAndUpdate n).2 =
      if h : w.highest - n < 1024 then
        if w.bits.testBit ⟨w.highest - n, h⟩ then w
        else ⟨w.bits.setBit ⟨w.highest - n, h⟩, w.highest, true, fun h => absurd h (by decide)⟩
      else w := by
    unfold checkAndUpdate
    rw [if_neg (by rw [hany]; decide), if_neg hold]
    by_cases hoff : w.highest - n < 1024
    · simp only [dif_pos hoff]
      cases w.bits.testBit ⟨w.highest - n, hoff⟩ with
      | true => rfl
      | false => rfl
    · simp only [dif_neg hoff]
  -- A fresh number is less than a width below the highest, so below `n` too.
  have hnear : w.fresh g = true → n < g + 1024 := by
    rw [fresh_iff w g hany]
    rintro (h | ⟨h, _⟩)
    · omega
    · omega
  rw [hstep]
  by_cases hoff : w.highest - n < 1024
  · rw [dif_pos hoff]
    cases hbit : w.bits.testBit ⟨w.highest - n, hoff⟩ with
    | true =>
        rw [if_pos rfl]
        refine ⟨fun h => ⟨h, ?_, hnear h⟩, fun h => h.1⟩
        intro hng
        rw [fresh_iff w g hany, ← hng] at h
        rcases h with h | ⟨_, _, h⟩
        · exact hold h
        · rw [hbit] at h
          exact Bool.false_ne_true h.symm
    | false =>
        rw [if_neg Bool.false_ne_true, fresh_iff _ _ rfl, fresh_iff w g hany]
        simp only [Bits.testBit_setBit, Bool.or_eq_false_iff, decide_eq_false_iff_not,
          Fin.mk.injEq]
        constructor
        · rintro (h | ⟨h, hle, hb, hne⟩)
          · exact ⟨Or.inl h, by omega, by omega⟩
          · exact ⟨Or.inr ⟨h, hle, hb⟩, by omega, by omega⟩
        · rintro ⟨h | ⟨h, hle, hb⟩, hne, _⟩
          · exact Or.inl h
          · exact Or.inr ⟨h, hle, hb, by omega⟩
  · rw [dif_neg hoff]
    refine ⟨fun h => ⟨h, ?_, hnear h⟩, fun h => h.1⟩
    intro hng
    rw [fresh_iff w g hany, ← hng] at h
    rcases h with h | ⟨h, _⟩
    · exact hold h
    · exact hoff h

/-- What recording a number makes stale, whatever the answer was: the number
    itself and everything a window's width below it. -/
theorem fresh_checkAndUpdate (w : ReplayWindow) (n g : Nat) :
    (w.checkAndUpdate n).2.fresh g = true ↔ w.fresh g = true ∧ n ≠ g ∧ n < g + 1024 := by
  cases hany : w.seenAny with
  | false =>
      have hall : w.fresh g = true := by
        unfold fresh
        rw [if_pos hany]
      rw [fresh_first w n g hany]
      exact ⟨fun h => ⟨hall, h⟩, fun h => h.2⟩
  | true =>
      by_cases hnew : w.highest < n
      · exact fresh_slid w n g hany hnew
      · exact fresh_behind w n g hany hnew

end ReplayWindow

/-- The code is an acceptance window of width 1024. -/
def replayWindow : Window ReplayWindow where
  width := windowBits
  fresh := ReplayWindow.fresh
  offer := fun w n => (w.checkAndUpdate n).2
  law := ReplayWindow.fresh_checkAndUpdate

/-! ## What the window decides -/

/-- What a replay window is for, without its mask: a number is let in when it is
    the first, or when it has not been let in before and lies above the highest
    let in by less than a window's width below it. -/
def Admits (accepted : List Nat) (n : Nat) : Prop :=
  accepted = [] ∨ (n ∉ accepted ∧ ((accepted.foldr max 0 : Nat) : Int) - windowBits < n)

instance (accepted : List Nat) (n : Nat) : Decidable (Admits accepted n) :=
  inferInstanceAs (Decidable (_ ∨ _ ∧ _))

theorem foldr_max_lt (ms : List Nat) (b : Nat) (hb : 0 < b) :
    ms.foldr max 0 < b ↔ ∀ m ∈ ms, m < b := by
  induction ms with
  | nil => exact ⟨fun _ m hm => absurd hm List.not_mem_nil, fun _ => hb⟩
  | cons m ms ih =>
      rw [List.foldr_cons, Nat.max_lt, ih, List.forall_mem_cons]

theorem clear_iff_admits (accepted : List Nat) (n : Nat) :
    replayWindow.Clear accepted n ↔ Admits accepted n := by
  have hwidth : replayWindow.width = 1024 := rfl
  have hmax := foldr_max_lt accepted (n + 1024) (by omega)
  have hclear : replayWindow.Clear accepted n ↔
      n ∉ accepted ∧ accepted.foldr max 0 < n + 1024 := by
    rw [hmax]
    unfold Acceptance.Window.Clear
    rw [hwidth]
    refine ⟨fun h => ⟨fun hn => (h n hn).1 rfl, fun m hm => (h m hm).2⟩, ?_⟩
    exact fun h m hm => ⟨fun hmn => h.1 (by rw [← hmn]; exact hm), h.2 m hm⟩
  rw [hclear]
  unfold Admits windowBits
  constructor
  · rintro ⟨hnew, hhigh⟩
    exact Or.inr ⟨hnew, by omega⟩
  · rintro (hnone | ⟨hnew, hhigh⟩)
    · rw [hnone]
      exact ⟨List.not_mem_nil, by simp only [List.foldr_nil]; omega⟩
    · exact ⟨hnew, by omega⟩

theorem accepted_eq (w : ReplayWindow) (ns : List Nat) :
    w.accepted ns = replayWindow.accepted w ns := by
  induction ns generalizing w with
  | nil => rfl
  | cons n ns ih =>
      unfold ReplayWindow.accepted Acceptance.Window.accepted
      simp only [ReplayWindow.checkAndUpdate_fst]
      rw [ih]
      rfl

/-- The window answers as it is meant to after every sequence of numbers, and
    lets no number in twice. -/
theorem checkAndUpdate_admits (ns : List Nat) :
    (∀ n, ((ReplayWindow.reset.offerAll ns).checkAndUpdate n).1 = true ↔
      Admits (ReplayWindow.reset.accepted ns) n) ∧
    (ReplayWindow.reset.accepted ns).Nodup := by
  have hreset : ∀ g, replayWindow.fresh ReplayWindow.reset g = true := fun _ => rfl
  rw [accepted_eq]
  refine ⟨fun n => ?_, replayWindow.nodup_accepted _ hreset ns⟩
  rw [ReplayWindow.checkAndUpdate_fst, ← clear_iff_admits]
  exact replayWindow.fresh_iff_accepted _ hreset ns n

end Net

end EarthRise
