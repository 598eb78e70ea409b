import EarthRise.Core.Outbox
import EarthRise.Lib.Occurrences
import Mathlib.Algebra.BigOperators.Group.List.Basic
import Mathlib.Tactic.Ring

/-!
# Exactly-Once Draining

What the outbox guarantees over every order of calls, and where it stops.

Three things are kept apart. `Consistent` relates the parts of the economy
state to each other: wallets are ledger sums, the key set is the ledger's keys,
no key is posted twice and every posting carries the running balance. A
transaction moves all of them together or none of them, so `Consistent`
survives failures. `Sequenced` says that the log is in sequence order. `Settled`
relates the two: the ledger is the log, up to some point, with repeats removed.

`Settled` needs that no transaction rolls back. The watermark test compares a
sequence number with the highest one applied, so an event that rolled back is
below the watermark as soon as a later event commits, and no later walk will
try it again. `applyEach_keys` says exactly which keys a clean walk adds, and
`clean_pass_iff` reads off when a clean walk repairs what failed.

## Main definitions

* `deltaSum`: What a ledger says an account holds.
* `total`, `Fits`: The exact sum of amounts, and when it does not wrap.
* `Consistent`: The parts of the economy state agree.
* `Sequenced`: The log is in sequence order.
* `Settled`: The ledger is a prefix of the log without repeats.
* `Draining`: The log splits into what is settled and what is still to come.
* `Sound`: What survives every call, failures included.
* `AppliedOnce`: Every event's key is posted exactly once.
* `NoneOvertaken`: No missing event lies below the watermark.

## Theorems

* `apply_cases`: What one apply can do.
* `applyEach_settled`: A clean walk settles what it walks over.
* `applyEach_keys`: The keys a clean walk adds.
* `exactly_once`: Without failures, a final replay posts every event once.
* `balance_wraps`: A balance past the 64-bit range is not the sum.
* `clean_pass_iff`: When a clean walk repairs what failed.
-/

namespace EarthRise

namespace Persist

open Run FirstOccs EconomyState

/-- What the postings of a ledger add up to for one account. -/
def deltaSum (accountId : Nat) (l : List LedgerEntry) : Int64 :=
  ((l.filter (fun x => x.accountId = accountId)).map LedgerEntry.delta).sum

/-- What a posting says was applied. -/
def LedgerEntry.row (x : LedgerEntry) : Nat × Nat × Nat × Int64 :=
  (x.seq, x.idemKey, x.accountId, x.delta)

/-- What an event asks to be applied. -/
def EconomyEvent.row (e : EconomyEvent) : Nat × Nat × Nat × Int64 :=
  (e.seq, e.idemKey, e.accountId, e.amount)

theorem deltaSum_concat (a : Nat) (l : List LedgerEntry) (x : LedgerEntry) :
    deltaSum a (l ++ [x]) = deltaSum a l + if x.accountId = a then x.delta else 0 := by
  unfold deltaSum
  rw [List.filter_append, List.map_append, List.sum_append]
  by_cases h : x.accountId = a
  · simp [h]
  · simp [h]

/-- What amounts add up to where no addition wraps. -/
def total (l : List Int64) : Int := (l.map Int64.toInt).sum

/-- Every running sum is a 64-bit integer. -/
def Fits (l : List Int64) : Prop := ∀ p, p <+: l → -2 ^ 63 ≤ total p ∧ total p < 2 ^ 63

/-- The amounts that events ask to be applied to one account. -/
def amounts (a : Nat) (es : List EconomyEvent) : List Int64 :=
  (es.filter fun e => e.accountId = a).map EconomyEvent.amount

theorem toInt_sum (l : List Int64) : l.sum.toInt = (total l).bmod (2 ^ 64) := by
  induction l with
  | nil => rfl
  | cons x l ih =>
      simp only [total, List.map_cons, List.sum_cons, Int64.toInt_add] at ih ⊢
      rw [ih, Int.add_bmod_bmod]

/-- Sums that fit do not wrap. -/
theorem Fits.toInt_sum {l p : List Int64} (h : Fits l) (hp : p <+: l) :
    p.sum.toInt = total p := by
  rw [Persist.toInt_sum]
  have := h p hp
  exact Int.bmod_eq_of_le (by omega) (by omega)

/-- What was posted to an account is what the events of the rows asked for. -/
theorem deltas_of_rows (a : Nat) (l : List LedgerEntry) (es : List EconomyEvent)
    (h : l.map LedgerEntry.row = es.map EconomyEvent.row) :
    (l.filter fun x => x.accountId = a).map LedgerEntry.delta = amounts a es := by
  induction l generalizing es with
  | nil =>
      rw [List.map_nil, eq_comm, List.map_eq_nil_iff] at h
      rw [h]
      rfl
  | cons x l ih =>
      cases es with
      | nil => exact absurd h (by simp only [List.map_cons, List.map_nil, reduceCtorEq,
          not_false_eq_true])
      | cons e es =>
          simp only [List.map_cons, List.cons.injEq, LedgerEntry.row, EconomyEvent.row,
            Prod.mk.injEq] at h
          have hrest := ih es h.2
          unfold amounts at hrest ⊢
          simp only [List.filter_cons, h.1.2.2.1]
          by_cases ha : e.accountId = a
          · simp only [ha, decide_true, if_true, List.map_cons, hrest, h.1.2.2.2]
          · simp only [ha, decide_false, Bool.false_eq_true, if_false, hrest]

/-- Where keys are pairwise different, a key picks out one posting. -/
theorem filter_key_of_nodup (l : List LedgerEntry)
    (h : (l.map LedgerEntry.idemKey).Nodup) (x : LedgerEntry) (hx : x ∈ l) :
    (l.filter fun y => y.idemKey = x.idemKey) = [x] := by
  induction l with
  | nil => exact absurd hx List.not_mem_nil
  | cons y l ih =>
      rw [List.map_cons, List.nodup_cons] at h
      rcases List.mem_cons.mp hx with rfl | hx
      · have hnone : (l.filter fun y => y.idemKey = x.idemKey) = [] := by
          rw [List.filter_eq_nil_iff]
          intro y hy hk
          exact h.1 (List.mem_map.mpr ⟨y, hy, of_decide_eq_true hk⟩)
        rw [List.filter_cons, if_pos (decide_eq_true rfl), hnone]
      · have hne : y.idemKey ≠ x.idemKey :=
          fun hk => h.1 (List.mem_map.mpr ⟨x, hx, hk.symm⟩)
        rw [List.filter_cons_of_neg (by simpa using hne)]
        exact ih h.2 hx

/-- Wallets, ledger and key set tell the same story. -/
structure Consistent (st : EconomyState) : Prop where
  wallet : ∀ a, st.balance a = deltaSum a st.ledger
  keys : ∀ k, k ∈ st.appliedKeys ↔ k ∈ st.ledger.map LedgerEntry.idemKey
  nodup : (st.ledger.map LedgerEntry.idemKey).Nodup
  running : ∀ pre x post, st.ledger = pre ++ x :: post →
    x.balanceAfter = deltaSum x.accountId (pre ++ [x])

/-- What one apply can do: nothing, for one of three reasons, or post. -/
theorem apply_cases (st : EconomyState) (e : EconomyEvent) (inject : Bool) :
    (st.apply e inject = (st, false) ∧
      (e.seq ≤ st.lastAppliedSeq ∨ e.idemKey ∈ st.appliedKeys ∨ inject = true)) ∨
    (st.apply e inject = (st.post e, true) ∧
      st.lastAppliedSeq < e.seq ∧ e.idemKey ∉ st.appliedKeys ∧ inject = false) := by
  unfold EconomyState.apply
  by_cases hseq : e.seq ≤ st.lastAppliedSeq
  · exact Or.inl ⟨if_pos hseq, Or.inl hseq⟩
  · by_cases hkey : e.idemKey ∈ st.appliedKeys
    · exact Or.inl ⟨by rw [if_neg hseq, if_pos hkey], Or.inr (Or.inl hkey)⟩
    · cases inject with
      | true => exact Or.inl ⟨by simp [hseq, hkey], Or.inr (Or.inr rfl)⟩
      | false => exact Or.inr ⟨by simp [hseq, hkey], by omega, hkey, rfl⟩

theorem fresh_consistent : Consistent EconomyState.fresh where
  wallet := fun _ => rfl
  keys := fun k => by simp [EconomyState.fresh]
  nodup := List.nodup_nil
  running := fun pre x post h => by simp [EconomyState.fresh] at h

/-- Posting an event whose key is new keeps the parts in step. -/
theorem post_consistent (st : EconomyState) (e : EconomyEvent) (hst : Consistent st)
    (hkey : e.idemKey ∉ st.appliedKeys) : Consistent (st.post e) where
  wallet := by
    intro a
    have hw := hst.wallet
    simp only [balance] at hw
    simp only [post, balance, deltaSum_concat, hw]
    by_cases ha : a = e.accountId
    · rw [if_pos ha, if_pos ha.symm, ha]
    · rw [if_neg ha, if_neg (fun h => ha h.symm), Int64.add_zero]
  keys := by
    intro k
    simp only [post, Finset.mem_insert, List.map_append, List.mem_append, hst.keys k,
      List.map_cons, List.map_nil, List.mem_singleton]
    exact or_comm
  nodup := by
    rw [hst.keys] at hkey
    simp only [post, List.map_append, List.map_cons, List.map_nil]
    exact List.Nodup.append hst.nodup (List.nodup_singleton _)
      (List.disjoint_singleton.mpr hkey)
  running := by
    intro pre x rest h
    simp only [post] at h
    rcases List.eq_nil_or_concat rest with hnil | ⟨rest', y, hrest⟩
    · -- The posting just made carries the balance it left.
      rw [hnil] at h
      have hlast := List.append_inj' h rfl
      have hx : x = ⟨e.seq, e.idemKey, e.accountId, e.amount,
          st.wallet e.accountId + e.amount⟩ := by
        have := hlast.2
        simp only [List.cons.injEq, and_true] at this
        exact this.symm
      rw [← hlast.1, hx, deltaSum_concat, if_pos rfl]
      exact congrArg (· + e.amount) (hst.wallet e.accountId)
    · -- Earlier postings were there before.
      rw [hrest, List.concat_eq_append, ← List.cons_append, ← List.append_assoc] at h
      exact hst.running pre x rest' (List.append_inj' h rfl).1

theorem apply_consistent (st : EconomyState) (e : EconomyEvent) (inject : Bool)
    (hst : Consistent st) : Consistent (st.apply e inject).1 := by
  rcases apply_cases st e inject with ⟨h, _⟩ | ⟨h, _, hkey, _⟩
  · rw [h]; exact hst
  · rw [h]; exact post_consistent st e hst hkey

theorem mem_appliedKeys_apply (k : Nat) (st : EconomyState) (e : EconomyEvent) (inject : Bool)
    (h : k ∈ st.appliedKeys) : k ∈ (st.apply e inject).1.appliedKeys := by
  rcases apply_cases st e inject with ⟨ha, _⟩ | ⟨ha, _⟩
  · rw [ha]; exact h
  · rw [ha]; exact Finset.mem_insert_of_mem h

/-! ## The log -/

/-- The log is in sequence order, below the counter. -/
structure Sequenced (ob : Outbox) : Prop where
  sorted : ob.log.Pairwise (fun e e' => e.seq < e'.seq)
  bounded : ∀ e ∈ ob.log, 0 < e.seq ∧ e.seq ≤ ob.nextSeq

theorem empty_sequenced : Sequenced Outbox.empty where
  sorted := List.Pairwise.nil
  bounded := fun e h => by simp [Outbox.empty] at h

theorem append_sequenced (ob : Outbox) (k a : Nat) (amt : Int64) (ty : EconomyEventType)
    (h : Sequenced ob) : Sequenced (ob.append k a amt ty) where
  sorted := by
    simp only [Outbox.append, List.pairwise_append]
    refine ⟨h.sorted, List.pairwise_singleton _ _, ?_⟩
    intro e he e' he'
    rw [List.mem_singleton] at he'
    rw [he']
    exact Nat.lt_succ_of_le (h.bounded e he).2
  bounded := by
    intro e he
    simp only [Outbox.append, List.mem_append, List.mem_singleton] at he ⊢
    rcases he with he | he
    · have := h.bounded e he
      omega
    · rw [he]
      exact ⟨Nat.succ_pos _, Nat.le_refl _⟩

/-- A list in sequence order splits at any number. -/
theorem sorted_split (n : Nat) (es : List EconomyEvent)
    (h : es.Pairwise (fun e e' => e.seq < e'.seq)) :
    ∃ low high, es = low ++ high ∧ (∀ e ∈ low, e.seq ≤ n) ∧ ∀ e ∈ high, n < e.seq := by
  induction es with
  | nil => exact ⟨[], [], rfl, fun e he => absurd he List.not_mem_nil,
      fun e he => absurd he List.not_mem_nil⟩
  | cons e es ih =>
      rw [List.pairwise_cons] at h
      by_cases he : e.seq ≤ n
      · rcases ih h.2 with ⟨low, high, hes, hlow, hhigh⟩
        refine ⟨e :: low, high, by rw [hes, List.cons_append], ?_, hhigh⟩
        intro e' he'
        rcases List.mem_cons.mp he' with he' | he'
        · rw [he']; exact he
        · exact hlow e' he'
      · -- The first number past `n` is below all the later ones.
        refine ⟨[], e :: es, rfl, fun e he => absurd he List.not_mem_nil, ?_⟩
        intro e' he'
        rcases List.mem_cons.mp he' with he' | he'
        · rw [he']; omega
        · have := h.1 e' he'
          omega

/-! ## Clean walks -/

/-- The ledger holds exactly the events of `es`, repeats removed, and the
    watermark has not passed what is still to come. -/
structure Settled (st : EconomyState) (es : List EconomyEvent) : Prop where
  consistent : Consistent st
  rows : st.ledger.map LedgerEntry.row =
    (firstOccs EconomyEvent.idemKey es).map EconomyEvent.row

/-- The keys of a settled ledger are the keys of the events it settles. -/
theorem Settled.mem_keys {st : EconomyState} {es : List EconomyEvent} (h : Settled st es)
    (k : Nat) : k ∈ st.appliedKeys ↔ k ∈ es.map EconomyEvent.idemKey := by
  have hk : st.ledger.map LedgerEntry.idemKey =
      (firstOccs EconomyEvent.idemKey es).map EconomyEvent.idemKey := by
    have hmap := congrArg (List.map (fun r : Nat × Nat × Nat × Int64 => r.2.1)) h.rows
    rw [List.map_map, List.map_map] at hmap
    exact hmap
  rw [h.consistent.keys, hk, mem_keys_firstOccs]

/-- Events whose keys are already in the ledger are repeats of settled ones. -/
theorem Settled.append_repeats {st : EconomyState} {done : List EconomyEvent} :
    ∀ (low : List EconomyEvent), Settled st done → (∀ e ∈ low, e.idemKey ∈ st.appliedKeys) →
      Settled st (done ++ low) := by
  intro low
  induction low generalizing done with
  | nil => intro h _; rwa [List.append_nil]
  | cons e low ih =>
      intro h hlow
      rw [List.append_cons]
      refine ih ⟨h.consistent, ?_⟩ fun e' he' => hlow e' (List.mem_cons_of_mem _ he')
      rw [firstOccs_concat, if_pos ((h.mem_keys _).mp (hlow e List.mem_cons_self))]
      exact h.rows

/-- One more event, tried above the watermark and without a failure. -/
theorem apply_settled (st : EconomyState) (es : List EconomyEvent) (e : EconomyEvent)
    (h : Settled st es) (hseq : st.lastAppliedSeq < e.seq) :
    Settled (st.apply e false).1 (es ++ [e]) := by
  rcases apply_cases st e false with ⟨ha, hwhy⟩ | ⟨ha, _, hkey, _⟩
  · -- The only reason left for refusing the event is that it is a repeat.
    have hkey : e.idemKey ∈ st.appliedKeys := by
      rcases hwhy with hw | hw | hw
      · omega
      · exact hw
      · exact absurd hw Bool.false_ne_true
    rw [ha]
    refine ⟨h.consistent, ?_⟩
    rw [firstOccs_concat, if_pos ((h.mem_keys _).mp hkey)]
    exact h.rows
  · rw [ha]
    refine ⟨post_consistent st e h.consistent hkey, ?_⟩
    rw [firstOccs_concat, if_neg (fun hc => hkey ((h.mem_keys _).mpr hc))]
    simp only [post, List.map_append, h.rows, List.map_cons, List.map_nil, LedgerEntry.row,
      EconomyEvent.row]

theorem lastAppliedSeq_apply_le (st : EconomyState) (e : EconomyEvent) (inject : Bool) (b : Nat)
    (hst : st.lastAppliedSeq ≤ b) (he : e.seq ≤ b) :
    (st.apply e inject).1.lastAppliedSeq ≤ b := by
  rcases apply_cases st e inject with ⟨ha, _⟩ | ⟨ha, _⟩
  · rw [ha]; exact hst
  · rw [ha]
    simp only [post]
    split
    · exact he
    · exact hst

/-- A walk over events that are already in the ledger changes nothing. -/
theorem applyEach_of_applied (wanted : EconomyEvent → Bool) (inject : Failures) :
    ∀ (es : List EconomyEvent) (st : EconomyState) (n : Nat),
      (∀ e ∈ es, e.idemKey ∈ st.appliedKeys) → applyEach wanted inject es st n = (st, n) := by
  intro es
  induction es with
  | nil => intro st n _; rfl
  | cons e es ih =>
      intro st n h
      have hrest := ih st n fun e' he' => h e' (List.mem_cons_of_mem _ he')
      have hskip : st.apply e (inject e) = (st, false) := by
        rcases apply_cases st e (inject e) with ⟨ha, _⟩ | ⟨_, _, hkey, _⟩
        · exact ha
        · exact absurd (h e List.mem_cons_self) hkey
      simp only [applyEach, hskip, Bool.false_eq_true, if_false, hrest, ite_self]

/-- A clean walk above the watermark settles what it walks over. -/
theorem applyEach_settled (wanted : EconomyEvent → Bool) (inject : Failures)
    (hclean : ∀ e, inject e = false) :
    ∀ (es done : List EconomyEvent) (st : EconomyState) (n : Nat), Settled st done →
      es.Pairwise (fun e e' => e.seq < e'.seq) → (∀ e ∈ es, wanted e = true) →
      (∀ e ∈ es, st.lastAppliedSeq < e.seq) →
      Settled (applyEach wanted inject es st n).1 (done ++ es) := by
  intro es
  induction es with
  | nil => intro done st n h _ _ _; rwa [List.append_nil]
  | cons e es ih =>
      intro done st n h hsort hw hseq
      rw [List.pairwise_cons] at hsort
      simp only [applyEach, if_pos (hw e List.mem_cons_self), hclean e]
      rw [List.append_cons]
      refine ih _ _ _ (apply_settled st done e h (hseq e List.mem_cons_self)) hsort.2
        (fun e' he' => hw e' (List.mem_cons_of_mem _ he')) ?_
      -- The watermark is now at most this event's number, so below the rest.
      intro e' he'
      exact Nat.lt_of_le_of_lt
        (lastAppliedSeq_apply_le st e false e.seq
          (Nat.le_of_lt (hseq e List.mem_cons_self)) (Nat.le_refl _)) (hsort.1 e' he')

theorem applyEach_append (wanted : EconomyEvent → Bool) (inject : Failures) :
    ∀ (es es' : List EconomyEvent) (st : EconomyState) (n : Nat),
      applyEach wanted inject (es ++ es') st n =
        applyEach wanted inject es' (applyEach wanted inject es st n).1
          (applyEach wanted inject es st n).2 := by
  intro es
  induction es with
  | nil => intro es' st n; rfl
  | cons e es ih =>
      intro es' st n
      simp only [List.cons_append, applyEach]
      split
      · exact ih es' _ _
      · exact ih es' _ _

/-! ## Runs without failures -/

/-- The log splits into events that are settled and events that no watermark
    has passed. -/
structure Draining (s : Store) : Prop where
  sequenced : Sequenced s.outbox
  split : ∃ done todo, s.outbox.log = done ++ todo ∧ Settled s.state done ∧
    (∀ e ∈ todo, s.state.lastAppliedSeq < e.seq ∧ s.outbox.drainWatermark < e.seq) ∧
    s.state.lastAppliedSeq ≤ s.outbox.nextSeq ∧ s.outbox.drainWatermark ≤ s.outbox.nextSeq

/-- A clean walk that skips nothing still to come settles the whole log. -/
theorem walk_settled (s : Store) (wanted : EconomyEvent → Bool) (inject : Failures)
    (hclean : ∀ e, inject e = false) (h : Draining s)
    (hw : ∀ e ∈ s.outbox.log, s.outbox.drainWatermark < e.seq → wanted e = true) :
    Settled (applyEach wanted inject s.outbox.log s.state 0).1 s.outbox.log := by
  rcases h.split with ⟨done, todo, hlog, hset, hlt, _⟩
  have hsort := h.sequenced.sorted
  rw [hlog, List.pairwise_append] at hsort
  rw [hlog, applyEach_append, applyEach_of_applied wanted inject done s.state 0
    (fun e he => (hset.mem_keys _).mpr (List.mem_map_of_mem he))]
  exact applyEach_settled wanted inject hclean todo done s.state 0 hset hsort.2.1
    (fun e he => hw e (by rw [hlog]; exact List.mem_append_right _ he) (hlt e he).2)
    (fun e he => (hlt e he).1)

/-- A clean walk leaves nothing still to come. -/
theorem walk_draining (s : Store) (wanted : EconomyEvent → Bool) (inject : Failures)
    (hclean : ∀ e, inject e = false) (h : Draining s)
    (hw : ∀ e ∈ s.outbox.log, s.outbox.drainWatermark < e.seq → wanted e = true) :
    Draining { s with state := (applyEach wanted inject s.outbox.log s.state 0).1 } := by
  rcases h.split with ⟨_, _, _, _, _, hL, hW⟩
  refine ⟨h.sequenced, s.outbox.log, [], (List.append_nil _).symm,
    walk_settled s wanted inject hclean h hw, fun e he => absurd he (List.not_mem_nil), ?_, hW⟩
  -- Only numbers of the log move the watermark.
  have hgen : ∀ (es : List EconomyEvent) (st : EconomyState) (n : Nat),
      (∀ e ∈ es, e.seq ≤ s.outbox.nextSeq) → st.lastAppliedSeq ≤ s.outbox.nextSeq →
      (applyEach wanted inject es st n).1.lastAppliedSeq ≤ s.outbox.nextSeq := by
    intro es
    induction es with
    | nil => intro st n _ hst; exact hst
    | cons e es ih =>
        intro st n hes hst
        have hrest := fun e' he' => hes e' (List.mem_cons_of_mem _ he')
        simp only [applyEach]
        split
        · exact ih _ _ hrest
            (lastAppliedSeq_apply_le st e _ _ hst (hes e List.mem_cons_self))
        · exact ih _ _ hrest hst
  exact hgen _ _ _ (fun e he => (h.sequenced.bounded e he).2) hL

theorem fresh_draining : Draining Store.fresh where
  sequenced := empty_sequenced
  split := ⟨[], [], rfl, ⟨fresh_consistent, rfl⟩, fun _ he => absurd he List.not_mem_nil,
    Nat.le_refl _, Nat.le_refl _⟩

/-- Confirming a number moves the events up to it, all of them repeats, over to
    the settled ones. -/
theorem confirm_draining (s : Store) (n : Nat) (h : Draining s) (hn : AppliedUpto s n) :
    Draining { s with outbox := s.outbox.confirmDrained n } := by
  rcases h.split with ⟨done, todo, hlog, hset, hlt, hL, hW⟩
  unfold Outbox.confirmDrained
  by_cases hwn : s.outbox.drainWatermark < n
  · rw [if_pos hwn]
    have hsort := h.sequenced.sorted
    rw [hlog, List.pairwise_append] at hsort
    rcases sorted_split n todo hsort.2.1 with ⟨low, high, htodo, hlow, hhigh⟩
    refine ⟨⟨h.sequenced.sorted, h.sequenced.bounded⟩, done ++ low, high, ?_, ?_, ?_, hL, hn.1⟩
    · rw [List.append_assoc, ← htodo]
      exact hlog
    · refine Settled.append_repeats low hset fun e he => hn.2 e ?_ (hlow e he)
      rw [hlog, htodo]
      exact List.mem_append_right _ (List.mem_append_left _ he)
    · intro e he
      have htod : e ∈ todo := by rw [htodo]; exact List.mem_append_right _ he
      exact ⟨(hlt e htod).1, hhigh e he⟩
  · rw [if_neg hwn]
    exact h

/-- Every call of a run without failures keeps the log split. -/
theorem step_draining (s : Store) (c : Call) (s' : Store) (h : Draining s) (hc : NoneFail s c)
    (hstep : step s c = some s') : Draining s' := by
  rcases h.split with ⟨done, todo, hlog, hset, hlt, hL, hW⟩
  cases c with
  | append k a amt ty =>
      rw [step, Option.some.injEq] at hstep
      rw [← hstep]
      refine ⟨append_sequenced _ k a amt ty h.sequenced, done,
        todo ++ [⟨s.outbox.nextSeq + 1, k, a, amt, ty⟩], ?_, hset, ?_, ?_, ?_⟩
      · simp only [Outbox.append, hlog, List.append_assoc]
      · intro e he
        rcases List.mem_append.mp he with he | he
        · exact hlt e he
        · rw [List.mem_singleton] at he
          rw [he]
          exact ⟨Nat.lt_succ_of_le hL, Nat.lt_succ_of_le hW⟩
      · simp only [Outbox.append]; omega
      · simp only [Outbox.append]; omega
  | drain inject =>
      rw [step, Option.some.injEq] at hstep
      rw [← hstep]
      exact walk_draining s _ inject hc h fun e _ he => decide_eq_true he
  | replayAll inject =>
      rw [step, Option.some.injEq] at hstep
      rw [← hstep]
      exact walk_draining s _ inject hc h fun _ _ _ => rfl
  | confirmDrained n =>
      rw [step] at hstep
      by_cases hn : AppliedUpto s n
      · rw [if_pos hn, Option.some.injEq] at hstep
        rw [← hstep]
        exact confirm_draining s n h hn
      · rw [if_neg hn] at hstep
        exact absurd hstep nofun
  | dropWatermarkOnly =>
      rw [step, Option.some.injEq] at hstep
      rw [← hstep]
      refine ⟨h.sequenced, done, todo, hlog, ⟨⟨hset.consistent.wallet, hset.consistent.keys,
        hset.consistent.nodup, hset.consistent.running⟩, hset.rows⟩, ?_, Nat.zero_le _, hW⟩
      intro e he
      exact ⟨Nat.lt_of_le_of_lt (Nat.zero_le _) (hlt e he).1, (hlt e he).2⟩
  | apply _ _ => exact absurd hc not_false

/-- What a final replay after a run without failures leaves behind: exactly one
    posting for each key of the log, each with the running balance of its
    account, and each account with the sum of the amounts of the log without its
    repeats. The additions are 64-bit; where an account's running sums fit, its
    balance and its postings carry the exact sums. -/
theorem exactly_once {s : Store} (h : Reaches step NoneFail Store.fresh s) :
    let st := (s.outbox.replayAll noFailures s.state).1
    let kept := firstOccs EconomyEvent.idemKey s.outbox.log
    st.ledger.map LedgerEntry.row = kept.map EconomyEvent.row ∧
    (∀ k ∈ s.outbox.log.map EconomyEvent.idemKey,
      (st.ledger.map LedgerEntry.idemKey).count k = 1) ∧
    (∀ a, st.balance a = (amounts a kept).sum) ∧
    (∀ pre x post, st.ledger = pre ++ x :: post →
      x.balanceAfter = deltaSum x.accountId (pre ++ [x])) ∧
    ∀ a, Fits (amounts a kept) → (st.balance a).toInt = total (amounts a kept) ∧
      ∀ pre x post, st.ledger = pre ++ x :: post → x.accountId = a → x.balanceAfter.toInt =
        total (((pre ++ [x]).filter fun y => y.accountId = a).map LedgerEntry.delta) := by
  intro st kept
  have hdrain : Draining s :=
    h.invariant (fun s c s' hs hc hstep => step_draining s c s' hs hc hstep) fresh_draining
  have hset : Settled st s.outbox.log :=
    walk_settled s _ noFailures (fun _ => rfl) hdrain fun _ _ _ => rfl
  have hbal : ∀ a, st.balance a = (amounts a kept).sum := by
    intro a
    rw [hset.consistent.wallet a, deltaSum, deltas_of_rows a st.ledger kept hset.rows]
  refine ⟨hset.rows, ?_, hbal, hset.consistent.running, ?_⟩
  · intro k hk
    have hmem := (hset.mem_keys k).mpr hk
    rw [hset.consistent.keys] at hmem
    exact List.count_eq_one_of_mem hset.consistent.nodup hmem
  · intro a hfits
    refine ⟨by rw [hbal, hfits.toInt_sum (List.prefix_refl _)], ?_⟩
    rintro pre x post hled rfl
    rw [hset.consistent.running pre x post hled, deltaSum]
    -- What was posted up to `x` is an initial part of what the account's events asked for.
    refine hfits.toInt_sum ?_
    have hpre : pre ++ [x] <+: st.ledger := ⟨post, by rw [hled, List.append_assoc]; rfl⟩
    rw [← deltas_of_rows _ st.ledger kept hset.rows]
    exact (hpre.filter _).map _

/-- A repeated key is paid once. -/
theorem exactly_once_repeat :
    let s : Store :=
      { outbox := (Outbox.empty.append 7 1 50 .walletDelta).append 7 1 50 .walletDelta
        state := EconomyState.fresh }
    ((s.outbox.replayAll noFailures s.state).1.balance 1).toInt = 50 := by
  intro s
  have hrun : Reaches step NoneFail Store.fresh s :=
    Reaches.tail (.append 7 1 50 .walletDelta)
      (Reaches.tail (.append 7 1 50 .walletDelta) Reaches.refl trivial rfl) trivial rfl
  have hfits : Fits (amounts 1 (firstOccs EconomyEvent.idemKey s.outbox.log)) := by
    have hone : amounts 1 (firstOccs EconomyEvent.idemKey s.outbox.log) = [50] := by decide
    intro p hp
    rw [hone] at hp
    rcases List.prefix_cons_iff.mp hp with rfl | ⟨q, rfl, hq⟩
    · decide
    · rw [List.prefix_nil.mp hq]
      decide
  rw [((exactly_once hrun).2.2.2.2 1 hfits).1]
  decide

/-- Two payments to one account whose sum is no 64-bit integer: the balance wraps. -/
theorem balance_wraps :
    ¬ ∀ s, Reaches step NoneFail Store.fresh s → ∀ a,
      ((s.outbox.replayAll noFailures s.state).1.balance a).toInt =
        total (amounts a (firstOccs EconomyEvent.idemKey s.outbox.log)) := by
  intro h
  have hrun : Reaches step NoneFail Store.fresh _ :=
    Reaches.tail (.append 2 1 1 .walletDelta)
      (Reaches.tail (.append 1 1 9223372036854775807 .walletDelta) Reaches.refl trivial rfl) trivial rfl
  exact absurd (h _ hrun 1) (by decide)

/-! ## Runs with failures -/

/-- What survives every call, failures included. -/
structure Sound (s : Store) : Prop where
  sequenced : Sequenced s.outbox
  consistent : Consistent s.state
  posted : ∀ x ∈ s.state.ledger, ∃ e ∈ s.outbox.log, x.row = e.row
  confirmed : AppliedUpto s s.outbox.drainWatermark

theorem fresh_sound : Sound Store.fresh where
  sequenced := empty_sequenced
  consistent := fresh_consistent
  posted := fun _ hx => absurd hx List.not_mem_nil
  confirmed := ⟨Nat.le_refl _, fun _ he => absurd he List.not_mem_nil⟩

variable {s : Store}

/-- Trying events of the log keeps what it keeps one event at a time. -/
theorem Sound.apply (h : Sound s) (e : EconomyEvent) (inject : Bool)
    (he : e ∈ s.outbox.log) : Sound { s with state := (s.state.apply e inject).1 } where
  sequenced := h.sequenced
  consistent := apply_consistent s.state e inject h.consistent
  posted := by
    intro x hx
    rcases apply_cases s.state e inject with ⟨ha, _⟩ | ⟨ha, _⟩
    · simp only [ha] at hx
      exact h.posted x hx
    · simp only [ha, EconomyState.post, List.mem_append, List.mem_singleton] at hx
      rcases hx with hx | hx
      · exact h.posted x hx
      · exact ⟨e, he, by rw [hx]; rfl⟩
  confirmed := ⟨h.confirmed.1, fun e' he' hle =>
    mem_appliedKeys_apply _ _ _ _ (h.confirmed.2 e' he' hle)⟩

theorem Sound.walk (wanted : EconomyEvent → Bool) (inject : Failures) :
    ∀ (es : List EconomyEvent) (st : EconomyState) (n : Nat), (∀ e ∈ es, e ∈ s.outbox.log) →
      Sound { s with state := st } →
      Sound { s with state := (applyEach wanted inject es st n).1 } := by
  intro es
  induction es with
  | nil => intro st n _ h; exact h
  | cons e es ih =>
      intro st n hes h
      have hrest := fun e' he' => hes e' (List.mem_cons_of_mem _ he')
      simp only [applyEach]
      split
      · exact ih _ _ hrest (h.apply e (inject e) (hes e List.mem_cons_self))
      · exact ih _ _ hrest h

/-- Every call keeps the store sound. -/
theorem step_sound (s : Store) (c : Call) (s' : Store) (h : Sound s)
    (hstep : step s c = some s') : Sound s' := by
  cases c with
  | append k a amt ty =>
      rw [step, Option.some.injEq] at hstep
      rw [← hstep]
      refine ⟨append_sequenced _ k a amt ty h.sequenced, h.consistent, ?_,
        Nat.le_succ_of_le h.confirmed.1, ?_⟩
      · intro x hx
        rcases h.posted x hx with ⟨e, he, hrow⟩
        exact ⟨e, List.mem_append_left _ he, hrow⟩
      · intro e he hle
        rcases List.mem_append.mp he with he | he
        · exact h.confirmed.2 e he hle
        · -- The new event's number is past every confirmed one.
          rw [List.mem_singleton] at he
          rw [he] at hle
          exact absurd (Nat.le_trans hle h.confirmed.1) (Nat.not_succ_le_self _)
  | drain inject =>
      rw [step, Option.some.injEq] at hstep
      rw [← hstep]
      exact Sound.walk _ inject _ _ 0 (fun _ he => he) h
  | replayAll inject =>
      rw [step, Option.some.injEq] at hstep
      rw [← hstep]
      exact Sound.walk _ inject _ _ 0 (fun _ he => he) h
  | confirmDrained n =>
      rw [step] at hstep
      by_cases hn : AppliedUpto s n
      · rw [if_pos hn, Option.some.injEq] at hstep
        rw [← hstep]
        unfold Outbox.confirmDrained
        split
        · exact ⟨⟨h.sequenced.sorted, h.sequenced.bounded⟩, h.consistent, h.posted, hn⟩
        · exact h
      · rw [if_neg hn] at hstep
        exact absurd hstep nofun
  | dropWatermarkOnly =>
      rw [step, Option.some.injEq] at hstep
      rw [← hstep]
      exact ⟨h.sequenced, ⟨h.consistent.wallet, h.consistent.keys, h.consistent.nodup,
        h.consistent.running⟩, h.posted, h.confirmed⟩
  | apply e inject =>
      rw [step] at hstep
      by_cases he : e ∈ s.outbox.log
      · rw [if_pos he, Option.some.injEq] at hstep
        rw [← hstep]
        exact h.apply e inject he
      · rw [if_neg he] at hstep
        exact absurd hstep nofun

/-- The keys a clean walk adds: those of the wanted events that the watermark
    had not passed when the walk began. -/
theorem applyEach_keys (wanted : EconomyEvent → Bool) (k : Nat) :
    ∀ (es : List EconomyEvent) (st : EconomyState) (n : Nat),
      es.Pairwise (fun e e' => e.seq < e'.seq) →
      (k ∈ (applyEach wanted noFailures es st n).1.appliedKeys ↔ k ∈ st.appliedKeys ∨
        ∃ e ∈ es, wanted e = true ∧ e.idemKey = k ∧ st.lastAppliedSeq < e.seq) := by
  intro es
  induction es with
  | nil => intro st n _; simp [applyEach]
  | cons e es ih =>
      intro st n hsort
      rw [List.pairwise_cons] at hsort
      simp only [applyEach, List.exists_mem_cons_iff]
      by_cases hw : wanted e = true
      · rw [if_pos hw, ih _ _ hsort.2]
        rcases apply_cases st e (noFailures e) with ⟨ha, hwhy⟩ | ⟨ha, hlt, _, _⟩
        · rw [ha]
          constructor
          · exact fun h => h.imp_right Or.inr
          · rintro (h | ⟨_, hk, hseq⟩ | h)
            · exact Or.inl h
            · -- It was refused above the watermark, so its key was there.
              rcases hwhy with hle | hmem | hinj
              · omega
              · exact Or.inl (hk ▸ hmem)
              · exact absurd hinj Bool.false_ne_true
            · exact Or.inr h
        · rw [ha]
          simp only [EconomyState.post, if_pos hlt, Finset.mem_insert]
          constructor
          · rintro ((hk | h) | ⟨e', he', hw', hk', hseq'⟩)
            · exact Or.inr (Or.inl ⟨hw, hk.symm, hlt⟩)
            · exact Or.inl h
            · exact Or.inr (Or.inr ⟨e', he', hw', hk', Nat.lt_trans hlt hseq'⟩)
          · rintro (h | ⟨_, hk, _⟩ | ⟨e', he', hw', hk', _⟩)
            · exact Or.inl (Or.inr h)
            · exact Or.inl (Or.inl hk.symm)
            · exact Or.inr ⟨e', he', hw', hk', hsort.1 e' he'⟩
      · rw [if_neg hw, ih _ _ hsort.2]
        exact or_congr_right ⟨Or.inr, fun h => h.resolve_left fun hc => hw hc.1⟩

/-- Every event of the log took effect once: the wallets are the ledger's sums,
    and the ledger's postings under its key are one posting, of an event of the
    log that carries the key. -/
def AppliedOnce (st : EconomyState) (log : List EconomyEvent) : Prop :=
  (∀ a, st.balance a = deltaSum a st.ledger) ∧
    ∀ e ∈ log, ∃ e' ∈ log, e'.idemKey = e.idemKey ∧
      (st.ledger.filter fun x => x.idemKey = e.idemKey).map LedgerEntry.row = [e'.row]

/-- No event whose key is missing has been overtaken: one of the events with
    its key is still above the applied watermark. -/
def NoneOvertaken (s : Store) : Prop :=
  ∀ e ∈ s.outbox.log, e.idemKey ∈ s.state.appliedKeys ∨
    ∃ e' ∈ s.outbox.log, e'.idemKey = e.idemKey ∧ s.state.lastAppliedSeq < e'.seq

/-- In a sound store it is enough that every key has been posted. -/
theorem Sound.appliedOnce_iff (h : Sound s) :
    AppliedOnce s.state s.outbox.log ↔
      ∀ e ∈ s.outbox.log, e.idemKey ∈ s.state.appliedKeys := by
  constructor
  · intro happ e he
    rcases happ.2 e he with ⟨e', _, _, hrow⟩
    rw [h.consistent.keys, List.mem_map]
    -- The filtered ledger is not empty, so a posting with the key exists.
    cases hf : s.state.ledger.filter fun x => x.idemKey = e.idemKey with
    | nil =>
        rw [hf] at hrow
        exact absurd hrow nofun
    | cons x xs =>
        have hx : x ∈ s.state.ledger.filter fun x => x.idemKey = e.idemKey := by
          rw [hf]; exact List.mem_cons_self
        rw [List.mem_filter, decide_eq_true_eq] at hx
        exact ⟨x, hx.1, hx.2⟩
  · intro hkeys
    refine ⟨h.consistent.wallet, fun e he => ?_⟩
    have hmem := hkeys e he
    rw [h.consistent.keys, List.mem_map] at hmem
    rcases hmem with ⟨x, hx, hxk⟩
    rcases h.posted x hx with ⟨e', he', hrow⟩
    refine ⟨e', he', ?_, ?_⟩
    · rw [← hxk]
      exact (congrArg (fun r => r.2.1) hrow).symm
    · rw [← hxk, filter_key_of_nodup s.state.ledger h.consistent.nodup x hx]
      exact congrArg (· :: []) hrow

/-- After any run, with transactions failing wherever they like, a clean full
    pass leaves every event applied exactly once if and only if no event that
    is missing has been overtaken by a later success. -/
theorem clean_pass_iff {s : Store} (h : Reaches step free Store.fresh s) :
    (AppliedOnce (s.outbox.replayAll noFailures s.state).1 s.outbox.log ↔ NoneOvertaken s) ∧
    (AppliedOnce (s.outbox.drain noFailures s.state).1 s.outbox.log ↔ NoneOvertaken s) := by
  have hs : Sound s :=
    h.invariant (fun s c s' hs _ hstep => step_sound s c s' hs hstep) fresh_sound
  constructor
  · have hafter := Sound.walk (fun _ => true) noFailures _ _ 0 (fun _ he => he) hs
    rw [Outbox.replayAll, hafter.appliedOnce_iff]
    simp only [applyEach_keys _ _ _ _ _ hs.sequenced.sorted, true_and, NoneOvertaken]
  · have hafter := Sound.walk (fun e => s.outbox.drainWatermark < e.seq) noFailures _ _ 0
      (fun _ he => he) hs
    rw [Outbox.drain, hafter.appliedOnce_iff]
    simp only [applyEach_keys _ _ _ _ _ hs.sequenced.sorted, decide_eq_true_eq]
    refine forall₂_congr fun e _ => ?_
    constructor
    · rintro (hk | ⟨e', he', _, hk, hseq⟩)
      · exact Or.inl hk
      · exact Or.inr ⟨e', he', hk, hseq⟩
    · rintro (hk | ⟨e', he', hk, hseq⟩)
      · exact Or.inl hk
      · -- An event the drain skips was confirmed, so its key is there.
        by_cases hw : s.outbox.drainWatermark < e'.seq
        · exact Or.inr ⟨e', he', hw, hk, hseq⟩
        · exact Or.inl (hk ▸ hs.confirmed.2 e' he' (by omega))

/-- Two events are staged and tried in order; the first rolls back and the second
    commits. -/
def overtakingRun : List Call :=
  [.append 101 1 100 .walletDelta, .append 102 1 7 .walletDelta,
   .apply ⟨1, 101, 1, 100, .walletDelta⟩ true, .apply ⟨2, 102, 1, 7, .walletDelta⟩ false]

/-- The first event is lost: neither clean pass tries it again. -/
theorem overtaken_lost :
    ∃ s, Reaches step free Store.fresh s ∧
      ¬ AppliedOnce (s.outbox.replayAll noFailures s.state).1 s.outbox.log ∧
      ¬ AppliedOnce (s.outbox.drain noFailures s.state).1 s.outbox.log := by
  refine ⟨_, reaches_of_runLabels overtakingRun rfl, fun h => ?_, fun h => ?_⟩
  · exact absurd (h.2 ⟨1, 101, 1, 100, .walletDelta⟩ (by decide)) (by decide)
  · exact absurd (h.2 ⟨1, 101, 1, 100, .walletDelta⟩ (by decide)) (by decide)

/-- When it is the last event that rolls back, a clean pass repairs it. -/
theorem clean_pass_iff_last_failed :
    let ob := (Outbox.empty.append 101 1 100 .walletDelta).append 102 1 7 .walletDelta
    let s : Store := { outbox := ob, state := (ob.drain (fun e => e.idemKey = 102) .fresh).1 }
    AppliedOnce (s.outbox.replayAll noFailures s.state).1 s.outbox.log := by
  intro ob s
  have hrun : Reaches step free Store.fresh s :=
    reaches_of_runLabels [.append 101 1 100 .walletDelta, .append 102 1 7 .walletDelta,
      .drain fun e => e.idemKey = 102] rfl
  refine (clean_pass_iff hrun).1.mpr ?_
  unfold NoneOvertaken
  decide

end Persist

end EarthRise
