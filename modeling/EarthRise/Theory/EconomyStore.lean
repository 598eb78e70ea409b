import EarthRise.Core.EconomyStore
import EarthRise.Lib.Run
import Mathlib.Data.List.Nodup

/-!
# When the Economy Queue Drains

Which mutations a healthy database can ever commit.

A mutation commits only against a wallet, and there is no wallet for account
zero, so of everything that is enqueued only the credit of a first login can
commit on its own. Any other mutation leaves the queue only if its key is
already in the outbox. `PassSpec` says this of one pass, is reflexive and
transitive, and so holds of any number of passes; the two directions of
`drains_iff` are read off it.

## Main definitions

* `Healthy`: What the tables satisfy after any commits.
* `Valid`: A healthy database whose pending logins are of registered accounts.
* `PassSpec`: What a pass may change.
* `Matched`: A mutation whose key is committed or that of a pending login.

## Theorems

* `append_spec`: What committing one event can do.
* `drainBatch_spec`: What a batch commits and what it pushes back.
* `stuck_of_unmatched`: An unmatched mutation stays queued for ever.
* `drains_iff`: When the queue empties with everything committed once.
* `lootClaim_blocked`: A claim cannot be posted after its drop.
-/

namespace EarthRise

namespace Persist

open Run

/-- The event's key is in the outbox. -/
def Committed (db : Database) (e : SimEvent) : Prop := e.mutation.idemKey ∈ db.keys

def IsFirstLogin (e : SimEvent) : Prop := ∃ a, e = .firstLogin a

/-- What the tables satisfy after any commits: account zero has no wallet, no
    balance is negative, keys are unique, and every ledger row refers to an
    account whose first login is in the outbox. -/
structure Healthy (db : Database) : Prop where
  numbered : 1 ≤ db.nextAccountId
  unowned : db.wallets 0 = none
  nonneg : ∀ a b, db.wallets a = some b → 0 ≤ b
  nodup : db.keys.Nodup
  refs : ∀ r ∈ db.ledger, ∃ a : Nat, r.refType = some "Account" ∧ r.refId = some (a : Int) ∧
    Committed db (.firstLogin a)

theorem empty_healthy : Healthy Database.empty where
  numbered := Nat.le_refl _
  unowned := rfl
  nonneg := fun a b h => by simp [Database.empty] at h
  nodup := List.nodup_nil
  refs := fun r h => by simp [Database.empty] at h

variable {db : Database}

theorem Healthy.register (h : Healthy db) : Healthy db.register where
  numbered := Nat.le_succ_of_le h.numbered
  unowned := by
    have := h.numbered
    simp only [Database.register]
    rw [if_neg (by omega)]
    exact h.unowned
  nonneg := by
    intro a b hab
    simp only [Database.register] at hab
    by_cases ha : a = db.nextAccountId
    · rw [if_pos ha, Option.some.injEq] at hab
      omega
    · rw [if_neg ha] at hab
      exact h.nonneg a b hab
  nodup := h.nodup
  refs := h.refs

/-- A known key commits nothing and counts as committed. -/
theorem append_known (db : Database) (m : EconomyMutation) (h : m.idemKey ∈ db.keys) :
    ∃ id, appendWriteThrough db m =
      (some id, { db with nextOutboxId := db.nextOutboxId + 1 }) := by
  rw [Database.keys, List.mem_map] at h
  rcases h with ⟨r, hr, hkey⟩
  cases hfind : db.outbox.find? fun r => r.idempotencyKey = m.idemKey with
  | none =>
      rw [List.find?_eq_none] at hfind
      exact absurd (decide_eq_true hkey) (hfind r hr)
  | some r' =>
      refine ⟨r'.outboxId, ?_⟩
      unfold appendWriteThrough
      simp only [hfind]

theorem find_none_of_not_mem (db : Database) (k : UInt64) (h : k ∉ db.keys) :
    (db.outbox.find? fun r => r.idempotencyKey = k) = none := by
  rw [List.find?_eq_none]
  intro r hr hkey
  exact h (List.mem_map.mpr ⟨r, hr, of_decide_eq_true hkey⟩)

/-- Without a wallet nothing commits. -/
theorem append_unowned (db : Database) (m : EconomyMutation) (hkey : m.idemKey ∉ db.keys)
    (hwallet : db.wallets m.accountId = none) :
    appendWriteThrough db m = (none, { db with nextOutboxId := db.nextOutboxId + 1 }) := by
  unfold appendWriteThrough
  simp only [find_none_of_not_mem db _ hkey, hwallet]

/-- No row refers to an account whose first login is not committed. -/
theorem Healthy.ref_free (h : Healthy db) (a : Nat)
    (hkey : ¬ Committed db (.firstLogin a)) :
    db.refTaken (SimEvent.firstLogin a).mutation.ledgerRef = false := by
  have hne : ("Account" : String).isEmpty = false := rfl
  unfold Database.refTaken
  simp only [EconomyMutation.ledgerRef, SimEvent.mutation, hne, Bool.false_eq_true, if_false,
    Option.isSome_some, Bool.true_and, List.any_eq_false, Bool.and_eq_true, decide_eq_true_eq,
    not_and]
  intro r hr _ hid
  rcases h.refs r hr with ⟨a', _, hid', hcom⟩
  rw [hid', Option.some.injEq, Nat.cast_inj] at hid
  rw [hid] at hcom
  exact hkey hcom

@[simp] theorem accountId_firstLogin (a : Nat) :
    (SimEvent.firstLogin a).mutation.accountId = a := rfl

theorem wallets_commit (db : Database) (id : Nat) (bal : Int) (m : EconomyMutation) (b : Nat) :
    (db.commit id bal m).wallets b = if b = m.accountId then some bal else db.wallets b := rfl

/-- The rows of a first login keep the tables healthy. -/
theorem Healthy.commit (h : Healthy db) (id a : Nat) (bal : Int)
    (hbal : 0 ≤ bal) (hkey : ¬ Committed db (.firstLogin a)) (ha : a ≠ 0) :
    Healthy (db.commit id bal (SimEvent.firstLogin a).mutation) where
  numbered := h.numbered
  unowned := by
    rw [wallets_commit, accountId_firstLogin, if_neg ha.symm]
    exact h.unowned
  nonneg := by
    intro b c hbc
    rw [wallets_commit, accountId_firstLogin] at hbc
    by_cases hb : b = a
    · rw [if_pos hb, Option.some.injEq] at hbc
      omega
    · rw [if_neg hb] at hbc
      exact h.nonneg b c hbc
  nodup := by
    simp only [Database.keys, Database.commit, List.map_append, List.map_cons, List.map_nil]
    exact List.Nodup.append h.nodup (List.nodup_singleton _) (List.disjoint_singleton.mpr hkey)
  refs := by
    intro r hr
    simp only [Database.commit, List.mem_append, List.mem_singleton] at hr
    simp only [Committed, Database.keys, Database.commit, List.map_append, List.mem_append]
    rcases hr with hr | hr
    · rcases h.refs r hr with ⟨a', htype, hid, hcom⟩
      exact ⟨a', htype, hid, Or.inl hcom⟩
    · refine ⟨a, ?_, ?_, Or.inr (List.mem_singleton.mpr rfl)⟩
      · rw [hr]; rfl
      · rw [hr]; rfl

/-- The first login of a registered account, not yet committed, commits. -/
theorem append_login (db : Database) (a : Nat) (h : Healthy db)
    (hkey : ¬ Committed db (.firstLogin a)) (hreg : (db.wallets a).isSome = true) :
    ∃ bal, 0 ≤ bal ∧ appendWriteThrough db (SimEvent.firstLogin a).mutation =
      (some db.nextOutboxId, { db with nextOutboxId := db.nextOutboxId + 1 }.commit
        db.nextOutboxId bal (SimEvent.firstLogin a).mutation) := by
  rcases Option.isSome_iff_exists.mp hreg with ⟨bal, hbal⟩
  have hnonneg := h.nonneg a bal hbal
  have hpos : 0 ≤ bal + (SimEvent.firstLogin a).mutation.amount := by
    simp only [SimEvent.mutation, startingCredits]
    omega
  have hbal' : db.wallets (SimEvent.firstLogin a).mutation.accountId = some bal := hbal
  have href : { db with nextOutboxId := db.nextOutboxId + 1 }.refTaken
      (SimEvent.firstLogin a).mutation.ledgerRef = false := h.ref_free a hkey
  refine ⟨_, hpos, ?_⟩
  unfold appendWriteThrough
  simp only [find_none_of_not_mem db _ hkey, hbal', if_neg (not_lt.mpr hpos), href,
    Bool.false_eq_true, if_false]

/-- Taking a number for an outbox row changes nothing that matters here. -/
theorem Healthy.numberTaken (h : Healthy db) (n : Nat) :
    Healthy { db with nextOutboxId := n } :=
  ⟨h.numbered, h.unowned, h.nonneg, h.nodup, h.refs⟩

/-- A change of the tables by committing some of `es`. -/
structure Grows (es : List SimEvent) (db db' : Database) : Prop where
  healthy : Healthy db'
  wallets : ∀ a, (db.wallets a).isSome = true → (db'.wallets a).isSome = true
  keeps : ∀ k ∈ db.keys, k ∈ db'.keys
  adds : ∀ k ∈ db'.keys, k ∈ db.keys ∨
    ∃ a, .firstLogin a ∈ es ∧ (SimEvent.firstLogin a).mutation.idemKey = k

theorem Grows.refl {es : List SimEvent} (h : Healthy db) : Grows es db db :=
  ⟨h, fun _ => id, fun _ => id, fun _ => Or.inl⟩

theorem Grows.trans {es es' : List SimEvent} {db db' db'' : Database} (h : Grows es db db')
    (h' : Grows es' db' db'') : Grows (es ++ es') db db'' where
  healthy := h'.healthy
  wallets := fun a ha => h'.wallets a (h.wallets a ha)
  keeps := fun k hk => h'.keeps k (h.keeps k hk)
  adds := by
    intro k hk
    rcases h'.adds k hk with hk | ⟨a, ha, hak⟩
    · exact (h.adds k hk).imp_right fun ⟨a, ha, hak⟩ => ⟨a, List.mem_append_left _ ha, hak⟩
    · exact Or.inr ⟨a, List.mem_append_right _ ha, hak⟩

theorem Grows.mono {es es' : List SimEvent} {db db' : Database} (h : Grows es db db')
    (hes : ∀ e ∈ es, e ∈ es') : Grows es' db db' :=
  ⟨h.healthy, h.wallets, h.keeps, fun k hk =>
    (h.adds k hk).imp_right fun ⟨a, ha, hak⟩ => ⟨a, hes _ ha, hak⟩⟩

/-- Committing one event: it is committed afterwards, or it was neither
    committed nor a first login and stays that way. -/
theorem append_spec (db : Database) (e : SimEvent) (h : Healthy db)
    (hreg : ∀ a, e = .firstLogin a → (db.wallets a).isSome = true) :
    Grows [e] db (appendWriteThrough db e.mutation).2 ∧
      (((appendWriteThrough db e.mutation).1.isSome = true ∧
          Committed (appendWriteThrough db e.mutation).2 e) ∨
        ((appendWriteThrough db e.mutation).1 = none ∧ ¬ IsFirstLogin e ∧ ¬ Committed db e)) := by
  have hgrow : Grows [e] db { db with nextOutboxId := db.nextOutboxId + 1 } :=
    ⟨h.numberTaken _, fun _ => id, fun _ => id, fun _ => Or.inl⟩
  by_cases hkey : Committed db e
  · rcases append_known db e.mutation hkey with ⟨id, happ⟩
    rw [happ]
    exact ⟨hgrow, Or.inl ⟨rfl, hkey⟩⟩
  · by_cases hlogin : IsFirstLogin e
    · rcases hlogin with ⟨a, rfl⟩
      have ha : a ≠ 0 := by
        intro h0
        have := hreg a rfl
        rw [h0, h.unowned] at this
        exact Bool.false_ne_true this
      rcases append_login db a h hkey (hreg a rfl) with ⟨bal, hbal, happ⟩
      rw [happ]
      have hkeys : ∀ k, k ∈ ({ db with nextOutboxId := db.nextOutboxId + 1 }.commit
          db.nextOutboxId bal (SimEvent.firstLogin a).mutation).keys ↔
          k ∈ db.keys ∨ (SimEvent.firstLogin a).mutation.idemKey = k := by
        intro k
        simp only [Database.keys, Database.commit, List.map_append, List.mem_append,
          List.map_cons, List.map_nil, List.mem_singleton, eq_comm]
      refine ⟨⟨(h.numberTaken _).commit _ a bal hbal hkey ha, ?_, ?_, ?_⟩,
        Or.inl ⟨rfl, (hkeys _).mpr (Or.inr rfl)⟩⟩
      · intro b hb
        rw [wallets_commit]
        split
        · rfl
        · exact hb
      · exact fun k hk => (hkeys k).mpr (Or.inl hk)
      · intro k hk
        exact ((hkeys k).mp hk).imp_right fun hk => ⟨a, List.mem_singleton.mpr rfl, hk⟩
    · -- Build and combat mutations are for account zero, which has no wallet.
      have hzero : e.mutation.accountId = 0 := by
        cases e with
        | buildCompleted n => rfl
        | econ e => rfl
        | firstLogin a => exact absurd ⟨a, rfl⟩ hlogin
      have happ := append_unowned db e.mutation hkey (by rw [hzero]; exact h.unowned)
      rw [happ]
      exact ⟨hgrow, Or.inr ⟨rfl, hlogin, hkey⟩⟩

/-! ## Passes -/

/-- What a batch commits and what it pushes back. -/
theorem drainBatch_spec (batch : List SimEvent) :
    ∀ (db : Database) (queue : List SimEvent), Healthy db →
      (∀ a, .firstLogin a ∈ batch → (db.wallets a).isSome = true) →
      Grows batch db (drainBatch batch db queue).1 ∧
      ∃ failed, (drainBatch batch db queue).2 = queue ++ failed ∧
        (∀ e ∈ failed, e ∈ batch ∧ ¬ IsFirstLogin e ∧ ¬ Committed db e) ∧
        ∀ e ∈ batch, Committed (drainBatch batch db queue).1 e ∨ e ∈ failed := by
  induction batch with
  | nil =>
      intro db queue h _
      exact ⟨Grows.refl h, [], (List.append_nil _).symm, fun e he => absurd he List.not_mem_nil,
        fun e he => absurd he List.not_mem_nil⟩
  | cons e batch ih =>
      intro db queue h hreg
      rcases append_spec db e h fun a ha => hreg a (ha ▸ List.mem_cons_self) with ⟨hgrow, hcase⟩
      have hreg' : ∀ a, .firstLogin a ∈ batch →
          ((appendWriteThrough db e.mutation).2.wallets a).isSome = true :=
        fun a ha => hgrow.wallets a (hreg a (List.mem_cons_of_mem _ ha))
      -- What a later event of the batch finds missing was missing before.
      have hback : ∀ e', ¬ Committed (appendWriteThrough db e.mutation).2 e' →
          ¬ Committed db e' := fun e' hn hc => hn (hgrow.keeps _ hc)
      rcases hcase with ⟨hsome, hcom⟩ | ⟨hnone, hlogin, hkey⟩
      · have hstep : drainBatch (e :: batch) db queue =
            drainBatch batch (appendWriteThrough db e.mutation).2 queue := by
          rcases Option.isSome_iff_exists.mp hsome with ⟨id, hid⟩
          have hpair : appendWriteThrough db e.mutation =
              (some id, (appendWriteThrough db e.mutation).2) := by rw [← hid]
          conv_lhs => unfold drainBatch
          rw [hpair]
        rw [hstep]
        rcases ih _ queue hgrow.healthy hreg' with ⟨hgrow', failed, hq, hfailed, hdone⟩
        refine ⟨hgrow.trans hgrow', failed, hq, ?_, ?_⟩
        · intro e' he'
          rcases hfailed e' he' with ⟨hmem, hl, hc⟩
          exact ⟨List.mem_cons_of_mem _ hmem, hl, hback e' hc⟩
        · intro e' he'
          rcases List.mem_cons.mp he' with rfl | he'
          · exact Or.inl (hgrow'.keeps _ hcom)
          · exact hdone e' he'
      · have hstep : drainBatch (e :: batch) db queue =
            drainBatch batch (appendWriteThrough db e.mutation).2 (queue ++ [e]) := by
          have hpair : appendWriteThrough db e.mutation =
              (none, (appendWriteThrough db e.mutation).2) := by rw [← hnone]
          conv_lhs => unfold drainBatch
          rw [hpair]
        rw [hstep]
        rcases ih _ (queue ++ [e]) hgrow.healthy hreg' with ⟨hgrow', failed, hq, hfailed, hdone⟩
        refine ⟨hgrow.trans hgrow', e :: failed, by rw [hq, List.append_assoc]; rfl, ?_, ?_⟩
        · intro e' he'
          rcases List.mem_cons.mp he' with rfl | he'
          · exact ⟨List.mem_cons_self, hlogin, hkey⟩
          · rcases hfailed e' he' with ⟨hmem, hl, hc⟩
            exact ⟨List.mem_cons_of_mem _ hmem, hl, hback e' hc⟩
        · intro e' he'
          rcases List.mem_cons.mp he' with rfl | he'
          · exact Or.inr List.mem_cons_self
          · exact (hdone e' he').imp_right (List.mem_cons_of_mem _)

/-- Healthy tables, and pending logins are of registered accounts. -/
structure Valid (s : Service) : Prop where
  healthy : Healthy s.db
  registered : ∀ a, .firstLogin a ∈ s.pending → (s.db.wallets a).isSome = true

/-- What passes over the queue may change: events leave it only committed, and
    no key is added but those of first logins that were in it. -/
structure PassSpec (s s' : Service) : Prop where
  valid : Valid s'
  less : ∀ e ∈ s'.pending, e ∈ s.pending
  done : ∀ e ∈ s.pending, Committed s'.db e ∨ e ∈ s'.pending
  grows : Grows s.pending s.db s'.db

theorem PassSpec.trans {s t u : Service} (h : PassSpec s t) (h' : PassSpec t u) :
    PassSpec s u where
  valid := h'.valid
  less := fun e he => h.less e (h'.less e he)
  done := by
    intro e he
    rcases h.done e he with hc | ht
    · exact Or.inl (h'.grows.keeps _ hc)
    · exact h'.done e ht
  grows := (h.grows.trans h'.grows).mono fun e he => by
    rcases List.mem_append.mp he with he | he
    · exact he
    · exact h.less e he

theorem finishPass_spec (s : Service) (h : Valid s) :
    PassSpec s (finishPass s) ∧
      ∀ e ∈ s.batch, IsFirstLogin e ∨ Committed s.db e → Committed (finishPass s).db e := by
  rcases drainBatch_spec s.batch s.db s.queue h.healthy
    fun a ha => h.registered a (List.mem_append_left _ ha) with
    ⟨hgrow, failed, hq, hfailed, hdone⟩
  have hpend : (finishPass s).pending = s.queue ++ failed := hq
  have hless : ∀ e ∈ (finishPass s).pending, e ∈ s.pending := by
    intro e he
    rw [hpend] at he
    rcases List.mem_append.mp he with he | he
    · exact List.mem_append_right _ he
    · exact List.mem_append_left _ (hfailed e he).1
  refine ⟨⟨⟨hgrow.healthy, fun a ha => hgrow.wallets a (h.registered a (hless _ ha))⟩, hless, ?_,
    hgrow.mono fun e he => List.mem_append_left _ he⟩, ?_⟩
  · intro e he
    rw [hpend]
    rcases List.mem_append.mp he with he | he
    · exact (hdone e he).imp_right (List.mem_append_right _)
    · exact Or.inr (List.mem_append_left _ he)
  · intro e he hwhy
    rcases hdone e he with hc | hf
    · exact hc
    · rcases hfailed e hf with ⟨_, hl, hc⟩
      exact absurd hwhy (by rw [not_or]; exact ⟨hl, hc⟩)

theorem drainEconomyOnce_spec (s : Service) (h : Valid s) (hb : s.batch = []) :
    PassSpec s (drainEconomyOnce s) ∧
      ∀ e ∈ s.pending, IsFirstLogin e ∨ Committed s.db e →
        Committed (drainEconomyOnce s).db e := by
  have hpend : s.pending = ({ db := s.db, queue := [], batch := s.queue } : Service).pending := by
    simp only [Service.pending, hb, List.nil_append, List.append_nil]
  have hvalid : Valid { db := s.db, queue := [], batch := s.queue } :=
    ⟨h.healthy, fun a ha => h.registered a (hpend ▸ ha)⟩
  rcases finishPass_spec _ hvalid with ⟨hspec, hcom⟩
  refine ⟨⟨hspec.valid, fun e he => hpend ▸ hspec.less e he, fun e he => hspec.done e (hpend ▸ he),
    hpend ▸ hspec.grows⟩, fun e he => hcom e ?_⟩
  rw [hpend] at he
  simpa [Service.pending] using he

/-- Finish the pass under way and make `k` more. -/
def passes (k : Nat) (s : Service) : Service := drainEconomyOnce^[k] (finishPass s)

theorem passes_spec (k : Nat) (s : Service) (h : Valid s) :
    PassSpec s (passes k s) ∧ (passes k s).batch = [] := by
  induction k with
  | zero => exact ⟨(finishPass_spec s h).1, rfl⟩
  | succ k ih =>
      unfold passes at ih ⊢
      rw [Function.iterate_succ_apply']
      exact ⟨ih.1.trans (drainEconomyOnce_spec _ ih.1.valid ih.2).1, rfl⟩

/-- The event's key is committed, or is the key of a pending first login. -/
def Matched (s : Service) (e : SimEvent) : Prop :=
  Committed s.db e ∨ ∃ a, .firstLogin a ∈ s.pending ∧
    (SimEvent.firstLogin a).mutation.idemKey = e.mutation.idemKey

/-- A pending event that is not matched stays queued through every pass. -/
theorem stuck_of_unmatched (s : Service) (h : Valid s) (e : SimEvent) (he : e ∈ s.pending)
    (hm : ¬ Matched s e) (k : Nat) : e ∈ (passes k s).pending := by
  have hspec := (passes_spec k s h).1
  rcases hspec.done e he with hc | hp
  · exact absurd (hspec.grows.adds _ hc) hm
  · exact hp

/-- Two passes after the one under way commit everything that is matched. -/
theorem passes_two_empty (s : Service) (h : Valid s) (hm : ∀ e ∈ s.pending, Matched s e) :
    (passes 2 s).pending = [] := by
  have h1 := passes_spec 1 s h
  have hlogin : ∀ a, .firstLogin a ∈ s.pending → Committed (passes 1 s).db (.firstLogin a) := by
    intro a ha
    have h0 := finishPass_spec s h
    have hone := drainEconomyOnce_spec (finishPass s) h0.1.valid rfl
    rcases h0.1.done _ ha with hc | hp
    · exact hone.1.grows.keeps _ hc
    · exact hone.2 _ hp (Or.inl ⟨a, rfl⟩)
  have hall : ∀ e ∈ s.pending, Committed (passes 1 s).db e := by
    intro e he
    rcases hm e he with hc | ⟨a, ha, hkey⟩
    · exact h1.1.grows.keeps _ hc
    · have := hlogin a ha
      unfold Committed at this ⊢
      rwa [← hkey]
  -- In the second pass every event is known, and a known event is not pushed back.
  have htwo : passes 2 s = drainEconomyOnce (passes 1 s) := by
    unfold passes
    rw [Function.iterate_succ_apply']
  have hreg : ∀ a, .firstLogin a ∈ (passes 1 s).queue →
      ((passes 1 s).db.wallets a).isSome = true :=
    fun a ha => h1.1.valid.registered a (List.mem_append_right _ ha)
  rcases drainBatch_spec (passes 1 s).queue (passes 1 s).db [] h1.1.valid.healthy hreg with
    ⟨_, failed, hq, hfailed, _⟩
  have hpend : (passes 2 s).pending = failed := by
    rw [htwo]
    simpa [Service.pending, drainEconomyOnce, finishPass] using hq
  rw [hpend, List.eq_nil_iff_forall_not_mem]
  intro e he
  rcases hfailed e he with ⟨hmem, _, hc⟩
  exact hc (hall e (h1.1.less e (List.mem_append_right _ hmem)))

/-- A drop and a claim of one container carry the same ledger reference. So even
    with accounts filled in, once the drop's row is in the ledger the claim,
    whose key is another one, is rolled back. -/
theorem lootClaim_blocked (db : Database) (drop claim : EconEvent) (a a' id : Nat) (bal : Int)
    (hdrop : drop.type = .lootDrop) (hclaim : claim.type = .lootClaim)
    (hnet : claim.aNetId = drop.aNetId) :
    let m := { (SimEvent.econ drop).mutation with accountId := a }
    let m' := { (SimEvent.econ claim).mutation with accountId := a' }
    m'.idemKey ∉ (db.commit id bal m).keys →
      (appendWriteThrough (db.commit id bal m) m').1 = none := by
  intro m m' hkey
  have href : m'.ledgerRef = m.ledgerRef := by
    simp only [EconomyMutation.ledgerRef, m, m', SimEvent.mutation, mapEconEvent, hdrop, hclaim,
      hnet]
  have hrow : m.ledgerRef = (some "Loot", some (drop.aNetId.toNat : Int)) := by
    have hne : ("Loot" : String).isEmpty = false := rfl
    simp only [EconomyMutation.ledgerRef, m, SimEvent.mutation, mapEconEvent, hdrop, hne,
      Bool.false_eq_true, if_false]
  have htaken : ∀ n, { db.commit id bal m with nextOutboxId := n }.refTaken m'.ledgerRef =
      true := by
    intro n
    unfold Database.refTaken
    rw [href, hrow]
    simp only [Option.isSome_some, Bool.true_and, List.any_eq_true]
    refine ⟨_, List.mem_append_right _ (List.mem_singleton.mpr rfl), ?_⟩
    rw [hrow]
    simp only [decide_true, Bool.and_self]
  unfold appendWriteThrough
  simp only [find_none_of_not_mem _ _ hkey, htaken, if_true]
  split
  · rfl
  · split
    · rfl
    · rfl

/-! ## Runs -/

theorem fresh_valid : Valid Service.fresh :=
  ⟨empty_healthy, fun _ ha => absurd ha List.not_mem_nil⟩

/-- Every action keeps the service valid. -/
theorem step_valid (s : Service) (act : Action) (s' : Service) (h : Valid s)
    (hstep : s.step act = some s') : Valid s' := by
  cases act with
  | register =>
      rw [Service.step, Option.some.injEq] at hstep
      rw [← hstep]
      refine ⟨h.healthy.register, fun a ha => ?_⟩
      have hreg : (s.db.wallets a).isSome = true := h.registered a ha
      simp only [Database.register]
      split
      · rfl
      · exact hreg
  | enqueue e =>
      -- Only a first login adds to what has to be registered.
      have hadd : ∀ s'' : Service, s'' = { s with queue := s.queue ++ [e] } →
          (∀ a, e = .firstLogin a → (s.db.wallets a).isSome = true) → Valid s'' := by
        rintro _ rfl hreg
        refine ⟨h.healthy, fun a ha => ?_⟩
        simp only [Service.pending, ← List.append_assoc, List.mem_append, List.mem_singleton] at ha
        rcases ha with ha | ha
        · exact h.registered a (List.mem_append.mpr ha)
        · exact hreg a ha.symm
      cases e with
      | firstLogin a =>
          simp only [Service.step] at hstep
          by_cases ha : (s.db.wallets a).isSome = true
          · rw [if_pos ha, Option.some.injEq] at hstep
            exact hadd s' hstep.symm fun b hb => by rw [← (SimEvent.firstLogin.inj hb)]; exact ha
          · rw [if_neg ha] at hstep
            exact absurd hstep nofun
      | buildCompleted n =>
          simp only [Service.step, Option.some.injEq] at hstep
          exact hadd s' hstep.symm fun b hb => SimEvent.noConfusion hb
      | econ ev =>
          simp only [Service.step, Option.some.injEq] at hstep
          exact hadd s' hstep.symm fun b hb => SimEvent.noConfusion hb
  | takeQueue =>
      rw [Service.step] at hstep
      by_cases hb : s.batch = []
      · rw [if_pos hb, Option.some.injEq] at hstep
        rw [← hstep]
        refine ⟨h.healthy, fun a ha => h.registered a ?_⟩
        simp only [Service.pending, List.append_nil] at ha
        exact List.mem_append_right _ ha
      · rw [if_neg hb] at hstep
        exact absurd hstep nofun
  | commitNext =>
      rw [Service.step] at hstep
      cases hbatch : s.batch with
      | nil =>
          simp only [hbatch] at hstep
          exact absurd hstep nofun
      | cons e batch =>
          have hmem : e ∈ s.pending := by
            unfold Service.pending
            rw [hbatch]
            exact List.mem_append_left _ List.mem_cons_self
          rcases append_spec s.db e h.healthy fun a ha => h.registered a (ha ▸ hmem) with
            ⟨hgrow, _⟩
          have hsub : ∀ e' ∈ batch ++ (s.queue ++ [e]), e' ∈ s.pending := by
            intro e' he'
            simp only [List.mem_append, List.mem_singleton] at he'
            simp only [Service.pending, hbatch, List.cons_append, List.mem_cons, List.mem_append]
            tauto
          simp only [hbatch] at hstep
          rcases happ : appendWriteThrough s.db e.mutation with ⟨_ | id, db⟩
          · rw [happ] at hstep hgrow
            rw [Option.some.injEq] at hstep
            rw [← hstep]
            exact ⟨hgrow.healthy, fun a ha => hgrow.wallets a (h.registered a (hsub _ ha))⟩
          · rw [happ] at hstep hgrow
            rw [Option.some.injEq] at hstep
            rw [← hstep]
            refine ⟨hgrow.healthy, fun a ha => hgrow.wallets a (h.registered a (hsub _ ?_))⟩
            simp only [Service.pending, List.mem_append] at ha ⊢
            tauto
  | restart =>
      rw [Service.step, Option.some.injEq] at hstep
      rw [← hstep]
      exact ⟨h.healthy, fun a ha => absurd ha List.not_mem_nil⟩

/-- In every reachable state, enough passes empty the queue with each pending
    event committed exactly once if and only if every pending event is matched. -/
theorem drains_iff {s : Service} (h : Reaches Service.step free Service.fresh s) :
    (∃ k, (passes k s).pending = [] ∧
      ∀ e ∈ s.pending, (passes k s).db.keys.count e.mutation.idemKey = 1) ↔
    ∀ e ∈ s.pending, Matched s e := by
  have hs : Valid s :=
    h.invariant (fun s a s' hs _ hstep => step_valid s a s' hs hstep) fresh_valid
  constructor
  · rintro ⟨k, hempty, _⟩ e he
    by_contra hm
    have hstuck := stuck_of_unmatched s hs e he hm k
    rw [hempty] at hstuck
    exact List.not_mem_nil hstuck
  · intro hm
    have hempty := passes_two_empty s hs hm
    have hspec := (passes_spec 2 s hs).1
    refine ⟨2, hempty, fun e he => ?_⟩
    rcases hspec.done e he with hc | hp
    · exact List.count_eq_one_of_mem hspec.valid.healthy.nodup hc
    · rw [hempty] at hp
      exact absurd hp List.not_mem_nil

/-- A player registers, logs in for the first time, and a ship is built. -/
def firstShip : List Action :=
  [.register, .enqueue (.firstLogin 1), .enqueue (.buildCompleted 5)]

/-- The build completion is rolled back and queued again in every pass. -/
theorem build_never_drains :
    ∃ s, Reaches Service.step free Service.fresh s ∧
      s.pending = [.firstLogin 1, .buildCompleted 5] ∧
      ∀ k, .buildCompleted 5 ∈ (passes k s).pending := by
  refine ⟨_, reaches_of_runLabels firstShip rfl, rfl, fun k => ?_⟩
  refine stuck_of_unmatched _ ?_ _ (by decide) ?_ k
  · refine ⟨empty_healthy.register, fun a ha => ?_⟩
    have ha1 : a = 1 := by simpa [Service.pending, Service.fresh] using ha
    rw [ha1]
    rfl
  · rintro (hc | ⟨a, ha, hkey⟩)
    · exact List.not_mem_nil hc
    · have ha1 : a = 1 := by simpa [Service.pending, Service.fresh] using ha
      rw [ha1] at hkey
      exact absurd hkey (by decide)

/-- A first login alone drains. -/
theorem drains_iff_firstLogin :
    ∃ s k, Service.fresh.step .register = some s ∧
      (passes k { s with queue := [.firstLogin 1] }).pending = [] := by
  have hrun : Reaches Service.step free Service.fresh
      { db := Database.empty.register, queue := [.firstLogin 1], batch := [] } :=
    reaches_of_runLabels [.register, .enqueue (.firstLogin 1)] rfl
  rcases (drains_iff hrun).mpr (fun e he => Or.inr ⟨1, List.mem_singleton.mpr rfl, by
    rw [Service.pending, List.nil_append, List.mem_singleton] at he
    rw [he]⟩) with ⟨k, hk, _⟩
  exact ⟨_, k, rfl, hk⟩

end Persist

end EarthRise
