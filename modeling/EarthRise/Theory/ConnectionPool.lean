import EarthRise.Core.ConnectionPool
import Mathlib.Data.List.Perm.Basic
import Mathlib.Data.List.Nodup
import Mathlib.Data.Int.Order.Basic

/-!
# The Pool Between Threads

What holds of the connection pool whatever the threads do and in whatever order. A connection
is in one place, so no two threads have the same; those in the pool are connected and have no
open transaction (`Kept`). What a step does to the connections that there are, is to open one,
to drop one or to move one, which is stated as a permutation of all of them.

Nothing ever marks a connection of the pool as not connected. So the second part of acquiring,
which would connect it again, finds it connected, and the driver is not asked
(`lease_eq_of_acquiring`): a connection that the server has dropped stays as it is.

The pool's own count is right up to the connections that were out when it was emptied
(`Kept.counted`).

## Main definitions

* `Kept`: The invariant.

## Theorems

* `kept_step`: What a step keeps.
* `pool_kept`: What holds in every run.
-/

namespace EarthRise

namespace Persist

namespace OdbcConnectionPool

open Run (Reaches free)

/-- All connections that are open. -/
def all (s : OdbcConnectionPool) : List OdbcConnection := s.idle ++ s.out

/-- What holds whatever the threads do. -/
structure Kept (s : OdbcConnectionPool) : Prop where
  idle : ∀ c ∈ s.idle, c.connected = true ∧ c.inTxn = false
  acquiring : ∀ c ∈ s.acquiring, c.connected = true ∧ c.inTxn = false
  leased : ∀ c ∈ s.leased, c.connected = true
  distinct : (s.all.map OdbcConnection.id).Nodup
  numbered : ∀ c ∈ s.all, c.id < s.opened
  counted : (s.all.length : Int) = s.live + s.left
  bounded : s.live ≤ max (max 1 s.cfg.poolMin) s.cfg.poolMax

theorem kept_new : Kept new where
  idle := fun _ h => absurd h List.not_mem_nil
  acquiring := fun _ h => absurd h List.not_mem_nil
  leased := fun _ h => absurd h List.not_mem_nil
  distinct := List.nodup_nil
  numbered := fun _ h => absurd h List.not_mem_nil
  counted := rfl
  bounded := by decide

variable {s : OdbcConnectionPool}

/-- The same connections in other places, or one less. -/
theorem Kept.moved (h : Kept s) (s' : OdbcConnectionPool)
    (hperm : s'.all.Perm s.all) (hopened : s'.opened = s.opened) :
    (s'.all.map OdbcConnection.id).Nodup ∧ ∀ c ∈ s'.all, c.id < s'.opened := by
  refine ⟨(hperm.map _).nodup_iff.mpr h.distinct, fun c hc => ?_⟩
  rw [hopened]
  exact h.numbered c (hperm.mem_iff.mp hc)

variable {conn : OdbcConnection}

theorem Kept.dropped (h : Kept s) (s' : OdbcConnectionPool)
    (hperm : s.all.Perm (conn :: s'.all)) (hopened : s'.opened = s.opened) :
    (s'.all.map OdbcConnection.id).Nodup ∧ ∀ c ∈ s'.all, c.id < s'.opened := by
  have hnodup := (hperm.map OdbcConnection.id).nodup_iff.mp h.distinct
  refine ⟨(List.nodup_cons.mp hnodup).2, fun c hc => ?_⟩
  rw [hopened]
  exact h.numbered c (hperm.mem_iff.mpr (List.mem_cons_of_mem conn hc))

/-- A connection that was just opened has a number of its own. -/
theorem Kept.added (h : Kept s) (s' : OdbcConnectionPool)
    (hid : conn.id = s.opened) (hperm : s'.all.Perm (conn :: s.all))
    (hopened : s'.opened = s.opened + 1) :
    (s'.all.map OdbcConnection.id).Nodup ∧ ∀ c ∈ s'.all, c.id < s'.opened := by
  refine ⟨(hperm.map _).nodup_iff.mpr (List.nodup_cons.mpr ⟨fun hin => ?_, h.distinct⟩),
    fun c hc => ?_⟩
  · rcases List.mem_map.mp hin with ⟨c, hc, heq⟩
    have := h.numbered c hc
    omega
  · rcases List.mem_cons.mp (hperm.mem_iff.mp hc) with rfl | hc
    · omega
    · have := h.numbered c hc
      omega

/-! ## Opening -/

theorem openOne_eq_some {s s' : OdbcConnectionPool} {driver : Bool}
    (h : s.openOne driver = some (conn, s')) :
    conn = ⟨s.opened, true, false⟩ ∧ s' = { s with opened := s.opened + 1 } := by
  unfold openOne connect at h
  rw [if_neg Bool.false_ne_true] at h
  by_cases hdriver : (s.cfg.hasConnString && driver) = true
  · rw [if_pos hdriver, Option.map_some, Option.some.injEq, Prod.mk.injEq] at h
    exact ⟨h.1.symm, h.2.symm⟩
  · rw [if_neg hdriver] at h
    exact absurd h.symm (Option.some_ne_none _)

/-- Warming opens connections into the pool, as many as it has to at most. -/
theorem Kept.warm (driver : Nat → Bool) (n : Nat) : ∀ (i : Nat) (s : OdbcConnectionPool),
    Kept s → s.live + n ≤ max (max 1 s.cfg.poolMin) s.cfg.poolMax →
      Kept (warm driver i n s) := by
  induction n with
  | zero => exact fun i s h _ => h
  | succ n ih =>
      intro i s h hroom
      unfold OdbcConnectionPool.warm
      cases hopen : s.openOne (driver i) with
      | none => exact h
      | some r =>
          rcases r with ⟨conn, s'⟩
          rcases openOne_eq_some hopen with ⟨rfl, rfl⟩
          dsimp only
          push_cast at hroom
          let conn : OdbcConnection := ⟨s.opened, true, false⟩
          let s' : OdbcConnectionPool :=
            { s with opened := s.opened + 1, live := s.live + 1, idle := s.idle ++ [conn] }
          have hperm : s'.all.Perm (conn :: s.all) := by
            have happend : s'.all = s.idle ++ conn :: s.out := by
              simp only [all, out, s', List.append_assoc, List.singleton_append]
            rw [happend]
            exact List.perm_middle
          rcases h.added s' rfl hperm rfl with ⟨hdistinct, hnumbered⟩
          refine ih (i + 1) s' ⟨fun c hc => ?_, h.acquiring, h.leased, hdistinct, hnumbered,
            ?_, ?_⟩ ?_
          · rcases List.mem_append.mp hc with hc | hc
            · exact h.idle c hc
            · rw [List.mem_singleton.mp hc]
              exact ⟨rfl, rfl⟩
          · have hcount := h.counted
            rw [hperm.length_eq, List.length_cons]
            simp only [s']
            push_cast
            omega
          · simp only [s']
            omega
          · simp only [s']
            omega

/-! ## The steps -/

theorem Kept.initializePool (h : Kept s) (cfg : PoolConfig)
    (driver : Nat → Bool) : Kept (s.initializePool cfg driver) := by
  -- What is out stays out, and counts as left.
  have hclear : Kept { s.clear with cfg := cfg } := by
    refine ⟨fun c hc => absurd hc List.not_mem_nil, h.acquiring, h.leased, ?_, fun c hc => ?_, ?_,
      ?_⟩
    · have hdistinct := h.distinct
      unfold all at hdistinct
      rw [List.map_append] at hdistinct
      exact (List.nodup_append.mp hdistinct).2.1
    · exact h.numbered c (List.mem_append_right _ hc)
    · simp [all, clear, out]
    · simp only [clear]
      omega
  unfold OdbcConnectionPool.initializePool
  by_cases hconn : cfg.hasConnString = true
  · simp only [hconn, if_true]
    refine hclear.warm driver _ 0 _ ?_
    simp only [clear]
    by_cases hmin : cfg.poolMin < 1
    · rw [if_pos hmin]
      omega
    · rw [if_neg hmin]
      omega
  · simp only [hconn, Bool.false_eq_true, if_false]
    exact hclear

theorem Kept.take (h : Kept s) (driver : Bool) :
    Kept (s.take driver) := by
  unfold OdbcConnectionPool.take
  cases hidle : s.idle.getLast? with
  | some conn =>
      dsimp only
      have hlast := List.dropLast_append_getLast? conn hidle
      have hmem : conn ∈ s.idle := List.mem_of_getLast? hidle
      let s' : OdbcConnectionPool :=
        { s with idle := s.idle.dropLast, acquiring := s.acquiring ++ [conn] }
      have hperm : s'.all.Perm s.all := by
        have hleft : s'.all = s.idle.dropLast ++ ((s.acquiring ++ [conn]) ++ s.leased) := rfl
        have hright : s.all = s.idle.dropLast ++ ([conn] ++ (s.acquiring ++ s.leased)) := by
          rw [← List.append_assoc, hlast]
          rfl
        rw [hleft, hright, List.append_assoc]
        refine List.Perm.append_left _ ?_
        rw [← List.append_assoc, ← List.append_assoc]
        exact List.perm_append_comm.append_right s.leased
      rcases h.moved s' hperm rfl with ⟨hdistinct, hnumbered⟩
      refine ⟨fun c hc => h.idle c (List.dropLast_subset _ hc), fun c hc => ?_, h.leased,
        hdistinct, hnumbered, ?_, h.bounded⟩
      · rcases List.mem_append.mp hc with hc | hc
        · exact h.acquiring c hc
        · rw [List.mem_singleton.mp hc]
          exact h.idle conn hmem
      · rw [hperm.length_eq]
        exact h.counted
  | none =>
      dsimp only
      by_cases hroom : s.live < s.cfg.poolMax
      · rw [if_pos hroom]
        cases hopen : s.openOne driver with
        | none => exact h
        | some r =>
            rcases r with ⟨conn, s₁⟩
            rcases openOne_eq_some hopen with ⟨rfl, rfl⟩
            dsimp only
            let conn : OdbcConnection := ⟨s.opened, true, false⟩
            let s' : OdbcConnectionPool :=
              { s with opened := s.opened + 1, live := s.live + 1,
                       acquiring := s.acquiring ++ [conn] }
            have hperm : s'.all.Perm (conn :: s.all) := by
              have happend : s'.all = (s.idle ++ s.acquiring) ++ conn :: s.leased := by
                simp only [all, out, s', List.append_assoc, List.singleton_append]
              have hright : s.all = (s.idle ++ s.acquiring) ++ s.leased := by
                simp only [all, out, List.append_assoc]
              rw [happend, hright]
              exact List.perm_middle
            rcases h.added s' rfl hperm rfl with ⟨hdistinct, hnumbered⟩
            refine ⟨h.idle, fun c hc => ?_, h.leased, hdistinct, hnumbered, ?_, ?_⟩
            · rcases List.mem_append.mp hc with hc | hc
              · exact h.acquiring c hc
              · rw [List.mem_singleton.mp hc]
                exact ⟨rfl, rfl⟩
            · have hcount := h.counted
              rw [hperm.length_eq, List.length_cons]
              push_cast
              omega
            · simp only
              omega
      · rw [if_neg hroom]
        exact h

/-- The driver is not asked about a connection that was taken, since it is connected. -/
theorem Kept.lease_eq_of_acquiring (h : Kept s)
    (hconn : conn ∈ s.acquiring) (driver : Bool) : s.lease conn driver =
      { s with acquiring := s.acquiring.erase conn, leased := s.leased ++ [conn] } := by
  unfold OdbcConnectionPool.lease connect
  simp only [(h.acquiring conn hconn).1, if_true]

theorem Kept.lease (h : Kept s)
    (hconn : conn ∈ s.acquiring) (driver : Bool) : Kept (s.lease conn driver) := by
  rw [h.lease_eq_of_acquiring hconn driver]
  let s' : OdbcConnectionPool :=
    { s with acquiring := s.acquiring.erase conn, leased := s.leased ++ [conn] }
  have hperm : s'.all.Perm s.all := by
    refine List.Perm.append_left s.idle ?_
    have hright : s'.out = s.acquiring.erase conn ++ (s.leased ++ [conn]) := rfl
    have htaken : s.out.Perm (conn :: s.acquiring.erase conn ++ s.leased) :=
      (List.perm_cons_erase hconn).append_right s.leased
    refine List.Perm.trans ?_ htaken.symm
    rw [hright, ← List.append_assoc, List.cons_append]
    exact List.perm_append_singleton conn _
  rcases h.moved s' hperm rfl with ⟨hdistinct, hnumbered⟩
  refine ⟨h.idle, fun c hc => h.acquiring c (List.mem_of_mem_erase hc), fun c hc => ?_,
    hdistinct, hnumbered, ?_, h.bounded⟩
  · rcases List.mem_append.mp hc with hc | hc
    · exact h.leased c hc
    · rw [List.mem_singleton.mp hc]
      exact (h.acquiring conn hconn).1
  · rw [hperm.length_eq]
    exact h.counted

/-- A change to a leased connection that leaves it its number and connected. -/
theorem Kept.change (h : Kept s)
    (hconn : conn ∈ s.leased) (inTxn : Bool) :
    Kept (s.change conn { conn with inTxn := inTxn }) := by
  have hids : (s.change conn { conn with inTxn := inTxn }).all.map OdbcConnection.id =
      s.all.map OdbcConnection.id := by
    have hleased : (s.leased.map fun c => if c = conn then { conn with inTxn := inTxn } else c).map
        OdbcConnection.id = s.leased.map OdbcConnection.id := by
      rw [List.map_map]
      refine List.map_congr_left fun c _ => ?_
      by_cases hc : c = conn
      · simp [hc]
      · simp [hc]
    simp only [all, out, OdbcConnectionPool.change, List.map_append, hleased]
  refine ⟨h.idle, h.acquiring, fun c hc => ?_, ?_, fun c hc => ?_, ?_, h.bounded⟩
  · rcases List.mem_map.mp hc with ⟨d, hd, rfl⟩
    by_cases heq : d = conn
    · rw [if_pos heq]
      exact h.leased conn hconn
    · rw [if_neg heq]
      exact h.leased d hd
  · rw [hids]
    exact h.distinct
  · have hin : c.id ∈ s.all.map OdbcConnection.id := by
      rw [← hids]
      exact List.mem_map.mpr ⟨c, hc, rfl⟩
    rcases List.mem_map.mp hin with ⟨d, hd, heq⟩
    rw [← heq]
    exact h.numbered d hd
  · have hlen := congrArg List.length hids
    rw [List.length_map, List.length_map] at hlen
    rw [hlen]
    exact h.counted

theorem Kept.giveBack (h : Kept s)
    (hconn : conn ∈ s.leased) : Kept (s.giveBack conn) := by
  have htaken : s.all.Perm (conn :: (s.idle ++ (s.acquiring ++ s.leased.erase conn))) := by
    have hout : s.out.Perm (conn :: (s.acquiring ++ s.leased.erase conn)) :=
      ((List.perm_cons_erase hconn).append_left s.acquiring).trans List.perm_middle
    exact (hout.append_left s.idle).trans List.perm_middle
  unfold OdbcConnectionPool.giveBack
  by_cases hdrop : (!conn.connected || conn.inTxn) = true
  · -- The connection is dropped, and the count is lowered.
    rw [if_pos hdrop]
    let s' : OdbcConnectionPool :=
      { s with leased := s.leased.erase conn, live := s.live - 1 }
    rcases h.dropped s' htaken rfl with ⟨hdistinct, hnumbered⟩
    refine ⟨h.idle, h.acquiring, fun c hc => h.leased c (List.mem_of_mem_erase hc), hdistinct,
      hnumbered, ?_, ?_⟩
    · have hcount := h.counted
      rw [htaken.length_eq, List.length_cons] at hcount
      push_cast at hcount
      have hall : s'.all.length =
          (s.idle ++ (s.acquiring ++ s.leased.erase conn)).length := rfl
      simp only [s'] at hall ⊢
      omega
    · have hbound := h.bounded
      simp only
      omega
  · rw [if_neg hdrop]
    simp only [Bool.or_eq_true, Bool.not_eq_true', not_or, Bool.not_eq_false,
      Bool.not_eq_true] at hdrop
    let s' : OdbcConnectionPool :=
      { s with leased := s.leased.erase conn, idle := s.idle ++ [conn] }
    have hperm : s'.all.Perm s.all := by
      refine List.Perm.trans ?_ htaken.symm
      have happend : s'.all = s.idle ++ conn :: (s.acquiring ++ s.leased.erase conn) := by
        simp only [all, out, s', List.append_assoc, List.singleton_append]
      rw [happend]
      exact List.perm_middle
    rcases h.moved s' hperm rfl with ⟨hdistinct, hnumbered⟩
    refine ⟨fun c hc => ?_, h.acquiring, fun c hc => h.leased c (List.mem_of_mem_erase hc),
      hdistinct, hnumbered, ?_, h.bounded⟩
    · rcases List.mem_append.mp hc with hc | hc
      · exact h.idle c hc
      · rw [List.mem_singleton.mp hc]
        exact hdrop
    · rw [hperm.length_eq]
      exact h.counted

theorem Kept.shutdown (h : Kept s) : Kept s.shutdown := by
  refine ⟨fun c hc => absurd hc List.not_mem_nil, h.acquiring, h.leased, ?_,
    fun c hc => h.numbered c (List.mem_append_right _ hc), ?_, ?_⟩
  · have hdistinct := h.distinct
    unfold all at hdistinct
    rw [List.map_append] at hdistinct
    exact (List.nodup_append.mp hdistinct).2.1
  · simp [all, OdbcConnectionPool.shutdown, clear, out]
  · simp only [OdbcConnectionPool.shutdown, clear]
    omega

theorem kept_step {s s' : OdbcConnectionPool} {l : PoolLabel} (h : Kept s)
    (hstep : step s l = some s') : Kept s' := by
  cases l with
  | initializePool cfg driver =>
      rw [step, Option.some.injEq] at hstep
      exact hstep ▸ h.initializePool cfg driver
  | take driver =>
      rw [step, Option.some.injEq] at hstep
      exact hstep ▸ h.take driver
  | lease conn driver =>
      rw [step, Option.ite_none_right_eq_some, Option.some.injEq] at hstep
      exact hstep.2 ▸ h.lease hstep.1 driver
  | beginTransaction conn driver =>
      rw [step, Option.ite_none_right_eq_some, Option.some.injEq] at hstep
      rw [← hstep.2]
      unfold OdbcConnectionPool.beginTransaction
      by_cases hbegin : (conn.connected && driver) = true
      · rw [if_pos hbegin]
        exact h.change hstep.1 true
      · rw [if_neg hbegin]
        exact h
  | endTransaction conn =>
      rw [step, Option.ite_none_right_eq_some, Option.some.injEq] at hstep
      exact hstep.2 ▸ h.change hstep.1 false
  | giveBack conn =>
      rw [step, Option.ite_none_right_eq_some, Option.some.injEq] at hstep
      exact hstep.2 ▸ h.giveBack hstep.1
  | shutdown =>
      rw [step, Option.some.injEq] at hstep
      exact hstep ▸ h.shutdown

theorem kept_run (h : Reaches step free new s) : Kept s :=
  h.invariant (fun _ _ _ hkept _ hstep => kept_step hkept hstep) kept_new

/-- Whatever the threads do: no connection is in two places, those in the pool and those just
    taken from it are connected and without a transaction, and so acquiring never connects one
    again and never fails in its second part. As many are open as the pool counts, which is
    at most the larger of its bounds, and as were out when it was emptied last. -/
theorem pool_kept {s : OdbcConnectionPool} (h : Reaches step free new s) :
    ((s.idle ++ s.acquiring ++ s.leased).map OdbcConnection.id).Nodup ∧
    (∀ c ∈ s.idle ++ s.acquiring, c.connected = true ∧ c.inTxn = false) ∧
    (∀ c ∈ s.acquiring, ∀ driver, step s (.lease c driver) =
      some { s with acquiring := s.acquiring.erase c, leased := s.leased ++ [c] }) ∧
    ((s.idle ++ s.acquiring ++ s.leased).length : Int) = s.live + s.left ∧
    s.live ≤ max (max 1 s.cfg.poolMin) s.cfg.poolMax := by
  have hkept := kept_run h
  have hall : s.idle ++ s.acquiring ++ s.leased = s.all := List.append_assoc ..
  rw [hall]
  refine ⟨hkept.distinct, fun c hc => ?_, fun c hc driver => ?_, hkept.counted, hkept.bounded⟩
  · rcases List.mem_append.mp hc with hc | hc
    · exact hkept.idle c hc
    · exact hkept.acquiring c hc
  · rw [step, if_pos hc, hkept.lease_eq_of_acquiring hc driver]

/-- Two threads, the second of which gets a connection that the first one gave back. -/
def shared : List PoolLabel :=
  [.initializePool ⟨true, 1, 2⟩ fun _ => true, .take true, .take true,
    .lease ⟨0, true, false⟩ false, .giveBack ⟨0, true, false⟩, .take true]

theorem shared_kept : ∃ s, Run.runLabels step new shared = some s ∧
    ((s.idle ++ s.acquiring ++ s.leased).map OdbcConnection.id).Nodup ∧
    (∀ c ∈ s.idle ++ s.acquiring, c.connected = true ∧ c.inTxn = false) ∧
    (∀ c ∈ s.acquiring, ∀ driver, step s (.lease c driver) =
      some { s with acquiring := s.acquiring.erase c, leased := s.leased ++ [c] }) ∧
    ((s.idle ++ s.acquiring ++ s.leased).length : Int) = s.live + s.left ∧
    s.live ≤ max (max 1 s.cfg.poolMin) s.cfg.poolMax :=
  ⟨_, rfl, pool_kept (Run.reaches_of_runLabels shared rfl)⟩

end OdbcConnectionPool

end Persist

end EarthRise
