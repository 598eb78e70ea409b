import EarthRise.Core.PersistenceThread
import EarthRise.Lib.Run
import Mathlib.Data.List.Find

/-!
# The RPO Watermark

What the watermark of the write-behind passes promises, and when.

A pass takes the whole queue before it knows whether the database will accept
the rows. A failed transaction leaves them nowhere: neither the queue nor the
database has them. The next pass may then find the queue empty and note that all
is written, which it is not.

`Honest` is what the watermark says: for every entity with a row in its table,
the database has the last row handed out by the marked pass, or a later one. The
rows handed out are those pushed and not dropped. It holds as long as every
entity of a failed batch is pushed again before the next pass takes the queue,
and no two entities of a pass share a key.

The invariant behind it is `Current`: an entity with nothing under way and
nothing failed has its last row in the database.

## Main definitions

* `lastRow`: The last row of an entity in a list of rows.
* `Honest`, `Retried`: The watermark, and the fate of a failed batch.
* `Covered`: The condition on a step.
* `Sound`: The invariant.

## Theorems

* `mem_latestRows`: What a pass keeps of the rows it took.
* `flushBatch_written`: What a transaction that commits leaves.
* `watermark_honest`: The watermark in every run whose steps are covered.
* `watermark_ahead`: A run in which it is wrong.
-/

namespace EarthRise

namespace Persist

/-- The last row of an entity in a list of rows. -/
def lastRow (rows : List WriteBehindRow) (id : RowId) : Option WriteBehindRow :=
  rows.reverse.find? fun r => r.id = id

theorem lastRow_append (rows more : List WriteBehindRow) (id : RowId) :
    lastRow (rows ++ more) id = (lastRow more id).or (lastRow rows id) := by
  unfold lastRow
  rw [List.reverse_append, List.find?_append]

variable {rows : List WriteBehindRow} {r : WriteBehindRow} {id : RowId}

theorem mem_of_lastRow
    (h : lastRow rows id = some r) : r ∈ rows ∧ r.id = id := by
  unfold lastRow at h
  have htest := List.find?_some h
  exact ⟨List.mem_reverse.mp (List.mem_of_find?_eq_some h), of_decide_eq_true htest⟩

theorem lastRow_eq_none :
    lastRow rows id = none ↔ Watched.names rows id = false := by
  unfold lastRow Watched.names
  rw [List.find?_eq_none, List.any_eq_false]
  simp only [List.mem_reverse]

theorem names_iff :
    Watched.names rows id = true ↔ ∃ r ∈ rows, r.id = id := by
  unfold Watched.names
  rw [List.any_eq_true]
  simp only [decide_eq_true_eq]

/-! ## What a pass keeps -/

/-- Different entities of a list of rows have different keys. -/
def KeysApart (rows : List WriteBehindRow) : Prop :=
  ∀ a ∈ rows, ∀ b ∈ rows,
    PersistenceThread.coalesceKey a.id = PersistenceThread.coalesceKey b.id → a.id = b.id

instance (rows : List WriteBehindRow) : Decidable (KeysApart rows) :=
  inferInstanceAs (Decidable (∀ a ∈ rows, ∀ b ∈ rows,
    PersistenceThread.coalesceKey a.id = PersistenceThread.coalesceKey b.id → a.id = b.id))

/-- A row is kept under a key exactly when it is the last one under it. -/
theorem mem_latestRows_key {drained : List WriteBehindRow} :
    r ∈ PersistenceThread.latestRows drained ↔ ∃ k, (drained.reverse.find? fun e =>
      (PersistenceThread.coalesceKey e.id).toNat = k) = some r := by
  have hfind : ∀ k, ((drained.map fun r =>
      ((PersistenceThread.coalesceKey r.id).toNat, r)).reverse.find? fun e => e.1 = k) =
        (drained.reverse.find? fun e =>
          (PersistenceThread.coalesceKey e.id).toNat = k).map
            fun r => ((PersistenceThread.coalesceKey r.id).toNat, r) := by
    intro k
    rw [← List.map_reverse, List.find?_map]
    rfl
  unfold PersistenceThread.latestRows
  rw [List.mem_map]
  constructor
  · rintro ⟨e, he, rfl⟩
    refine ⟨e.1, ?_⟩
    have hlook := (OrdMap.mem_entries _ e.1 e.2).mp he
    rw [OrdMap.find?_insertAll, hfind, OrdMap.find?_empty, Option.or_none, Option.map_map,
      Option.map_eq_some_iff] at hlook
    obtain ⟨r, hr, heq⟩ := hlook
    rw [hr, ← heq]
    rfl
  · rintro ⟨k, hk⟩
    refine ⟨(k, r), (OrdMap.mem_entries _ k r).mpr ?_, rfl⟩
    rw [OrdMap.find?_insertAll, hfind, hk]
    rfl

/-- With the keys apart a pass keeps the last row of each entity. -/
theorem mem_latestRows {drained : List WriteBehindRow} (hapart : KeysApart drained)
    :
    r ∈ PersistenceThread.latestRows drained ↔ lastRow drained r.id = some r := by
  -- among the rows taken, the key of a row is that of its entity
  have hsame : r ∈ drained → (drained.reverse.find? fun e =>
      (PersistenceThread.coalesceKey e.id).toNat =
        (PersistenceThread.coalesceKey r.id).toNat) = lastRow drained r.id := by
    intro hr
    refine List.find?_congr fun e he => ?_
    refine decide_eq_decide.mpr ⟨fun h => ?_, fun h => by rw [h]⟩
    exact hapart e (List.mem_reverse.mp he) r hr (UInt64.toNat_inj.mp h)
  rw [mem_latestRows_key]
  constructor
  · rintro ⟨k, hk⟩
    have hr : r ∈ drained := List.mem_reverse.mp (List.mem_of_find?_eq_some hk)
    have htest := List.find?_some hk
    have hkey : (PersistenceThread.coalesceKey r.id).toNat = k := of_decide_eq_true htest
    rw [← hkey] at hk
    rw [← hsame hr]
    exact hk
  · intro h
    exact ⟨_, (hsame (mem_of_lastRow h).1).trans h⟩

/-- Any order of the kept rows has the same last row of every entity. -/
theorem lastRow_batch {drained batch : List WriteBehindRow} (hapart : KeysApart drained)
    (hbatch : batch.Perm (PersistenceThread.latestRows drained)) (id : RowId) :
    lastRow batch id = lastRow drained id := by
  cases hb : lastRow batch id with
  | some r =>
      obtain ⟨hr, hid⟩ := mem_of_lastRow hb
      have hlast := (mem_latestRows hapart).mp (hbatch.mem_iff.mp hr)
      rw [hid] at hlast
      exact hlast.symm
  | none =>
      cases hd : lastRow drained id with
      | none => rfl
      | some r =>
          have hid := (mem_of_lastRow hd).2
          rw [← hid] at hd hb
          have hr := hbatch.mem_iff.mpr ((mem_latestRows hapart).mpr hd)
          rw [lastRow_eq_none, ← Bool.not_eq_true, names_iff] at hb
          exact absurd ⟨r, hr, rfl⟩ hb

/-! ## What a transaction leaves -/

theorem execUpdate_apply (db : StateTables) (r : WriteBehindRow) (id : RowId) :
    (execUpdate db r).2 id =
      if id = r.id then (db id).map fun _ => r.state else db id := by
  unfold execUpdate
  cases hr : db r.id with
  | none =>
      simp only []
      by_cases h : id = r.id
      · rw [if_pos h, h, hr, Option.map_none]
      · rw [if_neg h]
  | some old =>
      by_cases h : id = r.id
      · simp only [h, hr, if_true, Option.map_some]
      · simp only [h, if_false]

/-- After the updates a row that was there has the state of its last update. -/
theorem execAll_written (fault : Option DbFault) (i : Nat) (rows : List WriteBehindRow)
    (db : StateTables) {n : Nat} {db' : StateTables}
    (h : execAll fault i rows db = some (n, db')) (id : RowId) :
    db' id = (db id).map fun old => ((lastRow rows id).map WriteBehindRow.state).getD old := by
  induction rows generalizing i db n db' with
  | nil =>
      rw [execAll, Option.some.injEq, Prod.mk.injEq] at h
      rw [← h.2]
      exact Option.map_id'.symm
  | cons r rows ih =>
      rw [execAll] at h
      by_cases hf : fault = some (.statement i)
      · rw [if_pos hf] at h
        exact absurd h nofun
      · rw [if_neg hf, Option.map_eq_some_iff] at h
        obtain ⟨w, hw, heq⟩ := h
        rw [Prod.mk.injEq] at heq
        have hrest := ih (i + 1) _ (n := w.1) hw
        rw [← heq.2, hrest, execUpdate_apply]
        have hcons : lastRow (r :: rows) id =
            (lastRow rows id).or (if r.id = id then some r else none) := by
          have happ := lastRow_append [r] rows id
          rw [List.singleton_append] at happ
          rw [happ]
          congr 1
          unfold lastRow
          rw [List.reverse_singleton, List.find?_singleton]
          simp only [decide_eq_true_eq]
        rw [hcons]
        by_cases hid : id = r.id
        · rw [if_pos hid, if_pos hid.symm, Option.map_map]
          refine congrArg (fun f => Option.map f (db id)) (funext fun old => ?_)
          cases lastRow rows id with
          | none => rfl
          | some r' => rfl
        · rw [if_neg hid, if_neg fun hc => hid hc.symm, Option.or_none]

/-- A transaction that commits leaves the last row of every entity of its batch. -/
theorem flushBatch_written {db : StateTables}
    {fault : Option DbFault} {n : Nat} (h : (flushBatch db rows fault).1 = some n) (id : RowId) :
    (flushBatch db rows fault).2 id =
      (db id).map fun old => ((lastRow rows id).map WriteBehindRow.state).getD old := by
  unfold flushBatch at h ⊢
  by_cases hnil : rows = []
  · rw [if_pos hnil, hnil]
    exact Option.map_id'.symm
  · rw [if_neg hnil] at h ⊢
    by_cases hearly : fault = some .acquire ∨ fault = some .beginTransaction
    · rw [if_pos hearly] at h
      exact absurd h nofun
    · rw [if_neg hearly] at h ⊢
      cases hx : execAll fault 0 rows db with
      | none =>
          rw [hx] at h
          exact absurd h nofun
      | some w =>
          rw [hx] at h
          simp only [] at h ⊢
          by_cases hc : fault = some .commit
          · rw [if_pos hc] at h
            exact absurd h nofun
          · rw [if_neg hc]
            exact execAll_written fault 0 rows db hx id

/-- A transaction that fails leaves everything as it was. -/
theorem flushBatch_failed {db : StateTables}
    {fault : Option DbFault} (h : (flushBatch db rows fault).1 = none) :
    (flushBatch db rows fault).2 = db := by
  unfold flushBatch at h ⊢
  split
  · rfl
  · rename_i hnil
    rw [if_neg hnil] at h
    split
    · rfl
    · rename_i hearly
      rw [if_neg hearly] at h
      split
      · rfl
      · rename_i w hx
        rw [hx] at h
        simp only [] at h
        split
        · rfl
        · rename_i hc
          rw [if_neg hc] at h
          exact absurd h nofun

/-! ## The promise -/

namespace Watched

/-- The watermark: of every entity with a row in its table, the database has the
    last row that was handed out when the marked pass took its rows, or that was
    handed out when a later one did. -/
def Honest (s : Watched) : Prop :=
  ∀ id, s.thread.db id ≠ none → ∀ r, lastRow (s.watch.handed.take s.watch.mark) id = some r →
    ∃ n r', s.watch.mark ≤ n ∧ n ≤ s.watch.handed.length ∧
      lastRow (s.watch.handed.take n) id = some r' ∧ s.thread.db id = some r'.state

/-- Every entity of a failed batch was written again by the pass after. -/
def Retried (s : Watched) : Prop := s.watch.forgotten = []

/-- A pass that takes its rows finds a row of every entity of the batch that
    failed last, and its entities have keys of their own. -/
def Covered (s : Watched) : PersistEvent → Prop
  | .beginPass nowUnix => s.thread.due nowUnix = true →
      (∀ r ∈ s.watch.failed, names s.thread.wbQueue.buf r.id = true) ∧
        KeysApart s.thread.wbQueue.buf
  | _ => True

instance (s : Watched) (e : PersistEvent) : Decidable (Covered s e) :=
  match e with
  | .enqueueWriteBehind _ => isTrue trivial
  | .endPass _ _ => isTrue trivial
  | .beginPass nowUnix => inferInstanceAs (Decidable (s.thread.due nowUnix = true →
      (∀ r ∈ s.watch.failed, names s.thread.wbQueue.buf r.id = true) ∧
        KeysApart s.thread.wbQueue.buf))

/-- The rows that are neither in the queue nor known to be in the database. -/
def adrift (s : Watched) : List WriteBehindRow :=
  match s.thread.underway with
  | none => s.watch.failed
  | some p => p.2

/-- Of an entity with nothing adrift, the database has its last row. -/
def Current (s : Watched) : Prop :=
  ∀ id, s.thread.db id ≠ none → names s.adrift id = false → ∀ r,
    lastRow s.watch.handed id = some r → s.thread.db id = some r.state

structure Sound (s : Watched) : Prop where
  marked : s.watch.mark ≤ s.watch.handed.length
  honest : s.Honest
  retried : s.Retried
  current : s.Current
  taken : ∀ p, s.thread.underway = some p →
    KeysApart p.2 ∧ s.watch.failed = [] ∧ ∃ before, s.watch.handed = before ++ p.2

theorem sound_fresh (writeBehindRpoMs : Nat) (nowUnix : Int) (db : StateTables) :
    (fresh writeBehindRpoMs nowUnix db).Sound where
  marked := le_refl _
  honest := fun _ _ _ h => absurd h (by simp only [fresh, List.take_nil, lastRow,
    List.reverse_nil, List.find?_nil, reduceCtorEq, not_false_eq_true])
  retried := rfl
  current := fun _ _ _ _ h => absurd h (by simp only [fresh, lastRow, List.reverse_nil,
    List.find?_nil, reduceCtorEq, not_false_eq_true])
  taken := fun _ h => absurd h (by simp only [fresh, PersistenceThread.fresh, reduceCtorEq,
    not_false_eq_true])

/-! ### The steps -/

variable {s : Watched}

theorem sound_enqueue (hs : s.Sound) (row : WriteBehindRow) :
    Sound { s with thread := s.thread.enqueueWriteBehind row } :=
  ⟨hs.marked, hs.honest, hs.retried, hs.current, hs.taken⟩

variable {nowUnix : Int}

/-- A pass that is due leaves everything but the queue, the clock, the rows under
    way and the watermark. -/
theorem beginPass_due {s : PersistenceThread} (hdue : s.due nowUnix = true)
    (hidle : s.underway = none) :
    (s.beginPass nowUnix).db = s.db ∧
      (s.beginPass nowUnix).underway =
        if s.wbQueue.buf = [] then none else some (nowUnix, s.wbQueue.buf) := by
  unfold PersistenceThread.beginPass
  rw [if_pos hdue]
  have htaken : s.wbQueue.drainInto.1 = s.wbQueue.buf := rfl
  by_cases hnil : s.wbQueue.buf = []
  · rw [if_pos (htaken.trans hnil), if_pos hnil]
    exact ⟨rfl, hidle⟩
  · rw [if_neg (by rw [htaken]; exact hnil), if_neg hnil]
    exact ⟨rfl, rfl⟩

/-- Once a pass has taken the queue, what is adrift is what it took. -/
theorem adrift_beginPass (hdue : s.thread.due nowUnix = true)
    (hidle : s.thread.underway = none) :
    adrift { thread := s.thread.beginPass nowUnix
             watch := noteTaken s.watch s.thread.wbQueue.buf } = s.thread.wbQueue.buf := by
  unfold adrift
  simp only [(beginPass_due hdue hidle).2, noteTaken]
  by_cases hnil : s.thread.wbQueue.buf = []
  · rw [if_pos hnil, hnil]
  · rw [if_neg hnil]

theorem sound_beginPass (hs : s.Sound)
    (hdue : s.thread.due nowUnix = true) (hidle : s.thread.underway = none)
    (hfailed : ∀ r ∈ s.watch.failed, names s.thread.wbQueue.buf r.id = true)
    (hapart : KeysApart s.thread.wbQueue.buf) :
    Sound { thread := s.thread.beginPass nowUnix
            watch := noteTaken s.watch s.thread.wbQueue.buf } := by
  have hpass := beginPass_due hdue hidle
  have hadrift := adrift_beginPass hdue hidle
  have hwas : s.adrift = s.watch.failed := by
    unfold adrift
    rw [hidle]
  generalize htaken : s.thread.wbQueue.buf = taken at hpass hadrift hfailed hapart ⊢
  -- an entity that the pass did not take had nothing adrift before either
  have hcurrent : Current { thread := s.thread.beginPass nowUnix
                            watch := noteTaken s.watch taken } := by
    intro id hid hnames r hr
    rw [hadrift] at hnames
    simp only [hpass.1] at hid ⊢
    have hlast : lastRow (s.watch.handed ++ taken) id = some r := hr
    rw [lastRow_append, lastRow_eq_none.mpr hnames, Option.none_or] at hlast
    refine hs.current id hid ?_ r hlast
    rw [hwas, ← Bool.not_eq_true, names_iff]
    rintro ⟨r', hr', rfl⟩
    rw [hfailed r' hr'] at hnames
    exact absurd hnames nofun
  refine ⟨?_, ?_, ?_, hcurrent, ?_⟩
  · simp only [noteTaken]
    split
    · exact le_refl _
    · rw [List.length_append]
      exact le_trans hs.marked (Nat.le_add_right _ _)
  · intro id hid r hr
    by_cases hnil : taken = []
    · -- nothing to write: all is current
      refine ⟨(s.watch.handed ++ taken).length, r, ?_, le_refl _, ?_, ?_⟩
      · simp only [noteTaken, if_pos hnil]
        exact le_refl _
      · simpa only [noteTaken, if_pos hnil] using hr
      · refine hcurrent id hid ?_ r ?_
        · rw [hadrift, hnil]
          rfl
        · simpa only [noteTaken, if_pos hnil, List.take_length] using hr
    · simp only [noteTaken, if_neg hnil, hpass.1] at hid hr ⊢
      rw [List.take_append_of_le_length hs.marked] at hr
      obtain ⟨n, r', hn, hlen, hr', hdb⟩ := hs.honest id hid r hr
      refine ⟨n, r', hn, ?_, ?_, hdb⟩
      · rw [List.length_append]
        exact le_trans hlen (Nat.le_add_right _ _)
      · rw [List.take_append_of_le_length hlen]
        exact hr'
  · have hnone : (s.watch.failed.filter fun r => ¬ names taken r.id = true) = [] := by
      rw [List.filter_eq_nil_iff]
      intro r hr
      simp only [hfailed r hr, not_true_eq_false, decide_false, Bool.false_eq_true,
        not_false_eq_true]
    unfold Retried
    simp only [noteTaken, hnone, List.append_nil]
    exact hs.retried
  · intro p hp
    simp only [hpass.2] at hp
    by_cases hnil : taken = []
    · rw [if_pos hnil] at hp
      exact absurd hp nofun
    · rw [if_neg hnil, Option.some.injEq] at hp
      rw [← hp]
      exact ⟨hapart, rfl, s.watch.handed, rfl⟩

theorem sound_endPass (hs : s.Sound)
    {drained batch : List WriteBehindRow} (fault : Option DbFault)
    (hunder : s.thread.underway = some (nowUnix, drained))
    (hbatch : batch.Perm (PersistenceThread.latestRows drained)) :
    Sound { thread := s.thread.endPass nowUnix batch fault
            watch := noteWritten s.watch batch (flushBatch s.thread.db batch fault).1 } := by
  obtain ⟨hapart, hfailed, before, hhanded⟩ := hs.taken _ hunder
  simp only [] at hapart hhanded
  have hlast := lastRow_batch hapart hbatch
  have hwas : s.adrift = drained := by
    unfold adrift
    rw [hunder]
  have hdb : (s.thread.endPass nowUnix batch fault).db =
      (flushBatch s.thread.db batch fault).2 := rfl
  have hidle : (s.thread.endPass nowUnix batch fault).underway = none := rfl
  cases hw : (flushBatch s.thread.db batch fault).1 with
  | none =>
      -- the rows are adrift as before, now as a failed batch
      rw [flushBatch_failed hw] at hdb
      have hnames : ∀ id, names batch id = false → names drained id = false := by
        intro id h
        rw [← lastRow_eq_none] at h ⊢
        rw [← hlast]
        exact h
      refine ⟨hs.marked, ?_, hs.retried, ?_, ?_⟩
      · intro id hid r hr
        rw [hdb] at hid ⊢
        exact hs.honest id hid r hr
      · intro id hid hn r hr
        rw [hdb] at hid ⊢
        exact hs.current id hid (by rw [hwas]; exact hnames id hn) r hr
      · intro p hp
        exact absurd (hidle ▸ hp) nofun
  | some n =>
      -- the database has the last row of every entity handed out
      have hall : ∀ id, (s.thread.endPass nowUnix batch fault).db id ≠ none → ∀ r,
          lastRow s.watch.handed id = some r →
            (s.thread.endPass nowUnix batch fault).db id = some r.state := by
        intro id hid r hr
        rw [hdb, flushBatch_written hw, hlast] at hid ⊢
        have hrow : ∃ old, s.thread.db id = some old :=
          Option.ne_none_iff_exists'.mp fun hc => hid (by rw [hc]; rfl)
        obtain ⟨old, hold⟩ := hrow
        rw [hold, Option.map_some]
        cases hd : lastRow drained id with
        | some r' =>
            rw [hhanded, lastRow_append, hd, Option.some_or] at hr
            rw [Option.some.injEq] at hr
            rw [hr]
            rfl
        | none =>
            have hcur := hs.current id (by rw [hold]; exact Option.some_ne_none old)
              (by rw [hwas]; exact lastRow_eq_none.mp hd) r hr
            rw [hold] at hcur
            exact hcur
      refine ⟨le_refl _, ?_, hs.retried, ?_, ?_⟩
      · intro id hid r hr
        refine ⟨s.watch.handed.length, r, le_refl _, le_refl _, hr, ?_⟩
        simp only [noteWritten, List.take_length] at hr
        exact hall id hid r hr
      · exact fun id hid _ r hr => hall id hid r hr
      · intro p hp
        exact absurd (hidle ▸ hp) nofun

/-- Every covered step keeps the invariant. -/
theorem sound_step {s t : Watched} {e : PersistEvent} (hs : s.Sound) (hcovered : s.Covered e)
    (h : s.step e = some t) : t.Sound := by
  cases e with
  | enqueueWriteBehind row =>
      rw [step, Option.some.injEq] at h
      rw [← h]
      exact sound_enqueue hs row
  | beginPass nowUnix =>
      rw [step] at h
      by_cases hbusy : s.thread.underway.isSome = true
      · rw [if_pos hbusy] at h
        exact absurd h nofun
      · rw [if_neg hbusy] at h
        have hidle : s.thread.underway = none := by
          rwa [Bool.not_eq_true, Option.isSome_eq_false_iff, Option.isNone_iff_eq_none] at hbusy
        by_cases hdue : s.thread.due nowUnix = true
        · rw [if_pos hdue, Option.some.injEq] at h
          rw [← h]
          exact sound_beginPass hs hdue hidle (hcovered hdue).1 (hcovered hdue).2
        · rw [if_neg hdue, Option.some.injEq] at h
          have hsame : s.thread.beginPass nowUnix = s.thread := if_neg hdue
          rw [← h, hsame]
          exact hs
  | endPass batch fault =>
      rw [step] at h
      cases hunder : s.thread.underway with
      | none =>
          rw [hunder] at h
          exact absurd h nofun
      | some p =>
          rw [hunder] at h
          simp only [] at h
          by_cases hperm : batch.isPerm (PersistenceThread.latestRows p.2) = true
          · rw [if_pos hperm, Option.some.injEq] at h
            rw [← h]
            exact sound_endPass hs fault hunder (List.isPerm_iff.mp hperm)
          · rw [if_neg hperm] at h
            exact absurd h nofun

/-- In every run whose passes each find a row of every entity that the pass
    before failed to write, and no two entities under one key, the watermark is
    honest and no failed batch is forgotten. -/
theorem watermark_honest (writeBehindRpoMs : Nat) (startUnix : Int) (db : StateTables)
    {s : Watched}
    (h : Run.Reaches step Covered (fresh writeBehindRpoMs startUnix db) s) :
    s.Honest ∧ s.Retried := by
  have hs : s.Sound := h.invariant (fun _ _ _ hs hg hstep => sound_step hs hg hstep)
    (sound_fresh writeBehindRpoMs startUnix db)
  exact ⟨hs.honest, hs.retried⟩

/-! ### Two runs -/

/-- A row of the first base that puts it at a place. -/
def baseRow (x : Int64) : WriteBehindRow :=
  { id := ⟨.base, 1⟩, state := ⟨x, 0, 0, 100, 100, 100, 0⟩ }

/-- The first base at the origin and no other row. -/
def oneBase : StateTables := fun id =>
  if id = ⟨.base, 1⟩ then some ⟨0, 0, 0, 100, 100, 100, 0⟩ else none

/-- A batch fails, the base moves again, and the next pass writes it. -/
theorem watermark_honest_again :
    ∃ s, Run.Reaches step Covered (fresh 5000 0 oneBase) s ∧ (s.Honest ∧ s.Retried) ∧
      s.thread.counters.rpoWatermarkUnix = 10 := by
  obtain ⟨s, hs, hb⟩ := Run.exists_of_runGuarded (m := step) (G := Covered)
    (s := fresh 5000 0 oneBase) (b := fun s => s.thread.counters.rpoWatermarkUnix == 10)
    [.enqueueWriteBehind (baseRow 5), .beginPass 5, .endPass [baseRow 5] (some .commit),
      .enqueueWriteBehind (baseRow 7), .beginPass 10, .endPass [baseRow 7] none]
    (by decide +kernel)
  exact ⟨s, hs, watermark_honest 5000 0 oneBase hs, by simpa using hb⟩

/-- A batch fails and the next pass finds the queue empty: the watermark advances
    past a row that is nowhere. -/
theorem watermark_ahead :
    ∃ s, Run.Reaches step Run.free (fresh 5000 0 oneBase) s ∧
      s.thread.counters.rpoWatermarkUnix = 10 ∧ ¬ s.Honest ∧ ¬ s.Retried := by
  obtain ⟨s, hs, hb⟩ := Run.exists_of_runLabels (m := step) (s := fresh 5000 0 oneBase)
    (b := fun s => s.thread.counters.rpoWatermarkUnix == 10 && s.watch.handed == [baseRow 5] &&
      s.watch.mark == 1 && s.watch.forgotten == [baseRow 5] &&
      s.thread.db ⟨.base, 1⟩ == some ⟨0, 0, 0, 100, 100, 100, 0⟩)
    [.enqueueWriteBehind (baseRow 5), .beginPass 5, .endPass [baseRow 5] (some .commit),
      .beginPass 10]
    (by decide +kernel)
  simp only [Bool.and_eq_true, beq_iff_eq] at hb
  obtain ⟨⟨⟨⟨hwater, hhanded⟩, hmark⟩, hforgotten⟩, hdb⟩ := hb
  refine ⟨s, hs, hwater, fun hhonest => ?_, fun hretried => ?_⟩
  · obtain ⟨n, r', hn, hlen, hr', hstate⟩ := hhonest ⟨.base, 1⟩
      (by rw [hdb]; exact Option.some_ne_none _) (baseRow 5)
      (by rw [hhanded, hmark]; rfl)
    rw [hmark] at hn
    rw [hhanded] at hlen hr'
    have hone : n = 1 := le_antisymm hlen hn
    rw [hone] at hr'
    have hrow : baseRow 5 = r' := Option.some.inj hr'
    rw [hdb, ← hrow] at hstate
    exact absurd hstate (by decide)
  · unfold Retried at hretried
    rw [hforgotten] at hretried
    exact absurd hretried nofun

end Watched

end Persist

end EarthRise
