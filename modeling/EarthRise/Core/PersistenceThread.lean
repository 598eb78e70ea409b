import EarthRise.Lib.OrdMap
import Mathlib.Algebra.Group.Int.Defs
import Mathlib.Data.List.Basic
import Mathlib.Order.Nat

/-!
# The Write-Behind Half of the Persistence Thread

The positions and hit points that the simulation hands to the persistence
thread, and how the thread brings them into the database.

The simulation pushes rows into a bounded queue that drops its oldest row when
it is full. When the cadence is due the thread takes the whole queue, keeps the
last row of each entity, and writes these in one transaction. The RPO watermark
is the time of the last pass whose rows are in the database, or that had none.

A push may fall between the two halves of a pass, so the machine takes a pass as
two steps: taking the queue, and the transaction. A fault of the database is part
of the second step, and so is the order in which a hash table yields the rows.

Beside the thread, a `Watch` notes what was handed out and what failed.

## Main definitions

* `MpscBoundedQueue`: The queue between the simulation and the thread.
* `flushBatch`: The transaction.
* `PersistenceThread.beginPass`, `endPass`: The two halves of a pass.
* `Watch`, `Watched`, `Watched.step`: The thread with what it has done.
-/

namespace EarthRise

namespace Persist

/-! ## The queue -/

/-- A queue that drops its oldest item when it is full. -/
structure MpscBoundedQueue (α : Type) where
  buf : List α
  capacity : Nat
  dropped : Nat

namespace MpscBoundedQueue

variable {α : Type}

def fresh (capacity : Nat) : MpscBoundedQueue α :=
  { buf := [], capacity := if capacity = 0 then 1 else capacity, dropped := 0 }

/-- Push an item, and whether nothing had to be dropped for it. -/
def push (q : MpscBoundedQueue α) (item : α) : Bool × MpscBoundedQueue α :=
  if q.capacity ≤ q.buf.length then
    (false, { q with buf := q.buf.tail ++ [item], dropped := q.dropped + 1 })
  else (true, { q with buf := q.buf ++ [item] })

/-- Take everything. -/
def drainInto (q : MpscBoundedQueue α) : List α × MpscBoundedQueue α :=
  (q.buf, { q with buf := [] })

end MpscBoundedQueue

/-! ## Rows and the transaction -/

inductive WriteBehindEntity where
  | base
  | ship
  deriving DecidableEq, Repr

namespace WriteBehindEntity

def toUInt64 : WriteBehindEntity → UInt64
  | .base => 0
  | .ship => 1

end WriteBehindEntity

/-- What of an entity is written behind the simulation. -/
structure EntityState where
  x : Int64
  y : Int64
  z : Int64
  shieldHp : Int32
  armorHp : Int32
  hullHp : Int32
  stateByte : UInt8
  deriving DecidableEq

/-- A table and a primary key in it. -/
structure RowId where
  entity : WriteBehindEntity
  dbId : Int64
  deriving DecidableEq

structure WriteBehindRow where
  id : RowId
  state : EntityState
  deriving DecidableEq

/-- The tables of bases and ships. -/
abbrev StateTables := RowId → Option EntityState

/-- Where a transaction fails: for want of a connection, at its start, at one of
    its statements, or at its commit. -/
inductive DbFault where
  | acquire
  | beginTransaction
  | statement (i : Nat)
  | commit
  deriving DecidableEq

/-- One update, and how many rows it touched. A row that is not in its table is
    not inserted. -/
def execUpdate (db : StateTables) (r : WriteBehindRow) : Nat × StateTables :=
  match db r.id with
  | none => (0, db)
  | some _ => (1, fun e => if e = r.id then some r.state else db e)

/-- The updates of a batch in order, unless one of them fails. -/
def execAll (fault : Option DbFault) :
    Nat → List WriteBehindRow → StateTables → Option (Nat × StateTables)
  | _, [], db => some (0, db)
  | i, r :: rows, db =>
      if fault = some (.statement i) then none
      else
        let n := execUpdate db r
        (execAll fault (i + 1) rows n.2).map fun w => (n.1 + w.1, w.2)

/-- Write a batch in one transaction, and how many rows it touched; a failure
    leaves the database as it was. -/
def flushBatch (db : StateTables) (rows : List WriteBehindRow) (fault : Option DbFault) :
    Option Nat × StateTables :=
  if rows = [] then (some 0, db)
  else if fault = some .acquire ∨ fault = some .beginTransaction then (none, db)
  else
    match execAll fault 0 rows db with
    | none => (none, db)
    | some w => if fault = some .commit then (none, db) else (some w.1, w.2)

/-! ## The thread -/

structure PersistCounters where
  writeBehindRows : Nat := 0
  writeBehindBatches : Nat := 0
  writeBehindDropped : Nat := 0
  rpoWatermarkUnix : Int := 0
  deriving DecidableEq

/-- The thread, as far as it writes behind. `underway` is a pass that has taken
    its rows and not yet written them: its time and the rows. -/
structure PersistenceThread where
  writeBehindRpoMs : Nat
  wbQueue : MpscBoundedQueue WriteBehindRow
  lastWriteBehindFlushUnix : Int
  underway : Option (Int × List WriteBehindRow)
  counters : PersistCounters
  db : StateTables

namespace PersistenceThread

/-- The thread as `Start` leaves it. -/
def fresh (writeBehindRpoMs : Nat) (nowUnix : Int) (db : StateTables) : PersistenceThread :=
  { writeBehindRpoMs := writeBehindRpoMs
    wbQueue := MpscBoundedQueue.fresh 4096
    lastWriteBehindFlushUnix := nowUnix
    underway := none
    counters := {}
    db := db }

def enqueueWriteBehind (s : PersistenceThread) (row : WriteBehindRow) : PersistenceThread :=
  let q := s.wbQueue.push row
  { s with
    wbQueue := q.2
    counters :=
      if q.1 then s.counters else { s.counters with writeBehindDropped := q.2.dropped } }

/-- Whether the cadence has elapsed. A clock that went back wraps to a long time. -/
def due (s : PersistenceThread) (nowUnix : Int) : Bool :=
  let elapsedMs := (nowUnix - s.lastWriteBehindFlushUnix) * 1000 % 2 ^ 64
  s.writeBehindRpoMs ≤ elapsedMs.toNat

/-- The key under which a pass keeps the last row of an entity. -/
def coalesceKey (id : RowId) : UInt64 := (id.entity.toUInt64 <<< 62) ^^^ id.dbId.toUInt64

/-- The last row under each key. -/
def latestRows (drained : List WriteBehindRow) : List WriteBehindRow :=
  ((OrdMap.empty.insertAll (drained.map fun r => ((coalesceKey r.id).toNat, r))).entries).map
    Prod.snd

/-- The first half of a pass: nothing unless it is due; else take the queue, and
    if there is nothing to write note that all is written. -/
def beginPass (s : PersistenceThread) (nowUnix : Int) : PersistenceThread :=
  if s.due nowUnix then
    let q := s.wbQueue.drainInto
    let s := { s with wbQueue := q.2, lastWriteBehindFlushUnix := nowUnix }
    if q.1 = [] then { s with counters := { s.counters with rpoWatermarkUnix := nowUnix } }
    else { s with underway := some (nowUnix, q.1) }
  else s

/-- The second half: write the batch and count it. -/
def endPass (s : PersistenceThread) (nowUnix : Int) (batch : List WriteBehindRow)
    (fault : Option DbFault) : PersistenceThread :=
  let w := flushBatch s.db batch fault
  let c := { s.counters with writeBehindBatches := s.counters.writeBehindBatches + 1 }
  let c := match w.1 with
    | none => c
    | some written =>
        { c with writeBehindRows := c.writeBehindRows + written, rpoWatermarkUnix := nowUnix }
  { s with
    underway := none
    db := w.2
    counters := { c with writeBehindDropped := s.wbQueue.dropped } }

end PersistenceThread

/-! ## What a bystander notes -/

/-- What happened at the two ends of the thread. -/
structure Watch where
  /-- The rows the queue handed out, oldest first: all that were pushed and not dropped. -/
  handed : List WriteBehindRow
  /-- How many had been handed out when the pass of the watermark took its rows. -/
  mark : Nat
  /-- The batch of the last pass, if its transaction failed. -/
  failed : List WriteBehindRow
  /-- The rows of failed batches whose entity the pass after did not write again. -/
  forgotten : List WriteBehindRow

structure Watched where
  thread : PersistenceThread
  watch : Watch

/-- What can happen: a push, the first half of a pass, the second half. -/
inductive PersistEvent where
  | enqueueWriteBehind (row : WriteBehindRow)
  | beginPass (nowUnix : Int)
  | endPass (batch : List WriteBehindRow) (fault : Option DbFault)

namespace Watched

def fresh (writeBehindRpoMs : Nat) (nowUnix : Int) (db : StateTables) : Watched :=
  { thread := PersistenceThread.fresh writeBehindRpoMs nowUnix db
    watch := { handed := [], mark := 0, failed := [], forgotten := [] } }

/-- Whether a list of rows has one of an entity. -/
def names (rows : List WriteBehindRow) (id : RowId) : Bool := rows.any fun r => r.id = id

/-- What is noted when a pass that is due takes its rows. -/
def noteTaken (w : Watch) (taken : List WriteBehindRow) : Watch :=
  { handed := w.handed ++ taken
    mark := if taken = [] then (w.handed ++ taken).length else w.mark
    failed := []
    forgotten := w.forgotten ++ w.failed.filter fun r => ¬ names taken r.id }

/-- What is noted of a transaction. -/
def noteWritten (w : Watch) (batch : List WriteBehindRow) (written : Option Nat) : Watch :=
  match written with
  | none => { w with failed := batch }
  | some _ => { w with mark := w.handed.length }

/-- A pass ends with any order of the rows it coalesced. -/
def step (s : Watched) : PersistEvent → Option Watched
  | .enqueueWriteBehind row => some { s with thread := s.thread.enqueueWriteBehind row }
  | .beginPass nowUnix =>
      if s.thread.underway.isSome then none
      else if s.thread.due nowUnix then
        some
          { thread := s.thread.beginPass nowUnix
            watch := noteTaken s.watch s.thread.wbQueue.buf }
      else some { s with thread := s.thread.beginPass nowUnix }
  | .endPass batch fault =>
      match s.thread.underway with
      | none => none
      | some (nowUnix, drained) =>
          if batch.isPerm (PersistenceThread.latestRows drained) then
            some
              { thread := s.thread.endPass nowUnix batch fault
                watch := noteWritten s.watch batch (flushBatch s.thread.db batch fault).1 }
          else none

end Watched

end Persist

end EarthRise
