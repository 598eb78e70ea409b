import EarthRise.Core.EconomyOutbox
import Mathlib.Data.List.Basic
import Mathlib.Logic.Function.Iterate

/-!
# The Write-Through Economy Drain

The tables an economy mutation is committed to, the transaction that commits
it, and the queue between the simulation and the persistence thread.

The database is one in which every statement that violates no constraint
succeeds. `appendWriteThrough` is then the transaction statement by statement:
the outbox insert fails on a known key, the wallet update fails when it finds
no row or would leave a negative balance, the ledger insert fails on a known
reference, and any failure rolls the rows back. A number handed out for an
outbox row is not handed out again.

A pass of the drain takes the whole queue and commits it in order; what fails
goes to the back of the queue. The simulation may enqueue between any two
commits, so `step` takes a pass one mutation at a time.

## Main definitions

* `Database`: Outbox, wallets and ledger.
* `appendWriteThrough`: Committing one mutation.
* `drainBatch`, `drainEconomyOnce`: A pass over the queue.
* `Service`, `step`: The queue, the pass under way and the database.
-/

namespace EarthRise

namespace Persist

structure OutboxRow where
  outboxId : Nat
  eventType : String
  payload : String
  idempotencyKey : UInt64

structure LedgerRow where
  accountId : Nat
  deltaCredits : Int
  balanceAfter : Int
  reason : String
  refType : Option String
  refId : Option Int

/-- The economy tables. `wallets` has a row for every registered account. -/
structure Database where
  nextAccountId : Nat
  wallets : Nat → Option Int
  nextOutboxId : Nat
  outbox : List OutboxRow
  ledger : List LedgerRow

namespace Database

/-- No account, no event. Account numbers start at one. -/
def empty : Database :=
  { nextAccountId := 1, wallets := fun _ => none, nextOutboxId := 1, outbox := [], ledger := [] }

/-- The idempotency keys of the committed events. -/
def keys (db : Database) : List UInt64 := db.outbox.map OutboxRow.idempotencyKey

/-- A new account and its wallet. -/
def register (db : Database) : Database :=
  { db with
    nextAccountId := db.nextAccountId + 1
    wallets := fun a => if a = db.nextAccountId then some 0 else db.wallets a }

end Database

def eventTypeName : EconomyEventKind → String
  | .walletDelta => "wallet_delta"
  | .buildComplete => "build_complete"
  | .inventoryDelta => "inventory_delta"
  | .lootClaim => "loot_claimed"
  | .killmail => "killmail"
  | .cargoLost => "cargo_lost"
  | .lootDrop => "loot_drop"

def escapeJson (s : String) : String :=
  s.foldl (fun out c =>
    if c = '"' then out ++ "\\\""
    else if c = '\\' then out ++ "\\\\"
    else if c = '\n' then out ++ "\\n"
    else if c = '\r' then out ++ "\\r"
    else if c = '\t' then out ++ "\\t"
    else if c.toNat < 0x20 then out.push ' '
    else out.push c) ""

def makePayload (m : EconomyMutation) : String :=
  "\x7b\"accountId\":" ++ toString m.accountId ++ ",\"amount\":" ++ toString m.amount ++
    ",\"reason\":\"" ++ escapeJson m.reason ++ "\"" ++
    (if m.refType.isEmpty then ""
     else ",\"refType\":\"" ++ escapeJson m.refType ++ "\",\"refId\":" ++ toString m.refId) ++
    "\x7d"

/-- The reference as the ledger stores it; an empty type is stored as null. -/
def EconomyMutation.ledgerRef (m : EconomyMutation) : Option String × Option Int :=
  if m.refType.isEmpty then (none, none) else (some m.refType, some m.refId)

/-- The unique index over references; rows without a reference are not in it. -/
def Database.refTaken (db : Database) (ref : Option String × Option Int) : Bool :=
  ref.1.isSome && ref.2.isSome && db.ledger.any fun r => r.refType = ref.1 && r.refId = ref.2

/-- The rows a committed mutation leaves behind. -/
def Database.commit (db : Database) (outboxId : Nat) (balance : Int) (m : EconomyMutation) :
    Database :=
  { db with
    wallets := fun a => if a = m.accountId then some balance else db.wallets a
    outbox := db.outbox ++ [⟨outboxId, eventTypeName m.kind, makePayload m, m.idemKey⟩]
    ledger := db.ledger ++
      [⟨m.accountId, m.amount, balance, if m.reason.isEmpty then "economy" else m.reason,
        m.ledgerRef.1, m.ledgerRef.2⟩] }

/-- Commit one mutation: outbox row, wallet and ledger row, or nothing. A known
    key counts as committed and returns the row it was committed under. -/
def appendWriteThrough (db : Database) (m : EconomyMutation) : Option Nat × Database :=
  let outboxId := db.nextOutboxId
  let db := { db with nextOutboxId := outboxId + 1 }
  match db.outbox.find? fun r => r.idempotencyKey = m.idemKey with
  | some r => (some r.outboxId, db)
  | none =>
      match db.wallets m.accountId with
      | none => (none, db)
      | some balance =>
          if balance + m.amount < 0 then (none, db)
          else if db.refTaken m.ledgerRef then (none, db)
          else (some outboxId, db.commit outboxId (balance + m.amount) m)

/-- The persistence thread: the queue the simulation pushes to, what the pass
    under way still has to commit, and the database. -/
structure Service where
  db : Database
  queue : List SimEvent
  batch : List SimEvent

namespace Service

/-- Before the first event. -/
def fresh : Service := { db := Database.empty, queue := [], batch := [] }

/-- What is not known to be committed. -/
def pending (s : Service) : List SimEvent := s.batch ++ s.queue

end Service

/-- Commit a batch in order, pushing back what fails. -/
def drainBatch : List SimEvent → Database → List SimEvent → Database × List SimEvent
  | [], db, queue => (db, queue)
  | e :: batch, db, queue =>
      match appendWriteThrough db e.mutation with
      | (some _, db) => drainBatch batch db queue
      | (none, db) => drainBatch batch db (queue ++ [e])

/-- Finish the pass under way. -/
def finishPass (s : Service) : Service :=
  let r := drainBatch s.batch s.db s.queue
  { db := r.1, queue := r.2, batch := [] }

/-- One whole pass: take the queue and commit it. -/
def drainEconomyOnce (s : Service) : Service :=
  finishPass { db := s.db, queue := [], batch := s.queue }

inductive Action
  | register
  | enqueue (e : SimEvent)
  | takeQueue
  | commitNext
  | restart

/-- One action. A pass is taken up when none is under way; a first login is one
    of a registered account; a restart loses what was not committed. -/
def Service.step (s : Service) : Action → Option Service
  | .register => some { s with db := s.db.register }
  | .enqueue e =>
      match e with
      | .firstLogin a =>
          if (s.db.wallets a).isSome then some { s with queue := s.queue ++ [e] } else none
      | _ => some { s with queue := s.queue ++ [e] }
  | .takeQueue =>
      if s.batch = [] then some { s with batch := s.queue, queue := [] } else none
  | .commitNext =>
      match s.batch with
      | [] => none
      | e :: batch =>
          match appendWriteThrough s.db e.mutation with
          | (some _, db) => some { s with db := db, batch := batch }
          | (none, db) => some { db := db, batch := batch, queue := s.queue ++ [e] }
  | .restart => some { s with queue := [], batch := [] }

end Persist

end EarthRise
