import EarthRise.Lib.Run
import Mathlib.Data.Finset.Insert

/-!
# The Economy Outbox

The write-through economy model: a durable, append-only outbox and the economy
state it drains into.

`EconomyState.apply` is the transaction. It refuses an event at or below the
highest sequence number applied so far, refuses an event whose idempotency key
is already in the ledger, and otherwise moves the wallet, the ledger, the key
set and the watermark together. An injected failure rolls the whole of it back.
Amounts and balances are 64-bit, and the addition is unchecked: it wraps.

`Outbox.drain` and `Outbox.replayAll` walk the log in sequence order and apply
each event; they differ only in whether events below the drain watermark are
skipped, so both are `applyEach` at their own test. The source never injects a
failure from inside a walk; the walks take the failing events as a parameter so
that a walk during which some transactions roll back is a walk of the same
function. A single event of the log can also be tried on its own.

`step` lets the calls happen in any order. A watermark may be confirmed only
for events that were appended and whose keys are in the ledger.

## Main definitions

* `EconomyState.apply`: One transactional, idempotent apply.
* `Outbox.append`: Staging an event under the next sequence number.
* `Outbox.drain`, `Outbox.replayAll`: The two walks of the log.
* `Outbox.confirmDrained`: Advancing the drain watermark.
* `Call`, `step`: The calls and the machine that makes them.
-/

namespace EarthRise

namespace Persist

inductive EconomyEventType
  | walletDelta
  | buildComplete
  | inventoryDelta
  | lootClaim
  deriving DecidableEq, Repr

structure EconomyEvent where
  seq : Nat
  idemKey : Nat
  accountId : Nat
  amount : Int64
  type : EconomyEventType
  deriving DecidableEq, Repr

structure LedgerEntry where
  seq : Nat
  idemKey : Nat
  accountId : Nat
  delta : Int64
  balanceAfter : Int64
  deriving DecidableEq, Repr

/-- The state an outbox drains into. A wallet that was never written reads as
    zero, and `appliedKeys` is the ledger's unique index. -/
structure EconomyState where
  wallet : Nat → Int64
  ledger : List LedgerEntry
  appliedKeys : Finset Nat
  lastAppliedSeq : Nat

namespace EconomyState

def fresh : EconomyState :=
  { wallet := fun _ => 0, ledger := [], appliedKeys := ∅, lastAppliedSeq := 0 }

def balance (st : EconomyState) (accountId : Nat) : Int64 := st.wallet accountId

/-- What a committed apply leaves behind. -/
def post (st : EconomyState) (e : EconomyEvent) : EconomyState :=
  let bal := st.wallet e.accountId + e.amount
  { wallet := fun a => if a = e.accountId then bal else st.wallet a
    ledger := st.ledger ++ [⟨e.seq, e.idemKey, e.accountId, e.amount, bal⟩]
    appliedKeys := insert e.idemKey st.appliedKeys
    lastAppliedSeq := if st.lastAppliedSeq < e.seq then e.seq else st.lastAppliedSeq }

/-- Apply one event; the flag says whether it was newly applied. -/
def apply (st : EconomyState) (e : EconomyEvent) (injectFailure : Bool) :
    EconomyState × Bool :=
  if e.seq ≤ st.lastAppliedSeq then (st, false)
  else if e.idemKey ∈ st.appliedKeys then (st, false)
  else if injectFailure then (st, false)
  else (st.post e, true)

/-- A crash that loses the watermark but none of the committed rows. -/
def dropWatermarkOnly (st : EconomyState) : EconomyState := { st with lastAppliedSeq := 0 }

end EconomyState

/-- Which events of a walk roll back. -/
abbrev Failures := EconomyEvent → Bool

/-- No transaction rolls back. -/
def noFailures : Failures := fun _ => false

/-- Walk a log, applying the events that pass the test and counting those that
    were newly applied. -/
def applyEach (wanted : EconomyEvent → Bool) (inject : Failures) :
    List EconomyEvent → EconomyState → Nat → EconomyState × Nat
  | [], st, applied => (st, applied)
  | e :: es, st, applied =>
      if wanted e then
        let r := st.apply e (inject e)
        applyEach wanted inject es r.1 (if r.2 then applied + 1 else applied)
      else applyEach wanted inject es st applied

structure Outbox where
  log : List EconomyEvent
  nextSeq : Nat
  drainWatermark : Nat

namespace Outbox

def empty : Outbox := { log := [], nextSeq := 0, drainWatermark := 0 }

def append (ob : Outbox) (idemKey accountId : Nat) (amount : Int64) (type : EconomyEventType) :
    Outbox :=
  let seq := ob.nextSeq + 1
  { ob with log := ob.log ++ [⟨seq, idemKey, accountId, amount, type⟩], nextSeq := seq }

def maxSeq (ob : Outbox) : Nat := ob.nextSeq

/-- Apply the events past the drain watermark, without advancing it. -/
def drain (ob : Outbox) (inject : Failures) (st : EconomyState) : EconomyState × Nat :=
  applyEach (fun e => ob.drainWatermark < e.seq) inject ob.log st 0

/-- Apply the whole log from its start. -/
def replayAll (ob : Outbox) (inject : Failures) (st : EconomyState) : EconomyState × Nat :=
  applyEach (fun _ => true) inject ob.log st 0

def confirmDrained (ob : Outbox) (uptoSeq : Nat) : Outbox :=
  if ob.drainWatermark < uptoSeq then { ob with drainWatermark := uptoSeq } else ob

end Outbox

/-- An outbox together with the state it drains into. -/
structure Store where
  outbox : Outbox
  state : EconomyState

def Store.fresh : Store := { outbox := Outbox.empty, state := EconomyState.fresh }

/-- The calls a caller makes; a walk carries the events that roll back. -/
inductive Call
  | append (idemKey accountId : Nat) (amount : Int64) (type : EconomyEventType)
  | drain (inject : Failures)
  | replayAll (inject : Failures)
  | confirmDrained (uptoSeq : Nat)
  | dropWatermarkOnly
  | apply (e : EconomyEvent) (injectFailure : Bool)

/-- Everything up to `uptoSeq` was appended and its key is in the ledger. -/
def AppliedUpto (s : Store) (uptoSeq : Nat) : Prop :=
  uptoSeq ≤ s.outbox.maxSeq ∧
    ∀ e ∈ s.outbox.log, e.seq ≤ uptoSeq → e.idemKey ∈ s.state.appliedKeys

instance (s : Store) (uptoSeq : Nat) : Decidable (AppliedUpto s uptoSeq) :=
  inferInstanceAs (Decidable (_ ∧ _))

/-- One call. A watermark that is ahead of what was applied is not confirmed, and
    only events of the log are applied. -/
def step (s : Store) : Call → Option Store
  | .append k a amt ty => some { s with outbox := s.outbox.append k a amt ty }
  | .drain inject => some { s with state := (s.outbox.drain inject s.state).1 }
  | .replayAll inject => some { s with state := (s.outbox.replayAll inject s.state).1 }
  | .confirmDrained n =>
      if AppliedUpto s n then some { s with outbox := s.outbox.confirmDrained n } else none
  | .dropWatermarkOnly => some { s with state := s.state.dropWatermarkOnly }
  | .apply e inject =>
      if e ∈ s.outbox.log then some { s with state := (s.state.apply e inject).1 } else none

/-- Events are applied by walks only, and no walk has a transaction roll back. -/
def NoneFail (_ : Store) : Call → Prop
  | .drain inject => ∀ e, inject e = false
  | .replayAll inject => ∀ e, inject e = false
  | .apply _ _ => False
  | _ => True

end Persist

end EarthRise
