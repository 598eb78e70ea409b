import Mathlib.Data.UInt

/-!
# From Simulation Events to Economy Mutations

The mapping from what the simulation produces to the records that are persisted
write-through: build completions, combat events, and the credit of a first
login.

`outboxIdemKey` is the key hash over the event family, the entity and the tick;
`mapEconEvent` picks the family's key, amount and reference; `SimEvent.mutation`
is what the server loop and the login path enqueue. The loop leaves the account
of build and combat mutations at zero.

## Main definitions

* `outboxIdemKey`: The idempotency key of a combat event.
* `mapEconEvent`: A combat event as an outbox record.
* `SimEvent.mutation`: The mutation that is enqueued for an event.
-/

namespace EarthRise

namespace Persist

inductive EconomyEventKind
  | walletDelta
  | buildComplete
  | inventoryDelta
  | lootClaim
  | killmail
  | cargoLost
  | lootDrop
  deriving DecidableEq, Repr

/-- One mutation to commit. An empty `refType` stands for no reference. -/
structure EconomyMutation where
  idemKey : UInt64
  accountId : Nat
  amount : Int
  kind : EconomyEventKind
  reason : String
  refType : String
  refId : Int
  deriving DecidableEq, Repr

inductive EconEventType
  | lootDrop
  | lootClaim
  | killmail
  | cargoLost
  deriving DecidableEq, Repr

structure EconEvent where
  type : EconEventType
  aNetId : UInt32
  bNetId : UInt32
  value : Int
  tick : UInt32
  deriving DecidableEq, Repr

/-- The 64-bit key of an event family, an entity and a tick. -/
def outboxIdemKey (domain : UInt64) (netId tick : UInt32) : UInt64 :=
  let z : UInt64 := (domain * (0x9E3779B97F4A7C15 : UInt64)) ^^^ (netId.toUInt64 <<< 21) ^^^ tick.toUInt64
  let z : UInt64 := (z ^^^ (z >>> 30)) * (0xBF58476D1CE4E5B9 : UInt64)
  let z : UInt64 := (z ^^^ (z >>> 27)) * (0x94D049BB133111EB : UInt64)
  z ^^^ (z >>> 31)

/-- The outbox record of a combat event: key, kind, amount and ledger reference. -/
structure OutboxRecord where
  idemKey : UInt64
  kind : EconomyEventKind
  amount : Int
  refId : Int
  reason : String
  refType : String

def mapEconEvent (e : EconEvent) : OutboxRecord :=
  let refId : Int := e.aNetId.toNat
  match e.type with
  | .lootDrop =>
      -- A drop is an inventory event; the claim is what credits.
      { kind := .lootDrop, reason := "loot_drop", refType := "Loot", refId := refId, amount := 0
        idemKey := outboxIdemKey 1 e.aNetId e.tick }
  | .lootClaim =>
      { kind := .lootClaim, reason := "loot_claimed", refType := "Loot", refId := refId
        amount := e.value, idemKey := outboxIdemKey 2 e.aNetId e.tick }
  | .killmail =>
      { kind := .killmail, reason := "bounty", refType := "Kill", refId := refId
        amount := e.value, idemKey := outboxIdemKey 3 e.aNetId e.tick }
  | .cargoLost =>
      { kind := .cargoLost, reason := "cargo_lost", refType := "Cargo", refId := refId
        amount := -e.value, idemKey := outboxIdemKey 4 e.aNetId e.tick }

def startingCredits : Int := 1000

/-- What leads to a mutation being enqueued. -/
inductive SimEvent
  | buildCompleted (shipNetId : UInt32)
  | econ (e : EconEvent)
  | firstLogin (accountId : Nat)
  deriving DecidableEq, Repr

def SimEvent.mutation : SimEvent → EconomyMutation
  | .buildCompleted shipNetId =>
      { idemKey := 0xB011D000 ^^^ shipNetId.toUInt64, accountId := 0, amount := 0
        kind := .buildComplete, reason := "build_complete", refType := "Build"
        refId := shipNetId.toNat }
  | .econ e =>
      let rec' := mapEconEvent e
      { idemKey := rec'.idemKey, accountId := 0, amount := rec'.amount, kind := rec'.kind
        reason := rec'.reason, refType := rec'.refType, refId := rec'.refId }
  | .firstLogin accountId =>
      { idemKey := 0x5EED0000 ^^^ UInt64.ofNat accountId, accountId := accountId
        amount := startingCredits, kind := .walletDelta, reason := "starting_credits"
        refType := "Account", refId := accountId }

end Persist

end EarthRise
