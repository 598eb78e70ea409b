import EarthRise.Core.ServerUniverse
import EarthRise.Lib.Pool

/-!
# The Snapshot Job Pool

The encoding of many clients' snapshots over the tables that the universe keeps for
all of them, in one row and dealt out to workers.

Building a client's snapshot is not a pure read: looking a client up in a table
makes an entry for it, and the tombstones and the delta bases of the client change
on the way. The workers run one after another here, as the code's executor does.

## Main definitions

* `SharedUniverse`: The universe with the tables of its clients.
* `encodeClientsSerial`: Client after client.
* `partitionClients`, `encodeClientsPooled`: Dealt to workers and gathered.
* `encodeClientsPooledCounting`: The same with the count of capped entities.
-/

namespace EarthRise

namespace Sim

/-- The post-tick state with every client's tables; a client without an entry has
    none yet. -/
structure SharedUniverse where
  sim : ServerUniverse
  weights : RelevanceWeights
  visibleCap : Nat
  baselines : OrdMap NetId ClientBaseline
  known : OrdMap NetId ClientKnownState
  lastSent : OrdMap NetId (OrdMap NetId Nat)

namespace SharedUniverse

/-- What the tables hold for a client, new entries being empty. -/
def tables (s : SharedUniverse) (clientId : NetId) : ClientTables :=
  { baseline := (s.baselines.find? clientId).getD ClientBaseline.fresh
    known := (s.known.find? clientId).getD ClientKnownState.fresh
    lastSent := (s.lastSent.find? clientId).getD OrdMap.empty }

def putTables (s : SharedUniverse) (clientId : NetId) (t : ClientTables) : SharedUniverse :=
  { s with
    baselines := s.baselines.insert clientId t.baseline
    known := s.known.insert clientId t.known
    lastSent := s.lastSent.insert clientId t.lastSent }

/-- Build one client's snapshot. Each of its tables has an entry for it afterwards. -/
def buildClientSnapshot (sqrt : ℚ → ℚ) (s : SharedUniverse) (clientId : NetId)
    (byteBudget : Nat) : ServerUniverse.BuildResult × SharedUniverse :=
  let r := s.sim.buildClientSnapshot sqrt clientId s.weights s.visibleCap byteBudget
    (s.tables clientId)
  (r.1, s.putTables clientId r.2)

end SharedUniverse

structure EncodeResult where
  clientId : NetId
  snap : DeltaSnapshot
  deriving DecidableEq

/-- Every client's snapshot in their order, the capped entities summed up. -/
def encodeClientsSerial (sqrt : ℚ → ℚ) (s : SharedUniverse) (clients : List NetId)
    (byteBudget : Nat) : (List EncodeResult × Nat) × SharedUniverse :=
  clients.foldl
    (fun acc c =>
      let r := SharedUniverse.buildClientSnapshot sqrt acc.2 c byteBudget
      ((acc.1.1 ++ [⟨c, r.1.snap⟩], acc.1.2 + r.1.capped), r.2))
    (([], 0), s)

/-- Deal the clients to the workers in turn; no worker stands for one. -/
def partitionClients (clients : List NetId) (workerCount : Nat) : List (List NetId) :=
  Pool.deal (if workerCount = 0 then 1 else workerCount) clients

/-- Each worker's part after the others. -/
def encodeParts (sqrt : ℚ → ℚ) (byteBudget : Nat) (parts : List (List NetId))
    (s : SharedUniverse) : List (List EncodeResult × Nat) × SharedUniverse :=
  parts.foldl
    (fun acc part =>
      let r := encodeClientsSerial sqrt acc.2 part byteBudget
      (acc.1 ++ [r.1], r.2))
    ([], s)

/-- The workers' results gathered back in the clients' order. -/
def encodeClientsPooled (sqrt : ℚ → ℚ) (s : SharedUniverse) (clients : List NetId)
    (byteBudget workerCount : Nat) : Option (List EncodeResult) × SharedUniverse :=
  let r := encodeParts sqrt byteBudget (partitionClients clients workerCount) s
  (Pool.gather clients.length (r.1.map Prod.fst), r.2)

/-- The same, with what the cap dropped summed up over the workers. -/
def encodeClientsPooledCounting (sqrt : ℚ → ℚ) (s : SharedUniverse) (clients : List NetId)
    (byteBudget workerCount : Nat) : (Option (List EncodeResult) × Nat) × SharedUniverse :=
  let r := encodeParts sqrt byteBudget (partitionClients clients workerCount) s
  ((Pool.gather clients.length (r.1.map Prod.fst), (r.1.map Prod.snd).sum), r.2)

end Sim

end EarthRise
