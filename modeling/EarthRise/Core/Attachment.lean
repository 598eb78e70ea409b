import EarthRise.Core.Shard
import EarthRise.Core.ServerHost

/-!
# Accounts and Their Entities

The universe of a shard as the host of the clients sees it, and what a login does to it: an
account is attached to the entity of the id that the table of bases has for it, or a world is
spawned for it.

The table is no part of the shard. A row of it is the net id that some login of the account
was given; when it is written, if ever, is up to others. `Realm` is a shard with the table and
a record of its logins.

## Main definitions

* `spawnPlayerWorld`, `bindAccountBase`: A login in the universe.
* `game`: The universe as a host sees it.
* `Attached`, `Realm`, `RealmEvent`, `rule`: A shard with its logins.
-/

namespace EarthRise

namespace Shard

open Universe (Vec3 UniversePos)

section

variable {F D : Type} [Floating F] [Floating D] [Widens F D]

namespace ServerUniverse

/-- The ore that a base is spawned with for a player. -/
def setOre (u : ServerUniverse F D) (netId : UInt32) : ServerUniverse F D :=
  u.modify netId fun c => { c with
    storage := c.storage.map fun st => { st with amount := st.amount.set .ore 600.0 } }

/-- A base, a harvester and some ore. -/
def spawnPlayerWorld (u : ServerUniverse F D) (slot : Nat) : UInt32 × ServerUniverse F D :=
  let startX : Int := Universe.sectorSize - 200
  let startY : Int := slot * 2000
  let based := u.spawnBase ⟨startX, startY, 0⟩ ⟨0, 0, 0⟩
  let shipped :=
    (based.spawnFleetShipFit u.nextId shipShapeId ⟨startX + 220, startY, 0⟩ defaultShipFit).2
  (u.nextId, shipped.setOre u.nextId)

/-- Attach an account to the entity of the id that the table has for it, or spawn a world
    for it. -/
def bindAccountBase (u : ServerUniverse F D) (slot : Nat) (baseId : Int) :
    UInt32 × ServerUniverse F D :=
  let persisted := UInt32.ofInt baseId
  if baseId ≠ 0 ∧ (u.ents.find persisted).isSome = true then (persisted, u)
  else u.spawnPlayerWorld slot

end ServerUniverse

/-- The universe as a host sees it. How it is replicated and commanded is as one likes. -/
def game {Snap : Type} (rest : Net.GameUniverse (ServerUniverse F D) Snap) :
    Net.GameUniverse (ServerUniverse F D) Snap :=
  { rest with
    spawnBase := fun pos u => (u.nextId, u.spawnBase pos ⟨0, 0, 0⟩)
    spawnFleetShip := fun player pos u =>
      (u.spawnFleetShipFit player shipShapeId pos defaultShipFit).2
    setOre := fun netId u => u.setOre netId
    despawnBase := fun netId u => (u.despawnBase netId).2
    hasBase := fun netId u => (u.ents.find netId).isSome }

/-! ## A shard with its logins -/

/-- A login: what the id led to before it, and whether the account was given that id by an
    earlier one. -/
structure Attached where
  account : Nat
  netId : UInt32
  /-- Whether it was a base, if it was anything. -/
  before : Option Bool
  again : Bool
  deriving DecidableEq

/-- A shard with the table of bases and its logins so far. -/
structure Realm (F D : Type) where
  life : Life F D
  rows : List (Nat × Int)
  logins : List Attached

def Realm.start : Realm F D := ⟨.start, [], []⟩

inductive RealmEvent (F D : Type)
  | event (e : Event F D)
  /-- The table gets the id that a login was given. -/
  | persist (i : Nat)
  | login (account slot : Nat)

/-- A login of an account, with the id that the table has for it. -/
def Realm.login (s : Realm F D) (account slot : Nat) : Realm F D :=
  let u := s.life.running
  let r := u.bindAccountBase slot ((Assoc.lookup s.rows account).getD 0)
  { s with
    life := { s.life with running := r.2, taken := s.life.taken ++ u.takenSince r.2 }
    logins := s.logins ++ [
      { account := account
        netId := r.1
        before := (u.ents.find r.1).map Components.baseTag
        again := s.logins.any fun x => x.account = account ∧ x.netId = r.1 }] }

def rule (s : Realm F D) : RealmEvent F D → Option (Realm F D)
  | .event e => (live s.life e).map fun l => { s with life := l }
  | .persist i => (s.logins[i]?).map fun x =>
      { s with rows := (x.account, (x.netId.toNat : Int)) :: Assoc.erase s.rows x.account }
  | .login account slot => some (s.login account slot)

end

end Shard

end EarthRise
