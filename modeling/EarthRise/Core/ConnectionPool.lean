import EarthRise.Lib.Run

/-!
# The Connection Pool

The connections to the database that the threads of the server share. A thread acquires a
lease, uses its connection for statements and transactions, and returns it.

A critical section of the pool is one step, and so is what a thread does with its lease; the
steps of different threads come in any order. Acquiring has two parts with the lock given up
in between: a connection is taken or opened, and then, if it is not connected, it is connected
again, which may fail. Whether the driver manages to connect is a part of the label.

The connections out of the pool are kept in two lists, those between the two parts and those
that are leased. How many connections were out when the pool was emptied last is `left`; the
code does not keep it, nor the numbers of connections.

## Main definitions

* `OdbcConnection`, `OdbcConnectionPool`: A connection, and the pool.
* `step`: What the threads can do.
-/

namespace EarthRise

namespace Persist

structure OdbcConnection where
  id : Nat
  connected : Bool
  inTxn : Bool
  deriving DecidableEq, Repr

structure PoolConfig where
  hasConnString : Bool
  poolMin : Int
  poolMax : Int
  deriving DecidableEq, Repr

def PoolConfig.default : PoolConfig := ⟨false, 1, 4⟩

structure OdbcConnectionPool where
  cfg : PoolConfig
  idle : List OdbcConnection
  /-- The connections that are open, in the pool's own count. -/
  live : Int
  opened : Nat
  acquiring : List OdbcConnection
  leased : List OdbcConnection
  left : Nat
  deriving DecidableEq, Repr

namespace OdbcConnectionPool

def new : OdbcConnectionPool :=
  { cfg := .default, idle := [], live := 0, opened := 0, acquiring := [], leased := [], left := 0 }

/-- The connections out of the pool. -/
def out (s : OdbcConnectionPool) : List OdbcConnection := s.acquiring ++ s.leased

/-- Connect, which does nothing if it is connected already. -/
def connect (s : OdbcConnectionPool) (conn : OdbcConnection) (driver : Bool) :
    Option OdbcConnection :=
  if conn.connected then some conn
  else if s.cfg.hasConnString && driver then
    some { conn with connected := true, inTxn := false }
  else none

def openOne (s : OdbcConnectionPool) (driver : Bool) :
    Option (OdbcConnection × OdbcConnectionPool) :=
  (s.connect ⟨s.opened, false, false⟩ driver).map fun conn =>
    (conn, { s with opened := s.opened + 1 })

/-- Open connections one after the other, until one fails. -/
def warm (driver : Nat → Bool) : Nat → Nat → OdbcConnectionPool → OdbcConnectionPool
  | _, 0, s => s
  | i, n + 1, s =>
      match s.openOne (driver i) with
      | none => s
      | some (conn, s) => warm driver (i + 1) n
          { s with live := s.live + 1, idle := s.idle ++ [conn] }

/-- The pool is emptied; the connections that are out stay out. -/
def clear (s : OdbcConnectionPool) : OdbcConnectionPool :=
  { s with idle := [], live := 0, left := s.out.length }

/-- Called again it starts anew. -/
def initializePool (s : OdbcConnectionPool) (cfg : PoolConfig) (driver : Nat → Bool) :
    OdbcConnectionPool :=
  let s := { s.clear with cfg := cfg }
  if cfg.hasConnString then
    warm driver 0 (if cfg.poolMin < 1 then 1 else cfg.poolMin.toNat) s
  else s

/-- The first part of acquiring: an idle connection, or a new one, or none. -/
def take (s : OdbcConnectionPool) (driver : Bool) : OdbcConnectionPool :=
  match s.idle.getLast? with
  | some conn => { s with idle := s.idle.dropLast, acquiring := s.acquiring ++ [conn] }
  | none =>
      if s.live < s.cfg.poolMax then
        match s.openOne driver with
        | none => s
        | some (conn, s) =>
            { s with live := s.live + 1, acquiring := s.acquiring ++ [conn] }
      else s

/-- The second part, for one of the connections that were taken. -/
def lease (s : OdbcConnectionPool) (conn : OdbcConnection) (driver : Bool) :
    OdbcConnectionPool :=
  let s := { s with acquiring := s.acquiring.erase conn }
  match s.connect conn driver with
  | some conn => { s with leased := s.leased ++ [conn] }
  | none => { s with live := s.live - 1 }

/-- A connection that is not connected or has an open transaction is not kept. -/
def giveBack (s : OdbcConnectionPool) (conn : OdbcConnection) : OdbcConnectionPool :=
  let s := { s with leased := s.leased.erase conn }
  if !conn.connected || conn.inTxn then { s with live := s.live - 1 }
  else { s with idle := s.idle ++ [conn] }

/-- What happens to a leased connection. -/
def change (s : OdbcConnectionPool) (conn conn' : OdbcConnection) : OdbcConnectionPool :=
  { s with leased := s.leased.map fun c => if c = conn then conn' else c }

def beginTransaction (s : OdbcConnectionPool) (conn : OdbcConnection) (driver : Bool) :
    OdbcConnectionPool :=
  if conn.connected && driver then s.change conn { conn with inTxn := true } else s

/-- A commit or a rollback, whether it succeeds or not. -/
def endTransaction (s : OdbcConnectionPool) (conn : OdbcConnection) : OdbcConnectionPool :=
  s.change conn { conn with inTxn := false }

def shutdown (s : OdbcConnectionPool) : OdbcConnectionPool := s.clear

/-- What the threads do, and what the driver makes of it. -/
inductive PoolLabel
  | initializePool (cfg : PoolConfig) (driver : Nat → Bool)
  | take (driver : Bool)
  | lease (conn : OdbcConnection) (driver : Bool)
  | beginTransaction (conn : OdbcConnection) (driver : Bool)
  | endTransaction (conn : OdbcConnection)
  | giveBack (conn : OdbcConnection)
  | shutdown

def step (s : OdbcConnectionPool) : PoolLabel → Option OdbcConnectionPool
  | .initializePool cfg driver => some (s.initializePool cfg driver)
  | .take driver => some (s.take driver)
  | .lease conn driver => if conn ∈ s.acquiring then some (s.lease conn driver) else none
  | .beginTransaction conn driver =>
      if conn ∈ s.leased then some (s.beginTransaction conn driver) else none
  | .endTransaction conn => if conn ∈ s.leased then some (s.endTransaction conn) else none
  | .giveBack conn => if conn ∈ s.leased then some (s.giveBack conn) else none
  | .shutdown => some s.shutdown

end OdbcConnectionPool

end Persist

end EarthRise
