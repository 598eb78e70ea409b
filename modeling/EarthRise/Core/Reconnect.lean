import EarthRise.Lib.Arith

/-!
# Reconnecting

When a client tries again after it lost its connection.

The waits grow: the ceiling of a wait is the base delay, multiplied once for each attempt
that was made since the last connection, and the maximum at most. The delay is a random part
of the ceiling, so that the clients of a shard that restarts do not come back all at once.

The controller arms a wait when the connection is lost, and polling it past the armed time
is an attempt. The wait for the next one is armed with it, in case it fails; a connection
clears that.

## Main definitions

* `ReconnectPolicy`: The ceilings and the delays.
* `JitterRng`: The random numbers.
* `ReconnectController`: The controller.
-/

namespace EarthRise

namespace Reconnect

/-- The schedule of the waits. -/
structure ReconnectPolicy (D : Type) where
  baseDelayMs : UInt32
  maxDelayMs : UInt32
  multiplier : D
  deriving DecidableEq

/-- What to do after a poll. -/
inductive ReconnectAction
  | none
  | attempt
  deriving DecidableEq, Repr

/-- The state of the generator, splitmix64. -/
structure JitterRng where
  state : UInt64
  deriving DecidableEq, Repr

def JitterRng.seed (seed : UInt64) : JitterRng := ⟨seed + 0x9E3779B97F4A7C15⟩

/-- A controller: how many attempts were made since the last connection, and the armed wait. -/
structure ReconnectController (D : Type) where
  policy : ReconnectPolicy D
  rng : JitterRng
  attempt : UInt32
  waiting : Bool
  nextAttemptMs : UInt64
  deriving DecidableEq

section

variable {D : Type} [Floating D]

namespace ReconnectPolicy

def default : ReconnectPolicy D := ⟨500, 30000, 2.0⟩

/-- Multiply once for each attempt, and stop at the maximum. -/
def grow (p : ReconnectPolicy D) : Nat → D → Option D
  | 0, v => some v
  | n + 1, v =>
      let v := v * p.multiplier
      if ofInt p.maxDelayMs.toNat ≤ v then none else p.grow n v

/-- The longest wait after so many attempts. -/
def ceilingMs (p : ReconnectPolicy D) (attempt : UInt32) : UInt32 :=
  match p.grow attempt.toNat (ofInt p.baseDelayMs.toNat) with
  | none => p.maxDelayMs
  | some v =>
      if ofInt p.maxDelayMs.toNat ≤ v then p.maxDelayMs else UInt32.ofNat (trunc v).toNat

/-- A wait, for a random number from zero up to one. -/
def delayMs (p : ReconnectPolicy D) (attempt : UInt32) (jitter01 : D) : UInt32 :=
  let j : D := if jitter01 < 0 then 0 else if 1 ≤ jitter01 then 0.999999 else jitter01
  UInt32.ofNat (trunc (j * ofInt (p.ceilingMs attempt).toNat)).toNat

end ReconnectPolicy

/-- The next random number, of 53 bits. -/
def JitterRng.next01 (r : JitterRng) : D × JitterRng :=
  let state := r.state + 0x9E3779B97F4A7C15
  let z := state
  let z := (z ^^^ (z >>> 30)) * 0xBF58476D1CE4E5B9
  let z := (z ^^^ (z >>> 27)) * 0x94D049BB133111EB
  let z := z ^^^ (z >>> 31)
  (ofInt (z >>> 11).toNat * (1.0 / 9007199254740992.0), ⟨state⟩)

namespace ReconnectController

def new (policy : ReconnectPolicy D) (jitterSeed : UInt64) : ReconnectController D :=
  ⟨policy, .seed jitterSeed, 0, false, 0⟩

/-- The delay that the next wait will have. -/
def nextDelay (c : ReconnectController D) : UInt32 := c.policy.delayMs c.attempt c.rng.next01.1

/-- Arm a wait. -/
def scheduleNext (c : ReconnectController D) (nowMs : UInt64) : ReconnectController D :=
  { c with
    rng := (c.rng.next01 (D := D)).2
    nextAttemptMs := nowMs + c.nextDelay.toUInt64
    waiting := true }

def onConnected (c : ReconnectController D) : ReconnectController D :=
  { c with attempt := 0, waiting := false, nextAttemptMs := 0 }

/-- The connection is lost, which arms a wait unless one is armed. -/
def onConnectionLost (c : ReconnectController D) (nowMs : UInt64) : ReconnectController D :=
  if c.waiting then c else c.scheduleNext nowMs

/-- Ask whether to try again. -/
def poll (c : ReconnectController D) (nowMs : UInt64) :
    ReconnectAction × ReconnectController D :=
  if !c.waiting then (.none, c)
  else if nowMs < c.nextAttemptMs then (.none, c)
  else (.attempt, { c with attempt := c.attempt + 1 }.scheduleNext nowMs)

end ReconnectController

end

end Reconnect

end EarthRise
