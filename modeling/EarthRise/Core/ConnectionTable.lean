import EarthRise.Lib.Assoc
import Mathlib.Data.Nat.Notation

/-!
# The Connection Table

Slots for connections, found by their token.

A slot is free or has a token, and counts in its generation how often it was closed. A
handle is a slot with the generation it was opened at, and is good for as long as the slot
has that. A free slot is taken before a new one is made, the one closed last first. The
number of a slot has 32 bits, and the number of a new one is cut to that.

## Main definitions

* `ConnHandle`, `Slot`, `ConnectionTable`: Handles and slots.
* `ConnectionTable.openSlot`, `ConnectionTable.close`: Opening and closing a connection.
* `ConnectionTable.find`, `ConnectionTable.validate`: Looking up.
-/

namespace EarthRise

namespace Net

structure ConnHandle where
  index : UInt32
  generation : UInt32
  valid : Bool
  deriving DecidableEq, Repr

/-- The handle of nothing. -/
def ConnHandle.none : ConnHandle := ⟨0, 0, false⟩

structure Slot where
  token : UInt64
  generation : UInt32
  active : Bool
  deriving DecidableEq, Repr

def Slot.empty : Slot := ⟨0, 0, false⟩

/-- The slots, the free ones with the one that was closed last first, and the slot of each
    token. -/
structure ConnectionTable where
  slots : List Slot
  free : List UInt32
  byToken : List (UInt64 × UInt32)
  deriving DecidableEq

namespace ConnectionTable

def empty : ConnectionTable := ⟨[], [], []⟩

def handleFor (t : ConnectionTable) (idx : UInt32) : ConnHandle :=
  ⟨idx, (t.slots[idx.toNat]?).elim 0 Slot.generation, true⟩

/-- Open a slot for a token, or return the one it has. -/
def openSlot (t : ConnectionTable) (token : UInt64) : ConnHandle × ConnectionTable :=
  match Assoc.lookup t.byToken token with
  | some idx => (t.handleFor idx, t)
  | none =>
      let taken : UInt32 × ConnectionTable :=
        match t.free with
        | idx :: free => (idx, { t with free := free })
        | [] => (UInt32.ofNat t.slots.length, { t with slots := t.slots ++ [Slot.empty] })
      let idx := taken.1
      let t := taken.2
      let t := { t with
        slots := t.slots.modify idx.toNat fun s => { s with token := token, active := true }
        byToken := t.byToken ++ [(token, idx)] }
      (t.handleFor idx, t)

/-- The handle of a token, not valid if there is none. -/
def find (t : ConnectionTable) (token : UInt64) : ConnHandle :=
  match Assoc.lookup t.byToken token with
  | none => .none
  | some idx => t.handleFor idx

def validate (t : ConnectionTable) (h : ConnHandle) : Bool :=
  h.valid &&
    (t.slots[h.index.toNat]?).any fun s => s.active && decide (s.generation = h.generation)

/-- Free the slot of a token, and move its generation on. -/
def close (t : ConnectionTable) (token : UInt64) : ConnectionTable :=
  match Assoc.lookup t.byToken token with
  | none => t
  | some idx =>
      { slots := t.slots.modify idx.toNat fun s =>
          { token := 0, generation := s.generation + 1, active := false }
        free := idx :: t.free
        byToken := Assoc.erase t.byToken token }

/-- The tokens of the slots that are in use. -/
def activeTokens (t : ConnectionTable) : List UInt64 :=
  (t.slots.filter Slot.active).map Slot.token

end ConnectionTable

end Net

end EarthRise
