import EarthRise.Lib.Placement
import Mathlib.Data.UInt

/-!
# The Arena of a Tick

A buffer of a fixed capacity and a cursor that only goes up, until the next tick resets it. An
allocation aligns the cursor, and checks with an assertion that the block ends by the end of the
buffer; a release build has no assertions.

The address of the buffer is a field, since the code returns addresses and aligns offsets.
Freeing a block does nothing.

## Main definitions

* `FrameArena`, `Request`: The arena, and what is asked of it.
* `FrameArena.doAllocate`, `FrameArena.reset`: The operations.
* `FrameArena.allocateAll`: Allocations in a row.
-/

namespace EarthRise

namespace Alloc

open Placement

/-- Whether assertions are compiled in. -/
inductive Build
  | debug
  | release
  deriving DecidableEq, Repr

structure FrameArena where
  /-- The address of the buffer. -/
  base : Nat
  capacity : UInt64
  cursor : UInt64
  deriving DecidableEq, Repr

/-- An allocation of any size and any alignment that is a power of two. -/
structure Request where
  bytes : UInt64
  alignment : UInt64
  pow : ∃ k, alignment.toNat = 2 ^ k

namespace FrameArena

/-- The start of a tick. -/
def reset (a : FrameArena) : FrameArena := { a with cursor := 0 }

/-- `none` is an assertion that fails, and the program ends. -/
def doAllocate (build : Build) (a : FrameArena) (bytes alignment : UInt64) :
    Option (Block × FrameArena) :=
  let pad := -a.cursor &&& (alignment - 1)
  let next := a.cursor + pad + bytes
  if build = .debug ∧ ¬ next ≤ a.capacity then none
  else some (⟨a.base + a.cursor.toNat + pad.toNat, bytes.toNat⟩, { a with cursor := next })

/-- What each allocation returned. -/
def allocateAll (build : Build) : FrameArena → List Request → List (Option Block)
  | _, [] => []
  | a, r :: rs =>
      match a.doAllocate build r.bytes r.alignment with
      | none => [none]
      | some (b, a) => some b :: allocateAll build a rs

end FrameArena

end Alloc

end EarthRise
