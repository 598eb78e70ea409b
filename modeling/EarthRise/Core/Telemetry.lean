import EarthRise.Lib.NearestDouble
import Mathlib.Data.List.Sort

/-!
# The Percentile Window

A ring of the most recent samples, and nearest-rank percentiles of them. The ring grows up to its
capacity and is overwritten from then on, from the oldest sample on.

Samples are the values of a linear order, which doubles are that are numbers, both zeros being one
value. A level is the rational number that a double is, and the rank comes from the product of the
level and the count as a double. The means and the maximum are left out.

## Main definitions

* `PercentileWindow.add`, `PercentileWindow.clear`: The operations.
* `PercentileWindow.percentile`: The sample of a rank.
* `Sampling`, `PercentileWindow.run`: Operations in a row.
-/

namespace EarthRise

namespace Telemetry

open NearestDouble

structure PercentileWindow (α : Type) where
  ring : List α
  cap : Nat
  head : Nat

namespace PercentileWindow

variable {α : Type}

def start (cap : Nat) : PercentileWindow α :=
  { ring := [], cap := if cap = 0 then 1 else cap, head := 0 }

def add (w : PercentileWindow α) (v : α) : PercentileWindow α :=
  if w.ring.length < w.cap then { w with ring := w.ring ++ [v] }
  else { w with ring := w.ring.set w.head v, head := (w.head + 1) % w.cap }

def clear (w : PercentileWindow α) : PercentileWindow α := { w with ring := [], head := 0 }

def count (w : PercentileWindow α) : Nat := w.ring.length

/-- The level, clamped. -/
def clamped (q : ℚ) : ℚ := if q < 0 then 0 else if 1 < q then 1 else q

/-- The product is that of two doubles, and the count is cast to one. -/
def product (q : ℚ) (n : Nat) : ℚ := nearest (clamped q * nearest n)

/-- The rank of a level among `n` samples, counted from one. -/
def rank (q : ℚ) (n : Nat) : Nat :=
  let rank := ⌈product q n⌉₊
  let rank := if rank = 0 then 1 else rank
  if n < rank then n else rank

def percentile [LinearOrder α] [Zero α] (w : PercentileWindow α) (q : ℚ) : α :=
  if w.ring = [] then 0
  else
    let s := w.ring.insertionSort (· ≤ ·)
    s.getD (rank q s.length - 1) 0

end PercentileWindow

inductive Sampling (α : Type)
  | add (v : α)
  | clear

def PercentileWindow.run {α : Type} : PercentileWindow α → List (Sampling α) → PercentileWindow α
  | w, [] => w
  | w, .add v :: ops => run (w.add v) ops
  | w, .clear :: ops => run w.clear ops

end Telemetry

end EarthRise
