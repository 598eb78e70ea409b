import EarthRise.Core.UniverseData
import EarthRise.Lib.BreadthFirst

/-!
# The Starmap

The routes that a client plans over the beacons of the cooked universe. The search for a
route and the search for everything in reach follow the links of a beacon in their order;
a name that stands for no beacon has none. The second one leaves such names out, and the
first one comes by them without going on.

Both loops run until their queue is empty. They are given a turn for every link there is and
one for the start, which is as many as they can take.

## Main definitions

* `findBeacon`: The beacon of a name.
* `search`, `solveBeaconRoute`: The route between two beacons.
* `reachableBeacons`: The beacons that there are routes to.
-/

namespace EarthRise

namespace Starmap

open Cooked (UniverseDataset BeaconDef Text)

variable {F : Type} (uni : UniverseDataset F)

def findBeacon (n : Text) : Option BeaconDef := uni.beacons.find? fun b => b.name = n

/-- The links of the beacon of a name. -/
def links (n : Text) : List Text :=
  match findBeacon uni n with
  | none => []
  | some b => b.links

/-- The names that a search from a beacon can come by. -/
def names (src : Text) : List Text := src :: uni.beacons.flatMap BeaconDef.links

/-- The search for a route, and whether it came to the end of one. -/
def search (src dst : Text) : BreadthFirst Text × Bool :=
  BreadthFirst.loop (links uni) (fun nbr => nbr = dst) (names uni src).length (.single src)

/-- The route with the fewest hops, with both ends; empty if there is none. -/
def solveBeaconRoute (src dst : Text) : List Text :=
  if (findBeacon uni src).isNone ∨ (findBeacon uni dst).isNone then []
  else if src = dst then [src]
  else
    let r := search uni src dst
    if r.2 then (r.1.pathBack src r.1.visited.length dst).reverse else []

/-- The beacons in reach; where the search came from is not read here. -/
def reachableBeacons (src : Text) : List Text :=
  if (findBeacon uni src).isNone then []
  else
    (BreadthFirst.loop (fun cur => (links uni cur).filter fun nbr => (findBeacon uni nbr).isSome)
      (fun _ => false) (names uni src).length (.single src)).1.visited

end Starmap

end EarthRise
