import EarthRise.Core.Interest
import Mathlib.Data.Finmap

/-!
# The Interest Grid as the Code Keeps It

The grid with all four of its tables. Where an entity is and where a player
looks are each kept twice: by entity and by player, and again by cell, where the
residents and the subscribers of the cell are two sorted lists. A cell is there
only while it has a resident or a subscriber.

The code keeps its sets in hash tables and walks them in an order of their own.
A walk is a parameter here: any order of the members of a set.

`Core.Interest` has the grid as two tables, by entity and by player. That the
cells add nothing to what a player sees is a theorem of `Theory.InterestGrid`.

## Main definitions

* `Cells.addResident`, `removeResident`, `addSubscriber`, `removeSubscriber`: The cells.
* `InterestGrid.updateResidency`, `remove`: Where an entity is.
* `InterestGrid.subscribe`, `unsubscribe`, `preSubscribe`, `setSubscription`,
  `removePlayer`: Where a player looks.
* `InterestGrid.visibleTo`: The entities in a player's cells.
* `GridOp`, `InterestGrid.run`: A sequence of calls.
-/

namespace EarthRise

namespace Interest

open Universe Sim

/-- An order in which a set of cells is walked. -/
structure Walk where
  list : Finset SectorId → List SectorId
  nodup : ∀ s, (list s).Nodup
  mem : ∀ s c, c ∈ list s ↔ c ∈ s

/-! ## Cells -/

structure Cell where
  residents : List NetId := []
  subscribers : List NetId := []
  deriving DecidableEq

/-- The cells that are kept, by sector. -/
abbrev Cells := Finmap fun _ : SectorId => Cell

namespace Cells

def residents (m : Cells) (s : SectorId) : List NetId := ((m.lookup s).getD {}).residents

def subscribers (m : Cells) (s : SectorId) : List NetId := ((m.lookup s).getD {}).subscribers

/-- Keep a cell only if it has a resident or a subscriber. -/
def pruneCell (m : Cells) (s : SectorId) (c : Cell) : Cells :=
  if c.residents = [] ∧ c.subscribers = [] then m.erase s else m.insert s c

def addResident (m : Cells) (s : SectorId) (e : NetId) : Cells :=
  let c := (m.lookup s).getD {}
  m.insert s { c with residents := SortedList.insert c.residents e }

def removeResident (m : Cells) (s : SectorId) (e : NetId) : Cells :=
  match m.lookup s with
  | none => m
  | some c => m.pruneCell s { c with residents := SortedList.erase c.residents e }

def addSubscriber (m : Cells) (s : SectorId) (p : NetId) : Cells :=
  let c := (m.lookup s).getD {}
  m.insert s { c with subscribers := SortedList.insert c.subscribers p }

def removeSubscriber (m : Cells) (s : SectorId) (p : NetId) : Cells :=
  match m.lookup s with
  | none => m
  | some c => m.pruneCell s { c with subscribers := SortedList.erase c.subscribers p }

end Cells

/-! ## The grid -/

/-- What a residency call did: whether the entity crossed into another cell, and
    whether it was anywhere before. -/
structure CrossEvent where
  changed : Bool := false
  hadPrevious : Bool := false
  source : SectorId := ⟨0, 0, 0⟩
  target : SectorId := ⟨0, 0, 0⟩
  deriving DecidableEq

/-- The cells that a subscription gained and lost. -/
structure SubDelta where
  entered : List SectorId := []
  left : List SectorId := []
  deriving DecidableEq

structure InterestGrid where
  cells : Cells
  entitySector : Finmap fun _ : NetId => SectorId
  playerSubs : Finmap fun _ : NetId => Finset SectorId
  playerPin : Finmap fun _ : NetId => Finset SectorId

namespace InterestGrid

def fresh : InterestGrid := { cells := ∅, entitySector := ∅, playerSubs := ∅, playerPin := ∅ }

/-! ### Residency -/

/-- Put an entity into a cell: a leave of the cell it was in and an entry into
    the new one, if the two differ. -/
def updateResidency (g : InterestGrid) (netId : NetId) (sector : SectorId) :
    InterestGrid × CrossEvent :=
  match g.entitySector.lookup netId with
  | none =>
      ({ g with
          entitySector := g.entitySector.insert netId sector
          cells := g.cells.addResident sector netId },
        { target := sector, changed := true })
  | some s =>
      if s = sector then (g, { target := sector, hadPrevious := true, source := s })
      else
        ({ g with
            entitySector := g.entitySector.insert netId sector
            cells := (g.cells.removeResident s netId).addResident sector netId },
          { target := sector, hadPrevious := true, source := s, changed := true })

def remove (g : InterestGrid) (netId : NetId) : InterestGrid :=
  match g.entitySector.lookup netId with
  | none => g
  | some s =>
      { g with
        entitySector := g.entitySector.erase netId
        cells := g.cells.removeResident s netId }

def residentCell (g : InterestGrid) (netId : NetId) : Option SectorId :=
  g.entitySector.lookup netId

def residents (g : InterestGrid) (s : SectorId) : List NetId := g.cells.residents s

/-! ### Subscriptions -/

/-- A player's cells, none for a player without an entry. -/
def subscriptions (g : InterestGrid) (player : NetId) : Finset SectorId :=
  (g.playerSubs.lookup player).getD ∅

/-- The cells held for a player ahead of its arrival. -/
def pins (g : InterestGrid) (player : NetId) : Finset SectorId :=
  (g.playerPin.lookup player).getD ∅

/-- Subscribe a player to a cell, and whether it was not before. -/
def subscribe (g : InterestGrid) (player : NetId) (s : SectorId) : InterestGrid × Bool :=
  if s ∈ g.subscriptions player then
    ({ g with playerSubs := g.playerSubs.insert player (g.subscriptions player) }, false)
  else
    ({ g with
        playerSubs := g.playerSubs.insert player (insert s (g.subscriptions player))
        cells := g.cells.addSubscriber s player }, true)

/-- Unsubscribe a player from a cell, and whether it was subscribed. -/
def unsubscribe (g : InterestGrid) (player : NetId) (s : SectorId) : InterestGrid × Bool :=
  match g.playerSubs.lookup player with
  | none => (g, false)
  | some subs =>
      if s ∈ subs then
        ({ g with
            playerSubs := g.playerSubs.insert player (subs.erase s)
            cells := g.cells.removeSubscriber s player }, true)
      else (g, false)

def isSubscribed (g : InterestGrid) (player : NetId) (s : SectorId) : Bool :=
  match g.playerSubs.lookup player with
  | none => false
  | some subs => decide (s ∈ subs)

def subscribers (g : InterestGrid) (s : SectorId) : List NetId := g.cells.subscribers s

/-- Hold a cell for a player and subscribe it. -/
def pinCell (player : NetId) (g : InterestGrid) (s : SectorId) : InterestGrid :=
  (subscribe { g with playerPin := g.playerPin.insert player (insert s (g.pins player)) }
    player s).1

/-- Subscribe a player ahead of its travel and hold the cells until it arrives. -/
def preSubscribe (g : InterestGrid) (player : NetId) (center : SectorId) (radiusCells : Int) :
    InterestGrid :=
  (collectNeighbourhood center radiusCells).foldl (pinCell player) g

/-- The state of the walk over a player's cells: the cells of the grid, the
    player's own, and what it gained and lost so far. -/
structure TargetPass where
  cells : Cells
  cur : Finset SectorId
  delta : SubDelta

namespace TargetPass

/-- Leave a cell that is not in the target. -/
def leave (player : NetId) (target : Finset SectorId) (t : TargetPass) (s : SectorId) :
    TargetPass :=
  if s ∈ target then t
  else
    { cells := t.cells.removeSubscriber s player
      cur := t.cur.erase s
      delta := { t.delta with left := t.delta.left ++ [s] } }

/-- Enter a cell of the target that the player is not in. -/
def enter (player : NetId) (t : TargetPass) (s : SectorId) : TargetPass :=
  if s ∈ t.cur then t
  else
    { cells := t.cells.addSubscriber s player
      cur := insert s t.cur
      delta := { t.delta with entered := t.delta.entered ++ [s] } }

end TargetPass

/-- Move a player's subscription to the target: first leave, then enter. -/
def applyTarget (g : InterestGrid) (walk : Walk) (player : NetId) (target : Finset SectorId) :
    InterestGrid × SubDelta :=
  let cur := g.subscriptions player
  let left := (walk.list cur).foldl (TargetPass.leave player target)
    { cells := g.cells, cur := cur, delta := {} }
  let done := (walk.list target).foldl (TargetPass.enter player) left
  ({ g with cells := done.cells, playerSubs := g.playerSubs.insert player done.cur }, done.delta)

/-- One held cell of `setSubscription`: let it go if the target covers it, else
    add it to the target. -/
def coverPin (t : Finset SectorId × Finset SectorId) (s : SectorId) :
    Finset SectorId × Finset SectorId :=
  if s ∈ t.2 then (t.1.erase s, t.2) else (t.1, insert s t.2)

/-- Subscribe a player to the given cells and those still held for it. -/
def setSubscription (g : InterestGrid) (walk : Walk) (player : NetId) (cells : List SectorId) :
    InterestGrid × SubDelta :=
  match g.playerPin.lookup player with
  | none => g.applyTarget walk player cells.toFinset
  | some pin =>
      let held := (walk.list pin).foldl coverPin (pin, cells.toFinset)
      let playerPin :=
        if held.1 = ∅ then g.playerPin.erase player else g.playerPin.insert player held.1
      { g with playerPin := playerPin }.applyTarget walk player held.2

/-- Drop a player: its subscriptions and what is held for it. -/
def removePlayer (g : InterestGrid) (walk : Walk) (player : NetId) : InterestGrid :=
  match g.playerSubs.lookup player with
  | none => { g with playerPin := g.playerPin.erase player }
  | some subs =>
      { g with
        cells := (walk.list subs).foldl (fun m s => m.removeSubscriber s player) g.cells
        playerSubs := g.playerSubs.erase player
        playerPin := g.playerPin.erase player }

/-- The entities in a player's cells, sorted and each once. -/
def visibleTo (g : InterestGrid) (walk : Walk) (player : NetId) : List NetId :=
  match g.playerSubs.lookup player with
  | none => []
  | some subs => SortedList.ofList ((walk.list subs).flatMap g.residents)

end InterestGrid

/-! ## Calls -/

/-- A call that changes the grid, with the order in which it walks a set. -/
inductive GridOp where
  | updateResidency (netId : NetId) (sector : SectorId)
  | remove (netId : NetId)
  | subscribe (player : NetId) (s : SectorId)
  | unsubscribe (player : NetId) (s : SectorId)
  | preSubscribe (player : NetId) (center : SectorId) (radiusCells : Int)
  | setSubscription (walk : Walk) (player : NetId) (cells : List SectorId)
  | removePlayer (walk : Walk) (player : NetId)

namespace InterestGrid

def apply (g : InterestGrid) : GridOp → InterestGrid
  | .updateResidency netId sector => (g.updateResidency netId sector).1
  | .remove netId => g.remove netId
  | .subscribe player s => (g.subscribe player s).1
  | .unsubscribe player s => (g.unsubscribe player s).1
  | .preSubscribe player center radiusCells => g.preSubscribe player center radiusCells
  | .setSubscription walk player cells => (g.setSubscription walk player cells).1
  | .removePlayer walk player => g.removePlayer walk player

/-- The grid after a sequence of calls. -/
def run (ops : List GridOp) : InterestGrid := ops.foldl apply fresh

end InterestGrid

/-- Where the calls last put an entity, none if they dropped it since. -/
def lastResidency (netId : NetId) (ops : List GridOp) : Option SectorId :=
  ops.foldl (fun last op => match op with
    | .updateResidency n sector => if n = netId then some sector else last
    | .remove n => if n = netId then none else last
    | _ => last) none

end Interest

end EarthRise
