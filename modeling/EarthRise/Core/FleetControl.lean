import EarthRise.Core.Serde
import EarthRise.Core.Snapshot
import EarthRise.Lib.Arith
import Mathlib.Data.List.Destutter

/-!
# Selecting and Commanding

What a player does with the pointer and the keys: units are selected, kept in groups, and sent
to what is clicked on. The controller holds the selection, the groups, a box that is being
drawn and the menu that is open; a command leaves it as the bytes for the session.

The entities of a frame are those of the replica, whose array has room for 512. Where they are
on the screen is the business of the camera, and of the mathematics library of the platform: a
point of the scene is taken to one in clip space, any way it likes.

## Main definitions

* `ReplicaEntity`, `ReplicaSet`: What the client knows of the entities.
* `classifyTarget`, `resolveSmartAction`, `buildContextMenu`: What can be done with a target.
* `pickNearest`, `pickBox`: Picking points of the screen.
* `FleetCommandController`: The controller and its handlers.
-/

namespace EarthRise

namespace Client

open Sim (EntityKind)
open Serde (FleetCommand encodeFleetCommand)
open Universe (Vec3)

/-! ## The replica -/

structure ReplicaEntity (F : Type) where
  networkId : UInt32
  x : F
  y : F
  z : F
  entityType : UInt8
  shapeId : UInt16
  hp : Int32
  ownerPlayer : UInt32
  valid : Bool

def maxEntities : Nat := 512

/-- The entities in use of the array. -/
structure ReplicaSet (F : Type) where
  entities : List (ReplicaEntity F)
  bounded : entities.length ≤ maxEntities

def ReplicaSet.empty {F : Type} : ReplicaSet F := ⟨[], Nat.zero_le _⟩

def ReplicaEntity.kind {F : Type} (e : ReplicaEntity F) : EntityKind := ⟨e.entityType⟩

/-! ## Targets -/

def resourceNode : EntityKind := ⟨4⟩

def lootContainer : EntityKind := ⟨6⟩

inductive SmartTarget
  | emptySpace
  | ally
  | enemy
  | resourceNode
  | beacon
  | loot
  deriving DecidableEq, Repr

/-- What an entity is to a player. A unit that is not the player's own is an enemy. -/
def classifyTarget (kind : EntityKind) (ownerPlayer selfPlayer : UInt32) : SmartTarget :=
  if kind = resourceNode then .resourceNode
  else if kind = lootContainer then .loot
  else if kind = EntityKind.structure' then .beacon
  else if kind = EntityKind.base ∨ kind = EntityKind.ship then
    if ownerPlayer = selfPlayer ∧ selfPlayer ≠ 0 then .ally else .enemy
  else if kind = EntityKind.npcUnit then .enemy
  else .emptySpace

/-- The verbs of the wire. -/
inductive IntentType
  | stop
  | move
  | attack
  | guard
  | orbit
  | keepRange
  | harvest
  | warp
  | jump
  | retreat
  | build
  | claimLoot
  deriving DecidableEq, Repr

def IntentType.code : IntentType → UInt8
  | .stop => 0
  | .move => 1
  | .attack => 2
  | .guard => 3
  | .orbit => 4
  | .keepRange => 5
  | .harvest => 6
  | .warp => 7
  | .jump => 8
  | .retreat => 9
  | .build => 10
  | .claimLoot => 11

def resolveSmartAction : SmartTarget → IntentType
  | .enemy => .attack
  | .resourceNode => .harvest
  | .beacon => .jump
  | .ally => .guard
  | .loot => .claimLoot
  | .emptySpace => .move

section

variable {F : Type} [Floating F]

/-- A command with nothing in it. -/
def FleetCommand.initial : FleetCommand F :=
  { clientTick := 0, intent := IntentType.stop.code, queue := false, units := []
    targetNetId := 0, targetPoint := ⟨0, 0, 0⟩, range := 0, beacon := [] }

def makeSmartCommand (t : SmartTarget) (units : List UInt32) (targetNetId : UInt32)
    (targetPoint : Vec3 Int64) (queue : Bool) (beaconName : List UInt8) : FleetCommand F :=
  let c : FleetCommand F := { FleetCommand.initial with
    intent := (resolveSmartAction t).code, units := units, queue := queue }
  if t = .emptySpace then { c with targetPoint := targetPoint }
  else if t = .beacon then { c with beacon := beaconName }
  else { c with targetNetId := targetNetId }

end

/-- A row of the context menu, and whether its command needs more than the click tells. -/
structure MenuAction where
  label : String
  intent : IntentType
  needsPoint : Bool := false
  needsBeacon : Bool := false
  deriving DecidableEq, Repr

def moveHere : MenuAction := { label := "Move Here", intent := .move, needsPoint := true }

def buildContextMenu (t : SmartTarget) (hasSelection : Bool) : List MenuAction :=
  if !hasSelection then []
  else match t with
    | .enemy =>
        [{ label := "Attack", intent := .attack }, { label := "Orbit", intent := .orbit },
          { label := "Keep at Range", intent := .keepRange }]
    | .resourceNode => [{ label := "Harvest", intent := .harvest }, moveHere]
    | .loot => [{ label := "Claim", intent := .claimLoot }, moveHere]
    | .ally => [{ label := "Guard", intent := .guard }, moveHere]
    | .beacon => [{ label := "Jump", intent := .jump, needsBeacon := true }, moveHere]
    | .emptySpace => [moveHere]

/-! ## Control groups -/

/-- The ten groups. -/
structure ControlGroups where
  groups : Fin 10 → List UInt32

namespace ControlGroups

def empty : ControlGroups := ⟨fun _ => []⟩

/-- Keep units as a group, in order and each once. -/
def set (g : ControlGroups) (group : Int) (units : List UInt32) : ControlGroups :=
  if group < 0 ∨ 10 ≤ group then g
  else
    let sorted := (units.mergeSort fun a b => a ≤ b).destutter (· ≠ ·)
    ⟨fun i => if (i.val : Int) = group then sorted else g.groups i⟩

def recallGroup (g : ControlGroups) (group : Int) : List UInt32 :=
  if h : 0 ≤ group ∧ group < 10 then g.groups ⟨group.toNat, by omega⟩ else []

end ControlGroups

section

variable {F : Type} [Floating F]

/-! ## Picking -/

/-- A unit on the screen; one that is off the screen or behind the camera is not visible. -/
structure ScreenPoint (F : Type) where
  id : UInt32
  x : F
  y : F
  visible : Bool

/-- The visible point nearest to the pointer within a radius, the last of several; zero if there
    is none. -/
def pickNearest (pts : List (ScreenPoint F)) (px py radiusPx : F) : UInt32 :=
  (pts.foldl (fun (best : UInt32 × F) p =>
    if !p.visible then best
    else
      let dx := p.x - px
      let dy := p.y - py
      let d2 := dx * dx + dy * dy
      if d2 ≤ best.2 then (p.id, d2) else best) (0, radiusPx * radiusPx)).1

/-- The visible points in a box. -/
def pickBox (pts : List (ScreenPoint F)) (x0 y0 x1 y1 : F) : List UInt32 :=
  let lx := if x0 < x1 then x0 else x1
  let hx := if x0 < x1 then x1 else x0
  let ly := if y0 < y1 then y0 else y1
  let hy := if y0 < y1 then y1 else y0
  (pts.filter fun p =>
    p.visible && decide (lx ≤ p.x ∧ p.x ≤ hx ∧ ly ≤ p.y ∧ p.y ≤ hy)).map ScreenPoint.id

def dragThresholdPx : F := 6.0

def isDrag (x0 y0 x1 y1 : F) : Bool :=
  let dx := x1 - x0
  let dy := y1 - y0
  dragThresholdPx * dragThresholdPx < dx * dx + dy * dy

/-! ## The controller -/

/-- A point in clip space, without its depth. -/
structure ClipPoint (F : Type) where
  x : F
  y : F
  w : F

/-- What a frame knows. A session, if there is one, has the net id of its player. -/
structure FleetInput (F : Type) where
  session : Option UInt32
  replica : ReplicaSet F
  screenW : UInt32
  screenH : UInt32
  ptrX : F
  ptrY : F
  ptrPressed : Bool
  ptrReleased : Bool
  menuScale : F
  overMenuWindow : Bool
  rmbReleased : Bool
  rmbDownX0 : F
  rmbDownY0 : F
  /-- Where a point of the scene is in clip space. -/
  project : F → F → F → ClipPoint F

namespace FleetInput

def self (i : FleetInput F) : UInt32 := i.session.getD 0

/-- The radius of the radar. -/
def radius (i : FleetInput F) : F := 95.0 * i.menuScale

def radarX (i : FleetInput F) : F := 20.0 * i.menuScale + i.radius

def radarY (i : FleetInput F) : F :=
  ofInt (i.screenH.toNat : Int) - 20.0 * i.menuScale - i.radius

def overRadar (i : FleetInput F) (x y : F) : Bool :=
  let dx := x - i.radarX
  let dy := y - i.radarY
  dx * dx + dy * dy ≤ i.radius * i.radius

/-- The coordinates of a point of clip space on the screen. -/
def screenX (i : FleetInput F) (ndcx : F) : F :=
  (ndcx * 0.5 + 0.5) * ofInt (i.screenW.toNat : Int)

def screenY (i : FleetInput F) (ndcy : F) : F :=
  (1.0 - (ndcy * 0.5 + 0.5)) * ofInt (i.screenH.toNat : Int)

end FleetInput

/-- Whether a coordinate is off the screen. -/
def offScreen (ndc : F) : Bool := ndc < (0 - 1.0) ∨ 1.0 < ndc

structure FleetCommandController (F : Type) where
  controlGroups : ControlGroups
  selection : List UInt32
  targetNetId : UInt32
  selDragging : Bool
  selX0 : F
  selY0 : F
  ctxOpen : Bool
  ctxX : F
  ctxY : F
  ctxTarget : UInt32
  ctxActions : List MenuAction

/-- The bodies that a handler gives to the session. -/
abbrev Sent := List (List UInt8)

namespace FleetCommandController

def fresh : FleetCommandController F where
  controlGroups := .empty
  selection := []
  targetNetId := 0
  selDragging := false
  selX0 := 0
  selY0 := 0
  ctxOpen := false
  ctxX := 0
  ctxY := 0
  ctxTarget := 0
  ctxActions := []

/-! ### Keys -/

def setControlGroup (c : FleetCommandController F) (group : Int) : FleetCommandController F :=
  { c with controlGroups := c.controlGroups.set group c.selection }

def recallControlGroup (c : FleetCommandController F) (group : Int) :
    FleetCommandController F :=
  { c with selection := c.controlGroups.recallGroup group }

/-- Select the ships of the player; without a session, those of nobody. -/
def selectAllOwnShips (c : FleetCommandController F) (session : Option UInt32)
    (rs : ReplicaSet F) : FleetCommandController F :=
  { c with
    selection := (rs.entities.filter fun e =>
      e.valid && e.ownerPlayer = session.getD 0 && e.kind = EntityKind.ship).map
        ReplicaEntity.networkId }

section

variable [FloatBits F]

def sendBuild (session : Option UInt32) : Sent :=
  match session with
  | none => []
  | some player =>
      [encodeFleetCommand { (FleetCommand.initial : FleetCommand F) with
        intent := IntentType.build.code, units := [player] }]

/-- Give a command to the session, if there is one and something is selected. -/
def sendFleet (c : FleetCommandController F) (session : Option UInt32)
    (cmd : FleetCommand F) : Sent :=
  match session with
  | none => []
  | some _ => if c.selection.isEmpty then [] else [encodeFleetCommand cmd]

def sendStop (c : FleetCommandController F) (session : Option UInt32) : Sent :=
  c.sendFleet session { (FleetCommand.initial : FleetCommand F) with
    intent := IntentType.stop.code, units := c.selection }

end

/-! ### The radar -/

/-- The contact nearest to a click so far. -/
structure Nearest (F : Type) where
  id : UInt32
  d2 : F
  kind : EntityKind
  owner : UInt32

def Nearest.initial : Nearest F := ⟨0, 0, EntityKind.unknown, 0⟩

/-- The contact nearest to a point of the plane, the player's own base aside. -/
def nearestContact (rs : ReplicaSet F) (self : UInt32) (wx wz : F) : Nearest F :=
  rs.entities.foldl (fun best e =>
    if !e.valid || e.networkId = self then best
    else
      let dx := e.x - wx
      let dz := e.z - wz
      let d2 := dx * dx + dz * dz
      if best.id = 0 ∨ d2 < best.d2 then ⟨e.networkId, d2, e.kind, e.ownerPlayer⟩ else best)
    .initial

/-- A click on the radar is a command for the contact that it is close to. -/
def handleRadarClick [FloatBits F] (c : FleetCommandController F) (i : FleetInput F)
    (fx fz : F) : FleetCommandController F × Sent :=
  if !i.ptrPressed || c.selection.isEmpty then (c, [])
  else if i.overMenuWindow then (c, [])
  else
    let ddx := i.ptrX - i.radarX
    let ddy := i.ptrY - i.radarY
    if i.radius * i.radius < ddx * ddx + ddy * ddy then (c, [])
    else
      let wx := fx + ddx / i.radius * 1800.0
      let wz := fz - ddy / i.radius * 1800.0
      let best := nearestContact i.replica i.self wx wz
      if best.id = 0 ∨ 120.0 * 120.0 ≤ best.d2 then (c, [])
      else
        let tt := classifyTarget best.kind best.owner i.self
        let c := { c with targetNetId := best.id }
        if tt = .beacon then (c, [])
        else
          (c, c.sendFleet i.session
            (makeSmartCommand tt c.selection best.id ⟨0, 0, 0⟩ false []))

/-! ### The viewport -/

/-- A unit of the player on the screen. -/
def screenPoint (i : FleetInput F) (e : ReplicaEntity F) : ScreenPoint F :=
  let clip := i.project e.x e.y e.z
  if 0.0001 < clip.w then
    let ndcx := clip.x / clip.w
    let ndcy := clip.y / clip.w
    ⟨e.networkId, i.screenX ndcx, i.screenY ndcy, !(offScreen ndcx || offScreen ndcy)⟩
  else ⟨e.networkId, 0, 0, false⟩

/-- The ships and the base of the player. -/
def ownUnits (rs : ReplicaSet F) (self : UInt32) : List (ReplicaEntity F) :=
  rs.entities.filter fun e => e.valid && e.ownerPlayer = self &&
    decide (e.kind = EntityKind.ship ∨ e.kind = EntityKind.base)

/-- The button goes down: a box starts, unless the click is on a window or on the radar. -/
def startBox (c : FleetCommandController F) (i : FleetInput F) : FleetCommandController F :=
  if i.ptrPressed && !i.overMenuWindow && !i.overRadar i.ptrX i.ptrY then
    { c with selDragging := true, selX0 := i.ptrX, selY0 := i.ptrY }
  else c

/-- The units in the box, or the one under a click. -/
def picked (c : FleetCommandController F) (i : FleetInput F) : List UInt32 :=
  let pts := (ownUnits i.replica i.self).map (screenPoint i)
  if isDrag c.selX0 c.selY0 i.ptrX i.ptrY then pickBox pts c.selX0 c.selY0 i.ptrX i.ptrY
  else
    let hit := pickNearest pts i.ptrX i.ptrY (28.0 * i.menuScale)
    if hit ≠ 0 then [hit] else []

/-- A click selects a unit and a box selects several. -/
def handleViewportSelection (c : FleetCommandController F) (i : FleetInput F) :
    FleetCommandController F :=
  let c := c.startBox i
  if !c.selDragging || !i.ptrReleased then c
  else
    let c := { c with selDragging := false }
    if i.self = 0 then c else { c with selection := c.picked i }

/-! ### The context menu -/

/-- The entity nearest to the pointer on the screen, of any kind and anybody's. -/
def pickAnyEntity (i : FleetInput F) : Nearest F :=
  i.replica.entities.foldl (fun best e =>
    if !e.valid then best
    else
      let clip := i.project e.x e.y e.z
      if clip.w ≤ 0.0001 then best
      else
        let ndcx := clip.x / clip.w
        let ndcy := clip.y / clip.w
        if offScreen ndcx || offScreen ndcy then best
        else
          let dx := i.screenX ndcx - i.ptrX
          let dy := i.screenY ndcy - i.ptrY
          let d2 := dx * dx + dy * dy
          if d2 < best.d2 then ⟨e.networkId, d2, e.kind, e.ownerPlayer⟩ else best)
    ⟨0, 28.0 * i.menuScale * (28.0 * i.menuScale), EntityKind.unknown, 0⟩

/-- The row of the menu under the pointer, or one below zero. -/
def ctxRowAt (c : FleetCommandController F) (px py s : F) : Int :=
  let rowH := 20.0 * s
  let width := 150.0 * s
  let n : F := ofInt (c.ctxActions.length : Int)
  if px < c.ctxX ∨ c.ctxX + width < px ∨ py < c.ctxY ∨ c.ctxY + rowH * n < py then -1
  else trunc ((py - c.ctxY) / rowH)

/-- A row that needs a point or a beacon does nothing yet. -/
def issueMenuAction [FloatBits F] (c : FleetCommandController F) (session : Option UInt32)
    (a : MenuAction) : FleetCommandController F × Sent :=
  if a.needsPoint || a.needsBeacon || c.selection.isEmpty then (c, [])
  else
    let cmd : FleetCommand F := { (FleetCommand.initial : FleetCommand F) with
      intent := a.intent.code, units := c.selection, targetNetId := c.ctxTarget
      range := if a.intent = .orbit ∨ a.intent = .keepRange then 500.0 else 0 }
    let c := { c with targetNetId := c.ctxTarget }
    (c, c.sendFleet session cmd)

/-- A click on the open menu issues its row, and a click elsewhere closes it. A right click
    that stands still opens it. Says also whether it took the left click. -/
def handleContextMenu [FloatBits F] (c : FleetCommandController F) (i : FleetInput F) :
    FleetCommandController F × Sent × Bool :=
  if c.ctxOpen && i.ptrPressed then
    let row := c.ctxRowAt i.ptrX i.ptrY i.menuScale
    let r :=
      match if 0 ≤ row then c.ctxActions[row.toNat]? else none with
      | some a => c.issueMenuAction i.session a
      | none => (c, [])
    ({ r.1 with ctxOpen := false }, r.2, true)
  else if i.rmbReleased then
    let dx := i.ptrX - i.rmbDownX0
    let dy := i.ptrY - i.rmbDownY0
    if dx * dx + dy * dy ≤ 6.0 * 6.0 ∧ i.overMenuWindow = false then
      let hit := pickAnyEntity i
      if hit.id ≠ 0 then
        let tt := classifyTarget hit.kind hit.owner i.self
        let actions := buildContextMenu tt (!c.selection.isEmpty)
        if actions.isEmpty then (c, [], false)
        else
          ({ c with ctxActions := actions, ctxTarget := hit.id, ctxX := i.ptrX, ctxY := i.ptrY
                    ctxOpen := true }, [], false)
      else ({ c with ctxOpen := false }, [], false)
    else (c, [], false)
  else (c, [], false)

/-- The handlers of a frame: the menu first, and the others if it leaves them the click. -/
def handleFrame [FloatBits F] (c : FleetCommandController F) (i : FleetInput F) (fx fz : F) :
    FleetCommandController F × Sent :=
  let m := c.handleContextMenu i
  if m.2.2 then (m.1, m.2.1)
  else
    let r := m.1.handleRadarClick i fx fz
    (r.1.handleViewportSelection i, m.2.1 ++ r.2)

end FleetCommandController

end

end Client

end EarthRise
