import EarthRise.Core.FleetControl

/-!
# The Client's Own State

What the client keeps between frames: the replica of what the server sent, the last two of its
states to blend between, the chain of objectives, and the controller of the player's fleet. A
snapshot body changes the replica; a frame and a key are what the player does with it.

The replica walks a hash table, and the order of its keys is whatever it is, so the order is a
part of the input. Entities beyond the 512th of a walk are left out.

## Main definitions

* `HashOrder`: An order to walk a hash table in.
* `ReplicaManager`: The decoder's entities, relative to an origin that follows the player.
* `InterpBuffer`: Two states and how far the frame is between them.
* `Onboarding`: The chain of objectives.
* `App`: All of it, with what can happen to it.
-/

namespace EarthRise

namespace Client

open Sim (EntityKind SnapshotEntity DeltaDecodeState NetId)
open Universe (UniversePos universeToSector sectorToOrigin)

section

variable {F : Type} [Floating F]

/-! ## The replica manager -/

/-- The whole metres of an offset, cut toward zero. -/
def wholeMetres (offset : ℚ) : Int := offset.num.tdiv offset.den

/-- An entity relative to an origin. The offset within its metre is added before. -/
def projectEntity (origin : UniversePos) (e : SnapshotEntity) : ReplicaEntity F where
  networkId := UInt32.ofNat e.netId.val
  x := ofInt (e.pos.x + wholeMetres e.localOffset.x - origin.x)
  y := ofInt (e.pos.y + wholeMetres e.localOffset.y - origin.y)
  z := ofInt (e.pos.z + wholeMetres e.localOffset.z - origin.z)
  entityType := e.kind.code
  shapeId := e.shapeId
  hp := e.hp
  ownerPlayer := UInt32.ofNat e.ownerPlayer.val
  valid := true

/-- An order to walk a hash table in: its keys in any order. -/
structure HashOrder where
  visit : List NetId → List NetId
  perm : ∀ keys, (visit keys).Perm keys

structure ReplicaManager (F : Type) where
  current : ReplicaSet F
  decode : DeltaDecodeState
  origin : UniversePos
  tick : Nat

namespace ReplicaManager

def fresh : ReplicaManager F := ⟨.empty, .fresh, ⟨0, 0, 0⟩, 0⟩

/-- The entities of the decoder, in the order of a walk over their keys. -/
def walk (st : DeltaDecodeState) (order : HashOrder) : List SnapshotEntity :=
  (order.visit st.entities.keys).filterMap st.entities.find?

/-- The origin follows the player's entity, or the first one if the player is not known. -/
def rebase (origin : UniversePos) (playerNetId : UInt32) (ents : List SnapshotEntity) :
    UniversePos :=
  match ents.find? fun e => UInt32.ofNat e.netId.val = playerNetId ∨ playerNetId = 0 with
  | none => origin
  | some e => sectorToOrigin (universeToSector e.pos)

/-- Decode a body and project what is known then. -/
def update (m : ReplicaManager F) (snapshotBytes : List UInt8) (playerNetId : UInt32)
    (order : HashOrder) : Option (ReplicaManager F) :=
  match m.decode.apply snapshotBytes with
  | none => none
  | some st =>
      let ents := walk st order
      let origin := rebase m.origin playerNetId ents
      let shown : List (ReplicaEntity F) := (ents.take maxEntities).map (projectEntity origin)
      some
        { current := ⟨shown, by simp only [shown, List.length_map, List.length_take]; omega⟩
          decode := st, origin := origin, tick := st.latestTick }

end ReplicaManager

/-! ## Between two states -/

structure InterpBuffer (F : Type) where
  prev : ReplicaSet F
  curr : ReplicaSet F
  alpha : F

namespace InterpBuffer

/-- How far the first frame is between the states is left open. -/
def fresh (alpha : F) : InterpBuffer F := ⟨.empty, .empty, alpha⟩

def advance (b : InterpBuffer F) (next : ReplicaSet F) : InterpBuffer F :=
  { b with prev := b.curr, curr := next, alpha := 0 }

end InterpBuffer

/-! ## Onboarding -/

structure ObservedState where
  hasOwnBase : Bool
  ownedShips : Nat
  selectionCount : Nat
  npcVisible : Nat

/-- What the chain of objectives looks at. -/
def observeWorld (set : ReplicaSet F) (selfPlayer : UInt32) (selectionCount : Nat) :
    ObservedState :=
  set.entities.foldl (fun (o : ObservedState) e =>
    if !e.valid then o
    else if e.kind = EntityKind.npcUnit then { o with npcVisible := o.npcVisible + 1 }
    else if e.ownerPlayer = selfPlayer ∧ selfPlayer ≠ 0 then
      if e.kind = EntityKind.base then { o with hasOwnBase := true }
      else if e.kind = EntityKind.ship then { o with ownedShips := o.ownedShips + 1 }
      else o
    else o) ⟨false, 0, selectionCount, 0⟩

inductive Onboarding.Step
  | welcome
  | select
  | engage
  | clear
  | done
  deriving DecidableEq, Repr

structure Onboarding where
  step : Onboarding.Step
  sawNpc : Bool
  deriving DecidableEq

namespace Onboarding

def fresh : Onboarding := ⟨.welcome, false⟩

def observe (o : Onboarding) (s : ObservedState) : Onboarding :=
  let sawNpc := o.sawNpc || decide (0 < s.npcVisible)
  let step :=
    match o.step with
    | .welcome => if s.hasOwnBase then .select else .welcome
    | .select => if 0 < s.selectionCount then .engage else .select
    | .engage => if sawNpc then .clear else .engage
    | .clear => if sawNpc ∧ s.npcVisible = 0 then .done else .clear
    | .done => .done
  ⟨step, sawNpc⟩

end Onboarding

/-! ## The application -/

structure App (F : Type) where
  replica : ReplicaManager F
  interp : InterpBuffer F
  onboarding : Onboarding
  fleet : FleetCommandController F

/-- The keys of the fleet. -/
inductive Key
  | digit (group : Fin 10) (ctrl : Bool)
  | selectAll
  | build
  | stop

/-- What a frame knows beside the replica. -/
structure FrameInput (F : Type) where
  screenW : UInt32
  screenH : UInt32
  ptrX : F
  ptrY : F
  ptrPressed : Bool
  ptrReleased : Bool
  menuScale : F
  overMenuWindow : Bool
  rmbReleased : Bool
  rmbDownX0 : F
  rmbDownY0 : F
  project : F → F → F → ClipPoint F
  focusX : F
  focusZ : F

/-- What can happen: a snapshot arrives, a frame is drawn or a key is pressed, while the session
    has a player or there is none. -/
inductive AppEvent (F : Type)
  | snapshot (body : List UInt8) (order : HashOrder)
  | frame (input : FrameInput F)
  | key (key : Key)

namespace App

def fresh (alpha : F) : App F := ⟨.fresh, .fresh alpha, .fresh, .fresh⟩

/-- The input of the controller. -/
def fleetInput (a : App F) (session : Option UInt32) (i : FrameInput F) : FleetInput F where
  session := session
  replica := a.interp.curr
  screenW := i.screenW
  screenH := i.screenH
  ptrX := i.ptrX
  ptrY := i.ptrY
  ptrPressed := i.ptrPressed
  ptrReleased := i.ptrReleased
  menuScale := i.menuScale
  overMenuWindow := i.overMenuWindow
  rmbReleased := i.rmbReleased
  rmbDownX0 := i.rmbDownX0
  rmbDownY0 := i.rmbDownY0
  project := i.project

def snapBufSize : Nat := 4096

/-- A body is cut off where the buffer for it ends. -/
def pollSnapshot (a : App F) (session : Option UInt32) (body : List UInt8)
    (order : HashOrder) : App F :=
  match a.replica.update (body.take snapBufSize) (session.getD 0) order with
  | none => a
  | some m => { a with replica := m, interp := a.interp.advance m.current }

variable [FloatBits F]

def onKeyDown (a : App F) (session : Option UInt32) : Key → App F × Sent
  | .digit group ctrl =>
      if ctrl then ({ a with fleet := a.fleet.setControlGroup group.val }, [])
      else ({ a with fleet := a.fleet.recallControlGroup group.val }, [])
  | .selectAll => ({ a with fleet := a.fleet.selectAllOwnShips session a.interp.curr }, [])
  | .build => (a, FleetCommandController.sendBuild (F := F) session)
  | .stop => (a, a.fleet.sendStop session)

/-- A frame: the objectives first, then the pointer. -/
def runFrame (a : App F) (session : Option UInt32) (i : FrameInput F) : App F × Sent :=
  let observed := observeWorld a.interp.curr (session.getD 0) a.fleet.selection.length
  let r := a.fleet.handleFrame (a.fleetInput session i) i.focusX i.focusZ
  ({ a with onboarding := a.onboarding.observe observed, fleet := r.1 }, r.2)

def step (a : App F) (session : Option UInt32) : AppEvent F → App F × Sent
  | .snapshot body order => (a.pollSnapshot session body order, [])
  | .frame input => a.runFrame session input
  | .key key => a.onKeyDown session key

/-- A run of the application, with all that was given to the session. -/
def run : App F → List (Option UInt32 × AppEvent F) → App F × Sent
  | a, [] => (a, [])
  | a, (session, e) :: es =>
      let r := a.step session e
      let rest := run r.1 es
      (rest.1, r.2 ++ rest.2)

end App

end

end Client

end EarthRise
