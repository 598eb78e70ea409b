import EarthRise.Lib.SparseSet
import Mathlib.Algebra.Group.Nat.Defs
import Mathlib.Data.Fin.Basic
import Mathlib.Data.List.FinRange
import Mathlib.Logic.Function.Basic

/-!
# Component Storage

The entity store as it is stored: handles of 32 bits, a record for each slot, and for each
component type a storage of its own.

A handle has the slot in its low 20 bits and the generation in the other 12. A record has
the generation, a mask with a bit for each of the 64 component types, and whether the slot
is in use. A storage is a sparse set: its components are packed, and removing one moves
another. `Core.Ecs` has the same store with the components of an entity as one value.

What is asserted fails here, with `none`: to make a handle of a slot beyond the last, to
add a component twice or to an entity that is gone, to use a type that is not registered.
A reference is written through at once, so writing is an operation of its own.

## Main definitions

* `EntityHandle`, `EntityRecord`, `ComponentStorage`, `World`: What is stored.
* `createEntity`, `destroyEntity`, `isAlive`: The life of an entity.
* `addComponent`, `removeComponent`, `getComponent`, `hasComponent`, `writeComponent`:
  Components.
* `forEach`, `entityCount`: What an iteration visits, and the count.
* `Op`, `Event`, `World.exec`, `World.run`: Sequences of operations, and what they did.
-/

namespace EarthRise

namespace EcsStorage

/-! ## Handles -/

structure EntityHandle where
  value : UInt32
  deriving DecidableEq, Repr

namespace EntityHandle

def indexBits : Nat := 20

def genBits : Nat := 12

def maxIndex : Nat := 2 ^ indexBits - 1

def maxGen : Nat := 2 ^ genBits - 1

def index (e : EntityHandle) : Nat := (e.value &&& 0xFFFFF).toNat

def generation (e : EntityHandle) : Nat := (e.value >>> 20).toNat

def make (idx gen : Nat) : Option EntityHandle :=
  if idx ≤ maxIndex ∧ gen ≤ maxGen then some ⟨(UInt32.ofNat gen <<< 20) ||| UInt32.ofNat idx⟩
  else none

end EntityHandle

/-! ## What is stored -/

abbrev ComponentTypeId := Fin 64

/-- `Insert`, `Remove` and `Get` are `insert`, `remove` and `get` of a sparse set. -/
abbrev ComponentStorage := SparseSet

structure EntityRecord where
  generation : Nat
  componentMask : BitVec 64
  alive : Bool
  deriving DecidableEq

/-- The records, the free slots with the one that was freed last first, and the storages of
    the registered types. -/
structure World (T : ComponentTypeId → Type) where
  records : List EntityRecord
  freeList : List Nat
  storages : (c : ComponentTypeId) → Option (ComponentStorage (T c))

namespace World

variable {T : ComponentTypeId → Type}

/-- Slot zero is kept for the null handle. -/
def fresh : World T := { records := [⟨0, 0, false⟩], freeList := [], storages := fun _ => none }

def registerComponent (w : World T) (c : ComponentTypeId) : Option (World T) :=
  match w.storages c with
  | some _ => none
  | none => some { w with storages := Function.update w.storages c (some .empty) }

/-! ## Entities -/

def createEntity (w : World T) : Option (EntityHandle × World T) :=
  match w.freeList with
  | idx :: rest =>
      match w.records[idx]? with
      | none => none
      | some r =>
          (EntityHandle.make idx r.generation).map fun e =>
            (e, { w with
              records := w.records.set idx { r with alive := true, componentMask := 0 }
              freeList := rest })
  | [] =>
      let idx := w.records.length
      if idx ≤ EntityHandle.maxIndex then
        (EntityHandle.make idx 0).map fun e => (e, { w with records := w.records ++ [⟨0, 0, true⟩] })
      else none

def isAlive (w : World T) (e : EntityHandle) : Bool :=
  if e.index = 0 then false
  else
    match w.records[e.index]? with
    | none => false
    | some r => r.alive && decide (r.generation = e.generation)

/-- Remove the component of one type, if the mask has it. -/
def removeMasked (idx : Nat) (mask : BitVec 64)
    (storages : (c : ComponentTypeId) → Option (ComponentStorage (T c))) (c : ComponentTypeId) :
    Option ((c : ComponentTypeId) → Option (ComponentStorage (T c))) :=
  if mask.getLsbD c then
    match storages c with
    | none => some storages
    | some s => (s.remove idx).map fun r => Function.update storages c (some r.2)
  else some storages

def destroyEntity (w : World T) (e : EntityHandle) : Option (World T) :=
  if w.isAlive e then
    match w.records[e.index]? with
    | none => none
    | some r =>
        ((List.finRange 64).foldlM (removeMasked e.index r.componentMask) w.storages).map
          fun storages =>
            { records := w.records.set e.index
                ⟨(r.generation + 1) &&& EntityHandle.maxGen, 0, false⟩
              freeList := e.index :: w.freeList
              storages := storages }
  else some w

/-! ## Components -/

/-- The component in a storage, whoever has the slot. -/
def component (w : World T) (c : ComponentTypeId) (idx : Nat) : Option (T c) :=
  (w.storages c).bind fun s => s.get idx

/-- Change the mask of a slot. -/
def setMask (w : World T) (idx : Nat) (f : BitVec 64 → BitVec 64) : List EntityRecord :=
  w.records.modify idx fun r => { r with componentMask := f r.componentMask }

def hasComponent (w : World T) (c : ComponentTypeId) (e : EntityHandle) : Bool :=
  w.isAlive e && (w.records[e.index]?).any fun r => r.componentMask.getLsbD c

/-- A new component is default-constructed. -/
def addComponent [∀ c, Inhabited (T c)] (w : World T) (c : ComponentTypeId) (e : EntityHandle) :
    Option (World T) :=
  if w.isAlive e ∧ ¬ w.hasComponent c e then
    match w.storages c with
    | none => none
    | some s =>
        (s.insert e.index default).map fun s =>
          { w with
            records := w.setMask e.index fun mask => mask ||| (1#64 <<< c.val)
            storages := Function.update w.storages c (some s) }
  else none

def removeComponent (w : World T) (c : ComponentTypeId) (e : EntityHandle) : Option (World T) :=
  if w.hasComponent c e then
    match w.storages c with
    | none => none
    | some s =>
        (s.remove e.index).map fun r =>
          { w with
            records := w.setMask e.index fun mask => mask &&& ~~~(1#64 <<< c.val)
            storages := Function.update w.storages c (some r.2) }
  else none

def getComponent (w : World T) (c : ComponentTypeId) (e : EntityHandle) : Option (T c) :=
  if w.isAlive e then w.component c e.index else none

/-- Write through the reference to a component; there is none to a component that is not
    there. -/
def writeComponent (w : World T) (c : ComponentTypeId) (e : EntityHandle) (v : T c) :
    Option (World T) :=
  match w.getComponent c e, w.storages c with
  | some _, some s =>
      some { w with storages := Function.update w.storages c (some (s.set e.index v)) }
  | _, _ => none

/-! ## Iteration -/

/-- The mask of the types that an iteration asks for. -/
def required (cs : List ComponentTypeId) : BitVec 64 :=
  cs.foldl (fun mask c => mask ||| (1#64 <<< c.val)) 0

/-- What an iteration hands out at a slot, if it visits the slot. -/
def visitSlot (w : World T) (cs : List ComponentTypeId) (idx : Nat) :
    Option (Nat × List (Σ c, Option (T c))) :=
  match w.records[idx]? with
  | none => none
  | some r =>
      if r.alive ∧ r.componentMask &&& required cs = required cs then
        some (idx, cs.map fun c => ⟨c, w.component c idx⟩)
      else none

/-- The slots that an iteration visits, each with the components it is handed. -/
def forEach (w : World T) (cs : List ComponentTypeId) :
    List (Nat × List (Σ c, Option (T c))) :=
  (List.range' 1 (w.records.length - 1)).filterMap (w.visitSlot cs)

def entityCount (w : World T) : Nat := w.records.length - 1 - w.freeList.length

end World

/-! ## Sequences of operations -/

inductive Op (T : ComponentTypeId → Type)
  | register (c : ComponentTypeId)
  | create
  | destroy (e : EntityHandle)
  | add (c : ComponentTypeId) (e : EntityHandle)
  | remove (c : ComponentTypeId) (e : EntityHandle)
  | write (c : ComponentTypeId) (e : EntityHandle) (v : T c)

/-- What an operation did. -/
inductive Event (T : ComponentTypeId → Type)
  | registered (c : ComponentTypeId)
  | created (e : EntityHandle)
  | destroyed (e : EntityHandle)
  /-- A handle that is stale is not destroyed. -/
  | ignored
  | added (c : ComponentTypeId) (e : EntityHandle)
  | removed (c : ComponentTypeId) (e : EntityHandle)
  | wrote (c : ComponentTypeId) (e : EntityHandle) (v : T c)

namespace World

variable {T : ComponentTypeId → Type} [∀ c, Inhabited (T c)]

/-- One operation, unless an assertion fails. -/
def exec (w : World T) : Op T → Option (Event T × World T)
  | .register c => (w.registerComponent c).map fun w => (.registered c, w)
  | .create => w.createEntity.map fun r => (.created r.1, r.2)
  | .destroy e =>
      (w.destroyEntity e).map fun w' => (if w.isAlive e then .destroyed e else .ignored, w')
  | .add c e => (w.addComponent c e).map fun w => (.added c e, w)
  | .remove c e => (w.removeComponent c e).map fun w => (.removed c e, w)
  | .write c e v => (w.writeComponent c e v).map fun w => (.wrote c e v, w)

/-- A sequence of operations, with what they did. -/
def run (w : World T) : List (Op T) → Option (List (Event T) × World T)
  | [] => some ([], w)
  | o :: ops =>
      match w.exec o with
      | none => none
      | some (ev, w') => (w'.run ops).map fun r => (ev :: r.1, r.2)

end World

end EcsStorage

end EarthRise
