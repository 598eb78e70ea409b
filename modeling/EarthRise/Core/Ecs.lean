import Mathlib.Data.List.Basic

/-!
# The Entity Store

Slots that hold the components of an entity or are free, and handles to them.

A handle is a slot and a generation. Destroying an entity frees its slot and moves
the slot's generation on, which makes every handle to it stale; the generation has
twelve bits. A slot that was freed is given out again before a new one is made, the
one freed last first. Slot zero belongs to the null handle.

The components of an entity are one value here; the code has an array for each
component and a mask of those an entity has.

## Main definitions

* `EntityHandle`, `World`: Handles and slots.
* `World.createEntity`, `World.destroyEntity`: The life of an entity.
* `World.get`, `World.modify`: What a handle leads to.
* `World.alive`, `World.forEach`, `visit`: The living, in the order of their slots.
-/

namespace EarthRise

namespace Ecs

structure EntityHandle where
  index : Nat
  generation : Nat
  deriving DecidableEq, Repr

/-- Generations are below this. -/
def generations : Nat := 4096

/-- A slot; it has components while its entity is alive. -/
structure EntityRecord (C : Type) where
  generation : Nat
  components : Option C
  deriving DecidableEq

/-- The slots, and the free ones with the next to be given out first. -/
structure World (C : Type) where
  records : List (EntityRecord C)
  freeList : List Nat
  deriving DecidableEq

namespace World

variable {C : Type}

def fresh : World C := { records := [⟨0, none⟩], freeList := [] }

/-- The components in a slot. -/
def slot (w : World C) (i : Nat) : Option C := (w.records[i]?).bind EntityRecord.components

/-- The components of an entity, if the handle is not stale. -/
def get (w : World C) (e : EntityHandle) : Option C :=
  if e.index = 0 then none
  else
    match w.records[e.index]? with
    | none => none
    | some r => if r.generation = e.generation then r.components else none

def isAlive (w : World C) (e : EntityHandle) : Bool := (w.get e).isSome

/-- A new entity with its components. -/
def createEntity (w : World C) (c : C) : EntityHandle × World C :=
  match w.freeList with
  | idx :: rest =>
      let gen := (w.records[idx]?).elim 0 EntityRecord.generation
      (⟨idx, gen⟩, { records := w.records.set idx ⟨gen, some c⟩, freeList := rest })
  | [] => (⟨w.records.length, 0⟩, { w with records := w.records ++ [⟨0, some c⟩] })

def destroyEntity (w : World C) (e : EntityHandle) : World C :=
  if w.isAlive e then
    { records := w.records.set e.index ⟨(e.generation + 1) % generations, none⟩
      freeList := e.index :: w.freeList }
  else w

/-- Change the components in a slot. -/
def modifyAt (w : World C) (i : Nat) (f : C → C) : World C :=
  { w with records := w.records.modify i fun r => { r with components := r.components.map f } }

/-- Change an entity's components, if the handle is not stale. -/
def modify (w : World C) (e : EntityHandle) (f : C → C) : World C :=
  if w.isAlive e then w.modifyAt e.index f else w

/-- The living in the order of their slots, which is the order of every iteration. -/
def alive (w : World C) : List C := w.records.filterMap EntityRecord.components

/-- Change the components of every living entity, each by itself. -/
def forEach (w : World C) (f : C → C) : World C :=
  { w with records := w.records.map fun r => { r with components := r.components.map f } }

end World

/-- Visit the living in the order of their slots, of as many slots as there are at the
    start. What a visit does to the others is seen by the visits after it. -/
def visit {S C : Type} (world : S → World C) (body : S → Nat → C → S) (s : S) : S :=
  (List.range (world s).records.length).foldl
    (fun s i => ((world s).slot i).elim s (body s i)) s

end Ecs

end EarthRise
