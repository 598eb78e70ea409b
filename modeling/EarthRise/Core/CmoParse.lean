import EarthRise.Lib.BinaryFile

/-!
# The Mesh Parser

The walk over a mesh file: meshes with their materials, submeshes, buffers, extents, bones and
clips, each section with its count in front of it. Counts that are too large are refused, and a
section that runs past the end of the file leaves the cursor with an error that is looked at when
the mesh is done. Buffers are not copied: a span says where in the file they are.

Floats are copied bit by bit, so they are their bits here. Nothing compares one section with
another.

## Main definitions

* `CmoMeshInfo` and its parts: What is returned.
* `readMesh`: One mesh.
* `parseCmo`: The whole file.
-/

namespace EarthRise

namespace Cmo

open BinaryFile

inductive CmoStatus
  | ok
  | truncated
  | tooLarge
  deriving DecidableEq, Repr

structure CmoSubmeshInfo where
  materialIndex : UInt32
  indexBufferIndex : UInt32
  vertexBufferIndex : UInt32
  startIndex : UInt32
  primCount : UInt32
  deriving DecidableEq, Repr

structure CmoMaterialInfo where
  name : List UInt8
  diffuseTexture : List UInt8
  deriving DecidableEq, Repr

structure CmoSkinningVertex where
  boneIndices : List UInt32
  boneWeights : List UInt32
  deriving DecidableEq, Repr

structure CmoBone where
  name : List UInt8
  parentIndex : Int32
  invBindPose : List UInt32
  bindPose : List UInt32
  localTransform : List UInt32
  deriving DecidableEq, Repr

structure CmoKeyframe where
  boneIndex : UInt32
  time : UInt32
  transform : List UInt32
  deriving DecidableEq, Repr

structure CmoAnimationClip where
  name : List UInt8
  startTime : UInt32
  endTime : UInt32
  keyframes : List CmoKeyframe
  deriving DecidableEq, Repr

structure CmoMeshInfo where
  nameLength : UInt32
  materialCount : UInt32
  submeshCount : UInt32
  indexBufferCount : UInt32
  vertexBufferCount : UInt32
  skinningBufferCount : UInt32
  totalIndices : UInt32
  totalVertices : UInt32
  hasSkeletalAnimation : Bool
  centerX : UInt32
  centerY : UInt32
  centerZ : UInt32
  boundingRadius : UInt32
  submeshes : List CmoSubmeshInfo
  materials : List CmoMaterialInfo
  vertexCounts : List UInt32
  indexCounts : List UInt32
  vertexData : List Span
  indexData : List Span
  skinningVertices : List (List CmoSkinningVertex)
  bones : List CmoBone
  animations : List CmoAnimationClip
  deriving DecidableEq, Repr

def cmoMaterialSize : Nat := 132

def cmoVertexSize : Nat := 52

def cmoMaxTextures : Nat := 8

def cmoSaneCountLimit : UInt32 := 100 * 1000 * 1000

/-- In the middle of a file a parser gives up for one reason only. -/
inductive CmoRefusal
  | tooLarge
  deriving DecidableEq, Repr

def CmoRefusal.status : CmoRefusal → CmoStatus
  | .tooLarge => .tooLarge

abbrev Read (α : Type) := Parser CmoRefusal α

variable (file : List UInt8)

/-! ## The cursor -/

def readU32 : Read UInt32 := do
  if ← ensure file 4 then take 4 (u32At file) else pure 0

def readU8 : Read UInt8 := do
  if ← ensure file 1 then take 1 (fun i => file[i]?) else pure 0

/-- A float, as its bits. -/
def readFloat : Read UInt32 := readU32 file

def readI32 : Read Int32 := do
  let bits ← readU32 file
  pure bits.toInt32

/-- Numbers one after the other, whether there is an error or not. -/
@[simp] def readFloats : Nat → Read (List UInt32)
  | 0 => pure []
  | n + 1 => do
      let f ← readFloat file
      let fs ← readFloats n
      pure (f :: fs)

def readMatrix : Read (List UInt32) := readFloats file 16

def skip (bytes : Nat) : Read Unit := do
  if ← ensure file bytes then take bytes (fun _ => some ()) else pure ()

def readSpan (bytes : Nat) : Read Span := do
  if ← ensure file bytes then take bytes (fun i => some ⟨i, bytes⟩) else pure ⟨0, 0⟩

/-- The low bytes of units of two bytes, until the error. -/
@[simp] def readUnits : Nat → Read (List UInt8)
  | 0 => pure []
  | n + 1 => do
      if ← ensure file 2 then
        let c ← take 2 (fun i => file[i]?)
        let s ← readUnits n
        pure (c :: s)
      else pure []

def readName : Read (List UInt8) := do
  let len ← readU32 file
  readUnits file len.toNat

/-! ## Sections -/

/-- A count that is not too large. -/
def readCount : Read UInt32 := do
  let n ← readU32 file
  if n > cmoSaneCountLimit then Parser.fail .tooLarge else pure n

/-- A count, and as many things. -/
def readSection {α : Type} (item : Read α) : Read (UInt32 × List α) := do
  let n ← readCount file
  let items ← readList item n.toNat
  pure (n, items)

@[simp] def readNames : Nat → Read (List (List UInt8))
  | 0 => pure []
  | n + 1 => do
      let s ← readName file
      let ss ← readNames n
      pure (s :: ss)

def readMaterial : Read CmoMaterialInfo := do
  let name ← readName file
  skip file cmoMaterialSize
  let _ ← readName file
  let textures ← readNames file cmoMaxTextures
  pure ⟨name, textures.headD []⟩

def readSubmesh : Read CmoSubmeshInfo := do
  let materialIndex ← readU32 file
  let indexBufferIndex ← readU32 file
  let vertexBufferIndex ← readU32 file
  let startIndex ← readU32 file
  let primCount ← readU32 file
  pure ⟨materialIndex, indexBufferIndex, vertexBufferIndex, startIndex, primCount⟩

/-- The elements of a buffer, and where they are. -/
def readBuffer (elementSize : Nat) : Read (UInt32 × Span) := do
  let n ← readCount file
  let span ← readSpan file (n.toNat * elementSize)
  pure (n, span)

def readSkinningVertex : Read CmoSkinningVertex := do
  let boneIndices ← readFloats file 4
  let boneWeights ← readFloats file 4
  pure ⟨boneIndices, boneWeights⟩

def readSkinningBuffer : Read (UInt32 × List CmoSkinningVertex) :=
  readSection file (readSkinningVertex file)

def readBone : Read CmoBone := do
  let name ← readName file
  let parentIndex ← readI32 file
  let invBindPose ← readMatrix file
  let bindPose ← readMatrix file
  let localTransform ← readMatrix file
  pure ⟨name, parentIndex, invBindPose, bindPose, localTransform⟩

def readKeyframe : Read CmoKeyframe := do
  let boneIndex ← readU32 file
  let time ← readFloat file
  let transform ← readMatrix file
  pure ⟨boneIndex, time, transform⟩

def readClip : Read CmoAnimationClip := do
  let name ← readName file
  let startTime ← readFloat file
  let endTime ← readFloat file
  let keyframes ← readSection file (readKeyframe file)
  pure ⟨name, startTime, endTime, keyframes.2⟩

def readSkeleton (hasSkeletalAnimation : Bool) : Read (List CmoBone × List CmoAnimationClip) :=
  if hasSkeletalAnimation then do
    let bones ← readSection file (readBone file)
    let clips ← readSection file (readClip file)
    pure (bones.2, clips.2)
  else pure ([], [])

def readMesh : Read CmoMeshInfo := do
  let nameLength ← readU32 file
  skip file (nameLength.toNat * 2)
  let materials ← readSection file (readMaterial file)
  let flag ← readU8 file
  let submeshes ← readSection file (readSubmesh file)
  let indexBuffers ← readSection file (readBuffer file 2)
  let vertexBuffers ← readSection file (readBuffer file cmoVertexSize)
  let skinningBuffers ← readSection file (readSkinningBuffer file)
  let centerX ← readFloat file
  let centerY ← readFloat file
  let centerZ ← readFloat file
  let boundingRadius ← readFloat file
  skip file (4 * 6)
  let skeleton ← readSkeleton file (flag != 0)
  pure {
    nameLength := nameLength
    materialCount := materials.1
    submeshCount := submeshes.1
    indexBufferCount := indexBuffers.1
    vertexBufferCount := vertexBuffers.1
    skinningBufferCount := skinningBuffers.1
    totalIndices := (indexBuffers.2.map Prod.fst).foldl (· + ·) 0
    totalVertices := (vertexBuffers.2.map Prod.fst).foldl (· + ·) 0
    hasSkeletalAnimation := flag != 0
    centerX := centerX
    centerY := centerY
    centerZ := centerZ
    boundingRadius := boundingRadius
    submeshes := submeshes.2
    materials := materials.2
    vertexCounts := vertexBuffers.2.map Prod.fst
    indexCounts := indexBuffers.2.map Prod.fst
    vertexData := vertexBuffers.2.map Prod.snd
    indexData := indexBuffers.2.map Prod.snd
    skinningVertices := skinningBuffers.2.map Prod.snd
    bones := skeleton.1
    animations := skeleton.2 }

/-- The meshes that are to go. Those that were read before an error are kept. -/
@[simp] def parseMeshes : Nat → Cursor → List CmoMeshInfo → Option (CmoStatus × List CmoMeshInfo)
  | 0, c, out => some (if c.overran then .truncated else .ok, out)
  | n + 1, c, out =>
      if c.ok then
        match readMesh file c with
        | none => none
        | some (.error e) => some (e.status, out)
        | some (.ok (mesh, c)) =>
            if !c.ok then some (.truncated, out) else parseMeshes n c (out ++ [mesh])
      else some (if c.overran then .truncated else .ok, out)

def parseCmo : Option (CmoStatus × List CmoMeshInfo) :=
  match readU32 file .start with
  | none => none
  | some (.error e) => some (e.status, [])
  | some (.ok (meshCount, c)) =>
      if !c.ok then some (.truncated, [])
      else if meshCount > cmoSaneCountLimit then some (.tooLarge, [])
      else parseMeshes file meshCount.toNat c []

end Cmo

end EarthRise
