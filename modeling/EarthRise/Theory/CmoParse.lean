import EarthRise.Core.CmoParse

/-!
# Accepted Meshes

What a mesh file says, as a layout: relations between where a section starts, what it holds and
where it ends. A file that is accepted has this layout, so all counts are those that were declared,
and the buffers stand one after the other inside the file. No read leaves the file, whatever bytes
it has.

The layout of a mesh says nothing about what its submeshes refer to, and neither does the parser.

## Main definitions

* `NameAt`, `SectionAt`, `BufferAt`: Names, counted sections and buffers.
* `MeshAt`: One mesh.
* `Accepted`: What holds of the meshes of a file.

## Theorems

* `readMesh_reads`: The parser of a mesh reads the layout of a mesh.
* `parseCmo_accepts`: Every file is read without leaving it, and what is accepted is as declared.
* `dangling_submesh_accepted`: A submesh of a material that does not exist.
-/

namespace EarthRise

namespace Cmo

open BinaryFile

variable (file : List UInt8)

/-! ## Layouts -/

def U32At (i : Nat) (v : UInt32) (j : Nat) : Prop := u32At file i = some v ∧ j = i + 4

def FloatsAt (n i : Nat) (l : List UInt32) (j : Nat) : Prop :=
  l.length = n ∧ Items (U32At file) i l j

/-- The length of a name and the low bytes of its units. -/
def NameAt (i : Nat) (s : List UInt8) (j : Nat) : Prop :=
  ∃ n, u32At file i = some n ∧ s.length = n.toNat ∧
    Items (fun i c j => file[i]? = some c ∧ j = i + 2) (i + 4) s j

/-- A count and as many things. -/
def SectionAt {α : Type} (At : Nat → α → Nat → Prop) (i : Nat) (l : UInt32 × List α) (j : Nat) :
    Prop :=
  u32At file i = some l.1 ∧ l.1 ≤ cmoSaneCountLimit ∧ l.2.length = l.1.toNat ∧
    Items At (i + 4) l.2 j

/-- A name, numbers, the name of a shader and the names of eight textures. -/
def MaterialAt (i : Nat) (m : CmoMaterialInfo) (j : Nat) : Prop :=
  ∃ k shader k' textures, NameAt file i m.name k ∧ NameAt file (k + cmoMaterialSize) shader k' ∧
    textures.length = cmoMaxTextures ∧ Items (NameAt file) k' textures j ∧
    m.diffuseTexture = textures.headD []

def SubmeshAt (i : Nat) (s : CmoSubmeshInfo) (j : Nat) : Prop :=
  u32At file i = some s.materialIndex ∧ u32At file (i + 4) = some s.indexBufferIndex ∧
    u32At file (i + 8) = some s.vertexBufferIndex ∧ u32At file (i + 12) = some s.startIndex ∧
    u32At file (i + 16) = some s.primCount ∧ j = i + 20

/-- A count and as many elements. -/
def BufferAt (elementSize i : Nat) (b : UInt32 × Span) (j : Nat) : Prop :=
  u32At file i = some b.1 ∧ b.1 ≤ cmoSaneCountLimit ∧ b.2.offset = i + 4 ∧
    b.2.size = b.1.toNat * elementSize ∧ j = b.2.stop

def SkinningVertexAt (i : Nat) (v : CmoSkinningVertex) (j : Nat) : Prop :=
  ∃ k, FloatsAt file 4 i v.boneIndices k ∧ FloatsAt file 4 k v.boneWeights j

def BoneAt (i : Nat) (b : CmoBone) (j : Nat) : Prop :=
  ∃ k parent k' k'', NameAt file i b.name k ∧ u32At file k = some parent ∧
    b.parentIndex = parent.toInt32 ∧ FloatsAt file 16 (k + 4) b.invBindPose k' ∧
    FloatsAt file 16 k' b.bindPose k'' ∧ FloatsAt file 16 k'' b.localTransform j

def KeyframeAt (i : Nat) (f : CmoKeyframe) (j : Nat) : Prop :=
  u32At file i = some f.boneIndex ∧ u32At file (i + 4) = some f.time ∧
    FloatsAt file 16 (i + 8) f.transform j

def ClipAt (i : Nat) (c : CmoAnimationClip) (j : Nat) : Prop :=
  ∃ k n, NameAt file i c.name k ∧ u32At file k = some c.startTime ∧
    u32At file (k + 4) = some c.endTime ∧
    SectionAt file (KeyframeAt file) (k + 8) (n, c.keyframes) j

/-- Bones and clips, if there are any. -/
def SkeletonAt (present : Bool) (i : Nat) (bones : List CmoBone) (clips : List CmoAnimationClip)
    (j : Nat) : Prop :=
  if present then
    ∃ n k n', SectionAt file (BoneAt file) i (n, bones) k ∧
      SectionAt file (ClipAt file) k (n', clips) j
  else bones = [] ∧ clips = [] ∧ i = j

/-- A mesh: where its sections start, and that they are as they were declared. -/
structure MeshAt (i : Nat) (m : CmoMeshInfo) (j : Nat) : Prop where
  sections : ∃ p₁ p₂ p₃ p₄ p₅ p₆ flag, ∃ indices vertices : List (UInt32 × Span),
    ∃ skinning : List (UInt32 × List CmoSkinningVertex),
    u32At file i = some m.nameLength ∧ p₁ = i + 4 + m.nameLength.toNat * 2 ∧
    SectionAt file (MaterialAt file) p₁ (m.materialCount, m.materials) p₂ ∧
    file[p₂]? = some flag ∧ m.hasSkeletalAnimation = (flag != 0) ∧
    SectionAt file (SubmeshAt file) (p₂ + 1) (m.submeshCount, m.submeshes) p₃ ∧
    SectionAt file (BufferAt file 2) p₃ (m.indexBufferCount, indices) p₄ ∧
    m.indexCounts = indices.map Prod.fst ∧ m.indexData = indices.map Prod.snd ∧
    SectionAt file (BufferAt file cmoVertexSize) p₄ (m.vertexBufferCount, vertices) p₅ ∧
    m.vertexCounts = vertices.map Prod.fst ∧ m.vertexData = vertices.map Prod.snd ∧
    SectionAt file (SectionAt file (SkinningVertexAt file)) p₅
      (m.skinningBufferCount, skinning) p₆ ∧
    m.skinningVertices = skinning.map Prod.snd ∧
    u32At file p₆ = some m.centerX ∧ u32At file (p₆ + 4) = some m.centerY ∧
    u32At file (p₆ + 8) = some m.centerZ ∧ u32At file (p₆ + 12) = some m.boundingRadius ∧
    SkeletonAt file m.hasSkeletalAnimation (p₆ + 40) m.bones m.animations j

/-! ## Reads -/

section

variable {file}

theorem readU32_reads : Reads file (readU32 file) (U32At file) :=
  ReadsWith.ensure (ReadsWith.take fun _ h => u32At_some h) (ReadsWith.pure 0)

theorem readU8_reads : Reads file (readU8 file) (fun i v j => file[i]? = some v ∧ j = i + 1) :=
  ReadsWith.ensure (ReadsWith.take fun _ h => byte_some h) (ReadsWith.pure 0)

theorem skip_reads (bytes : Nat) :
    Reads file (skip file bytes) (fun i _ j => j = i + bytes) :=
  (ReadsWith.ensure (ReadsWith.take fun _ _ => ⟨(), rfl⟩) (ReadsWith.pure ())).mono
    fun _ _ _ _ h => h.2

theorem readSpan_reads (bytes : Nat) :
    Reads file (readSpan file bytes) (fun i s j => s = ⟨i, bytes⟩ ∧ j = i + bytes) :=
  (ReadsWith.ensure (ReadsWith.take fun i _ => ⟨⟨i, bytes⟩, rfl⟩) (ReadsWith.pure _)).mono
    fun _ _ _ _ h => ⟨(Option.some.inj h.1).symm, h.2⟩

theorem readFloats_reads (n : Nat) : Reads file (readFloats file n) (FloatsAt file n) := by
  induction n with
  | zero =>
      refine (ReadsWith.pure ([] : List UInt32)).mono fun i l j _ h => ?_
      rcases h with ⟨rfl, rfl⟩
      exact ⟨rfl, .nil i⟩
  | succ n ih =>
      refine (readU32_reads.bind fun f => ih.bind fun fs => ReadsWith.pure (f :: fs)).mono
        fun i l j _ h => ?_
      rcases h with ⟨f, k, hle, _, hf, fs, k', _, _, ⟨hlength, hfs⟩, rfl, rfl⟩
      exact ⟨congrArg Nat.succ hlength, .cons hle hf hfs⟩

theorem readUnits_reads (n : Nat) : Reads file (readUnits file n)
    (fun i s j => s.length = n ∧ Items (fun i c j => file[i]? = some c ∧ j = i + 2) i s j) := by
  induction n with
  | zero =>
      refine (ReadsWith.pure ([] : List UInt8)).mono fun i l j _ h => ?_
      rcases h with ⟨rfl, rfl⟩
      exact ⟨rfl, .nil i⟩
  | succ n ih =>
      have hunit : ReadsWith file 2 (take 2 fun i => file[i]? : Read UInt8)
          (fun i c j => file[i]? = some c ∧ j = i + 2) :=
        ReadsWith.take fun i h => byte_some (by omega)
      refine (ReadsWith.ensure (hunit.bind fun c => ih.bind fun s => ReadsWith.pure (c :: s))
        (ReadsWith.pure ([] : List UInt8))).mono fun i l j _ h => ?_
      rcases h with ⟨c, k, hle, _, hc, s, k', _, _, ⟨hlength, hs⟩, rfl, rfl⟩
      exact ⟨congrArg Nat.succ hlength, .cons hle hc hs⟩

theorem readName_reads : Reads file (readName file) (NameAt file) := by
  refine (readU32_reads.bind fun len => readUnits_reads len.toNat).mono fun i s j _ h => ?_
  rcases h with ⟨len, k, _, _, ⟨hlen, rfl⟩, hlength, hs⟩
  exact ⟨len, hlen, hlength, hs⟩

theorem readNames_reads (n : Nat) : Reads file (readNames file n)
    (fun i ss j => ss.length = n ∧ Items (NameAt file) i ss j) := by
  induction n with
  | zero =>
      refine (ReadsWith.pure ([] : List (List UInt8))).mono fun i l j _ h => ?_
      rcases h with ⟨rfl, rfl⟩
      exact ⟨rfl, .nil i⟩
  | succ n ih =>
      refine (readName_reads.bind fun s => ih.bind fun ss => ReadsWith.pure (s :: ss)).mono
        fun i l j _ h => ?_
      rcases h with ⟨s, k, hle, _, hs, ss, k', _, _, ⟨hlength, hss⟩, rfl, rfl⟩
      exact ⟨congrArg Nat.succ hlength, .cons hle hs hss⟩

theorem readCount_reads : Reads file (readCount file)
    (fun i n j => u32At file i = some n ∧ n ≤ cmoSaneCountLimit ∧ j = i + 4) := by
  refine (readU32_reads.bind fun n => ReadsWith.ite
    (ReadsWith.fail CmoRefusal.tooLarge) (ReadsWith.pure n)).mono fun i n j _ h => ?_
  rcases h with ⟨n, k, _, _, ⟨hn, rfl⟩, h⟩
  split at h
  · exact absurd h not_false
  · rcases h with ⟨rfl, rfl⟩
    exact ⟨hn, UInt32.not_lt.mp ‹_›, rfl⟩

theorem readSection_reads {α : Type} {item : Read α} {At : Nat → α → Nat → Prop}
    (h : Reads file item At) : Reads file (readSection file item) (SectionAt file At) := by
  refine (readCount_reads.bind fun n => (readList_reads file h n.toNat).bind fun items =>
    ReadsWith.pure (n, items)).mono fun i l j _ hl => ?_
  rcases hl with ⟨n, k, _, _, ⟨hn, hlimit, rfl⟩, items, k', _, _, ⟨hlength, hitems⟩, rfl, rfl⟩
  exact ⟨hn, hlimit, hlength, hitems⟩

theorem readMaterial_reads : Reads file (readMaterial file) (MaterialAt file) := by
  refine (readName_reads.bind fun name => (skip_reads cmoMaterialSize).bind fun _ =>
    readName_reads.bind fun shader => (readNames_reads cmoMaxTextures).bind fun textures =>
      ReadsWith.pure (⟨name, textures.headD []⟩ : CmoMaterialInfo)).mono fun i m j _ h => ?_
  rcases h with ⟨name, k, _, _, hname, _, _, _, _, rfl, shader, k', _, _, hshader,
    textures, k'', _, _, ⟨hlength, htextures⟩, rfl, rfl⟩
  exact ⟨k, shader, k', textures, hname, hshader, hlength, htextures, rfl⟩

theorem readSubmesh_reads : Reads file (readSubmesh file) (SubmeshAt file) := by
  refine (readU32_reads.bind fun a => readU32_reads.bind fun b => readU32_reads.bind fun c =>
    readU32_reads.bind fun d => readU32_reads.bind fun e =>
      ReadsWith.pure (⟨a, b, c, d, e⟩ : CmoSubmeshInfo)).mono fun i s j _ h => ?_
  rcases h with ⟨a, _, _, _, ⟨ha, rfl⟩, b, _, _, _, ⟨hb, rfl⟩, c, _, _, _, ⟨hc, rfl⟩,
    d, _, _, _, ⟨hd, rfl⟩, e, _, _, _, ⟨he, rfl⟩, rfl, rfl⟩
  exact ⟨ha, hb, hc, hd, he, rfl⟩

theorem readBuffer_reads (elementSize : Nat) :
    Reads file (readBuffer file elementSize) (BufferAt file elementSize) := by
  refine (readCount_reads.bind fun n => (readSpan_reads (n.toNat * elementSize)).bind fun span =>
    ReadsWith.pure (n, span)).mono fun i b j _ h => ?_
  rcases h with ⟨n, _, _, _, ⟨hn, hlimit, rfl⟩, span, _, _, _, ⟨rfl, rfl⟩, rfl, rfl⟩
  exact ⟨hn, hlimit, rfl, rfl, rfl⟩

theorem readSkinningVertex_reads :
    Reads file (readSkinningVertex file) (SkinningVertexAt file) := by
  refine ((readFloats_reads 4).bind fun indices => (readFloats_reads 4).bind fun weights =>
    ReadsWith.pure (⟨indices, weights⟩ : CmoSkinningVertex)).mono fun i v j _ h => ?_
  rcases h with ⟨indices, k, _, _, hindices, weights, k', _, _, hweights, rfl, rfl⟩
  exact ⟨k, hindices, hweights⟩

theorem readBone_reads : Reads file (readBone file) (BoneAt file) := by
  refine (readName_reads.bind fun name =>
    (readU32_reads.bind fun bits => ReadsWith.pure bits.toInt32).bind fun parent =>
    (readFloats_reads 16).bind fun inv => (readFloats_reads 16).bind fun bind =>
    (readFloats_reads 16).bind fun local' =>
      ReadsWith.pure (⟨name, parent, inv, bind, local'⟩ : CmoBone)).mono fun i b j _ h => ?_
  rcases h with ⟨name, k, _, _, hname, parent, _, _, _, ⟨bits, _, _, _, ⟨hbits, rfl⟩, rfl, rfl⟩,
    inv, k', _, _, hinv, bind, k'', _, _, hbind, local', k₃, _, _, hlocal, rfl, rfl⟩
  exact ⟨k, bits, k', k'', hname, hbits, rfl, hinv, hbind, hlocal⟩

theorem readKeyframe_reads : Reads file (readKeyframe file) (KeyframeAt file) := by
  refine (readU32_reads.bind fun bone => readU32_reads.bind fun time =>
    (readFloats_reads 16).bind fun transform =>
      ReadsWith.pure (⟨bone, time, transform⟩ : CmoKeyframe)).mono fun i f j _ h => ?_
  rcases h with ⟨bone, _, _, _, ⟨hbone, rfl⟩, time, _, _, _, ⟨htime, rfl⟩, transform, k, _, _,
    htransform, rfl, rfl⟩
  exact ⟨hbone, htime, htransform⟩

theorem readClip_reads : Reads file (readClip file) (ClipAt file) := by
  refine (readName_reads.bind fun name => readU32_reads.bind fun start =>
    readU32_reads.bind fun stop => (readSection_reads readKeyframe_reads).bind fun frames =>
      ReadsWith.pure (⟨name, start, stop, frames.2⟩ : CmoAnimationClip)).mono fun i c j _ h => ?_
  rcases h with ⟨name, k, _, _, hname, start, _, _, _, ⟨hstart, rfl⟩, stop, _, _, _, ⟨hstop, rfl⟩,
    frames, k', _, _, hframes, rfl, rfl⟩
  exact ⟨k, frames.1, hname, hstart, hstop, hframes⟩

theorem readSkeleton_reads (present : Bool) : Reads file (readSkeleton file present)
    (fun i s j => SkeletonAt file present i s.1 s.2 j) := by
  unfold readSkeleton SkeletonAt
  refine (ReadsWith.ite ((readSection_reads readBone_reads).bind fun bones =>
    (readSection_reads readClip_reads).bind fun clips => ReadsWith.pure (bones.2, clips.2))
      (ReadsWith.pure ([], []))).mono fun i s j _ h => ?_
  split at h
  · rcases h with ⟨bones, k, _, _, hbones, clips, k', _, _, hclips, rfl, rfl⟩
    rw [if_pos ‹_›]
    exact ⟨bones.1, k, clips.1, hbones, hclips⟩
  · rcases h with ⟨rfl, rfl⟩
    rw [if_neg ‹_›]
    exact ⟨rfl, rfl, rfl⟩

/-- The sections of a mesh, each read where the one before it ends. -/
theorem readMesh_reads : Reads file (readMesh file) (MeshAt file) := by
  refine (readU32_reads.bind fun nameLength => (skip_reads (nameLength.toNat * 2)).bind fun _ =>
    (readSection_reads readMaterial_reads).bind fun materials => readU8_reads.bind fun flag =>
    (readSection_reads readSubmesh_reads).bind fun submeshes =>
    (readSection_reads (readBuffer_reads 2)).bind fun indices =>
    (readSection_reads (readBuffer_reads cmoVertexSize)).bind fun vertices =>
    (readSection_reads (readSection_reads readSkinningVertex_reads)).bind fun skinning =>
    readU32_reads.bind fun centerX => readU32_reads.bind fun centerY =>
    readU32_reads.bind fun centerZ => readU32_reads.bind fun boundingRadius =>
    (skip_reads (4 * 6)).bind fun _ => (readSkeleton_reads (flag != 0)).bind fun skeleton =>
      ReadsWith.pure (_ : CmoMeshInfo)).mono fun i m j _ h => ?_
  -- One section after the other; each gives the position of the next one.
  rcases h with ⟨nameLength, _, _, _, ⟨hname, rfl⟩, _, _, _, _, rfl, h⟩
  rcases h with ⟨materials, p₂, _, _, hmaterials, flag, _, _, _, ⟨hflag, rfl⟩, h⟩
  rcases h with ⟨submeshes, p₃, _, _, hsubmeshes, indices, p₄, _, _, hindices, h⟩
  rcases h with ⟨vertices, p₅, _, _, hvertices, skinning, p₆, _, _, hskinning, h⟩
  rcases h with ⟨centerX, _, _, _, ⟨hx, rfl⟩, centerY, _, _, _, ⟨hy, rfl⟩, h⟩
  rcases h with ⟨centerZ, _, _, _, ⟨hz, rfl⟩, boundingRadius, _, _, _, ⟨hr, rfl⟩, h⟩
  rcases h with ⟨_, _, _, _, rfl, skeleton, _, _, _, hskeleton, rfl, rfl⟩
  exact ⟨_, p₂, p₃, p₄, p₅, p₆, flag, indices.2, vertices.2, skinning.2, hname, rfl, hmaterials,
    hflag, rfl, hsubmeshes, hindices, rfl, rfl, hvertices, rfl, rfl, hskinning, rfl, hx, hy, hz,
    hr, hskeleton⟩

theorem CmoRefusal.status_ne_ok (e : CmoRefusal) : e.status ≠ .ok := by
  cases e
  exact CmoStatus.noConfusion

/-- The meshes that are read before the loop ends well are all that were to go. -/
theorem parseMeshes_reads (n : Nat) (c : Cursor) (out : List CmoMeshInfo)
    (hpos : c.pos ≤ file.length) (hok : c.ok = true) :
    ∃ status meshes, parseMeshes file n c out = some (status, out ++ meshes) ∧
      (status = .ok → meshes.length = n ∧
        ∃ j ≤ file.length, Items (MeshAt file) c.pos meshes j) := by
  induction n generalizing c out with
  | zero =>
      refine ⟨if c.overran then .truncated else .ok, [], ?_,
        fun _ => ⟨rfl, c.pos, hpos, .nil _⟩⟩
      rw [parseMeshes, List.append_nil]
  | succ n ih =>
      rw [parseMeshes, if_pos hok]
      rcases readMesh_reads.total c hpos with ⟨r, hr⟩
      rw [hr]
      cases r with
      | error e =>
          exact ⟨e.status, [], by rw [List.append_nil], fun h => absurd h e.status_ne_ok⟩
      | ok mc =>
          rcases mc with ⟨mesh, c'⟩
          cases hok' : c'.ok with
          | false =>
              -- A mesh that runs past the end is not kept.
              refine ⟨.truncated, [], ?_, fun h => CmoStatus.noConfusion h⟩
              simp only [hok', Bool.not_false, if_true, List.append_nil]
          | true =>
              have hpos' := readMesh_reads.inside c mesh c' hpos hr
              rcases readMesh_reads.result c mesh c' hpos hr hok' with ⟨_, hle, hmesh⟩
              rcases ih c' (out ++ [mesh]) hpos' hok' with ⟨status, meshes, heq, hall⟩
              refine ⟨status, mesh :: meshes, ?_, fun hs => ?_⟩
              · simp only [hok', Bool.not_true, Bool.false_eq_true, if_false, heq,
                  List.append_assoc, List.singleton_append]
              · rcases hall hs with ⟨hlength, j, hj, hitems⟩
                exact ⟨congrArg Nat.succ hlength, j, hj, .cons hle hmesh hitems⟩

end

/-! ## Buffers -/

def CmoMeshInfo.spans (m : CmoMeshInfo) : List Span := m.indexData ++ m.vertexData

/-- The numbers of things are those that the mesh declares. -/
structure Counted (m : CmoMeshInfo) : Prop where
  materials : m.materials.length = m.materialCount.toNat
  submeshes : m.submeshes.length = m.submeshCount.toNat
  indexBuffers : m.indexCounts.length = m.indexBufferCount.toNat
  vertexBuffers : m.vertexCounts.length = m.vertexBufferCount.toNat
  skinningBuffers : m.skinningVertices.length = m.skinningBufferCount.toNat
  indexSizes : m.indexData.map Span.size = m.indexCounts.map fun n => n.toNat * 2
  vertexSizes : m.vertexData.map Span.size = m.vertexCounts.map fun n => n.toNat * cmoVertexSize

/-- The meshes of a file that is accepted: as many as declared, each as it is laid out in the file,
with its bones, clips and keyframes if it has any. The buffers are parts of the file, and each ends
before the next one starts. -/
structure Accepted (meshes : List CmoMeshInfo) : Prop where
  declared : ∃ n, u32At file 0 = some n ∧ meshes.length = n.toNat
  layout : ∃ j ≤ file.length, Items (MeshAt file) 4 meshes j
  counted : ∀ m ∈ meshes, Counted m
  inside : ∀ s ∈ meshes.flatMap CmoMeshInfo.spans, s.stop ≤ file.length
  disjoint : (meshes.flatMap CmoMeshInfo.spans).Pairwise fun s t => s.stop ≤ t.offset

section

variable {file} {i j : Nat}

theorem SectionAt.le {α : Type} {At : Nat → α → Nat → Prop} {l : UInt32 × List α}
    (h : SectionAt file At i l j) : i ≤ j := (Nat.le_add_right i 4).trans h.2.2.2.le

theorem SkeletonAt.le {present : Bool} {bones : List CmoBone}
    {clips : List CmoAnimationClip} (h : SkeletonAt file present i bones clips j) : i ≤ j := by
  unfold SkeletonAt at h
  split at h
  · rcases h with ⟨n, k, n', hbones, hclips⟩
    exact hbones.le.trans hclips.le
  · exact h.2.2.le

/-- The buffers of a section, in their order. -/
theorem SectionAt.spans {elementSize i j : Nat} {l : UInt32 × List (UInt32 × Span)}
    (h : SectionAt file (BufferAt file elementSize) i l j) :
    Within i (l.2.map Prod.snd) j := by
  rw [List.map_eq_flatMap]
  have hrow := Within.of_items (fun b : UInt32 × Span => [b.2]) h.2.2.2
    fun i b j hb => ⟨hb.2.2.1 ▸ Nat.le_add_right i 4, hb.2.2.2.2.ge⟩
  exact hrow.of_le (Nat.le_add_right i 4)

theorem SectionAt.sizes {elementSize i j : Nat} {l : UInt32 × List (UInt32 × Span)}
    (h : SectionAt file (BufferAt file elementSize) i l j) :
    (l.2.map Prod.snd).map Span.size = (l.2.map Prod.fst).map fun n => n.toNat * elementSize := by
  have hall := h.2.2.2.forall (P := fun b => b.2.size = b.1.toNat * elementSize)
    fun i b j hb => hb.2.2.2.1
  rw [List.map_map, List.map_map]
  exact List.map_congr_left hall

theorem MeshAt.counted {m : CmoMeshInfo} (h : MeshAt file i m j) : Counted m := by
  rcases h.sections with ⟨p₁, p₂, p₃, p₄, p₅, p₆, flag, indices, vertices, skinning, _, _,
    hmaterials, _, _, hsubmeshes, hindices, hic, hid, hvertices, hvc, hvd, hskinning, hsv, _⟩
  constructor
  · exact hmaterials.2.2.1
  · exact hsubmeshes.2.2.1
  · rw [hic, List.length_map]
    exact hindices.2.2.1
  · rw [hvc, List.length_map]
    exact hvertices.2.2.1
  · rw [hsv, List.length_map]
    exact hskinning.2.2.1
  · rw [hic, hid]
    exact hindices.sizes
  · rw [hvc, hvd]
    exact hvertices.sizes

/-- The index buffers of a mesh are in front of its vertex buffers. -/
theorem MeshAt.spans {m : CmoMeshInfo} (h : MeshAt file i m j) :
    Within i m.spans j := by
  rcases h.sections with ⟨p₁, p₂, p₃, p₄, p₅, p₆, flag, indices, vertices, skinning, _, hp₁,
    hmaterials, _, _, hsubmeshes, hindices, _, hid, hvertices, _, hvd, hskinning, _, _, _, _, _,
    hskeleton⟩
  have hstart : i ≤ p₃ := by
    have h₂ := hmaterials.le
    have h₃ := hsubmeshes.le
    omega
  have hend : p₅ ≤ j := by
    have h₆ := hskinning.le
    have h₇ := hskeleton.le
    omega
  unfold CmoMeshInfo.spans
  rw [hid, hvd]
  exact ((hindices.spans.append hvertices.spans).of_le hstart).le_of hend

end

/-- The parser returns on every file and reads nothing outside of it, and what it accepts is laid
out as declared. -/
theorem parseCmo_accepts :
    ∃ status meshes, parseCmo file = some (status, meshes) ∧
      (status = .ok → Accepted file meshes) := by
  have hstart : Cursor.start.pos + 0 ≤ file.length := Nat.zero_le _
  unfold parseCmo
  rcases readU32_reads.total .start hstart with ⟨r, hr⟩
  rw [hr]
  cases r with
  | error e => exact ⟨e.status, [], rfl, fun h => absurd h e.status_ne_ok⟩
  | ok nc =>
      rcases nc with ⟨n, c⟩
      cases hok : c.ok with
      | false => exact ⟨.truncated, [], if_pos (by rw [hok]; rfl), fun h => CmoStatus.noConfusion h⟩
      | true =>
          have hpos := readU32_reads.inside .start n c hstart hr
          rcases readU32_reads.result .start n c hstart hr hok with ⟨_, _, hn, hc⟩
          simp only [hok, Bool.not_true, Bool.false_eq_true, if_false]
          by_cases hlarge : n > cmoSaneCountLimit
          · exact ⟨.tooLarge, [], if_pos hlarge, fun h => CmoStatus.noConfusion h⟩
          rw [if_neg hlarge]
          rcases parseMeshes_reads n.toNat c [] hpos hok with ⟨status, meshes, heq, hall⟩
          refine ⟨status, meshes, heq, fun hs => ?_⟩
          rcases hall hs with ⟨hlength, j, hj, hitems⟩
          rw [hc] at hitems
          have hrow := Within.of_items CmoMeshInfo.spans hitems fun _ _ _ hm => hm.spans
          exact ⟨⟨n, hn, hlength⟩, ⟨j, hj, hitems⟩, hitems.forall fun _ _ _ hm => hm.counted,
            fun s hs => (hrow.inside s hs).2.trans hj, hrow.disjoint⟩

/-- One mesh without materials and buffers, and a submesh that draws from buffers and with a
material that do not exist. -/
def danglingSubmesh : List UInt8 :=
  let u32 (n : UInt8) : List UInt8 := [n, 0, 0, 0]
  u32 1 ++ u32 0 ++ u32 0 ++ [0] ++ u32 1 ++ [7, 7, 7, 7, 1].flatMap u32 ++ u32 0 ++ u32 0 ++
    u32 0 ++ List.replicate 40 0

def danglingMesh : CmoMeshInfo := {
  nameLength := 0
  materialCount := 0
  submeshCount := 1
  indexBufferCount := 0
  vertexBufferCount := 0
  skinningBufferCount := 0
  totalIndices := 0
  totalVertices := 0
  hasSkeletalAnimation := false
  centerX := 0
  centerY := 0
  centerZ := 0
  boundingRadius := 0
  submeshes := [⟨7, 7, 7, 7, 1⟩]
  materials := []
  vertexCounts := []
  indexCounts := []
  vertexData := []
  indexData := []
  skinningVertices := []
  bones := []
  animations := [] }

theorem dangling_submesh_accepted :
    parseCmo danglingSubmesh = some (.ok, [danglingMesh]) ∧
      ∃ s ∈ danglingMesh.submeshes, danglingMesh.materials.length ≤ s.materialIndex.toNat ∧
        danglingMesh.indexCounts.length ≤ s.indexBufferIndex.toNat ∧
        danglingMesh.vertexCounts.length ≤ s.vertexBufferIndex.toNat :=
  ⟨by decide +kernel, _, List.mem_singleton_self _, Nat.zero_le _, Nat.zero_le _, Nat.zero_le _⟩

end Cmo

end EarthRise
