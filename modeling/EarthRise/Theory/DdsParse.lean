import EarthRise.Core.DdsParse
import Mathlib.Data.Nat.Basic

/-!
# The Layout of Mip Levels

The levels of a texture in exact numbers, and in the words that the code computes with. A row of
pixels may take more bytes than a word of thirty-two bits can say, and rounding a size up to whole
blocks may pass the greatest word. Then the pitch is what is left of it, the layout is too small,
and a file that is too short for the texture is taken to hold it.

Levels get smaller, so the first one decides: where its rows and its height have room, those of all
others have. Offsets are in words of sixty-four bits, and the end of the last one has to have room.

## Main definitions

* `dim`, `rowBytes`, `rowCount`, `sliceBytes`: The layout of a level.
* `rowBytes32`, `rowCount32`, `sliceBytes32`: The same in words of thirty-two bits.
* `offsetAt`, `wordAt`: Where a level starts, in exact numbers and in words.
* `Exact`: The result is the layout, as far as the file holds it.
* `Narrow`, `InWords`: The rows and the height of the first level have room in a word; and so has
  the whole texture.

## Theorems

* `accepted_of_parseDds`: What is known of a texture whose header was accepted.
* `enumerate_spec`: What the loop computes.
* `exact_iff`: When the result is the layout.
* `wide_texture_misplaced`: A texture of one row that is too wide.
-/

namespace EarthRise

namespace Dds

/-- The size of a level, half of the one before and one at least. -/
def dim (n i : Nat) : Nat := max 1 (n / 2 ^ i)

def blockBytes (img : DdsImage) : Nat := (bcBlockBytes img.format).toNat

/-- The bytes of a row of pixels, or of blocks of four pixels. -/
def rowBytes (img : DdsImage) (w : Nat) : Nat :=
  if img.blockCompressed then (w + 3) / 4 * blockBytes img else w * 4

def rowCount (img : DdsImage) (h : Nat) : Nat := if img.blockCompressed then (h + 3) / 4 else h

def sliceBytes (img : DdsImage) (i : Nat) : Nat :=
  rowBytes img (dim img.width.toNat i) * rowCount img (dim img.height.toNat i)

def rowBytes32 (img : DdsImage) (w : Nat) : Nat :=
  (if img.blockCompressed then (w + 3) % 2 ^ 32 / 4 * blockBytes img else w * 4) % 2 ^ 32

def rowCount32 (img : DdsImage) (h : Nat) : Nat :=
  if img.blockCompressed then (h + 3) % 2 ^ 32 / 4 else h

def sliceBytes32 (img : DdsImage) (i : Nat) : Nat :=
  rowBytes32 img (dim img.width.toNat i) * rowCount32 img (dim img.height.toNat i)

/-- Where a level starts, if the slices of the levels are contiguous. -/
def offsetAt (slice : Nat → Nat) (base : Nat) : Nat → Nat
  | 0 => base
  | i + 1 => offsetAt slice base i + slice i

/-- Where a level starts in the words of the code. -/
def wordAt (img : DdsImage) (i : Nat) : Nat :=
  offsetAt (sliceBytes32 img) img.dataOffset.toNat i % 2 ^ 64

/-- A level as it is in exact numbers. -/
structure LevelAt (img : DdsImage) (fileSize i : Nat) (sr : DdsSubresource) : Prop where
  width : sr.width.toNat = dim img.width.toNat i
  height : sr.height.toNat = dim img.height.toNat i
  rowPitch : sr.rowPitch.toNat = rowBytes img sr.width.toNat
  numRows : sr.numRows.toNat = rowCount img sr.height.toNat
  slicePitch : sr.slicePitch.toNat = sliceBytes img i
  offset : sr.offset.toNat = offsetAt (sliceBytes img) img.dataOffset.toNat i
  inside : sr.offset.toNat + sr.slicePitch.toNat ≤ fileSize

/-- The levels are all there, each as it is, if the file holds them, and only then. -/
structure Exact (img : DdsImage) (fileSize : Nat) (result : Bool × List DdsSubresource) : Prop where
  levels : result.1 = true → result.2.length = img.mipCount.toNat ∧
    ∀ i sr, result.2[i]? = some sr → LevelAt img fileSize i sr
  fits : result.1 = true ↔
    offsetAt (sliceBytes img) img.dataOffset.toNat img.mipCount.toNat ≤ fileSize

/-- The rows of the first level have room in a word, and so has its height, rounded up. -/
def Narrow (img : DdsImage) : Prop :=
  rowBytes img img.width.toNat < 2 ^ 32 ∧
    (img.blockCompressed = true → img.height.toNat + 3 < 2 ^ 32)

instance (img : DdsImage) : Decidable (Narrow img) := inferInstanceAs (Decidable (_ ∧ _))

/-- The texture fits the words of the code, the rows and the offsets alike. -/
def InWords (img : DdsImage) : Prop :=
  Narrow img ∧ offsetAt (sliceBytes img) img.dataOffset.toNat img.mipCount.toNat < 2 ^ 64

/-! ## Headers -/

/-- What is known of a texture whose header was accepted. -/
structure Accepted (img : DdsImage) : Prop where
  width : 1 ≤ img.width.toNat
  height : 1 ≤ img.height.toNat
  mipCount : 1 ≤ img.mipCount.toNat
  blocks : img.blockCompressed = true → blockBytes img = 8 ∨ blockBytes img = 16
  dataOffset : img.dataOffset.toNat ≤ 148

variable {v : UInt32}

theorem pos_of_ne_zero (h : v ≠ 0) : 1 ≤ v.toNat :=
  Nat.one_le_iff_ne_zero.mpr fun h0 => h (UInt32.toNat_inj.mp h0)

variable {file : List UInt8}

/-- A format of blocks has blocks of eight or sixteen bytes. -/
theorem pixelFormat_blocks {pf : PixelFormat} {format : DxgiFormat}
    {blocks : Bool} {dataOffset : UInt64}
    (h : pixelFormat file pf = some (.inr (format, blocks, dataOffset))) :
    (blocks = true → (bcBlockBytes format).toNat = 8 ∨ (bcBlockBytes format).toNat = 16) ∧
      dataOffset.toNat ≤ 148 := by
  have hdxgi : ∀ dxgi format blocks, dxgiFormat dxgi = some (format, blocks) → blocks = true →
      (bcBlockBytes format).toNat = 8 ∨ (bcBlockBytes format).toNat = 16 := by
    intro dxgi format blocks hformat hblocks
    unfold dxgiFormat at hformat
    split_ifs at hformat
    all_goals
      simp only [Option.some.injEq, Prod.mk.injEq] at hformat
      rcases hformat with ⟨rfl, rfl⟩
      first
        | exact Or.inl rfl
        | exact Or.inr rfl
        | exact absurd hblocks Bool.false_ne_true
  have hfour : ∀ fourCC format, fourCCFormat fourCC = some format →
      (bcBlockBytes format).toNat = 8 ∨ (bcBlockBytes format).toNat = 16 := by
    intro fourCC format hformat
    unfold fourCCFormat at hformat
    split_ifs at hformat
    all_goals
      rw [Option.some.injEq] at hformat
      rw [← hformat]
      first
        | exact Or.inl rfl
        | exact Or.inr rfl
  unfold pixelFormat at h
  by_cases hfourCC : pf.flags &&& ddpfFourCC ≠ 0
  · simp only [if_pos hfourCC] at h
    by_cases hten : pf.fourCC = makeFourCC 'D' 'X' '1' '0'
    · rw [if_pos hten] at h
      by_cases hshort : file.length < ddsMagicSize + ddsHeaderSize + ddsDxt10Size
      · rw [if_pos hshort] at h
        exact absurd (Option.some.inj h) Sum.inl_ne_inr
      · rw [if_neg hshort] at h
        rcases Option.bind_eq_some_iff.mp h with ⟨dxgi, _, h⟩
        cases hformat : dxgiFormat dxgi with
        | none =>
            rw [hformat] at h
            exact absurd (Option.some.inj h) Sum.inl_ne_inr
        | some fb =>
            rw [hformat] at h
            have heq := Sum.inr.inj (Option.some.inj h)
            simp only [Prod.mk.injEq] at heq
            rcases heq with ⟨rfl, rfl, rfl⟩
            exact ⟨hdxgi dxgi fb.1 fb.2 hformat, by decide⟩
    · rw [if_neg hten] at h
      cases hformat : fourCCFormat pf.fourCC with
      | none =>
          rw [hformat] at h
          exact absurd (Option.some.inj h) Sum.inl_ne_inr
      | some f =>
          rw [hformat] at h
          have heq := Sum.inr.inj (Option.some.inj h)
          simp only [Prod.mk.injEq] at heq
          rcases heq with ⟨rfl, rfl, rfl⟩
          exact ⟨fun _ => hfour pf.fourCC f hformat, by decide⟩
  · simp only [if_neg hfourCC] at h
    by_cases hrgb : pf.flags &&& ddpfRgb ≠ 0
    · rw [if_pos hrgb] at h
      cases hformat : rgbFormat pf with
      | none =>
          rw [hformat] at h
          exact absurd (Option.some.inj h) Sum.inl_ne_inr
      | some f =>
          rw [hformat] at h
          have heq := Sum.inr.inj (Option.some.inj h)
          simp only [Prod.mk.injEq] at heq
          rcases heq with ⟨rfl, rfl, rfl⟩
          exact ⟨fun hblocks => absurd hblocks Bool.false_ne_true, by decide⟩
    · rw [if_neg hrgb] at h
      exact absurd (Option.some.inj h) Sum.inl_ne_inr

theorem pixelFormat_refused {pf : PixelFormat} {status : DdsStatus}
    (h : pixelFormat file pf = some (.inl status)) : status ≠ .ok := by
  rintro rfl
  unfold pixelFormat at h
  by_cases hfourCC : pf.flags &&& ddpfFourCC ≠ 0
  · simp only [if_pos hfourCC] at h
    by_cases hten : pf.fourCC = makeFourCC 'D' 'X' '1' '0'
    · rw [if_pos hten] at h
      split at h
      · exact DdsStatus.noConfusion (Sum.inl.inj (Option.some.inj h))
      · rcases Option.bind_eq_some_iff.mp h with ⟨dxgi, _, h⟩
        split at h
        · exact DdsStatus.noConfusion (Sum.inl.inj (Option.some.inj h))
        · exact absurd (Option.some.inj h) Sum.inr_ne_inl
    · rw [if_neg hten] at h
      split at h
      · exact DdsStatus.noConfusion (Sum.inl.inj (Option.some.inj h))
      · exact absurd (Option.some.inj h) Sum.inr_ne_inl
  · simp only [if_neg hfourCC] at h
    split at h
    · split at h
      · exact DdsStatus.noConfusion (Sum.inl.inj (Option.some.inj h))
      · exact absurd (Option.some.inj h) Sum.inr_ne_inl
    · exact DdsStatus.noConfusion (Sum.inl.inj (Option.some.inj h))

theorem accepted_of_parseHeader {out img : DdsImage}
    (h : parseHeader file out = some (.ok, img)) : Accepted img := by
  unfold parseHeader at h
  rcases Option.bind_eq_some_iff.mp h with ⟨height, _, h⟩
  rcases Option.bind_eq_some_iff.mp h with ⟨width, _, h⟩
  rcases Option.bind_eq_some_iff.mp h with ⟨mipCount, _, h⟩
  rcases Option.bind_eq_some_iff.mp h with ⟨flags, _, h⟩
  rcases Option.bind_eq_some_iff.mp h with ⟨fourCC, _, h⟩
  rcases Option.bind_eq_some_iff.mp h with ⟨rgbBitCount, _, h⟩
  rcases Option.bind_eq_some_iff.mp h with ⟨rMask, _, h⟩
  rcases Option.bind_eq_some_iff.mp h with ⟨gMask, _, h⟩
  rcases Option.bind_eq_some_iff.mp h with ⟨bMask, _, h⟩
  rcases Option.bind_eq_some_iff.mp h with ⟨aMask, _, h⟩
  by_cases hzero : width = 0 ∨ height = 0
  · rw [if_pos hzero] at h
    have hstatus : DdsStatus.badDimensions = .ok := congrArg Prod.fst (Option.some.inj h)
    exact DdsStatus.noConfusion hstatus
  rw [if_neg hzero] at h
  rcases Option.bind_eq_some_iff.mp h with ⟨r, hformat, h⟩
  match r, hformat, h with
  | .inl status, hformat, h =>
      -- A format that is refused is not accepted.
      have hstatus : status = .ok := congrArg Prod.fst (Option.some.inj h)
      exact absurd hstatus (pixelFormat_refused hformat)
  | .inr (format, blocks, dataOffset), hformat, h =>
      have himg : { out with
          width := width, height := height, mipCount := if mipCount = 0 then 1 else mipCount
          format := format, blockCompressed := blocks, dataOffset := dataOffset } = img :=
        congrArg Prod.snd (Option.some.inj h)
      rcases pixelFormat_blocks hformat with ⟨hblocks, hoffset⟩
      rw [← himg]
      refine ⟨pos_of_ne_zero fun h0 => hzero (.inl h0), pos_of_ne_zero fun h0 => hzero (.inr h0),
        ?_, hblocks, hoffset⟩
      show 1 ≤ (if mipCount = 0 then 1 else mipCount : UInt32).toNat
      split
      · decide
      · exact pos_of_ne_zero ‹_›

theorem accepted_of_parseDds {out img : DdsImage}
    (h : parseDds file out = some (.ok, img)) : Accepted img := by
  unfold parseDds at h
  split at h
  · split at h
    · exact DdsStatus.noConfusion (congrArg Prod.fst (Option.some.inj h))
    · rcases Option.bind_eq_some_iff.mp h with ⟨magic, _, h⟩
      have hstatus := congrArg Prod.fst (Option.some.inj h)
      dsimp only at hstatus
      split at hstatus
      · exact DdsStatus.noConfusion hstatus
      · exact DdsStatus.noConfusion hstatus
  · rcases Option.bind_eq_some_iff.mp h with ⟨magic, _, h⟩
    split at h
    · exact DdsStatus.noConfusion (congrArg Prod.fst (Option.some.inj h))
    · exact accepted_of_parseHeader h

/-! ## Sizes of levels -/

theorem dim_zero {n : Nat} (h : 1 ≤ n) : dim n 0 = n := by
  unfold dim
  rw [pow_zero, Nat.div_one]
  exact Nat.max_eq_right h

theorem dim_pos (n i : Nat) : 1 ≤ dim n i := Nat.le_max_left 1 _

/-- A level is never larger than the first one. -/
theorem dim_le {n : Nat} (h : 1 ≤ n) (i : Nat) : dim n i ≤ n :=
  Nat.max_le.mpr ⟨h, Nat.div_le_self n (2 ^ i)⟩

theorem dim_succ (n i : Nat) : dim n (i + 1) = if 1 < dim n i then dim n i / 2 else 1 := by
  have hhalf : n / 2 ^ (i + 1) = n / 2 ^ i / 2 := by rw [Nat.pow_succ, Nat.div_div_eq_div_mul]
  unfold dim
  rw [hhalf]
  split <;> omega

theorem half_toNat {n i : Nat} (h : v.toNat = dim n i) :
    (if v > 1 then v / 2 else 1 : UInt32).toNat = dim n (i + 1) := by
  have hgt : v > 1 ↔ 1 < dim n i := by
    rw [gt_iff_lt, UInt32.lt_iff_toNat_lt, h]
    exact Iff.rfl
  rw [dim_succ]
  by_cases h1 : v > 1
  · rw [if_pos h1, if_pos (hgt.mp h1), UInt32.toNat_div, h]
    rfl
  · rw [if_neg h1, if_neg (mt hgt.mpr h1)]
    rfl

theorem at_least_one {n i : Nat} (h : v.toNat = dim n i) :
    (if v = 0 then 1 else v) = v := by
  refine if_neg fun h0 => ?_
  have hpos := dim_pos n i
  rw [← h, h0] at hpos
  exact absurd hpos (by decide)

/-! ## One level in words -/

theorem rowPitch_eq (img : DdsImage) (mw mh : UInt32) (offset : UInt64) :
    (subresource img mw mh offset).rowPitch.toNat = rowBytes32 img mw.toNat := by
  unfold subresource rowBytes32 blockBytes
  dsimp only
  split
  · rw [UInt32.toNat_mul, UInt32.toNat_div, UInt32.toNat_add]
    rfl
  · rw [UInt32.toNat_mul]
    rfl

theorem numRows_eq (img : DdsImage) (mw mh : UInt32) (offset : UInt64) :
    (subresource img mw mh offset).numRows.toNat = rowCount32 img mh.toNat := by
  unfold subresource rowCount32
  dsimp only
  split
  · rw [UInt32.toNat_div, UInt32.toNat_add]
    rfl
  · rfl

/-- The product of two words of thirty-two bits has room in one of sixty-four. -/
theorem slicePitch_eq (img : DdsImage) (mw mh : UInt32) (offset : UInt64) :
    (subresource img mw mh offset).slicePitch.toNat =
      rowBytes32 img mw.toNat * rowCount32 img mh.toNat := by
  have hrow := (subresource img mw mh offset).rowPitch.toNat_lt
  have hcount := (subresource img mw mh offset).numRows.toNat_lt
  have hprod : (subresource img mw mh offset).slicePitch =
      (subresource img mw mh offset).rowPitch.toUInt64 *
        (subresource img mw mh offset).numRows.toUInt64 := rfl
  have hroom : (subresource img mw mh offset).rowPitch.toNat *
      (subresource img mw mh offset).numRows.toNat < 2 ^ 64 :=
    lt_of_lt_of_eq (Nat.mul_lt_mul'' hrow hcount) (pow_add 2 32 32).symm
  rw [hprod, UInt64.toNat_mul, UInt32.toNat_toUInt64, UInt32.toNat_toUInt64,
    Nat.mod_eq_of_lt hroom, rowPitch_eq, numRows_eq]

/-- A level as the code computes it. -/
structure WordLevel (img : DdsImage) (fileSize i : Nat) (sr : DdsSubresource) : Prop where
  width : sr.width.toNat = dim img.width.toNat i
  height : sr.height.toNat = dim img.height.toNat i
  rowPitch : sr.rowPitch.toNat = rowBytes32 img sr.width.toNat
  numRows : sr.numRows.toNat = rowCount32 img sr.height.toNat
  slicePitch : sr.slicePitch.toNat = sliceBytes32 img i
  offset : sr.offset.toNat = wordAt img i
  inside : wordAt img (i + 1) ≤ fileSize

variable {img : DdsImage} {offset : UInt64} {i : Nat}

theorem subresource_level {fileSize i : Nat} {mw mh : UInt32}
    (hw : mw.toNat = dim img.width.toNat i) (hh : mh.toNat = dim img.height.toNat i)
    (hoffset : offset.toNat = wordAt img i) (hfits : wordAt img (i + 1) ≤ fileSize) :
    WordLevel img fileSize i (subresource img mw mh offset) where
  width := hw
  height := hh
  rowPitch := rowPitch_eq img mw mh offset
  numRows := numRows_eq img mw mh offset
  slicePitch := by rw [slicePitch_eq, hw, hh]; rfl
  offset := hoffset
  inside := hfits

theorem offset_succ {mw mh : UInt32}
    (hw : mw.toNat = dim img.width.toNat i) (hh : mh.toNat = dim img.height.toNat i)
    (hoffset : offset.toNat = wordAt img i) :
    (offset + (subresource img mw mh offset).slicePitch).toNat = wordAt img (i + 1) := by
  rw [UInt64.toNat_add, slicePitch_eq, hoffset, hw, hh]
  exact Nat.mod_add_mod _ _ _

/-! ## The loop -/

/-- The loop from a level on: it succeeds if the end of every level is in the file. -/
theorem enumerateFrom_spec {fileSize : UInt64} (n : Nat) {w h : UInt32}
    {out : List DdsSubresource}
    (hw : w.toNat = dim img.width.toNat i) (hh : h.toNat = dim img.height.toNat i)
    (hoffset : offset.toNat = wordAt img i) (hlength : out.length = i)
    (hlevels : ∀ j sr, out[j]? = some sr → WordLevel img fileSize.toNat j sr) :
    ((enumerateFrom img fileSize n w h offset out).1 = true ↔
        ∀ j, i ≤ j → j < i + n → wordAt img (j + 1) ≤ fileSize.toNat) ∧
      ((enumerateFrom img fileSize n w h offset out).1 = true →
        (enumerateFrom img fileSize n w h offset out).2.length = i + n) ∧
      ∀ j sr, (enumerateFrom img fileSize n w h offset out).2[j]? = some sr →
        WordLevel img fileSize.toNat j sr := by
  induction n generalizing i w h offset out with
  | zero =>
      refine ⟨⟨fun _ j hle hlt => by omega, fun _ => rfl⟩, fun _ => hlength, hlevels⟩
  | succ n ih =>
      have hnext := offset_succ hw hh hoffset
      unfold enumerateFrom
      simp only [at_least_one hw, at_least_one hh]
      by_cases hfits : offset + (subresource img w h offset).slicePitch > fileSize
      · rw [if_pos hfits]
        rw [gt_iff_lt, UInt64.lt_iff_toNat_lt, hnext] at hfits
        refine ⟨⟨fun hfalse => absurd hfalse Bool.false_ne_true, fun hall => ?_⟩,
          fun hfalse => absurd hfalse Bool.false_ne_true, hlevels⟩
        have hlast := hall i (Nat.le_refl i) (by omega)
        omega
      · rw [if_neg hfits]
        rw [gt_iff_lt, UInt64.lt_iff_toNat_lt, hnext, Nat.not_lt] at hfits
        have hlevel : WordLevel img fileSize.toNat i (subresource img w h offset) :=
          subresource_level hw hh hoffset hfits
        have hgrown : (out ++ [subresource img w h offset]).length = i + 1 := by
          rw [List.length_append, hlength, List.length_singleton]
        have hlevels' : ∀ j sr, (out ++ [subresource img w h offset])[j]? = some sr →
            WordLevel img fileSize.toNat j sr := by
          intro j sr hj
          rcases Nat.lt_or_ge j out.length with hlt | hge
          · rw [List.getElem?_append_left hlt] at hj
            exact hlevels j sr hj
          · -- Only the level that was just found is behind the others.
            rcases List.getElem?_eq_some_iff.mp hj with ⟨hj', _⟩
            have hji : j = i := by omega
            rw [List.getElem?_append_right hge, hlength, hji, Nat.sub_self] at hj
            rw [hji, ← Option.some.inj hj]
            exact hlevel
        rcases ih (half_toNat hw) (half_toNat hh) hnext hgrown hlevels' with ⟨hiff, hcount, hall⟩
        refine ⟨hiff.trans ⟨fun hj j hle hlt => ?_, fun hj j hle hlt => hj j (by omega) (by omega)⟩,
          fun hok => (hcount hok).trans (by omega), hall⟩
        rcases Nat.eq_or_lt_of_le hle with rfl | hgt
        · exact hfits
        · exact hj j hgt (by omega)

/-- All levels: no more is asked of the file than that the end of each level is in it. -/
theorem enumerate_spec (hacc : Accepted img) (fileSize : UInt64) :
    ((enumerateDdsSubresources img fileSize).1 = true ↔
        ∀ i < img.mipCount.toNat, wordAt img (i + 1) ≤ fileSize.toNat) ∧
      ((enumerateDdsSubresources img fileSize).1 = true →
        (enumerateDdsSubresources img fileSize).2.length = img.mipCount.toNat) ∧
      ∀ i sr, (enumerateDdsSubresources img fileSize).2[i]? = some sr →
        WordLevel img fileSize.toNat i sr := by
  have hblocks : ¬(img.blockCompressed = true ∧ bcBlockBytes img.format = 0) := by
    rintro ⟨hblocks, hzero⟩
    have h8 := hacc.blocks hblocks
    unfold blockBytes at h8
    rw [hzero] at h8
    exact absurd h8 (by decide)
  have hstart : img.dataOffset.toNat = wordAt img 0 :=
    (Nat.mod_eq_of_lt img.dataOffset.toNat_lt).symm
  unfold enumerateDdsSubresources
  rw [if_neg hblocks]
  have hnone : ∀ j sr, ([] : List DdsSubresource)[j]? = some sr →
      WordLevel img fileSize.toNat j sr := by
    intro j sr hj
    rw [List.getElem?_nil] at hj
    exact absurd hj.symm (Option.some_ne_none sr)
  have hspec := enumerateFrom_spec img.mipCount.toNat
    (dim_zero hacc.width).symm (dim_zero hacc.height).symm hstart rfl hnone
  rw [Nat.zero_add] at hspec
  exact ⟨hspec.1.trans ⟨fun hall i hi => hall i (Nat.zero_le i) hi, fun hall i _ hi => hall i hi⟩,
    hspec.2⟩

/-! ## Words and exact numbers -/

theorem rowBytes_mono (img : DdsImage) {v w : Nat} (h : v ≤ w) : rowBytes img v ≤ rowBytes img w := by
  unfold rowBytes
  split
  · exact Nat.mul_le_mul_right _ (Nat.div_le_div_right (Nat.add_le_add_right h 3))
  · exact Nat.mul_le_mul_right _ h

theorem rowBytes32_le (img : DdsImage) (w : Nat) : rowBytes32 img w ≤ rowBytes img w := by
  unfold rowBytes32 rowBytes
  refine le_trans (Nat.mod_le _ _) ?_
  split
  · exact Nat.mul_le_mul_right _ (Nat.div_le_div_right (Nat.mod_le _ _))
  · exact le_rfl

theorem rowCount32_le (img : DdsImage) (h : Nat) : rowCount32 img h ≤ rowCount img h := by
  unfold rowCount32 rowCount
  split
  · exact Nat.div_le_div_right (Nat.mod_le _ _)
  · exact le_rfl

theorem sliceBytes32_le (img : DdsImage) (i : Nat) : sliceBytes32 img i ≤ sliceBytes img i :=
  Nat.mul_le_mul (rowBytes32_le img _) (rowCount32_le img _)

theorem offsetAt_mono {slice slice' : Nat → Nat} (base : Nat) (h : ∀ i, slice i ≤ slice' i)
    (i : Nat) : offsetAt slice base i ≤ offsetAt slice' base i := by
  induction i with
  | zero => exact le_rfl
  | succ i ih => exact Nat.add_le_add ih (h i)

theorem offsetAt_le (slice : Nat → Nat) (base : Nat) {i j : Nat} (h : i ≤ j) :
    offsetAt slice base i ≤ offsetAt slice base j := by
  induction h with
  | refl => exact le_rfl
  | step _ ih => exact le_trans ih (Nat.le_add_right _ _)

/-- A row that has room in a word is the same in words: rounding up does not wrap either. -/
theorem rowBytes32_eq {w : Nat}
    (hblocks : img.blockCompressed = true → blockBytes img = 8 ∨ blockBytes img = 16)
    (h : rowBytes img w < 2 ^ 32) : rowBytes32 img w = rowBytes img w := by
  unfold rowBytes32
  unfold rowBytes at h ⊢
  by_cases hbc : img.blockCompressed = true
  · rw [if_pos hbc] at h
    rw [if_pos hbc, if_pos hbc]
    rcases hblocks hbc with h8 | h16
    · rw [h8] at h ⊢
      omega
    · rw [h16] at h ⊢
      omega
  · rw [if_neg hbc] at h
    rw [if_neg hbc, if_neg hbc]
    exact Nat.mod_eq_of_lt h

theorem rowCount32_eq {h : Nat}
    (hroom : img.blockCompressed = true → h + 3 < 2 ^ 32) :
    rowCount32 img h = rowCount img h := by
  unfold rowCount32 rowCount
  split
  · rw [Nat.mod_eq_of_lt (hroom ‹_›)]
  · rfl

theorem rowBytes_level (hacc : Accepted img) (hnarrow : Narrow img) (i : Nat) :
    rowBytes32 img (dim img.width.toNat i) = rowBytes img (dim img.width.toNat i) :=
  rowBytes32_eq hacc.blocks
    (lt_of_le_of_lt (rowBytes_mono img (dim_le hacc.width i)) hnarrow.1)

theorem rowCount_level (hacc : Accepted img) (hnarrow : Narrow img) (i : Nat) :
    rowCount32 img (dim img.height.toNat i) = rowCount img (dim img.height.toNat i) := by
  refine rowCount32_eq fun hbc => ?_
  have hle := dim_le hacc.height i
  have hroom := hnarrow.2 hbc
  omega

theorem offsetAt_words (hacc : Accepted img) (hwords : InWords img)
    (hi : i ≤ img.mipCount.toNat) :
    wordAt img i = offsetAt (sliceBytes img) img.dataOffset.toNat i := by
  have hslice : sliceBytes32 img = sliceBytes img := by
    funext j
    unfold sliceBytes32 sliceBytes
    rw [rowBytes_level hacc hwords.1, rowCount_level hacc hwords.1]
  unfold wordAt
  rw [hslice]
  exact Nat.mod_eq_of_lt (lt_of_le_of_lt (offsetAt_le _ _ hi) hwords.2)

theorem levelAt_of_words (hacc : Accepted img) (hwords : InWords img)
    {fileSize i : Nat} {sr : DdsSubresource} (hi : i < img.mipCount.toNat)
    (hlevel : WordLevel img fileSize i sr) : LevelAt img fileSize i sr := by
  have hoffset := offsetAt_words hacc hwords (Nat.le_of_lt hi)
  have hnext := offsetAt_words hacc hwords (Nat.succ_le_of_lt hi)
  have hslice : sr.slicePitch.toNat = sliceBytes img i := by
    rw [hlevel.slicePitch]
    unfold sliceBytes32 sliceBytes
    rw [rowBytes_level hacc hwords.1, rowCount_level hacc hwords.1]
  refine ⟨hlevel.width, hlevel.height, ?_, ?_, hslice, hlevel.offset.trans hoffset, ?_⟩
  · rw [hlevel.rowPitch, hlevel.width, rowBytes_level hacc hwords.1]
  · rw [hlevel.numRows, hlevel.height, rowCount_level hacc hwords.1]
  · have hinside := hlevel.inside
    rw [hnext] at hinside
    rw [hlevel.offset, hoffset, hslice]
    exact hinside

/-- A level of the right layout at the front: the first level decides. -/
theorem narrow_of_first (hacc : Accepted img) {fileSize : Nat}
    {sr : DdsSubresource} (hword : WordLevel img fileSize 0 sr) (hlevel : LevelAt img fileSize 0 sr) :
    Narrow img := by
  have hwidth : sr.width.toNat = img.width.toNat := hword.width.trans (dim_zero hacc.width)
  have hheight : sr.height.toNat = img.height.toNat := hword.height.trans (dim_zero hacc.height)
  refine ⟨?_, fun hbc => ?_⟩
  · rw [← hwidth, ← hlevel.rowPitch]
    exact sr.rowPitch.toNat_lt
  · -- Rounding up past the greatest word leaves no row at all.
    have hcount := hword.numRows.symm.trans hlevel.numRows
    have hlt := img.height.toNat_lt
    unfold rowCount32 rowCount at hcount
    rw [if_pos hbc, if_pos hbc, hheight] at hcount
    omega

/-! ## Main results -/

/-- The result is the layout, if the words of the code have room for it. Otherwise it still is if
the file is too short even for what the code takes to be the layout. -/
theorem exact_iff {file : List UInt8} {out img : DdsImage}
    (h : parseDds file out = some (.ok, img)) (fileSize : UInt64) :
    Exact img fileSize.toNat (enumerateDdsSubresources img fileSize) ↔
      InWords img ∨ ∃ i < img.mipCount.toNat, fileSize.toNat < wordAt img (i + 1) := by
  have hacc := accepted_of_parseDds h
  rcases enumerate_spec hacc fileSize with ⟨hiff, hcount, hlevels⟩
  constructor
  · intro hexact
    by_cases hok : (enumerateDdsSubresources img fileSize).1 = true
    · refine .inl ⟨?_, lt_of_le_of_lt (hexact.fits.mp hok) fileSize.toNat_lt⟩
      have hpos : 0 < (enumerateDdsSubresources img fileSize).2.length := by
        rw [hcount hok]
        exact hacc.mipCount
      have hfirst := List.getElem?_eq_getElem hpos
      exact narrow_of_first hacc (hlevels 0 _ hfirst) ((hexact.levels hok).2 0 _ hfirst)
    · rw [hiff] at hok
      push Not at hok
      exact .inr hok
  · rintro (hwords | ⟨i, hi, hlt⟩)
    · refine ⟨fun hok => ⟨hcount hok, fun i sr hsr => ?_⟩,
        hiff.trans ⟨fun hall => ?_, fun hle i hi => ?_⟩⟩
      · rcases List.getElem?_eq_some_iff.mp hsr with ⟨hi, _⟩
        rw [hcount hok] at hi
        exact levelAt_of_words hacc hwords hi (hlevels i sr hsr)
      · -- The end of the last level is the end of the texture.
        have hlast := hall (img.mipCount.toNat - 1) (by have := hacc.mipCount; omega)
        rw [Nat.sub_add_cancel hacc.mipCount, offsetAt_words hacc hwords le_rfl] at hlast
        exact hlast
      · rw [offsetAt_words hacc hwords (Nat.succ_le_of_lt hi)]
        exact le_trans (offsetAt_le _ _ (Nat.succ_le_of_lt hi)) hle
    · -- The file is too short for less than the texture takes.
      have hfail : ¬(enumerateDdsSubresources img fileSize).1 = true := by
        rw [hiff]
        intro hall
        have hle := hall i hi
        omega
      have hshort : fileSize.toNat <
          offsetAt (sliceBytes img) img.dataOffset.toNat img.mipCount.toNat :=
        calc fileSize.toNat < wordAt img (i + 1) := hlt
          _ ≤ offsetAt (sliceBytes32 img) img.dataOffset.toNat (i + 1) := Nat.mod_le _ _
          _ ≤ offsetAt (sliceBytes img) img.dataOffset.toNat (i + 1) :=
              offsetAt_mono _ (sliceBytes32_le img) _
          _ ≤ offsetAt (sliceBytes img) img.dataOffset.toNat img.mipCount.toNat :=
              offsetAt_le _ _ (Nat.succ_le_of_lt hi)
      exact ⟨fun hok => absurd hok hfail, ⟨fun hok => absurd hok hfail, fun hle => by omega⟩⟩

/-- The header of a texture of pixels in one row, from its width on as far as it is given. -/
def wideHeader (width : List UInt8) : List UInt8 :=
  [0x44, 0x44, 0x53, 0x20, 124, 0, 0, 0, 0, 0, 0, 0, 1, 0, 0, 0] ++ width ++
    List.replicate (64 - width.length) 0 ++ [0x40, 0, 0, 0, 0, 0, 0, 0, 32, 0, 0, 0, 0xff, 0, 0, 0, 0, 0xff, 0, 0,
      0, 0, 0xff, 0, 0, 0, 0, 0xff] ++ List.replicate 20 0

/-- A row of 256 pixels with all of its nine levels. -/
theorem exact_iff_short :
    parseDds (wideHeader [0, 1, 0, 0, 0, 0, 0, 0, 0, 0, 0, 0, 9]) .empty =
        some (.ok, ⟨.r8g8b8a8, 256, 1, 9, false, 128⟩) ∧
      (Exact ⟨.r8g8b8a8, 256, 1, 9, false, 128⟩ 2172
          (enumerateDdsSubresources ⟨.r8g8b8a8, 256, 1, 9, false, 128⟩ 2172) ↔
        InWords ⟨.r8g8b8a8, 256, 1, 9, false, 128⟩ ∨
          ∃ i < 9, 2172 < wordAt ⟨.r8g8b8a8, 256, 1, 9, false, 128⟩ (i + 1)) := by
  have hparse : parseDds (wideHeader [0, 1, 0, 0, 0, 0, 0, 0, 0, 0, 0, 0, 9]) .empty =
      some (.ok, ⟨.r8g8b8a8, 256, 1, 9, false, 128⟩) := by decide +kernel
  exact ⟨hparse, exact_iff hparse 2172⟩

/-- A row of 2 ^ 30 pixels takes no bytes, and the file of the header alone holds it. -/
theorem wide_texture_misplaced :
    parseDds (wideHeader [0, 0, 0, 0x40]) .empty =
        some (.ok, ⟨.r8g8b8a8, 0x40000000, 1, 1, false, 128⟩) ∧
      (enumerateDdsSubresources ⟨.r8g8b8a8, 0x40000000, 1, 1, false, 128⟩ 128).1 = true ∧
      ¬Exact ⟨.r8g8b8a8, 0x40000000, 1, 1, false, 128⟩ 128
        (enumerateDdsSubresources ⟨.r8g8b8a8, 0x40000000, 1, 1, false, 128⟩ 128) := by
  have hok : (enumerateDdsSubresources ⟨.r8g8b8a8, 0x40000000, 1, 1, false, 128⟩ 128).1 = true := by
    decide +kernel
  refine ⟨by decide +kernel, hok, fun hexact => ?_⟩
  have htotal := hexact.fits.mp hok
  exact absurd htotal (by decide +kernel)

end Dds

end EarthRise
