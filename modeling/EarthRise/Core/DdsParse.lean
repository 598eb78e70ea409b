import EarthRise.Lib.BinaryFile

/-!
# The Texture Parser

The header of a texture file, and the layout of its mip levels behind it. The header has the size,
the number of levels and a pixel format: one of four letters, or masks, or a number in an extension
of the header. The levels are packed tightly, each of half the size of the one before and of one
pixel at least. A level has rows of pixels, or of blocks of four by four.

Row pitches are numbers of thirty-two bits here, and offsets and slices of sixty-four. A read past
the end of the file is `none`. What is left in `out` by a header that is refused is kept.

## Main definitions

* `DxgiFormat`, `DdsStatus`, `DdsImage`: What is returned.
* `parseDds`: The header.
* `subresource`, `enumerateDdsSubresources`: One level, and all of them.
-/

namespace EarthRise

namespace Dds

open BinaryFile

inductive DxgiFormat
  | unknown
  | r8g8b8a8
  | bc1
  | bc2
  | bc3
  | bc4
  | bc5
  | b8g8r8a8
  | bc6h
  | bc7
  deriving DecidableEq, Repr

inductive DdsStatus
  | ok
  | notDds
  | truncated
  | unsupportedFormat
  | badDimensions
  deriving DecidableEq, Repr

structure DdsImage where
  format : DxgiFormat
  width : UInt32
  height : UInt32
  mipCount : UInt32
  blockCompressed : Bool
  dataOffset : UInt64
  deriving DecidableEq, Repr

/-- What `out` is before it is written to. -/
def DdsImage.empty : DdsImage := ⟨.unknown, 0, 0, 1, false, 0⟩

def ddsU32 (file : List UInt8) (p : Nat) : Option UInt32 := u32At file p

def makeFourCC (a b c d : Char) : UInt32 := a.val ||| b.val <<< 8 ||| c.val <<< 16 ||| d.val <<< 24

def ddpfFourCC : UInt32 := 0x4

def ddpfRgb : UInt32 := 0x40

def ddsMagicSize : Nat := 4

def ddsHeaderSize : Nat := 124

def ddsDxt10Size : Nat := 20

/-- The formats of the extension that are supported, and whether they are of blocks. -/
def dxgiFormat (dxgi : UInt32) : Option (DxgiFormat × Bool) :=
  if dxgi = 71 then some (.bc1, true)
  else if dxgi = 74 then some (.bc2, true)
  else if dxgi = 77 then some (.bc3, true)
  else if dxgi = 80 then some (.bc4, true)
  else if dxgi = 83 then some (.bc5, true)
  else if dxgi = 95 then some (.bc6h, true)
  else if dxgi = 98 then some (.bc7, true)
  else if dxgi = 87 then some (.b8g8r8a8, false)
  else if dxgi = 28 then some (.r8g8b8a8, false)
  else none

/-- The formats of four letters, all of blocks. -/
def fourCCFormat (fourCC : UInt32) : Option DxgiFormat :=
  if fourCC = makeFourCC 'D' 'X' 'T' '1' then some .bc1
  else if fourCC = makeFourCC 'D' 'X' 'T' '3' then some .bc2
  else if fourCC = makeFourCC 'D' 'X' 'T' '5' then some .bc3
  else if fourCC = makeFourCC 'A' 'T' 'I' '1' ∨ fourCC = makeFourCC 'B' 'C' '4' 'U' then some .bc4
  else if fourCC = makeFourCC 'A' 'T' 'I' '2' ∨ fourCC = makeFourCC 'B' 'C' '5' 'U' then some .bc5
  else none

/-- The fields of the pixel format that are looked at. -/
structure PixelFormat where
  flags : UInt32
  fourCC : UInt32
  rgbBitCount : UInt32
  rMask : UInt32
  gMask : UInt32
  bMask : UInt32
  aMask : UInt32

/-- The formats that are given by masks, all of four bytes a pixel. -/
def rgbFormat (pf : PixelFormat) : Option DxgiFormat :=
  if pf.rgbBitCount = 32 ∧ pf.rMask = 0x00ff0000 ∧ pf.gMask = 0x0000ff00 ∧ pf.bMask = 0x000000ff ∧
      pf.aMask = 0xff000000 then some .b8g8r8a8
  else if pf.rgbBitCount = 32 ∧ pf.rMask = 0x000000ff ∧ pf.gMask = 0x0000ff00 ∧
      pf.bMask = 0x00ff0000 ∧ pf.aMask = 0xff000000 then some .r8g8b8a8
  else none

/-- The format, whether it is of blocks, and where the first level starts; or what is wrong. -/
def pixelFormat (file : List UInt8) (pf : PixelFormat) :
    Option (DdsStatus ⊕ (DxgiFormat × Bool × UInt64)) := do
  let dataOffset := ddsMagicSize + ddsHeaderSize
  if pf.flags &&& ddpfFourCC ≠ 0 then
    if pf.fourCC = makeFourCC 'D' 'X' '1' '0' then
      if file.length < dataOffset + ddsDxt10Size then pure (.inl .truncated)
      else
        let dxgi ← ddsU32 file dataOffset
        match dxgiFormat dxgi with
        | none => pure (.inl .unsupportedFormat)
        | some (format, blocks) =>
            pure (.inr (format, blocks, UInt64.ofNat (dataOffset + ddsDxt10Size)))
    else
      match fourCCFormat pf.fourCC with
      | none => pure (.inl .unsupportedFormat)
      | some format => pure (.inr (format, true, UInt64.ofNat dataOffset))
  else if pf.flags &&& ddpfRgb ≠ 0 then
    match rgbFormat pf with
    | none => pure (.inl .unsupportedFormat)
    | some format => pure (.inr (format, false, UInt64.ofNat dataOffset))
  else pure (.inl .unsupportedFormat)

/-- The fields of the header behind the magic number. -/
def parseHeader (file : List UInt8) (out : DdsImage) : Option (DdsStatus × DdsImage) := do
  let h := ddsMagicSize
  let height ← ddsU32 file (h + 8)
  let width ← ddsU32 file (h + 12)
  let mipCount ← ddsU32 file (h + 24)
  let pf := h + 72
  let flags ← ddsU32 file (pf + 4)
  let fourCC ← ddsU32 file (pf + 8)
  let rgbBitCount ← ddsU32 file (pf + 12)
  let rMask ← ddsU32 file (pf + 16)
  let gMask ← ddsU32 file (pf + 20)
  let bMask ← ddsU32 file (pf + 24)
  let aMask ← ddsU32 file (pf + 28)
  if width = 0 ∨ height = 0 then pure (.badDimensions, out)
  else
    let out := { out with
      width := width, height := height, mipCount := if mipCount = 0 then 1 else mipCount }
    match ← pixelFormat file ⟨flags, fourCC, rgbBitCount, rMask, gMask, bMask, aMask⟩ with
    | .inl status => pure (status, out)
    | .inr (format, blocks, dataOffset) =>
        pure (.ok,
          { out with format := format, blockCompressed := blocks, dataOffset := dataOffset })

/-- The status, and what `out` is afterwards. -/
def parseDds (file : List UInt8) (out : DdsImage) : Option (DdsStatus × DdsImage) :=
  if file.length < ddsMagicSize + ddsHeaderSize then
    if file.length < ddsMagicSize then some (.notDds, out)
    else do
      let magic ← ddsU32 file 0
      pure (if magic = makeFourCC 'D' 'D' 'S' ' ' then .truncated else .notDds, out)
  else do
    let magic ← ddsU32 file 0
    if magic ≠ makeFourCC 'D' 'D' 'S' ' ' then pure (.notDds, out) else parseHeader file out

structure DdsSubresource where
  width : UInt32
  height : UInt32
  rowPitch : UInt32
  numRows : UInt32
  offset : UInt64
  slicePitch : UInt64
  deriving DecidableEq, Repr

def bcBlockBytes : DxgiFormat → UInt32
  | .bc1 | .bc4 => 8
  | .bc2 | .bc3 | .bc5 | .bc6h | .bc7 => 16
  | .unknown | .r8g8b8a8 | .b8g8r8a8 => 0

/-- A level of this size at this offset. -/
def subresource (img : DdsImage) (mw mh : UInt32) (offset : UInt64) : DdsSubresource :=
  let rowPitch :=
    if img.blockCompressed then (mw + 3) / 4 * bcBlockBytes img.format else mw * 4
  let numRows := if img.blockCompressed then (mh + 3) / 4 else mh
  { width := mw, height := mh, rowPitch := rowPitch, numRows := numRows, offset := offset
    slicePitch := rowPitch.toUInt64 * numRows.toUInt64 }

/-- The loop, with the number of levels to go. -/
def enumerateFrom (img : DdsImage) (fileSize : UInt64) :
    Nat → UInt32 → UInt32 → UInt64 → List DdsSubresource → Bool × List DdsSubresource
  | 0, _, _, _, out => (true, out)
  | n + 1, w, h, offset, out =>
      let mw := if w = 0 then 1 else w
      let mh := if h = 0 then 1 else h
      let sr := subresource img mw mh offset
      if offset + sr.slicePitch > fileSize then (false, out)
      else
        enumerateFrom img fileSize n (if mw > 1 then mw / 2 else 1) (if mh > 1 then mh / 2 else 1)
          (offset + sr.slicePitch) (out ++ [sr])

def enumerateDdsSubresources (img : DdsImage) (fileSize : UInt64) :
    Bool × List DdsSubresource :=
  if img.blockCompressed ∧ bcBlockBytes img.format = 0 then (false, [])
  else enumerateFrom img fileSize img.mipCount.toNat img.width img.height img.dataOffset []

end Dds

end EarthRise
