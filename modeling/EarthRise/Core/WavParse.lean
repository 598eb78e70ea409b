import EarthRise.Lib.BinaryFile

/-!
# The Wave Parser

A RIFF container with the tag of a wave, and chunks one after the other: a tag, a size, and that
many bytes, with one more behind them where the size is odd. The walk takes the format from every
format chunk that it meets and the samples from every data chunk, and jumps over all others.

The parser returns `none` where it would read past the end of the file, or would not end.

## Main definitions

* `WavStatus`, `WavFormat`, `WavData`: What is returned.
* `chunk`, `walk`: One chunk, and the loop.
* `parseWav`: The parser.
-/

namespace EarthRise

namespace Wav

open BinaryFile

inductive WavStatus
  | ok
  | notRiffWave
  | truncated
  | missingFmt
  | missingData
  | unsupportedFormat
  | notPcm16
  deriving DecidableEq, Repr

structure WavFormat where
  channels : UInt16
  sampleRate : UInt32
  bitsPerSample : UInt16
  deriving DecidableEq, Repr

/-- The samples are a part of the file; an empty span has no place in it. -/
structure WavData where
  format : WavFormat
  pcm : Option Span
  deriving DecidableEq, Repr

def WavFormat.empty : WavFormat := ⟨0, 0, 0⟩

def wavPcmTag : UInt16 := 0x0001

def readU16 (file : List UInt8) (p : Nat) : Option UInt16 := u16At file p

def readU32 (file : List UInt8) (p : Nat) : Option UInt32 := u32At file p

def tagEquals (file : List UInt8) (p : Nat) (tag : List UInt8) : Option Bool := tagAt file p tag

def riffTag : List UInt8 := [0x52, 0x49, 0x46, 0x46]

def waveTag : List UInt8 := [0x57, 0x41, 0x56, 0x45]

def fmtTag : List UInt8 := [0x66, 0x6d, 0x74, 0x20]

def dataTag : List UInt8 := [0x64, 0x61, 0x74, 0x61]

/-- The variables of the loop. -/
structure Walk where
  pos : Nat
  haveFmt : Bool
  fmt : WavFormat
  haveData : Bool
  data : Option Span
  deriving DecidableEq, Repr

/-- The body of the loop: a status to return, or the next round. -/
def chunk (file : List UInt8) (s : Walk) : Option (WavStatus ⊕ Walk) := do
  let chunkSize ← readU32 file (s.pos + 4)
  let body := s.pos + 8
  if file.length < body + chunkSize.toNat then pure (.inl .truncated)
  else
    let next := body + (chunkSize.toNat + (chunkSize &&& 1).toNat)
    if ← tagEquals file s.pos fmtTag then
      if chunkSize < 16 then pure (.inl .truncated)
      else
        let audioFormat ← readU16 file (body + 0)
        let channels ← readU16 file (body + 2)
        let sampleRate ← readU32 file (body + 4)
        let bitsPerSample ← readU16 file (body + 14)
        if audioFormat ≠ wavPcmTag then pure (.inl .unsupportedFormat)
        else if bitsPerSample ≠ 16 then pure (.inl .notPcm16)
        else
          pure (.inr { s with
            pos := next, haveFmt := true, fmt := ⟨channels, sampleRate, bitsPerSample⟩ })
    else if ← tagEquals file s.pos dataTag then
      pure (.inr { s with pos := next, haveData := true, data := some ⟨body, chunkSize.toNat⟩ })
    else pure (.inr { s with pos := next })

def walk (file : List UInt8) : Nat → Walk → Option (WavStatus ⊕ Walk)
  | 0, _ => none
  | fuel + 1, s =>
      if s.pos + 8 ≤ file.length then
        match chunk file s with
        | none => none
        | some (.inl status) => some (.inl status)
        | some (.inr s) => walk file fuel s
      else some (.inr s)

/-- Before the first chunk. -/
def Walk.start : Walk := { pos := 12, haveFmt := false, fmt := .empty, haveData := false, data := none }

/-- The status, and what `out` is afterwards. -/
def parseWav (file : List UInt8) (out : WavData) : Option (WavStatus × WavData) := do
  if file.length < 12 then pure (.notRiffWave, out)
  else if !(← tagEquals file 0 riffTag) then pure (.notRiffWave, out)
  else if !(← tagEquals file 8 waveTag) then pure (.notRiffWave, out)
  else
    match ← walk file (file.length + 1) .start with
    | .inl status => pure (status, out)
    | .inr s =>
        if s.haveFmt = false then pure (.missingFmt, out)
        else if s.haveData = false then pure (.missingData, out)
        else pure (.ok, { format := s.fmt, pcm := s.data })

end Wav

end EarthRise
