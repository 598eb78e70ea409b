import Mathlib.Data.List.Basic

/-!
# The Password Hash

SHA-512, HMAC and PBKDF2 on bytes and machine words. The message is copied and padded to whole
blocks, which are mixed into eight words; a key is hashed if it is longer than a block; and the
blocks of the derived key are counted by a number of 32 bits. A loop whose counter never passes its
bound goes on as long as there is fuel.

## Main definitions

* `sha512Hash`: The hash of a message.
* `hmacSha512`: The hash with a key.
* `pbkdf2HmacSha512`: The key from a password.
-/

namespace EarthRise

namespace Crypto

/-! ## SHA-512 -/

def digestSize : Nat := 64

def blockSize : Nat := 128

/-- The words of the hash, and the working variables. -/
structure Sha512Words where
  a : UInt64
  b : UInt64
  c : UInt64
  d : UInt64
  e : UInt64
  f : UInt64
  g : UInt64
  hh : UInt64
  deriving DecidableEq, Repr

def startWords : Sha512Words :=
  ⟨0x6a09e667f3bcc908, 0xbb67ae8584caa73b, 0x3c6ef372fe94f82b, 0xa54ff53a5f1d36f1,
   0x510e527fade682d1, 0x9b05688c2b3e6c1f, 0x1f83d9abfb41bd6b, 0x5be0cd19137e2179⟩

def roundKeys : List UInt64 :=
  [0x428a2f98d728ae22, 0x7137449123ef65cd, 0xb5c0fbcfec4d3b2f, 0xe9b5dba58189dbbc,
   0x3956c25bf348b538, 0x59f111f1b605d019, 0x923f82a4af194f9b, 0xab1c5ed5da6d8118,
   0xd807aa98a3030242, 0x12835b0145706fbe, 0x243185be4ee4b28c, 0x550c7dc3d5ffb4e2,
   0x72be5d74f27b896f, 0x80deb1fe3b1696b1, 0x9bdc06a725c71235, 0xc19bf174cf692694,
   0xe49b69c19ef14ad2, 0xefbe4786384f25e3, 0x0fc19dc68b8cd5b5, 0x240ca1cc77ac9c65,
   0x2de92c6f592b0275, 0x4a7484aa6ea6e483, 0x5cb0a9dcbd41fbd4, 0x76f988da831153b5,
   0x983e5152ee66dfab, 0xa831c66d2db43210, 0xb00327c898fb213f, 0xbf597fc7beef0ee4,
   0xc6e00bf33da88fc2, 0xd5a79147930aa725, 0x06ca6351e003826f, 0x142929670a0e6e70,
   0x27b70a8546d22ffc, 0x2e1b21385c26c926, 0x4d2c6dfc5ac42aed, 0x53380d139d95b3df,
   0x650a73548baf63de, 0x766a0abb3c77b2a8, 0x81c2c92e47edaee6, 0x92722c851482353b,
   0xa2bfe8a14cf10364, 0xa81a664bbc423001, 0xc24b8b70d0f89791, 0xc76c51a30654be30,
   0xd192e819d6ef5218, 0xd69906245565a910, 0xf40e35855771202a, 0x106aa07032bbd1b8,
   0x19a4c116b8d2d0c8, 0x1e376c085141ab53, 0x2748774cdf8eeb99, 0x34b0bcb5e19b48a8,
   0x391c0cb3c5c95a63, 0x4ed8aa4ae3418acb, 0x5b9cca4f7763e373, 0x682e6ff3d6b2b8a3,
   0x748f82ee5defb2fc, 0x78a5636f43172f60, 0x84c87814a1f0ab72, 0x8cc702081a6439ec,
   0x90befffa23631e28, 0xa4506cebde82bde9, 0xbef9a3f7b2c67915, 0xc67178f2e372532b,
   0xca273eceea26619c, 0xd186b8c721c0c207, 0xeada7dd6cde0eb1e, 0xf57d4f7fee6ed178,
   0x06f067aa72176fba, 0x0a637dc5a2c898a6, 0x113f9804bef90dae, 0x1b710b35131c471b,
   0x28db77f523047d84, 0x32caab7b40c72493, 0x3c9ebe0a15c9bebc, 0x431d67c49c100d4c,
   0x4cc5d4becb3e42b6, 0x597f299cfc657e2a, 0x5fcb6fab3ad6faec, 0x6c44198c4a475817]

def ror (x n : UInt64) : UInt64 := (x >>> n) ||| (x <<< (64 - n))

/-- Eight bytes of a block as a word. -/
def loadWord (p : List UInt8) (i : Nat) : UInt64 :=
  ((p.drop (i * 8)).take 8).foldl (fun w b => (w <<< 8) ||| b.toUInt64) 0

def nextWord (w : List UInt64) (i : Nat) : UInt64 :=
  let s0 := ror (w.getD (i - 15) 0) 1 ^^^ ror (w.getD (i - 15) 0) 8 ^^^ (w.getD (i - 15) 0 >>> 7)
  let s1 := ror (w.getD (i - 2) 0) 19 ^^^ ror (w.getD (i - 2) 0) 61 ^^^ (w.getD (i - 2) 0 >>> 6)
  w.getD (i - 16) 0 + s0 + w.getD (i - 7) 0 + s1

/-- The words of a block and those that are made from them. -/
def expandBlock (p : List UInt8) : List UInt64 :=
  (List.range' 16 64).foldl (fun w i => w ++ [nextWord w i]) ((List.range 16).map (loadWord p))

def compressRound (w : List UInt64) (v : Sha512Words) (i : Nat) : Sha512Words :=
  let s1 := ror v.e 14 ^^^ ror v.e 18 ^^^ ror v.e 41
  let ch := (v.e &&& v.f) ^^^ (~~~v.e &&& v.g)
  let t1 := v.hh + s1 + ch + roundKeys.getD i 0 + w.getD i 0
  let s0 := ror v.a 28 ^^^ ror v.a 34 ^^^ ror v.a 39
  let maj := (v.a &&& v.b) ^^^ (v.a &&& v.c) ^^^ (v.b &&& v.c)
  let t2 := s0 + maj
  { hh := v.g, g := v.f, f := v.e, e := v.d + t1, d := v.c, c := v.b, b := v.a, a := t1 + t2 }

def compress (h : Sha512Words) (p : List UInt8) : Sha512Words :=
  let v := (List.range 80).foldl (compressRound (expandBlock p)) h
  ⟨h.a + v.a, h.b + v.b, h.c + v.c, h.d + v.d, h.e + v.e, h.f + v.f, h.g + v.g, h.hh + v.hh⟩

/-- Zeros until there is room for the length only. -/
def padZeros (data : List UInt8) : List UInt8 :=
  if data.length % blockSize ≠ 112 then padZeros (data ++ [0]) else data
termination_by (blockSize + 112 - data.length % blockSize) % blockSize
decreasing_by
  unfold blockSize at *
  rw [List.length_append, List.length_singleton]
  omega

/-- A word as bytes, the highest first. -/
def storeWord (x : UInt64) : List UInt8 :=
  [7, 6, 5, 4, 3, 2, 1, 0].map fun i : UInt64 => (x >>> (i * 8)).toUInt8

def padMessage (msg : List UInt8) : List UInt8 :=
  let bitLen := UInt64.ofNat msg.length * 8
  padZeros (msg ++ [0x80]) ++ List.replicate 8 0 ++ storeWord bitLen

def Sha512Words.toBytes (h : Sha512Words) : List UInt8 :=
  [h.a, h.b, h.c, h.d, h.e, h.f, h.g, h.hh].flatMap storeWord

def sha512Hash (msg : List UInt8) : List UInt8 :=
  let data := padMessage msg
  let offsets := List.range' 0 ((data.length + blockSize - 1) / blockSize) blockSize
  (offsets.foldl (fun h off => compress h ((data.drop off).take blockSize)) startWords).toBytes

/-! ## HMAC -/

/-- Bytes that are written over the beginning of an array. -/
def copyInto (dst src : List UInt8) : List UInt8 := src ++ dst.drop src.length

def hmacSha512 (key msg : List UInt8) : List UInt8 :=
  let k0 := copyInto (List.replicate blockSize 0)
    (if key.length > blockSize then sha512Hash key else key)
  let ipad := k0.map (· ^^^ 0x36)
  let opad := k0.map (· ^^^ 0x5c)
  sha512Hash (opad ++ sha512Hash (ipad ++ msg))

/-! ## PBKDF2 -/

/-- The rounds of a block that are to go: the last result and what they are mixed to. -/
@[simp] def pbkdf2Rounds (password : List UInt8) : Nat → List UInt8 → List UInt8 → List UInt8
  | 0, _, t => t
  | n + 1, u, t =>
      let u := hmacSha512 password u
      pbkdf2Rounds password n u (List.zipWith (· ^^^ ·) t u)

def pbkdf2Block (password salt : List UInt8) (iterations i : UInt32) : List UInt8 :=
  let saltBlock := salt ++
    [(i >>> 24).toUInt8, (i >>> 16).toUInt8, (i >>> 8).toUInt8, i.toUInt8]
  let u := hmacSha512 password saltBlock
  pbkdf2Rounds password (iterations.toNat - 1) u u

/-- The loop over the blocks. The counter and its bound are numbers of 32 bits. -/
@[simp] def pbkdf2Blocks (password salt : List UInt8) (iterations blocks : UInt32) :
    Nat → UInt32 → List UInt8 → Option (List UInt8)
  | 0, _, _ => none
  | fuel + 1, i, dk =>
      if i ≤ blocks then
        pbkdf2Blocks password salt iterations blocks fuel (i + 1)
          (dk ++ pbkdf2Block password salt iterations i)
      else some dk

def resize (dk : List UInt8) (n : Nat) : List UInt8 := (dk.take n).rightpad n 0

def pbkdf2HmacSha512 (fuel : Nat) (password salt : List UInt8) (iterations : UInt32)
    (dkLen : UInt64) : Option (List UInt8) :=
  let hLen := UInt64.ofNat digestSize
  let blocks := ((dkLen + hLen - 1) / hLen).toUInt32
  (pbkdf2Blocks password salt iterations blocks fuel 1 []).map fun dk => resize dk dkLen.toNat

end Crypto

end EarthRise
