import EarthRise.Core.Handshake

/-!
# A Provider Without Secrets

The cryptographic provider that the program runs on where the platform's is not there. It has
everything that a provider has, made of a mixer of 64 bits: a digest of four lanes, a stream
that is added to the text, and a tag that is a digest of all that is authenticated. Nobody is
kept out by it, but what it makes it takes back.

Numbers are copied to memory as they are, the lowest byte first.

## Main definitions

* `splitmix64`, `hash32`: The mixer and the digest.
* `generateEcdhKeyPair`, `makeFakeStaticKey`: Keys.
* `fakeCrypto`: The provider.
-/

namespace EarthRise

namespace Net

namespace FakeCrypto

/-- A key of the authenticated encryption. -/
abbrev AeadKey := ByteArrayOf 32

/-! ## Mixing -/

def splitmix64 (x : UInt64) : UInt64 :=
  let z : UInt64 := x + 0x9E3779B97F4A7C15
  let z : UInt64 := (z ^^^ (z >>> 30)) * 0xBF58476D1CE4E5B9
  let z : UInt64 := (z ^^^ (z >>> 27)) * 0x94D049BB133111EB
  z ^^^ (z >>> 31)

/-- The next bytes of a stream. -/
def nextBytes : Nat → UInt64 → Bytes
  | 0, _ => []
  | n + 1, state =>
      let state := splitmix64 state
      (state >>> 56).toUInt8 :: nextBytes n state

def bases : List UInt64 :=
  [1469598103934665603, 1099511628211, 0xCBF29CE484222325, 0x100000001B3]

/-- One lane of the digest, with the length mixed in at the end. -/
def lane (data : Bytes) (l : Nat) : UInt64 :=
  let start : UInt64 := bases.getD l 0 ^^^ (UInt64.ofNat l <<< 32)
  let h := data.foldl (fun h byte => (h ^^^ byte.toUInt64) * 1099511628211) start
  splitmix64 (h ^^^ (UInt64.ofNat data.length <<< UInt64.ofNat (l * 8)))

def hashBytes (data : Bytes) : Bytes :=
  putU64 (lane data 0) ++ putU64 (lane data 1) ++ putU64 (lane data 2) ++ putU64 (lane data 3)

theorem length_hashBytes (data : Bytes) : (hashBytes data).length = 32 := by
  unfold hashBytes putU64
  simp only [List.length_append, length_putLE]

def hash32 (data : Bytes) : ByteArrayOf 32 := ⟨hashBytes data, length_hashBytes data⟩

def xorBytes (a b : Bytes) : Bytes := List.zipWith (· ^^^ ·) a b

/-! ## Key agreement -/

theorem length_nextBytes (n : Nat) (state : UInt64) : (nextBytes n state).length = n := by
  induction n generalizing state with
  | zero => rfl
  | succ n ih => rw [nextBytes, List.length_cons, ih]

/-- The pair of a counter: the public key is the private one, with its digest. -/
def generateEcdhKeyPair (keypairCounter : UInt64) : EcdhKeyPair :=
  let blob := nextBytes 32 (splitmix64 (0xA11CE5EED ^^^ (keypairCounter * 0x9E3779B97F4A7C15)))
  { privateBlob := blob
    publicKey := ⟨blob ++ (hash32 blob).toList, by
      rw [List.length_append, length_nextBytes, List.Vector.toList_length]
      rfl⟩ }

/-- The digest of both private keys, the smaller one first. -/
def deriveSharedSecret (ours : EcdhKeyPair) (peerPub : EcPubKey) : Option SharedSecret :=
  if ours.privateBlob.length < 32 then none
  else
    let a := ours.privateBlob.take 32
    let b := peerPub.toList.take 32
    some (hash32 (if a ≤ b then a ++ b else b ++ a))

/-! ## Signatures -/

/-- The digest of the data, with that of the key added and beside it. -/
def sign (staticPrivBlob data : Bytes) : EcSignature :=
  ⟨xorBytes (hash32 data).toList (hash32 staticPrivBlob).toList ++
      (hash32 staticPrivBlob).toList, by
    unfold xorBytes
    rw [List.length_append, List.length_zipWith, List.Vector.toList_length,
      List.Vector.toList_length]
    rfl⟩

def verify (staticPub : EcPubKey) (data : Bytes) (sig : EcSignature) : Bool :=
  let foldKey := staticPub.toList.take 32
  sig.toList.drop 32 = foldKey && sig.toList.take 32 = xorBytes (hash32 data).toList foldKey

/-- A static key: its public one is its digest. -/
def makeFakeStaticKey : Bytes × EcPubKey :=
  let blob : Bytes := [115, 116, 97, 116, 105, 99, 45, 107, 101, 121]
  (blob, ⟨(hash32 blob).toList ++ List.replicate 32 0, by
    rw [List.length_append, List.Vector.toList_length, List.length_replicate]
    rfl⟩)

/-! ## Encryption -/

def putBE (k v : Nat) : Bytes := (putLE k v).reverse

def deriveLabeled (secret : SharedSecret) (epoch : UInt32) (label : Bytes) : AeadKey :=
  hash32 (secret.toList ++ putBE 4 epoch.toNat ++ label)

/-- The keys to the server and to the client. -/
def deriveAeadKeys (secret : SharedSecret) (epoch : UInt32) : AeadKey × AeadKey :=
  (deriveLabeled secret epoch [101, 114, 45, 99, 50, 115],
    deriveLabeled secret epoch [101, 114, 45, 115, 50, 99])

def dirByte : Direction → UInt8
  | .clientToServer => 0
  | .serverToClient => 1

def keystreamState (key : AeadKey) (dir : Direction) (pn : UInt64) : UInt64 :=
  let chunk (i : Nat) : UInt64 := getU64 key.toList i
  let s := chunk 0 ^^^ splitmix64 ((dirByte dir).toUInt64 * 0x1000193 + pn)
  let s := [8, 16, 24].foldl (fun s i => splitmix64 (s ^^^ chunk i)) s
  splitmix64 (s ^^^ pn)

def computeTag (key : AeadKey) (dir : Direction) (pn : UInt64) (aad plaintext : Bytes) : Bytes :=
  (hash32 (key.toList ++ [dirByte dir] ++ putBE 8 pn.toNat ++
    putBE 4 (UInt32.ofNat aad.length).toNat ++ aad ++ plaintext)).toList.take 16

/-- Add the stream to a text. -/
def addKeystream (key : AeadKey) (dir : Direction) (pn : UInt64) (text : Bytes) : Bytes :=
  xorBytes text (nextBytes text.length (keystreamState key dir pn))

def encrypt (key : AeadKey) (dir : Direction) (pn : UInt64) (aad plaintext : Bytes) : Bytes :=
  addKeystream key dir pn plaintext ++ computeTag key dir pn aad plaintext

/-- The text is there if its tag is the one that came with it. -/
def decrypt (key : AeadKey) (dir : Direction) (pn : UInt64) (aad ciphertextWithTag : Bytes) :
    Option Bytes :=
  if ciphertextWithTag.length < 16 then none
  else
    let ctLen := ciphertextWithTag.length - 16
    let plaintext := addKeystream key dir pn (ciphertextWithTag.take ctLen)
    if ciphertextWithTag.drop ctLen = computeTag key dir pn aad plaintext then some plaintext
    else none

/-! ## The provider -/

def makeCookie (serverSecret clientAddr : Bytes) : Cookie := hash32 (serverSecret ++ clientAddr)

end FakeCrypto

open FakeCrypto in
def fakeCrypto : CryptoProvider FakeCrypto.AeadKey where
  encrypt key dir pn aad plain := some (encrypt key dir pn aad plain)
  decrypt := decrypt
  deriveSharedSecret := deriveSharedSecret
  sign priv pub := some (sign priv pub.toList)
  verify pub data sig := verify pub data.toList sig
  deriveAeadKeys secret epoch := some (deriveAeadKeys secret epoch)
  makeCookie := makeCookie
  verifyCookie secret addr cookie := makeCookie secret addr = cookie

end Net

end EarthRise
