import EarthRise.Core.FakeCrypto

/-!
# The Provider Without Secrets Works

What the provider makes, it takes back, and nothing else: a text comes out of exactly the bytes
that its encryption makes, under the same key, direction, number and associated data; a
signature is right if and only if it is the one that signing makes; and a cookie if and only if
it was made for the same address. The two ends of a key agreement get the same secret, as the
digest of both private keys does not depend on whose is whose.

## Main definitions

* `CryptoProvider.Works`: What the handshake needs of a provider.

## Theorems

* `xorBytes_xorBytes`: A stream that is added twice is gone.
* `decrypt_iff`, `verify_iff`: What opens, and what is right.
* `deriveSharedSecret_agree`: Both ends have the same secret.
* `fakeCrypto_exact`: What the provider accepts is what it makes.
-/

namespace EarthRise

namespace Net

/-- What the two ends need of a provider to get through the handshake: encryption that works,
    cookies and signatures that are recognised, secrets that agree and keys that can be
    derived. -/
structure CryptoProvider.Works {Key : Type} (C : CryptoProvider Key) (Gen : EcdhKeyPair → Prop)
    (staticPriv : Bytes) (pinnedPub : EcPubKey) : Prop where
  correct : C.toICrypto.Correct
  seals : ∀ key dir pn aad plain, (C.encrypt key dir pn aad plain).isSome = true
  cookie : ∀ secret addr, C.verifyCookie secret addr (C.makeCookie secret addr) = true
  agree : ∀ a b, Gen a → Gen b → ∃ secret, C.deriveSharedSecret a b.publicKey = some secret ∧
    C.deriveSharedSecret b a.publicKey = some secret
  signs : ∀ pub, ∃ sig, C.sign staticPriv pub = some sig ∧ C.verify pinnedPub pub sig = true
  keys : ∀ secret epoch, (C.deriveAeadKeys secret epoch).isSome = true

namespace FakeCrypto

/-! ## Encryption -/

theorem length_xorBytes {a b : Bytes} (h : a.length = b.length) :
    (xorBytes a b).length = a.length := by
  unfold xorBytes
  rw [List.length_zipWith, h, Nat.min_self]

/-- A stream that is added twice is gone. -/
theorem xorBytes_xorBytes (a b : Bytes) (h : a.length = b.length) :
    xorBytes (xorBytes a b) b = a := by
  unfold xorBytes
  induction a generalizing b with
  | nil => rfl
  | cons x a ih =>
      cases b with
      | nil => exact absurd h (Nat.succ_ne_zero _)
      | cons y b =>
          rw [List.zipWith_cons_cons, List.zipWith_cons_cons, ih b (Nat.succ.inj h),
            UInt8.xor_assoc, UInt8.xor_self, UInt8.xor_zero]

theorem length_addKeystream (key : AeadKey) (dir : Direction) (pn : UInt64) (text : Bytes) :
    (addKeystream key dir pn text).length = text.length := by
  unfold addKeystream
  exact length_xorBytes (length_nextBytes _ _).symm

theorem addKeystream_addKeystream (key : AeadKey) (dir : Direction) (pn : UInt64)
    (text : Bytes) : addKeystream key dir pn (addKeystream key dir pn text) = text := by
  have hlen := length_addKeystream key dir pn text
  unfold addKeystream at hlen ⊢
  rw [hlen]
  exact xorBytes_xorBytes _ _ (length_nextBytes _ _).symm

theorem length_computeTag (key : AeadKey) (dir : Direction) (pn : UInt64) (aad plain : Bytes) :
    (computeTag key dir pn aad plain).length = 16 := by
  unfold computeTag
  rw [List.length_take, List.Vector.toList_length]
  rfl

/-- A text comes out of exactly the bytes that its encryption makes. -/
theorem decrypt_iff (key : AeadKey) (dir : Direction) (pn : UInt64) (aad cipher plain : Bytes) :
    decrypt key dir pn aad cipher = some plain ↔ cipher = encrypt key dir pn aad plain := by
  constructor
  · intro h
    unfold decrypt at h
    split at h
    · cases h
    · dsimp only at h
      split at h
      · rename_i htag
        rw [Option.some.injEq] at h
        unfold encrypt
        rw [← h, addKeystream_addKeystream, ← htag, List.take_append_drop]
      · cases h
  · rintro rfl
    have htag := length_computeTag key dir pn aad plain
    have hlen : (encrypt key dir pn aad plain).length = plain.length + 16 := by
      unfold encrypt
      rw [List.length_append, length_addKeystream, htag]
    unfold decrypt
    rw [if_neg (by omega)]
    dsimp only
    have hcut : (encrypt key dir pn aad plain).length - 16 =
        (addKeystream key dir pn plain).length := by
      rw [length_addKeystream]
      omega
    rw [hcut]
    unfold encrypt
    rw [List.take_left, List.drop_left, addKeystream_addKeystream, if_pos rfl]

/-! ## Key agreement -/

/-- The pairs that the generator makes. -/
def Generated (pair : EcdhKeyPair) : Prop := ∃ counter, pair = generateEcdhKeyPair counter

theorem Generated.blob {pair : EcdhKeyPair} (h : Generated pair) :
    pair.privateBlob.length = 32 ∧ pair.publicKey.toList.take 32 = pair.privateBlob := by
  obtain ⟨counter, rfl⟩ := h
  refine ⟨length_nextBytes _ _, ?_⟩
  exact List.take_left' (length_nextBytes _ _)

/-- The order of the private keys is that of their bytes, whoever asks. -/
theorem ordered_comm (a b : Bytes) :
    (if a ≤ b then a ++ b else b ++ a) = if b ≤ a then b ++ a else a ++ b := by
  rcases List.le_total a b with hab | hba
  · rw [if_pos hab]
    split
    · rename_i hba
      rw [List.le_antisymm hab hba]
    · rfl
  · rw [if_pos hba]
    split
    · rename_i hab
      rw [List.le_antisymm hab hba]
    · rfl

theorem deriveSharedSecret_agree {a b : EcdhKeyPair} (ha : Generated a) (hb : Generated b) :
    ∃ secret, deriveSharedSecret a b.publicKey = some secret ∧
      deriveSharedSecret b a.publicKey = some secret := by
  obtain ⟨halen, hapub⟩ := ha.blob
  obtain ⟨hblen, hbpub⟩ := hb.blob
  unfold deriveSharedSecret
  rw [if_neg (by omega), if_neg (by omega), hapub, hbpub, List.take_of_length_le halen.le,
    List.take_of_length_le hblen.le]
  exact ⟨_, rfl, by rw [ordered_comm]⟩

/-! ## Signatures -/

theorem sign_parts (blob data : Bytes) :
    (sign blob data).toList.take 32 = xorBytes (hash32 data).toList (hash32 blob).toList ∧
      (sign blob data).toList.drop 32 = (hash32 blob).toList := by
  have hlen : (xorBytes (hash32 data).toList (hash32 blob).toList).length = 32 := by
    rw [length_xorBytes (by rw [List.Vector.toList_length, List.Vector.toList_length]),
      List.Vector.toList_length]
  exact ⟨List.take_left' hlen, List.drop_left' hlen⟩

/-- A signature is right under the static key if it is the one that signing makes. -/
theorem verify_iff (data : Bytes) (sig : EcSignature) :
    verify makeFakeStaticKey.2 data sig = true ↔ sig = sign makeFakeStaticKey.1 data := by
  have hfold : makeFakeStaticKey.2.toList.take 32 = (hash32 makeFakeStaticKey.1).toList :=
    List.take_left' (List.Vector.toList_length _)
  obtain ⟨htake, hdrop⟩ := sign_parts makeFakeStaticKey.1 data
  unfold verify
  dsimp only
  rw [hfold, Bool.and_eq_true, decide_eq_true_eq, decide_eq_true_eq]
  constructor
  · rintro ⟨hd, ht⟩
    refine List.Vector.toList_injective ?_
    rw [← List.take_append_drop 32 sig.toList, ht, hd, ← htake, ← hdrop, List.take_append_drop]
  · rintro rfl
    exact ⟨hdrop, htake⟩

end FakeCrypto

open FakeCrypto

/-- The provider is good for the handshake. -/
theorem fakeCrypto_works :
    fakeCrypto.Works Generated makeFakeStaticKey.1 makeFakeStaticKey.2 where
  correct key dir pn aad plain cipher h :=
    (decrypt_iff key dir pn aad cipher plain).mpr (Option.some.inj h).symm
  seals _ _ _ _ _ := rfl
  cookie _ _ := decide_eq_true rfl
  agree _ _ ha hb := deriveSharedSecret_agree ha hb
  signs _ := ⟨_, rfl, (verify_iff _ _).mpr rfl⟩
  keys _ _ := rfl

/-- What the provider accepts is what it makes: texts, signatures and cookies; and the ends of a
    key agreement get one secret. -/
theorem fakeCrypto_exact :
    (∀ key dir pn aad cipher plain, fakeCrypto.decrypt key dir pn aad cipher = some plain ↔
      fakeCrypto.encrypt key dir pn aad plain = some cipher) ∧
    (∀ pub sig, fakeCrypto.verify makeFakeStaticKey.2 pub sig = true ↔
      fakeCrypto.sign makeFakeStaticKey.1 pub = some sig) ∧
    (∀ secret addr cookie, fakeCrypto.verifyCookie secret addr cookie = true ↔
      fakeCrypto.makeCookie secret addr = cookie) ∧
    ∀ i j, ∃ secret,
      fakeCrypto.deriveSharedSecret (generateEcdhKeyPair i) (generateEcdhKeyPair j).publicKey =
          some secret ∧
        fakeCrypto.deriveSharedSecret (generateEcdhKeyPair j) (generateEcdhKeyPair i).publicKey =
          some secret := by
  refine ⟨fun key dir pn aad cipher plain => ?_, fun pub sig => ?_, fun secret addr cookie => ?_,
    fun i j => deriveSharedSecret_agree ⟨i, rfl⟩ ⟨j, rfl⟩⟩
  · refine (decrypt_iff key dir pn aad cipher plain).trans ?_
    exact ⟨fun h => congrArg some h.symm, fun h => (Option.some.inj h).symm⟩
  · refine (verify_iff pub.toList sig).trans ?_
    exact ⟨fun h => congrArg some h.symm, fun h => (Option.some.inj h).symm⟩
  · exact decide_eq_true_iff

end Net

end EarthRise
