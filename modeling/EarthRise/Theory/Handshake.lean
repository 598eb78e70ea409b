import EarthRise.Core.Handshake

/-!
# The Handshake's Messages and Steps

What is decoded of a body that was encoded is what was encoded. The arrays of the bodies
have a length that their type knows, so an encoded body is never cut.

A client draws its key pair at its first cookie and takes its keys from one response, and
it does neither again. The token and the epoch are those of the response, and the server's
key is the only part of it that the signature is asked for.

## Main definitions

* `HandshakeClient.Accepts`: The client takes its keys from a response.

## Theorems

* `takeArray_append`: An array is read back where it was put.
* `decodeCookieResponse_encode`, `decodeHandshakeResponse_encode`: Reading back.
* `onCookieResponse_message`: What the server agrees on.
* `onMessage_cases`: What a clear message does to the client.
-/

namespace EarthRise

namespace Net

/-- An array is read back where it was put. -/
theorem takeArray_append {n : Nat} (pre rest : Bytes) (v : ByteArrayOf n) {off : Nat}
    (hoff : pre.length = off) : takeArray n (pre ++ (v.toList ++ rest)) off = some v := by
  have hlen : v.toList.length = n := v.toList_length
  have hfits : off + n ≤ (pre ++ (v.toList ++ rest)).length := by
    rw [List.length_append, List.length_append, hlen]
    omega
  have hread : ((pre ++ (v.toList ++ rest)).drop off).take n = v.toList := by
    rw [← hoff, List.drop_left, List.take_append_of_le_length (Nat.le_of_eq hlen.symm),
      List.take_of_length_le (Nat.le_of_eq hlen)]
  unfold takeArray
  rw [dif_pos hfits]
  exact congrArg some (List.Vector.eq _ _ hread)

theorem decodeCookieResponse_encode (r : CookieResponseBody) :
    decodeCookieResponse r.encode = some r := by
  have hcookie : takeArray cookieBytes r.encode 0 = some r.cookie :=
    takeArray_append [] r.clientEphemeralPub.toList r.cookie rfl
  have hpub : takeArray ecPubKeyBytes r.encode cookieBytes = some r.clientEphemeralPub := by
    have h := takeArray_append r.cookie.toList [] r.clientEphemeralPub r.cookie.toList_length
    rwa [List.append_nil] at h
  unfold decodeCookieResponse
  rw [hcookie, hpub]
  rfl

theorem decodeHandshakeResponse_encode (r : HandshakeResponseBody) :
    decodeHandshakeResponse r.encode = some r := by
  have hpubLen := r.serverEphemeralPub.toList_length
  have hsigLen := r.signature.toList_length
  have hkeys : (r.serverEphemeralPub.toList ++ r.signature.toList).length =
      ecPubKeyBytes + ecSigBytes := by
    rw [List.length_append, hpubLen, hsigLen]
  have htoken : (r.serverEphemeralPub.toList ++ r.signature.toList ++
      putU64 r.connectionToken).length = ecPubKeyBytes + ecSigBytes + 8 := by
    rw [List.length_append, hkeys, putU64, length_putLE]
  have hpub : takeArray ecPubKeyBytes r.encode 0 = some r.serverEphemeralPub := by
    unfold HandshakeResponseBody.encode
    rw [List.append_assoc, List.append_assoc]
    exact takeArray_append [] _ r.serverEphemeralPub rfl
  have hsig : takeArray ecSigBytes r.encode ecPubKeyBytes = some r.signature := by
    unfold HandshakeResponseBody.encode
    rw [List.append_assoc, List.append_assoc]
    exact takeArray_append _ _ r.signature hpubLen
  have hnumber : getU64 r.encode (ecPubKeyBytes + ecSigBytes) = r.connectionToken := by
    unfold HandshakeResponseBody.encode
    rw [List.append_assoc]
    exact getU64_put _ _ r.connectionToken _ hkeys
  have hepoch : getU32 r.encode (ecPubKeyBytes + ecSigBytes + 8) = r.epoch := by
    have h := getU32_put (r.serverEphemeralPub.toList ++ r.signature.toList ++
      putU64 r.connectionToken) [] r.epoch _ htoken
    rwa [List.append_nil] at h
  have hlong : ¬ r.encode.length < ecPubKeyBytes + ecSigBytes + 8 + 4 := by
    unfold HandshakeResponseBody.encode
    rw [List.length_append, htoken, putU32, length_putLE]
    omega
  unfold decodeHandshakeResponse
  rw [if_neg hlong, hpub, hsig, hnumber, hepoch]
  rfl

variable {Key : Type} (C : CryptoProvider Key)

/-- What the server agrees on: its response carries its new key, and its token and epoch. -/
theorem onCookieResponse_message (fresh : EcdhKeyPair) (s : HandshakeServerConnection Key)
    {body : Bytes} {type : MsgType} {b : Bytes}
    (h : (s.onCookieResponse C fresh body).1 = .message type b) :
    ∃ cr secret sig keys, decodeCookieResponse body = some cr ∧
      C.deriveSharedSecret fresh cr.clientEphemeralPub = some secret ∧
      C.deriveAeadKeys secret s.epoch = some keys ∧
      type = .handshakeResponse ∧
      b = HandshakeResponseBody.encode ⟨fresh.publicKey, sig, s.token, s.epoch⟩ ∧
      (s.onCookieResponse C fresh body).2 = { s with keys := some keys } := by
  unfold HandshakeServerConnection.onCookieResponse at h ⊢
  cases hcr : decodeCookieResponse body with
  | none =>
      simp only [hcr] at h
      exact absurd h nofun
  | some cr =>
      simp only [hcr] at h ⊢
      cases hsecret : C.deriveSharedSecret fresh cr.clientEphemeralPub with
      | none =>
          simp only [hsecret] at h
          exact absurd h nofun
      | some secret =>
          simp only [hsecret] at h ⊢
          cases hsig : C.sign s.staticPriv fresh.publicKey with
          | none =>
              simp only [hsig] at h
              exact absurd h nofun
          | some sig =>
              simp only [hsig] at h ⊢
              cases hkeys : C.deriveAeadKeys secret s.epoch with
              | none =>
                  simp only [hkeys] at h
                  exact absurd h nofun
              | some keys =>
                  simp only [hkeys, HsOutput.message.injEq] at h ⊢
                  exact ⟨cr, secret, sig, keys, rfl, hsecret, hkeys, h.1.symm, h.2.symm, rfl⟩

namespace HandshakeClient

/-- The client takes its keys from a response: the server's key in it verifies, and the token
    and the epoch are as they are there. -/
structure Accepts (c c' : HandshakeClient Key) (response : HandshakeResponseBody) : Prop where
  before : c.keys = none
  verified : C.verify c.pinnedStaticPub response.serverEphemeralPub response.signature = true
  ephemeral : c'.ephemeral = c.ephemeral
  token : c'.token = response.connectionToken
  epoch : c'.epoch = response.epoch
  derived : ∃ secret, C.deriveSharedSecret (c.ephemeral.getD noKeyPair)
    response.serverEphemeralPub = some secret ∧ ∃ keys, C.deriveAeadKeys secret response.epoch =
      some keys ∧ c'.keys = some keys

/-- What a clear message does to the client: it may draw the key pair, or take the keys, and
    else it leaves both, and with the keys the token and the epoch. -/
theorem onMessage_cases (fresh : EcdhKeyPair) (c : HandshakeClient Key) (type : MsgType)
    (body : Bytes) :
    ((c.onMessage C fresh type body).2.keys = c.keys ∧
      ((c.onMessage C fresh type body).2.ephemeral = c.ephemeral ∨
        (c.onMessage C fresh type body).2.ephemeral = some (c.ephemeral.getD fresh)) ∧
      (c.keys.isSome = true → (c.onMessage C fresh type body).2.token = c.token ∧
        (c.onMessage C fresh type body).2.epoch = c.epoch)) ∨
    (type = .handshakeResponse ∧ ∃ response, decodeHandshakeResponse body = some response ∧
      Accepts C c (c.onMessage C fresh type body).2 response) := by
  have hsame : ∀ c : HandshakeClient Key, c.keys = c.keys ∧ (c.ephemeral = c.ephemeral ∨
      c.ephemeral = some (c.ephemeral.getD fresh)) ∧ (c.keys.isSome = true → c.token = c.token ∧
        c.epoch = c.epoch) := fun c => ⟨rfl, .inl rfl, fun _ => ⟨rfl, rfl⟩⟩
  unfold onMessage
  cases type with
  | cookie =>
      left
      simp only []
      unfold onCookie
      cases decodeCookie body with
      | none => exact hsame c
      | some cookie => exact ⟨rfl, .inr rfl, fun _ => ⟨rfl, rfl⟩⟩
  | clockSyncResponse =>
      left
      simp only []
      unfold onClockSyncResponse
      cases decodeClockSync body with
      | none => exact hsame c
      | some cs => exact ⟨rfl, .inl rfl, fun _ => ⟨rfl, rfl⟩⟩
  | handshakeResponse =>
      simp only [true_and]
      unfold onHandshakeResponse
      by_cases hdone : c.keys.isSome = true
      · rw [if_pos hdone]
        exact .inl (hsame c)
      · rw [if_neg hdone]
        have hnone : c.keys = none := by
          rw [Option.not_isSome_iff_eq_none] at hdone
          exact hdone
        cases hbody : decodeHandshakeResponse body with
        | none => exact .inl (hsame c)
        | some response =>
            simp only []
            by_cases hverify : C.verify c.pinnedStaticPub response.serverEphemeralPub
                response.signature = false
            · rw [if_pos hverify]
              exact .inl (hsame c)
            · rw [if_neg hverify]
              cases hsecret : C.deriveSharedSecret (c.ephemeral.getD noKeyPair)
                  response.serverEphemeralPub with
              | none => exact .inl (hsame c)
              | some secret =>
                  simp only []
                  cases hkeys : C.deriveAeadKeys secret response.epoch with
                  | none => exact .inl ⟨rfl, .inl rfl, fun h => absurd h hdone⟩
                  | some keys =>
                      refine .inr ⟨response, rfl, hnone, ?_, rfl, rfl, rfl, secret,
                        hsecret, keys, hkeys, rfl⟩
                      rwa [Bool.not_eq_false] at hverify
  | _ => exact .inl (hsame c)

end HandshakeClient

end Net

end EarthRise
