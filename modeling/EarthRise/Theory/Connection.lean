import EarthRise.Core.Connection
import EarthRise.Theory.SecureChannel

/-!
# Clear Datagrams on an Established Connection

What a datagram that anyone can send does to a connection that has its keys and
its channel.

The handlers of the handshake are reached for the whole life of a connection. Most
of them find their work done and answer again. Those that can fail still fail, and
the connection takes a failure for its end: a version reject, a cookie or a clock
response that is too short at the client, a clock request that is too short at the
server. Nothing else moves.

## Main definitions

* `Session`: What a connection is established with.
* `ClientConnection.ClearBreaks`, `ServerConnection.ClearBreaks`: The datagrams
  that end a connection.

## Theorems

* `ClientConnection.onDatagram_clear`, `ServerConnection.onDatagram_clear`: What a
  clear datagram leaves.
-/

namespace EarthRise

namespace Net

/-- What a connection is established with: its state, the two copies of its token,
    the epoch, the keys and the channel. -/
structure Session (Key : Type) where
  state : ConnState
  token : UInt64
  handshakeToken : UInt64
  epoch : UInt32
  keys : Option (Key × Key)
  channel : Option (SecureChannel Key)

namespace Session

variable {Key : Type}

/-- Keys derived, channel built, and the connection in use. -/
structure Established (s : Session Key) : Prop where
  keys : s.keys.isSome = true
  channel : s.channel.isSome = true
  state : s.state = .authenticating ∨ s.state = .connected

/-- The same session, ended. -/
def ended (s : Session Key) : Session Key := { s with state := .disconnected }

theorem Established.ended_ne {s : Session Key} (h : s.Established) : s.ended ≠ s := by
  intro heq
  have hstate : s.state = .disconnected := (congrArg Session.state heq).symm
  rcases h.state with h' | h'
  · exact absurd (h'.symm.trans hstate) (by decide)
  · exact absurd (h'.symm.trans hstate) (by decide)

end Session

/-- A datagram of the clear handshake. -/
def IsClear (dg : Bytes) : Prop := dg.head? = some kindClearHandshake

instance (dg : Bytes) : Decidable (IsClear dg) := inferInstanceAs (Decidable (_ = _))

def HsOutput.failed : HsOutput → Bool
  | .fail _ => true
  | _ => false

theorem kindEncrypted_ne : kindEncrypted ≠ kindClearHandshake := by decide

section Client

variable {Key : Type} (C : CryptoProvider Key)

/-- The clear messages that a client with keys fails on. -/
def clearFailsClient (type : MsgType) (body : Bytes) : Bool :=
  match type with
  | .versionReject => true
  | .cookie => body.length < cookieBytes
  | .clockSyncResponse => body.length < 16
  | _ => false

/-- The clear datagrams that end an established client connection. -/
def ClientConnection.ClearBreaks (dg : Bytes) : Prop :=
  ∃ type body, dg = kindClearHandshake :: type :: body ∧
    clearFailsClient (.ofByte type) body = true

theorem decodeCookie_eq_none (b : Bytes) : decodeCookie b = none ↔ b.length < cookieBytes := by
  unfold decodeCookie takeArray
  by_cases h : 0 + cookieBytes ≤ b.length
  · simp only [dif_pos h, reduceCtorEq, false_iff]
    omega
  · simp only [dif_neg h, true_iff]
    omega

theorem decodeClockSync_eq_none (b : Bytes) : decodeClockSync b = none ↔ b.length < 16 := by
  unfold decodeClockSync
  by_cases h : b.length < 16
  · rw [if_pos h]
    exact ⟨fun _ => h, fun _ => rfl⟩
  · rw [if_neg h]
    simp only [reduceCtorEq, h]

/-- A client with keys fails on exactly those messages, and keeps what it agreed on
    whether it fails or not. -/
theorem HandshakeClient.onMessage_keyed (fresh : EcdhKeyPair) (c : HandshakeClient Key)
    (type : MsgType) (body : Bytes) (hkeys : c.keys.isSome = true) :
    (c.onMessage C fresh type body).1.failed = clearFailsClient type body ∧
      (c.onMessage C fresh type body).2.token = c.token ∧
      (c.onMessage C fresh type body).2.epoch = c.epoch ∧
      (c.onMessage C fresh type body).2.keys = c.keys := by
  unfold onMessage clearFailsClient
  cases type with
  | versionReject => exact ⟨rfl, rfl, rfl, rfl⟩
  | cookie =>
      simp only [onCookie]
      cases hdec : decodeCookie body with
      | none =>
          have hlen := (decodeCookie_eq_none body).mp hdec
          simp only [HsOutput.failed, hlen, decide_true, and_self]
      | some cookie =>
          have hlen : ¬ body.length < cookieBytes := by
            rw [← decodeCookie_eq_none, hdec]
            simp only [reduceCtorEq, not_false_eq_true]
          simp only [HsOutput.failed, hlen, decide_false, and_self]
  | handshakeResponse =>
      have hstep : c.onHandshakeResponse C body = (c.clockSyncRequest, c) := if_pos hkeys
      rw [hstep]
      exact ⟨rfl, rfl, rfl, rfl⟩
  | clockSyncResponse =>
      simp only [onClockSyncResponse]
      cases hdec : decodeClockSync body with
      | none =>
          have hlen := (decodeClockSync_eq_none body).mp hdec
          simp only [HsOutput.failed, hlen, decide_true, and_self]
      | some cs =>
          have hlen : ¬ body.length < 16 := by
            rw [← decodeClockSync_eq_none, hdec]
            simp only [reduceCtorEq, not_false_eq_true]
          simp only [HsOutput.failed, hlen, decide_false, and_self]
  | _ => exact ⟨rfl, rfl, rfl, rfl⟩

namespace ClientConnection

def session (c : ClientConnection Key) : Session Key :=
  { state := c.state, token := c.token, handshakeToken := c.client.token, epoch := c.client.epoch
    keys := c.client.keys, channel := c.channel }

theorem buildChannel_done (c : ClientConnection Key) (hch : c.channel.isSome = true) :
    c.buildChannel C = (.nothing, c) := by
  rcases Option.isSome_iff_exists.mp hch with ⟨ch, hch⟩
  unfold buildChannel
  rw [hch]

/-- A clear message ends the session or leaves it as it is. -/
theorem onClear_session (fresh : EcdhKeyPair) (c : ClientConnection Key) (type : MsgType)
    (body : Bytes) (hkeys : c.client.keys.isSome = true) (hch : c.channel.isSome = true) :
    (c.onClear C fresh type body).2.session =
      if clearFailsClient type body = true then c.session.ended else c.session := by
  rcases HandshakeClient.onMessage_keyed C fresh c.client type body hkeys with
    ⟨hfail, htoken, hepoch, hkeep⟩
  -- The channel is there, so no answer builds one.
  have hdone : ∀ c' : ClientConnection Key, c'.channel = c.channel →
      c'.buildChannel C = (.nothing, c') := by
    intro c' hc'
    rw [← hc'] at hch
    exact buildChannel_done C c' hch
  rw [← hfail]
  unfold onClear
  cases hout : (c.client.onMessage C fresh type body).1 with
  | fail reason =>
      simp only [hout, HsOutput.failed, if_true, session, Session.ended, htoken, hepoch, hkeep]
  | none =>
      simp only [hout, hdone, HsOutput.failed, Bool.false_eq_true, if_false, session, htoken, hepoch, hkeep]
  | message t b =>
      simp only [hout, hdone, HsOutput.failed, Bool.false_eq_true, if_false, session, htoken, hepoch, hkeep]

/-- A clear datagram leaves an established session as it is exactly where it is not
    one of those that end it. -/
theorem onDatagram_clear (fresh : EcdhKeyPair) (c : ClientConnection Key) (dg : Bytes)
    (hest : c.session.Established) (hclear : IsClear dg) :
    (c.onDatagram C fresh dg).2.session = c.session ↔ ¬ ClearBreaks dg := by
  unfold ClearBreaks
  rcases List.head?_eq_some_iff.mp hclear with ⟨rest, rfl⟩
  cases rest with
  | nil =>
      simp only [onDatagram, if_true, List.cons.injEq, reduceCtorEq, false_and, and_false,
        exists_false, not_false_eq_true]
  | cons type body =>
      have hstep : c.onDatagram C fresh (kindClearHandshake :: type :: body) =
          c.onClear C fresh (.ofByte type) body := rfl
      rw [hstep, onClear_session C fresh c _ body hest.keys hest.channel]
      by_cases hfails : clearFailsClient (.ofByte type) body = true
      · rw [if_pos hfails]
        constructor
        · intro heq
          exact absurd heq hest.ended_ne
        · intro hnone
          exact absurd ⟨type, body, rfl, hfails⟩ hnone
      · rw [if_neg hfails]
        refine ⟨?_, fun _ => rfl⟩
        rintro - ⟨type', body', heq, hfails'⟩
        simp only [List.cons.injEq, true_and] at heq
        rw [heq.1, heq.2] at hfails
        exact hfails hfails'

end ClientConnection

end Client

section Server

variable {Key : Type} (C : CryptoProvider Key)

/-- The clear datagrams that end an established server connection: a clock request
    that is too short. -/
def ServerConnection.ClearBreaks (dg : Bytes) : Prop :=
  ∃ type body, dg = kindClearHandshake :: type :: body ∧
    MsgType.ofByte type = .clockSyncRequest ∧ body.length < 16

namespace ServerConnection

def session (c : ServerConnection Key) : Session Key :=
  { state := c.state, token := c.token, handshakeToken := c.server.token, epoch := c.server.epoch
    keys := c.server.keys, channel := c.channel }

theorem buildChannel_done (c : ServerConnection Key) (hch : c.channel.isSome = true) :
    c.buildChannel = c := by
  rcases Option.isSome_iff_exists.mp hch with ⟨ch, hch⟩
  unfold buildChannel
  rw [hch]

theorem onClear_session (c : ServerConnection Key) (type : MsgType) (body : Bytes)
    (hch : c.channel.isSome = true) :
    (c.onClear type body).2.session =
      if type = .clockSyncRequest ∧ body.length < 16 then c.session.ended else c.session := by
  unfold onClear
  by_cases htype : type = .clockSyncRequest
  · rw [if_pos htype]
    unfold HandshakeServerConnection.onClockSyncRequest
    cases hdec : decodeClockSync body with
    | none =>
        have hlen := (decodeClockSync_eq_none body).mp hdec
        rw [if_pos ⟨htype, hlen⟩]
        rfl
    | some cs =>
        have hlen : ¬ body.length < 16 := by
          rw [← decodeClockSync_eq_none, hdec]
          simp only [reduceCtorEq, not_false_eq_true]
        have hdone : ∀ c' : ServerConnection Key, c'.channel = c.channel → c'.buildChannel = c' := by
          intro c' hc'
          rw [← hc'] at hch
          exact buildChannel_done c' hch
        rw [if_neg fun h => hlen h.2]
        simp only [hdone, session]
  · rw [if_neg htype, if_neg fun h => htype h.1]

/-- What a clear datagram leaves of a connection that has its channel. -/
theorem onDatagram_session (c : ServerConnection Key) (dg : Bytes) (hch : c.channel.isSome = true)
    (hclear : IsClear dg) :
    (¬ ClearBreaks dg → (c.onDatagram C dg).2.session = c.session) ∧
      (ClearBreaks dg → (c.onDatagram C dg).2.session = c.session.ended) := by
  unfold ClearBreaks
  rcases List.head?_eq_some_iff.mp hclear with ⟨rest, rfl⟩
  cases rest with
  | nil =>
      refine ⟨fun _ => rfl, ?_⟩
      rintro ⟨type, body, heq, -⟩
      exact absurd heq (by simp only [List.cons.injEq, reduceCtorEq, and_false, not_false_eq_true])
  | cons type body =>
      have hstep : c.onDatagram C (kindClearHandshake :: type :: body) =
          c.onClear (.ofByte type) body := rfl
      rw [hstep, onClear_session c _ body hch]
      constructor
      · intro hnone
        rw [if_neg fun h => hnone ⟨type, body, rfl, h⟩]
      · rintro ⟨type', body', heq, hbreak⟩
        simp only [List.cons.injEq, true_and] at heq
        rw [heq.1, heq.2, if_pos hbreak]

theorem onDatagram_clear (c : ServerConnection Key) (dg : Bytes) (hest : c.session.Established)
    (hclear : IsClear dg) :
    (c.onDatagram C dg).2.session = c.session ↔ ¬ ClearBreaks dg := by
  have h := onDatagram_session C c dg hest.channel hclear
  refine ⟨fun heq hbreak => ?_, h.1⟩
  exact hest.ended_ne ((h.2 hbreak).symm.trans heq)

/-- A clear datagram hands nothing on. -/
theorem onDatagram_clear_app (c : ServerConnection Key) (dg : Bytes) (hclear : IsClear dg) :
    (c.onDatagram C dg).1.app = [] := by
  rcases List.head?_eq_some_iff.mp hclear with ⟨rest, rfl⟩
  cases rest with
  | nil => rfl
  | cons type body =>
      show (c.onClear (.ofByte type) body).1.app = []
      unfold onClear
      split
      · simp only []
        split <;> rfl
      · rfl

end ServerConnection

end Server

/-! ## The keys of a channel -/

/-- The token and the two keys of a channel, which it is built with. -/
def SecureChannel.ends {Key : Type} (ch : SecureChannel Key) : UInt64 × Key × Key :=
  (ch.token, ch.sendKey, ch.recvKey)

section Ends

variable {Key : Type} (C : CryptoProvider Key)

theorem sealMessage_ends {ch ch' : SecureChannel Key} {channel : Channel} {type : MsgType}
    {body d : Bytes} (h : sealMessage C.toICrypto ch channel type body = some (d, ch')) :
    ch'.ends = ch.ends := by
  unfold sealMessage SecureChannel.sealDatagram at h
  split at h
  · exact absurd h nofun
  · simp only [] at h
    split at h
    · exact absurd h nofun
    · rw [Option.map_some, Option.some.injEq, Prod.mk.injEq] at h
      rw [← h.2]
      rfl

theorem receive_ends (ch : SecureChannel Key) (rest : Bytes) :
    (receive C.toICrypto ch rest).2.ends = ch.ends := by
  have hopen : (ch.openDatagram C.toICrypto rest).2.ends = ch.ends := by
    unfold SecureChannel.openDatagram
    split
    · rfl
    · split
      · rfl
      · split
        · rfl
        · simp only []
          split
          · rfl
          · split
            · rfl
            · rfl
  unfold receive
  simp only []
  split
  · exact hopen
  · exact hopen

/-- A server connection keeps the keys it agreed on, and its channel the ends it was built
    with; a channel that is built has those keys. -/
structure ServerConnection.Keeps (c c' : ServerConnection Key) : Prop where
  keys : c'.server.keys = c.server.keys
  epoch : c'.server.epoch = c.server.epoch
  token : c'.token = c.token
  last : c'.lastHandshakeDatagram = c.lastHandshakeDatagram
  channel : c'.channel.map SecureChannel.ends = c.channel.map SecureChannel.ends ∨
    c.channel = none ∧ c'.channel.map SecureChannel.ends =
      c.server.keys.map fun k => (c.token, k.2, k.1)

theorem ServerConnection.Keeps.refl (c : ServerConnection Key) : c.Keeps c :=
  ⟨rfl, rfl, rfl, rfl, .inl rfl⟩

theorem ServerConnection.Keeps.trans {a b c : ServerConnection Key} (hab : a.Keeps b)
    (hbc : b.Keeps c) : a.Keeps c where
  keys := hbc.keys.trans hab.keys
  epoch := hbc.epoch.trans hab.epoch
  token := hbc.token.trans hab.token
  last := hbc.last.trans hab.last
  channel := by
    rcases hbc.channel with hsame | ⟨hnone, hbuilt⟩
    · rcases hab.channel with h | ⟨h, h'⟩
      · exact .inl (hsame.trans h)
      · exact .inr ⟨h, hsame.trans h'⟩
    · rw [hab.keys, hab.token] at hbuilt
      rcases hab.channel with h | ⟨h, _⟩
      · rw [hnone, Option.map_none] at h
        exact .inr ⟨Option.map_eq_none_iff.mp h.symm, hbuilt⟩
      · exact .inr ⟨h, hbuilt⟩

theorem ServerConnection.sealApp_keeps {c c' : ServerConnection Key} {ch : Channel}
    {type : MsgType} {body d : Bytes} (h : c.sealApp C ch type body = some (d, c')) :
    ∃ channel : Option (SecureChannel Key),
      channel.map SecureChannel.ends = c.channel.map SecureChannel.ends ∧
        c' = { c with channel := channel } := by
  unfold ServerConnection.sealApp at h
  cases hch : c.channel with
  | none =>
      rw [hch] at h
      exact absurd h nofun
  | some channel =>
      rw [hch] at h
      rcases Option.map_eq_some_iff.mp h with ⟨r, hseal, heq⟩
      rw [Prod.mk.injEq] at heq
      refine ⟨some r.2, ?_, heq.2.symm⟩
      exact congrArg some (sealMessage_ends C (d := r.1) hseal)

theorem ServerConnection.handleAll_keeps (ms : List DecodedMessage) (c : ServerConnection Key) :
    c.Keeps (ServerConnection.handleAll C c ms).2 := by
  have hone : ∀ (c : ServerConnection Key) (m : DecodedMessage),
      c.Keeps (c.handleAppMessage C m).2 := by
    intro c m
    unfold ServerConnection.handleAppMessage
    split
    · exact ⟨rfl, rfl, rfl, rfl, .inl rfl⟩
    · exact .refl c
    · unfold ServerConnection.onLoginRequest
      simp only []
      split
      · exact ⟨rfl, rfl, rfl, rfl, .inl rfl⟩
      · rename_i d c' hseal
        rcases ServerConnection.sealApp_keeps C hseal with ⟨channel, hends, rfl⟩
        exact ⟨rfl, rfl, rfl, rfl, .inl hends⟩
    · exact .refl c
  induction ms generalizing c with
  | nil => exact .refl c
  | cons m ms ih => exact (hone c m).trans (ih _)

theorem ServerConnection.onDatagram_keeps (c : ServerConnection Key) (dg : Bytes) :
    c.Keeps (c.onDatagram C dg).2 := by
  have hbuild : ∀ c : ServerConnection Key, c.Keeps c.buildChannel := by
    intro c
    unfold ServerConnection.buildChannel
    split
    · rename_i keys hch hkeys
      split
      · exact .refl c
      · refine ⟨rfl, rfl, rfl, rfl, .inr ⟨hch, ?_⟩⟩
        rw [hkeys]
        rfl
    · exact .refl c
  have hclock : ∀ body, c.Keeps { c with server := (c.server.onClockSyncRequest body).2 } := by
    intro body
    unfold HandshakeServerConnection.onClockSyncRequest
    split
    · exact ⟨rfl, rfl, rfl, rfl, .inl rfl⟩
    · exact ⟨rfl, rfl, rfl, rfl, .inl rfl⟩
  have hclear : ∀ type body, c.Keeps (c.onClear type body).2 := by
    intro type body
    unfold ServerConnection.onClear
    split
    · simp only []
      have hserver := hclock body
      split
      · exact hserver.trans ⟨rfl, rfl, rfl, rfl, .inl rfl⟩
      · exact hserver.trans (hbuild _)
      · exact hserver.trans (hbuild _)
    · exact .refl c
  have hmoved : ∀ ch rest, c.channel = some ch →
      c.Keeps { c with channel := some (receive C.toICrypto ch rest).2 } := by
    intro ch rest hch
    refine ⟨rfl, rfl, rfl, rfl, .inl ?_⟩
    rw [hch]
    exact congrArg some (receive_ends C ch rest)
  unfold ServerConnection.onDatagram
  split
  · exact .refl c
  · split
    · split
      · exact .refl c
      · exact hclear _ _
    · split
      · split
        · exact .refl c
        · rename_i ch hch
          exact (hmoved ch _ hch).trans (ServerConnection.handleAll_keeps C _ _)
      · exact .refl c

end Ends

/-! ## A provider to run with -/

/-- A digest of some bytes. -/
def digest (b : Bytes) : UInt8 := b.foldl (fun acc x => acc * 31 + x) 7

/-- A provider whose two ends agree: the secret is the same from either side, a
    signature verifies for the key it was made over, and a cookie for its address. -/
def sampleProvider : CryptoProvider UInt8 where
  toICrypto := SecureChannel.checksumCrypto
  deriveSharedSecret := fun ours theirs =>
    some (List.Vector.replicate 32 (digest ours.publicKey.toList + digest theirs.toList))
  sign := fun _ pub => some pub
  verify := fun _ pub sig => decide (pub.toList = sig.toList)
  deriveAeadKeys := fun secret epoch =>
    let k := digest secret.toList + UInt8.ofNat epoch.toNat
    some (k, k + 1)
  makeCookie := fun secret addr => List.Vector.replicate 32 (digest (secret ++ addr))
  verifyCookie := fun secret addr cookie =>
    decide (cookie.toList = List.replicate 32 (digest (secret ++ addr)))

/-- A key pair for a seed. -/
def sampleKeyPair (seed : UInt8) : EcdhKeyPair := ⟨List.Vector.replicate ecPubKeyBytes seed, [seed]⟩

end Net

end EarthRise
