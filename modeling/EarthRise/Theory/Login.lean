import EarthRise.Core.Exchange
import EarthRise.Theory.FakeCrypto
import EarthRise.Theory.RoutingRun
import EarthRise.Theory.SignIn

/-!
# A New Client Gets In

A client with a new connection and a host that has been through any run, over a network that
loses nothing: each datagram of the client is answered before anything else happens. Three
rounds take both ends through the handshake, to channels that open what the other one seals, and
in the fourth the host binds the account's base and the client is told. The host's other
connections are left as they are until then.

Each step is a lemma about one datagram, with what the client is afterwards, so the rounds are
put together by rewriting.

## Main definitions

* `Talk`, `Talk.round`: Both ends with what the client has sent, and a round of answers.
* `Shaking`: A client in the handshake.
* `Agreed`: A connection of the host in the handshake.
* `Talk.Joined`: Both ends after the handshake.

## Theorems

* `host_hello`, `client_cookie`, `host_response`, `client_response`, `host_clock`,
  `client_clock`: What each datagram of the handshake leads to.
* `handshake_completes`: Three rounds make a pair of channels.
* `host_login`, `client_result`: The login and its answer.
* `login_completes`: A player with an account gets in within four rounds.
-/

namespace EarthRise

namespace Net

open Persist Run

/-! ## Rounds -/

variable {Key W Snap A : Type}

/-- A host and a client, with the datagrams that the client has sent. -/
structure Talk (Key W A : Type) where
  host : ServerHost Key W A
  client : ClientConnection Key
  sent : List Bytes

namespace Talk

variable (C : CryptoProvider Key) (U : GameUniverse W Snap) (S : AccountService A)

/-- The host gets datagrams of a peer. -/
def serve (fresh : EcdhKeyPair) (src : Endpoint) :
    ServerHost Key W A → List Bytes → List OutDatagram × ServerHost Key W A
  | h, [] => ([], h)
  | h, d :: ds =>
      let r := h.onDatagram C U S fresh src d
      let rs := serve fresh src r.2 ds
      (r.1 ++ rs.1, rs.2)

/-- The client gets datagrams. -/
def hear (fresh : EcdhKeyPair) :
    ClientConnection Key → List Bytes → List Bytes × ClientConnection Key
  | c, [] => ([], c)
  | c, d :: ds =>
      let r := c.onDatagram C fresh d
      let rs := hear fresh r.2 ds
      (r.1.send ++ rs.1, rs.2)

/-- What the client has sent gets to the host, and what the host answers gets to the client. -/
def round (hostPair clientPair : EcdhKeyPair) (src : Endpoint) (w : Talk Key W A) :
    Talk Key W A :=
  let s := serve C U S hostPair src w.host w.sent
  let r := hear C clientPair w.client ((s.1.filter fun o => o.dest = src).map OutDatagram.data)
  ⟨s.2, r.2, r.1⟩

/-- One datagram, its one answer and what the client makes of that. -/
theorem round_eq {hostPair clientPair : EcdhKeyPair} {src : Endpoint} {w : Talk Key W A}
    {d a : Bytes} {h : ServerHost Key W A} {sent : List Bytes} {c : ClientConnection Key}
    (hsent : w.sent = [d])
    (hhost : w.host.onDatagram C U S hostPair src d = ([⟨src, a⟩], h))
    (hclient : (w.client.onDatagram C clientPair a).1.send = sent ∧
      (w.client.onDatagram C clientPair a).2 = c) :
    w.round C U S hostPair clientPair src = ⟨h, c, sent⟩ := by
  unfold round
  rw [hsent]
  simp only [serve, hhost, List.append_nil, List.filter_cons, decide_true, if_true,
    List.filter_nil, List.map_cons, List.map_nil, hear, hclient.1, hclient.2]

end Talk

/-! ## The handshake, datagram by datagram -/

section Handshake

variable (C : CryptoProvider Key) (U : GameUniverse W Snap) (S : AccountService A)
  {h : ServerHost Key W A} {src : Endpoint}

theorem clear_ne_encrypted : kindClearHandshake ≠ kindEncrypted := by decide

/-- A hello is answered with a cookie, and the host keeps nothing of it. -/
theorem host_hello (hroute : h.routeOf src = none)
    (fresh : EcdhKeyPair) :
    h.onDatagram C U S fresh src
        (makeHandshakeDatagram .clientHello (encodeClientHello protocolId)) =
      ([⟨src, makeHandshakeDatagram .cookie (C.makeCookie h.serverSecret src.addrBytes).toList⟩],
        h) := by
  have hdecode : decodeClientHello (encodeClientHello protocolId) = some protocolId := by decide
  unfold ServerHost.onDatagram makeHandshakeDatagram
  simp only [if_neg clear_ne_encrypted, ne_eq, not_true_eq_false, if_false, hroute,
    MsgType.toByte, MsgType.ofByte, ServerHost.onStateless, onClientHello, hdecode]
  rfl

theorem decodeCookie_toList (cookie : Cookie) : decodeCookie cookie.toList = some cookie := by
  have h := takeArray_append [] [] cookie rfl
  rwa [List.append_nil] at h

/-! ### The client -/

namespace ClientConnection

theorem onDatagram_made (c : ClientConnection Key) (fresh : EcdhKeyPair) {type : MsgType}
    (ht : type.Named) (body : Bytes) :
    c.onDatagram C fresh (makeHandshakeDatagram type body) = c.onClear C fresh type body := by
  unfold onDatagram makeHandshakeDatagram
  simp only [if_true, MsgType.ofByte_toByte type ht]

/-- Nothing is built before the keys are there and the handshake is over. -/
theorem buildChannel_early {c : ClientConnection Key}
    (h : c.client.keys = none ∨ c.client.complete = false) : c.buildChannel C = (.nothing, c) := by
  unfold buildChannel
  split
  · rename_i keys _ hkeys
    rcases h with hnone | hcomplete
    · rw [hnone] at hkeys
      exact absurd hkeys nofun
    · rw [if_pos hcomplete]
  · rfl

/-- A clear message that is answered before the handshake is over. -/
theorem onClear_message {c : ClientConnection Key} {fresh : EcdhKeyPair} {type t : MsgType}
    {body b : Bytes} {client : HandshakeClient Key}
    (h : c.client.onMessage C fresh type body = (.message t b, client))
    (hearly : client.keys = none ∨ client.complete = false) :
    c.onClear C fresh type body = (⟨[], [makeHandshakeDatagram t b]⟩,
      { c with client := client, lastHandshakeDatagram := makeHandshakeDatagram t b }) := by
  unfold onClear
  simp only [h]
  rw [buildChannel_early C (c := { c with
    client := client, lastHandshakeDatagram := makeHandshakeDatagram t b }) hearly]
  rfl

end ClientConnection

/-- A client in the handshake, with the key pair and the keys that it has by now. -/
structure Shaking (c : ClientConnection Key) (pinnedPub : EcPubKey) (clientTime : UInt64)
    (name password : Bytes) (pair : Option EcdhKeyPair) (keys : Option (Key × Key)) : Prop where
  pinned : c.client.pinnedStaticPub = pinnedPub
  time : c.client.clientTime = clientTime
  pair : c.client.ephemeral = pair
  keys : c.client.keys = keys
  early : c.client.complete = false
  channel : c.channel = none
  login : c.realAuth = true ∧ c.authOpcode = authOpcodeLogin
  credentials : c.loginName = name ∧ c.password = password

theorem shaking_start (pinnedPub : EcPubKey) (clientTime : UInt64) (name password : Bytes) :
    Shaking (.start pinnedPub clientTime name (some password) : ClientConnection Key) pinnedPub
      clientTime name password none none :=
  ⟨rfl, rfl, rfl, rfl, rfl, rfl, ⟨rfl, rfl⟩, ⟨rfl, rfl⟩⟩

variable {pinnedPub : EcPubKey} {clientTime : UInt64} {name password : Bytes}
  {c : ClientConnection Key} {keys : Key × Key}

/-- The first cookie makes the client's key pair and is echoed with its public key. -/
theorem client_cookie
    (hc : Shaking c pinnedPub clientTime name password none none) (fresh : EcdhKeyPair)
    (cookie : Cookie) : ∃ c',
    c.onDatagram C fresh (makeHandshakeDatagram .cookie cookie.toList) =
      (⟨[], [makeHandshakeDatagram .cookieResponse
        (CookieResponseBody.encode ⟨cookie, fresh.publicKey⟩)]⟩, c') ∧
      Shaking c' pinnedPub clientTime name password (some fresh) none := by
  have hanswer : c.client.onMessage C fresh .cookie cookie.toList = (.message .cookieResponse
      (CookieResponseBody.encode ⟨cookie, fresh.publicKey⟩),
      { c.client with ephemeral := some fresh }) := by
    unfold HandshakeClient.onMessage
    simp only [HandshakeClient.onCookie, decodeCookie_toList, hc.pair, Option.getD_none]
  rw [c.onDatagram_made C fresh (by intro code; simp only [ne_eq, reduceCtorEq,
    not_false_eq_true]), ClientConnection.onClear_message C hanswer (.inl hc.keys)]
  exact ⟨_, rfl, hc.pinned, hc.time, rfl, hc.keys, hc.early, hc.channel, hc.login, hc.credentials⟩

/-- A response with a good signature gives the client its keys, and it asks for the time. -/
theorem client_response {pair : EcdhKeyPair}
    (hc : Shaking c pinnedPub clientTime name password (some pair) none) (fresh : EcdhKeyPair)
    (resp : HandshakeResponseBody)
    (hverify : C.verify pinnedPub resp.serverEphemeralPub resp.signature = true)
    {secret : SharedSecret}
    (hsecret : C.deriveSharedSecret pair resp.serverEphemeralPub = some secret)
    (hderive : C.deriveAeadKeys secret resp.epoch = some keys) : ∃ c',
    c.onDatagram C fresh (makeHandshakeDatagram .handshakeResponse resp.encode) =
      (⟨[], [makeHandshakeDatagram .clockSyncRequest
        (ClockSyncBody.encode ⟨clientTime, 0, 1⟩)]⟩, c') ∧
      Shaking c' pinnedPub clientTime name password (some pair) (some keys) ∧
      c'.client.token = resp.connectionToken := by
  have hanswer : c.client.onMessage C fresh .handshakeResponse resp.encode =
      (.message .clockSyncRequest (ClockSyncBody.encode ⟨clientTime, 0, 1⟩), { c.client with
        token := resp.connectionToken, epoch := resp.epoch, keys := some keys }) := by
    unfold HandshakeClient.onMessage HandshakeClient.onHandshakeResponse
    simp only [hc.keys, hc.pair, hc.pinned, Option.isSome_none, Bool.false_eq_true, if_false,
      decodeHandshakeResponse_encode, hverify, Bool.true_eq_false, Option.getD_some, hsecret,
      hderive, HandshakeClient.clockSyncRequest, hc.time]
  rw [c.onDatagram_made C fresh (by intro code; simp only [ne_eq, reduceCtorEq,
    not_false_eq_true]), ClientConnection.onClear_message C hanswer (.inr hc.early)]
  exact ⟨_, rfl, ⟨hc.pinned, hc.time, hc.pair, rfl, hc.early, hc.channel, hc.login,
    hc.credentials⟩, rfl⟩

/-- A clock reading is long enough to be read. -/
theorem decodeClockSync_encode (cs : ClockSyncBody) :
    ∃ cs', decodeClockSync cs.encode = some cs' := by
  cases h : decodeClockSync cs.encode with
  | some cs' => exact ⟨cs', rfl⟩
  | none =>
      rw [decodeClockSync_eq_none] at h
      unfold ClockSyncBody.encode at h
      simp only [List.length_append, putU64, putU32, length_putLE] at h
      omega

/-- What a provider that can encrypt seals is sent. -/
theorem sealMessage_sends
    (hseals : ∀ key dir pn aad plain, (C.encrypt key dir pn aad plain).isSome = true)
    {ch : SecureChannel Key} (hkeys : ch.hasKeys = true) (channel : Channel) (type : MsgType)
    (body : Bytes) : ∃ r, sealMessage C.toICrypto ch channel type body = some r := by
  obtain ⟨ct, hct⟩ := Option.isSome_iff_exists.mp (hseals ch.sendKey ch.sendDir ch.sendCounter
    (writePacketHeader ⟨protocolId, ch.token, ch.sendCounter⟩) (writeMessage channel type body))
  unfold sealMessage SecureChannel.sealDatagram
  rw [if_neg (by rw [hkeys]; decide)]
  simp only [hct, Option.map_some]
  exact ⟨_, rfl⟩

/-- Sealing leaves the window. -/
theorem sealMessage_replay {ch : SecureChannel Key} {channel : Channel} {type : MsgType}
    {body : Bytes} {r : Bytes × SecureChannel Key}
    (h : sealMessage C.toICrypto ch channel type body = some r) : r.2.replay = ch.replay := by
  unfold sealMessage at h
  rw [Option.map_eq_some_iff] at h
  obtain ⟨⟨d, ch'⟩, hseal, rfl⟩ := h
  have hcounter := (CommandLink.sealDatagram_counter C.toICrypto ch ch' _ d hseal).1
  show ch'.replay = ch.replay
  rw [hcounter]

/-- A client with a channel sends its credentials. -/
theorem sendAuth_sends (hC : C.Correct)
    (hseals : ∀ key dir pn aad plain, (C.encrypt key dir pn aad plain).isSome = true)
    {cc sc : SecureChannel Key} (hcc : c.channel = some cc)
    (hmates : cc.Mates sc) (huser : validUsername c.loginName = true)
    (hpass : validPassword c.password = true) :
    ∃ d cc', c.emit (c.sendAuth C) = (⟨[], [d]⟩, { c with channel := some cc' }) ∧
      cc.Moved cc' ∧ cc'.replay = cc.replay ∧
      Opens C sc d (credential c.authOpcode c.loginName c.password) := by
  obtain ⟨cc', hmoved, hafter, hopens⟩ :=
    ClientConnection.sendAuth_spec hC hcc hmates huser hpass
  obtain ⟨r, hr⟩ := sealMessage_sends C hseals hmates.fromLeft.hasKeys .reliableOrdered .command
    (encodeAuthRequest c.authOpcode c.loginName c.password)
  have hsend : c.sendAuth C = some (r.1, { c with channel := some r.2 }) := by
    unfold ClientConnection.sendAuth ClientConnection.sealOn
    simp only [hcc, hr, Option.map_some]
  rw [hsend] at hafter hopens ⊢
  have hcc' : r.2 = cc' := Option.some.inj (congrArg (·.channel) hafter)
  refine ⟨r.1, cc', Prod.ext rfl hafter, hmoved, ?_, hopens r.1 (List.mem_singleton_self _)⟩
  rw [← hcc']
  exact sealMessage_replay C hr

/-- The host's time ends the client's handshake: it builds its channel and logs in. -/
theorem client_clock (hC : C.Correct)
    (hseals : ∀ key dir pn aad plain, (C.encrypt key dir pn aad plain).isSome = true)
    {pair : Option EcdhKeyPair}
    (hc : Shaking c pinnedPub clientTime name password pair (some keys)) (fresh : EcdhKeyPair)
    (reply : ClockSyncBody) {sc : SecureChannel Key}
    (hmates : (openChannel .clientToServer c.client.token keys.1 keys.2).Mates sc)
    (hname : validUsername name = true) (hpassword : validPassword password = true) :
    ∃ d c' cc,
      c.onDatagram C fresh (makeHandshakeDatagram .clockSyncResponse reply.encode) =
        (⟨[], [d]⟩, c') ∧
      c'.state = .authenticating ∧ c'.channel = some cc ∧ c'.token = c.client.token ∧
      cc.Mates sc ∧ cc.replay = .reset ∧
      Opens C sc d (credential authOpcodeLogin name password) := by
  obtain ⟨cs', hcs⟩ := decodeClockSync_encode reply
  obtain ⟨built, hbuilt, hcc, hstate, htoken, hlogin, hcredentials⟩ :
      ∃ built : ClientConnection Key,
        c.onClear C fresh .clockSyncResponse reply.encode = built.emit (built.sendLogin C) ∧
        built.channel = some (openChannel .clientToServer c.client.token keys.1 keys.2) ∧
        built.state = .authenticating ∧ built.token = c.client.token ∧
        (built.realAuth = c.realAuth ∧ built.authOpcode = c.authOpcode) ∧
        built.loginName = c.loginName ∧ built.password = c.password := by
    unfold ClientConnection.onClear HandshakeClient.onMessage HandshakeClient.onClockSyncResponse
    simp only [hcs, ClientConnection.buildChannel, hc.channel, hc.keys, Bool.true_eq_false,
      if_false]
    exact ⟨_, rfl, rfl, rfl, rfl, ⟨rfl, rfl⟩, rfl, rfl⟩
  rw [hc.login.1, hc.login.2] at hlogin
  rw [hc.credentials.1, hc.credentials.2] at hcredentials
  obtain ⟨d, cc', hsend, hmoved, hwindow, hopens⟩ := sendAuth_sends C hC hseals hcc hmates
    (by rw [hcredentials.1]; exact hname) (by rw [hcredentials.2]; exact hpassword)
  rw [hlogin.2, hcredentials.1, hcredentials.2] at hopens
  rw [c.onDatagram_made C fresh (by intro code; simp only [ne_eq, reduceCtorEq,
    not_false_eq_true]), hbuilt]
  unfold ClientConnection.sendLogin
  rw [if_pos hlogin.1, hsend]
  exact ⟨d, _, cc', rfl, hstate, rfl, htoken, hmates.moved hmoved (.refl sc), hwindow, hopens⟩

/-! ### The host -/

/-- A connection that has agreed on keys and waits for the client's clock. -/
structure Agreed (e : ConnEntry Key) (token : UInt64) (src : Endpoint) (keys : Key × Key) :
    Prop where
  token : e.conn.token = token
  endpoint : e.endpoint = src
  keys : e.conn.server.keys = some keys
  channel : e.conn.channel = none
  state : e.conn.state = .handshaking

/-- The server's end agrees on keys and says so. -/
theorem begin_agrees (c : ServerConnection Key) (fresh : EcdhKeyPair) (cr : CookieResponseBody)
    (sig : EcSignature) (keys : Key × Key) {secret : SharedSecret}
    (hsecret : C.deriveSharedSecret fresh cr.clientEphemeralPub = some secret)
    (hsign : C.sign c.server.staticPriv fresh.publicKey = some sig)
    (hderive : C.deriveAeadKeys secret c.server.epoch = some keys) :
    let d := makeHandshakeDatagram .handshakeResponse
      (HandshakeResponseBody.encode ⟨fresh.publicKey, sig, c.server.token, c.server.epoch⟩)
    c.beginFromCookieResponse C fresh cr.encode =
      (⟨[], [d]⟩, { c with
        server := { c.server with keys := some keys }
        lastHandshakeDatagram := d, state := .handshaking }) := by
  unfold ServerConnection.beginFromCookieResponse HandshakeServerConnection.onCookieResponse
  simp only [decodeCookieResponse_encode, hsecret, hsign, hderive]

/-- The world of a new connection is all that its base changes. -/
theorem spawned_world (h : ServerHost Key W A) (slot : Nat) : ∃ id w,
    (if h.devAuthStub then h.spawnPlayerWorld U slot else (0, h)) = (id, { h with world := w }) ∧
      (h.devAuthStub = false → w = h.world) := by
  split
  · rename_i hstub
    exact ⟨(h.spawnPlayerWorld U slot).1, (h.spawnPlayerWorld U slot).2.world, rfl,
      fun h => absurd (hstub.symm.trans h) (by decide)⟩
  · exact ⟨0, h.world, rfl, fun _ => rfl⟩

/-- A good cookie makes a connection, with keys that the client can derive as well. -/
theorem host_response {Gen : EcdhKeyPair → Prop} {pinnedPub : EcPubKey}
    (hworks : C.Works Gen h.staticPriv pinnedPub) {hostPair clientPair : EcdhKeyPair}
    (hhost : Gen hostPair) (hclient : Gen clientPair)
    (hroute : h.routeOf src = none) (hfree : h.entryForToken h.nextToken = none) :
    ∃ sig secret keys h' e,
      C.verify pinnedPub hostPair.publicKey sig = true ∧
      C.deriveSharedSecret clientPair hostPair.publicKey = some secret ∧
      C.deriveAeadKeys secret 0 = some keys ∧
      h.onDatagram C U S hostPair src (makeHandshakeDatagram .cookieResponse
          (CookieResponseBody.encode
            ⟨C.makeCookie h.serverSecret src.addrBytes, clientPair.publicKey⟩)) =
        ([⟨src, makeHandshakeDatagram .handshakeResponse
          (HandshakeResponseBody.encode ⟨hostPair.publicKey, sig, h.nextToken, 0⟩)⟩], h') ∧
      h'.conns = h.conns ++ [(h.nextToken, e)] ∧
      h'.addrToToken src = some h.nextToken ∧
      Agreed e h.nextToken src keys ∧ e.authed = h.devAuthStub ∧
      (h'.accounts = h.accounts ∧ h'.nowUnix = h.nowUnix) ∧
      (h.devAuthStub = false → h'.world = h.world) := by
  obtain ⟨secret, hours, htheirs⟩ := hworks.agree hostPair clientPair hhost hclient
  obtain ⟨sig, hsign, hverify⟩ := hworks.signs hostPair.publicKey
  obtain ⟨keys, hderive⟩ := Option.isSome_iff_exists.mp (hworks.keys secret 0)
  refine ⟨sig, secret, keys, ?_⟩
  unfold ServerHost.nextToken at hfree ⊢
  unfold ServerHost.onDatagram makeHandshakeDatagram
  simp only [if_neg clear_ne_encrypted, ne_eq, not_true_eq_false, if_false, hroute,
    MsgType.toByte, MsgType.ofByte, ServerHost.onStateless, decodeCookieResponse_encode,
    hworks.cookie, Bool.true_eq_false]
  have hbegin := fun c : ServerConnection Key => begin_agrees C c hostPair
    ⟨C.makeCookie h.serverSecret src.addrBytes, clientPair.publicKey⟩ sig keys hours
  obtain ⟨id, w, hspawn, hw⟩ := spawned_world U
    { h with tokenCounter := h.tokenCounter + 1 } h.conns.length
  unfold ServerHost.accept
  dsimp only at hspawn ⊢
  rw [hspawn, hbegin _ hsign hderive]
  have hnew : ServerHost.entryForToken { h with tokenCounter := h.tokenCounter + 1, world := w }
      (ServerHost.mixToken (h.tokenCounter + 1)) = none := hfree
  dsimp only
  rw [hnew, if_neg (by simp only [Option.isSome_none, Bool.false_eq_true, not_false_eq_true])]
  exact ⟨_, _, hverify, htheirs, hderive, rfl, rfl, if_pos rfl, ⟨rfl, rfl, rfl, rfl, rfl⟩, rfl,
    ⟨rfl, rfl⟩, hw⟩

/-- The clock of a client that the host agreed with ends the handshake: the channel is built. -/
theorem host_clock {token : UInt64} {e : ConnEntry Key}
    (haddr : h.addrToToken src = some token)
    (he : h.entryForToken token = some e) (hagreed : Agreed e token src keys)
    (fresh : EcdhKeyPair) (cs : ClockSyncBody) : ∃ reply h' e',
      h.onDatagram C U S fresh src (makeHandshakeDatagram .clockSyncRequest cs.encode) =
        ([⟨src, makeHandshakeDatagram .clockSyncResponse (ClockSyncBody.encode reply)⟩], h') ∧
      h'.entryForToken token = some e' ∧ e'.endpoint = src ∧ e'.authed = e.authed ∧
      e'.conn.state = .authenticating ∧
      e'.conn.channel = some (openChannel .serverToClient token keys.2 keys.1) ∧
      (∀ t, t ≠ token → h'.entryForToken t = h.entryForToken t) ∧
      (h'.accounts = h.accounts ∧ h'.nowUnix = h.nowUnix) ∧ h'.world = h.world := by
  obtain ⟨cs', hcs⟩ := decodeClockSync_encode cs
  have hroute : h.routeOf src = some token := by
    unfold ServerHost.routeOf
    rw [haddr, Option.filter_some, he, if_pos Option.isSome_some]
  have hstamped : (h.modify token fun e => { e with lastSeenMs := h.nowMs }).entryForToken token =
      some { e with lastSeenMs := h.nowMs } := by
    rw [ServerHost.entryForToken_modify_self, he]
    rfl
  -- The connection answers with its time, and builds its channel.
  have hconn : e.conn.onDatagram C (makeHandshakeDatagram .clockSyncRequest cs.encode) =
      (⟨[], [makeHandshakeDatagram .clockSyncResponse (ClockSyncBody.encode
        ⟨cs'.clientTimeMicros, e.conn.server.serverTime, e.conn.server.dilationFactor⟩)]⟩,
        { e.conn with
          server := { e.conn.server with complete := true }, state := .authenticating
          channel := some (openChannel .serverToClient token keys.2 keys.1) }) := by
    unfold ServerConnection.onDatagram makeHandshakeDatagram
    simp only [if_true, MsgType.toByte, MsgType.ofByte, ServerConnection.onClear,
      HandshakeServerConnection.onClockSyncRequest, hcs, ServerConnection.buildChannel,
      hagreed.channel, hagreed.keys, hagreed.token, Bool.true_eq_false, if_false,
      makeHandshakeDatagram]
  have hdatagram : h.onDatagram C U S fresh src
      (makeHandshakeDatagram .clockSyncRequest cs.encode) =
      h.routeTo C U S token src (makeHandshakeDatagram .clockSyncRequest cs.encode) := by
    unfold ServerHost.onDatagram makeHandshakeDatagram
    simp only [if_neg clear_ne_encrypted, ne_eq, not_true_eq_false, if_false, hroute]
  have hrepeated : ServerHost.isRepeatedCookieResponse { e with lastSeenMs := h.nowMs }
      (makeHandshakeDatagram .clockSyncRequest cs.encode) = false := by
    unfold ServerHost.isRepeatedCookieResponse makeHandshakeDatagram
    exact Bool.and_false _
  generalize hbuilt : ({ e.conn with
    server := { e.conn.server with complete := true }, state := .authenticating
    channel := some (openChannel .serverToClient token keys.2 keys.1) } : ServerConnection Key) =
      conn at hconn
  generalize hstamp : (h.modify token fun e => { e with lastSeenMs := h.nowMs }) = h₁ at hstamped
  have hreceived : (h₁.setConn token conn).entryForToken token =
      some { e with lastSeenMs := h.nowMs, conn := conn } := by
    unfold ServerHost.setConn
    rw [ServerHost.entryForToken_modify_self, hstamped]
    rfl
  have hlive : conn.state = .authenticating := by rw [← hbuilt]
  have hroutes : h.routeTo C U S token src (makeHandshakeDatagram .clockSyncRequest cs.encode) =
      ([⟨src, makeHandshakeDatagram .clockSyncResponse (ClockSyncBody.encode
        ⟨cs'.clientTimeMicros, e.conn.server.serverTime, e.conn.server.dilationFactor⟩)⟩],
        h₁.setConn token conn) := by
    unfold ServerHost.routeTo ServerHost.dispatchToConnection
    simp only [hstamp, hstamped, hrepeated, Bool.false_eq_true, if_false, hconn,
      ServerHost.applyMessages, hreceived, hlive, reduceCtorEq, List.map_cons, List.map_nil,
      List.append_nil]
  rw [hdatagram, hroutes]
  refine ⟨_, _, _, rfl, hreceived, hagreed.endpoint, rfl, hlive, ?_, fun t ht => ?_, ?_⟩
  · rw [← hbuilt]
  · unfold ServerHost.setConn
    rw [ServerHost.entryForToken_modify_ne _ _ ht, ← hstamp,
      ServerHost.entryForToken_modify_ne _ _ ht]
  · rw [← hstamp]
    exact ⟨⟨rfl, rfl⟩, rfl⟩

/-! ## Three rounds -/

/-- A client with a new connection, about to send its hello. -/
def Talk.open (h : ServerHost Key W A) (c : ClientConnection Key) : Talk Key W A :=
  ⟨h, c, [c.lastHandshakeDatagram]⟩

/-- The two ends of a new connection, with the client's login under way. -/
structure Talk.Joined (w : Talk Key W A) (h : ServerHost Key W A) (src : Endpoint)
    (name password : Bytes) (e : ConnEntry Key) (cc sc : SecureChannel Key) : Prop where
  entry : w.host.entryForToken h.nextToken = some e
  endpoint : e.endpoint = src
  authed : e.authed = h.devAuthStub
  server : e.conn.state = .authenticating ∧ e.conn.channel = some sc ∧ sc.token = h.nextToken
  client : w.client.state = .authenticating ∧ w.client.channel = some cc ∧
    w.client.token = h.nextToken
  mates : cc.Mates sc
  login : ∃ d, w.sent = [d] ∧ Opens C sc d (credential authOpcodeLogin name password)
  unused : sc.replay = .reset ∧ cc.replay = .reset
  others : ∀ t, t ≠ h.nextToken → w.host.entryForToken t = h.entryForToken t
  accounts : w.host.accounts = h.accounts ∧ w.host.nowUnix = h.nowUnix
  world : h.devAuthStub = false → w.host.world = h.world

/-- A client whose address has no connection gets through the handshake in three rounds. -/
theorem handshake_rounds {Gen : EcdhKeyPair → Prop} {pinnedPub : EcPubKey}
    (hworks : C.Works Gen h.staticPriv pinnedPub)
    {hostPair clientPair : EcdhKeyPair} (hhost : Gen hostPair) (hclient : Gen clientPair)
    (hroute : h.routeOf src = none) (hfree : h.entryForToken h.nextToken = none)
    (clientTime : UInt64) {name password : Bytes} (hname : validUsername name = true)
    (hpassword : validPassword password = true) :
    ∃ e cc sc, Talk.Joined C ((Talk.round C U S hostPair clientPair src)^[3]
      (Talk.open h (.start pinnedPub clientTime name (some password)))) h src name password
      e cc sc := by
  obtain ⟨sig, secret, keys, h₁, e₁, hverify, hsecret, hderive, hanswer, hconns, haddr, hagreed,
    hauthed, hacc, hworld⟩ := host_response C U S hworks hhost hclient hroute hfree
  have hentries := ServerHost.entryForToken_concat hfree hconns
  have he₁ : h₁.entryForToken h.nextToken = some e₁ := (hentries _).trans (if_pos rfl)
  obtain ⟨reply, h₂, e₂, hclock, he₂, hendpoint, hauthed₂, hstate, hchannel, hothers, haccounts,
    hworld₂⟩ := host_clock C U S haddr he₁ hagreed hostPair ⟨clientTime, 0, 1⟩
  -- The client after each of the three answers.
  obtain ⟨c₁, hcookie, hc₁⟩ := client_cookie C (shaking_start pinnedPub clientTime name password)
    clientPair (C.makeCookie h.serverSecret src.addrBytes)
  obtain ⟨c₂, hresponse, hc₂, htoken⟩ := client_response C hc₁ clientPair
    ⟨hostPair.publicKey, sig, h.nextToken, 0⟩ hverify hsecret hderive
  have hmates : (openChannel .clientToServer c₂.client.token keys.1 keys.2).Mates
      (openChannel .serverToClient h.nextToken keys.2 keys.1) := by
    rw [htoken]
    exact ⟨⟨rfl, rfl, rfl, rfl⟩, ⟨rfl, rfl, rfl, rfl⟩⟩
  obtain ⟨d, c₃, cc, htime, hstate₃, hcc, htoken₃, hpair, hunused, hopens⟩ := client_clock C
    hworks.correct hworks.seals hc₂ clientPair reply hmates hname hpassword
  have hfirst : (Talk.open h (.start pinnedPub clientTime name (some password))).round C U S
      hostPair clientPair src = ⟨h, c₁, [makeHandshakeDatagram .cookieResponse
        (CookieResponseBody.encode
          ⟨C.makeCookie h.serverSecret src.addrBytes, clientPair.publicKey⟩)]⟩ :=
    Talk.round_eq C U S rfl (host_hello C U S hroute hostPair)
      ⟨congrArg (·.1.send) hcookie, congrArg (·.2) hcookie⟩
  have hsecond := Talk.round_eq C U S (w := ⟨h, c₁, _⟩) rfl hanswer
    ⟨congrArg (·.1.send) hresponse, congrArg (·.2) hresponse⟩
  have hthird := Talk.round_eq C U S (w := ⟨h₁, c₂, _⟩) rfl hclock
    ⟨congrArg (·.1.send) htime, congrArg (·.2) htime⟩
  rw [Function.iterate_succ_apply, hfirst, Function.iterate_succ_apply, hsecond,
    Function.iterate_succ_apply, hthird, Function.iterate_zero_apply]
  refine ⟨e₂, cc, _, he₂, hendpoint, hauthed₂.trans hauthed, ⟨hstate, hchannel, rfl⟩,
    ⟨hstate₃, hcc, htoken₃.trans htoken⟩, hpair, ⟨d, rfl, hopens⟩, ⟨rfl, hunused⟩,
    fun t ht => ?_, ⟨haccounts.1.trans hacc.1, haccounts.2.trans hacc.2⟩,
    fun hstub => hworld₂.trans (hworld hstub)⟩
  rw [hothers t ht, hentries, if_neg ht]

/-! ## After any run -/

theorem Metered.sane_run {staticPriv serverSecret : Bytes} {serverTime : UInt64} {world : W}
    {accounts : Option A} {persist : Option (List SimEvent)} {devAuthStub : Bool}
    {m : Metered Key W A} (hreach : Reaches (Metered.step C U S) (Metered.Few C U S)
      (Metered.start staticPriv serverSecret serverTime world accounts persist devAuthStub) m)
    (hmore : m.accepts < 2 ^ 64) : m.Sane := by
  refine hreach.invariant (I := fun m => m.accepts < 2 ^ 64 → m.Sane)
    (fun m l m' hm hfew hstep hlt => (hm ?_).step l hfew hstep hlt)
    (fun _ => Metered.sane_start _ _ _ _ _ _ _) hmore
  unfold Metered.step at hstep
  rw [Option.map_eq_some_iff] at hstep
  obtain ⟨h', _, rfl⟩ := hstep
  exact Nat.lt_of_le_of_lt (Nat.le_add_right _ _) hlt

/-- The next token of a sane host is free, until the counter comes around. -/
theorem Metered.Sane.free {m : Metered Key W A} (hm : m.Sane) (hmore : m.accepts + 1 < 2 ^ 64) :
    m.host.entryForToken m.host.nextToken = none := by
  have h := Wiring.lookup_none_of_not_mem (hm.good.fresh (by
    show m.host.tokenCounter.toNat + 1 < 2 ^ 64
    rw [hm.counter]
    exact hmore))
  rw [ServerHost.lookup_wires, Option.map_eq_none_iff] at h
  exact h

/-- Whatever a host has been through, a client from an address that has no connection gets
    through the handshake in three rounds: both ends have channels that open what the other one
    seals, the login is under way, and the other connections are as they were. -/
theorem handshake_completes {staticPriv serverSecret : Bytes} {serverTime : UInt64} {world : W}
    {accounts : Option A} {persist : Option (List SimEvent)} {devAuthStub : Bool}
    {m : Metered Key W A} (hreach : Reaches (Metered.step C U S) (Metered.Few C U S)
      (Metered.start staticPriv serverSecret serverTime world accounts persist devAuthStub) m)
    (hmore : m.accepts + 1 < 2 ^ 64) (src : Endpoint) (hroute : m.host.routeOf src = none)
    {Gen : EcdhKeyPair → Prop} {pinnedPub : EcPubKey}
    (hworks : C.Works Gen m.host.staticPriv pinnedPub) {hostPair clientPair : EcdhKeyPair}
    (hhost : Gen hostPair) (hclient : Gen clientPair) (clientTime : UInt64)
    (name password : Bytes) (hname : validUsername name = true)
    (hpassword : validPassword password = true) :
    ∃ e cc sc, Talk.Joined C ((Talk.round C U S hostPair clientPair src)^[3]
      (Talk.open m.host (.start pinnedPub clientTime name (some password)))) m.host src name
      password e cc sc :=
  handshake_rounds C U S hworks hhost hclient hroute
    ((Metered.sane_run C U S hreach (Nat.lt_of_succ_lt hmore)).free hmore) clientTime hname
    hpassword

/-- The first client of a host gets through. -/
theorem first_client_joins : ∃ e cc sc, Talk.Joined fakeCrypto
    ((Talk.round fakeCrypto sampleUniverse noAccounts (FakeCrypto.generateEcdhKeyPair 0)
      (FakeCrypto.generateEcdhKeyPair 1) samplePeer)^[3]
      (Talk.open (.start FakeCrypto.makeFakeStaticKey.1 [] 0 [] none none false)
        (.start FakeCrypto.makeFakeStaticKey.2 0 [97, 98, 99] (some (List.replicate 8 97)))))
    (.start FakeCrypto.makeFakeStaticKey.1 [] 0 [] none none false) samplePeer [97, 98, 99]
    (List.replicate 8 97) e cc sc :=
  handshake_completes fakeCrypto sampleUniverse noAccounts
    (m := .start FakeCrypto.makeFakeStaticKey.1 [] 0 [] none none false) .refl (by decide)
    samplePeer rfl fakeCrypto_works ⟨0, rfl⟩ ⟨1, rfl⟩ 0 [97, 98, 99] (List.replicate 8 97)
    (by decide) (by decide)

end Handshake

/-! ## The fourth round -/

section Accounts

variable (C : CryptoProvider Key) (U : GameUniverse W Snap) {sc : SecureChannel Key}
  {token : UInt64} {d : Bytes}

/-- The first datagram of a channel is heard. -/
theorem openDatagram_first {ch : SecureChannel Key} (hkeys : ch.hasKeys = true)
    (hunused : ch.replay = .reset) {rest payload : Bytes}
    (hauth : ch.authentic C.toICrypto rest = some payload) :
    (ch.openDatagram C.toICrypto rest).1 = (.ok, some payload) := by
  obtain ⟨n, _, hfst⟩ :=
    SecureChannel.open_fst_of_authentic C.toICrypto ch rest payload hkeys hauth
  rw [hfst, if_pos (by rw [hunused]; rfl)]

/-- A result is sent if there is a connection with a channel afterwards. -/
theorem sendAuthResult_sends
    (hseals : ∀ key dir pn aad plain, (C.encrypt key dir pn aad plain).isSome = true)
    {h : ServerHost Key W A} {peer : Endpoint} {res : AuthResult}
    {e : ConnEntry Key}
    (he : (h.sendAuthResult C token peer res).2.entryForToken token = some e)
    (hsc : e.conn.channel = some sc) (hkeys : sc.hasKeys = true) :
    ∃ d, (h.sendAuthResult C token peer res).1 = [⟨peer, d⟩] := by
  unfold ServerHost.sendAuthResult at he ⊢
  cases hentry : h.entryForToken token with
  | none =>
      simp only [hentry, reduceCtorEq] at he
  | some e₀ =>
      simp only [hentry] at he ⊢
      generalize hbody : (authOpcodeResult :: res.toByte ::
        (putU32 e₀.playerNetId ++ e₀.sessionToken.toList.take 8)) = body at he ⊢
      cases hseal : e₀.conn.sealApp C .reliableOrdered .command body with
      | some r => exact ⟨r.1, rfl⟩
      | none =>
          simp only [hseal, hentry, Option.some.injEq] at he
          unfold ServerConnection.sealApp at hseal
          rw [he, hsc] at hseal
          obtain ⟨r, hr⟩ := sealMessage_sends C hseals hkeys .reliableOrdered .command body
          simp only [hr, Option.map_some, reduceCtorEq] at hseal

/-- The answer to a credential frame is sent. -/
theorem onAuthMessage_sends
    (hseals : ∀ key dir pn aad plain, (C.encrypt key dir pn aad plain).isSome = true)
    {h : ServerHost Key W AccountStore} {peer : Endpoint} {body : Bytes}
    {e e' : ConnEntry Key} (he : h.entryForToken token = some e)
    (he' : (h.onAuthMessage C U accountService token peer body).2.entryForToken token = some e')
    (hsc : e'.conn.channel = some sc) (hkeys : sc.hasKeys = true) :
    ∃ d, (h.onAuthMessage C U accountService token peer body).1 = [⟨peer, d⟩] := by
  unfold ServerHost.onAuthMessage at he' ⊢
  simp only [he] at he' ⊢
  split at he'
  · cases ‹some e = none›
  · exact sendAuthResult_sends C hseals he' hsc hkeys
  · exact sendAuthResult_sends C hseals he' hsc hkeys
  · split at he'
    · rename_i hres
      rw [if_pos hres]
      exact sendAuthResult_sends C hseals he' hsc hkeys
    · rename_i hres
      rw [if_neg hres]
      exact sendAuthResult_sends C hseals he' hsc hkeys

/-- The first command of a connection comes out of it. -/
theorem ServerConnection.hears_first (c : ServerConnection Key)
    (hsc : c.channel = some sc) (hkeys : sc.hasKeys = true) (hunused : sc.replay = .reset)
    {m : DecodedMessage} (h : Opens C sc d m) (hm : m.type = .command) :
    ∃ sc', sc.Moved sc' ∧ c.onDatagram C d = (⟨[m], []⟩, { c with channel := some sc' }) := by
  obtain ⟨rest, payload, rfl, hauth, hread⟩ := h
  have hfirst := openDatagram_first C hkeys hunused hauth
  have hmoved := SecureChannel.open_snd C.toICrypto sc rest hkeys
  refine ⟨(sc.openDatagram C.toICrypto rest).2, ⟨_, _, hmoved⟩, ?_⟩
  unfold onDatagram receive
  simp only [if_neg kindEncrypted_ne, if_true, hsc, hfirst, hread, Option.getD_some, handleAll,
    handleAppMessage, hm]
  rfl

/-- The first credential frame of a connection is answered. -/
theorem host_login (hC : C.Correct)
    (hseals : ∀ key dir pn aad plain, (C.encrypt key dir pn aad plain).isSome = true)
    {h : ServerHost Key W AccountStore} {e : ConnEntry Key}
    {sc cc : SecureChannel Key} {a : AccountStore} {opcode : UInt8} {user pass : Bytes}
    (he : h.entryForToken token = some e) (hsc : e.conn.channel = some sc)
    (htoken : sc.token = token) (hmates : cc.Mates sc) (hunused : sc.replay = .reset)
    (hlive : e.conn.state ≠ .disconnected) (hacc : h.accounts = some a)
    (huser : user.length < 2 ^ 16) (hpass : pass.length < 2 ^ 16)
    (hop : isAuthOpcode opcode = true) (fresh : EcdhKeyPair) (peer : Endpoint)
    (hd : Opens C sc d (credential opcode user pass)) : ∃ reply h',
    h.onDatagram C U accountService fresh peer d = ([⟨peer, reply⟩], h') ∧
      ServerHost.Answers C U h h' token e sc cc
        (h.authenticate accountService a e.endpoint opcode user pass) [⟨peer, reply⟩] := by
  obtain ⟨sc', hmoved, hconn⟩ := ServerConnection.hears_first C e.conn hsc
    hmates.fromRight.hasKeys hunused hd rfl
  obtain ⟨rest, payload, rfl, hauth, hread⟩ := hd
  have hpeek := peekConnectionToken_of_authentic C.toICrypto sc hauth
  rw [htoken] at hpeek
  have hstamped : (h.modify token fun e => { e with lastSeenMs := h.nowMs }).entryForToken token =
      some { e with lastSeenMs := h.nowMs } := by
    rw [ServerHost.entryForToken_modify_self, he]
    rfl
  have hrepeated : ServerHost.isRepeatedCookieResponse { e with lastSeenMs := h.nowMs }
      (kindEncrypted :: rest) = false := by
    unfold ServerHost.isRepeatedCookieResponse
    cases rest with
    | nil => exact Bool.and_false _
    | cons type body => exact Bool.and_false _
  have hreceived := ServerHost.entryForToken_received he { e.conn with channel := some sc' }
  generalize hh : (h.modify token fun e => { e with lastSeenMs := h.nowMs }).setConn token
    { e.conn with channel := some sc' } = h₁ at hreceived
  have hsame : h₁.accounts = h.accounts ∧ h₁.nowUnix = h.nowUnix ∧ h₁.world = h.world := by
    rw [← hh]
    exact ⟨rfl, rfl, rfl⟩
  have hanswers := ServerHost.onAuthMessage_answers (U := U) hC hreceived rfl
    (hmates.moved (.refl cc) hmoved) hlive (hsame.1.trans hacc)
    (decodeAuthRequest_encode opcode huser hpass) peer
  have hauthenticate : h₁.authenticate accountService a e.endpoint opcode user pass =
      h.authenticate accountService a e.endpoint opcode user pass := by
    unfold ServerHost.authenticate
    rw [hsame.2.1]
  have hresult : h₁.authenticate accountService a
      ({ e with
        lastSeenMs := h.nowMs, conn := { e.conn with channel := some sc' } } :
        ConnEntry Key).endpoint ((encodeAuthRequest opcode user pass).headD 0) user pass =
      h.authenticate accountService a e.endpoint opcode user pass := hauthenticate
  rw [hresult] at hanswers
  obtain ⟨haccounts, e', sc'', he', hmoved', hch', hlive', hauthed, hkept, hbase, hsent⟩ :=
    hanswers
  have hkeys : sc''.hasKeys = true := by
    obtain ⟨_, _, rfl⟩ := hmoved.trans hmoved'
    exact hmates.fromRight.hasKeys
  obtain ⟨reply, hreply⟩ := onAuthMessage_sends C U hseals hreceived he' hch' hkeys
  -- The frame goes to the login, and the connection is still alive afterwards.
  have hmessage : ServerHost.applyMessages C U accountService token peer h₁
      [credential opcode user pass] = ([⟨peer, reply⟩], (h₁.onAuthMessage C U accountService token
        peer (encodeAuthRequest opcode user pass)).2) := by
    have hop' : isAuthOpcode opcode = true := hop
    unfold ServerHost.applyMessages ServerHost.applyMessages ServerHost.applyMessage credential
      encodeAuthRequest
    unfold encodeAuthRequest at hreply
    simp only []
    rw [if_pos hop', hreply]
    rfl
  have hdispatch : ServerHost.dispatchToConnection C U accountService
      (h.modify token fun e => { e with lastSeenMs := h.nowMs }) token peer
        (kindEncrypted :: rest) = ([⟨peer, reply⟩], (h₁.onAuthMessage C U accountService token
        peer (encodeAuthRequest opcode user pass)).2) := by
    unfold ServerHost.dispatchToConnection
    simp only [hstamped, hrepeated, Bool.false_eq_true, if_false, hconn, hh, List.map_nil,
      List.nil_append, hmessage]
  refine ⟨reply, (h₁.onAuthMessage C U accountService token peer
    (encodeAuthRequest opcode user pass)).2, ?_, haccounts, e', sc'', he', hmoved.trans hmoved',
    hch', hlive', hauthed, hkept, ?_, ?_⟩
  · unfold ServerHost.onDatagram
    simp only [if_true, hpeek]
    rw [he, if_pos Option.isSome_some]
    unfold ServerHost.routeTo
    simp only [hdispatch, he', if_neg hlive']
  · rw [← hsame.2.2]
    exact hbase
  · rw [← hreply]
    exact hsent

/-- The first result of a client that waits connects it, if it is a success. -/
theorem client_result {c : ClientConnection Key} {cc : SecureChannel Key}
    (hcc : c.channel = some cc) (hkeys : cc.hasKeys = true) (hunused : cc.replay = .reset)
    (hstate : c.state = .authenticating) (fresh : EcdhKeyPair) {netId : UInt32}
    {session : Bytes} (hsession : session.length = 8)
    (hd : Opens C cc d (resultMessage .ok netId session)) :
    (c.onDatagram C fresh d).2.state = .connected ∧
      (c.onDatagram C fresh d).2.playerNetId = netId := by
  have hhears : c.hears C d = true := by
    obtain ⟨rest, payload, rfl, hauth, _⟩ := hd
    unfold ClientConnection.hears
    simp only [hcc, openDatagram_first C hkeys hunused hauth, Option.isSome_some, decide_true,
      Bool.and_true]
  obtain ⟨cc', _, hresult⟩ := ClientConnection.onDatagram_result fresh hcc hkeys hd
  rcases hresult with ⟨hdeaf, _⟩ | ⟨_, r, hr, _, hafter⟩
  · exact absurd (hhears.symm.trans hdeaf) (by decide)
  · have hok := ClientConnection.onAuthResult_ok (C := C)
      (c := { c with channel := some cc' }) hstate netId hsession
    rw [hafter, hr, hok.2]
    exact ⟨rfl, rfl⟩

/-- Whatever a host has been through, a player with an account gets in within four rounds: the
    client is connected with the net id that its connection is bound to, which is that of the
    account's base if that is there. -/
theorem login_completes {staticPriv serverSecret : Bytes} {serverTime : UInt64} {world : W}
    {accounts : Option AccountStore} {persist : Option (List SimEvent)} {devAuthStub : Bool}
    {m : Metered Key W AccountStore}
    (hreach : Reaches (Metered.step C U accountService) (Metered.Few C U accountService)
      (Metered.start staticPriv serverSecret serverTime world accounts persist devAuthStub) m)
    (hmore : m.accepts + 1 < 2 ^ 64) (src : Endpoint) (hroute : m.host.routeOf src = none)
    {Gen : EcdhKeyPair → Prop} {pinnedPub : EcPubKey}
    (hworks : C.Works Gen m.host.staticPriv pinnedPub) {hostPair clientPair : EcdhKeyPair}
    (hhost : Gen hostPair) (hclient : Gen clientPair) (clientTime : UInt64)
    (name password : Bytes) (hname : validUsername name = true)
    (hpassword : validPassword password = true) (hstub : m.host.devAuthStub = false)
    {a : AccountStore} (hacc : m.host.accounts = some a)
    (hhealthy : a.Healthy src.ip m.host.nowUnix) (hholds : a.Holds name password)
    {row : AccountRow} (hrow : a.find name = some row) :
    ∃ w e, w = (Talk.round C U accountService hostPair clientPair src)^[4]
        (Talk.open m.host (.start pinnedPub clientTime name (some password))) ∧
      w.host.entryForToken m.host.nextToken = some e ∧ e.authed = true ∧
      w.client.state = .connected ∧ w.client.playerNetId = e.playerNetId ∧
      (a.db.baseOf row.accountId ≠ 0 →
        U.hasBase (UInt32.ofInt (a.db.baseOf row.accountId)) m.host.world = true →
        e.playerNetId = UInt32.ofInt (a.db.baseOf row.accountId)) := by
  obtain ⟨e, cc, sc, hjoined⟩ := handshake_rounds C U accountService hworks hhost hclient hroute
    ((Metered.sane_run C U accountService hreach (Nat.lt_of_succ_lt hmore)).free hmore) clientTime
    hname hpassword
  rw [Function.iterate_succ_apply']
  generalize (Talk.round C U accountService hostPair clientPair src)^[3]
    (Talk.open m.host (.start pinnedPub clientTime name (some password))) = w at hjoined ⊢
  obtain ⟨d, hsent, hopens⟩ := hjoined.login
  obtain ⟨hstate, hsc, htoken⟩ := hjoined.server
  obtain ⟨hwaits, hcc, _⟩ := hjoined.client
  have hlive : e.conn.state ≠ .disconnected := by
    rw [hstate]
    simp only [ne_eq, reduceCtorEq, not_false_eq_true]
  obtain ⟨reply, h', hanswer, hanswers⟩ := host_login C U hworks.correct hworks.seals
    hjoined.entry hsc htoken hjoined.mates hjoined.unused.1 hlive (hjoined.accounts.1.trans hacc)
    (Nat.lt_of_le_of_lt (validUsername_length hname) (by decide))
    (Nat.lt_of_le_of_lt (validPassword_length hpassword) (by decide)) rfl hostPair src hopens
  have hroom : a.Healthy e.endpoint.ip w.host.nowUnix := by
    rw [hjoined.endpoint, hjoined.accounts.2]
    exact hhealthy
  obtain ⟨hres, _, _, hbase⟩ := ServerHost.authenticate_known authOpcodeLogin hname hpassword
    hroom hholds (Option.isSome_iff_exists.mpr ⟨row, hrow⟩)
  rw [if_neg (by decide)] at hres
  obtain ⟨row', hrow', hbaseId⟩ := hbase (by decide)
  rw [hrow, Option.some.injEq] at hrow'
  obtain ⟨e', _, he', _, _, _, hauthed, _, hbound, hsealed⟩ := hanswers.entry
  rw [if_pos hres] at hauthed
  rw [hbaseId, ← hrow', hjoined.world hstub] at hbound
  obtain ⟨session, hsession, hresult⟩ := hsealed ⟨src, reply⟩ (List.mem_singleton_self _)
  rw [hres] at hresult
  obtain ⟨hconnected, hnet⟩ := client_result C hcc hjoined.mates.fromLeft.hasKeys
    hjoined.unused.2 hwaits clientPair hsession hresult
  refine ⟨_, e', rfl, ?_, hauthed, ?_⟩
  · rw [Talk.round_eq C U accountService hsent hanswer ⟨rfl, rfl⟩]
    exact he'
  · rw [Talk.round_eq C U accountService hsent hanswer ⟨rfl, rfl⟩]
    exact ⟨hconnected, hnet, hbound hres⟩

/-- The player of the first account gets in, with base 1. -/
theorem first_player_gets_in : ∃ w e, w = (Talk.round fakeCrypto sampleUniverse accountService
      (FakeCrypto.generateEcdhKeyPair 0) (FakeCrypto.generateEcdhKeyPair 1) samplePeer)^[4]
      (Talk.open (.start FakeCrypto.makeFakeStaticKey.1 [] 0 [1] (some (sampleStore [(1, 1)])) none
        false)
        (.start FakeCrypto.makeFakeStaticKey.2 0 [97, 98, 99] (some (List.replicate 8 97)))) ∧
    w.host.entryForToken (ServerHost.mixToken 1) = some e ∧ e.authed = true ∧
    w.client.state = .connected ∧ w.client.playerNetId = e.playerNetId ∧ e.playerNetId = 1 := by
  obtain ⟨w, e, hw, he, hauthed, hstate, hnet, hbase⟩ := login_completes fakeCrypto sampleUniverse
    (m := .start FakeCrypto.makeFakeStaticKey.1 [] 0 [1] (some (sampleStore [(1, 1)])) none false)
    .refl (by decide) samplePeer rfl fakeCrypto_works ⟨0, rfl⟩ ⟨1, rfl⟩ 0 [97, 98, 99]
    (List.replicate 8 97) (by decide) (by decide) rfl rfl (by decide) (fun row hrow => by
      cases hrow
      decide) rfl
  exact ⟨w, e, hw, he, hauthed, hstate, hnet, hbase (by decide) (by decide)⟩

end Accounts

end Net

end EarthRise
