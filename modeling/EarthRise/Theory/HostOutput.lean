import EarthRise.Theory.Exchange
import EarthRise.Theory.HostTrace

/-!
# What the Host Sends of the Handshake

A handshake response is made once, when a connection is opened, and the connection keeps the
datagram. Whatever else the host sends is sealed, or is one of the other clear messages; so a
response that leaves the host is a new one or one that some connection has kept.

A connection that is open keeps its keys, through all the host does, and its channel keeps
the ends that it was built with.

## Main definitions

* `IsResponse`: A datagram with a handshake response.
* `ConnEntry.Keeps`: What a connection keeps of the handshake.
* `ServerHost.Repeats`: Only responses are sent that were sent before.

## Theorems

* `onDatagram_opens`: A datagram that opens a connection.
* `onDatagram_keeps`: A datagram that does not.
* `step_keeps`: A step of the host that opens no connection.
-/

namespace EarthRise

namespace Net

/-- A datagram with a handshake response. -/
def IsResponse (d : Bytes) : Prop :=
  ∃ type body, d = kindClearHandshake :: type :: body ∧ MsgType.ofByte type = .handshakeResponse

theorem not_isResponse_sealed {d : Bytes} (h : d.head? = some kindEncrypted) : ¬ IsResponse d := by
  rintro ⟨type, body, rfl, _⟩
  exact kindEncrypted_ne (Option.some.inj h).symm

theorem not_isResponse_clear {type : MsgType} (body : Bytes)
    (hne : MsgType.ofByte type.toByte ≠ .handshakeResponse) :
    ¬ IsResponse (makeHandshakeDatagram type body) := by
  rintro ⟨t, b, heq, ht⟩
  unfold makeHandshakeDatagram at heq
  simp only [List.cons.injEq, true_and] at heq
  rw [← heq.1] at ht
  exact hne ht

section Sealed

variable {Key : Type} (C : CryptoProvider Key)

theorem sealMessage_head {ch ch' : SecureChannel Key} {channel : Channel} {type : MsgType}
    {body d : Bytes} (h : sealMessage C.toICrypto ch channel type body = some (d, ch')) :
    d.head? = some kindEncrypted := by
  unfold sealMessage at h
  rcases Option.map_eq_some_iff.mp h with ⟨r, _, heq⟩
  rw [Prod.mk.injEq] at heq
  rw [← heq.1]
  rfl

theorem ServerConnection.sealApp_head {c c' : ServerConnection Key} {ch : Channel}
    {type : MsgType} {body d : Bytes} (h : c.sealApp C ch type body = some (d, c')) :
    d.head? = some kindEncrypted := by
  unfold ServerConnection.sealApp at h
  split at h
  · exact absurd h nofun
  · rcases Option.map_eq_some_iff.mp h with ⟨r, hseal, heq⟩
    rw [Prod.mk.injEq] at heq
    rw [← heq.1]
    have hpair : sealMessage C.toICrypto _ ch type body = some (r.1, r.2) := hseal
    exact sealMessage_head C hpair

/-- What a connection sends by itself is sealed, or answers a clock request. -/
theorem ServerConnection.onDatagram_send (c : ServerConnection Key) (dg : Bytes) :
    ∀ d ∈ (c.onDatagram C dg).1.send, ¬ IsResponse d := by
  have hone : ∀ (c : ServerConnection Key) (m : DecodedMessage),
      ∀ d ∈ (c.handleAppMessage C m).1.send, ¬ IsResponse d := by
    intro c m d hd
    unfold ServerConnection.handleAppMessage at hd
    split at hd
    · exact absurd hd List.not_mem_nil
    · exact absurd hd List.not_mem_nil
    · unfold ServerConnection.onLoginRequest at hd
      simp only [] at hd
      split at hd
      · exact absurd hd List.not_mem_nil
      · rename_i d' c' hseal
        rw [List.mem_singleton.mp hd]
        exact not_isResponse_sealed (ServerConnection.sealApp_head C hseal)
    · exact absurd hd List.not_mem_nil
  have hall : ∀ (ms : List DecodedMessage) (c : ServerConnection Key),
      ∀ d ∈ (ServerConnection.handleAll C c ms).1.send, ¬ IsResponse d := by
    intro ms
    induction ms with
    | nil => exact fun c d hd => absurd hd List.not_mem_nil
    | cons m ms ih =>
        intro c d hd
        rcases List.mem_append.mp hd with hfirst | hrest
        · exact hone c m d hfirst
        · exact ih _ d hrest
  intro d hd
  unfold ServerConnection.onDatagram at hd
  split at hd
  · exact absurd hd List.not_mem_nil
  · split at hd
    · split at hd
      · exact absurd hd List.not_mem_nil
      · unfold ServerConnection.onClear at hd
        split at hd
        · unfold HandshakeServerConnection.onClockSyncRequest at hd
          rename_i body _
          cases hdec : decodeClockSync body with
          | none =>
              simp only [hdec] at hd
              exact absurd hd List.not_mem_nil
          | some cs =>
              simp only [hdec] at hd
              rw [List.mem_singleton.mp hd]
              exact not_isResponse_clear _ (by decide)
        · exact absurd hd List.not_mem_nil
    · split at hd
      · split at hd
        · exact absurd hd List.not_mem_nil
        · exact hall _ _ d hd
      · exact absurd hd List.not_mem_nil

end Sealed

/-! ## Opening -/

/-- The datagram of an answer. -/
def Answer.datagram {Key : Type} (a : Answer Key) : Bytes :=
  makeHandshakeDatagram .handshakeResponse a.response.encode

/-- A connection that was opened with an answer, or got none. -/
structure ServerConnection.OpenedBy {Key : Type} (c : ServerConnection Key) (token : UInt64)
    (answer : Option (Answer Key)) : Prop where
  token : c.token = token
  epoch : c.server.epoch = 0
  keys : c.server.keys = answer.map Answer.keys
  channel : c.channel = none
  last : c.lastHandshakeDatagram = (answer.map Answer.datagram).getD []

section

variable {Key : Type} (C : CryptoProvider Key)

/-- The handshake of a connection goes as the answer says. -/
theorem onCookieResponse_answer (fresh : EcdhKeyPair) (s : HandshakeServerConnection Key)
    (hepoch : s.epoch = 0) (serverTime : UInt64) (body : Bytes) :
    (∃ a, answerOf C s.staticPriv fresh s.token serverTime body = some a ∧
      s.onCookieResponse C fresh body = (.message .handshakeResponse a.response.encode,
        { s with keys := some a.keys })) ∨
    (answerOf C s.staticPriv fresh s.token serverTime body = none ∧
      s.onCookieResponse C fresh body = (.fail .handshakeFailure, s)) := by
  unfold answerOf HandshakeServerConnection.onCookieResponse HandshakeServerConnection.start
  rw [hepoch]
  cases decodeCookieResponse body with
  | none => exact .inr ⟨rfl, rfl⟩
  | some cr =>
      simp only []
      cases C.deriveSharedSecret fresh cr.clientEphemeralPub with
      | none => exact .inr ⟨rfl, rfl⟩
      | some secret =>
          simp only []
          cases C.sign s.staticPriv fresh.publicKey with
          | none => exact .inr ⟨rfl, rfl⟩
          | some sig =>
              simp only []
              cases C.deriveAeadKeys secret 0 with
              | none => exact .inr ⟨rfl, rfl⟩
              | some keys =>
                  simp only [decodeHandshakeResponse_encode, Option.map_some]
                  exact .inl ⟨_, rfl, rfl⟩

/-- A connection that begins is opened with the answer, and sends it. -/
theorem beginFromCookieResponse_opened (fresh : EcdhKeyPair) (c : ServerConnection Key)
    (hepoch : c.server.epoch = 0) (hkeys : c.server.keys = none) (hchannel : c.channel = none)
    (hlast : c.lastHandshakeDatagram = []) (htoken : c.server.token = c.token)
    (serverTime : UInt64) (body : Bytes) :
    (c.beginFromCookieResponse C fresh body).2.OpenedBy c.token
        (answerOf C c.server.staticPriv fresh c.token serverTime body) ∧
      (c.beginFromCookieResponse C fresh body).1.send =
        ((answerOf C c.server.staticPriv fresh c.token serverTime body).map
          Answer.datagram).toList := by
  unfold ServerConnection.beginFromCookieResponse
  rcases onCookieResponse_answer C fresh c.server hepoch serverTime body with
    ⟨a, hanswer, hstep⟩ | ⟨hanswer, hstep⟩
  · rw [htoken] at hanswer
    rw [hanswer]
    simp only [hstep]
    exact ⟨⟨rfl, hepoch, rfl, hchannel, rfl⟩, rfl⟩
  · rw [htoken] at hanswer
    rw [hanswer]
    simp only [hstep]
    exact ⟨⟨rfl, hepoch, hkeys, hchannel, hlast⟩, rfl⟩

end

/-! ## What the connections keep -/

/-- What a connection keeps of the handshake. -/
def ConnEntry.Keeps {Key : Type} (e e' : ConnEntry Key) : Prop := e.conn.Keeps e'.conn

namespace ServerHost

variable {Key W Snap A : Type}

theorem keeps_tolerant : Tolerant (ConnEntry.Keeps : ConnEntry Key → ConnEntry Key → Prop) where
  refl := fun e => .refl e.conn
  trans := fun _ _ _ hab hbc => hab.trans hbc
  channel := fun _ _ hends => ⟨rfl, rfl, rfl, rfl, .inl hends⟩
  stamp := fun e _ => .refl e.conn
  dilation := fun _ _ => ⟨rfl, rfl, rfl, rfl, .inl rfl⟩

/-- The host has only its own connections, as they were or further on. -/
abbrev Keeping (h h' : ServerHost Key W A) : Prop := Carried ConnEntry.Keeps h h'

theorem LogsIn.keeping {h h' : ServerHost Key W A} {token : UInt64} {e : ConnEntry Key}
    {session : SessionInfo} {netId : UInt32} (hlogin : LogsIn h h' token e session netId)
    (he : h.entryForToken token = some e)
    (htokens : (h'.conns.map Prod.fst).Sublist (h.conns.map Prod.fst)) : Keeping h h' where
  stub := hlogin.stub
  tokens := htokens
  entry := by
    intro t e' he'
    by_cases ht : t = token
    · rw [ht] at he' ⊢
      rcases hlogin.self e' he' with ⟨channel, hends, rfl⟩
      refine ⟨e, he, ?_⟩
      unfold ConnEntry.Keeps ServerConnection.markConnected
      split
      · exact ⟨rfl, rfl, rfl, rfl, .inl hends⟩
      · exact ⟨rfl, rfl, rfl, rfl, .inl hends⟩
    · exact ⟨e', (hlogin.other t ht e' he').1, .refl e'.conn⟩

section

variable (C : CryptoProvider Key) (U : GameUniverse W Snap) (S : AccountService A)

theorem applyMessages_keeping (token : UInt64) (peer : Endpoint) (ms : List DecodedMessage)
    (h : ServerHost Key W A) : Keeping h (applyMessages C U S token peer h ms).2 := by
  have hone : ∀ (h : ServerHost Key W A) (m : DecodedMessage),
      Keeping h (h.applyMessage C U S token peer m).2 := by
    intro h m
    rcases applyMessage_cases C U S h token peer m with
      ⟨e, session, netId, he, _, hlogin⟩ | ⟨hcarried, _⟩
    · exact hlogin.keeping he (applyMessage_kept C U S h token peer m).tokens
    · exact hcarried _ keeps_tolerant
  induction ms generalizing h with
  | nil => exact Carried.refl keeps_tolerant.toClosed h
  | cons m ms ih => exact (hone h m).trans keeps_tolerant.toClosed (ih _)

theorem routeTo_keeping (h : ServerHost Key W A) (token : UInt64) (peer : Endpoint)
    (dg : Bytes) : Keeping h (h.routeTo C U S token peer dg).2 := by
  have hclosed : Closed (ConnEntry.Keeps : ConnEntry Key → ConnEntry Key → Prop) :=
    keeps_tolerant.toClosed
  have hstamped : Keeping h (h.modify token fun e => { e with lastSeenMs := h.nowMs }) :=
    modify_carried hclosed h token fun e _ => .refl e.conn
  have hdispatch : Keeping h (dispatchToConnection C U S (h.modify token fun e =>
      { e with lastSeenMs := h.nowMs }) token peer dg).2 := by
    refine hstamped.trans hclosed ?_
    unfold dispatchToConnection
    split
    · exact Carried.refl hclosed _
    · rename_i e he
      split
      · exact Carried.refl hclosed _
      · refine Carried.trans hclosed ?_ (applyMessages_keeping C U S token peer _ _)
        refine setConn_carried hclosed _ token fun e' he' => ?_
        rw [he, Option.some.injEq] at he'
        rw [← he']
        exact e.conn.onDatagram_keeps C dg
  unfold routeTo
  simp only []
  split
  · exact hdispatch
  · split
    · exact hdispatch.trans hclosed (removeConnection_carried hclosed U _ token)
    · exact hdispatch

theorem sendSnapshots_keeping (ss : List (UInt32 × Snap)) (h : ServerHost Key W A)
    (hdistinct : (h.conns.map Prod.fst).Nodup) : Keeping h (sendSnapshots C U h ss).2 := by
  induction ss generalizing h with
  | nil => exact Carried.refl keeps_tolerant.toClosed h
  | cons s ss ih =>
      have hone := sendSnapshot_carried C U keeps_tolerant h hdistinct s.1 s.2
      exact hone.trans keeps_tolerant.toClosed (ih _ (hone.tokens.nodup hdistinct))

end

/-! ## What is sent -/

/-- The responses among some datagrams are such that a connection has kept. -/
def Repeats (h : ServerHost Key W A) (ds : List OutDatagram) : Prop :=
  ∀ d ∈ ds, IsResponse d.data →
    ∃ t e, h.entryForToken t = some e ∧ d.data = e.conn.lastHandshakeDatagram

section

variable (C : CryptoProvider Key) (U : GameUniverse W Snap) (S : AccountService A)

theorem sendAuthResult_sent (h : ServerHost Key W A) (token : UInt64) (peer : Endpoint)
    (res : AuthResult) :
    ∀ d ∈ (h.sendAuthResult C token peer res).1, ¬ IsResponse d.data := by
  intro d hd
  unfold sendAuthResult at hd
  split at hd
  · exact absurd hd List.not_mem_nil
  · simp only [] at hd
    split at hd
    · exact absurd hd List.not_mem_nil
    · rename_i hseal
      rw [List.mem_singleton.mp hd]
      exact not_isResponse_sealed (ServerConnection.sealApp_head C hseal)

theorem applyMessages_sent (token : UInt64) (peer : Endpoint) (ms : List DecodedMessage)
    (h : ServerHost Key W A) :
    ∀ d ∈ (applyMessages C U S token peer h ms).1, ¬ IsResponse d.data := by
  have hauth : ∀ (h : ServerHost Key W A) (body : Bytes),
      ∀ d ∈ (h.onAuthMessage C U S token peer body).1, ¬ IsResponse d.data := by
    intro h body d hd
    unfold onAuthMessage at hd
    split at hd
    · exact absurd hd List.not_mem_nil
    · exact sendAuthResult_sent C _ token peer _ d hd
    · exact sendAuthResult_sent C _ token peer _ d hd
    · simp only [] at hd
      split at hd
      · exact sendAuthResult_sent C _ token peer _ d hd
      · exact sendAuthResult_sent C _ token peer _ d hd
  have hone : ∀ (h : ServerHost Key W A) (m : DecodedMessage),
      ∀ d ∈ (h.applyMessage C U S token peer m).1, ¬ IsResponse d.data := by
    intro h m d hd
    unfold applyMessage at hd
    split at hd
    · split at hd
      · exact absurd hd List.not_mem_nil
      · split at hd
        · exact hauth h _ d hd
        · exact absurd hd List.not_mem_nil
    · split at hd
      · exact absurd hd List.not_mem_nil
      · split at hd
        · exact absurd hd List.not_mem_nil
        · exact absurd hd List.not_mem_nil
    · exact absurd hd List.not_mem_nil
  induction ms generalizing h with
  | nil => exact fun d hd => absurd hd List.not_mem_nil
  | cons m ms ih =>
      intro d hd
      rcases List.mem_append.mp hd with hfirst | hrest
      · exact hone h m d hfirst
      · exact ih _ d hrest

theorem routeTo_repeats (h : ServerHost Key W A) (token : UInt64) (peer : Endpoint)
    (dg : Bytes) : h.Repeats (h.routeTo C U S token peer dg).1 := by
  have hsent : (h.routeTo C U S token peer dg).1 = (dispatchToConnection C U S
      (h.modify token fun e => { e with lastSeenMs := h.nowMs }) token peer dg).1 := by
    unfold routeTo
    simp only []
    split
    · rfl
    · split
      · rfl
      · rfl
  intro d hd hresponse
  rw [hsent] at hd
  unfold dispatchToConnection at hd
  split at hd
  · exact absurd hd List.not_mem_nil
  · rename_i e he
    rw [entryForToken_modify_self, Option.map_eq_some_iff] at he
    rcases he with ⟨e₀, he₀, rfl⟩
    split at hd
    · -- A repeated cookie response gets what was sent for the first one.
      rcases List.mem_map.mp hd with ⟨b, hb, rfl⟩
      unfold ServerConnection.resendHandshake at hb
      split at hb
      · exact ⟨token, e₀, he₀, List.mem_singleton.mp hb⟩
      · exact absurd hb List.not_mem_nil
    · simp only [] at hd
      rcases List.mem_append.mp hd with hown | happ
      · rcases List.mem_map.mp hown with ⟨b, hb, rfl⟩
        exact absurd hresponse (ServerConnection.onDatagram_send C _ dg b hb)
      · exact absurd hresponse (applyMessages_sent C U S token peer _ _ d happ)

theorem broadcastSnapshots_sent (h : ServerHost Key W A) :
    ∀ d ∈ (h.broadcastSnapshots C U).1, ¬ IsResponse d.data := by
  have hone : ∀ (h : ServerHost Key W A) (id : UInt32) (snap : Snap),
      ∀ d ∈ (h.sendSnapshot C U id snap).1, ¬ IsResponse d.data := by
    intro h id snap d hd
    unfold sendSnapshot at hd
    split at hd
    · exact absurd hd List.not_mem_nil
    · split at hd
      · exact absurd hd List.not_mem_nil
      · simp only [] at hd
        split at hd
        · exact absurd hd List.not_mem_nil
        · rename_i hseal
          rw [List.mem_singleton.mp hd]
          exact not_isResponse_sealed (ServerConnection.sealApp_head C hseal)
  have hall : ∀ (ss : List (UInt32 × Snap)) (h : ServerHost Key W A),
      ∀ d ∈ (sendSnapshots C U h ss).1, ¬ IsResponse d.data := by
    intro ss
    induction ss with
    | nil => exact fun h d hd => absurd hd List.not_mem_nil
    | cons s ss ih =>
        intro h d hd
        rcases List.mem_append.mp hd with hfirst | hrest
        · exact hone h s.1 s.2 d hfirst
        · exact ih _ d hrest
  exact hall _ _

end

/-! ## One datagram -/

/-- The answer to a hello is a cookie or a rejection. -/
theorem onClientHello_message {Key : Type} (C : CryptoProvider Key) (secret body addr : Bytes)
    {type : MsgType} {b : Bytes} (h : onClientHello C secret body addr = .message type b) :
    type = .versionReject ∨ type = .cookie := by
  unfold onClientHello at h
  split at h
  · exact absurd h nofun
  · split at h
    · rw [HsOutput.message.injEq] at h
      exact .inl h.1.symm
    · rw [HsOutput.message.injEq] at h
      exact .inr h.1.symm

section

variable (C : CryptoProvider Key) (U : GameUniverse W Snap) (S : AccountService A)

/-- The connection that a client gets, before its cookie response is looked at. -/
def beginning (h : ServerHost Key W A) (netId : UInt32) : ServerConnection Key :=
  let c : ServerConnection Key := .start h.staticPriv h.nextToken h.serverTime
  { c with server := { c.server with dilationFactor := h.dilationFactor }, playerNetId := netId }

/-- A new connection has the keys of its answer. -/
theorem accept_opens (fresh : EcdhKeyPair) (h : ServerHost Key W A) (src : Endpoint)
    (body : Bytes) : ∃ entry : ConnEntry Key,
      (h.accept C U fresh src body).2.conns =
        (if (h.entryForToken h.nextToken).isSome then h.conns
        else h.conns ++ [(h.nextToken, entry)]) ∧
      entry.conn.OpenedBy h.nextToken
        (answerOf C h.staticPriv fresh h.nextToken h.serverTime body) ∧
      (h.accept C U fresh src body).1 =
        ((answerOf C h.staticPriv fresh h.nextToken h.serverTime body).map fun a =>
          ⟨src, a.datagram⟩).toList := by
  have hopened : ∀ netId, ((h.beginning netId).beginFromCookieResponse C fresh body).2.OpenedBy
      h.nextToken (answerOf C h.staticPriv fresh h.nextToken h.serverTime body) := fun netId =>
    (beginFromCookieResponse_opened C fresh (h.beginning netId) rfl rfl rfl rfl rfl h.serverTime
      body).1
  have hsend : ∀ netId, (((h.beginning netId).beginFromCookieResponse C fresh body).1.send.map
      fun d => (⟨src, d⟩ : OutDatagram)) =
        ((answerOf C h.staticPriv fresh h.nextToken h.serverTime body).map fun a =>
          ⟨src, a.datagram⟩).toList := by
    intro netId
    have hsent : ((h.beginning netId).beginFromCookieResponse C fresh body).1.send =
        ((answerOf C h.staticPriv fresh h.nextToken h.serverTime body).map
          Answer.datagram).toList :=
      (beginFromCookieResponse_opened C fresh (h.beginning netId) rfl rfl rfl rfl rfl h.serverTime
        body).2
    rw [hsent]
    cases answerOf C h.staticPriv fresh h.nextToken h.serverTime body with
    | none => rfl
    | some a => rfl
  unfold accept
  cases h.devAuthStub with
  | true => exact ⟨_, rfl, hopened _, hsend _⟩
  | false => exact ⟨_, rfl, hopened _, hsend _⟩

/-- A datagram that opens a connection. -/
theorem onDatagram_opens (fresh : EcdhKeyPair) (h : ServerHost Key W A) (src : Endpoint)
    (dg : Bytes) (hopens : h.opensConnection C src dg = true) :
    h.onDatagram C U S fresh src dg = h.accept C U fresh src (dg.drop 2) := by
  match dg, hopens with
  | kind :: type :: body, hopens =>
      unfold opensConnection at hopens
      simp only [Bool.and_eq_true, decide_eq_true_eq, Option.isNone_iff_eq_none] at hopens
      rcases hopens with ⟨⟨⟨rfl, hroute⟩, htype⟩, hcookie⟩
      rcases (Option.any_eq_true _ _).mp hcookie with ⟨cr, hcr, hverify⟩
      have hnot : ¬ C.verifyCookie h.serverSecret src.addrBytes cr.cookie = false := by
        rw [hverify]
        exact Bool.noConfusion
      unfold onDatagram
      simp only []
      rw [if_neg kindEncrypted_ne.symm, if_neg (fun h => h rfl), hroute]
      unfold onStateless
      simp only [htype, hcr]
      rw [if_neg hnot]
      rfl

/-- A datagram that opens none is for a connection, or leaves the connections alone. -/
theorem onDatagram_keeps (fresh : EcdhKeyPair) (h : ServerHost Key W A) (src : Endpoint)
    (dg : Bytes) (hopens : h.opensConnection C src dg = false) :
    Keeping h (h.onDatagram C U S fresh src dg).2 ∧
      h.Repeats (h.onDatagram C U S fresh src dg).1 := by
  have hidle : Keeping h h ∧ h.Repeats [] :=
    ⟨Carried.refl keeps_tolerant.toClosed h, fun d hd => absurd hd List.not_mem_nil⟩
  have hroutes : ∀ token, Keeping h (h.routeTo C U S token src dg).2 ∧
      h.Repeats (h.routeTo C U S token src dg).1 := fun token =>
    ⟨routeTo_keeping C U S h token src dg, routeTo_repeats C U S h token src dg⟩
  unfold onDatagram
  split
  · exact hidle
  · split
    · split
      · exact hidle
      · split
        · exact hroutes _
        · exact hidle
    · split
      · exact hidle
      · rename_i hclear
        split
        · exact hidle
        · split
          · exact hroutes _
          · rename_i type body hroute
            have hquiet : ∀ t b, MsgType.ofByte t.toByte ≠ .handshakeResponse →
                h.Repeats [⟨src, makeHandshakeDatagram t b⟩] := by
              intro t b ht d hd hresponse
              rw [List.mem_singleton.mp hd] at hresponse
              exact absurd hresponse (not_isResponse_clear b ht)
            unfold onStateless
            split
            · split
              · rename_i hhello
                rcases onClientHello_message C _ _ _ hhello with rfl | rfl
                · exact ⟨hidle.1, hquiet _ _ (by decide)⟩
                · exact ⟨hidle.1, hquiet _ _ (by decide)⟩
              · exact hidle
            · split
              · exact hidle
              · split
                · exact hidle
                · -- The datagram would open a connection.
                  rename_i htype _ cr hcr hverify
                  rw [Bool.not_eq_false] at hverify
                  unfold opensConnection at hopens
                  simp only [not_not.mp hclear, hroute, htype, hcr, hverify, Option.isNone_none,
                    Option.any_some, decide_true, Bool.and_self, Bool.true_eq_false] at hopens
            · exact hidle

/-- A step opens a connection, or keeps the connections and sends no response that is new. -/
theorem step_keeps {h h' : ServerHost Key W A} (hdistinct : (h.conns.map Prod.fst).Nodup)
    (l : HostLabel W A) (hstep : h.step C U S l = some h') :
    (∃ fresh src dg, l = .datagram fresh src dg ∧ h.opensConnection C src dg = true ∧
      h' = (h.accept C U fresh src (dg.drop 2)).2 ∧
        h.output C U S l = (h.accept C U fresh src (dg.drop 2)).1) ∨
    (h.answered C l = none ∧ Keeping h h' ∧ h.Repeats (h.output C U S l)) := by
  have hclosed : Closed (ConnEntry.Keeps : ConnEntry Key → ConnEntry Key → Prop) :=
    keeps_tolerant.toClosed
  have hsilent : h.Repeats [] := fun d hd => absurd hd List.not_mem_nil
  cases l with
  | datagram fresh src dg =>
      rw [ServerHost.step, Option.some.injEq] at hstep
      by_cases hopens : h.opensConnection C src dg = true
      · have haccept := onDatagram_opens C U S fresh h src dg hopens
        refine .inl ⟨fresh, src, dg, rfl, hopens, ?_, ?_⟩
        · rw [← hstep, haccept]
        · exact congrArg Prod.fst haccept
      · rcases onDatagram_keeps C U S fresh h src dg (Bool.not_eq_true _ ▸ hopens) with
          ⟨hkeeping, hrepeats⟩
        refine .inr ⟨if_neg hopens, ?_, hrepeats⟩
        rw [← hstep]
        exact hkeeping
  | broadcast =>
      rw [ServerHost.step, Option.some.injEq] at hstep
      refine .inr ⟨rfl, ?_, fun d hd hresponse =>
        absurd hresponse (broadcastSnapshots_sent C U h d hd)⟩
      rw [← hstep]
      have hworld : Keeping h { h with world := (encodeClients U h.world h.connectedClientIds).2 } :=
        .of_conns hclosed rfl rfl
      exact hworld.trans hclosed (sendSnapshots_keeping C U _ _ hdistinct)
  | prune timeoutMs =>
      rw [ServerHost.step, Option.some.injEq] at hstep
      rw [← hstep]
      exact .inr ⟨rfl, removeAll_carried hclosed U _ h, hsilent⟩
  | setClock nowMs =>
      rw [ServerHost.step] at hstep
      by_cases hnow : h.nowMs ≤ nowMs
      · rw [if_pos hnow, Option.some.injEq] at hstep
        rw [← hstep]
        exact .inr ⟨rfl, .of_conns hclosed rfl rfl, hsilent⟩
      · rw [if_neg hnow] at hstep
        cases hstep
  | setUnixTime nowUnix =>
      rw [ServerHost.step, Option.some.injEq] at hstep
      rw [← hstep]
      exact .inr ⟨rfl, .of_conns hclosed rfl rfl, hsilent⟩
  | setDilation f =>
      rw [ServerHost.step, Option.some.injEq] at hstep
      rw [← hstep]
      exact .inr ⟨rfl, setDilationFactor_carried keeps_tolerant h f, hsilent⟩
  | outside w accounts persist =>
      rw [ServerHost.step, Option.some.injEq] at hstep
      rw [← hstep]
      exact .inr ⟨rfl, .of_conns hclosed rfl rfl, hsilent⟩

/-- A step keeps the ends of every channel. -/
theorem step_ends {h h' : ServerHost Key W A} (hdistinct : (h.conns.map Prod.fst).Nodup)
    (l : HostLabel W A) (hstep : h.step C U S l = some h') {t : UInt64} {e e' : ConnEntry Key}
    (he : h.entryForToken t = some e) (he' : h'.entryForToken t = some e')
    (hbuilt : e.conn.channel.isSome = true) :
    e'.conn.channel.map SecureChannel.ends = e.conn.channel.map SecureChannel.ends := by
  rcases step_keeps C U S hdistinct l hstep with ⟨fresh, src, dg, _, _, rfl, _⟩ | ⟨_, hkeeping, _⟩
  · have hsame : e' = e := by
      rcases accept_opens C U fresh h src (dg.drop 2) with ⟨entry, hconns, _⟩
      cases hfree : h.entryForToken h.nextToken with
      | some e₀ =>
          rw [hfree, if_pos Option.isSome_some] at hconns
          have hlookup : Assoc.lookup (h.accept C U fresh src (dg.drop 2)).2.conns t = some e' := he'
          rw [hconns] at hlookup
          exact Option.some.inj (hlookup.symm.trans he)
      | none =>
          rw [hfree, if_neg (by rw [Option.isSome_none]; exact Bool.false_ne_true)] at hconns
          have hlookup := entryForToken_concat hfree hconns t
          rw [if_neg fun ht => ?_, he'] at hlookup
          · exact Option.some.inj (hlookup.trans he)
          · rw [ht, hfree] at he
            exact absurd he nofun
    rw [hsame]
  · rcases hkeeping.entry t e' he' with ⟨e₀, he₀, hkeeps⟩
    have hsame : e₀ = e := Option.some.inj (he₀.symm.trans he)
    rw [hsame] at hkeeps
    rcases hkeeps.channel with hends | ⟨hnone, _⟩
    · exact hends
    · rw [hnone] at hbuilt
      exact absurd hbuilt Bool.false_ne_true

end

end ServerHost

end Net

end EarthRise
