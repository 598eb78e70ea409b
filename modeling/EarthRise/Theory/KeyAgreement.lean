import EarthRise.Theory.HostOutput

/-!
# Whose Keys the Two Ends Have

The host opens a connection for one cookie response, with keys for the key in it. Another
cookie response from that address gets what was sent for the first one, whoever's key it
carries. So a client that was restarted can take its keys from an answer that was made for the
client before it: the server's key verifies, the token is that of the connection, and the keys
of the two ends are not the same.

The ends agree exactly if the connection was opened with the key that the client has now, and
the client took its keys from that answer. Neither end changes its keys afterwards.

## Main definitions

* `Meeting.Agree`, `Meeting.Lasting`: What the two ends of a channel have to do.
* `Meeting.Mine`: Connections are opened with the key of the client.
* `Meeting.Known`: The invariant: whose keys the connections have.

## Theorems

* `Known.hostStep`, `Known.deliver`: Steps of the host and of the client.
* `agree_iff`: When the two ends agree, in every run.
* `stale_response`: A run in which a restarted client has other keys than its connection.
-/

namespace EarthRise

namespace Net

open Run

/-! ## What the client keeps -/

namespace ClientConnection

variable {Key : Type} (C : CryptoProvider Key)

/-- The handshake is as it was, and the channel has its ends. -/
structure Stays (c c' : ClientConnection Key) : Prop where
  client : c'.client = c.client
  channel : c'.channel.map SecureChannel.ends = c.channel.map SecureChannel.ends

theorem Stays.refl (c : ClientConnection Key) : c.Stays c := ⟨rfl, rfl⟩

theorem Stays.trans {a b c : ClientConnection Key} (hab : a.Stays b) (hbc : b.Stays c) :
    a.Stays c :=
  ⟨hbc.client.trans hab.client, hbc.channel.trans hab.channel⟩

theorem sealOn_stays {c c' : ClientConnection Key} {ch : Channel} {type : MsgType}
    {body d : Bytes} (h : c.sealOn C ch type body = some (d, c')) : c.Stays c' := by
  unfold sealOn at h
  cases hch : c.channel with
  | none =>
      rw [hch] at h
      exact absurd h nofun
  | some channel =>
      rw [hch] at h
      rcases Option.map_eq_some_iff.mp h with ⟨r, hseal, heq⟩
      rw [Prod.mk.injEq] at heq
      rw [← heq.2]
      refine ⟨rfl, ?_⟩
      rw [hch]
      exact congrArg some (sealMessage_ends C (d := r.1) hseal)

/-- What is emitted is sealed, or nothing. -/
theorem emit_stays {c : ClientConnection Key} {r : Option (Bytes × ClientConnection Key)}
    (hr : ∀ d c', r = some (d, c') → c.Stays c') : c.Stays (c.emit r).2 := by
  unfold emit
  split
  · exact .refl c
  · exact hr _ _ rfl

theorem sendLogin_stays {c c' : ClientConnection Key} {d : Bytes}
    (h : c.sendLogin C = some (d, c')) : c.Stays c' := by
  unfold sendLogin at h
  split at h
  · exact sealOn_stays C h
  · exact sealOn_stays C h

theorem handleAll_stays (ms : List DecodedMessage) (c : ClientConnection Key) :
    c.Stays (handleAll C c ms).2 := by
  have hone : ∀ (c : ClientConnection Key) (m : DecodedMessage),
      c.Stays (c.handleAppMessage C m).2 := by
    intro c m
    unfold handleAppMessage
    split
    · unfold onAuthResult
      split
      · exact .refl c
      · split
        · exact .refl c
        · simp only []
          split
          · exact ⟨rfl, rfl⟩
          · split
            · have hnamed : c.Stays { c with
                  lastAuthResult := m.body.getD 1 0
                  triedRegister := true
                  authOpcode := authOpcodeRegister } := ⟨rfl, rfl⟩
              exact hnamed.trans (emit_stays fun _ _ h => sealOn_stays C h)
            · split
              · exact ⟨rfl, rfl⟩
              · exact ⟨rfl, rfl⟩
    · split
      · split
        · split
          · exact ⟨rfl, rfl⟩
          · exact ⟨rfl, rfl⟩
        · exact ⟨rfl, rfl⟩
      · exact .refl c
  induction ms generalizing c with
  | nil => exact .refl c
  | cons m ms ih => exact (hone c m).trans (ih _)

theorem call_stays (c : ClientConnection Key) (f : ClientCall) : c.Stays (c.call C f).2 := by
  cases f with
  | resendPending =>
      show c.Stays (c.resendPending C).2
      unfold resendPending
      split
      · exact .refl c
      · split
        · exact emit_stays fun _ _ h => sendLogin_stays C h
        · exact .refl c
  | sendTyped type body =>
      refine emit_stays fun _ _ h => ?_
      unfold sendTyped at h
      split at h
      · exact sealOn_stays C h
      · exact absurd h nofun
  | buildKeepalive =>
      refine emit_stays fun _ _ h => ?_
      unfold buildKeepalive at h
      split at h
      · exact sealOn_stays C h
      · exact absurd h nofun
  | buildDisconnect => exact emit_stays fun _ _ h => sealOn_stays C h

/-- The channel has its ends, or is built with the keys of the handshake. -/
def Extends (c c' : ClientConnection Key) : Prop :=
  c'.channel.map SecureChannel.ends = c.channel.map SecureChannel.ends ∨
    c.channel = none ∧ ∃ keys, c'.client.keys = some keys ∧
      c'.channel.map SecureChannel.ends = some (c'.client.token, keys.1, keys.2)

theorem buildChannel_extends (c : ClientConnection Key) :
    (c.buildChannel C).2.client = c.client ∧ c.Extends (c.buildChannel C).2 := by
  unfold buildChannel
  split
  · rename_i keys hch hkeys
    split
    · exact ⟨rfl, .inl rfl⟩
    · have hsent := emit_stays (c := { c with
          token := c.client.token
          channel := some (openChannel .clientToServer c.client.token keys.1 keys.2)
          state := .authenticating }) fun _ _ h => sendLogin_stays C h
      refine ⟨hsent.client, .inr ⟨hch, keys, ?_, ?_⟩⟩
      · rw [hsent.client]
        exact hkeys
      · rw [hsent.channel, hsent.client]
        rfl
  · exact ⟨rfl, .inl rfl⟩

/-- What a datagram does: a clear message is for the handshake, and can build the channel. -/
theorem onDatagram_client (fresh : EcdhKeyPair) (c : ClientConnection Key) (dg : Bytes) :
    c.Stays (c.onDatagram C fresh dg).2 ∨ ∃ type body, dg = kindClearHandshake :: type :: body ∧
      (c.onDatagram C fresh dg).2.client = (c.client.onMessage C fresh (.ofByte type) body).2 ∧
        c.Extends (c.onDatagram C fresh dg).2 := by
  match dg with
  | [] => exact .inl (.refl c)
  | kind :: rest =>
      unfold onDatagram
      simp only []
      by_cases hclear : kind = kindClearHandshake
      · rw [if_pos hclear]
        cases rest with
        | nil => exact .inl (.refl c)
        | cons type body =>
            refine .inr ⟨type, body, by rw [hclear], ?_⟩
            unfold onClear
            cases hout : (c.client.onMessage C fresh (.ofByte type) body).1 with
            | fail reason =>
                simp only [hout]
                exact ⟨trivial, .inl rfl⟩
            | none =>
                simp only [hout]
                exact buildChannel_extends C { c with
                  client := (c.client.onMessage C fresh (.ofByte type) body).2 }
            | message t b =>
                simp only [hout]
                exact buildChannel_extends C { c with
                  client := (c.client.onMessage C fresh (.ofByte type) body).2
                  lastHandshakeDatagram := makeHandshakeDatagram t b }
      · rw [if_neg hclear]
        split
        · cases hch : c.channel with
          | none => exact .inl (.refl c)
          | some ch =>
              have hmoved : c.Stays { c with
                  channel := some (receive C.toICrypto ch rest).2 } := by
                refine ⟨rfl, ?_⟩
                rw [hch]
                exact congrArg some (receive_ends C ch rest)
              exact .inl (hmoved.trans (handleAll_stays C _ _))
        · exact .inl (.refl c)

end ClientConnection

namespace Meeting

variable {Key W Snap A : Type}

/-! ## Agreement -/

/-- The client has a channel with the token of a connection that has one too. -/
structure Paired (w : Meeting Key W A) (t : UInt64) (e : ConnEntry Key)
    (ch ch' : SecureChannel Key) : Prop where
  entry : w.host.entryForToken t = some e
  server : e.conn.channel = some ch'
  client : w.client.channel = some ch
  token : ch.token = ch'.token

/-- The two ends of a channel have each other's keys, and the same epoch. -/
def Agree (w : Meeting Key W A) : Prop :=
  ∀ t e ch ch', w.Paired t e ch ch' → ch.sendKey = ch'.recvKey ∧ ch.recvKey = ch'.sendKey ∧
    w.client.client.epoch = e.conn.server.epoch

/-- The connection was opened with the key that the client has now, and the client took its
    keys from the answer to that. -/
def Mine (w : Meeting Key W A) : Prop :=
  ∀ t e ch ch', w.Paired t e ch ch' → ∃ own a, w.client.client.ephemeral = some own ∧
    w.opened t = some a ∧ a.clientPub = own.publicKey ∧
      w.used = some a.response.serverEphemeralPub

/-- What a step leaves of the channels that are built. -/
structure Lasts (w w' : Meeting Key W A) (l : MeetingLabel W A) : Prop where
  server : ∀ t e e', w.host.entryForToken t = some e → w'.host.entryForToken t = some e' →
    e.conn.channel.isSome = true →
      e'.conn.channel.map SecureChannel.ends = e.conn.channel.map SecureChannel.ends ∧
        e'.conn.server.epoch = e.conn.server.epoch
  client : w.client.channel.isSome = true →
    w'.client.channel.map SecureChannel.ends = w.client.channel.map SecureChannel.ends ∧
        w'.client.client.epoch = w.client.client.epoch ∨
      ∃ clientTime loginName password, l = .restart clientTime loginName password

section

variable (C : CryptoProvider Key) (U : GameUniverse W Snap) (S : AccountService A)
  (peer : Endpoint) (Gen : EcdhKeyPair → Prop) {t : UInt64}

/-- No step changes the keys of a channel. A client that is restarted has none. -/
def Lasting (w : Meeting Key W A) : Prop :=
  ∀ l w', w.Drawn Gen l → w.step C U S peer l = some w' → w.Lasts w' l

/-! ## Whose keys -/

/-- The client and the answers, without the connections and the network. -/
def exchange (w : Meeting Key W A) : Exchange Key :=
  { staticPriv := w.host.staticPriv, client := w.client.client, answers := w.answers
    used := w.used, drawn := w.drawn }

/-- Whose keys a connection has, and what it sends again. -/
structure Owned (answers : List (Answer Key)) (opened : Option (Answer Key)) (t : UInt64)
    (c : ServerConnection Key) : Prop where
  token : c.token = t
  epoch : c.server.epoch = 0
  keys : ∀ k, c.server.keys = some k → ∃ a ∈ answers, opened = some a ∧ a.keys = k
  channel : ∀ ch, c.channel = some ch → ∃ k, c.server.keys = some k ∧ ch.ends = (t, k.2, k.1)
  last : IsResponse c.lastHandshakeDatagram → ∃ a ∈ answers, c.lastHandshakeDatagram = a.datagram

theorem Owned.keeps {answers : List (Answer Key)} {opened : Option (Answer Key)}
    {c c' : ServerConnection Key} (hc : Owned answers opened t c) (hkeeps : c.Keeps c') :
    Owned answers opened t c' where
  token := hkeeps.token.trans hc.token
  epoch := hkeeps.epoch.trans hc.epoch
  keys := by
    intro k hk
    rw [hkeeps.keys] at hk
    exact hc.keys k hk
  channel := by
    intro ch hch
    rw [hkeeps.keys]
    rcases hkeeps.channel with hsame | ⟨_, hbuilt⟩
    · rw [hch, Option.map_some] at hsame
      rcases Option.map_eq_some_iff.mp hsame.symm with ⟨ch₀, hch₀, hends⟩
      rcases hc.channel ch₀ hch₀ with ⟨k, hk, hends₀⟩
      exact ⟨k, hk, hends.symm.trans hends₀⟩
    · rw [hch, Option.map_some] at hbuilt
      rcases Option.map_eq_some_iff.mp hbuilt.symm with ⟨k, hk, hends⟩
      refine ⟨k, hk, ?_⟩
      rw [← hends, hc.token]
  last := by
    rw [hkeeps.last]
    exact hc.last

theorem Owned.mono {answers answers' : List (Answer Key)} {opened : Option (Answer Key)}
    {c : ServerConnection Key} (hc : Owned answers opened t c)
    (hsub : answers ⊆ answers') : Owned answers' opened t c where
  token := hc.token
  epoch := hc.epoch
  keys := by
    intro k hk
    rcases hc.keys k hk with ⟨a, ha, hopened⟩
    exact ⟨a, hsub ha, hopened⟩
  channel := hc.channel
  last := by
    intro h
    rcases hc.last h with ⟨a, ha, hlast⟩
    exact ⟨a, hsub ha, hlast⟩

/-- A new connection has the keys of its answer, if it got one. -/
theorem Owned.of_opened {answers : List (Answer Key)} {answer opened : Option (Answer Key)}
    {c : ServerConnection Key} (hc : c.OpenedBy t answer)
    (hopened : answer.isSome = true → opened = answer) :
    Owned (answers ++ answer.toList) opened t c where
  token := hc.token
  epoch := hc.epoch
  keys := by
    intro k hk
    rw [hc.keys] at hk
    rcases Option.map_eq_some_iff.mp hk with ⟨a, rfl, hkeys⟩
    exact ⟨a, List.mem_append_right _ (Option.mem_toList.mpr rfl), hopened rfl, hkeys⟩
  channel := by
    intro ch hch
    rw [hc.channel] at hch
    exact absurd hch nofun
  last := by
    intro h
    rw [hc.last] at h ⊢
    cases answer with
    | none =>
        rcases h with ⟨type, body, heq, _⟩
        exact absurd heq (by simp only [Option.map_none, Option.getD_none, reduceCtorEq,
          not_false_eq_true])
    | some a => exact ⟨a, List.mem_append_right _ (Option.mem_toList.mpr rfl), rfl⟩

/-- Whose keys everybody has, and what is under way. -/
structure Known (w : Meeting Key W A) : Prop where
  distinct : (w.host.conns.map Prod.fst).Nodup
  honest : w.exchange.Honest C Gen
  epochs : ∀ a ∈ w.answers, a.response.epoch = 0
  entry : ∀ t e, w.host.entryForToken t = some e → Owned w.answers (w.opened t) t e.conn
  response : ∀ d ∈ w.toClient, IsResponse d → ∃ a ∈ w.answers, d = a.datagram
  channel : ∀ ch, w.client.channel = some ch → ∃ keys, w.client.client.keys = some keys ∧
    ch.ends = (w.client.client.token, keys.1, keys.2)
  epoch : w.client.client.keys.isSome = true → w.client.client.epoch = 0

variable {C U S peer Gen} {w : Meeting Key W A}

/-! ## A step of the host -/

theorem Known.drawing (hw : w.Known C Gen) (l : HostLabel W A)
    (hfair : ∀ fresh src dg, l = .datagram fresh src dg →
      Gen fresh ∧ fresh.publicKey ∉ w.drawn) (staticPriv : Bytes) :
    Exchange.Honest C Gen { w.exchange with
      staticPriv := staticPriv, drawn := Meeting.drawing w.drawn l } := by
  cases l with
  | datagram fresh src dg =>
      rcases hfair fresh src dg rfl with ⟨hgen, hnew⟩
      have h : Exchange.Honest C Gen { w.exchange with drawn := fresh.publicKey :: w.drawn } :=
        hw.honest.idle hgen hnew rfl (.inl rfl) fun _ => rfl
      exact ⟨h.answered, h.own, h.accepted⟩
  | _ => exact ⟨hw.honest.answered, hw.honest.own, hw.honest.accepted⟩

theorem Known.keepsHost (hw : w.Known C Gen) {host : ServerHost Key W A}
    {l : HostLabel W A} (hfair : ∀ fresh src dg, l = .datagram fresh src dg →
      Gen fresh ∧ fresh.publicKey ∉ w.drawn)
    (hkeeping : ServerHost.Keeping w.host host) {ds : List OutDatagram}
    (hrepeats : w.host.Repeats ds) :
    Known C Gen { w with
      host := host
      toClient := w.toClient ++ (ds.filter fun d => d.dest = peer).map OutDatagram.data
      drawn := Meeting.drawing w.drawn l } where
  distinct := hkeeping.tokens.nodup hw.distinct
  honest := hw.drawing l hfair host.staticPriv
  epochs := hw.epochs
  entry := by
    intro t e' he'
    rcases hkeeping.entry t e' he' with ⟨e, he, hkeeps⟩
    exact (hw.entry t e he).keeps hkeeps
  response := by
    intro d hd hresponse
    rcases List.mem_append.mp hd with hold | hsent
    · exact hw.response d hold hresponse
    · rcases List.mem_map.mp hsent with ⟨od, hod, rfl⟩
      rcases hrepeats od (List.mem_of_mem_filter hod) hresponse with ⟨t, e, he, hlast⟩
      rw [hlast] at hresponse ⊢
      exact (hw.entry t e he).last hresponse
  channel := hw.channel
  epoch := hw.epoch

theorem Known.opensHost (hw : w.Known C Gen) {fresh : EcdhKeyPair}
    (hgen : Gen fresh) (hnew : fresh.publicKey ∉ w.drawn) (src : Endpoint) (body : Bytes)
    {answer : Option (Answer Key)}
    (hanswer : answer = answerOf C w.host.staticPriv fresh w.host.nextToken w.host.serverTime
      body) :
    Known C Gen { w with
      host := (w.host.accept C U fresh src body).2
      toClient := w.toClient ++ (((w.host.accept C U fresh src body).1.filter fun d =>
        d.dest = peer).map OutDatagram.data)
      answers := w.answers ++ answer.toList
      opened := fun t =>
        if answer.isSome ∧ t = w.host.nextToken ∧ (w.host.entryForToken t).isNone then answer
        else w.opened t
      drawn := fresh.publicKey :: w.drawn } := by
  rcases ServerHost.accept_opens C U fresh w.host src body with ⟨entry, hconns, hopened, hsent⟩
  rw [← hanswer] at hopened hsent
  refine ⟨?_, ?_, ?_, ?_, ?_, hw.channel, hw.epoch⟩
  · cases hfree : w.host.entryForToken w.host.nextToken with
    | some e =>
        rw [hfree, if_pos Option.isSome_some] at hconns
        show ((w.host.accept C U fresh src body).2.conns.map Prod.fst).Nodup
        rw [hconns]
        exact hw.distinct
    | none =>
        rw [hfree, if_neg (by rw [Option.isSome_none]; exact Bool.false_ne_true)] at hconns
        exact ServerHost.distinct_concat hw.distinct hfree hconns
  · have h := hw.honest.answer hgen hnew w.host.nextToken w.host.serverTime body
    have hsame : w.exchange.staticPriv = w.host.staticPriv := rfl
    rw [hsame, ← hanswer] at h
    exact ⟨h.answered, h.own, h.accepted⟩
  · intro a ha
    rcases List.mem_append.mp ha with hold | hself
    · exact hw.epochs a hold
    · rw [Option.mem_toList, hanswer] at hself
      exact (answerOf_spec C hself).2.1
  · intro t e he
    have hmono : ∀ e, w.host.entryForToken t = some e →
        Owned (w.answers ++ answer.toList) (w.opened t) t e.conn := fun e he =>
      (hw.entry t e he).mono (List.subset_append_left _ _)
    show Owned (w.answers ++ answer.toList) (if answer.isSome = true ∧ t = w.host.nextToken ∧
      (w.host.entryForToken t).isNone = true then answer else w.opened t) t e.conn
    cases hfree : w.host.entryForToken w.host.nextToken with
    | some e₀ =>
        rw [hfree, if_pos Option.isSome_some] at hconns
        have hold : w.host.entryForToken t = some e := by
          have hlookup : Assoc.lookup (w.host.accept C U fresh src body).2.conns t = some e := he
          rw [hconns] at hlookup
          exact hlookup
        rw [if_neg fun h => ?_]
        · exact hmono e hold
        · rw [Option.isNone_iff_eq_none, hold] at h
          exact absurd h.2.2 nofun
    | none =>
        rw [hfree, if_neg (by rw [Option.isSome_none]; exact Bool.false_ne_true)] at hconns
        have hlookup := ServerHost.entryForToken_concat hfree hconns t
        by_cases ht : t = w.host.nextToken
        · rw [if_pos ht] at hlookup
          have hself : entry = e := Option.some.inj (hlookup.symm.trans he)
          rw [← hself, ht]
          refine Owned.of_opened hopened fun hsome => if_pos ⟨hsome, rfl, ?_⟩
          rw [hfree]
          rfl
        · rw [if_neg ht] at hlookup
          rw [if_neg fun h => ht h.2.1]
          exact hmono e (hlookup.symm.trans he)
  · intro d hd hresponse
    rcases List.mem_append.mp hd with hold | hnewd
    · rcases hw.response d hold hresponse with ⟨a, ha, hdata⟩
      exact ⟨a, List.mem_append_left _ ha, hdata⟩
    · rcases List.mem_map.mp hnewd with ⟨od, hod, rfl⟩
      have hmem := List.mem_of_mem_filter hod
      rw [hsent, Option.mem_toList] at hmem
      rcases Option.map_eq_some_iff.mp hmem with ⟨a, ha, rfl⟩
      refine ⟨a, List.mem_append_right _ (Option.mem_toList.mpr ha), rfl⟩

theorem Known.hostStep {w w' : Meeting Key W A} (hw : w.Known C Gen) (l : HostLabel W A)
    (hfair : ∀ fresh src dg, l = .datagram fresh src dg → Gen fresh ∧ fresh.publicKey ∉ w.drawn)
    (hstep : w.hostStep C U S peer l = some w') : w'.Known C Gen := by
  unfold Meeting.hostStep at hstep
  rcases Option.map_eq_some_iff.mp hstep with ⟨host, hhost, rfl⟩
  rcases ServerHost.step_keeps C U S hw.distinct l hhost with
    ⟨fresh, src, dg, rfl, hopens, rfl, hsent⟩ | ⟨hnone, hkeeping, hrepeats⟩
  · rcases hfair fresh src dg rfl with ⟨hgen, hnew⟩
    have hanswer : w.host.answered C (.datagram fresh src dg : HostLabel W A) =
        answerOf C w.host.staticPriv fresh w.host.nextToken w.host.serverTime (dg.drop 2) :=
      if_pos hopens
    rw [hsent]
    exact hw.opensHost hgen hnew src (dg.drop 2) hanswer
  · simp only [hnone, Option.toList_none, List.append_nil, Option.isSome_none, Bool.false_eq_true,
      false_and, if_false]
    exact hw.keepsHost hfair hkeeping hrepeats

/-! ## A step of the client -/

/-- A response that is under way is that of an answer. -/
theorem Known.response_of (hw : w.Known C Gen) {type : UInt8} {body : Bytes}
    (hd : kindClearHandshake :: type :: body ∈ w.toClient)
    (htype : MsgType.ofByte type = .handshakeResponse) {response : HandshakeResponseBody}
    (hbody : decodeHandshakeResponse body = some response) :
    ∃ a ∈ w.answers, a.response = response := by
  rcases hw.response _ hd ⟨type, body, rfl, htype⟩ with ⟨a, ha, hdata⟩
  unfold Answer.datagram makeHandshakeDatagram at hdata
  simp only [List.cons.injEq, true_and] at hdata
  rw [hdata.2, decodeHandshakeResponse_encode, Option.some.injEq] at hbody
  exact ⟨a, ha, hbody⟩

/-- The client is as it was but for what it sends. -/
theorem Known.stays (hw : w.Known C Gen) {client : ClientConnection Key}
    (hstays : w.client.Stays client) (toServer : List Bytes) :
    Known C Gen { w with client := client, toServer := toServer } where
  distinct := hw.distinct
  honest := by
    have hsame : client.client = w.client.client := hstays.client
    show Exchange.Honest C Gen { w.exchange with client := client.client }
    rw [hsame]
    exact hw.honest
  epochs := hw.epochs
  entry := hw.entry
  response := hw.response
  channel := by
    intro ch hch
    show ∃ keys, client.client.keys = some keys ∧ ch.ends = (client.client.token, keys.1, keys.2)
    rw [hstays.client]
    have hends := hstays.channel
    have hch' : client.channel = some ch := hch
    rw [hch', Option.map_some] at hends
    rcases Option.map_eq_some_iff.mp hends.symm with ⟨ch₀, hch₀, heq⟩
    rcases hw.channel ch₀ hch₀ with ⟨keys, hkeys, hends₀⟩
    exact ⟨keys, hkeys, heq.symm.trans hends₀⟩
  epoch := by
    show client.client.keys.isSome = true → client.client.epoch = 0
    rw [hstays.client]
    exact hw.epoch

theorem Known.deliver (hC : C.Ideal Gen) (hw : w.Known C Gen)
    {fresh : EcdhKeyPair} (hgen : Gen fresh) (hnew : fresh.publicKey ∉ w.drawn) {dg : Bytes}
    (hd : dg ∈ w.toClient) :
    Known C Gen { w with
      client := (w.client.onDatagram C fresh dg).2
      toServer := w.toServer ++ (w.client.onDatagram C fresh dg).1.send
      used :=
        if w.client.client.keys.isNone ∧ (w.client.onDatagram C fresh dg).2.client.keys.isSome then
          (decodeHandshakeResponse (dg.drop 2)).map HandshakeResponseBody.serverEphemeralPub
        else w.used
      drawn := fresh.publicKey :: w.drawn } := by
  rcases ClientConnection.onDatagram_client C fresh w.client dg with
    hstays | ⟨type, body, rfl, hclient, hextends⟩
  · have hidle : Exchange.Honest C Gen { w.exchange with drawn := fresh.publicKey :: w.drawn } :=
      hw.honest.idle hgen hnew rfl (.inl rfl) fun _ => rfl
    have hnot : ¬ (w.client.client.keys.isNone = true ∧
        (w.client.onDatagram C fresh dg).2.client.keys.isSome = true) := by
      rw [hstays.client]
      rintro ⟨hnone, hsome⟩
      rw [Option.isNone_iff_eq_none] at hnone
      rw [hnone] at hsome
      exact Bool.false_ne_true hsome
    rw [if_neg hnot]
    have hdrawn : Known C Gen { w with drawn := fresh.publicKey :: w.drawn } :=
      ⟨hw.distinct, hidle, hw.epochs, hw.entry, hw.response, hw.channel, hw.epoch⟩
    exact hdrawn.stays hstays _
  · have hsigned : w.exchange.Unforged C Gen (.deliver fresh (.ofByte type) body) := by
      refine ⟨hgen, hnew, fun htype response hbody _ => ?_⟩
      rcases hw.response_of hd htype hbody with ⟨a, ha, hsame⟩
      exact ⟨a, ha, by rw [hsame]⟩
    have hhonest := hw.honest.step hC (.deliver fresh (.ofByte type) body) hsigned rfl
    have hcases := HandshakeClient.onMessage_cases C fresh w.client.client (.ofByte type) body
    generalize hnext : (w.client.client.onMessage C fresh (.ofByte type) body).2 = next
      at hclient hcases
    generalize w.client.onDatagram C fresh (kindClearHandshake :: type :: body) = r
      at hclient hextends ⊢
    refine ⟨hw.distinct, ?_, hw.epochs, hw.entry, hw.response, fun ch hch => ?_, fun hkeys => ?_⟩
    · show Exchange.Honest C Gen { w.exchange with
        client := r.2.client
        used := if w.client.client.keys.isNone ∧ r.2.client.keys.isSome then
            (decodeHandshakeResponse body).map HandshakeResponseBody.serverEphemeralPub
          else w.used
        drawn := fresh.publicKey :: w.drawn }
      rw [hclient, ← hnext]
      exact hhonest
    · show ∃ keys, r.2.client.keys = some keys ∧ ch.ends = (r.2.client.token, keys.1, keys.2)
      have hch' : r.2.channel = some ch := hch
      rcases hextends with hsame | ⟨_, keys, hkeys, hends⟩
      · rw [hch', Option.map_some] at hsame
        rcases Option.map_eq_some_iff.mp hsame.symm with ⟨ch₀, hch₀, heq⟩
        rcases hw.channel ch₀ hch₀ with ⟨keys, hkeys, hends⟩
        rcases hcases with ⟨hkept, _, hrest⟩ | ⟨_, response, _, hacc⟩
        · refine ⟨keys, ?_, ?_⟩
          · rw [hclient, hkept, hkeys]
          · rw [← heq, hends, hclient, (hrest (by rw [hkeys]; rfl)).1]
        · rw [hacc.before] at hkeys
          exact absurd hkeys nofun
      · rw [hch', Option.map_some, Option.some.injEq] at hends
        exact ⟨keys, hkeys, hends⟩
    · have hkeys' : r.2.client.keys.isSome = true := hkeys
      show r.2.client.epoch = 0
      rw [hclient] at hkeys' ⊢
      rcases hcases with ⟨hkept, _, hrest⟩ | ⟨htype, response, hbody, hacc⟩
      · rw [hkept] at hkeys'
        rw [(hrest hkeys').2]
        exact hw.epoch hkeys'
      · rcases hw.response_of hd htype hbody with ⟨a, ha, hsame⟩
        rw [hacc.epoch, ← hsame]
        exact hw.epochs a ha

/-- A client that begins anew has no keys. -/
theorem Known.restart (hw : w.Known C Gen) (clientTime : UInt64)
    (loginName : Bytes) (password : Option Bytes) (toServer : List Bytes) :
    Known C Gen { w with
      client := .start w.client.client.pinnedStaticPub clientTime loginName password
      toServer := toServer
      used := none } where
  distinct := hw.distinct
  honest := ⟨hw.honest.answered, fun _ h => absurd h (by simp only [exchange,
    ClientConnection.start, HandshakeClient.start, reduceCtorEq, not_false_eq_true]), fun _ h =>
    absurd h (by simp only [exchange, ClientConnection.start, HandshakeClient.start, reduceCtorEq,
      not_false_eq_true])⟩
  epochs := hw.epochs
  entry := hw.entry
  response := hw.response
  channel := fun _ h => absurd h (by
    simp only [ClientConnection.start, reduceCtorEq, not_false_eq_true])
  epoch := fun _ => rfl

theorem Known.step (hC : C.Ideal Gen) {w w' : Meeting Key W A} (hw : w.Known C Gen)
    (l : MeetingLabel W A) (hfair : w.Drawn Gen l) (hstep : w.step C U S peer l = some w') :
    w'.Known C Gen := by
  cases l with
  | host l =>
      rw [Meeting.step] at hstep
      by_cases hpeer : fromPeer peer l = true
      · rw [if_pos hpeer] at hstep
        exact absurd hstep nofun
      · rw [if_neg hpeer] at hstep
        refine hw.hostStep l (fun fresh src dg hl => ?_) hstep
        subst hl
        exact hfair
  | toServer fresh dg =>
      rw [Meeting.step] at hstep
      by_cases hd : dg ∈ w.toServer
      · rw [if_pos hd] at hstep
        refine hw.hostStep _ (fun fresh' src dg' hl => ?_) hstep
        rw [HostLabel.datagram.injEq] at hl
        rw [← hl.1]
        exact hfair
      · rw [if_neg hd] at hstep
        exact absurd hstep nofun
  | toClient fresh dg =>
      rw [Meeting.step] at hstep
      by_cases hd : dg ∈ w.toClient
      · rw [if_pos hd, Option.some.injEq] at hstep
        rw [← hstep]
        exact hw.deliver hC hfair.1 hfair.2 hd
      · rw [if_neg hd] at hstep
        exact absurd hstep nofun
  | call f =>
      rw [Meeting.step, Option.some.injEq] at hstep
      rw [← hstep]
      exact hw.stays (w.client.call_stays C f) _
  | restart clientTime loginName password =>
      rw [Meeting.step, Option.some.injEq] at hstep
      rw [← hstep]
      exact hw.restart clientTime loginName password _

theorem known_start {host : ServerHost Key W A} (hempty : host.conns = []) (pinnedPub : EcPubKey)
    (clientTime : UInt64) (loginName : Bytes) (password : Option Bytes) :
    (Meeting.start host pinnedPub clientTime loginName password).Known C Gen where
  distinct := by
    show (host.conns.map Prod.fst).Nodup
    rw [hempty]
    exact List.nodup_nil
  honest := Exchange.honest_start host.staticPriv pinnedPub clientTime
  epochs := fun _ h => absurd h List.not_mem_nil
  entry := by
    intro t e he
    have hnone : host.entryForToken t = none := ServerHost.entryForToken_empty hempty t
    exact absurd (hnone.symm.trans he) nofun
  response := fun _ h => absurd h List.not_mem_nil
  channel := fun _ h => absurd h (by
    simp only [Meeting.start, ClientConnection.start, reduceCtorEq, not_false_eq_true])
  epoch := fun _ => rfl

/-! ## When the ends agree -/

theorem Known.agree_iff_mine (hC : C.Ideal Gen) (hw : w.Known C Gen) :
    w.Agree ↔ w.Mine := by
  -- Both ends of a pair, with where their keys come from.
  have hpair : ∀ t e ch ch', w.Paired t e ch ch' → ∃ (k keys : Key × Key) (a : Answer Key)
      (own : EcdhKeyPair) (server : EcPubKey) (secret : SharedSecret),
      ch'.ends = (t, k.2, k.1) ∧ ch.ends = (w.client.client.token, keys.1, keys.2) ∧
      a ∈ w.answers ∧ w.opened t = some a ∧ a.keys = k ∧ w.client.client.ephemeral = some own ∧
      w.used = some server ∧ C.deriveSharedSecret own server = some secret ∧
      C.deriveAeadKeys secret w.client.client.epoch = some keys ∧
      w.client.client.epoch = 0 ∧ e.conn.server.epoch = 0 := by
    rintro t e ch ch' ⟨he, hserver, hclient, _⟩
    have howned := hw.entry t e he
    rcases howned.channel ch' hserver with ⟨k, hk, hends'⟩
    rcases howned.keys k hk with ⟨a, ha, hopened, hkeys⟩
    rcases hw.channel ch hclient with ⟨keys, hkeys', hends⟩
    rcases hw.honest.accepted keys hkeys' with
      ⟨own, server, secret, hown, hused, _, hsecret, hderived⟩
    exact ⟨k, keys, a, own, server, secret, hends', hends, ha, hopened, hkeys, hown, hused,
      hsecret, hderived, hw.epoch (by rw [hkeys']; rfl), howned.epoch⟩
  constructor
  · intro hagree t e ch ch' hp
    rcases hagree t e ch ch' hp with ⟨hsend, hrecv, _⟩
    rcases hpair t e ch ch' hp with ⟨k, keys, a, own, server, secret, hends', hends, ha, hopened,
      hkeys, hown, hused, hsecret, hderived, _⟩
    unfold SecureChannel.ends at hends hends'
    simp only [Prod.mk.injEq] at hends hends'
    have hsame : a.keys = keys := by
      rw [hkeys]
      refine Prod.ext ?_ ?_
      · rw [← hends'.2.2, ← hsend, hends.2.1]
      · rw [← hends'.2.1, ← hrecv, hends.2.2]
    rcases hw.honest.of_keys hC hown hsecret hderived ha hsame with ⟨hpub, hserver, _⟩
    refine ⟨own, a, hown, hopened, hpub, ?_⟩
    rw [hserver]
    exact hused
  · intro hmine t e ch ch' hp
    rcases hmine t e ch ch' hp with ⟨own', a', hown', hopened', hpub, hused'⟩
    rcases hpair t e ch ch' hp with ⟨k, keys, a, own, server, secret, hends', hends, ha, hopened,
      hkeys, hown, hused, hsecret, hderived, hepoch, hepoch'⟩
    have ha' : a' = a := Option.some.inj (hopened'.symm.trans hopened)
    have hown₀ : own' = own := Option.some.inj (hown'.symm.trans hown)
    have hserver : a'.response.serverEphemeralPub = server :=
      Option.some.inj (hused'.symm.trans hused)
    rw [ha'] at hpub hserver
    rw [hown₀] at hpub
    -- The two secrets are one, since each end used the key of the other.
    rcases hw.honest.answered a ha with ⟨fresh, secret', hgen, hkey, _, hsecret', hderived'⟩
    have hagree := hC.agree fresh own hgen (hw.honest.own own hown).1
    rw [← hpub, hsecret', ← hkey, hserver, hsecret, Option.some.injEq] at hagree
    rw [hagree, hw.epochs a ha, ← hepoch, hderived, Option.some.injEq] at hderived'
    have hsame : keys = k := hderived'.trans hkeys
    unfold SecureChannel.ends at hends hends'
    simp only [Prod.mk.injEq] at hends hends'
    refine ⟨?_, ?_, hepoch.trans hepoch'.symm⟩
    · rw [hends.2.1, hends'.2.2, hsame]
    · rw [hends.2.2, hends'.2.1, hsame]

/-- A client with a channel has its epoch. -/
theorem Known.epoch_of_channel (hw : w.Known C Gen)
    (hbuilt : w.client.channel.isSome = true) : w.client.client.epoch = 0 := by
  rcases Option.isSome_iff_exists.mp hbuilt with ⟨ch, hch⟩
  rcases hw.channel ch hch with ⟨keys, hkeys, _⟩
  exact hw.epoch (by rw [hkeys]; rfl)

theorem Known.lasts {w w' : Meeting Key W A} {l : MeetingLabel W A} (hw : w.Known C Gen)
    (hw' : w'.Known C Gen)
    (hserver : ∀ t e e', w.host.entryForToken t = some e → w'.host.entryForToken t = some e' →
      e.conn.channel.isSome = true →
        e'.conn.channel.map SecureChannel.ends = e.conn.channel.map SecureChannel.ends)
    (hclient : w.client.channel.isSome = true →
      w'.client.channel.map SecureChannel.ends = w.client.channel.map SecureChannel.ends ∨
        ∃ clientTime loginName password, l = .restart clientTime loginName password) :
    w.Lasts w' l where
  server := by
    intro t e e' he he' hbuilt
    exact ⟨hserver t e e' he he' hbuilt, (hw'.entry t e' he').epoch.trans (hw.entry t e he).epoch.symm⟩
  client := by
    intro hbuilt
    rcases hclient hbuilt with hends | hrestart
    · refine .inl ⟨hends, ?_⟩
      have hbuilt' : w'.client.channel.isSome = true := by
        rw [← Option.isSome_map (f := SecureChannel.ends), hends, Option.isSome_map]
        exact hbuilt
      exact (hw'.epoch_of_channel hbuilt').trans (hw.epoch_of_channel hbuilt).symm
    · exact .inr hrestart

theorem Known.lasting (hC : C.Ideal Gen) (hw : w.Known C Gen) :
    w.Lasting C U S peer Gen := by
  intro l w' hfair hstep
  have hw' := hw.step hC l hfair hstep
  have hsame : ∀ t e e', w.host.entryForToken t = some e → w.host.entryForToken t = some e' →
      e.conn.channel.isSome = true →
        e'.conn.channel.map SecureChannel.ends = e.conn.channel.map SecureChannel.ends := by
    intro t e e' he he' _
    rw [Option.some.inj (he.symm.trans he')]
  have hhost : ∀ l : HostLabel W A, w.hostStep C U S peer l = some w' →
      (∀ t e e', w.host.entryForToken t = some e → w'.host.entryForToken t = some e' →
        e.conn.channel.isSome = true →
          e'.conn.channel.map SecureChannel.ends = e.conn.channel.map SecureChannel.ends) ∧
        w'.client = w.client := by
    intro l hstep
    unfold Meeting.hostStep at hstep
    rcases Option.map_eq_some_iff.mp hstep with ⟨host, hhost, rfl⟩
    exact ⟨fun t e e' he he' => ServerHost.step_ends C U S hw.distinct l hhost he he', rfl⟩
  cases l with
  | host l =>
      rw [Meeting.step] at hstep
      by_cases hpeer : fromPeer peer l = true
      · rw [if_pos hpeer] at hstep
        exact absurd hstep nofun
      · rw [if_neg hpeer] at hstep
        rcases hhost l hstep with ⟨hserver, hclient⟩
        exact hw.lasts hw' hserver fun _ => .inl (by rw [hclient])
  | toServer fresh dg =>
      rw [Meeting.step] at hstep
      by_cases hd : dg ∈ w.toServer
      · rw [if_pos hd] at hstep
        rcases hhost _ hstep with ⟨hserver, hclient⟩
        exact hw.lasts hw' hserver fun _ => .inl (by rw [hclient])
      · rw [if_neg hd] at hstep
        exact absurd hstep nofun
  | toClient fresh dg =>
      rw [Meeting.step] at hstep
      by_cases hd : dg ∈ w.toClient
      · rw [if_pos hd, Option.some.injEq] at hstep
        rw [← hstep] at hw' ⊢
        refine hw.lasts hw' hsame fun hbuilt => .inl ?_
        rcases ClientConnection.onDatagram_client C fresh w.client dg with
          hstays | ⟨_, _, _, _, hends | ⟨hnone, _⟩⟩
        · exact hstays.channel
        · exact hends
        · rw [hnone] at hbuilt
          exact absurd hbuilt Bool.false_ne_true
      · rw [if_neg hd] at hstep
        exact absurd hstep nofun
  | call f =>
      rw [Meeting.step, Option.some.injEq] at hstep
      rw [← hstep] at hw' ⊢
      exact hw.lasts hw' hsame fun _ => .inl (w.client.call_stays C f).channel
  | restart clientTime loginName password =>
      rw [Meeting.step, Option.some.injEq] at hstep
      rw [← hstep] at hw' ⊢
      exact hw.lasts hw' hsame fun _ => .inr ⟨clientTime, loginName, password, rfl⟩

/-- In every run, the two ends of each channel have each other's keys, and keep them, exactly
    where the connection was opened with the key that the client has now, and the client took
    its keys from the answer to that. -/
theorem agree_iff (hC : C.Ideal Gen) {host : ServerHost Key W A} (hempty : host.conns = [])
    {pinnedPub : EcPubKey} {clientTime : UInt64} {loginName : Bytes} {password : Option Bytes}
    {w : Meeting Key W A} (hreach : Reaches (Meeting.step C U S peer) (Drawn Gen)
      (Meeting.start host pinnedPub clientTime loginName password) w) :
    w.Agree ∧ w.Lasting C U S peer Gen ↔ w.Mine := by
  have hw : w.Known C Gen :=
    hreach.invariant (fun _ l _ hw hfair hstep => hw.step hC l hfair hstep)
      (known_start hempty pinnedPub clientTime loginName password)
  rw [hw.agree_iff_mine hC]
  exact ⟨fun h => h.1, fun h => ⟨h, hw.lasting hC⟩⟩

end

/-! ## Two runs -/

instance (pair : EcdhKeyPair) : Decidable (Seeded pair) :=
  decidable_of_iff (pair.publicKey = List.Vector.replicate ecPubKeyBytes (pair.privateBlob.headD 0) ∧
    pair.privateBlob = [pair.privateBlob.headD 0]) (by
      unfold Seeded
      rcases pair with ⟨pub, blob⟩
      constructor
      · rintro ⟨hpub, hblob⟩
        refine ⟨blob.headD 0, ?_⟩
        unfold sampleKeyPair
        rw [EcdhKeyPair.mk.injEq]
        exact ⟨hpub, hblob⟩
      · rintro ⟨seed, heq⟩
        unfold sampleKeyPair at heq
        rw [EcdhKeyPair.mk.injEq] at heq
        rw [heq.1, heq.2]
        exact ⟨rfl, rfl⟩)

instance {Key W A : Type} (w : Meeting Key W A) (l : MeetingLabel W A) :
    Decidable (w.Drawn Seeded l) :=
  match l with
  | .host (.datagram fresh _ _) =>
      inferInstanceAs (Decidable (Seeded fresh ∧ fresh.publicKey ∉ w.drawn))
  | .toServer fresh _ => inferInstanceAs (Decidable (Seeded fresh ∧ fresh.publicKey ∉ w.drawn))
  | .toClient fresh _ => inferInstanceAs (Decidable (Seeded fresh ∧ fresh.publicKey ∉ w.drawn))
  | .host .broadcast => .isTrue trivial
  | .host (.prune _) => .isTrue trivial
  | .host (.setClock _) => .isTrue trivial
  | .host (.setUnixTime _) => .isTrue trivial
  | .host (.setDilation _) => .isTrue trivial
  | .host (.outside _ _ _) => .isTrue trivial
  | .call _ => .isTrue trivial
  | .restart _ _ _ => .isTrue trivial

/-- A host and a client that has said hello. -/
def sampleMeeting : Meeting (SharedSecret × UInt32 × Bool) (List UInt32) Unit :=
  .start (.start [] [] 0 [] none none false) (List.Vector.replicate _ 0) 0 [97] none

/-- What the two ends send. A client and a server connection are named by the seed of their
    key pair. -/
def cookie : Bytes :=
  makeHandshakeDatagram .cookie (idealProvider.makeCookie [] samplePeer.addrBytes).toList

def cookieResponse (client : UInt8) : Bytes :=
  makeHandshakeDatagram .cookieResponse (CookieResponseBody.encode
    ⟨idealProvider.makeCookie [] samplePeer.addrBytes, (sampleKeyPair client).publicKey⟩)

def response (server : UInt8) : Bytes :=
  makeHandshakeDatagram .handshakeResponse (HandshakeResponseBody.encode
    ⟨(sampleKeyPair server).publicKey, (sampleKeyPair server).publicKey, ServerHost.mixToken 1, 0⟩)

def clockSync (type : MsgType) : Bytes := makeHandshakeDatagram type (ClockSyncBody.encode ⟨0, 0, 1⟩)

/-- A client and the host meet, and agree. -/
theorem agree_iff_meets :
    ∃ w, Reaches (Meeting.step idealProvider sampleUniverse noAccounts samplePeer) (Drawn Seeded)
        sampleMeeting w ∧ w.client.channel.isSome = true ∧
      (w.Agree ∧ w.Lasting idealProvider sampleUniverse noAccounts samplePeer Seeded) := by
  have hrun : ((runGuarded (Meeting.step idealProvider sampleUniverse noAccounts samplePeer)
      (Drawn Seeded) sampleMeeting
      [.toServer (sampleKeyPair 0) hello, .toClient (sampleKeyPair 1) cookie,
        .toServer (sampleKeyPair 2) (cookieResponse 1), .toClient (sampleKeyPair 3) (response 2),
        .toServer (sampleKeyPair 4) (clockSync .clockSyncRequest),
        .toClient (sampleKeyPair 5) (clockSync .clockSyncResponse)]).any fun w =>
          w.client.channel.isSome = true ∧
          w.host.conns.map Prod.fst = [ServerHost.mixToken 1] ∧
          (w.client.client.ephemeral.any fun own => (w.opened (ServerHost.mixToken 1)).any fun a =>
            a.clientPub = own.publicKey ∧ w.used = some a.response.serverEphemeralPub) = true) =
      true := by
    decide +kernel
  rcases exists_of_runGuarded _ hrun with ⟨w, hreach, htest⟩
  rw [decide_eq_true_eq] at htest
  rcases htest with ⟨hbuilt, htokens, hown⟩
  refine ⟨w, hreach, hbuilt, ?_⟩
  refine (agree_iff idealProvider_ideal rfl hreach).mpr fun t e ch ch' hp => ?_
  have ht : t = ServerHost.mixToken 1 := by
    have hmem : t ∈ w.host.conns.map Prod.fst :=
      List.mem_map.mpr ⟨(t, e), Assoc.mem_of_lookup hp.entry, rfl⟩
    rw [htokens] at hmem
    exact List.mem_singleton.mp hmem
  rcases (Option.any_eq_true _ _).mp hown with ⟨own, hephemeral, hopened⟩
  rcases (Option.any_eq_true _ _).mp hopened with ⟨a, ha, hsame⟩
  rw [decide_eq_true_eq] at hsame
  exact ⟨own, a, hephemeral, by rw [ht]; exact ha, hsame⟩

/-- The client is restarted after its cookie response. The new one gets the cookie of the old
    one again, and the answer to the old one's response: both ends build their channels, with
    one token and different keys. -/
theorem stale_response :
    ∃ w, Reaches (Meeting.step idealProvider sampleUniverse noAccounts samplePeer) (Drawn Seeded)
        sampleMeeting w ∧
      ¬ (w.Agree ∧ w.Lasting idealProvider sampleUniverse noAccounts samplePeer Seeded) := by
  have hrun : ((runGuarded (Meeting.step idealProvider sampleUniverse noAccounts samplePeer)
      (Drawn Seeded) sampleMeeting
      [.toServer (sampleKeyPair 0) hello, .toClient (sampleKeyPair 1) cookie,
        .toServer (sampleKeyPair 2) (cookieResponse 1), .restart 0 [97] none,
        .toClient (sampleKeyPair 3) cookie, .toServer (sampleKeyPair 4) (cookieResponse 3),
        .toClient (sampleKeyPair 5) (response 2),
        .toServer (sampleKeyPair 6) (clockSync .clockSyncRequest),
        .toClient (sampleKeyPair 7) (clockSync .clockSyncResponse)]).any fun w =>
          w.client.channel.any fun ch => (w.host.entryForToken (ServerHost.mixToken 1)).any fun e =>
            e.conn.channel.any fun ch' => ch.token = ch'.token ∧ ch.sendKey ≠ ch'.recvKey) =
      true := by
    decide +kernel
  rcases exists_of_runGuarded _ hrun with ⟨w, hreach, htest⟩
  rcases (Option.any_eq_true _ _).mp htest with ⟨ch, hch, hentry⟩
  rcases (Option.any_eq_true _ _).mp hentry with ⟨e, he, hserver⟩
  rcases (Option.any_eq_true _ _).mp hserver with ⟨ch', hch', hkeys⟩
  rw [decide_eq_true_eq] at hkeys
  refine ⟨w, hreach, fun hagree => hkeys.2 ?_⟩
  exact (hagree.1 _ e ch ch' ⟨he, hch', hch, hkeys.1⟩).1

end Meeting

end Net

end EarthRise
