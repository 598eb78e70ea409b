import EarthRise.Core.ServerHost
import EarthRise.Theory.Connection

/-!
# What the Host Does With Clear Datagrams

Lookups after each change of the connection table, and from them what a datagram
that anyone can send does to an established connection: at the client, at the
server's end, and at the host, which removes a connection that the datagram ended
and despawns its base.

To the host a clear datagram is one of three things. It is not routed, and at most
opens a connection under a token of its own; it is routed to a connection that it
does not end, and nothing but that connection moves; or it is routed to one that it
does end, which goes with its base. `GameUniverse.logged` keeps the despawns for the
statements.

## Main definitions

* `ServerConnection.ClearEnds`: A clear datagram leaves the connection disconnected.
* `GameUniverse.logged`: A universe that remembers which bases were despawned.
* `ServerHost.Unharmed`: A connection and its base came through a datagram.

## Theorems

* `entryForToken_modify`, `entryForToken_dropEntry`: The lookups.
* `routeTo_clear`: What the host does with a clear datagram it routes.
* `clear_harmless_iff`: When a clear datagram leaves an established session alone.
* `clear_ends_session`: A clear datagram of two bytes ends a session at either end.
-/

namespace EarthRise

namespace Net

open Universe Persist

/-! ## A connection in any state -/

namespace ServerConnection

variable {Key : Type} (C : CryptoProvider Key)

/-- A clear datagram leaves the connection disconnected: it breaks it, or it was
    disconnected before and is not a clock request that builds its channel. -/
def ClearEnds (c : ServerConnection Key) (dg : Bytes) : Prop :=
  ClearBreaks dg ∨ (c.state = .disconnected ∧
    ¬ (c.channel = none ∧ c.server.keys.isSome = true ∧
      ∃ type body, dg = kindClearHandshake :: type :: body ∧
        MsgType.ofByte type = .clockSyncRequest ∧ 16 ≤ body.length))

theorem buildChannel_state (c : ServerConnection Key) (hcomplete : c.server.complete = true) :
    c.buildChannel.state =
      if c.channel = none ∧ c.server.keys.isSome = true then .authenticating else c.state := by
  unfold buildChannel
  cases hch : c.channel with
  | some ch => simp only [reduceCtorEq, false_and, if_false]
  | none =>
      cases hkeys : c.server.keys with
      | none => simp only [Option.isSome_none, Bool.false_eq_true, and_false, if_false]
      | some keys =>
          simp only [hcomplete, Bool.true_eq_false, if_false, Option.isSome_some, and_self, if_true]

theorem onDatagram_clear_state (c : ServerConnection Key) (dg : Bytes) (hclear : IsClear dg) :
    (c.onDatagram C dg).2.state = .disconnected ↔ ClearEnds c dg := by
  unfold ClearEnds ClearBreaks
  rcases List.head?_eq_some_iff.mp hclear with ⟨rest, rfl⟩
  cases rest with
  | nil =>
      simp only [onDatagram, if_true, List.cons.injEq, reduceCtorEq, and_false, false_and,
        exists_false, not_false_eq_true, and_true, false_or]
  | cons type body =>
      simp only [onDatagram, if_true, List.cons.injEq, true_and]
      have hany : ∀ P : UInt8 → Bytes → Prop,
          (∃ t b, (type = t ∧ body = b) ∧ P t b) ↔ P type body := by
        intro P
        constructor
        · rintro ⟨t, b, ⟨rfl, rfl⟩, h⟩
          exact h
        · intro h
          exact ⟨type, body, ⟨rfl, rfl⟩, h⟩
      rw [hany fun t b => MsgType.ofByte t = .clockSyncRequest ∧ b.length < 16,
        hany fun t b => MsgType.ofByte t = .clockSyncRequest ∧ 16 ≤ b.length]
      unfold onClear
      by_cases htype : MsgType.ofByte type = .clockSyncRequest
      · rw [if_pos htype]
        unfold HandshakeServerConnection.onClockSyncRequest
        by_cases hlen : body.length < 16
        · rw [(decodeClockSync_eq_none body).mpr hlen]
          simp only [htype, hlen, and_self, true_or]
        · cases hdec : decodeClockSync body with
          | none => exact absurd ((decodeClockSync_eq_none body).mp hdec) hlen
          | some cs =>
              simp only []
              rw [buildChannel_state _ rfl]
              have hlen' : 16 ≤ body.length := Nat.le_of_not_lt hlen
              simp only [htype, hlen, hlen', and_false, and_true, false_or]
              by_cases hb : c.channel = none ∧ c.server.keys.isSome = true
              · rw [if_pos hb]
                simp only [reduceCtorEq, hb, and_self, not_true_eq_false, and_false]
              · rw [if_neg hb]
                simp only [hb, not_false_eq_true, and_true]
      · rw [if_neg htype]
        simp only [htype, false_and, and_false, not_false_eq_true, and_true, false_or]

end ServerConnection

namespace ServerHost

variable {Key W Snap A : Type}

/-! ## Lookups -/

theorem entryForToken_modify (h : ServerHost Key W A) (t : UInt64)
    (f : ConnEntry Key → ConnEntry Key) (t' : UInt64) :
    (h.modify t f).entryForToken t' =
      if t' = t then (h.entryForToken t').map f else h.entryForToken t' :=
  Assoc.lookup_adjust h.conns t f t'

theorem entryForToken_modify_self (h : ServerHost Key W A) (t : UInt64)
    (f : ConnEntry Key → ConnEntry Key) :
    (h.modify t f).entryForToken t = (h.entryForToken t).map f := by
  rw [entryForToken_modify, if_pos rfl]

theorem entryForToken_modify_ne (h : ServerHost Key W A) {t t' : UInt64}
    (f : ConnEntry Key → ConnEntry Key) (hne : t' ≠ t) :
    (h.modify t f).entryForToken t' = h.entryForToken t' := by
  rw [entryForToken_modify, if_neg hne]

theorem entryForToken_dropEntry (h : ServerHost Key W A) (t : UInt64) (a : Endpoint)
    (t' : UInt64) :
    (h.dropEntry t a).entryForToken t' = if t' = t then none else h.entryForToken t' :=
  Assoc.lookup_erase h.conns t t'

theorem entryForToken_removeConnection (U : GameUniverse W Snap) (h : ServerHost Key W A)
    (t t' : UInt64) :
    (h.removeConnection U t).entryForToken t' = if t' = t then none else h.entryForToken t' := by
  unfold removeConnection
  cases he : h.entryForToken t with
  | none =>
      simp only []
      by_cases ht : t' = t
      · rw [if_pos ht, ht, he]
      · rw [if_neg ht]
  | some e => exact entryForToken_dropEntry _ t e.endpoint t'

/-- An accepted connection takes a token of its own, or none if that is taken. -/
theorem accept_conns (C : CryptoProvider Key) (U : GameUniverse W Snap) (fresh : EcdhKeyPair)
    (h : ServerHost Key W A) (src : Endpoint) (body : Bytes) :
    ∃ entry : ConnEntry Key, entry.lastSeenMs = h.nowMs ∧
      (h.accept C U fresh src body).2.conns =
        if (h.entryForToken (mixToken (h.tokenCounter + 1))).isSome then h.conns
        else h.conns ++ [(mixToken (h.tokenCounter + 1), entry)] := by
  unfold accept
  cases h.devAuthStub with
  | false =>
      refine ⟨_, ?_, rfl⟩
      rfl
  | true =>
      refine ⟨_, ?_, rfl⟩
      rfl

theorem entryForToken_accept (C : CryptoProvider Key) (U : GameUniverse W Snap)
    (fresh : EcdhKeyPair) (h : ServerHost Key W A) (src : Endpoint) (body : Bytes) :
    ∃ entry : ConnEntry Key, entry.lastSeenMs = h.nowMs ∧ ∀ t,
      (h.accept C U fresh src body).2.entryForToken t =
        (h.entryForToken t).or
          (if t = mixToken (h.tokenCounter + 1) then some entry else none) := by
  rcases accept_conns C U fresh h src body with ⟨entry, hseen, hconns⟩
  refine ⟨entry, hseen, fun t => ?_⟩
  show Assoc.lookup (h.accept C U fresh src body).2.conns t = _
  rw [hconns]
  by_cases htaken : (h.entryForToken (mixToken (h.tokenCounter + 1))).isSome
  · rw [if_pos htaken]
    show h.entryForToken t = _
    by_cases ht : t = mixToken (h.tokenCounter + 1)
    · rcases Option.isSome_iff_exists.mp htaken with ⟨e, he⟩
      rw [ht, he, Option.some_or]
    · rw [if_neg ht, Option.or_none]
  · rw [if_neg htaken, Assoc.lookup_append, Assoc.lookup_cons, Assoc.lookup_nil]
    simp only [@eq_comm _ (mixToken (h.tokenCounter + 1)) t]
    rfl

/-! ## A clear datagram that is routed -/

variable (C : CryptoProvider Key) (U : GameUniverse W Snap) (S : AccountService A)

theorem isRepeatedCookieResponse_type {e : ConnEntry Key} {dg : Bytes}
    (h : isRepeatedCookieResponse e dg = true) :
    ∃ type body, dg = kindClearHandshake :: type :: body ∧ MsgType.ofByte type = .cookieResponse := by
  unfold isRepeatedCookieResponse at h
  match dg with
  | [] => simp only [Bool.and_false, Bool.false_eq_true] at h
  | [_] => simp only [Bool.and_false, Bool.false_eq_true] at h
  | kind :: type :: body =>
      simp only [Bool.and_eq_true, decide_eq_true_eq] at h
      exact ⟨type, body, by rw [h.2.1], h.2.2⟩

/-- A repeated cookie response is no clock request. -/
theorem clearEnds_of_repeated {e : ConnEntry Key} {dg : Bytes}
    (h : isRepeatedCookieResponse e dg = true) :
    ServerConnection.ClearEnds e.conn dg ↔ e.conn.state = .disconnected := by
  rcases isRepeatedCookieResponse_type h with ⟨type, body, rfl, htype⟩
  have hno : ∀ P : Bytes → Prop, ¬ ∃ t b, kindClearHandshake :: type :: body =
      kindClearHandshake :: t :: b ∧ MsgType.ofByte t = .clockSyncRequest ∧ P b := by
    rintro P ⟨t, b, heq, ht, _⟩
    simp only [List.cons.injEq, true_and] at heq
    rw [← heq.1, htype] at ht
    exact absurd ht nofun
  unfold ServerConnection.ClearEnds ServerConnection.ClearBreaks
  have h1 := hno fun b => b.length < 16
  have h2 := hno fun b => 16 ≤ b.length
  simp only [h1, h2, and_false, not_false_eq_true, and_true, false_or]

/-- What the dispatch of a clear datagram leaves: the connection moved, and nothing
    else did. -/
theorem dispatchToConnection_clear (h : ServerHost Key W A) (token : UInt64) (src : Endpoint)
    (dg : Bytes) (e : ConnEntry Key) (he : h.entryForToken token = some e) (hclear : IsClear dg) :
    ∃ conn, (conn.state = .disconnected ↔ ServerConnection.ClearEnds e.conn dg) ∧
      (e.conn.channel.isSome = true → ¬ ServerConnection.ClearBreaks dg →
        conn.session = e.conn.session) ∧
      (h.dispatchToConnection C U S token src dg).2.world = h.world ∧
      ∀ t, (h.dispatchToConnection C U S token src dg).2.entryForToken t =
        if t = token then some { e with conn := conn } else h.entryForToken t := by
  unfold dispatchToConnection
  rw [he]
  simp only []
  by_cases hrep : isRepeatedCookieResponse e dg = true
  · refine ⟨e.conn, (clearEnds_of_repeated hrep).symm, fun _ _ => rfl, ?_, ?_⟩
    · rw [if_pos hrep]
    · intro t
      rw [if_pos hrep]
      by_cases ht : t = token
      · rw [if_pos ht, ht, he]
      · rw [if_neg ht]
  · rw [if_neg hrep, ServerConnection.onDatagram_clear_app C e.conn dg hclear]
    refine ⟨(e.conn.onDatagram C dg).2, ServerConnection.onDatagram_clear_state C e.conn dg hclear,
      ?_, rfl, ?_⟩
    · intro hch hbreak
      exact (ServerConnection.onDatagram_session C e.conn dg hch hclear).1 hbreak
    · intro t
      show (h.setConn token (e.conn.onDatagram C dg).2).entryForToken t = _
      unfold setConn
      rw [entryForToken_modify]
      by_cases ht : t = token
      · rw [if_pos ht, if_pos ht, ht, he, Option.map_some]
      · rw [if_neg ht, if_neg ht]

/-- A clear datagram that is routed to a connection moves that connection alone, or
    ends it, and its base is despawned. -/
theorem routeTo_clear (h : ServerHost Key W A) (token : UInt64) (src : Endpoint)
    (dg : Bytes) (e : ConnEntry Key) (he : h.entryForToken token = some e) (hclear : IsClear dg) :
    (∀ t, t ≠ token → (h.routeTo C U S token src dg).2.entryForToken t = h.entryForToken t) ∧
      (ServerConnection.ClearEnds e.conn dg →
        (h.routeTo C U S token src dg).2.entryForToken token = none ∧
        (h.routeTo C U S token src dg).2.world = U.despawnBase e.playerNetId h.world) ∧
      (¬ ServerConnection.ClearEnds e.conn dg →
        (h.routeTo C U S token src dg).2.world = h.world ∧
        ∃ e', (h.routeTo C U S token src dg).2.entryForToken token = some e' ∧
          (e.conn.channel.isSome = true → e'.conn.session = e.conn.session)) := by
  have hstamp : (h.modify token fun e => { e with lastSeenMs := h.nowMs }).entryForToken token =
      some { e with lastSeenMs := h.nowMs } := by
    rw [entryForToken_modify_self, he, Option.map_some]
  rcases dispatchToConnection_clear C U S _ token src dg _ hstamp hclear with
    ⟨conn, hends, hkeep, hworld, hentries⟩
  have hself := hentries token
  rw [if_pos rfl] at hself
  unfold routeTo
  simp only [hself]
  by_cases hdead : conn.state = .disconnected
  · rw [if_pos hdead]
    have hremoved : ∀ t, t ≠ token →
        ((h.modify token fun e => { e with lastSeenMs := h.nowMs }).dispatchToConnection C U S
          token src dg).2.entryForToken t = h.entryForToken t := by
      intro t ht
      rw [hentries t, if_neg ht, entryForToken_modify_ne h _ ht]
    refine ⟨?_, ?_, fun hnot => absurd (hends.mp hdead) hnot⟩
    · intro t ht
      rw [entryForToken_removeConnection, if_neg ht, hremoved t ht]
    · intro _
      refine ⟨by rw [entryForToken_removeConnection, if_pos rfl], ?_⟩
      unfold removeConnection
      rw [hself]
      show U.despawnBase _ _ = _
      rw [hworld]
      rfl
  · rw [if_neg hdead]
    refine ⟨?_, fun hend => absurd (hends.mpr hend) hdead, ?_⟩
    · intro t ht
      rw [hentries t, if_neg ht, entryForToken_modify_ne h _ ht]
    · intro hnot
      refine ⟨hworld, _, hself, fun hch => hkeep hch fun hbreak => hnot (.inl hbreak)⟩

/-- A clear datagram goes to the connection of its source, -/
theorem onDatagram_routed (fresh : EcdhKeyPair) (h : ServerHost Key W A) (src : Endpoint)
    (type : UInt8) (body : Bytes) (t : UInt64) (hr : h.routeOf src = some t) :
    h.onDatagram C U S fresh src (kindClearHandshake :: type :: body) =
      h.routeTo C U S t src (kindClearHandshake :: type :: body) := by
  have henc : kindClearHandshake ≠ kindEncrypted := by decide
  simp only [onDatagram, if_neg henc, ne_eq, not_true_eq_false, if_false, hr]

/-- and is handled without one where its source has none. -/
theorem onDatagram_stateless (fresh : EcdhKeyPair) (h : ServerHost Key W A) (src : Endpoint)
    (type : UInt8) (body : Bytes) (hr : h.routeOf src = none) :
    h.onDatagram C U S fresh src (kindClearHandshake :: type :: body) =
      h.onStateless C U fresh src (.ofByte type) body := by
  have henc : kindClearHandshake ≠ kindEncrypted := by decide
  simp only [onDatagram, if_neg henc, ne_eq, not_true_eq_false, if_false, hr]

/-- A clear datagram that is routed to no connection leaves every entry as it is. -/
theorem onStateless_entry (fresh : EcdhKeyPair) (h : ServerHost Key W A) (src : Endpoint)
    (type : MsgType) (body : Bytes) (token : UInt64) (e : ConnEntry Key)
    (he : h.entryForToken token = some e) :
    (h.onStateless C U fresh src type body).2.entryForToken token = some e := by
  unfold onStateless
  cases type with
  | clientHello =>
      simp only []
      split
      · exact he
      · exact he
  | cookieResponse =>
      simp only []
      cases decodeCookieResponse body with
      | none => exact he
      | some cr =>
          simp only []
          by_cases hv : C.verifyCookie h.serverSecret src.addrBytes cr.cookie = false
          · rw [if_pos hv]
            exact he
          · rw [if_neg hv]
            rcases entryForToken_accept C U fresh h src body with ⟨entry, _, hentries⟩
            rw [hentries, he, Option.some_or]
  | _ => exact he

end ServerHost

/-! ## Despawned bases -/

/-- A universe that remembers which bases were despawned. -/
def GameUniverse.logged {W Snap : Type} (U : GameUniverse W Snap) :
    GameUniverse (W × List UInt32) Snap where
  spawnBase := fun p w => ((U.spawnBase p w.1).1, (U.spawnBase p w.1).2, w.2)
  spawnFleetShip := fun owner p w => (U.spawnFleetShip owner p w.1, w.2)
  setOre := fun netId w => (U.setOre netId w.1, w.2)
  despawnBase := fun netId w => (U.despawnBase netId w.1, w.2 ++ [netId])
  hasBase := fun netId w => U.hasBase netId w.1
  applyFleetCommand := fun netId body w => (U.applyFleetCommand netId body w.1, w.2)
  buildClientSnapshot := fun id budget w =>
    ((U.buildClientSnapshot id budget w.1).1, (U.buildClientSnapshot id budget w.1).2, w.2)
  encodeSnapshot := U.encodeSnapshot
  recordClientSnapshotSent := fun id snap w => (U.recordClientSnapshotSent id snap w.1, w.2)

namespace ServerHost

variable {Key W Snap A : Type}

/-- The host before a datagram, with nothing despawned so far. -/
def logged (h : ServerHost Key W A) : ServerHost Key (W × List UInt32) A :=
  { staticPriv := h.staticPriv, serverSecret := h.serverSecret, serverTime := h.serverTime
    world := (h.world, []), table := h.table, conns := h.conns, addrToToken := h.addrToToken, nowMs := h.nowMs
    tokenCounter := h.tokenCounter, dilationFactor := h.dilationFactor, accounts := h.accounts
    persist := h.persist, devAuthStub := h.devAuthStub, nowUnix := h.nowUnix }

variable (C : CryptoProvider Key) (U : GameUniverse W Snap) (S : AccountService A)

/-- The host after a datagram, with the bases it despawned. -/
def afterDatagram (fresh : EcdhKeyPair) (h : ServerHost Key W A) (src : Endpoint) (dg : Bytes) :
    ServerHost Key (W × List UInt32) A :=
  (h.logged.onDatagram C U.logged S fresh src dg).2

/-- After a datagram the connection is there with the session it had, and its base
    was not despawned. -/
def Unharmed (fresh : EcdhKeyPair) (h : ServerHost Key W A) (src : Endpoint) (dg : Bytes)
    (token : UInt64) (e : ConnEntry Key) : Prop :=
  (∃ e', (h.afterDatagram C U S fresh src dg).entryForToken token = some e' ∧
    e'.conn.session = e.conn.session) ∧
  (e.playerNetId ≠ 0 → e.playerNetId ∉ (h.afterDatagram C U S fresh src dg).world.2)

/-- The datagram is routed to a connection that it ends, and that is the connection
    or one with the same base. -/
def EndedFrom (h : ServerHost Key W A) (src : Endpoint) (dg : Bytes) (token : UInt64)
    (e : ConnEntry Key) : Prop :=
  2 ≤ dg.length ∧ ∃ t₂ e₂, h.routeOf src = some t₂ ∧ h.entryForToken t₂ = some e₂ ∧
    ServerConnection.ClearEnds e₂.conn dg ∧
    (t₂ = token ∨ e.playerNetId ≠ 0 ∧ e₂.playerNetId = e.playerNetId)

/-- A datagram that is routed nowhere despawns nothing. -/
theorem onStateless_logged (fresh : EcdhKeyPair) (h : ServerHost Key (W × List UInt32) A)
    (src : Endpoint) (type : MsgType) (body : Bytes) :
    (h.onStateless C U.logged fresh src type body).2.world.2 = h.world.2 := by
  unfold onStateless
  cases type with
  | clientHello =>
      simp only []
      split
      · rfl
      · rfl
  | cookieResponse =>
      simp only []
      cases decodeCookieResponse body with
      | none => rfl
      | some cr =>
          simp only []
          by_cases hv : C.verifyCookie h.serverSecret src.addrBytes cr.cookie = false
          · rw [if_pos hv]
          · rw [if_neg hv]
            unfold accept
            cases h.devAuthStub with
            | false => rfl
            | true => rfl
  | _ => rfl

/-- An established connection comes through a clear datagram exactly where that is
    not routed to a connection it ends, this one or one with the same base. -/
theorem unharmed_iff (fresh : EcdhKeyPair) (h : ServerHost Key W A) (src : Endpoint) (dg : Bytes)
    (token : UInt64) (e : ConnEntry Key) (he : h.entryForToken token = some e)
    (hest : e.conn.session.Established) (hclear : IsClear dg) :
    h.Unharmed C U S fresh src dg token e ↔ ¬ h.EndedFrom src dg token e := by
  unfold Unharmed EndedFrom afterDatagram
  rcases List.head?_eq_some_iff.mp hclear with ⟨rest, rfl⟩
  have he' : h.logged.entryForToken token = some e := he
  cases rest with
  | nil =>
      -- Too short to be routed.
      have hshort : ¬ 2 ≤ [kindClearHandshake].length := by decide
      simp only [hshort, false_and, not_false_eq_true, iff_true]
      exact ⟨⟨e, he', rfl⟩, fun _ => List.not_mem_nil⟩
  | cons type body =>
      have hlong : 2 ≤ (kindClearHandshake :: type :: body).length := by
        simp only [List.length_cons]
        omega
      simp only [hlong, true_and]
      cases hr : h.routeOf src with
      | none =>
          rw [onDatagram_stateless C U.logged S fresh h.logged src type body hr]
          simp only [reduceCtorEq, false_and, exists_false, not_false_eq_true, iff_true]
          refine ⟨⟨e, onStateless_entry C U.logged fresh h.logged src _ body token e he', rfl⟩, ?_⟩
          intro _
          rw [onStateless_logged]
          exact List.not_mem_nil
      | some t₂ =>
          rw [onDatagram_routed C U.logged S fresh h.logged src type body t₂ hr]
          have hlive : (h.entryForToken t₂).isSome = true :=
            (Option.filter_eq_some_iff.mp hr).2
          rcases Option.isSome_iff_exists.mp hlive with ⟨e₂, he₂⟩
          rcases routeTo_clear C U.logged S h.logged t₂ src (kindClearHandshake :: type :: body)
            e₂ he₂ hclear with ⟨hother, hends, hkeeps⟩
          have honly : ∀ P : UInt64 → ConnEntry Key → Prop, (∃ t e', some t₂ = some t ∧
              h.entryForToken t = some e' ∧ P t e') ↔ P t₂ e₂ := by
            intro P
            constructor
            · rintro ⟨t, e', ht, he', hP⟩
              rw [← Option.some.inj ht] at he' hP
              rw [he₂, Option.some.injEq] at he'
              rw [he']
              exact hP
            · intro hP
              exact ⟨t₂, e₂, rfl, he₂, hP⟩
          rw [honly fun t e' => ServerConnection.ClearEnds e'.conn _ ∧ (t = token ∨ _)]
          by_cases hend : ServerConnection.ClearEnds e₂.conn (kindClearHandshake :: type :: body)
          · rw [(hends hend).2]
            simp only [hend, true_and]
            by_cases htok : t₂ = token
            · -- The connection itself is gone.
              simp only [htok, true_or, not_true_eq_false, iff_false]
              rintro ⟨⟨e', hgone, _⟩, _⟩
              rw [← htok, (hends hend).1] at hgone
              exact absurd hgone nofun
            · have hstays : (∃ e', (h.logged.routeTo C U.logged S t₂ src
                  (kindClearHandshake :: type :: body)).2.entryForToken token = some e' ∧
                  e'.conn.session = e.conn.session) :=
                ⟨e, (hother token (Ne.symm htok)).trans he', rfl⟩
              simp only [hstays, true_and, htok, false_or, not_and]
              show (e.playerNetId ≠ 0 → e.playerNetId ∉ [] ++ [e₂.playerNetId]) ↔ _
              rw [List.nil_append, List.mem_singleton]
              constructor
              · intro hbase hne heq
                exact hbase hne heq.symm
              · intro hbase hne heq
                exact hbase hne heq.symm
          · rw [(hkeeps hend).1]
            simp only [hend, false_and, not_false_eq_true, iff_true]
            refine ⟨?_, fun _ => List.not_mem_nil⟩
            by_cases htok : token = t₂
            · rcases (hkeeps hend).2 with ⟨e', hthere, hsame⟩
              have heq : e₂ = e := by
                rw [← htok, he, Option.some.injEq] at he₂
                exact he₂.symm
              rw [heq] at hsame
              exact ⟨e', by rw [htok]; exact hthere, hsame hest.channel⟩
            · exact ⟨e, (hother token htok).trans he', rfl⟩

end ServerHost

/-! ## The two ends and the host together -/

/-- A clear datagram leaves an established client and an established server
    connection as they are, and a host's connection and its base, exactly where it is
    not one of those that break the end it reaches. -/
theorem clear_harmless_iff {Key W Snap A : Type} (C : CryptoProvider Key)
    (U : GameUniverse W Snap) (S : AccountService A) (fresh : EcdhKeyPair) (dg : Bytes)
    (hclear : IsClear dg) :
    (∀ c : ClientConnection Key, c.session.Established →
      ((c.onDatagram C fresh dg).2.session = c.session ↔ ¬ ClientConnection.ClearBreaks dg)) ∧
    (∀ c : ServerConnection Key, c.session.Established →
      ((c.onDatagram C dg).2.session = c.session ↔ ¬ ServerConnection.ClearBreaks dg)) ∧
    (∀ (h : ServerHost Key W A) (src : Endpoint) (token : UInt64) (e : ConnEntry Key),
      h.entryForToken token = some e → e.conn.session.Established →
      (h.Unharmed C U S fresh src dg token e ↔ ¬ h.EndedFrom src dg token e)) :=
  ⟨fun c hest => ClientConnection.onDatagram_clear C fresh c dg hest hclear,
    fun c hest => ServerConnection.onDatagram_clear C c dg hest hclear,
    fun h src token e he hest =>
      ServerHost.unharmed_iff C U S fresh h src dg token e he hest hclear⟩

/-! ## A host to run with -/

/-- A universe that is a list of bases, the newest first. -/
def sampleUniverse : GameUniverse (List UInt32) Unit where
  spawnBase := fun _ w => (UInt32.ofNat (w.length + 1), UInt32.ofNat (w.length + 1) :: w)
  spawnFleetShip := fun _ _ w => w
  setOre := fun _ w => w
  despawnBase := fun netId w => w.filter fun b => b ≠ netId
  hasBase := fun netId w => decide (netId ∈ w)
  applyFleetCommand := fun _ _ w => w
  buildClientSnapshot := fun _ _ w => ((), w)
  encodeSnapshot := fun _ => []
  recordClientSnapshotSent := fun _ _ w => w

/-- Accounts that are out of reach. -/
def noAccounts : AccountService Unit where
  register := fun _ _ _ a => ((.dbUnavailable, ⟨0, List.Vector.replicate 32 0, 0⟩), a)
  login := fun _ _ _ _ a => ((.dbUnavailable, ⟨0, List.Vector.replicate 32 0, 0⟩), a)
  setAccountBase := fun _ _ a => a

/-- A client that has just logged in. -/
def sampleClient : ClientConnection UInt8 :=
  let c : ClientConnection UInt8 := .start (List.Vector.replicate _ 0) 0 [] none
  { c with
    client := { c.client with token := 7, keys := some (9, 9), complete := true }
    channel := some SecureChannel.client, state := .connected, token := 7 }

/-- The server's end of it. -/
def sampleServer : ServerConnection UInt8 :=
  let c : ServerConnection UInt8 := .start [] 7 0
  { c with
    server := { c.server with keys := some (9, 9), complete := true }
    channel := some SecureChannel.server, state := .connected, playerNetId := 1 }

def samplePeer : Endpoint := ⟨[10, 0, 0, 1], 4000⟩

/-- A host with that connection and its base. -/
def sampleHost : ServerHost UInt8 (List UInt32) Unit :=
  let h : ServerHost UInt8 (List UInt32) Unit := .start [] [] 0 [1] none none false
  { h with
    table := (h.table.openSlot 7).2
    conns := [(7, { conn := sampleServer, endpoint := samplePeer, handle := ⟨0, 0, true⟩
                    lastSeenMs := 0, playerNetId := 1, authed := true, accountId := 1
                    sessionToken := List.Vector.replicate 32 0 })]
    addrToToken := fun a => if a = samplePeer then some 7 else none }

/-- A clock request of full length is harmless to the client, to the server and to
    the host, which routes it to the connection. -/
theorem clear_harmless_clockSync :
    (sampleClient.onDatagram sampleProvider (sampleKeyPair 0)
        (makeHandshakeDatagram .clockSyncRequest (List.replicate 16 0))).2.session =
      sampleClient.session ∧
    (sampleServer.onDatagram sampleProvider
        (makeHandshakeDatagram .clockSyncRequest (List.replicate 16 0))).2.session =
      sampleServer.session ∧
    sampleHost.routeOf samplePeer = some 7 ∧
    ∃ e, sampleHost.entryForToken 7 = some e ∧ e.playerNetId = 1 ∧
      sampleHost.Unharmed sampleProvider sampleUniverse noAccounts (sampleKeyPair 0) samplePeer
        (makeHandshakeDatagram .clockSyncRequest (List.replicate 16 0)) 7 e := by
  have h := clear_harmless_iff sampleProvider sampleUniverse noAccounts (sampleKeyPair 0)
    (makeHandshakeDatagram .clockSyncRequest (List.replicate 16 0)) (by decide)
  have hkeeps : ¬ ServerConnection.ClearBreaks
      (makeHandshakeDatagram .clockSyncRequest (List.replicate 16 0)) := by
    rintro ⟨type, body, heq, _, hlen⟩
    simp only [makeHandshakeDatagram, List.cons.injEq, true_and] at heq
    rw [← heq.2] at hlen
    exact absurd hlen (by decide)
  refine ⟨(h.1 sampleClient ⟨rfl, rfl, .inr rfl⟩).mpr ?_,
    (h.2.1 sampleServer ⟨rfl, rfl, .inr rfl⟩).mpr hkeeps, rfl, _, rfl, rfl,
    (h.2.2 sampleHost samplePeer 7 _ rfl ⟨rfl, rfl, .inr rfl⟩).mpr ?_⟩
  · rintro ⟨type, body, heq, hfails⟩
    simp only [makeHandshakeDatagram, List.cons.injEq, true_and] at heq
    rw [← heq.1, ← heq.2] at hfails
    exact absurd hfails (by decide)
  · -- The entry it is routed to is connected, so only a short request would end it.
    rintro ⟨_, t, e, hroute, hentry, hends, _⟩
    cases hroute
    cases hentry
    exact hends.elim hkeeps fun hgone => absurd hgone.1 nofun

/-- A version reject of two bytes disconnects the client; a clock request of two
    bytes disconnects the server's end, and the host removes the connection and
    despawns the base. -/
theorem clear_ends_session :
    (sampleClient.session.Established ∧
      (sampleClient.onDatagram sampleProvider (sampleKeyPair 0)
        (makeHandshakeDatagram .versionReject [])).2.state = .disconnected) ∧
    (sampleServer.session.Established ∧
      (sampleServer.onDatagram sampleProvider
        (makeHandshakeDatagram .clockSyncRequest [])).2.state = .disconnected) ∧
    ((sampleHost.afterDatagram sampleProvider sampleUniverse noAccounts (sampleKeyPair 0) samplePeer
        (makeHandshakeDatagram .clockSyncRequest [])).entryForToken 7).isNone = true ∧
    (sampleHost.afterDatagram sampleProvider sampleUniverse noAccounts (sampleKeyPair 0) samplePeer
        (makeHandshakeDatagram .clockSyncRequest [])).world = ([], [1]) := by
  refine ⟨⟨⟨rfl, rfl, .inr rfl⟩, ?_⟩, ⟨⟨rfl, rfl, .inr rfl⟩, ?_⟩, ?_, ?_⟩
  · decide +kernel
  · decide +kernel
  · decide +kernel
  · decide +kernel

end Net

end EarthRise
