import EarthRise.Lib.History
import EarthRise.Theory.Reaping

/-!
# Steps of the Host and Its Log

What the operations of the host do to the entries of its connections, and how a property
of the host and its log is proved of every run.

`Carried R` is what most operations do: they keep some of the entries and change each by
`R` at most. A login is the exception, and `LogsIn` says what it leaves. With these, a
property of the host and its log has to be shown for a few kinds of call, one by one: what
is not logged, a message that a connection handles, a message that the host handles, a
connection that is opened, and a snapshot. `Stepwise` collects these, and `Stepwise.run`
is the induction over datagrams, messages and clients.

The development stub is off throughout.

## Main definitions

* `ServerHost.Carried`: Entries go or stay, and change by a relation.
* `ServerHost.LogsIn`: What a login leaves.
* `Plain`: The stub is off, and no token is used twice.
* `Stepwise`: A property that one call after the other keeps.

## Theorems

* `applyMessage_cases`: What the host does with a message.
* `onDatagram_unrouted`: What it does with a datagram that belongs to no connection.
* `Stepwise.run`: What one call after the other keeps holds in every run.
-/

namespace EarthRise

namespace Net

open Run History

/-! ## What a connection does by itself -/

namespace ServerConnection

variable {Key : Type} (C : CryptoProvider Key)

/-- What a message leaves in the log. -/
theorem mem_messageEvents {c : ServerConnection Key} {token : UInt64} {m : DecodedMessage}
    {ev : HostEvent} (hev : ev ∈ c.messageEvents C token m) :
    ev = .received token m ∨ m.type = .loginRequest ∧ ev = .answered token ∨
      (c.state ≠ .connected ∧ (c.handleAppMessage C m).2.state = .connected) ∧
        ev = .connected token := by
  unfold messageEvents at hev
  rcases List.mem_cons.mp hev with heq | hev
  · exact .inl heq
  · rcases List.mem_append.mp hev with h | h
    · split at h
      · rename_i hreq
        exact .inr (.inl ⟨hreq.1, List.mem_singleton.mp h⟩)
      · exact absurd h List.not_mem_nil
    · split at h
      · rename_i hconnects
        exact .inr (.inr ⟨hconnects, List.mem_singleton.mp h⟩)
      · exact absurd h List.not_mem_nil

/-- What a connection does by itself opens and binds nothing, and is not gated. -/
theorem mem_handleEvents {c : ServerConnection Key} {token : UInt64} {ms : List DecodedMessage}
    {ev : HostEvent} (hev : ev ∈ handleEvents C token c ms) :
    (∃ m, ev = .received token m) ∨ ev = .answered token ∨ ev = .connected token := by
  induction ms generalizing c with
  | nil => exact absurd hev List.not_mem_nil
  | cons m ms ih =>
      rw [handleEvents, List.mem_append] at hev
      rcases hev with hone | hrest
      · rcases mem_messageEvents C hone with h | ⟨_, h⟩ | ⟨_, h⟩
        · exact .inl ⟨m, h⟩
        · exact .inr (.inl h)
        · exact .inr (.inr h)
      · exact ih hrest

theorem opened_not_mem (c : ServerConnection Key) (token t : UInt64) (ms : List DecodedMessage) :
    .opened t ∉ handleEvents C token c ms := by
  intro hev
  rcases mem_handleEvents C hev with ⟨m, h⟩ | h | h
  all_goals exact absurd h nofun

theorem opened_not_mem_message (c : ServerConnection Key) (token t : UInt64)
    (m : DecodedMessage) : .opened t ∉ c.messageEvents C token m := by
  intro hev
  refine opened_not_mem C c token t [m] ?_
  rw [handleEvents]
  exact List.mem_append_left _ hev

end ServerConnection

/-! ## What happens to the entries -/

namespace ServerHost

variable {Key W Snap A : Type}

/-- `h'` has entries of `h`, each changed by `R` at most. -/
structure Carried (R : ConnEntry Key → ConnEntry Key → Prop) (h h' : ServerHost Key W A) :
    Prop where
  stub : h'.devAuthStub = h.devAuthStub
  tokens : (h'.conns.map Prod.fst).Sublist (h.conns.map Prod.fst)
  entry : ∀ t e', h'.entryForToken t = some e' → ∃ e, h.entryForToken t = some e ∧ R e e'

/-- What several operations do, each by `R`, is by `R`. -/
structure Closed (R : ConnEntry Key → ConnEntry Key → Prop) : Prop where
  refl : ∀ e, R e e
  trans : ∀ a b c, R a b → R b c → R a c

/-- What an operation that is not about the login may do to an entry. -/
structure Tolerant (R : ConnEntry Key → ConnEntry Key → Prop) : Prop extends Closed R where
  /-- The channel moved, and keeps its ends. -/
  channel : ∀ (e : ConnEntry Key) (ch : Option (SecureChannel Key)),
    ch.map SecureChannel.ends = e.conn.channel.map SecureChannel.ends →
      R e { e with conn := { e.conn with channel := ch } }
  stamp : ∀ (e : ConnEntry Key) n, R e { e with lastSeenMs := n }
  dilation : ∀ (e : ConnEntry Key) f,
    R e { e with conn := { e.conn with server := { e.conn.server with dilationFactor := f } } }

variable {R : ConnEntry Key → ConnEntry Key → Prop}

theorem Carried.of_conns (hR : Closed R) {h h' : ServerHost Key W A}
    (hstub : h'.devAuthStub = h.devAuthStub) (hconns : h'.conns = h.conns) : Carried R h h' where
  stub := hstub
  tokens := by rw [hconns]
  entry := by
    intro t e' he'
    unfold entryForToken at he' ⊢
    rw [hconns] at he'
    exact ⟨e', he', hR.refl e'⟩

theorem Carried.refl (hR : Closed R) (h : ServerHost Key W A) : Carried R h h :=
  .of_conns hR rfl rfl

theorem Carried.trans (hR : Closed R) {h₁ h₂ h₃ : ServerHost Key W A} (h12 : Carried R h₁ h₂)
    (h23 : Carried R h₂ h₃) : Carried R h₁ h₃ where
  stub := h23.stub.trans h12.stub
  tokens := h23.tokens.trans h12.tokens
  entry := by
    intro t e₃ he₃
    rcases h23.entry t e₃ he₃ with ⟨e₂, he₂, hR23⟩
    rcases h12.entry t e₂ he₂ with ⟨e₁, he₁, hR12⟩
    exact ⟨e₁, he₁, hR.trans _ _ _ hR12 hR23⟩

theorem modify_carried (hR : Closed R) (h : ServerHost Key W A) (t : UInt64)
    {f : ConnEntry Key → ConnEntry Key} (hf : ∀ e, h.entryForToken t = some e → R e (f e)) :
    Carried R h (h.modify t f) where
  stub := rfl
  tokens := by rw [modify_tokens]
  entry := by
    intro t' e' he'
    by_cases ht : t' = t
    · rw [ht, entryForToken_modify_self, Option.map_eq_some_iff] at he'
      rcases he' with ⟨e, he, rfl⟩
      exact ⟨e, by rw [ht]; exact he, hf e he⟩
    · rw [entryForToken_modify_ne h f ht] at he'
      exact ⟨e', he', hR.refl e'⟩

theorem setConn_carried (hR : Closed R) (h : ServerHost Key W A) (t : UInt64)
    {conn : ServerConnection Key}
    (hconn : ∀ e, h.entryForToken t = some e → R e { e with conn := conn }) :
    Carried R h (h.setConn t conn) :=
  modify_carried hR h t hconn

theorem dropEntry_carried (hR : Closed R) (h : ServerHost Key W A) (t : UInt64) (a : Endpoint) :
    Carried R h (h.dropEntry t a) where
  stub := rfl
  tokens := (dropEntry_kept h t a).tokens
  entry := by
    intro t' e' he'
    rw [entryForToken_dropEntry] at he'
    by_cases ht : t' = t
    · rw [if_pos ht] at he'
      exact absurd he' nofun
    · rw [if_neg ht] at he'
      exact ⟨e', he', hR.refl e'⟩

theorem removeConnection_carried (hR : Closed R) (U : GameUniverse W Snap)
    (h : ServerHost Key W A) (t : UInt64) : Carried R h (h.removeConnection U t) := by
  unfold removeConnection
  cases h.entryForToken t with
  | none => exact Carried.refl hR h
  | some e =>
      refine Carried.trans hR ?_ (dropEntry_carried hR _ t e.endpoint)
      exact .of_conns hR rfl rfl

theorem removeAll_carried (hR : Closed R) (U : GameUniverse W Snap) (ts : List UInt64)
    (h : ServerHost Key W A) : Carried R h (ts.foldl (fun h t => h.removeConnection U t) h) := by
  induction ts generalizing h with
  | nil => exact Carried.refl hR h
  | cons t ts ih => exact (removeConnection_carried hR U h t).trans hR (ih _)

section

variable (C : CryptoProvider Key) (U : GameUniverse W Snap) (S : AccountService A)
  {h h' : ServerHost Key W A} {entry : ConnEntry Key} {token : UInt64}

theorem bindAccountBase_conns (h : ServerHost Key W A) (session : SessionInfo) :
    (h.bindAccountBase U S session).2.conns = h.conns ∧
      (h.bindAccountBase U S session).2.devAuthStub = h.devAuthStub := by
  unfold bindAccountBase
  simp only []
  split
  · exact ⟨rfl, rfl⟩
  · exact ⟨rfl, rfl⟩

theorem sendAuthResult_carried (hR : Tolerant R) (h : ServerHost Key W A) (t : UInt64)
    (peer : Endpoint) (res : AuthResult) : Carried R h (h.sendAuthResult C t peer res).2 := by
  unfold sendAuthResult
  cases he : h.entryForToken t with
  | none => exact Carried.refl hR.toClosed h
  | some e =>
      simp only []
      split
      · exact Carried.refl hR.toClosed h
      · rename_i d conn hseal
        rcases ServerConnection.sealApp_keeps C hseal with ⟨channel, hends, rfl⟩
        refine setConn_carried hR.toClosed h t fun e' he' => ?_
        rw [he, Option.some.injEq] at he'
        rw [← he']
        exact hR.channel e channel hends

theorem sendSnapshot_carried (hR : Tolerant R) (h : ServerHost Key W A)
    (hdistinct : (h.conns.map Prod.fst).Nodup) (id : UInt32) (snap : Snap) :
    Carried R h (h.sendSnapshot C U id snap).2 := by
  unfold sendSnapshot
  split
  · exact Carried.refl hR.toClosed h
  · rename_i t e hfound
    split
    · exact Carried.refl hR.toClosed h
    · simp only []
      split
      · exact .of_conns hR.toClosed rfl rfl
      · rename_i d conn hseal
        rcases ServerConnection.sealApp_keeps C hseal with ⟨channel, hends, rfl⟩
        have he : h.entryForToken t = some e :=
          Assoc.lookup_of_mem hdistinct (List.mem_of_find?_eq_some hfound)
        have hset : Carried R h (h.setConn t { e.conn with channel := channel }) := by
          refine setConn_carried hR.toClosed h t fun e' he' => ?_
          rw [he, Option.some.injEq] at he'
          rw [← he']
          exact hR.channel e channel hends
        exact hset.trans hR.toClosed (.of_conns hR.toClosed rfl rfl)

theorem setDilationFactor_carried (hR : Tolerant R) (h : ServerHost Key W A) (f : ℚ) :
    Carried R h (h.setDilationFactor f) where
  stub := rfl
  tokens := (setDilationFactor_kept h f).tokens
  entry := by
    intro t e' he'
    let slowed : ConnEntry Key → ConnEntry Key := fun e =>
      { e with conn := { e.conn with server := { e.conn.server with dilationFactor := f } } }
    have hlookup : (h.setDilationFactor f).entryForToken t = (h.entryForToken t).map slowed :=
      Assoc.lookup_mapValues h.conns slowed t
    rw [hlookup, Option.map_eq_some_iff] at he'
    rcases he' with ⟨e, he, rfl⟩
    exact ⟨e, he, hR.dilation e f⟩

/-- Removing connections one by one leaves entries that were not asked to go. -/
theorem dropAll_entry (es : List (UInt64 × ConnEntry Key)) (h : ServerHost Key W A) (t : UInt64)
    (e' : ConnEntry Key)
    (he' : (es.foldl (fun h e => h.dropEntry e.1 e.2.endpoint) h).entryForToken t = some e') :
    h.entryForToken t = some e' ∧ t ∉ es.map Prod.fst := by
  induction es generalizing h with
  | nil => exact ⟨he', List.not_mem_nil⟩
  | cons e es ih =>
      rcases ih _ he' with ⟨hlast, hnot⟩
      rw [entryForToken_dropEntry] at hlast
      by_cases ht : t = e.1
      · rw [if_pos ht] at hlast
        exact absurd hlast nofun
      · rw [if_neg ht] at hlast
        refine ⟨hlast, fun hmem => ?_⟩
        rw [List.map_cons, List.mem_cons] at hmem
        exact hmem.elim ht hnot

/-- A kick leaves no other connection that is logged in to the account. -/
theorem kick_entry (h : ServerHost Key W A) (accountId : Nat) (keepToken t : UInt64)
    (e' : ConnEntry Key)
    (he' : (h.kickExistingSessionForAccount accountId keepToken).entryForToken t = some e') :
    h.entryForToken t = some e' ∧
      ¬ (t ≠ keepToken ∧ e'.authed = true ∧ e'.accountId = accountId) := by
  rcases dropAll_entry _ h t e' he' with ⟨hlast, hnot⟩
  refine ⟨hlast, fun hkick => hnot ?_⟩
  have hmem : (t, e') ∈ h.conns := Assoc.mem_of_lookup hlast
  refine List.mem_map.mpr ⟨(t, e'), List.mem_filter.mpr ⟨hmem, ?_⟩, rfl⟩
  rw [decide_eq_true_eq]
  exact hkick

/-- What a login leaves: its connection is bound to the base, and of the others those stay
    that are not logged in to the account. -/
structure LogsIn (h h' : ServerHost Key W A) (token : UInt64) (e : ConnEntry Key)
    (session : SessionInfo) (netId : UInt32) : Prop where
  stub : h'.devAuthStub = h.devAuthStub
  self : ∀ e', h'.entryForToken token = some e' → ∃ channel : Option (SecureChannel Key),
    channel.map SecureChannel.ends = e.conn.channel.map SecureChannel.ends ∧ e' = { e with
      conn := { ServerConnection.markConnected { e.conn with playerNetId := netId } with
        channel := channel }
      playerNetId := netId, authed := true, accountId := session.accountId
      sessionToken := session.token }
  other : ∀ t, t ≠ token → ∀ e', h'.entryForToken t = some e' → h.entryForToken t = some e' ∧
    ¬ (e'.authed = true ∧ e'.accountId = session.accountId)

theorem sendAuthResult_entry (h : ServerHost Key W A) (t : UInt64) (peer : Endpoint)
    (res : AuthResult) (t' : UInt64) (e' : ConnEntry Key)
    (he' : (h.sendAuthResult C t peer res).2.entryForToken t' = some e') :
    if t' = t then ∃ (e : ConnEntry Key) (channel : Option (SecureChannel Key)),
        h.entryForToken t = some e ∧
        channel.map SecureChannel.ends = e.conn.channel.map SecureChannel.ends ∧
        e' = { e with conn := { e.conn with channel := channel } }
      else h.entryForToken t' = some e' := by
  unfold sendAuthResult at he'
  cases he : h.entryForToken t with
  | none =>
      rw [he] at he'
      by_cases ht : t' = t
      · simp only [ht, he] at he'
        exact absurd he' nofun
      · rw [if_neg ht]
        exact he'
  | some e =>
      rw [he] at he'
      simp only [] at he'
      split at he'
      · by_cases ht : t' = t
        · rw [if_pos ht]
          refine ⟨e, e.conn.channel, rfl, rfl, ?_⟩
          rw [ht, he, Option.some.injEq] at he'
          exact he'.symm
        · rw [if_neg ht]
          exact he'
      · rename_i d conn hseal
        rcases ServerConnection.sealApp_keeps C hseal with ⟨channel, hends, rfl⟩
        unfold setConn at he'
        by_cases ht : t' = t
        · rw [ht, entryForToken_modify_self, he, Option.map_some, Option.some.injEq] at he'
          rw [if_pos ht]
          exact ⟨e, channel, rfl, hends, he'.symm⟩
        · rw [entryForToken_modify_ne _ _ ht] at he'
          rw [if_neg ht]
          exact he'

theorem sendAuthResult_stub (h : ServerHost Key W A) (t : UInt64) (peer : Endpoint)
    (res : AuthResult) : (h.sendAuthResult C t peer res).2.devAuthStub = h.devAuthStub := by
  unfold sendAuthResult
  cases h.entryForToken t with
  | none => rfl
  | some e =>
      simp only []
      split
      · rfl
      · rfl

theorem kick_stub (h : ServerHost Key W A) (accountId : Nat) (keepToken : UInt64) :
    (h.kickExistingSessionForAccount accountId keepToken).devAuthStub = h.devAuthStub := by
  have hall : ∀ (es : List (UInt64 × ConnEntry Key)) (h : ServerHost Key W A),
      (es.foldl (fun h e => h.dropEntry e.1 e.2.endpoint) h).devAuthStub = h.devAuthStub := by
    intro es
    induction es with
    | nil => exact fun _ => rfl
    | cons e es ih => exact fun h => ih _
  exact hall _ h

/-- A credential frame logs its connection in, with what is logged of it, or is answered
    with a refusal. -/
theorem onAuthMessage_cases (h : ServerHost Key W A) (token : UInt64) (peer : Endpoint)
    (body : Bytes) :
    (∃ e session netId, h.entryForToken token = some e ∧
      h.loginEvents U S token body = .loggedIn token session.accountId ::
        .bound token session.accountId netId ::
          (if e.conn.state = .authenticating then [.connected token] else []) ∧
      LogsIn h (h.onAuthMessage C U S token peer body).2 token e session netId) ∨
    (h.loginEvents U S token body = [] ∧ ∀ R, Tolerant R →
      Carried R h (h.onAuthMessage C U S token peer body).2) := by
  unfold loginEvents onAuthMessage
  cases he : h.entryForToken token with
  | none => exact .inr ⟨rfl, fun R hR => Carried.refl hR.toClosed h⟩
  | some e =>
      cases decodeAuthRequest body with
      | none => exact .inr ⟨rfl, fun R hR => sendAuthResult_carried C hR h token peer .badInput⟩
      | some cred =>
          cases h.accounts with
          | none =>
              exact .inr ⟨rfl, fun R hR => sendAuthResult_carried C hR h token peer .dbUnavailable⟩
          | some accounts =>
              simp only []
              by_cases hok : (h.authenticate S accounts e.endpoint (body.headD 0) cred.1 cred.2).1.1 ≠ .ok
              · rw [if_pos hok, if_pos hok]
                refine .inr ⟨rfl, fun R hR => ?_⟩
                refine Carried.trans hR.toClosed ?_ (sendAuthResult_carried C hR _ token peer _)
                exact .of_conns hR.toClosed rfl rfl
              · rw [if_neg hok, if_neg hok]
                refine .inl ⟨e, _, _, rfl, rfl, ?_, fun e' he' => ?_, fun t ht e' he' => ?_⟩
                · rw [sendAuthResult_stub]
                  show (ServerHost.bindAccountBase U S _ _).2.devAuthStub = h.devAuthStub
                  rw [(bindAccountBase_conns U S _ _).2, kick_stub]
                · have hsent := sendAuthResult_entry C _ token peer .ok token e' he'
                  rw [if_pos rfl] at hsent
                  rcases hsent with ⟨e₁, channel, he₁, hends, rfl⟩
                  rw [entryForToken_modify_self, Option.map_eq_some_iff] at he₁
                  rcases he₁ with ⟨e₀, he₀, rfl⟩
                  have hbound : ∀ (h : ServerHost Key W A) (session : SessionInfo),
                      (h.bindAccountBase U S session).2.entryForToken token =
                        h.entryForToken token := by
                    intro h session
                    unfold entryForToken
                    rw [(bindAccountBase_conns U S h session).1]
                  rw [hbound] at he₀
                  have hsame := (kick_entry _ _ token token e₀ he₀).1
                  have heq : e₀ = e := Option.some.inj (hsame.symm.trans he)
                  refine ⟨channel, hends.trans ?_, by rw [heq]⟩
                  rw [heq]
                  unfold ServerConnection.markConnected
                  split <;> rfl
                · have hsent := sendAuthResult_entry C _ token peer .ok t e' he'
                  rw [if_neg ht, entryForToken_modify_ne _ _ ht] at hsent
                  have hbound : ∀ (h : ServerHost Key W A) (session : SessionInfo),
                      (h.bindAccountBase U S session).2.entryForToken t = h.entryForToken t := by
                    intro h session
                    unfold entryForToken
                    rw [(bindAccountBase_conns U S h session).1]
                  rw [hbound] at hsent
                  rcases kick_entry _ _ token t e' hsent with ⟨hold, hnot⟩
                  exact ⟨hold, fun hauth => hnot ⟨ht, hauth⟩⟩

/-- A message logs its connection in, or applies a command of a connection that is logged
    in, or is not about either. -/
theorem applyMessage_cases (h : ServerHost Key W A) (token : UInt64) (peer : Endpoint)
    (m : DecodedMessage) :
    (∃ e session netId, h.entryForToken token = some e ∧
      h.messageEvents U S token m = .loggedIn token session.accountId ::
        .bound token session.accountId netId ::
          (if e.conn.state = .authenticating then [.connected token] else []) ∧
      LogsIn h (h.applyMessage C U S token peer m).2 token e session netId) ∨
    ((∀ R, Tolerant R → Carried R h (h.applyMessage C U S token peer m).2) ∧
      (h.messageEvents U S token m = [] ∨ ∃ e, h.entryForToken token = some e ∧
        e.authed = true ∧ h.messageEvents U S token m = [.applied token e.playerNetId m.body])) := by
  rcases m with ⟨channel, type, body⟩
  unfold messageEvents applyMessage
  cases type with
  | command =>
      cases body with
      | nil => exact .inr ⟨fun R hR => Carried.refl hR.toClosed h, .inl rfl⟩
      | cons opcode rest =>
          simp only []
          by_cases hop : isAuthOpcode opcode = true
          · rw [if_pos hop, if_pos hop]
            rcases onAuthMessage_cases C U S h token peer (opcode :: rest) with
              hlogin | ⟨hnone, hcarried⟩
            · exact .inl hlogin
            · exact .inr ⟨hcarried, .inl hnone⟩
          · rw [if_neg hop, if_neg hop]
            exact .inr ⟨fun R hR => Carried.refl hR.toClosed h, .inl rfl⟩
  | fleetCommand =>
      cases he : h.entryForToken token with
      | none => exact .inr ⟨fun R hR => Carried.refl hR.toClosed h, .inl rfl⟩
      | some e =>
          simp only []
          by_cases ha : e.authed = true
          · rw [if_pos ha, if_pos ha]
            exact .inr ⟨fun R hR => .of_conns hR.toClosed rfl rfl, .inr ⟨e, rfl, ha, rfl⟩⟩
          · rw [if_neg ha, if_neg ha]
            exact .inr ⟨fun R hR => Carried.refl hR.toClosed h, .inl rfl⟩
  | _ => exact .inr ⟨fun R hR => Carried.refl hR.toClosed h, .inl rfl⟩

/-! ## Opening a connection -/

/-- An accepted connection takes no part in the game yet. -/
theorem accept_entry (fresh : EcdhKeyPair) {h : ServerHost Key W A} (hstub : h.devAuthStub = false)
    (src : Endpoint) (body : Bytes) :
    ∃ entry : ConnEntry Key, entry.authed = false ∧ entry.playerNetId = 0 ∧
      entry.conn.state ≠ .connected ∧ (h.accept C U fresh src body).2.conns =
        if (h.entryForToken (mixToken (h.tokenCounter + 1))).isSome then h.conns
        else h.conns ++ [(mixToken (h.tokenCounter + 1), entry)] := by
  have hstate : ∀ c : ServerConnection Key,
      (c.beginFromCookieResponse C fresh body).2.state ≠ .connected := by
    intro c
    unfold ServerConnection.beginFromCookieResponse
    simp only []
    split <;> simp only [ne_eq, reduceCtorEq, not_false_eq_true]
  unfold accept
  rw [hstub]
  exact ⟨_, rfl, rfl, hstate _, rfl⟩

theorem accept_stub (fresh : EcdhKeyPair) (h : ServerHost Key W A) (src : Endpoint)
    (body : Bytes) : (h.accept C U fresh src body).2.devAuthStub = h.devAuthStub := by
  unfold accept
  cases h.devAuthStub <;> rfl

/-- What a datagram that is not routed leaves: what was there, or a connection more that has
    a token of its own. -/
theorem onDatagram_unrouted (fresh : EcdhKeyPair) {h : ServerHost Key W A}
    (hstub : h.devAuthStub = false) (src : Endpoint) (dg : Bytes)
    (hnone : h.recipient src dg = none) :
    (h.onDatagram C U S fresh src dg).2.devAuthStub = false ∧
      (((h.onDatagram C U S fresh src dg).2.conns = h.conns ∧
        h.datagramEvents C U S fresh src dg = []) ∨
      ∃ token entry, h.entryForToken token = none ∧
        (h.onDatagram C U S fresh src dg).2.conns = h.conns ++ [(token, entry)] ∧
        entry.authed = false ∧ entry.playerNetId = 0 ∧ entry.conn.state ≠ .connected ∧
        h.datagramEvents C U S fresh src dg = [.opened token]) := by
  unfold datagramEvents
  rw [hnone]
  rcases onDatagram_cases C U S fresh h src dg with ⟨t, e, hto, _⟩ | ⟨_, heq | ⟨body, _, heq⟩⟩
  · rw [hnone] at hto
    exact absurd hto nofun
  · rw [heq]
    refine ⟨hstub, .inl ⟨rfl, if_neg ?_⟩⟩
    rintro ⟨hfree, hlive⟩
    rw [Option.isNone_iff_eq_none] at hfree
    rw [hfree] at hlive
    exact absurd hlive Bool.false_ne_true
  · rw [heq]
    refine ⟨(accept_stub C U fresh h src body).trans hstub, ?_⟩
    rcases accept_entry C U fresh hstub src body with ⟨entry, hauthed, hnet, hstate, hconns⟩
    have hcounter : (h.accept C U fresh src body).2.tokenCounter = h.tokenCounter + 1 := by
      unfold accept
      rw [hstub]
      rfl
    simp only [hcounter]
    cases hfree : h.entryForToken (mixToken (h.tokenCounter + 1)) with
    | some e =>
        rw [hfree, if_pos (by rw [Option.isSome_some])] at hconns
        exact .inl ⟨hconns, if_neg fun h => absurd h.1 (by
          simp only [Option.isNone_some, Bool.false_eq_true, not_false_eq_true])⟩
    | none =>
        rw [hfree, if_neg (by simp only [Option.isSome_none, Bool.false_eq_true,
          not_false_eq_true])] at hconns
        refine .inr ⟨_, entry, hfree, hconns, hauthed, hnet, hstate, if_pos ⟨rfl, ?_⟩⟩
        unfold entryForToken
        rw [hconns, List.find?_append]
        simp only [decide_true, List.find?_cons_of_pos, Option.isSome_map, Option.isSome_or,
          Option.isSome_some, Bool.or_true]

/-- The lookups after a connection was added. -/
theorem entryForToken_concat
    (hfree : h.entryForToken token = none) (hconns : h'.conns = h.conns ++ [(token, entry)])
    (t : UInt64) :
    h'.entryForToken t = if t = token then some entry else h.entryForToken t := by
  show Assoc.lookup h'.conns t = _
  rw [hconns, Assoc.lookup_append, Assoc.lookup_cons, Assoc.lookup_nil]
  show (h.entryForToken t).or _ = _
  by_cases ht : t = token
  · rw [ht, hfree, if_pos rfl, Option.none_or]
  · rw [if_neg ht, if_neg (Ne.symm ht), Option.or_none]

theorem distinct_concat
    (hdistinct : (h.conns.map Prod.fst).Nodup) (hfree : h.entryForToken token = none)
    (hconns : h'.conns = h.conns ++ [(token, entry)]) : (h'.conns.map Prod.fst).Nodup := by
  rw [hconns, List.map_append, List.nodup_append]
  refine ⟨hdistinct, List.nodup_singleton _, fun a ha b hb => ?_⟩
  rintro rfl
  rcases List.mem_map.mp ha with ⟨x, hx, hxt⟩
  have htoken : x.1 = token := hxt.trans (List.mem_singleton.mp hb)
  have hfound : h.entryForToken x.1 = some x.2 := Assoc.lookup_of_mem hdistinct hx
  rw [htoken, hfree] at hfound
  exact absurd hfound nofun

theorem mem_encodeClients (ids : List UInt32) (w : W) (x : UInt32 × Snap)
    (hx : x ∈ (encodeClients U w ids).1) :
    x.1 ∈ ids ∧ ∃ w', x.2 = (U.buildClientSnapshot x.1 snapshotByteBudget w').1 := by
  induction ids generalizing w with
  | nil => exact absurd hx List.not_mem_nil
  | cons id ids ih =>
      rw [encodeClients, List.mem_cons] at hx
      rcases hx with rfl | hx
      · exact ⟨List.mem_cons_self, w, rfl⟩
      · rcases ih _ hx with ⟨hmem, hbuilt⟩
        exact ⟨List.mem_cons_of_mem id hmem, hbuilt⟩

/-! ## Properties of the host and its log -/

/-- The stub is off, and no token is used twice. -/
structure Plain (h : ServerHost Key W A) : Prop where
  stub : h.devAuthStub = false
  distinct : (h.conns.map Prod.fst).Nodup

theorem Plain.carried (hp : Plain h) (hc : Carried R h h') :
    Plain h' where
  stub := hc.stub.trans hp.stub
  distinct := hc.tokens.nodup hp.distinct

theorem Plain.of_conns (hp : Plain h)
    (hstub : h'.devAuthStub = false) (hconns : h'.conns = h.conns) : Plain h' where
  stub := hstub
  distinct := by
    rw [hconns]
    exact hp.distinct

theorem Plain.concat (hp : Plain h)
    (hfree : h.entryForToken token = none)
    (hstub : h'.devAuthStub = false) (hconns : h'.conns = h.conns ++ [(token, entry)]) :
    Plain h' where
  stub := hstub
  distinct := distinct_concat hp.distinct hfree hconns

/-- A property of the host and its log that one call after the other keeps. What is not
    about the login changes the entries by `R` at most. -/
structure Stepwise (R : ConnEntry Key → ConnEntry Key → Prop)
    (I : ServerHost Key W A → List HostEvent → Prop) : Prop where
  tolerant : Tolerant R
  silent : ∀ {h h' log}, I h log → Carried R h h' → I h' log
  handled : ∀ {h log} (token : UInt64) (e : ConnEntry Key) (dg : Bytes), I h log →
    h.entryForToken token = some e →
    I (h.setConn token (e.conn.onDatagram C dg).2)
      (log ++ ServerConnection.handleEvents C token (e.conn.received C dg).2
        (e.conn.received C dg).1)
  message : ∀ {h log} (token : UInt64) (peer : Endpoint) (m : DecodedMessage), I h log →
    I (h.applyMessage C U S token peer m).2 (log ++ h.messageEvents U S token m)
  opened : ∀ {h h' log} (token : UInt64) (entry : ConnEntry Key), I h log →
    h.entryForToken token = none → h'.devAuthStub = false →
    h'.conns = h.conns ++ [(token, entry)] → entry.authed = false → entry.playerNetId = 0 → entry.conn.state ≠ .connected →
    I h' (log ++ [.opened token])
  snapshot : ∀ {h h' log} (token : UInt64) (e : ConnEntry Key) (snap : Snap), I h log →
    h.entryForToken token = some e → e.playerNetId ≠ 0 →
    (∃ w, snap = (U.buildClientSnapshot e.playerNetId snapshotByteBudget w).1) →
    Carried R h h' → I h' (log ++ [.snapshot token e.playerNetId (U.encodeSnapshot snap)])

section

variable {C U S} {I : ServerHost Key W A → List HostEvent → Prop} (hI : Stepwise C U S R I)
  {log : List HostEvent} {h : ServerHost Key W A}

include hI

theorem Stepwise.of_conns {h h' : ServerHost Key W A} (h0 : I h log)
    (hstub : h'.devAuthStub = h.devAuthStub) (hconns : h'.conns = h.conns) : I h' log :=
  hI.silent h0 (.of_conns hI.tolerant.toClosed hstub hconns)

theorem Stepwise.messages (token : UInt64) (peer : Endpoint) (ms : List DecodedMessage)
    (h0 : I h log) :
    I (applyMessages C U S token peer h ms).2 (log ++ messagesEvents C U S token peer h ms) := by
  induction ms generalizing h log with
  | nil =>
      rw [messagesEvents, List.append_nil]
      exact h0
  | cons m ms ih =>
      rw [messagesEvents, ← List.append_assoc]
      exact ih (hI.message token peer m h0)

theorem Stepwise.routeTo (h0 : I h log)
    (token : UInt64) (peer : Endpoint) (dg : Bytes) :
    I (h.routeTo C U S token peer dg).2 (log ++ h.routeEvents C U S token peer dg) := by
  have hclosed := hI.tolerant.toClosed
  have hstamped : I (h.modify token fun e => { e with lastSeenMs := h.nowMs }) log :=
    hI.silent h0 (modify_carried hclosed h token fun e _ => hI.tolerant.stamp e h.nowMs)
  have hdispatch : I (dispatchToConnection C U S (h.modify token fun e =>
      { e with lastSeenMs := h.nowMs }) token peer dg).2
        (log ++ h.routeEvents C U S token peer dg) := by
    unfold dispatchToConnection routeEvents
    simp only []
    cases he : (h.modify token fun e => { e with lastSeenMs := h.nowMs }).entryForToken token with
    | none =>
        simp only [List.append_nil]
        exact hstamped
    | some e =>
        simp only []
        by_cases hrep : isRepeatedCookieResponse e dg = true
        · rw [if_pos hrep, if_pos hrep, List.append_nil]
          exact hstamped
        · rw [if_neg hrep, if_neg hrep, ← List.append_assoc]
          exact hI.messages token peer _ (hI.handled token e dg hstamped he)
  unfold ServerHost.routeTo
  simp only []
  split
  · exact hdispatch
  · split
    · exact hI.silent hdispatch (removeConnection_carried hclosed U _ token)
    · exact hdispatch

theorem Stepwise.datagram (fresh : EcdhKeyPair)
    (hp : Plain h) (h0 : I h log) (src : Endpoint) (dg : Bytes) :
    I (h.onDatagram C U S fresh src dg).2 (log ++ h.datagramEvents C U S fresh src dg) := by
  rcases onDatagram_cases C U S fresh h src dg with ⟨t, e, hto, _, heq⟩ | ⟨hnone, _⟩
  · have hevents : h.datagramEvents C U S fresh src dg = h.routeEvents C U S t src dg := by
      unfold datagramEvents
      rw [hto]
    rw [heq, hevents]
    exact hI.routeTo h0 t src dg
  · rcases onDatagram_unrouted C U S fresh hp.stub src dg hnone with
      ⟨hstub, ⟨hconns, hevents⟩ | ⟨token, entry, hfree, hconns, hauthed, hnet, hstate, hevents⟩⟩
    · rw [hevents, List.append_nil]
      exact hI.of_conns h0 (hstub.trans hp.stub.symm) hconns
    · rw [hevents]
      exact hI.opened token entry h0 hfree hstub hconns hauthed hnet hstate

theorem Stepwise.sendSnapshot (hp : Plain h)
    (h0 : I h log) {id : UInt32} (hid : id ≠ 0) {snap : Snap}
    (hsnap : ∃ w, snap = (U.buildClientSnapshot id snapshotByteBudget w).1) :
    I (h.sendSnapshot C U id snap).2 (log ++ h.snapshotEvents C U id snap) := by
  have hcarried := sendSnapshot_carried C U hI.tolerant h hp.distinct id snap
  have hevents : h.snapshotEvents C U id snap = [] ∨ ∃ token e,
      h.entryForToken token = some e ∧ e.playerNetId = id ∧
      h.snapshotEvents C U id snap = [.snapshot token id (U.encodeSnapshot snap)] := by
    unfold snapshotEvents
    split
    · exact .inl rfl
    · rename_i token e hfound
      split
      · exact .inl rfl
      · split
        · exact .inl rfl
        · refine .inr ⟨token, e, ?_, ?_, rfl⟩
          · exact Assoc.lookup_of_mem hp.distinct (List.mem_of_find?_eq_some hfound)
          · have hsame : decide (e.playerNetId = id) = true := by
              unfold entryForClient at hfound
              have htest := List.find?_some hfound
              exact htest
            exact of_decide_eq_true hsame
  rcases hevents with hnone | ⟨token, e, he, hnet, heq⟩
  · rw [hnone, List.append_nil]
    exact hI.silent h0 hcarried
  · subst hnet
    rw [heq]
    exact hI.snapshot token e snap h0 he hid hsnap hcarried

theorem Stepwise.broadcast (hp : Plain h)
    (h0 : I h log) : I (h.broadcastSnapshots C U).2 (log ++ h.broadcastEvents C U) := by
  have hclosed := hI.tolerant.toClosed
  have hall : ∀ (ss : List (UInt32 × Snap)) (h : ServerHost Key W A) (log : List HostEvent),
      (∀ x ∈ ss, x.1 ≠ 0 ∧ ∃ w, x.2 = (U.buildClientSnapshot x.1 snapshotByteBudget w).1) →
      Plain h → I h log → I (sendSnapshots C U h ss).2 (log ++ snapshotsEvents C U h ss) := by
    intro ss
    induction ss with
    | nil =>
        intro h log _ _ h0
        rw [snapshotsEvents, List.append_nil]
        exact h0
    | cons x ss ih =>
        intro h log hss hp h0
        rcases hss x List.mem_cons_self with ⟨hid, hsnap⟩
        rw [snapshotsEvents, ← List.append_assoc]
        exact ih _ _ (fun y hy => hss y (List.mem_cons_of_mem x hy))
          (hp.carried (sendSnapshot_carried C U hI.tolerant h hp.distinct x.1 x.2))
          (hI.sendSnapshot hp h0 hid hsnap)
  refine hall _ _ _ (fun x hx => ?_) (hp.of_conns hp.stub rfl) (hI.of_conns h0 rfl rfl)
  rcases mem_encodeClients U _ _ x hx with ⟨hmem, hbuilt⟩
  refine ⟨?_, hbuilt⟩
  unfold connectedClientIds at hmem
  rw [List.mem_mergeSort] at hmem
  rcases List.mem_map.mp hmem with ⟨y, hy, hnet⟩
  rw [List.mem_filter, decide_eq_true_eq] at hy
  rw [← hnet]
  exact hy.2.2

theorem Stepwise.step {w w' : Traced Key W A} (hp : Plain w.host) (h0 : I w.host w.log)
    (l : HostLabel W A) (hstep : w.step C U S l = some w') : I w'.host w'.log := by
  have hclosed := hI.tolerant.toClosed
  unfold Traced.step at hstep
  rw [Option.map_eq_some_iff] at hstep
  rcases hstep with ⟨h', hhost, rfl⟩
  have hquiet : I h' w.log → I h' (w.log ++ []) := by
    rw [List.append_nil]
    exact id
  cases l with
  | datagram fresh src dg =>
      rw [ServerHost.step, Option.some.injEq] at hhost
      rw [← hhost]
      exact hI.datagram fresh hp h0 src dg
  | broadcast =>
      rw [ServerHost.step, Option.some.injEq] at hhost
      rw [← hhost]
      exact hI.broadcast hp h0
  | prune timeoutMs =>
      rw [ServerHost.step, Option.some.injEq] at hhost
      refine hquiet ?_
      rw [← hhost]
      exact hI.silent h0 (removeAll_carried hclosed U _ w.host)
  | setClock nowMs =>
      rw [ServerHost.step] at hhost
      by_cases hnow : w.host.nowMs ≤ nowMs
      · rw [if_pos hnow, Option.some.injEq] at hhost
        refine hquiet ?_
        rw [← hhost]
        exact hI.of_conns h0 rfl rfl
      · rw [if_neg hnow] at hhost
        cases hhost
  | setUnixTime nowUnix =>
      rw [ServerHost.step, Option.some.injEq] at hhost
      refine hquiet ?_
      rw [← hhost]
      exact hI.of_conns h0 rfl rfl
  | setDilation f =>
      rw [ServerHost.step, Option.some.injEq] at hhost
      refine hquiet ?_
      rw [← hhost]
      exact hI.silent h0 (setDilationFactor_carried hI.tolerant w.host f)
  | outside u accounts persist =>
      rw [ServerHost.step, Option.some.injEq] at hhost
      refine hquiet ?_
      rw [← hhost]
      exact hI.of_conns h0 rfl rfl

end

theorem anyChange_tolerant : Tolerant (fun _ _ : ConnEntry Key => True) where
  refl := fun _ => trivial
  trans := fun _ _ _ _ _ => trivial
  channel := fun _ _ _ => trivial
  stamp := fun _ _ => trivial
  dilation := fun _ _ => trivial

theorem plain_stepwise : Stepwise C U S (fun _ _ => True)
    (fun (h : ServerHost Key W A) (_ : List HostEvent) => Plain h) where
  tolerant := anyChange_tolerant
  silent := fun hp hc => hp.carried hc
  handled := fun token _ _ hp _ =>
    hp.carried (setConn_carried anyChange_tolerant.toClosed _ token fun _ _ => trivial)
  message := by
    intro h log token peer m hp
    refine ⟨?_, (applyMessage_kept C U S h token peer m).tokens.nodup hp.distinct⟩
    rcases applyMessage_cases C U S h token peer m with
      ⟨e, session, netId, he, hevents, hlogin⟩ | ⟨hcarried, _⟩
    · exact hlogin.stub.trans hp.stub
    · exact (hcarried _ anyChange_tolerant).stub.trans hp.stub
  opened := fun token entry hp hfree hstub hconns _ _ _ => hp.concat hfree hstub hconns
  snapshot := fun _ _ _ hp _ _ _ hc => hp.carried hc

/-- What one call after the other keeps, and holds at the start, holds in every run. -/
theorem Stepwise.run {C : CryptoProvider Key} {U : GameUniverse W Snap} {S : AccountService A}
    {I : ServerHost Key W A → List HostEvent → Prop} (hI : Stepwise C U S R I)
    {h₀ : ServerHost Key W A} (hstub : h₀.devAuthStub = false) (hempty : h₀.conns = [])
    (h0 : I h₀ []) {w : Traced Key W A}
    (hreach : Reaches (Traced.step C U S) free (Traced.start h₀) w) :
    Plain w.host ∧ I w.host w.log := by
  refine hreach.invariant (I := fun w => Plain w.host ∧ I w.host w.log) (fun w l w' h _ hstep =>
    ⟨(plain_stepwise C U S).step h.1 h.1 l hstep, hI.step h.1 h.2 l hstep⟩) ⟨⟨hstub, ?_⟩, h0⟩
  show (h₀.conns.map Prod.fst).Nodup
  rw [hempty]
  exact List.nodup_nil

/-- At the start there are no entries. -/
theorem entryForToken_empty {h₀ : ServerHost Key W A} (hempty : h₀.conns = []) (t : UInt64) :
    h₀.entryForToken t = none := by
  unfold entryForToken
  rw [hempty]
  rfl

end

end ServerHost

end Net

end EarthRise
