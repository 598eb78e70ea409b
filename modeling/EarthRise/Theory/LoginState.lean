import EarthRise.Theory.BaseBinding
import EarthRise.Theory.HostTrace

/-!
# Connected and Logged In

A server connection has a login of its own, the development login, next to the login with
an account that the host runs. The host does not ask for an account before it lets the
connection answer a login request, and the connection does not know whether the stub is
on. So a peer that sends a login request is connected, and told so, without an account.

That is the only way. A connection becomes connected in two places, and the other one is
behind a login that returned `Ok`. Both are in the log, so a connection that is in that
state is one for which the log says so.

## Main definitions

* `LoggedIn`: An account was logged in on the connection.
* `Deserved`: What may happen only on a connection that logged in.
* `Late`: A login request comes on a connection that logged in.
* `Told`: The invariant: the log knows which connections are connected.

## Theorems

* `handleAll_told`: The messages of a datagram.
* `told_stepwise`: The invariant is kept, call by call.
* `connected_logged_in_iff`: Connected is logged in, in the runs without an early request.
* `stub_connects`: A run where a peer without an account is connected.
-/

namespace EarthRise

namespace Net

open Run History Persist

/-- An account was logged in on the connection since it was opened. -/
def LoggedIn (log : List HostEvent) (token : UInt64) : Prop :=
  ∃ accountId, Since (.opened token) (.loggedIn token accountId) log

variable {log : List HostEvent} {token : UInt64}

theorem LoggedIn.append (h : LoggedIn log token)
    {l : List HostEvent} (hopened : .opened token ∉ l) : LoggedIn (log ++ l) token := by
  rcases h with ⟨a, ha⟩
  exact ⟨a, ha.append hopened⟩

theorem LoggedIn.of_append {log l : List HostEvent}
    (h : LoggedIn (log ++ l) token) (hnot : ∀ a, .loggedIn token a ∉ l) : LoggedIn log token := by
  rcases h with ⟨a, ha⟩
  exact ⟨a, ha.of_append (hnot a)⟩

/-- A connection that becomes connected, or is told of a success, has logged in. -/
def Deserved (before : List HostEvent) : HostEvent → Prop
  | .connected token => LoggedIn before token
  | .answered token => LoggedIn before token
  | _ => True

/-- A login request comes on a connection that has logged in. -/
def Late (before : List HostEvent) : HostEvent → Prop
  | .received token m => m.type = .loginRequest → LoggedIn before token
  | _ => True

/-- A connection that is connected became so since it was opened. -/
def Shown {Key : Type} (log : List HostEvent) (token : UInt64) (c : ServerConnection Key) : Prop :=
  c.state = .connected → Since (.opened token) (.connected token) log

/-- A connection whose connecting was deserved is logged in. -/
theorem loggedIn_of_since
    (h : Since (.opened token) (.connected token) log) (hevery : Every Deserved log) :
    LoggedIn log token := by
  rcases h with ⟨l₁, l₂, rfl, hopened⟩
  have hbefore : LoggedIn l₁ token := hevery l₁ (.connected token) l₂ rfl
  refine hbefore.append fun hmem => ?_
  rcases List.mem_cons.mp hmem with heq | hmem
  · exact absurd heq nofun
  · exact hopened hmem

/-! ## The messages of a connection -/

namespace ServerConnection

variable {Key : Type} (C : CryptoProvider Key) {c : ServerConnection Key} {log : List HostEvent}
  {token : UInt64}

/-- A login request connects, and no other message does. -/
theorem handleAppMessage_state (c : ServerConnection Key) (m : DecodedMessage) :
    if m.type = .loginRequest then (c.handleAppMessage C m).2.state = .connected
    else (c.handleAppMessage C m).2.state = .connected → c.state = .connected := by
  rcases m with ⟨channel, type, body⟩
  unfold handleAppMessage
  cases type with
  | loginRequest =>
      rw [if_pos rfl]
      unfold onLoginRequest
      simp only []
      split <;> rfl
  | disconnect =>
      rw [if_neg nofun]
      exact fun h => absurd h nofun
  | _ =>
      rw [if_neg nofun]
      exact id

/-- A datagram is handled as the messages it holds, and a clear one does not connect. -/
theorem onDatagram_received (c : ServerConnection Key) (dg : Bytes) :
    (c.onDatagram C dg).2 = (handleAll C (c.received C dg).2 (c.received C dg).1).2 ∧
        (c.received C dg).2.state = c.state ∨
      c.received C dg = ([], c) ∧ ((c.onDatagram C dg).2.state = .connected →
        c.state = .connected) := by
  have hbuild : ∀ c : ServerConnection Key, c.buildChannel.state = .connected →
      c.state = .connected := by
    intro c
    unfold buildChannel
    split
    · split
      · exact id
      · exact fun h => absurd h nofun
    · exact id
  have hclear : ∀ type body, (c.onClear type body).2.state = .connected →
      c.state = .connected := by
    intro type body
    unfold onClear
    split
    · simp only []
      split
      · exact fun h => absurd h nofun
      · exact hbuild { c with server := (c.server.onClockSyncRequest body).2 }
      · exact hbuild { c with server := (c.server.onClockSyncRequest body).2 }
    · exact id
  cases dg with
  | nil => exact .inr ⟨rfl, id⟩
  | cons kind rest =>
      unfold onDatagram received
      simp only []
      by_cases hkind : kind = kindClearHandshake
      · -- A clear datagram is not an encrypted one, so it holds no messages.
        have hnot : ¬ kind = kindEncrypted := by
          rw [hkind]
          decide
        refine .inr ⟨?_, ?_⟩
        · cases c.channel with
          | none => rfl
          | some ch => exact if_neg hnot
        · rw [if_pos hkind]
          cases rest with
          | nil => exact id
          | cons type body => exact hclear _ body
      · rw [if_neg hkind]
        by_cases henc : kind = kindEncrypted
        · rw [if_pos henc]
          cases c.channel with
          | none => exact .inr ⟨rfl, id⟩
          | some ch =>
              left
              simp only []
              rw [if_pos henc]
              exact ⟨rfl, rfl⟩
        · rw [if_neg henc]
          refine .inr ⟨?_, id⟩
          cases c.channel with
          | none => rfl
          | some ch => exact if_neg henc

/-- A message that connects is logged so at last. -/
theorem messageEvents_connects {m : DecodedMessage}
    (hbefore : c.state ≠ .connected) (hafter : (c.handleAppMessage C m).2.state = .connected)
    (token : UInt64) : ∃ l, c.messageEvents C token m = l ++ [.connected token] ∧
      ∀ a, .loggedIn token a ∉ l := by
  have hlast : (if c.state ≠ .connected ∧ (c.handleAppMessage C m).2.state = .connected then
      [HostEvent.connected token] else []) = [.connected token] := if_pos ⟨hbefore, hafter⟩
  refine ⟨.received token m :: (if m.type = .loginRequest ∧ (c.handleAppMessage C m).1.send ≠ []
    then [.answered token] else []), ?_, fun a hmem => ?_⟩
  · rw [List.cons_append, ← hlast]
    rfl
  · rcases List.mem_cons.mp hmem with heq | hmem
    · exact absurd heq nofun
    · split at hmem
      · exact absurd (List.mem_singleton.mp hmem) nofun
      · exact absurd hmem List.not_mem_nil

/-- After a login all that a message does is deserved, and no request is early. -/
theorem message_after_login (hlogged : LoggedIn log token)
    (c : ServerConnection Key) (m : DecodedMessage) :
    Every (fun pre ev => Deserved (log ++ pre) ev ∧ Late (log ++ pre) ev)
      (c.messageEvents C token m) := by
  intro pre ev post heq
  have hpre : LoggedIn (log ++ pre) token := by
    refine hlogged.append fun hmem => opened_not_mem_message C c token token m ?_
    rw [heq]
    exact List.mem_append_left _ hmem
  have hev : ev ∈ c.messageEvents C token m := by
    rw [heq]
    exact List.mem_append_right pre List.mem_cons_self
  rcases mem_messageEvents C hev with rfl | ⟨_, rfl⟩ | ⟨_, rfl⟩
  · exact ⟨trivial, fun _ => hpre⟩
  · exact ⟨hpre, trivial⟩
  · exact ⟨hpre, trivial⟩

theorem message_shown
    (hshown : Shown log token c) (m : DecodedMessage) :
    Shown (log ++ c.messageEvents C token m) token (c.handleAppMessage C m).2 := by
  intro hafter
  by_cases hbefore : c.state = .connected
  · exact (hshown hbefore).append (opened_not_mem_message C c token token m)
  · rcases messageEvents_connects C hbefore hafter token with ⟨l, heq, _⟩
    rw [heq, ← List.append_assoc]
    exact since_concat _ _ _

/-- What is deserved is so as long as no request comes early. -/
theorem message_iff
    (hshown : Shown log token c) (hiff : Every Deserved log ↔ Every Late log)
    (m : DecodedMessage) :
    Every Deserved (log ++ c.messageEvents C token m) ↔
      Every Late (log ++ c.messageEvents C token m) := by
  have hstate := handleAppMessage_state C c m
  by_cases hreq : m.type = .loginRequest
  · by_cases hlogged : LoggedIn log token
    · have hboth := message_after_login C hlogged c m
      rw [every_append, every_append]
      exact ⟨fun h => ⟨hiff.mp h.1, hboth.mono fun _ _ h => h.2⟩,
        fun h => ⟨hiff.mpr h.1, hboth.mono fun _ _ h => h.1⟩⟩
    · -- Before a login the request is early, and it connects if it has not been done.
      rw [if_pos hreq] at hstate
      refine ⟨fun h => absurd ?_ hlogged, fun h => absurd ?_ hlogged⟩
      · rcases every_append.mp h with ⟨hold, hnew⟩
        by_cases hbefore : c.state = .connected
        · exact loggedIn_of_since (hshown hbefore) hold
        · rcases messageEvents_connects C hbefore hstate token with ⟨l, heq, hnot⟩
          have hlast : LoggedIn (log ++ l) token := hnew l (.connected token) [] heq
          exact hlast.of_append hnot
      · have hearly : LoggedIn (log ++ []) token :=
          (every_append.mp h).2 [] (.received token m) _ rfl hreq
        rwa [List.append_nil] at hearly
  · -- Another message leaves no trace but that it came.
    rw [if_neg hreq] at hstate
    rw [every_append, every_append]
    refine and_congr hiff ⟨fun _ => every_of_forall fun pre ev hev => ?_,
      fun _ => every_of_forall fun pre ev hev => ?_⟩
    · rcases mem_messageEvents C hev with rfl | ⟨h, _⟩ | ⟨h, _⟩
      · exact fun h => absurd h hreq
      · exact absurd h hreq
      · exact absurd (hstate h.2) h.1
    · rcases mem_messageEvents C hev with rfl | ⟨h, _⟩ | ⟨h, _⟩
      · trivial
      · exact absurd h hreq
      · exact absurd (hstate h.2) h.1

/-- The messages of a datagram, one after the other. -/
theorem handleAll_told (ms : List DecodedMessage)
    (hshown : Shown log token c)
    (hiff : Every Deserved log ↔ Every Late log) :
    Shown (log ++ handleEvents C token c ms) token (handleAll C c ms).2 ∧
      (Every Deserved (log ++ handleEvents C token c ms) ↔
        Every Late (log ++ handleEvents C token c ms)) := by
  induction ms generalizing c log with
  | nil =>
      rw [handleEvents, List.append_nil]
      exact ⟨hshown, hiff⟩
  | cons m ms ih =>
      rw [handleEvents, ← List.append_assoc]
      exact ih (message_shown C hshown m) (message_iff C hshown hiff m)

end ServerConnection

/-! ## The connections of the host -/

/-- Whether an entry is connected; what is not about the login does not make it so. -/
def NotSooner {Key : Type} (e e' : ConnEntry Key) : Prop :=
  e'.conn.state = .connected → e.conn.state = .connected

theorem notSooner_tolerant {Key : Type} :
    ServerHost.Tolerant (NotSooner : ConnEntry Key → ConnEntry Key → Prop) where
  refl := fun _ => id
  trans := fun _ _ _ h h' => h ∘ h'
  channel := fun _ _ _ => id
  stamp := fun _ _ => id
  dilation := fun _ _ => id

/-- The log knows which connections are connected, and their connecting was deserved unless
    a request came early. -/
structure Told {Key W A : Type} (h : ServerHost Key W A) (log : List HostEvent) : Prop where
  shown : ∀ t e, h.entryForToken t = some e → Shown log t e.conn
  deserved : Every Deserved log ↔ Every Late log

section

variable {Key W Snap A : Type} {U : GameUniverse W Snap} {h h' : ServerHost Key W A}

open ServerHost

theorem Told.carried {log l : List HostEvent} (ht : Told h log)
    (hc : Carried NotSooner h h') (hopened : ∀ t, .opened t ∉ l)
    (hl : Every (fun pre ev => Deserved (log ++ pre) ev ∧ Late (log ++ pre) ev) l) :
    Told h' (log ++ l) where
  shown := by
    intro t e' he' hafter
    rcases hc.entry t e' he' with ⟨e, he, hsooner⟩
    exact (ht.shown t e he (hsooner hafter)).append (hopened t)
  deserved := by
    rw [every_append, every_append]
    exact ⟨fun h => ⟨ht.deserved.mp h.1, hl.mono fun _ _ h => h.2⟩,
      fun h => ⟨ht.deserved.mpr h.1, hl.mono fun _ _ h => h.1⟩⟩

theorem Told.silent {log : List HostEvent} (ht : Told h log)
    (hc : Carried NotSooner h h') : Told h' log := by
  have h := ht.carried hc (l := []) (fun _ => List.not_mem_nil) (every_nil _)
  rwa [List.append_nil] at h

/-- A login connects a connection that waited for it. -/
theorem told_login {log : List HostEvent} (ht : Told h log)
    {token : UInt64} {e : ConnEntry Key} {session : SessionInfo} {netId : UInt32}
    (he : h.entryForToken token = some e) (hlogin : LogsIn h h' token e session netId) :
    Told h' (log ++ .loggedIn token session.accountId :: .bound token session.accountId netId ::
      (if e.conn.state = .authenticating then [.connected token] else [])) := by
  have hopened : ∀ t, HostEvent.opened t ∉ (.loggedIn token session.accountId ::
      .bound token session.accountId netId ::
        (if e.conn.state = .authenticating then [.connected token] else [])) := by
    intro t hmem
    simp only [List.mem_cons, reduceCtorEq, false_or] at hmem
    split at hmem
    · exact absurd (List.mem_singleton.mp hmem) nofun
    · exact absurd hmem List.not_mem_nil
  refine ⟨fun t e' he' hafter => ?_, ?_⟩
  · by_cases hself : t = token
    · subst hself
      rcases hlogin.self e' he' with ⟨channel, _, rfl⟩
      by_cases hwait : e.conn.state = .authenticating
      · have hlast : log ++ HostEvent.loggedIn t session.accountId ::
            .bound t session.accountId netId :: [.connected t] =
            (log ++ [.loggedIn t session.accountId, .bound t session.accountId netId]) ++
              [.connected t] := by
          rw [List.append_assoc]
          rfl
        rw [if_pos hwait, hlast]
        exact since_concat _ _ _
      · refine (ht.shown t e he ?_).append (hopened t)
        have hstate : (ServerConnection.markConnected
            { e.conn with playerNetId := netId }).state = .connected := hafter
        unfold ServerConnection.markConnected at hstate
        rwa [if_neg hwait] at hstate
    · exact (ht.shown t e' (hlogin.other t hself e' he').1 hafter).append (hopened t)
  · have hself : LoggedIn (log ++ [.loggedIn token session.accountId]) token :=
      ⟨session.accountId, since_concat _ _ _⟩
    have hall : Every (fun pre ev => Deserved (log ++ pre) ev ∧ Late (log ++ pre) ev)
        (.loggedIn token session.accountId :: .bound token session.accountId netId ::
          (if e.conn.state = .authenticating then [.connected token] else [])) := by
      refine every_cons.mpr ⟨⟨trivial, trivial⟩, every_cons.mpr ⟨⟨trivial, trivial⟩, ?_⟩⟩
      split
      · refine every_cons.mpr ⟨⟨?_, trivial⟩, every_nil _⟩
        have hbound : LoggedIn (log ++ [.loggedIn token session.accountId] ++
            [.bound token session.accountId netId]) token :=
          hself.append (by
            simp only [List.mem_singleton, reduceCtorEq, not_false_eq_true])
        rw [List.append_assoc] at hbound
        exact hbound
      · exact every_nil _
    rw [every_append, every_append]
    exact ⟨fun h => ⟨ht.deserved.mp h.1, hall.mono fun _ _ h => h.2⟩,
      fun h => ⟨ht.deserved.mpr h.1, hall.mono fun _ _ h => h.1⟩⟩

theorem told_stepwise (C : CryptoProvider Key) (S : AccountService A) :
    Stepwise C U S NotSooner (Told : ServerHost Key W A → List HostEvent → Prop) where
  tolerant := notSooner_tolerant
  silent := fun ht hc => ht.silent hc
  handled := by
    intro h log token e dg ht he
    have hopened : ∀ t, .opened t ∉ ServerConnection.handleEvents C token
        (e.conn.received C dg).2 (e.conn.received C dg).1 :=
      fun t => ServerConnection.opened_not_mem C _ token t _
    rcases ServerConnection.onDatagram_received C e.conn dg with ⟨heq, hstate⟩ | ⟨hnone, hstate⟩
    · have hshown : Shown log token (e.conn.received C dg).2 := by
        intro h
        rw [hstate] at h
        exact ht.shown token e he h
      rcases ServerConnection.handleAll_told C (e.conn.received C dg).1 hshown ht.deserved with
        ⟨hafter, hiff⟩
      refine ⟨fun t e' he' => ?_, hiff⟩
      unfold setConn at he'
      by_cases hself : t = token
      · subst hself
        rw [entryForToken_modify_self, he, Option.map_some, Option.some.injEq] at he'
        rw [← he', heq]
        exact hafter
      · rw [entryForToken_modify_ne _ _ hself] at he'
        exact fun h => (ht.shown t e' he' h).append (hopened t)
    · rw [hnone]
      refine ht.carried (setConn_carried notSooner_tolerant.toClosed h token fun e₀ he₀ => ?_)
        (fun _ => List.not_mem_nil) (every_nil _)
      rw [he, Option.some.injEq] at he₀
      rw [← he₀]
      exact hstate
  message := by
    intro h log token peer m ht
    rcases applyMessage_cases C U S h token peer m with
      ⟨e, session, netId, he, hevents, hlogin⟩ | ⟨hcarried, hnone | ⟨e, he, hplay, hevents⟩⟩
    · rw [hevents]
      exact told_login ht he hlogin
    · rw [hnone, List.append_nil]
      exact ht.silent (hcarried _ notSooner_tolerant)
    · rw [hevents]
      refine ht.carried (hcarried _ notSooner_tolerant) (fun t => ?_)
        (every_cons.mpr ⟨⟨trivial, trivial⟩, every_nil _⟩)
      simp only [List.mem_singleton, reduceCtorEq, not_false_eq_true]
  opened := by
    intro h h' log token entry ht hfree _ hconns _ _ hstate
    refine ⟨fun t e he hafter => ?_, ?_⟩
    · rw [entryForToken_concat hfree hconns] at he
      by_cases hself : t = token
      · rw [if_pos hself, Option.some.injEq] at he
        rw [← he] at hafter
        exact absurd hafter hstate
      · rw [if_neg hself] at he
        refine (ht.shown t e he hafter).append ?_
        simp only [List.mem_singleton, HostEvent.opened.injEq, hself, not_false_eq_true]
    · rw [every_append, every_append]
      exact and_congr ht.deserved ⟨fun _ => every_cons.mpr ⟨trivial, every_nil _⟩,
        fun _ => every_cons.mpr ⟨trivial, every_nil _⟩⟩
  snapshot := by
    intro h h' log token e snap ht _ _ _ hc
    refine ht.carried hc (fun t => ?_) (every_cons.mpr ⟨⟨trivial, trivial⟩, every_nil _⟩)
    simp only [List.mem_singleton, reduceCtorEq, not_false_eq_true]

/-- Without the stub, in every run of the host: a connection is connected, or is told of a
    success, only after an account was logged in on it, exactly if that holds of the login
    requests which the channels hand over. -/
theorem connected_logged_in_iff (C : CryptoProvider Key) (S : AccountService A)
    {h₀ : ServerHost Key W A} (hstub : h₀.devAuthStub = false) (hempty : h₀.conns = [])
    {w : Traced Key W A} (hreach : Reaches (Traced.step C U S) free (Traced.start h₀) w) :
    (Every Deserved w.log ∧ ∀ t e, w.host.entryForToken t = some e →
      e.conn.state = .connected → LoggedIn w.log t) ↔ Every Late w.log := by
  have htold : Told w.host w.log := by
    refine ((told_stepwise C S).run hstub hempty ⟨fun t e he => ?_, ?_⟩ hreach).2
    · rw [entryForToken_empty hempty] at he
      exact absurd he nofun
    · exact ⟨fun _ => every_nil _, fun _ => every_nil _⟩
  refine ⟨fun h => htold.deserved.mp h.1, fun h => ?_⟩
  have hdeserved := htold.deserved.mpr h
  exact ⟨hdeserved, fun t e he hstate => loggedIn_of_since (htold.shown t e he hstate) hdeserved⟩

end

def HostEvent.isLogin : HostEvent → Bool
  | .loggedIn _ _ => true
  | _ => false

def HostEvent.isConnecting : HostEvent → Bool
  | .connected _ => true
  | _ => false

def HostEvent.isRequest : HostEvent → Bool
  | .received _ m => m.type = .loginRequest
  | _ => false

/-- Without a login nobody is connected deservedly. -/
theorem not_deserved (hconnects : log.any HostEvent.isConnecting = true)
    (hnone : log.any HostEvent.isLogin = false) : ¬ Every Deserved log := by
  intro h
  rcases List.any_eq_true.mp hconnects with ⟨ev, hmem, hev⟩
  rcases List.append_of_mem hmem with ⟨pre, post, heq⟩
  cases ev with
  | connected token =>
      have hlogged : LoggedIn pre token := h pre _ post heq
      rcases hlogged with ⟨a, l₁, l₂, hpre, _⟩
      have hlogin : log.any HostEvent.isLogin = true := by
        refine List.any_eq_true.mpr ⟨.loggedIn token a, ?_, rfl⟩
        rw [heq, hpre]
        exact List.mem_append_left _ (List.mem_append_right _ List.mem_cons_self)
      rw [hnone] at hlogin
      exact Bool.false_ne_true hlogin
  | _ => exact absurd hev Bool.false_ne_true

/-- Without a request none is early. -/
theorem late_of_no_request (hnone : log.any HostEvent.isRequest = false) :
    Every Late log := by
  refine every_of_forall fun pre ev hev => ?_
  cases ev with
  | received token m =>
      intro hreq
      have hany : log.any HostEvent.isRequest = true :=
        List.any_eq_true.mpr ⟨_, hev, decide_eq_true hreq⟩
      rw [hnone] at hany
      exact absurd hany Bool.false_ne_true
  | _ => trivial

/-- The cookie response of an address. -/
def openingBody (peer : Endpoint) : CookieResponseBody :=
  ⟨sampleProvider.makeCookie [] peer.addrBytes, List.Vector.replicate ecPubKeyBytes 3⟩

/-- A client connects from an address, as the `n`th, and then sends the messages. -/
def connectAndSend (peer : Endpoint) (n : UInt64) (ms : List Bytes) :
    List (HostLabel (List UInt32 × Nat) AccountStore) :=
  let ch := openChannel .clientToServer (ServerHost.mixToken n) sampleKeys.1 sampleKeys.2
  .datagram (sampleKeyPair 0) peer (makeHandshakeDatagram .cookieResponse (openingBody peer).encode) ::
    .datagram (sampleKeyPair 0) peer
      (makeHandshakeDatagram .clockSyncRequest (List.replicate 16 0)) ::
    (ch.sealAll sampleProvider.toICrypto ms).map fun frame =>
      .datagram (sampleKeyPair 0) peer (kindEncrypted :: frame)

/-- The credential frame of the account. -/
def loginFrame : Bytes :=
  writeMessage .reliableOrdered .command
    (encodeAuthRequest authOpcodeLogin [97, 98, 99] (List.replicate 8 97))

/-- A client that logs in with its account is connected, and deserves it. -/
theorem connected_logged_in_session :
    ∃ w, Reaches (Traced.step sampleProvider sampleUniverse.counted accountService) free
        (Traced.start (sampleAuthHost [(1, 1)])) w ∧
      w.log.any HostEvent.isConnecting = true ∧ Every Deserved w.log ∧
      ∀ t e, w.host.entryForToken t = some e → e.conn.state = .connected → LoggedIn w.log t := by
  have hrun : ((runLabels (Traced.step sampleProvider sampleUniverse.counted accountService)
      (Traced.start (sampleAuthHost [(1, 1)]))
      (connectAndSend samplePeer 1 [loginFrame])).any fun w =>
        w.log.any HostEvent.isConnecting = true ∧ w.log.any HostEvent.isRequest = false) = true := by
    decide +kernel
  rcases exists_of_runLabels _ hrun with ⟨w, hreach, hw⟩
  rw [decide_eq_true_eq] at hw
  refine ⟨w, hreach, hw.1, ?_⟩
  exact (connected_logged_in_iff sampleProvider accountService rfl rfl hreach).mpr
    (late_of_no_request hw.2)

/-- A client sends a login request with any name. It is connected and told so, and nobody
    has logged in. -/
theorem stub_connects :
    ∃ w, Reaches (Traced.step sampleProvider sampleUniverse.counted accountService) free
        (Traced.start (sampleAuthHost [(1, 1)])) w ∧
      (w.host.conns.all fun e => e.2.conn.state = .connected) = true ∧
      w.log.any HostEvent.isConnecting = true ∧ ¬ Every Deserved w.log := by
  have hrun : ((runLabels (Traced.step sampleProvider sampleUniverse.counted accountService)
      (Traced.start (sampleAuthHost [(1, 1)]))
      (connectAndSend samplePeer 1
        [writeMessage .reliableOrdered .loginRequest [3, 0, 97, 98, 99]])).any fun w =>
        (w.host.conns.all fun e => e.2.conn.state = .connected) = true ∧
          w.log.any HostEvent.isConnecting = true ∧
            w.log.any HostEvent.isLogin = false) = true := by
    decide +kernel
  rcases exists_of_runLabels _ hrun with ⟨w, hreach, hw⟩
  rw [decide_eq_true_eq] at hw
  exact ⟨w, hreach, hw.1, hw.2.1, not_deserved hw.2.1 hw.2.2⟩

end Net

end EarthRise
