import EarthRise.Theory.AccountStore
import EarthRise.Theory.BaseBinding
import EarthRise.Theory.HostTrace
import EarthRise.Theory.LiveClient

/-!
# Whether a Client That May Sign In Gives Up

A client with a new name logs in, hears that nobody has that name, and registers it. It sends
its frames again and again, and each is answered. So there are two kinds of answer to a
register frame: the first one that arrives makes the account and succeeds, and every later
one finds that the name is taken. The client takes that for a wrong password, and gives up,
unless it has heard of the success before.

Without such an answer the client never gives up, and the first result that it hears of after
its account was bound connects it, with the net id that it was bound to.

## Main definitions

* `SignIn.Ready`: A client past the handshake, with a new name.
* `SignIn.Fair`: The store is healthy, and nobody else touches the client's connection.
* `SignIn.Untaken`: A client that waits does not hear that its own name is taken.
* `SignIn.Fine`: It has not given up.
* `SignIn.Known`: The invariant: what every datagram under way is.

## Theorems

* `decodeAuthRequest_encode`: A credential frame is read back.
* `authenticate_known`, `authenticate_unknown`: What a credential frame leads to.
* `onDatagram_credential`: What the host makes of it.
* `onDatagram_result`: What the client makes of a result.
* `never_gives_up`: In every such run the client is fine.
* `taken_by_itself`: A register frame that arrives twice makes the client give up.
-/

namespace EarthRise

namespace Net

open Persist Run

/-! ## Credential frames -/

theorem getU16_putStr (s rest : Bytes) (hs : s.length < 2 ^ 16) :
    getU16 (putStr s ++ rest) 0 = s.length := by
  have h := getLE_putLE 2 s.length (s ++ rest)
  unfold putStr
  rw [List.append_assoc]
  exact h.trans (Nat.mod_eq_of_lt hs)

theorem decodeAuthRequest_encode (opcode : UInt8) {user pass : Bytes} (huser : user.length < 2 ^ 16)
    (hpass : pass.length < 2 ^ 16) :
    decodeAuthRequest (encodeAuthRequest opcode user pass) = some (user, pass) := by
  have hlen : ∀ s : Bytes, (putStr s).length = 2 + s.length := by
    intro s
    unfold putStr
    rw [List.length_append]
    rfl
  have hread : ∀ s rest : Bytes, s.length < 2 ^ 16 →
      ¬ (putStr s ++ rest).length < 2 ∧
      ¬ (putStr s ++ rest).length < 2 + getU16 (putStr s ++ rest) 0 ∧
      ((putStr s ++ rest).drop 2).take (getU16 (putStr s ++ rest) 0) = s ∧
      (putStr s ++ rest).drop (2 + getU16 (putStr s ++ rest) 0) = rest := by
    intro s rest hs
    rw [getU16_putStr s rest hs, List.length_append, hlen]
    refine ⟨by omega, by omega, ?_, ?_⟩
    · show (s ++ rest).take s.length = s
      rw [List.take_left]
    · rw [← hlen, List.drop_left]
  rcases hread user (putStr pass) huser with ⟨hu₁, hu₂, hu₃, hu₄⟩
  rcases hread pass [] hpass with ⟨hp₁, hp₂, hp₃, _⟩
  rw [List.append_nil] at hp₁ hp₂ hp₃
  unfold decodeAuthRequest encodeAuthRequest
  simp only [List.drop_succ_cons, List.drop_zero]
  rw [if_neg hu₁, if_neg hu₂, hu₃, hu₄]
  simp only []
  rw [if_neg hp₁, if_neg hp₂, hp₃]
  rfl

/-- What is authentic for a channel has its token in the clear. -/
theorem peekConnectionToken_of_authentic {Key : Type} (C : ICrypto Key) (ch : SecureChannel Key)
    {rest payload : Bytes} (h : ch.authentic C rest = some payload) :
    peekConnectionToken (kindEncrypted :: rest) = some ch.token := by
  unfold SecureChannel.authentic readPacketHeader at h
  split at h
  · exact absurd h nofun
  · rename_i hdr hread
    split at hread
    · exact absurd hread nofun
    · rename_i hlong
      rw [Option.some.injEq] at hread
      split at h
      · exact absurd h nofun
      · rename_i htoken
        rw [not_not, ← hread] at htoken
        have hwire : wireSize = 20 := rfl
        unfold peekConnectionToken
        simp only [ne_eq, not_true_eq_false, if_false]
        rw [if_neg (by omega)]
        exact congrArg some htoken

section Host

variable {Key W Snap : Type} (C : CryptoProvider Key) (U : GameUniverse W Snap)

/-- The credential frame of a client. -/
def credential (opcode : UInt8) (user pass : Bytes) : DecodedMessage :=
  ⟨Channel.reliableOrdered.toByte, .command, encodeAuthRequest opcode user pass⟩

/-- The result of a credential frame. -/
def resultMessage (res : AuthResult) (netId : UInt32) (session : Bytes) : DecodedMessage :=
  ⟨Channel.reliableOrdered.toByte, .command,
    authOpcodeResult :: res.toByte :: (putU32 netId ++ session)⟩

theorem length_resultMessage (res : AuthResult) (netId : UInt32) {session : Bytes}
    (hsession : session.length = 8) : (resultMessage res netId session).body.length = 14 := by
  unfold resultMessage
  simp only [List.length_cons, List.length_append, putU32, length_putLE, hsession]

theorem SecureChannel.Moved.trans {a b c : SecureChannel Key} (hab : a.Moved b)
    (hbc : b.Moved c) : a.Moved c := by
  rcases hab with ⟨_, _, rfl⟩
  rcases hbc with ⟨_, _, rfl⟩
  exact ⟨_, _, rfl⟩

/-- A command comes out of the server's connection as it is, or as nothing if its number is
    not fresh. -/
theorem ServerConnection.hears_request (c : ServerConnection Key) {sc : SecureChannel Key}
    (hsc : c.channel = some sc) (hkeys : sc.hasKeys = true) {d : Bytes} {m : DecodedMessage}
    (h : Opens C sc d m) (hm : m.type = .command) :
    ∃ app, (app = [] ∨ app = [m]) ∧ ∃ sc', sc.Moved sc' ∧
      c.onDatagram C d = (⟨app, []⟩, { c with channel := some sc' }) := by
  rcases h with ⟨rest, payload, rfl, hauth, hread⟩
  rcases receive_opens C hkeys ⟨rest, payload, rfl, hauth, hread⟩ with ⟨app, happ, sc', hmoved, hr⟩
  refine ⟨app, happ, sc', hmoved, ?_⟩
  unfold onDatagram
  simp only [if_neg kindEncrypted_ne, if_true, hsc, hr]
  rcases happ with rfl | rfl
  · rfl
  · simp only [handleAll, handleAppMessage, hm]
    rfl

namespace ServerHost

variable {h : ServerHost Key W AccountStore} {a : AccountStore} {endpoint : Endpoint}
  {opcode : UInt8} {user pass : Bytes}

/-- A frame for a name that somebody has: it logs in, with the base of the account, or is
    taken. -/
theorem authenticate_known (opcode : UInt8) (huser : validUsername user = true)
    (hpass : validPassword pass = true)
    (hhealthy : a.Healthy endpoint.ip h.nowUnix) (hholds : a.Holds user pass)
    (hknown : (a.find user).isSome = true) :
    (h.authenticate accountService a endpoint opcode user pass).1.1 =
        (if opcode = authOpcodeRegister then .usernameTaken else .ok) ∧
      (h.authenticate accountService a endpoint opcode user pass).2.Holds user pass ∧
      ((h.authenticate accountService a endpoint opcode user pass).2.find user).isSome = true ∧
      (opcode ≠ authOpcodeRegister → ∃ row, a.find user = some row ∧
        (h.authenticate accountService a endpoint opcode user pass).1.2.baseId =
          a.db.baseOf row.accountId) := by
  rcases Option.isSome_iff_exists.mp hknown with ⟨row, hrow⟩
  unfold authenticate
  simp only []
  by_cases hop : opcode = authOpcodeRegister
  · rcases AccountStore.register_known h.nowUnix huser hpass hhealthy.1 hrow with
      ⟨htaken, hfind, hcfg⟩
    have hres : (accountService.register user pass h.nowUnix a).1.1 ≠ .ok := by
      intro hok
      exact absurd (htaken.symm.trans hok) nofun
    rw [if_pos hop, if_neg hres, if_pos hop]
    refine ⟨htaken, fun row' hrow' => ?_, ?_⟩
    · have hsame : row' = row := Option.some.inj (hrow'.symm.trans hfind)
      rcases hholds row hrow with ⟨hstatus, hunlocked, hmatch⟩
      rw [hsame]
      refine ⟨hstatus, hunlocked, ?_⟩
      have hcfg' : (accountService.register user pass h.nowUnix a).2.cfg = a.cfg := hcfg
      unfold AccountStore.matchesPassword AccountStore.hashPassword at hmatch ⊢
      rw [hcfg']
      exact hmatch
    · exact ⟨Option.isSome_iff_exists.mpr ⟨row, hfind⟩, fun hne => absurd hop hne⟩
  · rw [if_neg hop, if_neg hop]
    rcases AccountStore.login_known h.nowUnix huser hpass hhealthy hholds hrow with
      ⟨hok, hafter, hthere, hbase⟩
    exact ⟨hok, hafter, hthere, fun _ => ⟨row, hrow, hbase⟩⟩

/-- A frame for a name that nobody has: it is refused, or makes the account and logs in. -/
theorem authenticate_unknown (opcode : UInt8) (huser : validUsername user = true)
    (hpass : validPassword pass = true) (hhealthy : a.Healthy endpoint.ip h.nowUnix)
    (hnone : a.find user = none) :
    (h.authenticate accountService a endpoint opcode user pass).2.Holds user pass ∧
      (opcode = authOpcodeRegister →
        (h.authenticate accountService a endpoint opcode user pass).1.1 = .ok ∧
        ((h.authenticate accountService a endpoint opcode user pass).2.find user).isSome = true) ∧
      (opcode ≠ authOpcodeRegister →
        (h.authenticate accountService a endpoint opcode user pass).1.1 = .invalidCredentials ∧
        (h.authenticate accountService a endpoint opcode user pass).2.find user = none) := by
  unfold authenticate
  simp only []
  by_cases hop : opcode = authOpcodeRegister
  · rcases AccountStore.register_unknown h.nowUnix huser hpass hhealthy.1 hnone with
      ⟨hok, hholds, hknown, hip, havailable⟩
    rcases Option.isSome_iff_exists.mp hknown with ⟨row, hrow⟩
    have hroom : (accountService.register user pass h.nowUnix a).2.Healthy endpoint.ip
        h.nowUnix := by
      refine ⟨havailable, ?_⟩
      have hwindow := hhealthy.2
      unfold AccountStore.checkIpRateLimit at hwindow ⊢
      have hip' : (accountService.register user pass h.nowUnix a).2.ipWindows = a.ipWindows := hip
      rw [hip']
      exact hwindow
    have hres : (accountService.register user pass h.nowUnix a).1.1 = .ok := hok
    rw [if_pos hop, if_pos hres]
    rcases AccountStore.login_known h.nowUnix huser hpass hroom hholds hrow with
      ⟨hlogin, hafter, hthere, _⟩
    exact ⟨hafter, fun _ => ⟨hlogin, hthere⟩, fun hne => absurd hop hne⟩
  · rw [if_neg hop]
    rcases AccountStore.login_unknown h.nowUnix huser hpass hhealthy hnone with ⟨hrefused, hnone'⟩
    exact ⟨AccountStore.holds_of_none hnone', fun h => absurd h hop, fun _ => ⟨hrefused, hnone'⟩⟩

/-! ## What the host makes of them -/

variable {C U} {token : UInt64} {e : ConnEntry Key} {sc cc : SecureChannel Key}

/-- A result is sealed for the client, or not sent at all. -/
theorem sendAuthResult_spec (hC : C.Correct) (he : h.entryForToken token = some e)
    (hsc : e.conn.channel = some sc) (hmates : cc.Mates sc) (peer : Endpoint) (res : AuthResult) :
    ∃ sc', sc.Moved sc' ∧
      (h.sendAuthResult C token peer res).2.entryForToken token =
        some { e with conn := { e.conn with channel := some sc' } } ∧
      (h.sendAuthResult C token peer res).2.accounts = h.accounts ∧
      ∀ d ∈ (h.sendAuthResult C token peer res).1, ∃ session : Bytes, session.length = 8 ∧
        Opens C cc d.data (resultMessage res e.playerNetId session) := by
  have hidle : some { e with conn := { e.conn with channel := some sc } } = some e := by
    rw [← hsc]
  have hsession : (e.sessionToken.toList.take 8).length = 8 := by
    rw [List.length_take, e.sessionToken.toList_length]
    rfl
  unfold sendAuthResult
  simp only [he]
  cases hseal : e.conn.sealApp C .reliableOrdered .command (authOpcodeResult :: res.toByte ::
      (putU32 e.playerNetId ++ e.sessionToken.toList.take 8)) with
  | none =>
      refine ⟨sc, .refl sc, he.trans hidle.symm, rfl, fun d hd => absurd hd List.not_mem_nil⟩
  | some r =>
      unfold ServerConnection.sealApp at hseal
      rw [hsc] at hseal
      rcases Option.map_eq_some_iff.mp hseal with ⟨⟨d, sc'⟩, hmessage, heq⟩
      have hfit : FitsLength (resultMessage res e.playerNetId
          (e.sessionToken.toList.take 8)).body := by
        unfold FitsLength
        rw [length_resultMessage res e.playerNetId hsession]
        decide
      rcases sealMessage_opens C hC hmates.fromRight .reliableOrdered .command _ d
        (by simp only [MsgType.Named, ne_eq, reduceCtorEq, not_false_eq_true, implies_true])
        hfit hmessage with ⟨hmoved, hopens⟩
      refine ⟨sc', hmoved, ?_, rfl, fun d' hd' => ?_⟩
      · simp only [← heq]
        unfold setConn
        rw [entryForToken_modify_self, he]
        rfl
      · rw [← heq] at hd'
        rw [List.mem_singleton.mp hd']
        exact ⟨_, hsession, hopens⟩

/-- What is left of a host `h` after a credential frame: the store as it answered, and the
    connection, bound if the answer is a success. -/
structure Answers (C : CryptoProvider Key) (U : GameUniverse W Snap)
    (h h' : ServerHost Key W AccountStore) (token : UInt64) (e : ConnEntry Key)
    (sc cc : SecureChannel Key) (r : (AuthResult × SessionInfo) × AccountStore)
    (ds : List OutDatagram) : Prop where
  accounts : h'.accounts = some r.2
  entry : ∃ e' sc', h'.entryForToken token = some e' ∧ sc.Moved sc' ∧
    e'.conn.channel = some sc' ∧ e'.conn.state ≠ .disconnected ∧
    e'.authed = (if r.1.1 = .ok then true else e.authed) ∧
    (r.1.1 ≠ .ok → e'.playerNetId = e.playerNetId) ∧
    (r.1.1 = .ok → r.1.2.baseId ≠ 0 → U.hasBase (UInt32.ofInt r.1.2.baseId) h.world = true →
      e'.playerNetId = UInt32.ofInt r.1.2.baseId) ∧
    ∀ d ∈ ds, ∃ session : Bytes, session.length = 8 ∧
      Opens C cc d.data (resultMessage r.1.1 e'.playerNetId session)

theorem kick_leaves (h : ServerHost Key W AccountStore) (account : Nat) (token : UInt64) :
    (h.kickExistingSessionForAccount account token).accounts = h.accounts ∧
      (h.kickExistingSessionForAccount account token).world = h.world := by
  have hall : ∀ (es : List (UInt64 × ConnEntry Key)) (h : ServerHost Key W AccountStore),
      (es.foldl (fun h e => h.dropEntry e.1 e.2.endpoint) h).accounts = h.accounts ∧
        (es.foldl (fun h e => h.dropEntry e.1 e.2.endpoint) h).world = h.world := by
    intro es
    induction es with
    | nil => exact fun _ => ⟨rfl, rfl⟩
    | cons e es ih => exact fun h => ih _
  exact hall _ h

/-- An account whose base is there is bound to it. -/
theorem bindAccountBase_known (U : GameUniverse W Snap) {h : ServerHost Key W AccountStore}
    {session : SessionInfo} (hbase : session.baseId ≠ 0)
    (hthere : U.hasBase (UInt32.ofInt session.baseId) h.world = true) :
    (h.bindAccountBase U accountService session).1 = UInt32.ofInt session.baseId := by
  have hknown : (!decide (session.baseId ≠ 0 ∧
      U.hasBase (UInt32.ofInt session.baseId) h.world = true)) = false := by
    rw [decide_eq_true ⟨hbase, hthere⟩]
    rfl
  unfold bindAccountBase
  simp only [hknown, Bool.false_eq_true, if_false]

/-- Binding does not change the store. -/
theorem bindAccountBase_accounts (U : GameUniverse W Snap) (h : ServerHost Key W AccountStore)
    (session : SessionInfo) :
    (h.bindAccountBase U accountService session).2.accounts = h.accounts := by
  have hmap : h.accounts.map (accountService.setAccountBase session.accountId
      (h.bindAccountBase U accountService session).1) = h.accounts := by
    cases h.accounts <;> rfl
  unfold bindAccountBase at hmap ⊢
  simp only [] at hmap ⊢
  split
  · rename_i hfirst
    rw [if_pos hfirst] at hmap
    exact hmap
  · rename_i hfirst
    rw [if_neg hfirst] at hmap
    exact hmap

theorem onAuthMessage_answers (hC : C.Correct) (he : h.entryForToken token = some e)
    (hsc : e.conn.channel = some sc) (hmates : cc.Mates sc) (hlive : e.conn.state ≠ .disconnected)
    (hacc : h.accounts = some a) {body : Bytes} (hdec : decodeAuthRequest body = some (user, pass))
    (peer : Endpoint) :
    Answers C U h (h.onAuthMessage C U accountService token peer body).2 token e sc cc
      (h.authenticate accountService a e.endpoint (body.headD 0) user pass)
      (h.onAuthMessage C U accountService token peer body).1 := by
  unfold onAuthMessage
  simp only [he, hdec, hacc]
  generalize h.authenticate accountService a e.endpoint (body.headD 0) user pass = r
  by_cases hok : r.1.1 = .ok
  · rw [if_neg fun hne => hne hok]
    -- The connection is marked with its base, and then the result is sealed.
    have hmarked : ∀ netId : UInt32, ({ e.conn with playerNetId := netId } :
        ServerConnection Key).markConnected.channel = some sc ∧
        ({ e.conn with playerNetId := netId } : ServerConnection Key).markConnected.state ≠
          .disconnected := by
      intro netId
      unfold ServerConnection.markConnected
      split
      · exact ⟨hsc, nofun⟩
      · exact ⟨hsc, hlive⟩
    have hkicked := entryForToken_kick { h with accounts := some r.2 } r.1.2.accountId token
    generalize hb : (kickExistingSessionForAccount { h with accounts := some r.2 }
      r.1.2.accountId token).bindAccountBase U accountService r.1.2 = b
    have hbound : b.2.entryForToken token = some e := by
      have hconns := (bindAccountBase_conns U accountService
        (kickExistingSessionForAccount { h with accounts := some r.2 } r.1.2.accountId token)
        r.1.2).1
      rw [hb] at hconns
      unfold entryForToken at hkicked ⊢
      rw [hconns, hkicked]
      exact he
    have haccounts : b.2.accounts = some r.2 := by
      rw [← hb, bindAccountBase_accounts, (kick_leaves _ _ _).1]
    have hnet : r.1.2.baseId ≠ 0 → U.hasBase (UInt32.ofInt r.1.2.baseId) h.world = true →
        b.1 = UInt32.ofInt r.1.2.baseId := by
      intro hbase hthere
      rw [← hb]
      refine bindAccountBase_known U hbase ?_
      rw [(kick_leaves _ _ _).2]
      exact hthere
    have hentry := entryForToken_modify_self b.2 token fun e => { e with
      conn := ({ e.conn with playerNetId := b.1 } : ServerConnection Key).markConnected
      playerNetId := b.1, authed := true, accountId := r.1.2.accountId
      sessionToken := r.1.2.token }
    rw [hbound, Option.map_some] at hentry
    rcases sendAuthResult_spec hC hentry (hmarked b.1).1 hmates peer .ok with
      ⟨sc', hmoved, hafter, hacc', hsent⟩
    refine ⟨hacc'.trans haccounts, _, sc', hafter, hmoved, rfl, (hmarked b.1).2, ?_,
      fun hne => absurd hok hne, fun _ => hnet, ?_⟩
    · rw [if_pos hok]
    · rw [hok]
      exact hsent
  · rw [if_pos hok]
    have he' : ServerHost.entryForToken { h with accounts := some r.2 } token = some e := he
    rcases sendAuthResult_spec hC he' hsc hmates peer r.1.1 with
      ⟨sc', hmoved, hafter, hacc', hsent⟩
    refine ⟨hacc', _, sc', hafter, hmoved, rfl, hlive, ?_, fun _ => rfl, fun h => absurd h hok,
      hsent⟩
    rw [if_neg hok]

/-- The stamp and the moved channel of a connection that got a datagram. -/
theorem entryForToken_received (he : h.entryForToken token = some e)
    (conn : ServerConnection Key) :
    ((h.modify token fun e => { e with lastSeenMs := h.nowMs }).setConn token
      conn).entryForToken token = some { e with lastSeenMs := h.nowMs, conn := conn } := by
  unfold setConn
  rw [entryForToken_modify_self, entryForToken_modify_self, he]
  rfl

/-- What the host makes of a credential frame: nothing, if its number is not fresh, and else
    it answers. -/
theorem onDatagram_credential (hC : C.Correct) (he : h.entryForToken token = some e)
    (hsc : e.conn.channel = some sc) (htoken : sc.token = token) (hmates : cc.Mates sc)
    (hlive : e.conn.state ≠ .disconnected) (hacc : h.accounts = some a)
    (huser : user.length < 2 ^ 16) (hpass : pass.length < 2 ^ 16)
    (hop : isAuthOpcode opcode = true) (fresh : EcdhKeyPair) (peer : Endpoint) {d : Bytes}
    (hd : Opens C sc d (credential opcode user pass)) :
    ((h.onDatagram C U accountService fresh peer d).1 = [] ∧
      (h.onDatagram C U accountService fresh peer d).2.accounts = h.accounts ∧
      ∃ e' sc', (h.onDatagram C U accountService fresh peer d).2.entryForToken token = some e' ∧
        sc.Moved sc' ∧ e'.conn.channel = some sc' ∧ e'.conn.state ≠ .disconnected ∧
        e'.authed = e.authed ∧ e'.playerNetId = e.playerNetId) ∨
    (h.opensFrom C peer d = true ∧
      h.findsTaken C peer d = decide (opcode = authOpcodeRegister ∧ (a.find user).isSome = true) ∧
      Answers C U h (h.onDatagram C U accountService fresh peer d).2 token e sc cc
        (h.authenticate accountService a e.endpoint opcode user pass)
        (h.onDatagram C U accountService fresh peer d).1) := by
  rcases hd with ⟨rest, payload, rfl, hauth, hread⟩
  have hpeek := peekConnectionToken_of_authentic C.toICrypto sc hauth
  rw [htoken] at hpeek
  rcases ServerConnection.hears_request C e.conn hsc hmates.fromRight.hasKeys
    ⟨rest, payload, rfl, hauth, hread⟩ rfl with ⟨app, happ, sc', hmoved, hconn⟩
  have hstamped : (h.modify token fun e => { e with lastSeenMs := h.nowMs }).entryForToken token =
      some { e with lastSeenMs := h.nowMs } := by
    rw [entryForToken_modify_self, he]
    rfl
  have hrepeated : isRepeatedCookieResponse { e with lastSeenMs := h.nowMs }
      (kindEncrypted :: rest) = false := by
    unfold isRepeatedCookieResponse
    cases rest with
    | nil => exact Bool.and_false _
    | cons type body => exact Bool.and_false _
  have hreceived := entryForToken_received he { e.conn with channel := some sc' }
  generalize hh : (h.modify token fun e => { e with lastSeenMs := h.nowMs }).setConn token
    { e.conn with channel := some sc' } = h₁ at hreceived
  have hsame : h₁.accounts = h.accounts ∧ h₁.nowUnix = h.nowUnix ∧ h₁.world = h.world := by
    rw [← hh]
    exact ⟨rfl, rfl, rfl⟩
  have hrecipient : h.recipient peer (kindEncrypted :: rest) = some token := by
    unfold recipient
    simp only [if_true]
    rw [hpeek, Option.filter_some, he, if_pos Option.isSome_some]
  have hhanded : h.handed C peer (kindEncrypted :: rest) = some (token, h₁, app) := by
    unfold handed
    rw [hrecipient]
    simp only [hstamped, hrepeated, Bool.false_eq_true, if_false, hconn, hh]
  have htaken : h.findsTaken C peer (kindEncrypted :: rest) = app.any h₁.takenBy := by
    unfold findsTaken
    rw [hhanded]
  have hdatagram : h.onDatagram C U accountService fresh peer (kindEncrypted :: rest) =
      h.routeTo C U accountService token peer (kindEncrypted :: rest) := by
    unfold onDatagram
    simp only [if_true, hpeek]
    rw [he, if_pos Option.isSome_some]
  have hdispatch : dispatchToConnection C U accountService
      (h.modify token fun e => { e with lastSeenMs := h.nowMs }) token peer
        (kindEncrypted :: rest) = applyMessages C U accountService token peer h₁ app := by
    unfold dispatchToConnection
    simp only [hstamped, hrepeated, Bool.false_eq_true, if_false, hconn, hh, List.map_nil,
      List.nil_append]
  -- The connection is still alive afterwards, so that it is not removed.
  have hroute : ∀ e', (applyMessages C U accountService token peer h₁ app).2.entryForToken token =
      some e' → e'.conn.state ≠ .disconnected →
        h.onDatagram C U accountService fresh peer (kindEncrypted :: rest) =
          applyMessages C U accountService token peer h₁ app := by
    intro e' he' hlive'
    rw [hdatagram]
    unfold routeTo
    simp only [hdispatch, he']
    rw [if_neg hlive']
  rcases happ with rfl | rfl
  · left
    rw [hroute _ hreceived hlive]
    exact ⟨rfl, hsame.1, _, sc', hreceived, hmoved, rfl, hlive, rfl, rfl⟩
  · right
    have hmessage : applyMessages C U accountService token peer h₁ [credential opcode user pass] =
        ((h₁.onAuthMessage C U accountService token peer
            (encodeAuthRequest opcode user pass)).1 ++ [],
          (h₁.onAuthMessage C U accountService token peer
            (encodeAuthRequest opcode user pass)).2) := by
      have hop' : isAuthOpcode opcode = true := hop
      unfold applyMessages applyMessages applyMessage credential encodeAuthRequest
      simp only []
      rw [if_pos hop']
    have hanswers := onAuthMessage_answers (U := U) hC hreceived rfl (hmates.moved (.refl cc) hmoved)
      hlive (hsame.1.trans hacc) (decodeAuthRequest_encode opcode huser hpass) peer
    have hauthenticate : h₁.authenticate accountService a e.endpoint opcode user pass =
        h.authenticate accountService a e.endpoint opcode user pass := by
      unfold authenticate
      rw [hsame.2.1]
    have hresult : (h₁.authenticate accountService a
        ({ e with
          lastSeenMs := h.nowMs, conn := { e.conn with channel := some sc' } } :
          ConnEntry Key).endpoint ((encodeAuthRequest opcode user pass).headD 0) user pass) =
        h.authenticate accountService a e.endpoint opcode user pass := hauthenticate
    rw [hresult] at hanswers
    rcases hanswers with ⟨haccounts, e', sc'', he', hmoved', hch', hlive', hauthed, hkept, hbase,
      hsent⟩
    rw [hsame.2.2] at hbase
    rw [hroute e' (by rw [hmessage]; exact he') hlive', hmessage]
    refine ⟨by rw [opensFrom, hhanded]; rfl, ?_, haccounts, e', sc'', he', hmoved.trans hmoved',
      hch', hlive', hauthed, hkept, hbase, ?_⟩
    · rw [htaken]
      unfold takenBy credential
      rw [List.any_cons, List.any_nil, Bool.or_false, decodeAuthRequest_encode opcode huser hpass,
        hsame.1, hacc]
      unfold encodeAuthRequest AccountStore.find
      simp only [List.head?_cons, decide_true, Bool.true_and, Bool.decide_and,
        Bool.decide_eq_true, Option.some.injEq]
    · rw [List.append_nil]
      exact hsent

end ServerHost

end Host

/-! ## What the client makes of a result -/

section Client

variable {Key : Type} {C : CryptoProvider Key}

theorem validUsername_length {u : Bytes} (h : validUsername u = true) : u.length ≤ 64 := by
  unfold validUsername at h
  simp only [Bool.and_eq_true, decide_eq_true_eq] at h
  exact h.1.2

theorem validPassword_length {p : Bytes} (h : validPassword p = true) : p.length ≤ 256 := by
  unfold validPassword at h
  simp only [Bool.and_eq_true, decide_eq_true_eq] at h
  exact h.2

theorem credential_fits (opcode : UInt8) {user pass : Bytes} (huser : validUsername user = true)
    (hpass : validPassword pass = true) : FitsLength (credential opcode user pass).body := by
  have hu := validUsername_length huser
  have hp := validPassword_length hpass
  unfold FitsLength credential encodeAuthRequest putStr putU16
  simp only [List.length_cons, List.length_append, length_putLE]
  omega

namespace ClientConnection

variable {c : ClientConnection Key} {cc sc : SecureChannel Key} {session : Bytes}

/-- A credential frame is sealed for the host, or not sent at all. -/
theorem sendAuth_spec (hC : C.Correct) (hcc : c.channel = some cc) (hmates : cc.Mates sc)
    (huser : validUsername c.loginName = true) (hpass : validPassword c.password = true) :
    ∃ cc', cc.Moved cc' ∧ (c.emit (c.sendAuth C)).2 = { c with channel := some cc' } ∧
      ∀ d ∈ (c.emit (c.sendAuth C)).1.send,
        Opens C sc d (credential c.authOpcode c.loginName c.password) := by
  have hidle : c = { c with channel := some cc } := by rw [← hcc]
  unfold emit
  cases hseal : c.sendAuth C with
  | none => exact ⟨cc, .refl cc, hidle, fun d hd => absurd hd List.not_mem_nil⟩
  | some r =>
      unfold sendAuth sealOn at hseal
      rw [hcc] at hseal
      rcases Option.map_eq_some_iff.mp hseal with ⟨⟨d, cc'⟩, hmessage, heq⟩
      rcases sealMessage_opens C hC hmates.fromLeft .reliableOrdered .command _ d
        (by simp only [MsgType.Named, ne_eq, reduceCtorEq, not_false_eq_true, implies_true])
        (credential_fits c.authOpcode huser hpass) hmessage with ⟨hmoved, hopens⟩
      rw [← heq]
      refine ⟨cc', hmoved, rfl, fun d' hd' => ?_⟩
      rw [List.mem_singleton.mp hd']
      exact hopens

/-- A result is not heard, if its number is not fresh, or it is handled as it is. -/
theorem onDatagram_result (fresh : EcdhKeyPair) (hcc : c.channel = some cc)
    (hkeys : cc.hasKeys = true) {d : Bytes} {res : AuthResult} {netId : UInt32}
    (hd : Opens C cc d (resultMessage res netId session)) :
    ∃ cc', cc.Moved cc' ∧
      (c.hears C d = false ∧ c.onDatagram C fresh d = (.nothing, { c with channel := some cc' }) ∨
      c.hears C d = true ∧ ∃ r, r = ({ c with channel := some cc' } :
          ClientConnection Key).onAuthResult C (resultMessage res netId session).body ∧
        (c.onDatagram C fresh d).1.send = r.1.send ∧ (c.onDatagram C fresh d).2 = r.2) := by
  rcases hd with ⟨rest, payload, rfl, hauth, hread⟩
  rcases SecureChannel.open_fst_of_authentic C.toICrypto cc rest payload hkeys hauth with
    ⟨n, _, hfst⟩
  have hsnd := SecureChannel.open_snd C.toICrypto cc rest hkeys
  have hears_eq : c.hears C (kindEncrypted :: rest) =
      (cc.openDatagram C.toICrypto rest).1.2.isSome := by
    unfold hears
    simp only [hcc, decide_true, Bool.true_and]
  refine ⟨_, ⟨_, _, hsnd⟩, ?_⟩
  rw [hears_eq, hfst]
  by_cases hfresh : cc.replay.fresh n = true
  · right
    rw [if_pos hfresh]
    refine ⟨rfl, _, rfl, ?_, ?_⟩
    · unfold onDatagram receive
      simp only [if_neg kindEncrypted_ne, if_true, hcc, hfst, if_pos hfresh, hread,
        Option.getD_some, handleAll]
      unfold handleAppMessage resultMessage Output.append Output.nothing
      rw [if_pos ⟨rfl, rfl⟩]
      exact List.append_nil _
    · unfold onDatagram receive
      simp only [if_neg kindEncrypted_ne, if_true, hcc, hfst, if_pos hfresh, hread,
        Option.getD_some, handleAll]
      unfold handleAppMessage resultMessage
      rw [if_pos ⟨rfl, rfl⟩]
  · left
    rw [if_neg hfresh]
    refine ⟨rfl, ?_⟩
    unfold onDatagram receive
    simp only [if_neg kindEncrypted_ne, if_true, hcc, hfst, if_neg hfresh, handleAll]

/-- A client that does not wait does nothing about a result. -/
theorem onAuthResult_idle (hstate : c.state ≠ .authenticating) (body : Bytes) :
    c.onAuthResult C body = (.nothing, c) := by
  unfold onAuthResult
  rw [if_pos hstate]
  exact ite_self _

/-- The fields of a result are read back. -/
theorem resultMessage_read (res : AuthResult) (netId : UInt32) (session : Bytes) :
    (resultMessage res netId session).body.getD 1 0 = res.toByte ∧
      getU32 (resultMessage res netId session).body 2 = netId := by
  refine ⟨rfl, ?_⟩
  have h := getU32_put [authOpcodeResult, res.toByte] session netId 2 rfl
  exact h

/-- A success connects a client that waits. -/
theorem onAuthResult_ok (hstate : c.state = .authenticating) (netId : UInt32)
    (hsession : session.length = 8) :
    (c.onAuthResult C (resultMessage .ok netId session).body).1 = .nothing ∧
    (c.onAuthResult C (resultMessage .ok netId session).body).2 = { c with
      lastAuthResult := authResultOk, playerNetId := netId
      sessionToken := getU64 (resultMessage .ok netId session).body 6, state := .connected } := by
  rcases resultMessage_read .ok netId session with ⟨hres, hnet⟩
  have hlen := length_resultMessage .ok netId hsession
  unfold onAuthResult
  rw [if_neg (by rw [hlen]; decide), if_neg fun h => h hstate]
  have hbyte : AuthResult.ok.toByte = authResultOk := rfl
  simp only [hres, hnet, hbyte, if_true, true_and]

/-- A refusal makes a client that has tried to log in register the name, and one that has
    registered it waits on. -/
theorem onAuthResult_refused (hstate : c.state = .authenticating) (netId : UInt32)
    (hsession : session.length = 8)
    (hop : c.authOpcode = authOpcodeLogin ∧ c.triedRegister = false ∨
      c.authOpcode = authOpcodeRegister ∧ c.triedRegister = true) :
    c.onAuthResult C (resultMessage .invalidCredentials netId session).body =
        (.nothing, { c with lastAuthResult := authResultInvalidCredentials }) ∨
    c.onAuthResult C (resultMessage .invalidCredentials netId session).body =
      ({ c with
        lastAuthResult := authResultInvalidCredentials, triedRegister := true
        authOpcode := authOpcodeRegister } : ClientConnection Key).emit
      (({ c with
        lastAuthResult := authResultInvalidCredentials, triedRegister := true
        authOpcode := authOpcodeRegister } : ClientConnection Key).sendAuth C) := by
  rcases resultMessage_read .invalidCredentials netId session with ⟨hres, _⟩
  have hbyte : AuthResult.invalidCredentials.toByte = authResultInvalidCredentials := rfl
  have hlen := length_resultMessage .invalidCredentials netId hsession
  unfold onAuthResult
  rw [if_neg (by rw [hlen]; decide), if_neg fun h => h hstate]
  simp only [hres, hbyte]
  rw [if_neg (by decide)]
  rcases hop with ⟨hop, htried⟩ | ⟨hop, htried⟩
  · right
    rw [if_pos ⟨trivial, htried, hop⟩]
  · left
    rw [if_neg fun h => by rw [htried] at h; exact Bool.noConfusion h.2.1, if_pos ⟨trivial, hop⟩]

end ClientConnection

end Client

/-! ## Runs -/

namespace SignIn

variable {Key W Snap : Type}

/-- What everything else that happens leaves: the client's connection as it is, if it leaves
    that, and for its name the account with its password, if there was one. -/
structure Harmless (w : SignIn Key W) (host : ServerHost Key W AccountStore) : Prop where
  entry : host.entryForToken w.client.token = none ∨
    host.entryForToken w.client.token = w.host.entryForToken w.client.token
  accounts : ∀ a', host.accounts = some a' → ∃ a, w.host.accounts = some a ∧
    (a'.find w.client.loginName = none → a.find w.client.loginName = none) ∧
    (a.Holds w.client.loginName w.client.password → a'.Holds w.client.loginName w.client.password)

/-- The store is healthy when a frame arrives, and nobody else touches the client's
    connection and account. -/
def Fair (w : SignIn Key W) : SignInLabel Key W → Prop
  | .toServer _ _ => ∃ a, w.host.accounts = some a ∧
      ∀ e, w.host.entryForToken w.client.token = some e → a.Healthy e.endpoint.ip w.host.nowUnix
  | .others host => w.Harmless host
  | _ => True

/-- A client that waits for its result does not hear the answer to a register frame of its own
    that found the account. -/
def Untaken (C : CryptoProvider Key) (w : SignIn Key W) : SignInLabel Key W → Prop
  | .toClient _ reply => ¬ (w.client.state = .authenticating ∧ reply.taken = true ∧
      w.client.hears C reply.data = true)
  | _ => True

/-- A frame that opens while the connection is bound, and that does not find the name
    taken, binds it to the same base again: `Bases` has that base, and it is there. -/
def Settled (C : CryptoProvider Key) (U : GameUniverse W Snap) (peer : Endpoint)
    (w : SignIn Key W) : SignInLabel Key W → Prop
  | .toServer _ dg => w.host.opensFrom C peer dg = true → w.host.findsTaken C peer dg = false →
      ∀ a e row, w.host.accounts = some a → w.host.entryForToken w.client.token = some e →
      e.authed = true → a.find w.client.loginName = some row →
        a.db.baseOf row.accountId ≠ 0 ∧ UInt32.ofInt (a.db.baseOf row.accountId) = e.playerNetId ∧
          U.hasBase e.playerNetId w.host.world = true
  | _ => True

/-- The client has not given up, and as soon as it has heard of its base it is connected with
    the net id it was told first. -/
structure Fine (w : SignIn Key W) : Prop where
  waits : w.client.state ≠ .disconnected
  told : ∀ n, w.told.head? = some n → w.client.state = .connected ∧ w.client.playerNetId = n

/-- A client past the handshake with a new name, and maybe its first frame under way. -/
structure Ready (C : CryptoProvider Key) (w : SignIn Key W) : Prop where
  user : validUsername w.client.loginName = true
  pass : validPassword w.client.password = true
  real : w.client.realAuth = true
  opcode : w.client.authOpcode = authOpcodeLogin ∧ w.client.triedRegister = false
  state : w.client.state = .authenticating
  pair : ∃ cc sc e, w.client.channel = some cc ∧ cc.Mates sc ∧ sc.token = w.client.token ∧
    w.host.entryForToken w.client.token = some e ∧ e.conn.channel = some sc ∧
    e.conn.state ≠ .disconnected ∧ e.authed = false ∧
    ∀ d ∈ w.up, Opens C sc d (credential authOpcodeLogin w.client.loginName w.client.password)
  fresh : ∃ a, w.host.accounts = some a ∧ a.find w.client.loginName = none
  down : w.down = []
  told : w.told = []

/-- What a datagram of the host is for the client: a success with the net id that was bound
    when it was sent, a refusal of a name that nobody had, or the answer to a register frame
    that found the account. -/
def Reply.Means (C : CryptoProvider Key) (cc : SecureChannel Key) (r : Reply) : Prop :=
  ∃ res netId, ∃ session : Bytes, session.length = 8 ∧
    Opens C cc r.data (resultMessage res netId session) ∧
    (res = .ok ∧ r.bound = some netId ∨ res = .invalidCredentials ∧ r.bound = none ∨
      res = .usernameTaken ∧ r.taken = true)

/-- What the two ends are, and what every datagram under way is. -/
structure Known (C : CryptoProvider Key) (w : SignIn Key W) (cc sc : SecureChannel Key) :
    Prop where
  user : validUsername w.client.loginName = true
  pass : validPassword w.client.password = true
  real : w.client.realAuth = true
  opcode : w.client.authOpcode = authOpcodeLogin ∧ w.client.triedRegister = false ∨
    w.client.authOpcode = authOpcodeRegister ∧ w.client.triedRegister = true
  client : w.client.channel = some cc
  mates : cc.Mates sc
  token : sc.token = w.client.token
  entry : ∀ e, w.host.entryForToken w.client.token = some e →
    e.conn.channel = some sc ∧ e.conn.state ≠ .disconnected
  up : ∀ d ∈ w.up, ∃ opcode, isAuthOpcode opcode = true ∧
    Opens C sc d (credential opcode w.client.loginName w.client.password)
  down : ∀ r ∈ w.down, Reply.Means C cc r
  holds : ∀ a, w.host.accounts = some a → a.Holds w.client.loginName w.client.password
  unbound : ∀ a e, w.host.accounts = some a → a.find w.client.loginName = none →
    w.host.entryForToken w.client.token = some e → e.authed = false
  phase : w.client.state = .authenticating ∧ w.told = [] ∨
    w.client.state = .connected ∧ w.told.head? = some w.client.playerNetId

variable {C : CryptoProvider Key} {U : GameUniverse W Snap} {peer : Endpoint} {w : SignIn Key W}
  {host : ServerHost Key W AccountStore} {n : Option UInt32}

theorem Known.fine {cc sc : SecureChannel Key} (hw : w.Known C cc sc) :
    w.Fine := by
  rcases hw.phase with ⟨hstate, htold⟩ | ⟨hstate, htold⟩
  · refine ⟨by rw [hstate]; decide, fun n hn => ?_⟩
    rw [htold, List.head?_nil] at hn
    exact absurd hn nofun
  · refine ⟨by rw [hstate]; decide, fun n hn => ⟨hstate, ?_⟩⟩
    rw [htold, Option.some.injEq] at hn
    exact hn

theorem Ready.known (hw : w.Ready C) : ∃ cc sc, w.Known C cc sc := by
  rcases hw.pair with ⟨cc, sc, e, hcc, hmates, htoken, he, hsc, hlive, hauthed, hup⟩
  rcases hw.fresh with ⟨a, hacc, hnone⟩
  have hself : ∀ e', w.host.entryForToken w.client.token = some e' → e' = e := fun e' he' =>
    Option.some.inj (he'.symm.trans he)
  refine ⟨cc, sc, hw.user, hw.pass, hw.real, .inl hw.opcode, hcc, hmates, htoken, fun e' he' => ?_,
    fun d hd => ⟨_, rfl, hup d hd⟩, fun r hr => ?_, fun a' ha' => ?_, fun a' e' ha' _ he' => ?_,
    .inl ⟨hw.state, hw.told⟩⟩
  · rw [hself e' he']
    exact ⟨hsc, hlive⟩
  · rw [hw.down] at hr
    exact absurd hr List.not_mem_nil
  · rw [hacc, Option.some.injEq] at ha'
    rw [← ha']
    exact AccountStore.holds_of_none hnone
  · rw [hself e' he']
    exact hauthed

/-! ## Steps -/

theorem Reply.Means.moved {cc cc' : SecureChannel Key} {r : Reply} (h : Reply.Means C cc r)
    (hmoved : cc.Moved cc') : Reply.Means C cc' r := by
  rcases h with ⟨res, netId, session, hsession, hopens, hres⟩
  exact ⟨res, netId, session, hsession, hopens.moved C hmoved, hres⟩

/-- The client has moved its channel, and sent credential frames. -/
theorem Known.withClient {cc sc cc' : SecureChannel Key}
    (hw : w.Known C cc sc) {client : ClientConnection Key} {sent : List Bytes}
    {told : List UInt32} (hmoved : cc.Moved cc') (hcc : client.channel = some cc')
    (hname : client.loginName = w.client.loginName) (hpassword : client.password = w.client.password)
    (hreal : client.realAuth = w.client.realAuth) (htoken : client.token = w.client.token)
    (hop : client.authOpcode = authOpcodeLogin ∧ client.triedRegister = false ∨
      client.authOpcode = authOpcodeRegister ∧ client.triedRegister = true)
    (hsent : ∀ d ∈ sent, ∃ opcode, isAuthOpcode opcode = true ∧
      Opens C sc d (credential opcode w.client.loginName w.client.password))
    (hphase : client.state = .authenticating ∧ told = [] ∨
      client.state = .connected ∧ told.head? = some client.playerNetId) :
    Known C { w with client := client, up := w.up ++ sent, told := told } cc' sc where
  user := by
    show validUsername client.loginName = true
    rw [hname]
    exact hw.user
  pass := by
    show validPassword client.password = true
    rw [hpassword]
    exact hw.pass
  real := hreal.trans hw.real
  opcode := hop
  client := hcc
  mates := hw.mates.moved hmoved (.refl sc)
  token := hw.token.trans htoken.symm
  entry := by
    show ∀ e, w.host.entryForToken client.token = some e → _
    rw [htoken]
    exact hw.entry
  up := by
    show ∀ d ∈ w.up ++ sent, ∃ opcode, isAuthOpcode opcode = true ∧
      Opens C sc d (credential opcode client.loginName client.password)
    rw [hname, hpassword]
    intro d hd
    rcases List.mem_append.mp hd with hold | hnew
    · exact hw.up d hold
    · exact hsent d hnew
  down := fun r hr => (hw.down r hr).moved hmoved
  holds := by
    show ∀ a, w.host.accounts = some a → a.Holds client.loginName client.password
    rw [hname, hpassword]
    exact hw.holds
  unbound := by
    show ∀ a e, w.host.accounts = some a → a.find client.loginName = none →
      w.host.entryForToken client.token = some e → e.authed = false
    rw [hname, htoken]
    exact hw.unbound
  phase := hphase

theorem isAuthOpcode_of {op : UInt8} (h : op = authOpcodeLogin ∨ op = authOpcodeRegister) :
    isAuthOpcode op = true := by
  rcases h with rfl | rfl
  · rfl
  · rfl

theorem Known.resend (hC : C.Correct) {cc sc : SecureChannel Key}
    (hw : w.Known C cc sc) : ∃ cc', Known C { w with
      client := (w.client.resendPending C).2
      up := w.up ++ (w.client.resendPending C).1.send } cc' sc := by
  unfold ClientConnection.resendPending ClientConnection.sendLogin
  rcases hw.phase with ⟨hstate, htold⟩ | ⟨hstate, htold⟩
  · rw [if_neg (by rw [hstate]; decide), if_pos hstate, if_pos hw.real]
    rcases ClientConnection.sendAuth_spec hC hw.client hw.mates hw.user hw.pass with
      ⟨cc', hmoved, hclient, hsent⟩
    rw [hclient]
    refine ⟨cc', hw.withClient hmoved rfl rfl rfl rfl rfl hw.opcode (fun d hd => ?_)
      (.inl ⟨hstate, htold⟩)⟩
    refine ⟨_, isAuthOpcode_of ?_, hsent d hd⟩
    exact hw.opcode.imp And.left And.left
  · rw [if_neg (by rw [hstate]; decide), if_neg (by rw [hstate]; decide)]
    exact ⟨cc, hw.withClient (.refl cc) hw.client rfl rfl rfl rfl hw.opcode
      (fun d hd => absurd hd List.not_mem_nil) (.inr ⟨hstate, htold⟩)⟩

theorem Known.others {cc sc : SecureChannel Key} (hw : w.Known C cc sc)
    (hharmless : w.Harmless host) :
    Known C { w with host := host } cc sc := by
  have hold : ∀ e, host.entryForToken w.client.token = some e →
      w.host.entryForToken w.client.token = some e := by
    intro e he
    rcases hharmless.entry with hnone | hsame
    · rw [hnone] at he
      exact absurd he nofun
    · exact hsame.symm.trans he
  refine ⟨hw.user, hw.pass, hw.real, hw.opcode, hw.client, hw.mates, hw.token,
    fun e he => hw.entry e (hold e he), hw.up, hw.down, fun a' ha' => ?_,
    fun a' e ha' hnone he => ?_, hw.phase⟩
  · rcases hharmless.accounts a' ha' with ⟨a, ha, _, hholds⟩
    exact hholds (hw.holds a ha)
  · rcases hharmless.accounts a' ha' with ⟨a, ha, hfind, _⟩
    exact hw.unbound a e ha (hfind hnone) (hold e he)

/-- The host has moved the channel of the connection, and sent results. -/
theorem Known.withHost {cc sc sc' : SecureChannel Key}
    (hw : w.Known C cc sc) {e' : ConnEntry Key}
    {a' : AccountStore} {replies : List Reply} (hmoved : sc.Moved sc')
    (he' : host.entryForToken w.client.token = some e') (hsc' : e'.conn.channel = some sc')
    (hlive : e'.conn.state ≠ .disconnected) (hacc : host.accounts = some a')
    (hholds : a'.Holds w.client.loginName w.client.password)
    (hunbound : a'.find w.client.loginName = none → e'.authed = false)
    (hreplies : ∀ r ∈ replies, Reply.Means C cc r) :
    Known C { w with host := host, down := w.down ++ replies } cc sc' where
  user := hw.user
  pass := hw.pass
  real := hw.real
  opcode := hw.opcode
  client := hw.client
  mates := hw.mates.moved (.refl cc) hmoved
  token := by
    rcases hmoved with ⟨_, _, rfl⟩
    exact hw.token
  entry := by
    intro e he
    rw [Option.some.inj (he.symm.trans he')]
    exact ⟨hsc', hlive⟩
  up := by
    intro d hd
    rcases hw.up d hd with ⟨opcode, hop, hopens⟩
    exact ⟨opcode, hop, hopens.moved C hmoved⟩
  down := by
    intro r hr
    rcases List.mem_append.mp hr with hold | hnew
    · exact hw.down r hold
    · exact hreplies r hnew
  holds := by
    intro a ha
    rw [Option.some.inj (ha.symm.trans hacc)]
    exact hholds
  unbound := by
    intro a e ha hnone he
    rw [Option.some.inj (ha.symm.trans hacc)] at hnone
    rw [Option.some.inj (he.symm.trans he')]
    exact hunbound hnone
  phase := hw.phase

/-- What the host answered is known for what it is. -/
theorem replies_mean {cc sc : SecureChannel Key}
    {token : UInt64} {e : ConnEntry Key} {r : (AuthResult × SessionInfo) × AccountStore}
    {ds : List OutDatagram} {old : ServerHost Key W AccountStore}
    (h : ServerHost.Answers C U old host token e sc cc r ds) {taken : Bool}
    (hres : r.1.1 = .ok ∨ r.1.1 = .invalidCredentials ∧ e.authed = false ∨
      r.1.1 = .usernameTaken ∧ taken = true) :
    ∀ x ∈ (ds.filter fun d => d.dest = peer).map fun d =>
      (⟨d.data, host.boundNetId token, taken⟩ : Reply), Reply.Means C cc x := by
  intro x hx
  rcases List.mem_map.mp hx with ⟨d, hd, rfl⟩
  rcases h.entry with ⟨e', sc', he', _, _, _, hauthed, _, _, hsent⟩
  rcases hsent d (List.mem_of_mem_filter hd) with ⟨session, hsession, hopens⟩
  have hbound : host.boundNetId token = if e'.authed then some e'.playerNetId else none := by
    unfold ServerHost.boundNetId
    rw [he']
    rfl
  refine ⟨r.1.1, e'.playerNetId, session, hsession, hopens, ?_⟩
  rcases hres with hok | ⟨hrefused, hnot⟩ | htaken
  · refine .inl ⟨hok, ?_⟩
    rw [hbound, hauthed, if_pos hok, if_pos rfl]
  · have hne : ¬ r.1.1 = .ok := by
      rw [hrefused]
      simp only [reduceCtorEq, not_false_eq_true]
    refine .inr (.inl ⟨hrefused, ?_⟩)
    rw [hbound, hauthed, if_neg hne, hnot, if_neg Bool.false_ne_true]
  · exact .inr (.inr htaken)

/-- What a frame makes of the connection's binding: nothing, or it is bound; and if it was
    bound before, then by a login, which binds it to the base of the account. -/
def Rebinds (C : CryptoProvider Key) (U : GameUniverse W Snap) (peer : Endpoint)
    (w : SignIn Key W) (dg : Bytes) (e e' : ConnEntry Key) : Prop :=
  e'.authed = e.authed ∧ e'.playerNetId = e.playerNetId ∨
    e'.authed = true ∧ w.host.opensFrom C peer dg = true ∧ (e.authed = true →
      w.host.findsTaken C peer dg = false ∧ ∃ a row, w.host.accounts = some a ∧
      a.find w.client.loginName = some row ∧ (a.db.baseOf row.accountId ≠ 0 →
        U.hasBase (UInt32.ofInt (a.db.baseOf row.accountId)) w.host.world = true →
        e'.playerNetId = UInt32.ofInt (a.db.baseOf row.accountId)))

theorem Known.toServer (U : GameUniverse W Snap) (peer : Endpoint) (hC : C.Correct)
    {cc sc : SecureChannel Key} (hw : w.Known C cc sc) (fresh : EcdhKeyPair) {dg : Bytes} (hd : dg ∈ w.up)
    (hfair : w.Fair (.toServer fresh dg)) : (∃ sc', Known C { w with
      host := (w.host.onDatagram C U accountService fresh peer dg).2
      down := w.down ++ ((w.host.onDatagram C U accountService fresh peer dg).1.filter fun d =>
        d.dest = peer).map fun d => (⟨d.data, (w.host.onDatagram C U accountService fresh peer
          dg).2.boundNetId w.client.token, w.host.findsTaken C peer dg⟩ : Reply) } cc sc') ∧
      ∀ e', (w.host.onDatagram C U accountService fresh peer dg).2.entryForToken w.client.token =
        some e' → ∃ e, w.host.entryForToken w.client.token = some e ∧
          w.Rebinds C U peer dg e e' := by
  rcases hw.up dg hd with ⟨opcode, hop, hopens⟩
  cases he : w.host.entryForToken w.client.token with
  | none =>
      rcases hopens with ⟨rest, payload, rfl, hauth, _⟩
      have hpeek := peekConnectionToken_of_authentic C.toICrypto sc hauth
      have hdropped : w.host.onDatagram C U accountService fresh peer (kindEncrypted :: rest) =
          ([], w.host) := by
        unfold ServerHost.onDatagram
        simp only [if_true, hpeek, hw.token, he, Option.isSome_none, Bool.false_eq_true, if_false]
      rw [hdropped]
      refine ⟨⟨sc, ?_⟩, fun e' he' => ?_⟩
      · simp only [List.filter_nil, List.map_nil, List.append_nil]
        exact hw
      · rw [he] at he'
        exact absurd he' nofun
  | some e =>
      rcases hfair with ⟨a, hacc, hroom⟩
      rcases hw.entry e he with ⟨hsc, hlive⟩
      have huser : w.client.loginName.length < 2 ^ 16 :=
        Nat.lt_of_le_of_lt (validUsername_length hw.user) (by decide)
      have hpass : w.client.password.length < 2 ^ 16 :=
        Nat.lt_of_le_of_lt (validPassword_length hw.pass) (by decide)
      have hholds := hw.holds a hacc
      rcases ServerHost.onDatagram_credential (U := U) hC he hsc hw.token hw.mates hlive hacc
        huser hpass hop fresh peer hopens with
        ⟨hnone, hsame, e', sc', he', hmoved, hsc', hlive', hauthed, hnet⟩ |
        ⟨hopened, htaken, hanswers⟩
      · refine ⟨⟨sc', hw.withHost hmoved he' hsc' hlive' (hsame.trans hacc) hholds
          (fun hfind => hauthed.trans (hw.unbound a e hacc hfind he)) fun r hr => ?_⟩,
          fun e'' he'' => ⟨e, rfl, .inl ?_⟩⟩
        · rw [hnone] at hr
          exact absurd hr List.not_mem_nil
        · rw [Option.some.inj (he''.symm.trans he')]
          exact ⟨hauthed, hnet⟩
      · rcases hanswers.entry with ⟨e', sc', he', hmoved, hsc', hlive', hauthed, hkept, hbase, _⟩
        -- The name is known, and then the frame logs in or is taken; or it is not.
        cases hknown : (a.find w.client.loginName).isSome with
        | true =>
            rcases ServerHost.authenticate_known opcode hw.user hw.pass (hroom e he) hholds
              hknown with ⟨hres, hholds', hknown', hrow⟩
            refine ⟨⟨sc', hw.withHost hmoved he' hsc' hlive' hanswers.accounts hholds'
              (fun hfind => ?_) (replies_mean hanswers ?_)⟩, fun e'' he'' => ⟨e, rfl, ?_⟩⟩
            · rw [hfind] at hknown'
              exact absurd hknown' Bool.false_ne_true
            · rw [htaken]
              by_cases hreg : opcode = authOpcodeRegister
              · rw [if_pos hreg] at hres
                exact .inr (.inr ⟨hres, decide_eq_true ⟨hreg, hknown⟩⟩)
              · rw [if_neg hreg] at hres
                exact .inl hres
            · rw [Option.some.inj (he''.symm.trans he')]
              by_cases hreg : opcode = authOpcodeRegister
              · rw [if_pos hreg] at hres
                rw [hres] at hauthed hkept
                exact .inl ⟨hauthed, hkept nofun⟩
              · rw [if_neg hreg] at hres
                rcases hrow hreg with ⟨row, hfind, hbaseId⟩
                rw [hres, if_pos rfl] at hauthed
                rw [hbaseId] at hbase
                refine .inr ⟨hauthed, hopened, fun _ => ⟨?_, a, row, hacc, hfind, hbase hres⟩⟩
                rw [htaken]
                exact decide_eq_false fun h => hreg h.1
        | false =>
            have hfind : a.find w.client.loginName = none := by
              rw [← Option.not_isSome_iff_eq_none, hknown]
              exact Bool.false_ne_true
            have hnot := hw.unbound a e hacc hfind he
            rcases ServerHost.authenticate_unknown opcode hw.user hw.pass (hroom e he) hfind with
              ⟨hholds', hregister, hlogin⟩
            refine ⟨⟨sc', hw.withHost hmoved he' hsc' hlive' hanswers.accounts hholds'
              (fun hfind' => ?_) (replies_mean hanswers ?_)⟩, fun e'' he'' => ⟨e, rfl, ?_⟩⟩
            · by_cases hreg : opcode = authOpcodeRegister
              · rcases hregister hreg with ⟨_, hknown'⟩
                rw [hfind'] at hknown'
                exact absurd hknown' Bool.false_ne_true
              · rw [hauthed, (hlogin hreg).1, if_neg nofun]
                exact hnot
            · by_cases hreg : opcode = authOpcodeRegister
              · exact .inl (hregister hreg).1
              · exact .inr (.inl ⟨(hlogin hreg).1, hnot⟩)
            · rw [Option.some.inj (he''.symm.trans he')]
              by_cases hreg : opcode = authOpcodeRegister
              · rw [(hregister hreg).1, if_pos rfl] at hauthed
                refine .inr ⟨hauthed, hopened, fun h => ?_⟩
                rw [hnot] at h
                exact absurd h Bool.false_ne_true
              · rw [(hlogin hreg).1] at hauthed hkept
                exact .inl ⟨hauthed, hkept nofun⟩

/-- The client makes of a result what it should: it waits on, or is connected. -/
theorem Known.toClient (hC : C.Correct) {cc sc : SecureChannel Key}
    (hw : w.Known C cc sc) (fresh : EcdhKeyPair) {reply : Reply} (hr : reply ∈ w.down)
    (huntaken : w.Untaken C (.toClient fresh reply)) : ∃ cc', Known C { w with
      client := (w.client.onDatagram C fresh reply.data).2
      up := w.up ++ (w.client.onDatagram C fresh reply.data).1.send
      told := w.told ++ if w.client.hears C reply.data then reply.bound.toList else [] } cc' sc := by
  rcases hw.down reply hr with ⟨res, netId, session, hsession, hopens, hmeans⟩
  rcases ClientConnection.onDatagram_result fresh hw.client hw.mates.fromLeft.hasKeys hopens with
    ⟨cc', hmoved, ⟨hdeaf, hsame⟩ | ⟨hopened, r, hr', hsend, hclient⟩⟩
  · rw [hsame, hdeaf, if_neg Bool.false_ne_true, List.append_nil]
    exact ⟨cc', hw.withClient hmoved rfl rfl rfl rfl rfl hw.opcode
      (fun d hd => absurd hd List.not_mem_nil) hw.phase⟩
  · rw [hsend, hclient, hopened, if_pos rfl]
    rcases hw.phase with ⟨hstate, htold⟩ | ⟨hstate, htold⟩
    · rw [htold, List.nil_append]
      rcases hmeans with ⟨rfl, hbound⟩ | ⟨rfl, hbound⟩ | ⟨_, htaken⟩
      · -- A success: the client is connected with the net id in it.
        have hok := ClientConnection.onAuthResult_ok (C := C)
          (c := { w.client with channel := some cc' }) hstate netId hsession
        rw [hr', hok.1, hok.2, hbound]
        exact ⟨cc', hw.withClient hmoved rfl rfl rfl rfl rfl hw.opcode
          (fun d hd => absurd hd List.not_mem_nil) (.inr ⟨rfl, rfl⟩)⟩
      · -- A refusal: the client registers its name, or waits on.
        rw [hbound]
        rcases ClientConnection.onAuthResult_refused (C := C)
          (c := { w.client with channel := some cc' }) hstate netId hsession hw.opcode with
          hidle | hregister
        · rw [hr', hidle]
          exact ⟨cc', hw.withClient hmoved rfl rfl rfl rfl rfl hw.opcode
            (fun d hd => absurd hd List.not_mem_nil) (.inl ⟨hstate, rfl⟩)⟩
        · rcases ClientConnection.sendAuth_spec hC
            (c := { w.client with
              channel := some cc', lastAuthResult := authResultInvalidCredentials
              triedRegister := true, authOpcode := authOpcodeRegister }) rfl
            (hw.mates.moved hmoved (.refl sc)) hw.user hw.pass with ⟨cc'', hmoved', hafter, hsent⟩
          rw [hr', hregister, hafter]
          exact ⟨cc'', hw.withClient (hmoved.trans hmoved') rfl rfl rfl rfl rfl (.inr ⟨rfl, rfl⟩)
            (fun d hd => ⟨_, rfl, hsent d hd⟩) (.inl ⟨hstate, rfl⟩)⟩
      · exact absurd ⟨hstate, htaken, hopened⟩ huntaken
    · -- The client is connected already.
      have hidle := ClientConnection.onAuthResult_idle (C := C)
        (c := { w.client with channel := some cc' })
        (by rw [hstate]; simp only [ne_eq, reduceCtorEq, not_false_eq_true])
        (resultMessage res netId session).body
      have hfirst : (w.told ++ reply.bound.toList).head? = some w.client.playerNetId := by
        rw [List.head?_append, htold, Option.some_or]
      rw [hr', hidle]
      exact ⟨cc', hw.withClient hmoved rfl rfl rfl rfl rfl hw.opcode
        (fun d hd => absurd hd List.not_mem_nil) (.inr ⟨hstate, hfirst⟩)⟩

theorem Known.step (hC : C.Correct) {w w' : SignIn Key W} {cc sc : SecureChannel Key}
    (hw : w.Known C cc sc) {l : SignInLabel Key W} (hfair : w.Fair l) (huntaken : w.Untaken C l)
    (h : w.step C U peer l = some w') : ∃ cc' sc', w'.Known C cc' sc' := by
  unfold SignIn.step at h
  cases l with
  | resend =>
      rw [Option.some.injEq] at h
      rcases hw.resend hC with ⟨cc', hw'⟩
      exact ⟨cc', sc, h ▸ hw'⟩
  | toServer fresh dg =>
      simp only [Option.ite_none_right_eq_some, Option.some.injEq] at h
      rcases (Known.toServer U peer hC hw fresh h.1 hfair).1 with ⟨sc', hw'⟩
      exact ⟨cc, sc', h.2 ▸ hw'⟩
  | toClient fresh reply =>
      simp only [Option.ite_none_right_eq_some, Option.some.injEq] at h
      rcases hw.toClient hC fresh h.1 huntaken with ⟨cc', hw'⟩
      exact ⟨cc', sc, h.2 ▸ hw'⟩
  | others host =>
      rw [Option.some.injEq] at h
      exact ⟨cc, sc, h ▸ hw.others hfair⟩

/-! ## The net id -/

/-- One net id: the connection is bound to it, and every datagram sent while it was bound
    carries it. -/
structure Named (w : SignIn Key W) (n : Option UInt32) : Prop where
  entry : ∀ e, w.host.entryForToken w.client.token = some e →
    n = if e.authed then some e.playerNetId else none
  down : ∀ r ∈ w.down, ∀ m, r.bound = some m → n = some m
  told : ∀ m ∈ w.told, n = some m

theorem boundNetId_named {token : UInt64}
    (h : ∀ e, host.entryForToken token = some e →
      n = if e.authed then some e.playerNetId else none) {m : UInt32}
    (hm : host.boundNetId token = some m) : n = some m := by
  unfold ServerHost.boundNetId at hm
  rcases Option.bind_eq_some_iff.mp hm with ⟨e, he, hbound⟩
  exact (h e he).trans hbound

theorem Named.toServer (hC : C.Correct) {cc sc : SecureChannel Key}
    (hw : w.Known C cc sc) (hn : w.Named n) (fresh : EcdhKeyPair) {dg : Bytes}
    (hd : dg ∈ w.up) (hfair : w.Fair (.toServer fresh dg))
    (hsettled : w.Settled C U peer (.toServer fresh dg)) : ∃ n', Named { w with
      host := (w.host.onDatagram C U accountService fresh peer dg).2
      down := w.down ++ ((w.host.onDatagram C U accountService fresh peer dg).1.filter fun d =>
        d.dest = peer).map fun d => (⟨d.data, (w.host.onDatagram C U accountService fresh peer
          dg).2.boundNetId w.client.token, w.host.findsTaken C peer dg⟩ : Reply) } n' := by
  have hrebinds := (Known.toServer U peer hC hw fresh hd hfair).2
  generalize w.host.onDatagram C U accountService fresh peer dg = r at hrebinds
  have hgoal : ∀ n', (∀ e', r.2.entryForToken w.client.token = some e' →
      n' = if e'.authed then some e'.playerNetId else none) → (∀ m, n = some m → n' = some m) →
      Named { w with
        host := r.2
        down := w.down ++ (r.1.filter fun d => d.dest = peer).map fun d =>
          (⟨d.data, r.2.boundNetId w.client.token, w.host.findsTaken C peer dg⟩ : Reply) } n' := by
    intro n' hentry hkept
    refine ⟨hentry, fun x hx m hm => ?_, fun m hm => hkept m (hn.told m hm)⟩
    rcases List.mem_append.mp hx with hold | hnew
    · exact hkept m (hn.down x hold m hm)
    · rcases List.mem_map.mp hnew with ⟨d, _, rfl⟩
      exact boundNetId_named hentry hm
  cases hr : r.2.entryForToken w.client.token with
  | none =>
      refine ⟨n, hgoal n (fun e' he' => ?_) fun _ hm => hm⟩
      rw [hr] at he'
      exact absurd he' nofun
  | some e' =>
      rcases hrebinds e' hr with ⟨e, he, hcase⟩
      refine ⟨_, hgoal (if e'.authed then some e'.playerNetId else none) (fun e'' he'' => ?_)
        fun m hm => ?_⟩
      · rw [Option.some.inj (he''.symm.trans hr)]
      · rw [hn.entry e he] at hm
        rcases hcase with ⟨hauthed, hnet⟩ | ⟨hauthed, hopened, hagain⟩
        · rw [hauthed, hnet]
          exact hm
        · -- The connection was bound, and the login binds it to its base again.
          have hbound : e.authed = true := by
            by_contra hnot
            rw [if_neg hnot] at hm
            exact absurd hm nofun
          rcases hagain hbound with ⟨hfree, a, row, hacc, hfind, hbase⟩
          rcases hsettled hopened hfree a e row hacc he hbound hfind with ⟨hset, hsame, hthere⟩
          rw [if_pos hbound, Option.some.injEq] at hm
          rw [← hsame] at hthere
          rw [if_pos hauthed, hbase hset hthere, hsame, hm]

theorem Named.step (hC : C.Correct) {w w' : SignIn Key W} {cc sc : SecureChannel Key}
    (hw : w.Known C cc sc) (hn : w.Named n) {l : SignInLabel Key W}
    (hfair : w.Fair l) (huntaken : w.Untaken C l) (hsettled : w.Settled C U peer l)
    (h : w.step C U peer l = some w') : ∃ n', w'.Named n' := by
  unfold SignIn.step at h
  cases l with
  | resend =>
      rw [Option.some.injEq] at h
      rcases hw.resend hC with ⟨cc', hw'⟩
      have htoken := hw'.token.symm.trans hw.token
      refine ⟨n, h ▸ ⟨?_, hn.down, hn.told⟩⟩
      rw [show (w.client.resendPending C).2.token = w.client.token from htoken]
      exact hn.entry
  | toServer fresh dg =>
      simp only [Option.ite_none_right_eq_some, Option.some.injEq] at h
      rcases hn.toServer hC hw fresh h.1 hfair hsettled with ⟨n', hn'⟩
      exact ⟨n', h.2 ▸ hn'⟩
  | toClient fresh reply =>
      simp only [Option.ite_none_right_eq_some, Option.some.injEq] at h
      rcases hw.toClient hC fresh h.1 huntaken with ⟨cc', hw'⟩
      have htoken := hw'.token.symm.trans hw.token
      refine ⟨n, h.2 ▸ ⟨?_, hn.down, fun m hm => ?_⟩⟩
      · rw [show (w.client.onDatagram C fresh reply.data).2.token = w.client.token from htoken]
        exact hn.entry
      · rcases List.mem_append.mp hm with hold | hnew
        · exact hn.told m hold
        · split at hnew
          · exact hn.down reply h.1 m (Option.mem_toList.mp hnew)
          · exact absurd hnew List.not_mem_nil
  | others host =>
      rw [Option.some.injEq] at h
      refine ⟨n, h ▸ ⟨fun e he => ?_, hn.down, hn.told⟩⟩
      rcases hfair.entry with hnone | hsame
      · exact absurd (hnone.symm.trans he) nofun
      · exact hn.entry e (hsame.symm.trans he)

theorem Ready.named (hw : w.Ready C) : w.Named none := by
  rcases hw.pair with ⟨_, _, e, _, _, _, he, _, _, hauthed, _⟩
  refine ⟨fun e' he' => ?_, fun r hr => ?_, fun m hm => ?_⟩
  · rw [Option.some.inj (he'.symm.trans he), hauthed, if_neg Bool.false_ne_true]
  · rw [hw.down] at hr
    exact absurd hr List.not_mem_nil
  · rw [hw.told] at hm
    exact absurd hm List.not_mem_nil

/-- The client has not given up, and whatever it has heard of its base, it is connected with
    that net id, and the host has no other. -/
structure Right (w : SignIn Key W) : Prop where
  waits : w.client.state ≠ .disconnected
  told : ∀ n ∈ w.told, w.client.state = .connected ∧ w.client.playerNetId = n ∧
    ∀ m, w.host.boundNetId w.client.token = some m → m = n

theorem Known.right {cc sc : SecureChannel Key} (hw : w.Known C cc sc)
    (hn : w.Named n) : w.Right := by
  refine ⟨hw.fine.waits, fun m hm => ?_⟩
  rcases List.exists_cons_of_ne_nil (List.ne_nil_of_mem hm) with ⟨first, rest, hlist⟩
  have hfirst : first ∈ w.told := by
    rw [hlist]
    exact List.mem_cons_self
  have hsame : first = m := Option.some.inj ((hn.told first hfirst).symm.trans (hn.told m hm))
  rcases hw.fine.told first (by rw [hlist]; rfl) with ⟨hstate, hnet⟩
  refine ⟨hstate, hnet.trans hsame, fun m' hm' => ?_⟩
  exact Option.some.inj ((boundNetId_named hn.entry hm').symm.trans (hn.told m hm))

/-- In every run in which a waiting client does not hear that its own name is taken, it does
    not give up, and it is connected as soon as it hears of its base. If its frames do not
    bind it anew, it is connected with the one net id of its connection. -/
theorem never_gives_up (U : GameUniverse W Snap) (peer : Endpoint) (hC : C.Correct)
    {w₀ w : SignIn Key W} (hready : w₀.Ready C) :
    (Reaches (step C U peer) (fun w l => w.Fair l ∧ w.Untaken C l) w₀ w → w.Fine) ∧
    (Reaches (step C U peer) (fun w l => w.Fair l ∧ w.Untaken C l ∧ w.Settled C U peer l) w₀ w →
      w.Right) := by
  refine ⟨fun h => ?_, fun h => ?_⟩
  · have hinv := h.invariant (I := fun w => ∃ cc sc, w.Known C cc sc)
      (fun _ _ _ ⟨_, _, hw⟩ hguard hstep => hw.step hC hguard.1 hguard.2 hstep) hready.known
    rcases hinv with ⟨cc, sc, hw⟩
    exact hw.fine
  · rcases hready.known with ⟨cc₀, sc₀, h₀⟩
    have hinv := h.invariant (I := fun w => (∃ cc sc, w.Known C cc sc) ∧ ∃ n, w.Named n)
      (fun w l w' hw hguard hstep => by
        rcases hw with ⟨⟨cc, sc, hw⟩, n, hn⟩
        exact ⟨hw.step hC hguard.1 hguard.2.1 hstep,
          hn.step hC hw hguard.1 hguard.2.1 hguard.2.2 hstep⟩)
      ⟨⟨cc₀, sc₀, h₀⟩, none, hready.named⟩
    rcases hinv with ⟨⟨cc, sc, hw⟩, n, hn⟩
    exact hw.right hn

/-! ## Two runs -/

/-- A client with a new name, past the handshake, and its connection at the host. -/
def sampleSignIn : SignIn UInt8 (List UInt32) where
  host :=
    { (ServerHost.start [] [] 0 [] (some (sampleStore [])) none false :
        ServerHost UInt8 (List UInt32) AccountStore) with
      conns := [(7, {
        conn := sampleServer, endpoint := samplePeer, handle := ⟨0, 0, true⟩, lastSeenMs := 0
        playerNetId := 0, authed := false, accountId := 0
        sessionToken := List.Vector.replicate 32 0 })] }
  client :=
    { sampleClient with
      state := .authenticating, loginName := [110, 101, 119], password := List.replicate 8 98
      realAuth := true }
  up := []
  down := []
  told := []

theorem sampleSignIn_ready : sampleSignIn.Ready sampleProvider where
  user := rfl
  pass := rfl
  real := rfl
  opcode := ⟨rfl, rfl⟩
  state := rfl
  pair := by
    refine ⟨SecureChannel.client, SecureChannel.server, _, rfl,
      ⟨⟨rfl, rfl, rfl, rfl⟩, ⟨rfl, rfl, rfl, rfl⟩⟩, rfl, rfl, rfl, ?_, rfl, ?_⟩
    · decide
    · exact fun _ hd => absurd hd List.not_mem_nil
  fresh := ⟨sampleStore [], rfl, by decide⟩
  down := rfl
  told := rfl

/-- The store is healthy, and nothing else happens. -/
def Calm (w : SignIn UInt8 (List UInt32)) : SignInLabel UInt8 (List UInt32) → Prop
  | .toServer _ _ => (w.host.accounts.any fun a =>
      (w.host.entryForToken w.client.token).all fun e =>
        decide (a.Healthy e.endpoint.ip w.host.nowUnix)) = true
  | .others _ => False
  | _ => True

/-- And a frame arrives only before the connection is bound, and no name is taken. -/
def Plain (w : SignIn UInt8 (List UInt32)) : SignInLabel UInt8 (List UInt32) → Prop
  | .toServer _ _ => ((w.host.entryForToken w.client.token).all fun e => !e.authed) = true
  | .toClient _ reply => reply.taken = false
  | _ => True

instance (w : SignIn UInt8 (List UInt32)) (l : SignInLabel UInt8 (List UInt32)) :
    Decidable (Calm w l) :=
  match l with
  | .toServer _ _ => inferInstanceAs (Decidable (_ = true))
  | .others _ => .isFalse id
  | .resend => .isTrue trivial
  | .toClient _ _ => .isTrue trivial

instance (w : SignIn UInt8 (List UInt32)) (l : SignInLabel UInt8 (List UInt32)) :
    Decidable (Plain w l) :=
  match l with
  | .toServer _ _ => inferInstanceAs (Decidable (_ = true))
  | .toClient _ reply => inferInstanceAs (Decidable (reply.taken = false))
  | .resend => .isTrue trivial
  | .others _ => .isTrue trivial

theorem Calm.fair {w : SignIn UInt8 (List UInt32)} {l : SignInLabel UInt8 (List UInt32)}
    (h : Calm w l) : w.Fair l := by
  cases l with
  | toServer fresh dg =>
      rcases (Option.any_eq_true _ _).mp h with ⟨a, ha, hall⟩
      refine ⟨a, ha, fun e he => ?_⟩
      rw [he, Option.all_some, decide_eq_true_eq] at hall
      exact hall
  | others host => exact h.elim
  | resend => trivial
  | toClient fresh reply => trivial

theorem Plain.settled {w : SignIn UInt8 (List UInt32)} {l : SignInLabel UInt8 (List UInt32)}
    (h : Plain w l) : w.Untaken sampleProvider l ∧
      w.Settled sampleProvider sampleUniverse samplePeer l := by
  cases l with
  | toServer fresh dg =>
      refine ⟨trivial, fun _ _ a e row _ he hauthed => ?_⟩
      have hnot : ((w.host.entryForToken w.client.token).all fun e => !e.authed) = true := h
      rw [he, Option.all_some, hauthed] at hnot
      exact absurd hnot Bool.false_ne_true
  | toClient fresh reply =>
      refine ⟨fun htaken => ?_, trivial⟩
      have hnot : reply.taken = false := h
      rw [hnot] at htaken
      exact absurd htaken.2.1 Bool.false_ne_true
  | resend => exact ⟨trivial, trivial⟩
  | others host => exact ⟨trivial, trivial⟩

/-- The `n`-th frame arrives. -/
def frameArrives (n : Nat) (w : SignIn UInt8 (List UInt32)) :
    Option (SignInLabel UInt8 (List UInt32)) :=
  w.up[n]?.map (.toServer (sampleKeyPair 0))

/-- The `n`-th answer arrives. -/
def answerArrives (n : Nat) (w : SignIn UInt8 (List UInt32)) :
    Option (SignInLabel UInt8 (List UInt32)) :=
  w.down[n]?.map (.toClient (sampleKeyPair 0))

/-- The client logs in, registers its name, and is connected with its base. -/
theorem never_gives_up_signsIn : ∃ w, w.Right ∧ w.Fine ∧ w.told = [1] ∧
    Reaches (step sampleProvider sampleUniverse samplePeer)
      (fun w l => w.Fair l ∧ w.Untaken sampleProvider l ∧
        w.Settled sampleProvider sampleUniverse samplePeer l) sampleSignIn w := by
  rcases exists_of_runChosen
    (m := step sampleProvider sampleUniverse samplePeer) (G := fun w l => Calm w l ∧ Plain w l)
    (s := sampleSignIn) (b := fun w => w.told = [1])
    [fun _ => some .resend, frameArrives 0, answerArrives 0, frameArrives 1, answerArrives 1]
    (by decide +kernel) with ⟨w, hw, htold⟩
  have hrun := hw.mono fun _ _ h => (⟨h.1.fair, h.2.settled⟩ : _ ∧ _)
  have hfine := never_gives_up sampleUniverse samplePeer SecureChannel.checksumCrypto_correct
    sampleSignIn_ready (w := w)
  exact ⟨w, hfine.2 hrun, hfine.1 (hrun.mono fun _ _ h => ⟨h.1, h.2.1⟩), of_decide_eq_true htold,
    hrun⟩

/-- The client sends its register frame again before it is answered. The answer to the second
    overtakes the answer to the first, and the client gives up. -/
theorem taken_by_itself : sampleSignIn.Ready sampleProvider ∧ ∃ w,
    Reaches (step sampleProvider sampleUniverse samplePeer) Fair sampleSignIn w ∧
    w.client.state = .disconnected ∧ w.host.boundNetId w.client.token = some 1 := by
  rcases exists_of_runChosen
    (m := step sampleProvider sampleUniverse samplePeer) (G := Calm)
    (s := sampleSignIn)
    (b := fun w => decide (w.client.state = .disconnected) &&
      decide (w.host.boundNetId w.client.token = some 1))
    [fun _ => some .resend, frameArrives 0, answerArrives 0, fun _ => some .resend,
      frameArrives 1, frameArrives 2, answerArrives 2]
    (by decide +kernel) with ⟨w, hw, htest⟩
  rw [Bool.and_eq_true, decide_eq_true_eq, decide_eq_true_eq] at htest
  exact ⟨sampleSignIn_ready, w, hw.mono fun _ _ h => h.fair, htest⟩

end SignIn

end Net

end EarthRise
