import EarthRise.Theory.HostOutput
import EarthRise.Theory.RoutingRun

/-!
# The Tokens a Host Issues

A token is the counter of accepted connections, mixed. The mixer is a bijection of the words of
64 bits, so two tokens are the same exactly where the counters are, and the counter moves by one
with every connection that is accepted and with nothing else. It comes around after `2 ^ 64`.

`Issuing` is the host with the tokens it has issued so far, the oldest first.

## Main definitions

* `Issuing`, `Issuing.step`: The host, and its tokens.
* `Issuing.Counted`: The tokens are the mixed numbers from one on.

## Theorems

* `routeTo_counter`, `broadcastSnapshots_counter` and so on: Nothing else moves the counter.
* `Counted.step`: One step of the host.
* `tokens_distinct`: The first `2 ^ 64` tokens of a host are distinct.
-/

namespace EarthRise

namespace Net

open Run Persist

/-! ## The counter -/

namespace ServerHost

variable {Key W Snap A : Type} (C : CryptoProvider Key) (U : GameUniverse W Snap)
  (S : AccountService A)

@[simp] theorem modify_counter (h : ServerHost Key W A) (t : UInt64)
    (f : ConnEntry Key → ConnEntry Key) : (h.modify t f).tokenCounter = h.tokenCounter := rfl

@[simp] theorem setConn_counter (h : ServerHost Key W A) (t : UInt64)
    (conn : ServerConnection Key) : (h.setConn t conn).tokenCounter = h.tokenCounter := rfl

@[simp] theorem dropEntry_counter (h : ServerHost Key W A) (t : UInt64) (a : Endpoint) :
    (h.dropEntry t a).tokenCounter = h.tokenCounter := rfl

@[simp] theorem removeConnection_counter (h : ServerHost Key W A) (t : UInt64) :
    (h.removeConnection U t).tokenCounter = h.tokenCounter := by
  unfold removeConnection
  cases h.entryForToken t with
  | none => rfl
  | some e => rfl

@[simp] theorem removeAll_counter (ts : List UInt64) (h : ServerHost Key W A) :
    (ts.foldl (fun h t => h.removeConnection U t) h).tokenCounter = h.tokenCounter := by
  induction ts generalizing h with
  | nil => rfl
  | cons t ts ih => rw [List.foldl_cons, ih, removeConnection_counter]

@[simp] theorem kick_counter (h : ServerHost Key W A) (accountId : Nat) (keepToken : UInt64) :
    (h.kickExistingSessionForAccount accountId keepToken).tokenCounter = h.tokenCounter := by
  have hall : ∀ (es : List (UInt64 × ConnEntry Key)) (h : ServerHost Key W A),
      (es.foldl (fun h e => h.dropEntry e.1 e.2.endpoint) h).tokenCounter = h.tokenCounter := by
    intro es
    induction es with
    | nil => exact fun _ => rfl
    | cons e es ih => exact fun h => (ih _).trans (dropEntry_counter h e.1 e.2.endpoint)
  exact hall _ h

@[simp] theorem bindAccountBase_counter (h : ServerHost Key W A) (session : SessionInfo) :
    (h.bindAccountBase U S session).2.tokenCounter = h.tokenCounter := by
  unfold bindAccountBase
  simp only []
  split
  · rfl
  · rfl

@[simp] theorem sendAuthResult_counter (h : ServerHost Key W A) (t : UInt64) (peer : Endpoint)
    (res : AuthResult) : (h.sendAuthResult C t peer res).2.tokenCounter = h.tokenCounter := by
  unfold sendAuthResult
  cases h.entryForToken t with
  | none => rfl
  | some e =>
      simp only []
      split
      · rfl
      · rfl

theorem onAuthMessage_counter (h : ServerHost Key W A) (t : UInt64) (peer : Endpoint)
    (body : Bytes) : (h.onAuthMessage C U S t peer body).2.tokenCounter = h.tokenCounter := by
  unfold onAuthMessage
  cases h.entryForToken t with
  | none => rfl
  | some e =>
      cases decodeAuthRequest body with
      | none => simp only [sendAuthResult_counter]
      | some cred =>
          cases h.accounts with
          | none => simp only [sendAuthResult_counter]
          | some accounts =>
              simp only []
              -- A login that fails is answered, one that succeeds signs the entry in as well.
              split
              · simp only [sendAuthResult_counter]
              · simp only [sendAuthResult_counter, modify_counter, bindAccountBase_counter,
                  kick_counter]

theorem applyMessage_counter (h : ServerHost Key W A) (t : UInt64) (peer : Endpoint)
    (m : DecodedMessage) : (h.applyMessage C U S t peer m).2.tokenCounter = h.tokenCounter := by
  unfold applyMessage
  split
  · split
    · rfl
    · split
      · exact onAuthMessage_counter C U S h t peer m.body
      · rfl
  · split
    · rfl
    · split
      · rfl
      · rfl
  · rfl

theorem applyMessages_counter (t : UInt64) (peer : Endpoint) (ms : List DecodedMessage)
    (h : ServerHost Key W A) :
    (applyMessages C U S t peer h ms).2.tokenCounter = h.tokenCounter := by
  induction ms generalizing h with
  | nil => rfl
  | cons m ms ih => exact (ih _).trans (applyMessage_counter C U S h t peer m)

theorem routeTo_counter (h : ServerHost Key W A) (t : UInt64) (peer : Endpoint) (dg : Bytes) :
    (h.routeTo C U S t peer dg).2.tokenCounter = h.tokenCounter := by
  have hdispatch : ∀ h : ServerHost Key W A,
      (h.dispatchToConnection C U S t peer dg).2.tokenCounter = h.tokenCounter := by
    intro h
    unfold dispatchToConnection
    cases h.entryForToken t with
    | none => rfl
    | some e =>
        simp only []
        split
        · rfl
        · exact applyMessages_counter C U S t peer _ _
  unfold routeTo
  simp only []
  split
  · exact hdispatch _
  · split
    · exact (removeConnection_counter U _ t).trans (hdispatch _)
    · exact hdispatch _

theorem broadcastSnapshots_counter (h : ServerHost Key W A) :
    (h.broadcastSnapshots C U).2.tokenCounter = h.tokenCounter := by
  have hone : ∀ (h : ServerHost Key W A) (id : UInt32) (snap : Snap),
      (h.sendSnapshot C U id snap).2.tokenCounter = h.tokenCounter := by
    intro h id snap
    unfold sendSnapshot
    split
    · rfl
    · split
      · rfl
      · simp only []
        split
        · rfl
        · rfl
  have hall : ∀ (ss : List (UInt32 × Snap)) (h : ServerHost Key W A),
      (sendSnapshots C U h ss).2.tokenCounter = h.tokenCounter := by
    intro ss
    induction ss with
    | nil => exact fun _ => rfl
    | cons s ss ih => exact fun h => (ih _).trans (hone h s.1 s.2)
  exact hall _ _

/-- A datagram that opens no connection. -/
theorem onDatagram_counter (fresh : EcdhKeyPair) (h : ServerHost Key W A) (src : Endpoint)
    (dg : Bytes) (hnot : h.opensConnection C src dg = false) :
    (h.onDatagram C U S fresh src dg).2.tokenCounter = h.tokenCounter := by
  match dg with
  | [] => rfl
  | kind :: rest =>
      unfold onDatagram
      simp only []
      by_cases henc : kind = kindEncrypted
      · rw [if_pos henc]
        cases peekConnectionToken (kind :: rest) with
        | none => rfl
        | some t =>
            simp only []
            split
            · exact routeTo_counter C U S h t src (kind :: rest)
            · rfl
      · rw [if_neg henc]
        by_cases hclear : kind = kindClearHandshake
        · rw [if_neg (fun h => h hclear)]
          cases rest with
          | nil => rfl
          | cons type body =>
              simp only []
              cases hroute : h.routeOf src with
              | some t => exact routeTo_counter C U S h t src (kind :: type :: body)
              | none =>
                  -- Nobody's datagram: only a cookie response with a good cookie is accepted.
                  unfold onStateless
                  cases htype : MsgType.ofByte type with
                  | clientHello =>
                      simp only []
                      split
                      · rfl
                      · rfl
                  | cookieResponse =>
                      simp only []
                      cases hcr : decodeCookieResponse body with
                      | none => rfl
                      | some cr =>
                          simp only []
                          by_cases hv : C.verifyCookie h.serverSecret src.addrBytes cr.cookie = false
                          · rw [if_pos hv]
                          · unfold opensConnection at hnot
                            simp only [hclear, hroute, htype, hcr, decide_true, Option.isNone_none,
                              Bool.true_and, Option.any_some] at hnot
                            exact absurd hnot hv
                  | _ => rfl
        · rw [if_pos hclear]

end ServerHost

/-! ## Runs -/

/-- A host, and the tokens it has issued. -/
structure Issuing (Key W A : Type) where
  host : ServerHost Key W A
  tokens : List UInt64

namespace Issuing

variable {Key W Snap A : Type} (C : CryptoProvider Key) (U : GameUniverse W Snap)
  (S : AccountService A)

/-- The token that a step issues. -/
def issued (h : ServerHost Key W A) : HostLabel W A → List UInt64
  | .datagram _ src dg => if h.opensConnection C src dg = true then [h.nextToken] else []
  | _ => []

def step (w : Issuing Key W A) (l : HostLabel W A) : Option (Issuing Key W A) :=
  (w.host.step C U S l).map fun h => ⟨h, w.tokens ++ issued C w.host l⟩

/-- A host that has just started. -/
def start (staticPriv serverSecret : Bytes) (serverTime : UInt64) (w : W) (accounts : Option A)
    (persist : Option (List SimEvent)) (devAuthStub : Bool) : Issuing Key W A :=
  ⟨.start staticPriv serverSecret serverTime w accounts persist devAuthStub, []⟩

/-- The tokens are the mixed numbers from one on, and the counter is the last of these. -/
structure Counted (w : Issuing Key W A) : Prop where
  counter : w.host.tokenCounter = UInt64.ofNat w.tokens.length
  tokens : w.tokens = (List.range w.tokens.length).map fun k =>
    ServerHost.mixToken (UInt64.ofNat (k + 1))

variable {C U S}

/-- A step that issues nothing. -/
theorem Counted.silent {w : Issuing Key W A} (hw : w.Counted) {h : ServerHost Key W A}
    (hcounter : h.tokenCounter = w.host.tokenCounter) : Counted ⟨h, w.tokens ++ []⟩ := by
  rw [List.append_nil]
  exact ⟨hcounter.trans hw.counter, hw.tokens⟩

/-- A step that accepts a connection. -/
theorem Counted.accepted {w : Issuing Key W A} (hw : w.Counted) {h : ServerHost Key W A}
    (hcounter : h.tokenCounter = w.host.tokenCounter + 1) :
    Counted ⟨h, w.tokens ++ [w.host.nextToken]⟩ := by
  have hnext : w.host.tokenCounter + 1 = UInt64.ofNat (w.tokens.length + 1) := by
    rw [hw.counter, UInt64.ofNat_add]
    rfl
  have hlength : (w.tokens ++ [w.host.nextToken]).length = w.tokens.length + 1 :=
    List.length_append
  refine ⟨?_, ?_⟩
  · show h.tokenCounter = UInt64.ofNat (w.tokens ++ [w.host.nextToken]).length
    rw [hcounter, hnext, hlength]
  · show w.tokens ++ [w.host.nextToken] = _
    rw [hlength, List.range_succ, List.map_append, ← hw.tokens]
    unfold ServerHost.nextToken
    rw [hnext]
    rfl

theorem Counted.step {w w' : Issuing Key W A} (hw : w.Counted) (l : HostLabel W A)
    (hstep : w.step C U S l = some w') : w'.Counted := by
  unfold Issuing.step at hstep
  rw [Option.map_eq_some_iff] at hstep
  rcases hstep with ⟨h', hhost, rfl⟩
  cases l with
  | datagram fresh src dg =>
      rw [ServerHost.step, Option.some.injEq] at hhost
      rw [issued, ← hhost]
      by_cases hopens : w.host.opensConnection C src dg = true
      · rw [if_pos hopens, ServerHost.onDatagram_opens C U S fresh w.host src dg hopens]
        exact hw.accepted (Metered.accept_counter C U fresh w.host src (dg.drop 2)).1
      · rw [if_neg hopens]
        rw [Bool.not_eq_true] at hopens
        exact hw.silent (ServerHost.onDatagram_counter C U S fresh w.host src dg hopens)
  | broadcast =>
      rw [ServerHost.step, Option.some.injEq] at hhost
      rw [← hhost]
      exact hw.silent (ServerHost.broadcastSnapshots_counter C U w.host)
  | prune timeoutMs =>
      rw [ServerHost.step, Option.some.injEq] at hhost
      rw [← hhost]
      exact hw.silent (ServerHost.removeAll_counter U _ w.host)
  | setClock nowMs =>
      rw [ServerHost.step] at hhost
      by_cases hnow : w.host.nowMs ≤ nowMs
      · rw [if_pos hnow, Option.some.injEq] at hhost
        rw [← hhost]
        exact hw.silent rfl
      · rw [if_neg hnow] at hhost
        cases hhost
  | setUnixTime nowUnix =>
      rw [ServerHost.step, Option.some.injEq] at hhost
      rw [← hhost]
      exact hw.silent rfl
  | setDilation f =>
      rw [ServerHost.step, Option.some.injEq] at hhost
      rw [← hhost]
      exact hw.silent rfl
  | outside u accounts persist =>
      rw [ServerHost.step, Option.some.injEq] at hhost
      rw [← hhost]
      exact hw.silent rfl

theorem mixed_nodup (n : Nat) (hn : n ≤ 2 ^ 64) :
    ((List.range n).map fun k => ServerHost.mixToken (UInt64.ofNat (k + 1))).Nodup := by
  refine List.Nodup.map_on (fun k hk j hj heq => ?_) List.nodup_range
  rw [List.mem_range] at hk hj
  have hsame := congrArg UInt64.toNat (ServerHost.mixToken_injective heq)
  rw [UInt64.toNat_ofNat', UInt64.toNat_ofNat'] at hsame
  omega

/-- Different counters give different tokens, and in every run of a host the first `2 ^ 64`
    tokens that it issues are distinct. -/
theorem tokens_distinct (staticPriv serverSecret : Bytes) (serverTime : UInt64) (u : W)
    (accounts : Option A) (persist : Option (List SimEvent)) (devAuthStub : Bool)
    {w : Issuing Key W A} (hreach : Reaches (Issuing.step C U S) free
      (start staticPriv serverSecret serverTime u accounts persist devAuthStub) w) :
    Function.Injective ServerHost.mixToken ∧ (w.tokens.take (2 ^ 64)).Nodup := by
  have hw : w.Counted :=
    hreach.invariant (fun _ l _ hw _ hstep => hw.step l hstep) ⟨rfl, rfl⟩
  refine ⟨ServerHost.mixToken_injective, ?_⟩
  rw [hw.tokens, ← List.map_take, List.take_range]
  exact mixed_nodup _ (Nat.min_le_left _ _)

/-- Two clients connect. -/
theorem two_tokens_distinct :
    ∃ w : Issuing UInt8 (List UInt32 × Nat) AccountStore,
      Reaches (Issuing.step sampleProvider sampleUniverse.counted accountService) free
        (start [] [] 0 ([], 0) (some (sampleStore [(1, 1)])) none false) w ∧
      w.tokens.length = 2 ∧
      Function.Injective ServerHost.mixToken ∧ (w.tokens.take (2 ^ 64)).Nodup := by
  have hrun : ((runLabels (Issuing.step sampleProvider sampleUniverse.counted accountService)
      (start [] [] 0 ([], 0) (some (sampleStore [(1, 1)])) none false)
      (connectAndSend samplePeer 1 [loginFrame] ++
        connectAndSend Metered.otherPeer 2 [loginFrame])).any fun w =>
          w.tokens.length = 2) = true := by
    decide +kernel
  rcases exists_of_runLabels _ hrun with ⟨w, hreach, hw⟩
  rw [decide_eq_true_eq] at hw
  exact ⟨w, hreach, hw, tokens_distinct [] [] 0 ([], 0) (some (sampleStore [(1, 1)])) none false
    hreach⟩

end Issuing

end Net

end EarthRise
