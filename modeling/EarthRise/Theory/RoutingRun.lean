import EarthRise.Theory.Handshake
import EarthRise.Theory.LoginState
import EarthRise.Theory.Routing

/-!
# The Routing Tables in Every Run

The wiring is good at the start, every step of the host keeps it so, and it says that the
tables agree. Two things can go wrong, and both take many connections. The counter comes
around after `2 ^ 64` were accepted. And a slot has a number of 32 bits, so of `2 ^ 32`
connections and one more that are open at one time two share a slot; where one of them is
closed the handle of the other is bad.

## Main definitions

* `Metered`, `Metered.step`: The host, and how many connections it accepted.
* `Metered.Few`: At most `2 ^ 32` are open.
* `Crowded`: So many are open, from addresses that are counted up.

## Theorems

* `Sane.step`: A step keeps the wiring good.
* `consistent_run`: The tables of the host agree in every run.
* `shared_slot`: A run in which a handle is bad.
-/

namespace EarthRise

namespace Net

open Run Persist

/-! ## Runs -/

/-- A host, and how many connections it has accepted: each moves the counter, and nothing
    else does. -/
structure Metered (Key W A : Type) where
  host : ServerHost Key W A
  accepts : Nat

namespace Metered

variable {Key W Snap A : Type} (C : CryptoProvider Key) (U : GameUniverse W Snap)
  (S : AccountService A)

def step (m : Metered Key W A) (l : HostLabel W A) : Option (Metered Key W A) :=
  (m.host.step C U S l).map fun h =>
    ⟨h, m.accepts + if h.tokenCounter = m.host.tokenCounter then 0 else 1⟩

/-- At most `2 ^ 32` connections are open after the step. -/
def Few (m : Metered Key W A) (l : HostLabel W A) : Prop :=
  ∀ m', m.step C U S l = some m' → m'.host.conns.length ≤ 2 ^ 32

/-- The wiring is good, and the counter is the number of accepted connections. -/
structure Sane (m : Metered Key W A) : Prop where
  good : m.host.wiring.Good
  counter : m.host.tokenCounter.toNat = m.accepts

variable {C U S} {h : ServerHost UInt8 (List UInt32) Unit} {n : Nat}

theorem Sane.tidy {m : Metered Key W A} (hm : m.Sane) {h : ServerHost Key W A}
    (htidy : ServerHost.Tidy m.host h) :
    Sane ⟨h, m.accepts + if h.tokenCounter = m.host.tokenCounter then 0 else 1⟩ := by
  rcases htidy hm.good with ⟨hw, hcounter⟩
  rw [if_pos hcounter]
  exact ⟨hw, (congrArg UInt64.toNat hcounter).trans hm.counter⟩

/-- Accepting moves the counter. -/
theorem accept_counter (C : CryptoProvider Key) (U : GameUniverse W Snap) (fresh : EcdhKeyPair)
    (h : ServerHost Key W A) (src : Endpoint) (body : Bytes) :
    (h.accept C U fresh src body).2.tokenCounter = h.tokenCounter + 1 ∧
      (h.accept C U fresh src body).2.tokenCounter ≠ h.tokenCounter := by
  have hcounter : (h.accept C U fresh src body).2.tokenCounter = h.tokenCounter + 1 := by
    unfold ServerHost.accept
    cases h.devAuthStub <;> rfl
  refine ⟨hcounter, ?_⟩
  rw [hcounter]
  intro hsame
  have hone := congrArg (fun x => x - h.tokenCounter) hsame
  simp only [UInt64.add_comm _ 1, UInt64.add_sub_cancel, UInt64.sub_self] at hone
  exact absurd hone (by decide)

/-- An accepted connection: the token is new, and there is room for it. -/
theorem Sane.accepted {m : Metered Key W A} (hm : m.Sane) (fresh : EcdhKeyPair) {src : Endpoint}
    {body : Bytes} (hroute : m.host.routeOf src = none)
    (hmore : (m.accepts + if (m.host.accept C U fresh src body).2.tokenCounter =
      m.host.tokenCounter then 0 else 1) < 2 ^ 64)
    (hfew : (m.host.accept C U fresh src body).2.conns.length ≤ 2 ^ 32) :
    Sane ⟨(m.host.accept C U fresh src body).2, m.accepts +
      if (m.host.accept C U fresh src body).2.tokenCounter = m.host.tokenCounter then 0 else 1⟩ := by
  rcases accept_counter C U fresh m.host src body with ⟨hcounter, hmoved⟩
  rw [if_neg hmoved] at hmore ⊢
  have hnext : m.host.tokenCounter.toNat + 1 < 2 ^ 64 := by
    rw [hm.counter]
    exact hmore
  have hnew : m.host.entryForToken (ServerHost.mixToken (m.host.tokenCounter + 1)) = none := by
    have h := Wiring.lookup_none_of_not_mem (hm.good.fresh hnext)
    rw [ServerHost.lookup_wires, Option.map_eq_none_iff] at h
    exact h
  have hwiring := ServerHost.accept_wiring C U fresh src body hnew
  have hsrc : m.host.wiring.addrToToken src = none := by
    cases haddr : m.host.addrToToken src with
    | none => exact haddr
    | some t =>
        rcases (ServerHost.consistent_of_good hm.good).routed src t haddr with ⟨e, he, _⟩
        unfold ServerHost.routeOf at hroute
        rw [haddr, Option.filter_some, he, if_pos Option.isSome_some] at hroute
        exact absurd hroute nofun
  have hroom : m.host.wiring.wires.length < 2 ^ 32 := by
    have hlength : (m.host.accept C U fresh src body).2.wiring.wires.length =
        m.host.wiring.wires.length + 1 := by
      rw [hwiring]
      exact List.length_append
    have hopen : (m.host.accept C U fresh src body).2.wiring.wires.length =
        (m.host.accept C U fresh src body).2.conns.length := List.length_map _
    omega
  refine ⟨?_, ?_⟩
  · show (m.host.accept C U fresh src body).2.wiring.Good
    rw [hwiring]
    exact hm.good.enter hnext hroom hsrc
  · show (m.host.accept C U fresh src body).2.tokenCounter.toNat = m.accepts + 1
    rw [hcounter, UInt64.toNat_add, ← hm.counter]
    exact Nat.mod_eq_of_lt hnext

theorem Sane.step {m m' : Metered Key W A} (hm : m.Sane) (l : HostLabel W A)
    (hfew : Few C U S m l) (hstep : m.step C U S l = some m') (hmore : m'.accepts < 2 ^ 64) :
    m'.Sane := by
  have hopen := hfew m' hstep
  unfold Metered.step at hstep
  rw [Option.map_eq_some_iff] at hstep
  rcases hstep with ⟨h', hhost, rfl⟩
  cases l with
  | datagram fresh src dg =>
      rw [ServerHost.step, Option.some.injEq] at hhost
      rcases ServerHost.onDatagram_cases C U S fresh m.host src dg with
        ⟨t, e, _, _, heq⟩ | ⟨_, heq | ⟨body, hroute, heq⟩⟩
      · refine hm.tidy ?_
        rw [← hhost, heq]
        exact ServerHost.routeTo_tidy C U S m.host t src dg
      · refine hm.tidy ?_
        rw [← hhost, heq]
        exact ServerHost.Tidy.refl m.host
      · rw [← hhost, heq] at hmore hopen ⊢
        exact hm.accepted fresh hroute hmore hopen
  | broadcast =>
      rw [ServerHost.step, Option.some.injEq] at hhost
      refine hm.tidy ?_
      rw [← hhost]
      exact ServerHost.broadcastSnapshots_tidy C U m.host
  | prune timeoutMs =>
      rw [ServerHost.step, Option.some.injEq] at hhost
      refine hm.tidy ?_
      rw [← hhost]
      exact ServerHost.pruneStale_tidy U m.host timeoutMs
  | setClock nowMs =>
      rw [ServerHost.step] at hhost
      by_cases hnow : m.host.nowMs ≤ nowMs
      · rw [if_pos hnow, Option.some.injEq] at hhost
        refine hm.tidy ?_
        rw [← hhost]
        exact .of_eq rfl
      · rw [if_neg hnow] at hhost
        cases hhost
  | setDilation f =>
      rw [ServerHost.step, Option.some.injEq] at hhost
      refine hm.tidy ?_
      rw [← hhost]
      exact ServerHost.setDilationFactor_tidy m.host f
  | setUnixTime nowUnix =>
      rw [ServerHost.step, Option.some.injEq] at hhost
      refine hm.tidy ?_
      rw [← hhost]
      exact .of_eq rfl
  | outside u accounts persist =>
      rw [ServerHost.step, Option.some.injEq] at hhost
      refine hm.tidy ?_
      rw [← hhost]
      exact .of_eq rfl

/-- A host that has just started. -/
def start (staticPriv serverSecret : Bytes) (serverTime : UInt64) (w : W) (accounts : Option A)
    (persist : Option (List SimEvent)) (devAuthStub : Bool) : Metered Key W A :=
  ⟨.start staticPriv serverSecret serverTime w accounts persist devAuthStub, 0⟩

theorem sane_start (staticPriv serverSecret : Bytes) (serverTime : UInt64) (w : W)
    (accounts : Option A) (persist : Option (List SimEvent)) (devAuthStub : Bool) :
    (start staticPriv serverSecret serverTime w accounts persist devAuthStub :
      Metered Key W A).Sane where
  good := by
    refine ⟨ConnectionTable.sound_empty, rfl, fun t ht => ?_, fun t x hx => ?_,
      fun a t ha => ?_, fun t x hx => ?_, fun t t' x y hx => ?_⟩
    · exact absurd ht List.not_mem_nil
    · exact absurd hx (by simp only [reduceCtorEq, not_false_eq_true, Assoc.lookup_nil,
        ServerHost.wiring, start, ServerHost.start, List.map_nil])
    · exact absurd ha (by simp only [reduceCtorEq, not_false_eq_true,
        ServerHost.wiring, start, ServerHost.start])
    · exact absurd hx (by simp only [reduceCtorEq, not_false_eq_true, Assoc.lookup_nil,
        ServerHost.wiring, start, ServerHost.start, List.map_nil])
    · exact absurd hx (by simp only [reduceCtorEq, not_false_eq_true, Assoc.lookup_nil,
        ServerHost.wiring, start, ServerHost.start, List.map_nil])
  counter := rfl

/-- In every run of the host in which fewer than `2 ^ 64` connections are accepted and at most
    `2 ^ 32` are open at one time, its tables agree. -/
theorem consistent_run (staticPriv serverSecret : Bytes) (serverTime : UInt64) (w : W)
    (accounts : Option A) (persist : Option (List SimEvent)) (devAuthStub : Bool)
    {m : Metered Key W A} (hreach : Reaches (Metered.step C U S) (Few C U S)
      (start staticPriv serverSecret serverTime w accounts persist devAuthStub) m)
    (hmore : m.accepts < 2 ^ 64) : m.host.Consistent := by
  have hsane : m.accepts < 2 ^ 64 → m.Sane := by
    refine hreach.invariant (I := fun m => m.accepts < 2 ^ 64 → m.Sane)
      (fun m l m' hm hfew hstep hlt => ?_) fun _ => sane_start _ _ _ _ _ _ _
    refine (hm ?_).step l hfew hstep hlt
    unfold Metered.step at hstep
    rw [Option.map_eq_some_iff] at hstep
    rcases hstep with ⟨h', _, rfl⟩
    exact Nat.lt_of_le_of_lt (Nat.le_add_right _ _) hlt
  exact ServerHost.consistent_of_good (hsane hmore).good

instance (m : Metered Key W A) (l : HostLabel W A) : Decidable (Few C U S m l) :=
  decidable_of_iff (((m.step C U S l).all fun m' => m'.host.conns.length ≤ 2 ^ 32) = true) (by
    unfold Few
    cases m.step C U S l with
    | none => simp only [Option.all_none, reduceCtorEq, false_implies, implies_true]
    | some m' => simp only [Option.all_some, decide_eq_true_eq, Option.some.injEq, forall_eq'])

def otherPeer : Endpoint := ⟨[10, 0, 0, 2], 4000⟩

/-- Two clients log in to one account, and the first one is dropped. -/
theorem consistent_run_kick :
    ∃ m : Metered UInt8 (List UInt32 × Nat) AccountStore,
      Reaches (Metered.step sampleProvider sampleUniverse.counted accountService)
        (Few sampleProvider sampleUniverse.counted accountService)
        (start [] [] 0 ([], 0) (some (sampleStore [(1, 1)])) none false) m ∧
      m.accepts = 2 ∧ m.host.conns.length = 1 ∧ m.host.Consistent := by
  have hrun : ((runGuarded (Metered.step sampleProvider sampleUniverse.counted accountService)
      (Few sampleProvider sampleUniverse.counted accountService)
      (start [] [] 0 ([], 0) (some (sampleStore [(1, 1)])) none false)
      (connectAndSend samplePeer 1 [loginFrame] ++
        connectAndSend otherPeer 2 [loginFrame])).any fun m =>
          m.accepts = 2 ∧ m.host.conns.length = 1) = true := by
    decide +kernel
  rcases exists_of_runGuarded _ hrun with ⟨m, hreach, hm⟩
  rw [decide_eq_true_eq] at hm
  refine ⟨m, hreach, hm.1, hm.2, ?_⟩
  refine consistent_run [] [] 0 ([], 0) (some (sampleStore [(1, 1)])) none false hreach ?_
  rw [hm.1]
  decide

/-! ## Too many connections -/

/-- Addresses that are counted up. -/
def peerAt (i : Nat) : Endpoint := ⟨putU32 (UInt32.ofNat (i / 2 ^ 16)), UInt16.ofNat i⟩

theorem peerAt_injective {i j : Nat} (hi : i < 2 ^ 48) (hj : j < 2 ^ 48)
    (h : peerAt i = peerAt j) : i = j := by
  unfold peerAt at h
  rw [Endpoint.mk.injEq] at h
  have hread : ∀ v : UInt32, getU32 (putU32 v) 0 = v := by
    intro v
    have h := getU32_put [] [] v 0 rfl
    rwa [List.nil_append, List.append_nil] at h
  have hip := congrArg (fun b => (getU32 b 0).toNat) h.1
  simp only [hread] at hip
  have hport := congrArg UInt16.toNat h.2
  rw [UInt32.toNat_ofNat_of_lt' (by
    show i / 2 ^ 16 < 2 ^ 32
    omega), UInt32.toNat_ofNat_of_lt' (by
    show j / 2 ^ 16 < 2 ^ 32
    omega)] at hip
  rw [UInt16.toNat_ofNat', UInt16.toNat_ofNat'] at hport
  omega

section

variable {W Snap A : Type} (U : GameUniverse W Snap) (S : AccountService A)

/-- The cookie response of a new address is accepted. -/
theorem onDatagram_opening {h : ServerHost UInt8 W A} (hsecret : h.serverSecret = [])
    (fresh : EcdhKeyPair) {src : Endpoint} (hsrc : h.addrToToken src = none) :
    (h.onDatagram sampleProvider U S fresh src
        (makeHandshakeDatagram .cookieResponse (openingBody src).encode)).2 =
      (h.accept sampleProvider U fresh src (openingBody src).encode).2 := by
  have hroute : h.routeOf src = none := by
    unfold ServerHost.routeOf
    rw [hsrc]
    rfl
  have hcookie : sampleProvider.verifyCookie [] src.addrBytes (openingBody src).cookie = true :=
    decide_eq_true rfl
  have htype : MsgType.ofByte MsgType.cookieResponse.toByte = .cookieResponse := rfl
  unfold ServerHost.onDatagram makeHandshakeDatagram
  simp only []
  rw [if_neg (by decide), if_neg (by decide), hroute]
  unfold ServerHost.onStateless
  rw [htype]
  simp only [decodeCookieResponse_encode]
  rw [hsecret, hcookie, if_neg (by decide)]

/-- A clock request that is cut ends the connection of its address. -/
theorem onDatagram_cut (h : ServerHost UInt8 W A) (fresh : EcdhKeyPair) {src : Endpoint}
    {token : UInt64} {e : ConnEntry UInt8} (haddr : h.addrToToken src = some token)
    (he : h.entryForToken token = some e) :
    (h.onDatagram sampleProvider U S fresh src
      (makeHandshakeDatagram .clockSyncRequest [])).2.wiring = h.wiring.drop token e.endpoint := by
  have hroute : h.routeOf src = some token := by
    unfold ServerHost.routeOf
    rw [haddr, Option.filter_some, he, if_pos Option.isSome_some]
  have hnot : ∀ e : ConnEntry UInt8, ServerHost.isRepeatedCookieResponse e
      (makeHandshakeDatagram .clockSyncRequest []) = false := by
    intro e
    unfold ServerHost.isRepeatedCookieResponse
    exact Bool.and_false _
  have hends : ∀ c : ServerConnection UInt8,
      c.onDatagram sampleProvider (makeHandshakeDatagram .clockSyncRequest []) =
        (.nothing, { c with state := .disconnected }) := fun _ => rfl
  have hstamped : (h.modify token fun e => { e with lastSeenMs := h.nowMs }).entryForToken token =
      some { e with lastSeenMs := h.nowMs } := by
    rw [ServerHost.entryForToken_modify_self, he]
    rfl
  have hwired : (h.modify token fun e => { e with lastSeenMs := h.nowMs }).wiring = h.wiring :=
    ServerHost.modify_wiring h token fun _ => rfl
  have hdatagram : h.onDatagram sampleProvider U S fresh src
      (makeHandshakeDatagram .clockSyncRequest []) = h.routeTo sampleProvider U S token src
        (makeHandshakeDatagram .clockSyncRequest []) := by
    unfold ServerHost.onDatagram
    simp only [makeHandshakeDatagram]
    rw [if_neg (by decide), if_neg (by decide), hroute]
  have hdispatch : (ServerHost.dispatchToConnection sampleProvider U S (h.modify token fun e =>
      { e with lastSeenMs := h.nowMs }) token src (makeHandshakeDatagram .clockSyncRequest [])).2 =
      (h.modify token fun e => { e with lastSeenMs := h.nowMs }).setConn token
        { e.conn with state := .disconnected } := by
    unfold ServerHost.dispatchToConnection
    rw [hstamped]
    simp only []
    rw [hnot, if_neg Bool.false_ne_true, hends]
    rfl
  have hfound : ((h.modify token fun e => { e with lastSeenMs := h.nowMs }).setConn token
      { e.conn with state := .disconnected }).entryForToken token =
      some { e with lastSeenMs := h.nowMs, conn := { e.conn with state := .disconnected } } := by
    unfold ServerHost.setConn
    rw [ServerHost.entryForToken_modify_self, hstamped]
    rfl
  rw [hdatagram]
  unfold ServerHost.routeTo
  simp only []
  rw [hdispatch, hfound]
  simp only [if_true]
  rw [ServerHost.removeConnection_wiring U hfound, ServerHost.setConn_wiring, hwired]

end

/-- So many connections were accepted, one from each address, and none was dropped. -/
structure Crowded (n : Nat) (h : ServerHost UInt8 (List UInt32) Unit) : Prop where
  good : h.wiring.Good
  counter : h.tokenCounter.toNat = n
  free : h.table.free = []
  slots : h.table.slots.length = n
  wires : h.wiring.wires.length = n
  secret : h.serverSecret = []
  later : ∀ i, n ≤ i → i < 2 ^ 48 → h.addrToToken (peerAt i) = none

theorem Crowded.fresh (hc : Crowded n h)
    (hn : n + 1 < 2 ^ 64) :
    h.entryForToken (ServerHost.mixToken (h.tokenCounter + 1)) = none ∧
      Assoc.lookup h.table.byToken (ServerHost.mixToken (h.tokenCounter + 1)) = none := by
  have hfresh := hc.good.fresh (by
    show h.tokenCounter.toNat + 1 < 2 ^ 64
    rw [hc.counter]
    exact hn)
  refine ⟨?_, ?_⟩
  · have hnone := Wiring.lookup_none_of_not_mem hfresh
    rw [ServerHost.lookup_wires, Option.map_eq_none_iff] at hnone
    exact hnone
  · cases hfound : Assoc.lookup h.table.byToken (ServerHost.mixToken (h.tokenCounter + 1)) with
    | none => rfl
    | some idx =>
        refine absurd ?_ hfresh
        rw [← hc.good.tokens]
        exact ConnectionTable.mem_tokens.mpr ⟨idx, hfound⟩

/-- One more connection. -/
theorem Crowded.accept (hc : Crowded n h)
    (hn : n < 2 ^ 32) (fresh : EcdhKeyPair) (body : Bytes) :
    Crowded (n + 1) (h.accept sampleProvider sampleUniverse fresh (peerAt n) body).2 := by
  rcases hc.fresh (by omega) with ⟨hnew, hslot⟩
  have hwiring := ServerHost.accept_wiring sampleProvider sampleUniverse fresh (peerAt n) body hnew
  have hmore : h.tokenCounter.toNat + 1 < 2 ^ 64 := by
    rw [hc.counter]
    omega
  have hroom : h.wiring.wires.length < 2 ^ 32 := by
    rw [hc.wires]
    exact hn
  have htable : (h.accept sampleProvider sampleUniverse fresh (peerAt n) body).2.table =
      (h.table.openSlot (ServerHost.mixToken (h.tokenCounter + 1))).2 :=
    congrArg Wiring.table hwiring
  have hgrow := (ConnectionTable.openSlot_grow hc.free hslot).1
  refine ⟨?_, ?_, ?_, ?_, ?_, ?_, fun i hi hlt => ?_⟩
  · rw [hwiring]
    exact hc.good.enter hmore hroom (hc.later n (Nat.le_refl n) (by omega))
  · rw [(accept_counter sampleProvider sampleUniverse fresh h (peerAt n) body).1,
      UInt64.toNat_add, ← hc.counter]
    exact Nat.mod_eq_of_lt hmore
  · rw [htable, hgrow]
  · rw [htable, hgrow, List.length_modify, List.length_append, hc.slots]
    rfl
  · rw [hwiring, ← hc.wires]
    exact List.length_append
  · have hsecret : (h.accept sampleProvider sampleUniverse fresh (peerAt n) body).2.serverSecret =
        h.serverSecret := by
      unfold ServerHost.accept
      cases h.devAuthStub <;> rfl
    rw [hsecret]
    exact hc.secret
  · have haddr := congrArg (fun w => w.addrToToken (peerAt i)) hwiring
    refine haddr.trans ?_
    unfold Wiring.enter
    simp only []
    rw [if_neg fun hsame => ?_]
    · exact hc.later i (by omega) hlt
    · have heq := peerAt_injective hlt (by omega) hsame
      omega

/-- A run that opens so many connections. -/
theorem crowded_run (n : Nat) (hn : n ≤ 2 ^ 32) :
    ∃ h, Reaches (Metered.step sampleProvider sampleUniverse noAccounts) free
      (start [] [] 0 [] none none false) ⟨h, n⟩ ∧ Crowded n h := by
  induction n with
  | zero =>
      refine ⟨.start [] [] 0 [] none none false, Reaches.refl, ?_⟩
      exact ⟨(sane_start [] [] 0 [] none none false).good, rfl, rfl, rfl, rfl, rfl,
        fun _ _ _ => rfl⟩
  | succ n ih =>
      rcases ih (by omega) with ⟨h, hreach, hc⟩
      refine ⟨_, hreach.tail (.datagram (sampleKeyPair 0) (peerAt n) (makeHandshakeDatagram
        .cookieResponse (openingBody (peerAt n)).encode)) trivial ?_, hc.accept (by omega)
          (sampleKeyPair 0) (openingBody (peerAt n)).encode⟩
      have haccept := onDatagram_opening sampleUniverse noAccounts hc.secret (sampleKeyPair 0)
        (hc.later n (Nat.le_refl n) (by omega))
      have hmoved := (accept_counter sampleProvider sampleUniverse (sampleKeyPair 0) h (peerAt n)
        (openingBody (peerAt n)).encode).2
      unfold Metered.step
      rw [ServerHost.step, haccept, Option.map_some, if_neg hmoved]

/-- The slot with the number zero has a token, and its connection. -/
theorem Crowded.first (hc : Crowded n h)
    (hn : 0 < n) : ∃ token e, Assoc.lookup h.table.byToken token = some 0 ∧
      h.entryForToken token = some e ∧ h.addrToToken e.endpoint = some token := by
  have hlt : 0 < h.table.slots.length := by
    rw [hc.slots]
    exact hn
  have hslot : h.table.slots[0]? = some h.table.slots[0] := List.getElem?_eq_getElem hlt
  have hactive : h.table.slots[0].active = true := by
    cases hs : h.table.slots[0].active with
    | true => rfl
    | false =>
        rcases hc.good.sound.freed 0 _ hslot hs with ⟨idx, hidx, _⟩
        have hmem : idx ∈ h.table.free := hidx
        rw [hc.free] at hmem
        exact absurd hmem List.not_mem_nil
  rcases hc.good.sound.known 0 _ hslot hactive with ⟨idx, hidx, hlookup⟩
  have hzero : idx = 0 := UInt32.toNat_inj.mp hidx
  rw [hzero] at hlookup
  have hmem : h.table.slots[0].token ∈ h.wiring.wires.map Prod.fst := by
    rw [← hc.good.tokens]
    exact ConnectionTable.mem_tokens.mpr ⟨0, hlookup⟩
  rw [ServerHost.wiring_tokens] at hmem
  rcases List.mem_map.mp hmem with ⟨x, hx, hxt⟩
  have hdistinct := hc.good.distinct
  rw [ServerHost.wiring_tokens] at hdistinct
  have he : h.entryForToken h.table.slots[0].token = some x.2 := by
    rw [← hxt]
    exact Assoc.lookup_of_mem hdistinct hx
  exact ⟨_, x.2, hlookup, he,
    (ServerHost.consistent_of_good hc.good).found _ x.2 he⟩

/-- The next connection after so many gets the slot with the number zero again. -/
theorem Crowded.shares {h h' : ServerHost UInt8 (List UInt32) Unit} (hc : Crowded (2 ^ 32) h)
    {src : Endpoint} (hwiring : h'.wiring = h.wiring.enter src) {token : UInt64}
    (hlookup : Assoc.lookup h.table.byToken token = some 0) :
    Assoc.lookup h'.table.byToken token = some 0 ∧ ∃ e,
      h'.entryForToken (ServerHost.mixToken (h.tokenCounter + 1)) = some e ∧
        e.handle.index = 0 := by
  rcases hc.fresh (by decide) with ⟨hnew, hslot⟩
  have hidx : UInt32.ofNat h.table.slots.length = 0 := by
    rw [hc.slots]
    rfl
  rcases ConnectionTable.openSlot_grow hc.free hslot with ⟨hgrow, hhandle⟩
  have htable : h'.table = (h.table.openSlot (ServerHost.mixToken (h.tokenCounter + 1))).2 :=
    congrArg Wiring.table hwiring
  refine ⟨?_, ?_⟩
  · rw [htable, hgrow, Assoc.lookup_append, hlookup, Option.some_or]
  · have hwire : Assoc.lookup h'.wiring.wires (ServerHost.mixToken (h.tokenCounter + 1)) = some
        ⟨src, (h.table.openSlot (ServerHost.mixToken (h.tokenCounter + 1))).1,
          h.wiring.stub, 0⟩ := by
      have hnone : Assoc.lookup h.wiring.wires (ServerHost.mixToken (h.tokenCounter + 1)) =
          none := by
        rw [ServerHost.lookup_wires, hnew]
        rfl
      rw [hwiring]
      unfold Wiring.enter
      rw [Assoc.lookup_append, hnone, Option.none_or, Assoc.lookup_cons]
      exact if_pos rfl
    rw [ServerHost.lookup_wires, Option.map_eq_some_iff] at hwire
    rcases hwire with ⟨e, he, heq⟩
    have hsame := congrArg (fun x => x.handle.index) heq
    rw [hhandle, hidx] at hsame
    exact ⟨e, he, hsame⟩

/-- `2 ^ 32` connections and one more are open, and the last one shares the slot of another.
    That one ends, and the handle of the last one is bad. -/
theorem shared_slot :
    ∃ m, Reaches (Metered.step sampleProvider sampleUniverse noAccounts) free
        (start [] [] 0 [] none none false) m ∧ m.accepts < 2 ^ 64 ∧
      (∃ t e, m.host.entryForToken t = some e ∧ m.host.table.validate e.handle = false) ∧
      ¬ m.host.Consistent := by
  rcases crowded_run (2 ^ 32) (Nat.le_refl _) with ⟨h, hreach, hc⟩
  rcases hc.fresh (by decide) with ⟨hnew, hslot⟩
  rcases hc.first (by decide) with ⟨token, e, hlookup, he, haddr⟩
  have hsrc := hc.later (2 ^ 32) (Nat.le_refl _) (by decide)
  -- The last connection.
  have haccept := onDatagram_opening sampleUniverse noAccounts hc.secret (sampleKeyPair 0) hsrc
  have hmoved := (accept_counter sampleProvider sampleUniverse (sampleKeyPair 0) h
    (peerAt (2 ^ 32)) (openingBody (peerAt (2 ^ 32))).encode).2
  have hwiring := ServerHost.accept_wiring sampleProvider sampleUniverse (sampleKeyPair 0)
    (peerAt (2 ^ 32)) (openingBody (peerAt (2 ^ 32))).encode hnew
  generalize (h.accept sampleProvider sampleUniverse (sampleKeyPair 0) (peerAt (2 ^ 32))
    (openingBody (peerAt (2 ^ 32))).encode).2 = h' at haccept hmoved hwiring
  have hopens : Metered.step sampleProvider sampleUniverse noAccounts ⟨h, 2 ^ 32⟩
      (.datagram (sampleKeyPair 0) (peerAt (2 ^ 32)) (makeHandshakeDatagram .cookieResponse
        (openingBody (peerAt (2 ^ 32))).encode)) = some ⟨h', 2 ^ 32 + 1⟩ := by
    unfold Metered.step
    rw [ServerHost.step, haccept, Option.map_some, if_neg hmoved]
  rcases hc.shares hwiring hlookup with ⟨hlookup', last, hlast, hindex⟩
  -- The one that has the slot with the number zero is still there.
  have hne : e.endpoint ≠ peerAt (2 ^ 32) := by
    intro hsame
    rw [hsame, hsrc] at haddr
    cases haddr
  have haddr' : h'.addrToToken e.endpoint = some token := by
    refine (congrArg (fun w => w.addrToToken e.endpoint) hwiring).trans ?_
    unfold Wiring.enter
    simp only []
    rw [if_neg hne]
    exact haddr
  have hold : (h'.entryForToken token).map ConnEntry.wire = some e.wire := by
    rw [← ServerHost.lookup_wires, hwiring]
    unfold Wiring.enter
    rw [Assoc.lookup_append, ServerHost.lookup_wires, he]
    rfl
  rcases Option.map_eq_some_iff.mp hold with ⟨e', he', _⟩
  -- It ends.
  have hcut := onDatagram_cut sampleUniverse noAccounts h' (sampleKeyPair 0) haddr' he'
  generalize hh : (h'.onDatagram sampleProvider sampleUniverse noAccounts (sampleKeyPair 0)
    e.endpoint (makeHandshakeDatagram .clockSyncRequest [])).2 = h'' at hcut
  have hcounter : h''.tokenCounter = h'.tokenCounter := congrArg Wiring.tokenCounter hcut
  have hcuts : Metered.step sampleProvider sampleUniverse noAccounts ⟨h', 2 ^ 32 + 1⟩
      (.datagram (sampleKeyPair 0) e.endpoint (makeHandshakeDatagram .clockSyncRequest [])) =
      some ⟨h'', 2 ^ 32 + 1⟩ := by
    unfold Metered.step
    rw [ServerHost.step, hh, Option.map_some, if_pos hcounter]
  have htoken : ServerHost.mixToken (h.tokenCounter + 1) ≠ token := by
    intro hsame
    rw [← hsame, hnew] at he
    cases he
  have hstays : (h''.entryForToken (ServerHost.mixToken (h.tokenCounter + 1))).map
      ConnEntry.wire = some last.wire := by
    rw [← ServerHost.lookup_wires, hcut]
    refine (Assoc.lookup_erase _ token _).trans ?_
    rw [if_neg htoken, ServerHost.lookup_wires, hlast]
    rfl
  rcases Option.map_eq_some_iff.mp hstays with ⟨last', hlast', hwire⟩
  have hbad : h''.table.validate last'.handle = false := by
    have hclosed : h''.table = h'.table.close token := congrArg Wiring.table hcut
    rw [hclosed]
    refine ConnectionTable.validate_close hlookup' ?_
    exact (congrArg (fun x => x.handle.index) hwire).trans hindex
  have hfew : 2 ^ 32 + 1 < 2 ^ 64 := by decide
  refine ⟨_, (hreach.tail _ trivial hopens).tail _ trivial hcuts, hfew,
    ⟨_, last', hlast', hbad⟩, fun hgood => ?_⟩
  have hvalid := hgood.handles _ last' hlast'
  rw [hbad] at hvalid
  exact Bool.false_ne_true hvalid

end Metered

end Net

end EarthRise
