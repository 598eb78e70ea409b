import EarthRise.Theory.ReplayWindow

/-!
# Forged Datagrams

What datagrams that fail authentication do to the genuine ones after them.

A channel's keys and token do not change while it receives, so whether a
datagram is authentic is a fact about the datagram and the channel it arrives
at, not about what arrived before. Only the replay window changes, and only by
datagrams whose clear header parses and carries the token. `afterAll_eq` says so,
and it leaves a question about windows: which offers made beforehand change a
later answer. `Window.verdicts_offerAll_iff` answers it, and `forged_results_iff`
is that answer for the channel.

A forged number that is not above any genuine one by a window's width, and not
equal to one, does no harm. One forged datagram with a large number silences
the channel.

## Main definitions

* `authentic`: The payload a datagram carries, whatever came before it.
* `Forged`: A datagram that no state of the window lets through.
* `Peer`: The sending end that a channel's receiving keys belong to.
* `Undisturbed`: No forged number makes a genuine number stale.

## Theorems

* `afterAll_eq`: Receiving moves only the replay window.
* `results_eq_iff`: For genuine datagrams the results are the window's verdicts.
* `sealAll_genuine`: What the peer seals is authentic.
* `forged_results_iff`: When forged datagrams change no genuine result.
-/

namespace EarthRise

namespace Net

open Acceptance

namespace SecureChannel

variable {Key : Type} (C : ICrypto Key)

/-- The packet number of a datagram whose header gets past the checks on it. -/
def headerNumber (ch : SecureChannel Key) (d : Bytes) : Option Nat :=
  match readPacketHeader d with
  | none => none
  | some hdr => if hdr.connectionToken ≠ ch.token then none else some hdr.packetNumber.toNat

/-- The payload a datagram carries for this channel, the window left aside. -/
def authentic (ch : SecureChannel Key) (d : Bytes) : Option Bytes :=
  match readPacketHeader d with
  | none => none
  | some hdr =>
      if hdr.connectionToken ≠ ch.token then none
      else C.decrypt ch.recvKey ch.recvDir hdr.packetNumber (d.take wireSize) (d.drop wireSize)

/-- A datagram with a bad header, a wrong token, or a tag that does not verify. -/
def Forged (ch : SecureChannel Key) (d : Bytes) : Prop := ch.authentic C d = none

/-- The endpoint that seals with the keys this one opens with. -/
structure Peer (ch peer : SecureChannel Key) : Prop where
  hasKeys : peer.hasKeys = true
  token : peer.token = ch.token
  key : peer.sendKey = ch.recvKey
  dir : peer.sendDir = ch.recvDir

/-- The packet numbers that a list of datagrams offers to the window. -/
def headerNumbers (ch : SecureChannel Key) (ds : List Bytes) : List Nat :=
  ds.filterMap ch.headerNumber

/-- Every genuine number that is fresh, and that no earlier genuine one makes
    stale, is different from every forged number and less than a window's width
    below it. -/
def Undisturbed (ch : SecureChannel Key) (forged genuine : List Bytes) : Prop :=
  ∀ pre g post, ch.headerNumbers genuine = pre ++ g :: post →
    ch.replay.fresh g = true → (∀ n ∈ pre, n ≠ g ∧ n < g + windowBits) →
    ∀ n ∈ ch.headerNumbers forged, n ≠ g ∧ n < g + windowBits

/-- The same endpoint with another window. -/
def withReplay (ch : SecureChannel Key) (r : ReplayWindow) : SecureChannel Key :=
  { ch with replay := r }

@[simp] theorem hasKeys_withReplay (ch : SecureChannel Key) (r : ReplayWindow) :
    (ch.withReplay r).hasKeys = ch.hasKeys := rfl

@[simp] theorem replay_withReplay (ch : SecureChannel Key) (r : ReplayWindow) :
    (ch.withReplay r).replay = r := rfl

@[simp] theorem withReplay_withReplay (ch : SecureChannel Key) (r r' : ReplayWindow) :
    (ch.withReplay r).withReplay r' = ch.withReplay r' := rfl

@[simp] theorem headerNumber_withReplay (ch : SecureChannel Key) (r : ReplayWindow) :
    (ch.withReplay r).headerNumber = ch.headerNumber := rfl

@[simp] theorem headerNumbers_withReplay (ch : SecureChannel Key) (r : ReplayWindow) :
    (ch.withReplay r).headerNumbers = ch.headerNumbers := rfl

@[simp] theorem authentic_withReplay (ch : SecureChannel Key) (r : ReplayWindow) :
    (ch.withReplay r).authentic C = ch.authentic C := rfl

theorem headerNumbers_cons (ch : SecureChannel Key) (d : Bytes) (ds : List Bytes) :
    ch.headerNumbers (d :: ds) = (ch.headerNumber d).toList ++ ch.headerNumbers ds := by
  unfold headerNumbers
  rw [List.filterMap_cons]
  cases ch.headerNumber d with
  | none => rfl
  | some n => rfl

/-! ## Receiving moves only the window -/

theorem open_snd (ch : SecureChannel Key) (d : Bytes) (hkeys : ch.hasKeys = true) :
    (ch.openDatagram C d).2 =
      ch.withReplay (replayWindow.offerAll ch.replay (ch.headerNumber d).toList) := by
  unfold openDatagram headerNumber
  rw [if_neg (by rw [hkeys]; decide)]
  cases readPacketHeader d with
  | none => rfl
  | some hdr =>
      by_cases htok : hdr.connectionToken ≠ ch.token
      · simp only [if_pos htok]
        rfl
      · simp only [if_neg htok]
        -- Whatever the verdict and the tag, the window has recorded the number.
        split
        · rfl
        · split
          · rfl
          · rfl

/-- Receiving a list of datagrams moves the replay window and nothing else. -/
theorem afterAll_eq (ds : List Bytes) (ch : SecureChannel Key) (hkeys : ch.hasKeys = true) :
    ch.afterAll C ds =
      ch.withReplay (replayWindow.offerAll ch.replay (ch.headerNumbers ds)) := by
  induction ds generalizing ch with
  | nil => rfl
  | cons d ds ih =>
      have hstep : ch.afterAll C (d :: ds) = ((ch.openDatagram C d).2).afterAll C ds := rfl
      rw [hstep, open_snd C ch d hkeys,
        ih (ch.withReplay (replayWindow.offerAll ch.replay (ch.headerNumber d).toList)) hkeys,
        headerNumbers_cons]
      simp only [withReplay_withReplay, replay_withReplay, headerNumbers_withReplay,
        Window.offerAll, List.foldl_append]

/-- An authentic datagram offers a number, and the window's verdict on it is all
    that decides between its payload and a refusal. -/
theorem open_fst_of_authentic (ch : SecureChannel Key) (d : Bytes) (payload : Bytes)
    (hkeys : ch.hasKeys = true) (hd : ch.authentic C d = some payload) :
    ∃ n, ch.headerNumber d = some n ∧ (ch.openDatagram C d).1 =
      if ch.replay.fresh n = true then (.ok, some payload) else (.replay, none) := by
  unfold authentic at hd
  unfold openDatagram headerNumber
  rw [if_neg (by rw [hkeys]; decide)]
  cases hhdr : readPacketHeader d with
  | none =>
      rw [hhdr] at hd
      exact absurd hd nofun
  | some hdr =>
      simp only [hhdr] at hd
      by_cases htok : hdr.connectionToken ≠ ch.token
      · rw [if_pos htok] at hd
        exact absurd hd nofun
      · rw [if_neg htok] at hd
        simp only [if_neg htok, hd, ReplayWindow.checkAndUpdate_fst]
        refine ⟨hdr.packetNumber.toNat, rfl, ?_⟩
        cases ch.replay.fresh hdr.packetNumber.toNat with
        | true => rfl
        | false => rfl

/-- Two channels that differ in the window give the same results for authentic
    datagrams if and only if the windows give the same verdicts. -/
theorem results_eq_iff (ds : List Bytes) (ch : SecureChannel Key) (r r' : ReplayWindow)
    (hkeys : ch.hasKeys = true) (hds : ∀ d ∈ ds, ch.authentic C d ≠ none) :
    (ch.withReplay r).results C ds = (ch.withReplay r').results C ds ↔
      replayWindow.verdicts r (ch.headerNumbers ds) =
        replayWindow.verdicts r' (ch.headerNumbers ds) := by
  induction ds generalizing r r' with
  | nil => exact ⟨fun _ => rfl, fun _ => rfl⟩
  | cons d ds ih =>
      rcases Option.ne_none_iff_exists'.mp (hds d List.mem_cons_self) with ⟨payload, hd⟩
      rcases open_fst_of_authentic C ch d payload hkeys hd with ⟨n, hn, _⟩
      have hfst : ∀ s : ReplayWindow, ((ch.withReplay s).openDatagram C d).1 =
          if s.fresh n = true then (.ok, some payload) else (.replay, none) := by
        intro s
        rcases open_fst_of_authentic C (ch.withReplay s) d payload hkeys hd with ⟨m, hm, hopen⟩
        rw [headerNumber_withReplay, hn, Option.some.injEq] at hm
        rw [hopen, hm, replay_withReplay]
      have hsnd : ∀ s : ReplayWindow, ((ch.withReplay s).openDatagram C d).2 =
          ch.withReplay (replayWindow.offer s n) := by
        intro s
        rw [open_snd C (ch.withReplay s) d hkeys, headerNumber_withReplay, hn]
        rfl
      have hrest := ih (replayWindow.offer r n) (replayWindow.offer r' n)
        fun e he => hds e (List.mem_cons_of_mem _ he)
      rw [headerNumbers_cons, hn]
      simp only [results, Option.toList_some, List.singleton_append, Window.verdicts, hsnd, hfst,
        List.cons.injEq, hrest]
      refine and_congr_left fun _ => ?_
      -- The two answers are read off the two verdicts.
      have hfresh : ∀ s : ReplayWindow, replayWindow.fresh s n = s.fresh n := fun _ => rfl
      rw [hfresh, hfresh]
      cases r.fresh n with
      | true => cases r'.fresh n with
        | true => simp
        | false => simp
      | false => cases r'.fresh n with
        | true => simp
        | false => simp

/-! ## What the peer seals -/

/-- Sealing keeps the keys, the token and the direction. -/
theorem sealDatagram_peer (ch peer peer' : SecureChannel Key) (payload d : Bytes) (hp : Peer ch peer)
    (hseal : peer.sealDatagram C payload = some (d, peer')) : Peer ch peer' := by
  unfold sealDatagram at hseal
  rw [if_neg (by rw [hp.hasKeys]; decide)] at hseal
  cases hct : C.encrypt peer.sendKey peer.sendDir peer.sendCounter
      (writePacketHeader ⟨protocolId, peer.token, peer.sendCounter⟩) payload with
  | none =>
      simp only [hct] at hseal
      exact absurd hseal nofun
  | some ct =>
      simp only [hct, Option.some.injEq, Prod.mk.injEq] at hseal
      rw [← hseal.2]
      exact ⟨hp.hasKeys, hp.token, hp.key, hp.dir⟩

theorem sealDatagram_authentic (hC : C.Correct) (ch peer peer' : SecureChannel Key) (payload d : Bytes)
    (hp : Peer ch peer) (hseal : peer.sealDatagram C payload = some (d, peer')) :
    ch.authentic C d = some payload := by
  unfold sealDatagram at hseal
  rw [if_neg (by rw [hp.hasKeys]; decide)] at hseal
  cases hct : C.encrypt peer.sendKey peer.sendDir peer.sendCounter
      (writePacketHeader ⟨protocolId, peer.token, peer.sendCounter⟩) payload with
  | none =>
      simp only [hct] at hseal
      exact absurd hseal nofun
  | some ct =>
      simp only [hct, Option.some.injEq, Prod.mk.injEq] at hseal
      have hlen := length_writePacketHeader ⟨protocolId, peer.token, peer.sendCounter⟩
      unfold authentic
      rw [← hseal.1, readPacketHeader_write]
      simp only [hp.token, ne_eq, not_true_eq_false, if_false]
      -- The header cuts the datagram into what was authenticated and what was sealed.
      rw [hp.token] at hct hlen
      rw [List.take_left' hlen, List.drop_left' hlen, ← hp.key, ← hp.dir]
      exact hC _ _ _ _ _ _ hct

/-- Everything the peer puts on the wire is authentic. -/
theorem sealAll_genuine (hC : C.Correct) (ch : SecureChannel Key) (payloads : List Bytes) :
    ∀ peer : SecureChannel Key, Peer ch peer →
      ∀ d ∈ peer.sealAll C payloads, ch.authentic C d ≠ none := by
  induction payloads with
  | nil => intro peer _ d hd; exact absurd hd List.not_mem_nil
  | cons p ps ih =>
      intro peer hp d hd
      unfold sealAll at hd
      cases hseal : peer.sealDatagram C p with
      | none =>
          simp only [hseal] at hd
          exact ih peer hp d hd
      | some r =>
          rcases r with ⟨d0, peer'⟩
          simp only [hseal, List.mem_cons] at hd
          rcases hd with hd | hd
          · rw [hd, sealDatagram_authentic C hC ch peer peer' p d0 hp hseal]
            simp only [ne_eq, reduceCtorEq, not_false_eq_true]
          · exact ih peer' (sealDatagram_peer C ch peer peer' p d0 hp hseal) d hd

/-- Forged datagrams change no result of the genuine datagrams after them if and
    only if they leave every genuine number that is fresh undisturbed. -/
theorem forged_results_iff (hC : C.Correct) (ch peer : SecureChannel Key) (payloads : List Bytes)
    (forged genuine : List Bytes) (hkeys : ch.hasKeys = true) (hp : Peer ch peer)
    (_hforged : ∀ d ∈ forged, ch.Forged C d)
    (hgenuine : ∀ d ∈ genuine, d ∈ peer.sealAll C payloads) :
    (ch.afterAll C forged).results C genuine = ch.results C genuine ↔
      ch.Undisturbed forged genuine := by
  have hauth : ∀ d ∈ genuine, ch.authentic C d ≠ none :=
    fun d hd => sealAll_genuine C hC ch payloads peer hp d (hgenuine d hd)
  rw [afterAll_eq C forged ch hkeys]
  have hiff := results_eq_iff C genuine ch
    (replayWindow.offerAll ch.replay (ch.headerNumbers forged)) ch.replay hkeys hauth
  rw [Window.verdicts_offerAll_iff] at hiff
  exact hiff

/-! ## A channel silenced -/

/-- One byte standing in for the tag, over everything that is authenticated. -/
def checksum (k : UInt8) (dir : Direction) (n : UInt64) (aad plain : Bytes) : UInt8 :=
  (aad ++ plain).foldl (fun acc b => acc * 31 + b)
    (k + UInt8.ofNat n.toNat + if dir = .clientToServer then 0 else 1)

/-- A provider with the real one's contract: a masked text and a tag that any change
    of the key, direction, number, header or text changes the expectation of. -/
def checksumCrypto : ICrypto UInt8 where
  encrypt := fun k dir n aad plain =>
    some (checksum k dir n aad plain :: plain.map (· ^^^ k))
  decrypt := fun k dir n aad cipher =>
    match cipher with
    | [] => none
    | tag :: text =>
        let plain := text.map (· ^^^ k)
        if checksum k dir n aad plain = tag then some plain else none

theorem checksumCrypto_correct : checksumCrypto.Correct := by
  intro k d n aad plain cipher henc
  simp only [checksumCrypto, Option.some.injEq] at henc
  have hmask : (plain.map (· ^^^ k)).map (· ^^^ k) = plain := by
    rw [List.map_map]
    conv_rhs => rw [← List.map_id plain]
    refine List.map_congr_left fun b _ => ?_
    simp only [Function.comp_apply, UInt8.xor_assoc, UInt8.xor_self, UInt8.xor_zero, id_eq]
  rw [← henc]
  simp only [checksumCrypto, hmask, if_true]

/-- An endpoint whose two keys are equal. -/
def endpoint (sendDir recvDir : Direction) : SecureChannel UInt8 :=
  { sendDir := sendDir, recvDir := recvDir, token := 7, sendKey := 9, recvKey := 9,
    hasKeys := true, sendCounter := 0, replay := ReplayWindow.reset }

def server : SecureChannel UInt8 := endpoint .serverToClient .clientToServer

def client : SecureChannel UInt8 := endpoint .clientToServer .serverToClient

theorem server_peer : Peer client server := ⟨rfl, rfl, rfl, rfl⟩

/-- A bare header with the right token and a packet number of its own. -/
def forgery (packetNumber : UInt64) : Bytes := writePacketHeader ⟨protocolId, 7, packetNumber⟩

/-- One forged datagram with the largest packet number turns every genuine
    datagram after it into a replay. -/
theorem forgery_silences :
    (∀ d ∈ [forgery 0xFFFFFFFFFFFFFFFF], client.Forged checksumCrypto d) ∧
    client.results checksumCrypto (server.sealAll checksumCrypto [[1], [2, 3]]) =
      [(.ok, some [1]), (.ok, some [2, 3])] ∧
    (client.afterAll checksumCrypto [forgery 0xFFFFFFFFFFFFFFFF]).results checksumCrypto
        (server.sealAll checksumCrypto [[1], [2, 3]]) =
      [(.replay, none), (.replay, none)] := by
  unfold Forged
  decide +kernel

/-- A forgery with a number behind the genuine ones' changes nothing. -/
theorem forged_results_iff_behind :
    let genuine := (server.sealAll checksumCrypto [[1], [2, 3]]).drop 1
    (client.afterAll checksumCrypto [forgery 0]).results checksumCrypto genuine =
      client.results checksumCrypto genuine := by
  intro genuine
  refine (forged_results_iff checksumCrypto checksumCrypto_correct client server [[1], [2, 3]]
    [forgery 0] genuine rfl server_peer ?_ fun d hd => List.mem_of_mem_drop hd).mpr ?_
  · unfold Forged
    decide +kernel
  · intro pre g post hsplit _ _ n hn
    have hg : client.headerNumbers genuine = [1] := by decide +kernel
    have hf : client.headerNumbers [forgery 0] = [0] := by decide +kernel
    rw [hf, List.mem_singleton] at hn
    have hmem : g ∈ [1] := by
      rw [← hg, hsplit]
      exact List.mem_append_right _ List.mem_cons_self
    rw [List.mem_singleton] at hmem
    rw [hn, hmem]
    decide

end SecureChannel

end Net

end EarthRise
