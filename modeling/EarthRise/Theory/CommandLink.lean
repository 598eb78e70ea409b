import EarthRise.Core.CommandLink
import EarthRise.Theory.Connection
import EarthRise.Theory.Framing
import Mathlib.Data.List.InsertIdx

/-!
# When Fleet Commands Arrive in Order

What the connection adds to the network it sends commands over: numbers that keep
a command from arriving twice, and nothing else.

Behind the encryption and the framing a pair of connections is a numbered link, as
`Lib.Link` has it, with the replay window for its window: `simulates` maps each step
to a step of the link or to none. Whether commands arrive in order, and all of
them, is then the network's doing. The guard `InSequence` is what it has to do: no
command's datagram is lost, overtakes an older command or is passed by a window's
width of later datagrams.

## Main definitions

* `Connected`: A pair past the login.
* `InSequence`: The steps that keep commands in order.
* `toLink`: The numbered link behind a pair.
* `Wired`: The invariant: what is under way opens at the server.

## Theorems

* `hear_carried`: What a datagram under way does at the server.
* `simulates`: A step of the pair is a step of the link.
* `fleetCommands_in_order`: Commands are handed over in order, and all of them.
* `lost_command`: A lost datagram leaves a gap.
-/

namespace EarthRise

namespace Net

open Acceptance Run

/-- Sealing under a key does not fail. -/
def ICrypto.Total {Key : Type} (C : ICrypto Key) : Prop :=
  ∀ k d n aad plain, C.encrypt k d n aad plain ≠ none

namespace CommandLink

variable {Key : Type} (C : CryptoProvider Key) {s : CommandLink Key}

/-- The window of the server's end. -/
def serverWindow (s : CommandLink Key) : ReplayWindow :=
  match s.server.channel with
  | none => ReplayWindow.reset
  | some ch => ch.replay

/-- The numbered link behind a pair. -/
def toLink (s : CommandLink Key) : Link ReplayWindow Bytes :=
  { next := s.nextNumber, flight := s.up.map Prod.snd, window := s.serverWindow, sent := s.sent
    handed := s.handed, owed := s.owed }

def toLabel : CommandLabel → Option (Link.Label Bytes)
  | .sendFleetCommand body => some (.send (some body))
  | .keepalive => some (.send none)
  | .deliver i => some (.deliver i)
  | .drop i => some (.drop i)
  | _ => none

/-- A pair past the login, before the first command. -/
structure Connected (s : CommandLink Key) : Prop where
  client : s.client.session.Established
  server : s.server.session.Established
  connected : s.client.state = .connected
  peers : ∀ cc sc, s.client.channel = some cc → s.server.channel = some sc →
    sc.hasKeys = true ∧ SecureChannel.Peer sc cc
  unseen : ∀ n, s.nextNumber ≤ n → s.serverWindow.fresh n = true
  up : s.up = []
  sent : s.sent = []
  handed : s.handed = []
  owed : s.owed = []

/-- The steps that keep commands in order: a command is passed to a connected
    client, fits its length field and does not wrap the packet counter; the datagram
    of a command that has not arrived is not lost, comes oldest first and is passed
    by less than a window's width of numbers; and nobody ends the connection. -/
def InSequence (s : CommandLink Key) : CommandLabel → Prop
  | .sendFleetCommand body =>
      s.client.state = .connected ∧ FitsLength body ∧ s.nextNumber + 1 < 2 ^ 64
  | .keepalive => s.client.state = .connected ∧ s.nextNumber + 1 < 2 ^ 64
  | .deliver i => ∀ d, s.up[i]? = some d → ∀ o ∈ s.owed,
      (o.1 = d.2.number → s.owed.head? = some o) ∧ d.2.number < o.1 + windowBits
  | .drop i => ∀ d, s.up[i]? = some d → ∀ o ∈ s.owed, o.1 ≠ d.2.number
  | .clearToServer dg => ¬ ServerConnection.ClearBreaks dg
  | _ => True

/-- The message of a datagram of the client's. -/
def messageOf (load : Option Bytes) : DecodedMessage :=
  match load with
  | none => ⟨Channel.unreliable.toByte, .keepalive, []⟩
  | some body => ⟨Channel.reliableOrdered.toByte, .fleetCommand, body⟩

/-- A datagram opens at the server under its number, and is one message. -/
def Carries (sc : SecureChannel Key) (d : Bytes) (p : Parcel Bytes) : Prop :=
  ∃ rest payload, d = kindEncrypted :: rest ∧ sc.headerNumber rest = some p.number ∧
    sc.authentic C.toICrypto rest = some payload ∧
    readMessages payload = some [messageOf p.load]

/-- Both ends have their channels, made for each other; the login is over; and what
    is under way opens at the server. -/
structure Wired (s : CommandLink Key) : Prop where
  client : s.client.channel.isSome = true
  server : s.server.channel.isSome = true
  past : s.client.state ≠ .authenticating
  clientKeys : s.client.client.keys.isSome = true
  alive : s.server.state ≠ .disconnected
  peers : ∀ cc sc, s.client.channel = some cc → s.server.channel = some sc →
    sc.hasKeys = true ∧ SecureChannel.Peer sc cc
  carries : ∀ d ∈ s.up, ∀ sc, s.server.channel = some sc → Carries C sc d.1 d.2

/-! ## The client's side -/

/-- Sealing moves the counter and nothing else. -/
theorem sealDatagram_counter (C : ICrypto Key) (ch ch' : SecureChannel Key) (payload d : Bytes)
    (hseal : ch.sealDatagram C payload = some (d, ch')) :
    ch' = { ch with sendCounter := ch.sendCounter + 1 } ∧
      ∃ ct, d = writePacketHeader ⟨protocolId, ch.token, ch.sendCounter⟩ ++ ct := by
  unfold SecureChannel.sealDatagram at hseal
  split at hseal
  · exact absurd hseal nofun
  · cases hct : C.encrypt ch.sendKey ch.sendDir ch.sendCounter
        (writePacketHeader ⟨protocolId, ch.token, ch.sendCounter⟩) payload with
    | none =>
        simp only [hct] at hseal
        exact absurd hseal nofun
    | some ct =>
        simp only [hct, Option.some.injEq, Prod.mk.injEq] at hseal
        exact ⟨hseal.2.symm, ct, hseal.1.symm⟩

/-- A sealed datagram has the counter for its number. -/
theorem sealDatagram_number (C : ICrypto Key) (sc cc cc' : SecureChannel Key) (payload d : Bytes)
    (hp : SecureChannel.Peer sc cc) (hseal : cc.sealDatagram C payload = some (d, cc')) :
    sc.headerNumber d = some cc.sendCounter.toNat := by
  rcases sealDatagram_counter C cc cc' payload d hseal with ⟨_, ct, hd⟩
  unfold SecureChannel.headerNumber
  rw [hd, readPacketHeader_write]
  simp only [hp.token, ne_eq, not_true_eq_false, if_false]

theorem sealDatagram_isSome (C : ICrypto Key) (hT : C.Total) (cc : SecureChannel Key)
    (payload : Bytes) (hkeys : cc.hasKeys = true) : ∃ r, cc.sealDatagram C payload = some r := by
  unfold SecureChannel.sealDatagram
  rw [if_neg (by rw [hkeys]; decide)]
  cases hct : C.encrypt cc.sendKey cc.sendDir cc.sendCounter
      (writePacketHeader ⟨protocolId, cc.token, cc.sendCounter⟩) payload with
  | none => exact absurd hct (hT _ _ _ _ _)
  | some ct =>
      simp only [hct]
      exact ⟨_, rfl⟩

/-- What the client seals opens at the server, under the counter's number. -/
theorem sealOn_carries (hC : C.Correct) (hT : C.Total) (c : ClientConnection Key)
    (cc sc : SecureChannel Key) (hcc : c.channel = some cc) (hp : SecureChannel.Peer sc cc)
    (ch : Channel) (type : MsgType) (body : Bytes) (load : Option Bytes) (ht : type.Named)
    (hfit : FitsLength body) (hmsg : messageOf load = ⟨ch.toByte, type, body⟩) :
    ∃ d, c.sealOn C ch type body =
        some (d, { c with channel := some { cc with sendCounter := cc.sendCounter + 1 } }) ∧
      Carries C sc d ⟨cc.sendCounter.toNat, load⟩ := by
  rcases sealDatagram_isSome C.toICrypto hT cc (writeMessage ch type body) hp.hasKeys with
    ⟨⟨rest, cc'⟩, hseal⟩
  have hnum := sealDatagram_number C.toICrypto sc cc cc' _ rest hp hseal
  have hcc' := (sealDatagram_counter C.toICrypto cc cc' _ rest hseal).1
  have hauth := SecureChannel.sealDatagram_authentic C.toICrypto hC sc cc cc' _ rest hp hseal
  refine ⟨kindEncrypted :: rest, ?_, rest, _, rfl, hnum, hauth, ?_⟩
  · unfold ClientConnection.sealOn sealMessage
    simp only [hcc, hseal, Option.map_some, hcc']
  · rw [hmsg]
    exact readMessages_write ch type body ht hfit

/-- Past the login the client answers nothing that is encrypted and keeps its
    channel and its keys. -/
theorem handleAll_past (ms : List DecodedMessage) (c : ClientConnection Key)
    (h : c.state ≠ .authenticating) :
    (c.handleAll C ms).2.channel = c.channel ∧ (c.handleAll C ms).2.client = c.client ∧
      (c.handleAll C ms).2.state ≠ .authenticating := by
  have hone : ∀ (c : ClientConnection Key) (m : DecodedMessage), c.state ≠ .authenticating →
      (c.handleAppMessage C m).2.channel = c.channel ∧
        (c.handleAppMessage C m).2.client = c.client ∧
        (c.handleAppMessage C m).2.state ≠ .authenticating := by
    intro c m hc
    unfold ClientConnection.handleAppMessage
    split
    · unfold ClientConnection.onAuthResult
      split
      · exact ⟨rfl, rfl, hc⟩
      · exact ⟨rfl, rfl, hc⟩
    split
    · split
      · split
        · exact ⟨rfl, rfl, nofun⟩
        · exact ⟨rfl, rfl, nofun⟩
      · exact ⟨rfl, rfl, nofun⟩
    · exact ⟨rfl, rfl, hc⟩
  induction ms generalizing c with
  | nil => exact ⟨rfl, rfl, h⟩
  | cons m ms ih =>
      rcases hone c m h with ⟨hch, hcl, hst⟩
      rcases ih (c.handleAppMessage C m).2 hst with ⟨hch', hcl', hst'⟩
      exact ⟨hch'.trans hch, hcl'.trans hcl, hst'⟩

/-- What the client hears moves its replay window and, of the rest, its state. -/
theorem client_hears (fresh : EcdhKeyPair) (c : ClientConnection Key) (cc : SecureChannel Key)
    (dg : Bytes) (hcc : c.channel = some cc) (hkeys : cc.hasKeys = true)
    (hclient : c.client.keys.isSome = true) (hpast : c.state ≠ .authenticating) :
    (∃ r, (c.onDatagram C fresh dg).2.channel = some (cc.withReplay r)) ∧
      (c.onDatagram C fresh dg).2.client.keys.isSome = true ∧
      (c.onDatagram C fresh dg).2.state ≠ .authenticating := by
  have hsame : ∃ r, c.channel = some (cc.withReplay r) := ⟨cc.replay, hcc⟩
  match dg with
  | [] => exact ⟨hsame, hclient, hpast⟩
  | kind :: rest =>
      unfold ClientConnection.onDatagram
      by_cases hclear : kind = kindClearHandshake
      · simp only [if_pos hclear]
        cases rest with
        | nil => exact ⟨hsame, hclient, hpast⟩
        | cons type body =>
            have hch : c.channel.isSome = true := by rw [hcc]; rfl
            have hsess := ClientConnection.onClear_session C fresh c (.ofByte type) body hclient hch
            -- The session is as it was, or ended with everything but its state as it was.
            have hkeep : (c.onClear C fresh (.ofByte type) body).2.session = c.session ∨
                (c.onClear C fresh (.ofByte type) body).2.session = c.session.ended := by
              rw [hsess]
              split
              · exact .inr rfl
              · exact .inl rfl
            rcases hkeep with heq | heq
            · refine ⟨?_, ?_, ?_⟩
              · rw [show (c.onClear C fresh (.ofByte type) body).2.channel = c.channel from
                  congrArg Session.channel heq]
                exact hsame
              · rw [show (c.onClear C fresh (.ofByte type) body).2.client.keys = c.client.keys from
                  congrArg Session.keys heq]
                exact hclient
              · rw [show (c.onClear C fresh (.ofByte type) body).2.state = c.state from
                  congrArg Session.state heq]
                exact hpast
            · refine ⟨?_, ?_, ?_⟩
              · rw [show (c.onClear C fresh (.ofByte type) body).2.channel = c.channel from
                  congrArg Session.channel heq]
                exact hsame
              · rw [show (c.onClear C fresh (.ofByte type) body).2.client.keys = c.client.keys from
                  congrArg Session.keys heq]
                exact hclient
              · rw [show (c.onClear C fresh (.ofByte type) body).2.state = .disconnected from
                  congrArg Session.state heq]
                simp only [ne_eq, reduceCtorEq, not_false_eq_true]
      · simp only [if_neg hclear]
        by_cases henc : kind = kindEncrypted
        · simp only [if_pos henc, hcc]
          have hrecv : ∃ r, (receive C.toICrypto cc rest).2 = cc.withReplay r := by
            have hsnd := SecureChannel.open_snd C.toICrypto cc rest hkeys
            refine ⟨_, Eq.trans ?_ hsnd⟩
            unfold receive
            simp only []
            split
            · rfl
            · rfl
          rcases hrecv with ⟨r, hr⟩
          rcases handleAll_past C (receive C.toICrypto cc rest).1
            { c with channel := some (receive C.toICrypto cc rest).2 } hpast with ⟨hch, hcl, hst⟩
          exact ⟨⟨r, by rw [hch, hr]⟩, by rw [hcl]; exact hclient, hst⟩
        · simp only [if_neg henc]
          exact ⟨hsame, hclient, hpast⟩

/-! ## The server's side -/

/-- Two channels that receive alike. -/
structure SameReceiver (sc sc' : SecureChannel Key) : Prop where
  token : sc'.token = sc.token
  recvKey : sc'.recvKey = sc.recvKey
  recvDir : sc'.recvDir = sc.recvDir

theorem Carries.of_same {sc sc' : SecureChannel Key} {d : Bytes} {p : Parcel Bytes}
    (h : Carries C sc d p) (hs : SameReceiver sc sc') : Carries C sc' d p := by
  rcases h with ⟨rest, payload, hd, hnum, hauth, hread⟩
  refine ⟨rest, payload, hd, ?_, ?_, hread⟩
  · rw [← hnum]
    unfold SecureChannel.headerNumber
    rw [hs.token]
  · rw [← hauth]
    unfold SecureChannel.authentic
    rw [hs.token, hs.recvKey, hs.recvDir]

/-- What a datagram under way does at the server: its window records the number,
    and a fresh number hands the command to the host. -/
theorem hear_carried (s : CommandLink Key) (sc : SecureChannel Key) (d : Bytes) (p : Parcel Bytes)
    (halive : s.server.state ≠ .disconnected) (hsc : s.server.channel = some sc)
    (hkeys : sc.hasKeys = true) (h : Carries C sc d p) :
    s.hear C d =
      { s with
        server := { s.server with
          channel := some (sc.withReplay (replayWindow.offer sc.replay p.number)) }
        handed :=
          if sc.replay.fresh p.number = true then s.handed ++ p.load.toList else s.handed } := by
  rcases h with ⟨rest, payload, rfl, hnum, hauth, hread⟩
  rcases SecureChannel.open_fst_of_authentic C.toICrypto sc rest payload hkeys hauth with
    ⟨n, hn, hfst⟩
  rw [hnum, Option.some.injEq] at hn
  subst hn
  have hsnd := SecureChannel.open_snd C.toICrypto sc rest hkeys
  rw [hnum, Option.toList_some] at hsnd
  have hrecv : receive C.toICrypto sc rest =
      (if sc.replay.fresh p.number = true then [messageOf p.load] else [],
        sc.withReplay (replayWindow.offer sc.replay p.number)) := by
    unfold receive
    simp only [hfst, hsnd]
    by_cases hfresh : sc.replay.fresh p.number = true
    · simp only [if_pos hfresh, hread, Option.getD_some]
      rfl
    · simp only [if_neg hfresh]
      rfl
  have hdg : s.server.onDatagram C (kindEncrypted :: rest) =
      ServerConnection.handleAll C
        { s.server with
          channel := some (sc.withReplay (replayWindow.offer sc.replay p.number)) }
        (if sc.replay.fresh p.number = true then [messageOf p.load] else []) := by
    unfold ServerConnection.onDatagram
    simp only [if_neg kindEncrypted_ne, if_true, hsc, hrecv]
  unfold hear
  rw [if_neg halive]
  simp only [hdg]
  by_cases hfresh : sc.replay.fresh p.number = true
  · simp only [if_pos hfresh]
    cases hload : p.load with
    | none =>
        simp only [messageOf, ServerConnection.handleAll, ServerConnection.handleAppMessage,
          Output.append, Output.nothing, fleetCommands, List.append_nil, List.filter_nil,
          List.map_nil, Option.toList_none]
    | some body =>
        simp only [messageOf, ServerConnection.handleAll, ServerConnection.handleAppMessage,
          Output.append, Output.nothing, fleetCommands, List.append_nil, Option.toList_some,
          List.filter_cons, List.filter_nil, decide_true, if_true, List.map_cons, List.map_nil]
  · simp only [if_neg hfresh, ServerConnection.handleAll, Output.nothing, fleetCommands,
      List.append_nil, List.filter_nil, List.map_nil]

/-! ## The simulation -/

/-- A pair whose channels are named. -/
theorem Wired.channels (h : Wired C s) :
    ∃ cc sc, s.client.channel = some cc ∧ s.server.channel = some sc ∧ sc.hasKeys = true ∧
      SecureChannel.Peer sc cc := by
  rcases Option.isSome_iff_exists.mp h.client with ⟨cc, hcc⟩
  rcases Option.isSome_iff_exists.mp h.server with ⟨sc, hsc⟩
  exact ⟨cc, sc, hcc, hsc, h.peers cc sc hcc hsc⟩

/-- Another client whose channel seals as the old one's does, and another server
    whose channel opens as the old one's does. -/
theorem Wired.replace (h : Wired C s) (t : CommandLink Key)
    (cc cc' sc sc' : SecureChannel Key) (hcc : s.client.channel = some cc)
    (hsc : s.server.channel = some sc) (hcc' : t.client.channel = some cc')
    (hsc' : t.server.channel = some sc') (hsend : cc'.hasKeys = cc.hasKeys ∧
      cc'.token = cc.token ∧ cc'.sendKey = cc.sendKey ∧ cc'.sendDir = cc.sendDir)
    (hrecv : sc'.hasKeys = sc.hasKeys ∧ SameReceiver sc sc')
    (hpast : t.client.state ≠ .authenticating) (hkeys : t.client.client.keys.isSome = true)
    (halive : t.server.state ≠ .disconnected)
    (hup : ∀ d ∈ t.up, d ∈ s.up ∨ Carries C sc d.1 d.2) : Wired C t where
  client := by rw [hcc']; rfl
  server := by rw [hsc']; rfl
  past := hpast
  clientKeys := hkeys
  alive := halive
  peers := by
    intro cc₁ sc₁ h₁ h₂
    rw [hcc', Option.some.injEq] at h₁
    rw [hsc', Option.some.injEq] at h₂
    rw [← h₁, ← h₂]
    rcases h.peers cc sc hcc hsc with ⟨hk, hp⟩
    refine ⟨hrecv.1.trans hk, hsend.1.trans hp.hasKeys, ?_, ?_, ?_⟩
    · rw [hsend.2.1, hp.token, hrecv.2.token]
    · rw [hsend.2.2.1, hp.key, hrecv.2.recvKey]
    · rw [hsend.2.2.2, hp.dir, hrecv.2.recvDir]
  carries := by
    intro d hd sc₁ h₂
    rw [hsc', Option.some.injEq] at h₂
    rw [← h₂]
    rcases hup d hd with hold | hnew
    · exact (h.carries d hold sc hsc).of_same C hrecv.2
    · exact hnew.of_same C hrecv.2

theorem nextNumber_eq {cc : SecureChannel Key}
    (h : s.client.channel = some cc) : s.nextNumber = cc.sendCounter.toNat := by
  unfold nextNumber
  rw [h]

theorem serverWindow_eq {sc : SecureChannel Key}
    (h : s.server.channel = some sc) : s.serverWindow = sc.replay := by
  unfold serverWindow
  rw [h]

/-- What a step of the pair does, seen from the link. -/
def Simulates (s t : CommandLink Key) (l : CommandLabel) : Prop :=
  Wired C t ∧ s.toLink.step replayWindow (toLabel l) = some t.toLink ∧
    Link.InOrder replayWindow s.toLink (toLabel l)

theorem post_simulates (hC : C.Correct) (hT : C.Total) (h : Wired C s)
    (l : CommandLabel) (load : Option Bytes) (ch : Channel) (type : MsgType) (body : Bytes)
    (hl : toLabel l = some (.send load)) (ht : type.Named) (hfit : FitsLength body)
    (hmsg : messageOf load = ⟨ch.toByte, type, body⟩) (hnum : s.nextNumber + 1 < 2 ^ 64) :
    Simulates C s (s.post load (s.client.sealOn C ch type body)) l := by
  rcases h.channels C with ⟨cc, sc, hcc, hsc, _, hp⟩
  rcases sealOn_carries C hC hT s.client cc sc hcc hp ch type body load ht hfit hmsg with
    ⟨d, hd, hcarries⟩
  have hnext := nextNumber_eq hcc
  rw [← hnext] at hcarries
  have hcount : (cc.sendCounter + 1).toNat = s.nextNumber + 1 := by
    rw [UInt64.toNat_add, ← hnext]
    exact Nat.mod_eq_of_lt hnum
  rw [hd]
  refine ⟨?_, ?_, ?_⟩
  · refine h.replace C _ cc { cc with sendCounter := cc.sendCounter + 1 } sc sc hcc hsc rfl hsc
      ⟨rfl, rfl, rfl, rfl⟩ ⟨rfl, rfl, rfl, rfl⟩ h.past h.clientKeys h.alive ?_
    intro d' hd'
    simp only [post, List.mem_append, List.mem_singleton] at hd'
    rcases hd' with hd' | hd'
    · exact .inl hd'
    · rw [hd']
      exact .inr hcarries
  · rw [hl]
    simp only [Link.step, Link.post, toLink, post, nextNumber, hcount, List.map_append,
      List.map_cons, List.map_nil, serverWindow]
  · rw [hl]
    trivial

/-- The window's number after a datagram under way. -/
theorem arrive_simulates (h : Wired C s) (i : Nat) (d : Bytes × Parcel Bytes)
    (hi : s.up[i]? = some d) (hguard : InSequence s (.deliver i)) :
    Simulates C s (s.arrive C d.1 d.2) (.deliver i) := by
  rcases h.channels C with ⟨cc, sc, hcc, hsc, hkeys, _⟩
  have hcarries := h.carries d (List.mem_of_getElem? hi) sc hsc
  have hhear := hear_carried C s sc d.1 d.2 h.alive hsc hkeys hcarries
  have hflight : (s.toLink.flight)[i]? = some d.2 := by
    simp only [toLink, List.getElem?_map, hi, Option.map_some]
  have hwin := serverWindow_eq hsc
  refine ⟨?_, ?_, ?_⟩
  · refine h.replace C _ cc cc sc (sc.withReplay (replayWindow.offer sc.replay d.2.number)) hcc hsc
      ?_ ?_ ⟨rfl, rfl, rfl, rfl⟩ ⟨rfl, rfl, rfl, rfl⟩ ?_ ?_ ?_ fun d' hd' => .inl ?_
    · simp only [arrive, hhear, hcc]
    · simp only [arrive, hhear]
    · simp only [arrive, hhear]
      exact h.past
    · simp only [arrive, hhear]
      exact h.clientKeys
    · simp only [arrive, hhear]
      exact h.alive
    · simp only [arrive, hhear] at hd'
      exact hd'
  · simp only [toLabel, Link.step, hflight, Option.map_some, Option.some.injEq]
    simp only [Link.arrive, toLink, arrive, hhear, nextNumber, hwin]
    rfl
  · intro p hp o ho
    rw [hflight, Option.some.injEq] at hp
    rw [← hp]
    exact hguard d hi o ho

/-- A step that moves only what the link does not see. -/
theorem stutter_simulates {s t : CommandLink Key} {l : CommandLabel} (hl : toLabel l = none)
    (hwired : Wired C t) (hlink : t.toLink = s.toLink) : Simulates C s t l := by
  refine ⟨hwired, ?_, ?_⟩
  · rw [hl, hlink]
    rfl
  · rw [hl]
    trivial

/-- What the client hears is not seen from the link. -/
theorem clientHears_simulates (h : Wired C s) (l : CommandLabel)
    (hl : toLabel l = none) (fresh : EcdhKeyPair) (dg : Bytes) :
    Simulates C s { s with client := (s.client.onDatagram C fresh dg).2 } l := by
  rcases h.channels C with ⟨cc, sc, hcc, hsc, hkeys, hp⟩
  rcases client_hears C fresh s.client cc dg hcc hp.hasKeys h.clientKeys h.past with
    ⟨⟨r, hr⟩, hck, hst⟩
  refine stutter_simulates C hl ?_ ?_
  · exact h.replace C _ cc (cc.withReplay r) sc sc hcc hsc hr hsc ⟨rfl, rfl, rfl, rfl⟩
      ⟨rfl, rfl, rfl, rfl⟩ hst hck h.alive fun d hd => .inl hd
  · simp only [toLink, serverWindow]
    rw [nextNumber_eq hr, nextNumber_eq hcc]
    rfl

/-- A clear datagram that does not break the connection is not seen from the link
    either. -/
theorem clear_simulates (h : Wired C s) (dg : Bytes) (hclear : IsClear dg)
    (hkeep : ¬ ServerConnection.ClearBreaks dg) :
    Simulates C s (s.hear C dg) (.clearToServer dg) := by
  rcases h.channels C with ⟨cc, sc, hcc, hsc, hkeys, hp⟩
  have hsess := (ServerConnection.onDatagram_session C s.server dg h.server hclear).1 hkeep
  have happ := ServerConnection.onDatagram_clear_app C s.server dg hclear
  have hch : (s.server.onDatagram C dg).2.channel = some sc :=
    (congrArg Session.channel hsess).trans hsc
  have hst : (s.server.onDatagram C dg).2.state ≠ .disconnected := by
    rw [show (s.server.onDatagram C dg).2.state = s.server.state from congrArg Session.state hsess]
    exact h.alive
  refine stutter_simulates C rfl ?_ ?_
  · refine h.replace C _ cc cc sc sc hcc hsc ?_ ?_ ⟨rfl, rfl, rfl, rfl⟩ ⟨rfl, rfl, rfl, rfl⟩
      ?_ ?_ ?_ ?_
    all_goals unfold hear
    all_goals rw [if_neg h.alive]
    · exact hcc
    · exact hch
    · exact h.past
    · exact h.clientKeys
    · exact hst
    · exact fun d hd => .inl hd
  · unfold hear
    rw [if_neg h.alive]
    simp only [toLink, nextNumber, serverWindow, hch, hsc, happ, fleetCommands, List.filter_nil,
      List.map_nil, List.append_nil]

/-- A step of the pair in sequence is a step in order of the link behind it, or
    none. -/
theorem simulates (hC : C.Correct) (hT : C.Total) {s t : CommandLink Key} (l : CommandLabel)
    (h : Wired C s) (hguard : InSequence s l) (hstep : s.step C l = some t) :
    Simulates C s t l := by
  cases l with
  | sendFleetCommand body =>
      rcases hguard with ⟨hconn, hfit, hnum⟩
      rw [step, Option.some.injEq] at hstep
      rw [← hstep]
      unfold ClientConnection.sendFleetCommand ClientConnection.sendTyped
      rw [if_pos hconn]
      exact post_simulates C hC hT h _ (some body) .reliableOrdered .fleetCommand body rfl
        (fun _ h => by cases h) hfit rfl hnum
  | keepalive =>
      rcases hguard with ⟨hconn, hnum⟩
      rw [step, Option.some.injEq] at hstep
      rw [← hstep]
      unfold ClientConnection.buildKeepalive
      rw [if_pos hconn]
      exact post_simulates C hC hT h _ none .unreliable .keepalive [] rfl
        (fun _ h => by cases h) (by decide) rfl hnum
  | deliver i =>
      rw [step, Option.map_eq_some_iff] at hstep
      rcases hstep with ⟨d, hi, ht⟩
      rw [← ht]
      exact arrive_simulates C h i d hi hguard
  | drop i =>
      rw [step, Option.map_eq_some_iff] at hstep
      rcases hstep with ⟨d, hi, ht⟩
      have hflight : (s.toLink.flight)[i]? = some d.2 := by
        simp only [toLink, List.getElem?_map, hi, Option.map_some]
      rw [← ht]
      refine ⟨?_, ?_, ?_⟩
      · exact ⟨h.client, h.server, h.past, h.clientKeys, h.alive, h.peers,
          fun d' hd' => h.carries d' (List.mem_of_mem_eraseIdx hd')⟩
      · simp only [toLabel, Link.step, hflight, Option.map_some, Option.some.injEq]
        simp only [toLink, nextNumber, serverWindow, List.eraseIdx_map]
      · intro p hp o ho
        rw [hflight, Option.some.injEq] at hp
        rw [← hp]
        exact hguard d hi o ho
  | serverSends ch type body =>
      rw [step, Option.map_eq_some_iff] at hstep
      rcases hstep with ⟨⟨d, server'⟩, hseal, ht⟩
      rcases h.channels C with ⟨cc, sc, hcc, hsc, _, _⟩
      unfold ServerConnection.sealApp at hseal
      simp only [hsc, Option.map_eq_some_iff, Prod.mk.injEq] at hseal
      rcases hseal with ⟨⟨d', sc'⟩, hseal, _, hserver⟩
      have hsame : sc'.hasKeys = sc.hasKeys ∧ SameReceiver sc sc' ∧ sc'.replay = sc.replay := by
        unfold sealMessage at hseal
        rw [Option.map_eq_some_iff] at hseal
        rcases hseal with ⟨⟨r₁, r₂⟩, hseal, hr⟩
        have hcount := (sealDatagram_counter C.toICrypto sc r₂ _ r₁ hseal).1
        rw [Prod.mk.injEq] at hr
        rw [← hr.2, hcount]
        exact ⟨rfl, ⟨rfl, rfl, rfl⟩, rfl⟩
      rw [← ht, ← hserver]
      refine stutter_simulates C rfl ?_ ?_
      · exact h.replace C _ cc cc sc sc' hcc hsc hcc rfl ⟨rfl, rfl, rfl, rfl⟩
          ⟨hsame.1, hsame.2.1⟩ h.past h.clientKeys h.alive fun d hd => .inl hd
      · simp only [toLink, nextNumber, serverWindow, hsc, hsame.2.2]
  | deliverDown fresh i =>
      rw [step, Option.map_eq_some_iff] at hstep
      rcases hstep with ⟨d, _, ht⟩
      rw [← ht]
      exact clientHears_simulates C h _ rfl fresh d
  | dropDown i =>
      rw [step, Option.map_eq_some_iff] at hstep
      rcases hstep with ⟨d, _, ht⟩
      rw [← ht]
      exact stutter_simulates C rfl
        ⟨h.client, h.server, h.past, h.clientKeys, h.alive, h.peers, h.carries⟩ rfl
  | clearToServer dg =>
      rw [step] at hstep
      by_cases hclear : dg.head? = some kindClearHandshake
      · rw [if_pos hclear, Option.some.injEq] at hstep
        rw [← hstep]
        exact clear_simulates C h dg hclear hguard
      · rw [if_neg hclear] at hstep
        cases hstep
  | clearToClient fresh dg =>
      rw [step] at hstep
      by_cases hclear : dg.head? = some kindClearHandshake
      · rw [if_pos hclear, Option.some.injEq] at hstep
        rw [← hstep]
        exact clientHears_simulates C h _ rfl fresh dg
      · rw [if_neg hclear] at hstep
        cases hstep

/-! ## Order and completeness -/

theorem Connected.wired (h : Connected s) : Wired C s where
  client := h.client.channel
  server := h.server.channel
  past := by
    rw [h.connected]
    simp only [ne_eq, reduceCtorEq, not_false_eq_true]
  clientKeys := h.client.keys
  alive := by
    intro hdead
    rcases h.server.state with hst | hst
    · exact absurd (hst.symm.trans hdead) (by decide)
    · exact absurd (hst.symm.trans hdead) (by decide)
  peers := h.peers
  carries := by
    intro d hd
    rw [h.up] at hd
    exact absurd hd List.not_mem_nil

theorem Connected.ordered (h : Connected s) :
    Link.Ordered replayWindow s.toLink where
  split := by
    simp only [toLink, h.sent, h.handed, h.owed, List.map_nil, List.append_nil]
  carried := by
    intro o ho
    simp only [toLink, h.owed] at ho
    exact absurd ho List.not_mem_nil
  fresh := by
    intro o ho
    simp only [toLink, h.owed] at ho
    exact absurd ho List.not_mem_nil
  below := by
    intro p hp
    simp only [toLink, h.up, List.map_nil] at hp
    exact absurd hp List.not_mem_nil
  above := h.unseen
  same := by
    intro p hp
    simp only [toLink, h.up, List.map_nil] at hp
    exact absurd hp List.not_mem_nil
  claimed := by
    intro p hp
    simp only [toLink, h.up, List.map_nil] at hp
    exact absurd hp List.not_mem_nil
  sorted := by
    simp only [toLink, h.owed]
    exact List.Pairwise.nil

/-- Every datagram of the client's that is under way arrives or is dropped, then or
    later. -/
def Delivers (e : Execution (step C) (@InSequence Key)) : Prop :=
  ∀ n, ∀ d ∈ (e.state n).up, ∃ m, n ≤ m ∧ ∃ i, (e.state m).up[i]? = some d ∧
    (e.label m = .deliver i ∨ e.label m = .drop i)

theorem wired_all (hC : C.Correct) (hT : C.Total)
    (e : Execution (step C) (@InSequence Key)) (h0 : Connected (e.state 0)) (n : Nat) :
    Wired C (e.state n) :=
  e.invariant (fun _ l _ h hg hs => (simulates C hC hT l h hg hs).1) (h0.wired C) n

/-- The run of the link behind a run of the pair. -/
def linkOf (hC : C.Correct) (hT : C.Total) (e : Execution (step C) (@InSequence Key))
    (h0 : Connected (e.state 0)) :
    Execution (Link.step replayWindow) (Link.InOrder replayWindow (α := Bytes)) where
  state := fun n => (e.state n).toLink
  label := fun n => toLabel (e.label n)
  guarded := fun n =>
    (simulates C hC hT _ (wired_all C hC hT e h0 n) (e.guarded n) (e.stepped n)).2.2
  stepped := fun n =>
    (simulates C hC hT _ (wired_all C hC hT e h0 n) (e.guarded n) (e.stepped n)).2.1

/-- In every run of a connected pair whose steps are in sequence, what is handed to
    the host is a prefix of what was passed to the client at all times; and if the
    datagrams under way arrive, every command is handed over in the end. -/
theorem fleetCommands_in_order (hC : C.Correct) (hT : C.Total)
    (e : Execution (step C) (@InSequence Key)) (h0 : Connected (e.state 0)) :
    (∀ n, (e.state n).handed <+: (e.state n).sent) ∧
      (Delivers C e → ∀ n k, k < (e.state n).sent.length →
        ∃ m, k < (e.state m).handed.length) := by
  refine ⟨fun n => Link.handed_isPrefix (linkOf C hC hT e h0) h0.ordered n, ?_⟩
  intro hdel n k hk
  refine Link.handed_all (linkOf C hC hT e h0) h0.ordered ?_ n k hk
  -- What is under way on the link is under way between the two ends.
  intro n p hp
  rcases List.mem_map.mp hp with ⟨d, hd, rfl⟩
  rcases hdel n d hd with ⟨m, hm, i, hi, hlabel⟩
  refine ⟨m, hm, i, ?_, ?_⟩
  · show ((e.state m).up.map Prod.snd)[i]? = some d.2
    rw [List.getElem?_map, hi, Option.map_some]
  · rcases hlabel with h | h
    · exact .inl (congrArg toLabel h)
    · exact .inr (congrArg toLabel h)

/-! ## Two runs -/

instance (dg : Bytes) : Decidable (ServerConnection.ClearBreaks dg) :=
  match dg with
  | [] => isFalse fun ⟨_, _, h, _⟩ => nomatch h
  | [_] => isFalse fun ⟨_, _, h, _⟩ => nomatch h
  | kind :: type :: body =>
      decidable_of_iff (kind = kindClearHandshake ∧ MsgType.ofByte type = .clockSyncRequest ∧
        body.length < 16)
        ⟨fun ⟨hk, ht, hb⟩ => ⟨type, body, by rw [hk], ht, hb⟩,
          fun ⟨_, _, h, ht, hb⟩ => by
            simp only [List.cons.injEq] at h
            rw [h.1, h.2.1, h.2.2]
            exact ⟨rfl, ht, hb⟩⟩

instance instDecidableInSequence : ∀ (s : CommandLink Key) (l : CommandLabel),
    Decidable (InSequence s l)
  | s, .sendFleetCommand body =>
      inferInstanceAs (Decidable (s.client.state = .connected ∧ FitsLength body ∧ _))
  | s, .keepalive => inferInstanceAs (Decidable (s.client.state = .connected ∧ _))
  | s, .deliver i =>
      decidable_of_iff (∀ d ∈ (s.up[i]?).toList, ∀ o ∈ s.owed,
        (o.1 = d.2.number → s.owed.head? = some o) ∧ d.2.number < o.1 + windowBits)
        ⟨fun h d hd => h d (Option.mem_toList.mpr hd), fun h d hd => h d (Option.mem_toList.mp hd)⟩
  | s, .drop i =>
      decidable_of_iff (∀ d ∈ (s.up[i]?).toList, ∀ o ∈ s.owed, o.1 ≠ d.2.number)
        ⟨fun h d hd => h d (Option.mem_toList.mpr hd), fun h d hd => h d (Option.mem_toList.mp hd)⟩
  | _, .serverSends _ _ _ => inferInstanceAs (Decidable True)
  | _, .deliverDown _ _ => inferInstanceAs (Decidable True)
  | _, .dropDown _ => inferInstanceAs (Decidable True)
  | _, .clearToServer dg => inferInstanceAs (Decidable (¬ ServerConnection.ClearBreaks dg))
  | _, .clearToClient _ _ => inferInstanceAs (Decidable True)

/-- A pair that has just logged in. -/
def samplePair : CommandLink UInt8 :=
  let c : ClientConnection UInt8 := .start (List.Vector.replicate _ 0) 0 [] none
  let s : ServerConnection UInt8 := .start [] 7 0
  { client := { c with
      client := { c.client with token := 7, keys := some (9, 9), complete := true }
      channel := some SecureChannel.client, state := .connected, token := 7 }
    server := { s with
      server := { s.server with keys := some (9, 9), complete := true }
      channel := some SecureChannel.server, state := .connected }
    up := [], down := [], sent := [], handed := [], owed := [] }

theorem samplePair_connected : Connected samplePair where
  client := ⟨rfl, rfl, .inr rfl⟩
  server := ⟨rfl, rfl, .inr rfl⟩
  connected := rfl
  peers := by
    intro cc sc hcc hsc
    rw [← Option.some.inj hcc, ← Option.some.inj hsc]
    exact ⟨rfl, rfl, rfl, rfl, rfl⟩
  unseen := fun _ _ => rfl
  up := rfl
  sent := rfl
  handed := rfl
  owed := rfl

theorem sampleProvider_total : sampleProvider.Total := by
  intro k d n aad plain h
  exact absurd h (by simp only [sampleProvider, SecureChannel.checksumCrypto, reduceCtorEq,
    not_false_eq_true])

/-- Two commands delivered one after the other. -/
def twoCommands : List CommandLabel :=
  [.sendFleetCommand [1], .sendFleetCommand [2], .deliver 0, .deliver 1]

/-- A run in which two commands are handed over in order. -/
theorem fleetCommands_in_order_two :
    ∃ e : Execution (step sampleProvider) (@InSequence UInt8),
      (∀ n, 4 ≤ n → (e.state n).handed = [[1], [2]]) ∧
        ∀ n, (e.state n).handed <+: (e.state n).sent := by
  have hrun : ((runGuarded (step sampleProvider) InSequence samplePair twoCommands).any
      fun t => t.handed = [[1], [2]]) = true := by decide +kernel
  rcases (Option.any_eq_true _ _).mp hrun with ⟨t, ht, hhanded⟩
  -- From then on nothing but an empty clear datagram.
  rcases exists_execution (CommandLabel.clearToClient (sampleKeyPair 0) [0]) twoCommands
    samplePair t ht trivial rfl with ⟨e, he0, he⟩
  refine ⟨e, ?_, ?_⟩
  · intro n hn
    rw [he n hn]
    exact of_decide_eq_true hhanded
  · have h0 : Connected (e.state 0) := by
      rw [he0]
      exact samplePair_connected
    exact (fleetCommands_in_order sampleProvider SecureChannel.checksumCrypto_correct
      sampleProvider_total e h0).1

/-- A command whose datagram is lost is passed over: the next one is handed to the
    host, and nothing is under way that could bring the first. -/
theorem lost_command :
    ∃ t, Reaches (step sampleProvider) free samplePair t ∧
      ¬ t.handed <+: t.sent ∧ t.sent = [[1], [2]] ∧ t.handed = [[2]] := by
  have hrun : ((runLabels (step sampleProvider) samplePair
      [.sendFleetCommand [1], .sendFleetCommand [2], .drop 0, .deliver 0]).any fun t =>
        t.sent = [[1], [2]] ∧ t.handed = [[2]]) = true := by decide +kernel
  rcases exists_of_runLabels _ hrun with ⟨t, ht, hb⟩
  rw [decide_eq_true_eq] at hb
  refine ⟨t, ht, ?_, hb⟩
  rw [hb.1, hb.2]
  decide

end CommandLink

end Net

end EarthRise
