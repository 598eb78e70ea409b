import EarthRise.Core.LiveClient
import EarthRise.Theory.CommandLink
import EarthRise.Theory.Pipeline
import EarthRise.Theory.ServerHost

/-!
# What Leaves a Live Client

Whether an entity that is gone leaves the client, when host and client are joined as
they are in use.

The tables of a client learn what it holds from its acknowledgements, and a tombstone
is for something it holds. No acknowledgement ever reaches them: `Unacked` is kept by
every operation the host calls, so no snapshot has a tombstone. The decoder keeps
whatever it holds, and an entity that is out of sight is not added.

`Joined` is the invariant for the two ends: their channels are made for each other,
what is under way to the host opens as a keepalive or a command, and what is under way
to the client as a snapshot whose records have a given property.

## Main definitions

* `ReplWorld.Unacked`: Nothing was acknowledged and nothing is marked.
* `SecureChannel.Mates`: Two channels that open what the other seals.
* `Opens`: What a datagram is at the end it goes to.
* `LiveClient.Ready`: A client that has just logged in.
* `LiveClient.Joined`: The invariant.
* `LiveClient.Away`: The guard under which an entity stays out of sight.

## Theorems

* `records_unacked`: Without acknowledgements there are no tombstones.
* `joined_step`: The invariant is kept.
* `despawn_reaches_iff`: When an entity that is gone has left the client.
* `ghost_stays`: A destroyed ship that stays on the client.
-/

namespace EarthRise

namespace Net

open Universe Sim Run

/-! ## Without acknowledgements -/

namespace ReplWorld

/-- Nothing is marked for removal and nothing was acknowledged, for any client. -/
def Unacked (w : ReplWorld) : Prop :=
  ∀ id n, (w.tables id).baseline.acked.find? n = none ∧
    (w.tables id).baseline.tombstones.find? n = none

variable {w : ReplWorld}

theorem unacked_setTables (h : w.Unacked) (id : NetId) (t : ClientTables)
    (ht : ∀ n, t.baseline.acked.find? n = none ∧ t.baseline.tombstones.find? n = none) :
    (w.setTables id t).Unacked := by
  intro i n
  unfold setTables
  by_cases hi : i = id
  · simp only [if_pos hi]
    exact ht n
  · simp only [if_neg hi]
    exact h i n

/-- Building a snapshot marks nothing. -/
theorem build_unacked (R : WorldRules) (h : w.Unacked) (id : UInt32)
    (budget : Nat) : ((replUniverse R).buildClientSnapshot id budget w).2.Unacked := by
  refine unacked_setTables h _ _ fun n => ?_
  rcases (ServerUniverse.tombstonesFor_spec w.sim (toNetId id) (w.tables (toNetId id))).1 with
    ⟨hacked, _, htomb, _, _, _⟩
  have h' := h (toNetId id) n
  refine ⟨(hacked n).trans ?_, (htomb n).trans ?_⟩
  · rw [h'.1, ite_self]
  · rw [h'.1, h'.2]
    simp only [Option.isSome_none, Bool.false_eq_true, if_false, ite_self]

/-- Recording a snapshot marks nothing either. -/
theorem record_unacked (R : WorldRules) (h : w.Unacked) (id : UInt32)
    (snap : DeltaSnapshot) : ((replUniverse R).recordClientSnapshotSent id snap w).Unacked := by
  refine unacked_setTables h _ _ fun n => ?_
  have hkeep : ∀ (ids : List NetId) (ts : OrdMap NetId Nat), (∀ n, ts.find? n = none) →
      ids.foldl (fun m n => if m.find? n = some unsent then m.insert n snap.tick else m) ts = ts := by
    intro ids
    induction ids with
    | nil => exact fun ts _ => rfl
    | cons i ids ih =>
        intro ts hts
        rw [List.foldl_cons, if_neg (by
          rw [hts i]
          simp only [reduceCtorEq, not_false_eq_true])]
        exact ih ts hts
  have hsent : ∀ b : ClientBaseline, ∀ sent, (b.recordSent snap.tick sent).acked = b.acked ∧
      (b.recordSent snap.tick sent).tombstones = b.tombstones := by
    intro b sent
    unfold ClientBaseline.recordSent
    split
    · exact ⟨rfl, rfl⟩
    · exact ⟨rfl, rfl⟩
  unfold ClientTables.recordClientSnapshotSent ClientBaseline.recordTombstonesSent
  simp only [(hsent _ _).1, (hsent _ _).2]
  refine ⟨(h _ n).1, ?_⟩
  rw [hkeep _ _ fun n => (h _ n).2]
  exact (h _ n).2

/-- Without acknowledgements a snapshot has no tombstones. -/
theorem records_unacked (R : WorldRules) (h : w.Unacked) (id : UInt32)
    (budget : Nat) :
    ∀ r ∈ ((replUniverse R).buildClientSnapshot id budget w).1.records, r.mask.tomb = false := by
  intro r hr
  rcases ServerUniverse.mem_records R.sqrt w.sim (toNetId id) w.weights w.visibleCap budget
    (w.tables (toNetId id)) r hr with ⟨_, cur, _, _, rfl⟩ | ⟨n, hn, _⟩
  · exact makeDeltaRecord_tomb cur _
  · rcases ServerUniverse.tombstonesFor_spec w.sim (toNetId id) (w.tables (toNetId id)) with
      ⟨hspec, hout⟩
    rw [hout, OrdMap.mem_keys, hspec.tombstones, (h _ n).1, (h _ n).2] at hn
    simp only [Option.isSome_none, Bool.false_eq_true, if_false, ite_self] at hn

/-- A snapshot within the host's budget fits the length field of a message. -/
theorem snapshot_fits (R : WorldRules) (w : ReplWorld) (id : UInt32) :
    FitsLength (encodeDeltaSnapshot
      ((replUniverse R).buildClientSnapshot id snapshotByteBudget w).1) := by
  have hlen := length_budgeted_le w.sim.tick
    ((scheduleClient ((w.sim.changedFor (toNetId id) (w.tables (toNetId id))).filterMap
      (w.sim.candidate R.sqrt (toNetId id) (w.tables (toNetId id)))) w.weights
      w.visibleCap).ordered.filterMap (w.sim.liveRecord (w.tables (toNetId id))) ++
      (w.sim.tombstonesFor (toNetId id) (w.tables (toNetId id))).1.map tombstoneRecord)
    snapshotByteBudget
  have hbudget : snapshotByteBudget = 1164 := by decide
  rw [hbudget] at hlen
  unfold FitsLength
  show List.length (encodeDeltaSnapshot (buildBudgetedSnapshot _ _ snapshotByteBudget).1) < _
  rw [hbudget]
  omega

end ReplWorld

/-! ## Datagrams between the two ends -/

/-- The same endpoint after some sending and receiving. -/
def SecureChannel.Moved {Key : Type} (ch ch' : SecureChannel Key) : Prop :=
  ∃ n r, ch' = { ch with sendCounter := n, replay := r }

theorem SecureChannel.Moved.refl {Key : Type} (ch : SecureChannel Key) : ch.Moved ch :=
  ⟨_, _, rfl⟩

/-- Two channels that open what the other seals. -/
structure SecureChannel.Mates {Key : Type} (a b : SecureChannel Key) : Prop where
  fromLeft : SecureChannel.Peer b a
  fromRight : SecureChannel.Peer a b

theorem SecureChannel.Mates.moved {Key : Type} {a a' b b' : SecureChannel Key} (h : a.Mates b)
    (ha : a.Moved a') (hb : b.Moved b') : a'.Mates b' := by
  rcases ha with ⟨_, _, rfl⟩
  rcases hb with ⟨_, _, rfl⟩
  exact ⟨⟨h.fromLeft.hasKeys, h.fromLeft.token, h.fromLeft.key, h.fromLeft.dir⟩,
    ⟨h.fromRight.hasKeys, h.fromRight.token, h.fromRight.key, h.fromRight.dir⟩⟩

section Datagrams

variable {Key : Type} (C : CryptoProvider Key) {m : DecodedMessage} {d : Bytes}

/-- A datagram that is one message for a channel. -/
def Opens (ch : SecureChannel Key) (d : Bytes) (m : DecodedMessage) : Prop :=
  ∃ rest payload, d = kindEncrypted :: rest ∧ ch.authentic C.toICrypto rest = some payload ∧
    readMessages payload = some [m]

theorem Opens.moved {ch ch' : SecureChannel Key}
    (h : Opens C ch d m) (hm : ch.Moved ch') : Opens C ch' d m := by
  rcases hm with ⟨_, _, rfl⟩
  exact h

/-- What one end seals is one message for the other. -/
theorem sealMessage_opens (hC : C.Correct) {a b a' : SecureChannel Key} (hp : SecureChannel.Peer b a)
    (ch : Channel) (type : MsgType) (body d : Bytes) (ht : type.Named) (hfit : FitsLength body)
    (hseal : sealMessage C.toICrypto a ch type body = some (d, a')) :
    a.Moved a' ∧ Opens C b d ⟨ch.toByte, type, body⟩ := by
  unfold sealMessage at hseal
  rw [Option.map_eq_some_iff] at hseal
  rcases hseal with ⟨⟨rest, a''⟩, hdg, heq⟩
  simp only [Prod.mk.injEq] at heq
  rw [heq.2] at hdg
  refine ⟨⟨_, _, (CommandLink.sealDatagram_counter C.toICrypto a a' _ rest hdg).1⟩, rest, _,
    heq.1.symm, SecureChannel.sealDatagram_authentic C.toICrypto hC b a a' _ rest hp hdg,
    readMessages_write ch type body ht hfit⟩

/-- A datagram that is one message is received as that, or as nothing if its number
    is not fresh. -/
theorem receive_opens {ch : SecureChannel Key} (hkeys : ch.hasKeys = true) {rest : Bytes}
    (h : Opens C ch (kindEncrypted :: rest) m) :
    ∃ app, (app = [] ∨ app = [m]) ∧ ∃ ch', ch.Moved ch' ∧ receive C.toICrypto ch rest = (app, ch') := by
  rcases h with ⟨rest', payload, heq, hauth, hread⟩
  rw [List.cons.injEq] at heq
  rw [← heq.2] at hauth
  rcases SecureChannel.open_fst_of_authentic C.toICrypto ch rest payload hkeys hauth with
    ⟨n, _, hfst⟩
  have hsnd := SecureChannel.open_snd C.toICrypto ch rest hkeys
  unfold receive
  simp only [hfst, hsnd]
  by_cases hfresh : ch.replay.fresh n = true
  · simp only [if_pos hfresh, hread, Option.getD_some]
    exact ⟨_, .inr rfl, _, ⟨_, _, rfl⟩, rfl⟩
  · simp only [if_neg hfresh]
    exact ⟨_, .inl rfl, _, ⟨_, _, rfl⟩, rfl⟩

/-- A snapshot comes out of the client's connection as it is. -/
theorem ClientConnection.hears_snapshot (fresh : EcdhKeyPair) (c : ClientConnection Key)
    {cc : SecureChannel Key} (hcc : c.channel = some cc) (hkeys : cc.hasKeys = true)
    (h : Opens C cc d m) (hm : m.type = .snapshot) :
    ∃ app, (app = [] ∨ app = [m]) ∧ ∃ cc', cc.Moved cc' ∧
      c.onDatagram C fresh d = (⟨app, []⟩, { c with channel := some cc' }) := by
  rcases h with ⟨rest, payload, rfl, hauth, hread⟩
  rcases receive_opens C hkeys ⟨rest, payload, rfl, hauth, hread⟩ with ⟨app, happ, cc', hmoved, hr⟩
  refine ⟨app, happ, cc', hmoved, ?_⟩
  unfold onDatagram
  simp only [if_neg kindEncrypted_ne, if_true, hcc, hr]
  rcases happ with rfl | rfl
  · rfl
  · simp only [handleAll, handleAppMessage, hm, reduceCtorEq, false_and, if_false]
    rfl

/-- A keepalive or a command comes out of the server's connection as nothing or as
    the command. -/
theorem ServerConnection.hears_command (c : ServerConnection Key) {sc : SecureChannel Key}
    (hsc : c.channel = some sc) (hkeys : sc.hasKeys = true)
    (h : Opens C sc d m) (hm : m.type = .keepalive ∨ m.type = .fleetCommand) :
    ∃ app, (app = [] ∨ app = [m] ∧ m.type = .fleetCommand) ∧ ∃ sc', sc.Moved sc' ∧
      c.onDatagram C d = (⟨app, []⟩, { c with channel := some sc' }) := by
  rcases h with ⟨rest, payload, rfl, hauth, hread⟩
  rcases receive_opens C hkeys ⟨rest, payload, rfl, hauth, hread⟩ with ⟨app, happ, sc', hmoved, hr⟩
  unfold onDatagram
  simp only [if_neg kindEncrypted_ne, if_true, hsc, hr]
  rcases happ with rfl | rfl
  · exact ⟨[], .inl rfl, sc', hmoved, rfl⟩
  · rcases hm with hm | hm
    · refine ⟨[], .inl rfl, sc', hmoved, ?_⟩
      simp only [handleAll, handleAppMessage, hm]
      rfl
    · refine ⟨[m], .inr ⟨rfl, hm⟩, sc', hmoved, ?_⟩
      simp only [handleAll, handleAppMessage, hm]
      rfl

end Datagrams

/-! ## The host -/

section Host

variable {Key A : Type} (C : CryptoProvider Key) (R : WorldRules) (S : AccountService A)

/-- The host has one connection, of a player past the login. -/
def ServerHost.Serves (h : ServerHost Key ReplWorld A) (token : UInt64) (player : UInt32)
    (sc : SecureChannel Key) : Prop :=
  ∃ e, h.conns = [(token, e)] ∧ e.playerNetId = player ∧ e.conn.state = .connected ∧
    e.conn.channel = some sc

namespace ServerHost

variable {h : ServerHost Key ReplWorld A} {token : UInt64} {player : UInt32}

theorem Serves.modify
    {sc sc' : SecureChannel Key} (hs : h.Serves token player sc) (f : ConnEntry Key → ConnEntry Key)
    (hf : ∀ e, e.conn.channel = some sc → (f e).playerNetId = e.playerNetId ∧
      (f e).conn.state = e.conn.state ∧ (f e).conn.channel = some sc') :
    (h.modify token f).Serves token player sc' := by
  rcases hs with ⟨e, hconns, hplayer, hstate, hch⟩
  rcases hf e hch with ⟨hfplayer, hfstate, hfch⟩
  refine ⟨f e, ?_, hfplayer.trans hplayer, hfstate.trans hstate, hfch⟩
  unfold ServerHost.modify
  simp only [hconns, List.map_cons, List.map_nil, if_true]

theorem entryForToken_serves {token t : UInt64} {e : ConnEntry Key}
    (hconns : h.conns = [(token, e)]) :
    h.entryForToken t = if token = t then some e else none := by
  unfold entryForToken
  rw [hconns, List.find?_cons]
  by_cases ht : token = t
  · rw [if_pos ht, decide_eq_true ht, Option.map_some]
  · rw [if_neg ht, decide_eq_false ht]
    rfl

/-- What comes of the messages of a player that sends keepalives and commands. -/
theorem applyMessages_command
    {sc : SecureChannel Key} (hs : h.Serves token player sc) (hw : h.world.Unacked) (peer : Endpoint)
    {app : List DecodedMessage} {m : DecodedMessage}
    (happ : app = [] ∨ app = [m] ∧ m.type = .fleetCommand) :
    (h.applyMessages C (replUniverse R) S token peer app).1 = [] ∧
      (h.applyMessages C (replUniverse R) S token peer app).2.Serves token player sc ∧
      (h.applyMessages C (replUniverse R) S token peer app).2.world.Unacked := by
  rcases happ with rfl | ⟨rfl, hm⟩
  · exact ⟨rfl, hs, hw⟩
  · rcases hs with ⟨e, hconns, hrest⟩
    simp only [applyMessages, applyMessage, hm, entryForToken_serves hconns, if_true]
    by_cases hauthed : e.authed = true
    · simp only [if_pos hauthed]
      exact ⟨rfl, ⟨e, hconns, hrest⟩, hw⟩
    · simp only [if_neg hauthed]
      exact ⟨rfl, ⟨e, hconns, hrest⟩, hw⟩

/-- A datagram under way to the host is taken without an answer. -/
theorem hears
    {sc : SecureChannel Key} (hs : h.Serves token player sc) (hw : h.world.Unacked)
    (hkeys : sc.hasKeys = true) (fresh : EcdhKeyPair) (peer : Endpoint) {d : Bytes}
    {m : DecodedMessage} (hd : Opens C sc d m) (hm : m.type = .keepalive ∨ m.type = .fleetCommand) :
    (h.onDatagram C (replUniverse R) S fresh peer d).1 = [] ∧
      ∃ sc', sc.Moved sc' ∧
        (h.onDatagram C (replUniverse R) S fresh peer d).2.Serves token player sc' ∧
        (h.onDatagram C (replUniverse R) S fresh peer d).2.world.Unacked := by
  have hkind : d.head? = some kindEncrypted := by
    rcases hd with ⟨rest, _, rfl, _⟩
    rfl
  match d, hkind with
  | kind :: rest, hkind =>
      obtain rfl : kind = kindEncrypted := Option.some.inj hkind
      unfold onDatagram
      simp only [if_true]
      split
      · exact ⟨rfl, sc, .refl sc, hs, hw⟩
      · rename_i t _
        by_cases ht : (h.entryForToken t).isSome = true
        · simp only [if_pos ht]
          -- The one connection has the token.
          obtain rfl : token = t := by
            rcases hs with ⟨e, hconns, _⟩
            by_contra hne
            rw [entryForToken_serves hconns, if_neg hne] at ht
            exact absurd ht (by simp only [Option.isSome_none, Bool.false_eq_true,
              not_false_eq_true])
          have hs₁ : (h.modify token fun e => { e with lastSeenMs := h.nowMs }).Serves token player sc :=
            hs.modify _ fun e he => ⟨rfl, rfl, he⟩
          rcases hs₁ with ⟨e, hconns, hplayer, hstate, hch⟩
          rcases ServerConnection.hears_command C e.conn hch hkeys hd hm with
            ⟨app, happ, sc', hmoved, hon⟩
          have hrep : ¬ isRepeatedCookieResponse e (kindEncrypted :: rest) = true := by
            unfold isRepeatedCookieResponse
            simp only [hstate, ne_eq, not_true_eq_false, decide_false, Bool.false_and,
              Bool.false_eq_true, not_false_eq_true]
          have hs₂ : ((h.modify token fun e => { e with lastSeenMs := h.nowMs }).setConn token
              { e.conn with channel := some sc' }).Serves token player sc' := by
            refine ⟨{ e with conn := { e.conn with channel := some sc' } }, ?_, hplayer, hstate, rfl⟩
            unfold setConn
            rw [modify, hconns]
            simp only [List.map_cons, List.map_nil, if_true]
          rcases applyMessages_command C R S hs₂ hw peer happ with ⟨hout, hserves, hworld⟩
          have hdisp : (h.modify token fun e => { e with lastSeenMs := h.nowMs }).dispatchToConnection
              C (replUniverse R) S token peer (kindEncrypted :: rest) =
              ((((h.modify token fun e => { e with lastSeenMs := h.nowMs }).setConn token
                { e.conn with channel := some sc' }).applyMessages C (replUniverse R) S token peer
                  app)) := by
            unfold dispatchToConnection
            simp only [entryForToken_serves hconns, if_true, if_neg hrep, hon, List.map_nil,
              List.nil_append]
          unfold routeTo
          simp only [hdisp]
          rcases hserves with ⟨e', hconns', hrest⟩
          simp only [entryForToken_serves hconns', if_true, hrest.2.1, reduceCtorEq, if_false]
          exact ⟨hout, sc', hmoved, ⟨e', hconns', hrest⟩, hworld⟩
        · simp only [if_neg ht]
          exact ⟨trivial, sc, .refl sc, hs, hw⟩

/-- A broadcast is one snapshot for the player. -/
theorem broadcasts (hC : C.Correct)
    {cc sc : SecureChannel Key} (hs : h.Serves token player sc)
    (hplayer : player ≠ 0) (hw : h.world.Unacked) (hp : SecureChannel.Peer cc sc) :
    (∃ sc', sc.Moved sc' ∧
      (h.broadcastSnapshots C (replUniverse R)).2.Serves token player sc') ∧
      (h.broadcastSnapshots C (replUniverse R)).2.world.Unacked ∧
      ∀ o ∈ (h.broadcastSnapshots C (replUniverse R)).1, Opens C cc o.data
        ⟨Channel.unreliable.toByte, .snapshot, encodeDeltaSnapshot
          ((replUniverse R).buildClientSnapshot player snapshotByteBudget h.world).1⟩ := by
  rcases hs with ⟨e, hconns, rfl, hstate, hch⟩
  have hids : h.connectedClientIds = [e.playerNetId] := by
    unfold connectedClientIds
    rw [hconns, List.filter_cons_of_pos (by
      rw [decide_eq_true_eq]
      exact ⟨hstate, hplayer⟩)]
    simp only [List.filter_nil, List.map_cons, List.map_nil, List.mergeSort_singleton]
  unfold broadcastSnapshots
  rw [hids]
  simp only [encodeClients, sendSnapshots, List.append_nil]
  have hw₁ := ReplWorld.build_unacked R hw e.playerNetId snapshotByteBudget
  have hfit := ReplWorld.snapshot_fits R h.world e.playerNetId
  generalize (replUniverse R).buildClientSnapshot e.playerNetId snapshotByteBudget h.world = r
    at hw₁ hfit ⊢
  have hent : ({ h with world := r.2 } : ServerHost Key ReplWorld A).entryForClient e.playerNetId =
      some (token, e) := by
    unfold entryForClient
    simp only [hconns, List.find?_cons, decide_true]
  unfold sendSnapshot
  simp only [hent, hstate, ne_eq, not_true_eq_false, if_false]
  have hw₂ := ReplWorld.record_unacked R hw₁ e.playerNetId r.1
  unfold ServerConnection.sealApp
  simp only [hch]
  cases hseal : sealMessage C.toICrypto sc .unreliable .snapshot ((replUniverse R).encodeSnapshot r.1) with
  | none =>
      simp only [Option.map_none]
      exact ⟨⟨sc, .refl sc, e, hconns, rfl, hstate, hch⟩, hw₂, nofun⟩
  | some q =>
      rcases sealMessage_opens C hC hp .unreliable .snapshot _ q.1
        (by intro code; simp only [ne_eq, reduceCtorEq, not_false_eq_true]) hfit hseal with
        ⟨hmoved, hopens⟩
      simp only [Option.map_some]
      refine ⟨⟨q.2, hmoved, { e with conn := { e.conn with channel := some q.2 } }, ?_, rfl, hstate,
        rfl⟩, hw₂, ?_⟩
      · unfold setConn modify
        simp only [hconns, List.map_cons, List.map_nil, if_true]
      · intro o ho
        rw [List.mem_singleton] at ho
        rw [ho]
        exact hopens

end ServerHost

end Host

/-! ## Both ends -/

namespace LiveClient

variable {Key A : Type} (C : CryptoProvider Key) (R : WorldRules) (S : AccountService A)
  {s : LiveClient Key A} {cc sc : SecureChannel Key} {P : DeltaRecord → Prop}
  {s t : LiveClient Key A} {n : NetId}

/-- A datagram that is a snapshot whose records all have a property. -/
def Bears (P : DeltaRecord → Prop) (ch : SecureChannel Key) (d : Bytes) : Prop :=
  ∃ snap : DeltaSnapshot, Opens C ch d
    ⟨Channel.unreliable.toByte, .snapshot, encodeDeltaSnapshot snap⟩ ∧ ∀ r ∈ snap.records, P r

/-- A client past the login, the only one of its host, with nothing under way and
    nothing acknowledged. -/
structure Ready (s : LiveClient Key A) : Prop where
  conns : ∃ token e sc cc, s.host.conns = [(token, e)] ∧ e.endpoint = s.peer ∧
    e.playerNetId = s.client.playerNetId ∧ e.conn.state = .connected ∧
    e.conn.channel = some sc ∧ s.client.channel = some cc ∧ cc.Mates sc
  connected : s.client.state = .connected
  player : s.client.playerNetId ≠ 0
  unacked : s.host.world.Unacked
  still : s.still = true

/-- Both ends are past the login, with channels made for each other; a keepalive or a
    command is under way to the host, and to the client snapshots whose records have a
    property. -/
structure Joined (P : DeltaRecord → Prop) (cc sc : SecureChannel Key) (s : LiveClient Key A) :
    Prop where
  serves : ∃ token, s.host.Serves token s.client.playerNetId sc
  channel : s.client.channel = some cc
  mates : cc.Mates sc
  player : s.client.playerNetId ≠ 0
  unacked : s.host.world.Unacked
  up : ∀ d ∈ s.up, ∃ m, Opens C sc d m ∧ (m.type = .keepalive ∨ m.type = .fleetCommand)
  down : ∀ d ∈ s.down, Bears C P cc d

/-- The decoder is as it was, or has applied a snapshot whose records have a
    property. -/
def Heard (P : DeltaRecord → Prop) (st st' : DeltaDecodeState) : Prop :=
  st' = st ∨ ∃ snap : DeltaSnapshot, (∀ r ∈ snap.records, P r) ∧
    st' = replicate st (encodeDeltaSnapshot snap)

theorem still_iff (s : LiveClient Key A) : s.still = true ↔ s.up = [] ∧ s.down = [] := by
  unfold still
  rw [Bool.and_eq_true, List.isEmpty_iff, List.isEmpty_iff]

theorem Bears.moved {ch ch' : SecureChannel Key} {d : Bytes}
    (h : Bears C P ch d) (hm : ch.Moved ch') : Bears C P ch' d := by
  rcases h with ⟨snap, hopens, hrecs⟩
  exact ⟨snap, hopens.moved C hm, hrecs⟩

theorem Ready.joined (h : s.Ready) (P : DeltaRecord → Prop) :
    ∃ cc sc, Joined C P cc sc s := by
  rcases h.conns with ⟨token, e, sc, cc, hconns, _, hplayer, hstate, hsc, hcc, hmates⟩
  rcases s.still_iff.mp h.still with ⟨hup, hdown⟩
  refine ⟨cc, sc, ⟨token, e, hconns, hplayer, hstate, hsc⟩, hcc, hmates, h.player, h.unacked, ?_, ?_⟩
  · rw [hup]
    exact nofun
  · rw [hdown]
    exact nofun

/-- With nothing under way the property is any property. -/
theorem Joined.of_still {P Q : DeltaRecord → Prop}
    (h : Joined C P cc sc s) (hstill : s.still = true) : Joined C Q cc sc s :=
  { h with
    down := by
      rw [(s.still_iff.mp hstill).2]
      exact nofun }

/-- What the client sends on its channel opens at the host. -/
theorem joined_clientSends (hC : C.Correct)
    (h : Joined C P cc sc s) (ch : Channel) (type : MsgType) (body : Bytes)
    (ht : type = .keepalive ∨ type = .fleetCommand) (hfit : FitsLength body) :
    ∃ cc', Joined C P cc' sc (s.clientSends (s.client.sealOn C ch type body)) := by
  unfold ClientConnection.sealOn
  simp only [h.channel]
  cases hseal : sealMessage C.toICrypto cc ch type body with
  | none => exact ⟨cc, h⟩
  | some q =>
      have hnamed : type.Named := by
        intro code
        rcases ht with rfl | rfl
        · exact nofun
        · exact nofun
      rcases sealMessage_opens C hC h.mates.fromLeft ch type body q.1 hnamed hfit hseal with
        ⟨hmoved, hopens⟩
      refine ⟨q.2, h.serves, rfl, h.mates.moved hmoved (.refl sc), h.player, h.unacked, ?_, ?_⟩
      · intro d hd
        rcases List.mem_append.mp hd with hd | hd
        · exact h.up d hd
        · rw [List.mem_singleton.mp hd]
          exact ⟨_, hopens, ht⟩
      · intro d hd
        exact (h.down d hd).moved C hmoved

/-- A step keeps both ends joined, when a broadcast's records have the property. -/
theorem joined_step (hC : C.Correct)
    (h : Joined C P cc sc s) (l : LiveLabel)
    (hP : l = .broadcast → ∀ r ∈ ((replUniverse R).buildClientSnapshot s.client.playerNetId
      snapshotByteBudget s.host.world).1.records, P r)
    (hstep : s.step C R S l = some t) :
    (∃ cc' sc', Joined C P cc' sc' t) ∧ Heard P s.decoder t.decoder := by
  rcases h.serves with ⟨token, hserves⟩
  unfold step at hstep
  cases l with
  | step ops =>
      simp only [Option.ite_none_right_eq_some, Option.some.injEq] at hstep
      rw [← hstep.2]
      exact ⟨⟨cc, sc, ⟨token, hserves⟩, h.channel, h.mates, h.player, h.unacked, h.up, h.down⟩,
        .inl rfl⟩
  | broadcast =>
      simp only [Option.ite_none_right_eq_some, Option.some.injEq] at hstep
      rw [← hstep.2]
      rcases ServerHost.broadcasts C R hC hserves h.player h.unacked h.mates.fromRight with
        ⟨⟨sc', hmoved, hserves'⟩, hworld, hout⟩
      refine ⟨⟨cc, sc', ⟨token, hserves'⟩, h.channel, h.mates.moved (.refl cc) hmoved, h.player,
        hworld, ?_, ?_⟩, .inl rfl⟩
      · intro d hd
        rcases h.up d hd with ⟨m, hopens, hm⟩
        exact ⟨m, hopens.moved C hmoved, hm⟩
      · intro d hd
        rcases List.mem_append.mp hd with hd | hd
        · exact h.down d hd
        · rcases List.mem_map.mp hd with ⟨o, ho, rfl⟩
          exact ⟨_, hout o (List.mem_filter.mp ho).1, hP rfl⟩
  | keepalive =>
      simp only [Option.ite_none_right_eq_some, Option.some.injEq] at hstep
      rw [← hstep.2]
      unfold ClientConnection.buildKeepalive
      by_cases hc : s.client.state = .connected
      · rw [if_pos hc]
        rcases joined_clientSends C hC h .unreliable .keepalive [] (.inl rfl) (by decide) with
          ⟨cc', h'⟩
        refine ⟨⟨cc', sc, h'⟩, .inl ?_⟩
        unfold clientSends
        split
        · rfl
        · rfl
      · rw [if_neg hc]
        exact ⟨⟨cc, sc, h⟩, .inl rfl⟩
  | fleetCommand body =>
      simp only [Option.ite_none_right_eq_some, Option.some.injEq] at hstep
      rw [← hstep.2]
      unfold ClientConnection.sendFleetCommand ClientConnection.sendTyped
      by_cases hc : s.client.state = .connected
      · rw [if_pos hc]
        rcases joined_clientSends C hC h .reliableOrdered .fleetCommand body (.inr rfl)
          hstep.1.2 with ⟨cc', h'⟩
        refine ⟨⟨cc', sc, h'⟩, .inl ?_⟩
        unfold clientSends
        split
        · rfl
        · rfl
      · rw [if_neg hc]
        exact ⟨⟨cc, sc, h⟩, .inl rfl⟩
  | toServer fresh =>
      cases hup : s.up with
      | nil =>
          simp only [hup] at hstep
          exact absurd hstep nofun
      | cons d rest =>
          simp only [hup, Option.some.injEq] at hstep
          rcases h.up d (by rw [hup]; exact List.mem_cons_self) with ⟨m, hopens, hm⟩
          rcases ServerHost.hears C R S hserves h.unacked h.mates.fromRight.hasKeys fresh s.peer
            hopens hm with ⟨hout, sc', hmoved, hserves', hworld⟩
          rw [← hstep, hout]
          refine ⟨⟨cc, sc', ⟨token, hserves'⟩, h.channel, h.mates.moved (.refl cc) hmoved, h.player,
            hworld, ?_, ?_⟩, .inl rfl⟩
          · intro d' hd'
            rcases h.up d' (by rw [hup]; exact List.mem_cons_of_mem d hd') with ⟨m', hopens', hm'⟩
            exact ⟨m', hopens'.moved C hmoved, hm'⟩
          · intro d' hd'
            exact h.down d' (by simpa [hostSends] using hd')
  | toClient fresh =>
      cases hdown : s.down with
      | nil =>
          simp only [hdown] at hstep
          exact absurd hstep nofun
      | cons d rest =>
          simp only [hdown, Option.some.injEq] at hstep
          rcases h.down d (by rw [hdown]; exact List.mem_cons_self) with ⟨snap, hopens, hrecs⟩
          rcases ClientConnection.hears_snapshot C fresh s.client h.channel h.mates.fromLeft.hasKeys
            hopens rfl with ⟨app, happ, cc', hmoved, hon⟩
          rw [← hstep]
          unfold clientHears
          simp only [hon, List.append_nil]
          refine ⟨⟨cc', sc, ⟨token, hserves⟩, rfl, h.mates.moved hmoved (.refl sc), h.player,
            h.unacked, h.up, ?_⟩, ?_⟩
          · intro d' hd'
            exact (h.down d' (by rw [hdown]; exact List.mem_cons_of_mem d hd')).moved C hmoved
          · rcases happ with rfl | rfl
            · exact .inl rfl
            · exact .inr ⟨snap, hrecs, rfl⟩

/-! ## An entity that leaves -/

/-- The client's player sees an entity. -/
def InSight (n : NetId) (s : LiveClient Key A) : Prop :=
  n ∈ s.host.world.sim.interest.visibleTo s.netId

instance (n : NetId) (s : LiveClient Key A) : Decidable (s.InSight n) :=
  inferInstanceAs (Decidable (_ ∈ _))

/-- The entity is out of the client's sight when a step is taken. -/
def Away (n : NetId) (s : LiveClient Key A) (_ : LiveLabel) : Prop := ¬ s.InSight n

instance (n : NetId) (s : LiveClient Key A) (l : LiveLabel) : Decidable (Away n s l) :=
  inferInstanceAs (Decidable (¬ _))

/-- An entity is out of sight in a first state, stays so for two broadcasts at least
    that do not spill it, and everything sent has arrived at the end. -/
structure Departed (n : NetId) (s t : LiveClient Key A) : Prop where
  left : ¬ s.InSight n
  leftStill : s.still = true
  away : Reaches (step C R S) (Away n) s t
  out : ¬ t.InSight n
  still : t.still = true
  rounds : ∃ later, t.rounds = s.rounds ++ later ∧ 2 ≤ later.length ∧ ∀ o ∈ later, n ∉ o

theorem replicate_encode (st : DeltaDecodeState) (snap : DeltaSnapshot) :
    replicate st (encodeDeltaSnapshot snap) = st.applySnapshot snap.wire := by
  unfold replicate DeltaDecodeState.apply
  rw [decode_encode]
  rfl

/-- A record that is read is one that was written, but for what the codec cuts. -/
theorem mem_wire {snap : DeltaSnapshot} {r : DeltaRecord} (h : r ∈ snap.wire.records) :
    ∃ r' ∈ snap.records, r = r'.wire := by
  rcases List.mem_map.mp h with ⟨r', hr', rfl⟩
  exact ⟨r', List.mem_of_mem_take hr', rfl⟩

/-- Without tombstones the decoder keeps what it holds. -/
theorem Heard.keeps {st st' : DeltaDecodeState} (h : Heard (fun r => r.mask.tomb = false) st st')
    (n : NetId) (hn : (st.entities.find? n).isSome = true) : (st'.entities.find? n).isSome = true := by
  rcases h with rfl | ⟨snap, hrecs, rfl⟩
  · exact hn
  · rw [replicate_encode]
    have hslot := congrArg Prod.fst (DeltaDecodeState.slot_applySnapshot st snap.wire n)
    unfold DeltaDecodeState.slot at hslot
    simp only [] at hslot
    rw [hslot]
    cases hfind : snap.wire.records.find? fun r => r.netId = n with
    | none => exact hn
    | some r =>
        rcases mem_wire (List.mem_of_find?_eq_some hfind) with ⟨r', hr', rfl⟩
        simp only [Option.elim_some]
        unfold DeltaDecodeState.Slot.touch
        split
        · exact hn
        · simp only [DeltaRecord.wire_mask, hrecs r' hr', Bool.false_eq_true, if_false,
            Option.isSome_some]

/-- What no record names is as it was. -/
theorem Heard.spares {st st' : DeltaDecodeState}
    (h : Heard (fun r => r.netId ≠ n) st st') : st'.entities.find? n = st.entities.find? n := by
  rcases h with rfl | ⟨snap, hrecs, rfl⟩
  · rfl
  · rw [replicate_encode]
    have hslot := congrArg Prod.fst (DeltaDecodeState.slot_applySnapshot st snap.wire n)
    unfold DeltaDecodeState.slot at hslot
    simp only [] at hslot
    rw [hslot, List.find?_eq_none.mpr]
    · rfl
    · intro r hr
      rcases mem_wire hr with ⟨r', hr', rfl⟩
      rw [DeltaRecord.wire_netId, decide_eq_true_eq]
      exact hrecs r' hr'

/-- A broadcast without acknowledgements names only what is in sight. -/
theorem records_inSight (h : s.host.world.Unacked) {r : DeltaRecord}
    (hr : r ∈ ((replUniverse R).buildClientSnapshot s.client.playerNetId snapshotByteBudget
      s.host.world).1.records) : s.InSight r.netId := by
  have htomb := ReplWorld.records_unacked R h s.client.playerNetId snapshotByteBudget r hr
  rcases ServerUniverse.mem_records R.sqrt s.host.world.sim (toNetId s.client.playerNetId) _ _ _ _ r
    hr with ⟨n, cur, hn, hcur, rfl⟩ | ⟨n, _, rfl⟩
  · unfold ServerUniverse.snapshotEntityOf at hcur
    rw [Option.map_eq_some_iff] at hcur
    rcases hcur with ⟨e, _, rfl⟩
    rw [makeDeltaRecord_netId]
    exact ServerUniverse.visible_of_changed _ _ _ n hn
  · exact absurd htomb (show ¬ (true = false) by decide)

/-- The decoder keeps what it holds, in any run. -/
theorem reaches_keeps (hC : C.Correct) {G : LiveClient Key A → LiveLabel → Prop}
    (h : Joined C (fun r => r.mask.tomb = false) cc sc s) (hr : Reaches (step C R S) G s t) (n : NetId)
    (hn : (s.decoder.entities.find? n).isSome = true) :
    (t.decoder.entities.find? n).isSome = true := by
  have hinv := Reaches.invariant
    (I := fun t => (∃ cc sc, Joined C (fun r => r.mask.tomb = false) cc sc t) ∧
      (t.decoder.entities.find? n).isSome = true)
    (fun t l u ht _ hstep => by
      rcases ht with ⟨⟨cc, sc, ht⟩, hn⟩
      rcases joined_step C R S hC ht l
        (fun _ => ReplWorld.records_unacked R ht.unacked _ _) hstep with ⟨hu, hheard⟩
      exact ⟨hu, hheard.keeps n hn⟩) hr ⟨⟨cc, sc, h⟩, hn⟩
  exact hinv.2

/-- While an entity is out of sight nothing is added about it. -/
theorem reaches_spares (hC : C.Correct)
    (h : Joined C (fun r => r.netId ≠ n) cc sc s)
    (hr : Reaches (step C R S) (Away n) s t) :
    t.decoder.entities.find? n = s.decoder.entities.find? n := by
  have hinv := Reaches.invariant
    (I := fun t => (∃ cc sc, Joined C (fun r => r.netId ≠ n) cc sc t) ∧
      t.decoder.entities.find? n = s.decoder.entities.find? n)
    (fun t l u ht haway hstep => by
      rcases ht with ⟨⟨cc, sc, ht⟩, heq⟩
      rcases joined_step C R S hC ht l
        (fun _ r hr hn => haway (hn ▸ records_inSight R ht.unacked hr)) hstep with ⟨hu, hheard⟩
      exact ⟨hu, hheard.spares.trans heq⟩) hr ⟨⟨cc, sc, h⟩, rfl⟩
  exact hinv.2

/-- In every run, an entity that has left is missing at the client two broadcasts
    later if and only if the client did not have it when it left. -/
theorem despawn_reaches_iff (hC : C.Correct) (start s t : LiveClient Key A) (n : NetId)
    (hready : start.Ready) (hrun : Reaches (step C R S) free start s)
    (hleft : Departed C R S n s t) :
    t.decoder.entities.find? n = none ↔ s.decoder.entities.find? n = none := by
  -- At the start and in `s` nothing is under way, so the property of the records is free.
  rcases hready.joined C fun r => r.mask.tomb = false with ⟨cc₀, sc₀, h₀⟩
  have hinv := Reaches.invariant
    (I := fun t => ∃ cc sc, Joined C (fun r => r.mask.tomb = false) cc sc t)
    (fun t l u ht _ hstep => by
      rcases ht with ⟨cc, sc, ht⟩
      exact (joined_step C R S hC ht l
        (fun _ => ReplWorld.records_unacked R ht.unacked _ _) hstep).1) hrun ⟨cc₀, sc₀, h₀⟩
  rcases hinv with ⟨cc, sc, hs⟩
  constructor
  · intro hnone
    by_contra hsome
    have hkept := reaches_keeps C R S hC hs hleft.away n (Option.isSome_iff_ne_none.mpr hsome)
    rw [hnone] at hkept
    exact absurd hkept (by simp only [Option.isSome_none, Bool.false_eq_true, not_false_eq_true])
  · intro hnone
    exact (reaches_spares C R S hC (hs.of_still C hleft.leftStill) hleft.away).trans hnone

/-! ## Concrete runs -/

/-- A concrete run up to a first state and on to a second. -/
theorem exists_departed {p : LiveClient Key A}
    {b : LiveClient Key A → LiveClient Key A → Bool} (before after : List LiveLabel)
    (h : ((runLabels (step C R S) p before).any fun s => s.still && (!decide (s.InSight n) &&
      (runGuarded (step C R S) (Away n) s after).any fun t => !decide (t.InSight n) && (t.still &&
        (decide (t.rounds = s.rounds ++ t.rounds.drop s.rounds.length ∧
          2 ≤ (t.rounds.drop s.rounds.length).length ∧
          ∀ o ∈ t.rounds.drop s.rounds.length, n ∉ o) && b s t)))) = true) :
    ∃ s t, Reaches (step C R S) free p s ∧ Departed C R S n s t ∧ b s t = true := by
  rcases exists_of_runLabels before h with ⟨s, hs, hb⟩
  rw [Bool.and_eq_true, Bool.and_eq_true] at hb
  rcases hb with ⟨hstill, hleft, hafter⟩
  rcases exists_of_runGuarded after hafter with ⟨t, ht, hb⟩
  simp only [Bool.and_eq_true, Bool.not_eq_true', decide_eq_true_eq, decide_eq_false_iff_not] at hb hleft
  exact ⟨s, t, hs, ⟨hleft, hstill, ht, hb.1, hb.2.1, _, hb.2.2.1⟩, hb.2.2.2⟩

/-- What the runs below are run with: no commands, and every base and ship is one of
    the replication's samples. -/
def sampleRules : WorldRules where
  sqrt := id
  base := fun _ _ => Pipeline.sampleBase 100 5
  ship := fun _ _ => Pipeline.sampleProp 500
  command := fun _ _ _ => []

/-- A host with an empty universe and the sample client's connection. -/
def sampleLiveHost : ServerHost UInt8 ReplWorld Unit :=
  let w : ReplWorld :=
    ⟨ServerUniverse.fresh 0, fun _ => ClientTables.fresh, RelevanceWeights.default, 0⟩
  let h : ServerHost UInt8 ReplWorld Unit := .start [] [] 0 w none none false
  { h with
    table := (h.table.openSlot 7).2
    conns := [(7, { conn := sampleServer, endpoint := samplePeer, handle := ⟨0, 0, true⟩
                    lastSeenMs := 0, playerNetId := 1, authed := true, accountId := 1
                    sessionToken := List.Vector.replicate 32 0 })] }

def sampleLive : LiveClient UInt8 Unit :=
  { host := sampleLiveHost, peer := samplePeer, client := { sampleClient with playerNetId := 1 }
    decoder := DeltaDecodeState.fresh, up := [], down := [], rounds := [] }

theorem sampleLive_ready : sampleLive.Ready where
  conns := ⟨7, _, SecureChannel.server, SecureChannel.client, rfl, rfl, rfl, rfl, rfl, rfl,
    ⟨⟨rfl, rfl, rfl, rfl⟩, ⟨rfl, rfl, rfl, rfl⟩⟩⟩
  connected := rfl
  player := by decide
  unacked := fun _ _ => ⟨rfl, rfl⟩
  still := rfl

/-- A broadcast and its arrival. -/
def sampleRound : List LiveLabel := [.broadcast, .toClient (sampleKeyPair 0)]

/-- A destroyed prop stays on the client, two broadcasts later and later than that. -/
theorem ghost_stays : sampleLive.Ready ∧ ∃ s t,
    Reaches (step sampleProvider sampleRules noAccounts) free sampleLive s ∧
    Departed sampleProvider sampleRules noAccounts 2 s t ∧
    t.host.world.sim.entities.find? 2 = none ∧ t.decoder.entities.find? 2 ≠ none := by
  rcases exists_departed sampleProvider sampleRules noAccounts (p := sampleLive) (n := 2)
    (b := fun _ t => (t.host.world.sim.entities.find? 2).isNone &&
      (t.decoder.entities.find? 2).isSome)
    (.step [.spawn (Pipeline.sampleBase 100 5), .spawn (Pipeline.sampleProp 500)] :: sampleRound ++
      [.step [.destroyUnit 2]])
    (sampleRound ++ .step [] :: sampleRound) (by decide +kernel) with ⟨s, t, hs, hleft, hb⟩
  rw [Bool.and_eq_true, Option.isNone_iff_eq_none, Option.isSome_iff_ne_none] at hb
  exact ⟨sampleLive_ready, s, t, hs, hleft, hb.1, hb.2⟩

/-- A prop that the client never heard of is missing there after it is destroyed. -/
theorem despawn_reaches_unseen :
    ∃ s t, Departed sampleProvider sampleRules noAccounts 2 s t ∧
      t.decoder.entities.find? 2 = none := by
  rcases exists_departed sampleProvider sampleRules noAccounts (p := sampleLive) (n := 2)
    (b := fun s _ => (s.decoder.entities.find? 2).isNone)
    (.step [.spawn (Pipeline.sampleBase 100 5), .spawn (Pipeline.sampleProp 500)] ::
      [.step [.destroyUnit 2]])
    (sampleRound ++ .step [] :: sampleRound) (by decide +kernel) with ⟨s, t, hs, hleft, hb⟩
  exact ⟨s, t, hleft, (despawn_reaches_iff sampleProvider sampleRules noAccounts
    SecureChannel.checksumCrypto_correct sampleLive s t 2 sampleLive_ready hs hleft).mpr
    (Option.isNone_iff_eq_none.mp hb)⟩

end LiveClient

end Net

end EarthRise
