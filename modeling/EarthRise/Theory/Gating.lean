import EarthRise.Theory.BaseBinding
import EarthRise.Theory.HostTrace

/-!
# Play Is Gated by the Login

Without the development stub a connection is opened with no rights and no net id. Both are
set in one place, where a login or a registration returned `Ok` and a base was bound. So
whoever plays or is sent snapshots has logged in on that very connection, whatever other
messages came on it, before or after, and in whatever state it calls itself.

A connection without a net id has number zero, which is left out of a broadcast. That is
the only thing that keeps a connection that is connected and not logged in from the
snapshots, since they are sent by net id.

## Main definitions

* `BoundTo`: The base that a connection is bound to.
* `Allowed`: What may happen after a history.
* `Accounted`: The invariant: the rights of an entry are what the log says.

## Theorems

* `accounted_stepwise`: The invariant is kept, call by call.
* `play_gated`: In every run, all that happens is allowed.
-/

namespace EarthRise

namespace Net

open Run History Persist

/-- The connection is bound to a base: an account was logged in on it and `BindAccountBase`
    returned the net id, and since then the connection was not opened anew nor bound again. -/
def BoundTo (log : List HostEvent) (token : UInt64) (accountId : Nat) (netId : UInt32) : Prop :=
  ∃ l₁ l₂, log = l₁ ++ .loggedIn token accountId :: .bound token accountId netId :: l₂ ∧
    .opened token ∉ l₂ ∧ ∀ a n, .bound token a n ∉ l₂

theorem BoundTo.append {log : List HostEvent} {token : UInt64} {accountId : Nat} {netId : UInt32}
    (h : BoundTo log token accountId netId) {l : List HostEvent} (hopened : .opened token ∉ l)
    (hbound : ∀ a n, .bound token a n ∉ l) : BoundTo (log ++ l) token accountId netId := by
  rcases h with ⟨l₁, l₂, rfl, ho, hb⟩
  refine ⟨l₁, l₂ ++ l, ?_, ?_, fun a n => ?_⟩
  · rw [List.append_assoc, List.cons_append, List.cons_append]
  · exact fun hmem => (List.mem_append.mp hmem).elim ho hopened
  · exact fun hmem => (List.mem_append.mp hmem).elim (hb a n) (hbound a n)

/-- What may happen after a history: a command is applied for the player that the
    connection is bound to, and a snapshot is one that was built for it. -/
def Allowed {W Snap : Type} (U : GameUniverse W Snap) (before : List HostEvent) :
    HostEvent → Prop
  | .applied token player _ => ∃ accountId, BoundTo before token accountId player
  | .snapshot token client body => (∃ accountId, BoundTo before token accountId client) ∧
      ∃ w, body = U.encodeSnapshot (U.buildClientSnapshot client snapshotByteBudget w).1
  | _ => True

/-- Whether an entry may play, and as whom. -/
def SameRights {Key : Type} (e e' : ConnEntry Key) : Prop :=
  e'.authed = e.authed ∧ e'.playerNetId = e.playerNetId

theorem sameRights_tolerant {Key : Type} :
    ServerHost.Tolerant (SameRights : ConnEntry Key → ConnEntry Key → Prop) where
  refl := fun _ => ⟨rfl, rfl⟩
  trans := fun _ _ _ h h' => ⟨h'.1.trans h.1, h'.2.trans h.2⟩
  channel := fun _ _ _ => ⟨rfl, rfl⟩
  stamp := fun _ _ => ⟨rfl, rfl⟩
  dilation := fun _ _ => ⟨rfl, rfl⟩

/-- The rights of an entry are what the log says. -/
def Backed {Key : Type} (log : List HostEvent) (t : UInt64) (e : ConnEntry Key) : Prop :=
  if e.authed = true then ∃ a, BoundTo log t a e.playerNetId else e.playerNetId = 0

theorem Backed.append {Key : Type} {log l : List HostEvent} {t : UInt64} {e e' : ConnEntry Key}
    (h : Backed log t e) (hsame : SameRights e e') (hopened : .opened t ∉ l)
    (hbound : ∀ a n, .bound t a n ∉ l) : Backed (log ++ l) t e' := by
  unfold Backed at h ⊢
  rw [hsame.1, hsame.2]
  by_cases hplay : e.authed = true
  · rw [if_pos hplay] at h ⊢
    rcases h with ⟨a, ha⟩
    exact ⟨a, ha.append hopened hbound⟩
  · rw [if_neg hplay] at h ⊢
    exact h

/-- The rights of the entries are what the log says, and all of the log was allowed. -/
structure Accounted {Key W Snap A : Type} (U : GameUniverse W Snap) (h : ServerHost Key W A)
    (log : List HostEvent) : Prop where
  backed : ∀ t e, h.entryForToken t = some e → Backed log t e
  every : Every (Allowed U) log

section

variable {Key W Snap A : Type} {U : GameUniverse W Snap} {h h' : ServerHost Key W A}

open ServerHost

theorem Accounted.carried {log l : List HostEvent}
    (ha : Accounted U h log) (hc : Carried SameRights h h')
    (hl : ∀ t, .opened t ∉ l ∧ ∀ a n, .bound t a n ∉ l)
    (hallowed : Every (fun pre ev => Allowed U (log ++ pre) ev) l) :
    Accounted U h' (log ++ l) where
  backed := by
    intro t e' he'
    rcases hc.entry t e' he' with ⟨e, he, hsame⟩
    exact (ha.backed t e he).append hsame (hl t).1 (hl t).2
  every := every_append.mpr ⟨ha.every, hallowed⟩

theorem Accounted.silent {log : List HostEvent}
    (ha : Accounted U h log) (hc : Carried SameRights h h') : Accounted U h' log := by
  have h := ha.carried hc (l := []) (fun _ => ⟨List.not_mem_nil, fun _ _ => List.not_mem_nil⟩)
    (every_nil _)
  rwa [List.append_nil] at h

/-- A login binds its connection, and leaves the rights of the others. -/
theorem accounted_login {log : List HostEvent}
    (ha : Accounted U h log) {token : UInt64} {e : ConnEntry Key} {session : SessionInfo}
    {netId : UInt32} (hlogin : LogsIn h h' token e session netId) {l : List HostEvent}
    (hl : ∀ ev ∈ l, ev = .connected token) :
    Accounted U h' (log ++ .loggedIn token session.accountId ::
      .bound token session.accountId netId :: l) where
  backed := by
    intro t e' he'
    have hopened : .opened t ∉ l := fun hmem =>
      absurd (hl _ hmem) nofun
    have hbound : ∀ a n, .bound t a n ∉ l := fun a n hmem =>
      absurd (hl _ hmem) nofun
    by_cases ht : t = token
    · rw [ht] at he'
      rcases hlogin.self e' he' with ⟨channel, _, rfl⟩
      unfold Backed
      rw [if_pos rfl, ht]
      exact ⟨session.accountId, log, l, rfl, ht ▸ hopened, ht ▸ hbound⟩
    · refine (ha.backed t e' (hlogin.other t ht e' he').1).append ⟨rfl, rfl⟩ ?_ fun a n => ?_
      · simp only [List.mem_cons, reduceCtorEq, hopened, or_self, not_false_eq_true]
      · simp only [List.mem_cons, reduceCtorEq, HostEvent.bound.injEq, ht, false_and, hbound,
          or_self, not_false_eq_true]
  every := by
    refine every_append.mpr ⟨ha.every, every_of_forall fun pre ev hev => ?_⟩
    rw [List.mem_cons, List.mem_cons] at hev
    rcases hev with rfl | rfl | hev
    · trivial
    · trivial
    · rw [hl ev hev]
      trivial

theorem accounted_stepwise (C : CryptoProvider Key) (S : AccountService A) :
    Stepwise C U S SameRights (Accounted U) where
  tolerant := sameRights_tolerant
  silent := fun ha hc => ha.silent hc
  handled := by
    intro h log token e dg ha _
    have hmem : ∀ ev ∈ ServerConnection.handleEvents C token (e.conn.received C dg).2
        (e.conn.received C dg).1, (∃ m, ev = .received token m) ∨ ev = .answered token ∨
          ev = .connected token := fun ev hev => ServerConnection.mem_handleEvents C hev
    refine ha.carried (setConn_carried sameRights_tolerant.toClosed h token fun _ _ => ⟨rfl, rfl⟩)
      (fun t => ⟨fun hev => ?_, fun a n hev => ?_⟩) (every_of_forall fun pre ev hev => ?_)
    · rcases hmem _ hev with ⟨m, heq⟩ | heq | heq
      all_goals exact absurd heq nofun
    · rcases hmem _ hev with ⟨m, heq⟩ | heq | heq
      all_goals exact absurd heq nofun
    · rcases hmem ev hev with ⟨m, rfl⟩ | rfl | rfl
      all_goals trivial
  message := by
    intro h log token peer m ha
    rcases applyMessage_cases C U S h token peer m with
      ⟨e, session, netId, he, hevents, hlogin⟩ | ⟨hcarried, hnone | ⟨e, he, hplay, hevents⟩⟩
    · rw [hevents]
      refine accounted_login ha hlogin fun ev hev => ?_
      split at hev
      · exact List.mem_singleton.mp hev
      · exact absurd hev List.not_mem_nil
    · rw [hnone, List.append_nil]
      exact ha.silent (hcarried _ sameRights_tolerant)
    · rw [hevents]
      refine ha.carried (hcarried _ sameRights_tolerant) (fun t => ?_)
        (every_cons.mpr ⟨?_, every_nil _⟩)
      · simp only [List.mem_singleton, reduceCtorEq, not_false_eq_true, implies_true, and_self]
      · have hbacked := ha.backed token e he
        unfold Backed at hbacked
        rw [if_pos hplay] at hbacked
        rw [List.append_nil]
        exact hbacked
  opened := by
    intro h h' log token entry ha hfree _ hconns hauthed hnet _
    refine ⟨fun t e he => ?_, every_append.mpr ⟨ha.every, every_cons.mpr ⟨trivial, every_nil _⟩⟩⟩
    rw [entryForToken_concat hfree hconns] at he
    by_cases ht : t = token
    · rw [if_pos ht, Option.some.injEq] at he
      unfold Backed
      rw [← he, hauthed, if_neg Bool.false_ne_true]
      exact hnet
    · rw [if_neg ht] at he
      refine (ha.backed t e he).append ⟨rfl, rfl⟩ ?_ fun a n => ?_
      · simp only [List.mem_singleton, HostEvent.opened.injEq, ht, not_false_eq_true]
      · simp only [List.mem_singleton, reduceCtorEq, not_false_eq_true]
  snapshot := by
    intro h h' log token e snap ha he hid hsnap hc
    refine ha.carried hc (fun t => ?_) (every_cons.mpr ⟨?_, every_nil _⟩)
    · simp only [List.mem_singleton, reduceCtorEq, not_false_eq_true, implies_true, and_self]
    · -- A connection that has no rights has number zero.
      rw [List.append_nil]
      have hbacked := ha.backed token e he
      unfold Backed at hbacked
      by_cases hplay : e.authed = true
      · rw [if_pos hplay] at hbacked
        rcases hsnap with ⟨w, rfl⟩
        exact ⟨hbacked, w, rfl⟩
      · rw [if_neg hplay] at hbacked
        exact absurd hbacked hid

/-- Without the stub, in every run of the host, a command is applied only for the player
    that its connection is bound to, and a snapshot that is sent on a connection is one that
    was built for the net id it is bound to. -/
theorem play_gated (C : CryptoProvider Key) (S : AccountService A) {h₀ : ServerHost Key W A}
    (hstub : h₀.devAuthStub = false) (hempty : h₀.conns = []) {w : Traced Key W A}
    (hreach : Reaches (Traced.step C U S) free (Traced.start h₀) w) : Every (Allowed U) w.log := by
  refine ((accounted_stepwise C S).run hstub hempty ⟨fun t e he => ?_, every_nil _⟩ hreach).2.every
  rw [entryForToken_empty hempty] at he
  exact absurd he nofun

end

def HostEvent.isApplied : HostEvent → Bool
  | .applied _ _ _ => true
  | _ => false

def HostEvent.isSnapshot : HostEvent → Bool
  | .snapshot _ _ _ => true
  | _ => false

/-- A client connects, sends a command before its login, its login, and a command after it,
    and then the host broadcasts. -/
def playSession : List (HostLabel (List UInt32 × Nat) AccountStore) :=
  let ch := openChannel .clientToServer (ServerHost.mixToken 1) sampleKeys.1 sampleKeys.2
  let login := encodeAuthRequest authOpcodeLogin [97, 98, 99] (List.replicate 8 97)
  let command := writeMessage .reliableOrdered .fleetCommand [1, 2, 3]
  let frames := (ch.sealAll sampleProvider.toICrypto
    [command, writeMessage .reliableOrdered .command login, command]).map (kindEncrypted :: ·)
  .datagram (sampleKeyPair 0) samplePeer opening ::
    .datagram (sampleKeyPair 0) samplePeer
      (makeHandshakeDatagram .clockSyncRequest (List.replicate 16 0)) ::
    frames.map (.datagram (sampleKeyPair 0) samplePeer) ++ [.broadcast]

/-- One of the two commands is applied, and one snapshot is sent; both are allowed. -/
theorem play_gated_session :
    ∃ w, Reaches (Traced.step sampleProvider sampleUniverse.counted accountService) free
        (Traced.start (sampleAuthHost [(1, 1)])) w ∧
      w.log.countP HostEvent.isApplied = 1 ∧
      w.log.countP HostEvent.isSnapshot = 1 ∧
      Every (Allowed sampleUniverse.counted) w.log := by
  have hrun : ((runLabels (Traced.step sampleProvider sampleUniverse.counted accountService)
      (Traced.start (sampleAuthHost [(1, 1)])) playSession).any fun w =>
        w.log.countP HostEvent.isApplied = 1 ∧
        w.log.countP HostEvent.isSnapshot = 1) = true := by
    decide +kernel
  rcases exists_of_runLabels _ hrun with ⟨w, hreach, hw⟩
  rw [decide_eq_true_eq] at hw
  exact ⟨w, hreach, hw.1, hw.2, play_gated sampleProvider accountService rfl rfl hreach⟩

end Net

end EarthRise
