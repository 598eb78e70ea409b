import EarthRise.Core.BaseBinding
import EarthRise.Theory.Reaping

/-!
# One Base for an Account

When the logins of an account all lead to the base it has.

A login is given the base that the table of bases has for the account, if there is
an entity of that number, and otherwise a new one. Nothing in the store writes that
table. So a second login while the base of the first is alive comes to the same base
only if the table had it from the start; with an empty table it spawns another.

## Main definitions

* `Binding.Right`: A login came to the base the account had.
* `Binding.Stored`: The table of bases had it.

## Theorems

* `login_base`, `authenticate_base`: A login answers what the table has.
* `bases_unwritten`: No operation of the store writes the table.
* `applyMessage_login`: What a successful login does to its connection and the world.
* `bindings_right_iff`: When a login came to the base the account had.
* `second_base`: A login that is sent again spawns a second base.
-/

namespace EarthRise

namespace Net

open Persist Run

/-! ## The store -/

theorem finishLogin_base (a : AccountStore) (accountId : Nat) (now : Int) :
    (a.finishLogin accountId now).1.2.accountId = accountId ∧
      (a.finishLogin accountId now).1.2.baseId = a.db.baseOf accountId :=
  ⟨rfl, rfl⟩

/-- A login that succeeds answers the base the table has. -/
theorem login_base (user pass ip : Bytes) (now : Int) (a : AccountStore) :
    (AccountStore.login user pass ip now a).1.1 = .ok →
      (AccountStore.login user pass ip now a).1.2.baseId =
        a.db.baseOf (AccountStore.login user pass ip now a).1.2.accountId := by
  unfold AccountStore.login
  simp only []
  -- Every way out but the last is a refusal.
  split
  · exact nofun
  · split
    · exact nofun
    · split
      · exact nofun
      · split
        · exact nofun
        · rename_i row _
          split
          · exact nofun
          · split
            · exact nofun
            · split
              · exact nofun
              · intro _
                exact (finishLogin_base (a.checkIpRateLimit ip now).2 row.accountId now).2

/-- No operation of the store writes the table of bases. -/
theorem bases_unwritten (user pass ip : Bytes) (now : Int) (account : Nat) (base : UInt32)
    (a : AccountStore) :
    (AccountStore.register user pass now a).2.db.bases = a.db.bases ∧
      (AccountStore.login user pass ip now a).2.db.bases = a.db.bases ∧
      (AccountStore.setAccountBase account base a).db.bases = a.db.bases := by
  refine ⟨?_, ?_, rfl⟩
  · unfold AccountStore.register
    simp only []
    split
    · rfl
    · split
      · rfl
      · split
        · rfl
        · rfl
  · unfold AccountStore.login
    simp only []
    split
    · rfl
    · split
      · rfl
      · split
        · rfl
        · split
          · rfl
          · split
            · rfl
            · split
              · rfl
              · split
                · rfl
                · rfl

theorem baseOf_register (user pass : Bytes) (now : Int) (a : AccountStore) (account : Nat) :
    (AccountStore.register user pass now a).2.db.baseOf account = a.db.baseOf account := by
  unfold AuthDatabase.baseOf
  rw [(bases_unwritten user pass [] now account 0 a).1]

namespace ServerHost

variable {Key W Snap : Type}

/-- A credential frame that succeeds answers the base the table has. -/
theorem authenticate_base (h : ServerHost Key W AccountStore) (a : AccountStore)
    (endpoint : Endpoint) (opcode : UInt8) (user pass : Bytes) :
    (h.authenticate accountService a endpoint opcode user pass).1.1 = .ok →
      (h.authenticate accountService a endpoint opcode user pass).1.2.baseId =
        a.db.baseOf (h.authenticate accountService a endpoint opcode user pass).1.2.accountId := by
  unfold authenticate
  simp only []
  by_cases hop : opcode = authOpcodeRegister
  · rw [if_pos hop]
    by_cases hreg : (accountService.register user pass h.nowUnix a).1.1 = .ok
    · rw [if_pos hreg]
      intro hok
      exact (login_base _ _ _ _ _ hok).trans (baseOf_register user pass h.nowUnix a _)
    · rw [if_neg hreg]
      exact fun hok => absurd hok hreg
  · rw [if_neg hop]
    exact login_base user pass endpoint.ip h.nowUnix a

/-! ## A successful login -/

/-- Kicking the others leaves the connection that logs in. -/
theorem entryForToken_kick (h : ServerHost Key W AccountStore) (account : Nat) (token : UInt64) :
    (h.kickExistingSessionForAccount account token).entryForToken token =
      h.entryForToken token := by
  unfold kickExistingSessionForAccount
  simp only []
  have hkeep : ∀ e ∈ h.conns.filter fun e =>
      decide (e.1 ≠ token ∧ e.2.authed = true ∧ e.2.accountId = account), e.1 ≠ token := by
    intro e he
    exact (of_decide_eq_true (List.mem_filter.mp he).2).1
  revert hkeep
  generalize (h.conns.filter fun e =>
      decide (e.1 ≠ token ∧ e.2.authed = true ∧ e.2.accountId = account)) = kick
  intro hkeep
  induction kick generalizing h with
  | nil => rfl
  | cons e es ih =>
      rw [List.foldl_cons, ih _ fun e' he' => hkeep e' (List.mem_cons_of_mem e he'),
        entryForToken_dropEntry, if_neg (Ne.symm (hkeep e List.mem_cons_self))]

theorem kick_world (h : ServerHost Key W AccountStore) (account : Nat) (token : UInt64) :
    (h.kickExistingSessionForAccount account token).world = h.world := by
  unfold kickExistingSessionForAccount
  simp only []
  generalize (h.conns.filter fun e =>
      decide (e.1 ≠ token ∧ e.2.authed = true ∧ e.2.accountId = account)) = kick
  induction kick generalizing h with
  | nil => rfl
  | cons e es ih => exact (ih _).trans rfl

/-- A login is given the base it came with, if there is an entity of that number, and
    else a new one. -/
theorem bindAccountBase_counted (U : GameUniverse W Snap)
    (h : ServerHost Key (W × Nat) AccountStore) (session : SessionInfo) :
    (h.bindAccountBase U.counted accountService session).2.conns = h.conns ∧
      (session.baseId ≠ 0 ∧ U.hasBase (UInt32.ofInt session.baseId) h.world.1 = true →
        (h.bindAccountBase U.counted accountService session).1 = UInt32.ofInt session.baseId ∧
          (h.bindAccountBase U.counted accountService session).2.world.2 = h.world.2) ∧
      (¬ (session.baseId ≠ 0 ∧ U.hasBase (UInt32.ofInt session.baseId) h.world.1 = true) →
        (h.bindAccountBase U.counted accountService session).2.world.2 = h.world.2 + 1) := by
  have hhas : (GameUniverse.counted U).hasBase (UInt32.ofInt session.baseId) h.world =
      U.hasBase (UInt32.ofInt session.baseId) h.world.1 := rfl
  unfold bindAccountBase
  simp only [hhas]
  by_cases hbase : session.baseId ≠ 0 ∧ U.hasBase (UInt32.ofInt session.baseId) h.world.1 = true
  · simp only [hbase, and_self, decide_true, Bool.not_true, Bool.false_eq_true, if_false,
      forall_const, not_true_eq_false, false_implies, ne_eq, not_false_eq_true]
  · simp only [hbase, decide_false, Bool.not_false, if_true, not_false_eq_true, forall_const,
      false_implies, true_and]
    exact ⟨rfl, rfl⟩

theorem sendAuthResult_facts (C : CryptoProvider Key) (h : ServerHost Key W AccountStore)
    (token : UInt64) (peer : Endpoint) (res : AuthResult) :
    ((h.sendAuthResult C token peer res).2.entryForToken token).map ConnEntry.playerNetId =
        (h.entryForToken token).map ConnEntry.playerNetId ∧
      (h.sendAuthResult C token peer res).2.world = h.world := by
  unfold sendAuthResult
  cases he : h.entryForToken token with
  | none => exact ⟨by rw [he], rfl⟩
  | some e =>
      simp only []
      split
      · exact ⟨by rw [he], rfl⟩
      · refine ⟨?_, rfl⟩
        unfold setConn
        rw [entryForToken_modify_self, he]
        rfl

end ServerHost

/-- The frame of a successful login kicks the others, binds the base, marks its
    connection with it and answers. -/
theorem ServerHost.onAuthMessage_ok {Key W Snap : Type} (C : CryptoProvider Key)
    (U : GameUniverse W Snap) (h : ServerHost Key W AccountStore) (token : UInt64)
    (peer : Endpoint) (body user pass : Bytes) (e : ConnEntry Key) (accounts : AccountStore)
    (he : h.entryForToken token = some e) (hdec : decodeAuthRequest body = some (user, pass))
    (hacc : h.accounts = some accounts)
    (hok : (h.authenticate accountService accounts e.endpoint (body.headD 0) user pass).1.1 = .ok) :
    ∃ (h₀ : ServerHost Key W AccountStore) (bound : ConnEntry Key → ConnEntry Key),
      h₀.world = h.world ∧ h₀.entryForToken token = some e ∧
      (∀ e', (bound e').playerNetId = (h₀.bindAccountBase U accountService
        (h.authenticate accountService accounts e.endpoint (body.headD 0) user pass).1.2).1) ∧
      h.onAuthMessage C U accountService token peer body =
        ((h₀.bindAccountBase U accountService
          (h.authenticate accountService accounts e.endpoint (body.headD 0) user pass).1.2).2.modify
            token bound).sendAuthResult C token peer .ok := by
  unfold onAuthMessage
  simp only [he, hdec, hacc]
  rw [if_neg fun hne => hne hok]
  refine ⟨_, _, ?_, ?_, ?_, rfl⟩
  · rw [kick_world]
  · rw [entryForToken_kick]
    exact he
  · intro e'
    rfl

namespace Bound

variable {Key W Snap : Type} (C : CryptoProvider Key) (U : GameUniverse W Snap)

/-- What the frame of a successful login does: its connection is bound to the base that
    binding the session gives, and the world is what that leaves. -/
theorem applyMessage_login (h : ServerHost Key (W × Nat) AccountStore) (token : UInt64)
    (peer : Endpoint) (m : DecodedMessage) (session : SessionInfo)
    (hlogin : loginOf h token m = some session) :
    session.baseId = storedBase h session.accountId ∧
      ∃ h₀ : ServerHost Key (W × Nat) AccountStore, h₀.world = h.world ∧
        (((h.applyMessage C U.counted accountService token peer m).2.entryForToken token).map
          ConnEntry.playerNetId) =
            some (h₀.bindAccountBase U.counted accountService session).1 ∧
        (h.applyMessage C U.counted accountService token peer m).2.world =
          (h₀.bindAccountBase U.counted accountService session).2.world := by
  rcases m with ⟨channel, type, body⟩
  unfold loginOf at hlogin
  unfold ServerHost.applyMessage
  cases type with
  | command =>
      cases body with
      | nil => exact absurd hlogin nofun
      | cons opcode rest =>
          simp only [] at hlogin ⊢
          by_cases hop : isAuthOpcode opcode = true
          · rw [if_pos hop] at hlogin ⊢
            split at hlogin
            · rename_i e user pass accounts he hdec hacc
              by_cases hok : (h.authenticate accountService accounts e.endpoint opcode
                  user pass).1.1 = .ok
              · rw [if_pos hok, Option.some.injEq] at hlogin
                rcases ServerHost.onAuthMessage_ok C U.counted h token peer (opcode :: rest) user
                  pass e accounts he hdec hacc hok with ⟨h₀, bound, hworld, he₀, hbound, heq⟩
                simp only [List.headD_cons] at hbound heq
                rw [heq, ← hlogin]
                refine ⟨?_, h₀, hworld, ?_, ?_⟩
                · unfold storedBase
                  rw [hacc]
                  exact ServerHost.authenticate_base h accounts e.endpoint opcode user pass hok
                · rw [(ServerHost.sendAuthResult_facts C _ token peer .ok).1,
                    ServerHost.entryForToken_modify_self]
                  have hthere : (h₀.bindAccountBase U.counted accountService
                      (h.authenticate accountService accounts e.endpoint opcode user
                        pass).1.2).2.entryForToken token = some e := by
                    rw [← he₀]
                    unfold ServerHost.entryForToken
                    rw [(ServerHost.bindAccountBase_counted U h₀ _).1]
                  rw [hthere, Option.map_some, Option.map_some]
                  exact congrArg some (hbound e)
                · rw [(ServerHost.sendAuthResult_facts C _ token peer .ok).2]
                  rfl
              · rw [if_neg hok] at hlogin
                exact absurd hlogin nofun
            · exact absurd hlogin nofun
          · rw [if_neg hop] at hlogin
            exact absurd hlogin nofun
  | _ => exact absurd hlogin nofun

/-! ## Every login of a run -/

end Bound

/-- The login came to the base the account had, and spawned none. -/
def Binding.Right (x : Binding) : Prop := ∀ n, x.live = some n → x.netId = n ∧ x.spawned = false

/-- The table of bases had the base the account had. -/
def Binding.Stored (x : Binding) : Prop :=
  ∀ n, x.live = some n → x.stored ≠ 0 ∧ UInt32.ofInt x.stored = n

namespace Bound

variable {Key W Snap : Type} (C : CryptoProvider Key) (U : GameUniverse W Snap)

theorem bindingOf_right (home : Nat → Option UInt32) (h : ServerHost Key (W × Nat) AccountStore)
    (token : UInt64) (peer : Endpoint) (m : DecodedMessage) (session : SessionInfo)
    (hlogin : loginOf h token m = some session) :
    (bindingOf U home h (h.applyMessage C U.counted accountService token peer m).2 token
        session).Right ↔
      (bindingOf U home h (h.applyMessage C U.counted accountService token peer m).2 token
        session).Stored := by
  rcases applyMessage_login C U h token peer m session hlogin with
    ⟨hstored, h₀, hworld, hnet, hafter⟩
  rcases ServerHost.bindAccountBase_counted U h₀ session with ⟨_, hold, hnew⟩
  rw [hworld] at hold hnew
  unfold Binding.Right Binding.Stored bindingOf
  simp only [hnet, hafter, Option.getD_some, ← hstored, decide_eq_false_iff_not, ne_eq, not_not]
  refine forall_congr' fun n => imp_congr_right fun hlive => ?_
  have halive : U.hasBase n h.world.1 = true := (Option.filter_eq_some_iff.mp hlive).2
  constructor
  · rintro ⟨heq, hsame⟩
    by_cases hfirst : session.baseId ≠ 0 ∧
        U.hasBase (UInt32.ofInt session.baseId) h.world.1 = true
    · rw [← heq, (hold hfirst).1]
      exact ⟨hfirst.1, rfl⟩
    · -- A new base would have been counted.
      have hcount := hnew hfirst
      omega
  · rintro ⟨hne, heq⟩
    have hfirst : session.baseId ≠ 0 ∧
        U.hasBase (UInt32.ofInt session.baseId) h.world.1 = true := ⟨hne, by rw [heq]; exact halive⟩
    exact ⟨(hold hfirst).1.trans heq, (hold hfirst).2⟩

/-- Every login so far came to the base the account had exactly where the table had
    that. -/
def Told (b : Bound Key W) : Prop := ∀ x ∈ b.bindings, x.Right ↔ x.Stored

theorem follow_told (token : UInt64) (peer : Endpoint) (b : Bound Key W) (m : DecodedMessage)
    (h : b.Told) : (follow C U token peer b m).Told := by
  unfold follow
  simp only []
  split
  · exact h
  · rename_i session hlogin
    intro x hx
    rcases List.mem_append.mp hx with hold | hnew
    · exact h x hold
    · rw [List.mem_singleton.mp hnew]
      exact bindingOf_right C U b.home b.host token peer m session hlogin

theorem foldl_follow_told (token : UInt64) (peer : Endpoint) (ms : List DecodedMessage)
    (b : Bound Key W) (h : b.Told) : (ms.foldl (follow C U token peer) b).Told := by
  induction ms generalizing b with
  | nil => exact h
  | cons m ms ih => exact ih _ (follow_told C U token peer b m h)

theorem step_told {b b' : Bound Key W} (l : HostLabel (W × Nat) AccountStore) (h : b.Told)
    (hstep : b.step C U l = some b') : b'.Told := by
  unfold step at hstep
  rw [Option.map_eq_some_iff] at hstep
  rcases hstep with ⟨h', _, rfl⟩
  have hrecord : (record C U b l).Told := by
    unfold record
    split
    · split
      · exact h
      · exact foldl_follow_told C U _ _ _ _ h
    · exact h
  exact hrecord

/-- In every run of the host over the account store, a successful login comes to the
    base its account had, and spawns none, exactly where the table of bases had that
    base for the account. -/
theorem bindings_right_iff {h₀ : ServerHost Key (W × Nat) AccountStore} {b : Bound Key W}
    (hreach : Reaches (step C U) free (start h₀) b) (x : Binding) (hx : x ∈ b.bindings) :
    x.Right ↔ x.Stored := by
  have htold : b.Told := by
    refine hreach.invariant (fun _ l _ h _ hstep => step_told C U l h hstep) ?_
    intro x hx
    exact absurd hx List.not_mem_nil
  exact htold x hx

end Bound

/-! ## Two runs -/

/-- A store with one account, number 1, and what its table of bases has. -/
def sampleStore (bases : List (Nat × Int)) : AccountStore where
  cfg :=
    { pepper := [], pbkdf2Iterations := 1, maxLoginFailures := 5, lockoutSeconds := 60
      sessionTtlSeconds := 3600
      pbkdf2 := fun pw salt _ => List.replicate pwHashBytes (digest (pw ++ salt))
      foldName := id, randomBytes := fun n => List.Vector.replicate 32 (UInt8.ofNat n) }
  db :=
    { nextAccountId := 2
      accounts := [
        { accountId := 1, username := [97, 98, 99]
          passwordHash := List.replicate pwHashBytes (digest (List.replicate 8 97))
          passwordSalt := [], iterations := 1, status := 0, loginFailures := 0
          lockedUntil := none }]
      wallets := [1], sessions := [], bases := bases }
  available := true
  ipWindows := fun _ => (0, 0)
  drawn := 0

/-- A host over it that has just started. -/
def sampleAuthHost (bases : List (Nat × Int)) :
    ServerHost UInt8 (List UInt32 × Nat) AccountStore :=
  .start [] [] 0 ([], 0) (some (sampleStore bases)) none false

/-- The keys that the first connection agrees on. -/
def sampleKeys : UInt8 × UInt8 :=
  ((sampleProvider.deriveSharedSecret (sampleKeyPair 0)
    (List.Vector.replicate ecPubKeyBytes 3)).bind fun secret =>
      sampleProvider.deriveAeadKeys secret 0).getD (0, 0)

/-- The login frame, sealed as often as it is sent. -/
def loginFrames (n : Nat) : List Bytes :=
  let frame := encodeAuthRequest authOpcodeLogin [97, 98, 99] (List.replicate 8 97)
  let ch := openChannel .clientToServer (ServerHost.mixToken 1) sampleKeys.1 sampleKeys.2
  (ch.sealAll sampleProvider.toICrypto
    (List.replicate n (writeMessage .reliableOrdered .command frame))).map (kindEncrypted :: ·)

/-- A client connects and sends its login, and sends it again before it is answered. -/
def loginTwice : List (HostLabel (List UInt32 × Nat) AccountStore) :=
  .datagram (sampleKeyPair 0) samplePeer opening ::
    .datagram (sampleKeyPair 0) samplePeer
      (makeHandshakeDatagram .clockSyncRequest (List.replicate 16 0)) ::
    (loginFrames 2).map (.datagram (sampleKeyPair 0) samplePeer)

/-- With the base in the table the second login comes to the base of the first. -/
theorem same_base :
    ∃ b, Reaches (Bound.step sampleProvider sampleUniverse) free
        (Bound.start (sampleAuthHost [(1, 1)])) b ∧
      ∃ x ∈ b.bindings, x.live = some 1 ∧ x.netId = 1 ∧ x.spawned = false := by
  have hrun : ((runLabels (Bound.step sampleProvider sampleUniverse)
      (Bound.start (sampleAuthHost [(1, 1)])) loginTwice).any fun b =>
        b.bindings.any fun x => x.account = 1 ∧ x.live = some 1 ∧ x.stored = 1) = true := by
    decide +kernel
  rcases exists_of_runLabels _ hrun with ⟨b, hreach, hb⟩
  rcases List.any_eq_true.mp hb with ⟨x, hx, htest⟩
  rw [decide_eq_true_eq] at htest
  have hright : x.Right := by
    refine (Bound.bindings_right_iff sampleProvider sampleUniverse hreach x hx).mpr ?_
    intro n hn
    rw [htest.2.1, Option.some.injEq] at hn
    rw [htest.2.2, ← hn]
    exact ⟨by decide, by decide⟩
  exact ⟨b, hreach, x, hx, htest.2.1, hright 1 htest.2.1⟩

/-- With an empty table the login that is sent again spawns a second base while the
    first is alive, and the reply carries that. -/
theorem second_base :
    ∃ b, Reaches (Bound.step sampleProvider sampleUniverse) free
        (Bound.start (sampleAuthHost [])) b ∧
      b.bindings = [⟨1, none, 0, 1, true⟩, ⟨1, some 1, 0, 2, true⟩] ∧
      b.host.world.1 = [2, 1] := by
  have hrun : ((runLabels (Bound.step sampleProvider sampleUniverse)
      (Bound.start (sampleAuthHost [])) loginTwice).any fun b =>
        b.bindings = [⟨1, none, 0, 1, true⟩, ⟨1, some 1, 0, 2, true⟩] ∧
          b.host.world.1 = [2, 1]) = true := by decide +kernel
  rcases exists_of_runLabels _ hrun with ⟨b, hreach, hb⟩
  exact ⟨b, hreach, of_decide_eq_true hb⟩

end Net

end EarthRise
