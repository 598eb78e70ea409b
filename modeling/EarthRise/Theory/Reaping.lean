import EarthRise.Core.HostRun
import EarthRise.Lib.Run
import EarthRise.Theory.ServerHost

/-!
# When a Silent Connection Is Reaped

A connection's time stamp is set by every datagram that is routed to it, before the
connection has looked at it. So the stamp is the time of the last arrival, opened or
not, and pruning goes by that. A connection whose peer is gone is reaped as long as
nobody else sends to it; a datagram that carries its token, or a clear one from its
address, keeps it.

`Kept` is what all the other work of the host does to the table: entries go or stay,
with the stamps they had.

## Main definitions

* `ServerHost.Kept`: No entry is new or stamped anew.
* `Stamped`: The invariant: an entry's stamp is the time of its last arrival.
* `Watched.Quiet`, `Watched.Undisturbed`: What arrived lately.
* `ServerHost.Reaped`: Pruning removes a connection, and its address gets a cookie.

## Theorems

* `Kept`'s lemmas, up to `applyMessages_kept`: One for each operation.
* `onDatagram_cases`: A datagram is routed, opens a connection, or does nothing.
* `stamped_of_reaches`: The invariant holds in every run.
* `reaped_iff`: When pruning removes a connection that has been silent.
* `restart_not_reaped`: A restarted client keeps its old connection alive.
-/

namespace EarthRise

namespace Net

open Run

namespace ServerHost

variable {Key W Snap A : Type}

/-- `h'` has the entries of `h` or fewer, each with the stamp it had. -/
structure Kept (h h' : ServerHost Key W A) : Prop where
  clock : h'.nowMs = h.nowMs
  tokens : (h'.conns.map Prod.fst).Sublist (h.conns.map Prod.fst)
  entry : ∀ t e', h'.entryForToken t = some e' →
    ∃ e, h.entryForToken t = some e ∧ e'.lastSeenMs = e.lastSeenMs

theorem Kept.of_conns {h h' : ServerHost Key W A} (hclock : h'.nowMs = h.nowMs)
    (hconns : h'.conns = h.conns) : Kept h h' where
  clock := hclock
  tokens := by rw [hconns]
  entry := by
    intro t e' he'
    unfold entryForToken at he' ⊢
    rw [hconns] at he'
    exact ⟨e', he', rfl⟩

theorem Kept.refl (h : ServerHost Key W A) : Kept h h := .of_conns rfl rfl

theorem Kept.trans {h₁ h₂ h₃ : ServerHost Key W A} (h12 : Kept h₁ h₂) (h23 : Kept h₂ h₃) :
    Kept h₁ h₃ where
  clock := h23.clock.trans h12.clock
  tokens := h23.tokens.trans h12.tokens
  entry := by
    intro t e₃ he₃
    rcases h23.entry t e₃ he₃ with ⟨e₂, he₂, hseen₃⟩
    rcases h12.entry t e₂ he₂ with ⟨e₁, he₁, hseen₂⟩
    exact ⟨e₁, he₁, hseen₃.trans hseen₂⟩

theorem modify_tokens (h : ServerHost Key W A) (t : UInt64) (f : ConnEntry Key → ConnEntry Key) :
    (h.modify t f).conns.map Prod.fst = h.conns.map Prod.fst := by
  unfold modify
  rw [List.map_map]
  refine List.map_congr_left fun e _ => ?_
  by_cases he : e.1 = t
  · simp only [Function.comp_apply, if_pos he]
  · simp only [Function.comp_apply, if_neg he]

theorem modify_kept (h : ServerHost Key W A) (t : UInt64) (f : ConnEntry Key → ConnEntry Key)
    (hf : ∀ e, (f e).lastSeenMs = e.lastSeenMs) : Kept h (h.modify t f) where
  clock := rfl
  tokens := by rw [modify_tokens]
  entry := by
    intro t' e' he'
    by_cases ht : t' = t
    · rw [ht, entryForToken_modify_self, Option.map_eq_some_iff] at he'
      rcases he' with ⟨e, he, rfl⟩
      exact ⟨e, by rw [ht]; exact he, hf e⟩
    · rw [entryForToken_modify_ne h f ht] at he'
      exact ⟨e', he', rfl⟩

theorem setConn_kept (h : ServerHost Key W A) (t : UInt64) (conn : ServerConnection Key) :
    Kept h (h.setConn t conn) :=
  modify_kept h t _ fun _ => rfl

theorem dropEntry_kept (h : ServerHost Key W A) (t : UInt64) (a : Endpoint) :
    Kept h (h.dropEntry t a) where
  clock := rfl
  tokens := List.Sublist.map _ List.filter_sublist
  entry := by
    intro t' e' he'
    rw [entryForToken_dropEntry] at he'
    by_cases ht : t' = t
    · rw [if_pos ht] at he'
      exact absurd he' nofun
    · rw [if_neg ht] at he'
      exact ⟨e', he', rfl⟩

theorem removeConnection_kept (U : GameUniverse W Snap) (h : ServerHost Key W A) (t : UInt64) :
    Kept h (h.removeConnection U t) := by
  unfold removeConnection
  cases h.entryForToken t with
  | none => exact Kept.refl h
  | some e =>
      refine Kept.trans ?_ (dropEntry_kept _ t e.endpoint)
      exact .of_conns rfl rfl

theorem removeAll_kept (U : GameUniverse W Snap) (ts : List UInt64) (h : ServerHost Key W A) :
    Kept h (ts.foldl (fun h t => h.removeConnection U t) h) := by
  induction ts generalizing h with
  | nil => exact Kept.refl h
  | cons t ts ih => exact (removeConnection_kept U h t).trans (ih _)

theorem kick_kept (h : ServerHost Key W A) (accountId : Nat) (keepToken : UInt64) :
    Kept h (h.kickExistingSessionForAccount accountId keepToken) := by
  have hall : ∀ (es : List (UInt64 × ConnEntry Key)) (h : ServerHost Key W A),
      Kept h (es.foldl (fun h e => h.dropEntry e.1 e.2.endpoint) h) := by
    intro es
    induction es with
    | nil => exact fun h => Kept.refl h
    | cons e es ih => exact fun h => (dropEntry_kept h e.1 e.2.endpoint).trans (ih _)
  exact hall _ h

section

variable (C : CryptoProvider Key) (U : GameUniverse W Snap) (S : AccountService A)

theorem bindAccountBase_kept (h : ServerHost Key W A) (session : SessionInfo) :
    Kept h (h.bindAccountBase U S session).2 := by
  have hconns : (h.bindAccountBase U S session).2.conns = h.conns ∧
      (h.bindAccountBase U S session).2.nowMs = h.nowMs := by
    unfold bindAccountBase
    simp only []
    split
    · exact ⟨rfl, rfl⟩
    · exact ⟨rfl, rfl⟩
  exact .of_conns hconns.2 hconns.1

theorem sendAuthResult_kept (h : ServerHost Key W A) (t : UInt64) (peer : Endpoint)
    (res : AuthResult) : Kept h (h.sendAuthResult C t peer res).2 := by
  unfold sendAuthResult
  cases h.entryForToken t with
  | none => exact Kept.refl h
  | some e =>
      simp only []
      split
      · exact Kept.refl h
      · exact setConn_kept h t _

theorem onAuthMessage_kept (h : ServerHost Key W A) (t : UInt64) (peer : Endpoint)
    (body : Bytes) : Kept h (h.onAuthMessage C U S t peer body).2 := by
  unfold onAuthMessage
  cases h.entryForToken t with
  | none => exact Kept.refl h
  | some e =>
      cases decodeAuthRequest body with
      | none => exact sendAuthResult_kept C h t peer .badInput
      | some cred =>
          cases h.accounts with
          | none => exact sendAuthResult_kept C h t peer .dbUnavailable
          | some accounts =>
              simp only []
              by_cases hok : (h.authenticate S accounts e.endpoint (body.headD 0) cred.1 cred.2).1.1 ≠ .ok
              · rw [if_pos hok]
                refine Kept.trans ?_ (sendAuthResult_kept C _ t peer _)
                exact .of_conns rfl rfl
              · rw [if_neg hok]
                refine Kept.trans ?_ (sendAuthResult_kept C _ t peer .ok)
                refine Kept.trans ?_ (modify_kept _ t _ fun _ => rfl)
                refine Kept.trans ?_ (bindAccountBase_kept U S _ _)
                refine Kept.trans ?_ (kick_kept _ _ t)
                exact .of_conns rfl rfl

theorem applyMessage_kept (h : ServerHost Key W A) (t : UInt64) (peer : Endpoint)
    (m : DecodedMessage) : Kept h (h.applyMessage C U S t peer m).2 := by
  unfold applyMessage
  split
  · split
    · exact Kept.refl h
    · split
      · exact onAuthMessage_kept C U S h t peer m.body
      · exact Kept.refl h
  · split
    · exact Kept.refl h
    · split
      · exact .of_conns rfl rfl
      · exact Kept.refl h
  · exact Kept.refl h

theorem applyMessages_kept (t : UInt64) (peer : Endpoint) (ms : List DecodedMessage)
    (h : ServerHost Key W A) : Kept h (applyMessages C U S t peer h ms).2 := by
  induction ms generalizing h with
  | nil => exact Kept.refl h
  | cons m ms ih => exact (applyMessage_kept C U S h t peer m).trans (ih _)

theorem dispatchToConnection_kept (h : ServerHost Key W A) (t : UInt64) (peer : Endpoint)
    (dg : Bytes) : Kept h (h.dispatchToConnection C U S t peer dg).2 := by
  unfold dispatchToConnection
  cases h.entryForToken t with
  | none => exact Kept.refl h
  | some e =>
      simp only []
      split
      · exact Kept.refl h
      · refine Kept.trans ?_ (applyMessages_kept C U S t peer _ _)
        exact setConn_kept h t _

/-- Routing stamps the connection and leaves the other stamps. -/
theorem routeTo_kept (h : ServerHost Key W A) (t : UInt64) (peer : Endpoint) (dg : Bytes) :
    Kept (h.modify t fun e => { e with lastSeenMs := h.nowMs }) (h.routeTo C U S t peer dg).2 := by
  have hd := dispatchToConnection_kept C U S (h.modify t fun e => { e with lastSeenMs := h.nowMs })
    t peer dg
  unfold routeTo
  simp only []
  split
  · exact hd
  · split
    · exact hd.trans (removeConnection_kept U _ t)
    · exact hd

theorem broadcastSnapshots_kept (h : ServerHost Key W A) :
    Kept h (h.broadcastSnapshots C U).2 := by
  have hone : ∀ (h : ServerHost Key W A) (id : UInt32) (snap : Snap),
      Kept h (h.sendSnapshot C U id snap).2 := by
    intro h id snap
    unfold sendSnapshot
    split
    · exact Kept.refl h
    · split
      · exact Kept.refl h
      · simp only []
        split
        · exact .of_conns rfl rfl
        · exact (setConn_kept h _ _).trans (.of_conns rfl rfl)
  have hall : ∀ (ss : List (UInt32 × Snap)) (h : ServerHost Key W A),
      Kept h (sendSnapshots C U h ss).2 := by
    intro ss
    induction ss with
    | nil => exact fun h => Kept.refl h
    | cons s ss ih => exact fun h => (hone h s.1 s.2).trans (ih _)
  unfold broadcastSnapshots
  refine Kept.trans ?_ (hall _ _)
  exact .of_conns rfl rfl

theorem setDilationFactor_kept (h : ServerHost Key W A) (f : ℚ) :
    Kept h (h.setDilationFactor f) where
  clock := rfl
  tokens := by
    unfold setDilationFactor
    rw [List.map_map]
    exact List.Sublist.refl _
  entry := by
    intro t e' he'
    let slowed : ConnEntry Key → ConnEntry Key := fun e =>
      { e with conn := { e.conn with server := { e.conn.server with dilationFactor := f } } }
    have hlookup : (h.setDilationFactor f).entryForToken t = (h.entryForToken t).map slowed :=
      Assoc.lookup_mapValues h.conns slowed t
    rw [hlookup, Option.map_eq_some_iff] at he'
    rcases he' with ⟨e, he, rfl⟩
    exact ⟨e, he, rfl⟩

/-! ## One datagram -/

/-- A datagram is routed to a live connection, opens a connection, or does nothing. -/
theorem onDatagram_cases (fresh : EcdhKeyPair) (h : ServerHost Key W A) (src : Endpoint)
    (dg : Bytes) :
    (∃ t e, h.recipient src dg = some t ∧ h.entryForToken t = some e ∧
      h.onDatagram C U S fresh src dg = h.routeTo C U S t src dg) ∨
    (h.recipient src dg = none ∧ ((h.onDatagram C U S fresh src dg).2 = h ∨
      ∃ body, h.routeOf src = none ∧
        (h.onDatagram C U S fresh src dg).2 = (h.accept C U fresh src body).2)) := by
  unfold recipient onDatagram
  match dg with
  | [] => exact .inr ⟨rfl, .inl rfl⟩
  | kind :: rest =>
      simp only []
      by_cases henc : kind = kindEncrypted
      · simp only [if_pos henc]
        cases hpeek : peekConnectionToken (kind :: rest) with
        | none => exact .inr ⟨rfl, .inl rfl⟩
        | some t =>
            simp only []
            by_cases hlive : (h.entryForToken t).isSome = true
            · rcases Option.isSome_iff_exists.mp hlive with ⟨e, he⟩
              rw [if_pos hlive, Option.filter_some, if_pos hlive]
              exact .inl ⟨t, e, rfl, he, rfl⟩
            · rw [if_neg hlive, Option.filter_some, if_neg hlive]
              exact .inr ⟨rfl, .inl rfl⟩
      · simp only [if_neg henc]
        by_cases hclear : kind ≠ kindClearHandshake
        · simp only [if_pos hclear]
          exact .inr ⟨trivial, .inl trivial⟩
        · simp only [if_neg hclear]
          cases rest with
          | nil => exact .inr ⟨rfl, .inl rfl⟩
          | cons type body =>
              simp only [reduceCtorEq, if_false]
              cases hroute : h.routeOf src with
              | some t =>
                  have hlive : (h.entryForToken t).isSome = true :=
                    (Option.filter_eq_some_iff.mp hroute).2
                  rcases Option.isSome_iff_exists.mp hlive with ⟨e, he⟩
                  exact .inl ⟨t, e, rfl, he, rfl⟩
              | none =>
                  refine .inr ⟨rfl, ?_⟩
                  simp only []
                  unfold onStateless
                  split
                  · split
                    · exact .inl rfl
                    · exact .inl rfl
                  · split
                    · exact .inl rfl
                    · split
                      · exact .inl rfl
                      · exact .inr ⟨body, trivial, rfl⟩
                  · exact .inl rfl

/-! ## Pruning -/

theorem removeAll_entry (ts : List UInt64) (h : ServerHost Key W A) (t : UInt64) :
    (ts.foldl (fun h t => h.removeConnection U t) h).entryForToken t =
      if t ∈ ts then none else h.entryForToken t := by
  induction ts generalizing h with
  | nil => rw [List.foldl_nil, if_neg List.not_mem_nil]
  | cons t' ts ih =>
      rw [List.foldl_cons, ih, entryForToken_removeConnection]
      by_cases hin : t ∈ ts
      · rw [if_pos hin, if_pos (List.mem_cons_of_mem t' hin)]
      · rw [if_neg hin]
        by_cases ht : t = t'
        · rw [if_pos ht, if_pos (by rw [ht]; exact List.mem_cons_self)]
        · rw [if_neg ht, if_neg (by
            rw [List.mem_cons, not_or]
            exact ⟨ht, hin⟩)]

/-- Removals forget addresses and make no new ones known. -/
theorem removeConnection_addr (h : ServerHost Key W A) (t : UInt64) (a : Endpoint) :
    (h.addrToToken a = none → (h.removeConnection U t).addrToToken a = none) ∧
      (∀ e, h.entryForToken t = some e → e.endpoint = a →
        (h.removeConnection U t).addrToToken a = none) := by
  unfold removeConnection
  cases he : h.entryForToken t with
  | none => exact ⟨fun ha => ha, fun e he' => absurd he' nofun⟩
  | some e =>
      simp only [dropEntry]
      refine ⟨fun ha => ?_, fun e' he' ha => ?_⟩
      · rw [ha, ite_self]
      · rw [Option.some.injEq] at he'
        rw [he', if_pos ha.symm]

theorem removeAll_addr (ts : List UInt64) (h : ServerHost Key W A) (a : Endpoint)
    (ha : h.addrToToken a = none) :
    (ts.foldl (fun h t => h.removeConnection U t) h).addrToToken a = none := by
  induction ts generalizing h with
  | nil => exact ha
  | cons t ts ih => exact ih _ ((removeConnection_addr U h t a).1 ha)

theorem removeAll_forgets (ts : List UInt64) (h : ServerHost Key W A) (t : UInt64)
    (e : ConnEntry Key) (he : h.entryForToken t = some e) (ht : t ∈ ts) :
    (ts.foldl (fun h t => h.removeConnection U t) h).addrToToken e.endpoint = none := by
  induction ts generalizing h with
  | nil => exact absurd ht List.not_mem_nil
  | cons t' ts ih =>
      rw [List.foldl_cons]
      by_cases heq : t = t'
      · rw [← heq]
        exact removeAll_addr U ts _ _ ((removeConnection_addr U h t e.endpoint).2 e he rfl)
      · refine ih _ ?_ ((List.mem_cons.mp ht).resolve_left heq)
        rw [entryForToken_removeConnection, if_neg heq, he]

/-- Pruning removes the stale connections and no others. -/
theorem pruneStale_entry (h : ServerHost Key W A) (timeoutMs : Nat) (t : UInt64)
    (e : ConnEntry Key) (hdistinct : (h.conns.map Prod.fst).Nodup)
    (he : h.entryForToken t = some e) :
    (h.pruneStale U timeoutMs).entryForToken t =
      if stale h.nowMs timeoutMs e = true then none else some e := by
  unfold pruneStale
  rw [removeAll_entry, he]
  have hiff : t ∈ (h.conns.filter fun e => stale h.nowMs timeoutMs e.2).map Prod.fst ↔
      stale h.nowMs timeoutMs e = true := by
    constructor
    · intro hin
      rcases List.mem_map.mp hin with ⟨⟨t', e'⟩, hin', rfl⟩
      rw [List.mem_filter] at hin'
      have hsame := Assoc.lookup_of_mem hdistinct hin'.1
      have heq : e' = e := Option.some.inj (hsame.symm.trans he)
      rw [← heq]
      exact hin'.2
    · intro hstale
      exact List.mem_map.mpr ⟨(t, e), List.mem_filter.mpr ⟨Assoc.mem_of_lookup he, hstale⟩, rfl⟩
  simp only [hiff]

theorem pruneStale_forgets (h : ServerHost Key W A) (timeoutMs : Nat) (t : UInt64)
    (e : ConnEntry Key) (he : h.entryForToken t = some e)
    (hstale : stale h.nowMs timeoutMs e = true) :
    (h.pruneStale U timeoutMs).addrToToken e.endpoint = none :=
  removeAll_forgets U _ h t e he
    (List.mem_map.mpr ⟨(t, e), List.mem_filter.mpr ⟨Assoc.mem_of_lookup he, hstale⟩, rfl⟩)

/-- A compatible hello from an address that is not known is answered with a cookie. -/
theorem onDatagram_hello (fresh : EcdhKeyPair) (h : ServerHost Key W A) (src : Endpoint)
    (hsrc : h.addrToToken src = none) :
    (h.onDatagram C U S fresh src
        (makeHandshakeDatagram .clientHello (encodeClientHello protocolId))).1 =
      [⟨src, makeHandshakeDatagram .cookie (C.makeCookie h.serverSecret src.addrBytes).toList⟩] := by
  have hroute : h.routeOf src = none := by
    unfold routeOf
    rw [hsrc, Option.filter_none]
  rw [makeHandshakeDatagram, onDatagram_stateless C U S fresh h src _ _ hroute]
  rfl

end

end ServerHost

/-! ## Runs -/

section

variable {Key W Snap A : Type} (C : CryptoProvider Key) (U : GameUniverse W Snap)
  (S : AccountService A) {w : Watched Key W A} {h' : ServerHost Key W A}

/-- Tokens are distinct, nothing arrived in the future, and an entry's stamp is the
    time of the last arrival for it. -/
structure Stamped (w : Watched Key W A) : Prop where
  distinct : (w.host.conns.map Prod.fst).Nodup
  past : ∀ a ∈ w.arrivals, a.atMs ≤ w.host.nowMs
  seen : ∀ t e, w.host.entryForToken t = some e →
    ∃ a ∈ w.arrivals, a.token = t ∧ a.atMs = e.lastSeenMs
  last : ∀ t e, w.host.entryForToken t = some e →
    ∀ a ∈ w.arrivals, a.token = t → a.atMs ≤ e.lastSeenMs

/-- No step but a datagram lets anything arrive, and the clock does not go back. -/
theorem Stamped.kept (h : Stamped w)
    (hk : ServerHost.Kept w.host h') : Stamped ⟨h', w.arrivals⟩ where
  distinct := h.distinct.sublist hk.tokens
  past := by
    intro a ha
    rw [hk.clock]
    exact h.past a ha
  seen := by
    intro t e' he'
    rcases hk.entry t e' he' with ⟨e, he, hseen⟩
    rw [hseen]
    exact h.seen t e he
  last := by
    intro t e' he'
    rcases hk.entry t e' he' with ⟨e, he, hseen⟩
    rw [hseen]
    exact h.last t e he

theorem Stamped.silent (h : Stamped w)
    (hk : ServerHost.Kept w.host h') : Stamped ⟨h', w.arrivals ++ []⟩ := by
  rw [List.append_nil]
  exact h.kept hk

/-- An arrival stamps the connection it is for, and leaves the stamps of others. -/
theorem Stamped.arrive (h : Stamped w)
    (a : Arrival) (hat : a.atMs = w.host.nowMs) (hclock : h'.nowMs = w.host.nowMs)
    (hdistinct : (h'.conns.map Prod.fst).Nodup)
    (hself : ∀ e', h'.entryForToken a.token = some e' → e'.lastSeenMs = w.host.nowMs)
    (hother : ∀ t e', t ≠ a.token → h'.entryForToken t = some e' →
      ∃ e, w.host.entryForToken t = some e ∧ e'.lastSeenMs = e.lastSeenMs) :
    Stamped ⟨h', w.arrivals ++ [a]⟩ where
  distinct := hdistinct
  past := by
    intro b hb
    rw [hclock]
    rcases List.mem_append.mp hb with hold | hnew
    · exact h.past b hold
    · rw [List.mem_singleton.mp hnew, hat]
  seen := by
    intro t e' he'
    by_cases ht : t = a.token
    · rw [ht] at he'
      refine ⟨a, List.mem_append_right _ (List.mem_singleton_self a), ht.symm, ?_⟩
      rw [hat, hself e' he']
    · rcases hother t e' ht he' with ⟨e, he, hseen⟩
      rcases h.seen t e he with ⟨b, hb, hbt, hbat⟩
      exact ⟨b, List.mem_append_left _ hb, hbt, hbat.trans hseen.symm⟩
  last := by
    intro t e' he' b hb hbt
    by_cases ht : t = a.token
    · rw [ht] at he'
      rw [hself e' he']
      rcases List.mem_append.mp hb with hold | hnew
      · exact h.past b hold
      · rw [List.mem_singleton.mp hnew, hat]
    · rcases hother t e' ht he' with ⟨e, he, hseen⟩
      rw [hseen]
      rcases List.mem_append.mp hb with hold | hnew
      · exact h.last t e he b hold hbt
      · rw [List.mem_singleton.mp hnew] at hbt
        exact absurd hbt.symm ht

/-- A datagram that is routed arrives for the connection it is routed to. -/
theorem stamped_routed (h : Stamped w) (src : Endpoint) (dg : Bytes)
    (t : UInt64) (opened : Bool) :
    Stamped ⟨(w.host.routeTo C U S t src dg).2, w.arrivals ++ [⟨t, w.host.nowMs, opened⟩]⟩ := by
  have hk := ServerHost.routeTo_kept C U S w.host t src dg
  refine h.arrive _ rfl hk.clock ?_ ?_ ?_
  · have htokens := hk.tokens
    rw [ServerHost.modify_tokens] at htokens
    exact h.distinct.sublist htokens
  · intro e' he'
    rcases hk.entry t e' he' with ⟨e, he, hseen⟩
    rw [ServerHost.entryForToken_modify_self, Option.map_eq_some_iff] at he
    rcases he with ⟨e₀, _, rfl⟩
    exact hseen
  · intro t' e' ht' he'
    rcases hk.entry t' e' he' with ⟨e, he, hseen⟩
    rw [ServerHost.entryForToken_modify_ne _ _ ht'] at he
    exact ⟨e, he, hseen⟩

/-- A cookie response that opens a connection arrives for it. -/
theorem stamped_accepted (h : Stamped w) (fresh : EcdhKeyPair)
    (src : Endpoint) (body : Bytes) (dg : Bytes) (hnone : w.host.recipient src dg = none) :
    Stamped ⟨(w.host.accept C U fresh src body).2,
      w.arrivals ++
        (Watched.arrivalOf C w.host (w.host.accept C U fresh src body).2 src dg).toList⟩ := by
  rcases ServerHost.accept_conns C U fresh w.host src body with ⟨entry, hseen, hconns⟩
  have hclock : (w.host.accept C U fresh src body).2.nowMs = w.host.nowMs ∧
      (w.host.accept C U fresh src body).2.tokenCounter = w.host.tokenCounter + 1 := by
    unfold ServerHost.accept
    cases w.host.devAuthStub with
    | false => exact ⟨rfl, rfl⟩
    | true => exact ⟨rfl, rfl⟩
  unfold Watched.arrivalOf
  simp only [hnone, hclock.2]
  by_cases htaken : (w.host.entryForToken (ServerHost.mixToken (w.host.tokenCounter + 1))).isSome
  · -- The token is taken: no connection is opened.
    rw [if_pos htaken] at hconns
    rw [if_neg (by
      rw [Option.isNone_iff_eq_none]
      rintro ⟨hfree, _⟩
      rw [hfree] at htaken
      exact absurd htaken (by simp only [Option.isSome_none, Bool.false_eq_true,
        not_false_eq_true])), Option.toList_none, List.append_nil]
    exact h.kept (.of_conns hclock.1 hconns)
  · rw [if_neg htaken] at hconns
    have hfree : w.host.entryForToken (ServerHost.mixToken (w.host.tokenCounter + 1)) = none :=
      Option.not_isSome_iff_eq_none.mp htaken
    have hentries : ∀ t, (w.host.accept C U fresh src body).2.entryForToken t =
        (w.host.entryForToken t).or
          (if ServerHost.mixToken (w.host.tokenCounter + 1) = t then some entry else none) := by
      intro t
      show Assoc.lookup (w.host.accept C U fresh src body).2.conns t = _
      rw [hconns, Assoc.lookup_append, Assoc.lookup_cons, Assoc.lookup_nil]
      rfl
    have hnew := hentries (ServerHost.mixToken (w.host.tokenCounter + 1))
    rw [hfree, if_pos rfl, Option.none_or] at hnew
    rw [if_pos (by rw [hfree, hnew]; exact ⟨rfl, rfl⟩), Option.toList_some]
    refine h.arrive _ rfl hclock.1 ?_ ?_ ?_
    · rw [hconns, List.map_append]
      refine List.nodup_append.mpr ⟨h.distinct, List.nodup_singleton _, ?_⟩
      rintro t ht t' ht' rfl
      rcases List.mem_map.mp ht with ⟨⟨t', e⟩, hin, rfl⟩
      rw [List.map_singleton, List.mem_singleton] at ht'
      have hfound := Assoc.lookup_of_mem h.distinct hin
      rw [show t' = _ from ht'] at hfound
      exact absurd (hfree.symm.trans hfound) nofun
    · intro e' he'
      rw [hnew, Option.some.injEq] at he'
      rw [← he']
      exact hseen
    · intro t e' ht he'
      rw [hentries, if_neg (Ne.symm ht), Option.or_none] at he'
      exact ⟨e', he', rfl⟩

theorem stamped_step {w w' : Watched Key W A} (h : Stamped w) (l : HostLabel W A)
    (hstep : w.step C U S l = some w') : Stamped w' := by
  unfold Watched.step at hstep
  rw [Option.map_eq_some_iff] at hstep
  rcases hstep with ⟨h', hhost, rfl⟩
  cases l with
  | datagram fresh src dg =>
      rw [ServerHost.step, Option.some.injEq] at hhost
      rw [← hhost]
      show Stamped ⟨_, w.arrivals ++ (Watched.arrivalOf C w.host _ src dg).toList⟩
      rcases ServerHost.onDatagram_cases C U S fresh w.host src dg with
        ⟨t, e, hto, he, heq⟩ | ⟨hnone, heq | ⟨body, _, heq⟩⟩
      · rw [heq]
        unfold Watched.arrivalOf
        simp only [hto, he, Option.map_some, Option.toList_some]
        exact stamped_routed C U S h src dg t _
      · rw [heq]
        unfold Watched.arrivalOf
        simp only [hnone]
        rw [if_neg (by
          rw [Option.isNone_iff_eq_none]
          rintro ⟨hfree, hlive⟩
          rw [hfree] at hlive
          exact absurd hlive (by simp only [Option.isSome_none, Bool.false_eq_true,
            not_false_eq_true])), Option.toList_none, List.append_nil]
        exact h
      · rw [heq]
        exact stamped_accepted C U h fresh src body dg hnone
  | broadcast =>
      rw [ServerHost.step, Option.some.injEq] at hhost
      rw [← hhost]
      exact h.silent (ServerHost.broadcastSnapshots_kept C U w.host)
  | prune timeoutMs =>
      rw [ServerHost.step, Option.some.injEq] at hhost
      rw [← hhost]
      exact h.silent (ServerHost.removeAll_kept U _ w.host)
  | setClock nowMs =>
      rw [ServerHost.step] at hhost
      by_cases hnow : w.host.nowMs ≤ nowMs
      · rw [if_pos hnow, Option.some.injEq] at hhost
        rw [← hhost]
        show Stamped ⟨_, w.arrivals ++ []⟩
        rw [List.append_nil]
        exact ⟨h.distinct, fun a ha => (h.past a ha).trans hnow, h.seen, h.last⟩
      · rw [if_neg hnow] at hhost
        exact absurd hhost nofun
  | setUnixTime nowUnix =>
      rw [ServerHost.step, Option.some.injEq] at hhost
      rw [← hhost]
      exact h.silent (.of_conns rfl rfl)
  | setDilation f =>
      rw [ServerHost.step, Option.some.injEq] at hhost
      rw [← hhost]
      exact h.silent (ServerHost.setDilationFactor_kept w.host f)
  | outside u accounts persist =>
      rw [ServerHost.step, Option.some.injEq] at hhost
      rw [← hhost]
      exact h.silent (.of_conns rfl rfl)

theorem stamped_of_reaches {h₀ : ServerHost Key W A} (hempty : h₀.conns = [])
    (hreach : Reaches (Watched.step C U S) free (Watched.start h₀) w) :
    Stamped w := by
  refine hreach.invariant (fun _ l _ h _ hstep => stamped_step C U S h l hstep) ?_
  have hnone : ∀ t, (Watched.start h₀).host.entryForToken t = none := by
    intro t
    show Assoc.lookup h₀.conns t = none
    rw [hempty]
    rfl
  refine ⟨?_, ?_, ?_, ?_⟩
  · show (h₀.conns.map Prod.fst).Nodup
    rw [hempty]
    exact List.nodup_nil
  · exact fun a ha => absurd ha List.not_mem_nil
  · intro t e he
    rw [hnone] at he
    exact absurd he nofun
  · intro t e he
    rw [hnone] at he
    exact absurd he nofun

/-! ## When a connection is reaped -/

/-- In the last `timeoutMs` the connection opened no datagram. -/
def Watched.Quiet (w : Watched Key W A) (token : UInt64) (timeoutMs : Nat) : Prop :=
  ∀ a ∈ w.arrivals, a.token = token → a.opened = true → a.atMs + timeoutMs < w.host.nowMs

/-- In the last `timeoutMs` no datagram came for the connection that it did not open. -/
def Watched.Undisturbed (w : Watched Key W A) (token : UInt64) (timeoutMs : Nat) : Prop :=
  ∀ a ∈ w.arrivals, a.token = token → a.opened = false → a.atMs + timeoutMs < w.host.nowMs

/-- Pruning removes the connection of this address, and the address gets a cookie for
    its hello. -/
def ServerHost.Reaped (h : ServerHost Key W A) (token : UInt64) (peer : Endpoint)
    (timeoutMs : Nat) : Prop :=
  (h.pruneStale U timeoutMs).entryForToken token = none ∧
    ∀ fresh, ((h.pruneStale U timeoutMs).onDatagram C U S fresh peer
        (makeHandshakeDatagram .clientHello (encodeClientHello protocolId))).1 =
      [⟨peer, makeHandshakeDatagram .cookie
        (C.makeCookie (h.pruneStale U timeoutMs).serverSecret peer.addrBytes).toList⟩]

theorem reaped_of_stale (h : ServerHost Key W A) (token : UInt64) (e : ConnEntry Key)
    (timeoutMs : Nat) (hdistinct : (h.conns.map Prod.fst).Nodup)
    (he : h.entryForToken token = some e) :
    h.Reaped C U S token e.endpoint timeoutMs ↔ ServerHost.stale h.nowMs timeoutMs e = true := by
  have hentry := ServerHost.pruneStale_entry U h timeoutMs token e hdistinct he
  constructor
  · intro hreaped
    by_contra hstale
    rw [if_neg hstale, hreaped.1] at hentry
    exact absurd hentry nofun
  · intro hstale
    rw [if_pos hstale] at hentry
    refine ⟨hentry, fun fresh => ?_⟩
    exact ServerHost.onDatagram_hello C U S fresh _ e.endpoint
      (ServerHost.pruneStale_forgets U h timeoutMs token e he hstale)

/-- In every run of the host, a connection that opened nothing in the last `timeoutMs`
    is removed by pruning, and its address gets a cookie again, exactly where nothing
    else came for it in that time either, or it is disconnected. -/
theorem reaped_iff {h₀ : ServerHost Key W A} (hempty : h₀.conns = []) {w : Watched Key W A}
    (hreach : Reaches (Watched.step C U S) free (Watched.start h₀) w) (token : UInt64)
    (e : ConnEntry Key) (he : w.host.entryForToken token = some e) (timeoutMs : Nat)
    (hpos : 0 < timeoutMs) (hquiet : w.Quiet token timeoutMs) :
    w.host.Reaped C U S token e.endpoint timeoutMs ↔
      w.Undisturbed token timeoutMs ∨ e.conn.state = .disconnected := by
  have hinv := stamped_of_reaches C U S hempty hreach
  rw [reaped_of_stale C U S w.host token e timeoutMs hinv.distinct he]
  rcases hinv.seen token e he with ⟨a, ha, hat, hseen⟩
  have hpast : e.lastSeenMs ≤ w.host.nowMs := by
    rw [← hseen]
    exact hinv.past a ha
  have hstale : ServerHost.stale w.host.nowMs timeoutMs e = true ↔
      e.conn.state = .disconnected ∨ e.lastSeenMs + timeoutMs < w.host.nowMs := by
    unfold ServerHost.stale
    simp only [Bool.or_eq_true, Bool.and_eq_true, decide_eq_true_eq]
    constructor
    · rintro (h | ⟨⟨_, _⟩, h⟩)
      · exact .inl h
      · right
        omega
    · rintro (h | h)
      · exact .inl h
      · refine .inr ⟨⟨?_, hpast⟩, ?_⟩
        · omega
        · omega
  rw [hstale]
  constructor
  · rintro (h | h)
    · exact .inr h
    · left
      intro b hb hbt _
      have hle := hinv.last token e he b hb hbt
      omega
  · rintro (h | h)
    · right
      -- The last arrival was opened or not, and is too old either way.
      rw [← hseen]
      cases hopened : a.opened with
      | true => exact hquiet a ha hat hopened
      | false => exact h a ha hat hopened
    · exact .inl h

end

/-! ## Two runs -/

instance {Key W A : Type} (w : Watched Key W A) (token : UInt64) (timeoutMs : Nat) :
    Decidable (w.Quiet token timeoutMs) :=
  inferInstanceAs (Decidable (∀ a ∈ w.arrivals, _))

instance {Key W A : Type} (w : Watched Key W A) (token : UInt64) (timeoutMs : Nat) :
    Decidable (w.Undisturbed token timeoutMs) :=
  inferInstanceAs (Decidable (∀ a ∈ w.arrivals, _))

/-- A host that has just started. -/
def freshHost : ServerHost UInt8 (List UInt32) Unit := .start [] [] 0 [] none none false

/-- The cookie response that opens the first connection. -/
def opening : Bytes :=
  let body : CookieResponseBody :=
    ⟨sampleProvider.makeCookie [] samplePeer.addrBytes, List.Vector.replicate ecPubKeyBytes 3⟩
  makeHandshakeDatagram .cookieResponse body.encode

def hello : Bytes := makeHandshakeDatagram .clientHello (encodeClientHello protocolId)

/-- A connection whose peer is gone is reaped. -/
theorem reaped_after_silence :
    ∃ w e, Reaches (Watched.step sampleProvider sampleUniverse noAccounts) free
        (Watched.start freshHost) w ∧
      w.host.entryForToken (ServerHost.mixToken 1) = some e ∧
      w.host.Reaped sampleProvider sampleUniverse noAccounts (ServerHost.mixToken 1) e.endpoint
        100 := by
  have hrun : ((runLabels (Watched.step sampleProvider sampleUniverse noAccounts)
      (Watched.start freshHost)
      [.datagram (sampleKeyPair 0) samplePeer opening, .setClock 200]).any fun w =>
        (w.host.entryForToken (ServerHost.mixToken 1)).isSome &&
          decide (w.Quiet (ServerHost.mixToken 1) 100 ∧ w.Undisturbed (ServerHost.mixToken 1) 100)) =
      true := by decide +kernel
  rcases exists_of_runLabels _ hrun with ⟨w, hreach, hb⟩
  rw [Bool.and_eq_true, decide_eq_true_eq] at hb
  rcases Option.isSome_iff_exists.mp hb.1 with ⟨e, he⟩
  exact ⟨w, e, hreach, he, (reaped_iff sampleProvider sampleUniverse noAccounts rfl hreach _ e he 100
    (by decide) hb.2.1).mpr (.inl hb.2.2)⟩

/-- A client that starts again says hello to its old connection, which has opened
    nothing for longer than the timeout: pruning keeps that connection, and the hello
    gets no answer. -/
theorem restart_not_reaped :
    ∃ w e, Reaches (Watched.step sampleProvider sampleUniverse noAccounts) free
        (Watched.start freshHost) w ∧
      w.host.entryForToken (ServerHost.mixToken 1) = some e ∧
      w.Quiet (ServerHost.mixToken 1) 100 ∧
      ((w.host.pruneStale sampleUniverse 100).entryForToken (ServerHost.mixToken 1)).isSome = true ∧
      ((w.host.pruneStale sampleUniverse 100).onDatagram sampleProvider sampleUniverse noAccounts
        (sampleKeyPair 0) samplePeer hello).1 = [] := by
  have hrun : ((runLabels (Watched.step sampleProvider sampleUniverse noAccounts)
      (Watched.start freshHost)
      [.datagram (sampleKeyPair 0) samplePeer opening, .setClock 150,
        .datagram (sampleKeyPair 0) samplePeer hello, .setClock 200]).any fun w =>
        (w.host.entryForToken (ServerHost.mixToken 1)).isSome &&
          decide (w.Quiet (ServerHost.mixToken 1) 100 ∧
            ((w.host.pruneStale sampleUniverse 100).entryForToken
              (ServerHost.mixToken 1)).isSome = true ∧
            ((w.host.pruneStale sampleUniverse 100).onDatagram sampleProvider sampleUniverse
              noAccounts (sampleKeyPair 0) samplePeer hello).1 = [])) = true := by decide +kernel
  rcases exists_of_runLabels _ hrun with ⟨w, hreach, hb⟩
  rw [Bool.and_eq_true, decide_eq_true_eq] at hb
  rcases Option.isSome_iff_exists.mp hb.1 with ⟨e, he⟩
  exact ⟨w, e, hreach, he, hb.2⟩

end Net

end EarthRise
