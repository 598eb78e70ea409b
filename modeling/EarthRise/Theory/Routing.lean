import EarthRise.Lib.Bits
import EarthRise.Theory.ConnectionTable
import EarthRise.Theory.HostTrace

/-!
# The Routing Tables of the Host

A connection is in four places: in the entries under its token, in the map from addresses,
in the slots, and with its account if it has one. They are changed in five places of the
host, and two of these drop a connection each in its own way.

What is left when the rest of the host is forgotten is small. `Wiring` is that, and it
changes in three ways: a connection enters, one is dropped, and one signs in. The wiring is
good if the four places agree, and each of the three changes keeps that. The operations of
the host are then one of the three changes, or several, or none.

A connection that enters has a token that no connection had before it, as long as fewer
than `2 ^ 64` are accepted: the counter is mixed into a token by a bijection.

## Main definitions

* `Wire`, `Wiring`: The routing of the host, and nothing else.
* `Wiring.enter`, `Wiring.drop`, `Wiring.signIn`: What happens to it.
* `Wiring.Good`: The tables agree.
* `ServerHost.Consistent`: The same for the host.
* `Tidy`: What keeps the wiring good.

## Theorems

* `mixToken_injective`: Two counters do not give the same token.
* `Good.enter`, `Good.drop`, `Good.signIn`: The changes keep the wiring good.
* `onAuthMessage_tidy`: A login drops the other connection of the account first.
* `consistent_of_good`: The tables of the host agree where its wiring is good.
-/

namespace EarthRise

namespace Net

/-! ## Tokens -/

namespace ServerHost

/-- Two counters do not give the same token. -/
theorem mixToken_injective : Function.Injective mixToken := by
  have hbits : ∀ n : UInt64, (mixToken n).toBitVec =
      Mix.foldHigh 31 (Mix.foldHigh 30 (n.toBitVec * 0x9E3779B97F4A7C15#64 + 0xABCDEF#64) *
        0xBF58476D1CE4E5B9#64) := fun _ => rfl
  intro a b h
  have heq : (mixToken a).toBitVec = (mixToken b).toBitVec := congrArg UInt64.toBitVec h
  rw [hbits, hbits] at heq
  have h₂ := Mix.foldHigh_injective 31 (by decide) heq
  have h₁ := Mix.foldHigh_injective 30 (by decide)
    (Mix.mul_injective_of_inverse 0xBF58476D1CE4E5B9#64 0x96DE1B173F119089#64 (by decide) h₂)
  have h₀ := Mix.mul_injective_of_inverse 0x9E3779B97F4A7C15#64 0xF1DE83E19937733D#64 (by decide)
    ((BitVec.add_left_inj _).mp h₁)
  exact UInt64.toBitVec_inj.mp h₀

end ServerHost

/-! ## The wiring -/

/-- What the routing has of a connection. -/
structure Wire where
  endpoint : Endpoint
  handle : ConnHandle
  authed : Bool
  accountId : Nat

def Wire.signedIn (accountId : Nat) (x : Wire) : Wire :=
  { x with authed := true, accountId := accountId }

/-- The routing of the host. -/
@[ext]
structure Wiring where
  table : ConnectionTable
  wires : List (UInt64 × Wire)
  addrToToken : Endpoint → Option UInt64
  tokenCounter : UInt64
  stub : Bool

namespace Wiring

/-- A connection enters, under the next token. -/
def enter (w : Wiring) (src : Endpoint) : Wiring :=
  let token := ServerHost.mixToken (w.tokenCounter + 1)
  let slot := w.table.openSlot token
  { table := slot.2
    wires := w.wires ++ [(token, ⟨src, slot.1, w.stub, 0⟩)]
    addrToToken := fun a => if a = src then some token else w.addrToToken a
    tokenCounter := w.tokenCounter + 1
    stub := w.stub }

/-- A connection is dropped. -/
def drop (w : Wiring) (token : UInt64) (endpoint : Endpoint) : Wiring :=
  { w with
    table := w.table.close token
    wires := Assoc.erase w.wires token
    addrToToken := fun a => if a = endpoint then none else w.addrToToken a }

/-- A connection signs in to an account. -/
def signIn (w : Wiring) (token : UInt64) (accountId : Nat) : Wiring :=
  { w with wires := Assoc.adjust w.wires token (Wire.signedIn accountId) }

/-- Two connections are not signed in to one account; those of the stub have none. -/
def Apart (w : Wiring) (x y : Wire) : Prop :=
  x.authed = true → y.authed = true → x.accountId = y.accountId → w.stub = true ∧ x.accountId = 0

/-- The tables agree. -/
structure Good (w : Wiring) : Prop where
  sound : w.table.Sound
  tokens : w.table.byToken.map Prod.fst = w.wires.map Prod.fst
  issued : ∀ t ∈ w.wires.map Prod.fst, ∃ k : UInt64, k ≤ w.tokenCounter ∧
    t = ServerHost.mixToken k
  handle : ∀ t x, Assoc.lookup w.wires t = some x → x.handle = w.table.find t
  routed : ∀ a t, w.addrToToken a = some t →
    ∃ x, Assoc.lookup w.wires t = some x ∧ x.endpoint = a
  found : ∀ t x, Assoc.lookup w.wires t = some x → w.addrToToken x.endpoint = some t
  apart : ∀ t t' x y, Assoc.lookup w.wires t = some x → Assoc.lookup w.wires t' = some y →
    t ≠ t' → w.Apart x y

variable {w : Wiring} {t : UInt64}

theorem Good.distinct (hw : w.Good) : (w.wires.map Prod.fst).Nodup := by
  rw [← hw.tokens]
  exact hw.sound.distinct

/-- A connection has a slot. -/
theorem Good.lookup_table (hw : w.Good) {x : Wire}
    (h : Assoc.lookup w.wires t = some x) : ∃ idx, Assoc.lookup w.table.byToken t = some idx := by
  rw [← ConnectionTable.mem_tokens, hw.tokens]
  exact List.mem_map.mpr ⟨_, Assoc.mem_of_lookup h, rfl⟩

/-- The next token is not in use as long as the counter has not come around. -/
theorem Good.fresh (hw : w.Good) (hmore : w.tokenCounter.toNat + 1 < 2 ^ 64) :
    ServerHost.mixToken (w.tokenCounter + 1) ∉ w.wires.map Prod.fst := by
  intro hmem
  rcases hw.issued _ hmem with ⟨k, hk, heq⟩
  have hsame := ServerHost.mixToken_injective heq
  rw [← hsame, UInt64.le_iff_toNat_le, UInt64.toNat_add] at hk
  have hone : (1 : UInt64).toNat = 1 := rfl
  rw [hone, Nat.mod_eq_of_lt hmore] at hk
  omega

theorem lookup_none_of_not_mem {l : List (UInt64 × Wire)}
    (h : t ∉ l.map Prod.fst) : Assoc.lookup l t = none := by
  cases hfound : Assoc.lookup l t with
  | none => rfl
  | some x => exact absurd (List.mem_map.mpr ⟨_, Assoc.mem_of_lookup hfound, rfl⟩) h

/-- A connection enters from an address that no connection has, while there is room. -/
theorem Good.enter (hw : w.Good) (hmore : w.tokenCounter.toNat + 1 < 2 ^ 64)
    (hroom : w.wires.length < 2 ^ 32) {src : Endpoint} (hsrc : w.addrToToken src = none) :
    (w.enter src).Good := by
  have hfresh := hw.fresh hmore
  have hnew : Assoc.lookup w.table.byToken (ServerHost.mixToken (w.tokenCounter + 1)) = none := by
    cases hfound : Assoc.lookup w.table.byToken (ServerHost.mixToken (w.tokenCounter + 1)) with
    | none => rfl
    | some idx =>
        refine absurd ?_ hfresh
        rw [← hw.tokens]
        exact ConnectionTable.mem_tokens.mpr ⟨idx, hfound⟩
  have hslots : w.table.Room := by
    refine hw.sound.room ?_
    have hlength := congrArg List.length hw.tokens
    rw [List.length_map, List.length_map] at hlength
    rwa [hlength]
  have hnone := lookup_none_of_not_mem hfresh
  have hlookup : ∀ t, Assoc.lookup (w.enter src).wires t =
      if t = ServerHost.mixToken (w.tokenCounter + 1) then
        some ⟨src, (w.table.openSlot (ServerHost.mixToken (w.tokenCounter + 1))).1, w.stub, 0⟩
      else Assoc.lookup w.wires t := by
    intro t
    unfold Wiring.enter
    rw [Assoc.lookup_append, Assoc.lookup_cons, Assoc.lookup_nil]
    by_cases ht : t = ServerHost.mixToken (w.tokenCounter + 1)
    · rw [if_pos ht, if_pos ht.symm, ht, hnone, Option.none_or]
    · rw [if_neg ht, if_neg (Ne.symm ht), Option.or_none]
  have hfind := ConnectionTable.find_openSlot hw.sound hslots hnew
  refine ⟨hw.sound.openSlot hslots hnew, ?_, ?_, ?_, ?_, ?_, ?_⟩
  · rcases ConnectionTable.openSlot_spec hw.sound hslots hnew with ⟨idx, g, _, hby, _⟩
    show (w.table.openSlot _).2.byToken.map Prod.fst = (w.wires ++ [_]).map Prod.fst
    rw [hby, List.map_append, List.map_append, hw.tokens]
    rfl
  · intro t ht
    have hcounter : (w.tokenCounter + 1).toNat = w.tokenCounter.toNat + 1 := by
      rw [UInt64.toNat_add]
      exact Nat.mod_eq_of_lt hmore
    unfold Wiring.enter at ht
    rw [List.map_append, List.mem_append] at ht
    rcases ht with hold | hself
    · rcases hw.issued t hold with ⟨k, hk, heq⟩
      refine ⟨k, ?_, heq⟩
      show k ≤ w.tokenCounter + 1
      rw [UInt64.le_iff_toNat_le] at hk ⊢
      omega
    · exact ⟨w.tokenCounter + 1, UInt64.le_refl _, List.mem_singleton.mp hself⟩
  · intro t x hx
    rw [hlookup] at hx
    show x.handle = (w.table.openSlot _).2.find t
    rw [hfind]
    by_cases ht : t = ServerHost.mixToken (w.tokenCounter + 1)
    · rw [if_pos ht, Option.some.injEq] at hx
      rw [if_pos ht, ← hx]
    · rw [if_neg ht] at hx
      rw [if_neg ht]
      exact hw.handle t x hx
  · intro a t ha
    unfold Wiring.enter at ha
    simp only [] at ha
    by_cases hsame : a = src
    · rw [if_pos hsame, Option.some.injEq] at ha
      refine ⟨_, by rw [hlookup, if_pos ha.symm], hsame.symm⟩
    · rw [if_neg hsame] at ha
      rcases hw.routed a t ha with ⟨x, hx, hend⟩
      refine ⟨x, ?_, hend⟩
      rw [hlookup, if_neg fun ht => ?_]
      · exact hx
      · rw [ht, hnone] at hx
        exact absurd hx nofun
  · intro t x hx
    rw [hlookup] at hx
    unfold Wiring.enter
    simp only []
    by_cases ht : t = ServerHost.mixToken (w.tokenCounter + 1)
    · rw [if_pos ht, Option.some.injEq] at hx
      rw [← hx, if_pos rfl, ht]
    · rw [if_neg ht] at hx
      have hold := hw.found t x hx
      rw [if_neg fun hsame => ?_]
      · exact hold
      · rw [hsame, hsrc] at hold
        exact absurd hold nofun
  · intro t t' x y hx hy hne
    rw [hlookup] at hx hy
    -- A connection that enters has no account; with the stub off it is not signed in.
    by_cases ht : t = ServerHost.mixToken (w.tokenCounter + 1)
    · rw [if_pos ht, Option.some.injEq] at hx
      rw [← hx]
      exact fun hauthed _ _ => ⟨hauthed, rfl⟩
    · rw [if_neg ht] at hx
      by_cases ht' : t' = ServerHost.mixToken (w.tokenCounter + 1)
      · rw [if_pos ht', Option.some.injEq] at hy
        rw [← hy]
        exact fun _ hauthed hsame => ⟨hauthed, hsame⟩
      · rw [if_neg ht'] at hy
        exact hw.apart t t' x y hx hy hne

/-- A connection is dropped with the address it has. -/
theorem Good.drop (hw : w.Good) {x : Wire} (hx : Assoc.lookup w.wires t = some x) :
    (w.drop t x.endpoint).Good := by
  have hlookup : ∀ t', Assoc.lookup (w.drop t x.endpoint).wires t' =
      if t' = t then none else Assoc.lookup w.wires t' := Assoc.lookup_erase w.wires t
  have hkeep : ∀ {t' y}, Assoc.lookup (w.drop t x.endpoint).wires t' = some y →
      t' ≠ t ∧ Assoc.lookup w.wires t' = some y := by
    intro t' y hy
    rw [hlookup] at hy
    by_cases ht : t' = t
    · rw [if_pos ht] at hy
      exact absurd hy nofun
    · rw [if_neg ht] at hy
      exact ⟨ht, hy⟩
  refine ⟨hw.sound.close t, ?_, ?_, ?_, ?_, ?_, ?_⟩
  · have herase : ∀ {ν : Type} (l : List (UInt64 × ν)), (Assoc.erase l t).map Prod.fst =
        (l.map Prod.fst).filter fun t' => t' ≠ t := by
      intro ν l
      rw [List.filter_map]
      rfl
    show (w.table.close t).byToken.map Prod.fst = (Assoc.erase w.wires t).map Prod.fst
    rw [ConnectionTable.close_byToken, herase, herase, hw.tokens]
  · intro t' ht'
    exact hw.issued t' ((List.filter_sublist.map _).subset ht')
  · intro t' y hy
    rcases hkeep hy with ⟨ht, hold⟩
    show y.handle = (w.table.close t).find t'
    rw [ConnectionTable.find_close hw.sound ht]
    exact hw.handle t' y hold
  · intro a t' ha
    unfold Wiring.drop at ha
    simp only [] at ha
    by_cases hsame : a = x.endpoint
    · rw [if_pos hsame] at ha
      exact absurd ha nofun
    · rw [if_neg hsame] at ha
      rcases hw.routed a t' ha with ⟨y, hy, hend⟩
      refine ⟨y, ?_, hend⟩
      rw [hlookup, if_neg fun ht => ?_]
      · exact hy
      · rw [ht, hx, Option.some.injEq] at hy
        exact hsame (by rw [hy, hend])
  · intro t' y hy
    rcases hkeep hy with ⟨ht, hold⟩
    have haddr := hw.found t' y hold
    unfold Wiring.drop
    simp only []
    rw [if_neg fun hsame => ?_]
    · exact haddr
    · rw [hsame, hw.found t x hx, Option.some.injEq] at haddr
      exact ht haddr.symm
  · intro t₁ t₂ y z hy hz hne
    exact hw.apart t₁ t₂ y z (hkeep hy).2 (hkeep hz).2 hne

/-- A connection signs in to an account that no other is signed in to. -/
theorem Good.signIn (hw : w.Good) {accountId : Nat}
    (halone : ∀ t', t' ≠ t → ∀ y, Assoc.lookup w.wires t' = some y →
      ¬ (y.authed = true ∧ y.accountId = accountId)) : (w.signIn t accountId).Good := by
  have hlookup : ∀ t', Assoc.lookup (w.signIn t accountId).wires t' =
      if t' = t then (Assoc.lookup w.wires t').map (Wire.signedIn accountId)
      else Assoc.lookup w.wires t' := Assoc.lookup_adjust w.wires t (Wire.signedIn accountId)
  have hwas : ∀ {t' y}, Assoc.lookup (w.signIn t accountId).wires t' = some y →
      ∃ x, Assoc.lookup w.wires t' = some x ∧ y.endpoint = x.endpoint ∧ y.handle = x.handle ∧
        (t' ≠ t → y = x) ∧ (t' = t → y.accountId = accountId) := by
    intro t' y hy
    rw [hlookup] at hy
    by_cases ht : t' = t
    · rw [if_pos ht, Option.map_eq_some_iff] at hy
      rcases hy with ⟨x, hx, rfl⟩
      exact ⟨x, hx, rfl, rfl, fun hne => absurd ht hne, fun _ => rfl⟩
    · rw [if_neg ht] at hy
      exact ⟨y, hy, rfl, rfl, fun _ => rfl, fun hself => absurd hself ht⟩
  have htokens : (w.signIn t accountId).wires.map Prod.fst = w.wires.map Prod.fst := by
    show (Assoc.adjust w.wires t (Wire.signedIn accountId)).map Prod.fst = _
    unfold Assoc.adjust
    rw [List.map_map]
    refine List.map_congr_left fun e _ => ?_
    by_cases he : e.1 = t
    · simp only [Function.comp_apply, if_pos he]
    · simp only [Function.comp_apply, if_neg he]
  refine ⟨hw.sound, ?_, ?_, ?_, ?_, ?_, ?_⟩
  · rw [htokens]
    exact hw.tokens
  · rw [htokens]
    exact hw.issued
  · intro t' y hy
    rcases hwas hy with ⟨x, hx, _, hhandle, _⟩
    rw [hhandle]
    exact hw.handle t' x hx
  · intro a t' ha
    rcases hw.routed a t' ha with ⟨x, hx, hend⟩
    rw [hlookup, hx]
    by_cases ht : t' = t
    · rw [if_pos ht]
      exact ⟨_, rfl, hend⟩
    · rw [if_neg ht]
      exact ⟨x, rfl, hend⟩
  · intro t' y hy
    rcases hwas hy with ⟨x, hx, hend, _⟩
    rw [hend]
    exact hw.found t' x hx
  · intro t₁ t₂ y z hy hz hne hauthed hauthed' hsame
    rcases hwas hy with ⟨x₁, hx₁, _, _, hother₁, hself₁⟩
    rcases hwas hz with ⟨x₂, hx₂, _, _, hother₂, hself₂⟩
    by_cases ht₁ : t₁ = t
    · have ht₂ : t₂ ≠ t := fun h => hne (ht₁.trans h.symm)
      rw [hother₂ ht₂] at hauthed' hsame
      rw [hself₁ ht₁] at hsame
      exact absurd ⟨hauthed', hsame.symm⟩ (halone t₂ ht₂ x₂ hx₂)
    · rw [hother₁ ht₁] at hauthed hsame ⊢
      by_cases ht₂ : t₂ = t
      · rw [hself₂ ht₂] at hsame
        exact absurd ⟨hauthed, hsame⟩ (halone t₁ ht₁ x₁ hx₁)
      · rw [hother₂ ht₂] at hauthed' hsame
        exact hw.apart t₁ t₂ x₁ x₂ hx₁ hx₂ hne hauthed hauthed' hsame

end Wiring

/-! ## The wiring of the host -/

def ConnEntry.wire {Key : Type} (e : ConnEntry Key) : Wire :=
  ⟨e.endpoint, e.handle, e.authed, e.accountId⟩

namespace ServerHost

variable {Key W Snap A : Type} {h : ServerHost Key W A}

def wiring (h : ServerHost Key W A) : Wiring :=
  { table := h.table
    wires := h.conns.map fun e => (e.1, e.2.wire)
    addrToToken := h.addrToToken
    tokenCounter := h.tokenCounter
    stub := h.devAuthStub }

theorem lookup_wires (h : ServerHost Key W A) (t : UInt64) :
    Assoc.lookup h.wiring.wires t = (h.entryForToken t).map ConnEntry.wire :=
  Assoc.lookup_mapValues h.conns ConnEntry.wire t

theorem wiring_tokens (h : ServerHost Key W A) :
    h.wiring.wires.map Prod.fst = h.conns.map Prod.fst := by
  unfold wiring
  rw [List.map_map]
  rfl

theorem modify_wiring (h : ServerHost Key W A) (t : UInt64) {f : ConnEntry Key → ConnEntry Key}
    (hf : ∀ e, (f e).wire = e.wire) : (h.modify t f).wiring = h.wiring := by
  have hwires : (h.modify t f).wiring.wires = h.wiring.wires := by
    unfold modify wiring
    rw [List.map_map]
    refine List.map_congr_left fun e _ => ?_
    by_cases he : e.1 = t
    · simp only [Function.comp_apply, if_pos he, hf]
    · simp only [Function.comp_apply, if_neg he]
  exact Wiring.ext rfl hwires rfl rfl rfl

theorem setConn_wiring (h : ServerHost Key W A) (t : UInt64) (conn : ServerConnection Key) :
    (h.setConn t conn).wiring = h.wiring :=
  modify_wiring h t fun _ => rfl

theorem modify_signIn (h : ServerHost Key W A) (t : UInt64) {f : ConnEntry Key → ConnEntry Key}
    (accountId : Nat) (hf : ∀ e, (f e).wire = e.wire.signedIn accountId) :
    (h.modify t f).wiring = h.wiring.signIn t accountId := by
  have hwires : (h.modify t f).wiring.wires = (h.wiring.signIn t accountId).wires := by
    unfold modify wiring Wiring.signIn Assoc.adjust
    rw [List.map_map, List.map_map]
    refine List.map_congr_left fun e _ => ?_
    by_cases he : e.1 = t
    · simp only [Function.comp_apply, if_pos he, hf]
    · simp only [Function.comp_apply, if_neg he]
  exact Wiring.ext rfl hwires rfl rfl rfl

theorem dropEntry_wiring (h : ServerHost Key W A) (t : UInt64) (a : Endpoint) :
    (h.dropEntry t a).wiring = h.wiring.drop t a := by
  have hwires : (h.dropEntry t a).wiring.wires = (h.wiring.drop t a).wires := by
    unfold dropEntry wiring Wiring.drop Assoc.erase
    rw [List.filter_map]
    rfl
  exact Wiring.ext rfl hwires rfl rfl rfl

/-- What keeps the wiring good, and accepts nothing. -/
def Tidy (h h' : ServerHost Key W A) : Prop :=
  h.wiring.Good → h'.wiring.Good ∧ h'.tokenCounter = h.tokenCounter

theorem Tidy.of_eq {h h' : ServerHost Key W A} (heq : h'.wiring = h.wiring) : Tidy h h' := by
  intro hw
  rw [heq]
  exact ⟨hw, congrArg Wiring.tokenCounter heq⟩

theorem Tidy.refl (h : ServerHost Key W A) : Tidy h h := .of_eq rfl

theorem Tidy.trans {h₁ h₂ h₃ : ServerHost Key W A} (h12 : Tidy h₁ h₂) (h23 : Tidy h₂ h₃) :
    Tidy h₁ h₃ := by
  intro hw
  rcases h12 hw with ⟨hw₂, hcounter₂⟩
  rcases h23 hw₂ with ⟨hw₃, hcounter₃⟩
  exact ⟨hw₃, hcounter₃.trans hcounter₂⟩

theorem dropEntry_tidy {t : UInt64} {e : ConnEntry Key}
    (he : h.entryForToken t = some e) : Tidy h (h.dropEntry t e.endpoint) := by
  intro hw
  have hwire : Assoc.lookup h.wiring.wires t = some e.wire := by
    rw [lookup_wires, he]
    rfl
  rw [dropEntry_wiring]
  exact ⟨hw.drop hwire, rfl⟩

theorem removeConnection_wiring (U : GameUniverse W Snap) {t : UInt64}
    {e : ConnEntry Key} (he : h.entryForToken t = some e) :
    (h.removeConnection U t).wiring = h.wiring.drop t e.endpoint := by
  unfold removeConnection
  rw [he]
  exact dropEntry_wiring { h with world := U.despawnBase e.playerNetId h.world } t e.endpoint

theorem removeConnection_tidy (U : GameUniverse W Snap) (h : ServerHost Key W A) (t : UInt64) :
    Tidy h (h.removeConnection U t) := by
  cases he : h.entryForToken t with
  | none =>
      unfold removeConnection
      rw [he]
      exact Tidy.refl h
  | some e =>
      refine Tidy.trans (dropEntry_tidy he) (.of_eq ?_)
      rw [removeConnection_wiring U he, dropEntry_wiring]

theorem pruneStale_tidy (U : GameUniverse W Snap) (h : ServerHost Key W A) (timeoutMs : Nat) :
    Tidy h (h.pruneStale U timeoutMs) := by
  have hall : ∀ (ts : List UInt64) (h : ServerHost Key W A),
      Tidy h (ts.foldl (fun h t => h.removeConnection U t) h) := by
    intro ts
    induction ts with
    | nil => exact fun h => Tidy.refl h
    | cons t ts ih => exact fun h => (removeConnection_tidy U h t).trans (ih _)
  exact hall _ h

/-- A kick drops each connection of the account with the address it has. -/
theorem kick_tidy (hdistinct : (h.conns.map Prod.fst).Nodup)
    (accountId : Nat) (keepToken : UInt64) :
    Tidy h (h.kickExistingSessionForAccount accountId keepToken) := by
  have hall : ∀ (es : List (UInt64 × ConnEntry Key)) (h : ServerHost Key W A),
      (h.conns.map Prod.fst).Nodup → (es.map Prod.fst).Nodup → (∀ e ∈ es, e ∈ h.conns) →
      Tidy h (es.foldl (fun h e => h.dropEntry e.1 e.2.endpoint) h) := by
    intro es
    induction es with
    | nil => exact fun h _ _ _ => Tidy.refl h
    | cons e es ih =>
        intro h hdistinct hes hmem
        rw [List.map_cons, List.nodup_cons] at hes
        have he : h.entryForToken e.1 = some e.2 :=
          Assoc.lookup_of_mem hdistinct (hmem e List.mem_cons_self)
        refine (dropEntry_tidy he).trans (ih _ ?_ hes.2 fun e' he' => ?_)
        · exact (dropEntry_kept h e.1 e.2.endpoint).tokens.nodup hdistinct
        · refine List.mem_filter.mpr ⟨hmem e' (List.mem_cons_of_mem e he'), ?_⟩
          rw [decide_eq_true_eq]
          exact fun hsame => hes.1 (List.mem_map.mpr ⟨e', he', hsame⟩)
  refine hall _ h hdistinct ((List.filter_sublist.map _).nodup hdistinct) fun e he => ?_
  exact (List.mem_filter.mp he).1

section

variable (C : CryptoProvider Key) (U : GameUniverse W Snap) (S : AccountService A)

theorem bindAccountBase_wiring (h : ServerHost Key W A) (session : SessionInfo) :
    (h.bindAccountBase U S session).2.wiring = h.wiring := by
  unfold bindAccountBase
  simp only []
  split
  · rfl
  · rfl

theorem sendAuthResult_wiring (h : ServerHost Key W A) (t : UInt64) (peer : Endpoint)
    (res : AuthResult) : (h.sendAuthResult C t peer res).2.wiring = h.wiring := by
  unfold sendAuthResult
  split
  · rfl
  · simp only []
    split
    · rfl
    · exact setConn_wiring h t _

/-- A login drops the other connections of the account before it signs in. -/
theorem onAuthMessage_tidy (h : ServerHost Key W A) (token : UInt64) (peer : Endpoint)
    (body : Bytes) : Tidy h (h.onAuthMessage C U S token peer body).2 := by
  have hsend : ∀ (h : ServerHost Key W A) (res : AuthResult),
      Tidy h (h.sendAuthResult C token peer res).2 :=
    fun h res => .of_eq (sendAuthResult_wiring C h token peer res)
  unfold onAuthMessage
  cases h.entryForToken token with
  | none => exact Tidy.refl h
  | some e =>
      cases decodeAuthRequest body with
      | none => exact hsend h _
      | some cred =>
          cases h.accounts with
          | none => exact hsend h _
          | some accounts =>
              simp only []
              have haccounts : ∀ a, Tidy h { h with accounts := a } := fun a => .of_eq rfl
              generalize h.authenticate S accounts e.endpoint (body.headD 0) cred.1 cred.2 = r
              split
              · exact (haccounts _).trans (hsend _ _)
              · refine ((haccounts (some r.2)).trans fun hw => ?_).trans (hsend _ _)
                have hdistinct := hw.distinct
                rw [wiring_tokens] at hdistinct
                rcases kick_tidy hdistinct r.1.2.accountId token hw with ⟨hkicked, hcounter⟩
                refine ⟨?_, ?_⟩
                · rw [modify_signIn _ _ r.1.2.accountId fun _ => rfl,
                    bindAccountBase_wiring]
                  refine hkicked.signIn fun t ht y hy hauth => ?_
                  rw [lookup_wires, Option.map_eq_some_iff] at hy
                  rcases hy with ⟨e', he', rfl⟩
                  exact (kick_entry _ _ token t e' he').2 ⟨ht, hauth⟩
                · have hbind := congrArg Wiring.tokenCounter (bindAccountBase_wiring U S
                    (ServerHost.kickExistingSessionForAccount { h with accounts := some r.2 }
                      r.1.2.accountId token) r.1.2)
                  exact hbind.trans hcounter

theorem applyMessages_tidy (token : UInt64) (peer : Endpoint) (ms : List DecodedMessage)
    (h : ServerHost Key W A) : Tidy h (applyMessages C U S token peer h ms).2 := by
  have hone : ∀ (h : ServerHost Key W A) (m : DecodedMessage),
      Tidy h (h.applyMessage C U S token peer m).2 := by
    intro h m
    unfold applyMessage
    split
    · split
      · exact Tidy.refl h
      · split
        · exact onAuthMessage_tidy C U S h token peer _
        · exact Tidy.refl h
    · split
      · exact Tidy.refl h
      · split
        · exact .of_eq rfl
        · exact Tidy.refl h
    · exact Tidy.refl h
  induction ms generalizing h with
  | nil => exact Tidy.refl h
  | cons m ms ih => exact (hone h m).trans (ih _)

theorem routeTo_tidy (h : ServerHost Key W A) (t : UInt64) (peer : Endpoint) (dg : Bytes) :
    Tidy h (h.routeTo C U S t peer dg).2 := by
  have hone : ∀ h : ServerHost Key W A, Tidy h (dispatchToConnection C U S h t peer dg).2 := by
    intro h
    unfold dispatchToConnection
    split
    · exact Tidy.refl h
    · rename_i e _
      split
      · exact Tidy.refl h
      · have hset : Tidy h (h.setConn t (e.conn.onDatagram C dg).2) :=
          .of_eq (setConn_wiring h t _)
        exact hset.trans (applyMessages_tidy C U S t peer _ _)
  have hstamp : Tidy h (h.modify t fun e => { e with lastSeenMs := h.nowMs }) :=
    .of_eq (modify_wiring h t fun _ => rfl)
  have hdispatch := hstamp.trans (hone _)
  unfold routeTo
  simp only []
  split
  · exact hdispatch
  · split
    · exact hdispatch.trans (removeConnection_tidy U _ t)
    · exact hdispatch

theorem broadcastSnapshots_tidy (h : ServerHost Key W A) :
    Tidy h (h.broadcastSnapshots C U).2 := by
  have hone : ∀ (h : ServerHost Key W A) (id : UInt32) (snap : Snap),
      Tidy h (h.sendSnapshot C U id snap).2 := by
    intro h id snap
    unfold sendSnapshot
    split
    · exact Tidy.refl h
    · split
      · exact Tidy.refl h
      · simp only []
        split
        · exact .of_eq rfl
        · exact Tidy.trans (.of_eq (setConn_wiring h _ _)) (.of_eq rfl)
  have hall : ∀ (ss : List (UInt32 × Snap)) (h : ServerHost Key W A),
      Tidy h (sendSnapshots C U h ss).2 := by
    intro ss
    induction ss with
    | nil => exact fun h => Tidy.refl h
    | cons s ss ih => exact fun h => (hone h s.1 s.2).trans (ih _)
  have hbuilt : Tidy h { h with world := (encodeClients U h.world h.connectedClientIds).2 } :=
    .of_eq rfl
  exact hbuilt.trans (hall _ _)

theorem setDilationFactor_tidy (h : ServerHost Key W A) (f : ℚ) :
    Tidy h (h.setDilationFactor f) := by
  refine .of_eq ?_
  unfold setDilationFactor wiring
  rw [List.map_map]
  rfl

/-- Accepting is to enter, where no connection has the token yet. -/
theorem accept_wiring (fresh : EcdhKeyPair) {h : ServerHost Key W A} (src : Endpoint)
    (body : Bytes) (hnew : h.entryForToken (mixToken (h.tokenCounter + 1)) = none) :
    (h.accept C U fresh src body).2.wiring = h.wiring.enter src := by
  have hconns : ∃ x : ConnEntry Key, x.wire =
      ⟨src, (h.table.openSlot (mixToken (h.tokenCounter + 1))).1, h.devAuthStub, 0⟩ ∧
      (h.accept C U fresh src body).2.conns =
        h.conns ++ [(mixToken (h.tokenCounter + 1), x)] := by
    have hnot : ¬ (h.entryForToken (mixToken (h.tokenCounter + 1))).isSome = true := by
      rw [hnew]
      exact Bool.false_ne_true
    unfold accept
    cases h.devAuthStub with
    | true => exact ⟨_, rfl, if_neg hnot⟩
    | false => exact ⟨_, rfl, if_neg hnot⟩
  rcases hconns with ⟨x, hx, hconns⟩
  have hwires : (h.accept C U fresh src body).2.wiring.wires = (h.wiring.enter src).wires := by
    unfold wiring Wiring.enter
    simp only [hconns, List.map_append, List.map_cons, List.map_nil, hx]
  refine Wiring.ext ?_ hwires ?_ ?_ ?_
  all_goals
    unfold accept wiring
    cases h.devAuthStub <;> rfl

/-- The tables of the host agree. Two connections are not logged in to one account; with
    the stub on there are connections that are authenticated and have no account. -/
structure Consistent (h : ServerHost Key W A) : Prop where
  active : h.table.activeTokens.Perm (h.conns.map Prod.fst)
  distinct : (h.conns.map Prod.fst).Nodup
  handles : ∀ t e, h.entryForToken t = some e → h.table.validate e.handle = true
  routed : ∀ a t, h.addrToToken a = some t →
    ∃ e, h.entryForToken t = some e ∧ e.endpoint = a
  found : ∀ t e, h.entryForToken t = some e → h.addrToToken e.endpoint = some t
  accounts : ∀ t t' e e', h.entryForToken t = some e → h.entryForToken t' = some e' → t ≠ t' →
    e.authed = true → e'.authed = true → e.accountId = e'.accountId →
    h.devAuthStub = true ∧ e.accountId = 0

theorem consistent_of_good {h : ServerHost Key W A} (hw : h.wiring.Good) : h.Consistent := by
  have hwire : ∀ {t e}, h.entryForToken t = some e →
      Assoc.lookup h.wiring.wires t = some e.wire := by
    intro t e he
    rw [lookup_wires, he]
    rfl
  refine ⟨?_, ?_, fun t e he => ?_, fun a t ha => ?_, fun t e he => hw.found t e.wire (hwire he),
    fun t t' e e' he he' hne => hw.apart t t' e.wire e'.wire (hwire he) (hwire he') hne⟩
  · have h := hw.sound.activeTokens
    rwa [hw.tokens, wiring_tokens] at h
  · rw [← wiring_tokens]
    exact hw.distinct
  · rcases hw.lookup_table (hwire he) with ⟨idx, hidx⟩
    have hhandle : e.handle = h.table.find t := hw.handle t e.wire (hwire he)
    rw [hhandle]
    exact hw.sound.validate_find hidx
  · rcases hw.routed a t ha with ⟨x, hx, hend⟩
    rw [lookup_wires, Option.map_eq_some_iff] at hx
    rcases hx with ⟨e, he, rfl⟩
    exact ⟨e, he, hend⟩

end

end ServerHost

end Net

end EarthRise
