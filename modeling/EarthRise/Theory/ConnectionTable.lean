import EarthRise.Core.ConnectionTable
import Mathlib.Algebra.Group.Nat.Defs
import Mathlib.Data.List.Nodup
import Mathlib.Data.List.Perm.Subperm

/-!
# The Connection Table Is Sound

A table where every token has a slot of its own that says so, and the slots that are in no
use are the free ones. Opening and closing keep it so, as long as the number of a new slot
fits into the 32 bits that a handle has for it. A sound table has at most `2 ^ 32` slots,
and one that has fewer tokens than that has room.

The handle of a token does not change while the token has its slot, and it is good.

## Main definitions

* `ConnectionTable.Sound`: The invariant.
* `ConnectionTable.Room`: A slot can be opened.

## Theorems

* `Sound.openSlot`, `Sound.close`: The operations keep it.
* `find_openSlot`, `find_close`: The handles of the others stay.
* `Sound.validate_find`: The handle of a token is good.
* `Sound.activeTokens`: The slots in use have the tokens of the table.
* `Sound.room`: There is room for a token if there are fewer than `2 ^ 32`.
-/

namespace EarthRise

namespace Net

namespace ConnectionTable

structure Sound (t : ConnectionTable) : Prop where
  distinct : (t.byToken.map Prod.fst).Nodup
  /-- The slot of a token says so. -/
  holds : ∀ token idx, Assoc.lookup t.byToken token = some idx →
    ∃ g, t.slots[idx.toNat]? = some ⟨token, g, true⟩
  /-- A slot that says so is the slot of the token. -/
  known : ∀ (i : Nat) (s : Slot), t.slots[i]? = some s → s.active = true →
    ∃ idx : UInt32, idx.toNat = i ∧ Assoc.lookup t.byToken s.token = some idx
  free : ∀ idx ∈ t.free, ∃ s, t.slots[idx.toNat]? = some s ∧ s.active = false
  freed : ∀ (i : Nat) (s : Slot), t.slots[i]? = some s → s.active = false →
    ∃ idx ∈ t.free, idx.toNat = i
  freeDistinct : t.free.Nodup

/-- There is a free slot, or the number of a new one fits. -/
def Room (t : ConnectionTable) : Prop := t.free ≠ [] ∨ t.slots.length < 2 ^ 32

theorem sound_empty : Sound empty where
  distinct := List.nodup_nil
  holds := fun token idx h => absurd h (by
    simp only [empty, Assoc.lookup_nil, reduceCtorEq, not_false_eq_true])
  known := fun i s h => absurd h (by
    simp only [empty, List.getElem?_nil, reduceCtorEq, not_false_eq_true])
  free := fun idx h => absurd h List.not_mem_nil
  freed := fun i s h => absurd h (by
    simp only [empty, List.getElem?_nil, reduceCtorEq, not_false_eq_true])
  freeDistinct := List.nodup_nil

variable {t : ConnectionTable} {token : UInt64} {idx : UInt32}

/-! ## Looking up -/

/-- The handle of a token is good. -/
theorem Sound.validate_find (ht : t.Sound)
    (h : Assoc.lookup t.byToken token = some idx) : t.validate (t.find token) = true := by
  rcases ht.holds token idx h with ⟨g, hslot⟩
  unfold find validate
  rw [h]
  simp only [handleFor, hslot, Option.elim_some, Option.any_some, Bool.true_and, decide_true]

/-- Two tokens do not share a slot. -/
theorem Sound.index_inj (ht : t.Sound) {token token' : UInt64}
    (h : Assoc.lookup t.byToken token = some idx)
    (h' : Assoc.lookup t.byToken token' = some idx) : token = token' := by
  rcases ht.holds token idx h with ⟨g, hslot⟩
  rcases ht.holds token' idx h' with ⟨g', hslot'⟩
  rw [hslot, Option.some.injEq, Slot.mk.injEq] at hslot'
  exact hslot'.1

theorem mem_tokens :
    token ∈ t.byToken.map Prod.fst ↔ ∃ idx, Assoc.lookup t.byToken token = some idx := by
  constructor
  · intro hmem
    cases hfound : Assoc.lookup t.byToken token with
    | some idx => exact ⟨idx, rfl⟩
    | none =>
        rcases List.mem_map.mp hmem with ⟨e, he, rfl⟩
        unfold Assoc.lookup at hfound
        rw [Option.map_eq_none_iff, List.find?_eq_none] at hfound
        exact absurd (decide_eq_true rfl) (hfound e he)
  · rintro ⟨idx, h⟩
    exact List.mem_map.mpr ⟨_, Assoc.mem_of_lookup h, rfl⟩

theorem Sound.mem_activeTokens (ht : t.Sound) :
    token ∈ t.activeTokens ↔ token ∈ t.byToken.map Prod.fst := by
  unfold activeTokens
  rw [mem_tokens]
  constructor
  · intro hmem
    rcases List.mem_map.mp hmem with ⟨s, hs, rfl⟩
    rw [List.mem_filter] at hs
    rcases List.mem_iff_getElem?.mp hs.1 with ⟨i, hi⟩
    rcases ht.known i s hi hs.2 with ⟨idx, _, h⟩
    exact ⟨idx, h⟩
  · rintro ⟨idx, h⟩
    rcases ht.holds token idx h with ⟨g, hslot⟩
    exact List.mem_map.mpr ⟨_, List.mem_filter.mpr ⟨List.mem_of_getElem? hslot, rfl⟩, rfl⟩

/-- The slots in use have the tokens of the table, each once. -/
theorem Sound.activeTokens (ht : t.Sound) : t.activeTokens.Perm (t.byToken.map Prod.fst) := by
  refine (List.perm_ext_iff_of_nodup ?_ ht.distinct).mpr fun token => ht.mem_activeTokens
  unfold ConnectionTable.activeTokens
  have hslots : t.slots.Pairwise fun a b => a.active = true → b.active = true →
      a.token ≠ b.token := by
    rw [List.pairwise_iff_getElem]
    intro i j hi hj hij ha hb hsame
    rcases ht.known i _ (List.getElem?_eq_getElem hi) ha with ⟨idx, hidx, h⟩
    rcases ht.known j _ (List.getElem?_eq_getElem hj) hb with ⟨idx', hidx', h'⟩
    rw [hsame, h', Option.some.injEq] at h
    rw [h] at hidx'
    omega
  have hactive : (t.slots.filter Slot.active).Pairwise fun a b => a.token ≠ b.token := by
    refine List.Pairwise.imp_of_mem ?_ (hslots.filter Slot.active)
    intro a b ha hb h
    exact h (List.mem_filter.mp ha).2 (List.mem_filter.mp hb).2
  exact List.pairwise_map.mpr hactive

/-- If no slot is free there are as many slots as tokens. -/
theorem Sound.length_le (ht : t.Sound) (hfree : t.free = []) :
    t.slots.length ≤ t.byToken.length := by
  have hsub : List.range t.slots.length ⊆ t.byToken.map fun e => e.2.toNat := by
    intro i hi
    rw [List.mem_range] at hi
    have hactive : t.slots[i].active = true := by
      cases hs : t.slots[i].active with
      | true => rfl
      | false =>
          rcases ht.freed i _ (List.getElem?_eq_getElem hi) hs with ⟨idx, hidx, _⟩
          rw [hfree] at hidx
          exact absurd hidx List.not_mem_nil
    rcases ht.known i _ (List.getElem?_eq_getElem hi) hactive with ⟨idx, hidx, h⟩
    exact List.mem_map.mpr ⟨_, Assoc.mem_of_lookup h, hidx⟩
  have hle := (List.nodup_range.subperm hsub).length_le
  rwa [List.length_range, List.length_map] at hle

/-- A table with fewer than `2 ^ 32` tokens has room. -/
theorem Sound.room (ht : t.Sound) (hfew : t.byToken.length < 2 ^ 32) : t.Room := by
  by_cases hfree : t.free = []
  · exact .inr (Nat.lt_of_le_of_lt (ht.length_le hfree) hfew)
  · exact .inl hfree

/-! ## Opening -/

theorem getElem?_modify_slot (slots : List Slot) (n i : Nat) (f : Slot → Slot) :
    (slots.modify n f)[i]? = if i = n then (slots[n]?).map f else slots[i]? := by
  by_cases hi : i = n
  · rw [if_pos hi, hi, List.getElem?_modify_eq]
    rfl
  · rw [if_neg hi, List.getElem?_modify_ne _ _ (Ne.symm hi)]

/-- What opening a slot for a new token does: the slot was not in use, it has the token
    now, and nothing else changes. -/
theorem openSlot_spec (ht : t.Sound) (hroom : t.Room)
    (hnew : Assoc.lookup t.byToken token = none) :
    ∃ idx g, (t.openSlot token).1 = ⟨idx, g, true⟩ ∧
      (t.openSlot token).2.byToken = t.byToken ++ [(token, idx)] ∧
      (∀ i, (t.openSlot token).2.slots[i]? =
        if i = idx.toNat then some ⟨token, g, true⟩ else t.slots[i]?) ∧
      (∀ s, t.slots[idx.toNat]? = some s → s.active = false) ∧
      (t.free = idx :: (t.openSlot token).2.free ∨
        t.free = [] ∧ (t.openSlot token).2.free = [] ∧ idx.toNat = t.slots.length) := by
  unfold openSlot
  rw [hnew]
  cases hfree : t.free with
  | cons idx rest =>
      rcases ht.free idx (by rw [hfree]; exact List.mem_cons_self) with ⟨s, hs, hinactive⟩
      refine ⟨idx, s.generation, ?_, rfl, fun i => ?_, fun s' hs' => ?_, .inl rfl⟩
      · simp only [handleFor, getElem?_modify_slot, if_true, hs, Option.map_some,
          Option.elim_some]
      · simp only [getElem?_modify_slot, hs, Option.map_some]
      · rw [hs, Option.some.injEq] at hs'
        rw [← hs']
        exact hinactive
  | nil =>
      have hlen : t.slots.length < 2 ^ 32 := hroom.resolve_left (fun h => h hfree)
      have hidx : (UInt32.ofNat t.slots.length).toNat = t.slots.length :=
        UInt32.toNat_ofNat_of_lt' hlen
      have hlast : (t.slots ++ [Slot.empty])[t.slots.length]? = some Slot.empty := by
        rw [List.getElem?_append_right (Nat.le_refl _), Nat.sub_self]
        rfl
      refine ⟨UInt32.ofNat t.slots.length, 0, ?_, rfl, fun i => ?_, fun s' hs' => ?_,
        .inr ⟨rfl, rfl, hidx⟩⟩
      · simp only [handleFor, getElem?_modify_slot, if_true, hidx, hlast, Option.map_some,
          Option.elim_some]
        rfl
      · simp only [hidx, getElem?_modify_slot, hlast, Option.map_some]
        by_cases hi : i = t.slots.length
        · rw [if_pos hi, if_pos hi]
          rfl
        · rw [if_neg hi, if_neg hi]
          by_cases hlt : i < t.slots.length
          · rw [List.getElem?_append_left hlt]
          · have hover : (t.slots ++ [Slot.empty]).length ≤ i := by
              rw [List.length_append, List.length_singleton]
              omega
            rw [List.getElem?_eq_none hover, List.getElem?_eq_none (by omega)]
      · rw [hidx, List.getElem?_eq_none (Nat.le_refl _)] at hs'
        exact absurd hs' nofun

/-- Without a free slot one is made, and its number is cut to 32 bits. -/
theorem openSlot_grow (hfree : t.free = [])
    (hnew : Assoc.lookup t.byToken token = none) :
    (t.openSlot token).2 =
      { slots := (t.slots ++ [Slot.empty]).modify (UInt32.ofNat t.slots.length).toNat fun s =>
          { s with token := token, active := true }
        free := []
        byToken := t.byToken ++ [(token, UInt32.ofNat t.slots.length)] } ∧
      (t.openSlot token).1 =
        (t.openSlot token).2.handleFor (UInt32.ofNat t.slots.length) := by
  unfold openSlot
  rw [hnew, hfree]
  exact ⟨rfl, rfl⟩

/-- The slot of a token that is in the table is not the one that is opened. -/
theorem Sound.index_ne (ht : t.Sound)
    (hinactive : ∀ s, t.slots[idx.toNat]? = some s → s.active = false) {token' : UInt64}
    {idx' : UInt32} (h : Assoc.lookup t.byToken token' = some idx') : idx'.toNat ≠ idx.toNat := by
  intro heq
  rcases ht.holds token' idx' h with ⟨g, hslot⟩
  rw [heq] at hslot
  exact absurd (hinactive _ hslot) nofun

theorem Sound.openSlot (ht : t.Sound) (hroom : t.Room)
    (hnew : Assoc.lookup t.byToken token = none) : (t.openSlot token).2.Sound := by
  rcases openSlot_spec ht hroom hnew with ⟨idx, g, _, hby, hslots, hinactive, hfree⟩
  have hlookup : ∀ token', Assoc.lookup (t.openSlot token).2.byToken token' =
      if token' = token then some idx else Assoc.lookup t.byToken token' := by
    intro token'
    rw [hby, Assoc.lookup_append, Assoc.lookup_cons, Assoc.lookup_nil]
    by_cases hsame : token' = token
    · rw [if_pos hsame, if_pos hsame.symm, hsame, hnew, Option.none_or]
    · rw [if_neg hsame, if_neg (Ne.symm hsame), Option.or_none]
  have hsub : ∀ i, i ∈ (t.openSlot token).2.free → i ∈ t.free ∧ i.toNat ≠ idx.toNat := by
    intro i hi
    rcases hfree with heq | ⟨_, hnone, _⟩
    · have hdistinct := ht.freeDistinct
      rw [heq, List.nodup_cons] at hdistinct
      refine ⟨by rw [heq]; exact List.mem_cons_of_mem _ hi, fun hsame => hdistinct.1 ?_⟩
      rw [← UInt32.toNat_inj.mp hsame]
      exact hi
    · rw [hnone] at hi
      exact absurd hi List.not_mem_nil
  refine ⟨?_, fun token' idx' h => ?_, fun i s hs hactive => ?_, fun i hi => ?_,
    fun i s hs hfreed => ?_, ?_⟩
  · rw [hby, List.map_append, List.nodup_append]
    refine ⟨ht.distinct, List.nodup_singleton _, fun a ha b hb => ?_⟩
    rintro rfl
    rcases mem_tokens.mp ha with ⟨idx', h⟩
    rw [List.mem_singleton.mp hb, hnew] at h
    exact absurd h nofun
  · rw [hlookup] at h
    by_cases hsame : token' = token
    · rw [if_pos hsame, Option.some.injEq] at h
      rw [hslots, ← h, if_pos rfl, hsame]
      exact ⟨g, rfl⟩
    · rw [if_neg hsame] at h
      rw [hslots, if_neg (ht.index_ne hinactive h)]
      exact ht.holds token' idx' h
  · rw [hslots] at hs
    by_cases hi : i = idx.toNat
    · rw [if_pos hi, Option.some.injEq] at hs
      refine ⟨idx, hi.symm, ?_⟩
      rw [hlookup, ← hs, if_pos rfl]
    · rw [if_neg hi] at hs
      rcases ht.known i s hs hactive with ⟨idx', hidx, h⟩
      refine ⟨idx', hidx, ?_⟩
      rw [hlookup, if_neg fun hsame => ?_]
      · exact h
      · rw [hsame, hnew] at h
        exact absurd h nofun
  · rcases hsub i hi with ⟨hold, hne⟩
    rw [hslots, if_neg hne]
    exact ht.free i hold
  · rw [hslots] at hs
    by_cases hi : i = idx.toNat
    · rw [if_pos hi, Option.some.injEq] at hs
      rw [← hs] at hfreed
      exact absurd hfreed nofun
    · rw [if_neg hi] at hs
      rcases ht.freed i s hs hfreed with ⟨i', hi', hsame⟩
      refine ⟨i', ?_, hsame⟩
      rcases hfree with heq | ⟨hnone, _⟩
      · rw [heq] at hi'
        refine (List.mem_cons.mp hi').resolve_left fun hidx => hi ?_
        rw [← hsame, hidx]
      · rw [hnone] at hi'
        exact absurd hi' List.not_mem_nil
  · have hdistinct := ht.freeDistinct
    rcases hfree with heq | ⟨_, hnone, _⟩
    · rw [heq, List.nodup_cons] at hdistinct
      exact hdistinct.2
    · rw [hnone]
      exact List.nodup_nil

/-- The handles of the others stay, and the new token has the handle that was returned. -/
theorem find_openSlot (ht : t.Sound) (hroom : t.Room)
    (hnew : Assoc.lookup t.byToken token = none) (token' : UInt64) :
    (t.openSlot token).2.find token' =
      if token' = token then (t.openSlot token).1 else t.find token' := by
  rcases openSlot_spec ht hroom hnew with ⟨idx, g, hhandle, hby, hslots, hinactive, _⟩
  unfold find
  rw [hby, Assoc.lookup_append, Assoc.lookup_cons, Assoc.lookup_nil]
  by_cases hsame : token' = token
  · rw [if_pos hsame, hsame, hnew, if_pos rfl, Option.none_or, hhandle]
    simp only [handleFor, hslots, if_true, Option.elim_some]
  · rw [if_neg hsame, if_neg (Ne.symm hsame), Option.or_none]
    cases h : Assoc.lookup t.byToken token' with
    | none => rfl
    | some idx' =>
        simp only [handleFor, hslots, if_neg (ht.index_ne hinactive h)]

/-! ## Closing -/

theorem Sound.close (ht : t.Sound) (token : UInt64) : (t.close token).Sound := by
  unfold ConnectionTable.close
  cases h : Assoc.lookup t.byToken token with
  | none => exact ht
  | some idx =>
      simp only []
      rcases ht.holds token idx h with ⟨g, hslot⟩
      have hother : ∀ {token' idx'}, token' ≠ token →
          Assoc.lookup t.byToken token' = some idx' → idx'.toNat ≠ idx.toNat := by
        intro token' idx' hne h' hsame
        rw [UInt32.toNat_inj.mp hsame] at h'
        exact hne (ht.index_inj h' h)
      refine ⟨?_, fun token' idx' h' => ?_, fun i s hs hactive => ?_, fun i hi => ?_,
        fun i s hs hfreed => ?_, ?_⟩
      · exact (List.filter_sublist.map _).nodup ht.distinct
      · rw [Assoc.lookup_erase] at h'
        by_cases hsame : token' = token
        · rw [if_pos hsame] at h'
          exact absurd h' nofun
        · rw [if_neg hsame] at h'
          rw [getElem?_modify_slot, if_neg (hother hsame h')]
          exact ht.holds token' idx' h'
      · rw [getElem?_modify_slot] at hs
        by_cases hi : i = idx.toNat
        · rw [if_pos hi, hslot, Option.map_some, Option.some.injEq] at hs
          rw [← hs] at hactive
          exact absurd hactive Bool.false_ne_true
        · rw [if_neg hi] at hs
          rcases ht.known i s hs hactive with ⟨idx', hidx, h'⟩
          refine ⟨idx', hidx, ?_⟩
          rw [Assoc.lookup_erase, if_neg fun hsame => ?_]
          · exact h'
          · rw [hsame, h, Option.some.injEq] at h'
            exact hi (by rw [h', hidx])
      · rcases List.mem_cons.mp hi with rfl | hold
        · rw [getElem?_modify_slot, if_pos rfl, hslot]
          exact ⟨_, rfl, rfl⟩
        · rcases ht.free i hold with ⟨s, hs, hinactive⟩
          refine ⟨s, ?_, hinactive⟩
          rw [getElem?_modify_slot, if_neg fun hsame => ?_]
          · exact hs
          · rw [hsame, hslot, Option.some.injEq] at hs
            rw [← hs] at hinactive
            exact absurd hinactive nofun
      · rw [getElem?_modify_slot] at hs
        by_cases hi : i = idx.toNat
        · exact ⟨idx, List.mem_cons_self, hi.symm⟩
        · rw [if_neg hi] at hs
          rcases ht.freed i s hs hfreed with ⟨i', hi', hsame⟩
          exact ⟨i', List.mem_cons_of_mem _ hi', hsame⟩
      · refine List.nodup_cons.mpr ⟨fun hmem => ?_, ht.freeDistinct⟩
        rcases ht.free idx hmem with ⟨s, hs, hinactive⟩
        rw [hslot, Option.some.injEq] at hs
        rw [← hs] at hinactive
        exact absurd hinactive nofun

theorem close_byToken (t : ConnectionTable) (token : UInt64) :
    (t.close token).byToken = Assoc.erase t.byToken token := by
  unfold close
  cases h : Assoc.lookup t.byToken token with
  | some idx => rfl
  | none =>
      refine (List.filter_eq_self.mpr fun e he => ?_).symm
      rw [decide_eq_true_eq]
      intro hsame
      unfold Assoc.lookup at h
      rw [Option.map_eq_none_iff, List.find?_eq_none] at h
      exact h e he (decide_eq_true hsame)

/-- A handle of the slot that was closed is bad. -/
theorem validate_close
    (h : Assoc.lookup t.byToken token = some idx) {handle : ConnHandle}
    (hidx : handle.index = idx) : (t.close token).validate handle = false := by
  unfold close validate
  rw [h]
  simp only [hidx, getElem?_modify_slot, if_true]
  cases t.slots[idx.toNat]? with
  | none => exact Bool.and_false _
  | some s => exact Bool.and_false _

/-- The handles of the others stay. -/
theorem find_close (ht : t.Sound) {token token' : UInt64} (hne : token' ≠ token) :
    (t.close token).find token' = t.find token' := by
  unfold find
  rw [close_byToken, Assoc.lookup_erase, if_neg hne]
  cases h' : Assoc.lookup t.byToken token' with
  | none => rfl
  | some idx' =>
      simp only [handleFor]
      unfold close
      cases h : Assoc.lookup t.byToken token with
      | none => rfl
      | some idx =>
          have hother : idx'.toNat ≠ idx.toNat := by
            intro hsame
            rw [UInt32.toNat_inj.mp hsame] at h'
            exact hne (ht.index_inj h' h)
          simp only [getElem?_modify_slot, if_neg hother]

end ConnectionTable

end Net

end EarthRise
