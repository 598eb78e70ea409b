import EarthRise.Lib.Run
import EarthRise.Theory.ConnectionTable

/-!
# Stale Handles

What the handles of a connection table are good for over a whole life of the table.

A slot is used again after a close, and the generation is what tells the handles of one use
from those of the next. It counts the closes of the slot, so a handle from before the last
close has a generation that is lower, and is bad for as long as the count has not come
around. What the table finds for a token and what was done with the token are two records of
the same thing: a token is found while it is open.

The number of a slot has 32 bits. With `2 ^ 32` tokens open and one more, the last one gets
the slot of another.

## Main definitions

* `Issue`: A handle that was returned.
* `Use`: A table and what was done with it.
* `Use.Within`: The calls that do not exceed the 32 bits of a generation and of a slot.
* `Orderly`: Handles, tokens, slots and free slots agree.
* `Tallied`: The invariant, which counts the closes.

## Theorems

* `Tallied.step`: What a call keeps.
* `handles_orderly`: They agree in every life of a table.
* `slot_shared`: They do not after `2 ^ 32` opens and one more.
-/

namespace EarthRise

namespace Net

/-- A call that changes a table. -/
inductive TableCall
  | openSlot (token : UInt64)
  | close (token : UInt64)
  deriving DecidableEq, Repr

/-- A handle that was returned, the token it was opened for, and whether that was closed
    since. -/
structure Issue where
  handle : ConnHandle
  token : UInt64
  closed : Bool
  deriving DecidableEq

/-- A table, the handles it returned, the tokens that are open, and how often each slot was
    closed. -/
structure Use where
  table : ConnectionTable
  issued : List Issue
  isOpen : UInt64 → Bool
  closes : Nat → Nat

namespace Use

def start : Use := ⟨.empty, [], fun _ => false, fun _ => 0⟩

def step (s : Use) : TableCall → Option Use
  | .openSlot token => some
      { table := (s.table.openSlot token).2
        issued := ⟨(s.table.openSlot token).1, token, false⟩ :: s.issued
        isOpen := fun t => if t = token then true else s.isOpen t
        closes := s.closes }
  | .close token => some
      { table := s.table.close token
        issued := s.issued.map fun i => if i.token = token then { i with closed := true } else i
        isOpen := fun t => if t = token then false else s.isOpen t
        closes := match Assoc.lookup s.table.byToken token with
          | none => s.closes
          | some idx => fun i => if i = idx.toNat then s.closes i + 1 else s.closes i }

/-- A close that leaves its slot with fewer than `2 ^ 32` closes. -/
def FewCloses (s : Use) : TableCall → Prop
  | .openSlot _ => True
  | .close token => ∀ idx ∈ Assoc.lookup s.table.byToken token, s.closes idx.toNat + 1 < 2 ^ 32

/-- A close of that kind, or an open of a token that is open, or of another one while fewer
    than `2 ^ 32` tokens are. -/
def Within (s : Use) : TableCall → Prop
  | .openSlot token => s.isOpen token = false → s.table.byToken.length < 2 ^ 32
  | .close token => s.FewCloses (.close token)

instance (s : Use) (c : TableCall) : Decidable (s.FewCloses c) :=
  match c with
  | .openSlot _ => inferInstanceAs (Decidable True)
  | .close token =>
      match h : Assoc.lookup s.table.byToken token with
      | none => isTrue fun idx hidx => absurd hidx (by simp [h])
      | some idx => decidable_of_iff (s.closes idx.toNat + 1 < 2 ^ 32) (by simp [FewCloses, h])

instance (s : Use) (c : TableCall) : Decidable (s.Within c) :=
  match c with
  | .openSlot _ => inferInstanceAs (Decidable (_ → _))
  | .close token => inferInstanceAs (Decidable (s.FewCloses (.close token)))

end Use

/-- The slot has a token that is open, and no other has it. -/
def ConnectionTable.HeldBy (t : ConnectionTable) (i : Nat) (token : UInt64) : Prop :=
  (∃ s, t.slots[i]? = some s ∧ s.active = true ∧ s.token = token) ∧
    ∀ token', (t.find token').valid = true → (t.find token').index.toNat = i → token' = token

/-- A handle is good while its token was not closed since, a token is found while it is open,
    and a slot is in use by one token or on the free list once. -/
structure Orderly (s : Use) : Prop where
  handles : ∀ i ∈ s.issued, s.table.validate i.handle = !i.closed
  finds : ∀ token, (s.table.find token).valid = s.isOpen token
  distinct : ∀ a b, s.isOpen a = true → s.isOpen b = true → a ≠ b →
    (s.table.find a).index ≠ (s.table.find b).index
  slots : ∀ i, i < s.table.slots.length →
    (∃ token, s.isOpen token = true ∧ s.table.HeldBy i token) ∧
        s.table.free.countP (fun idx => idx.toNat = i) = 0 ∨
      (∀ token, s.isOpen token = true → (s.table.find token).index.toNat ≠ i) ∧
        s.table.free.countP (fun idx => idx.toNat = i) = 1

/-- The table is sound, the generations count the closes, and each handle is either that of
    its token or from before the last close of its slot. -/
structure Tallied (s : Use) : Prop where
  sound : s.table.Sound
  opened : ∀ token, s.isOpen token = true ↔ ∃ idx, Assoc.lookup s.table.byToken token = some idx
  counts : ∀ i slot, s.table.slots[i]? = some slot → slot.generation.toNat = s.closes i
  unused : ∀ i, s.table.slots.length ≤ i → s.closes i = 0
  current : ∀ i ∈ s.issued, i.closed = false → s.table.find i.token = i.handle ∧
    i.handle.valid = true
  stale : ∀ i ∈ s.issued, i.closed = true →
    i.handle.generation.toNat < s.closes i.handle.index.toNat

namespace ConnectionTable

variable {t : ConnectionTable} {token : UInt64}

@[simp] theorem find_of_lookup {idx : UInt32}
    (h : Assoc.lookup t.byToken token = some idx) : t.find token = t.handleFor idx := by
  simp only [find, h]

theorem valid_find :
    (t.find token).valid = true ↔ ∃ idx, Assoc.lookup t.byToken token = some idx := by
  unfold find
  cases h : Assoc.lookup t.byToken token with
  | none => simp [ConnHandle.none]
  | some idx => simp [handleFor]

/-- A new handle has the generation its slot has, which is zero for a slot that is made. -/
theorem generation_openSlot (ht : t.Sound) (hroom : t.Room)
    (hnew : Assoc.lookup t.byToken token = none) :
    (t.openSlot token).1.generation =
      (t.slots[(t.openSlot token).1.index.toNat]?).elim 0 Slot.generation := by
  unfold openSlot
  rw [hnew]
  cases hfree : t.free with
  | cons idx rest =>
      rcases ht.free idx (by simp [hfree]) with ⟨s, hs, _⟩
      simp [handleFor, hs]
  | nil =>
      have hlen : t.slots.length < 2 ^ 32 := hroom.resolve_left (fun h => h hfree)
      have hidx : (UInt32.ofNat t.slots.length).toNat = t.slots.length :=
        UInt32.toNat_ofNat_of_lt' hlen
      simp [handleFor, hidx, Slot.empty]

/-- The slots after a close. -/
theorem slots_close {idx : UInt32}
    (h : Assoc.lookup t.byToken token = some idx) (i : Nat) :
    (t.close token).slots[i]? =
      if i = idx.toNat then
        (t.slots[idx.toNat]?).map fun s => ⟨0, s.generation + 1, false⟩
      else t.slots[i]? := by
  simp only [close, h, getElem?_modify_slot]

theorem close_of_unknown (h : Assoc.lookup t.byToken token = none) :
    t.close token = t := by
  simp only [close, h]

end ConnectionTable

open ConnectionTable

/-! ## What a call keeps -/

theorem tallied_start : Tallied .start where
  sound := sound_empty
  opened := fun token => by simp [Use.start, empty, Assoc.lookup_nil]
  counts := fun i slot h => by simp [Use.start, empty] at h
  unused := fun _ _ => rfl
  current := fun i hi => absurd hi List.not_mem_nil
  stale := fun i hi => absurd hi List.not_mem_nil

/-- A token with a handle that is not closed is in the table. -/
theorem Tallied.known {s : Use} (hs : Tallied s) {i : Issue} (hi : i ∈ s.issued)
    (hclosed : i.closed = false) : ∃ idx, Assoc.lookup s.table.byToken i.token = some idx := by
  rcases hs.current i hi hclosed with ⟨hfind, hvalid⟩
  rw [← hfind] at hvalid
  exact valid_find.mp hvalid

/-- Opening a token that is open returns its handle once more. -/
theorem Tallied.reopen {s t : Use} (hs : Tallied s) {token : UInt64} {idx : UInt32}
    (h : Assoc.lookup s.table.byToken token = some idx)
    (hstep : s.step (.openSlot token) = some t) : Tallied t := by
  have hsame : s.table.openSlot token = (s.table.handleFor idx, s.table) := by
    simp only [openSlot, h]
  rw [Use.step, hsame, Option.some.injEq] at hstep
  subst hstep
  refine ⟨hs.sound, fun token' => ?_, hs.counts, hs.unused, ?_, ?_⟩
  · by_cases heq : token' = token
    · simp [heq, h]
    · simp only [if_neg heq, hs.opened]
  · intro i hi hclosed
    rcases List.mem_cons.mp hi with rfl | hold
    · exact ⟨find_of_lookup h, rfl⟩
    · exact hs.current i hold hclosed
  · intro i hi hclosed
    rcases List.mem_cons.mp hi with rfl | hold
    · exact absurd hclosed Bool.false_ne_true
    · exact hs.stale i hold hclosed

/-- Opening a token that is not open gives it a slot that nothing has. -/
theorem Tallied.open {s t : Use} (hs : Tallied s) {token : UInt64}
    (hfew : s.table.byToken.length < 2 ^ 32) (h : Assoc.lookup s.table.byToken token = none)
    (hstep : s.step (.openSlot token) = some t) : Tallied t := by
  have hroom := hs.sound.room hfew
  have hfinds := find_openSlot hs.sound hroom h
  have hgen := generation_openSlot hs.sound hroom h
  rcases openSlot_spec hs.sound hroom h with ⟨idx, g, hhandle, hby, hslots, _, hfree⟩
  rw [hhandle] at hgen
  have hlength : ∀ i, (s.table.openSlot token).2.slots.length ≤ i →
      s.table.slots.length ≤ i ∧ i ≠ idx.toNat := by
    intro i hi
    have hnone := hslots i
    rw [List.getElem?_eq_none hi] at hnone
    by_cases heq : i = idx.toNat
    · rw [if_pos heq] at hnone
      exact absurd hnone.symm nofun
    · rw [if_neg heq] at hnone
      exact ⟨List.getElem?_eq_none_iff.mp hnone.symm, heq⟩
  simp only [Use.step, Option.some.injEq] at hstep
  subst hstep
  refine ⟨hs.sound.openSlot hroom h, fun token' => ?_, fun i slot hslot => ?_,
    fun i hi => hs.unused i (hlength i hi).1, ?_, ?_⟩
  · simp only [hby, Assoc.lookup_append, Assoc.lookup_cons, Assoc.lookup_nil]
    by_cases heq : token' = token
    · simp [heq, h]
    · simp [heq, Ne.symm heq, hs.opened]
  · -- The generation of the slot is as it was, and that of a slot that is made is zero.
    rw [hslots] at hslot
    by_cases heq : i = idx.toNat
    · rw [if_pos heq, Option.some.injEq] at hslot
      subst hslot heq
      cases hold : s.table.slots[idx.toNat]? with
      | none =>
          rw [hold] at hgen
          have hzero := hs.unused idx.toNat (List.getElem?_eq_none_iff.mp hold)
          simp [hzero, show g = 0 from hgen]
      | some slot =>
          rw [hold] at hgen
          simp only [show g = slot.generation from hgen]
          exact hs.counts _ slot hold
    · rw [if_neg heq] at hslot
      exact hs.counts i slot hslot
  · intro i hi hclosed
    rcases List.mem_cons.mp hi with rfl | hold
    · simp [hfinds, hhandle]
    · rcases hs.known hold hclosed with ⟨idx', hidx'⟩
      have hne : i.token ≠ token := by
        rintro heq
        rw [heq, h] at hidx'
        exact absurd hidx' nofun
      simp only [hfinds, if_neg hne]
      exact hs.current i hold hclosed
  · intro i hi hclosed
    rcases List.mem_cons.mp hi with rfl | hold
    · exact absurd hclosed Bool.false_ne_true
    · exact hs.stale i hold hclosed

/-- Closing a token makes its handles stale, and no others. -/
theorem Tallied.close {s t : Use} (hs : Tallied s) {token : UInt64}
    (hfew : s.FewCloses (.close token)) (hstep : s.step (.close token) = some t) : Tallied t := by
  simp only [Use.step, Option.some.injEq] at hstep
  subst hstep
  refine ⟨hs.sound.close token, fun token' => ?_, fun i slot hslot => ?_, fun i hi => ?_, ?_, ?_⟩
  · simp only [close_byToken, Assoc.lookup_erase]
    by_cases heq : token' = token
    · simp [heq]
    · simp only [if_neg heq, hs.opened]
  · cases h : Assoc.lookup s.table.byToken token with
    | none =>
        rw [close_of_unknown h] at hslot
        exact hs.counts i slot hslot
    | some idx =>
        rw [slots_close h] at hslot
        by_cases heq : i = idx.toNat
        · subst heq
          rw [if_pos rfl, Option.map_eq_some_iff] at hslot
          rcases hslot with ⟨old, hold, rfl⟩
          have hcount := hs.counts _ old hold
          have hbound := hfew idx h
          simp only [if_true, UInt32.toNat_add, hcount]
          exact Nat.mod_eq_of_lt hbound
        · rw [if_neg heq] at hslot
          simp only [if_neg heq]
          exact hs.counts i slot hslot
  · cases h : Assoc.lookup s.table.byToken token with
    | none =>
        rw [close_of_unknown h] at hi
        exact hs.unused i hi
    | some idx =>
        rcases hs.sound.holds token idx h with ⟨g, hslot⟩
        have hlength : (s.table.close token).slots.length = s.table.slots.length := by
          simp only [ConnectionTable.close, h, List.length_modify]
        have hlt := (List.getElem?_eq_some_iff.mp hslot).1
        rw [hlength] at hi
        simp only [if_neg (show i ≠ idx.toNat by omega)]
        exact hs.unused i hi
  · intro i hi hclosed
    rcases List.mem_map.mp hi with ⟨old, hold, rfl⟩
    by_cases heq : old.token = token
    · rw [if_pos heq] at hclosed
      exact absurd hclosed nofun
    · rw [if_neg heq] at hclosed ⊢
      rw [find_close hs.sound heq]
      exact hs.current old hold hclosed
  · intro i hi hclosed
    rcases List.mem_map.mp hi with ⟨old, hold, rfl⟩
    -- Counts only grow, so what was stale stays so.
    have hgrow : ∀ n, s.closes n ≤ (match Assoc.lookup s.table.byToken token with
        | none => s.closes
        | some idx => fun i => if i = idx.toNat then s.closes i + 1 else s.closes i) n := by
      intro n
      cases Assoc.lookup s.table.byToken token with
      | none => exact Nat.le_refl _
      | some idx =>
          simp only []
          split <;> omega
    have hissue : (if old.token = token then { old with closed := true } else old).handle =
        old.handle := by
      split <;> rfl
    rw [hissue]
    cases hwas : old.closed with
    | true => exact Nat.lt_of_lt_of_le (hs.stale old hold hwas) (hgrow _)
    | false =>
        have heq : old.token = token := by
          by_contra hne
          rw [if_neg hne, hwas] at hclosed
          exact absurd hclosed Bool.false_ne_true
        rcases hs.known hold hwas with ⟨idx, hidx⟩
        rcases hs.sound.holds _ idx hidx with ⟨g, hslot⟩
        have hhandle := (hs.current old hold hwas).1
        rw [find_of_lookup hidx] at hhandle
        have hcount := hs.counts _ _ hslot
        rw [← heq, hidx, ← hhandle]
        simp only [handleFor, hslot, Option.elim_some, if_true, hcount]
        omega

theorem Tallied.step {s t : Use} (hs : Tallied s) (c : TableCall) (hwithin : s.Within c)
    (hstep : s.step c = some t) : Tallied t := by
  cases c with
  | openSlot token =>
      cases h : Assoc.lookup s.table.byToken token with
      | none =>
          refine hs.open (hwithin ?_) h hstep
          rw [Bool.eq_false_iff, ne_eq, hs.opened, h]
          simp
      | some idx => exact hs.reopen h hstep
  | close token => exact hs.close hwithin hstep

/-! ## In every life of a table -/

theorem Tallied.orderly {s : Use} (hs : Tallied s) : Orderly s where
  handles i hi := by
    cases hclosed : i.closed with
    | false =>
        rcases hs.known hi hclosed with ⟨idx, hidx⟩
        rw [← (hs.current i hi hclosed).1]
        exact hs.sound.validate_find hidx
    | true =>
        have hstale := hs.stale i hi hclosed
        unfold validate
        cases hslot : s.table.slots[i.handle.index.toNat]? with
        | none => simp
        | some slot =>
            have hcount := hs.counts _ slot hslot
            have hne : slot.generation ≠ i.handle.generation := by
              rintro heq
              rw [heq] at hcount
              omega
            simp [hne]
  finds token := by
    rw [Bool.eq_iff_iff, valid_find, hs.opened]
  distinct a b ha hb hne := by
    rcases (hs.opened a).mp ha with ⟨i, hi⟩
    rcases (hs.opened b).mp hb with ⟨j, hj⟩
    rw [find_of_lookup hi, find_of_lookup hj]
    rintro rfl
    exact hne (hs.sound.index_inj hi hj)
  slots i hi := by
    have hslot : s.table.slots[i]? = some s.table.slots[i] := List.getElem?_eq_getElem hi
    cases hactive : s.table.slots[i].active with
    | true =>
        rcases hs.sound.known i _ hslot hactive with ⟨idx, hidx, hlookup⟩
        refine .inl ⟨⟨_, (hs.opened _).mpr ⟨idx, hlookup⟩, ⟨_, hslot, hactive, rfl⟩, ?_⟩, ?_⟩
        · intro token' hvalid hindex
          rcases valid_find.mp hvalid with ⟨idx', hlookup'⟩
          rw [find_of_lookup hlookup'] at hindex
          have hsame : idx' = idx := UInt32.toNat_inj.mp (hindex.trans hidx.symm)
          rw [hsame] at hlookup'
          exact hs.sound.index_inj hlookup' hlookup
        · rw [List.countP_eq_zero]
          intro idx' hfree hindex
          rcases hs.sound.free idx' hfree with ⟨slot, hslot', hinactive⟩
          rw [of_decide_eq_true hindex, hslot, Option.some.injEq] at hslot'
          rw [hslot', hinactive] at hactive
          exact absurd hactive Bool.false_ne_true
    | false =>
        rcases hs.sound.freed i _ hslot hactive with ⟨idx, hfree, hidx⟩
        refine .inr ⟨?_, ?_⟩
        · intro token hopen hindex
          rcases (hs.opened token).mp hopen with ⟨idx', hlookup⟩
          rcases hs.sound.holds token idx' hlookup with ⟨g, hslot'⟩
          rw [find_of_lookup hlookup] at hindex
          rw [show idx'.toNat = i from hindex, hslot, Option.some.injEq] at hslot'
          rw [hslot'] at hactive
          exact absurd hactive nofun
        · have honce := List.count_eq_one_of_mem hs.sound.freeDistinct hfree
          rw [← honce, List.count]
          refine List.countP_congr fun idx' _ => ?_
          rw [decide_eq_true_eq, beq_iff_eq, ← hidx]
          exact UInt32.toNat_inj

/-- Whatever is opened and closed, as long as no slot is closed `2 ^ 32` times and no more than
    `2 ^ 32` tokens are open at a time, the handles, the tokens and the slots agree. -/
theorem handles_orderly {s : Use} (h : Run.Reaches Use.step Use.Within .start s) : Orderly s :=
  (Run.Reaches.invariant (fun _ c _ hs hwithin hstep => Tallied.step hs c hwithin hstep) h
    tallied_start).orderly

/-- A token that is opened, closed and opened again, after which the first handle is bad. -/
theorem handles_orderly_reopened :
    ∃ s, Run.runGuarded Use.step Use.Within .start [.openSlot 7, .close 7, .openSlot 7] = some s ∧
      s.issued.map (fun i => (s.table.validate i.handle, i.closed)) =
        [(true, false), (false, true)] ∧ Orderly s := by
  refine ⟨_, rfl, rfl, handles_orderly ?_⟩
  exact Run.reaches_of_runGuarded [.openSlot 7, .close 7, .openSlot 7] rfl

/-! ## Too many tokens -/

/-- So many tokens are open, each with the slot of its number. -/
structure Filled (n : Nat) (s : Use) : Prop where
  free : s.table.free = []
  slots : s.table.slots.length = n
  tokens : ∀ k, k < 2 ^ 64 → Assoc.lookup s.table.byToken (UInt64.ofNat k) =
    if k < n then some (UInt32.ofNat k) else none
  opened : ∀ k, k < n → s.isOpen (UInt64.ofNat k) = true

theorem ofNat_inj {j k : Nat} (hj : j < 2 ^ 64) (hk : k < 2 ^ 64)
    (h : UInt64.ofNat j = UInt64.ofNat k) : j = k := by
  have hnat := congrArg UInt64.toNat h
  rwa [UInt64.toNat_ofNat', UInt64.toNat_ofNat', Nat.mod_eq_of_lt hj, Nat.mod_eq_of_lt hk] at hnat

/-- One token more. -/
theorem Filled.open {n : Nat} {s t : Use} (hs : Filled n s) (hn : n < 2 ^ 64)
    (hstep : s.step (.openSlot (UInt64.ofNat n)) = some t) : Filled (n + 1) t := by
  have hnew : Assoc.lookup s.table.byToken (UInt64.ofNat n) = none := by
    rw [hs.tokens n hn, if_neg (Nat.lt_irrefl n)]
  have hgrow := (openSlot_grow hs.free hnew).1
  rw [Use.step, hgrow, hs.slots, Option.some.injEq] at hstep
  subst hstep
  refine ⟨rfl, ?_, fun k hk => ?_, fun k hk => ?_⟩
  · simp [hs.slots]
  · simp only [Assoc.lookup_append, Assoc.lookup_cons, Assoc.lookup_nil, hs.tokens k hk]
    by_cases heq : k = n
    · simp [heq]
    · have hne : UInt64.ofNat n ≠ UInt64.ofNat k := fun h => heq (ofNat_inj hn hk h).symm
      rw [if_neg hne, Option.or_none]
      by_cases hlt : k < n
      · rw [if_pos hlt, if_pos (by omega)]
      · rw [if_neg hlt, if_neg (by omega)]
  · by_cases heq : k = n
    · simp [heq]
    · have hlt : k < n := by omega
      simp [hs.opened k hlt]

theorem filled_run (n : Nat) (hn : n ≤ 2 ^ 64) :
    ∃ s, Run.Reaches Use.step Use.FewCloses .start s ∧ Filled n s := by
  induction n with
  | zero =>
      refine ⟨.start, Run.Reaches.refl, rfl, rfl, fun k _ => ?_, fun k hk => ?_⟩
      · simp [Use.start, empty, Assoc.lookup_nil]
      · omega
  | succ n ih =>
      rcases ih (by omega) with ⟨s, hreach, hs⟩
      exact ⟨_, hreach.tail (.openSlot (UInt64.ofNat n)) trivial rfl, hs.open (by omega) rfl⟩

/-- After `2 ^ 32` opens and one more, without any close, two tokens have one slot. -/
theorem slot_shared : ∃ s, Run.Reaches Use.step Use.FewCloses .start s ∧
    s.isOpen 0 = true ∧ s.isOpen (UInt64.ofNat (2 ^ 32)) = true ∧
    (s.table.find 0).index = (s.table.find (UInt64.ofNat (2 ^ 32))).index ∧ ¬ Orderly s := by
  rcases filled_run (2 ^ 32 + 1) (by omega) with ⟨s, hreach, hs⟩
  have hfirst := hs.tokens 0 (by omega)
  have hlast := hs.tokens (2 ^ 32) (by omega)
  rw [if_pos (by omega)] at hfirst hlast
  have hsame : (s.table.find 0).index = (s.table.find (UInt64.ofNat (2 ^ 32))).index := by
    have hzero : s.table.find 0 = s.table.handleFor (UInt32.ofNat 0) := find_of_lookup hfirst
    rw [find_of_lookup hlast, hzero]
    rfl
  have hopen := hs.opened 0 (by omega)
  have hopen' := hs.opened (2 ^ 32) (by omega)
  refine ⟨s, hreach, hopen, hopen', hsame, fun h => ?_⟩
  exact h.distinct 0 _ hopen hopen' (by decide) hsame

end Net

end EarthRise
