import EarthRise.Core.EconomyStore
import EarthRise.Lib.Bits

/-!
# When Two Idempotency Keys Collide

Which events share a key, over all families, net ids and ticks.

The finaliser of `outboxIdemKey` is a bijection, so a collision is one of the
word packed before it. The family sits above bit 53, out of reach of the net id
and the tick, and never collides. The net id is shifted by 21 and the tick is
not, so the low eleven bits of the one and the high eleven bits of the other
share their place: two events of one family collide exactly where the net ids'
difference, shifted, is the ticks' difference.

## Main definitions

* `packed`, `finalise`: The two halves of the key.
* `Overlap`: Differences of net id and tick that cancel.
* `DroppedAfter`: The second event is taken for a repetition of the first.

## Theorems

* `outboxIdemKey_eq_iff`: When two keys agree.
* `outboxIdemKey_separates_iff`: When different events keep apart.
-/

namespace EarthRise

namespace Persist

open Mix

/-- The word that is hashed. -/
def packed (domain : UInt64) (netId tick : UInt32) : UInt64 :=
  domain * (0x9E3779B97F4A7C15 : UInt64) ^^^ netId.toUInt64 <<< 21 ^^^ tick.toUInt64

/-- The hash, two rounds of folding and multiplying and a last fold. -/
def finalise (z : UInt64) : UInt64 :=
  let z : UInt64 := (z ^^^ (z >>> 30)) * (0xBF58476D1CE4E5B9 : UInt64)
  let z : UInt64 := (z ^^^ (z >>> 27)) * (0x94D049BB133111EB : UInt64)
  z ^^^ (z >>> 31)

theorem outboxIdemKey_eq_finalise (domain : UInt64) (netId tick : UInt32) :
    outboxIdemKey domain netId tick = finalise (packed domain netId tick) := rfl

theorem toBitVec_finalise (z : UInt64) :
    (finalise z).toBitVec =
      foldHigh 31 (foldHigh 27 (foldHigh 30 z.toBitVec * 0xBF58476D1CE4E5B9#64) *
        0x94D049BB133111EB#64) := rfl

/-- The hash is injective, step by step. -/
theorem finalise_injective : Function.Injective finalise := by
  intro z z' h
  have hbits := congrArg UInt64.toBitVec h
  rw [toBitVec_finalise, toBitVec_finalise] at hbits
  have h₂ := foldHigh_injective 31 (by decide) hbits
  have hmul₂ := mul_injective_of_inverse 0x94D049BB133111EB#64 0x319642B2D24D8EC3#64 (by decide) h₂
  have h₁ := foldHigh_injective 27 (by decide) hmul₂
  have hmul₁ := mul_injective_of_inverse 0xBF58476D1CE4E5B9#64 0x96DE1B173F119089#64 (by decide) h₁
  exact UInt64.toBitVec_inj.mp (foldHigh_injective 30 (by decide) hmul₁)

/-- The net ids' difference, moved to its place in the word, is the ticks'. -/
def Overlap (netId tick netId' tick' : UInt32) : Prop :=
  (netId ^^^ netId').toUInt64 <<< 21 = (tick ^^^ tick').toUInt64

instance (n t n' t' : UInt32) : Decidable (Overlap n t n' t') :=
  inferInstanceAs (Decidable (_ = _))

/-- The four families of combat events. -/
def EconEventType.domain : EconEventType → UInt64
  | .lootDrop => 1
  | .lootClaim => 2
  | .killmail => 3
  | .cargoLost => 4

theorem packed_toBitVec (d : UInt64) (n t : UInt32) :
    (packed d n t).toBitVec =
      d.toBitVec * 0x9E3779B97F4A7C15#64 ^^^ n.toBitVec.zeroExtend 64 <<< 21 ^^^
        t.toBitVec.zeroExtend 64 := rfl

/-- Above bit 53 the word is the family's. -/
theorem packed_high (d : UInt64) (n t : UInt32) :
    (packed d n t).toBitVec >>> 53 = (d.toBitVec * 0x9E3779B97F4A7C15#64) >>> 53 := by
  have hn : n.toBitVec.zeroExtend 64 <<< 21 >>> 53 = 0#64 := by
    apply BitVec.eq_of_getLsbD_eq
    intro i hi
    rw [BitVec.getLsbD_ushiftRight, BitVec.getLsbD_shiftLeft, BitVec.getLsbD_setWidth,
      BitVec.getLsbD_of_ge _ (53 + i - 21) (by omega)]
    simp
  have ht : t.toBitVec.zeroExtend 64 >>> 53 = 0#64 := by
    apply BitVec.eq_of_getLsbD_eq
    intro i hi
    rw [BitVec.getLsbD_ushiftRight, BitVec.getLsbD_setWidth,
      BitVec.getLsbD_of_ge _ (53 + i) (by omega)]
    simp
  rw [packed_toBitVec, BitVec.ushiftRight_xor_distrib, BitVec.ushiftRight_xor_distrib, hn, ht,
    BitVec.xor_zero, BitVec.xor_zero]

/-- The four families differ above bit 53. -/
theorem domain_of_packed_eq (d d' : UInt64) (hd : 1 ≤ d ∧ d ≤ 4) (hd' : 1 ≤ d' ∧ d' ≤ 4)
    (n t n' t' : UInt32) (h : packed d n t = packed d' n' t') : d = d' := by
  have hcases : ∀ x : UInt64, 1 ≤ x ∧ x ≤ 4 → x = 1 ∨ x = 2 ∨ x = 3 ∨ x = 4 := by
    intro x hx
    have h₁ : 1 ≤ x.toNat := UInt64.le_iff_toNat_le.mp hx.1
    have h₂ : x.toNat ≤ 4 := UInt64.le_iff_toNat_le.mp hx.2
    rw [← UInt64.toNat_inj, ← UInt64.toNat_inj, ← UInt64.toNat_inj, ← UInt64.toNat_inj]
    show x.toNat = 1 ∨ x.toNat = 2 ∨ x.toNat = 3 ∨ x.toNat = 4
    omega
  have hhigh := congrArg (fun z : UInt64 => z.toBitVec >>> 53) h
  simp only [packed_high] at hhigh
  rcases hcases d hd with rfl | rfl | rfl | rfl <;>
    rcases hcases d' hd' with rfl | rfl | rfl | rfl <;>
    first | rfl | exact absurd hhigh (by decide)

/-- Within one family the words agree where the differences cancel. -/
theorem packed_eq_iff (d : UInt64) (n t n' t' : UInt32) :
    packed d n t = packed d n' t' ↔ Overlap n t n' t' := by
  unfold Overlap
  rw [← UInt64.toBitVec_inj, ← UInt64.toBitVec_inj, packed_toBitVec, packed_toBitVec,
    xor_eq_xor_iff, ← BitVec.shiftLeft_xor_distrib]
  have hn : (n.toBitVec.zeroExtend 64 ^^^ n'.toBitVec.zeroExtend 64) =
      (n ^^^ n').toBitVec.zeroExtend 64 := (BitVec.setWidth_xor).symm
  have ht : (t.toBitVec.zeroExtend 64 ^^^ t'.toBitVec.zeroExtend 64) =
      (t ^^^ t').toBitVec.zeroExtend 64 := (BitVec.setWidth_xor).symm
  rw [hn, ht]
  exact Iff.rfl

/-- Two keys agree where the families are the same and the differences of net id
    and tick cancel. -/
theorem outboxIdemKey_eq_iff (d d' : UInt64) (hd : 1 ≤ d ∧ d ≤ 4) (hd' : 1 ≤ d' ∧ d' ≤ 4)
    (n t n' t' : UInt32) :
    outboxIdemKey d n t = outboxIdemKey d' n' t' ↔ d = d' ∧ Overlap n t n' t' := by
  rw [outboxIdemKey_eq_finalise, outboxIdemKey_eq_finalise, finalise_injective.eq_iff]
  constructor
  · intro h
    have hdom := domain_of_packed_eq d d' hd hd' n t n' t' h
    rw [← hdom] at h
    exact ⟨hdom, (packed_eq_iff d n t n' t').mp h⟩
  · rintro ⟨rfl, hover⟩
    exact (packed_eq_iff d n t n' t').mpr hover

/-- An event of a family, an entity and a tick. -/
def EconEvent.IsOf (e : EconEvent) (d : UInt64) (n t : UInt32) : Prop :=
  e.type.domain = d ∧ e.aNetId = n ∧ e.tick = t

/-- Where a database does not know the second event, committing the first can
    make it take the second for a repetition. -/
def DroppedAfter (e e' : EconEvent) : Prop :=
  ∃ db : Database, ¬ (mapEconEvent e').idemKey ∈ db.keys ∧
    (mapEconEvent e').idemKey ∈ (appendWriteThrough db (SimEvent.econ e).mutation).2.keys

theorem mapEconEvent_idemKey (e : EconEvent) :
    (mapEconEvent e).idemKey = outboxIdemKey e.type.domain e.aNetId e.tick := by
  unfold mapEconEvent
  cases e.type <;> rfl

theorem mutation_idemKey (e : EconEvent) :
    (SimEvent.econ e).mutation.idemKey = (mapEconEvent e).idemKey := rfl

/-- Committing an event adds its own key at most. -/
theorem append_keys (db : Database) (m : EconomyMutation) (k : UInt64)
    (h : k ∈ (appendWriteThrough db m).2.keys) : k ∈ db.keys ∨ k = m.idemKey := by
  unfold appendWriteThrough at h
  cases hfind : db.outbox.find? fun r => r.idempotencyKey = m.idemKey with
  | some r =>
      simp only [hfind] at h
      exact .inl h
  | none =>
      simp only [hfind] at h
      cases hwal : db.wallets m.accountId with
      | none =>
          simp only [hwal] at h
          exact .inl h
      | some balance =>
          simp only [hwal] at h
          split at h
          · exact .inl h
          split at h
          · exact .inl h
          · simp only [Database.keys, Database.commit, List.map_append, List.mem_append,
              List.map_cons, List.map_nil, List.mem_singleton] at h
            exact h

/-- Accounts that can pay for the mutation, and nothing committed. -/
def Database.funded (m : EconomyMutation) : Database :=
  { Database.empty with wallets := fun _ => some (m.amount.natAbs : Int) }

/-- A funded account commits the mutation. -/
theorem append_funded (m : EconomyMutation) :
    m.idemKey ∈ (appendWriteThrough (Database.funded m) m).2.keys := by
  have hpay : ¬ (m.amount.natAbs : Int) + m.amount < 0 := by omega
  unfold appendWriteThrough
  simp only [Database.funded, Database.empty, List.find?_nil, Database.refTaken, List.any_nil,
    Bool.and_false, Bool.false_eq_true, if_false, if_neg hpay]
  simp only [Database.keys, Database.commit, List.nil_append, List.map_cons, List.map_nil,
    List.mem_singleton]

/-- An event is dropped after another one exactly when they share a key. -/
theorem droppedAfter_iff (e e' : EconEvent) :
    DroppedAfter e e' ↔ (mapEconEvent e).idemKey = (mapEconEvent e').idemKey := by
  constructor
  · rintro ⟨db, hnew, hknown⟩
    rcases append_keys db _ _ hknown with hold | hkey
    · exact absurd hold hnew
    · rw [hkey, mutation_idemKey]
  · intro hkey
    refine ⟨Database.funded (SimEvent.econ e).mutation, List.not_mem_nil, ?_⟩
    rw [← hkey]
    exact append_funded (SimEvent.econ e).mutation

/-- Two events keep different keys, and neither is dropped as a duplicate of the
    other, exactly where they are not of one family with differences of net id and
    tick that cancel. The differences of an event and itself do: both are zero. -/
theorem outboxIdemKey_separates_iff (d d' : UInt64) (n t n' t' : UInt32)
    (hd : 1 ≤ d ∧ d ≤ 4) (hd' : 1 ≤ d' ∧ d' ≤ 4) :
    (outboxIdemKey d n t ≠ outboxIdemKey d' n' t' ∧
      ∀ e e' : EconEvent, e.IsOf d n t → e'.IsOf d' n' t' →
        (mapEconEvent e).idemKey ≠ (mapEconEvent e').idemKey ∧
          ¬ DroppedAfter e e' ∧ ¬ DroppedAfter e' e) ↔
      ¬ (d = d' ∧ Overlap n t n' t') := by
  have hkey := outboxIdemKey_eq_iff d d' hd hd' n t n' t'
  constructor
  · intro h hboth
    exact h.1 (hkey.mpr hboth)
  · intro hapart
    have hneKey : outboxIdemKey d n t ≠ outboxIdemKey d' n' t' := fun h => hapart (hkey.mp h)
    refine ⟨hneKey, ?_⟩
    rintro e e' ⟨rfl, rfl, rfl⟩ ⟨rfl, rfl, rfl⟩
    rw [droppedAfter_iff, droppedAfter_iff, mapEconEvent_idemKey, mapEconEvent_idemKey]
    exact ⟨hneKey, hneKey, hneKey.symm⟩

/-- Two kills at one tick keep apart. -/
theorem outboxIdemKey_separates_kills :
    outboxIdemKey 3 2 1000 ≠ outboxIdemKey 3 3 1000 :=
  ((outboxIdemKey_separates_iff 3 3 2 1000 3 1000 (by decide) (by decide)).mpr
    (by decide)).1

/-- The kill of entity 2 at tick 1000 and that of entity 3 some nineteen hours
    later share a key, and the second is dropped. -/
theorem kills_share_key :
    outboxIdemKey 3 2 1000 = outboxIdemKey 3 3 2098152 ∧
      DroppedAfter ⟨.killmail, 2, 1, 50, 1000⟩ ⟨.killmail, 3, 1, 50, 2098152⟩ := by
  have hkey : outboxIdemKey 3 2 1000 = outboxIdemKey 3 3 2098152 :=
    (outboxIdemKey_eq_iff 3 3 (by decide) (by decide) 2 1000 3 2098152).mpr (by decide)
  exact ⟨hkey, (droppedAfter_iff _ _).mpr hkey⟩

end Persist

end EarthRise
