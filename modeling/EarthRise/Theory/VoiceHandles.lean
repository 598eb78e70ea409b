import EarthRise.Theory.AudioEngine
import Mathlib.Data.Nat.Bitwise

/-!
# Handles of Voices

How long a handle is good. Freeing a slot raises its generation, which goes from 1 to 4095
and then starts again, so the generation tells how often the slot was freed up to a multiple
of 4095 (`iterate_nextGeneration`). What happens to the slots between two times is kept as how
often each of them was freed, and that a slot in use stays in use while it is not (`Aged`).

A handle that `play` returns is for a slot that was not in use, and the handle has its
generation. That the handle is for this slot takes that the number of the slot fits into the
bits it has there, so that the pool has not outgrown them.

## Main definitions

* `frees`: How often a slot was freed.
* `Aged`: What happens to the slots from one time to another.

## Theorems

* `voiceIndex_makeVoiceId`: The slot of a handle.
* `iterate_nextGeneration`: The generation after some frees.
* `handle_life`: When a handle is good.
-/

namespace EarthRise

namespace Audio

/-! ## Handles and generations -/

theorem toNat_makeVoiceId (index generation : UInt32) :
    (makeVoiceId index generation).v.toNat =
      index.toNat % 2 ^ 20 + 2 ^ 20 * (generation.toNat % 2 ^ 12) := by
  have hlow : (index &&& voiceIndexMask).toNat = index.toNat % 2 ^ 20 := by
    rw [UInt32.toNat_and]
    exact Nat.and_two_pow_sub_one_eq_mod _ 20
  have hhigh : ((generation &&& voiceGenerationMask) <<< voiceIndexBits).toNat =
      2 ^ 20 * (generation.toNat % 2 ^ 12) := by
    rw [UInt32.toNat_shiftLeft, UInt32.toNat_and]
    have hmask : generation.toNat &&& voiceGenerationMask.toNat = generation.toNat % 2 ^ 12 :=
      Nat.and_two_pow_sub_one_eq_mod _ 12
    have hshift : voiceIndexBits.toNat % 32 = 20 := rfl
    rw [hmask, hshift, Nat.shiftLeft_eq]
    have := Nat.mod_lt generation.toNat (by decide : 0 < 2 ^ 12)
    omega
  unfold makeVoiceId
  rw [UInt32.toNat_or, hlow, hhigh, Nat.or_comm, ← Nat.two_pow_add_eq_or_of_lt
    (Nat.mod_lt _ (by decide)), Nat.add_comm]

theorem voiceIndex_makeVoiceId {index generation : UInt32} (h : index.toNat < 2 ^ 20) :
    voiceIndex (makeVoiceId index generation) = index := by
  unfold voiceIndex
  apply UInt32.toNat_inj.mp
  have hmask : (makeVoiceId index generation).v.toNat &&& voiceIndexMask.toNat =
      (makeVoiceId index generation).v.toNat % 2 ^ 20 := Nat.and_two_pow_sub_one_eq_mod _ 20
  rw [UInt32.toNat_and, hmask, toNat_makeVoiceId]
  omega

/-- The generations that slots have. -/
def Generation (g : UInt32) : Prop := 0 < g.toNat ∧ g.toNat < 4096

theorem generation_one : Generation 1 := ⟨by decide, by decide⟩

theorem toNat_nextGeneration (g : UInt32) (h : Generation g) :
    (nextGeneration g).toNat = g.toNat % 4095 + 1 := by
  have hmask : ((g + 1) &&& voiceGenerationMask).toNat = (g.toNat + 1) % 4096 := by
    rw [UInt32.toNat_and, UInt32.toNat_add]
    have hand : (g.toNat + (1 : UInt32).toNat) % 2 ^ 32 &&& voiceGenerationMask.toNat =
        (g.toNat + (1 : UInt32).toNat) % 2 ^ 32 % 2 ^ 12 := Nat.and_two_pow_sub_one_eq_mod _ 12
    rw [hand]
    have hone : (1 : UInt32).toNat = 1 := rfl
    omega
  unfold nextGeneration
  rcases h with ⟨hpos, hlt⟩
  by_cases hzero : (g + 1) &&& voiceGenerationMask = 0
  · rw [if_pos hzero]
    rw [hzero] at hmask
    have hnil : (0 : UInt32).toNat = 0 := rfl
    have hone : (1 : UInt32).toNat = 1 := rfl
    omega
  · rw [if_neg hzero, hmask]
    have hne : (g.toNat + 1) % 4096 ≠ 0 := fun heq =>
      hzero (UInt32.toNat_inj.mp (hmask.trans heq))
    omega

variable {g : UInt32}

theorem Generation.next (h : Generation g) : Generation (nextGeneration g) := by
  unfold Generation
  rw [toNat_nextGeneration g h]
  omega

theorem Generation.iterate (h : Generation g) (n : Nat) :
    Generation (nextGeneration^[n] g) := by
  induction n generalizing g with
  | zero => exact h
  | succ n ih => exact ih h.next

/-- A slot has the generation it had after every 4095 frees, and not in between. -/
theorem iterate_nextGeneration (h : Generation g) (n : Nat) :
    (nextGeneration^[n] g).toNat = (g.toNat - 1 + n) % 4095 + 1 := by
  induction n generalizing g with
  | zero =>
      rcases h with ⟨hpos, hlt⟩
      rw [Function.iterate_zero_apply]
      omega
  | succ n ih =>
      rw [Function.iterate_succ_apply, ih h.next, toNat_nextGeneration g h]
      rcases h with ⟨hpos, hlt⟩
      omega

theorem iterate_nextGeneration_eq_self (h : Generation g) (n : Nat) :
    nextGeneration^[n] g = g ↔ 4095 ∣ n := by
  rw [← UInt32.toNat_inj, iterate_nextGeneration h]
  rcases h with ⟨hpos, hlt⟩
  omega

section

variable {V B F : Type} {new : List (Event V B)}

/-! ## What happens to the slots -/

def Event.frees (i : Nat) : Event V B → Bool
  | .freed j => j == i
  | _ => false

/-- How often a slot was freed. -/
def frees (i : Nat) (log : List (Event V B)) : Nat := log.countP (Event.frees i)

@[simp] theorem frees_append (i : Nat) (log new : List (Event V B)) :
    frees i (log ++ new) = frees i log + frees i new := List.countP_append

theorem frees_of_noneFreed {calls : List (Event V B)} (h : NoneFreed calls) (i : Nat) :
    frees i calls = 0 := by
  refine List.countP_eq_zero.mpr fun e he htrue => ?_
  cases e with
  | freed j =>
      simp only [Event.frees, beq_iff_eq] at htrue
      exact h j he
  | _ => simp [Event.frees] at htrue

theorem frees_freeCalls (i j : Nat) (slot : VoiceSlot V F) :
    frees (B := B) j (freeCalls i slot) = if i = j then 1 else 0 := by
  unfold frees freeCalls
  cases slot.voice with
  | none => by_cases hij : i = j <;> simp [Event.frees, hij]
  | some v => by_cases hij : i = j <;> simp [Event.frees, hij]

/-- A slot at two times, with the number of times it was freed in between. -/
structure Slot.Aged (n : Nat) (slot slot' : VoiceSlot V F) : Prop where
  generation : slot'.generation = nextGeneration^[n] slot.generation
  busy : n = 0 → slot.busy = true → slot'.busy = true

theorem Slot.Aged.refl (slot : VoiceSlot V F) : Slot.Aged 0 slot slot := ⟨rfl, fun _ h => h⟩

theorem Slot.Aged.trans {m n : Nat} {a b c : VoiceSlot V F} (h : Slot.Aged m a b)
    (h' : Slot.Aged n b c) : Slot.Aged (m + n) a c := by
  refine ⟨?_, fun hzero hbusy => h'.busy (by omega) (h.busy (by omega) hbusy)⟩
  rw [h'.generation, h.generation, Nat.add_comm, Function.iterate_add_apply]

/-- The slots at two times, with what the log has in between. New slots have a generation
    as slots have it. -/
structure Aged (before after : VoicePool V B F) (new : List (Event V B)) : Prop where
  log : after.log = before.log ++ new
  slots : ∀ (i : Nat) (slot : VoiceSlot V F), before.slots[i]? = some slot →
    ∃ slot', after.slots[i]? = some slot' ∧ Slot.Aged (frees i new) slot slot'
  fresh : ∀ (i : Nat) (slot : VoiceSlot V F), after.slots[i]? = some slot →
    before.slots[i]? = none → Generation slot.generation

theorem Aged.refl (pool : VoicePool V B F) : Aged pool pool [] :=
  ⟨(List.append_nil _).symm, fun _ slot h => ⟨slot, h, Slot.Aged.refl slot⟩,
    fun _ slot h hnone => absurd (h.symm.trans hnone) (Option.some_ne_none slot)⟩

theorem Aged.trans {a b c : VoicePool V B F} {new new' : List (Event V B)} (h : Aged a b new)
    (h' : Aged b c new') : Aged a c (new ++ new') := by
  refine ⟨by rw [h'.log, h.log, List.append_assoc], fun i slot hi => ?_,
    fun i slot hi hnone => ?_⟩
  · rcases h.slots i slot hi with ⟨slot₁, hi₁, haged⟩
    rcases h'.slots i slot₁ hi₁ with ⟨slot₂, hi₂, haged'⟩
    rw [frees_append]
    exact ⟨slot₂, hi₂, haged.trans haged'⟩
  · -- A slot that is new came with the first part, and has aged since, or with the second.
    cases hb : b.slots[i]? with
    | none => exact h'.fresh i slot hi hb
    | some slot₁ =>
        rcases h'.slots i slot₁ hb with ⟨slot₂, hi₂, haged⟩
        rw [hi, Option.some.injEq] at hi₂
        rw [hi₂, haged.generation]
        exact (h.fresh i slot₁ hb hnone).iterate _

/-- One slot is changed. -/
theorem aged_set (pool : VoicePool V B F) {i : Nat} {slot slot' : VoiceSlot V F}
    (hslot : pool.slots[i]? = some slot)
    (haged : Slot.Aged (frees i new) slot slot') (hothers : ∀ j, i ≠ j → frees j new = 0) :
    Aged pool (pool.next (pool.slots.set i slot') new) new := by
  have hlt := (List.getElem?_eq_some_iff.mp hslot).1
  refine ⟨rfl, fun j a hj => ?_, fun j a hj hnone => ?_⟩
  · by_cases hij : i = j
    · subst hij
      rw [hslot, Option.some.injEq] at hj
      exact ⟨slot', List.getElem?_set_self hlt, hj ▸ haged⟩
    · refine ⟨a, (List.getElem?_set_ne hij).trans hj, ?_⟩
      rw [hothers j hij]
      exact Slot.Aged.refl a
  · have hlen := (List.getElem?_eq_some_iff.mp hj).1
    have hge := List.getElem?_eq_none_iff.mp hnone
    simp only [VoicePool.next, List.length_set] at hlen
    omega

/-- Calls that free nothing. -/
theorem aged_calls (pool : VoicePool V B F) (h : NoneFreed new) :
    Aged pool (pool.next pool.slots new) new := by
  refine ⟨rfl, fun j a hj => ⟨a, hj, ?_⟩,
    fun j a hj hnone => absurd (hj.symm.trans hnone) (Option.some_ne_none a)⟩
  rw [frees_of_noneFreed h]
  exact Slot.Aged.refl a

theorem aged_set_keep (pool : VoicePool V B F) {i : Nat} {slot : VoiceSlot V F}
    (slot' : VoiceSlot V F) (hslot : pool.slots[i]? = some slot)
    (hgeneration : slot'.generation = slot.generation)
    (hbusy : slot.busy = true → slot'.busy = true)
    (h : NoneFreed new) : Aged pool (pool.next (pool.slots.set i slot') new) new := by
  refine aged_set pool hslot ?_ fun j _ => frees_of_noneFreed h j
  rw [frees_of_noneFreed h]
  exact ⟨hgeneration, fun _ => hbusy⟩

variable [Floating F]

theorem aged_release (pool : VoicePool V B F) (id : VoiceId) :
    ∃ new, Aged pool (pool.release id) new := by
  unfold VoicePool.release
  cases hslot : pool.resolve id with
  | none => exact ⟨[], Aged.refl pool⟩
  | some slot =>
      refine ⟨freeCalls (voiceIndex id).toNat slot,
        aged_set pool (resolve_getElem? hslot).2.1 ?_ fun j hj => ?_⟩
      · rw [frees_freeCalls, if_pos rfl]
        exact ⟨rfl, fun h => absurd h one_ne_zero⟩
      · rw [frees_freeCalls, if_neg hj]

omit [Floating F] in
theorem aged_adjust (engine : AudioEngine V B F) (id : VoiceId)
    (change : VoiceSlot V F → VoiceSlot V F)
    (hgeneration : ∀ slot, (change slot).generation = slot.generation)
    (hbusy : ∀ slot, (change slot).busy = slot.busy) (called : VoiceSlot V F → Bool) :
    ∃ new, Aged engine.pool (engine.adjust id change called).pool new := by
  unfold AudioEngine.adjust
  cases hslot : engine.pool.resolve id with
  | none => exact ⟨[], Aged.refl engine.pool⟩
  | some slot =>
      refine ⟨_, aged_set_keep engine.pool (change slot) (resolve_getElem? hslot).2.1
        (hgeneration slot) (fun h => (hbusy slot).trans h) fun j hj => ?_⟩
      by_cases hcalled : called slot = true
      · rw [if_pos hcalled] at hj
        rcases List.mem_map.mp hj with ⟨v, _, heq⟩
        exact absurd heq (by simp)
      · rw [if_neg hcalled] at hj
        exact absurd hj List.not_mem_nil

theorem reclaimSlots_aged (dev : Device V) (slots : List (VoiceSlot V F)) : ∀ k,
    (VoicePool.reclaimSlots (B := B) dev k slots).1.length = slots.length ∧
    (∀ j, j < k → frees j (VoicePool.reclaimSlots (B := B) dev k slots).2.1 = 0) ∧
    ∀ (i : Nat) (slot : VoiceSlot V F), slots[i]? = some slot →
      ∃ slot', (VoicePool.reclaimSlots (B := B) dev k slots).1[i]? = some slot' ∧
        Slot.Aged (frees (k + i) (VoicePool.reclaimSlots (B := B) dev k slots).2.1)
          slot slot' := by
  induction slots with
  | nil => exact fun k => ⟨rfl, fun _ _ => rfl, fun i slot hi => by simp at hi⟩
  | cons slot slots ih =>
      intro k
      rcases ih (k + 1) with ⟨hlen, hbelow, hrest⟩
      -- The slot itself is freed at most once, and no other with it.
      have hhead : ∀ j, frees j (VoicePool.reclaimSlot (B := B) dev k slot).2.1 =
          if k = j then frees k (VoicePool.reclaimSlot (B := B) dev k slot).2.1 else 0 := by
        intro j
        unfold VoicePool.reclaimSlot
        by_cases hbusy : slot.busy = true
        · rw [if_pos hbusy]
          cases hv : slot.voice with
          | none => simp [frees]
          | some v =>
              dsimp only
              by_cases hlooping : slot.looping = true
              · rw [if_pos hlooping]
                simp [frees]
              · rw [if_neg hlooping]
                by_cases hqueued : dev.buffersQueued v = 0
                · rw [if_pos hqueued]
                  have huse : ∀ j, frees (B := B) j (.use v :: freeCalls k slot) =
                      if k = j then 1 else 0 := fun j => by
                    rw [← frees_freeCalls (B := B) k j slot]
                    exact List.countP_cons_of_neg (by simp [Event.frees])
                  simp only [huse, if_true]
                · rw [if_neg hqueued]
                  simp [frees, Event.frees]
        · rw [if_neg hbusy]
          simp [frees]
      have haged : Slot.Aged (frees k (VoicePool.reclaimSlot (B := B) dev k slot).2.1) slot
          (VoicePool.reclaimSlot (B := B) dev k slot).1 := by
        unfold VoicePool.reclaimSlot
        by_cases hbusy : slot.busy = true
        · rw [if_pos hbusy]
          cases hv : slot.voice with
          | none => exact Slot.Aged.refl slot
          | some v =>
              dsimp only
              by_cases hlooping : slot.looping = true
              · rw [if_pos hlooping]
                exact Slot.Aged.refl slot
              · rw [if_neg hlooping]
                by_cases hqueued : dev.buffersQueued v = 0
                · rw [if_pos hqueued]
                  have hone : frees (B := B) k (.use v :: freeCalls k slot) = 1 := by
                    have := frees_freeCalls (B := B) k k slot
                    rw [if_pos rfl] at this
                    rw [← this]
                    exact List.countP_cons_of_neg (by simp [Event.frees])
                  rw [hone]
                  exact ⟨rfl, fun h => absurd h one_ne_zero⟩
                · rw [if_neg hqueued]
                  exact Slot.Aged.refl slot
        · rw [if_neg hbusy]
          exact Slot.Aged.refl slot
      simp only [VoicePool.reclaimSlots, frees_append, List.length_cons]
      refine ⟨by rw [hlen], fun j hj => ?_, fun i slot' hi => ?_⟩
      · rw [hhead, if_neg (by omega), hbelow j (by omega)]
      · cases i with
        | zero =>
            simp only [List.getElem?_cons_zero, Option.some.injEq] at hi
            refine ⟨_, rfl, ?_⟩
            rw [Nat.add_zero, hbelow k (by omega), Nat.add_zero, ← hi]
            exact haged
        | succ i =>
            rcases hrest i slot' hi with ⟨slot'', hi', haged'⟩
            refine ⟨slot'', hi', ?_⟩
            rw [hhead, if_neg (by omega), Nat.zero_add]
            have hindex : k + (i + 1) = k + 1 + i := by omega
            rw [hindex]
            exact haged'

/-! ## What the calls of a program do to the slots -/

/-- A voice is acquired for a slot that was not in use or that is new. -/
theorem acquire_aged (pool : VoicePool V B F) (dev : Device V) (format : WaveFormat)
    (destBus : Option B) : ∃ new, Aged pool (pool.acquire dev format destBus).2.2 new ∧
      ∀ v, (pool.acquire dev format destBus).2.1 = some v → ∃ i slot,
        (pool.acquire dev format destBus).1 = makeVoiceId (.ofNat i) slot.generation ∧
        (pool.acquire dev format destBus).2.2.slots[i]? = some slot ∧ slot.busy = true ∧
        ∀ old, pool.slots[i]? = some old → old.busy = false := by
  classical
  rcases acquire_cases pool dev format destBus with hnone | ⟨dest, calls, -, hfreed, hcases⟩
  · rw [hnone]
    exact ⟨[], Aged.refl pool, fun v hv => absurd hv.symm (Option.some_ne_none v)⟩
  · rcases hcases with ⟨i, slot, v, hslot, hbusy, -, -, -, heq⟩ | ⟨slots, i, slot, hslots, hslot,
      hbusy, -, heq⟩
    · have hlt := (List.getElem?_eq_some_iff.mp hslot).1
      rw [heq]
      refine ⟨calls, aged_set_keep pool { slot with busy := true, bus := .sfx } hslot rfl
        (fun _ => rfl) hfreed, fun w _ => ⟨i, { slot with busy := true, bus := .sfx }, rfl,
          List.getElem?_set_self hlt, rfl, fun old hold => ?_⟩⟩
      rw [hslot, Option.some.injEq] at hold
      exact hold ▸ hbusy
    · -- A pool that grew is as it was, with one slot more.
      have hgrown : Aged pool { pool with slots := slots } [] := by
        rcases hslots with rfl | rfl
        · exact Aged.refl pool
        · refine ⟨(List.append_nil _).symm, fun j a hj => ⟨a, ?_, Slot.Aged.refl a⟩,
            fun j a hj hnone => ?_⟩
          · rw [List.getElem?_append_left (List.getElem?_eq_some_iff.mp hj).1, hj]
          · have hge := List.getElem?_eq_none_iff.mp hnone
            rw [List.getElem?_append_right hge] at hj
            rw [List.mem_singleton.mp (List.mem_of_getElem? hj)]
            exact generation_one
      have hold : ∀ old, pool.slots[i]? = some old → old.busy = false := fun old hold => by
        rcases hslots with rfl | rfl
        · rw [hslot, Option.some.injEq] at hold
          exact hold ▸ hbusy
        · rw [List.getElem?_append_left (List.getElem?_eq_some_iff.mp hold).1, hold,
            Option.some.injEq] at hslot
          exact hslot ▸ hbusy
      have hlt := (List.getElem?_eq_some_iff.mp hslot).1
      have hdestroy : NoneFreed (calls ++ slot.voice.toList.map Event.destroyVoice) := by
        intro j hj
        rcases List.mem_append.mp hj with hj | hj
        · exact hfreed j hj
        · rcases List.mem_map.mp hj with ⟨v, _, hfalse⟩
          exact absurd hfalse (by simp)
      rw [heq]
      unfold VoicePool.recreate
      cases dev.createSourceVoice with
      | none =>
          have hset := aged_set_keep { pool with slots := slots } { slot with voice := none } hslot
            rfl (fun h => h) hdestroy
          exact ⟨_, hgrown.trans hset, fun v hv => absurd hv.symm (Option.some_ne_none v)⟩
      | some v =>
          have hcreate : NoneFreed (calls ++ slot.voice.toList.map Event.destroyVoice ++
              [.createSourceVoice v format dest]) := fun j hj => by
            rcases List.mem_append.mp hj with hj | hj
            · exact hdestroy j hj
            · exact absurd (List.mem_singleton.mp hj) (by simp)
          have hset := aged_set_keep { pool with slots := slots }
            { slot with voice := some v, format := format, busy := true, bus := .sfx } hslot rfl
            (fun _ => rfl) hcreate
          refine ⟨_, hgrown.trans hset, fun w _ => ⟨i,
            { slot with voice := some v, format := format, busy := true, bus := .sfx }, rfl,
            List.getElem?_set_self hlt, rfl, hold⟩⟩

/-- A handle that is returned is for a slot that was not in use or that is new. -/
theorem play_aged (engine : AudioEngine V B F) (dev : Device V) (clip : UInt32)
    (params : PlayParams F) : ∃ new, Aged engine.pool (engine.play dev clip params).2.pool new ∧
      ((engine.play dev clip params).1 = .null ∨ ∃ (i : Nat) (slot : VoiceSlot V F),
        (engine.play dev clip params).1 = makeVoiceId (.ofNat i) slot.generation ∧
        (engine.play dev clip params).2.isPlaying (engine.play dev clip params).1 = true ∧
        (∀ old, engine.pool.slots[i]? = some old → old.busy = false) ∧
        i < (engine.play dev clip params).2.pool.slots.length) := by
  rcases play_cases engine dev clip params with heq | ⟨wav, bus, id, voice, pool, -, hacquire,
    hcases⟩
  · rw [heq]
    exact ⟨[], Aged.refl engine.pool, .inl rfl⟩
  · rcases acquire_aged engine.pool dev wav.format (some bus) with ⟨new, haged, hvoice⟩
    rw [hacquire] at haged hvoice
    rcases hcases with heq | ⟨v, slot, hv, hslot, hcases⟩
    · rw [heq]
      exact ⟨new, haged, .inl rfl⟩
    · rcases resolve_getElem? hslot with ⟨hvalid, hget, hbusy, hgeneration⟩
      have hsubmitted : ∃ new, Aged engine.pool (submitted pool id slot v wav params bus) new :=
        ⟨_, haged.trans (aged_set_keep pool (AudioEngine.configure slot wav params) hget rfl
          (fun h => h) fun j hj => absurd (List.mem_singleton.mp hj) (by simp))⟩
      rcases hsubmitted with ⟨new₁, haged₁⟩
      have huses : NoneFreed ([.use v, .use v, .use v] : List (Event V B)) := fun j hj => by
        simp at hj
      have hstarted : ∃ new, Aged engine.pool
          (started (submitted pool id slot v wav params bus) v) new :=
        ⟨_, haged₁.trans (aged_calls (submitted pool id slot v wav params bus) huses)⟩
      rcases hstarted with ⟨new₂, haged₂⟩
      rcases hcases with heq | heq | heq
      · rw [heq]
        rcases aged_release (submitted pool id slot v wav params bus) id with ⟨new₃, haged₃⟩
        exact ⟨_, haged₁.trans haged₃, .inl rfl⟩
      · rw [heq]
        rcases aged_release (started (submitted pool id slot v wav params bus) v) id with
          ⟨new₃, haged₃⟩
        exact ⟨_, haged₂.trans haged₃, .inl rfl⟩
      · rw [heq]
        rcases hvoice v hv with ⟨i, slot', hid, hslot', -, hold⟩
        have hlt := (List.getElem?_eq_some_iff.mp hget).1
        have hlt' := (List.getElem?_eq_some_iff.mp hslot').1
        refine ⟨new₂, haged₂, .inr ⟨i, slot', hid, ?_, hold, ?_⟩⟩
        · -- The slot was set up and is still in use.
          unfold AudioEngine.isPlaying VoicePool.resolve started submitted
          rw [if_pos hvalid]
          simp only [VoicePool.next, List.getElem?_set_self hlt]
          rw [Option.filter_some, if_pos]
          · rfl
          · simp only [AudioEngine.configure, hbusy, hgeneration, Bool.true_and, beq_self_eq_true]
        · simpa [started, submitted, VoicePool.next] using hlt'

theorem perform_aged {engine : AudioEngine V B F} (h : Settled engine) (call : Call V B F)
    (hcall : call.isShutdown = false) :
    ∃ new, Aged engine.pool (engine.perform call).pool new := by
  cases call with
  | initializeEngine startup =>
      rw [AudioEngine.perform]
      unfold AudioEngine.initializeEngine
      by_cases hinit : engine.initialized = true
      · rw [if_pos hinit]
        exact ⟨[], Aged.refl engine.pool⟩
      · rw [if_neg hinit]
        -- An engine that does not run has no slots to lose.
        have hnil := h (Bool.eq_false_of_not_eq_true hinit)
        cases startup with
        | engineFailed => exact ⟨[], Aged.refl engine.pool⟩
        | partFailed =>
            refine ⟨_, rfl, fun i slot hi => ?_, fun i slot hi _ => ?_⟩
            · rw [hnil] at hi
              exact absurd hi.symm (Option.some_ne_none slot)
            · exact absurd hi.symm (Option.some_ne_none slot)
        | ready buses =>
            exact ⟨[], (List.append_nil _).symm, fun i slot hi => ⟨slot, hi, Slot.Aged.refl slot⟩,
              fun i slot hi hnone => absurd (hi.symm.trans hnone) (Option.some_ne_none slot)⟩
  | loadClip wav =>
      rw [AudioEngine.perform]
      unfold AudioEngine.loadClip
      cases engine.initialized with
      | false => exact ⟨[], Aged.refl engine.pool⟩
      | true =>
          cases wav with
          | none => exact ⟨[], Aged.refl engine.pool⟩
          | some clip => exact ⟨[], Aged.refl engine.pool⟩
  | play dev clip params =>
      rcases play_aged engine dev clip params with ⟨new, haged, -⟩
      exact ⟨new, haged⟩
  | stop id => exact aged_release engine.pool id
  | setVoiceVolume id volume =>
      exact aged_adjust engine id (fun slot => { slot with baseVolume := volume }) (fun _ => rfl)
        (fun _ => rfl) fun _ => true
  | setVoicePitch id pitch =>
      exact aged_adjust engine id (fun slot => { slot with basePitch := pitch }) (fun _ => rfl)
        (fun _ => rfl) fun slot => !slot.is3d
  | update dev =>
      rw [AudioEngine.perform]
      unfold AudioEngine.update
      by_cases hinit : engine.initialized = true
      · rw [if_pos hinit]
        rcases reclaimSlots_aged (B := B) dev engine.pool.slots 0 with ⟨hlen, -, hslots⟩
        have hreclaimed : Aged engine.pool (engine.pool.reclaimFinished dev).2
            (VoicePool.reclaimSlots dev 0 engine.pool.slots).2.1 := by
          refine ⟨rfl, fun i slot hi => ?_, fun i slot hi hnone => ?_⟩
          · rcases hslots i slot hi with ⟨slot', hi', haged⟩
            rw [Nat.zero_add] at haged
            exact ⟨slot', hi', haged⟩
          · have hlt := (List.getElem?_eq_some_iff.mp hi).1
            have hge := List.getElem?_eq_none_iff.mp hnone
            simp only [VoicePool.reclaimFinished, VoicePool.next, hlen] at hlt
            omega
        refine ⟨_, hreclaimed.trans (aged_calls _ fun j hj => ?_)⟩
        rcases List.mem_flatMap.mp hj with ⟨slot, -, hj⟩
        cases hcond : slot.busy && slot.is3d && (engine.busVoice slot.bus).isSome with
        | false =>
            rw [hcond, if_neg Bool.false_ne_true] at hj
            exact absurd hj List.not_mem_nil
        | true =>
            rw [hcond, if_pos rfl] at hj
            rcases List.mem_map.mp hj with ⟨v, -, hfalse⟩
            exact absurd hfalse (by simp)
      · rw [if_neg hinit]
        exact ⟨[], Aged.refl engine.pool⟩
  | shutdown => exact absurd hcall (Bool.false_ne_true ·.symm)

theorem run_aged (calls : List (Call V B F)) : ∀ engine : AudioEngine V B F, Settled engine →
    (∀ call ∈ calls, call.isShutdown = false) →
      ∃ new, Aged engine.pool (engine.run calls).pool new := by
  induction calls with
  | nil => exact fun engine _ _ => ⟨[], Aged.refl engine.pool⟩
  | cons call calls ih =>
      intro engine h hcalls
      rcases perform_aged h call (hcalls call List.mem_cons_self) with ⟨new, haged⟩
      rcases ih (engine.perform call) (h.perform call)
        fun c hc => hcalls c (List.mem_cons_of_mem call hc) with ⟨new', haged'⟩
      exact ⟨new ++ new', haged.trans haged'⟩

/-- Every slot has a generation as slots have it. -/
def Generations (pool : VoicePool V B F) : Prop :=
  ∀ (i : Nat) (slot : VoiceSlot V F), pool.slots[i]? = some slot → Generation slot.generation

omit [Floating F] in
theorem Aged.generations {before after : VoicePool V B F}
    (haged : Aged before after new) (h : Generations before) : Generations after := by
  intro i slot hi
  cases hb : before.slots[i]? with
  | none => exact haged.fresh i slot hi hb
  | some slot₁ =>
      rcases haged.slots i slot₁ hb with ⟨slot₂, hi₂, hslot⟩
      rw [hi, Option.some.injEq] at hi₂
      rw [hi₂, hslot.generation]
      exact (h i slot₁ hb).iterate _

theorem generations_run (calls : List (Call V B F)) : ∀ engine : AudioEngine V B F,
    Settled engine → Generations engine.pool → Generations (engine.run calls).pool := by
  induction calls with
  | nil => exact fun engine _ h => h
  | cons call calls ih =>
      intro engine hsettled h
      refine ih _ (hsettled.perform call) ?_
      cases hcall : call.isShutdown with
      | false =>
          rcases perform_aged hsettled call hcall with ⟨new, haged⟩
          exact haged.generations h
      | true =>
          cases call with
          | shutdown => exact fun i slot hi => absurd hi.symm (Option.some_ne_none slot)
          | _ => exact absurd hcall Bool.false_ne_true

omit [Floating F] in
/-- Whether a handle is good is decided by the use of its slot and how often that was freed. -/
theorem isPlaying_aged {before after : AudioEngine V B F}
    (haged : Aged before.pool after.pool new) (h : Generations before.pool) {id : VoiceId}
    (hplaying : before.isPlaying id = true) :
    (after.isPlaying id = true ↔
      (∃ slot, after.pool.slots[(voiceIndex id).toNat]? = some slot ∧ slot.busy = true) ∧
        4095 ∣ frees (voiceIndex id).toNat new) ∧
    (frees (voiceIndex id).toNat new = 0 → after.isPlaying id = true) := by
  unfold AudioEngine.isPlaying at hplaying ⊢
  rcases Option.isSome_iff_exists.mp hplaying with ⟨slot, hslot⟩
  rcases resolve_getElem? hslot with ⟨hvalid, hget, hbusy, hgeneration⟩
  rcases haged.slots _ slot hget with ⟨slot', hget', hslot'⟩
  have hsame : slot'.generation = voiceGeneration id ↔
      4095 ∣ frees (voiceIndex id).toNat new := by
    rw [hslot'.generation, ← hgeneration]
    exact iterate_nextGeneration_eq_self (h _ slot hget) _
  have hiff : (after.pool.resolve id).isSome = true ↔
      slot'.busy = true ∧ 4095 ∣ frees (voiceIndex id).toNat new := by
    unfold VoicePool.resolve
    rw [if_pos hvalid, hget', Option.filter_some, ← hsame]
    by_cases hgood : slot'.busy = true ∧ slot'.generation = voiceGeneration id
    · simp [hgood.1, hgood.2]
    · have hfalse : (slot'.busy && slot'.generation == voiceGeneration id) = false := by
        rw [← Bool.not_eq_true, Bool.and_eq_true, beq_iff_eq]
        exact hgood
      simp only [hfalse, Bool.false_eq_true, if_false, Option.isSome_none, false_iff]
      exact hgood
  refine ⟨?_, fun hzero => hiff.mpr ⟨hslot'.busy hzero hbusy, hzero ▸ dvd_zero 4095⟩⟩
  rw [hiff]
  refine and_congr_left fun _ => ⟨fun hb => ⟨slot', hget', hb⟩, fun ⟨a, ha, hb⟩ => ?_⟩
  rw [hget', Option.some.injEq] at ha
  exact ha ▸ hb

/-- A handle that `play` returns was not good before. From then on, until the engine is shut
    down, it is good if its slot is in use and was freed a multiple of 4095 times; so if it was
    freed less often, the handle is good if it was not freed at all. -/
theorem handle_life (before after : List (Call V B F)) (dev : Device V) (clip : UInt32)
    (params : PlayParams F) {id : VoiceId} {playing : AudioEngine V B F}
    (hplay : (AudioEngine.new.run before).play dev clip params = (id, playing))
    (hid : id ≠ .null) (hbits : playing.pool.slots.length ≤ 2 ^ 20)
    (hafter : ∀ call ∈ after, call.isShutdown = false) :
    (AudioEngine.new.run before).isPlaying id = false ∧
    ∃ new, (playing.run after).pool.log = playing.pool.log ++ new ∧
      ((playing.run after).isPlaying id = true ↔
        (∃ slot, (playing.run after).pool.slots[(voiceIndex id).toNat]? = some slot ∧
          slot.busy = true) ∧ 4095 ∣ frees (voiceIndex id).toNat new) ∧
      (frees (voiceIndex id).toNat new < 4095 →
        ((playing.run after).isPlaying id = true ↔ frees (voiceIndex id).toNat new = 0)) := by
  have hsettled := settled_run before (AudioEngine.new (V := V) (B := B) (F := F)) fun _ => rfl
  have hgenerations : Generations (AudioEngine.new.run before : AudioEngine V B F).pool :=
    generations_run before AudioEngine.new (fun _ => rfl)
      fun i slot hi => absurd hi.symm (Option.some_ne_none slot)
  rcases play_aged (AudioEngine.new.run before) dev clip params with ⟨new₁, haged₁, hcases⟩
  have hsettled' := hsettled.perform (.play dev clip params)
  rw [AudioEngine.perform] at hsettled'
  rw [hplay] at haged₁ hcases hsettled'
  rcases hcases with hnull | ⟨i, slot, hmake, hplaying, hold, hlt⟩
  · exact absurd hnull hid
  · refine ⟨?_, ?_⟩
    · -- The slot is the one that was acquired, as its number fits.
      have hfit : (UInt32.ofNat i).toNat = i := by
        rw [UInt32.toNat_ofNat']
        simp only at hlt
        omega
      have hindex : (voiceIndex id).toNat = i := by
        simp only at hmake hlt
        rw [hmake, voiceIndex_makeVoiceId (by omega), hfit]
      unfold AudioEngine.isPlaying
      rw [← Bool.not_eq_true, Option.isSome_iff_exists]
      rintro ⟨a, ha⟩
      rcases resolve_getElem? ha with ⟨-, hget, hbusy, -⟩
      rw [hindex] at hget
      rw [hold a hget] at hbusy
      exact Bool.false_ne_true hbusy
    · rcases run_aged after playing hsettled' hafter with ⟨new, haged⟩
      rcases isPlaying_aged haged (haged₁.generations hgenerations) hplaying with ⟨hiff, hzero⟩
      refine ⟨new, haged.log, hiff, fun hfew => ⟨fun hgood => ?_, hzero⟩⟩
      exact Nat.eq_zero_of_dvd_of_lt (hiff.mp hgood).2 hfew

end

/-! ### The handle of a short sound -/

/-- An engine with one clip. -/
def oneClip : List (Call Nat Bus Float32) :=
  [.initializeEngine (.ready id), .loadClip (some ⟨⟨1, 1, 48000, 96000, 2, 16, 0⟩, [0, 0]⟩)]

/-- A sound that does not repeat. -/
def short : PlayParams Float32 := ⟨.ui, 1, 1, false, none⟩

/-- The engine while the sound is played. -/
def shortPlaying : AudioEngine Nat Bus Float32 :=
  ((AudioEngine.new.run oneClip).play oneVoice 1 short).2

theorem short_life : (AudioEngine.new.run oneClip).isPlaying ⟨0x100000⟩ = false ∧
    ∃ new, (shortPlaying.run [.update oneVoice]).pool.log = shortPlaying.pool.log ++ new ∧
      ((shortPlaying.run [.update oneVoice]).isPlaying ⟨0x100000⟩ = true ↔
        (∃ slot, (shortPlaying.run [.update oneVoice]).pool.slots[
            (voiceIndex ⟨0x100000⟩).toNat]? = some slot ∧ slot.busy = true) ∧
          4095 ∣ frees (voiceIndex ⟨0x100000⟩).toNat new) ∧
      (frees (voiceIndex ⟨0x100000⟩).toNat new < 4095 →
        ((shortPlaying.run [.update oneVoice]).isPlaying ⟨0x100000⟩ = true ↔
          frees (voiceIndex ⟨0x100000⟩).toNat new = 0)) :=
  handle_life oneClip [.update oneVoice] oneVoice 1 short rfl (by decide)
    (Nat.le_of_ble_eq_true rfl) fun _ h => by rw [List.mem_singleton.mp h]; rfl

end Audio

end EarthRise
