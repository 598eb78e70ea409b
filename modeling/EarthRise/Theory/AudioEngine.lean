import EarthRise.Core.AudioEngine
import Mathlib.Algebra.Order.Ring.Nat
import Mathlib.Logic.Function.Iterate

/-!
# The Life of Voices

What the log of an engine says about the voices of the device. A voice may be asked for
something from when it is made until it is destroyed, and a sound may be sent to it that has
its format and is meant for its output (`follow`). The voices that there are, are those that
the slots hold, each in one slot; so an engine that was shut down has destroyed all that it
made, and none of them twice. The one thing asked of the device is that a voice it makes is
not one that is still there (`Honest`).

## Main definitions

* `follow`: The voices that there are after some calls, if all were allowed.
* `Owned`: The slots hold these voices.

## Theorems

* `voices_accounted`: No run of the engine breaks the rules or loses a voice.
-/

namespace EarthRise

namespace Audio

section

variable {V B F : Type} {slot : VoiceSlot V F}

/-! ## The rules of the device -/

/-- The voices that there are, with their formats and outputs. -/
abbrev Voices (V B : Type) := V → Option (WaveFormat × B)

section

variable [DecidableEq V] [DecidableEq B]

/-- What a call changes, or `none` if it is not allowed. -/
def Event.apply (live : Voices V B) : Event V B → Option (Voices V B)
  | .createSourceVoice v format sends => some (Function.update live v (some (format, sends)))
  | .setOutputVoices v sends done => (live v).map fun e =>
      if done then Function.update live v (some (e.1, sends)) else live
  | .submitSourceBuffer v format bus => (live v).bind fun e =>
      if formatMatches e.1 format = true ∧ e.2 = bus then some live else none
  | .use v => (live v).map fun _ => live
  | .destroyVoice v => (live v).map fun _ => Function.update live v none
  | .freed _ => some live

/-- The voices that there are after calls, or `none` if one was not allowed. -/
def follow (live : Voices V B) : List (Event V B) → Option (Voices V B)
  | [] => some live
  | e :: es => (e.apply live).bind fun live' => follow live' es

/-- The device makes no voice that is there already. -/
def Honest (live : Voices V B) : List (Event V B) → Prop
  | [] => True
  | e :: es =>
      (∀ v format sends, e = .createSourceVoice v format sends → live v = none) ∧
        ∀ live', e.apply live = some live' → Honest live' es

theorem follow_append (live : Voices V B) (es es' : List (Event V B)) :
    follow live (es ++ es') = (follow live es).bind fun live' => follow live' es' := by
  induction es generalizing live with
  | nil => rfl
  | cons e es ih =>
      simp only [List.cons_append, follow]
      cases e.apply live with
      | none => rfl
      | some live' => exact ih live'

theorem follow_append_of {live live' : Voices V B} {es es' : List (Event V B)}
    (h : follow live es = some live') : follow live (es ++ es') = follow live' es' := by
  rw [follow_append, h]
  rfl

theorem Honest.append {live : Voices V B} {es es' : List (Event V B)}
    (h : Honest live (es ++ es')) :
    Honest live es ∧ ∀ live', follow live es = some live' → Honest live' es' := by
  induction es generalizing live with
  | nil => exact ⟨trivial, fun live' hlive => by
      rw [follow, Option.some.injEq] at hlive
      exact hlive ▸ h⟩
  | cons e es ih =>
      refine ⟨⟨h.1, fun live' hlive => (ih (h.2 live' hlive)).1⟩, fun live' hlive => ?_⟩
      rw [follow, Option.bind_eq_some_iff] at hlive
      rcases hlive with ⟨live₁, hfirst, hrest⟩
      exact (ih (h.2 live₁ hfirst)).2 live' hrest

end

/-! ## Slots and the voices they hold -/

/-- The voices of slots, with the formats that they were made for. -/
def made (slots : List (VoiceSlot V F)) : List (Option V × WaveFormat) :=
  slots.map fun slot => (slot.voice, slot.format)

/-- The voices that there are, are those of a list, each once. -/
structure Owned (l : List (Option V × WaveFormat)) (live : Voices V B) : Prop where
  distinct : ∀ (i j : Nat) (v : V) (f g : WaveFormat), l[i]? = some (some v, f) → l[j]? = some (some v, g) → i = j
  held : ∀ (i : Nat) (v : V) (f : WaveFormat), l[i]? = some (some v, f) →
    ∃ b, live v = some (f, b)
  owner : ∀ v e, live v = some e → ∃ (i : Nat) (f : WaveFormat), l[i]? = some (some v, f)

theorem made_getElem? {slots : List (VoiceSlot V F)} {i : Nat}
    (h : slots[i]? = some slot) : (made slots)[i]? = some (slot.voice, slot.format) := by
  unfold made
  rw [List.getElem?_map, h]
  rfl

/-- A change of a slot that leaves it its voice. -/
theorem made_set {slots : List (VoiceSlot V F)} {i : Nat}
    (slot' : VoiceSlot V F) (h : slots[i]? = some slot) (hvoice : slot'.voice = slot.voice)
    (hformat : slot'.format = slot.format) : made (slots.set i slot') = made slots := by
  unfold made
  rw [List.map_set, hvoice, hformat]
  refine List.ext_getElem? fun j => ?_
  by_cases hij : i = j
  · subst hij
    rw [List.getElem?_set_self', List.getElem?_map, h]
    rfl
  · rw [List.getElem?_set_ne hij]

theorem Owned.append_default {l : List (Option V × WaveFormat)} {live : Voices V B}
    (h : Owned l live) (format : WaveFormat) : Owned (l ++ [(none, format)]) live := by
  have hold : ∀ (i : Nat) (v : V) (f : WaveFormat),
      (l ++ [(none, format)])[i]? = some (some v, f) → l[i]? = some (some v, f) := by
    intro i v f hi
    rcases Nat.lt_or_ge i l.length with hlt | hge
    · rwa [List.getElem?_append_left hlt] at hi
    · rw [List.getElem?_append_right hge] at hi
      cases hk : i - l.length with
      | zero => simp [hk] at hi
      | succ k => simp [hk] at hi
  refine ⟨fun i j v f g hi hj => h.distinct i j v f g (hold i v f hi) (hold j v g hj),
    fun i v f hi => h.held i v f (hold i v f hi), fun v e hv => ?_⟩
  rcases h.owner v e hv with ⟨i, f, hi⟩
  exact ⟨i, f, by rw [List.getElem?_append_left (List.getElem?_eq_some_iff.mp hi).1, hi]⟩

section

variable [DecidableEq V] {l : List (Option V × WaveFormat)}

/-- A slot without a voice gets a new one. -/
theorem Owned.create {live : Voices V B} (h : Owned l live)
    {i : Nat} {v : V} {f : WaveFormat} (format : WaveFormat) (sends : B)
    (hi : l[i]? = some (none, f))
    (hnew : live v = none) :
    Owned (l.set i (some v, format)) (Function.update live v (some (format, sends))) := by
  have hlt := (List.getElem?_eq_some_iff.mp hi).1
  -- No slot holds the new voice yet.
  have hfree : ∀ (j : Nat) (g : WaveFormat), l[j]? ≠ some (some v, g) := fun j g hj => by
    rcases h.held j v g hj with ⟨b, hb⟩
    rw [hnew] at hb
    exact absurd hb.symm (Option.some_ne_none _)
  have hget : ∀ (j : Nat) (w : V) (g : WaveFormat), (l.set i (some v, format))[j]? = some (some w, g) →
      (j = i ∧ w = v ∧ g = format) ∨ (j ≠ i ∧ w ≠ v ∧ l[j]? = some (some w, g)) := by
    intro j w g hj
    by_cases hij : i = j
    · subst hij
      rw [List.getElem?_set_self hlt, Option.some.injEq, Prod.mk.injEq, Option.some.injEq] at hj
      exact .inl ⟨rfl, hj.1.symm, hj.2.symm⟩
    · rw [List.getElem?_set_ne hij] at hj
      exact .inr ⟨fun heq => hij heq.symm, fun heq => hfree j g (heq ▸ hj), hj⟩
  refine ⟨fun j k w g g' hj hk => ?_, fun j w g hj => ?_, fun w e hw => ?_⟩
  · rcases hget j w g hj with ⟨rfl, hw, -⟩ | ⟨-, hw, hj⟩
    · rcases hget k w g' hk with ⟨rfl, -, -⟩ | ⟨-, hne, -⟩
      · rfl
      · exact absurd hw hne
    · rcases hget k w g' hk with ⟨-, heq, -⟩ | ⟨-, -, hk⟩
      · exact absurd heq hw
      · exact h.distinct j k w g g' hj hk
  · rcases hget j w g hj with ⟨-, rfl, rfl⟩ | ⟨-, hw, hj⟩
    · exact ⟨sends, Function.update_self ..⟩
    · rw [Function.update_of_ne hw]
      exact h.held j w g hj
  · by_cases hwv : w = v
    · exact ⟨i, format, by rw [hwv, List.getElem?_set_self hlt]⟩
    · rw [Function.update_of_ne hwv] at hw
      rcases h.owner w e hw with ⟨j, g, hj⟩
      refine ⟨j, g, ?_⟩
      have hij : i ≠ j := fun heq => by
        subst heq
        rw [hi] at hj
        simp at hj
      rw [List.getElem?_set_ne hij, hj]

/-- A slot loses its voice. -/
theorem Owned.destroy {live : Voices V B} (h : Owned l live)
    {i : Nat} {v : V} {f : WaveFormat} (hi : l[i]? = some (some v, f)) (format : WaveFormat) :
    Owned (l.set i (none, format)) (Function.update live v none) := by
  have hlt := (List.getElem?_eq_some_iff.mp hi).1
  have hget : ∀ (j : Nat) (w : V) (g : WaveFormat), (l.set i (none, format))[j]? = some (some w, g) →
      j ≠ i ∧ l[j]? = some (some w, g) := by
    intro j w g hj
    by_cases hij : i = j
    · subst hij
      rw [List.getElem?_set_self hlt] at hj
      simp at hj
    · rw [List.getElem?_set_ne hij] at hj
      exact ⟨fun heq => hij heq.symm, hj⟩
  refine ⟨fun j k w g g' hj hk => h.distinct j k w g g' (hget j w g hj).2 (hget k w g' hk).2,
    fun j w g hj => ?_, fun w e hw => ?_⟩
  · rcases hget j w g hj with ⟨hji, hj⟩
    have hw : w ≠ v := fun heq => hji (h.distinct j i v g f (heq ▸ hj) hi)
    rw [Function.update_of_ne hw]
    exact h.held j w g hj
  · by_cases hwv : w = v
    · rw [hwv, Function.update_self] at hw
      exact absurd hw.symm (Option.some_ne_none _)
    · rw [Function.update_of_ne hwv] at hw
      rcases h.owner w e hw with ⟨j, g, hj⟩
      refine ⟨j, g, ?_⟩
      have hij : i ≠ j := fun heq => by
        subst heq
        rw [hi, Option.some.injEq, Prod.mk.injEq, Option.some.injEq] at hj
        exact hwv hj.1.symm
      rw [List.getElem?_set_ne hij, hj]

/-- A voice gets another output. -/
theorem Owned.reroute {live : Voices V B} (h : Owned l live)
    {i : Nat} {v : V} {f : WaveFormat} (hi : l[i]? = some (some v, f)) (sends : B) :
    Owned l (Function.update live v (some (f, sends))) := by
  refine ⟨h.distinct, fun j w g hj => ?_, fun w e hw => ?_⟩
  · by_cases hwv : w = v
    · subst hwv
      have hij := h.distinct j i w g f hj hi
      rw [hij, hi, Option.some.injEq, Prod.mk.injEq] at hj
      exact ⟨sends, by rw [Function.update_self, hj.2]⟩
    · rw [Function.update_of_ne hwv]
      exact h.held j w g hj
  · by_cases hwv : w = v
    · exact ⟨i, f, hwv ▸ hi⟩
    · rw [Function.update_of_ne hwv] at hw
      exact h.owner w e hw

end

/-! ## Allowed calls -/

/-- Calls that change nothing about the voices. -/
def Quiet (live : Voices V B) (calls : List (Event V B)) : Prop :=
  ∀ e ∈ calls, (∃ i, e = .freed i) ∨ ∃ v b, e = .use v ∧ live v = some b

theorem quiet_freeCalls {live : Voices V B}
    (h : ∀ v, slot.voice = some v → ∃ b, live v = some b) (i : Nat) :
    Quiet live (freeCalls i slot) := by
  unfold freeCalls
  cases hv : slot.voice with
  | none => exact fun e he => .inl ⟨i, List.mem_singleton.mp he⟩
  | some v =>
      rcases h v hv with ⟨b, hb⟩
      intro e he
      rcases List.mem_cons.mp he with rfl | he
      · exact .inr ⟨v, b, rfl, hb⟩
      · rcases List.mem_cons.mp he with rfl | he
        · exact .inr ⟨v, b, rfl, hb⟩
        · exact .inl ⟨i, List.mem_singleton.mp he⟩

theorem resolve_getElem? {pool : VoicePool V B F} {id : VoiceId}
    (h : pool.resolve id = some slot) : id.valid = true ∧
      pool.slots[(voiceIndex id).toNat]? = some slot ∧ slot.busy = true ∧
      slot.generation = voiceGeneration id := by
  unfold VoicePool.resolve at h
  by_cases hvalid : id.valid = true
  · rw [if_pos hvalid, Option.filter_eq_some_iff, Bool.and_eq_true, beq_iff_eq] at h
    exact ⟨hvalid, h⟩
  · rw [if_neg hvalid] at h
    exact absurd h.symm (Option.some_ne_none _)

theorem reclaimSlots_spec [Floating F] (dev : Device V) {live : Voices V B} (slots : List (VoiceSlot V F)) :
    ∀ i, (∀ slot ∈ slots, ∀ v, slot.voice = some v → ∃ b, live v = some b) →
      Quiet live (VoicePool.reclaimSlots dev i slots).2.1 ∧
      made (VoicePool.reclaimSlots (B := B) dev i slots).1 = made slots := by
  induction slots with
  | nil => exact fun i _ => ⟨fun e he => absurd he List.not_mem_nil, rfl⟩
  | cons slot slots ih =>
      intro i hvoices
      rcases ih (i + 1) fun slot' hslot' => hvoices slot' (List.mem_cons_of_mem slot hslot') with
        ⟨hquiet, hmade⟩
      have hfree : Quiet live (freeCalls (B := B) i slot) :=
        quiet_freeCalls (hvoices slot List.mem_cons_self) i
      have hhead : Quiet live (VoicePool.reclaimSlot dev i slot).2.1 ∧
          (VoicePool.reclaimSlot (B := B) dev i slot).1.voice = slot.voice ∧
          (VoicePool.reclaimSlot (B := B) dev i slot).1.format = slot.format := by
        have hnone : Quiet live ([] : List (Event V B)) := fun e he => absurd he List.not_mem_nil
        unfold VoicePool.reclaimSlot
        by_cases hbusy : slot.busy = true
        · rw [if_pos hbusy]
          cases hv : slot.voice with
          | none => exact ⟨hnone, hv, rfl⟩
          | some v =>
              rcases hvoices slot List.mem_cons_self v hv with ⟨b, hb⟩
              dsimp only
              by_cases hlooping : slot.looping = true
              · rw [if_pos hlooping]
                exact ⟨hnone, hv, rfl⟩
              · rw [if_neg hlooping]
                by_cases hqueued : dev.buffersQueued v = 0
                · rw [if_pos hqueued]
                  refine ⟨fun e he => ?_, hv, rfl⟩
                  rcases List.mem_cons.mp he with rfl | he
                  · exact .inr ⟨v, b, rfl, hb⟩
                  · exact hfree e he
                · rw [if_neg hqueued]
                  exact ⟨fun e he => .inr ⟨v, b, List.mem_singleton.mp he, hb⟩, hv, rfl⟩
        · rw [if_neg hbusy]
          exact ⟨hnone, rfl, rfl⟩
      refine ⟨fun e he => ?_, ?_⟩
      · rcases List.mem_append.mp he with he | he
        · exact hhead.1 e he
        · exact hquiet e he
      · unfold made at hmade ⊢
        simp only [VoicePool.reclaimSlots, List.map_cons, hmade, hhead.2.1, hhead.2.2]

section

variable [DecidableEq V] [DecidableEq B]

/-- All calls were allowed, and the slots hold the voices that there are. -/
structure Accounted (pool : VoicePool V B F) (live : Voices V B) : Prop where
  allowed : follow (fun _ => none) pool.log = some live
  owned : Owned (made pool.slots) live

theorem Quiet.follow {live : Voices V B} {calls : List (Event V B)} (h : Quiet live calls) :
    follow live calls = some live := by
  induction calls with
  | nil => rfl
  | cons e calls ih =>
      have hrest := ih fun e' he' => h e' (List.mem_cons_of_mem e he')
      rcases h e List.mem_cons_self with ⟨i, rfl⟩ | ⟨v, b, rfl, hv⟩
      · exact hrest
      · simp only [Audio.follow, Event.apply, hv, Option.map_some, Option.bind_some]
        exact hrest

theorem Accounted.next {pool : VoicePool V B F} {live live' : Voices V B}
    (h : Accounted pool live) {slots : List (VoiceSlot V F)} {calls : List (Event V B)}
    (hcalls : follow live calls = some live') (howned : Owned (made slots) live') :
    Accounted (pool.next slots calls) live' :=
  ⟨(follow_append_of h.allowed).trans hcalls, howned⟩

/-- The voice of a slot is there. -/
theorem Accounted.voice {pool : VoicePool V B F} {live : Voices V B} (h : Accounted pool live)
    {slot : VoiceSlot V F} (hslot : slot ∈ pool.slots) {v : V} (hv : slot.voice = some v) :
    ∃ b, live v = some b := by
  rcases List.getElem?_of_mem hslot with ⟨i, hi⟩
  rcases h.owned.held i v slot.format (by rw [made_getElem? hi, hv]) with ⟨b, hb⟩
  exact ⟨_, hb⟩

/-- Changing what a slot is played with, with calls for its voice. -/
theorem Accounted.change {pool : VoicePool V B F} {live : Voices V B} (h : Accounted pool live)
    {id : VoiceId} {slot : VoiceSlot V F} (slot' : VoiceSlot V F)
    (hslot : pool.resolve id = some slot) (hvoice : slot'.voice = slot.voice) (hformat : slot'.format = slot.format)
    {calls : List (Event V B)} (hcalls : follow live calls = some live) :
    Accounted (pool.next (pool.slots.set (voiceIndex id).toNat slot') calls) live := by
  refine h.next hcalls ?_
  rw [made_set slot' (resolve_getElem? hslot).2.1 hvoice hformat]
  exact h.owned

/-- A shutdown destroys every voice there is. -/
theorem follow_shutdown (slots : List (VoiceSlot V F)) : ∀ live : Voices V B,
    Owned (made slots) live →
      follow live (slots.flatMap fun slot =>
        match slot.voice with
        | none => []
        | some v => [.use v, .use v, .destroyVoice v]) = some (fun _ => none) := by
  induction slots with
  | nil =>
      intro live h
      simp only [List.flatMap_nil, follow, Option.some.injEq]
      funext v
      cases hv : live v with
      | none => rfl
      | some e =>
          rcases h.owner v e hv with ⟨i, f, hi⟩
          simp [made] at hi
  | cons slot slots ih =>
      intro live h
      rw [List.flatMap_cons]
      have hcons : made (slot :: slots) = (slot.voice, slot.format) :: made slots := rfl
      cases hvoice : slot.voice with
      | none =>
          rw [hcons, hvoice] at h
          refine ih live ⟨fun i j v f g hi hj => ?_, fun i v f hi => h.held (i + 1) v f hi,
            fun v e hv => ?_⟩
          · exact Nat.succ.inj (h.distinct (i + 1) (j + 1) v f g hi hj)
          · rcases h.owner v e hv with ⟨i, f, hi⟩
            cases i with
            | zero => simp at hi
            | succ i => exact ⟨i, f, hi⟩
      | some v =>
          rw [hcons, hvoice] at h
          rcases h.held 0 v slot.format rfl with ⟨b, hb⟩
          -- The others hold the voices that are left.
          have hrest : Owned (made slots) (Function.update live v none) := by
            have hset := h.destroy (i := 0) (v := v) rfl slot.format
            rw [List.set_cons_zero] at hset
            refine ⟨fun i j w f g hi hj => ?_, fun i w f hi => hset.held (i + 1) w f hi,
              fun w e hw => ?_⟩
            · exact Nat.succ.inj (hset.distinct (i + 1) (j + 1) w f g hi hj)
            · rcases hset.owner w e hw with ⟨i, f, hi⟩
              cases i with
              | zero => simp at hi
              | succ i => exact ⟨i, f, hi⟩
          simp only [List.cons_append, List.nil_append, follow, Event.apply, hb, Option.map_some,
            Option.bind_some]
          exact ih _ hrest

end

/-! ## Acquiring a voice -/

/-- A slot that is not in use. -/
def Free (slots : List (VoiceSlot V F)) (i : Nat) : Prop :=
  ∃ slot, slots[i]? = some slot ∧ slot.busy = false

/-- No slot is freed by these calls. -/
def NoneFreed (calls : List (Event V B)) : Prop := ∀ i, Event.freed i ∉ calls

section

variable [DecidableEq V] [DecidableEq B]

open VoicePool (Search search)

/-- The loop through the slots: a free one with a voice that now sends to the output, or none,
    and then a free one that may be used otherwise. -/
theorem search_spec (dev : Device V) (format : WaveFormat) (destBus : B)
    (whole slots : List (VoiceSlot V F)) :
    ∀ (pre : List (VoiceSlot V F)) (acc : Search V B), whole = pre ++ slots → acc.found = none →
      (∀ j, acc.voiceless = some j ∨ acc.mismatch = some j → Free whole j) →
      ∃ new, (search dev format destBus pre.length slots acc).calls = acc.calls ++ new ∧
        NoneFreed new ∧
        (((search dev format destBus pre.length slots acc).found = none ∧
          (∀ live, Owned (made whole) live → follow live new = some live) ∧
          ∀ j, (search dev format destBus pre.length slots acc).voiceless = some j ∨
            (search dev format destBus pre.length slots acc).mismatch = some j → Free whole j) ∨
        ∃ i slot v, (search dev format destBus pre.length slots acc).found = some i ∧
          whole[i]? = some slot ∧ slot.busy = false ∧ slot.voice = some v ∧
          formatMatches slot.format format = true ∧
          ∀ live, Owned (made whole) live →
            follow live new = some (Function.update live v (some (slot.format, destBus)))) := by
  induction slots with
  | nil =>
      intro pre acc _ hfound hfree
      exact ⟨[], (List.append_nil _).symm, fun i hi => absurd hi List.not_mem_nil,
        .inl ⟨hfound, fun _ _ => rfl, hfree⟩⟩
  | cons slot slots ih =>
      intro pre acc hwhole hfound hfree
      have hwhole' : whole = (pre ++ [slot]) ++ slots := by rw [hwhole]; simp
      have hlen : (pre ++ [slot]).length = pre.length + 1 := by simp
      have hslot : whole[pre.length]? = some slot := by rw [hwhole]; simp
      unfold search
      by_cases hbusy : slot.busy = true
      · rw [if_pos hbusy, ← hlen]
        exact ih (pre ++ [slot]) acc hwhole' hfound hfree
      · rw [if_neg hbusy, ← hlen]
        have hbusy' := Bool.eq_false_of_not_eq_true hbusy
        -- A slot that is passed over may become the one to use otherwise.
        have hor : ∀ (o : Option Nat) j, o.or (some pre.length) = some j →
            o = some j ∨ Free whole j := fun o j ho => by
          cases o with
          | none =>
              rw [Option.none_or, Option.some.injEq] at ho
              exact .inr ⟨slot, ho ▸ hslot, hbusy'⟩
          | some k => exact .inl ho
        cases hvoice : slot.voice with
        | none =>
            refine ih (pre ++ [slot]) _ hwhole' hfound fun j hj => ?_
            rcases hj with hj | hj
            · exact (hor _ j hj).elim (fun h => hfree j (.inl h)) id
            · exact hfree j (.inr hj)
        | some v =>
            dsimp only
            by_cases hformat : formatMatches slot.format format = true
            · rw [if_pos hformat]
              -- The voice of a slot is there, so it may be asked for another output.
              have hthere : ∀ live : Voices V B, Owned (made whole) live →
                  ∃ b, live v = some (slot.format, b) := fun live hlive =>
                hlive.held pre.length v slot.format (by rw [made_getElem? hslot, hvoice])
              by_cases hdone : dev.setOutputVoices v = true
              · simp only [hdone, if_true]
                refine ⟨[.setOutputVoices v destBus true], rfl, fun i => by simp, .inr
                  ⟨pre.length, slot, v, rfl, hslot, hbusy', hvoice, hformat, fun live hlive => ?_⟩⟩
                rcases hthere live hlive with ⟨b, hb⟩
                simp only [follow, Event.apply, hb, Option.map_some, if_true, Option.bind_some]
              · have hdone' := Bool.eq_false_of_not_eq_true hdone
                simp only [hdone', Bool.false_eq_true, if_false]
                rcases ih (pre ++ [slot])
                  { acc with calls := acc.calls ++ [.setOutputVoices v destBus false] } hwhole'
                  hfound hfree with ⟨new, hcalls, hfreed, hcases⟩
                -- The call that failed changed nothing.
                have hskip : ∀ live, Owned (made whole) live →
                    follow live (.setOutputVoices v destBus false :: new) = follow live new := by
                  intro live hlive
                  rcases hthere live hlive with ⟨b, hb⟩
                  simp only [follow, Event.apply, hb, Option.map_some, Bool.false_eq_true,
                    if_false, Option.bind_some]
                refine ⟨.setOutputVoices v destBus false :: new, ?_, fun i hi => ?_, ?_⟩
                · rw [hcalls, List.append_assoc]
                  rfl
                · rcases List.mem_cons.mp hi with heq | hi
                  · exact absurd heq (by simp)
                  · exact hfreed i hi
                · rcases hcases with ⟨hnone, hfollow, htarget⟩ | ⟨i, slot', w, hsome, hslot', hfree',
                    hw, hformat', hfollow⟩
                  · exact .inl ⟨hnone, fun live hlive => (hskip live hlive).trans
                      (hfollow live hlive), htarget⟩
                  · exact .inr ⟨i, slot', w, hsome, hslot', hfree', hw, hformat',
                      fun live hlive => (hskip live hlive).trans (hfollow live hlive)⟩
            · rw [if_neg hformat]
              refine ih (pre ++ [slot]) _ hwhole' hfound fun j hj => ?_
              rcases hj with hj | hj
              · exact hfree j (.inl hj)
              · exact (hor _ j hj).elim (fun h => hfree j (.inr h)) id

variable [Floating F]

/-- What acquiring a voice does: nothing, a free slot with its voice, or a free or new slot
    that gets a voice made. -/
theorem acquire_cases (pool : VoicePool V B F) (dev : Device V) (format : WaveFormat)
    (destBus : Option B) : pool.acquire dev format destBus = (.null, none, pool) ∨
    (∃ dest calls, destBus = some dest ∧ NoneFreed calls ∧
      ((∃ i slot v, pool.slots[i]? = some slot ∧ slot.busy = false ∧ slot.voice = some v ∧
        formatMatches slot.format format = true ∧
        (∀ live, Owned (made pool.slots) live →
          follow live calls = some (Function.update live v (some (slot.format, dest)))) ∧
        pool.acquire dev format destBus = (makeVoiceId (.ofNat i) slot.generation, some v,
          pool.next (pool.slots.set i { slot with busy := true, bus := .sfx }) calls)) ∨
      ∃ slots i slot, (slots = pool.slots ∨ slots = pool.slots ++ [.default]) ∧
        slots[i]? = some slot ∧ slot.busy = false ∧
        (∀ live, Owned (made pool.slots) live → follow live calls = some live) ∧
        pool.acquire dev format destBus =
          VoicePool.recreate { pool with slots := slots } dev format dest i slot calls)) := by
  cases hengine : pool.engine with
  | false =>
      left
      unfold VoicePool.acquire
      rw [hengine]
  | true =>
      cases hdest : destBus with
      | none =>
          left
          unfold VoicePool.acquire
          rw [hengine]
      | some dest =>
          right
          rcases search_spec dev format dest pool.slots pool.slots [] ⟨none, none, none, []⟩ rfl rfl
            (fun j hj => by simp at hj) with ⟨new, hcalls, hfreed, hcases⟩
          rw [List.nil_append] at hcalls
          rw [List.length_nil] at hcalls hcases
          unfold VoicePool.acquire
          rw [hengine]
          simp only
          refine ⟨dest, new, rfl, hfreed, ?_⟩
          rcases hcases with ⟨hfound, hfollow, htarget⟩ | ⟨i, slot, v, hfound, hslot, hbusy,
            hvoice, hformat, hfollow⟩
          · right
            rw [hfound, hcalls]
            cases ho : (search dev format dest 0 pool.slots ⟨none, none, none, []⟩).voiceless.or
                (search dev format dest 0 pool.slots ⟨none, none, none, []⟩).mismatch with
            | none =>
                exact ⟨pool.slots ++ [.default], pool.slots.length, .default, .inr rfl, by simp,
                  rfl, hfollow, rfl⟩
            | some j =>
                rcases htarget j (Option.or_eq_some_iff.mp ho |>.imp id fun h => h.2) with
                  ⟨slot, hslot, hbusy⟩
                refine ⟨pool.slots, j, slot, .inl rfl, hslot, hbusy, hfollow, ?_⟩
                simp only [Option.bind_none, Option.bind_some, hslot, Option.map_some]
                rw [← hengine]
          · left
            refine ⟨i, slot, v, hslot, hbusy, hvoice, hformat, hfollow, ?_⟩
            rw [hfound, hcalls]
            simp only [Option.bind_some, hslot, Option.map_some, hvoice]

/-! ## What the operations do with the voices -/

theorem Accounted.release {pool : VoicePool V B F} {live : Voices V B} (h : Accounted pool live)
    (id : VoiceId) : Accounted (pool.release id) live := by
  unfold VoicePool.release
  cases hslot : pool.resolve id with
  | none => exact h
  | some slot =>
      have hget := (resolve_getElem? hslot).2.1
      have hquiet : Quiet live (freeCalls (B := B) (voiceIndex id).toNat slot) :=
        quiet_freeCalls (fun v hv => h.voice (List.mem_of_getElem? hget) hv) _
      refine h.next hquiet.follow ?_
      rw [made_set (freeSlotState slot) hget rfl rfl]
      exact h.owned

omit [Floating F] in
/-- A slot that is not in use gets a voice made. -/
theorem Accounted.recreate {pool : VoicePool V B F} {live : Voices V B} (h : Accounted pool live)
    {dev : Device V} {format : WaveFormat} {dest : B} {i : Nat} {slot : VoiceSlot V F}
    {calls : List (Event V B)} (hslot : pool.slots[i]? = some slot)
    (hcalls : follow live calls = some live)
    (honest : Honest (fun _ => none)
      (VoicePool.recreate pool dev format dest i slot calls).2.2.log) :
    ∃ live', Accounted (VoicePool.recreate pool dev format dest i slot calls).2.2 live' ∧
      ∀ v, (VoicePool.recreate pool dev format dest i slot calls).2.1 = some v →
        live' v = some (format, dest) := by
  have hlt := (List.getElem?_eq_some_iff.mp hslot).1
  have hget := made_getElem? hslot
  -- The voice that the slot has is destroyed.
  have hdestroy : ∃ live₁, follow live (calls ++ slot.voice.toList.map Event.destroyVoice) =
      some live₁ ∧ Owned ((made pool.slots).set i (none, slot.format)) live₁ := by
    rw [follow_append_of hcalls]
    cases hvoice : slot.voice with
    | none =>
        refine ⟨live, rfl, ?_⟩
        rw [hvoice] at hget
        have hsame : (made pool.slots).set i (none, slot.format) = made pool.slots := by
          refine List.ext_getElem? fun j => ?_
          by_cases hij : i = j
          · subst hij
            rw [List.getElem?_set_self', hget]
            rfl
          · rw [List.getElem?_set_ne hij]
        rw [hsame]
        exact h.owned
    | some v =>
        rw [hvoice] at hget
        rcases h.owned.held i v slot.format hget with ⟨b, hb⟩
        refine ⟨Function.update live v none, ?_, h.owned.destroy hget slot.format⟩
        simp only [Option.toList_some, List.map_cons, List.map_nil, follow, Event.apply, hb,
          Option.map_some, Option.bind_some]
  rcases hdestroy with ⟨live₁, hfollow, howned⟩
  have hmade : ∀ slot' : VoiceSlot V F, made (pool.slots.set i slot') =
      (made pool.slots).set i (slot'.voice, slot'.format) := fun slot' => List.map_set
  unfold VoicePool.recreate at honest ⊢
  cases hvoice : dev.createSourceVoice with
  | none =>
      refine ⟨live₁, h.next hfollow ?_, fun v hv => absurd hv.symm (Option.some_ne_none v)⟩
      rw [hmade]
      exact howned
  | some v =>
      rw [hvoice] at honest
      have hnew : live₁ v = none := by
        have hrest : Honest (fun _ => none) ((pool.log ++
            (calls ++ slot.voice.toList.map Event.destroyVoice)) ++
              [.createSourceVoice v format dest]) := by
          rw [List.append_assoc]
          exact honest
        exact (hrest.append.2 live₁ ((follow_append_of h.allowed).trans hfollow)).1 v format
          dest rfl
      refine ⟨Function.update live₁ v (some (format, dest)), h.next ?_ ?_, fun w hw => ?_⟩
      · rw [follow_append_of hfollow]
        rfl
      · have hcreate := howned.create (i := i) (v := v) (f := slot.format) format dest
          (List.getElem?_set_self (by simpa [made] using hlt)) hnew
        rw [hmade]
        rwa [List.set_set] at hcreate
      · rw [Option.some.injEq] at hw
        rw [← hw, Function.update_self]

/-- The voice that is acquired has the format and the output that were asked for. -/
theorem Accounted.acquire {pool : VoicePool V B F} {live : Voices V B} (h : Accounted pool live)
    (dev : Device V) (format : WaveFormat) (destBus : Option B)
    (honest : Honest (fun _ => none) (pool.acquire dev format destBus).2.2.log) :
    ∃ live', Accounted (pool.acquire dev format destBus).2.2 live' ∧
      ∀ v, (pool.acquire dev format destBus).2.1 = some v →
        ∃ f dest, destBus = some dest ∧ live' v = some (f, dest) ∧
          formatMatches f format = true := by
  rcases acquire_cases pool dev format destBus with hnone | ⟨dest, calls, hdest, -, hcases⟩
  · rw [hnone]
    exact ⟨live, h, fun v hv => absurd hv.symm (Option.some_ne_none v)⟩
  · rcases hcases with ⟨i, slot, v, hslot, -, hvoice, hformat, hfollow, heq⟩ | ⟨slots, i, slot,
      hslots, hslot, -, hfollow, heq⟩
    · have hget := made_getElem? hslot
      rw [hvoice] at hget
      rw [heq]
      refine ⟨_, h.next (hfollow live h.owned) ?_, fun w hw => ⟨slot.format, dest, hdest, ?_, hformat⟩⟩
      · rw [made_set { slot with busy := true, bus := .sfx } hslot rfl rfl]
        exact h.owned.reroute hget dest
      · rw [Option.some.injEq] at hw
        rw [← hw, Function.update_self]
    · rw [heq] at honest ⊢
      have hpool : Accounted { pool with slots := slots } live := by
        refine ⟨h.allowed, ?_⟩
        rcases hslots with rfl | rfl
        · exact h.owned
        · have hadd := h.owned.append_default (VoiceSlot.default (V := V) (F := F)).format
          unfold made at hadd ⊢
          rw [List.map_append]
          exact hadd
      rcases hpool.recreate hslot (hfollow live h.owned) honest with ⟨live', hlive', hvoice⟩
      have hself : formatMatches format format = true := by simp [formatMatches]
      exact ⟨live', hlive', fun v hv => ⟨format, dest, hdest, hvoice v hv, hself⟩⟩

end

/-! ## Playing a sound -/

variable [Floating F]

/-- The pool when a sound has been handed to its voice. -/
def submitted (pool : VoicePool V B F) (id : VoiceId) (slot : VoiceSlot V F) (voice : V)
    (wav : WavClip) (params : PlayParams F) (bus : B) : VoicePool V B F :=
  pool.next (pool.slots.set (voiceIndex id).toNat (AudioEngine.configure slot wav params))
    [.submitSourceBuffer voice wav.format bus]

/-- The pool when the voice has been set up and started. -/
def started (pool : VoicePool V B F) (voice : V) : VoicePool V B F :=
  pool.next pool.slots [.use voice, .use voice, .use voice]

/-- What playing a sound does: nothing, or acquire a voice and leave it at that, hand it the
    sound and release it when that or the start fails, or play. -/
theorem play_cases (engine : AudioEngine V B F) (dev : Device V) (clip : UInt32)
    (params : PlayParams F) : engine.play dev clip params = (.null, engine) ∨
      ∃ wav bus id voice pool, engine.initialized = true ∧
        engine.pool.acquire dev wav.format (some bus) = (id, voice, pool) ∧
        (engine.play dev clip params = (.null, { engine with pool := pool }) ∨
        ∃ v slot, voice = some v ∧ pool.resolve id = some slot ∧
          (engine.play dev clip params = (.null, { engine with
            pool := (submitted pool id slot v wav params bus).release id }) ∨
          engine.play dev clip params = (.null, { engine with
            pool := (started (submitted pool id slot v wav params bus) v).release id }) ∨
          engine.play dev clip params = (id, { engine with
            pool := started (submitted pool id slot v wav params bus) v }))) := by
  unfold AudioEngine.play
  by_cases hinit : engine.initialized = true
  · rw [if_neg (not_not.mpr hinit)]
    cases hwav : (engine.resolveClip clip).filter fun wav => !wav.pcm.isEmpty with
    | none => exact .inl rfl
    | some wav =>
        cases hbus : engine.busVoice params.bus with
        | none => exact .inl rfl
        | some bus =>
            right
            rcases hacquire : engine.pool.acquire dev wav.format (some bus) with
              ⟨id, voice, pool⟩
            refine ⟨wav, bus, id, voice, pool, hinit, hacquire, ?_⟩
            dsimp only
            rw [hacquire]
            cases voice with
            | none => exact .inl rfl
            | some v =>
                dsimp only
                cases hslot : pool.resolve id with
                | none => exact .inl rfl
                | some slot =>
                    refine .inr ⟨v, slot, rfl, rfl, ?_⟩
                    dsimp only
                    by_cases hsubmit : dev.submitSourceBuffer = true
                    · rw [if_neg (not_not.mpr hsubmit)]
                      by_cases hstart : dev.start = true
                      · rw [if_neg (not_not.mpr hstart)]
                        exact .inr (.inr rfl)
                      · rw [if_pos hstart]
                        exact .inr (.inl rfl)
                    · rw [if_pos hsubmit]
                      exact .inl rfl
  · rw [if_pos hinit]
    exact .inl rfl

/-! ## The log only grows -/

theorem acquire_log (pool : VoicePool V B F) (dev : Device V) (format : WaveFormat)
    (destBus : Option B) : pool.log <+: (pool.acquire dev format destBus).2.2.log := by
  have hrecreate : ∀ engine (slots : List (VoiceSlot V F)) dest i slot calls, pool.log <+:
      (VoicePool.recreate ⟨engine, slots, pool.log⟩ dev format dest i slot calls).2.2.log := by
    intro engine slots dest i slot calls
    unfold VoicePool.recreate
    cases dev.createSourceVoice with
    | none => exact ⟨_, rfl⟩
    | some v => exact ⟨_, rfl⟩
  unfold VoicePool.acquire
  cases pool.engine with
  | false => exact List.prefix_refl _
  | true =>
      cases destBus with
      | none => exact List.prefix_refl _
      | some dest =>
          dsimp only
          cases (VoicePool.search dev format dest 0 pool.slots ⟨none, none, none, []⟩).found.bind
              fun i => (pool.slots[i]?).map fun slot => (i, slot) with
          | some e => exact ⟨_, rfl⟩
          | none =>
              dsimp only
              cases ((VoicePool.search dev format dest 0 pool.slots
                  ⟨none, none, none, []⟩).voiceless.or (VoicePool.search dev format dest 0
                    pool.slots ⟨none, none, none, []⟩).mismatch).bind
                    fun i => (pool.slots[i]?).map fun slot => (i, slot) with
              | some e => exact hrecreate pool.engine pool.slots dest e.1 e.2 _
              | none => exact hrecreate true _ dest _ _ _

theorem release_log (pool : VoicePool V B F) (id : VoiceId) :
    pool.log <+: (pool.release id).log := by
  unfold VoicePool.release
  cases pool.resolve id with
  | none => exact List.prefix_refl _
  | some slot => exact ⟨_, rfl⟩

omit [Floating F] in
theorem adjust_log (engine : AudioEngine V B F) (id : VoiceId)
    (change : VoiceSlot V F → VoiceSlot V F) (called : VoiceSlot V F → Bool) :
    engine.pool.log <+: (engine.adjust id change called).pool.log := by
  unfold AudioEngine.adjust
  cases engine.pool.resolve id with
  | none => exact List.prefix_refl _
  | some slot => exact ⟨_, rfl⟩

theorem perform_log (engine : AudioEngine V B F) (call : Call V B F) :
    engine.pool.log <+: (engine.perform call).pool.log := by
  cases call with
  | initializeEngine startup =>
      rw [AudioEngine.perform]
      unfold AudioEngine.initializeEngine
      by_cases hinit : engine.initialized = true
      · rw [if_pos hinit]
      · rw [if_neg hinit]
        cases startup with
        | engineFailed => exact List.prefix_refl _
        | partFailed => exact ⟨_, rfl⟩
        | ready buses => exact List.prefix_refl _
  | loadClip wav =>
      rw [AudioEngine.perform]
      unfold AudioEngine.loadClip
      cases engine.initialized with
      | false => exact List.prefix_refl _
      | true =>
          cases wav with
          | none => exact List.prefix_refl _
          | some clip => exact List.prefix_refl _
  | play dev clip params =>
      rw [AudioEngine.perform]
      rcases play_cases engine dev clip params with heq | ⟨wav, bus, id, voice, pool, -, hacquire,
        hcases⟩
      · rw [heq]
      · have hpool := acquire_log engine.pool dev wav.format (some bus)
        rw [hacquire] at hpool
        rcases hcases with heq | ⟨v, slot, -, -, hcases⟩
        · rw [heq]
          exact hpool
        · have hsubmitted : pool.log <+: (submitted pool id slot v wav params bus).log := ⟨_, rfl⟩
          have hstarted : pool.log <+: (started (submitted pool id slot v wav params bus) v).log :=
            hsubmitted.trans ⟨_, rfl⟩
          rcases hcases with heq | heq | heq
          · rw [heq]
            exact hpool.trans (hsubmitted.trans (release_log _ id))
          · rw [heq]
            exact hpool.trans (hstarted.trans (release_log _ id))
          · rw [heq]
            exact hpool.trans hstarted
  | stop id => exact release_log engine.pool id
  | setVoiceVolume id volume => exact adjust_log engine id _ _
  | setVoicePitch id pitch => exact adjust_log engine id _ _
  | update dev =>
      rw [AudioEngine.perform]
      unfold AudioEngine.update
      by_cases hinit : engine.initialized = true
      · rw [if_pos hinit]
        exact List.IsPrefix.trans ⟨_, rfl⟩ ⟨_, rfl⟩
      · rw [if_neg hinit]
  | shutdown => exact ⟨_, rfl⟩

/-! ## Every voice is accounted for -/

section

variable [DecidableEq V] [DecidableEq B] {live : Voices V B} {engine : AudioEngine V B F}

omit [Floating F] in
theorem Accounted.voice_of_resolve {pool : VoicePool V B F}
    (h : Accounted pool live) {id : VoiceId} {slot : VoiceSlot V F}
    (hslot : pool.resolve id = some slot) {v : V} (hv : slot.voice = some v) :
    ∃ b, live v = some b :=
  h.voice (List.mem_of_getElem? (resolve_getElem? hslot).2.1) hv

omit [Floating F] in
theorem Accounted.adjust
    (h : Accounted engine.pool live) (id : VoiceId) (change : VoiceSlot V F → VoiceSlot V F)
    (hvoice : ∀ slot, (change slot).voice = slot.voice)
    (hformat : ∀ slot, (change slot).format = slot.format) (called : VoiceSlot V F → Bool) :
    Accounted (engine.adjust id change called).pool live := by
  unfold AudioEngine.adjust
  cases hslot : engine.pool.resolve id with
  | none => exact h
  | some slot =>
      refine h.change (change slot) hslot (hvoice slot) (hformat slot) (Quiet.follow fun e he => ?_)
      by_cases hcalled : called slot = true
      · rw [if_pos hcalled] at he
        cases hv : slot.voice with
        | none =>
            rw [hv] at he
            exact absurd he List.not_mem_nil
        | some v =>
            rw [hv] at he
            rcases h.voice_of_resolve hslot hv with ⟨b, hb⟩
            exact .inr ⟨v, b, List.mem_singleton.mp he, hb⟩
      · rw [if_neg hcalled] at he
        exact absurd he List.not_mem_nil

theorem Accounted.play
    (h : Accounted engine.pool live) (dev : Device V) (clip : UInt32) (params : PlayParams F)
    (honest : Honest (fun _ => none) (engine.play dev clip params).2.pool.log) :
    ∃ live', Accounted (engine.play dev clip params).2.pool live' := by
  rcases play_cases engine dev clip params with heq | ⟨wav, bus, id, voice, pool, -, hacquire,
    hcases⟩
  · rw [heq]
    exact ⟨live, h⟩
  · -- The calls of the acquisition come first.
    have hprefix : pool.log <+: (engine.play dev clip params).2.pool.log := by
      rcases hcases with heq | ⟨v, slot, -, -, hcases⟩
      · rw [heq]
      · have hsubmitted : pool.log <+: (submitted pool id slot v wav params bus).log := ⟨_, rfl⟩
        have hstarted : pool.log <+: (started (submitted pool id slot v wav params bus) v).log :=
          hsubmitted.trans ⟨_, rfl⟩
        rcases hcases with heq | heq | heq
        · rw [heq]
          exact hsubmitted.trans (release_log _ id)
        · rw [heq]
          exact hstarted.trans (release_log _ id)
        · rw [heq]
          exact hstarted
    rcases hprefix with ⟨rest, hrest⟩
    rw [← hrest] at honest
    rcases h.acquire dev wav.format (some bus) (by
      rw [hacquire]
      exact honest.append.1) with ⟨live', hlive', hvoice⟩
    rw [hacquire] at hlive' hvoice
    refine ⟨live', ?_⟩
    rcases hcases with heq | ⟨v, slot, hv, hslot, hcases⟩
    · rw [heq]
      exact hlive'
    · rcases hvoice v hv with ⟨f, dest, hdest, hb, hformat⟩
      rw [Option.some.injEq] at hdest
      -- The sound suits the voice that was acquired, whatever slot the handle stands for.
      have hsubmitted : Accounted (submitted pool id slot v wav params bus) live' := by
        refine hlive'.change (AudioEngine.configure slot wav params) hslot rfl rfl ?_
        simp only [follow, Event.apply, hb, Option.bind_some]
        rw [if_pos ⟨hformat, hdest.symm⟩]
        rfl
      have hstarted : Accounted (started (submitted pool id slot v wav params bus) v) live' := by
        refine hsubmitted.next (Quiet.follow fun e he => .inr ⟨v, _, ?_, hb⟩) hsubmitted.owned
        simp only [List.mem_cons, List.not_mem_nil, or_false, or_self] at he
        exact he
      rcases hcases with heq | heq | heq
      · rw [heq]
        exact hsubmitted.release id
      · rw [heq]
        exact hstarted.release id
      · rw [heq]
        exact hstarted

theorem Accounted.update
    (h : Accounted engine.pool live) (dev : Device V) :
    Accounted (engine.update dev).pool live := by
  unfold AudioEngine.update
  by_cases hinit : engine.initialized = true
  · rw [if_pos hinit]
    rcases reclaimSlots_spec (B := B) dev engine.pool.slots 0
      fun slot hslot v hv => h.voice hslot hv with ⟨hquiet, hmade⟩
    have hreclaimed : Accounted (engine.pool.reclaimFinished dev).2 live := by
      refine h.next hquiet.follow ?_
      rw [hmade]
      exact h.owned
    refine hreclaimed.next (Quiet.follow fun e he => ?_) hreclaimed.owned
    rcases List.mem_flatMap.mp he with ⟨slot, hslot, he⟩
    cases hcond : slot.busy && slot.is3d && (engine.busVoice slot.bus).isSome with
    | false =>
        rw [hcond, if_neg Bool.false_ne_true] at he
        exact absurd he List.not_mem_nil
    | true =>
        rw [hcond, if_pos rfl] at he
        cases hv : slot.voice with
        | none =>
            rw [hv] at he
            exact absurd he List.not_mem_nil
        | some v =>
            rw [hv] at he
            rcases hreclaimed.voice hslot hv with ⟨b, hb⟩
            exact .inr ⟨v, b, List.mem_singleton.mp he, hb⟩
  · rw [if_neg hinit]
    exact h

omit [Floating F] in
theorem Accounted.shutdown {pool : VoicePool V B F}
    (h : Accounted pool live) : Accounted pool.shutdown fun _ => none := by
  refine h.next (follow_shutdown pool.slots live h.owned)
    ⟨fun i j v f g hi _ => ?_, fun i v f hi => ?_, fun v e hv => ?_⟩
  · simp [made] at hi
  · simp [made] at hi
  · exact absurd hv.symm (Option.some_ne_none e)

/-- No call of a program makes the engine break a rule of the device or lose a voice. -/
theorem Accounted.perform
    (h : Accounted engine.pool live) (call : Call V B F)
    (honest : Honest (fun _ => none) (engine.perform call).pool.log) :
    ∃ live', Accounted (engine.perform call).pool live' := by
  cases call with
  | initializeEngine startup =>
      rw [AudioEngine.perform]
      unfold AudioEngine.initializeEngine
      by_cases hinit : engine.initialized = true
      · rw [if_pos hinit]
        exact ⟨live, h⟩
      · rw [if_neg hinit]
        cases startup with
        | engineFailed => exact ⟨live, h⟩
        | partFailed => exact ⟨_, h.shutdown⟩
        | ready buses => exact ⟨live, h.allowed, h.owned⟩
  | loadClip wav =>
      rw [AudioEngine.perform]
      unfold AudioEngine.loadClip
      cases engine.initialized with
      | false => exact ⟨live, h⟩
      | true =>
          cases wav with
          | none => exact ⟨live, h⟩
          | some clip => exact ⟨live, h⟩
  | play dev clip params => exact h.play dev clip params honest
  | stop id => exact ⟨live, h.release id⟩
  | setVoiceVolume id volume =>
      exact ⟨live, h.adjust id (fun slot => { slot with baseVolume := volume }) (fun _ => rfl)
        (fun _ => rfl) fun _ => true⟩
  | setVoicePitch id pitch =>
      exact ⟨live, h.adjust id (fun slot => { slot with basePitch := pitch }) (fun _ => rfl)
        (fun _ => rfl) fun slot => !slot.is3d⟩
  | update dev => exact ⟨live, h.update dev⟩
  | shutdown => exact ⟨_, h.shutdown⟩

theorem accounted_run (calls : List (Call V B F)) :
    Honest (fun _ => none) (AudioEngine.new.run calls).pool.log →
      ∃ live, Accounted (AudioEngine.new.run calls).pool live := by
  induction calls using List.reverseRecOn with
  | nil =>
      refine fun _ => ⟨fun _ => none, rfl, fun i j v f g hi _ => ?_, fun i v f hi => ?_,
        fun v e hv => ?_⟩
      · simp [AudioEngine.run, AudioEngine.new, made] at hi
      · simp [AudioEngine.run, AudioEngine.new, made] at hi
      · exact absurd hv.symm (Option.some_ne_none e)
  | append_singleton calls call ih =>
      intro honest
      have hrun : AudioEngine.new.run (calls ++ [call]) =
          (AudioEngine.new.run calls).perform call := by
        unfold AudioEngine.run
        rw [List.foldl_append]
        rfl
      rw [hrun] at honest ⊢
      rcases perform_log (AudioEngine.new.run calls) call with ⟨rest, hrest⟩
      rcases ih (by
        rw [← hrest] at honest
        exact honest.append.1) with ⟨live, hlive⟩
      exact hlive.perform call honest

end

/-! ### An engine that was shut down has no slots -/

/-- An engine that does not run has no slots. -/
def Settled (engine : AudioEngine V B F) : Prop :=
  engine.initialized = false → engine.pool.slots = []

omit [Floating F] in
theorem resolve_nil {pool : VoicePool V B F} (h : pool.slots = []) (id : VoiceId) :
    pool.resolve id = none := by
  unfold VoicePool.resolve
  rw [h]
  by_cases hvalid : id.valid = true
  · rw [if_pos hvalid]
    rfl
  · rw [if_neg hvalid]

omit [Floating F] in
theorem Settled.adjust {engine : AudioEngine V B F} (h : Settled engine) (id : VoiceId)
    (change : VoiceSlot V F → VoiceSlot V F) (called : VoiceSlot V F → Bool) :
    Settled (engine.adjust id change called) := by
  unfold AudioEngine.adjust
  cases hslot : engine.pool.resolve id with
  | none => exact h
  | some slot =>
      intro hinit
      rw [resolve_nil (h hinit)] at hslot
      exact absurd hslot.symm (Option.some_ne_none slot)

theorem Settled.perform {engine : AudioEngine V B F} (h : Settled engine) (call : Call V B F) :
    Settled (engine.perform call) := by
  cases call with
  | initializeEngine startup =>
      rw [AudioEngine.perform]
      unfold AudioEngine.initializeEngine
      by_cases hinit : engine.initialized = true
      · rw [if_pos hinit]
        exact h
      · rw [if_neg hinit]
        cases startup with
        | engineFailed => exact h
        | partFailed => exact fun _ => rfl
        | ready buses => exact fun hfalse => absurd hfalse (Bool.false_ne_true ·.symm)
  | loadClip wav =>
      rw [AudioEngine.perform]
      unfold AudioEngine.loadClip
      cases hinit : engine.initialized with
      | false => exact h
      | true =>
          cases wav with
          | none => exact h
          | some clip =>
              exact fun hfalse => absurd hfalse (Bool.false_ne_true ·.symm)
  | play dev clip params =>
      rw [AudioEngine.perform]
      intro hinit
      rcases play_cases engine dev clip params with heq | ⟨wav, bus, id, voice, pool, htrue, -,
        hcases⟩
      · rw [heq] at hinit ⊢
        exact h hinit
      · -- A sound is only played by an engine that runs.
        have hsame : (engine.play dev clip params).2.initialized = engine.initialized := by
          rcases hcases with heq | ⟨v, slot, -, -, heq | heq | heq⟩
          · rw [heq]
          · rw [heq]
          · rw [heq]
          · rw [heq]
        rw [hsame, htrue] at hinit
        exact absurd hinit (Bool.false_ne_true ·.symm)
  | stop id =>
      rw [AudioEngine.perform]
      intro hinit
      have hnil := h hinit
      unfold AudioEngine.stop VoicePool.release
      rw [resolve_nil hnil]
      exact hnil
  | setVoiceVolume id volume => exact h.adjust id _ _
  | setVoicePitch id pitch => exact h.adjust id _ _
  | update dev =>
      rw [AudioEngine.perform]
      unfold AudioEngine.update
      by_cases hinit : engine.initialized = true
      · rw [if_pos hinit]
        intro hfalse
        exact absurd (hinit.symm.trans hfalse) (Bool.false_ne_true ·.symm)
      · rw [if_neg hinit]
        exact h
  | shutdown => exact fun _ => rfl

theorem settled_run (calls : List (Call V B F)) : ∀ engine : AudioEngine V B F,
    Settled engine → Settled (engine.run calls) := by
  induction calls with
  | nil => exact fun engine h => h
  | cons call calls ih => exact fun engine h => ih _ (h.perform call)

/-- In every run, if the device makes no voice that is there already: every call is for a voice
    that is there, a sound goes to a voice of its format and for its bus, the voices that there
    are, are those of the slots, no two slots have the same, and when the engine is not running
    there are none. -/
theorem voices_accounted [DecidableEq V] [DecidableEq B] (calls : List (Call V B F))
    (honest : Honest (fun _ => none) (AudioEngine.new.run calls).pool.log) :
    ∃ live : Voices V B,
      follow (fun _ => none) (AudioEngine.new.run calls).pool.log = some live ∧
      (∀ v, (∃ e, live v = some e) ↔
        ∃ slot ∈ (AudioEngine.new.run calls).pool.slots, slot.voice = some v) ∧
      (∀ (i j : Nat) (a b : VoiceSlot V F) (v : V),
        (AudioEngine.new.run calls).pool.slots[i]? = some a →
        (AudioEngine.new.run calls).pool.slots[j]? = some b →
        a.voice = some v → b.voice = some v → i = j) ∧
      ((AudioEngine.new.run calls).initialized = false → ∀ v, live v = none) := by
  rcases accounted_run calls honest with ⟨live, hlive⟩
  have hhas : ∀ v e, live v = some e →
      ∃ slot ∈ (AudioEngine.new.run calls).pool.slots, slot.voice = some v := by
    intro v e hv
    rcases hlive.owned.owner v e hv with ⟨i, f, hi⟩
    rcases List.mem_map.mp (List.mem_of_getElem? hi) with ⟨slot, hslot, heq⟩
    exact ⟨slot, hslot, congrArg Prod.fst heq⟩
  refine ⟨live, hlive.allowed, fun v => ⟨fun ⟨e, hv⟩ => hhas v e hv,
    fun ⟨slot, hslot, hv⟩ => hlive.voice hslot hv⟩, fun i j a b v ha hb hav hbv => ?_,
    fun hinit v => ?_⟩
  · exact hlive.owned.distinct i j v a.format b.format (by rw [made_getElem? ha, hav])
      (by rw [made_getElem? hb, hbv])
  · cases hv : live v with
    | none => rfl
    | some e =>
        rcases hhas v e hv with ⟨slot, hslot, -⟩
        have hnil := settled_run calls AudioEngine.new (fun _ => rfl) hinit
        rw [hnil] at hslot
        exact absurd hslot List.not_mem_nil

/-! ### A short run -/

/-- A device that makes one voice and lets everything succeed. -/
def oneVoice : Device Nat := ⟨fun _ => true, some 7, fun _ => 0, true, true⟩

/-- A sound is played, and another one when the first is done; then all is shut down. -/
def twoSounds : List (Call Nat Bus Float32) :=
  [.initializeEngine (.ready id), .loadClip (some ⟨⟨1, 1, 48000, 96000, 2, 16, 0⟩, [0, 0]⟩),
    .play oneVoice 1 ⟨.ui, 1, 1, false, none⟩, .update oneVoice,
    .play oneVoice 1 ⟨.music, 1, 1, true, none⟩, .shutdown]

/-- The second sound is played on the voice of the first. -/
theorem twoSounds_log : (AudioEngine.new.run twoSounds).pool.log =
    [.createSourceVoice 7 ⟨1, 1, 48000, 96000, 2, 16, 0⟩ .ui,
      .submitSourceBuffer 7 ⟨1, 1, 48000, 96000, 2, 16, 0⟩ .ui, .use 7, .use 7, .use 7, .use 7,
      .use 7, .use 7, .freed 0, .setOutputVoices 7 .music true,
      .submitSourceBuffer 7 ⟨1, 1, 48000, 96000, 2, 16, 0⟩ .music, .use 7, .use 7, .use 7,
      .use 7, .use 7, .destroyVoice 7] := by
  rfl

theorem twoSounds_accounted : ∃ live : Voices Nat Bus,
    follow (fun _ => none) (AudioEngine.new.run twoSounds).pool.log = some live ∧
    (∀ v, (∃ e, live v = some e) ↔
      ∃ slot ∈ (AudioEngine.new.run twoSounds).pool.slots, slot.voice = some v) ∧
    (∀ (i j : Nat) (a b : VoiceSlot Nat Float32) (v : Nat),
      (AudioEngine.new.run twoSounds).pool.slots[i]? = some a →
      (AudioEngine.new.run twoSounds).pool.slots[j]? = some b →
      a.voice = some v → b.voice = some v → i = j) ∧
    ((AudioEngine.new.run twoSounds).initialized = false → ∀ v, live v = none) :=
  voices_accounted twoSounds (by
    rw [twoSounds_log]
    simp [Honest, Event.apply])

end

end Audio

end EarthRise
