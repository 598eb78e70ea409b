import EarthRise.Theory.Reliability

/-!
# Acknowledgements Retire Only What Was Received

When a message leaves the table of the sender because the receiver has it.

The 33 sequences that a pair can name are sequences and not messages. Between the moment
at which the receiver looks into its memory and the one at which the sender looks into its
table, a sequence may have passed to another message, and then the pair retires that one.
A sender that wraps around onto a sequence still in flight drops the message itself. And a
receiver that has received nothing names a sequence like any other: sequence 0.

`Current` says of a step that none of this happens, and of the numbers it compares only
the sequences are known to the ends. Over any run of such steps every message that was
sent is still in flight or was received (`retired_received`). Without it, the very first
pair retires the very first message (`retired_unheard`).

## Main definitions

* `AckedLink.Received`: The receiver took a copy of the message.
* `AckedLink.Current`: No sequence that matters in the step has passed to another message.
* `AckedLink.Kept`: The invariant of the runs.

## Theorems

* `ReliableSender.find?_onAck`: An acknowledgement retires the sequences that it names.
* `AckedLink.Kept.step`: One step.
* `AckedLink.retired_received`: What is not in flight was received.
* `AckedLink.retired_unheard`: A pair taken before anything was received.
-/

namespace EarthRise

namespace Net

open Run

theorem mem_named (ack : Sequence) (ackBits : BitVec 32) : ack ∈ named ack ackBits :=
  List.mem_cons_self

/-! ## The sender's table -/

namespace ReliableSender

theorem updateRtt_inFlight (s : ReliableSender) (sample : ℚ) :
    (s.updateRtt sample).inFlight = s.inFlight := by
  unfold updateRtt
  split
  · rfl
  · split <;> rfl

theorem find?_ackOne (s : ReliableSender) (seq : Sequence) (now : ℚ) (seq' : Sequence) :
    (s.ackOne seq now).inFlight.find? seq' =
      if seq' = seq then none else s.inFlight.find? seq' := by
  unfold ackOne
  cases hfind : s.inFlight.find? seq with
  | none =>
      simp only
      by_cases heq : seq' = seq
      · rw [if_pos heq, heq, hfind]
      · rw [if_neg heq]
  | some f =>
      simp only [OrdMap.find?_erase]
      by_cases heq : seq' = seq
      · rw [if_pos heq, if_pos heq]
      · rw [if_neg heq, if_neg heq]
        split
        · rw [updateRtt_inFlight]
        · rfl

/-- An acknowledgement retires the sequences that it names. -/
theorem find?_onAck (s : ReliableSender) (ack : Sequence) (ackBits : BitVec 32) (now : ℚ)
    (seq : Sequence) :
    (s.onAck ack ackBits now).inFlight.find? seq =
      if seq ∈ named ack ackBits then none else s.inFlight.find? seq := by
  have hfold : ∀ (l : List Nat) (t : ReliableSender),
      (l.foldl (fun s i => if ackBits.getLsbD i then s.ackOne (ack - 1 - seqOf i) now else s)
        t).inFlight.find? seq =
      if seq ∈ (l.filter fun i => ackBits.getLsbD i).map fun i => ack - 1 - seqOf i then none
      else t.inFlight.find? seq := by
    intro l
    induction l with
    | nil => exact fun t => (if_neg List.not_mem_nil).symm
    | cons i l ih =>
        intro t
        rw [List.foldl_cons, ih]
        by_cases hbit : ackBits.getLsbD i = true
        · rw [if_pos hbit, List.filter_cons_of_pos hbit, List.map_cons, find?_ackOne]
          by_cases hseq : seq = ack - 1 - seqOf i
          · rw [if_pos hseq, ite_self, if_pos (hseq ▸ List.mem_cons_self)]
          · rw [if_neg hseq]
            simp only [List.mem_cons, hseq, false_or]
        · rw [if_neg hbit, List.filter_cons_of_neg hbit]
  unfold onAck named
  rw [hfold, find?_ackOne]
  by_cases hseq : seq = ack
  · rw [if_pos hseq, ite_self, if_pos (hseq ▸ List.mem_cons_self)]
  · rw [if_neg hseq]
    simp only [List.mem_cons, hseq, false_or]

/-- What is sent again stays in flight. -/
theorem find?_collectTimedOut (s : ReliableSender) (now : ℚ) (seq : Sequence) :
    ((s.collectTimedOut now).2.inFlight.find? seq).isSome =
      (s.inFlight.find? seq).isSome := by
  unfold collectTimedOut
  simp only [OrdMap.find?_map, Option.isSome_map]

end ReliableSender

/-! ## The receiver's memory -/

namespace ReliableReceiver

theorem getLsbD_ackBits (r : ReliableReceiver) (i : Nat) (h : r.ackBits.getLsbD i = true) :
    r.latest - 1 - seqOf i ∈ r.received := by
  have hfold : ∀ (l : List Nat) (bits : BitVec 32),
      (l.foldl (fun bits i => if r.latest - 1 - seqOf i ∈ r.received then bits ||| (1#32 <<< i)
        else bits) bits).getLsbD i = true →
      bits.getLsbD i = true ∨ r.latest - 1 - seqOf i ∈ r.received := by
    intro l
    induction l with
    | nil => exact fun bits h => Or.inl h
    | cons j l ih =>
        intro bits h
        rw [List.foldl_cons] at h
        rcases ih _ h with h | h
        · by_cases hj : r.latest - 1 - seqOf j ∈ r.received
          · rw [if_pos hj, BitVec.getLsbD_or, Bool.or_eq_true] at h
            rcases h with h | h
            · exact Or.inl h
            · -- The only bit of the shifted one is its own.
              have hij : i = j := by
                rw [BitVec.getLsbD_shiftLeft] at h
                simp at h
                omega
              exact Or.inr (hij ▸ hj)
          · rw [if_neg hj] at h
            exact Or.inl h
        · exact Or.inr h
  rcases hfold _ _ h with h | h
  · exact absurd h (by simp)
  · exact h

/-- A pair names what the receiver remembers. -/
theorem mem_of_named {r : ReliableReceiver} (hlatest : r.latest ∈ r.received) (seq : Sequence)
    (h : seq ∈ named r.latest r.ackBits) : seq ∈ r.received := by
  rcases List.mem_cons.mp h with rfl | h
  · exact hlatest
  · rcases List.mem_map.mp h with ⟨i, hi, rfl⟩
    exact r.getLsbD_ackBits i (List.mem_filter.mp hi).2

/-- What is remembered after a copy is its sequence and what was remembered before. -/
theorem mem_onReceive (r : ReliableReceiver) (seq x : Sequence)
    (h : x ∈ (r.onReceive seq).2.received) : x = seq ∨ x ∈ r.received := by
  unfold onReceive at h
  split at h
  · exact Or.inl (Finset.mem_singleton.mp h)
  · split at h
    · exact Or.inr h
    · exact Finset.mem_insert.mp (Finset.mem_filter.mp h).1

/-- A copy that is refused was remembered. -/
theorem onReceive_refused (r : ReliableReceiver) (seq : Sequence)
    (h : (r.onReceive seq).1 = false) : seq ∈ r.received := by
  unfold onReceive at h
  split at h
  · exact absurd h Bool.true_eq_false.mp
  · split at h
    · assumption
    · exact absurd h Bool.true_eq_false.mp

theorem seqDiff_self (seq : Sequence) : seqDiff seq seq = 0 := by
  unfold seqDiff
  rw [sub_self]
  rfl

/-- The latest sequence is remembered. -/
theorem latest_onReceive (r : ReliableReceiver) (seq : Sequence)
    (h : r.seenAny = true → r.latest ∈ r.received) :
    (r.onReceive seq).2.latest ∈ (r.onReceive seq).2.received := by
  unfold onReceive
  split
  · exact Finset.mem_singleton.mpr rfl
  · next hseen =>
    split
    · exact h (by simpa using hseen)
    · simp only [pruneOld]
      refine Finset.mem_filter.mpr ⟨?_, by rw [seqDiff_self]; decide⟩
      split
      · exact Finset.mem_insert_self _ _
      · exact Finset.mem_insert_of_mem (h (by simpa using hseen))

end ReliableReceiver

/-! ## Runs -/

namespace AckedLink

/-- The receiver took a copy of the message. -/
def Received (s : AckedLink) (m : Nat) : Prop := (m, true) ∈ s.link.log

/-- No sequence that matters in the step has passed, or passes, to another message. A message
    is sent under a sequence that is neither in flight nor remembered by the receiver, a
    copy comes before 65536 later messages are sent, and a pair was taken after something
    was received and after each sequence in flight that it names was given away last. -/
def Current (s : AckedLink) : Label → Prop
  | .send _ _ =>
      s.link.sender.inFlight.find? s.link.sender.nextSequence = none ∧
        s.link.sender.nextSequence ∉ s.link.receiver.received
  | .deliver c => s.link.sent ≤ c.message + 65536
  | .deliverAck p _ =>
      ∀ seq ∈ named p.ack p.ackBits, (s.link.sender.inFlight.find? seq).isSome = true →
        p.seen = true ∧ s.link.holder seq < p.sent
  | _ => True

/-- What the ends, the copies and the pairs know of each other. -/
structure Kept (s : AckedLink) : Prop where
  next : s.link.sender.nextSequence = seqOf s.link.sent
  flight : ∀ seq f, s.link.sender.inFlight.find? seq = some f →
    f.sequence = seq ∧ seqOf (s.link.holder seq) = seq ∧ s.link.holder seq < s.link.sent
  held : ∀ m < s.link.sent, seqOf (s.link.holder (seqOf m)) = seqOf m ∧
    m ≤ s.link.holder (seqOf m) ∧ s.link.holder (seqOf m) < s.link.sent
  copies : ∀ c ∈ s.link.copies, c.sequence = seqOf c.message ∧ c.message < s.link.sent
  memory : ∀ seq ∈ s.link.receiver.received, s.Received (s.link.holder seq)
  latest : s.link.receiver.seenAny = true → s.link.receiver.latest ∈ s.link.receiver.received
  acks : ∀ p ∈ s.acks, p.seen = true → p.sent ≤ s.link.sent ∧
    ∀ seq ∈ named p.ack p.ackBits, s.link.holder seq < p.sent → s.Received (s.link.holder seq)
  kept : ∀ m < s.link.sent, s.Tracked m ∨ s.Received m

theorem kept_start : Kept start where
  next := rfl
  flight := fun seq f h => absurd h (by simp [start, ReliableLink.start, ReliableSender.fresh])
  held := fun m hm => absurd hm (Nat.not_lt_zero m)
  copies := fun _ h => absurd h List.not_mem_nil
  memory := fun seq h => absurd h (Finset.notMem_empty seq)
  latest := fun h => absurd h Bool.false_ne_true
  acks := fun _ h => absurd h List.not_mem_nil
  kept := fun m hm => absurd hm (Nat.not_lt_zero m)

variable {s t : AckedLink}

/-- A new message takes a sequence that nothing else stands for. -/
theorem Kept.send (h : Kept s) (payload : Bytes) (now : ℚ)
    (hfree : s.Current (.send payload now)) (hstep : s.step (.send payload now) = some t) :
    Kept t := by
  simp only [AckedLink.step, within, ReliableLink.step, ReliableSender.send, Option.map_some,
    Option.some.injEq] at hstep
  rcases hfree with ⟨hflight, hmemory⟩
  -- The other sequences keep their message.
  have hother : ∀ seq, seq ≠ s.link.sender.nextSequence →
      t.link.holder seq = s.link.holder seq := fun seq hne => by rw [← hstep]; exact if_neg hne
  have hown : t.link.holder s.link.sender.nextSequence = s.link.sent := by
    rw [← hstep]
    exact if_pos rfl
  have hsent : t.link.sent = s.link.sent + 1 := by rw [← hstep]
  have hheard : ∀ m, s.Received m → t.Received m := fun m hm => by rw [← hstep]; exact hm
  have hfind : ∀ seq, t.link.sender.inFlight.find? seq =
      if seq = s.link.sender.nextSequence then
        some ⟨s.link.sender.nextSequence, payload, now, 1⟩
      else s.link.sender.inFlight.find? seq := fun seq => by
    rw [← hstep]
    exact OrdMap.find?_insert _ _ _ _
  constructor
  · rw [hsent, ← seqOf_succ, ← h.next, ← hstep]
  · intro seq f hf
    rw [hfind] at hf
    by_cases hseq : seq = s.link.sender.nextSequence
    · rw [if_pos hseq, Option.some.injEq] at hf
      rw [← hf, hseq, hown, hsent, ← h.next]
      exact ⟨rfl, rfl, Nat.lt_succ_self _⟩
    · rw [if_neg hseq] at hf
      rw [hother seq hseq, hsent]
      rcases h.flight seq f hf with ⟨h1, h2, h3⟩
      exact ⟨h1, h2, Nat.lt_succ_of_lt h3⟩
  · intro m hm
    rw [hsent] at hm ⊢
    by_cases hseq : seqOf m = s.link.sender.nextSequence
    · rw [hseq, hown, ← h.next]
      exact ⟨rfl, Nat.le_of_lt_succ hm, Nat.lt_succ_self _⟩
    · rw [hother _ hseq]
      have hlt : m < s.link.sent := by
        refine Nat.lt_of_le_of_ne (Nat.le_of_lt_succ hm) fun heq => hseq ?_
        rw [heq, h.next]
      rcases h.held m hlt with ⟨h1, h2, h3⟩
      exact ⟨h1, h2, Nat.lt_succ_of_lt h3⟩
  · intro c hc
    rw [← hstep] at hc ⊢
    rcases List.mem_append.mp hc with hc | hc
    · exact ⟨(h.copies c hc).1, Nat.lt_succ_of_lt (h.copies c hc).2⟩
    · rw [List.mem_singleton.mp hc]
      exact ⟨h.next, Nat.lt_succ_self _⟩
  · intro seq hseq
    have hseq' : seq ∈ s.link.receiver.received := by rwa [← hstep] at hseq
    rw [hother seq fun heq => hmemory (heq ▸ hseq')]
    exact hheard _ (h.memory seq hseq')
  · rw [← hstep]
    exact h.latest
  · intro p hp hseen
    have hp' : p ∈ s.acks := by rwa [← hstep] at hp
    rcases h.acks p hp' hseen with ⟨hsince, hnamed⟩
    refine ⟨by omega, fun seq hseq hlt => ?_⟩
    by_cases heq : seq = s.link.sender.nextSequence
    · rw [heq, hown] at hlt
      omega
    · rw [hother seq heq] at hlt ⊢
      exact hheard _ (hnamed seq hseq hlt)
  · intro m hm
    rcases Nat.eq_or_lt_of_le (Nat.le_of_lt_succ (hsent ▸ hm)) with rfl | hlt
    · exact Or.inl ⟨_, _, by rw [hfind, if_pos rfl], hown⟩
    · rcases h.kept m hlt with ⟨seq, f, hf, hm⟩ | hm
      · have hne : seq ≠ s.link.sender.nextSequence := fun heq => by
          rw [heq, hflight] at hf
          cases hf
        exact Or.inl ⟨seq, f, by rw [hfind, if_neg hne, hf], by rw [hother seq hne, hm]⟩
      · exact Or.inr (hheard m hm)

/-- What is sent again was in flight and stays there. -/
theorem Kept.resend (h : Kept s) (now : ℚ)
    (hstep : s.step (.resend now) = some t) : Kept t := by
  simp only [AckedLink.step, within, ReliableLink.step, Option.map_some,
    Option.some.injEq] at hstep
  rw [← hstep]
  rcases s.link.sender.collectTimedOut_keeps now with ⟨hout, hnext, hfind⟩
  refine ⟨hnext.trans h.next, ?_, h.held, ?_, h.memory, h.latest, h.acks, ?_⟩
  · intro seq f hf
    rcases hfind seq f hf with ⟨g, hg, hgf⟩
    rcases h.flight seq g hg with ⟨h1, h2, h3⟩
    exact ⟨hgf.symm.trans h1, h2, h3⟩
  · intro c hc
    rcases List.mem_append.mp hc with hc | hc
    · exact h.copies c hc
    · rcases List.mem_map.mp hc with ⟨f, hf, rfl⟩
      rcases hout f hf with ⟨seq, g, hg, hgf⟩
      rcases h.flight seq g hg with ⟨h1, h2, h3⟩
      rw [hgf.symm.trans h1]
      exact ⟨h2.symm, h3⟩
  · intro m hm
    rcases h.kept m hm with ⟨seq, f, hf, hholder⟩ | hm
    · have hsome : ((s.link.sender.collectTimedOut now).2.inFlight.find? seq).isSome = true := by
        rw [ReliableSender.find?_collectTimedOut, hf]
        rfl
      rcases Option.isSome_iff_exists.mp hsome with ⟨g, hg⟩
      exact Or.inl ⟨seq, g, hg, hholder⟩
    · exact Or.inr hm

/-- A copy that comes while its message holds its sequence. -/
theorem Kept.deliver (h : Kept s) (c : Copy) (hnear : s.Current (.deliver c))
    (hstep : s.step (.deliver c) = some t) : Kept t := by
  simp only [AckedLink.step, within, Option.map_eq_some_iff] at hstep
  rcases hstep with ⟨link, hlink, rfl⟩
  simp only [ReliableLink.step, Option.ite_none_right_eq_some, Option.some.injEq] at hlink
  rcases hlink with ⟨hc, hlink⟩
  rcases h.copies c hc with ⟨hseq, hlt⟩
  have hholder : s.link.holder c.sequence = c.message := by
    rcases h.held c.message hlt with ⟨hsame, hle, hsent⟩
    have hwrap : s.link.sent ≤ c.message + 65536 := hnear
    rw [hseq]
    exact seqOf_inj hsame (by omega) (by omega)
  have hheard : ∀ m, s.Received m → (m, true) ∈ link.log := fun m hm => by
    rw [← hlink]
    exact List.mem_append_left _ hm
  have hmemory : ∀ seq ∈ link.receiver.received, (link.holder seq, true) ∈ link.log := by
    intro seq hmem
    have hmem' : seq ∈ (s.link.receiver.onReceive c.sequence).2.received := by
      rwa [← hlink] at hmem
    have hsame : link.holder = s.link.holder := by rw [← hlink]
    rw [hsame]
    rcases s.link.receiver.mem_onReceive c.sequence seq hmem' with rfl | hold
    · cases hans : (s.link.receiver.onReceive c.sequence).1 with
      | true =>
          rw [← hlink, hholder, hans]
          exact List.mem_append_right _ (List.mem_singleton.mpr rfl)
      | false =>
          exact hheard _ (h.memory _ (s.link.receiver.onReceive_refused c.sequence hans))
    · exact hheard _ (h.memory seq hold)
  refine ⟨?_, ?_, ?_, ?_, hmemory, ?_, ?_, ?_⟩
  · rw [← hlink]
    exact h.next
  · rw [← hlink]
    exact h.flight
  · rw [← hlink]
    exact h.held
  · rw [← hlink]
    exact fun c' hc' => h.copies c' (List.mem_of_mem_erase hc')
  · rw [← hlink]
    exact fun _ => s.link.receiver.latest_onReceive c.sequence h.latest
  · rw [← hlink] at hheard ⊢
    intro p hp hseen
    rcases h.acks p hp hseen with ⟨hsince, hnamed⟩
    exact ⟨hsince, fun seq hseq hlt => hheard _ (hnamed seq hseq hlt)⟩
  · rw [← hlink] at hheard ⊢
    exact fun m hm => (h.kept m hm).imp id (hheard m)

/-- A pair names what was received of the messages that hold its sequences. -/
theorem Kept.takeAck (h : Kept s) (hstep : s.step .takeAck = some t) :
    Kept t := by
  simp only [AckedLink.step, Option.some.injEq] at hstep
  rw [← hstep]
  refine ⟨h.next, h.flight, h.held, h.copies, h.memory, h.latest, ?_, h.kept⟩
  intro p hp hseen
  rcases List.mem_append.mp hp with hp | hp
  · exact h.acks p hp hseen
  · rw [List.mem_singleton.mp hp] at hseen ⊢
    exact ⟨Nat.le_refl _, fun seq hseq _ =>
      h.memory seq (ReliableReceiver.mem_of_named (h.latest hseen) seq hseq)⟩

/-- A pair retires what it names. -/
theorem Kept.deliverAck (h : Kept s) (p : AckPair) (now : ℚ)
    (hcurrent : s.Current (.deliverAck p now)) (hstep : s.step (.deliverAck p now) = some t) :
    Kept t := by
  simp only [AckedLink.step, within, ReliableLink.step, Option.map_some,
    Option.ite_none_right_eq_some, Option.some.injEq] at hstep
  rcases hstep with ⟨hp, hstep⟩
  rw [← hstep]
  rcases s.link.sender.onAck_keeps p.ack p.ackBits now with ⟨hnext, hfind⟩
  refine ⟨hnext.trans h.next, fun seq f hf => h.flight seq f (hfind seq f hf), h.held, h.copies,
    h.memory, h.latest, fun q hq => h.acks q (List.mem_of_mem_erase hq), ?_⟩
  intro m hm
  rcases h.kept m hm with ⟨seq, f, hf, hholder⟩ | hm
  · by_cases hnamed : seq ∈ named p.ack p.ackBits
    · rcases hcurrent seq hnamed (by rw [hf]; rfl) with ⟨hseen, hsince⟩
      right
      rw [← hholder]
      exact (h.acks p hp hseen).2 seq hnamed hsince
    · left
      exact ⟨seq, f, by rw [ReliableSender.find?_onAck, if_neg hnamed, hf], hholder⟩
  · exact Or.inr hm

theorem Kept.step (h : Kept s) (l : Label) (hcurrent : s.Current l)
    (hstep : s.step l = some t) : Kept t := by
  cases l with
  | send payload now => exact h.send payload now hcurrent hstep
  | resend now => exact h.resend now hstep
  | deliver c => exact h.deliver c hcurrent hstep
  | takeAck => exact h.takeAck hstep
  | deliverAck p now => exact h.deliverAck p now hcurrent hstep
  | duplicate c =>
      simp only [AckedLink.step, within, ReliableLink.step, Option.map_eq_some_iff,
        Option.ite_none_right_eq_some, Option.some.injEq] at hstep
      rcases hstep with ⟨_, ⟨hc, rfl⟩, rfl⟩
      refine ⟨h.next, h.flight, h.held, ?_, h.memory, h.latest, h.acks, h.kept⟩
      intro c' hc'
      rcases List.mem_append.mp hc' with hc' | hc'
      · exact h.copies c' hc'
      · exact List.mem_singleton.mp hc' ▸ h.copies c hc
  | drop c =>
      simp only [AckedLink.step, within, ReliableLink.step, Option.map_eq_some_iff,
        Option.ite_none_right_eq_some, Option.some.injEq] at hstep
      rcases hstep with ⟨_, ⟨hc, rfl⟩, rfl⟩
      exact ⟨h.next, h.flight, h.held, fun c' hc' => h.copies c' (List.mem_of_mem_erase hc'),
        h.memory, h.latest, h.acks, h.kept⟩
  | duplicateAck p =>
      simp only [AckedLink.step, Option.ite_none_right_eq_some, Option.some.injEq] at hstep
      rcases hstep with ⟨hp, rfl⟩
      refine ⟨h.next, h.flight, h.held, h.copies, h.memory, h.latest, ?_, h.kept⟩
      intro q hq
      rcases List.mem_append.mp hq with hq | hq
      · exact h.acks q hq
      · exact List.mem_singleton.mp hq ▸ h.acks p hp
  | dropAck p =>
      simp only [AckedLink.step, Option.ite_none_right_eq_some, Option.some.injEq] at hstep
      rcases hstep with ⟨hp, rfl⟩
      exact ⟨h.next, h.flight, h.held, h.copies, h.memory, h.latest,
        fun q hq => h.acks q (List.mem_of_mem_erase hq), h.kept⟩

/-- In every run in which no sequence that matters passes to another message, what was sent
    is in flight or was received. -/
theorem retired_received {s : AckedLink} (h : Reaches step Current start s) (m : Nat)
    (hsent : m < s.link.sent) (hgone : ¬ s.Tracked m) : s.Received m :=
  have hkept := Reaches.invariant (I := Kept) (fun _ l _ hs hg hstep => hs.step l hg hstep) h
    kept_start
  (hkept.kept m hsent).resolve_left hgone

/-- One message was sent, and an acknowledgement of sequence 0 came. -/
theorem not_tracked_of_zero (s : AckedLink) (bits : BitVec 32) (payload : Bytes) (now : ℚ)
    (h : s.link.sender = ((ReliableSender.fresh.send payload now).2).onAck 0 bits now) (m : Nat) :
    ¬ s.Tracked m := by
  rintro ⟨seq, f, hf, _⟩
  rw [h, ReliableSender.find?_onAck] at hf
  by_cases hseq : seq = 0
  · rw [hseq, if_pos (mem_named 0 bits)] at hf
    exact absurd hf nofun
  · have hempty : (ReliableSender.fresh.send payload now).2.inFlight.find? seq = none :=
      OrdMap.find?_insert_ne OrdMap.empty 0 _ seq hseq
    rw [hempty, ite_self] at hf
    exact absurd hf nofun

/-- One message that is sent, received and retired. -/
theorem retired_received_once :
    ∃ s, Reaches step Current start s ∧ 0 < s.link.sent ∧ ¬ s.Tracked 0 ∧ s.Received 0 := by
  let c : Copy := ⟨0, 0⟩
  let s1 : AckedLink :=
    { link := { sender := (ReliableSender.fresh.send [] 0).2, receiver := ReliableReceiver.fresh
                sent := 1, holder := fun seq => if seq = 0 then 0 else 0, copies := [c]
                log := [] }
      acks := [] }
  let s2 : AckedLink :=
    { s1 with
      link := { s1.link with
        receiver := (ReliableReceiver.fresh.onReceive 0).2, copies := [], log := [(0, true)] } }
  let p : AckPair := ⟨0, s2.link.receiver.ackBits, true, 1⟩
  let s3 : AckedLink := { s2 with acks := [p] }
  let s4 : AckedLink :=
    { link := { s2.link with sender := s2.link.sender.onAck p.ack p.ackBits 0 }, acks := [] }
  have h1 : Reaches step Current start s1 :=
    Reaches.refl.tail (.send [] 0) ⟨rfl, Finset.notMem_empty _⟩ rfl
  have h2 : Reaches step Current start s2 := h1.tail (.deliver c) (show 1 ≤ 0 + 65536 by omega) rfl
  have h3 : Reaches step Current start s3 := h2.tail .takeAck trivial rfl
  have hzero : ∀ seq, s3.link.holder seq = 0 := fun seq => ite_self 0
  have hdeliver : s3.step (.deliverAck p 0) = some s4 := by
    simp only [step, s3]
    rw [if_pos (List.mem_singleton.mpr rfl), List.erase_cons_head]
    rfl
  have h4 : Reaches step Current start s4 :=
    h3.tail (.deliverAck p 0) (fun seq _ _ => ⟨rfl, by rw [hzero]; exact Nat.one_pos⟩) hdeliver
  have hgone : ¬ s4.Tracked 0 := not_tracked_of_zero s4 p.ackBits [] 0 rfl 0
  exact ⟨s4, h4, Nat.one_pos, hgone, retired_received h4 0 Nat.one_pos hgone⟩

/-- A pair that was taken before anything was received retires the first message, which is
    never received. -/
theorem retired_unheard :
    ∃ s, Reaches step free start s ∧ 0 < s.link.sent ∧ ¬ s.Tracked 0 ∧ s.link.log = [] := by
  let c : Copy := ⟨0, 0⟩
  let p : AckPair := ⟨0, ReliableReceiver.fresh.ackBits, false, 1⟩
  let s1 : AckedLink :=
    { link := { sender := (ReliableSender.fresh.send [] 0).2, receiver := ReliableReceiver.fresh
                sent := 1, holder := fun seq => if seq = 0 then 0 else 0, copies := [c]
                log := [] }
      acks := [p] }
  let s2 : AckedLink :=
    { link := { s1.link with sender := s1.link.sender.onAck p.ack p.ackBits 0 }, acks := [] }
  have h1 : Reaches step free start s1 :=
    (Reaches.refl.tail (.send [] 0) trivial rfl).tail .takeAck trivial rfl
  have hdeliver : s1.step (.deliverAck p 0) = some s2 := by
    simp only [step, s1]
    rw [if_pos (List.mem_singleton.mpr rfl), List.erase_cons_head]
    rfl
  have h2 : Reaches step free start s2 := h1.tail (.deliverAck p 0) trivial hdeliver
  exact ⟨s2, h2, Nat.one_pos, not_tracked_of_zero s2 p.ackBits [] 0 rfl 0, rfl⟩

end AckedLink

end Net

end EarthRise
