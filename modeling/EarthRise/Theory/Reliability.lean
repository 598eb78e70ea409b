import EarthRise.Core.Reliability
import Mathlib.Data.Finset.Insert

/-!
# At-Most-Once Delivery

When the receiver takes the first copy of every message and no other.

The receiver's memory stands for the messages within 1024 of the newest one it has
received. That is enough for a copy that comes late as long as its message is
either unknown or still in the memory: a duplicate of a forgotten message is taken
for a new one. And it is exact as long as the newest message does not run away from
the memory by half the sequences at once: past that, what should be forgotten looks
newer than the newest and stays, in the way of the message that gets its sequence
next.

`Timely` says of a delivery that neither happens. Over any run whose deliveries are
timely and whose copies stay close, the receiver answers each copy with whether it
is the first of its message (`firstOnly_of_timely`). Without it, one late duplicate
is enough (`late_duplicate_accepted`).

## Main definitions

* `FirstOnly`: Each copy is answered with whether it is its message's first.
* `ReliableLink.Timely`: What a delivery must not be.
* `ReliableLink.Sound`: What the ends and the network know of each other.

## Theorems

* `seqDiff_seqOf`, `seqGreater_seqOf`: Sequences of close messages.
* `ReliableLink.Sound.step`: What a timely step keeps.
* `firstOnly_of_timely`: At most once, and the first copy.
* `late_duplicate_accepted`: A duplicate that comes late.
-/

namespace EarthRise

namespace Net

open Run

/-! ## Sequences of close messages -/

theorem val_seqOf (n : Nat) : (seqOf n).val = n % 65536 := rfl

theorem seqOf_succ (n : Nat) : seqOf n + 1 = seqOf (n + 1) := by
  rw [Fin.ext_iff, Fin.val_add, val_seqOf, val_seqOf]
  have hone : (1 : Sequence).val = 1 := rfl
  rw [hone]
  omega

/-- Sequences repeat after 65536 messages. -/
theorem seqOf_inj {a b : Nat} (h : seqOf a = seqOf b) (hab : a < b + 65536)
    (hba : b < a + 65536) : a = b := by
  have hval := congrArg Fin.val h
  rw [val_seqOf, val_seqOf] at hval
  omega

theorem val_seqOf_sub (a b : Nat) (hba : b ≤ a) (hab : a < b + 65536) :
    (seqOf a - seqOf b).val = a - b := by
  rw [Fin.sub_def, val_seqOf, val_seqOf]
  simp only
  omega

/-- The distance of messages that are close. -/
theorem seqDiff_seqOf (a b : Nat) (hba : b ≤ a) (hab : a ≤ b + 32767) :
    seqDiff (seqOf a) (seqOf b) = (a - b : Nat) := by
  unfold seqDiff
  rw [val_seqOf_sub a b hba (by omega), if_pos (by omega)]

theorem seqGreater_iff (s1 s2 : Sequence) :
    seqGreater s1 s2 = true ↔ (s2.val < s1.val ∧ s1.val - s2.val ≤ 32768) ∨
      (s1.val < s2.val ∧ 32768 < s2.val - s1.val) := by
  unfold seqGreater
  rw [Bool.or_eq_true, Bool.and_eq_true, Bool.and_eq_true, decide_eq_true_eq, decide_eq_true_eq,
    decide_eq_true_eq, decide_eq_true_eq, Fin.lt_def, Fin.lt_def]

theorem seqGreater_seqOf (a b : Nat) (hba : b < a) (hab : a ≤ b + 32767) :
    seqGreater (seqOf a) (seqOf b) = true ∧ seqGreater (seqOf b) (seqOf a) = false := by
  rw [← Bool.not_eq_true, seqGreater_iff, seqGreater_iff, val_seqOf, val_seqOf]
  omega

/-! ## First copies -/

/-- Each copy was answered with whether it was the first of its message. -/
def FirstOnly (log : List (Nat × Bool)) : Prop :=
  ∀ pre e post, log = pre ++ e :: post → (e.2 = true ↔ e.1 ∉ pre.map Prod.fst)

theorem firstOnly_nil : FirstOnly [] := by
  intro pre e post h
  exact absurd h (by simp)

theorem FirstOnly.snoc {log : List (Nat × Bool)} (h : FirstOnly log) (m : Nat) (b : Bool)
    (hb : b = true ↔ m ∉ log.map Prod.fst) : FirstOnly (log ++ [(m, b)]) := by
  intro pre e post hsplit
  rcases List.eq_nil_or_concat post with rfl | ⟨post, last, rfl⟩
  · rcases List.append_inj' hsplit rfl with ⟨rfl, hlast⟩
    rw [List.cons.injEq] at hlast
    rw [← hlast.1]
    exact hb
  · rw [List.concat_eq_append, ← List.cons_append, ← List.append_assoc] at hsplit
    exact h pre e post (List.append_inj' hsplit rfl).1

namespace ReliableLink

/-! ## Timely deliveries -/

/-- The messages of which a copy was received. -/
def heard (s : ReliableLink) : List Nat := s.log.map Prod.fst

/-- A duplicate comes before its message is more than 1024 behind the newest one
    received, and a new newest message is at most 32767 ahead of every message
    received that was within 1024 of the newest before it. -/
def Timely (s : ReliableLink) : Label → Prop
  | .deliver c =>
      (c.message ∈ s.heard → ∀ x ∈ s.heard, x ≤ c.message + 1024) ∧
        ((∀ x ∈ s.heard, x < c.message) →
          ∀ x ∈ s.heard, (∀ y ∈ s.heard, y ≤ x + 1024) → c.message ≤ x + 32767)
  | _ => True

/-- The memory of a receiver that has heard a newest message: the messages within
    1024 of it. -/
structure Remembers (r : ReliableReceiver) (heard : List Nat) (newest : Nat) : Prop where
  seen : r.seenAny = true
  mem : newest ∈ heard
  max : ∀ x ∈ heard, x ≤ newest
  latest : r.latest = seqOf newest
  received : ∀ seq, seq ∈ r.received ↔ ∃ x ∈ heard, newest ≤ x + 1024 ∧ seqOf x = seq

/-- What the two ends and the copies know of each other. -/
structure Sound (s : ReliableLink) : Prop where
  next : s.sender.nextSequence = seqOf s.sent
  copies : ∀ c ∈ s.copies, c.sequence = seqOf c.message ∧ c.message < s.sent
  flight : ∀ seq f, s.sender.inFlight.find? seq = some f →
    f.sequence = seq ∧ seqOf (s.holder seq) = seq ∧ s.holder seq < s.sent
  heard : ∀ x ∈ s.heard, x < s.sent
  receiver : (s.heard = [] ∧ s.receiver.seenAny = false) ∨
    ∃ newest, Remembers s.receiver s.heard newest
  first : FirstOnly s.log

theorem sound_start : Sound start where
  next := rfl
  copies := fun _ h => absurd h List.not_mem_nil
  flight := fun seq f h => absurd h (by simp [start, ReliableSender.fresh])
  heard := fun _ h => absurd h List.not_mem_nil
  receiver := Or.inl ⟨rfl, rfl⟩
  first := firstOnly_nil

end ReliableLink

/-! ## The receiver's memory -/

namespace ReliableReceiver

open ReliableLink

variable {r : ReliableReceiver} {heard : List Nat} {newest m : Nat}

/-- A duplicate that is remembered changes nothing. -/
theorem onReceive_known
    (h : Remembers r heard newest) (hm : m ∈ heard) (hnear : newest ≤ m + 1024) :
    r.onReceive (seqOf m) = (false, r) := by
  have hmem : seqOf m ∈ r.received := (h.received _).mpr ⟨m, hm, hnear, rfl⟩
  unfold onReceive
  rw [if_neg (by rw [h.seen]; decide), if_pos hmem]

/-- What is kept after a new message, if all that was remembered is close to the
    newest message then. -/
theorem mem_pruned {newest newest' m : Nat}
    (h : Remembers r heard newest) (hle : newest ≤ newest') (hm : m ≤ newest')
    (hclose : newest' ≤ m + 32767)
    (hold : ∀ x ∈ heard, newest ≤ x + 1024 → newest' ≤ x + 32767) (seq : Sequence) :
    seq ∈ (pruneOld { r with received := insert (seqOf m) r.received
                             latest := seqOf newest' }).received ↔
      ∃ x ∈ heard ++ [m], newest' ≤ x + 1024 ∧ seqOf x = seq := by
  unfold pruneOld
  rw [Finset.mem_filter, Finset.mem_insert, h.received]
  simp only [List.mem_append, List.mem_singleton]
  constructor
  · rintro ⟨rfl | ⟨x, hx, hnear, rfl⟩, hkeep⟩
    · rw [seqDiff_seqOf newest' m hm hclose] at hkeep
      exact ⟨m, Or.inr rfl, by omega, rfl⟩
    · have hxle := h.max x hx
      rw [seqDiff_seqOf newest' x (by omega) (hold x hx hnear)] at hkeep
      exact ⟨x, Or.inl hx, by omega, rfl⟩
  · rintro ⟨x, hx | rfl, hnear, rfl⟩
    · have hxle := h.max x hx
      refine ⟨Or.inr ⟨x, hx, by omega, rfl⟩, ?_⟩
      rw [seqDiff_seqOf newest' x (by omega) (by omega)]
      omega
    · refine ⟨Or.inl rfl, ?_⟩
      rw [seqDiff_seqOf newest' x hm (by omega)]
      omega

/-- A new message that is older than the newest one is taken and remembered if it is
    near enough. -/
theorem onReceive_late
    (h : Remembers r heard newest) (hnew : m ∉ heard) (hlt : m < newest)
    (hclose : newest ≤ m + 32767) :
    (r.onReceive (seqOf m)).1 = true ∧
      Remembers (r.onReceive (seqOf m)).2 (heard ++ [m]) newest := by
  have hmiss : seqOf m ∉ r.received := by
    rw [h.received]
    rintro ⟨x, hx, hnear, hseq⟩
    have hxle := h.max x hx
    have heq := seqOf_inj hseq (by omega) (by omega)
    exact hnew (heq ▸ hx)
  have holder : seqGreater (seqOf m) r.latest = false := by
    rw [h.latest]
    exact (seqGreater_seqOf newest m hlt hclose).2
  have hpost : r.onReceive (seqOf m) = (true, pruneOld
      { r with received := insert (seqOf m) r.received, latest := seqOf newest }) := by
    unfold onReceive
    rw [if_neg (by rw [h.seen]; decide), if_neg hmiss]
    rw [if_neg (by rw [holder]; exact Bool.false_ne_true), h.latest]
  rw [hpost]
  refine ⟨rfl, ⟨h.seen, List.mem_append_left _ h.mem, ?_, rfl, ?_⟩⟩
  · intro x hx
    rcases List.mem_append.mp hx with hx | hx
    · exact h.max x hx
    · rw [List.mem_singleton.mp hx]
      exact Nat.le_of_lt hlt
  · exact mem_pruned h (Nat.le_refl _) (Nat.le_of_lt hlt) hclose fun x _ hnear => by omega

/-- A message past the newest is taken, and the memory moves on to it. -/
theorem onReceive_newer
    (h : Remembers r heard newest) (hlt : newest < m)
    (hold : ∀ x ∈ heard, newest ≤ x + 1024 → m ≤ x + 32767) :
    (r.onReceive (seqOf m)).1 = true ∧ Remembers (r.onReceive (seqOf m)).2 (heard ++ [m]) m := by
  have hclose := hold newest h.mem (by omega)
  have hmiss : seqOf m ∉ r.received := by
    rw [h.received]
    rintro ⟨x, hx, hnear, hseq⟩
    have hxle := h.max x hx
    have hxold := hold x hx hnear
    have heq := seqOf_inj hseq (by omega) (by omega)
    omega
  have hnewer : seqGreater (seqOf m) r.latest = true := by
    rw [h.latest]
    exact (seqGreater_seqOf m newest hlt hclose).1
  have hpost : r.onReceive (seqOf m) = (true, pruneOld
      { r with received := insert (seqOf m) r.received, latest := seqOf m }) := by
    unfold onReceive
    rw [if_neg (by rw [h.seen]; decide), if_neg hmiss]
    simp only [hnewer, if_true]
  rw [hpost]
  refine ⟨rfl, ⟨h.seen, List.mem_append_right _ (List.mem_singleton.mpr rfl), ?_, rfl, ?_⟩⟩
  · intro x hx
    rcases List.mem_append.mp hx with hx | hx
    · have := h.max x hx
      omega
    · rw [List.mem_singleton.mp hx]
  · exact mem_pruned h (Nat.le_of_lt hlt) (Nat.le_refl _) (by omega) hold

theorem onReceive_first (r : ReliableReceiver) (h : r.seenAny = false) (m : Nat) :
    (r.onReceive (seqOf m)).1 = true ∧ Remembers (r.onReceive (seqOf m)).2 [m] m := by
  have hpost : r.onReceive (seqOf m) =
      (true, { seenAny := true, latest := seqOf m, received := {seqOf m} }) := by
    unfold onReceive
    rw [if_pos h]
  rw [hpost]
  refine ⟨rfl, ⟨rfl, List.mem_singleton.mpr rfl, ?_, rfl, ?_⟩⟩
  · intro x hx
    rw [List.mem_singleton.mp hx]
  · intro seq
    rw [Finset.mem_singleton]
    constructor
    · rintro rfl
      exact ⟨m, List.mem_singleton.mpr rfl, by omega, rfl⟩
    · rintro ⟨x, hx, _, rfl⟩
      rw [List.mem_singleton.mp hx]

end ReliableReceiver

/-! ## The sender's table -/

namespace ReliableSender

theorem ackOne_nextSequence (s : ReliableSender) (seq : Sequence) (now : ℚ) :
    (s.ackOne seq now).nextSequence = s.nextSequence := by
  unfold ackOne updateRtt
  split
  · rfl
  · split
    · split
      · rfl
      · split <;> rfl
    · rfl

/-- An acknowledgement only takes messages out. -/
theorem ackOne_inFlight (s : ReliableSender) (seq : Sequence) (now : ℚ) (seq' : Sequence)
    (f : InFlight) (h : (s.ackOne seq now).inFlight.find? seq' = some f) :
    s.inFlight.find? seq' = some f := by
  have hrtt : ∀ (s : ReliableSender) (x : ℚ), (s.updateRtt x).inFlight = s.inFlight := by
    intro s x
    unfold updateRtt
    split
    · rfl
    · split <;> rfl
  have herase : ∀ m : OrdMap Sequence InFlight, (m.erase seq).find? seq' = some f →
      m.find? seq' = some f := by
    intro m hm
    rw [OrdMap.find?_erase] at hm
    by_cases heq : seq' = seq
    · rw [if_pos heq] at hm
      exact absurd hm nofun
    · rwa [if_neg heq] at hm
  unfold ackOne at h
  cases hfind : s.inFlight.find? seq with
  | none =>
      rw [hfind] at h
      exact h
  | some g =>
      rw [hfind] at h
      simp only at h
      have h' := herase _ h
      split at h'
      · rwa [hrtt] at h'
      · exact h'

theorem onAck_keeps (s : ReliableSender) (ack : Sequence) (ackBits : BitVec 32) (now : ℚ) :
    (s.onAck ack ackBits now).nextSequence = s.nextSequence ∧
      ∀ seq f, (s.onAck ack ackBits now).inFlight.find? seq = some f →
        s.inFlight.find? seq = some f := by
  have hfold : ∀ (l : List Nat) (t : ReliableSender),
      let t' := l.foldl
        (fun s i => if ackBits.getLsbD i then s.ackOne (ack - 1 - seqOf i) now else s) t
      t'.nextSequence = t.nextSequence ∧
        ∀ seq f, t'.inFlight.find? seq = some f → t.inFlight.find? seq = some f := by
    intro l
    induction l with
    | nil => exact fun t => ⟨rfl, fun _ _ h => h⟩
    | cons i l ih =>
        intro t
        rw [List.foldl_cons]
        by_cases hbit : ackBits.getLsbD i = true
        · rw [if_pos hbit]
          rcases ih (t.ackOne (ack - 1 - seqOf i) now) with ⟨hnext, hfind⟩
          exact ⟨hnext.trans (ackOne_nextSequence t _ now),
            fun seq f h => ackOne_inFlight t _ now seq f (hfind seq f h)⟩
        · rw [if_neg hbit]
          exact ih t
  rcases hfold (List.range 32) (s.ackOne ack now) with ⟨hnext, hfind⟩
  exact ⟨hnext.trans (ackOne_nextSequence s ack now),
    fun seq f h => ackOne_inFlight s ack now seq f (hfind seq f h)⟩

/-- What is sent again is in flight, and stays in flight under its sequence. -/
theorem collectTimedOut_keeps (s : ReliableSender) (now : ℚ) :
    (∀ f ∈ (s.collectTimedOut now).1, ∃ seq g, s.inFlight.find? seq = some g ∧
      g.sequence = f.sequence) ∧
    (s.collectTimedOut now).2.nextSequence = s.nextSequence ∧
      ∀ seq f, (s.collectTimedOut now).2.inFlight.find? seq = some f →
        ∃ g, s.inFlight.find? seq = some g ∧ g.sequence = f.sequence := by
  have hseq : ∀ g f, s.resent now g = some f → g.sequence = f.sequence := by
    intro g f h
    unfold resent at h
    split at h
    · rw [Option.some.injEq] at h
      rw [← h]
    · exact absurd h nofun
  refine ⟨?_, rfl, ?_⟩
  · intro f hf
    rcases List.mem_filterMap.mp hf with ⟨⟨seq, g⟩, he, hr⟩
    exact ⟨seq, g, (s.inFlight.mem_entries seq g).mp he, hseq g f hr⟩
  · intro seq f h
    unfold collectTimedOut at h
    simp only [OrdMap.find?_map, Option.map_eq_some_iff] at h
    rcases h with ⟨g, hg, hf⟩
    refine ⟨g, hg, ?_⟩
    cases hr : s.resent now g with
    | none =>
        rw [hr, Option.getD_none] at hf
        rw [hf]
    | some f' =>
        rw [hr, Option.getD_some] at hf
        rw [← hf]
        exact hseq g f' hr

end ReliableSender

/-! ## Runs -/

namespace ReliableLink

/-- What a delivery makes of the receiver's memory and the log. -/
theorem Sound.deliver {s : ReliableLink} (h : Sound s) (c : Copy) (hc : c ∈ s.copies)
    (hclose : s.Close) (htimely : s.Timely (.deliver c)) :
    ((s.receiver.onReceive c.sequence).1 = true ↔ c.message ∉ s.heard) ∧
      ∃ newest, Remembers (s.receiver.onReceive c.sequence).2 (s.heard ++ [c.message]) newest := by
  rcases h.copies c hc with ⟨hseq, hsent⟩
  rw [hseq]
  rcases h.receiver with ⟨hnone, hseen⟩ | ⟨newest, hmem⟩
  · rcases ReliableReceiver.onReceive_first s.receiver hseen c.message with ⟨hans, hnext⟩
    rw [hnone]
    exact ⟨⟨fun _ => List.not_mem_nil, fun _ => hans⟩, c.message, hnext⟩
  · have hnewest := h.heard newest hmem.mem
    have hnear := hclose c hc
    by_cases hknown : c.message ∈ s.heard
    · have hold := htimely.1 hknown newest hmem.mem
      rw [ReliableReceiver.onReceive_known hmem hknown hold]
      refine ⟨⟨fun h => absurd h Bool.false_ne_true, fun h => absurd hknown h⟩, newest, ?_⟩
      have hsame : ∀ x, x ∈ s.heard ++ [c.message] ↔ x ∈ s.heard := by
        intro x
        rw [List.mem_append, List.mem_singleton]
        exact ⟨fun h => h.elim id fun h => h ▸ hknown, Or.inl⟩
      refine ⟨hmem.seen, (hsame _).mpr hmem.mem, fun x hx => hmem.max x ((hsame x).mp hx),
        hmem.latest, fun seq => ?_⟩
      rw [hmem.received]
      simp only [hsame]
    · by_cases hlt : c.message < newest
      · rcases ReliableReceiver.onReceive_late hmem hknown hlt (by omega) with ⟨hans, hnext⟩
        exact ⟨⟨fun _ => hknown, fun _ => hans⟩, newest, hnext⟩
      · have hgt : newest < c.message := by
          rcases Nat.lt_or_eq_of_le (Nat.le_of_not_lt hlt) with h | h
          · exact h
          · exact absurd (h ▸ hmem.mem) hknown
        have hahead : ∀ x ∈ s.heard, x < c.message := fun x hx =>
          Nat.lt_of_le_of_lt (hmem.max x hx) hgt
        rcases ReliableReceiver.onReceive_newer hmem hgt fun x hx hnear =>
          htimely.2 hahead x hx fun y hy => Nat.le_trans (hmem.max y hy) hnear with ⟨hans, hnext⟩
        exact ⟨⟨fun _ => hknown, fun _ => hans⟩, c.message, hnext⟩

/-- Every step of close copies and timely deliveries keeps the invariant. -/
theorem Sound.step {s t : ReliableLink} (h : Sound s) (l : Label) (hclose : s.Close)
    (htimely : s.Timely l) (hstep : s.step l = some t) : Sound t := by
  cases l with
  | send payload now =>
      simp only [ReliableLink.step, Option.some.injEq] at hstep
      rw [← hstep]
      have hseq : (s.sender.send payload now).1 = seqOf s.sent := h.next
      refine ⟨?_, ?_, ?_, fun x hx => Nat.lt_succ_of_lt (h.heard x hx), h.receiver, h.first⟩
      · exact (congrArg (· + 1) h.next).trans (seqOf_succ s.sent)
      · intro c hc
        rcases List.mem_append.mp hc with hc | hc
        · exact ⟨(h.copies c hc).1, Nat.lt_succ_of_lt (h.copies c hc).2⟩
        · rw [List.mem_singleton.mp hc]
          exact ⟨hseq, Nat.lt_succ_self _⟩
      · intro seq f hf
        simp only [ReliableSender.send, OrdMap.find?_insert] at hf
        simp only [hseq]
        by_cases heq : seq = s.sender.nextSequence
        · rw [if_pos heq, Option.some.injEq] at hf
          rw [if_pos (heq.trans h.next), ← hf]
          exact ⟨heq.symm, (heq.trans h.next).symm, Nat.lt_succ_self _⟩
        · rw [if_neg heq] at hf
          rcases h.flight seq f hf with ⟨h1, h2, h3⟩
          rw [if_neg (by rw [← h.next]; exact heq)]
          exact ⟨h1, h2, Nat.lt_succ_of_lt h3⟩
  | resend now =>
      simp only [ReliableLink.step, Option.some.injEq] at hstep
      rw [← hstep]
      rcases s.sender.collectTimedOut_keeps now with ⟨hout, hnext, hfind⟩
      refine ⟨hnext.trans h.next, ?_, ?_, h.heard, h.receiver, h.first⟩
      · intro c hc
        rcases List.mem_append.mp hc with hc | hc
        · exact h.copies c hc
        · rcases List.mem_map.mp hc with ⟨f, hf, rfl⟩
          rcases hout f hf with ⟨seq, g, hg, hgf⟩
          rcases h.flight seq g hg with ⟨h1, h2, h3⟩
          have hfs : f.sequence = seq := hgf.symm.trans h1
          rw [hfs]
          exact ⟨h2.symm, h3⟩
      · intro seq f hf
        rcases hfind seq f hf with ⟨g, hg, hgf⟩
        rcases h.flight seq g hg with ⟨h1, h2, h3⟩
        exact ⟨hgf.symm.trans h1, h2, h3⟩
  | ack ack ackBits now =>
      simp only [ReliableLink.step, Option.some.injEq] at hstep
      rw [← hstep]
      rcases s.sender.onAck_keeps ack ackBits now with ⟨hnext, hfind⟩
      exact ⟨hnext.trans h.next, h.copies, fun seq f hf => h.flight seq f (hfind seq f hf),
        h.heard, h.receiver, h.first⟩
  | duplicate c =>
      simp only [ReliableLink.step] at hstep
      by_cases hc : c ∈ s.copies
      · rw [if_pos hc, Option.some.injEq] at hstep
        rw [← hstep]
        refine ⟨h.next, ?_, h.flight, h.heard, h.receiver, h.first⟩
        intro c' hc'
        rcases List.mem_append.mp hc' with hc' | hc'
        · exact h.copies c' hc'
        · rw [List.mem_singleton.mp hc']
          exact h.copies c hc
      · rw [if_neg hc] at hstep
        exact absurd hstep nofun
  | drop c =>
      simp only [ReliableLink.step] at hstep
      by_cases hc : c ∈ s.copies
      · rw [if_pos hc, Option.some.injEq] at hstep
        rw [← hstep]
        exact ⟨h.next, fun c' hc' => h.copies c' (List.mem_of_mem_erase hc'), h.flight, h.heard,
          h.receiver, h.first⟩
      · rw [if_neg hc] at hstep
        exact absurd hstep nofun
  | deliver c =>
      simp only [ReliableLink.step] at hstep
      by_cases hc : c ∈ s.copies
      · rw [if_pos hc, Option.some.injEq] at hstep
        rw [← hstep]
        rcases h.deliver c hc hclose htimely with ⟨hans, newest, hmem⟩
        have hheard : (s.log ++ [(c.message, (s.receiver.onReceive c.sequence).1)]).map Prod.fst =
            s.heard ++ [c.message] := List.map_append
        refine ⟨h.next, fun c' hc' => h.copies c' (List.mem_of_mem_erase hc'), h.flight, ?_,
          Or.inr ⟨newest, ?_⟩, h.first.snoc _ _ hans⟩
        · intro x hx
          have hx' : x ∈ s.heard ++ [c.message] := hheard ▸ hx
          rcases List.mem_append.mp hx' with hx' | hx'
          · exact h.heard x hx'
          · rw [List.mem_singleton.mp hx']
            exact (h.copies c hc).2
        · have hnext : Remembers (s.receiver.onReceive c.sequence).2
              ((s.log ++ [(c.message, (s.receiver.onReceive c.sequence).1)]).map Prod.fst)
              newest := by
            rw [hheard]
            exact hmem
          exact hnext
      · rw [if_neg hc] at hstep
        exact absurd hstep nofun

/-- In every run whose copies stay close and whose deliveries are timely, the receiver
    takes the first copy of each message and no other copy of it. -/
theorem firstOnly_of_timely {s : ReliableLink}
    (h : Reaches step (fun s l => s.Close ∧ s.Timely l) start s) : FirstOnly s.log :=
  (Reaches.invariant (I := Sound)
    (fun _ l _ hs hg hstep => hs.step l hg.1 hg.2 hstep) h sound_start).first

/-- One message, its copy delivered twice. -/
theorem firstOnly_of_timely_twice :
    ∃ s, Reaches step (fun s l => s.Close ∧ s.Timely l) start s ∧
      s.log = [(0, true), (0, false)] ∧ FirstOnly s.log := by
  let c : Copy := ⟨0, 0⟩
  let s1 : ReliableLink :=
    { sender := (ReliableSender.fresh.send [] 0).2, receiver := ReliableReceiver.fresh, sent := 1
      holder := fun seq => if seq = 0 then 0 else 0, copies := [c], log := [] }
  let s2 : ReliableLink := { s1 with copies := [c, c] }
  let s3 : ReliableLink :=
    { s2 with receiver := (s2.receiver.onReceive 0).2, copies := [c], log := [(0, true)] }
  let s4 : ReliableLink :=
    { s3 with receiver := (s3.receiver.onReceive 0).2, copies := []
              log := [(0, true), (0, false)] }
  have hclose : ∀ s : ReliableLink, s.sent ≤ 1 → s.Close := by
    intro s hs x _
    omega
  have hquiet : ∀ s : ReliableLink, s.heard ⊆ [0] → s.Timely (.deliver c) := by
    intro s hs
    have hzero : ∀ x ∈ s.heard, x = 0 := fun x hx => List.mem_singleton.mp (hs hx)
    exact ⟨fun _ x hx => by rw [hzero x hx]; omega, fun _ x _ _ => Nat.zero_le _⟩
  have h1 : Reaches step (fun s l => s.Close ∧ s.Timely l) start s1 :=
    Reaches.refl.tail (.send [] 0) ⟨hclose _ (Nat.zero_le _), trivial⟩ rfl
  have h2 : Reaches step (fun s l => s.Close ∧ s.Timely l) start s2 :=
    h1.tail (.duplicate c) ⟨hclose _ (Nat.le_refl _), trivial⟩ rfl
  have h3 : Reaches step (fun s l => s.Close ∧ s.Timely l) start s3 :=
    h2.tail (.deliver c) ⟨hclose _ (Nat.le_refl _), hquiet _ (List.nil_subset _)⟩ rfl
  have h4 : Reaches step (fun s l => s.Close ∧ s.Timely l) start s4 :=
    h3.tail (.deliver c) ⟨hclose _ (Nat.le_refl _), hquiet _ (List.Subset.refl _)⟩ rfl
  exact ⟨s4, h4, rfl, firstOnly_of_timely h4⟩

/-- Sending on: nothing is received, and every message's copy is under way. -/
theorem reaches_sends (n : Nat) : ∀ s : ReliableLink, s.sender.nextSequence = seqOf s.sent →
    s.sent + n ≤ 32768 → ∃ t, Reaches step (fun s _ => s.Close) s t ∧
      t.sent = s.sent + n ∧ t.receiver = s.receiver ∧ t.log = s.log ∧
      (∀ c ∈ s.copies, c ∈ t.copies) ∧
      ∀ m, s.sent ≤ m → m < s.sent + n → ⟨m, seqOf m⟩ ∈ t.copies := by
  induction n with
  | zero =>
      intro s _ _
      exact ⟨s, Reaches.refl, rfl, rfl, rfl, fun _ h => h, fun m h1 h2 => by omega⟩
  | succ n ih =>
      intro s hnext hroom
      have hclose : s.Close := fun c _ => by omega
      have hone : (s.sender.send [] 0).2.nextSequence = seqOf (s.sent + 1) :=
        (congrArg (· + 1) hnext).trans (seqOf_succ s.sent)
      rcases ih { s with
          sender := (s.sender.send [] 0).2, sent := s.sent + 1
          holder := fun seq => if seq = (s.sender.send [] 0).1 then s.sent else s.holder seq
          copies := s.copies ++ [⟨s.sent, (s.sender.send [] 0).1⟩] } hone (by simp only; omega)
        with ⟨t, hrun, hsent, hreceiver, hlog, hkept, hnew⟩
      refine ⟨t, Reaches.head (.send [] 0) hclose rfl hrun, by rw [hsent]; simp only; omega,
        hreceiver, hlog, fun c hc => hkept c (List.mem_append_left _ hc), ?_⟩
      intro m hlow hhigh
      rcases Nat.eq_or_lt_of_le hlow with rfl | hlow
      · refine hkept _ (List.mem_append_right _ ?_)
        rw [List.mem_singleton, ← hnext]
        rfl
      · exact hnew m hlow (by simp only; omega)

/-- What is delivered while copies are close. -/
theorem reaches_deliver {s t : ReliableLink} (h : Reaches step (fun s _ => s.Close) s t)
    (c : Copy) (hc : c ∈ t.copies) (hsent : t.sent ≤ 32768) :
    ∃ u, Reaches step (fun s _ => s.Close) s u ∧ u.sender = t.sender ∧ u.sent = t.sent ∧
      u.copies = t.copies.erase c ∧ u.receiver = (t.receiver.onReceive c.sequence).2 ∧
      u.log = t.log ++ [(c.message, (t.receiver.onReceive c.sequence).1)] :=
  ⟨_, h.tail (.deliver c) (fun x _ => by omega) (if_pos hc), rfl, rfl, rfl, rfl, rfl⟩

/-- A receiver that has heard message 1025 takes message 0 a second time: its copy is
    only 1025 behind. -/
theorem late_duplicate_accepted :
    ∃ s, Reaches step (fun s _ => s.Close) start s ∧
      s.log = [(0, true), (1025, true), (0, true)] ∧ ¬ FirstOnly s.log := by
  let c : Copy := ⟨0, 0⟩
  let s1 : ReliableLink :=
    { sender := (ReliableSender.fresh.send [] 0).2, receiver := ReliableReceiver.fresh, sent := 1
      holder := fun seq => if seq = 0 then 0 else 0, copies := [c, c], log := [] }
  have h1 : Reaches step (fun s _ => s.Close) start s1 :=
    (Reaches.refl.tail (.send [] 0) (fun x hx => absurd hx List.not_mem_nil) rfl).tail
      (.duplicate c) (fun x hx => by rw [List.mem_singleton.mp hx]; decide) rfl
  rcases reaches_deliver h1 c (List.mem_cons_self) (by decide) with
    ⟨s2, h2, hsender2, hsent2, hcopies2, hreceiver2, hlog2⟩
  have hfirst2 : s2.sent = 1 := hsent2
  rcases reaches_sends 1025 s2 (by rw [hsender2, hsent2]; rfl) (by rw [hfirst2]; decide) with
    ⟨s3, h3, hsent3, hreceiver3, hlog3, hkept3, hnew3⟩
  have hsmall3 : s3.sent ≤ 32768 := by omega
  have hlast : (⟨1025, seqOf 1025⟩ : Copy) ∈ s3.copies := hnew3 1025 (by omega) (by omega)
  have hlate : c ∈ s3.copies := hkept3 c (by rw [hcopies2]; decide)
  rcases reaches_deliver (h2.trans h3) _ hlast hsmall3 with
    ⟨s4, h4, hsender4, hsent4, hcopies4, hreceiver4, hlog4⟩
  have hlate4 : c ∈ s4.copies := by
    rw [hcopies4]
    exact (List.mem_erase_of_ne (by decide)).mpr hlate
  rcases reaches_deliver h4 c hlate4 (by omega) with ⟨s5, h5, _, _, _, _, hlog5⟩
  have hlog : s5.log = [(0, true), (1025, true), (0, true)] := by
    rw [hlog5, hreceiver4, hlog4, hreceiver3, hlog3, hreceiver2, hlog2]
    decide +kernel
  refine ⟨s5, h5, hlog, fun hfirst => ?_⟩
  have hagain := (hfirst [(0, true), (1025, true)] (0, true) [] hlog).mp rfl
  exact hagain (by decide)

end ReliableLink

end Net

end EarthRise
