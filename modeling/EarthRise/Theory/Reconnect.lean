import EarthRise.Core.Reconnect
import EarthRise.Lib.Exact
import EarthRise.Lib.Run
import Mathlib.Tactic.NormNum

/-!
# The Discipline of Reconnecting

What the waits of a controller are like, whatever is called and whenever.

A wait is armed once and fires once: polling it past the armed time arms the next one, and
losing the connection again leaves it as it is. Its delay is cut from a share of the ceiling
below one, so it is the ceiling at most, and the ceiling is the maximum at most. One more
attempt multiplies once more, which raises the ceiling or leaves it, so the ceilings grow from
the base until a connection. The counter of the attempts has 32 bits, and the ceilings start
over when it wraps.

The numbers are exact here, with integer parts cut off.

## Main definitions

* `Wait`: A wait that was armed, and when it fired.
* `Watch`: A controller and all its waits.
* `Watch.Counts`: The calls that do not wrap the counter.
* `Disciplined`: What is asked of the waits.

## Theorems

* `ceilingAt_mono`, `ceilingAt_le`, `delayMs_le`: The schedule.
* `Tracked.step`: What a call keeps.
* `waits_disciplined`: The waits of every run.
* `ceiling_drops`: What a wrap does.
-/

namespace EarthRise

namespace Reconnect

/-! ## The schedule -/

namespace ReconnectPolicy

section

variable {D : Type} [Floating D] (p : ReconnectPolicy D)

/-- One attempt more multiplies once more. -/
theorem grow_succ (n : Nat) (v : D) :
    p.grow (n + 1) v = (p.grow n v).bind fun u =>
      if ofInt p.maxDelayMs.toNat ≤ u * p.multiplier then none else some (u * p.multiplier) := by
  induction n generalizing v with
  | zero => simp only [grow, Option.bind_some]
  | succ n ih =>
      rw [grow]
      split
      · rename_i hmax
        simp only [grow, hmax, if_true, Option.bind_none]
      · rename_i hmax
        rw [ih]
        simp only [grow, if_neg hmax]

/-- Once at the maximum the growth stays there. -/
theorem grow_none {n : Nat} {v : D} (h : p.grow n v = none) (k : Nat) :
    p.grow (n + k) v = none := by
  induction k with
  | zero => exact h
  | succ k ih => rw [← Nat.add_assoc, grow_succ, ih, Option.bind_none]

end

section

variable {D : Type} [ExactTrunc D] (p : ReconnectPolicy D)

theorem trunc_le {x : D} (hx : 0 ≤ x) : (trunc x : D) ≤ x :=
  (ExactTrunc.le_trunc x _ hx).mp (le_refl _)

theorem trunc_mono {x y : D} (hx : 0 ≤ x) (hxy : x ≤ y) : trunc x ≤ trunc y :=
  (ExactTrunc.le_trunc y _ (hx.trans hxy)).mpr ((trunc_le hx).trans hxy)

/-- A number below a 32-bit one is cut to a 32-bit one. -/
theorem toNat_cut {x : D} (hx : 0 ≤ x) {n : UInt32} (hle : x ≤ (n.toNat : D)) :
    (UInt32.ofNat (trunc x).toNat).toNat = (trunc x).toNat ∧ (trunc x).toNat ≤ n.toNat := by
  have hcast : (trunc x : D) ≤ ((n.toNat : Int) : D) := by
    rw [Int.cast_natCast]
    exact (trunc_le hx).trans hle
  have hint := Int.cast_le.mp hcast
  have hbound := n.toNat_lt
  refine ⟨?_, by omega⟩
  rw [UInt32.toNat_ofNat', Nat.mod_eq_of_lt (by omega)]

/-- What the delays are multiplied up to is not negative. -/
theorem grow_nonneg (hm : 1 ≤ p.multiplier) {n : Nat} {v u : D} (hv : 0 ≤ v)
    (h : p.grow n v = some u) : 0 ≤ u := by
  induction n generalizing v with
  | zero =>
      rw [grow, Option.some.injEq] at h
      rwa [← h]
  | succ n ih =>
      rw [grow] at h
      split at h
      · exact absurd h nofun
      · exact ih (mul_nonneg hv (zero_le_one.trans hm)) h

theorem base_nonneg : (0 : D) ≤ ofInt p.baseDelayMs.toNat := by
  rw [Exact.ofInt_eq, Int.cast_natCast]
  exact Nat.cast_nonneg _

/-- The ceiling after `n` attempts, before the counter is cut to 32 bits. -/
def ceilingAt (n : Nat) : UInt32 :=
  match p.grow n (ofInt p.baseDelayMs.toNat) with
  | none => p.maxDelayMs
  | some v =>
      if ofInt p.maxDelayMs.toNat ≤ v then p.maxDelayMs else UInt32.ofNat (trunc v).toNat

theorem ceilingMs_eq (a : UInt32) : p.ceilingMs a = p.ceilingAt a.toNat := rfl

theorem toNat_ceilingAt {n : Nat} {v : D} (hv : 0 ≤ v)
    (h : p.grow n (ofInt p.baseDelayMs.toNat) = some v) (hlt : v < ofInt p.maxDelayMs.toNat) :
    (p.ceilingAt n).toNat = (trunc v).toNat ∧ (trunc v).toNat ≤ p.maxDelayMs.toNat := by
  rw [Exact.ofInt_eq, Int.cast_natCast] at hlt
  have hcut := toNat_cut hv hlt.le
  unfold ceilingAt
  rw [h]
  simp only [Exact.ofInt_eq, Int.cast_natCast, if_neg (not_le.mpr hlt)]
  exact hcut

/-- A ceiling is the maximum at most. -/
theorem ceilingAt_le (hm : 1 ≤ p.multiplier) (n : Nat) : p.ceilingAt n ≤ p.maxDelayMs := by
  cases h : p.grow n (ofInt p.baseDelayMs.toNat) with
  | none => simp only [ceilingAt, h, UInt32.le_refl]
  | some v =>
      by_cases hmax : ofInt p.maxDelayMs.toNat ≤ v
      · simp only [ceilingAt, h, if_pos hmax, UInt32.le_refl]
      · have hcut := p.toNat_ceilingAt (p.grow_nonneg hm p.base_nonneg h) h (not_le.mp hmax)
        rw [UInt32.le_iff_toNat_le, hcut.1]
        exact hcut.2

/-- One attempt more does not lower the ceiling. -/
theorem ceilingAt_succ (hm : 1 ≤ p.multiplier) (n : Nat) :
    p.ceilingAt n ≤ p.ceilingAt (n + 1) := by
  have hgrow := p.grow_succ n (ofInt p.baseDelayMs.toNat)
  cases h : p.grow n (ofInt p.baseDelayMs.toNat) with
  | none =>
      rw [h, Option.bind_none] at hgrow
      simp only [ceilingAt, h, hgrow, UInt32.le_refl]
  | some v =>
      rw [h, Option.bind_some] at hgrow
      have hv := p.grow_nonneg hm p.base_nonneg h
      have hmore : v ≤ v * p.multiplier := le_mul_of_one_le_right hv hm
      by_cases hmax : ofInt p.maxDelayMs.toNat ≤ v * p.multiplier
      · rw [if_pos hmax] at hgrow
        have htop : p.ceilingAt (n + 1) = p.maxDelayMs := by simp only [ceilingAt, hgrow]
        rw [htop]
        exact p.ceilingAt_le hm n
      · -- Neither is at the maximum, so both are cut from what they are multiplied up to.
        rw [if_neg hmax] at hgrow
        have hlt := not_le.mp hmax
        have hnow := p.toNat_ceilingAt hv h (hmore.trans_lt hlt)
        have hnext := p.toNat_ceilingAt (hv.trans hmore) hgrow hlt
        rw [UInt32.le_iff_toNat_le, hnow.1, hnext.1]
        exact Int.toNat_le_toNat (trunc_mono hv hmore)

theorem ceilingAt_mono (hm : 1 ≤ p.multiplier) {m n : Nat} (hmn : m ≤ n) :
    p.ceilingAt m ≤ p.ceilingAt n := by
  induction n, hmn using Nat.le_induction with
  | base => exact UInt32.le_refl _
  | succ n _ ih => exact UInt32.le_trans ih (p.ceilingAt_succ hm n)

/-- The ceiling before the first attempt is the base, or the maximum where that is lower. -/
theorem ceilingMs_zero :
    p.ceilingMs 0 = if p.maxDelayMs ≤ p.baseDelayMs then p.maxDelayMs else p.baseDelayMs := by
  have hbase : p.grow 0 (ofInt p.baseDelayMs.toNat) = some (ofInt p.baseDelayMs.toNat) := rfl
  have hle : (ofInt p.maxDelayMs.toNat : D) ≤ ofInt p.baseDelayMs.toNat ↔
      p.maxDelayMs ≤ p.baseDelayMs := by
    rw [Exact.ofInt_eq, Exact.ofInt_eq, Int.cast_le, Int.ofNat_le, UInt32.le_iff_toNat_le]
  rw [ceilingMs_eq, show (0 : UInt32).toNat = 0 from rfl]
  by_cases hmax : p.maxDelayMs ≤ p.baseDelayMs
  · simp only [ceilingAt, hbase, hle, if_pos hmax]
  · rw [if_neg hmax]
    have hcut := p.toNat_ceilingAt p.base_nonneg hbase (not_le.mp fun h => hmax (hle.mp h))
    have hexact : trunc (ofInt p.baseDelayMs.toNat : D) = p.baseDelayMs.toNat := by
      refine le_antisymm ?_ ?_
      · have h : (trunc (ofInt p.baseDelayMs.toNat : D) : D) ≤ ((p.baseDelayMs.toNat : Int) : D) :=
          (trunc_le p.base_nonneg).trans (le_of_eq (Exact.ofInt_eq _))
        exact Int.cast_le.mp h
      · refine (ExactTrunc.le_trunc _ _ p.base_nonneg).mpr (le_of_eq ?_)
        rw [Exact.ofInt_eq]
    rw [hexact, Int.toNat_natCast] at hcut
    exact UInt32.toNat_inj.mp hcut.1

/-- A delay is its ceiling at most. -/
theorem delayMs_le (a : UInt32) (jitter01 : D) : p.delayMs a jitter01 ≤ p.ceilingMs a := by
  unfold delayMs
  generalize hj : (if jitter01 < 0 then (0 : D) else if 1 ≤ jitter01 then 0.999999 else jitter01) =
    j
  have hrange : 0 ≤ j ∧ j ≤ 1 := by
    have hlit : (0.999999 : D) = 999999 / 1000000 := by
      rw [Exact.ofScientific_eq]
      norm_num
    rw [← hj]
    split
    · exact ⟨le_refl _, zero_le_one⟩
    · split
      · rw [hlit]
        constructor <;> norm_num
      · rename_i hneg hone
        exact ⟨not_lt.mp hneg, (not_le.mp hone).le⟩
  have hceil : (0 : D) ≤ ((p.ceilingMs a).toNat : D) := Nat.cast_nonneg _
  have hnonneg := mul_nonneg hrange.1 hceil
  have hcut := toNat_cut hnonneg (mul_le_of_le_one_left hceil hrange.2)
  simp only [Exact.ofInt_eq, Int.cast_natCast]
  rw [UInt32.le_iff_toNat_le, hcut.1]
  exact hcut.2

end

end ReconnectPolicy

/-! ## The waits of a controller -/

/-- A wait that was armed: after how many attempts, in which outage, with which delay, until
    when, and at which times a poll answered it with an attempt. -/
structure Wait where
  attempt : UInt32
  outage : Nat
  delay : UInt32
  wakes : UInt64
  fired : List UInt64
  deriving DecidableEq, Repr

inductive ReconnectCall
  | connected
  | lost (nowMs : UInt64)
  | poll (nowMs : UInt64)
  deriving DecidableEq, Repr

/-- A controller, the time of the last call, how many connections there were, and the waits that
    were armed, the last one first. -/
structure Watch (D : Type) where
  controller : ReconnectController D
  nowMs : UInt64
  outage : Nat
  waits : List Wait

namespace Watch

section

variable {D : Type} [Floating D]

def start (policy : ReconnectPolicy D) (jitterSeed : UInt64) : Watch D :=
  ⟨.new policy jitterSeed, 0, 0, []⟩

/-- The wait that a controller arms. -/
def arm (c : ReconnectController D) (outage : Nat) (nowMs : UInt64) : Wait :=
  ⟨c.attempt, outage, c.nextDelay, (c.scheduleNext nowMs).nextAttemptMs, []⟩

/-- The current wait fires. -/
def fire (nowMs : UInt64) : List Wait → List Wait
  | [] => []
  | w :: rest => { w with fired := nowMs :: w.fired } :: rest

/-- A call, not before the last one. -/
def step (w : Watch D) : ReconnectCall → Option (Watch D)
  | .connected => some { w with controller := w.controller.onConnected, outage := w.outage + 1 }
  | .lost nowMs =>
      if nowMs < w.nowMs then none
      else some
        { w with
          controller := w.controller.onConnectionLost nowMs
          nowMs := nowMs
          waits := if w.controller.waiting then w.waits
            else arm w.controller w.outage nowMs :: w.waits }
  | .poll nowMs =>
      if nowMs < w.nowMs then none
      else some
        { w with
          controller := (w.controller.poll nowMs).2
          nowMs := nowMs
          waits := match (w.controller.poll nowMs).1 with
            | .none => w.waits
            | .attempt =>
                arm { w.controller with attempt := w.controller.attempt + 1 } w.outage nowMs ::
                  fire nowMs w.waits }

/-- No armed wait is polled past its time when the counter of the attempts is at its end. -/
def Counts (w : Watch D) : ReconnectCall → Prop
  | .poll nowMs => w.controller.waiting = true ∧ w.controller.nextAttemptMs ≤ nowMs →
      w.controller.attempt.toNat + 1 < 2 ^ 32
  | _ => True

instance (w : Watch D) (c : ReconnectCall) : Decidable (w.Counts c) :=
  match c with
  | .poll _ => inferInstanceAs (Decidable (_ → _))
  | .connected => inferInstanceAs (Decidable True)
  | .lost _ => inferInstanceAs (Decidable True)

/-- A wait fires once at most and not before it is over; its delay is its ceiling at most; the
    ceilings of an outage start at the base and do not fall; and losing the connection does not
    move a wait. -/
structure Disciplined (w : Watch D) : Prop where
  once : ∀ x ∈ w.waits, x.fired = [] ∨ ∃ t, x.fired = [t] ∧ x.wakes ≤ t
  bounded : ∀ x ∈ w.waits, x.delay ≤ w.controller.policy.ceilingMs x.attempt ∧
    w.controller.policy.ceilingMs x.attempt ≤ w.controller.policy.maxDelayMs
  growing : w.waits.Pairwise fun later earlier => later.outage = earlier.outage →
    w.controller.policy.ceilingMs earlier.attempt ≤ w.controller.policy.ceilingMs later.attempt
  reset : ∀ later x earlier, w.waits = later ++ x :: earlier →
    (∀ y ∈ earlier, y.outage ≠ x.outage) → w.controller.policy.ceilingMs x.attempt =
      if w.controller.policy.maxDelayMs ≤ w.controller.policy.baseDelayMs then
        w.controller.policy.maxDelayMs else w.controller.policy.baseDelayMs
  armed : w.controller.waiting = true → ∃ x rest, w.waits = x :: rest ∧
    x.wakes = w.controller.nextAttemptMs ∧ x.fired = []
  steady : w.controller.waiting = true → ∀ nowMs,
    w.controller.onConnectionLost nowMs = w.controller

end

/-! ## What a call keeps -/

section

variable {D : Type} [Floating D] {w : Watch D}

section

variable (c : ReconnectController D) (outage : Nat) (nowMs : UInt64)

@[simp] theorem scheduleNext_policy : (c.scheduleNext nowMs).policy = c.policy := by
  unfold ReconnectController.scheduleNext
  rfl

@[simp] theorem scheduleNext_attempt : (c.scheduleNext nowMs).attempt = c.attempt := by
  unfold ReconnectController.scheduleNext
  rfl

@[simp] theorem scheduleNext_waiting : (c.scheduleNext nowMs).waiting = true := by
  unfold ReconnectController.scheduleNext
  rfl

@[simp] theorem arm_attempt : (arm c outage nowMs).attempt = c.attempt := rfl

@[simp] theorem arm_outage : (arm c outage nowMs).outage = outage := rfl

@[simp] theorem arm_delay :
    (arm c outage nowMs).delay = c.policy.delayMs c.attempt c.rng.next01.1 := rfl

@[simp] theorem arm_fired : (arm c outage nowMs).fired = [] := rfl

@[simp] theorem arm_wakes :
    (arm c outage nowMs).wakes = (c.scheduleNext nowMs).nextAttemptMs := by
  unfold arm
  rfl

end

/-- The first wait is the armed one, the waits of an outage count its attempts upward from
    zero, and an outage without an armed wait has none. -/
structure Tracked (w : Watch D) : Prop where
  once : ∀ x ∈ w.waits, x.fired = [] ∨ ∃ t, x.fired = [t] ∧ x.wakes ≤ t
  delays : ∀ x ∈ w.waits, ∃ r : JitterRng,
    x.delay = w.controller.policy.delayMs x.attempt r.next01.1
  past : ∀ x ∈ w.waits, x.outage ≤ w.outage
  counts : w.waits.Pairwise fun later earlier => later.outage = earlier.outage →
    earlier.attempt.toNat ≤ later.attempt.toNat
  resets : ∀ later x earlier, w.waits = later ++ x :: earlier →
    (∀ y ∈ earlier, y.outage ≠ x.outage) → x.attempt = 0
  armed : w.controller.waiting = true → ∃ x rest, w.waits = x :: rest ∧
    x.wakes = w.controller.nextAttemptMs ∧ x.fired = [] ∧ x.attempt = w.controller.attempt ∧
    x.outage = w.outage
  idle : w.controller.waiting = false → w.controller.attempt = 0 ∧
    ∀ x ∈ w.waits, x.outage ≠ w.outage

theorem tracked_start (policy : ReconnectPolicy D) (jitterSeed : UInt64) :
    Tracked (start policy jitterSeed) where
  once x hx := absurd hx List.not_mem_nil
  delays x hx := absurd hx List.not_mem_nil
  past x hx := absurd hx List.not_mem_nil
  counts := List.Pairwise.nil
  resets later x earlier h := by simp [start] at h
  armed h := by simp [start, ReconnectController.new] at h
  idle _ := ⟨rfl, fun x hx => absurd hx List.not_mem_nil⟩

theorem Tracked.connected (hw : Tracked w) :
    Tracked { w with controller := w.controller.onConnected, outage := w.outage + 1 } where
  once := hw.once
  delays := hw.delays
  past x hx := Nat.le_succ_of_le (hw.past x hx)
  counts := hw.counts
  resets := hw.resets
  armed h := by simp [ReconnectController.onConnected] at h
  idle _ := by
    refine ⟨rfl, fun x hx => ?_⟩
    have := hw.past x hx
    show x.outage ≠ w.outage + 1
    omega

/-- A wait is armed before which the outage has none. -/
theorem Tracked.lost (hw : Tracked w) (nowMs : UInt64)
    (hidle : w.controller.waiting = false) :
    Tracked { w with
      controller := w.controller.scheduleNext nowMs
      nowMs := nowMs
      waits := arm w.controller w.outage nowMs :: w.waits } := by
  rcases hw.idle hidle with ⟨hzero, hnone⟩
  refine ⟨?_, ?_, ?_, ?_, ?_, fun _ => ⟨arm w.controller w.outage nowMs, w.waits, ?_⟩,
    fun h => ?_⟩
  · intro x hx
    rcases List.mem_cons.mp hx with rfl | hold
    · simp
    · exact hw.once x hold
  · intro x hx
    rcases List.mem_cons.mp hx with rfl | hold
    · exact ⟨w.controller.rng, by simp⟩
    · simp only [scheduleNext_policy]
      exact hw.delays x hold
  · intro x hx
    rcases List.mem_cons.mp hx with rfl | hold
    · simp
    · exact hw.past x hold
  · refine List.pairwise_cons.mpr ⟨fun x hx hsame => ?_, hw.counts⟩
    exact absurd hsame.symm (hnone x hx)
  · intro later x earlier hsplit hfresh
    cases later with
    | nil =>
        rw [List.nil_append, List.cons.injEq] at hsplit
        rw [← hsplit.1, arm_attempt]
        exact hzero
    | cons y later =>
        rw [List.cons_append, List.cons.injEq] at hsplit
        exact hw.resets later x earlier hsplit.2 hfresh
  · simp
  · simp at h

/-- The armed wait fires, and the next one of the outage is armed. -/
theorem Tracked.fires (hw : Tracked w) (nowMs : UInt64)
    (hwaiting : w.controller.waiting = true) (hover : w.controller.nextAttemptMs ≤ nowMs)
    (hcount : w.controller.attempt.toNat + 1 < 2 ^ 32) :
    Tracked { w with
      controller := { w.controller with attempt := w.controller.attempt + 1 }.scheduleNext nowMs
      nowMs := nowMs
      waits := arm { w.controller with attempt := w.controller.attempt + 1 } w.outage nowMs ::
        fire nowMs w.waits } := by
  rcases hw.armed hwaiting with ⟨x, rest, hwaits, hwakes, hfired, hattempt, houtage⟩
  have hnext : (w.controller.attempt + 1).toNat = w.controller.attempt.toNat + 1 := by
    rw [UInt32.toNat_add]
    exact Nat.mod_eq_of_lt hcount
  -- Firing changes nothing else about a wait.
  have hmem : ∀ y ∈ fire nowMs w.waits, ∃ z ∈ w.waits, y.attempt = z.attempt ∧
      y.outage = z.outage ∧ y.delay = z.delay := by
    rw [hwaits]
    intro y hy
    rcases List.mem_cons.mp hy with rfl | hold
    · exact ⟨x, List.mem_cons_self, rfl, rfl, rfl⟩
    · exact ⟨y, List.mem_cons_of_mem _ hold, rfl, rfl, rfl⟩
  have hcounts := hw.counts
  rw [hwaits, List.pairwise_cons] at hcounts
  refine ⟨?_, ?_, ?_, ?_, ?_, fun _ =>
    ⟨arm { w.controller with attempt := w.controller.attempt + 1 } w.outage nowMs,
      fire nowMs w.waits, ?_⟩, fun h => ?_⟩
  · intro y hy
    rcases List.mem_cons.mp hy with rfl | hold
    · simp
    · rw [hwaits] at hold
      rcases List.mem_cons.mp hold with rfl | hrest
      · refine .inr ⟨nowMs, ?_, ?_⟩
        · simp only [hfired]
        · simp only [hwakes]
          exact hover
      · exact hw.once y (by rw [hwaits]; exact List.mem_cons_of_mem _ hrest)
  · intro y hy
    rcases List.mem_cons.mp hy with rfl | hold
    · exact ⟨w.controller.rng, by simp⟩
    · rcases hmem y hold with ⟨z, hz, ha, _, hd⟩
      simp only [scheduleNext_policy, ha, hd]
      exact hw.delays z hz
  · intro y hy
    rcases List.mem_cons.mp hy with rfl | hold
    · simp
    · rcases hmem y hold with ⟨z, hz, _, ho, _⟩
      rw [ho]
      exact hw.past z hz
  · refine List.pairwise_cons.mpr ⟨fun y hy hsame => ?_, ?_⟩
    · -- Any wait of the outage is the armed one or has no more attempts than it.
      simp only [arm_attempt, arm_outage] at hsame ⊢
      rw [hnext, ← hattempt]
      rw [hwaits] at hy
      rcases List.mem_cons.mp hy with rfl | hrest
      · exact Nat.le_succ _
      · exact Nat.le_succ_of_le (hcounts.1 y hrest (houtage.trans hsame))
    · rw [hwaits]
      exact List.pairwise_cons.mpr hcounts
  · intro later y earlier hsplit hfresh
    rw [hwaits] at hsplit
    cases later with
    | nil =>
        rw [List.nil_append, List.cons.injEq] at hsplit
        rcases hsplit with ⟨rfl, rfl⟩
        exact absurd houtage (hfresh { x with fired := nowMs :: x.fired } List.mem_cons_self)
    | cons z later =>
        rw [List.cons_append, List.cons.injEq] at hsplit
        cases later with
        | nil =>
            rw [List.nil_append, fire, List.cons.injEq] at hsplit
            rcases hsplit.2 with ⟨rfl, rfl⟩
            exact hw.resets [] x rest hwaits hfresh
        | cons z' later =>
            rw [List.cons_append, fire, List.cons.injEq] at hsplit
            refine hw.resets (x :: later) y earlier ?_ hfresh
            rw [hwaits, hsplit.2.2, List.cons_append]
  · simp
  · simp at h

/-- What a poll does. -/
theorem poll_cases (c : ReconnectController D) (nowMs : UInt64) :
    c.poll nowMs = (.none, c) ∨ c.waiting = true ∧ c.nextAttemptMs ≤ nowMs ∧
      c.poll nowMs = (.attempt, { c with attempt := c.attempt + 1 }.scheduleNext nowMs) := by
  unfold ReconnectController.poll
  cases hwaiting : c.waiting with
  | false => exact .inl rfl
  | true =>
      by_cases hearly : nowMs < c.nextAttemptMs
      · exact .inl (by simp [hearly])
      · exact .inr ⟨rfl, UInt64.not_lt.mp hearly, by simp [hearly]⟩

theorem Tracked.step {w t : Watch D} (hw : Tracked w) (c : ReconnectCall) (hcounts : w.Counts c)
    (hstep : w.step c = some t) :
    Tracked t ∧ t.controller.policy = w.controller.policy := by
  cases c with
  | connected =>
      rw [Watch.step, Option.some.injEq] at hstep
      subst hstep
      exact ⟨hw.connected, rfl⟩
  | lost nowMs =>
      rw [Watch.step] at hstep
      split at hstep
      · exact absurd hstep nofun
      · rw [Option.some.injEq] at hstep
        subst hstep
        cases hwaiting : w.controller.waiting with
        | true =>
            rw [ReconnectController.onConnectionLost, hwaiting]
            exact ⟨⟨hw.once, hw.delays, hw.past, hw.counts, hw.resets, hw.armed, hw.idle⟩, rfl⟩
        | false =>
            rw [ReconnectController.onConnectionLost, hwaiting]
            exact ⟨hw.lost nowMs hwaiting, scheduleNext_policy _ _⟩
  | poll nowMs =>
      rw [Watch.step] at hstep
      split at hstep
      · exact absurd hstep nofun
      · rw [Option.some.injEq] at hstep
        subst hstep
        rcases poll_cases w.controller nowMs with hpoll | ⟨hwaiting, hover, hpoll⟩
        · rw [hpoll]
          exact ⟨⟨hw.once, hw.delays, hw.past, hw.counts, hw.resets, hw.armed, hw.idle⟩, rfl⟩
        · rw [hpoll]
          exact ⟨hw.fires nowMs hwaiting hover (hcounts ⟨hwaiting, hover⟩), scheduleNext_policy _ _⟩

end

/-! ## Every run -/

theorem Tracked.disciplined {D : Type} [ExactTrunc D] {w : Watch D} (hw : Tracked w)
    (hm : 1 ≤ w.controller.policy.multiplier) : Disciplined w where
  once := hw.once
  bounded x hx := by
    rcases hw.delays x hx with ⟨r, hr⟩
    refine ⟨?_, w.controller.policy.ceilingAt_le hm _⟩
    rw [hr]
    exact w.controller.policy.delayMs_le _ _
  growing := hw.counts.imp fun h hsame => w.controller.policy.ceilingAt_mono hm (h hsame)
  reset later x earlier hsplit hfresh := by
    rw [hw.resets later x earlier hsplit hfresh]
    exact w.controller.policy.ceilingMs_zero
  armed h := by
    rcases hw.armed h with ⟨x, rest, hwaits, hwakes, hfired, _⟩
    exact ⟨x, rest, hwaits, hwakes, hfired⟩
  steady h nowMs := by rw [ReconnectController.onConnectionLost, if_pos h]

/-- Whatever is called and whenever, the waits are as they should be, as long as no attempt is
    made when the counter of the attempts is at its end. -/
theorem waits_disciplined {D : Type} [ExactTrunc D] (policy : ReconnectPolicy D)
    (hm : 1 ≤ policy.multiplier) (jitterSeed : UInt64) {w : Watch D}
    (h : Run.Reaches step Counts (start policy jitterSeed) w) : Disciplined w := by
  have hinv : Tracked w ∧ w.controller.policy = policy := by
    refine Run.Reaches.invariant
      (I := fun w => Tracked w ∧ w.controller.policy = policy) ?_ h
      ⟨tracked_start policy jitterSeed, rfl⟩
    intro s c t hs hcounts hstep
    rcases hs.1.step c hcounts hstep with ⟨ht, hpolicy⟩
    exact ⟨ht, hpolicy.trans hs.2⟩
  exact hinv.1.disciplined (by rw [hinv.2]; exact hm)

/-- A connection that is lost twice, an attempt, and one that is lost after it. -/
theorem waits_disciplined_twice :
    ∃ w : Watch ℚ, Run.Reaches step Counts (start .default 1) w ∧
      w.waits.map (fun x => (x.attempt, x.outage, x.fired)) =
        [(0, 1, []), (1, 0, []), (0, 0, [600])] ∧
      Disciplined w := by
  have hrun : (Run.runGuarded step Counts (start .default 1 : Watch ℚ)
      [.lost 10, .lost 20, .poll 30, .poll 600, .connected, .lost 700]).any (fun w =>
        w.waits.map (fun x => (x.attempt, x.outage, x.fired)) =
          [(0, 1, []), (1, 0, []), (0, 0, [600])]) = true := by decide +kernel
  rcases Run.exists_of_runGuarded _ hrun with ⟨w, hreach, hwaits⟩
  exact ⟨w, hreach, of_decide_eq_true hwaits,
    waits_disciplined .default (by decide +kernel) 1 hreach⟩

/-! ## When the counter wraps -/

/-- An armed wait can be polled once it is over. -/
theorem fires_late {D : Type} [Floating D] {w : Watch D} (hwaiting : w.controller.waiting = true) :
    ∃ nowMs, w.controller.nextAttemptMs ≤ nowMs ∧ w.step (.poll nowMs) = some { w with
      controller := { w.controller with attempt := w.controller.attempt + 1 }.scheduleNext nowMs
      nowMs := nowMs
      waits := arm { w.controller with attempt := w.controller.attempt + 1 } w.outage nowMs ::
        fire nowMs w.waits } := by
  have hlate : ∃ nowMs, w.controller.nextAttemptMs ≤ nowMs ∧ w.nowMs ≤ nowMs := by
    by_cases hle : w.controller.nextAttemptMs ≤ w.nowMs
    · exact ⟨w.nowMs, hle, UInt64.le_refl _⟩
    · exact ⟨w.controller.nextAttemptMs, UInt64.le_refl _, UInt64.le_of_lt (UInt64.not_le.mp hle)⟩
  rcases hlate with ⟨nowMs, hover, hnow⟩
  refine ⟨nowMs, hover, ?_⟩
  have hpoll : w.controller.poll nowMs =
      (.attempt, { w.controller with attempt := w.controller.attempt + 1 }.scheduleNext nowMs) := by
    simp [ReconnectController.poll, hwaiting, UInt64.not_lt.mpr hover]
  rw [Watch.step, if_neg (UInt64.not_lt.mpr hnow), hpoll]

/-- A shard that stays away lets the attempts count up to any number below `2 ^ 32`. -/
theorem attempts_reach {D : Type} [Floating D] (policy : ReconnectPolicy D) (jitterSeed : UInt64)
    (n : Nat) (hn : n < 2 ^ 32) : ∃ w, Run.Reaches step Run.free (start policy jitterSeed) w ∧
      Tracked w ∧ w.controller.policy = policy ∧ w.controller.waiting = true ∧
      w.controller.attempt.toNat = n := by
  induction n with
  | zero =>
      have hstart := tracked_start policy jitterSeed
      refine ⟨_, Run.Reaches.refl.tail (.lost 0) trivial rfl, ?_⟩
      have hidle : (start policy jitterSeed).controller.waiting = false := rfl
      simp only [ReconnectController.onConnectionLost, hidle, Bool.false_eq_true, if_false]
      refine ⟨hstart.lost 0 hidle, scheduleNext_policy _ _, scheduleNext_waiting _ _, ?_⟩
      rw [scheduleNext_attempt]
      rfl
  | succ n ih =>
      rcases ih (by omega) with ⟨w, hreach, hw, hpolicy, hwaiting, hattempt⟩
      rcases fires_late hwaiting with ⟨nowMs, hover, hstep⟩
      refine ⟨_, hreach.tail (.poll nowMs) trivial hstep,
        hw.fires nowMs hwaiting hover (by omega), ?_, scheduleNext_waiting _ _, ?_⟩
      · rw [scheduleNext_policy]
        exact hpolicy
      · rw [scheduleNext_attempt, UInt32.toNat_add, hattempt]
        exact Nat.mod_eq_of_lt hn

/-- Six attempts bring the default schedule to its maximum, so the last one that is counted has
    it too. -/
theorem ceilingMs_last : (ReconnectPolicy.default : ReconnectPolicy ℚ).ceilingMs 0xFFFFFFFF =
    30000 := by
  have hsix : (ReconnectPolicy.default : ReconnectPolicy ℚ).grow 6 (ofInt (500 : Nat)) = none := by
    decide +kernel
  have hlast := ReconnectPolicy.grow_none _ hsix (2 ^ 32 - 7)
  unfold ReconnectPolicy.ceilingMs
  rw [show (0xFFFFFFFF : UInt32).toNat = 6 + (2 ^ 32 - 7) from rfl]
  simp only [show (ReconnectPolicy.default : ReconnectPolicy ℚ).baseDelayMs.toNat = 500 from rfl,
    hlast]
  rfl

/-- The attempt after the last one that is counted starts the ceilings over, without a
    connection. -/
theorem ceiling_drops : ∃ w : Watch ℚ,
    Run.Reaches step Run.free (start .default 0) w ∧ ¬ Disciplined w := by
  rcases attempts_reach (.default : ReconnectPolicy ℚ) 0 (2 ^ 32 - 1) (by omega) with
    ⟨w, hreach, hw, hpolicy, hwaiting, hattempt⟩
  rcases fires_late hwaiting with ⟨nowMs, _, hstep⟩
  refine ⟨_, hreach.tail (.poll nowMs) trivial hstep, fun h => ?_⟩
  rcases hw.armed hwaiting with ⟨x, rest, hwaits, _, _, hx, houtage⟩
  have hlast : x.attempt = 0xFFFFFFFF := UInt32.toNat_inj.mp (by rw [hx, hattempt]; rfl)
  have hwrap : w.controller.attempt + 1 = 0 := by
    rw [← hx, hlast]
    rfl
  have hgrow := h.growing
  simp only [hwaits, fire, scheduleNext_policy, hpolicy] at hgrow
  have hfall := (List.pairwise_cons.mp hgrow).1 { x with fired := nowMs :: x.fired }
    List.mem_cons_self (by simp [houtage])
  simp only [arm_attempt, hwrap, hlast, ceilingMs_last] at hfall
  exact absurd hfall (by decide +kernel)

end Watch

end Reconnect

end EarthRise
