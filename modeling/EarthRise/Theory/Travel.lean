import EarthRise.Core.Navigation
import EarthRise.Lib.ExactRoot
import Mathlib.Tactic.Ring

/-!
# Travel

When a journey ends. A step toward a point rounds the way on each axis to the closest metre, so
that a step may be lost to the rounding on an axis, or on all of them.

Apart from the rounding of the numbers themselves, a unit gets to its target if and only if the
square of twice its step is at least the number of axes on which it is off. Then some axis
shrinks in every step, the longest one; otherwise no axis ever gets to zero, and the unit is
under way forever. On the way it stays between where it was and where it goes.

## Main definitions

* `axisLeft`: What is left of an axis after a step.
* `offAxes`: The axes on which two positions differ.
* `navRun`, `orderRun`: Steps of a journey, and of an order to go to a point.

## Theorems

* `axisLeft_largest_lt`: The longest axis shrinks.
* `axisLeft_pos_of_short`: No axis gets to zero with steps that are too short.
* `warp_arrives_iff`: When a warp arrives.
* `order_closes_in`: When an order to go to a point is carried out.
-/

namespace EarthRise

namespace Shard

open Universe (Vec3 UniversePos)

variable {F : Type} [ExactRoot F] {f : F}

/-! ## One axis -/

/-- What is left of an axis after a step of a share of the way. -/
def axisLeft (n : ℕ) (f : F) : ℕ := n - (lround ((n : F) * f)).toNat

theorem axisLeft_le (n : ℕ) (f : F) : axisLeft n f ≤ n := by
  unfold axisLeft
  omega

theorem axisLeft_lt {n : ℕ} (hf : 0 ≤ f) (h : 1 ≤ 2 * ((n : F) * f)) :
    axisLeft n f < n := by
  have hn : n ≠ 0 := by
    rintro rfl
    rw [Nat.cast_zero, zero_mul, mul_zero] at h
    linarith
  have hround := (ExactRoot.one_le_lround_share hf n).mpr h
  unfold axisLeft
  omega

theorem axisLeft_pos {n : ℕ} (hf : 0 ≤ f) (h : 2 * ((n : F) * f) < 2 * (n : F) - 1) :
    0 < axisLeft n f := by
  have hround : ¬ (n : Int) ≤ lround ((n : F) * f) := by
    rw [ExactRoot.le_lround_share hf n]
    exact not_le.mpr h
  have hnonneg := ExactRoot.lround_share_nonneg hf n
  unfold axisLeft
  omega

/-- A step on an axis, and that it does not leave what is between. -/
theorem axis_step (p t : Int) (hf : 0 ≤ f) (hf1 : f ≤ 1) :
    (t - (p + lround ((ofInt (t - p) : F) * f))).natAbs = axisLeft (t - p).natAbs f ∧
      min p t ≤ p + lround ((ofInt (t - p) : F) * f) ∧
      p + lround ((ofInt (t - p) : F) * f) ≤ max p t := by
  have hnonneg := ExactRoot.lround_share_nonneg hf (t - p).natAbs
  have hle := ExactRoot.lround_share_le hf hf1 (t - p).natAbs
  rw [Exact.ofInt_eq]
  unfold axisLeft
  rcases le_total 0 (t - p) with hsign | hsign
  · have hcast : ((t - p : Int) : F) = ((t - p).natAbs : F) := by
      rw [Nat.cast_natAbs, abs_of_nonneg hsign]
    rw [hcast]
    omega
  · -- toward smaller numbers the rounding is that of the way back
    have hcast : ((t - p : Int) : F) = -((t - p).natAbs : F) := by
      rw [Nat.cast_natAbs, abs_of_nonpos hsign]
      push_cast
      ring
    rw [hcast, neg_mul, ExactRoot.lround_neg]
    omega

/-! ## Three axes -/

/-- The number of axes that are not zero. -/
def onAxes (a b c : ℕ) : ℕ :=
  (if a = 0 then 0 else 1) + (if b = 0 then 0 else 1) + (if c = 0 then 0 else 1)

theorem onAxes_le_of_imp {a b c a' b' c' : ℕ} (ha : a = 0 → a' = 0) (hb : b = 0 → b' = 0)
    (hc : c = 0 → c' = 0) : onAxes a' b' c' ≤ onAxes a b c := by
  unfold onAxes
  split <;> split <;> split <;> split <;> split <;> split <;> omega

/-- The longest axis holds its share of the square of the distance. -/
theorem squares_le_largest {a b c n : ℕ} (ha : a ≤ n) (hb : b ≤ n) (hc : c ≤ n) :
    a * a + b * b + c * c ≤ onAxes a b c * (n * n) := by
  have share : ∀ k ≤ n, k * k ≤ (if k = 0 then 0 else 1) * (n * n) := by
    intro k hk
    split
    · rename_i h0
      rw [h0, zero_mul, zero_mul]
    · rw [one_mul]
      exact Nat.mul_le_mul hk hk
  unfold onAxes
  rw [add_mul, add_mul]
  exact add_le_add (add_le_add (share a ha) (share b hb)) (share c hc)

/-- An axis that is not zero holds one metre at least. -/
theorem one_of_axis_le (k : ℕ) : (if k = 0 then 0 else 1) ≤ k * k := by
  split
  · omega
  · rename_i h0
    exact Nat.one_le_iff_ne_zero.mpr (Nat.mul_ne_zero h0 h0)

theorem onAxes_le_squares (a b c : ℕ) : onAxes a b c ≤ a * a + b * b + c * c := by
  have ha := one_of_axis_le a
  have hb := one_of_axis_le b
  have hc := one_of_axis_le c
  unfold onAxes
  omega

/-- With steps that are long enough the longest axis shrinks. -/
theorem axisLeft_largest_lt {a b c n : ℕ} {dist step : F} (hdist : 0 < dist)
    (hsquare : dist * dist = ((a * a + b * b + c * c : ℕ) : F)) (hstep : 0 ≤ step)
    (hfar : (onAxes a b c : F) ≤ 4 * (step * step)) (ha : a ≤ n) (hb : b ≤ n) (hc : c ≤ n) :
    axisLeft n (step / dist) < n := by
  refine axisLeft_lt (div_nonneg hstep hdist.le) ?_
  -- twice the step on the axis is at least the distance, as their squares are
  have hsquares : dist * dist ≤ 2 * (n * step) * (2 * (n * step)) := by
    calc dist * dist = ((a * a + b * b + c * c : ℕ) : F) := hsquare
      _ ≤ ((onAxes a b c * (n * n) : ℕ) : F) := Nat.cast_le.mpr (squares_le_largest ha hb hc)
      _ = (onAxes a b c : F) * ((n : F) * n) := by push_cast; ring
      _ ≤ 4 * (step * step) * ((n : F) * n) :=
          mul_le_mul_of_nonneg_right hfar (mul_nonneg n.cast_nonneg n.cast_nonneg)
      _ = 2 * (n * step) * (2 * (n * step)) := by ring
  have hle : dist ≤ 2 * (n * step) := by
    refine le_of_not_gt fun hlt => absurd hsquares (not_le.mpr ?_)
    have hpos : (0 : F) ≤ 2 * (n * step) := by positivity
    exact mul_self_lt_mul_self hpos hlt
  rw [mul_div_assoc', mul_div_assoc', le_div_iff₀ hdist]
  linarith

/-- With steps that are too short no axis gets to zero. -/
theorem axisLeft_pos_of_short {a m total : ℕ} {dist step : F} (hdist : 0 < dist)
    (hsquare : dist * dist = (total : F)) (hstep : 0 ≤ step)
    (hshort : 4 * (step * step) < (m : F)) (ha : 0 < a) (hm : m ≤ total) :
    0 < axisLeft a (step / dist) := by
  refine axisLeft_pos (div_nonneg hstep hdist.le) ?_
  -- the step on the axis is shorter than all but half a metre of it, as their squares are
  have hshare : m * (a * a) ≤ (2 * a - 1) * (2 * a - 1) * total := by
    have haxis : a ≤ 2 * a - 1 := by omega
    calc m * (a * a) ≤ total * ((2 * a - 1) * (2 * a - 1)) :=
          Nat.mul_le_mul hm (Nat.mul_le_mul haxis haxis)
      _ = (2 * a - 1) * (2 * a - 1) * total := Nat.mul_comm _ _
  have hcast : ((2 * a - 1 : ℕ) : F) = 2 * (a : F) - 1 := by
    rw [Nat.cast_sub (by omega)]
    push_cast
    ring
  have haF : (0 : F) < a := Nat.cast_pos.mpr ha
  have hlast : (0 : F) ≤ 2 * (a : F) - 1 := by
    rw [← hcast]
    exact Nat.cast_nonneg _
  have hsquares : 2 * (a * step) * (2 * (a * step)) <
      (2 * (a : F) - 1) * dist * ((2 * (a : F) - 1) * dist) := by
    calc 2 * (a * step) * (2 * (a * step)) = 4 * (step * step) * ((a : F) * a) := by ring
      _ < (m : F) * ((a : F) * a) :=
          mul_lt_mul_of_pos_right hshort (mul_pos haF haF)
      _ = ((m * (a * a) : ℕ) : F) := by push_cast; ring
      _ ≤ (((2 * a - 1) * (2 * a - 1) * total : ℕ) : F) := Nat.cast_le.mpr hshare
      _ = (2 * (a : F) - 1) * (2 * (a : F) - 1) * (dist * dist) := by
          rw [hsquare, Nat.cast_mul, Nat.cast_mul, hcast]
      _ = (2 * (a : F) - 1) * dist * ((2 * (a : F) - 1) * dist) := by ring
  have hlt : 2 * ((a : F) * step) < (2 * (a : F) - 1) * dist := by
    refine lt_of_not_ge fun hge => absurd hsquares (not_lt.mpr ?_)
    exact mul_self_le_mul_self (mul_nonneg hlast hdist.le) hge
  rw [mul_div_assoc', mul_div_assoc', div_lt_iff₀ hdist]
  exact hlt

/-! ## A step toward a point -/

def offAxes (p t : UniversePos) : ℕ :=
  onAxes (t.x - p.x).natAbs (t.y - p.y).natAbs (t.z - p.z).natAbs

/-- The way that is left, axis by axis. -/
def wayLeft (p t : UniversePos) : ℕ :=
  (t.x - p.x).natAbs + (t.y - p.y).natAbs + (t.z - p.z).natAbs

/-- On each axis between two positions. -/
structure Between (p t q : UniversePos) : Prop where
  x : min p.x t.x ≤ q.x ∧ q.x ≤ max p.x t.x
  y : min p.y t.y ≤ q.y ∧ q.y ≤ max p.y t.y
  z : min p.z t.z ≤ q.z ∧ q.z ≤ max p.z t.z

theorem Between.start (p t : UniversePos) : Between p t p :=
  ⟨by omega, by omega, by omega⟩

theorem Between.target (p t : UniversePos) : Between p t t :=
  ⟨by omega, by omega, by omega⟩

theorem Between.trans {p t q r : UniversePos} (hq : Between p t q) (hr : Between q t r) :
    Between p t r := by
  obtain ⟨hqx, hqy, hqz⟩ := hq
  obtain ⟨hrx, hry, hrz⟩ := hr
  exact ⟨by omega, by omega, by omega⟩

theorem distance_nonneg (p t : UniversePos) : (0 : F) ≤ universeDistance p t :=
  ExactRoot.sqrt_nonneg _ (add_nonneg (add_nonneg (mul_self_nonneg _) (mul_self_nonneg _))
    (mul_self_nonneg _))

theorem distance_mul_self (p t : UniversePos) :
    (universeDistance p t : F) * universeDistance p t =
      (((t.x - p.x).natAbs * (t.x - p.x).natAbs + (t.y - p.y).natAbs * (t.y - p.y).natAbs +
        (t.z - p.z).natAbs * (t.z - p.z).natAbs : ℕ) : F) := by
  unfold universeDistance
  rw [ExactRoot.sqrt_mul_self _ (add_nonneg (add_nonneg (mul_self_nonneg _) (mul_self_nonneg _))
    (mul_self_nonneg _)), Exact.ofInt_eq, Exact.ofInt_eq, Exact.ofInt_eq]
  push_cast
  simp only [Nat.cast_natAbs, Int.cast_abs, abs_mul_abs_self, Int.cast_sub]

/-- A step of a share of the way, with what it leaves on each axis. -/
theorem advance_left (p t : UniversePos) (hf : 0 ≤ f) (hf1 : f ≤ 1) :
    (t.x - (advance p t f).x).natAbs = axisLeft (t.x - p.x).natAbs f ∧
      (t.y - (advance p t f).y).natAbs = axisLeft (t.y - p.y).natAbs f ∧
      (t.z - (advance p t f).z).natAbs = axisLeft (t.z - p.z).natAbs f ∧
      Between p t (advance p t f) := by
  obtain ⟨hx, hbx⟩ := axis_step p.x t.x hf hf1
  obtain ⟨hy, hby⟩ := axis_step p.y t.y hf hf1
  obtain ⟨hz, hbz⟩ := axis_step p.z t.z hf hf1
  exact ⟨hx, hy, hz, hbx, hby, hbz⟩

/-- A step that is long enough shortens the way. -/
theorem advance_wayLeft_lt {p t : UniversePos} {step : F} (hstep : 0 ≤ step)
    (hdist : (0 : F) < universeDistance p t) (hle : step ≤ universeDistance p t)
    (hlong : (offAxes p t : F) ≤ 4 * (step * step)) :
    wayLeft (advance p t (step / universeDistance p t)) t < wayLeft p t := by
  obtain ⟨hx, hy, hz, -⟩ := advance_left p t (div_nonneg hstep hdist.le)
    ((div_le_one hdist).mpr hle)
  have hshrinks : ∀ {n : ℕ}, (t.x - p.x).natAbs ≤ n → (t.y - p.y).natAbs ≤ n →
      (t.z - p.z).natAbs ≤ n → axisLeft n (step / universeDistance p t) < n :=
    axisLeft_largest_lt hdist (distance_mul_self p t) hstep hlong
  have hlex := axisLeft_le (t.x - p.x).natAbs (step / (universeDistance p t : F))
  have hley := axisLeft_le (t.y - p.y).natAbs (step / (universeDistance p t : F))
  have hlez := axisLeft_le (t.z - p.z).natAbs (step / (universeDistance p t : F))
  unfold wayLeft
  rw [hx, hy, hz]
  -- one of the three is the longest
  rcases le_total (t.x - p.x).natAbs (t.y - p.y).natAbs with hxy | hxy
  · rcases le_total (t.y - p.y).natAbs (t.z - p.z).natAbs with hyz | hyz
    · have hlt := hshrinks (hxy.trans hyz) hyz le_rfl
      omega
    · have hlt := hshrinks hxy le_rfl hyz
      omega
  · rcases le_total (t.x - p.x).natAbs (t.z - p.z).natAbs with hxz | hxz
    · have hlt := hshrinks hxz (hxy.trans hxz) le_rfl
      omega
    · have hlt := hshrinks le_rfl hxy hxz
      omega

/-- No step makes the distance longer, or puts an axis off that was not. -/
theorem advance_mono (p t : UniversePos) (hf : 0 ≤ f) (hf1 : f ≤ 1) :
    (universeDistance (advance p t f) t : F) ≤ universeDistance p t ∧
      offAxes (advance p t f) t ≤ offAxes p t := by
  obtain ⟨hx, hy, hz, -⟩ := advance_left p t hf hf1
  have hlex := axisLeft_le (t.x - p.x).natAbs f
  have hley := axisLeft_le (t.y - p.y).natAbs f
  have hlez := axisLeft_le (t.z - p.z).natAbs f
  constructor
  · refine le_of_not_gt fun hgt => ?_
    have hsq := mul_self_lt_mul_self (distance_nonneg (F := F) p t) hgt
    rw [distance_mul_self, distance_mul_self, Nat.cast_lt, hx, hy, hz] at hsq
    have hxx := Nat.mul_le_mul hlex hlex
    have hyy := Nat.mul_le_mul hley hley
    have hzz := Nat.mul_le_mul hlez hlez
    omega
  · unfold offAxes
    rw [hx, hy, hz]
    exact onAxes_le_of_imp (by omega) (by omega) (by omega)

/-- A step that is too short leaves every axis that was off, and the target out of reach. -/
theorem advance_short {p t : UniversePos} {step : F} (hstep : 0 ≤ step)
    (hshort : 4 * (step * step) < (offAxes p t : F)) :
    step < universeDistance p t ∧
      offAxes p t ≤ offAxes (advance p t (step / universeDistance p t)) t := by
  have hsquare := distance_mul_self (F := F) p t
  have hdist0 := distance_nonneg (F := F) p t
  have hoff : (offAxes p t : F) ≤ universeDistance p t * universeDistance p t := by
    rw [hsquare]
    exact Nat.cast_le.mpr (onAxes_le_squares _ _ _)
  have hfar : step < universeDistance p t := by
    refine lt_of_not_ge fun hge => absurd hoff (not_le.mpr ?_)
    have hsq := mul_self_le_mul_self hdist0 hge
    have hss := mul_self_nonneg step
    linarith
  have hdist : (0 : F) < universeDistance p t := hstep.trans_lt hfar
  obtain ⟨hx, hy, hz, -⟩ := advance_left p t (div_nonneg hstep hdist.le)
    ((div_le_one hdist).mpr hfar.le)
  have hstays : ∀ k : ℕ, axisLeft k (step / universeDistance p t) = 0 → k = 0 := by
    intro k hk
    by_contra h0
    have hpos := axisLeft_pos_of_short hdist hsquare hstep hshort (Nat.pos_of_ne_zero h0)
      (onAxes_le_squares _ _ _)
    omega
  refine ⟨hfar, ?_⟩
  unfold offAxes
  rw [hx, hy, hz]
  exact onAxes_le_of_imp (hstays _) (hstays _) (hstays _)

/-! ## Warp -/

section Warp

variable [ExactWidens F] {nav : NavState F} {dest : UniversePos} {dt step : F} {tr : Transform F}

/-- A unit under way after some steps. -/
def navRun (tuning : NavTuning F) (dt : F) (nav : NavState F) (tr : Transform F) (n : ℕ) :
    NavState F × Transform F :=
  (fun s => (stepNav (D := F) s.1 s.2 tuning dt).2)^[n] (nav, tr)

/-- What the step after them does. -/
def navEvent (tuning : NavTuning F) (dt : F) (nav : NavState F) (tr : Transform F) (n : ℕ) :
    NavEvent :=
  let s := navRun tuning dt nav tr n
  (stepNav (D := F) s.1 s.2 tuning dt).1

theorem navRun_succ (tuning : NavTuning F) (dt : F) (nav : NavState F) (tr : Transform F)
    (n : ℕ) : navRun tuning dt nav tr (n + 1) =
      navRun tuning dt (stepNav (D := F) nav tr tuning dt).2.1
        (stepNav (D := F) nav tr tuning dt).2.2 n := rfl

theorem navRun_succ' (tuning : NavTuning F) (dt : F) (nav : NavState F) (tr : Transform F)
    (n : ℕ) : navRun tuning dt nav tr (n + 1) =
      (stepNav (D := F) (navRun tuning dt nav tr n).1 (navRun tuning dt nav tr n).2
        tuning dt).2 :=
  Function.iterate_succ_apply' _ _ _

theorem navRun_add (tuning : NavTuning F) (dt : F) (nav : NavState F) (tr : Transform F)
    (m n : ℕ) : navRun tuning dt nav tr (m + n) =
      navRun tuning dt (navRun tuning dt nav tr n).1 (navRun tuning dt nav tr n).2 m :=
  Function.iterate_add_apply _ m n _

/-- A warp to a target that nothing interrupts, with steps of a length. -/
structure Warping (nav : NavState F) (dest : UniversePos) (dt step : F) : Prop where
  free : nav.interdicted = false
  target : nav.target = dest
  step : nav.warpSpeed * dt = step

theorem stepNav_arrived (tuning : NavTuning F)
    (hwarp : nav.phase = .warp)
    (h : Warping nav dest dt step)
    (hnear : (universeDistance tr.pos dest : F) ≤ 0 ∨ universeDistance tr.pos dest ≤ step) :
    stepNav (D := F) nav tr tuning dt = (.arrived, { nav with phase := .idle }, .of dest) := by
  unfold stepNav
  rw [hwarp]
  dsimp only
  rw [h.free, if_neg Bool.false_ne_true, h.target, ExactWidens.widen_eq, ExactWidens.widen_eq,
    h.step, if_pos hnear]

theorem stepNav_under_way (tuning : NavTuning F)
    (hwarp : nav.phase = .warp)
    (h : Warping nav dest dt step) (hstep : 0 ≤ step)
    (hfar : step < universeDistance tr.pos dest) :
    stepNav (D := F) nav tr tuning dt =
      (.none, nav, { tr with
        pos := advance tr.pos dest (step / (universeDistance tr.pos dest : F)) }) := by
  have hnear : ¬ ((universeDistance tr.pos dest : F) ≤ 0 ∨
      universeDistance tr.pos dest ≤ step) := by
    rintro (h0 | h1)
    · linarith
    · linarith
  unfold stepNav
  rw [hwarp]
  dsimp only
  rw [h.free, if_neg Bool.false_ne_true, h.target, ExactWidens.widen_eq, ExactWidens.widen_eq,
    h.step, if_neg hnear]

/-- A warp with steps that are long enough arrives. -/
theorem warping_arrives (tuning : NavTuning F)
    (hwarp : nav.phase = .warp) (h : Warping nav dest dt step)
    (hstep : 0 ≤ step) :
    ∀ (left : ℕ) (tr : Transform F), wayLeft tr.pos dest = left →
      (offAxes tr.pos dest : F) ≤ 4 * (step * step) →
      ∃ n, navEvent tuning dt nav tr n = .arrived ∧
        (navRun tuning dt nav tr (n + 1)).2 = .of dest := by
  intro left
  induction left using Nat.strong_induction_on with
  | _ left ih =>
      intro tr hleft hlong
      rcases le_or_gt (universeDistance tr.pos dest : F) step with hnear | hfar
      · have harrive := stepNav_arrived tuning hwarp h (Or.inr hnear)
        refine ⟨0, ?_, ?_⟩
        · exact congrArg Prod.fst harrive
        · exact congrArg (fun r => r.2.2) harrive
      · -- the way is shorter after the step, and no axis is off that was not
        have hdist : (0 : F) < universeDistance tr.pos dest := hstep.trans_lt hfar
        have hlt := advance_wayLeft_lt hstep hdist hfar.le hlong
        have hoff := (advance_mono tr.pos dest (div_nonneg hstep hdist.le)
          ((div_le_one hdist).mpr hfar.le)).2
        have hgo := stepNav_under_way tuning hwarp h hstep hfar
        rw [hleft] at hlt
        obtain ⟨n, hevent, hpos⟩ := ih _ hlt
          { tr with pos := advance tr.pos dest (step / (universeDistance tr.pos dest : F)) } rfl
          ((Nat.cast_le.mpr hoff).trans hlong)
        refine ⟨n + 1, ?_, ?_⟩
        · unfold navEvent at hevent ⊢
          rw [navRun_succ, hgo]
          exact hevent
        · rw [navRun_succ, hgo]
          exact hpos

/-- Aligning, with its time over or not. -/
theorem stepNav_align (tr : Transform F) (tuning : NavTuning F) (dt : F)
    (halign : nav.phase = .align) :
    (stepNav (D := F) nav tr tuning dt).2 =
      if nav.timer - dt ≤ 0 then ({ nav with phase := .warp, timer := 0 }, tr)
      else ({ nav with timer := nav.timer - dt }, tr) := by
  unfold stepNav
  rw [halign]
  dsimp only
  split
  · rfl
  · rfl

/-- Aligning takes a while and changes neither the unit nor where it goes. -/
theorem aligning_warps (tuning : NavTuning F)
    (tr : Transform F) (k : ℕ) :
    ∀ nav : NavState F, nav.phase = .align → Warping nav dest dt step →
      nav.timer ≤ ((k + 1 : ℕ) : F) * dt →
      ∃ n nav', nav'.phase = .warp ∧ Warping nav' dest dt step ∧
        navRun tuning dt nav tr n = (nav', tr) := by
  induction k with
  | zero =>
      intro nav halign h htimer
      have hover : nav.timer - dt ≤ 0 := by
        rw [Nat.cast_one, one_mul] at htimer
        linarith
      refine ⟨1, { nav with phase := .warp, timer := 0 }, rfl, ⟨h.free, h.target, h.step⟩, ?_⟩
      rw [navRun_succ, stepNav_align tr tuning dt halign, if_pos hover]
      rfl
  | succ k ih =>
      intro nav halign h htimer
      by_cases hover : nav.timer - dt ≤ 0
      · refine ⟨1, { nav with phase := .warp, timer := 0 }, rfl, ⟨h.free, h.target, h.step⟩, ?_⟩
        rw [navRun_succ, stepNav_align tr tuning dt halign, if_pos hover]
        rfl
      · have hless : nav.timer - dt ≤ ((k + 1 : ℕ) : F) * dt := by
          push_cast at htimer ⊢
          linarith
        obtain ⟨n, nav', hwarp, hwarping, hrun⟩ := ih { nav with timer := nav.timer - dt }
          halign ⟨h.free, h.target, h.step⟩ hless
        refine ⟨n + 1, nav', hwarp, hwarping, ?_⟩
        rw [← hrun, navRun_succ, stepNav_align tr tuning dt halign, if_neg hover]

/-- What holds of a warp at any time: it is aligning, under way or over, between its ends. -/
structure OnItsWay (start dest : UniversePos) (dt step : F) (s : NavState F × Transform F) :
    Prop where
  warping : Warping s.1 dest dt step
  phase : s.1.phase = .align ∨ s.1.phase = .warp ∨ s.1.phase = .idle
  between : Between start dest s.2.pos

theorem OnItsWay.next {start dest : UniversePos} {s : NavState F × Transform F}
    (h : OnItsWay start dest dt step s) (hstep : 0 ≤ step) (tuning : NavTuning F) :
    OnItsWay start dest dt step (stepNav (D := F) s.1 s.2 tuning dt).2 := by
  obtain ⟨nav, tr⟩ := s
  obtain ⟨⟨hfree, htarget, hspeed⟩, hphase, hbetween⟩ := h
  dsimp only at hfree htarget hspeed hphase hbetween ⊢
  rcases hphase with hphase | hphase | hphase
  · unfold stepNav
    rw [hphase]
    dsimp only
    split
    · exact ⟨⟨hfree, htarget, hspeed⟩, Or.inr (Or.inl rfl), hbetween⟩
    · exact ⟨⟨hfree, htarget, hspeed⟩, Or.inl rfl, hbetween⟩
  · rcases le_or_gt (universeDistance tr.pos dest : F) step with hnear | hfar
    · rw [stepNav_arrived tuning hphase ⟨hfree, htarget, hspeed⟩ (Or.inr hnear)]
      exact ⟨⟨hfree, htarget, hspeed⟩, Or.inr (Or.inr rfl), Between.target _ _⟩
    · rw [stepNav_under_way tuning hphase ⟨hfree, htarget, hspeed⟩ hstep hfar]
      have hdist : (0 : F) < universeDistance tr.pos dest := hstep.trans_lt hfar
      obtain ⟨-, -, -, hnext⟩ := advance_left tr.pos dest (div_nonneg hstep hdist.le)
        ((div_le_one hdist).mpr hfar.le)
      exact ⟨⟨hfree, htarget, hspeed⟩, Or.inr (Or.inl hphase), hbetween.trans hnext⟩
  · unfold stepNav
    rw [hphase]
    exact ⟨⟨hfree, htarget, hspeed⟩, Or.inr (Or.inr hphase), hbetween⟩

/-- A warp that its steps are too short for: it is aligning or under way, and as many axes are
    off as ever. -/
structure Stalled (m : ℕ) (s : NavState F × Transform F) : Prop where
  phase : s.1.phase = .align ∨ s.1.phase = .warp
  off : m ≤ offAxes s.2.pos s.1.target

theorem Stalled.next {m : ℕ} {s : NavState F × Transform F}
    (h : Stalled m s) (hwarping : Warping s.1 dest dt step) (hstep : 0 ≤ step)
    (hshort : 4 * (step * step) < (m : F)) (tuning : NavTuning F) :
    (stepNav (D := F) s.1 s.2 tuning dt).1 = .none ∧
      Stalled m (stepNav (D := F) s.1 s.2 tuning dt).2 := by
  obtain ⟨nav, tr⟩ := s
  obtain ⟨hphase, hoff⟩ := h
  dsimp only at hwarping hphase hoff ⊢
  rcases hphase with hphase | hphase
  · unfold stepNav
    rw [hphase]
    dsimp only
    split
    · exact ⟨rfl, Or.inr rfl, hoff⟩
    · exact ⟨rfl, Or.inl rfl, hoff⟩
  · rw [hwarping.target] at hoff
    obtain ⟨hfar, hstays⟩ := advance_short hstep (hshort.trans_le (Nat.cast_le.mpr hoff))
    rw [stepNav_under_way tuning hphase hwarping hstep hfar]
    refine ⟨rfl, Or.inr hphase, ?_⟩
    dsimp only
    rw [hwarping.target]
    exact hoff.trans hstays

theorem navRun_onItsWay {start dest : UniversePos}
    (hstart : OnItsWay start dest dt step (nav, tr)) (hstep : 0 ≤ step)
    (tuning : NavTuning F) (n : ℕ) :
    OnItsWay start dest dt step (navRun tuning dt nav tr n) := by
  induction n with
  | zero => exact hstart
  | succ n ih =>
      rw [navRun_succ']
      exact ih.next hstep tuning

/-- A warp arrives if and only if its steps are long enough for the axes that are off, and is
    under way forever if they are not. At no time does it leave what is between. -/
theorem warp_arrives_iff (tuning : NavTuning F) (nav : NavState F) (tr : Transform F)
    (dest : UniversePos) (speed align : F) {dt : F} (hdt : 0 < dt) (hspeed : 0 ≤ speed) :
    ((∃ n, navEvent tuning dt (beginWarp nav dest speed align) tr n = .arrived ∧
        (navRun tuning dt (beginWarp nav dest speed align) tr (n + 1)).2 = .of dest) ↔
      (offAxes tr.pos dest : F) ≤ 4 * (speed * dt * (speed * dt))) ∧
    ((∃ n, navEvent tuning dt (beginWarp nav dest speed align) tr n ≠ .none) ↔
      (offAxes tr.pos dest : F) ≤ 4 * (speed * dt * (speed * dt))) ∧
    ∀ n, Between tr.pos dest
      (navRun tuning dt (beginWarp nav dest speed align) tr n).2.pos := by
  have hstep : 0 ≤ speed * dt := mul_nonneg hspeed hdt.le
  have hwarping : Warping (beginWarp nav dest speed align) dest dt (speed * dt) :=
    ⟨rfl, rfl, rfl⟩
  have hway : ∀ n, OnItsWay tr.pos dest dt (speed * dt)
      (navRun tuning dt (beginWarp nav dest speed align) tr n) :=
    navRun_onItsWay ⟨hwarping, Or.inl rfl, Between.start _ _⟩ hstep tuning
  have harrives : (offAxes tr.pos dest : F) ≤ 4 * (speed * dt * (speed * dt)) →
      ∃ n, navEvent tuning dt (beginWarp nav dest speed align) tr n = .arrived ∧
        (navRun tuning dt (beginWarp nav dest speed align) tr (n + 1)).2 = .of dest := by
    intro hlong
    obtain ⟨k, hk⟩ := ExactRound.exists_nat_ge (align / dt)
    have htimer : align ≤ ((k + 1 : ℕ) : F) * dt := by
      rw [div_le_iff₀ hdt] at hk
      push_cast
      linarith
    obtain ⟨n, nav', hwarp, hwarping', hrun⟩ := aligning_warps tuning tr k
      (beginWarp nav dest speed align) rfl hwarping htimer
    obtain ⟨n', hevent, hpos⟩ := warping_arrives tuning hwarp hwarping' hstep _ tr
      rfl hlong
    refine ⟨n' + n, ?_, ?_⟩
    · unfold navEvent at hevent ⊢
      rw [navRun_add, hrun]
      exact hevent
    · rw [Nat.add_right_comm, navRun_add, hrun]
      exact hpos
  have hstalls : ¬ (offAxes tr.pos dest : F) ≤ 4 * (speed * dt * (speed * dt)) →
      ∀ n, navEvent tuning dt (beginWarp nav dest speed align) tr n = .none := by
    intro hshort n
    have hstalled : Stalled (offAxes tr.pos dest)
        (navRun tuning dt (beginWarp nav dest speed align) tr n) := by
      induction n with
      | zero => exact ⟨Or.inl rfl, le_rfl⟩
      | succ n ih =>
          rw [navRun_succ']
          exact (ih.next (hway n).warping hstep (not_le.mp hshort) tuning).2
    exact (hstalled.next (hway n).warping hstep (not_le.mp hshort) tuning).1
  refine ⟨⟨?_, harrives⟩, ⟨?_, ?_⟩, fun n => (hway n).between⟩
  · rintro ⟨n, hevent, -⟩
    by_contra hshort
    rw [hstalls hshort n] at hevent
    cases hevent
  · rintro ⟨n, hevent⟩
    by_contra hshort
    exact hevent (hstalls hshort n)
  · intro hlong
    obtain ⟨n, hevent, -⟩ := harrives hlong
    refine ⟨n, ?_⟩
    rw [hevent]
    exact NavEvent.noConfusion

/-- A ship that warps over a kilometre arrives; with a speed of seven metres a second it never
    would get to a place one metre off on each axis. -/
theorem crossing_arrives :
    (∃ n, navEvent (NavTuning.default (F := ℝ)) (1 / 30)
      (beginWarp .initial ⟨1000, 0, 0⟩ 6000 3) (.of ⟨0, 0, 0⟩) n = .arrived) ∧
    ∀ n, navEvent (NavTuning.default (F := ℝ)) (1 / 30)
      (beginWarp .initial ⟨1, 1, 1⟩ 7 3) (.of ⟨0, 0, 0⟩) n = .none := by
  have hdt : (0 : ℝ) < 1 / 30 := by norm_num
  constructor
  · obtain ⟨harrives, -, -⟩ := warp_arrives_iff (NavTuning.default (F := ℝ)) .initial
      (.of ⟨0, 0, 0⟩) ⟨1000, 0, 0⟩ 6000 3 hdt (by norm_num)
    have hlong : (offAxes ⟨0, 0, 0⟩ ⟨1000, 0, 0⟩ : ℝ) ≤
        4 * (6000 * (1 / 30) * (6000 * (1 / 30))) := by
      rw [show offAxes ⟨0, 0, 0⟩ ⟨1000, 0, 0⟩ = 1 from rfl]
      norm_num
    obtain ⟨n, hevent, -⟩ := harrives.mpr hlong
    exact ⟨n, hevent⟩
  · intro n
    obtain ⟨-, hmoves, -⟩ := warp_arrives_iff (NavTuning.default (F := ℝ)) .initial
      (.of ⟨0, 0, 0⟩) ⟨1, 1, 1⟩ 7 3 hdt (by norm_num)
    by_contra hevent
    have hlong := hmoves.mp ⟨n, hevent⟩
    rw [show offAxes (Transform.of (F := ℝ) ⟨0, 0, 0⟩).pos ⟨1, 1, 1⟩ = 3 from rfl] at hlong
    norm_num at hlong

end Warp

/-! ## Orders to close in -/

section Order

/-- A unit after some steps of closing in to a distance. -/
def orderRun (target : UniversePos) (maxStep range : F) (tr : Transform F) (n : ℕ) :
    Transform F :=
  (fun tr => (stepStandoff (D := F) tr target maxStep range).1)^[n] tr

theorem orderRun_succ (target : UniversePos) (maxStep range : F) (tr : Transform F) (n : ℕ) :
    orderRun target maxStep range tr (n + 1) =
      (stepStandoff (D := F) (orderRun target maxStep range tr n) target maxStep range).1 :=
  Function.iterate_succ_apply' _ _ _

variable {maxStep range : F} {target : UniversePos}

/-- The step that closes in. -/
theorem stepStandoff_pos {tr : Transform F}
    (hrange : 0 ≤ range) (hfar : range < universeDistance tr.pos target) :
    (stepStandoff (D := F) tr target maxStep range).1.pos =
      advance tr.pos target (min maxStep (universeDistance tr.pos target - range) /
        universeDistance tr.pos target) := by
  have hdist : (0 : F) < universeDistance tr.pos target := hrange.trans_lt hfar
  have hstandoff : (stepStandoff (D := F) tr target maxStep range).1 =
      tr.stepToward target (fmin maxStep (universeDistance tr.pos target - range)) := by
    unfold stepStandoff
    rw [if_neg (not_le.mpr hfar)]
  rw [hstandoff, Exact.fmin_eq_min]
  change (stepToward tr.pos target _).1 = _
  unfold stepToward
  rw [if_neg (not_le.mpr hdist)]
  dsimp only
  split
  · rename_i hle
    -- the step is the whole way only if there is no distance to keep
    have hmin := min_le_right maxStep (universeDistance tr.pos target - range)
    rw [show min maxStep (universeDistance tr.pos target - range) =
      universeDistance tr.pos target by linarith]
  · rfl

/-- Whether a unit is as close as the rounding lets it get. -/
def CloseIn (target : UniversePos) (range : F) (m : ℕ) (pos : UniversePos) : Prop :=
  (universeDistance pos target : F) ≤ range ∨
    4 * ((universeDistance pos target - range) * (universeDistance pos target - range)) < (m : F)

theorem CloseIn.mono {target pos pos' : UniversePos} {range : F} {m m' : ℕ}
    (h : CloseIn target range m pos)
    (hdist : (universeDistance pos' target : F) ≤ universeDistance pos target) (hm : m ≤ m') :
    CloseIn target range m' pos' := by
  rcases le_or_gt (universeDistance pos' target : F) range with hnear | hfar
  · exact Or.inl hnear
  · rcases h with h | h
    · linarith
    · refine Or.inr (lt_of_le_of_lt ?_ (h.trans_le (Nat.cast_le.mpr hm)))
      have hsq := mul_self_le_mul_self (sub_nonneg.mpr hfar.le) (sub_le_sub_right hdist range)
      linarith

/-- The share of the way that is gone in a step. -/
theorem closing_share {p t : UniversePos} (hmax : 0 ≤ maxStep)
    (hrange : 0 ≤ range) (hfar : range < universeDistance p t) :
    0 ≤ min maxStep (universeDistance p t - range) / universeDistance p t ∧
      min maxStep (universeDistance p t - range) / universeDistance p t ≤ 1 := by
  have hdist : (0 : F) < universeDistance p t := hrange.trans_lt hfar
  refine ⟨div_nonneg (le_min hmax (by linarith)) hdist.le, (div_le_one hdist).mpr ?_⟩
  have hmin := min_le_right maxStep (universeDistance p t - range)
  linarith

/-- A step of closing in stays between, and makes neither the distance nor the number of axes
    that are off larger. -/
theorem stepStandoff_mono (tr : Transform F) (target : UniversePos)
    (hmax : 0 ≤ maxStep) (hrange : 0 ≤ range) :
    Between tr.pos target (stepStandoff (D := F) tr target maxStep range).1.pos ∧
      (universeDistance (stepStandoff (D := F) tr target maxStep range).1.pos target : F) ≤
        universeDistance tr.pos target ∧
      offAxes (stepStandoff (D := F) tr target maxStep range).1.pos target ≤
        offAxes tr.pos target := by
  rcases le_or_gt (universeDistance tr.pos target : F) range with hnear | hfar
  · have hstays : (stepStandoff (D := F) tr target maxStep range).1 = tr := by
      unfold stepStandoff
      rw [if_pos hnear]
    rw [hstays]
    exact ⟨Between.start _ _, le_rfl, le_rfl⟩
  · obtain ⟨hf, hf1⟩ := closing_share hmax hrange hfar
    rw [stepStandoff_pos hrange hfar]
    exact ⟨(advance_left tr.pos target hf hf1).2.2.2, advance_mono tr.pos target hf hf1⟩

theorem orderRun_mono (target : UniversePos) (hmax : 0 ≤ maxStep)
    (hrange : 0 ≤ range) (tr : Transform F) (n : ℕ) :
    Between tr.pos target (orderRun target maxStep range tr n).pos ∧
      (universeDistance (orderRun target maxStep range tr n).pos target : F) ≤
        universeDistance tr.pos target ∧
      offAxes (orderRun target maxStep range tr n).pos target ≤ offAxes tr.pos target := by
  induction n with
  | zero => exact ⟨Between.start _ _, le_rfl, le_rfl⟩
  | succ n ih =>
      obtain ⟨hbetween, hdist, hoff⟩ := ih
      obtain ⟨hbetween', hdist', hoff'⟩ := stepStandoff_mono
        (orderRun target maxStep range tr n) target hmax hrange
      rw [orderRun_succ]
      exact ⟨hbetween.trans hbetween', hdist'.trans hdist, hoff'.trans hoff⟩

/-- Steps that are long enough get a unit as close as the rounding lets it. -/
theorem orderRun_closes (hmax : 0 ≤ maxStep)
    (hrange : 0 ≤ range) :
    ∀ (left : ℕ) (tr : Transform F), wayLeft tr.pos target = left →
      (offAxes tr.pos target : F) ≤ 4 * (maxStep * maxStep) →
      ∃ n, CloseIn target range (offAxes (orderRun target maxStep range tr n).pos target)
        (orderRun target maxStep range tr n).pos := by
  intro left
  induction left using Nat.strong_induction_on with
  | _ left ih =>
      intro tr hleft hlong
      by_cases hclose : CloseIn target range (offAxes tr.pos target) tr.pos
      · exact ⟨0, hclose⟩
      · unfold CloseIn at hclose
        push Not at hclose
        obtain ⟨hfar, hgap⟩ := hclose
        have hdist : (0 : F) < universeDistance tr.pos target := hrange.trans_lt hfar
        -- neither the longest step nor what is left to the distance is too short
        have hstep : (offAxes tr.pos target : F) ≤
            4 * (min maxStep (universeDistance tr.pos target - range) *
              min maxStep (universeDistance tr.pos target - range)) := by
          rcases min_choice maxStep (universeDistance tr.pos target - range) with hmin | hmin
          · rw [hmin]
            exact hlong
          · rw [hmin]
            exact hgap
        have hle : min maxStep (universeDistance tr.pos target - range) ≤
            universeDistance tr.pos target :=
          (min_le_right _ _).trans (by linarith)
        have hlt := advance_wayLeft_lt (le_min hmax (by linarith)) hdist hle hstep
        rw [← stepStandoff_pos hrange hfar, hleft] at hlt
        obtain ⟨-, -, hoff⟩ := stepStandoff_mono tr target hmax hrange
        obtain ⟨n, hn⟩ := ih _ hlt (stepStandoff (D := F) tr target maxStep range).1 rfl
          ((Nat.cast_le.mpr hoff).trans hlong)
        exact ⟨n + 1, hn⟩

/-- Steps that are too short put no axis right. -/
theorem orderRun_short {m : ℕ} (hmax : 0 ≤ maxStep)
    (hrange : 0 ≤ range) (hshort : 4 * (maxStep * maxStep) < (m : F)) (tr : Transform F)
    (hoff : m ≤ offAxes tr.pos target) (n : ℕ) :
    m ≤ offAxes (orderRun target maxStep range tr n).pos target := by
  induction n with
  | zero => exact hoff
  | succ n ih =>
      rw [orderRun_succ]
      rcases le_or_gt (universeDistance (orderRun target maxStep range tr n).pos target : F)
        range with hnear | hfar
      · unfold stepStandoff
        rw [if_pos hnear]
        exact ih
      · have hmin : 0 ≤ min maxStep
            (universeDistance (orderRun target maxStep range tr n).pos target - range) :=
          le_min hmax (by linarith)
        have hless := mul_self_le_mul_self hmin (min_le_left _ _)
        have hoffn : (m : F) ≤ (offAxes (orderRun target maxStep range tr n).pos target : F) :=
          Nat.cast_le.mpr ih
        rw [stepStandoff_pos hrange hfar]
        exact ih.trans (advance_short hmin (by linarith)).2

theorem offAxes_self (p : UniversePos) : offAxes p p = 0 := by
  unfold offAxes onAxes
  simp

/-- On the target, or not as close as one axis that is off by one. -/
theorem eq_of_closeIn {target pos : UniversePos}
    (h : CloseIn target (0 : F) (offAxes pos target) pos) : pos = target := by
  have hoff : (offAxes pos target : F) ≤
      universeDistance pos target * universeDistance pos target := by
    rw [distance_mul_self]
    exact Nat.cast_le.mpr (onAxes_le_squares _ _ _)
  have hsq := mul_self_nonneg (universeDistance pos target : F)
  have hzero : (universeDistance pos target : F) * universeDistance pos target = 0 := by
    rcases h with h | h
    · have h0 := le_antisymm h (distance_nonneg pos target)
      rw [h0, mul_zero]
    · rw [sub_zero] at h
      linarith
  rw [distance_mul_self, Nat.cast_eq_zero] at hzero
  have hx : (target.x - pos.x).natAbs * (target.x - pos.x).natAbs = 0 := by omega
  have hy : (target.y - pos.y).natAbs * (target.y - pos.y).natAbs = 0 := by omega
  have hz : (target.z - pos.z).natAbs * (target.z - pos.z).natAbs = 0 := by omega
  rw [mul_self_eq_zero] at hx hy hz
  cases pos
  cases target
  simp only [Vec3.mk.injEq]
  dsimp only at hx hy hz
  omega

/-- An order closes in to its distance, but for the rounding, and stays there, if its steps are
    long enough for the axes that are off; with no distance to keep, it gets to the target if
    and only if they are. At no time does the unit leave what is between. -/
theorem order_closes_in (target : UniversePos) (tr : Transform F) (maxStep range : F)
    (hmax : 0 ≤ maxStep) (hrange : 0 ≤ range) :
    ((offAxes tr.pos target : F) ≤ 4 * (maxStep * maxStep) →
      ∃ n, ∀ k, n ≤ k → CloseIn target range (offAxes tr.pos target)
        (orderRun target maxStep range tr k).pos) ∧
    ((∃ n, (orderRun target maxStep 0 tr n).pos = target) ↔
      (offAxes tr.pos target : F) ≤ 4 * (maxStep * maxStep)) ∧
    ∀ n, Between tr.pos target (orderRun target maxStep range tr n).pos := by
  refine ⟨?_, ⟨?_, ?_⟩, fun n => (orderRun_mono target hmax hrange tr n).1⟩
  · intro hlong
    obtain ⟨n, hclose⟩ := orderRun_closes hmax hrange _ tr rfl hlong
    refine ⟨n, fun k hk => ?_⟩
    -- later steps make the distance no longer
    obtain ⟨d, rfl⟩ := Nat.exists_eq_add_of_le' hk
    have hlater : orderRun target maxStep range tr (d + n) =
        orderRun target maxStep range (orderRun target maxStep range tr n) d :=
      Function.iterate_add_apply _ d n tr
    rw [hlater]
    exact hclose.mono (orderRun_mono target hmax hrange _ d).2.1
      (orderRun_mono target hmax hrange tr n).2.2
  · rintro ⟨n, harrived⟩
    by_contra hshort
    have hoff := orderRun_short hmax le_rfl (not_le.mp hshort) tr le_rfl n
    rw [harrived, offAxes_self] at hoff
    rw [Nat.le_zero.mp hoff, Nat.cast_zero] at hshort
    have hsq := mul_self_nonneg maxStep
    exact hshort (by linarith)
  · intro hlong
    obtain ⟨n, hclose⟩ := orderRun_closes hmax le_rfl _ tr rfl hlong
    exact ⟨n, eq_of_closeIn hclose⟩

/-- A miner that goes on at a metre a step gets there, and one that keeps a distance gets to
    it, but for the rounding. -/
theorem miner_closes_in :
    (∃ n, (orderRun ⟨3, 4, 0⟩ (1 : ℝ) 0 (.of ⟨0, 0, 0⟩) n).pos = ⟨3, 4, 0⟩) ∧
    ∃ n, ∀ k, n ≤ k → CloseIn ⟨3, 4, 0⟩ (2 : ℝ) 2
      (orderRun ⟨3, 4, 0⟩ (1 : ℝ) 2 (.of ⟨0, 0, 0⟩) k).pos := by
  have hlong : (offAxes (Transform.of (F := ℝ) ⟨0, 0, 0⟩).pos ⟨3, 4, 0⟩ : ℝ) ≤ 4 * (1 * 1) := by
    rw [show offAxes (Transform.of (F := ℝ) ⟨0, 0, 0⟩).pos ⟨3, 4, 0⟩ = 2 from rfl]
    norm_num
  obtain ⟨hclose, harrives, -⟩ := order_closes_in ⟨3, 4, 0⟩ (.of ⟨0, 0, 0⟩) (1 : ℝ) 2
    zero_le_one zero_le_two
  exact ⟨harrives.mpr hlong, hclose hlong⟩

end Order

end Shard

end EarthRise
