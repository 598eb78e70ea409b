import EarthRise.Lib.Exact
import EarthRise.Core.Combat

/-!
# A Blow and Its Layers

What a blow does to each layer, in exact arithmetic, and what it says that it did.

A layer takes as much of a blow as its capacity, its hit points over the share of a raw point
that reaches them, and hands on the rest. So the raw damage that reaches a layer is what the
capacities outside it leave of the blow, and what a layer has left is a function of that
alone: it never grows, it shrinks only where the layers outside are empty, and more damage
leaves less of it.

The report is not so. A layer breaks when its capacity is reached and is empty already half a
point before, where the rounded damage is all that it has. A blow that ends in between empties
the layer and does not report it (`layered_iff`).

## Main definitions

* `capacity`, `outer`, `reaching`: The raw damage on its way inward.
* `left`: What a layer has left.
* `Layered`: What is asked of a blow.
* `Grazes`: A blow that ends within half a point of a break.

## Theorems

* `hitLayer_spec`, `meet_spec`: One layer.
* `applyTypedDamage_spec`: All layers.
* `left_anti`, `left_eq_zero_iff`: More damage, and an empty layer.
* `layered_iff`: A blow is as it should be when it does not graze.
-/

namespace EarthRise

namespace Shard

section

variable {F : Type} [ExactRound F]

/-! ## The capacity of a layer -/

/-- The raw damage that breaks a layer. -/
def capacity (l : LayerHp) (resist : F) : F := l.cur / (1 - resist)

/-- What a layer has left of its hit points after some raw damage. -/
def left (l : LayerHp) (resist raw : F) : Int :=
  if capacity l resist ≤ raw then 0 else max 0 (l.cur - lround (raw * (1 - resist)))

/-- Some raw damage breaks a layer. -/
def Breaks (l : LayerHp) (resist raw : F) : Prop := 0 < l.cur ∧ capacity l resist ≤ raw

theorem lround_zero : lround (0 : F) = 0 := by
  have hle : (0 : Int) ≤ lround (0 : F) := by
    rw [ExactRound.le_lround 0 0 le_rfl]
    norm_num
  have hlt : ¬ (1 : Int) ≤ lround (0 : F) := by
    rw [ExactRound.le_lround 0 1 le_rfl]
    norm_num
  omega

theorem lround_mono {x y : F} (hx : 0 ≤ x) (hxy : x ≤ y) : lround x ≤ lround y := by
  rw [ExactRound.le_lround y _ (hx.trans hxy)]
  have hself := (ExactRound.le_lround x _ hx).mp le_rfl
  linarith

theorem lround_nonneg {x : F} (hx : 0 ≤ x) : 0 ≤ lround x := by
  rw [← lround_zero (F := F)]
  exact lround_mono le_rfl hx

variable {l : LayerHp} {resist raw : F}

theorem capacity_nonneg (hcur : 0 ≤ l.cur) (hresist : resist < 1) : 0 ≤ capacity l resist :=
  div_nonneg (Int.cast_nonneg hcur) (by linarith)

theorem capacity_le_iff (hresist : resist < 1) :
    capacity l resist ≤ raw ↔ (l.cur : F) ≤ raw * (1 - resist) :=
  div_le_iff₀ (by linarith)

theorem left_nonneg : 0 ≤ left l resist raw := by
  unfold left
  split
  · exact le_rfl
  · exact le_max_left _ _

theorem left_le (hcur : 0 ≤ l.cur) (hresist : resist < 1) (hraw : 0 ≤ raw) :
    left l resist raw ≤ l.cur := by
  have hround := lround_nonneg (mul_nonneg hraw (by linarith : 0 ≤ 1 - resist))
  unfold left
  split
  · exact hcur
  · omega

theorem left_zero (hcur : 0 ≤ l.cur) (hresist : resist < 1) : left l resist 0 = l.cur := by
  unfold left
  split
  · rename_i hle
    rw [capacity_le_iff hresist, zero_mul] at hle
    have hzero : l.cur ≤ 0 := by exact_mod_cast hle
    omega
  · rw [zero_mul, lround_zero]
    omega

/-- More damage leaves less of a layer. -/
theorem left_anti (hresist : resist < 1) {more : F} (hraw : 0 ≤ raw) (hmore : raw ≤ more) :
    left l resist more ≤ left l resist raw := by
  unfold left
  by_cases hbreaks : capacity l resist ≤ raw
  · rw [if_pos hbreaks, if_pos (hbreaks.trans hmore)]
  · rw [if_neg hbreaks]
    split
    · exact le_max_left _ _
    · have heffective : raw * (1 - resist) ≤ more * (1 - resist) :=
        mul_le_mul_of_nonneg_right hmore (by linarith)
      have hround := lround_mono (mul_nonneg hraw (by linarith)) heffective
      omega

/-- A layer is empty from half an effective point before its capacity on. -/
theorem left_eq_zero_iff (hresist : resist < 1) (hraw : 0 ≤ raw) :
    left l resist raw = 0 ↔ ((l.cur : F) - 1 / 2) / (1 - resist) ≤ raw := by
  have hmult : 0 < 1 - resist := by linarith
  rw [div_le_iff₀ hmult]
  unfold left
  split
  · rename_i hbreaks
    rw [capacity_le_iff hresist] at hbreaks
    exact ⟨fun _ => by linarith, fun _ => rfl⟩
  · have hround := ExactRound.le_lround (raw * (1 - resist)) l.cur (mul_nonneg hraw hmult.le)
    constructor
    · intro hzero
      have hall : l.cur ≤ lround (raw * (1 - resist)) := by omega
      have hclose := hround.mp hall
      linarith
    · intro hclose
      have hall : l.cur ≤ lround (raw * (1 - resist)) := hround.mpr (by linarith)
      omega

/-! ## One layer -/

/-- A blow on a layer: it takes its capacity, and what it has left is what the damage that
    reached it leaves. -/
theorem hitLayer_spec (hcur : 0 ≤ l.cur) (hresist : resist < 1) (hraw : 0 < raw) :
    (hitLayer l resist raw).layer = { l with cur := left l resist raw } ∧
      (hitLayer l resist raw).raw = max 0 (raw - capacity l resist) ∧
      ((hitLayer l resist raw).broke = true ↔ Breaks l resist raw) := by
  have hmult : 0 < 1 - resist := by linarith
  unfold hitLayer
  by_cases hempty : l.cur ≤ 0
  · -- An empty layer takes nothing.
    have hzero : l.cur = 0 := le_antisymm hempty hcur
    have hnone : capacity l resist = 0 := by
      unfold capacity
      rw [hzero, Int.cast_zero, zero_div]
    rw [if_pos hempty]
    refine ⟨?_, ?_, ?_⟩
    · unfold left
      rw [hnone, if_pos hraw.le, ← hzero]
    · rw [hnone, sub_zero, max_eq_right hraw.le]
    · unfold Breaks
      constructor
      · exact fun h => absurd h Bool.false_ne_true
      · exact fun h => absurd h.1 (not_lt.mpr hempty)
  · rw [if_neg hempty]
    simp only [Exact.ofInt_eq]
    by_cases hholds : raw * (1 - resist) < (l.cur : F)
    · have hcapacity : ¬ capacity l resist ≤ raw := by
        rw [capacity_le_iff hresist]
        exact not_le.mpr hholds
      rw [if_pos hholds]
      refine ⟨?_, ?_, ?_⟩
      · unfold left
        rw [if_neg hcapacity]
      · exact (max_eq_left (by linarith)).symm
      · unfold Breaks
        constructor
        · exact fun h => absurd h Bool.false_ne_true
        · exact fun h => absurd h.2 hcapacity
    · have hcapacity : capacity l resist ≤ raw :=
        (capacity_le_iff hresist).mpr (not_lt.mp hholds)
      rw [if_neg hholds, if_pos hmult]
      refine ⟨?_, ?_, ?_⟩
      · unfold left
        rw [if_pos hcapacity]
      · show (if capacity l resist < raw then raw - capacity l resist else 0) = _
        split
        · rename_i hlt
          exact (max_eq_right (by linarith)).symm
        · exact (max_eq_left (by linarith)).symm
      · exact ⟨fun _ => ⟨not_le.mp hempty, hcapacity⟩, fun _ => rfl⟩

theorem not_breaks_zero (hresist : resist < 1) : ¬ Breaks l resist 0 := by
  rintro ⟨hcur, hcapacity⟩
  rw [capacity_le_iff hresist, zero_mul] at hcapacity
  have hle : l.cur ≤ 0 := by exact_mod_cast hcapacity
  omega

omit [ExactRound F] in
theorem set_get (d : DefenseLayers F) (k : DefenseLayer) : d.set k (d.get k) = d := by
  cases k <;> rfl

instance Breaks.decidable : Decidable (Breaks l resist raw) := inferInstanceAs (Decidable (_ ∧ _))

/-- A blow that meets a layer, also where nothing is left of it. -/
theorem meet_spec {resists : ResistProfile F} {type : DamageType} {b : Blow F}
    {k : DefenseLayer} (hcur : 0 ≤ (b.layers.get k).cur) (hresist : resists.get k type < 1)
    (hraw : 0 ≤ b.raw) : b.meet resists type k =
      { outcome :=
          if Breaks (b.layers.get k) (resists.get k type) b.raw then k.broke else b.outcome
        raw := max 0 (b.raw - capacity (b.layers.get k) (resists.get k type))
        layers := b.layers.set k { b.layers.get k with
          cur := left (b.layers.get k) (resists.get k type) b.raw } } := by
  unfold Blow.meet
  by_cases hpos : 0 < b.raw
  · rcases hitLayer_spec hcur hresist hpos with ⟨hlayer, hrest, hbroke⟩
    rw [if_pos hpos]
    simp only [hlayer, hrest, hbroke]
  · have hzero : b.raw = 0 := le_antisymm (not_lt.mp hpos) hraw
    have hcapacity : 0 ≤ capacity (b.layers.get k) (resists.get k type) :=
      capacity_nonneg hcur hresist
    rw [if_neg hpos, hzero, left_zero hcur hresist, if_neg (not_breaks_zero hresist), set_get,
      max_eq_left (by linarith), ← hzero]

/-! ## All layers -/

/-- How far in a layer is. -/
def DefenseLayer.depth : DefenseLayer → Nat
  | .shield => 0
  | .armor => 1
  | .hull => 2

variable {d : DefenseLayers F} {resists : ResistProfile F} {type : DamageType} {damage : F}

/-- The capacity outside a layer. -/
def outer (d : DefenseLayers F) (resists : ResistProfile F) (type : DamageType) :
    DefenseLayer → F
  | .shield => 0
  | .armor => capacity d.shield (resists.get .shield type)
  | .hull => capacity d.shield (resists.get .shield type) +
      capacity d.armor (resists.get .armor type)

/-- The raw damage that reaches a layer. -/
def reaching (d : DefenseLayers F) (resists : ResistProfile F) (type : DamageType) (damage : F)
    (k : DefenseLayer) : F := max 0 (damage - outer d resists type k)

/-- The hit points of each layer are between zero and what it can have. -/
def DefenseLayers.Valid (d : DefenseLayers F) : Prop :=
  ∀ k, 0 ≤ (d.get k).cur ∧ (d.get k).cur ≤ (d.get k).max

/-- Every entry of a profile is less than one in size. -/
def ResistProfile.Valid (resists : ResistProfile F) : Prop :=
  ∀ k type, -1 < resists.get k type ∧ resists.get k type < 1

/-- A blow breaks a layer. -/
def BreaksAt (d : DefenseLayers F) (resists : ResistProfile F) (type : DamageType) (damage : F)
    (k : DefenseLayer) : Prop :=
  Breaks (d.get k) (resists.get k type) (reaching d resists type damage k)

instance BreaksAt.decidable : DecidablePred (BreaksAt d resists type damage) :=
  fun _ => inferInstanceAs (Decidable (Breaks _ _ _))

/-- What is reported when it is of the innermost layer with a property. -/
def innermost (p : DefenseLayer → Prop) [DecidablePred p] : DamageOutcome :=
  if p .hull then .killed
  else if p .armor then .armorDown
  else if p .shield then .shieldDown
  else .absorbed

omit [ExactRound F] in
theorem innermost_eq_broke (p : DefenseLayer → Prop) [DecidablePred p] (k : DefenseLayer) :
    innermost p = k.broke ↔ p k ∧ ∀ j, k.depth < j.depth → ¬ p j := by
  have hlayers : ∀ q : DefenseLayer → Prop, (∀ j, q j) ↔ q .shield ∧ q .armor ∧ q .hull := by
    intro q
    constructor
    · exact fun h => ⟨h _, h _, h _⟩
    · rintro ⟨hs, ha, hh⟩ j
      cases j with
      | shield => exact hs
      | armor => exact ha
      | hull => exact hh
  rw [hlayers]
  unfold innermost
  cases k <;> by_cases hh : p .hull <;> by_cases ha : p .armor <;> by_cases hs : p .shield <;>
    simp [hh, ha, hs, DefenseLayer.broke, DefenseLayer.depth]

omit [ExactRound F] in
theorem innermost_eq_absorbed (p : DefenseLayer → Prop) [DecidablePred p] :
    innermost p = .absorbed ↔ ∀ k, ¬ p k := by
  unfold innermost
  constructor
  · intro h k hk
    cases k with
    | hull => simp [hk] at h
    | armor =>
        rw [if_pos hk] at h
        split at h <;> exact absurd h (by decide)
    | shield =>
        rw [if_pos hk] at h
        split at h
        · exact absurd h (by decide)
        · split at h <;> exact absurd h (by decide)
  · intro h
    rw [if_neg (h _), if_neg (h _), if_neg (h _)]

/-- Each layer has left what the damage that reaches it leaves, and the report is of the
    innermost layer that breaks. -/
theorem applyTypedDamage_spec (hd : d.Valid) (hresists : resists.Valid) (hdamage : 0 ≤ damage) :
    (∀ k, ((applyTypedDamage d resists type damage).2.get k).cur =
      left (d.get k) (resists.get k type) (reaching d resists type damage k)) ∧
    (applyTypedDamage d resists type damage).1 = innermost (BreaksAt d resists type damage) := by
  have hcapacity : ∀ k, 0 ≤ capacity (d.get k) (resists.get k type) := fun k =>
    capacity_nonneg (hd k).1 (hresists k type).2
  -- What reaches a layer is what the one outside it hands on.
  have hshield : reaching d resists type damage .shield = damage := by
    unfold reaching outer
    rw [sub_zero, max_eq_right hdamage]
  have harmor : max 0 (damage - capacity d.shield (resists.get .shield type)) =
      reaching d resists type damage .armor := rfl
  have hhull : max 0 (reaching d resists type damage .armor -
      capacity d.armor (resists.get .armor type)) = reaching d resists type damage .hull := by
    have hnonneg : 0 ≤ capacity d.armor (resists.get .armor type) := hcapacity .armor
    unfold reaching outer
    rcases le_total (damage - capacity d.shield (resists.get .shield type)) 0 with hle | hle
    · rw [max_eq_left hle, max_eq_left (by linarith), max_eq_left (by linarith)]
    · rw [max_eq_right hle, sub_sub]
  unfold applyTypedDamage
  by_cases hnone : damage ≤ 0
  · -- Nothing reaches any layer.
    have hzero : ∀ k, reaching d resists type damage k = 0 := by
      intro k
      have houter : 0 ≤ outer d resists type k := by
        cases k with
        | shield => exact le_rfl
        | armor => exact hcapacity .shield
        | hull => exact add_nonneg (hcapacity .shield) (hcapacity .armor)
      exact max_eq_left (by linarith)
    rw [if_pos hnone]
    constructor
    · intro k
      rw [hzero]
      exact (left_zero (hd k).1 (hresists k type).2).symm
    · refine ((innermost_eq_absorbed _).mpr fun k hk => ?_).symm
      unfold BreaksAt at hk
      rw [hzero] at hk
      exact not_breaks_zero (hresists k type).2 hk
  · rw [if_neg hnone]
    simp only [damageLayers, List.foldl]
    rw [meet_spec (hd .shield).1 (hresists .shield type).2 hdamage,
      meet_spec (hd .armor).1 (hresists .armor type).2 (le_max_left _ _),
      meet_spec (hd .hull).1 (hresists .hull type).2 (le_max_left _ _)]
    simp only [DefenseLayers.get, DefenseLayers.set, harmor, hhull]
    constructor
    · intro k
      cases k with
      | shield => rw [hshield]
      | armor => rfl
      | hull => rfl
    · simp only [innermost, BreaksAt, hshield]
      rfl

/-! ## What is asked of a blow -/

/-- A layer that had hit points and has none. -/
def Emptied (d d' : DefenseLayers F) (k : DefenseLayer) : Prop :=
  0 < (d.get k).cur ∧ (d'.get k).cur = 0

/-- A blow takes from the layers inward and more of a harder one, and it reports the innermost
    layer that it empties. -/
structure Layered (d : DefenseLayers F) (resists : ResistProfile F) (type : DamageType)
    (damage : F) : Prop where
  bounded : ∀ k, 0 ≤ ((applyTypedDamage d resists type damage).2.get k).cur ∧
    ((applyTypedDamage d resists type damage).2.get k).cur ≤ (d.get k).cur
  inward : ∀ k, ((applyTypedDamage d resists type damage).2.get k).cur < (d.get k).cur →
    ∀ j, j.depth < k.depth → ((applyTypedDamage d resists type damage).2.get j).cur = 0
  monotone : ∀ more, damage ≤ more → ∀ k,
    ((applyTypedDamage d resists type more).2.get k).cur ≤
      ((applyTypedDamage d resists type damage).2.get k).cur
  reported : ∀ k, (applyTypedDamage d resists type damage).1 = k.broke ↔
    Emptied d (applyTypedDamage d resists type damage).2 k ∧
      ∀ j, k.depth < j.depth → ¬ Emptied d (applyTypedDamage d resists type damage).2 j
  absorbed : (applyTypedDamage d resists type damage).1 = .absorbed ↔
    ∀ k, ¬ Emptied d (applyTypedDamage d resists type damage).2 k

/-- A blow that ends within half an effective point of breaking a layer. -/
def Grazes (d : DefenseLayers F) (resists : ResistProfile F) (type : DamageType) (damage : F) :
    Prop :=
  ∃ k, 0 < (d.get k).cur ∧
    outer d resists type k + (((d.get k).cur : F) - 0.5) / (1 - resists.get k type) ≤ damage ∧
    damage < outer d resists type k + ((d.get k).cur : F) / (1 - resists.get k type)

/-! ## What reaches a layer -/

theorem reaching_nonneg (k : DefenseLayer) :
    0 ≤ reaching d resists type damage k := le_max_left _ _

/-- A layer takes its capacity before anything reaches one that is further in. -/
theorem outer_le (hd : d.Valid) (hresists : resists.Valid) {j k : DefenseLayer}
    (hjk : j.depth < k.depth) : outer d resists type j + capacity (d.get j) (resists.get j type) ≤
      outer d resists type k := by
  have harmor : 0 ≤ capacity d.armor (resists.get .armor type) :=
    capacity_nonneg (hd .armor).1 (hresists .armor type).2
  cases j <;> cases k <;> simp only [DefenseLayer.depth, outer, DefenseLayers.get] at hjk ⊢ <;>
    first | omega | linarith

/-- Where damage reaches a layer, the ones outside it get all that they can take. -/
theorem capacity_le_reaching (hd : d.Valid) (hresists : resists.Valid) {j k : DefenseLayer}
    (hjk : j.depth < k.depth) (hreach : 0 < reaching d resists type damage k) :
    capacity (d.get j) (resists.get j type) ≤ reaching d resists type damage j := by
  have hpast : 0 < damage - outer d resists type k :=
    (lt_max_iff.mp hreach).resolve_left (lt_irrefl 0)
  have houter : outer d resists type j + capacity (d.get j) (resists.get j type) ≤
      outer d resists type k := outer_le hd hresists hjk
  exact le_max_of_le_right (by linarith)

theorem emptied_iff (hd : d.Valid) (hresists : resists.Valid) (hdamage : 0 ≤ damage)
    (k : DefenseLayer) : Emptied d (applyTypedDamage d resists type damage).2 k ↔
      0 < (d.get k).cur ∧ (((d.get k).cur : F) - 1 / 2) / (1 - resists.get k type) ≤
        reaching d resists type damage k := by
  unfold Emptied
  rw [(applyTypedDamage_spec hd hresists hdamage).1,
    left_eq_zero_iff (hresists k type).2 (reaching_nonneg k)]

/-- A blow grazes when it empties a layer that it does not break. -/
theorem grazes_iff (hd : d.Valid) (hresists : resists.Valid) (hdamage : 0 ≤ damage) :
    Grazes d resists type damage ↔
      ∃ k, Emptied d (applyTypedDamage d resists type damage).2 k ∧
        ¬ BreaksAt d resists type damage k := by
  unfold Grazes BreaksAt Breaks
  simp only [Exact.half]
  refine exists_congr fun k => ?_
  rw [emptied_iff hd hresists hdamage, and_assoc]
  refine and_congr_right fun hcur => ?_
  have hmult : 0 < 1 - resists.get k type := by linarith [(hresists k type).2]
  have hone : (1 : F) ≤ (d.get k).cur := by exact_mod_cast hcur
  have hclose : 0 < (((d.get k).cur : F) - 1 / 2) / (1 - resists.get k type) :=
    div_pos (by linarith) hmult
  have hwhole : 0 < capacity (d.get k) (resists.get k type) := div_pos (by linarith) hmult
  rw [not_and, not_le]
  unfold reaching
  rw [le_max_iff, max_lt_iff]
  constructor
  · rintro ⟨hle, hlt⟩
    exact ⟨Or.inr (by linarith), fun _ => ⟨hwhole, by unfold capacity; linarith⟩⟩
  · rintro ⟨hle, hlt⟩
    have hreach := hle.resolve_left (not_le.mpr hclose)
    have hpast := (hlt hcur).2
    unfold capacity at hpast
    exact ⟨by linarith, by linarith⟩

/-! ## A blow -/

/-- A blow is as it should be when it does not end just before it breaks a layer. -/
theorem layered_iff (hd : d.Valid) (hresists : resists.Valid) (hdamage : 0 ≤ damage) :
    Layered d resists type damage ↔ ¬ Grazes d resists type damage := by
  have hspec := @applyTypedDamage_spec F _ d resists type damage hd hresists hdamage
  rcases hspec with ⟨hleft, houtcome⟩
  rw [grazes_iff hd hresists hdamage]
  constructor
  · rintro h ⟨k, hempty, hholds⟩
    -- Nothing gets past a layer that holds, so it is the innermost one that is emptied.
    have hinner : ∀ j, k.depth < j.depth →
        ¬ Emptied d (applyTypedDamage d resists type damage).2 j := by
      intro j hkj hj
      rw [emptied_iff hd hresists hdamage] at hj
      have hzero : ¬ 0 < reaching d resists type damage j := fun hreach =>
        hholds ⟨hempty.1, capacity_le_reaching hd hresists hkj hreach⟩
      have hone : (1 : F) ≤ (d.get j).cur := by exact_mod_cast hj.1
      have hclose : 0 < (((d.get j).cur : F) - 1 / 2) / (1 - resists.get j type) :=
        div_pos (by linarith) (by linarith [(hresists j type).2])
      exact hzero (hclose.trans_le hj.2)
    have hreport := (h.reported k).mpr ⟨hempty, hinner⟩
    rw [houtcome, innermost_eq_broke] at hreport
    exact hholds hreport.1
  · intro hgraze
    have hbreaks : ∀ k, Emptied d (applyTypedDamage d resists type damage).2 k ↔
        BreaksAt d resists type damage k := by
      intro k
      constructor
      · exact fun hempty => by_contra fun hholds => hgraze ⟨k, hempty, hholds⟩
      · intro hbroken
        refine ⟨hbroken.1, ?_⟩
        rw [hleft]
        exact if_pos hbroken.2
    refine ⟨fun k => ?_, fun k hless j hjk => ?_, fun more hmore k => ?_, fun k => ?_, ?_⟩
    · rw [hleft]
      exact ⟨left_nonneg, left_le (hd k).1 (hresists k type).2 (reaching_nonneg k)⟩
    · -- What a layer loses has reached it.
      have hreach : 0 < reaching d resists type damage k := by
        refine lt_of_le_of_ne (reaching_nonneg k) fun hzero => ?_
        rw [hleft, ← hzero, left_zero (hd k).1 (hresists k type).2] at hless
        exact absurd hless (lt_irrefl _)
      rw [hleft]
      exact if_pos (capacity_le_reaching hd hresists hjk hreach)
    · rw [hleft, (applyTypedDamage_spec hd hresists (hdamage.trans hmore)).1]
      exact left_anti (hresists k type).2 (reaching_nonneg k)
        (max_le_max le_rfl (by linarith))
    · simp only [houtcome, innermost_eq_broke, hbreaks]
    · simp only [houtcome, innermost_eq_absorbed, hbreaks]

end

/-! ### A hull that is emptied and holds -/

/-- A hull of twenty hit points and nothing else. -/
def bareHull : DefenseLayers ℚ := ⟨⟨0, 0⟩, ⟨0, 0⟩, ⟨20, 20⟩, 0, 0⟩

def noResists : ResistProfile ℚ := ⟨⟨0, 0, 0⟩, ⟨0, 0, 0⟩, ⟨0, 0, 0⟩⟩

/-- The hull is gone and the blow is reported as absorbed. -/
theorem hull_grazed : (applyTypedDamage bareHull noResists .kinetic 19.7).2.hull.cur = 0 ∧
    (applyTypedDamage bareHull noResists .kinetic 19.7).1 = .absorbed ∧
    ¬ Layered bareHull noResists .kinetic 19.7 := by
  have hempty : (applyTypedDamage bareHull noResists .kinetic 19.7).2.hull.cur = 0 := by
    decide +kernel
  have hreport : (applyTypedDamage bareHull noResists .kinetic 19.7).1 = .absorbed := by
    decide +kernel
  exact ⟨hempty, hreport, fun h => h.absorbed.mp hreport .hull ⟨by decide, hempty⟩⟩

theorem layered_bareHull : Layered bareHull noResists .kinetic 19 := by
  refine (layered_iff ?_ ?_ (by decide +kernel)).mpr ?_
  · intro k
    cases k <;> decide
  · intro k type
    cases k <;> cases type <;> decide +kernel
  · rintro ⟨k, hcur, hclose, _⟩
    cases k with
    | hull => exact absurd hclose (by decide +kernel)
    | _ => exact absurd hcur (by decide)

end Shard

end EarthRise
