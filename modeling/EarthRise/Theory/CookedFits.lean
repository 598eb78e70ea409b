import EarthRise.Theory.CookedData

/-!
# What the Rule for a Fit Lets Through

A loaded catalog is not checked, and what is installed from it is legal when the check would
have said so and a little more.

`validateFit` counts the modules of a slot family in eight bits. Where a hull has fewer than
255 slots of a family the count is stopped before it could wrap, so the rule is what it
seems to be; a hull with 255 slots takes any number of modules. Of the bytes that stand for
something the rule looks at the slot alone. `Lenient` is what it asks for and `Legal` what a
fit has to be, and the difference is the bytes and the wide families (`legal_iff`).

Loading decodes and does no more, and installing leaves out the modules that it does not
know and takes the others as they are, so the rule says nothing about a unit unless someone
has asked it before (`over_slots_installed`).

## Main definitions

* `ModuleDef.Named`: The bytes of a module stand for something.
* `Legal`, `Lenient`: What a fit has to be, and what the rule asks for.
* `Tame`: What the rule does not ask for.
* `LoadedLegally`, `Checked`: A fit of a cooked catalog, installed and checked.

## Theorems

* `fitModules_ok_iff`, `validateFit_ok_iff`: What the rule accepts.
* `legal_iff`: The difference.
* `installFitDirect_legal_iff`: What is installed is what was fitted.
* `loadedLegally_iff`: When what is installed is legal, and when the rule is right.
-/

namespace EarthRise

namespace Cooked

open Shard (Resists ResistProfile BySlot SlotType)

/-! ## Bytes -/

/-- The bytes of a module stand for something. -/
structure ModuleDef.Named {F : Type} (m : ModuleDef F) : Prop where
  kind : m.kind < 11
  slot : m.slot < 3
  damageType : m.damageType < 3
  effectLayer : m.effectLayer < 3

/-- The bytes below three are three. -/
theorem lt_three_iff (b : UInt8) : b < 3 ↔ b = 0 ∨ b = 1 ∨ b = 2 := by
  rw [UInt8.lt_iff_toNat_lt, ← UInt8.toNat_inj, ← UInt8.toNat_inj, ← UInt8.toNat_inj]
  have h0 : (0 : UInt8).toNat = 0 := rfl
  have h1 : (1 : UInt8).toNat = 1 := rfl
  have h2 : (2 : UInt8).toNat = 2 := rfl
  have h3 : (3 : UInt8).toNat = 3 := rfl
  omega

theorem isSome_slotOf_iff (b : UInt8) : (slotOf b).isSome = true ↔ b < 3 := by
  rw [lt_three_iff]
  unfold slotOf
  split
  · simp
  · simp
  · simp
  · simp_all

variable {F : Type}

theorem isSome_resistIn (r : Resists F) (b : UInt8) (h : b < 3) :
    (resistIn r b).isSome = true := by
  rcases (lt_three_iff b).mp h with rfl | rfl | rfl
  · rfl
  · rfl
  · rfl

/-- Bytes that stand for something are found in the table. -/
theorem isSome_resistAt (p : ResistProfile F) (layer type : UInt8) (hl : layer < 3)
    (ht : type < 3) : (resistAt p layer type).isSome = true := by
  rcases (lt_three_iff layer).mp hl with rfl | rfl | rfl
  · exact isSome_resistIn p.shield type ht
  · exact isSome_resistIn p.armor type ht
  · exact isSome_resistIn p.hull type ht

theorem get_set {α : Type} (b : BySlot α) (s s' : SlotType) (a : α) :
    (b.set s a).get s' = if s = s' then a else b.get s' := by
  cases s with
  | high => cases s' <;> rfl
  | mid => cases s' <;> rfl
  | low => cases s' <;> rfl

/-! ## Counting -/

section

variable {F : Type}

/-- The modules of a slot family. -/
def slotCount (mods : List (ModuleDef F)) (s : SlotType) : Nat :=
  mods.countP fun m => slotOf m.slot = some s

theorem slotCount_cons (m : ModuleDef F) (mods : List (ModuleDef F)) (s : SlotType) :
    slotCount (m :: mods) s = slotCount mods s + if slotOf m.slot = some s then 1 else 0 := by
  unfold slotCount
  rw [List.countP_cons]
  simp only [decide_eq_true_eq]

/-- The modules fit the slots that are left of a hull, as far as eight bits tell. -/
def Room (hull : HullClass F) (used : BySlot UInt8) (mods : List (ModuleDef F)) : Prop :=
  ∀ s, (hull.slots.get s).toNat = 255 ∨
    (used.get s).toNat + slotCount mods s ≤ (hull.slots.get s).toNat

/-- One module and the rest: the count that is stopped is the one that would not fit. -/
theorem room_cons_iff (hull : HullClass F) (used : BySlot UInt8) (m : ModuleDef F)
    (mods : List (ModuleDef F)) (s : SlotType) (hs : slotOf m.slot = some s)
    (h : Room hull used []) :
    Room hull used (m :: mods) ↔ ¬ hull.slots.get s < used.get s + 1 ∧
      Room hull (used.set s (used.get s + 1)) mods := by
  have hadd : (used.get s + 1).toNat = ((used.get s).toNat + 1) % 256 := UInt8.toNat_add _ _
  have hcap := (hull.slots.get s).toNat_lt
  have hstart : (hull.slots.get s).toNat = 255 ∨
    (used.get s).toNat ≤ (hull.slots.get s).toNat := h s
  rw [UInt8.lt_iff_toNat_lt, hadd]
  -- Where the family is not full the count does not wrap.
  have hwrap : (hull.slots.get s).toNat ≠ 255 →
      ((used.get s).toNat + 1) % 256 = (used.get s).toNat + 1 := fun hne =>
    Nat.mod_eq_of_lt (by omega)
  constructor
  · intro hroom
    have hself := hroom s
    rw [slotCount_cons, if_pos hs] at hself
    refine ⟨by omega, fun s' => ?_⟩
    have hother := hroom s'
    rw [slotCount_cons] at hother
    rw [get_set]
    by_cases heq : s = s'
    · subst heq
      rw [if_pos rfl, hadd]
      omega
    · rw [if_neg (by rw [hs, Option.some.injEq]; exact heq)] at hother
      rw [if_neg heq]
      exact hother
  · rintro ⟨hle, hroom⟩ s'
    have hother := hroom s'
    rw [get_set] at hother
    rw [slotCount_cons, hs]
    by_cases heq : s = s'
    · subst heq
      rw [if_pos rfl, hadd] at hother
      rw [if_pos rfl]
      omega
    · rw [if_neg heq] at hother
      rw [if_neg (by rw [Option.some.injEq]; exact heq)]
      exact hother

/-- A count that is not stopped is one that fits. -/
theorem Room.set {hull : HullClass F} {used : BySlot UInt8} (h : Room hull used [])
    (s : SlotType) (hle : ¬ hull.slots.get s < used.get s + 1) :
    Room hull (used.set s (used.get s + 1)) [] := by
  have hadd : (used.get s + 1).toNat = ((used.get s).toNat + 1) % 256 := UInt8.toNat_add _ _
  have hcap := (hull.slots.get s).toNat_lt
  rw [UInt8.lt_iff_toNat_lt, hadd] at hle
  intro s'
  have hold : (hull.slots.get s').toNat = 255 ∨
    (used.get s').toNat ≤ (hull.slots.get s').toNat := h s'
  have hnone : slotCount ([] : List (ModuleDef F)) s' = 0 := rfl
  rw [hnone, get_set]
  by_cases heq : s = s'
  · subst heq
    rw [if_pos rfl, hadd]
    omega
  · rw [if_neg heq]
    exact hold

end

/-- Modules that are not known are left out. -/
theorem filterMap_known (c : CombatCatalog F) (codes : List Code) :
    (codes.filter fun code => (c.findModule code).isSome).filterMap c.findModule =
      codes.filterMap c.findModule := by
  rw [List.filterMap_filter]
  refine List.filterMap_congr fun code _ => ?_
  cases c.findModule code <;> rfl

/-! ## The rule -/

section

variable {F : Type} [Floating F]

def pgSum (start : F) (mods : List (ModuleDef F)) : F := mods.foldl (fun x m => x + m.pgCost) start

def cpuSum (start : F) (mods : List (ModuleDef F)) : F :=
  mods.foldl (fun x m => x + m.cpuCost) start

/-- The modules that are fitted when none is stopped. -/
theorem fitModules_ok_iff (hull : HullClass F) (cat : CombatCatalog F) (codes : List Code) :
    ∀ r : FitUse F, Room hull r.used [] → ((∃ use, fitModules hull cat codes r = .ok use) ↔
      (∀ code ∈ codes, (cat.findModule code).isSome = true) ∧
      (∀ m ∈ codes.filterMap cat.findModule, m.slot < 3) ∧
      Room hull r.used (codes.filterMap cat.findModule)) := by
  induction codes with
  | nil =>
      intro r hroom
      exact ⟨fun _ => ⟨fun _ h => absurd h List.not_mem_nil,
        fun _ h => absurd h List.not_mem_nil, hroom⟩, fun _ => ⟨r, rfl⟩⟩
  | cons code rest ih =>
      intro r hroom
      rw [fitModules]
      cases hfind : cat.findModule code with
      | none =>
          constructor
          · rintro ⟨use, huse⟩
            exact absurd huse nofun
          · rintro ⟨hknown, _⟩
            have hsome := hknown code List.mem_cons_self
            rw [hfind] at hsome
            exact absurd hsome (by simp only [Option.isSome_none, Bool.false_eq_true,
              not_false_eq_true])
      | some m =>
          rw [List.filterMap_cons_some hfind]
          simp only [List.forall_mem_cons, hfind, Option.isSome_some, true_and]
          cases hs : slotOf m.slot with
          | none =>
              have hslot : ¬ m.slot < 3 := fun hlt => by
                have hsome := (isSome_slotOf_iff m.slot).mpr hlt
                rw [hs] at hsome
                exact absurd hsome (by simp only [Option.isSome_none, Bool.false_eq_true,
                  not_false_eq_true])
              constructor
              · rintro ⟨use, huse⟩
                exact absurd huse nofun
              · rintro ⟨_, ⟨hlt, _⟩, _⟩
                exact absurd hlt hslot
          | some s =>
              have hslot : m.slot < 3 := (isSome_slotOf_iff m.slot).mp (by rw [hs]; rfl)
              rw [room_cons_iff hull r.used m _ s hs hroom]
              by_cases hfull : hull.slots.get s < r.used.get s + 1
              · constructor
                · rintro ⟨use, huse⟩
                  simp only [hfull, if_true, reduceCtorEq] at huse
                · rintro ⟨_, _, hnot, _⟩
                  exact absurd hfull hnot
              · have hnext := hroom.set s hfull
                simp only [hfull, if_false, hslot, true_and, not_false_eq_true]
                exact ih _ hnext

/-- What is added up is what the modules cost. -/
theorem fitModules_use (hull : HullClass F) (cat : CombatCatalog F) (codes : List Code) :
    ∀ r use : FitUse F, fitModules hull cat codes r = .ok use →
      use.pgUsed = pgSum r.pgUsed (codes.filterMap cat.findModule) ∧
      use.cpuUsed = cpuSum r.cpuUsed (codes.filterMap cat.findModule) := by
  induction codes with
  | nil =>
      intro r use h
      rw [fitModules, Except.ok.injEq] at h
      exact ⟨h ▸ rfl, h ▸ rfl⟩
  | cons code rest ih =>
      intro r use h
      rw [fitModules] at h
      cases hfind : cat.findModule code with
      | none => simp only [hfind, reduceCtorEq] at h
      | some m =>
          rw [List.filterMap_cons_some hfind]
          cases hs : slotOf m.slot with
          | none => simp only [hfind, hs, reduceCtorEq] at h
          | some s =>
              simp only [hfind, hs] at h
              split at h
              · exact absurd h nofun
              · exact ih _ use h

/-- What the rule asks for. -/
structure Lenient (hull : HullClass F) (mods : List (ModuleDef F)) : Prop where
  slots : ∀ s, (hull.slots.get s).toNat = 255 ∨ slotCount mods s ≤ (hull.slots.get s).toNat
  slotNamed : ∀ m ∈ mods, m.slot < 3
  pg : ¬ hull.pgMax < pgSum 0 mods
  cpu : ¬ hull.cpuMax < cpuSum 0 mods

/-- What the modules of a fit have to be. -/
structure Legal (hull : HullClass F) (mods : List (ModuleDef F)) : Prop where
  slots : ∀ s, slotCount mods s ≤ (hull.slots.get s).toNat
  pg : ¬ hull.pgMax < pgSum 0 mods
  cpu : ¬ hull.cpuMax < cpuSum 0 mods
  named : ∀ m ∈ mods, m.Named

/-- A wide family holds no more modules than its count can count, and the bytes stand for
    something. -/
structure Tame (mods : List (ModuleDef F)) : Prop where
  few : ∀ s, slotCount mods s ≤ 255
  named : ∀ m ∈ mods, m.Named

theorem legal_iff (hull : HullClass F) (mods : List (ModuleDef F)) :
    Legal hull mods ↔ Lenient hull mods ∧ Tame mods := by
  constructor
  · intro h
    refine ⟨⟨fun s => Or.inr (h.slots s), fun m hm => (h.named m hm).slot, h.pg, h.cpu⟩,
      ⟨fun s => ?_, h.named⟩⟩
    have hle := h.slots s
    have hlt := (hull.slots.get s).toNat_lt
    omega
  · rintro ⟨hlenient, htame⟩
    refine ⟨fun s => ?_, hlenient.pg, hlenient.cpu, htame.named⟩
    have hslots := hlenient.slots s
    have hfew := htame.few s
    omega

theorem validateFit_ok_iff (hull : HullClass F) (codes : List Code) (cat : CombatCatalog F) :
    (∃ use, validateFit hull codes cat = .ok use) ↔
      (∀ code ∈ codes, (cat.findModule code).isSome = true) ∧
      Lenient hull (codes.filterMap cat.findModule) := by
  have hroom : Room hull (⟨0, 0, 0⟩ : BySlot UInt8) [] := fun s => by
    cases s with
    | high => exact Or.inr (Nat.zero_le _)
    | mid => exact Or.inr (Nat.zero_le _)
    | low => exact Or.inr (Nat.zero_le _)
  have hzero : ∀ s, ((⟨0, 0, 0⟩ : BySlot UInt8).get s).toNat = 0 := fun s => by
    cases s <;> rfl
  have hiff := fitModules_ok_iff hull cat codes ⟨0, 0, ⟨0, 0, 0⟩⟩ hroom
  unfold Room at hiff
  simp only [hzero, Nat.zero_add] at hiff
  unfold validateFit
  cases hfit : fitModules hull cat codes ⟨0, 0, ⟨0, 0, 0⟩⟩ with
  | error e =>
      rw [hfit] at hiff
      constructor
      · rintro ⟨use, huse⟩
        exact absurd huse nofun
      · rintro ⟨hknown, hlenient⟩
        rcases hiff.mpr ⟨hknown, hlenient.slotNamed, hlenient.slots⟩ with ⟨use, huse⟩
        exact absurd huse nofun
  | ok use =>
      rcases fitModules_use hull cat codes _ use hfit with ⟨hpg, hcpu⟩
      rcases hiff.mp ⟨use, hfit⟩ with ⟨hknown, hslot, hslots⟩
      simp only [hpg, hcpu]
      constructor
      · rintro ⟨r, hr⟩
        by_cases hp : hull.pgMax < pgSum 0 (codes.filterMap cat.findModule)
        · simp only [hp, if_true, reduceCtorEq] at hr
        · by_cases hc : hull.cpuMax < cpuSum 0 (codes.filterMap cat.findModule)
          · simp only [hp, hc, if_true, if_false, reduceCtorEq] at hr
          · exact ⟨hknown, ⟨hslots, hslot, hp, hc⟩⟩
      · rintro ⟨_, hlenient⟩
        exact ⟨use, by rw [if_neg hlenient.pg, if_neg hlenient.cpu]⟩

/-- The rule for the known modules of a fit. -/
theorem validateFit_known_iff (hull : HullClass F) (codes : List Code) (c : CombatCatalog F) :
    (∃ use, validateFit hull (codes.filter fun code => (c.findModule code).isSome) c =
      .ok use) ↔ Lenient hull (codes.filterMap c.findModule) := by
  rw [validateFit_ok_iff, filterMap_known]
  exact ⟨fun h => h.2, fun h => ⟨fun code hcode => (List.mem_filter.mp hcode).2, h⟩⟩

/-! ## What is installed -/

/-- The modules on a unit fit its slots and its budgets. -/
structure Fitting.Legal (f : Fitting F) : Prop where
  slots : ∀ s, slotCount (f.modules.map ModuleInstance.info) s ≤ (f.slots.get s).toNat
  pg : ¬ f.pgMax < f.pgUsed
  cpu : ¬ f.cpuMax < f.cpuUsed
  named : ∀ mi ∈ f.modules, mi.info.Named

/-- Fitting a module leaves its bytes as they are. -/
theorem fitModule_bytes (b : FitBonus F) (m : ModuleDef F) :
    (fitModule b m).info.kind = m.kind ∧ (fitModule b m).info.slot = m.slot ∧
      (fitModule b m).info.damageType = m.damageType ∧
      (fitModule b m).info.effectLayer = m.effectLayer := by
  unfold fitModule
  by_cases hw : m.kind = kindWeapon
  · simp only [if_pos hw, and_self]
  · simp only [if_neg hw, and_self]

theorem named_fitModule (b : FitBonus F) (m : ModuleDef F) :
    (fitModule b m).info.Named ↔ m.Named := by
  rcases fitModule_bytes b m with ⟨hkind, hslot, htype, hlayer⟩
  constructor
  · intro h
    exact ⟨hkind ▸ h.kind, hslot ▸ h.slot, htype ▸ h.damageType, hlayer ▸ h.effectLayer⟩
  · intro h
    exact ⟨hkind ▸ h.kind, hslot ▸ h.slot, htype ▸ h.damageType, hlayer ▸ h.effectLayer⟩

theorem slotCount_fitModule (b : FitBonus F) (mods : List (ModuleDef F)) (s : SlotType) :
    slotCount ((mods.map (fitModule b)).map ModuleInstance.info) s = slotCount mods s := by
  unfold slotCount
  rw [List.map_map, List.countP_map]
  refine List.countP_congr fun m _ => ?_
  simp only [Function.comp_apply, (fitModule_bytes b m).2.1]

theorem installFitDirect_legal_iff (hull : HullClass F) (mods : List (ModuleDef F)) :
    (installFitDirect hull mods).fitting.Legal ↔ Legal hull mods := by
  have hinfo : ∀ s, slotCount ((installFitDirect hull mods).fitting.modules.map
      ModuleInstance.info) s = slotCount mods s := fun s => slotCount_fitModule _ mods s
  constructor
  · intro h
    refine ⟨fun s => hinfo s ▸ h.slots s, h.pg, h.cpu, fun m hm => ?_⟩
    exact (named_fitModule _ m).mp (h.named _ (List.mem_map.mpr ⟨m, hm, rfl⟩))
  · intro h
    refine ⟨fun s => (hinfo s).symm ▸ h.slots s, h.pg, h.cpu, fun mi hmi => ?_⟩
    rcases List.mem_map.mp hmi with ⟨m, hm, rfl⟩
    exact (named_fitModule _ m).mpr (h.named m hm)

end

/-! ## From bytes to a unit -/

section

variable (F : Type) [Floating F] [FloatBits F]

/-- What is installed from a cooked catalog by the name of a fit is legal, and its damage
    types are in the tables of resists. -/
def LoadedLegally (blob : List UInt8) (name : Code) : Prop :=
  ∀ c : CombatCatalog F, loadCombatFromCooked blob = some c →
    ∀ unit, installFit c name = some unit → unit.fitting.Legal ∧
      ∀ mi ∈ unit.fitting.modules, ∀ (p : ResistProfile F) (layer : UInt8), layer < 3 →
        (resistAt p layer mi.info.damageType).isSome = true

/-- The known modules of the fit pass the rule and are tame. -/
def Checked (blob : List UInt8) (name : Code) : Prop :=
  ∀ c : CombatCatalog F, loadCombatFromCooked blob = some c →
    ∀ ft, c.findFit name = some ft → ∀ hull, c.findHull ft.hull = some hull →
      (∃ use, validateFit hull (ft.modules.filter fun code => (c.findModule code).isSome) c =
        .ok use) ∧ Tame (ft.modules.filterMap c.findModule)

/-- What is installed is legal when its known modules pass the rule and are tame; and the rule
    accepts what is legal and nothing else when what it lets through is tame. -/
theorem loadedLegally_iff :
    (∀ blob name, LoadedLegally F blob name ↔ Checked F blob name) ∧
    ∀ (hull : HullClass F) (codes : List Code) (cat : CombatCatalog F),
      ((∃ use, validateFit hull codes cat = .ok use) ↔
        (∀ code ∈ codes, (cat.findModule code).isSome = true) ∧
          Legal hull (codes.filterMap cat.findModule)) ↔
      ((∀ code ∈ codes, (cat.findModule code).isSome = true) →
        Lenient hull (codes.filterMap cat.findModule) →
        Tame (codes.filterMap cat.findModule)) := by
  refine ⟨fun blob name => ?_, fun hull codes cat => ?_⟩
  · constructor
    · intro h c hc ft hft hull hhull
      have hinstall : installFit c name =
          some (installFitDirect hull (ft.modules.filterMap c.findModule)) := by
        unfold installFit
        simp only [hft, hhull]
      have hlegal := (installFitDirect_legal_iff _ _).mp (h c hc _ hinstall).1
      rw [validateFit_known_iff]
      exact (legal_iff _ _).mp hlegal
    · intro h c hc unit hunit
      unfold installFit at hunit
      cases hft : c.findFit name with
      | none => simp only [hft, reduceCtorEq] at hunit
      | some ft =>
          cases hhull : c.findHull ft.hull with
          | none => simp only [hft, hhull, reduceCtorEq] at hunit
          | some hull =>
              simp only [hft, hhull, Option.some.injEq] at hunit
              have hchecked := h c hc ft hft hull hhull
              rw [validateFit_known_iff] at hchecked
              have hlegal := (installFitDirect_legal_iff _ _).mpr ((legal_iff _ _).mpr hchecked)
              rw [hunit] at hlegal
              exact ⟨hlegal, fun mi hmi p layer hlayer =>
                isSome_resistAt p layer _ hlayer (hlegal.named mi hmi).damageType⟩
  · rw [validateFit_ok_iff, legal_iff]
    constructor
    · intro h hknown hlenient
      exact (h.mp ⟨hknown, hlenient⟩).2.2
    · intro h
      exact ⟨fun hok => ⟨hok.1, hok.2, h hok.1 hok.2⟩, fun hok => ⟨hok.1, hok.2.1⟩⟩

end

/-! ### Loaded without a check -/

theorem exists_ok_of_isSome {ε α : Type} (e : Except ε α) (h : e.toOption.isSome = true) :
    ∃ a, e = .ok a := by
  cases e with
  | ok a => exact ⟨a, rfl⟩
  | error e => exact absurd h (by simp only [Except.toOption, Option.isSome_none,
      Bool.false_eq_true, not_false_eq_true])

def someHull (slotsHigh : UInt8) : HullClass Float32 where
  code := [1]
  size := 1
  tier := 1
  slots := ⟨slotsHigh, 0, 0⟩
  pgMax := 0
  cpuMax := 0
  mass := 0
  signature := 0
  maxSpeed := 0
  shieldHp := 1
  armorHp := 1
  hullHp := 1
  shieldRegenPerSec := 0
  resists := ⟨⟨0, 0, 0⟩, ⟨0, 0, 0⟩, ⟨0, 0, 0⟩⟩

def someWeapon (damageType : UInt8) : ModuleDef Float32 where
  code := [2]
  kind := kindWeapon
  slot := 0
  tier := 1
  pgCost := 0
  cpuCost := 0
  damageType := damageType
  baseDamage := 1
  rateOfFire := 1
  optimal := 1
  falloff := 1
  tracking := 1
  projectileSpeed := 0
  effectLayer := 0
  strength := 0
  duration := 0
  range := 0

/-- A fit of one weapon, of a damage type that there is not, on a hull without a slot. -/
def slotless : CombatCatalog Float32 := ⟨[someHull 0], [someWeapon 9], [⟨[3], [1], [[2]]⟩]⟩

/-- A hull with all the slots that there can be. -/
def wide : CombatCatalog Float32 := ⟨[someHull 255], [someWeapon 0], []⟩

/-- One weapon more than there are slots. -/
def manyWeapons : List Code := List.replicate 256 [2]

/-- A catalog that fails the rule is loaded and its fit is installed; and the rule accepts
    more modules than there are slots. -/
theorem over_slots_installed :
    ¬ LoadedLegally Float32 (encodeCombatCatalog slotless) [3] ∧
    (∃ use, validateFit (someHull 255) manyWeapons wide = .ok use) ∧
      ¬ Legal (someHull 255) (manyWeapons.filterMap wide.findModule) := by
  refine ⟨fun h => ?_, ?_, fun h => ?_⟩
  · have hfits : slotless.Fits := by
      refine ⟨⟨by decide, ?_⟩, ⟨by decide, ?_⟩, by decide, ?_⟩
      · intro hull hhull
        rw [List.mem_singleton.mp hhull]
        decide
      · intro m hm
        rw [List.mem_singleton.mp hm]
        decide
      · intro f hf
        rw [List.mem_singleton.mp hf]
        exact ⟨by decide, by decide, by decide, by decide⟩
    have hback : loadCombatFromCooked (encodeCombatCatalog slotless) = some slotless := by
      unfold loadCombatFromCooked decodeCombatCatalog encodeCombatCatalog
      exact Serde.decode_encode (codes_writeCombatCatalog slotless hfits)
    have hlegal := (h slotless hback _ rfl).1
    exact absurd (hlegal.slots .high) (by decide)
  · exact exists_ok_of_isSome _ (by decide +kernel)
  · have hmany : ¬ slotCount (manyWeapons.filterMap wide.findModule) .high ≤
        ((someHull 255).slots.get .high).toNat := by decide +kernel
    exact hmany (h.slots .high)

end Cooked

end EarthRise
