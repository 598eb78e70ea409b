import EarthRise.Theory.UniverseText

/-!
# The Integers of a Universe

An integer is read as far as a `long long` goes and then cast to the width of its field. So a
literal that the field can hold is stored as it is, and any other one is stored as something else,
without a message. A count of the balance that is no integer at all is left as it was, without a
message too.

## Main definitions

* `IntType`, `IntKey`, `intKeys`: The integer fields, and the keys they are set with.
* `OutOfRange`: A literal of a document is too large or too small for its field.
* `Integers`: What is assigned to an integer field last is integers.
* `Stored`: Integer fields hold what was assigned to them last.

## Theorems

* `cast_strtoll`: A literal in range is not changed by the cast.
* `set_load_other`, `set_load_fits`: What an assignment changes.
* `stored_of_inRange`, `integers_of_stored`: When a dataset holds the literals of its document.
-/

namespace EarthRise

namespace Tools

open Cooked (Text UniverseDataset RegionDef BeaconDef ResourceFieldDef ResourceWeight)
open Shard (NavTuning EconomyTuning)
open Net (ascii)

/-! ## Casts -/

/-- The types of the integer fields. -/
inductive IntType
  | int64
  | uint16
  | int32
  | uint32
  | uint8

namespace IntType

def low : IntType → Int
  | int64 => -2 ^ 63
  | int32 => -2 ^ 31
  | uint16 | uint32 | uint8 => 0

def high : IntType → Int
  | int64 => 2 ^ 63 - 1
  | int32 => 2 ^ 31 - 1
  | uint16 => 2 ^ 16 - 1
  | uint32 => 2 ^ 32 - 1
  | uint8 => 2 ^ 8 - 1

def Holds (t : IntType) (v : Int) : Prop := t.low ≤ v ∧ v ≤ t.high

/-- The number that a field holds after a cast. -/
def cast : IntType → Int64 → Int
  | int64, x => x.toInt
  | uint16, x => x.toUInt64.toUInt16.toNat
  | int32, x => x.toInt32.toInt
  | uint32, x => x.toUInt64.toUInt32.toNat
  | uint8, x => x.toUInt64.toUInt8.toNat

end IntType

variable {v : Int}

/-- A `long long` holds what it can. -/
theorem toInt_strtoll (hlow : -2 ^ 63 ≤ v) (hhigh : v ≤ 2 ^ 63 - 1) :
    (strtoll v).toInt = v := by
  unfold strtoll
  rw [Int.min_eq_left hhigh, Int.max_eq_right hlow]
  exact Int64.toInt_ofInt_of_le hlow (by omega)

theorem toNat_strtoll (hlow : 0 ≤ v) (hhigh : v ≤ 2 ^ 63 - 1) :
    ((strtoll v).toUInt64.toNat : Int) = v := by
  have hcast : (strtoll v).toUInt64.toNat =
      (BitVec.ofInt 64 (max (-2 ^ 63) (min v (2 ^ 63 - 1)))).toNat := rfl
  rw [hcast, Int.min_eq_left hhigh, Int.max_eq_right (by omega), BitVec.toNat_ofInt]
  omega

theorem cast_strtoll {t : IntType} (h : t.Holds v) : t.cast (strtoll v) = v := by
  rcases h with ⟨hlow, hhigh⟩
  cases t with
  | int64 => exact toInt_strtoll hlow hhigh
  | uint16 =>
      have hv := toNat_strtoll hlow (hhigh.trans (by decide))
      simp only [IntType.cast, IntType.high, UInt64.toNat_toUInt16] at hhigh ⊢
      omega
  | int32 =>
      have hv := toInt_strtoll (le_trans (by decide) hlow) (hhigh.trans (by decide))
      simp only [IntType.cast, IntType.high, IntType.low, Int64.toInt_toInt32, hv] at hlow hhigh ⊢
      exact Int.bmod_eq_of_le (by omega) (by omega)
  | uint32 =>
      have hv := toNat_strtoll hlow (hhigh.trans (by decide))
      simp only [IntType.cast, IntType.high, UInt64.toNat_toUInt32] at hhigh ⊢
      omega
  | uint8 =>
      have hv := toNat_strtoll hlow (hhigh.trans (by decide))
      simp only [IntType.cast, IntType.high, UInt64.toNat_toUInt8] at hhigh ⊢
      omega

/-! ## Keys -/

section

variable {F : Type} {vs : List Int}

/-- A key that integers are assigned to: their types, and what is stored. -/
structure IntKey (F : Type) where
  name : String
  types : List IntType
  load : OpenBlock F → List Int

def boundsKey : IntKey F := ⟨"bounds", List.replicate 6 .int64, fun o =>
  let b := o.region.bounds
  [b.x0.toInt, b.x1.toInt, b.y0.toInt, b.y1.toInt, b.z0.toInt, b.z1.toInt]⟩

def posKey : IntKey F := ⟨"pos", List.replicate 3 .int64, fun o =>
  [o.beacon.pos.x.toInt, o.beacon.pos.y.toInt, o.beacon.pos.z.toInt]⟩

def centerKey : IntKey F := ⟨"center", List.replicate 3 .int64, fun o =>
  [o.field.center.x.toInt, o.field.center.y.toInt, o.field.center.z.toInt]⟩

def countKey : IntKey F := ⟨"count", [.uint16, .uint16], fun o =>
  [(o.field.countMin.toNat : Int), o.field.countMax.toNat]⟩

def yieldKey : IntKey F := ⟨"yield", [.int32, .int32], fun o =>
  [o.field.yieldMin.toInt, o.field.yieldMax.toInt]⟩

def respawnKey : IntKey F := ⟨"respawn", [.uint32], fun o => [(o.field.respawnSeconds.toNat : Int)]⟩

def fleetCapKey : IntKey F := ⟨"fleet_cap", [.uint16], fun o => [(o.economy.fleetCap.toNat : Int)]⟩

def buildShipTypeKey : IntKey F :=
  ⟨"build_ship_type", [.uint8], fun o => [(o.economy.buildShipType.toNat : Int)]⟩

def intKeys : Kind → List (IntKey F)
  | .region => [boundsKey]
  | .beacon => [posKey]
  | .field => [centerKey, countKey, yieldKey, respawnKey]
  | .tuning => []
  | .economy => [fleetCapKey, buildShipTypeKey]

/-- Values are integers that the fields can hold. -/
def Fits (k : IntKey F) (values : List Text) : Prop :=
  ∃ vs : List Int, values.map integer = vs.map some ∧ List.Forall₂ IntType.Holds k.types vs

/-- The values of the last assignment to a key. -/
def lastAssigned (name : String) : List Assignment → Option (List Text)
  | [] => none
  | a :: body => (lastAssigned name body).or (if a.key = ascii name then some a.values else none)

/-- Fields hold the values that were assigned, or what was in them if none were. -/
def Held (before after : List Int) : Option (List Text) → Prop
  | none => after = before
  | some values => after.map some = values.map integer

/-- A document assigns an integer to a field that cannot hold it. -/
def OutOfRange (F : Type) (doc : List Block) : Prop :=
  ∃ b ∈ doc, ∃ k ∈ intKeys (F := F) b.kind, ∃ a ∈ b.body, a.key = ascii k.name ∧
    ∃ p ∈ a.values.zip k.types, ∃ v, integer p.1 = some v ∧ ¬p.2.Holds v

/-- What is assigned to a key last is integers. -/
def Integers (F : Type) (doc : List Block) : Prop :=
  ∀ b ∈ doc, ∀ k ∈ intKeys (F := F) b.kind, ∀ values, lastAssigned k.name b.body = some values →
    ∀ t ∈ values, ∃ v, integer t = some v

theorem fits_of_integers {k : IntKey F} {values : List Text}
    (hlength : values.length = k.types.length) (hint : ∀ t ∈ values, ∃ v, integer t = some v)
    (hholds : ∀ p ∈ values.zip k.types, ∀ v, integer p.1 = some v → p.2.Holds v) :
    Fits k values := by
  unfold Fits
  generalize k.types = types at hlength hholds
  induction values generalizing types with
  | nil =>
      rw [List.eq_nil_of_length_eq_zero hlength.symm]
      exact ⟨[], rfl, .nil⟩
  | cons t values ih =>
      cases types with
      | nil => exact absurd hlength (Nat.succ_ne_zero _)
      | cons ty types =>
          rcases hint t List.mem_cons_self with ⟨v, hv⟩
          rcases ih (fun t ht => hint t (List.mem_cons_of_mem _ ht)) types (Nat.succ.inj hlength)
            (fun p hp => hholds p (List.mem_cons_of_mem _ hp)) with ⟨vs, hvs, hfits⟩
          refine ⟨v :: vs, ?_, .cons (hholds (t, ty) List.mem_cons_self v hv) hfits⟩
          rw [List.map_cons, List.map_cons, hv, hvs]

/-! ### Looking a key up -/

theorem find_name {l : List (Key F)} (hnodup : (l.map fun k => ascii k.name).Nodup) {k : Key F}
    (hk : k ∈ l) : (l.find? fun k' => ascii k.name = ascii k'.name) = some k := by
  induction l with
  | nil => exact absurd hk List.not_mem_nil
  | cons k' l ih =>
      rcases List.nodup_cons.mp hnodup with ⟨hnot, hnodup⟩
      rcases List.mem_cons.mp hk with rfl | hk
      · exact List.find?_cons_of_pos (decide_eq_true rfl)
      · have hne : ascii k.name ≠ ascii k'.name := fun heq =>
          hnot (List.mem_map.mpr ⟨k, hk, heq⟩)
        rw [List.find?_cons_of_neg (by rw [decide_eq_true_eq]; exact hne)]
        exact ih hnodup hk

/-! ### What is stored -/

theorem mapM_parseI64 {v : List Text} (h : v.map integer = vs.map some) :
    v.mapM parseI64 = some (vs.map strtoll) := by
  induction v generalizing vs with
  | nil =>
      have hvs : vs = [] := List.map_eq_nil_iff.mp h.symm
      rw [hvs]
      rfl
  | cons t v ih =>
      cases vs with
      | nil => exact absurd h (List.cons_ne_nil _ _)
      | cons x vs =>
          rcases List.cons.inj h with ⟨hx, h⟩
          have ht : parseI64 t = some (strtoll x) := by
            unfold parseI64
            rw [hx]
            rfl
          rw [List.mapM_cons, ht, ih h]
          rfl

theorem setInts_some {σ : Type} {name what : String} {n : Nat} {bad : List Text}
    {store : List Int64 → σ → σ} {v : List Text}
    (h : v.map integer = vs.map some) (hn : vs.length = n) (s : σ) :
    setInts name n what bad store v s = (store (vs.map strtoll) s, []) := by
  have hlength : v.length = n := by
    have hmap := congrArg List.length h
    rw [List.length_map, List.length_map] at hmap
    exact hmap.trans hn
  unfold setInts needN
  rw [if_neg (not_not.mpr hlength)]
  dsimp only
  rw [mapM_parseI64 h]

/-- What fits is not changed by the casts. -/
theorem zipWith_cast {types : List IntType}
    (h : List.Forall₂ IntType.Holds types vs) :
    List.zipWith IntType.cast types (vs.map strtoll) = vs := by
  induction h with
  | nil => rfl
  | cons hv _ ih =>
      rw [List.map_cons, List.zipWith_cons_cons, cast_strtoll hv, ih]

/-- Integers that fit are stored as they are, and another number of values is reported. -/
structure Stores (k : IntKey F) (k' : Key F) : Prop where
  name : k'.name = k.name
  load : ∀ (v : List Text) (vs : List Int) (o : OpenBlock F), v.map integer = vs.map some →
    List.Forall₂ IntType.Holds k.types vs → k.load (k'.set v o).1 = vs
  count : ∀ (v : List Text) (o : OpenBlock F), (k'.set v o).2 = [] → v.length = k.types.length

/-- It is enough that the fields of the key are the casts of what is stored. -/
theorem stores_setInts {name what : String} {types : List IntType}
    {load : OpenBlock F → List Int} {bad : List Text} {n : Nat}
    {store : List Int64 → OpenBlock F → OpenBlock F} (hn : types.length = n)
    (h : ∀ xs : List Int64, xs.length = n → ∀ o,
      load (store xs o) = List.zipWith IntType.cast types xs) :
    Stores ⟨name, types, load⟩ ⟨name, setInts name n what bad store⟩ := by
  refine ⟨rfl, fun v vs o hv hfits => ?_, fun v o hnone => ?_⟩
  · have hlength : vs.length = n := hfits.length_eq.symm.trans hn
    dsimp only
    rw [setInts_some hv hlength, h _ ((List.length_map _).trans hlength)]
    exact zipWith_cast hfits
  · by_contra hne
    dsimp only at hnone
    unfold setInts needN at hnone
    rw [if_pos (fun heq => hne (heq.trans hn.symm))] at hnone
    exact absurd hnone (List.cons_ne_nil _ _)

end

section

variable {F : Type} [FloatText F] {kind : Kind} {k : IntKey F} {v : List Text}

/-- The names of the keys. -/
def names : Kind → List String
  | .region => ["security", "bounds", "yield_mult"]
  | .beacon => ["region", "pos", "links", "kind"]
  | .field => ["region", "center", "radius", "nodes", "count", "yield", "respawn"]
  | .tuning => ["warp_speed_ship", "warp_speed_base", "warp_align", "jump_fuel_ship",
      "jump_fuel_base", "jump_spool_ship", "jump_spool_base", "jump_cooldown", "beacon_range",
      "ship_fuel_max", "base_fuel_max"]
  | .economy => ["fleet_cap", "cargo_capacity", "storage_capacity", "harvest_rate",
      "sensor_range_ship", "sensor_range_base", "build_ore", "build_ice", "build_seconds",
      "build_ship_type", "harvester_speed", "harvest_range"]

theorem names_eq (kind : Kind) : (keys (F := F) kind).map Key.name = names kind := by
  cases kind <;> rfl

theorem names_nodup (kind : Kind) : ((keys (F := F) kind).map fun k => ascii k.name).Nodup := by
  have hnodup : ((names kind).map ascii).Nodup := by cases kind <;> decide
  rw [← names_eq (F := F), List.map_map] at hnodup
  exact hnodup

/-- An assignment to a key does what the key says. -/
theorem applyKey_name {k : Key F} (hk : k ∈ keys kind) (v : List Text)
    (o : OpenBlock F) : applyKey kind (ascii k.name) v o = k.set v o := by
  unfold applyKey
  rw [find_name (names_nodup kind) hk]

/-! ### What is left as it is -/

section

variable {σ α : Type} (load : σ → α) {name what : String}

theorem needN_load {n : Nat} {set : Setting σ} (h : ∀ v s, load (set v s).1 = load s)
    (v : List Text) (s : σ) : load (needN name n what set v s).1 = load s := by
  unfold needN
  split
  · rfl
  · exact h v s

theorem setWord_load {words : List (String × UInt8)} {store : UInt8 → σ → σ}
    (h : ∀ w s, load (store w s) = load s) (v : List Text) (s : σ) :
    load (setWord name what words store v s).1 = load s := by
  refine needN_load load (fun v s => ?_) v s
  split
  · exact h _ s
  · rfl

theorem setName_load {store : Text → σ → σ} (h : ∀ t s, load (store t s) = load s)
    (v : List Text) (s : σ) : load (setName name store v s).1 = load s :=
  needN_load load (fun _ s => h _ s) v s

theorem setInts_load {n : Nat} {bad : List Text} {store : List Int64 → σ → σ}
    (h : ∀ vs s, load (store vs s) = load s) (v : List Text) (s : σ) :
    load (setInts name n what bad store v s).1 = load s := by
  refine needN_load load (fun v s => ?_) v s
  split
  · exact h _ s
  · rfl

theorem setF_load {bad : Text} {store : F → σ → σ} (h : ∀ x s, load (store x s) = load s)
    (v : List Text) (s : σ) : load (setF name what bad store v s).1 = load s := by
  refine needN_load load (fun v s => ?_) v s
  split
  · exact h _ s
  · rfl

end

/-- Nodes are all that an assignment of nodes changes. -/
theorem setNodes_load {α : Type} (load : ResourceFieldDef F → α)
    (h : ∀ nodes f, load { f with nodes := nodes } = load f) (v : List Text)
    (f : ResourceFieldDef F) : load (setNodes v f).1 = load f := by
  induction v generalizing f with
  | nil => rfl
  | cons n v ih =>
      unfold setNodes
      split
      · exact ih f
      · exact (ih _).trans (h _ f)

/-- An assignment to another key leaves the integers of a key as they are. -/
theorem set_load_other (hk : k ∈ intKeys kind) {k' : Key F}
    (hk' : k' ∈ keys kind) (hne : k'.name ≠ k.name) (v : List Text) (o : OpenBlock F) :
    k.load (k'.set v o).1 = k.load o := by
  cases kind with
  | tuning => exact absurd hk List.not_mem_nil
  | region =>
      rw [List.mem_singleton.mp hk] at hne ⊢
      simp only [keys, regionKeys, List.mem_cons, List.not_mem_nil, or_false] at hk'
      rcases hk' with rfl | rfl | rfl
      · exact setWord_load (IntKey.load _) (by intros; rfl) v o
      · exact absurd rfl hne
      · exact setF_load (IntKey.load _) (by intros; rfl) v o
  | beacon =>
      rw [List.mem_singleton.mp hk] at hne ⊢
      simp only [keys, beaconKeys, List.mem_cons, List.not_mem_nil, or_false] at hk'
      rcases hk' with rfl | rfl | rfl | rfl
      · exact setName_load (IntKey.load _) (by intros; rfl) v o
      · exact absurd rfl hne
      · rfl
      · exact setWord_load (IntKey.load _) (by intros; rfl) v o
  | economy =>
      simp only [keys, economyKeys, List.mem_cons, List.not_mem_nil, or_false] at hk'
      simp only [intKeys, List.mem_cons, List.not_mem_nil, or_false] at hk
      rcases hk with rfl | rfl
      · rcases hk' with rfl | rfl | rfl | rfl | rfl | rfl | rfl | rfl | rfl | rfl | rfl | rfl
        · exact absurd rfl hne
        all_goals first
          | exact setF_load (IntKey.load _) (by intros; rfl) v o
          | exact setInts_load (IntKey.load _) (by intro vs s; unfold storeBuildShipType; split <;> rfl) v o
      · rcases hk' with rfl | rfl | rfl | rfl | rfl | rfl | rfl | rfl | rfl | rfl | rfl | rfl
        · exact setInts_load (IntKey.load _) (by intro vs s; unfold storeFleetCap; split <;> rfl) v o
        all_goals first
          | exact setF_load (IntKey.load _) (by intros; rfl) v o
          | exact absurd rfl hne
  | field =>
      simp only [keys, fieldKeys, List.mem_cons, List.not_mem_nil, or_false] at hk'
      simp only [intKeys, List.mem_cons, List.not_mem_nil, or_false] at hk
      rcases hk with rfl | rfl | rfl | rfl
      all_goals
        rcases hk' with rfl | rfl | rfl | rfl | rfl | rfl | rfl
        · exact setName_load (IntKey.load _) (by intros; rfl) v o
        · first
            | exact absurd rfl hne
            | exact setInts_load (IntKey.load _) (by intro vs s; unfold storeCenter; split <;> rfl) v o
        · exact setF_load (IntKey.load _) (by intros; rfl) v o
        · exact setNodes_load (fun f => IntKey.load _ { o with field := f }) (by intros; rfl) v o.field
        · first
            | exact absurd rfl hne
            | exact setInts_load (IntKey.load _) (by intro vs s; unfold storeCount; split <;> rfl) v o
        · first
            | exact absurd rfl hne
            | exact setInts_load (IntKey.load _) (by intro vs s; unfold storeYield; split <;> rfl) v o
        · first
            | exact absurd rfl hne
            | exact setInts_load (IntKey.load _) (by intro vs s; unfold storeRespawn; split <;> rfl) v o

theorem set_load_fits (hk : k ∈ intKeys kind) :
    ∃ k' ∈ keys (F := F) kind, Stores k k' := by
  have hone : ∀ xs : List Int64, xs.length = 1 → ∃ a, xs = [a] := fun xs h =>
    List.length_eq_one_iff.mp h
  have htwo : ∀ xs : List Int64, xs.length = 2 → ∃ a b, xs = [a, b] := fun xs h =>
    List.length_eq_two.mp h
  have hthree : ∀ xs : List Int64, xs.length = 3 → ∃ a b c, xs = [a, b, c] := fun xs h =>
    List.length_eq_three.mp h
  cases kind with
  | tuning => exact absurd hk List.not_mem_nil
  | region =>
      rw [List.mem_singleton.mp hk]
      refine ⟨_, .tail _ (.head _), stores_setInts rfl fun xs h o => ?_⟩
      match xs, h with
      | [_, _, _, _, _, _], _ => rfl
  | beacon =>
      rw [List.mem_singleton.mp hk]
      refine ⟨_, .tail _ (.head _), stores_setInts rfl fun xs h o => ?_⟩
      rcases hthree xs h with ⟨x, y, z, rfl⟩
      rfl
  | economy =>
      simp only [intKeys, List.mem_cons, List.not_mem_nil, or_false] at hk
      rcases hk with rfl | rfl
      · refine ⟨_, .head _, stores_setInts rfl fun xs h o => ?_⟩
        rcases hone xs h with ⟨n, rfl⟩
        rfl
      · refine ⟨_, List.mem_of_getElem? (i := 9) rfl, stores_setInts rfl fun xs h o => ?_⟩
        rcases hone xs h with ⟨n, rfl⟩
        rfl
  | field =>
      simp only [intKeys, List.mem_cons, List.not_mem_nil, or_false] at hk
      rcases hk with rfl | rfl | rfl | rfl
      · refine ⟨_, .tail _ (.head _), stores_setInts rfl fun xs h o => ?_⟩
        rcases hthree xs h with ⟨x, y, z, rfl⟩
        rfl
      · refine ⟨_, List.mem_of_getElem? (i := 4) rfl, stores_setInts rfl fun xs h o => ?_⟩
        rcases htwo xs h with ⟨a, b, rfl⟩
        rfl
      · refine ⟨_, List.mem_of_getElem? (i := 5) rfl, stores_setInts rfl fun xs h o => ?_⟩
        rcases htwo xs h with ⟨a, b, rfl⟩
        rfl
      · refine ⟨_, List.mem_of_getElem? (i := 6) rfl, stores_setInts rfl fun xs h o => ?_⟩
        rcases hone xs h with ⟨r, rfl⟩
        rfl

/-! ## Blocks and documents -/

/-- An assignment without messages has as many values as there are fields. -/
theorem length_of_applied (hk : k ∈ intKeys kind)
    {o : OpenBlock F} (h : (applyKey kind (ascii k.name) v o).2 = []) :
    v.length = k.types.length := by
  rcases set_load_fits hk with ⟨k', hk', hstores⟩
  rw [← hstores.name, applyKey_name hk'] at h
  exact hstores.count v o h

theorem load_applied (hk : k ∈ intKeys kind)
    (hfits : Fits k v) (o : OpenBlock F) :
    (k.load (applyKey kind (ascii k.name) v o).1).map some = v.map integer := by
  rcases set_load_fits hk with ⟨k', hk', hstores⟩
  rcases hfits with ⟨vs, hvs, hfits⟩
  rw [← hstores.name, applyKey_name hk', hstores.load v vs o hvs hfits]
  exact hvs.symm

theorem load_applied_other (hk : k ∈ intKeys kind) {key : Text}
    (hne : key ≠ ascii k.name) (v : List Text) (o : OpenBlock F) :
    k.load (applyKey kind key v o).1 = k.load o := by
  unfold applyKey
  split
  · rename_i k' hfound
    have hfirst := List.find?_some hfound
    have hkey := of_decide_eq_true hfirst
    exact set_load_other hk (List.mem_of_find?_eq_some hfound)
      (fun heq => hne (hkey.trans (congrArg ascii heq))) v o
  · rfl

/-- After assignments the fields hold what was assigned last. -/
theorem held_runBody (hk : k ∈ intKeys kind)
    (body : List Assignment) (o : OpenBlock F)
    (hfits : ∀ v, lastAssigned k.name body = some v → Fits k v) :
    Held (k.load o) (k.load (runBody kind body o).1) (lastAssigned k.name body) := by
  induction body generalizing o with
  | nil => rfl
  | cons a body ih =>
      unfold lastAssigned at hfits ⊢
      have hrest := ih (applyKey kind a.key a.values o).1
      cases hlast : lastAssigned k.name body with
      | some v =>
          -- What is assigned later counts.
          rw [hlast] at hrest hfits
          exact hrest (fun v hv => hfits v hv)
      | none =>
          rw [hlast] at hrest hfits
          have hsame : k.load (runBody kind body (applyKey kind a.key a.values o).1).1 =
              k.load (applyKey kind a.key a.values o).1 :=
            hrest (fun v hv => absurd hv.symm (Option.some_ne_none v))
          show Held _ (k.load (runBody kind body (applyKey kind a.key a.values o).1).1) _
          rw [hsame, Option.none_or]
          rw [Option.none_or] at hfits
          by_cases hkey : a.key = ascii k.name
          · rw [if_pos hkey] at hfits ⊢
            rw [hkey]
            exact load_applied hk (hfits a.values rfl) o
          · rw [if_neg hkey]
            exact load_applied_other hk hkey a.values o

theorem length_of_run (hk : k ∈ intKeys kind)
    {body : List Assignment} {o : OpenBlock F} (h : (runBody kind body o).2 = []) :
    ∀ a ∈ body, a.key = ascii k.name → a.values.length = k.types.length := by
  induction body generalizing o with
  | nil => exact fun a ha => absurd ha List.not_mem_nil
  | cons a body ih =>
      rcases List.append_eq_nil_iff.mp h with ⟨happly, hrest⟩
      refine List.forall_mem_cons.mpr ⟨fun hkey => ?_, ih hrest⟩
      rw [hkey] at happly
      exact length_of_applied hk happly

theorem mem_of_lastAssigned {name : String} {body : List Assignment}
    (h : lastAssigned name body = some v) : ∃ a ∈ body, a.key = ascii name ∧ a.values = v := by
  induction body with
  | nil => exact absurd h.symm (Option.some_ne_none v)
  | cons a body ih =>
      unfold lastAssigned at h
      cases hlast : lastAssigned name body with
      | some v' =>
          rw [hlast] at h ih
          rcases ih h with ⟨a', ha', hkey, hv⟩
          exact ⟨a', List.mem_cons_of_mem _ ha', hkey, hv⟩
      | none =>
          rw [hlast, Option.none_or] at h
          by_cases hkey : a.key = ascii name
          · rw [if_pos hkey] at h
            exact ⟨a, List.mem_cons_self, hkey, Option.some.inj h⟩
          · rw [if_neg hkey] at h
            exact absurd h.symm (Option.some_ne_none v)

variable [Floating F]

/-- The integers of a document are what was assigned last. -/
def Stored (F : Type) [Floating F] [FloatText F] (doc : List Block) : Prop :=
  ∀ b ∈ doc, ∀ k ∈ intKeys (F := F) b.kind,
    Held (k.load (OpenBlock.start b.kind b.name)) (k.load (Block.run b).1)
      (lastAssigned k.name b.body)

theorem stored_of_inRange {doc : List Block} (hdoc : Document F doc) (hrange : ¬OutOfRange F doc)
    (hint : Integers F doc) : Stored F doc := by
  intro b hb k hk
  refine held_runBody hk b.body _ fun v hv => ?_
  rcases mem_of_lastAssigned hv with ⟨a, ha, hkey, rfl⟩
  refine fits_of_integers (length_of_run hk (hdoc b hb).2 a ha hkey) (hint b hb k hk _ hv) ?_
  intro p hp v hinteger
  by_contra hholds
  exact hrange ⟨b, hb, k, hk, a, ha, hkey, p, hp, v, hinteger, hholds⟩

theorem integers_of_stored {doc : List Block} (h : Stored F doc) : Integers F doc := by
  intro b hb k hk values hlast t ht
  have hheld := h b hb k hk
  rw [hlast] at hheld
  have hmem : integer t ∈ (k.load (Block.run b).1).map some := by
    rw [show (k.load (Block.run b).1).map some = values.map integer from hheld]
    exact List.mem_map.mpr ⟨t, ht, rfl⟩
  rcases List.mem_map.mp hmem with ⟨v, _, hv⟩
  exact ⟨v, hv.symm⟩

end

end Tools

end EarthRise
