import EarthRise.Theory.ServerStatus
import EarthRise.Theory.UniverseSource

/-!
# Universes as Text

A dataset as a document of the grammar, with all keys of all blocks, and as the text of the tokens
with blanks between them. The text is read back to the dataset: names that are bare tokens, words
for the kinds there are, and integers in decimal, which are in the range of the fields they were
taken from. How numbers with a fraction are written is left to a printer whose texts are read back.

## Main definitions

* `FloatShow`: A printer of numbers.
* `blocks`, `print`: A dataset as a document and as text.
* `Printable`: What the grammar has words for.

## Theorems

* `lex_render`, `integer_intText`: Tokens and integers are read back.
* `parse_print`: A dataset is read back from its text.
* `parse_exact_iff`: When a text that is accepted is held exactly.
* `wide_count_wrapped`: A count that is too wide for its field.
-/

namespace EarthRise

namespace Tools

open Cooked (Text UniverseDataset RegionDef BeaconDef ResourceFieldDef ResourceWeight)
open Shard (NavTuning EconomyTuning)
open Net (ascii decimal)

/-- A bare token. -/
def IsToken (t : Text) : Prop := t ≠ [] ∧ ∀ c ∈ t, isBare c = true

/-- Numbers in text: those that are finite are tokens that are read back. -/
structure FloatShow (F : Type) [FloatText F] where
  finite : F → Prop
  text : F → Text
  token : ∀ x, finite x → IsToken (text x)
  reads : ∀ x, finite x → parseFloat (text x) = some x

/-- An integer in decimal, with a minus sign if it is negative. -/
def intText (v : Int) : Text := if v < 0 then 0x2D :: decimal v.natAbs else decimal v.natAbs

/-- Tokens with a blank behind each. -/
def render (ts : List Text) : Text := ts.flatMap fun t => t ++ [0x20]

/-- The word of a list that stands for a value. -/
def word (words : List (String × UInt8)) (w : UInt8) : Text :=
  ((words.find? fun p => p.2 = w).map fun p => ascii p.1).getD []

section

variable {F : Type} [FloatText F] (fs : FloatShow F)

def regionBlock (r : RegionDef F) : Block where
  kind := .region
  name := r.name
  body := [
    ⟨ascii "security", [word securityWords r.security]⟩,
    ⟨ascii "bounds", [r.bounds.x0, r.bounds.x1, r.bounds.y0, r.bounds.y1, r.bounds.z0,
      r.bounds.z1].map fun x => intText x.toInt⟩,
    ⟨ascii "yield_mult", [fs.text r.yieldMult]⟩]

def beaconBlock (b : BeaconDef) : Block where
  kind := .beacon
  name := b.name
  body := [
    ⟨ascii "region", [b.region]⟩,
    ⟨ascii "pos", [b.pos.x, b.pos.y, b.pos.z].map fun x => intText x.toInt⟩,
    ⟨ascii "links", b.links⟩,
    ⟨ascii "kind", [word kindWords b.kind]⟩]

def nodeText (n : ResourceWeight F) : Text := word typeWords n.type ++ 0x3A :: fs.text n.weight

def fieldBlock (f : ResourceFieldDef F) : Block where
  kind := .field
  name := f.name
  body := [
    ⟨ascii "region", [f.region]⟩,
    ⟨ascii "center", [f.center.x, f.center.y, f.center.z].map fun x => intText x.toInt⟩,
    ⟨ascii "radius", [fs.text f.radius]⟩,
    ⟨ascii "nodes", f.nodes.map (nodeText fs)⟩,
    ⟨ascii "count", [intText f.countMin.toNat, intText f.countMax.toNat]⟩,
    ⟨ascii "yield", [intText f.yieldMin.toInt, intText f.yieldMax.toInt]⟩,
    ⟨ascii "respawn", [intText f.respawnSeconds.toNat]⟩]

/-- Numbers with their keys and what an assignment does. -/
abbrev Numbers (F : Type) := List (String × F × (F → OpenBlock F → OpenBlock F))

def Numbers.body (l : Numbers F) : List Assignment :=
  l.map fun n => ⟨ascii n.1, [fs.text n.2.1]⟩

def tuningNumbers (t : NavTuning F) : Numbers F := [
  ("warp_speed_ship", t.warpSpeedShip, fun x o =>
    { o with tuning := { o.tuning with warpSpeedShip := x } }),
  ("warp_speed_base", t.warpSpeedBase, fun x o =>
    { o with tuning := { o.tuning with warpSpeedBase := x } }),
  ("warp_align", t.warpAlignSeconds, fun x o =>
    { o with tuning := { o.tuning with warpAlignSeconds := x } }),
  ("jump_fuel_ship", t.jumpFuelShip, fun x o =>
    { o with tuning := { o.tuning with jumpFuelShip := x } }),
  ("jump_fuel_base", t.jumpFuelBase, fun x o =>
    { o with tuning := { o.tuning with jumpFuelBase := x } }),
  ("jump_spool_ship", t.jumpSpoolShip, fun x o =>
    { o with tuning := { o.tuning with jumpSpoolShip := x } }),
  ("jump_spool_base", t.jumpSpoolBase, fun x o =>
    { o with tuning := { o.tuning with jumpSpoolBase := x } }),
  ("jump_cooldown", t.jumpCooldownSeconds, fun x o =>
    { o with tuning := { o.tuning with jumpCooldownSeconds := x } }),
  ("beacon_range", t.beaconUseRange, fun x o =>
    { o with tuning := { o.tuning with beaconUseRange := x } }),
  ("ship_fuel_max", t.shipFuelMax, fun x o =>
    { o with tuning := { o.tuning with shipFuelMax := x } }),
  ("base_fuel_max", t.baseFuelMax, fun x o =>
    { o with tuning := { o.tuning with baseFuelMax := x } })]

def tuningBlock (t : NavTuning F) : Block := ⟨.tuning, [], (tuningNumbers t).body fs⟩

/-- The numbers of the balance between its two counts. -/
def economyNumbers (e : EconomyTuning F) : Numbers F := [
  ("cargo_capacity", e.cargoCapacity, fun x o =>
    { o with economy := { o.economy with cargoCapacity := x } }),
  ("storage_capacity", e.storageCapacity, fun x o =>
    { o with economy := { o.economy with storageCapacity := x } }),
  ("harvest_rate", e.harvestRate, fun x o =>
    { o with economy := { o.economy with harvestRate := x } }),
  ("sensor_range_ship", e.sensorRangeShip, fun x o =>
    { o with economy := { o.economy with sensorRangeShip := x } }),
  ("sensor_range_base", e.sensorRangeBase, fun x o =>
    { o with economy := { o.economy with sensorRangeBase := x } }),
  ("build_ore", e.buildOreCost, fun x o =>
    { o with economy := { o.economy with buildOreCost := x } }),
  ("build_ice", e.buildIceCost, fun x o =>
    { o with economy := { o.economy with buildIceCost := x } }),
  ("build_seconds", e.buildSeconds, fun x o =>
    { o with economy := { o.economy with buildSeconds := x } })]

def harvestNumbers (e : EconomyTuning F) : Numbers F := [
  ("harvester_speed", e.harvesterSpeed, fun x o =>
    { o with economy := { o.economy with harvesterSpeed := x } }),
  ("harvest_range", e.harvestRange, fun x o =>
    { o with economy := { o.economy with harvestRange := x } })]

def economyBlock (e : EconomyTuning F) : Block where
  kind := .economy
  name := []
  body :=
    ⟨ascii "fleet_cap", [intText e.fleetCap.toNat]⟩ :: (economyNumbers e).body fs ++
      ⟨ascii "build_ship_type", [intText e.buildShipType.toNat]⟩ :: (harvestNumbers e).body fs

/-- The blocks of a dataset, with all keys. -/
def blocks (d : UniverseDataset F) : List Block :=
  d.regions.map (regionBlock fs) ++ d.beacons.map beaconBlock ++ d.fields.map (fieldBlock fs) ++
    [tuningBlock fs d.nav, economyBlock fs d.economy]

def print (d : UniverseDataset F) : Text := render (docTokens (blocks fs d))

/-- What the grammar has words for. -/
structure Printable (d : UniverseDataset F) : Prop where
  regions : ∀ r ∈ d.regions, IsToken r.name ∧ (∃ n, (n, r.security) ∈ securityWords) ∧
    fs.finite r.yieldMult
  beacons : ∀ b ∈ d.beacons, IsToken b.name ∧ IsToken b.region ∧ (∀ l ∈ b.links, IsToken l) ∧
    ∃ n, (n, b.kind) ∈ kindWords
  fields : ∀ f ∈ d.fields, IsToken f.name ∧ IsToken f.region ∧ fs.finite f.radius ∧
    ∀ n ∈ f.nodes, (∃ name, (name, n.type) ∈ typeWords) ∧ fs.finite n.weight
  nav : ∀ n ∈ tuningNumbers d.nav, fs.finite n.2.1
  economy : ∀ n ∈ economyNumbers d.economy ++ harvestNumbers d.economy, fs.finite n.2.1

end

/-! ### Tokens are read back -/

variable {c : UInt8}

theorem isBare_cases (h : isBare c = true) :
    c ≠ newline ∧ isSpace c = false ∧ c ≠ 0x23 ∧ isMark c = false := by
  unfold isBare at h
  rw [Bool.not_eq_true', Bool.or_eq_false_iff, Bool.or_eq_false_iff, Bool.or_eq_false_iff] at h
  rcases h with ⟨⟨⟨hline, hspace⟩, hhash⟩, hmark⟩
  exact ⟨ne_of_beq_false hline, hspace, ne_of_beq_false hhash, hmark⟩

theorem lexFrom_blank (line : Nat) (s : Text) : lexFrom line (0x20 :: s) = lexFrom line s := by
  rw [lexFrom, if_neg (by decide), if_pos (by decide)]

variable {t : Text}

theorem lexFrom_token (line : Nat) (ht : IsToken t) (s : Text) :
    lexFrom line (t ++ 0x20 :: s) = ⟨t, line⟩ :: lexFrom line s := by
  cases t with
  | nil => exact absurd rfl ht.1
  | cons c t =>
      rcases List.forall_mem_cons.mp ht.2 with ⟨hc, ht⟩
      rcases isBare_cases hc with ⟨hline, hspace, hhash, hmark⟩
      have htake : (t ++ 0x20 :: s).takeWhile isBare = t := by
        rw [List.takeWhile_append_of_pos ht, List.takeWhile_cons_of_neg (by decide),
          List.append_nil]
      have hdrop : (t ++ 0x20 :: s).dropWhile isBare = 0x20 :: s := by
        rw [List.dropWhile_append_of_pos ht, List.dropWhile_cons_of_neg (by decide)]
      rw [List.cons_append, lexFrom, if_neg hline, hspace, if_neg Bool.false_ne_true, if_neg hhash,
        hmark, if_neg Bool.false_ne_true, htake, hdrop, lexFrom_blank]

theorem lexFrom_mark (line : Nat) (hc : isMark c = true) (s : Text) :
    lexFrom line (c :: 0x20 :: s) = ⟨[c], line⟩ :: lexFrom line s := by
  have hother : c ≠ newline ∧ isSpace c = false ∧ c ≠ 0x23 := by
    unfold isMark at hc
    rw [Bool.or_eq_true, Bool.or_eq_true, beq_iff_eq, beq_iff_eq, beq_iff_eq] at hc
    rcases hc with (rfl | rfl) | rfl
    all_goals exact ⟨by decide, rfl, by decide⟩
  rw [lexFrom, if_neg hother.1, hother.2.1, if_neg Bool.false_ne_true, if_neg hother.2.2, if_pos hc,
    lexFrom_blank]

/-- A token of the grammar: a bare one or a mark. -/
def Renders (t : Text) : Prop := IsToken t ∨ ∃ c, isMark c = true ∧ t = [c]

theorem lex_render {ts : List Text} (h : ∀ t ∈ ts, Renders t) : texts (lex (render ts)) = ts := by
  unfold lex
  induction ts with
  | nil =>
      rw [show render [] = [] from rfl, lexFrom]
      rfl
  | cons t ts ih =>
      rcases List.forall_mem_cons.mp h with ⟨ht, hts⟩
      have hrender : render (t :: ts) = t ++ 0x20 :: render ts := List.append_assoc t [0x20] _
      rw [hrender]
      rcases ht with ht | ⟨c, hc, rfl⟩
      · rw [lexFrom_token 1 ht]
        exact congrArg (t :: ·) (ih hts)
      · rw [List.singleton_append, lexFrom_mark 1 hc]
        exact congrArg ([c] :: ·) (ih hts)

/-! ### Integers are read back -/

theorem digit_facts (h : JsonText.isDigit c = true) :
    isBare c = true ∧ c ≠ 0 ∧ isCSpace c = false ∧ c ≠ 0x2D ∧ c ≠ 0x2B := by
  unfold JsonText.isDigit at h
  rw [Bool.and_eq_true, decide_eq_true_eq, decide_eq_true_eq, UInt8.le_iff_toNat_le,
    UInt8.le_iff_toNat_le] at h
  have hne {d : UInt8} (hd : d.toNat < 0x30 ∨ 0x39 < d.toNat) : c ≠ d := by
    rintro rfl
    have h1 : (0x30 : UInt8).toNat = 0x30 := rfl
    have h2 : (0x39 : UInt8).toNat = 0x39 := rfl
    omega
  refine ⟨?_, hne (by decide), ?_, hne (by decide), hne (by decide)⟩
  · simp only [isBare, isSpace, isMark, newline, beq_false_of_ne (hne (d := 0x0A) (by decide)),
      beq_false_of_ne (hne (d := 0x20) (by decide)), beq_false_of_ne (hne (d := 0x09) (by decide)),
      beq_false_of_ne (hne (d := 0x0D) (by decide)), beq_false_of_ne (hne (d := 0x23) (by decide)),
      beq_false_of_ne (hne (d := 0x7B) (by decide)), beq_false_of_ne (hne (d := 0x7D) (by decide)),
      beq_false_of_ne (hne (d := 0x3D) (by decide)), Bool.or_false, Bool.not_false]
  · unfold isCSpace
    rw [beq_false_of_ne (hne (by decide)), Bool.false_or, Bool.and_eq_false_iff]
    right
    rw [decide_eq_false_iff_not, UInt8.le_iff_toNat_le]
    have h1 : (0x0D : UInt8).toNat = 0x0D := rfl
    have h2 : (0x30 : UInt8).toNat = 0x30 := rfl
    omega

theorem decimal_token (n : Nat) : IsToken (decimal n) :=
  ⟨Net.decimal_ne_nil n, fun c hc => (digit_facts (Net.decimal_digits n c hc)).1⟩

theorem intText_token (v : Int) : IsToken (intText v) := by
  unfold intText
  split
  · exact ⟨List.cons_ne_nil _ _, List.forall_mem_cons.mpr ⟨by decide, (decimal_token _).2⟩⟩
  · exact decimal_token _

/-- Digits with a sign or none are read as the integer they write. -/
theorem integer_intText (v : Int) : integer (intText v) = some v := by
  have hdigits := Net.decimal_digits v.natAbs
  have hnonzero : ∀ c ∈ decimal v.natAbs, (c != 0) = true := fun c hc =>
    bne_iff_ne.mpr (digit_facts (hdigits c hc)).2.1
  have hall : (decimal v.natAbs).all JsonText.isDigit = true := List.all_eq_true.mpr hdigits
  unfold integer intText
  by_cases hneg : v < 0
  · rw [if_pos hneg, List.takeWhile_cons_of_pos (by decide), List.takeWhile_eq_self_iff.mpr hnonzero,
      List.dropWhile_cons_of_neg (by decide)]
    simp only [List.head?_cons, BEq.rfl, true_or, if_true, List.tail_cons, hall,
      Net.decimal_ne_nil, Bool.true_eq_false, or_self, if_false, Net.value_decimal]
    congr 1
    omega
  · rw [if_neg hneg, List.takeWhile_eq_self_iff.mpr hnonzero]
    cases hd : decimal v.natAbs with
    | nil => exact absurd hd (Net.decimal_ne_nil _)
    | cons c rest =>
        have hc := digit_facts (hdigits c (hd ▸ List.mem_cons_self))
        have hminus : (some c == some (0x2D : UInt8)) = false := by
          rw [beq_eq_false_iff_ne]
          exact fun h => hc.2.2.2.1 (Option.some.inj h)
        have hplus : ¬some c = some (0x2B : UInt8) := fun h => hc.2.2.2.2 (Option.some.inj h)
        have hvalue := Net.value_decimal v.natAbs
        rw [hd] at hall hvalue
        rw [List.dropWhile_cons_of_neg (by rw [hc.2.2.1]; exact Bool.false_ne_true)]
        simp only [List.head?_cons, hminus, hplus, Bool.false_eq_true, or_self, if_false, hall,
          reduceCtorEq, Bool.true_eq_false, hvalue]
        congr 1
        omega

/-! ### Blocks are read back -/

/-- A word that is printed is the one that is read. -/
def Spelled (words : List (String × UInt8)) : Prop :=
  ∀ p ∈ words, word words p.2 = ascii p.1 ∧
    (words.find? fun w => some (ascii p.1) = some (ascii w.1)) = some p

theorem securityWords_spelled : Spelled securityWords := by
  unfold Spelled
  decide

theorem kindWords_spelled : Spelled kindWords := by
  unfold Spelled
  decide

theorem typeWords_spelled : Spelled typeWords := by
  unfold Spelled
  decide

section

variable {F : Type} [FloatText F] {fs : FloatShow F} {kind : Kind} {name what : String}
  {o : OpenBlock F}

theorem runBody_cons {a : Assignment} {o o' : OpenBlock F}
    (h : applyKey kind a.key a.values o = (o', [])) (body : List Assignment) :
    runBody kind (a :: body) o = runBody kind body o' := by
  have hunfold : runBody kind (a :: body) o =
      ((runBody kind body (applyKey kind a.key a.values o).1).1,
        (applyKey kind a.key a.values o).2 ++
          (runBody kind body (applyKey kind a.key a.values o).1).2) := rfl
  rw [hunfold, h]
  rfl

theorem runBody_append {body : List Assignment} {o o' : OpenBlock F}
    (h : runBody kind body o = (o', [])) (rest : List Assignment) :
    runBody kind (body ++ rest) o = runBody kind rest o' := by
  induction body generalizing o with
  | nil =>
      have ho : o = o' := congrArg Prod.fst h
      rw [ho, List.nil_append]
  | cons a body ih =>
      have hnone : (applyKey kind a.key a.values o).2 = [] ∧
          (runBody kind body (applyKey kind a.key a.values o).1).2 = [] :=
        List.append_eq_nil_iff.mp (congrArg Prod.snd h)
      have hstep : applyKey kind a.key a.values o = ((applyKey kind a.key a.values o).1, []) :=
        Prod.ext rfl hnone.1
      rw [List.cons_append, runBody_cons hstep, ih]
      rw [runBody_cons hstep] at h
      exact h

theorem apply_setF {bad : Text}
    {store : F → OpenBlock F → OpenBlock F} (hk : ⟨name, setF name what bad store⟩ ∈ keys kind)
    {x : F} (hx : fs.finite x) (o : OpenBlock F) :
    applyKey kind (ascii name) [fs.text x] o = (store x o, []) := by
  rw [applyKey_name hk]
  simp only [setF, needN, List.length_singleton, ne_eq, not_true, if_false, List.headD_cons,
    fs.reads x hx]

theorem apply_setWord {words : List (String × UInt8)}
    {store : UInt8 → OpenBlock F → OpenBlock F} (hk : ⟨name, setWord name what words store⟩ ∈ keys kind)
    (hspelled : Spelled words) {w : UInt8} (hw : ∃ n, (n, w) ∈ words) (o : OpenBlock F) :
    applyKey kind (ascii name) [word words w] o = (store w o, []) := by
  rcases hw with ⟨n, hn⟩
  rcases hspelled (n, w) hn with ⟨hword, hspelling⟩
  have hfind : (words.find? fun v => [ascii n].head? = some (ascii v.1)) = some (n, w) := hspelling
  rw [applyKey_name hk, hword]
  simp only [setWord, needN, List.length_singleton, ne_eq, not_true, if_false, hfind]

theorem apply_setInts {n : Nat} {bad : List Text}
    {store : List Int64 → OpenBlock F → OpenBlock F}
    (hk : ⟨name, setInts name n what bad store⟩ ∈ keys kind) (vs : List Int) (hn : vs.length = n)
    (o : OpenBlock F) :
    applyKey kind (ascii name) (vs.map intText) o = (store (vs.map strtoll) o, []) := by
  rw [applyKey_name hk]
  refine setInts_some ?_ hn o
  rw [List.map_map]
  exact List.map_congr_left fun v _ => integer_intText v

theorem run_numbers (what : String) (bad : String → Text) {l : Numbers F}
    (hkeys : ∀ n ∈ l, ⟨n.1, setF n.1 what (bad n.1) n.2.2⟩ ∈ keys kind)
    (hfinite : ∀ n ∈ l, fs.finite n.2.1) (o : OpenBlock F) :
    runBody kind (l.body fs) o = (l.foldl (fun o n => n.2.2 n.2.1 o) o, []) := by
  induction l generalizing o with
  | nil => rfl
  | cons n l ih =>
      rcases List.forall_mem_cons.mp hkeys with ⟨hn, hkeys⟩
      rcases List.forall_mem_cons.mp hfinite with ⟨hx, hfinite⟩
      have hrun := runBody_cons (a := ⟨ascii n.1, [fs.text n.2.1]⟩) (apply_setF hn hx o)
        (Numbers.body fs l)
      exact hrun.trans (ih hkeys hfinite _)

theorem run_tuning {t : NavTuning F} (hfinite : ∀ n ∈ tuningNumbers t, fs.finite n.2.1)
    (o : OpenBlock F) :
    runBody .tuning (tuningBlock fs t).body o = ({ o with tuning := t }, []) := by
  have hkeys : keys (F := F) .tuning = (tuningNumbers t).map fun n =>
      ⟨n.1, setF n.1 "float" (notANumber n.1) n.2.2⟩ := rfl
  refine run_numbers "float" notANumber (fun n hn => ?_) hfinite o
  rw [hkeys]
  exact List.mem_map.mpr ⟨n, hn, rfl⟩

theorem strtoll_toInt (x : Int64) : strtoll x.toInt = x := by
  apply Int64.toInt_inj.mp
  exact toInt_strtoll (Int64.le_toInt x) (by have := Int64.toInt_lt x; omega)

theorem strtoll_toUInt8 (x : UInt8) : (strtoll x.toNat).toUInt64.toUInt8 = x := by
  apply UInt8.toNat_inj.mp
  have hlt := x.toNat_lt
  exact Int.ofNat.inj (cast_strtoll (t := .uint8) ⟨Int.natCast_nonneg _, by
    simp only [IntType.high]; omega⟩)

theorem strtoll_toUInt16 (x : UInt16) : (strtoll x.toNat).toUInt64.toUInt16 = x := by
  apply UInt16.toNat_inj.mp
  have hlt := x.toNat_lt
  exact Int.ofNat.inj (cast_strtoll (t := .uint16) ⟨Int.natCast_nonneg _, by
    simp only [IntType.high]; omega⟩)

theorem strtoll_toUInt32 (x : UInt32) : (strtoll x.toNat).toUInt64.toUInt32 = x := by
  apply UInt32.toNat_inj.mp
  have hlt := x.toNat_lt
  exact Int.ofNat.inj (cast_strtoll (t := .uint32) ⟨Int.natCast_nonneg _, by
    simp only [IntType.high]; omega⟩)

theorem strtoll_toInt32 (x : Int32) : (strtoll x.toInt).toInt32 = x := by
  apply Int32.toInt_inj.mp
  have hle := x.le_toInt
  have hlt := x.toInt_lt
  exact cast_strtoll (t := .int32) ⟨hle, by simp only [IntType.high]; omega⟩

theorem apply_fleetCap (c : UInt16) (o : OpenBlock F) :
    applyKey .economy (ascii "fleet_cap") [intText c.toNat] o =
      ({ o with economy := { o.economy with fleetCap := c } }, []) := by
  have hk := List.mem_of_getElem? (show (keys (F := F) .economy)[0]? = some _ from rfl)
  refine (apply_setInts hk [(c.toNat : Int)] rfl o).trans ?_
  simp only [List.map_cons, List.map_nil, storeFleetCap, strtoll_toUInt16]

theorem apply_buildShipType (c : UInt8) (o : OpenBlock F) :
    applyKey .economy (ascii "build_ship_type") [intText c.toNat] o =
      ({ o with economy := { o.economy with buildShipType := c } }, []) := by
  have hk := List.mem_of_getElem? (show (keys (F := F) .economy)[9]? = some _ from rfl)
  refine (apply_setInts hk [(c.toNat : Int)] rfl o).trans ?_
  simp only [List.map_cons, List.map_nil, storeBuildShipType, strtoll_toUInt8]

theorem run_economy {e : EconomyTuning F}
    (hfinite : ∀ n ∈ economyNumbers e ++ harvestNumbers e, fs.finite n.2.1) (o : OpenBlock F) :
    runBody .economy (economyBlock fs e).body o = ({ o with economy := e }, []) := by
  rcases List.forall_mem_append.mp hfinite with ⟨hfirst, hlast⟩
  have hkeys : ∀ n ∈ economyNumbers e ++ harvestNumbers e,
      ⟨n.1, setF n.1 "value" (notANumber n.1) n.2.2⟩ ∈ keys (F := F) .economy := by
    -- All keys but the first and the tenth are those of the numbers, in their order.
    have herase : ((keys (F := F) .economy).eraseIdx 9).eraseIdx 0 =
        (economyNumbers e ++ harvestNumbers e).map fun n =>
          ⟨n.1, setF n.1 "value" (notANumber n.1) n.2.2⟩ := rfl
    intro n hn
    refine List.mem_of_mem_eraseIdx (i := 9) (List.mem_of_mem_eraseIdx (i := 0) ?_)
    rw [herase]
    exact List.mem_map.mpr ⟨n, hn, rfl⟩
  have hfloats (o) := run_numbers "value" notANumber
    (fun n hn => hkeys n (List.mem_append_left _ hn)) hfirst o
  have hharvest (o) := run_numbers "value" notANumber
    (fun n hn => hkeys n (List.mem_append_right _ hn)) hlast o
  exact (runBody_cons (apply_fleetCap e.fleetCap o) _).trans
    ((runBody_append (hfloats _) _).trans
      ((runBody_cons (apply_buildShipType e.buildShipType _) _).trans (hharvest _)))

theorem typeWords_colon :
    (typeWords.all fun p => (ascii p.1).all fun c => c != 0x3A) = true := by
  decide

theorem parseNode_nodeText {n : ResourceWeight F} (htype : ∃ name, (name, n.type) ∈ typeWords)
    (hfinite : fs.finite n.weight) : parseNode (nodeText fs n) = .ok n := by
  rcases htype with ⟨name, hname⟩
  rcases typeWords_spelled _ hname with ⟨hword, hfind⟩
  have hcolon := List.all_eq_true.mp (List.all_eq_true.mp typeWords_colon _ hname)
  have hfind' : (typeWords.find? fun w => ascii name = ascii w.1) = some (name, n.type) := by
    simp only [Option.some.injEq] at hfind
    exact hfind
  have htake : (ascii name ++ 0x3A :: fs.text n.weight).takeWhile (fun c => c != 0x3A) =
      ascii name := by
    rw [List.takeWhile_append_of_pos hcolon, List.takeWhile_cons_of_neg (by decide),
      List.append_nil]
  have hdrop : (ascii name ++ 0x3A :: fs.text n.weight).dropWhile (fun c => c != 0x3A) =
      0x3A :: fs.text n.weight := by
    rw [List.dropWhile_append_of_pos hcolon, List.dropWhile_cons_of_neg (by decide)]
  have hcontains : (ascii name ++ 0x3A :: fs.text n.weight).contains 0x3A = true :=
    List.contains_iff_mem.mpr (List.mem_append_right _ List.mem_cons_self)
  unfold parseNode nodeText
  rw [hword, hcontains, if_neg (by decide), htake, hdrop]
  dsimp only
  rw [hfind']
  dsimp only [List.tail_cons]
  rw [fs.reads n.weight hfinite]

/-- Nodes that are printed are appended to those there are. -/
theorem setNodes_print {nodes : List (ResourceWeight F)}
    (h : ∀ n ∈ nodes, (∃ name, (name, n.type) ∈ typeWords) ∧ fs.finite n.weight)
    (f : ResourceFieldDef F) :
    setNodes (nodes.map (nodeText fs)) f = ({ f with nodes := f.nodes ++ nodes }, []) := by
  induction nodes generalizing f with
  | nil =>
      rw [List.append_nil]
      rfl
  | cons n nodes ih =>
      rcases List.forall_mem_cons.mp h with ⟨hn, h⟩
      rw [List.map_cons, setNodes, parseNode_nodeText hn.1 hn.2]
      dsimp only
      rw [ih h, List.append_assoc]
      rfl

theorem apply_bounds (b : Cooked.SectorBounds) (o : OpenBlock F) :
    applyKey .region (ascii "bounds")
        ([b.x0, b.x1, b.y0, b.y1, b.z0, b.z1].map fun x => intText x.toInt) o =
      ({ o with region := { o.region with bounds := b } }, []) := by
  have hk := List.mem_of_getElem? (show (keys (F := F) .region)[1]? = some _ from rfl)
  refine (apply_setInts hk [b.x0.toInt, b.x1.toInt, b.y0.toInt, b.y1.toInt, b.z0.toInt,
    b.z1.toInt] rfl o).trans ?_
  simp only [List.map_cons, List.map_nil, storeBounds, strtoll_toInt]

theorem run_region {r : RegionDef F} (hsecurity : ∃ n, (n, r.security) ∈ securityWords)
    (hfinite : fs.finite r.yieldMult) (hname : o.region.name = r.name) :
    runBody .region (regionBlock fs r).body o = ({ o with region := r }, []) := by
  have hword := List.mem_of_getElem? (show (keys (F := F) .region)[0]? = some _ from rfl)
  have hmult := List.mem_of_getElem? (show (keys (F := F) .region)[2]? = some _ from rfl)
  refine (runBody_cons (apply_setWord hword securityWords_spelled hsecurity o) _).trans
    ((runBody_cons (apply_bounds r.bounds _) _).trans
      ((runBody_cons (apply_setF hmult hfinite _) _).trans ?_))
  simp only [runBody, hname]

theorem apply_pos (p : Universe.Vec3 Int64) (o : OpenBlock F) :
    applyKey .beacon (ascii "pos") ([p.x, p.y, p.z].map fun x => intText x.toInt) o =
      ({ o with beacon := { o.beacon with pos := p } }, []) := by
  have hk := List.mem_of_getElem? (show (keys (F := F) .beacon)[1]? = some _ from rfl)
  refine (apply_setInts hk [p.x.toInt, p.y.toInt, p.z.toInt] rfl o).trans ?_
  simp only [List.map_cons, List.map_nil, storePos, strtoll_toInt]

theorem run_beacon {b : BeaconDef} (hkind : ∃ n, (n, b.kind) ∈ kindWords)
    (hname : o.beacon.name = b.name) (hlinks : o.beacon.links = []) :
    runBody .beacon (beaconBlock b).body o = ({ o with beacon := b }, []) := by
  have hregion := List.mem_of_getElem? (show (keys (F := F) .beacon)[0]? = some _ from rfl)
  have hlink := List.mem_of_getElem? (show (keys (F := F) .beacon)[2]? = some _ from rfl)
  have hword := List.mem_of_getElem? (show (keys (F := F) .beacon)[3]? = some _ from rfl)
  refine (runBody_cons (applyKey_name hregion [b.region] o) _).trans
    ((runBody_cons (apply_pos b.pos _) _).trans
      ((runBody_cons (applyKey_name hlink b.links _) _).trans
        ((runBody_cons (apply_setWord hword kindWords_spelled hkind _) _).trans ?_)))
  simp only [runBody, hname, hlinks, List.nil_append, List.headD_cons]

theorem apply_center (c : Universe.Vec3 Int64) (o : OpenBlock F) :
    applyKey .field (ascii "center") ([c.x, c.y, c.z].map fun x => intText x.toInt) o =
      ({ o with field := { o.field with center := c } }, []) := by
  have hk := List.mem_of_getElem? (show (keys (F := F) .field)[1]? = some _ from rfl)
  refine (apply_setInts hk [c.x.toInt, c.y.toInt, c.z.toInt] rfl o).trans ?_
  simp only [List.map_cons, List.map_nil, storeCenter, strtoll_toInt]

theorem apply_nodes {nodes : List (ResourceWeight F)}
    (h : ∀ n ∈ nodes, (∃ name, (name, n.type) ∈ typeWords) ∧ fs.finite n.weight)
    (o : OpenBlock F) :
    applyKey .field (ascii "nodes") (nodes.map (nodeText fs)) o =
      ({ o with field := { o.field with nodes := o.field.nodes ++ nodes } }, []) := by
  have hk := List.mem_of_getElem? (show (keys (F := F) .field)[3]? = some _ from rfl)
  refine (applyKey_name hk _ o).trans ?_
  simp only [setNodes_print h]

theorem apply_count (c₀ c₁ : UInt16) (o : OpenBlock F) :
    applyKey .field (ascii "count") [intText c₀.toNat, intText c₁.toNat] o =
      ({ o with field := { o.field with countMin := c₀, countMax := c₁ } }, []) := by
  have hk := List.mem_of_getElem? (show (keys (F := F) .field)[4]? = some _ from rfl)
  refine (apply_setInts hk [(c₀.toNat : Int), c₁.toNat] rfl o).trans ?_
  simp only [List.map_cons, List.map_nil, storeCount, strtoll_toUInt16]

theorem apply_yield (y₀ y₁ : Int32) (o : OpenBlock F) :
    applyKey .field (ascii "yield") [intText y₀.toInt, intText y₁.toInt] o =
      ({ o with field := { o.field with yieldMin := y₀, yieldMax := y₁ } }, []) := by
  have hk := List.mem_of_getElem? (show (keys (F := F) .field)[5]? = some _ from rfl)
  refine (apply_setInts hk [y₀.toInt, y₁.toInt] rfl o).trans ?_
  simp only [List.map_cons, List.map_nil, storeYield, strtoll_toInt32]

theorem apply_respawn (r : UInt32) (o : OpenBlock F) :
    applyKey .field (ascii "respawn") [intText r.toNat] o =
      ({ o with field := { o.field with respawnSeconds := r } }, []) := by
  have hk := List.mem_of_getElem? (show (keys (F := F) .field)[6]? = some _ from rfl)
  refine (apply_setInts hk [(r.toNat : Int)] rfl o).trans ?_
  simp only [List.map_cons, List.map_nil, storeRespawn, strtoll_toUInt32]

theorem run_field {f : ResourceFieldDef F} (hradius : fs.finite f.radius)
    (hnodes : ∀ n ∈ f.nodes, (∃ name, (name, n.type) ∈ typeWords) ∧ fs.finite n.weight)
    (hname : o.field.name = f.name) (hempty : o.field.nodes = []) :
    runBody .field (fieldBlock fs f).body o = ({ o with field := f }, []) := by
  have hregion := List.mem_of_getElem? (show (keys (F := F) .field)[0]? = some _ from rfl)
  have hfloat := List.mem_of_getElem? (show (keys (F := F) .field)[2]? = some _ from rfl)
  refine (runBody_cons (applyKey_name hregion [f.region] o) _).trans
    ((runBody_cons (apply_center f.center _) _).trans
      ((runBody_cons (apply_setF hfloat hradius _) _).trans
        ((runBody_cons (apply_nodes hnodes _) _).trans
          ((runBody_cons (apply_count f.countMin f.countMax _) _).trans
            ((runBody_cons (apply_yield f.yieldMin f.yieldMax _) _).trans
              ((runBody_cons (apply_respawn f.respawnSeconds _) _).trans ?_))))))
  simp only [runBody, hname, hempty, List.nil_append, List.headD_cons]

end

/-! ### Datasets are read back -/

theorem IsToken.not_mark (ht : IsToken t) :
    t ≠ openBrace ∧ t ≠ closeBrace ∧ t ≠ equals := by
  refine ⟨?_, ?_, ?_⟩
  all_goals
    rintro rfl
    exact absurd (ht.2 _ List.mem_cons_self) (by decide)

theorem names_tokens (kind : Kind) :
    ((names kind).all fun n => !(ascii n).isEmpty && (ascii n).all isBare) = true := by
  cases kind <;> decide

theorem words_tokens : ((securityWords ++ kindWords ++ typeWords).all fun p =>
    !(ascii p.1).isEmpty && (ascii p.1).all isBare) = true := by
  decide

theorem kinds_tokens :
    (Kind.all.all fun kind => !kind.text.isEmpty && kind.text.all isBare) = true := by
  decide

theorem isToken_of_all (h : (!t.isEmpty && t.all isBare) = true) : IsToken t := by
  rw [Bool.and_eq_true, Bool.not_eq_true', List.isEmpty_eq_false_iff, List.all_eq_true] at h
  exact h

theorem kind_token (kind : Kind) : IsToken kind.text :=
  isToken_of_all (List.all_eq_true.mp kinds_tokens kind (by cases kind <;> decide))

theorem word_token {words : List (String × UInt8)} (hspelled : Spelled words)
    (hwords : ∀ p ∈ words, p ∈ securityWords ++ kindWords ++ typeWords) {w : UInt8}
    (hw : ∃ n, (n, w) ∈ words) : IsToken (word words w) := by
  rcases hw with ⟨n, hn⟩
  rw [(hspelled _ hn).1]
  exact isToken_of_all (List.all_eq_true.mp words_tokens _ (hwords _ hn))

section

variable {F : Type} [FloatText F] {fs : FloatShow F}

/-- A key that an assignment without messages is to is one of those there are. -/
theorem key_of_run {kind : Kind} {body : List Assignment} {o : OpenBlock F}
    (h : (runBody kind body o).2 = []) : ∀ a ∈ body, IsToken a.key := by
  induction body generalizing o with
  | nil => exact fun a ha => absurd ha List.not_mem_nil
  | cons a body ih =>
      rcases List.append_eq_nil_iff.mp h with ⟨happly, hrest⟩
      refine List.forall_mem_cons.mpr ⟨?_, ih hrest⟩
      unfold applyKey at happly
      split at happly
      · rename_i k hfound
        have hfirst := List.find?_some hfound
        have hkey := of_decide_eq_true hfirst
        have hname : k.name ∈ names kind := by
          rw [← names_eq (F := F)]
          exact List.mem_map.mpr ⟨k, List.mem_of_find?_eq_some hfound, rfl⟩
        rw [hkey]
        exact isToken_of_all (List.all_eq_true.mp (names_tokens kind) _ hname)
      · exact absurd happly (List.cons_ne_nil _ _)

/-- The values of a block are tokens, and so is its name if it has one. -/
structure Plain (b : Block) : Prop where
  name : if b.kind.named then IsToken b.name else b.name = []
  values : ∀ a ∈ b.body, ∀ v ∈ a.values, IsToken v

theorem intTexts_tokens (l : List Int64) : ∀ v ∈ l.map fun x => intText x.toInt, IsToken v := by
  intro v hv
  rcases List.mem_map.mp hv with ⟨x, _, rfl⟩
  exact intText_token _

theorem region_plain {r : RegionDef F} (hname : IsToken r.name)
    (hsecurity : ∃ n, (n, r.security) ∈ securityWords) (hfinite : fs.finite r.yieldMult) :
    Plain (regionBlock fs r) := by
  have hword : IsToken (word securityWords r.security) :=
    word_token securityWords_spelled
      (fun p hp => List.mem_append_left _ (List.mem_append_left _ hp)) hsecurity
  refine ⟨hname, List.forall_mem_cons.mpr ⟨List.forall_mem_singleton.mpr hword,
    List.forall_mem_cons.mpr ⟨intTexts_tokens _,
      List.forall_mem_singleton.mpr (List.forall_mem_singleton.mpr (fs.token _ hfinite))⟩⟩⟩

theorem beacon_plain {b : BeaconDef} (hname : IsToken b.name) (hregion : IsToken b.region)
    (hlinks : ∀ l ∈ b.links, IsToken l) (hkind : ∃ n, (n, b.kind) ∈ kindWords) :
    Plain (beaconBlock b) := by
  have hword : IsToken (word kindWords b.kind) :=
    word_token kindWords_spelled
      (fun p hp => List.mem_append_left _ (List.mem_append_right _ hp)) hkind
  refine ⟨hname, List.forall_mem_cons.mpr ⟨List.forall_mem_singleton.mpr hregion,
    List.forall_mem_cons.mpr ⟨intTexts_tokens _, List.forall_mem_cons.mpr ⟨hlinks,
      List.forall_mem_singleton.mpr (List.forall_mem_singleton.mpr hword)⟩⟩⟩⟩

theorem node_token {n : ResourceWeight F} (htype : ∃ name, (name, n.type) ∈ typeWords)
    (hfinite : fs.finite n.weight) : IsToken (nodeText fs n) := by
  have hword : IsToken (word typeWords n.type) :=
    word_token typeWords_spelled (fun p hp => List.mem_append_right _ hp) htype
  refine ⟨List.append_ne_nil_of_left_ne_nil hword.1 _, List.forall_mem_append.mpr ⟨hword.2,
    List.forall_mem_cons.mpr ⟨by decide, (fs.token _ hfinite).2⟩⟩⟩

theorem field_plain {f : ResourceFieldDef F} (hname : IsToken f.name) (hregion : IsToken f.region)
    (hradius : fs.finite f.radius)
    (hnodes : ∀ n ∈ f.nodes, (∃ name, (name, n.type) ∈ typeWords) ∧ fs.finite n.weight) :
    Plain (fieldBlock fs f) := by
  have hnode : ∀ v ∈ f.nodes.map (nodeText fs), IsToken v := by
    intro v hv
    rcases List.mem_map.mp hv with ⟨n, hn, rfl⟩
    exact node_token (hnodes n hn).1 (hnodes n hn).2
  have hpair (x y : Int) : ∀ v ∈ [intText x, intText y], IsToken v :=
    List.forall_mem_cons.mpr ⟨intText_token x, List.forall_mem_singleton.mpr (intText_token y)⟩
  refine ⟨hname, List.forall_mem_cons.mpr ⟨List.forall_mem_singleton.mpr hregion,
    List.forall_mem_cons.mpr ⟨intTexts_tokens _, List.forall_mem_cons.mpr
      ⟨List.forall_mem_singleton.mpr (fs.token _ hradius), List.forall_mem_cons.mpr ⟨hnode,
        List.forall_mem_cons.mpr ⟨hpair _ _, List.forall_mem_cons.mpr ⟨hpair _ _,
          List.forall_mem_singleton.mpr (List.forall_mem_singleton.mpr (intText_token _))⟩⟩⟩⟩⟩⟩⟩

theorem numbers_plain {l : Numbers F} (h : ∀ n ∈ l, fs.finite n.2.1) :
    ∀ a ∈ l.body fs, ∀ v ∈ a.values, IsToken v := by
  intro a ha
  rcases List.mem_map.mp ha with ⟨n, hn, rfl⟩
  exact List.forall_mem_singleton.mpr (fs.token _ (h n hn))

theorem tuning_plain {t : NavTuning F} (h : ∀ n ∈ tuningNumbers t, fs.finite n.2.1) :
    Plain (tuningBlock fs t) :=
  ⟨rfl, numbers_plain h⟩

theorem economy_plain {e : EconomyTuning F}
    (h : ∀ n ∈ economyNumbers e ++ harvestNumbers e, fs.finite n.2.1) :
    Plain (economyBlock fs e) := by
  rcases List.forall_mem_append.mp h with ⟨hfirst, hlast⟩
  have hone (x : Int) : ∀ v ∈ [intText x], IsToken v :=
    List.forall_mem_singleton.mpr (intText_token x)
  exact ⟨rfl, List.forall_mem_cons.mpr ⟨hone _, List.forall_mem_append.mpr
    ⟨numbers_plain hfirst, List.forall_mem_cons.mpr ⟨hone _, numbers_plain hlast⟩⟩⟩⟩

variable [Floating F] {b : Block}

theorem wellFormed_of_plain (hb : Plain b) (hrun : (Block.run (F := F) b).2 = []) :
    b.WellFormed := by
  refine ⟨?_, fun a ha => ⟨?_, fun hmem => ?_, fun hmem => ?_⟩⟩
  · have hname := hb.name
    split at hname
    · rw [if_pos ‹_›]
      exact hname.not_mark
    · rw [if_neg ‹_›]
      exact hname
  · rcases (key_of_run hrun a ha).not_mark with ⟨hopen, hclose, hequals⟩
    exact ⟨hclose, hopen, hequals⟩
  · exact (hb.values a ha _ hmem).not_mark.2.1 rfl
  · exact (hb.values a ha _ (List.mem_of_mem_tail hmem)).not_mark.2.2 rfl

theorem renders_of_plain (hb : Plain b) (hrun : (Block.run (F := F) b).2 = []) :
    ∀ t ∈ b.tokens, Renders t := by
  have hopen : Renders openBrace := .inr ⟨0x7B, rfl, rfl⟩
  have hclose : Renders closeBrace := .inr ⟨0x7D, rfl, rfl⟩
  have hequals : Renders equals := .inr ⟨0x3D, rfl, rfl⟩
  have hname := hb.name
  unfold Block.tokens Block.header
  refine List.forall_mem_append.mpr ⟨List.forall_mem_append.mpr
    ⟨List.forall_mem_cons.mpr ⟨.inl (kind_token _), ?_⟩, ?_⟩, List.forall_mem_singleton.mpr hclose⟩
  · refine List.forall_mem_append.mpr ⟨?_, List.forall_mem_singleton.mpr hopen⟩
    split at hname
    · rw [if_pos ‹_›]
      exact List.forall_mem_singleton.mpr (.inl hname)
    · rw [if_neg ‹_›]
      exact fun t ht => absurd ht List.not_mem_nil
  · intro t ht
    rcases List.mem_flatMap.mp ht with ⟨a, ha, ht⟩
    rcases List.mem_cons.mp ht with rfl | ht
    · exact .inl (key_of_run hrun a ha)
    rcases List.mem_cons.mp ht with rfl | ht
    · exact hequals
    · exact .inl (hb.values a ha t ht)

/-- A block that is plain and without messages, and what it adds to a dataset. -/
structure Adds (b : Block) (out out' : UniverseDataset F) : Prop where
  plain : Plain b
  run : (Block.run (F := F) b).2 = []
  commit : commit b.kind (Block.run b).1 out = out'

theorem adds_of_run {o : OpenBlock F} (hplain : Plain b)
    (hrun : Block.run b = (o, [])) (out : UniverseDataset F) :
    Adds b out (commit b.kind o out) :=
  ⟨hplain, congrArg Prod.snd hrun, by rw [hrun]⟩

/-- Blocks that are added one after the other. -/
inductive AddsAll : List Block → UniverseDataset F → UniverseDataset F → Prop
  | nil (out : UniverseDataset F) : AddsAll [] out out
  | cons {b : Block} {doc : List Block} {out out' out'' : UniverseDataset F}
      (hb : Adds b out out') (hdoc : AddsAll doc out' out'') : AddsAll (b :: doc) out out''

theorem AddsAll.append {doc doc' : List Block} {out out' out'' : UniverseDataset F}
    (h : AddsAll doc out out') (h' : AddsAll doc' out' out'') :
    AddsAll (doc ++ doc') out out'' := by
  induction h with
  | nil out => exact h'
  | cons hb _ ih => exact .cons hb (ih h')

/-- Blocks of which each adds an element to a list of the dataset. -/
theorem addsAll_map {α : Type} {block : α → Block} (put : List α → UniverseDataset F) {l : List α}
    (h : ∀ a ∈ l, ∀ before, Adds (block a) (put before) (put (before ++ [a]))) (before : List α) :
    AddsAll (l.map block) (put before) (put (before ++ l)) := by
  induction l generalizing before with
  | nil =>
      rw [List.append_nil]
      exact .nil _
  | cons a l ih =>
      rcases List.forall_mem_cons.mp h with ⟨ha, h⟩
      have hrest := ih h (before ++ [a])
      rw [List.append_assoc] at hrest
      exact .cons (ha before) hrest

theorem AddsAll.document {doc : List Block} {out out' : UniverseDataset F}
    (h : AddsAll doc out out') :
    Document F doc ∧ (∀ t ∈ docTokens doc, Renders t) ∧ extend doc out = out' := by
  induction h with
  | nil out =>
      exact ⟨fun b hb => absurd hb List.not_mem_nil, fun t ht => absurd ht List.not_mem_nil, rfl⟩
  | cons hb _ ih =>
      rcases ih with ⟨hdoc, hrenders, hextend⟩
      refine ⟨List.forall_mem_cons.mpr ⟨⟨wellFormed_of_plain hb.plain hb.run, hb.run⟩, hdoc⟩,
        List.forall_mem_append.mpr ⟨renders_of_plain hb.plain hb.run, hrenders⟩, ?_⟩
      rw [← hextend, ← hb.commit]
      rfl

/-- A dataset before anything is read. -/
def emptyDataset : UniverseDataset F := ⟨[], [], [], NavTuning.default, EconomyTuning.default⟩

theorem blocks_add {d : UniverseDataset F} (hd : Printable fs d) :
    AddsAll (blocks fs d) emptyDataset d := by
  have hregions : AddsAll (d.regions.map (regionBlock fs)) emptyDataset
      ⟨d.regions, [], [], NavTuning.default, EconomyTuning.default⟩ := by
    refine addsAll_map (fun l => ⟨l, [], [], NavTuning.default, EconomyTuning.default⟩)
      (fun r hr before => ?_) []
    rcases hd.regions r hr with ⟨hname, hsecurity, hfinite⟩
    exact adds_of_run (region_plain hname hsecurity hfinite) (run_region hsecurity hfinite rfl) _
  have hbeacons : AddsAll (d.beacons.map beaconBlock)
      ⟨d.regions, [], [], NavTuning.default, EconomyTuning.default⟩
      (⟨d.regions, d.beacons, [], NavTuning.default, EconomyTuning.default⟩ :
        UniverseDataset F) := by
    refine addsAll_map (fun l => ⟨d.regions, l, [], NavTuning.default, EconomyTuning.default⟩)
      (fun b hb before => ?_) []
    rcases hd.beacons b hb with ⟨hname, hregion, hlinks, hkind⟩
    exact adds_of_run (beacon_plain hname hregion hlinks hkind) (run_beacon hkind rfl rfl) _
  have hfields : AddsAll (d.fields.map (fieldBlock fs))
      ⟨d.regions, d.beacons, [], NavTuning.default, EconomyTuning.default⟩
      ⟨d.regions, d.beacons, d.fields, NavTuning.default, EconomyTuning.default⟩ := by
    refine addsAll_map
      (fun l => ⟨d.regions, d.beacons, l, NavTuning.default, EconomyTuning.default⟩)
      (fun f hf before => ?_) []
    rcases hd.fields f hf with ⟨hname, hregion, hradius, hnodes⟩
    exact adds_of_run (field_plain hname hregion hradius hnodes)
      (run_field hradius hnodes rfl rfl) _
  have hnav : Adds (tuningBlock fs d.nav)
      ⟨d.regions, d.beacons, d.fields, NavTuning.default, EconomyTuning.default⟩
      ⟨d.regions, d.beacons, d.fields, d.nav, EconomyTuning.default⟩ :=
    adds_of_run (tuning_plain hd.nav) (run_tuning hd.nav _) _
  have heconomy : Adds (economyBlock fs d.economy)
      ⟨d.regions, d.beacons, d.fields, d.nav, EconomyTuning.default⟩ d :=
    adds_of_run (economy_plain hd.economy) (run_economy hd.economy _) _
  exact ((hregions.append hbeacons).append hfields).append (.cons hnav (.cons heconomy (.nil d)))

/-- A dataset that is printed with all its keys is read back. -/
theorem parse_print {d : UniverseDataset F} (hd : Printable fs d) :
    parseUniverseSource (print fs d) emptyDataset [] = (true, d, []) := by
  rcases (blocks_add hd).document with ⟨hdoc, hrenders, hextend⟩
  have hparse := parse_document hdoc (lex_render hrenders) emptyDataset []
  rw [hextend] at hparse
  exact hparse

/-! ## Main results -/

/-- A text that is accepted is a document and adds what the document says. Its integers are all
stored as they are written, and none is out of range without an error, if its literals are in the
range of their fields and what is assigned last is integers. And what is printed is read back. -/
theorem parse_exact_iff :
    (∀ (text : Text) (out d : UniverseDataset F) (errors errors' : List Text),
      parseUniverseSource text out errors = (true, d, errors') →
        (∃ doc, Document F doc ∧ texts (lex text) = docTokens doc) ∧
        ∀ doc, Document F doc → texts (lex text) = docTokens doc → d = extend doc out ∧
          ((Stored F doc ∧ (OutOfRange F doc → (parseUniverseSource text out errors).1 = false)) ↔
            (¬OutOfRange F doc ∧ Integers F doc))) ∧
      ∀ (fs : FloatShow F) (d : UniverseDataset F), Printable fs d →
        parseUniverseSource (print fs d) emptyDataset [] = (true, d, []) := by
  refine ⟨fun text out d errors errors' h => ?_, fun fs d hd => parse_print hd⟩
  rcases document_of_parse h with ⟨_, doc, hdoc, htexts, _⟩
  refine ⟨⟨doc, hdoc, htexts⟩, fun doc hdoc htexts => ⟨?_, ?_⟩⟩
  · have hparse := (parse_document hdoc htexts out errors).symm.trans h
    exact (congrArg (fun r => r.2.1) hparse).symm
  constructor
  · rintro ⟨hstored, hreported⟩
    refine ⟨fun hrange => ?_, integers_of_stored hstored⟩
    have hfalse := hreported hrange
    rw [h] at hfalse
    exact Bool.noConfusion hfalse
  · rintro ⟨hrange, hint⟩
    exact ⟨stored_of_inRange hdoc hrange hint, fun hout => absurd hout hrange⟩

end

/-- Whole numbers as they are read from their digits. -/
instance wholeText : FloatText Float32 where
  strtof t := (integer t).map Floating.ofInt

def wholeShow : FloatShow Float32 where
  finite x := Floating.ofInt (Floating.lround x) = x
  text x := intText (Floating.lround x)
  token x _ := intText_token _
  reads x hx := by
    show (integer (intText (Floating.lround x))).map Floating.ofInt = some x
    rw [integer_intText, Option.map_some, hx]

instance (x : Float32) : Decidable (wholeShow.finite x) :=
  inferInstanceAs (Decidable (Floating.ofInt (Floating.lround x) = x))

/-- Two linked beacons and a field in one region, and a faster warp. -/
def frontier : UniverseDataset Float32 where
  regions := [⟨ascii "RIM", 2, ⟨-5, 5, -5, 5, 0, 0⟩, Floating.ofInt 3⟩]
  beacons := [⟨ascii "RIM-1", ascii "RIM", ⟨-40000, 7, 0⟩, [ascii "RIM-2"], 1⟩,
    ⟨ascii "RIM-2", ascii "RIM", ⟨40000, 0, 0⟩, [ascii "RIM-1"], 0⟩]
  fields := [⟨ascii "BELT", ascii "RIM", ⟨100, -100, 0⟩, Floating.ofInt 800,
    [⟨0, Floating.ofInt 2⟩, ⟨2, Floating.ofInt 1⟩], 4, 9, 50, 200, 600⟩]
  nav := { NavTuning.default with warpSpeedShip := Floating.ofInt 9000 }
  economy := { EconomyTuning.default with fleetCap := 7 }

theorem frontier_printable : Printable wholeShow frontier where
  regions := List.forall_mem_singleton.mpr
    ⟨isToken_of_all (by decide), ⟨"null", by decide⟩, by decide⟩
  beacons := by
    have hname : IsToken (ascii "RIM-1") ∧ IsToken (ascii "RIM-2") ∧ IsToken (ascii "RIM") :=
      ⟨isToken_of_all (by decide), isToken_of_all (by decide), isToken_of_all (by decide)⟩
    exact List.forall_mem_cons.mpr
      ⟨⟨hname.1, hname.2.2, List.forall_mem_singleton.mpr hname.2.1, "claimable", by decide⟩,
        List.forall_mem_singleton.mpr
          ⟨hname.2.1, hname.2.2, List.forall_mem_singleton.mpr hname.1, "public", by decide⟩⟩
  fields := List.forall_mem_singleton.mpr
    ⟨isToken_of_all (by decide), isToken_of_all (by decide), by decide,
      List.forall_mem_cons.mpr ⟨⟨⟨"Ore", by decide⟩, by decide⟩,
        List.forall_mem_singleton.mpr ⟨⟨"Gas", by decide⟩, by decide⟩⟩⟩
  nav := by decide
  economy := by decide

/-- The region, its beacons and its field are read back from their text. -/
theorem frontier_exact :
    parseUniverseSource (print wholeShow frontier) emptyDataset [] = (true, frontier, []) ∧
      ∃ doc, Document Float32 doc ∧ texts (lex (print wholeShow frontier)) = docTokens doc := by
  have hparse := (parse_exact_iff (F := Float32)).2 wholeShow frontier frontier_printable
  exact ⟨hparse, ((parse_exact_iff (F := Float32)).1 _ _ _ _ _ hparse).1⟩

def wideCount : Block := ⟨.field, ascii "BELT", [⟨ascii "count", [ascii "65537", ascii "1"]⟩]⟩

/-- A count of 65537 nodes at least is accepted as one of one. -/
theorem wide_count_wrapped :
    let r := parseUniverseSource (F := Float32)
      (ascii "field BELT \x7b count = 65537 1 \x7d ") emptyDataset []
    r.1 = true ∧ r.2.1.fields.map (fun f => (f.countMin, f.countMax)) = [(1, 1)] ∧
      integer (ascii "65537") = some 65537 := by
  have htext : ascii "field BELT \x7b count = 65537 1 \x7d " = render (docTokens [wideCount]) := by
    decide
  have hrun : (Block.run (F := Float32) wideCount).2 = [] := by decide
  have hplain : Plain wideCount :=
    ⟨isToken_of_all (by decide), List.forall_mem_singleton.mpr (List.forall_mem_cons.mpr
      ⟨isToken_of_all (by decide), List.forall_mem_singleton.mpr
        (isToken_of_all (by decide))⟩)⟩
  have hlex : texts (lex (ascii "field BELT \x7b count = 65537 1 \x7d ")) = docTokens [wideCount] := by
    rw [htext]
    refine lex_render fun t ht => ?_
    rw [docTokens, List.flatMap_singleton] at ht
    exact renders_of_plain hplain hrun t ht
  have hparse := parse_document (F := Float32)
    (List.forall_mem_singleton.mpr ⟨wellFormed_of_plain hplain hrun, hrun⟩) hlex emptyDataset []
  dsimp only
  rw [hparse]
  exact ⟨rfl, by decide, by decide +kernel⟩

end Tools

end EarthRise
