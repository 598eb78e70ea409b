import EarthRise.Core.UniverseData
import EarthRise.Lib.Exact

/-!
# What the Checks of a Cooked Universe Say

A dataset without an error is consistent, and the checks ask for little more than that.

Names are the hinge. A check that looks something up by its name finds the first thing that
has it, so as long as names may be missing or doubled the checks of regions and links speak
of other things than they name. Where each list is `Named` a name stands for one thing, and
every check is then about that. `Consistent` is what the dataset is checked for: names,
references, links that lead back, public beacons that are all joined, and weights. The
checks of single numbers are `Plausible`; a dataset can be consistent and fail one of them
(`consistent_rejected`).

The checks of numbers are stated as the comparisons that the code makes.

## Main definitions

* `Named`: Every name is there and stands for one thing.
* `UniverseDataset.Joined`: A path of public beacons.
* `UniverseDataset.Consistent`, `UniverseDataset.Plausible`: What is checked.

## Theorems

* `namedErrors_eq_nil`: The checks of a list of named things.
* `UniverseDataset.search_done`: The search ends on every graph.
* `UniverseDataset.islandErrors_eq_nil`: The search decides whether all are joined.
* `validate_eq_nil_iff`: No error.
-/

namespace EarthRise

namespace Cooked


theorem errorIf_eq_nil {E : Type} (p : Prop) [Decidable p] (e : E) :
    errorIf p e = [] ↔ ¬ p := by
  unfold errorIf
  by_cases hp : p
  · simp [hp]
  · simp [hp]

/-! ## Names -/

/-- Every name is there and stands for one thing. -/
structure Named {α : Type} (name : α → Text) (as : List α) : Prop where
  nonempty : ∀ a ∈ as, name a ≠ []
  nodup : (as.map name).Nodup

theorem namedErrors_eq_nil {α : Type} (name : α → Text) (empty : DatasetError)
    (duplicate : Text → DatasetError) (errors : α → List DatasetError) (as : List α) :
    ∀ seen : List Text, namedErrors name empty duplicate errors seen as = [] ↔
      Named name as ∧ (∀ a ∈ as, name a ∉ seen) ∧ ∀ a ∈ as, errors a = [] := by
  induction as with
  | nil =>
      intro seen
      exact ⟨fun _ => ⟨⟨fun _ h => absurd h List.not_mem_nil, List.nodup_nil⟩,
        fun _ h => absurd h List.not_mem_nil, fun _ h => absurd h List.not_mem_nil⟩, fun _ => rfl⟩
  | cons a as ih =>
      intro seen
      rw [namedErrors, List.append_eq_nil_iff, List.append_eq_nil_iff, ih]
      by_cases hempty : name a = []
      · rw [if_pos hempty]
        constructor
        · rintro ⟨⟨h, _⟩, _⟩
          exact absurd h (List.cons_ne_nil _ _)
        · rintro ⟨hnamed, _⟩
          exact absurd hempty (hnamed.nonempty a List.mem_cons_self)
      · rw [if_neg hempty, if_neg hempty, errorIf_eq_nil]
        constructor
        · rintro ⟨⟨hseen, herrors⟩, hnamed, hfresh, hrest⟩
          have hnot : name a ∉ as.map name := fun h => by
            rcases List.mem_map.mp h with ⟨b, hb, hname⟩
            exact hfresh b hb (hname ▸ List.mem_cons_self)
          refine ⟨⟨?_, List.nodup_cons.mpr ⟨hnot, hnamed.nodup⟩⟩, ?_, ?_⟩
          · exact List.forall_mem_cons.mpr ⟨hempty, hnamed.nonempty⟩
          · exact List.forall_mem_cons.mpr
              ⟨hseen, fun b hb h => hfresh b hb (List.mem_cons_of_mem _ h)⟩
          · exact List.forall_mem_cons.mpr ⟨herrors, hrest⟩
        · rintro ⟨hnamed, hfresh, herrors⟩
          rcases List.nodup_cons.mp hnamed.nodup with ⟨hnot, hnodup⟩
          refine ⟨⟨hfresh a List.mem_cons_self, herrors a List.mem_cons_self⟩,
            ⟨fun b hb => hnamed.nonempty b (List.mem_cons_of_mem a hb), hnodup⟩,
            fun b hb h => ?_, fun b hb => herrors b (List.mem_cons_of_mem a hb)⟩
          rcases List.mem_cons.mp h with h | h
          · exact hnot (List.mem_map.mpr ⟨b, hb, h⟩)
          · exact hfresh b (List.mem_cons_of_mem a hb) h

/-- A name is looked up to the one thing that has it. -/
theorem Named.find?_eq_some {α : Type} {name : α → Text} {as : List α} (h : Named name as)
    (n : Text) (a : α) : (as.find? fun a => name a = n) = some a ↔ a ∈ as ∧ name a = n := by
  constructor
  · intro hfind
    exact ⟨List.mem_of_find?_eq_some hfind, by simpa using List.find?_some hfind⟩
  · rintro ⟨ha, hname⟩
    cases hfind : as.find? fun a => name a = n with
    | none =>
        have hnone := List.find?_eq_none.mp hfind a ha
        exact absurd hname (by simpa using hnone)
    | some b =>
        have hb := List.mem_of_find?_eq_some hfind
        have hbname : name b = n := by simpa using List.find?_some hfind
        rw [List.inj_on_of_nodup_map h.nodup hb ha (hbname.trans hname.symm)]

namespace UniverseDataset

variable {F : Type} (d : UniverseDataset F)

theorem mem_regionNames (h : Named RegionDef.name d.regions) (n : Text) :
    n ∈ d.regionNames ↔ ∃ r ∈ d.regions, r.name = n := by
  unfold regionNames
  rw [List.mem_filter, List.mem_map]
  constructor
  · exact fun hn => hn.1
  · rintro ⟨r, hr, rfl⟩
    exact ⟨⟨r, hr, rfl⟩, by simpa using h.nonempty r hr⟩

theorem regionOf_eq_some (h : Named RegionDef.name d.regions) (n : Text) (r : RegionDef F) :
    d.regionOf n = some r ↔ r ∈ d.regions ∧ r.name = n := by
  unfold regionOf findRegion
  by_cases hn : n ∈ d.regionNames
  · rw [if_pos hn]
    exact h.find?_eq_some n r
  · rw [if_neg hn]
    constructor
    · exact fun hr => absurd hr nofun
    · exact fun hr => absurd ((d.mem_regionNames h n).mpr ⟨r, hr⟩) hn

theorem beaconByName_eq_some (h : Named BeaconDef.name d.beacons) (n : Text) (b : BeaconDef) :
    d.beaconByName n = some b ↔ b ∈ d.beacons ∧ b.name = n := by
  have hall : (d.beacons.filter fun b => b.name ≠ []) = d.beacons :=
    List.filter_eq_self.mpr fun b hb => by simpa using h.nonempty b hb
  unfold beaconByName
  rw [hall]
  exact h.find?_eq_some n b

theorem publicByName_eq_some (h : Named BeaconDef.name d.beacons) (n : Text) (b : BeaconDef) :
    d.publicByName n = some b ↔ b ∈ d.beacons ∧ b.name = n ∧ b.kind = kindPublic := by
  unfold publicByName
  rw [Option.filter_eq_some_iff, d.beaconByName_eq_some h, decide_eq_true_eq, and_assoc]

/-! ## Links -/

/-- The links of a beacon lead to other beacons and back. -/
def Reciprocal : Prop := ∀ b ∈ d.beacons, ∀ l ∈ b.links,
  l ≠ b.name ∧ ∃ c ∈ d.beacons, c.name = l ∧ b.name ∈ c.links

theorem linkErrors_eq_nil (h : Named BeaconDef.name d.beacons) (b : BeaconDef) (l : Text) :
    d.linkErrors b l = [] ↔ l ≠ b.name ∧ ∃ c ∈ d.beacons, c.name = l ∧ b.name ∈ c.links := by
  unfold linkErrors
  by_cases hself : l = b.name
  · rw [if_pos hself]
    exact ⟨fun hnil => absurd hnil (List.cons_ne_nil _ _), fun hne => absurd hself hne.1⟩
  · rw [if_neg hself]
    cases hfind : d.beaconByName l with
    | none =>
        constructor
        · exact fun hnil => absurd hnil (List.cons_ne_nil _ _)
        · rintro ⟨_, c, hc, hname, _⟩
          rw [(d.beaconByName_eq_some h l c).mpr ⟨hc, hname⟩] at hfind
          exact absurd hfind nofun
    | some back =>
        have hback := (d.beaconByName_eq_some h l back).mp hfind
        simp only [errorIf_eq_nil, not_not]
        constructor
        · exact fun hmem => ⟨hself, back, hback.1, hback.2, hmem⟩
        · rintro ⟨_, c, hc, hname, hmem⟩
          rw [(d.beaconByName_eq_some h l c).mpr ⟨hc, hname⟩, Option.some.injEq] at hfind
          exact hfind ▸ hmem

theorem beaconErrors_eq_nil (hregions : Named RegionDef.name d.regions)
    (h : Named BeaconDef.name d.beacons) (b : BeaconDef) (hb : b ∈ d.beacons) :
    d.beaconErrors b = [] ↔
      (∃ r ∈ d.regions, r.name = b.region) ∧
      (b.kind = kindClaimable → ∀ r ∈ d.regions, r.name = b.region →
        r.security ≠ securityHigh) ∧
      ∀ l ∈ b.links, l ≠ b.name ∧ ∃ c ∈ d.beacons, c.name = l ∧ b.name ∈ c.links := by
  unfold beaconErrors
  rw [if_neg (h.nonempty b hb), List.append_eq_nil_iff, List.append_eq_nil_iff,
    errorIf_eq_nil, errorIf_eq_nil, List.flatMap_eq_nil_iff, and_assoc]
  simp only [d.linkErrors_eq_nil h b]
  cases hfind : d.regionOf b.region with
  | none =>
      constructor
      · exact fun hall => absurd rfl hall.1
      · rintro ⟨⟨r, hr⟩, _⟩
        rw [(d.regionOf_eq_some hregions b.region r).mpr hr] at hfind
        exact absurd hfind nofun
  | some region =>
      have hregion := (d.regionOf_eq_some hregions b.region region).mp hfind
      -- The region of the name is the only one that has it.
      have honly : ∀ r ∈ d.regions, r.name = b.region → r = region := fun r hr hname => by
        rw [(d.regionOf_eq_some hregions b.region r).mpr ⟨hr, hname⟩, Option.some.injEq] at hfind
        exact hfind
      simp only [Option.isNone_some, Bool.false_eq_true, not_false_eq_true, Option.any_some,
        decide_eq_true_eq, not_and, true_and]
      constructor
      · rintro ⟨hhigh, hlinks⟩
        exact ⟨⟨region, hregion⟩, fun hkind r hr hname => honly r hr hname ▸ hhigh hkind, hlinks⟩
      · rintro ⟨_, hhigh, hlinks⟩
        exact ⟨fun hkind => hhigh hkind region hregion.1 hregion.2, hlinks⟩

/-! ## The public beacons -/

/-- A public beacon of the one name links to a public beacon of the other. -/
def PublicLink (a b : Text) : Prop :=
  ∃ x ∈ d.beacons, ∃ y ∈ d.beacons, x.name = a ∧ y.name = b ∧ x.kind = kindPublic ∧
    y.kind = kindPublic ∧ b ∈ x.links

/-- A path of public beacons. -/
def Joined : Text → Text → Prop := Relation.ReflTransGen d.PublicLink

theorem isSome_publicByName (n : Text) (h : (d.publicByName n).isSome = true) :
    n ∈ d.beacons.map BeaconDef.name := by
  rcases Option.isSome_iff_exists.mp h with ⟨b, hb⟩
  unfold publicByName beaconByName at hb
  have hfind := (Option.filter_eq_some_iff.mp hb).1
  have hmem := List.mem_of_find?_eq_some hfind
  have hname : b.name = n := by simpa using List.find?_some hfind
  exact List.mem_map.mpr ⟨b, (List.mem_filter.mp hmem).1, hname⟩

/-- The search ends on every graph, whatever its names are and wherever its links lead. -/
theorem search_done (first : BeaconDef) (h : first ∈ d.beacons) :
    (d.search first).stack = [] := by
  have hdone : (Worklist.loop d.publicByName BeaconDef.links
      (d.beacons.map BeaconDef.name).length (Worklist.single first.name first)).stack = [] :=
    Worklist.loop_done d.isSome_publicByName first.name (List.mem_map.mpr ⟨first, h, rfl⟩) first
  rwa [List.length_map] at hdone

theorem edge_iff (h : Named BeaconDef.name d.beacons) (a b : Text) :
    Worklist.Edge d.publicByName BeaconDef.links a b ↔ d.PublicLink a b := by
  unfold Worklist.Edge PublicLink
  simp only [Option.isSome_iff_exists, d.publicByName_eq_some h]
  constructor
  · rintro ⟨x, ⟨hx, hname, hkind⟩, hlink, y, hy, hyname, hykind⟩
    exact ⟨x, hx, y, hy, hname, hyname, hkind, hykind, hlink⟩
  · rintro ⟨x, hx, y, hy, hname, hyname, hkind, hykind, hlink⟩
    exact ⟨x, ⟨hx, hname, hkind⟩, hlink, y, hy, hyname, hykind⟩

/-- The search from a public beacon reaches those that are joined to it. -/
theorem mem_search (h : Named BeaconDef.name d.beacons) (first : BeaconDef)
    (hfirst : first ∈ d.beacons) (hkind : first.kind = kindPublic) (n : Text) :
    n ∈ (d.search first).reached ↔ d.Joined first.name n := by
  have hmem : n ∈ (Worklist.loop d.publicByName BeaconDef.links
      (d.beacons.map BeaconDef.name).length (Worklist.single first.name first)).reached ↔
        Relation.ReflTransGen (Worklist.Edge d.publicByName BeaconDef.links) first.name n :=
    Worklist.mem_loop_iff d.isSome_publicByName
      ((d.publicByName_eq_some h first.name first).mpr ⟨hfirst, rfl, hkind⟩) n
  rw [List.length_map] at hmem
  have hedge : Worklist.Edge d.publicByName BeaconDef.links = d.PublicLink :=
    funext fun a => funext fun b => propext (d.edge_iff h a b)
  rw [hedge] at hmem
  exact hmem

theorem Joined.symm (hnamed : Named BeaconDef.name d.beacons) (hback : d.Reciprocal)
    {a b : Text} (h : d.Joined a b) : d.Joined b a := by
  induction h with
  | refl => exact Relation.ReflTransGen.refl
  | tail _ hlink ih =>
      rcases hlink with ⟨x, hx, y, hy, hname, hyname, hkind, hykind, hlink⟩
      rcases (hback x hx _ hlink).2 with ⟨c, hc, hcname, hmem⟩
      -- The beacon that links back is the one that the link leads to.
      have hcy : c = y := by
        have hfind := (hnamed.find?_eq_some _ c).mpr ⟨hc, hcname⟩
        rw [(hnamed.find?_eq_some _ y).mpr ⟨hy, hyname⟩, Option.some.injEq] at hfind
        exact hfind.symm
      exact Relation.ReflTransGen.head
        ⟨y, hy, x, hx, hyname, hname, hykind, hkind, hcy ▸ hname ▸ hmem⟩ ih

/-- Without an island every two public beacons are joined. -/
theorem islandErrors_eq_nil (h : Named BeaconDef.name d.beacons) (hback : d.Reciprocal) :
    d.islandErrors = [] ↔ ∀ a ∈ d.beacons, ∀ b ∈ d.beacons, a.kind = kindPublic →
      b.kind = kindPublic → d.Joined a.name b.name := by
  have hmem : ∀ b, b ∈ d.publicBeacons ↔ b ∈ d.beacons ∧ b.kind = kindPublic := fun b => by
    unfold publicBeacons
    rw [List.mem_filter, decide_eq_true_eq]
    exact ⟨fun hb => ⟨hb.1, hb.2.2⟩, fun hb => ⟨hb.1, h.nonempty b hb.1, hb.2⟩⟩
  unfold islandErrors
  match hpublic : d.publicBeacons with
  | [] =>
      refine ⟨fun _ a ha _ _ hkind => ?_, fun _ => rfl⟩
      have hnil := (hmem a).mpr ⟨ha, hkind⟩
      rw [hpublic] at hnil
      exact absurd hnil List.not_mem_nil
  | [only] =>
      refine ⟨fun _ a ha b hb hkind hbkind => ?_, fun _ => rfl⟩
      have hone := (hmem a).mpr ⟨ha, hkind⟩
      have hother := (hmem b).mpr ⟨hb, hbkind⟩
      rw [hpublic] at hone hother
      rw [List.mem_singleton.mp hone, List.mem_singleton.mp hother]
      exact Relation.ReflTransGen.refl
  | first :: second :: rest =>
      have hfirst := (hmem first).mp (hpublic ▸ List.mem_cons_self)
      simp only [List.flatMap_eq_nil_iff, errorIf_eq_nil, not_not,
        d.mem_search h first hfirst.1 hfirst.2]
      rw [← hpublic]
      constructor
      · intro hall a ha b hb hkind hbkind
        exact (Joined.symm d h hback (hall a ((hmem a).mpr ⟨ha, hkind⟩))).trans
          (hall b ((hmem b).mpr ⟨hb, hbkind⟩))
      · intro hall b hb
        rcases (hmem b).mp hb with ⟨hb, hkind⟩
        exact hall first hfirst.1 b hb hfirst.2 hkind

end UniverseDataset

/-! ## A whole dataset -/

section

variable {F : Type} [Floating F]

/-- What a dataset is checked for. -/
structure UniverseDataset.Consistent (d : UniverseDataset F) : Prop where
  regionNames : Named RegionDef.name d.regions
  beaconNames : Named BeaconDef.name d.beacons
  fieldNames : Named ResourceFieldDef.name d.fields
  beaconRegions : ∀ b ∈ d.beacons, ∃ r ∈ d.regions, r.name = b.region
  fieldRegions : ∀ f ∈ d.fields, ∃ r ∈ d.regions, r.name = f.region
  links : d.Reciprocal
  claimable : ∀ b ∈ d.beacons, b.kind = kindClaimable → ∀ r ∈ d.regions, r.name = b.region →
    r.security ≠ securityHigh
  joined : ∀ a ∈ d.beacons, ∀ b ∈ d.beacons, a.kind = kindPublic → b.kind = kindPublic →
    d.Joined a.name b.name
  weights : ∀ f ∈ d.fields, (∀ n ∈ f.nodes, ¬ n.weight ≤ 0) ∧
    (f.nodes ≠ [] → ¬ f.weightSum < 0.999 ∧ ¬ 1.001 < f.weightSum)

/-- The checks of single numbers. -/
structure UniverseDataset.Plausible (d : UniverseDataset F) : Prop where
  regions : ∀ r ∈ d.regions, r.bounds.WellFormed ∧ ¬ r.yieldMult < 0
  fields : ∀ f ∈ d.fields, ¬ f.radius ≤ 0 ∧ f.nodes ≠ [] ∧ ¬ f.countMax < f.countMin ∧
    ¬ f.yieldMax < f.yieldMin
  tuning : navErrors d.nav = [] ∧ economyErrors d.economy = []

theorem regionErrors_eq_nil (r : RegionDef F) :
    regionErrors r = [] ↔ r.bounds.WellFormed ∧ ¬ r.yieldMult < 0 := by
  unfold regionErrors
  rw [List.append_eq_nil_iff, errorIf_eq_nil, errorIf_eq_nil, not_not]

theorem fieldErrors_eq_nil (d : UniverseDataset F) (h : Named RegionDef.name d.regions)
    (f : ResourceFieldDef F) : fieldErrors d f = [] ↔
      (∃ r ∈ d.regions, r.name = f.region) ∧
      ((∀ n ∈ f.nodes, ¬ n.weight ≤ 0) ∧
        (f.nodes ≠ [] → ¬ f.weightSum < 0.999 ∧ ¬ 1.001 < f.weightSum)) ∧
      ¬ f.radius ≤ 0 ∧ f.nodes ≠ [] ∧ ¬ f.countMax < f.countMin ∧ ¬ f.yieldMax < f.yieldMin := by
  unfold fieldErrors
  simp only [List.append_eq_nil_iff, errorIf_eq_nil, List.flatMap_eq_nil_iff, not_not,
    d.mem_regionNames h, not_and, not_or]
  constructor
  · rintro ⟨⟨⟨⟨⟨⟨hregion, hradius⟩, hnodes⟩, hweights⟩, hsum⟩, hcount⟩, hyield⟩
    exact ⟨hregion, ⟨hweights, hsum⟩, hradius, hnodes, hcount, hyield⟩
  · rintro ⟨hregion, ⟨hweights, hsum⟩, hradius, hnodes, hcount, hyield⟩
    exact ⟨⟨⟨⟨⟨⟨hregion, hradius⟩, hnodes⟩, hweights⟩, hsum⟩, hcount⟩, hyield⟩

/-- A dataset is accepted when it is consistent and its numbers are plausible, and the search
    through its beacons ends whatever the dataset is. -/
theorem validate_eq_nil_iff (d : UniverseDataset F) :
    (validateUniverseDataset d = [] ↔ d.Consistent ∧ d.Plausible) ∧
      ∀ first ∈ d.beacons, (d.search first).stack = [] := by
  refine ⟨?_, d.search_done⟩
  unfold validateUniverseDataset
  simp only [List.append_eq_nil_iff, namedErrors_eq_nil, List.flatMap_eq_nil_iff,
    List.map_eq_nil_iff, regionErrors_eq_nil]
  constructor
  · rintro ⟨⟨⟨⟨⟨⟨hregions, _, hbounds⟩, hbeacons, _, _⟩, herrors⟩, hislands⟩, hfields, _,
      hferrors⟩, htuning⟩
    have hbeacon : ∀ b ∈ d.beacons, _ := fun b hb =>
      (d.beaconErrors_eq_nil hregions hbeacons b hb).mp (herrors b hb)
    have hfield : ∀ f ∈ d.fields, _ := fun f hf =>
      (fieldErrors_eq_nil d hregions f).mp (hferrors f hf)
    have hlinks : d.Reciprocal := fun b hb => (hbeacon b hb).2.2
    exact ⟨⟨hregions, hbeacons, hfields, fun b hb => (hbeacon b hb).1,
      fun f hf => (hfield f hf).1, hlinks, fun b hb => (hbeacon b hb).2.1,
      (d.islandErrors_eq_nil hbeacons hlinks).mp hislands, fun f hf => (hfield f hf).2.1⟩,
      ⟨hbounds, fun f hf => (hfield f hf).2.2, htuning⟩⟩
  · rintro ⟨hcons, hplausible⟩
    refine ⟨⟨⟨⟨⟨⟨hcons.regionNames, fun _ _ => List.not_mem_nil, hplausible.regions⟩,
      hcons.beaconNames, fun _ _ => List.not_mem_nil, fun _ _ => trivial⟩, fun b hb => ?_⟩,
      (d.islandErrors_eq_nil hcons.beaconNames hcons.links).mpr hcons.joined⟩,
      hcons.fieldNames, fun _ _ => List.not_mem_nil, fun f hf => ?_⟩, hplausible.tuning⟩
    · exact (d.beaconErrors_eq_nil hcons.regionNames hcons.beaconNames b hb).mpr
        ⟨hcons.beaconRegions b hb, hcons.claimable b hb, hcons.links b hb⟩
    · exact (fieldErrors_eq_nil d hcons.regionNames f).mpr
        ⟨hcons.fieldRegions f hf, hcons.weights f hf, hplausible.fields f hf⟩

end

/-! ### Consistent and not plausible -/

/-- A region that begins where it should end, and nothing else. -/
def insideOut : UniverseDataset Float32 where
  regions := [⟨[65], 1, ⟨1, 0, 0, 0, 0, 0⟩, 1⟩]
  beacons := []
  fields := []
  nav := .default
  economy := .default

/-- Consistent datasets with a good balance are not all accepted. -/
theorem consistent_rejected : insideOut.Consistent ∧ navErrors insideOut.nav = [] ∧
    economyErrors insideOut.economy = [] ∧ validateUniverseDataset insideOut ≠ [] := by
  have hnone {α : Type} {p : α → Prop} : ∀ a ∈ ([] : List α), p a :=
    fun _ h => absurd h List.not_mem_nil
  refine ⟨⟨⟨?_, ?_⟩, ⟨hnone, List.nodup_nil⟩, ⟨hnone, List.nodup_nil⟩, hnone, hnone, hnone,
    hnone, hnone, hnone⟩, ?_, ?_, ?_⟩
  all_goals decide +kernel

end Cooked

end EarthRise
