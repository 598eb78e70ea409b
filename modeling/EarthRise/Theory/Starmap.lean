import EarthRise.Core.Starmap
import EarthRise.Theory.UniverseData

/-!
# Routes on the Starmap

A route is a walk along links between two beacons. The one that is found ranks before every
other: it is as short as any, and where a route of the same length first leaves it, it does so
over a later link. Whether there is one is also what the other search answers.

In a universe that the tools accept, links lead both ways and the public beacons hang
together, so between two of these there is a route, and the way back takes as many hops.

## Main definitions

* `Route`: A walk between two beacons.

## Theorems

* `solveBeaconRoute_first`: The route that is found.
* `mem_reachableBeacons_iff`: The beacons in reach are those with a route.
* `accepted_routes`: Routes in an accepted universe.
-/

namespace EarthRise

namespace Starmap

open Cooked (UniverseDataset BeaconDef Text Named kindPublic validateUniverseDataset
  namedErrors_eq_nil)
open BreadthFirst (Walk Earliest rank first)

variable {F : Type} (uni : UniverseDataset F) {p : List Text}

/-- A name stands for a beacon. -/
def Known (n : Text) : Prop := (findBeacon uni n).isSome = true

/-- A walk along links from one beacon to another. -/
structure Route (src dst : Text) (p : List Text) : Prop where
  source : Known uni src
  target : Known uni dst
  walk : Walk (links uni) src dst p

theorem links_subset (src cur : Text) : links uni cur ⊆ names uni src := by
  intro nbr hnbr
  unfold links at hnbr
  cases hb : findBeacon uni cur with
  | none =>
      rw [hb] at hnbr
      exact absurd hnbr List.not_mem_nil
  | some b =>
      rw [hb] at hnbr
      exact List.mem_cons_of_mem src
        (List.mem_flatMap.mpr ⟨b, List.mem_of_find?_eq_some hb, hnbr⟩)

/-- A name with links stands for a beacon. -/
theorem known_of_link {a b : Text} (h : b ∈ links uni a) : Known uni a := by
  unfold links at h
  unfold Known
  cases ha : findBeacon uni a with
  | none =>
      rw [ha] at h
      exact absurd h List.not_mem_nil
  | some _ => rfl

/-- A walk comes by beacons only, if it ends at one. -/
theorem known_of_walk {src n : Text} (h : Walk (links uni) src n p)
    (hn : Known uni n) : ∀ m ∈ p, Known uni m := by
  induction h with
  | start => exact fun m hm => by rwa [List.mem_singleton.mp hm]
  | step walk link ih =>
      intro m hm
      rcases List.mem_append.mp hm with hm | hm
      · exact ih (known_of_link uni link) m hm
      · rwa [List.mem_singleton.mp hm]

/-- What is found: nothing where there is no route, and else the route that ranks first. -/
theorem solveBeaconRoute_cases (src dst : Text) :
    (solveBeaconRoute uni src dst = [] ∧ ¬ ∃ p, Route uni src dst p) ∨
    (Known uni src ∧ Known uni dst ∧
      Earliest (links uni) src dst (solveBeaconRoute uni src dst)) := by
  unfold solveBeaconRoute
  by_cases hknown : (findBeacon uni src).isNone = true ∨ (findBeacon uni dst).isNone = true
  · rw [if_pos hknown]
    refine .inl ⟨rfl, fun ⟨p, hp⟩ => ?_⟩
    have hsource := hp.source
    have htarget := hp.target
    unfold Known at hsource htarget
    rcases hknown with h | h
    · rw [Option.isNone_iff_eq_none.mp h] at hsource
      exact absurd hsource Bool.false_ne_true
    · rw [Option.isNone_iff_eq_none.mp h] at htarget
      exact absurd htarget Bool.false_ne_true
  · rw [if_neg hknown]
    have hsource : Known uni src := by
      unfold Known
      cases h : findBeacon uni src with
      | none => exact absurd (.inl (by rw [h]; rfl)) hknown
      | some _ => rfl
    have htarget : Known uni dst := by
      unfold Known
      cases h : findBeacon uni dst with
      | none => exact absurd (.inr (by rw [h]; rfl)) hknown
      | some _ => rfl
    by_cases hsame : src = dst
    · rw [if_pos hsame]
      exact .inr ⟨hsource, htarget, hsame ▸ BreadthFirst.earliest_start⟩
    · rw [if_neg hsame]
      have hgoal : decide (src = dst) = false := decide_eq_false hsame
      have hin : src ∈ names uni src := List.mem_cons_self
      cases hr : (search uni src dst).2 with
      | false =>
          simp only [hr, Bool.false_eq_true, if_false]
          refine .inl ⟨trivial, fun ⟨p, hp⟩ => ?_⟩
          -- A walk to the goal would have led the search there.
          have hmiss := BreadthFirst.loop_exhausted_goal (links_subset uni src) hin hgoal hr
            hp.walk
          exact of_decide_eq_false hmiss rfl
      | true =>
          simp only [hr, if_true]
          have hfound : BreadthFirst.Traced (links uni) src (search uni src dst).1 ∧
              ∃ m ∈ (search uni src dst).1.visited, decide (m = dst) = true :=
            BreadthFirst.loop_found (links_subset uni src) hin hgoal hr
          rcases hfound with ⟨htraced, m, hm, hdst⟩
          rw [of_decide_eq_true hdst] at hm
          rw [htraced.pathBack_earliest _ dst hm ((htraced.short dst hm).trans (by omega)),
            List.reverse_reverse]
          exact .inr ⟨hsource, htarget, htraced.earliest dst hm⟩

/-- If there is a route, one is found: it leads by beacons of the universe, and every other is
    longer, or as long and over a later link where the two part. Else nothing is found. The search
    comes to its end, at the goal or with nothing left to follow. -/
theorem solveBeaconRoute_first (src dst : Text) :
    (∀ p, Route uni src dst p → Route uni src dst (solveBeaconRoute uni src dst) ∧
      (p = solveBeaconRoute uni src dst ∨
        rank (links uni) (solveBeaconRoute uni src dst) < rank (links uni) p)) ∧
    ((¬ ∃ p, Route uni src dst p) → solveBeaconRoute uni src dst = []) ∧
    (∀ n ∈ solveBeaconRoute uni src dst, Known uni n) ∧
    (src ≠ dst → (search uni src dst).2 = true ∨ (search uni src dst).1.frontier = []) := by
  have hdone : src ≠ dst →
      (search uni src dst).2 = true ∨ (search uni src dst).1.frontier = [] := fun hne =>
    BreadthFirst.loop_done (links_subset uni src) List.mem_cons_self (decide_eq_false hne)
  rcases solveBeaconRoute_cases uni src dst with ⟨hnil, hnone⟩ | ⟨hsource, htarget, hearliest⟩
  · refine ⟨fun p hp => absurd ⟨p, hp⟩ hnone, fun _ => hnil, fun n hn => ?_, hdone⟩
    rw [hnil] at hn
    exact absurd hn List.not_mem_nil
  · exact ⟨fun p hp => ⟨⟨hsource, htarget, hearliest.1⟩, hearliest.2 p hp.walk⟩,
      fun hnone => absurd ⟨_, hsource, htarget, hearliest.1⟩ hnone,
      known_of_walk uni hearliest.1 htarget, hdone⟩

/-! ## What is in reach -/

/-- The links that lead to beacons. -/
theorem walk_filter_iff {src n : Text} (hsrc : Known uni src) :
    Walk (fun cur => (links uni cur).filter fun nbr => (findBeacon uni nbr).isSome) src n p ↔
      Walk (links uni) src n p ∧ Known uni n := by
  constructor
  · intro h
    induction h with
    | start => exact ⟨.start, hsrc⟩
    | step _ link ih =>
        rcases List.mem_filter.mp link with ⟨hlink, hknown⟩
        exact ⟨.step ih.1 hlink, hknown⟩
  · rintro ⟨h, hn⟩
    induction h with
    | start => exact .start
    | step _ link ih =>
        exact .step (ih (known_of_link uni link)) (List.mem_filter.mpr ⟨link, hn⟩)

/-- The beacons that are shown as reachable are those that a route is found to. -/
theorem mem_reachableBeacons_iff (src dst : Text) :
    dst ∈ reachableBeacons uni src ↔ solveBeaconRoute uni src dst ≠ [] := by
  -- Both say that there is a route.
  have hroute : solveBeaconRoute uni src dst ≠ [] ↔ ∃ p, Route uni src dst p := by
    rcases solveBeaconRoute_cases uni src dst with ⟨hnil, hnone⟩ | ⟨hsource, htarget, hearliest⟩
    · exact ⟨fun h => absurd hnil h, fun h => absurd h hnone⟩
    · exact ⟨fun _ => ⟨_, hsource, htarget, hearliest.1⟩,
        fun _ => List.ne_nil_of_length_pos hearliest.1.length_pos⟩
  rw [hroute]
  unfold reachableBeacons
  cases hsrc : findBeacon uni src with
  | none =>
      simp only [Option.isNone_none, if_true]
      refine ⟨fun h => absurd h List.not_mem_nil, fun ⟨p, hp⟩ => ?_⟩
      have hsource := hp.source
      unfold Known at hsource
      rw [hsrc] at hsource
      exact absurd hsource Bool.false_ne_true
  | some b =>
      have hknown : Known uni src := by unfold Known; rw [hsrc]; rfl
      simp only [Option.isNone_some, Bool.false_eq_true, if_false]
      have hnames : ∀ cur, (links uni cur).filter (fun nbr => (findBeacon uni nbr).isSome) ⊆
          names uni src :=
        fun cur nbr hnbr => links_subset uni src cur (List.mem_filter.mp hnbr).1
      have hin : src ∈ names uni src := List.mem_cons_self
      -- Nothing is a goal of this search.
      have hrun : (BreadthFirst.loop
          (fun cur => (links uni cur).filter fun nbr => (findBeacon uni nbr).isSome)
          (fun _ => false) (names uni src).length (.single src)).2 = false := by
        by_contra hfound
        rcases (BreadthFirst.loop_found hnames hin rfl (Bool.eq_true_of_not_eq_false hfound)).2
          with ⟨_, _, hgoal⟩
        exact absurd hgoal Bool.false_ne_true
      rw [BreadthFirst.loop_exhausted hnames hin rfl hrun dst]
      simp only [walk_filter_iff uni hknown]
      exact ⟨fun ⟨w, hw, hdst⟩ => ⟨w, hknown, hdst, hw⟩,
        fun ⟨w, hw⟩ => ⟨w, hw.walk, hw.target⟩⟩

/-! ## Routes in an accepted universe -/

/-- What the tools make sure of about the links. -/
structure LinksChecked : Prop where
  named : Named BeaconDef.name uni.beacons
  back : uni.Reciprocal
  joined : ∀ a ∈ uni.beacons, ∀ b ∈ uni.beacons, a.kind = kindPublic → b.kind = kindPublic →
    uni.Joined a.name b.name

variable {uni}

theorem LinksChecked.findBeacon_eq_some (h : LinksChecked uni) (n : Text) (b : BeaconDef) :
    findBeacon uni n = some b ↔ b ∈ uni.beacons ∧ b.name = n :=
  h.named.find?_eq_some n b

theorem LinksChecked.link_back (h : LinksChecked uni) (a : Text) :
    ∀ b ∈ links uni a, a ∈ links uni b := by
  intro b hlink
  unfold links at hlink
  cases ha : findBeacon uni a with
  | none =>
      rw [ha] at hlink
      exact absurd hlink List.not_mem_nil
  | some x =>
      rw [ha] at hlink
      rcases (h.findBeacon_eq_some a x).mp ha with ⟨hx, hname⟩
      rcases (h.back x hx b hlink).2 with ⟨y, hy, hyname, hmem⟩
      unfold links
      rw [(h.findBeacon_eq_some b y).mpr ⟨hy, hyname⟩]
      exact hname ▸ hmem

theorem Route.reverse (h : LinksChecked uni) {src dst : Text}
    (hroute : Route uni src dst p) : Route uni dst src p.reverse :=
  ⟨hroute.target, hroute.source, hroute.walk.reverse h.link_back⟩

theorem LinksChecked.joined_walk (h : LinksChecked uni) {a b : Text} (hjoined : uni.Joined a b) :
    ∃ p, Walk (links uni) a b p := by
  induction hjoined with
  | refl => exact ⟨_, .start⟩
  | tail _ hlink ih =>
      rcases hlink with ⟨x, hx, y, hy, hname, hyname, -, -, hmem⟩
      rcases ih with ⟨p, hp⟩
      refine ⟨_, .step hp ?_⟩
      unfold links
      rw [(h.findBeacon_eq_some _ x).mpr ⟨hx, hname⟩]
      exact hmem

/-- The way there takes as many hops as the way back. -/
theorem LinksChecked.length_comm (h : LinksChecked uni) (src dst : Text) :
    (solveBeaconRoute uni src dst).length = (solveBeaconRoute uni dst src).length := by
  -- The one is no longer than the other turned round.
  have hle : ∀ a b, (solveBeaconRoute uni a b).length ≤ (solveBeaconRoute uni b a).length := by
    intro a b
    rcases solveBeaconRoute_cases uni a b with ⟨hnil, -⟩ | ⟨hsource, htarget, hearliest⟩
    · rw [hnil]
      exact Nat.zero_le _
    · rcases solveBeaconRoute_cases uni b a with ⟨-, hnone⟩ | ⟨hsource', htarget', hearliest'⟩
      · exact absurd ⟨_, Route.reverse h ⟨hsource, htarget, hearliest.1⟩⟩ hnone
      · have hback := hearliest'.1.reverse h.link_back
        rcases hearliest.2 _ hback with heq | hlt
        · rw [← heq, List.length_reverse]
        · rcases BreadthFirst.rank_lt_iff.mp hlt with hlen | ⟨hlen, -⟩
          · rw [List.length_reverse] at hlen
            omega
          · rw [List.length_reverse] at hlen
            omega
  exact Nat.le_antisymm (hle src dst) (hle dst src)

theorem linksChecked_of_accepted [Floating F] (h : validateUniverseDataset uni = []) :
    LinksChecked uni := by
  unfold validateUniverseDataset at h
  simp only [List.append_eq_nil_iff, namedErrors_eq_nil, List.flatMap_eq_nil_iff] at h
  rcases h with ⟨⟨⟨⟨⟨hregions, hbeacons⟩, herrors⟩, hislands⟩, -⟩, -⟩
  have hback : uni.Reciprocal := fun b hb =>
    ((uni.beaconErrors_eq_nil hregions.1 hbeacons.1 b hb).mp (herrors b hb)).2.2
  exact ⟨hbeacons.1, hback, (uni.islandErrors_eq_nil hbeacons.1 hback).mp hislands⟩

/-- In a universe that the tools accept there is a route between any two public beacons, and
    between any two names the way there takes as many hops as the way back. -/
theorem accepted_routes [Floating F] (h : validateUniverseDataset uni = []) :
    (∀ a ∈ uni.beacons, ∀ b ∈ uni.beacons, a.kind = kindPublic → b.kind = kindPublic →
      Route uni a.name b.name (solveBeaconRoute uni a.name b.name)) ∧
    ∀ src dst,
      (solveBeaconRoute uni src dst).length = (solveBeaconRoute uni dst src).length := by
  have hlinks := linksChecked_of_accepted h
  refine ⟨fun a ha b hb hkind hbkind => ?_, hlinks.length_comm⟩
  rcases hlinks.joined_walk (hlinks.joined a ha b hb hkind hbkind) with ⟨p, hp⟩
  have hknown : ∀ c ∈ uni.beacons, Known uni c.name := fun c hc => by
    unfold Known
    rw [(hlinks.findBeacon_eq_some c.name c).mpr ⟨hc, rfl⟩]
    rfl
  rcases solveBeaconRoute_cases uni a.name b.name with ⟨-, hnone⟩ | ⟨ha', hb', hearliest⟩
  · exact absurd ⟨p, hknown a ha, hknown b hb, hp⟩ hnone
  · exact ⟨ha', hb', hearliest.1⟩

/-- Three beacons in a row. -/
def beaconRow : UniverseDataset Float32 where
  regions := [⟨[82], 1, ⟨0, 1, 0, 1, 0, 1⟩, 1⟩]
  beacons := [⟨[65], [82], ⟨0, 0, 0⟩, [[66]], 0⟩, ⟨[66], [82], ⟨1, 0, 0⟩, [[65], [67]], 0⟩,
    ⟨[67], [82], ⟨2, 0, 0⟩, [[66]], 0⟩]
  fields := []
  nav := .default
  economy := .default

example : solveBeaconRoute beaconRow [65] [67] = [[65], [66], [67]] := by decide

theorem beaconRow_routes :
    (∀ a ∈ beaconRow.beacons, ∀ b ∈ beaconRow.beacons, a.kind = kindPublic →
      b.kind = kindPublic →
      Route beaconRow a.name b.name (solveBeaconRoute beaconRow a.name b.name)) ∧
    ∀ src dst, (solveBeaconRoute beaconRow src dst).length =
      (solveBeaconRoute beaconRow dst src).length :=
  accepted_routes (by decide +kernel)

end Starmap

end EarthRise
