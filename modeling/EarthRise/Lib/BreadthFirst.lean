import EarthRise.Lib.Assoc
import Mathlib.Data.List.Lex
import Mathlib.Data.Prod.Lex
import Mathlib.Data.List.Nodup
import Mathlib.Data.List.Perm.Subperm

/-!
# Searching a Graph Breadth First

The search that keeps the nodes whose links it still has to follow in a queue, remembers
from where it first came to each node, and stops at a goal.

Walks are ranked by their length and, among those of one length, by the places of their
links at the first node where they part. Every node that the search visits is visited along
the walk to it that ranks first (`Earliest`), because the queue is in the order of these
walks (`Queued.sorted`): a walk to a node that is new has to leave what is visited over a
node of the queue or the one whose links are being followed, and none of their walks ranks
before the one of that node (`Queued.le_of_open`).

The search ends, as a turn takes a node off the queue and no node is ever put on it twice
(`loop_done`).

## Main definitions

* `BreadthFirst`, `scan`, `loop`, `pathBack`: The search.
* `Walk`, `rank`, `Earliest`: Walks and their order.
* `Traced`, `Queued`: What the turns keep.

## Theorems

* `loop_found`, `loop_exhausted`: A goal that is found, and none that can be reached.
* `loop_done`: The turns are enough.
* `pathBack_earliest`: The way back from a visited node is its earliest walk.
-/

namespace EarthRise

/-- The nodes from which a search came to others, those it has visited and those whose
    links it has to follow. -/
structure BreadthFirst (κ : Type*) where
  cameFrom : List (κ × κ)
  visited : List κ
  frontier : List κ

namespace BreadthFirst

variable {κ : Type*} [DecidableEq κ]

/-- Follow links of a node, up to the first new one that is a goal. -/
def scan (goal : κ → Bool) (cur : κ) : List κ → BreadthFirst κ → BreadthFirst κ × Bool
  | [], s => (s, false)
  | nbr :: links, s =>
      if nbr ∈ s.visited then scan goal cur links s
      else if goal nbr then
        ({ s with cameFrom := (nbr, cur) :: s.cameFrom, visited := nbr :: s.visited }, true)
      else
        scan goal cur links
          { cameFrom := (nbr, cur) :: s.cameFrom, visited := nbr :: s.visited,
            frontier := s.frontier ++ [nbr] }

/-- At most as many turns; whether a goal was met. -/
def loop (next : κ → List κ) (goal : κ → Bool) : Nat → BreadthFirst κ → BreadthFirst κ × Bool
  | 0, s => (s, false)
  | n + 1, s =>
      match s.frontier with
      | [] => (s, false)
      | cur :: frontier =>
          let r := scan goal cur (next cur) { s with frontier := frontier }
          if r.2 then r else loop next goal n r.1

/-- Start from one node. -/
def single (src : κ) : BreadthFirst κ := { cameFrom := [], visited := [src], frontier := [src] }

/-- The way from a node back to where the search started. -/
def pathBack [Inhabited κ] (s : BreadthFirst κ) (src : κ) : Nat → κ → List κ
  | 0, n => [n]
  | k + 1, n =>
      if n = src then [n]
      else n :: pathBack s src k ((Assoc.lookup s.cameFrom n).getD default)

/-! ## Walks -/

/-- A walk along links, as the nodes that it comes by. -/
inductive Walk (next : κ → List κ) (src : κ) : κ → List κ → Prop
  | start : Walk next src src [src]
  | step {m n : κ} {p : List κ} (walk : Walk next src m p) (link : n ∈ next m) :
      Walk next src n (p ++ [n])

/-- The places of the links that a walk takes. -/
def hops (next : κ → List κ) : List κ → List ℕ
  | a :: b :: p => (next a).idxOf b :: hops next (b :: p)
  | _ => []

/-- Shorter walks come first, and then those that part over an earlier link. -/
def rank (next : κ → List κ) (p : List κ) : Lex (ℕ × List ℕ) := toLex (p.length, hops next p)

/-- A walk that ranks before every other to its node. -/
def Earliest (next : κ → List κ) (src n : κ) (p : List κ) : Prop :=
  Walk next src n p ∧ ∀ q, Walk next src n q → q = p ∨ rank next p < rank next q

variable {next : κ → List κ} {goal : κ → Bool} {src : κ} {p : List κ} {s : BreadthFirst κ} {n : κ}
  {rest done : List κ} {cur : κ} {cur v : κ}

theorem Walk.ends (h : Walk next src n p) :
    ∃ q, p = q ++ [n] ∧ ∀ m, hops next (p ++ [m]) = hops next p ++ [(next n).idxOf m] := by
  induction h with
  | start => exact ⟨[], rfl, fun m => rfl⟩
  | @step m n p walk link ih =>
      refine ⟨p, rfl, fun m' => ?_⟩
      rcases ih with ⟨q, rfl, -⟩
      -- The places are those up to `n` and then the one of the last link.
      have happ : ∀ l : List κ, hops next (l ++ [m] ++ [n] ++ [m']) =
          hops next (l ++ [m] ++ [n]) ++ [(next n).idxOf m'] := fun l => by
        induction l with
        | nil => rfl
        | cons a l ih =>
            cases l with
            | nil => rfl
            | cons b l =>
                simp only [List.cons_append, hops] at ih ⊢
                rw [ih]
      exact happ q

theorem Walk.hops_append {n m : κ} (h : Walk next src n p) :
    hops next (p ++ [m]) = hops next p ++ [(next n).idxOf m] := by
  rcases h.ends with ⟨_, _, hhops⟩
  exact hhops m

theorem Walk.length_pos (h : Walk next src n p) : 0 < p.length := by
  rcases h.ends with ⟨q, rfl, -⟩
  simp

omit [DecidableEq κ] in
/-- A link before a walk. -/
theorem Walk.cons {a n : κ} (h : Walk next src n p) (hlink : src ∈ next a) :
    Walk next a n (a :: p) := by
  induction h with
  | start => exact .step .start hlink
  | step _ link ih => exact .step ih link

omit [DecidableEq κ] in
/-- Where links lead both ways, so do walks. -/
theorem Walk.reverse (hback : ∀ a, ∀ b ∈ next a, a ∈ next b)
    (h : Walk next src n p) : Walk next n src p.reverse := by
  induction h with
  | start => exact .start
  | step _ link ih =>
      rw [List.reverse_append]
      exact ih.cons (hback _ _ link)

theorem hops_length (p : List κ) : (hops next p).length = p.length - 1 := by
  induction p with
  | nil => rfl
  | cons a p ih =>
      cases p with
      | nil => rfl
      | cons b p => simp only [hops, List.length_cons] at ih ⊢; omega

/-! ### The order of walks -/

theorem lex_append {s t : List ℕ} (h : List.Lex (· < ·) s t) (hlen : s.length = t.length)
    (i j : ℕ) : List.Lex (· < ·) (s ++ [i]) (t ++ [j]) := by
  induction h with
  | nil => simp at hlen
  | rel hlt => exact .rel hlt
  | cons _ ih => exact .cons (ih (by simpa using hlen))

theorem rank_lt_iff {p q : List κ} : rank next p < rank next q ↔
    p.length < q.length ∨ p.length = q.length ∧ hops next p < hops next q :=
  Prod.Lex.toLex_lt_toLex

theorem rank_lt_of_length {p q : List κ} (h : p.length < q.length) :
    rank next p < rank next q := rank_lt_iff.mpr (.inl h)

theorem rank_lt_append (p : List κ) (n : κ) : rank next p < rank next (p ++ [n]) :=
  rank_lt_of_length (by simp)

/-- One more link on both keeps the order of two walks. -/
theorem rank_append_lt {m n : κ} {p q : List κ} (hp : Walk next src m p)
    (hq : Walk next src n q) (h : rank next p < rank next q) (a b : κ) :
    rank next (p ++ [a]) < rank next (q ++ [b]) := by
  rcases rank_lt_iff.mp h with hlen | ⟨hlen, hlex⟩
  · exact rank_lt_of_length (by simpa using hlen)
  · refine rank_lt_iff.mpr (.inr ⟨by simpa using hlen, ?_⟩)
    rw [hp.hops_append, hq.hops_append]
    refine lex_append hlex ?_ _ _
    rw [hops_length, hops_length, hlen]

/-- Of two links of one node the earlier makes the walk that comes first. -/
theorem rank_append_lt_of_idxOf {m : κ} (hp : Walk next src m p) {a b : κ}
    (h : (next m).idxOf a < (next m).idxOf b) :
    rank next (p ++ [a]) < rank next (p ++ [b]) := by
  refine rank_lt_iff.mpr (.inr ⟨by simp, ?_⟩)
  rw [hp.hops_append, hp.hops_append]
  exact List.Lex.append_left (· < ·) (.rel h) (hops next p)

theorem Earliest.unique {p q : List κ} (hp : Earliest next src n p)
    (hq : Earliest next src n q) : p = q := by
  rcases hp.2 q hq.1 with heq | hlt
  · exact heq.symm
  · rcases hq.2 p hp.1 with heq | hgt
    · exact heq
    · exact absurd hgt (lt_asymm hlt)

/-- The walk to a node that ranks first, when there is one. -/
noncomputable def first (next : κ → List κ) (src n : κ) : List κ :=
  Classical.epsilon (Earliest next src n)

theorem Earliest.first_eq (h : Earliest next src n p) :
    first next src n = p :=
  Earliest.unique (Classical.epsilon_spec (p := Earliest next src n) ⟨p, h⟩) h

theorem earliest_start : Earliest next src src [src] := by
  refine ⟨.start, fun q hq => ?_⟩
  cases hq with
  | start => exact .inl rfl
  | step walk _ => exact .inr (rank_lt_of_length (by simpa using walk.length_pos))

theorem first_start : first next src src = [src] := earliest_start.first_eq

/-! ## What the turns keep -/

/-- Visited nodes know their earliest walk by the node before. -/
structure Traced (next : κ → List κ) (src : κ) (s : BreadthFirst κ) : Prop where
  start : src ∈ s.visited
  earliest : ∀ n ∈ s.visited, Earliest next src n (first next src n)
  short : ∀ n ∈ s.visited, (first next src n).length ≤ s.visited.length
  parent : ∀ n ∈ s.visited, n ≠ src → ∃ m ∈ s.visited, Assoc.lookup s.cameFrom n = some m ∧
    first next src n = first next src m ++ [n]

/-- The queue is in the order of the earliest walks, behind those of the nodes that are
    done with. Of its head, which the search may be at, some links have been followed. -/
structure Queued (next : κ → List κ) (src : κ) (queue done : List κ) (s : BreadthFirst κ) :
    Prop extends Traced next src s where
  queued : ∀ n ∈ queue, n ∈ s.visited
  sorted : queue.Pairwise fun a b => rank next (first next src a) < rank next (first next src b)
  expanded : ∀ m ∈ s.visited, m ∉ queue → ∀ a ∈ queue,
    rank next (first next src m) < rank next (first next src a)
  closed : ∀ m ∈ s.visited, m ∉ queue → ∀ n ∈ next m, n ∈ s.visited
  scanned : ∀ n ∈ done, n ∈ s.visited
  origin : ∀ n ∈ queue, n ≠ src → ∃ m ∈ s.visited,
    (m ∉ queue ∨ queue.head? = some m ∧ n ∈ done) ∧ first next src n = first next src m ++ [n]

/-- No walk to a node that is new or in the queue ranks before that of the queue's head. -/
theorem Queued.le_of_open
    (h : Queued next src (cur :: rest) done s) {u : κ} {w : List κ} (hw : Walk next src u w)
    (hopen : u ∈ s.visited → u ∈ cur :: rest) :
    (u = cur ∧ w = first next src cur) ∨ rank next (first next src cur) < rank next w := by
  -- The head's walk ranks before those of the rest of the queue.
  have hqueue : ∀ n ∈ cur :: rest, ∀ p, Walk next src n p →
      (n = cur ∧ p = first next src cur) ∨ rank next (first next src cur) < rank next p := by
    intro n hn p hp
    have hfirst := (h.earliest n (h.queued n hn)).2 p hp
    rcases List.mem_cons.mp hn with rfl | hrest
    · exact hfirst.imp (fun heq => ⟨rfl, heq⟩) id
    · have hlt := List.rel_of_pairwise_cons h.sorted hrest
      rcases hfirst with rfl | hlt'
      · exact .inr hlt
      · exact .inr (hlt.trans hlt')
  induction hw with
  | start => exact hqueue src (hopen h.start) [src] .start
  | @step m n p walk link ih =>
      by_cases hn : n ∈ s.visited
      · exact hqueue n (hopen hn) _ (.step walk link)
      · -- The node before cannot be done with, or this one would have been visited.
        have hm : m ∈ s.visited → m ∈ cur :: rest := fun hm => by
          by_contra hout
          exact hn (h.closed m hm hout n link)
        rcases ih hm with ⟨-, rfl⟩ | hlt
        · exact .inr (rank_lt_append _ n)
        · exact .inr (hlt.trans (rank_lt_append p n))

/-- A new node is first come to along the earliest walk to it. -/
theorem Queued.earliest_new
    (h : Queued next src (cur :: rest) done s) (hnew : v ∉ s.visited) (hlink : v ∈ next cur) :
    Earliest next src v (first next src cur ++ [v]) := by
  have hcur := (h.earliest cur (h.queued cur List.mem_cons_self)).1
  refine ⟨.step hcur hlink, fun q hq => ?_⟩
  cases hq with
  | start => exact absurd h.start hnew
  | @step m _ p walk link =>
      have hm : m ∈ s.visited → m ∈ cur :: rest := fun hm => by
        by_contra hout
        exact hnew (h.closed m hm hout v link)
      rcases h.le_of_open walk hm with ⟨-, rfl⟩ | hlt
      · exact .inl rfl
      · exact .inr (rank_append_lt hcur walk hlt v v)

/-- What is visited from a node is traced. -/
theorem Queued.visit_traced
    (h : Queued next src (cur :: rest) done s) (hnew : v ∉ s.visited) (hlink : v ∈ next cur)
    (queue : List κ) :
    Traced next src { cameFrom := (v, cur) :: s.cameFrom, visited := v :: s.visited,
                      frontier := queue } := by
  have hcur := h.queued cur List.mem_cons_self
  have hv := h.earliest_new hnew hlink
  refine ⟨List.mem_cons_of_mem v h.start, fun n hn => ?_, fun n hn => ?_, fun n hn hne => ?_⟩
  · rcases List.mem_cons.mp hn with rfl | hn
    · rw [hv.first_eq]
      exact hv
    · exact h.earliest n hn
  · rcases List.mem_cons.mp hn with rfl | hn
    · have hlen := h.short cur hcur
      rw [hv.first_eq]
      simpa using hlen
    · exact (h.short n hn).trans (by simp)
  · rcases List.mem_cons.mp hn with rfl | hn
    · exact ⟨cur, List.mem_cons_of_mem n hcur, by simp [Assoc.lookup_cons], hv.first_eq⟩
    · rcases h.parent n hn hne with ⟨m, hm, hlookup, hfirst⟩
      refine ⟨m, List.mem_cons_of_mem v hm, ?_, hfirst⟩
      have hvn : v ≠ n := fun heq => hnew (heq ▸ hn)
      rw [Assoc.lookup_cons, if_neg hvn, hlookup]

/-- A new node goes to the end of the queue. -/
theorem Queued.push {done links : List κ}
    (h : Queued next src (cur :: s.frontier) done s) (hnew : v ∉ s.visited)
    (hnext : next cur = done ++ v :: links) :
    Queued next src (cur :: (s.frontier ++ [v])) (done ++ [v])
      { cameFrom := (v, cur) :: s.cameFrom, visited := v :: s.visited,
        frontier := s.frontier ++ [v] } := by
  have hcur := h.queued cur List.mem_cons_self
  have hlink : v ∈ next cur := by rw [hnext]; simp
  have hv := (h.earliest_new hnew hlink).first_eq
  have hwalk := (h.earliest cur hcur).1
  have hqueue : ∀ n, n ∈ cur :: (s.frontier ++ [v]) ↔ n ∈ cur :: s.frontier ∨ n = v := by
    intro n
    simp only [List.mem_cons, List.mem_append, List.not_mem_nil, or_false, or_assoc]
  have hself : rank next (first next src cur) < rank next (first next src v) := by
    rw [hv]
    exact rank_lt_append _ v
  -- The nodes of the queue come before the new one.
  have hbefore : ∀ a ∈ cur :: s.frontier,
      rank next (first next src a) < rank next (first next src v) := by
    intro a ha
    by_cases hsrc : a = src
    · -- The walk that starts and goes nowhere is shorter than any other.
      rw [hsrc, first_start, hv]
      exact rank_lt_of_length (by simpa using hwalk.length_pos)
    · rcases h.origin a ha hsrc with ⟨m, hm, hout | ⟨hhead, hdone⟩, hfirst⟩
      · rw [hfirst, hv]
        exact rank_append_lt (h.earliest m hm).1 hwalk
          (h.expanded m hm hout cur List.mem_cons_self) a v
      · -- Both come from the head, and the new one over a later link.
        simp only [List.head?_cons, Option.some.injEq] at hhead
        subst hhead
        rw [hfirst, hv]
        refine rank_append_lt_of_idxOf hwalk ?_
        have hvdone : v ∉ done := fun hv => hnew (h.scanned v hv)
        rw [hnext, List.idxOf_append_of_mem hdone, List.idxOf_append_of_notMem hvdone,
          List.idxOf_cons_self]
        have := List.idxOf_lt_length_of_mem hdone
        omega
  refine ⟨h.visit_traced hnew hlink _, fun n hn => ?_, ?_, fun m hm hout a ha => ?_,
    fun m hm hout n hn => ?_, fun n hn => ?_, fun n hn hne => ?_⟩
  · rcases (hqueue n).mp hn with hn | rfl
    · exact List.mem_cons_of_mem v (h.queued n hn)
    · exact List.mem_cons_self
  · rw [← List.cons_append, List.pairwise_append]
    refine ⟨h.sorted, List.pairwise_singleton _ _, fun a ha b hb => ?_⟩
    rw [List.mem_singleton.mp hb]
    exact hbefore a ha
  · rw [hqueue, not_or] at hout
    have hm' := (List.mem_cons.mp hm).resolve_left hout.2
    rcases (hqueue a).mp ha with ha | rfl
    · exact h.expanded m hm' hout.1 a ha
    · exact (h.expanded m hm' hout.1 cur List.mem_cons_self).trans hself
  · rw [hqueue, not_or] at hout
    have hm' := (List.mem_cons.mp hm).resolve_left hout.2
    exact List.mem_cons_of_mem v (h.closed m hm' hout.1 n hn)
  · rcases List.mem_append.mp hn with hn | hn
    · exact List.mem_cons_of_mem v (h.scanned n hn)
    · rw [List.mem_singleton.mp hn]
      exact List.mem_cons_self
  · rcases (hqueue n).mp hn with hn | rfl
    · rcases h.origin n hn hne with ⟨m, hm, hplace, hfirst⟩
      refine ⟨m, List.mem_cons_of_mem v hm, ?_, hfirst⟩
      refine hplace.imp (fun hout hin => ?_) (fun hhead => ⟨hhead.1, by simp [hhead.2]⟩)
      exact ((hqueue m).mp hin).elim hout fun heq => hnew (heq ▸ hm)
    · exact ⟨cur, List.mem_cons_of_mem n hcur, .inr ⟨rfl, by simp⟩, hv⟩

/-- A link to a node that has been visited changes nothing. -/
theorem Queued.skip {v : κ} {queue done : List κ}
    (h : Queued next src queue done s) (hv : v ∈ s.visited) :
    Queued next src queue (done ++ [v]) s := by
  refine { h with scanned := fun n hn => ?_, origin := fun n hn hne => ?_ }
  · rcases List.mem_append.mp hn with hn | hn
    · exact h.scanned n hn
    · rw [List.mem_singleton.mp hn]
      exact hv
  · rcases h.origin n hn hne with ⟨m, hm, hplace, hfirst⟩
    exact ⟨m, hm, hplace.imp id fun hhead => ⟨hhead.1, by simp [hhead.2]⟩, hfirst⟩

/-- The head is done with when all its links have been followed. -/
theorem Queued.finish {rest : List κ}
    (h : Queued next src (cur :: rest) (next cur) s) : Queued next src rest [] s := by
  have hcur : ∀ a ∈ rest, rank next (first next src cur) < rank next (first next src a) :=
    fun a ha => List.rel_of_pairwise_cons h.sorted ha
  have hnotin : cur ∉ rest := fun hin => lt_irrefl _ (hcur cur hin)
  refine { h.toTraced with
    queued := fun n hn => h.queued n (List.mem_cons_of_mem cur hn)
    sorted := List.Pairwise.of_cons h.sorted
    expanded := fun m hm hout a ha => ?_
    closed := fun m hm hout n hn => ?_
    scanned := fun n hn => absurd hn List.not_mem_nil
    origin := fun n hn hne => ?_ }
  · by_cases hm' : m = cur
    · rw [hm']
      exact hcur a ha
    · exact h.expanded m hm (by simp [hm', hout]) a (List.mem_cons_of_mem cur ha)
  · by_cases hm' : m = cur
    · exact h.scanned n (hm' ▸ hn)
    · exact h.closed m hm (by simp [hm', hout]) n hn
  · rcases h.origin n (List.mem_cons_of_mem cur hn) hne with ⟨m, hm, hplace, hfirst⟩
    refine ⟨m, hm, .inl fun hin => ?_, hfirst⟩
    rcases hplace with hout | ⟨hhead, -⟩
    · exact hout (List.mem_cons_of_mem cur hin)
    · simp only [List.head?_cons, Option.some.injEq] at hhead
      exact hnotin (hhead ▸ hin)

/-- Between two nodes nothing has been followed of the next one. -/
theorem Queued.scan (links : List κ) :
    ∀ (done : List κ) (s : BreadthFirst κ), Queued next src (cur :: s.frontier) done s →
      next cur = done ++ links → (∀ n ∈ s.visited, goal n = false) →
      ((scan goal cur links s).2 = true → Traced next src (scan goal cur links s).1 ∧
        ∃ n ∈ (scan goal cur links s).1.visited, goal n = true) ∧
      ((scan goal cur links s).2 = false →
        Queued next src (scan goal cur links s).1.frontier [] (scan goal cur links s).1 ∧
        ∀ n ∈ (scan goal cur links s).1.visited, goal n = false) := by
  induction links with
  | nil =>
      intro done s h hnext hgoal
      rw [List.append_nil] at hnext
      subst hnext
      exact ⟨fun hfalse => absurd hfalse Bool.false_ne_true, fun _ => ⟨h.finish, hgoal⟩⟩
  | cons v links ih =>
      intro done s h hnext hgoal
      have hnext' : next cur = done ++ [v] ++ links := by rw [hnext]; simp
      unfold BreadthFirst.scan
      by_cases hv : v ∈ s.visited
      · rw [if_pos hv]
        exact ih (done ++ [v]) s (h.skip hv) hnext' hgoal
      · rw [if_neg hv]
        have hlink : v ∈ next cur := by rw [hnext]; simp
        cases hg : goal v with
        | true =>
            rw [if_pos rfl]
            exact ⟨fun _ => ⟨h.visit_traced hv hlink _, v, List.mem_cons_self, hg⟩,
              fun hfalse => absurd hfalse (Bool.false_ne_true ·.symm)⟩
        | false =>
            rw [if_neg Bool.false_ne_true]
            refine ih (done ++ [v]) _ (h.push hv hnext) hnext' fun n hn => ?_
            rcases List.mem_cons.mp hn with rfl | hn
            · exact hg
            · exact hgoal n hn

/-! ## The search ends -/

/-- No node was visited twice, and none but those of a list. -/
structure Bounded (names : List κ) (s : BreadthFirst κ) : Prop where
  nodup : s.visited.Nodup
  names : s.visited ⊆ names

/-- Links visit as many nodes as they put into the queue. -/
theorem Bounded.scan {names : List κ} (links : List κ) :
    ∀ s : BreadthFirst κ, Bounded names s → links ⊆ names →
      (scan goal cur links s).2 = false → Bounded names (scan goal cur links s).1 ∧
        (scan goal cur links s).1.visited.length + s.frontier.length =
          s.visited.length + (scan goal cur links s).1.frontier.length := by
  induction links with
  | nil => exact fun s h _ _ => ⟨h, rfl⟩
  | cons v links ih =>
      intro s h hlinks hrun
      rw [List.cons_subset] at hlinks
      unfold BreadthFirst.scan at hrun ⊢
      by_cases hv : v ∈ s.visited
      · rw [if_pos hv] at hrun ⊢
        exact ih s h hlinks.2 hrun
      · rw [if_neg hv] at hrun ⊢
        cases hg : goal v with
        | true =>
            rw [hg, if_pos rfl] at hrun
            exact absurd hrun (Bool.false_ne_true ·.symm)
        | false =>
            rw [hg, if_neg Bool.false_ne_true] at hrun
            rw [if_neg Bool.false_ne_true]
            rcases ih _ ⟨List.nodup_cons.mpr ⟨hv, h.nodup⟩,
              List.cons_subset.mpr ⟨hlinks.1, h.names⟩⟩ hlinks.2 hrun with ⟨hbounded, hlen⟩
            refine ⟨hbounded, ?_⟩
            simp only [List.length_append, List.length_cons, List.length_nil] at hlen ⊢
            omega

/-- What a search leaves behind: the way to a goal, or all that can be reached. -/
theorem Queued.loop {names : List κ} (hnames : ∀ a, next a ⊆ names) (n : ℕ) :
    ∀ s : BreadthFirst κ, Queued next src s.frontier [] s → Bounded names s →
      (∀ m ∈ s.visited, goal m = false) →
      names.length + s.frontier.length ≤ s.visited.length + n →
      ((loop next goal n s).2 = true → Traced next src (loop next goal n s).1 ∧
        ∃ m ∈ (loop next goal n s).1.visited, goal m = true) ∧
      ((loop next goal n s).2 = false →
        (Queued next src [] [] (loop next goal n s).1 ∧ (loop next goal n s).1.frontier = []) ∧
        ∀ m ∈ (loop next goal n s).1.visited, goal m = false) := by
  induction n with
  | zero =>
      intro s h hbounded hgoal hlen
      -- No turn is left, and no node can be, as all of them are visited.
      have hle := (hbounded.nodup.subperm hbounded.names).length_le
      have hempty : s.frontier = [] := List.length_eq_zero_iff.mp (by omega)
      rw [hempty] at h
      exact ⟨fun hfalse => absurd hfalse Bool.false_ne_true, fun _ => ⟨⟨h, hempty⟩, hgoal⟩⟩
  | succ n ih =>
      intro s h hbounded hgoal hlen
      unfold BreadthFirst.loop
      cases hfrontier : s.frontier with
      | nil =>
          rw [hfrontier] at h
          exact ⟨fun hfalse => absurd hfalse Bool.false_ne_true,
            fun _ => ⟨⟨h, hfrontier⟩, hgoal⟩⟩
      | cons cur frontier =>
          rw [hfrontier, List.length_cons] at hlen
          rw [hfrontier] at h
          let s' : BreadthFirst κ := { s with frontier := frontier }
          have hs' : Queued next src (cur :: s'.frontier) [] s' :=
            ⟨⟨h.start, h.earliest, h.short, h.parent⟩, h.queued, h.sorted, h.expanded, h.closed,
              h.scanned, h.origin⟩
          rcases Queued.scan (next cur) [] s' hs' rfl hgoal with ⟨hfound, hrest⟩
          cases hr : (BreadthFirst.scan goal cur (next cur) s').2 with
          | true =>
              simp only [s'] at hr
              simp only [hr, if_true]
              exact ⟨fun _ => hfound hr, fun hfalse => absurd hfalse (Bool.false_ne_true ·.symm)⟩
          | false =>
              rcases Bounded.scan (next cur) s'
                ⟨hbounded.nodup, hbounded.names⟩ (hnames cur) hr with ⟨hbounded', hlen'⟩
              have hturn := ih _ (hrest hr).1 hbounded' (hrest hr).2 (by
                simp only [s'] at hlen' ⊢
                omega)
              simp only [s'] at hr hturn
              simp only [hr, Bool.false_eq_true, if_false]
              exact hturn

theorem queued_single : Queued next src [src] [] (single src) := by
  have hmem : ∀ n ∈ (single src).visited, n = src := fun n hn => List.mem_singleton.mp hn
  refine ⟨⟨List.mem_singleton.mpr rfl, fun n hn => ?_, fun n hn => ?_, fun n hn hne => ?_⟩,
    fun n hn => hn, List.pairwise_singleton _ _, fun m hm hout => ?_, fun m hm hout => ?_,
    fun n hn => absurd hn List.not_mem_nil, fun n hn hne => ?_⟩
  · rw [hmem n hn, first_start]
    exact earliest_start
  · rw [hmem n hn, first_start]
    exact le_refl 1
  · exact absurd (hmem n hn) hne
  · exact absurd hm hout
  · exact absurd hm hout
  · exact absurd (hmem n hn) hne

section

variable {names : List κ} (hnames : ∀ a, next a ⊆ names) (hsrc : src ∈ names)
  (hgoal : goal src = false)

include hnames hsrc hgoal

theorem loop_single :
    ((loop next goal names.length (single src)).2 = true →
      Traced next src (loop next goal names.length (single src)).1 ∧
      ∃ m ∈ (loop next goal names.length (single src)).1.visited, goal m = true) ∧
    ((loop next goal names.length (single src)).2 = false →
      (Queued next src [] [] (loop next goal names.length (single src)).1 ∧
        (loop next goal names.length (single src)).1.frontier = []) ∧
      ∀ m ∈ (loop next goal names.length (single src)).1.visited, goal m = false) := by
  refine Queued.loop hnames names.length (single src) queued_single
    ⟨List.nodup_singleton src, fun n hn => ?_⟩ (fun m hm => ?_) ?_
  · rw [List.mem_singleton.mp hn]
    exact hsrc
  · rw [List.mem_singleton.mp hm]
    exact hgoal
  · simp only [single, List.length_cons, List.length_nil]
    omega

/-- A goal that is found is one that can be walked to. -/
theorem loop_found (h : (loop next goal names.length (single src)).2 = true) :
    Traced next src (loop next goal names.length (single src)).1 ∧
      ∃ m ∈ (loop next goal names.length (single src)).1.visited, goal m = true :=
  (loop_single hnames hsrc hgoal).1 h

/-- The turns are enough: a goal was met, or no node is left in the queue. -/
theorem loop_done : (loop next goal names.length (single src)).2 = true ∨
    (loop next goal names.length (single src)).1.frontier = [] := by
  cases h : (loop next goal names.length (single src)).2 with
  | true => exact .inl rfl
  | false => exact .inr ((loop_single hnames hsrc hgoal).2 h).1.2

/-- A search that meets no goal visits everything that can be walked to. -/
theorem loop_exhausted (h : (loop next goal names.length (single src)).2 = false) (n : κ) :
    n ∈ (loop next goal names.length (single src)).1.visited ↔ ∃ w, Walk next src n w := by
  have hqueued := ((loop_single hnames hsrc hgoal).2 h).1.1
  refine ⟨fun hn => ⟨_, (hqueued.earliest n hn).1⟩, fun ⟨w, hw⟩ => ?_⟩
  induction hw with
  | start => exact hqueued.start
  | @step m n p walk link ih => exact hqueued.closed m (ih ⟨_, walk⟩) List.not_mem_nil n link

theorem loop_exhausted_goal (h : (loop next goal names.length (single src)).2 = false) {n : κ}
    {w : List κ} (hw : Walk next src n w) : goal n = false :=
  ((loop_single hnames hsrc hgoal).2 h).2 n
    ((loop_exhausted hnames hsrc hgoal h n).mpr ⟨w, hw⟩)

end

/-- The way back from a visited node is the walk to it that ranks first. -/
theorem Traced.pathBack_earliest [Inhabited κ] (h : Traced next src s)
    (k : ℕ) : ∀ n ∈ s.visited, (first next src n).length ≤ k + 1 →
      s.pathBack src k n = (first next src n).reverse := by
  induction k with
  | zero =>
      intro n hn hlen
      by_cases hsrc : n = src
      · rw [hsrc, first_start]
        rfl
      · rcases h.parent n hn hsrc with ⟨m, hm, -, hfirst⟩
        have hpos := (h.earliest m hm).1.length_pos
        rw [hfirst, List.length_append, List.length_singleton] at hlen
        omega
  | succ k ih =>
      intro n hn hlen
      unfold pathBack
      by_cases hsrc : n = src
      · rw [if_pos hsrc, hsrc, first_start]
        rfl
      · rcases h.parent n hn hsrc with ⟨m, hm, hlookup, hfirst⟩
        rw [hfirst, List.length_append, List.length_singleton] at hlen
        rw [if_neg hsrc, hlookup, Option.getD_some, ih m hm (by omega), hfirst,
          List.reverse_append]
        rfl

end BreadthFirst

end EarthRise
