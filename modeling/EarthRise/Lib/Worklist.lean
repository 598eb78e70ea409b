import Mathlib.Data.List.Nodup
import Mathlib.Data.List.Perm.Subperm
import Mathlib.Logic.Relation

/-!
# Searching a Graph with a Stack

The search that remembers the names it has reached and keeps on a stack the nodes whose
links it still has to follow. A node is looked up by its name, and a link to a name that
stands for no node leads nowhere.

Every turn takes one node off the stack and puts one on it for each name that it reaches
for the first time. So the names reached outgrow the stack by one with every turn, and
there are at most as many turns as there are names (`loop_done`). What is reached can be
reached along links, and a name whose node is off the stack has all its links reached;
when the stack is empty the names reached are therefore those that can be reached
(`mem_loop_iff`).

## Main definitions

* `Worklist`, `visit`, `loop`: The search.
* `Edge`: One name links to another.
* `Bounded`, `Traced`: What the turns keep.

## Theorems

* `foldl_visit`: What following the links of a node does.
* `loop_done`: The search ends.
* `mem_loop_iff`: What it reaches.
-/

namespace EarthRise

/-- The names that a search has reached, and the nodes whose links it has to follow. -/
structure Worklist (κ α : Type*) where
  reached : List κ
  stack : List α

namespace Worklist

variable {κ α : Type*} [DecidableEq κ] (node : κ → Option α) (links : α → List κ)

/-- Follow a link. -/
def visit (s : Worklist κ α) (l : κ) : Worklist κ α :=
  match node l with
  | none => s
  | some x => if l ∈ s.reached then s else { reached := l :: s.reached, stack := x :: s.stack }

/-- At most as many turns. -/
def loop : Nat → Worklist κ α → Worklist κ α
  | 0, s => s
  | n + 1, s =>
      match s.stack with
      | [] => s
      | cur :: stack => loop n ((links cur).foldl (visit node) { s with stack := stack })

/-- Start from one node. -/
def single (start : κ) (x : α) : Worklist κ α := { reached := [start], stack := [x] }

/-- A node links to another. -/
def Edge (a b : κ) : Prop := ∃ x, node a = some x ∧ b ∈ links x ∧ (node b).isSome = true

variable {node links} {names : List κ} {start : κ}

/-- What following links puts on the stack and what it has then reached. -/
theorem foldl_visit (ls : List κ) (s : Worklist κ α) :
    ∃ pushed : List (κ × α),
      (ls.foldl (visit node) s).reached = pushed.map Prod.fst ++ s.reached ∧
      (ls.foldl (visit node) s).stack = pushed.map Prod.snd ++ s.stack ∧
      (∀ p ∈ pushed, p.1 ∈ ls ∧ node p.1 = some p.2) ∧
      (s.reached.Nodup → (ls.foldl (visit node) s).reached.Nodup) ∧
      ∀ l ∈ ls, (node l).isSome = true → l ∈ (ls.foldl (visit node) s).reached := by
  induction ls generalizing s with
  | nil => exact ⟨[], rfl, rfl, fun _ h => absurd h List.not_mem_nil, id,
      fun _ h => absurd h List.not_mem_nil⟩
  | cons l ls ih =>
      rw [List.foldl_cons]
      rcases ih (visit node s l) with ⟨pushed, hreached, hstack, hpushed, hnodup, hall⟩
      -- What was reached stays reached.
      have hold : ∀ n ∈ (visit node s l).reached,
          n ∈ (ls.foldl (visit node) (visit node s l)).reached := fun n hn => by
        rw [hreached]
        exact List.mem_append_right _ hn
      have hrest : ∀ p ∈ pushed, p.1 ∈ l :: ls ∧ node p.1 = some p.2 :=
        fun p hp => ⟨List.mem_cons_of_mem l (hpushed p hp).1, (hpushed p hp).2⟩
      cases hnode : node l with
      | none =>
          have hsame : visit node s l = s := by unfold visit; rw [hnode]
          rw [hsame] at hreached hstack hnodup hold hall ⊢
          refine ⟨pushed, hreached, hstack, hrest, hnodup, fun l' hl' hsome => ?_⟩
          rcases List.mem_cons.mp hl' with rfl | hl'
          · rw [hnode] at hsome
            exact absurd hsome Bool.false_ne_true
          · exact hall l' hl' hsome
      | some x =>
          by_cases hmem : l ∈ s.reached
          · have hsame : visit node s l = s := by unfold visit; rw [hnode]; exact if_pos hmem
            rw [hsame] at hreached hstack hnodup hold hall ⊢
            refine ⟨pushed, hreached, hstack, hrest, hnodup, fun l' hl' hsome => ?_⟩
            rcases List.mem_cons.mp hl' with rfl | hl'
            · exact hold l' hmem
            · exact hall l' hl' hsome
          · have hnew : visit node s l =
                { reached := l :: s.reached, stack := x :: s.stack } := by
              unfold visit
              rw [hnode]
              exact if_neg hmem
            rw [hnew] at hreached hstack hnodup hold hall ⊢
            refine ⟨pushed ++ [(l, x)], ?_, ?_, ?_, fun hs => ?_, fun l' hl' hsome => ?_⟩
            · rw [hreached, List.map_append, List.append_assoc]
              rfl
            · rw [hstack, List.map_append, List.append_assoc]
              rfl
            · intro p hp
              rcases List.mem_append.mp hp with hp | hp
              · exact hrest p hp
              · rw [List.mem_singleton.mp hp]
                exact ⟨List.mem_cons_self, hnode⟩
            · exact hnodup (List.nodup_cons.mpr ⟨hmem, hs⟩)
            · rcases List.mem_cons.mp hl' with rfl | hl'
              · exact hold l' List.mem_cons_self
              · exact hall l' hl' hsome

/-! ## The search ends -/

/-- No name was reached twice, and none but those of a list. -/
structure Bounded (names : List κ) (s : Worklist κ α) : Prop where
  nodup : s.reached.Nodup
  names : s.reached ⊆ names

theorem Bounded.visits (hnames : ∀ n, (node n).isSome = true → n ∈ names)
    {s : Worklist κ α} (h : Bounded names s) (ls : List κ) :
    Bounded names (ls.foldl (visit node) s) := by
  rcases foldl_visit ls s with ⟨pushed, hreached, _, hpushed, hnodup, _⟩
  refine ⟨hnodup h.nodup, fun n hn => ?_⟩
  rw [hreached] at hn
  rcases List.mem_append.mp hn with hn | hn
  · rcases List.mem_map.mp hn with ⟨p, hp, rfl⟩
    exact hnames _ (by rw [(hpushed p hp).2]; rfl)
  · exact h.names hn

theorem loop_done_of_bounded
    (hnames : ∀ n, (node n).isSome = true → n ∈ names) (n : Nat) :
    ∀ s : Worklist κ α, Bounded names s →
      names.length + s.stack.length ≤ s.reached.length + n →
      (loop node links n s).stack = [] := by
  induction n with
  | zero =>
      intro s h hlen
      have hle := (h.nodup.subperm h.names).length_le
      exact List.length_eq_zero_iff.mp (by rw [loop]; omega)
  | succ n ih =>
      intro s h hlen
      unfold loop
      cases hstack : s.stack with
      | nil => exact hstack
      | cons cur stack =>
          rw [hstack, List.length_cons] at hlen
          -- A turn reaches as many names as it pushes nodes, and pops one.
          rcases @foldl_visit κ α _ node (links cur) { s with stack := stack } with
            ⟨pushed, hreached, hpushed, _⟩
          have hnext : Bounded names { s with stack := stack } := ⟨h.nodup, h.names⟩
          refine ih _ (hnext.visits hnames (links cur)) ?_
          rw [hreached, hpushed, List.length_append, List.length_append, List.length_map,
            List.length_map]
          simp only
          omega

/-- As many turns as there are names empty the stack. -/
theorem loop_done (hnames : ∀ n, (node n).isSome = true → n ∈ names)
    (start : κ) (hstart : start ∈ names) (x : α) :
    (loop node links names.length (single start x)).stack = [] :=
  loop_done_of_bounded hnames names.length (single start x)
    ⟨List.nodup_singleton start, fun _ hn => List.mem_singleton.mp hn ▸ hstart⟩
    (Nat.le_of_eq (Nat.add_comm _ _))

/-! ## What it reaches -/

/-- Names are reached along links, and those whose node is off the stack have their links
    reached. -/
structure Traced (node : κ → Option α) (links : α → List κ) (start : κ) (s : Worklist κ α) :
    Prop where
  origin : start ∈ s.reached
  paths : ∀ n ∈ s.reached, Relation.ReflTransGen (Edge node links) start n
  stacked : ∀ x ∈ s.stack, ∃ n ∈ s.reached, node n = some x
  closed : ∀ n ∈ s.reached, ∀ x, node n = some x → x ∈ s.stack ∨
    ∀ l ∈ links x, (node l).isSome = true → l ∈ s.reached

theorem Traced.turn {s : Worklist κ α} (h : Traced node links start s) {cur : α}
    {stack : List α} (hstack : s.stack = cur :: stack) :
    Traced node links start ((links cur).foldl (visit node) { s with stack := stack }) := by
  rcases @foldl_visit κ α _ node (links cur) { s with stack := stack } with
    ⟨pushed, hreached, hstack', hpushed, _, hall⟩
  rcases h.stacked cur (hstack ▸ List.mem_cons_self) with ⟨source, hsource, hcur⟩
  have hold : ∀ n ∈ s.reached,
      n ∈ ((links cur).foldl (visit node) { s with stack := stack }).reached := fun n hn => by
    rw [hreached]
    exact List.mem_append_right _ hn
  refine ⟨hold start h.origin, fun n hn => ?_, fun x hx => ?_, fun n hn x hx => ?_⟩
  · rw [hreached] at hn
    rcases List.mem_append.mp hn with hn | hn
    · rcases List.mem_map.mp hn with ⟨p, hp, rfl⟩
      exact (h.paths source hsource).tail
        ⟨cur, hcur, (hpushed p hp).1, by rw [(hpushed p hp).2]; rfl⟩
    · exact h.paths n hn
  · rw [hstack'] at hx
    rcases List.mem_append.mp hx with hx | hx
    · rcases List.mem_map.mp hx with ⟨p, hp, rfl⟩
      refine ⟨p.1, ?_, (hpushed p hp).2⟩
      rw [hreached]
      exact List.mem_append_left _ (List.mem_map.mpr ⟨p, hp, rfl⟩)
    · rcases h.stacked x (hstack ▸ List.mem_cons_of_mem cur hx) with ⟨n, hn, hnode⟩
      exact ⟨n, hold n hn, hnode⟩
  · rw [hreached] at hn
    rcases List.mem_append.mp hn with hn | hn
    · rcases List.mem_map.mp hn with ⟨p, hp, rfl⟩
      rw [(hpushed p hp).2, Option.some.injEq] at hx
      left
      rw [hstack', ← hx]
      exact List.mem_append_left _ (List.mem_map.mpr ⟨p, hp, rfl⟩)
    · rcases h.closed n hn x hx with hmem | hlinks
      · rw [hstack] at hmem
        rcases List.mem_cons.mp hmem with rfl | hmem
        · exact Or.inr hall
        · left
          rw [hstack']
          exact List.mem_append_right _ hmem
      · exact Or.inr fun l hl hsome => hold l (hlinks l hl hsome)

theorem Traced.loop (n : Nat) : ∀ s : Worklist κ α, Traced node links start s →
    Traced node links start (loop node links n s) := by
  induction n with
  | zero => exact fun s h => h
  | succ n ih =>
      intro s h
      unfold Worklist.loop
      cases hstack : s.stack with
      | nil => exact h
      | cons cur stack => exact ih _ (h.turn hstack)

/-- The search reaches what can be reached along links. -/
theorem mem_loop_iff (hnames : ∀ n, (node n).isSome = true → n ∈ names)
    {x : α} (hx : node start = some x) (n : κ) :
    n ∈ (loop node links names.length (single start x)).reached ↔
      Relation.ReflTransGen (Edge node links) start n := by
  have htraced : Traced node links start (loop node links names.length (single start x)) := by
    refine Traced.loop names.length (single start x)
      ⟨List.mem_singleton.mpr rfl, fun n hn => ?_, fun y hy => ?_, fun n hn y hy => ?_⟩
    · rw [List.mem_singleton.mp hn]
    · exact ⟨start, List.mem_singleton.mpr rfl, by rw [hx, List.mem_singleton.mp hy]⟩
    · rw [List.mem_singleton.mp hn, hx, Option.some.injEq] at hy
      exact Or.inl (List.mem_singleton.mpr hy.symm)
  have hdone : (loop node links names.length (single start x)).stack = [] :=
    loop_done hnames start (hnames start (by rw [hx]; rfl)) x
  constructor
  · exact htraced.paths n
  · intro hpath
    induction hpath with
    | refl => exact htraced.origin
    | tail _ hedge ih =>
        rcases hedge with ⟨y, hy, hlink, hsome⟩
        rcases htraced.closed _ ih y hy with hmem | hlinks
        · rw [hdone] at hmem
          exact absurd hmem List.not_mem_nil
        · exact hlinks _ hlink hsome

end Worklist

end EarthRise
