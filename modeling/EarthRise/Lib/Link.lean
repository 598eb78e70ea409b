import EarthRise.Lib.Execution
import EarthRise.Lib.Window
import Mathlib.Data.List.Basic

/-!
# Numbered Links

A sender that numbers its parcels, a network that loses, repeats and reorders
them, and a receiver that hands over the load of every parcel its window accepts.

Nothing here acknowledges a parcel or sends one again, so order and completeness
are the network's. What is owed is what was sent and no copy of which has arrived.
As long as no parcel that is owed arrives before an older one, is lost, or is
passed by a full width of later ones, what was handed over is always a prefix of
what was sent; and if every parcel under way arrives in the end, all of it is
handed over in the end.

## Main definitions

* `Link`, `Link.step`: The machine; a step may also change nothing.
* `Link.InOrder`: The steps that keep the order.
* `Link.Ordered`: The invariant.
* `Link.Arrives`: Every parcel under way arrives or is dropped.

## Theorems

* `Ordered.step`: What a step in order keeps.
* `handed_isPrefix`: What is handed over is a prefix of what was sent.
* `handed_all`: Everything is handed over in the end.
-/

namespace EarthRise

namespace Acceptance

open Run

/-- A number, and a load if there is one to hand over. -/
structure Parcel (α : Type*) where
  number : Nat
  load : Option α

/-- `owed` is what was sent and has not arrived, with its numbers. -/
structure Link (σ α : Type*) where
  next : Nat
  flight : List (Parcel α)
  window : σ
  sent : List α
  handed : List α
  owed : List (Nat × α)

namespace Link

variable {σ α : Type*}

inductive Label (α : Type*)
  | send (load : Option α)
  | deliver (i : Nat)
  | drop (i : Nat)

variable (W : Window σ)

/-- A parcel arrives and stays under way, to arrive again. -/
def arrive (s : Link σ α) (p : Parcel α) : Link σ α :=
  { s with
    window := W.offer s.window p.number
    handed := if W.fresh s.window p.number then s.handed ++ p.load.toList else s.handed
    owed := s.owed.filter fun o => o.1 ≠ p.number }

/-- A parcel leaves. -/
def post (s : Link σ α) (load : Option α) : Link σ α :=
  { s with
    next := s.next + 1
    flight := s.flight ++ [⟨s.next, load⟩]
    sent := s.sent ++ load.toList
    owed := s.owed ++ (load.map fun a => (s.next, a)).toList }

/-- The machine; without a label nothing changes. -/
def step (s : Link σ α) : Option (Label α) → Option (Link σ α)
  | none => some s
  | some (.send load) => some (s.post load)
  | some (.deliver i) => (s.flight[i]?).map (s.arrive W)
  | some (.drop i) =>
      (s.flight[i]?).map fun _ => { s with flight := s.flight.eraseIdx i }

/-- The steps that keep the order: what is owed arrives oldest first, is passed by
    less than the window's width, and is not dropped. -/
def InOrder (s : Link σ α) : Option (Label α) → Prop
  | some (.deliver i) => ∀ p, s.flight[i]? = some p → ∀ o ∈ s.owed,
      (o.1 = p.number → s.owed.head? = some o) ∧ p.number < o.1 + W.width
  | some (.drop i) => ∀ p, s.flight[i]? = some p → ∀ o ∈ s.owed, o.1 ≠ p.number
  | _ => True

/-- What is sent is what was handed over and what is owed; what is owed is under
    way, in order, and would be accepted. -/
structure Ordered (s : Link σ α) : Prop where
  split : s.sent = s.handed ++ s.owed.map Prod.snd
  carried : ∀ o ∈ s.owed, ⟨o.1, some o.2⟩ ∈ s.flight
  fresh : ∀ o ∈ s.owed, W.fresh s.window o.1 = true
  below : ∀ p ∈ s.flight, p.number < s.next
  above : ∀ g, s.next ≤ g → W.fresh s.window g = true
  same : ∀ p ∈ s.flight, ∀ q ∈ s.flight, p.number = q.number → p = q
  claimed : ∀ p ∈ s.flight, ∀ a, p.load = some a → W.fresh s.window p.number = true →
    (p.number, a) ∈ s.owed
  sorted : s.owed.Pairwise fun o o' => o.1 < o'.1

variable {W} {s : Link σ α}

theorem Ordered.post (h : Ordered W s) (load : Option α) :
    Ordered W (s.post load) where
  split := by
    have hload : load.toList = ((load.map fun a => (s.next, a)).toList).map Prod.snd := by
      cases load with
      | none => rfl
      | some a => rfl
    simp only [Link.post, List.map_append, ← hload]
    rw [h.split, List.append_assoc]
  carried := by
    intro o ho
    simp only [Link.post, List.mem_append] at ho ⊢
    rcases ho with ho | ho
    · exact .inl (h.carried o ho)
    · cases load with
      | none => exact absurd ho List.not_mem_nil
      | some a =>
          simp only [Option.map_some, Option.toList_some, List.mem_singleton] at ho
          rw [ho]
          exact .inr (List.mem_singleton.mpr rfl)
  fresh := by
    intro o ho
    simp only [Link.post, List.mem_append] at ho
    rcases ho with ho | ho
    · exact h.fresh o ho
    · cases load with
      | none => exact absurd ho List.not_mem_nil
      | some a =>
          simp only [Option.map_some, Option.toList_some, List.mem_singleton] at ho
          rw [ho]
          exact h.above s.next (Nat.le_refl _)
  below := by
    intro p hp
    simp only [Link.post, List.mem_append, List.mem_singleton] at hp
    rcases hp with hp | hp
    · exact Nat.lt_succ_of_lt (h.below p hp)
    · rw [hp]
      exact Nat.lt_succ_self _
  above := fun g hg => h.above g (Nat.le_of_succ_le hg)
  same := by
    intro p hp q hq hpq
    simp only [Link.post, List.mem_append, List.mem_singleton] at hp hq
    rcases hp with hp | hp
    · rcases hq with hq | hq
      · exact h.same p hp q hq hpq
      · have hlt := h.below p hp
        rw [hpq, hq] at hlt
        exact absurd hlt (Nat.lt_irrefl _)
    · rcases hq with hq | hq
      · have hlt := h.below q hq
        rw [← hpq, hp] at hlt
        exact absurd hlt (Nat.lt_irrefl _)
      · rw [hp, hq]
  claimed := by
    intro p hp a hload hfresh
    simp only [Link.post, List.mem_append, List.mem_singleton] at hp ⊢
    rcases hp with hp | hp
    · exact .inl (h.claimed p hp a hload hfresh)
    · rw [hp] at hload ⊢
      have hsome : load = some a := hload
      rw [hsome]
      exact .inr (List.mem_singleton.mpr rfl)
  sorted := by
    simp only [Link.post, List.pairwise_append]
    refine ⟨h.sorted, ?_, ?_⟩
    · cases load with
      | none => exact List.Pairwise.nil
      | some a => exact List.pairwise_singleton _ _
    · intro o ho o' ho'
      cases load with
      | none => exact absurd ho' List.not_mem_nil
      | some a =>
          simp only [Option.map_some, Option.toList_some, List.mem_singleton] at ho'
          rw [ho']
          exact h.below _ (h.carried o ho)

/-- What a number leaves owed when it is that of the oldest item. -/
theorem filter_head {owed : List (Nat × α)} (h : owed.Pairwise fun o o' => o.1 < o'.1)
    (o : Nat × α) (hhead : owed.head? = some o) :
    owed = o :: owed.filter fun o' => o'.1 ≠ o.1 := by
  cases owed with
  | nil => exact absurd hhead nofun
  | cons o' rest =>
      rw [List.head?_cons, Option.some.injEq] at hhead
      subst hhead
      have hrest : rest.filter (fun p => p.1 ≠ o'.1) = rest := by
        rw [List.filter_eq_self]
        intro p hp
        have hlt := (List.pairwise_cons.mp h).1 p hp
        rw [decide_eq_true_eq]
        omega
      rw [List.filter_cons_of_neg (by simp only [ne_eq, not_true_eq_false, decide_false,
        Bool.false_eq_true, not_false_eq_true]), hrest]

/-- A parcel that is not owed leaves what is owed as it is. -/
theorem filter_other {owed : List (Nat × α)} (n : Nat) (h : ∀ o ∈ owed, o.1 ≠ n) :
    (owed.filter fun o => o.1 ≠ n) = owed := by
  rw [List.filter_eq_self]
  intro o ho
  rw [decide_eq_true_eq]
  exact h o ho

/-- An owed number is a parcel's that carries the load it is owed for. -/
theorem Ordered.load_eq (h : Ordered W s) (p : Parcel α) (hp : p ∈ s.flight)
    (o : Nat × α) (ho : o ∈ s.owed) (hnum : o.1 = p.number) : p.load = some o.2 := by
  rw [← h.same _ (h.carried o ho) p hp hnum]

/-- A parcel in order hands over the oldest item that is owed, or nothing. -/
theorem Ordered.arrive_cases (h : Ordered W s) (p : Parcel α) (hp : p ∈ s.flight)
    (hguard : ∀ o ∈ s.owed, o.1 = p.number → s.owed.head? = some o) :
    ((s.arrive W p).owed = s.owed ∧ (s.arrive W p).handed = s.handed) ∨
      ∃ o, o.1 = p.number ∧ s.owed = o :: (s.arrive W p).owed ∧
        (s.arrive W p).handed = s.handed ++ [o.2] := by
  by_cases howed : ∃ o ∈ s.owed, o.1 = p.number
  · rcases howed with ⟨o, ho, hnum⟩
    have hfresh := h.fresh o ho
    have heq := filter_head h.sorted o (hguard o ho hnum)
    rw [hnum] at hfresh heq
    refine .inr ⟨o, hnum, heq, ?_⟩
    simp only [Link.arrive, hfresh, if_true, h.load_eq p hp o ho hnum, Option.toList_some]
  · have hother : ∀ o ∈ s.owed, o.1 ≠ p.number := fun o ho hnum => howed ⟨o, ho, hnum⟩
    refine .inl ⟨filter_other _ hother, ?_⟩
    by_cases hfresh : W.fresh s.window p.number = true
    · -- A load that is fresh would be owed.
      cases hload : p.load with
      | none =>
          simp only [Link.arrive, hfresh, if_true, hload, Option.toList_none, List.append_nil]
      | some a => exact absurd rfl (hother _ (h.claimed p hp a hload hfresh))
    · simp only [Link.arrive, hfresh, Bool.false_eq_true, if_false]

theorem Ordered.arrive (h : Ordered W s) (p : Parcel α) (hp : p ∈ s.flight)
    (hguard : ∀ o ∈ s.owed, (o.1 = p.number → s.owed.head? = some o) ∧
      p.number < o.1 + W.width) :
    Ordered W (s.arrive W p) where
  split := by
    have hsplit := h.split
    rcases h.arrive_cases p hp fun o ho => (hguard o ho).1 with ⟨howed, hhanded⟩ | ⟨o, _, howed, hhanded⟩
    · rw [howed, hhanded]
      exact hsplit
    · rw [howed] at hsplit
      rw [hhanded, List.append_assoc]
      exact hsplit
  carried := fun o ho => h.carried o (List.mem_of_mem_filter ho)
  fresh := by
    intro o ho
    have hmem := List.mem_of_mem_filter ho
    have hne : o.1 ≠ p.number := of_decide_eq_true (List.mem_filter.mp ho).2
    exact (W.law _ _ _).mpr ⟨h.fresh o hmem, hne.symm, (hguard o hmem).2⟩
  below := h.below
  above := by
    intro g hg
    have hlt := h.below p hp
    have hg' : s.next ≤ g := hg
    exact (W.law _ _ _).mpr ⟨h.above g hg, by omega, by omega⟩
  same := h.same
  claimed := by
    intro q hq a hload hfresh
    have hlaw := (W.law _ _ _).mp hfresh
    exact List.mem_filter.mpr ⟨h.claimed q hq a hload hlaw.1, decide_eq_true hlaw.2.1.symm⟩
  sorted := h.sorted.filter _

theorem Ordered.drop (h : Ordered W s) (i : Nat) (p : Parcel α)
    (hp : s.flight[i]? = some p) (hguard : ∀ o ∈ s.owed, o.1 ≠ p.number) :
    Ordered W { s with flight := s.flight.eraseIdx i } where
  split := h.split
  carried := by
    intro o ho
    have hmem := h.carried o ho
    rw [List.mem_eraseIdx_iff_getElem?]
    rcases List.getElem?_of_mem hmem with ⟨j, hj⟩
    refine ⟨j, ?_, hj⟩
    intro hji
    rw [hji, hp, Option.some.injEq] at hj
    rw [hj] at hguard
    exact hguard o ho rfl
  fresh := h.fresh
  below := fun q hq => h.below q (List.mem_of_mem_eraseIdx hq)
  above := h.above
  same := fun q hq r hr => h.same q (List.mem_of_mem_eraseIdx hq) r (List.mem_of_mem_eraseIdx hr)
  claimed := fun q hq => h.claimed q (List.mem_of_mem_eraseIdx hq)
  sorted := h.sorted

/-- A step in order keeps the invariant. -/
theorem Ordered.step {s t : Link σ α} {l : Option (Label α)} (h : Ordered W s)
    (hguard : InOrder W s l) (hstep : s.step W l = some t) : Ordered W t := by
  match l, hguard, hstep with
  | none, _, hstep =>
      rw [Link.step, Option.some.injEq] at hstep
      rw [← hstep]
      exact h
  | some (.send load), _, hstep =>
      rw [Link.step, Option.some.injEq] at hstep
      rw [← hstep]
      exact h.post load
  | some (.deliver i), hguard, hstep =>
      rw [Link.step, Option.map_eq_some_iff] at hstep
      rcases hstep with ⟨p, hp, ht⟩
      rw [← ht]
      exact h.arrive p (List.mem_of_getElem? hp) (hguard p hp)
  | some (.drop i), hguard, hstep =>
      rw [Link.step, Option.map_eq_some_iff] at hstep
      rcases hstep with ⟨p, hp, ht⟩
      rw [← ht]
      exact h.drop i p hp (hguard p hp)

theorem Ordered.handed_le (h : Ordered W s) : s.handed <+: s.sent :=
  ⟨_, h.split.symm⟩

/-! ## What a run hands over -/

/-- The `k`-th item sent is owed, in its place. -/
def OwedAt (k : Nat) (o : Nat × α) (s : Link σ α) : Prop :=
  s.handed.length ≤ k ∧ s.owed[k - s.handed.length]? = some o

/-- An item that is owed stays owed until it is handed over. -/
theorem OwedAt.step {s t : Link σ α} {l : Option (Label α)} {k : Nat} {o : Nat × α}
    (howed : OwedAt k o s) (h : Ordered W s) (hguard : InOrder W s l)
    (hstep : s.step W l = some t) (hk : t.handed.length ≤ k) : OwedAt k o t := by
  refine ⟨hk, ?_⟩
  match l, hguard, hstep with
  | none, _, hstep =>
      rw [Link.step, Option.some.injEq] at hstep
      rw [← hstep]
      exact howed.2
  | some (.send load), _, hstep =>
      rw [Link.step, Option.some.injEq] at hstep
      rw [← hstep]
      exact List.getElem?_append_left (List.getElem?_eq_some_iff.mp howed.2).1 ▸ howed.2
  | some (.deliver i), hguard, hstep =>
      rw [Link.step, Option.map_eq_some_iff] at hstep
      rcases hstep with ⟨p, hp, ht⟩
      rw [← ht] at hk ⊢
      rcases h.arrive_cases p (List.mem_of_getElem? hp) fun o ho => (hguard p hp o ho).1 with
        ⟨heq, hhanded⟩ | ⟨o', _, heq, hhanded⟩
      · rw [heq, hhanded]
        exact howed.2
      · -- The oldest item is gone, and the place moves up with it.
        have hat := howed.2
        rw [hhanded, List.length_append, List.length_singleton] at hk ⊢
        have hplace : k - s.handed.length = k - (s.handed.length + 1) + 1 := by omega
        rw [heq, hplace, List.getElem?_cons_succ] at hat
        exact hat
  | some (.drop i), _, hstep =>
      rw [Link.step, Option.map_eq_some_iff] at hstep
      rcases hstep with ⟨p, _, ht⟩
      rw [← ht]
      exact howed.2

/-- Every parcel under way arrives or is dropped, then or later. -/
def Arrives (e : Execution (Link.step W) (InOrder W) (S := Link σ α)) : Prop :=
  ∀ n, ∀ p ∈ (e.state n).flight, ∃ m, n ≤ m ∧ ∃ i, (e.state m).flight[i]? = some p ∧
    (e.label m = some (.deliver i) ∨ e.label m = some (.drop i))

theorem ordered_all (e : Execution (Link.step W) (InOrder W) (S := Link σ α))
    (h0 : Ordered W (e.state 0)) (n : Nat) : Ordered W (e.state n) :=
  e.invariant (fun _ _ _ h hg hs => h.step hg hs) h0 n

/-- What is handed over is a prefix of what was sent, at all times. -/
theorem handed_isPrefix (e : Execution (Link.step W) (InOrder W) (S := Link σ α))
    (h0 : Ordered W (e.state 0)) (n : Nat) : (e.state n).handed <+: (e.state n).sent :=
  (ordered_all e h0 n).handed_le

/-- Everything that is sent is handed over in the end. -/
theorem handed_all (e : Execution (Link.step W) (InOrder W) (S := Link σ α))
    (h0 : Ordered W (e.state 0)) (harr : Arrives e) (n k : Nat)
    (hk : k < (e.state n).sent.length) : ∃ m, k < (e.state m).handed.length := by
  by_contra hnever
  have hle : ∀ m, (e.state m).handed.length ≤ k := fun m =>
    Nat.le_of_not_lt fun h => hnever ⟨m, h⟩
  -- The item is owed at this time, and so for ever.
  have hlen : k - (e.state n).handed.length < (e.state n).owed.length := by
    have hsplit := congrArg List.length (ordered_all e h0 n).split
    rw [List.length_append, List.length_map] at hsplit
    have := hle n
    omega
  rcases List.getElem?_eq_some_iff.mpr ⟨hlen, rfl⟩ with hat
  have howed : ∀ m, n ≤ m → OwedAt k ((e.state n).owed[k - (e.state n).handed.length]) (e.state m) :=
    e.grows n (fun m _ h => h.step (ordered_all e h0 m) (e.guarded m) (e.stepped m) (hle (m + 1)))
      ⟨hle n, hat⟩
  generalize (e.state n).owed[k - (e.state n).handed.length] = o at howed
  -- Its parcel arrives, or is dropped, at some time; a parcel that is owed is not dropped.
  have hmem : ∀ m, n ≤ m → o ∈ (e.state m).owed := fun m hm => List.mem_of_getElem? (howed m hm).2
  rcases harr n _ ((ordered_all e h0 n).carried o (hmem n (Nat.le_refl n))) with
    ⟨m, hm, i, hi, hlabel⟩
  have hord := ordered_all e h0 m
  have hguard := e.guarded m
  have hstep := e.stepped m
  rcases hlabel with hlabel | hlabel
  · rw [hlabel] at hguard hstep
    rw [Link.step, hi, Option.map_some, Option.some.injEq] at hstep
    have hnext := hle (m + 1)
    rw [← hstep] at hnext
    rcases hord.arrive_cases _ (List.mem_of_getElem? hi) fun o' ho' => (hguard _ hi o' ho').1 with
      ⟨heq, _⟩ | ⟨o', hnum, heq, hhanded⟩
    · have hin := hmem m hm
      rw [← heq] at hin
      exact absurd rfl (of_decide_eq_true (List.mem_filter.mp hin).2)
    · -- It is the oldest, so the next to be handed over is the `k`-th.
      have hhead := (hguard _ hi o (hmem m hm)).1 rfl
      rw [heq, List.head?_cons, Option.some.injEq] at hhead
      have hat' := (howed m hm).2
      rw [heq, hhead] at hat'
      have hplace : k - (e.state m).handed.length = 0 := by
        by_contra hpos
        rcases Nat.exists_eq_succ_of_ne_zero hpos with ⟨j, hj⟩
        rw [hj, List.getElem?_cons_succ] at hat'
        have hsorted := hord.sorted
        rw [heq, hhead] at hsorted
        exact Nat.lt_irrefl _ ((List.pairwise_cons.mp hsorted).1 o (List.mem_of_getElem? hat'))
      rw [hhanded, List.length_append, List.length_singleton] at hnext
      have := hle m
      omega
  · rw [hlabel] at hguard
    exact absurd rfl (hguard _ hi o (hmem m hm))

end Link

end Acceptance

end EarthRise
