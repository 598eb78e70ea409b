import Mathlib.Data.List.Basic
import Mathlib.Data.List.Induction
import Mathlib.Data.List.Nodup
import Mathlib.Data.List.Perm.Basic

/-!
# Work Dealt to a Pool

Jobs that are dealt out in turn to a number of workers, done hand by hand, and
whose results are gathered back in the jobs' order.

Dealing and gathering undo each other for any number of hands. That the work comes
out as if it had been done in order needs one thing of the jobs: two different ones
do not see each other. Then a job's result is what it would be alone, and the state
after a list of jobs does not depend on their order.

## Main definitions

* `deal`, `gather`: Items out to the hands and back.
* `serial`, `workers`: Jobs one after another, and hand after hand.
* `Independent`: Jobs that do not see each other.

## Theorems

* `gather_deal`: What was dealt is gathered in order.
* `serial_results`, `serial_perm`: Independent jobs in any order.
* `gather_workers`: The pool against one worker.
-/

namespace EarthRise

namespace Pool

/-! ## Dealing and gathering -/

section Deal

variable {α β : Type*}

/-- Deal items to `w` hands in turn. -/
def deal (w : Nat) (xs : List α) : List (List α) :=
  xs.zipIdx.foldl (fun hands x => hands.modify (x.2 % w) (· ++ [x.1])) (List.replicate w [])

/-- Take `n` items from the hands in turn, from turn `i` on, each from its hand's
    cursor; `none` if a hand has none there. -/
def gatherFrom (hands : List (List α)) : Nat → Nat → List Nat → Option (List α)
  | 0, _, _ => some []
  | n + 1, i, cursor =>
      let w := i % hands.length
      match (hands.getD w [])[cursor.getD w 0]? with
      | none => none
      | some x => (gatherFrom hands n (i + 1) (cursor.modify w (· + 1))).map (x :: ·)

def gather (n : Nat) (hands : List (List α)) : Option (List α) :=
  gatherFrom hands n 0 (List.replicate hands.length 0)

theorem deal_nil (w : Nat) : deal w ([] : List α) = List.replicate w [] := rfl

theorem deal_snoc (w : Nat) (xs : List α) (x : α) :
    deal w (xs ++ [x]) = (deal w xs).modify (xs.length % w) (· ++ [x]) := by
  unfold deal
  rw [List.zipIdx_append, List.foldl_append, Nat.zero_add]
  rfl

theorem length_deal (w : Nat) (xs : List α) : (deal w xs).length = w := by
  induction xs using List.reverseRecOn with
  | nil => rw [deal_nil, List.length_replicate]
  | append_singleton xs x ih => rw [deal_snoc, List.length_modify, ih]

theorem map_modify (f : α → α) (g : β → β) (h : α → β) (hfg : ∀ a, h (f a) = g (h a))
    (l : List α) (i : Nat) : (l.modify i f).map h = (l.map h).modify i g := by
  induction l generalizing i with
  | nil => rw [List.modify_nil, List.map_nil, List.modify_nil]
  | cons a l ih =>
      cases i with
      | zero => rw [List.modify_zero_cons, List.map_cons, List.map_cons, List.modify_zero_cons, hfg]
      | succ i =>
          rw [List.modify_succ_cons, List.map_cons, List.map_cons, List.modify_succ_cons, ih]

theorem deal_map (w : Nat) (g : α → β) (xs : List α) :
    deal w (xs.map g) = (deal w xs).map (List.map g) := by
  induction xs using List.reverseRecOn with
  | nil => rw [List.map_nil, deal_nil, deal_nil, List.map_replicate, List.map_nil]
  | append_singleton xs x ih =>
      rw [List.map_append, List.map_singleton, deal_snoc, deal_snoc, ih, List.length_map,
        map_modify _ (· ++ [g x]) (List.map g)]
      intro hand
      rw [List.map_append, List.map_singleton]

/-- One hand. -/
def hand (w j : Nat) (xs : List α) : List α := (deal w xs).getD j []

theorem hand_snoc (w j : Nat) (hj : j < w) (xs : List α) (x : α) :
    hand w j (xs ++ [x]) = if xs.length % w = j then hand w j xs ++ [x] else hand w j xs := by
  have hlen : j < (deal w xs).length := by rw [length_deal]; exact hj
  unfold hand
  rw [deal_snoc, List.getD_eq_getElem?_getD, List.getD_eq_getElem?_getD, List.getElem?_modify,
    List.getElem?_eq_getElem hlen]
  by_cases h : xs.length % w = j
  · simp only [h, if_true]
    rfl
  · simp only [h, if_false]
    rfl

/-- Dealing on only adds to a hand. -/
theorem hand_prefix (w j : Nat) (hj : j < w) (xs ys : List α) :
    hand w j xs <+: hand w j (xs ++ ys) := by
  induction ys using List.reverseRecOn with
  | nil => exact ⟨[], by rw [List.append_nil, List.append_nil]⟩
  | append_singleton ys y ih =>
      rw [← List.append_assoc, hand_snoc w j hj]
      split
      · exact ih.trans (List.prefix_append _ _)
      · exact ih

/-- The cursors stand behind what has been taken. -/
theorem gatherFrom_deal (w : Nat) (hw : 0 < w) (taken left : List α) :
    gatherFrom (deal w (taken ++ left)) left.length taken.length
      ((deal w taken).map List.length) = some left := by
  induction left generalizing taken with
  | nil => rfl
  | cons x left ih =>
      have hj : taken.length % w < w := Nat.mod_lt _ hw
      have hcursor : ((deal w taken).map List.length).getD (taken.length % w) 0 =
          (hand w (taken.length % w) taken).length := by
        unfold hand
        rw [List.getD_eq_getElem?_getD, List.getD_eq_getElem?_getD, List.getElem?_map]
        cases (deal w taken)[taken.length % w]? <;> rfl
      have hnext : (hand w (taken.length % w) (taken ++ x :: left))[
          (hand w (taken.length % w) taken).length]? = some x := by
        have hpre := hand_prefix w _ hj (taken ++ [x]) left
        rw [List.append_assoc, List.singleton_append, hand_snoc w _ hj, if_pos rfl] at hpre
        rcases hpre with ⟨tail, htail⟩
        rw [← htail, List.append_assoc, List.getElem?_append_right (Nat.le_refl _), Nat.sub_self]
        rfl
      have hdealt : ((deal w taken).map List.length).modify (taken.length % w) (· + 1) =
          (deal w (taken ++ [x])).map List.length := by
        rw [deal_snoc, map_modify _ (· + 1) List.length]
        intro h
        rw [List.length_append, List.length_singleton]
      have hrest := ih (taken ++ [x])
      rw [List.append_assoc, List.singleton_append, List.length_append, List.length_singleton]
        at hrest
      unfold hand at hnext
      rw [List.length_cons]
      unfold gatherFrom
      simp only [length_deal]
      rw [hcursor]
      unfold hand
      rw [hnext]
      simp only [hdealt, hrest, Option.map_some]

/-- What was dealt is gathered in order. -/
theorem gather_deal (w : Nat) (hw : 0 < w) (xs : List α) :
    gather xs.length (deal w xs) = some xs := by
  have h := gatherFrom_deal w hw [] xs
  rw [deal_nil, List.map_replicate, List.length_nil, List.nil_append] at h
  unfold gather
  rw [length_deal]
  exact h

/-- The hands hold the items, and each once. -/
theorem flatten_deal (w : Nat) (hw : 0 < w) (xs : List α) : (deal w xs).flatten.Perm xs := by
  induction xs using List.reverseRecOn with
  | nil =>
      rw [deal_nil, List.flatten_replicate_nil]
  | append_singleton xs x ih =>
      have hlt : xs.length % w < (deal w xs).length := by
        rw [length_deal]
        exact Nat.mod_lt _ hw
      have hsplit : (deal w xs).flatten =
          ((deal w xs).take (xs.length % w)).flatten ++
            ((deal w xs)[xs.length % w] ++ ((deal w xs).drop (xs.length % w + 1)).flatten) := by
        conv_lhs => rw [← List.take_append_drop (xs.length % w) (deal w xs),
          List.drop_eq_getElem_cons hlt]
        rw [List.flatten_append, List.flatten_cons]
      rw [hsplit] at ih
      rw [deal_snoc, List.modify_eq_take_cons_drop hlt, List.flatten_append, List.flatten_cons]
      refine List.Perm.trans ?_ (ih.append_right [x])
      rw [List.append_assoc, List.append_assoc, List.append_assoc]
      refine List.Perm.append_left _ (List.Perm.append_left _ ?_)
      exact List.perm_append_comm

end Deal

/-! ## Independent jobs -/

section Jobs

variable {K S R : Type*} (f : K → S → R × S)

/-- Different jobs do not see each other, and their effects exchange. -/
structure Independent : Prop where
  result : ∀ k k' s, k ≠ k' → (f k (f k' s).2).1 = (f k s).1
  commute : ∀ k k' s, k ≠ k' → (f k (f k' s).2).2 = (f k' (f k s).2).2

/-- Jobs one after another: the results and the state. -/
def serial : S → List K → List R × S
  | s, [] => ([], s)
  | s, k :: ks => ((f k s).1 :: (serial (f k s).2 ks).1, (serial (f k s).2 ks).2)

/-- Hands one after another. -/
def workers : S → List (List K) → List (List R) × S
  | s, [] => ([], s)
  | s, ks :: hands =>
      ((serial f s ks).1 :: (workers (serial f s ks).2 hands).1,
        (workers (serial f s ks).2 hands).2)

theorem serial_cons (s : S) (k : K) (ks : List K) :
    serial f s (k :: ks) =
      ((f k s).1 :: (serial f (f k s).2 ks).1, (serial f (f k s).2 ks).2) := rfl

theorem workers_cons (s : S) (ks : List K) (hands : List (List K)) :
    workers f s (ks :: hands) =
      ((serial f s ks).1 :: (workers f (serial f s ks).2 hands).1,
        (workers f (serial f s ks).2 hands).2) := rfl

theorem serial_append_state (s : S) (ks ks' : List K) :
    (serial f s (ks ++ ks')).2 = (serial f (serial f s ks).2 ks').2 := by
  induction ks generalizing s with
  | nil => rfl
  | cons k ks ih => exact ih (f k s).2

theorem workers_state (s : S) (hands : List (List K)) :
    (workers f s hands).2 = (serial f s hands.flatten).2 := by
  induction hands generalizing s with
  | nil => rfl
  | cons ks hands ih =>
      rw [List.flatten_cons, serial_append_state]
      exact ih _

variable {f}

/-- A job's result after jobs that are not it. -/
theorem Independent.result_after (h : Independent f) (ks : List K) (k : K) (hk : k ∉ ks) (s : S) :
    (f k (serial f s ks).2).1 = (f k s).1 := by
  induction ks generalizing s with
  | nil => rfl
  | cons k' ks ih =>
      rw [List.mem_cons, not_or] at hk
      calc (f k (serial f s (k' :: ks)).2).1
          = (f k (serial f (f k' s).2 ks).2).1 := rfl
        _ = (f k (f k' s).2).1 := ih hk.2 _
        _ = (f k s).1 := h.result k k' s hk.1

theorem serial_results (h : Independent f) (ks : List K) (hnodup : ks.Nodup) (s : S) :
    (serial f s ks).1 = ks.map fun k => (f k s).1 := by
  induction ks generalizing s with
  | nil => rfl
  | cons k ks ih =>
      rw [List.nodup_cons] at hnodup
      have htail : (serial f (f k s).2 ks).1 = ks.map fun k => (f k s).1 := by
        rw [ih hnodup.2]
        refine List.map_congr_left fun k' hk' => h.result k' k s ?_
        exact fun heq => hnodup.1 (heq ▸ hk')
      rw [serial_cons, List.map_cons, htail]

theorem serial_perm (h : Independent f) {ks ks' : List K} (hperm : ks.Perm ks')
    (hnodup : ks.Nodup) (s : S) : (serial f s ks).2 = (serial f s ks').2 := by
  induction hperm generalizing s with
  | nil => rfl
  | cons k _ ih => exact ih (List.nodup_cons.mp hnodup).2 (f k s).2
  | swap k k' ks =>
      have hne : k ≠ k' := by
        intro heq
        rw [heq] at hnodup
        exact (List.nodup_cons.mp hnodup).1 List.mem_cons_self
      calc (serial f s (k' :: k :: ks)).2
          = (serial f (f k (f k' s).2).2 ks).2 := rfl
        _ = (serial f (f k' (f k s).2).2 ks).2 := by rw [h.commute k k' s hne]
        _ = (serial f s (k :: k' :: ks)).2 := rfl
  | trans hp _ ih ih' => exact (ih hnodup s).trans (ih' (hp.nodup_iff.mp hnodup) s)

theorem workers_results (h : Independent f) (hands : List (List K))
    (hnodup : hands.flatten.Nodup) (s : S) :
    (workers f s hands).1 = hands.map (List.map fun k => (f k s).1) := by
  induction hands generalizing s with
  | nil => rfl
  | cons ks hands ih =>
      rw [List.flatten_cons, List.nodup_append] at hnodup
      rcases hnodup with ⟨hks, hrest, hdisjoint⟩
      have hlater : (workers f (serial f s ks).2 hands).1 =
          hands.map (List.map fun k => (f k s).1) := by
        rw [ih hrest]
        refine List.map_congr_left fun other hother => List.map_congr_left fun k hk => ?_
        refine h.result_after ks k (fun hmem => ?_) s
        exact hdisjoint k hmem k (List.mem_flatten.mpr ⟨other, hother, hk⟩) rfl
      rw [workers_cons, List.map_cons, serial_results h ks hks, hlater]

/-- A pool gathers what one worker would have made, and leaves the state it would
    have left. -/
theorem gather_workers (h : Independent f) (ks : List K) (hnodup : ks.Nodup) (w : Nat)
    (hw : 0 < w) (s : S) :
    gather ks.length (workers f s (deal w ks)).1 = some (serial f s ks).1 ∧
      (workers f s (deal w ks)).2 = (serial f s ks).2 := by
  have hperm := flatten_deal w hw ks
  have hflat : (deal w ks).flatten.Nodup := hperm.nodup_iff.mpr hnodup
  refine ⟨?_, ?_⟩
  · have hgather := gather_deal w hw (ks.map fun k => (f k s).1)
    rw [List.length_map, deal_map] at hgather
    rw [workers_results h _ hflat, serial_results h ks hnodup]
    exact hgather
  · rw [workers_state]
    exact serial_perm h hperm hflat s

end Jobs

end Pool

end EarthRise
