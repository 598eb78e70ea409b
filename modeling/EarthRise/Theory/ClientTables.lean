import EarthRise.Core.ServerUniverse
import EarthRise.Theory.Snapshot

/-!
# What the Server Keeps for a Client

The effect of each operation on a client's tables, entity by entity.

`tombstonesFor` is the one that looks at the world: an acknowledged entity that
is out of sight loses its acknowledged version and its delta base and is marked,
and an entity in sight is unmarked. An acknowledgement folds what is staged up to
its tick, and the lemmas about it say where a folded version or state came from.

## Theorems

* `mem_absentFrom`: The walk over two ordered lists is a difference.
* `tombstonesFor_spec`: What becomes of each entity.
* `acked_ack`, `acked_ack_isSome`: Where the acknowledged versions come from.
* `find?_recordTombstonesSent`: Which tombstones a snapshot dates.
-/

namespace EarthRise

namespace Sim

/-! ## The walk -/

/-- What is below a bound is dropped from an ordered list and nothing else. -/
theorem mem_dropWhile_lt (l : List NetId) (n m : NetId) (hl : l.Pairwise (· < ·)) :
    m ∈ l.dropWhile (· < n) ↔ m ∈ l ∧ n ≤ m := by
  induction l with
  | nil => simp
  | cons x l ih =>
      rw [List.pairwise_cons] at hl
      rw [List.dropWhile_cons]
      by_cases hx : x < n
      · rw [if_pos (by simpa using hx), ih hl.2, List.mem_cons]
        constructor
        · rintro ⟨hm, hle⟩
          exact ⟨Or.inr hm, hle⟩
        · rintro ⟨rfl | hm, hle⟩
          · exact absurd hx (not_lt.mpr hle)
          · exact ⟨hm, hle⟩
      · rw [if_neg (by simpa using hx), List.mem_cons]
        constructor
        · rintro (rfl | hm)
          · exact ⟨Or.inl rfl, not_lt.mp hx⟩
          · exact ⟨Or.inr hm, le_of_lt (lt_of_le_of_lt (not_lt.mp hx) (hl.1 m hm))⟩
        · exact fun h => h.1

/-- The walk stands at an id exactly when the list has it. -/
theorem head?_dropWhile_lt (l : List NetId) (n : NetId) (hl : l.Pairwise (· < ·)) :
    (l.dropWhile (· < n)).head? = some n ↔ n ∈ l := by
  have hmem := mem_dropWhile_lt l n n hl
  constructor
  · intro h
    exact (hmem.mp (List.mem_of_mem_head? h)).1
  · intro h
    have hn := hmem.mpr ⟨h, le_refl n⟩
    cases hd : l.dropWhile (· < n) with
    | nil =>
        rw [hd] at hn
        exact absurd hn List.not_mem_nil
    | cons x rest =>
        have hx : x ∈ l.dropWhile (· < n) := by
          rw [hd]
          exact List.mem_cons_self
        have hle := ((mem_dropWhile_lt l n x hl).mp hx).2
        have hsorted : (x :: rest).Pairwise (· < ·) := hd ▸ hl.sublist (List.dropWhile_sublist _)
        rw [hd, List.mem_cons] at hn
        rcases hn with rfl | hn
        · rfl
        · exact absurd ((List.pairwise_cons.mp hsorted).1 n hn) (not_lt.mpr hle)

theorem mem_absentFrom (acked visible : List NetId) (n : NetId) (ha : acked.Pairwise (· < ·))
    (hv : visible.Pairwise (· < ·)) : n ∈ absentFrom acked visible ↔ n ∈ acked ∧ n ∉ visible := by
  induction acked generalizing visible with
  | nil => simp [absentFrom]
  | cons a acked ih =>
      rw [List.pairwise_cons] at ha
      have hrest : (visible.dropWhile (· < a)).Pairwise (· < ·) :=
        hv.sublist (List.dropWhile_sublist _)
      -- For the ids still to come nothing was dropped that they could be.
      have hih : n ∈ absentFrom acked (visible.dropWhile (· < a)) ↔ n ∈ acked ∧ n ∉ visible := by
        rw [ih _ ha.2 hrest, mem_dropWhile_lt visible a n hv]
        constructor
        · rintro ⟨hn, hnot⟩
          exact ⟨hn, fun h => hnot ⟨h, le_of_lt (ha.1 n hn)⟩⟩
        · rintro ⟨hn, hnot⟩
          exact ⟨hn, fun h => hnot h.1⟩
      unfold absentFrom
      simp only [head?_dropWhile_lt visible a hv]
      by_cases hvis : a ∈ visible
      · rw [if_pos hvis, hih, List.mem_cons]
        constructor
        · rintro ⟨hn, hnot⟩
          exact ⟨Or.inr hn, hnot⟩
        · rintro ⟨rfl | hn, hnot⟩
          · exact absurd hvis hnot
          · exact ⟨hn, hnot⟩
      · rw [if_neg hvis, List.mem_cons, hih, List.mem_cons]
        constructor
        · rintro (rfl | ⟨hn, hnot⟩)
          · exact ⟨Or.inl rfl, hvis⟩
          · exact ⟨Or.inr hn, hnot⟩
        · rintro ⟨rfl | hn, hnot⟩
          · exact Or.inl rfl
          · exact Or.inr ⟨hn, hnot⟩

/-! ## Tombstones -/

namespace ClientBaseline

theorem find?_tombstone (b : ClientBaseline) (n m : NetId) :
    (b.tombstone n).tombstones.find? m =
      if m = n then some ((b.tombstones.find? n).getD unsent) else b.tombstones.find? m := by
  unfold tombstone
  simp only [OrdMap.upsertAll, List.foldl_cons, List.foldl_nil]
  exact OrdMap.find?_insert _ _ _ _

theorem untombstone_fold (l : List NetId) (b : ClientBaseline) :
    (l.foldl untombstone b).acked = b.acked ∧ (l.foldl untombstone b).pending = b.pending ∧
      ∀ m, (l.foldl untombstone b).tombstones.find? m =
        if m ∈ l then none else b.tombstones.find? m := by
  induction l generalizing b with
  | nil => exact ⟨rfl, rfl, fun m => by simp⟩
  | cons n l ih =>
      rcases ih (b.untombstone n) with ⟨ha, hp, ht⟩
      refine ⟨ha, hp, fun m => ?_⟩
      rw [List.foldl_cons, ht, untombstone]
      simp only [OrdMap.find?_erase, List.mem_cons]
      by_cases hm : m ∈ l
      · rw [if_pos hm, if_pos (Or.inr hm)]
      · by_cases hn : m = n
        · rw [if_neg hm, if_pos hn, if_pos (Or.inl hn)]
        · rw [if_neg hm, if_neg hn, if_neg (by simp [hm, hn])]

/-- A snapshot dates the tombstones that it carries and no other one has. -/
theorem find?_recordTombstonesSent (b : ClientBaseline) (tick : Nat) (ids : List NetId)
    (ht : tick ≠ unsent) (m : NetId) :
    (b.recordTombstonesSent tick ids).tombstones.find? m =
      if m ∈ ids ∧ b.tombstones.find? m = some unsent then some tick
      else b.tombstones.find? m := by
  unfold recordTombstonesSent
  simp only
  generalize b.tombstones = ts
  induction ids generalizing ts with
  | nil => simp
  | cons n ids ih =>
      simp only [List.foldl_cons, ih, List.mem_cons]
      by_cases hn : ts.find? n = some unsent
      · rw [if_pos hn, OrdMap.find?_insert]
        by_cases hm : m = n
        · rw [if_pos hm, if_neg (by simp [ht]), if_pos ⟨Or.inl hm, hm ▸ hn⟩]
        · simp only [hm, false_or, if_false]
      · rw [if_neg hn]
        by_cases hm : m = n
        · have hm' : ¬ ts.find? m = some unsent := hm ▸ hn
          rw [if_neg (fun h => hm' h.2), if_neg (fun h => hm' h.2)]
        · simp only [hm, false_or]

end ClientBaseline

/-- Marking a list of entities for removal. -/
theorem tombstone_fold (l : List NetId) (t : ClientTables) (m : NetId) :
    let t' := l.foldl
      (fun t n => { t with baseline := t.baseline.tombstone n, known := t.known.forget n }) t
    t'.baseline.acked.find? m = (if m ∈ l then none else t.baseline.acked.find? m) ∧
    t'.known.known.find? m = (if m ∈ l then none else t.known.known.find? m) ∧
    t'.baseline.tombstones.find? m = (if m ∈ l then
      some ((t.baseline.tombstones.find? m).getD unsent) else t.baseline.tombstones.find? m) ∧
    t'.baseline.pending = t.baseline.pending ∧ t'.known.pending = t.known.pending ∧
    t'.lastSent = t.lastSent := by
  induction l generalizing t with
  | nil => simp
  | cons n l ih =>
      have h := ih { t with baseline := t.baseline.tombstone n, known := t.known.forget n }
      simp only [List.foldl_cons, List.mem_cons] at h ⊢
      rcases h with ⟨ha, hk, ht, hp, hkp, hl⟩
      have hacked : (t.baseline.tombstone n).acked.find? m =
          if m = n then none else t.baseline.acked.find? m := OrdMap.find?_erase _ _ _
      have hknown : (t.known.forget n).known.find? m =
          if m = n then none else t.known.known.find? m := OrdMap.find?_erase _ _ _
      refine ⟨?_, ?_, ?_, hp, hkp, hl⟩
      · rw [ha, hacked]
        by_cases hn : m = n <;> simp [hn]
      · rw [hk, hknown]
        by_cases hn : m = n <;> simp [hn]
      · rw [ht, ClientBaseline.find?_tombstone]
        by_cases hn : m = n
        · subst hn
          by_cases hm : m ∈ l <;> simp [hm]
        · simp [hn]

namespace ServerUniverse

/-- What `tombstonesFor` makes of the tables, entity by entity. -/
structure Tombstoned (u : ServerUniverse) (clientId : NetId) (t t' : ClientTables) : Prop where
  acked : ∀ n, t'.baseline.acked.find? n =
    if n ∈ u.interest.visibleTo clientId then t.baseline.acked.find? n else none
  known : ∀ n, t'.known.known.find? n =
    if n ∉ u.interest.visibleTo clientId ∧ (t.baseline.acked.find? n).isSome = true then none
    else t.known.known.find? n
  tombstones : ∀ n, t'.baseline.tombstones.find? n =
    if n ∈ u.interest.visibleTo clientId then none
    else if (t.baseline.acked.find? n).isSome = true then
      some ((t.baseline.tombstones.find? n).getD unsent)
    else t.baseline.tombstones.find? n
  pending : t'.baseline.pending = t.baseline.pending
  knownPending : t'.known.pending = t.known.pending
  lastSent : t'.lastSent = t.lastSent

theorem tombstonesFor_spec (u : ServerUniverse) (clientId : NetId) (t : ClientTables) :
    Tombstoned u clientId t (u.tombstonesFor clientId t).2 ∧
      (u.tombstonesFor clientId t).1 =
        (u.tombstonesFor clientId t).2.baseline.tombstones.keys := by
  have habs : ∀ n, n ∈ absentFrom t.baseline.acked.keys (u.interest.visibleTo clientId) ↔
      (t.baseline.acked.find? n).isSome = true ∧ n ∉ u.interest.visibleTo clientId := by
    intro n
    have hs : (u.interest.visibleTo clientId).Pairwise (· < ·) := OrdMap.keys_sorted _
    rw [mem_absentFrom _ _ n (OrdMap.keys_sorted _) hs, OrdMap.mem_keys]
  have hfold := tombstone_fold (absentFrom t.baseline.acked.keys
    (u.interest.visibleTo clientId)) t
  unfold tombstonesFor
  simp only at hfold ⊢
  generalize (absentFrom t.baseline.acked.keys (u.interest.visibleTo clientId)).foldl
    (fun t n => { t with baseline := t.baseline.tombstone n, known := t.known.forget n }) t = t1
    at hfold ⊢
  rcases ClientBaseline.untombstone_fold (u.interest.visibleTo clientId) t1.baseline with
    ⟨hua, hup, hut⟩
  simp only [habs] at hfold
  refine ⟨⟨?_, ?_, ?_, ?_, (hfold 0).2.2.2.2.1, (hfold 0).2.2.2.2.2⟩, trivial⟩
  · intro n
    rw [hua, (hfold n).1]
    by_cases hv : n ∈ u.interest.visibleTo clientId
    · rw [if_neg (fun h => h.2 hv), if_pos hv]
    · rw [if_neg hv]
      cases h : t.baseline.acked.find? n with
      | none => simp
      | some a => simp [hv]
  · intro n
    rw [(hfold n).2.1]
    simp only [and_comm]
  · intro n
    rw [hut, (hfold n).2.2.1]
    by_cases hv : n ∈ u.interest.visibleTo clientId
    · rw [if_pos hv, if_pos hv]
    · rw [if_neg hv, if_neg hv]
      simp only [hv, not_false_eq_true, and_true]
  · rw [hup]
    exact (hfold 0).2.2.2.1

end ServerUniverse

/-! ## Staging -/

/-- What a recording stages is new or was staged. -/
theorem find?_recordSent (b : ClientBaseline) (tick : Nat) (sent : List (NetId × Nat)) (s : Nat)
    (l : List (NetId × Nat)) (h : (b.recordSent tick sent).pending.find? s = some l) :
    (s = tick ∧ l = sent) ∨ b.pending.find? s = some l := by
  unfold ClientBaseline.recordSent at h
  by_cases hs : sent = []
  · rw [if_pos hs] at h
    exact Or.inr h
  · rw [if_neg hs] at h
    have h' := OrdMap.find?_dropOldest _ _ _ _ h
    rw [OrdMap.find?_insert] at h'
    by_cases ht : s = tick
    · rw [if_pos ht, Option.some.injEq] at h'
      exact Or.inl ⟨ht, h'.symm⟩
    · rw [if_neg ht] at h'
      exact Or.inr h'

theorem mem_baselineStaged (b : ClientBaseline) (tick : Nat) (e : NetId × Nat) :
    e ∈ b.staged tick ↔ ∃ s l, b.pending.find? s = some l ∧ s ≤ tick ∧ e ∈ l := by
  unfold ClientBaseline.staged
  rw [List.mem_flatMap]
  constructor
  · rintro ⟨x, hx, he⟩
    rw [List.mem_filter] at hx
    exact ⟨x.1, x.2, (OrdMap.mem_entries _ _ _).mp hx.1, of_decide_eq_true hx.2, he⟩
  · rintro ⟨s, l, hl, hs, he⟩
    exact ⟨(s, l), List.mem_filter.mpr ⟨(OrdMap.mem_entries _ _ _).mpr hl, decide_eq_true hs⟩, he⟩

theorem mem_knownStaged (k : ClientKnownState) (tick : Nat) (e : SnapshotEntity) :
    e ∈ k.staged tick ↔ ∃ s l, k.pending.find? s = some l ∧ s ≤ tick ∧ e ∈ l := by
  unfold ClientKnownState.staged
  rw [List.mem_flatMap]
  constructor
  · rintro ⟨x, hx, he⟩
    rw [List.mem_filter] at hx
    exact ⟨x.1, x.2, (OrdMap.mem_entries _ _ _).mp hx.1, of_decide_eq_true hx.2, he⟩
  · rintro ⟨s, l, hl, hs, he⟩
    exact ⟨(s, l), List.mem_filter.mpr ⟨(OrdMap.mem_entries _ _ _).mpr hl, decide_eq_true hs⟩, he⟩

/-! ## Acknowledging -/

/-- Folding versions into an optional one takes their maximum. -/
theorem foldl_max (l : List (NetId × Nat)) (o : Option Nat) :
    (∀ a, l.foldl (fun o e => some (max (o.getD 0) e.2)) o = some a →
      o = some a ∨ ∃ e ∈ l, e.2 = a) ∧
    ((l.foldl (fun o e => some (max (o.getD 0) e.2)) o).isSome = true ↔
      o.isSome = true ∨ l ≠ []) ∧
    ∀ e ∈ l, ∃ a, l.foldl (fun o e => some (max (o.getD 0) e.2)) o = some a ∧ e.2 ≤ a := by
  have hmono : ∀ (l : List (NetId × Nat)) (b : Nat),
      ∃ a, l.foldl (fun o e => some (max (o.getD 0) e.2)) (some b) = some a ∧ b ≤ a := by
    intro l
    induction l with
    | nil => exact fun b => ⟨b, rfl, Nat.le_refl b⟩
    | cons x l ih =>
        intro b
        rcases ih (max b x.2) with ⟨a, ha, hle⟩
        exact ⟨a, ha, by omega⟩
  induction l generalizing o with
  | nil => simp
  | cons x l ih =>
      rcases ih (some (max (o.getD 0) x.2)) with ⟨h1, h2, h3⟩
      simp only [List.foldl_cons]
      refine ⟨?_, ?_, ?_⟩
      · intro a ha
        rcases h1 a ha with heq | ⟨e, he, hea⟩
        · rw [Option.some.injEq] at heq
          rcases Nat.le_total (o.getD 0) x.2 with hle | hle
          · exact Or.inr ⟨x, List.mem_cons_self, by omega⟩
          · cases o with
            | none =>
                rw [Option.getD_none] at hle heq
                exact Or.inr ⟨x, List.mem_cons_self, by omega⟩
            | some b =>
                rw [Option.getD_some] at hle heq
                rw [Nat.max_eq_left hle] at heq
                exact Or.inl (congrArg some heq)
        · exact Or.inr ⟨e, List.mem_cons_of_mem x he, hea⟩
      · simp [h2]
      · intro e he
        rcases List.mem_cons.mp he with rfl | he
        · rcases hmono l (max (o.getD 0) e.2) with ⟨a, ha, hle⟩
          exact ⟨a, ha, by omega⟩
        · exact h3 e he

namespace ClientBaseline

theorem find?_acked_ack (b : ClientBaseline) (tick : Nat) (n : NetId) :
    (b.ack tick).acked.find? n = ((b.staged tick).filter fun e => e.1 = n).foldl
      (fun o e => some (max (o.getD 0) e.2)) (b.acked.find? n) :=
  OrdMap.find?_upsertAll _ _ _ _

/-- An acknowledged version was acknowledged before or is folded. -/
theorem acked_ack (b : ClientBaseline) (tick : Nat) (n : NetId) (a : Nat)
    (h : (b.ack tick).acked.find? n = some a) :
    b.acked.find? n = some a ∨ (n, a) ∈ b.staged tick := by
  rw [find?_acked_ack] at h
  rcases (foldl_max _ _).1 a h with h | ⟨e, he, hea⟩
  · exact Or.inl h
  · rw [List.mem_filter] at he
    have hn : e.1 = n := of_decide_eq_true he.2
    rw [← hn, ← hea]
    exact Or.inr he.1

/-- The entities with an acknowledged version are those that had one and those
    with a folded version. -/
theorem acked_ack_isSome (b : ClientBaseline) (tick : Nat) (n : NetId) :
    ((b.ack tick).acked.find? n).isSome = true ↔
      (b.acked.find? n).isSome = true ∨ ∃ v, (n, v) ∈ b.staged tick := by
  rw [find?_acked_ack, (foldl_max _ _).2.1, ne_eq, List.filter_eq_nil_iff]
  constructor
  · rintro (h | h)
    · exact Or.inl h
    · push Not at h
      rcases h with ⟨e, he, hn⟩
      have hn' : e.1 = n := of_decide_eq_true hn
      exact Or.inr ⟨e.2, hn' ▸ he⟩
  · rintro (h | ⟨v, hv⟩)
    · exact Or.inl h
    · exact Or.inr fun hall => hall _ hv (decide_eq_true rfl)

/-- A folded version is acknowledged. -/
theorem le_acked_ack (b : ClientBaseline) (tick : Nat) (n : NetId) (v : Nat)
    (h : (n, v) ∈ b.staged tick) : ∃ a, (b.ack tick).acked.find? n = some a ∧ v ≤ a := by
  rw [find?_acked_ack]
  exact (foldl_max _ _).2.2 (n, v) (List.mem_filter.mpr ⟨h, decide_eq_true rfl⟩)

/-- An acknowledgement that folds nothing of an entity leaves its version. -/
theorem ackedVersion_ack (b : ClientBaseline) (tick : Nat) (n : NetId)
    (h : ∀ e ∈ b.staged tick, e.1 ≠ n) : (b.ack tick).ackedVersion n = b.ackedVersion n := by
  have hfilter : (b.staged tick).filter (fun e => e.1 = n) = [] := by
    rw [List.filter_eq_nil_iff]
    exact fun e he hn => h e he (of_decide_eq_true hn)
  unfold ackedVersion
  rw [find?_acked_ack, hfilter, List.foldl_nil]

/-- An acknowledgement clears the tombstones dated up to its tick. -/
theorem find?_tombstones_ack (b : ClientBaseline) (tick : Nat) (n : NetId) :
    (b.ack tick).tombstones.find? n =
      (b.tombstones.find? n).filter fun t => ¬ (t ≠ unsent ∧ t ≤ tick) :=
  OrdMap.find?_filter _ _ _

end ClientBaseline

namespace ClientKnownState

/-- The known entities are those that were known and those with a folded state. -/
theorem known_ack_isSome (k : ClientKnownState) (tick : Nat) (n : NetId) :
    ((k.ack tick).known.find? n).isSome = true ↔
      (k.known.find? n).isSome = true ∨ ∃ e ∈ k.staged tick, e.netId = n := by
  unfold ack
  simp only [OrdMap.find?_insertAll, Option.isSome_or, Bool.or_eq_true, Option.isSome_map,
    List.find?_isSome, List.mem_reverse, List.mem_map, decide_eq_true_eq]
  constructor
  · rintro (⟨x, ⟨e, he, rfl⟩, hn⟩ | h)
    · exact Or.inr ⟨e, he, hn⟩
    · exact Or.inl h
  · rintro (h | ⟨e, he, hn⟩)
    · exact Or.inr h
    · exact Or.inl ⟨_, ⟨e, he, rfl⟩, hn⟩

/-- An acknowledgement that folds nothing of an entity leaves its base. -/
theorem base_ack (k : ClientKnownState) (tick : Nat) (n : NetId)
    (h : ∀ e ∈ k.staged tick, e.netId ≠ n) : (k.ack tick).base n = k.base n := by
  unfold base ack
  refine OrdMap.find?_insertAll_of_not_mem _ _ n fun x hx => ?_
  rcases List.mem_map.mp hx with ⟨e, he, rfl⟩
  exact h e he

end ClientKnownState

end Sim

end EarthRise
