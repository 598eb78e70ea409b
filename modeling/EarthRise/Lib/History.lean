import Mathlib.Data.List.Basic

/-!
# Histories

Statements about a log of events that speak of what came before an event.

`Every P` asks `P` of each event and the events before it, so it is what a safety
property of a history is stated with: no event happens unless the history up to it allows
that. A history has it when its beginning has it and what was added is allowed where it
was added.

`Since x a` says that `a` happened and `x` did not happen afterwards, as in "has logged in
since the connection was opened".

`Pending` is the same for a machine, where the events that begin something and those that
end it are told by the state they meet.

## Main definitions

* `Every`: Each event is allowed by the history before it.
* `Since`: An event happened, and another one not after it.
* `Pending`: Something began in a run, and it did not end after that.

## Theorems

* `every_append`: Adding to a history.
* `Since.append`: An event that happened stays so until the other one happens.
* `pending_concat`: What is pending after one more event.
-/

namespace EarthRise

namespace History

variable {α : Type*} {P : List α → α → Prop} {log : List α}

/-- Each event is allowed by the history before it. -/
def Every (P : List α → α → Prop) (log : List α) : Prop :=
  ∀ pre a post, log = pre ++ a :: post → P pre a

/-- An event happened, and `x` did not happen after it. -/
def Since (x a : α) (log : List α) : Prop := ∃ l₁ l₂, log = l₁ ++ a :: l₂ ∧ x ∉ l₂

theorem every_nil (P : List α → α → Prop) : Every P [] := by
  intro pre a post h
  exact absurd h (by simp only [List.nil_eq, List.append_eq_nil_iff, reduceCtorEq, and_false,
    not_false_eq_true])

/-- Adding to a history. -/
theorem every_append {log l : List α} :
    Every P (log ++ l) ↔ Every P log ∧ Every (fun pre a => P (log ++ pre) a) l := by
  constructor
  · intro h
    refine ⟨fun pre a post heq => h pre a (post ++ l) ?_, fun pre a post heq => ?_⟩
    · rw [heq, List.append_assoc, List.cons_append]
    · refine h (log ++ pre) a post ?_
      rw [heq, List.append_assoc]
  · rintro ⟨hlog, hl⟩ pre a post heq
    rcases List.append_eq_append_iff.mp heq with ⟨mid, hpre, hmid⟩ | ⟨mid, hlog', hmid⟩
    · -- The event was added.
      rw [hpre]
      exact hl mid a post hmid
    · cases mid with
      | nil =>
          rw [List.append_nil] at hlog'
          have h : P (log ++ []) a := hl [] a post hmid.symm
          rwa [List.append_nil, hlog'] at h
      | cons b mid =>
          rw [List.cons_append, List.cons.injEq] at hmid
          exact hlog pre a mid (by rw [hlog', hmid.1])

theorem every_cons {a : α} {l : List α} :
    Every P (a :: l) ↔ P [] a ∧ Every (fun pre b => P (a :: pre) b) l := by
  constructor
  · refine fun h => ⟨h [] a l rfl, fun pre b post heq => h (a :: pre) b post ?_⟩
    rw [heq, List.cons_append]
  · rintro ⟨ha, hl⟩ pre b post heq
    cases pre with
    | nil =>
        rw [List.nil_append, List.cons.injEq] at heq
        rw [← heq.1]
        exact ha
    | cons c pre =>
        rw [List.cons_append, List.cons.injEq] at heq
        rw [← heq.1]
        exact hl pre b post heq.2

theorem Every.mono {P Q : List α → α → Prop} (h : Every P log)
    (hPQ : ∀ pre a, P pre a → Q pre a) : Every Q log :=
  fun pre a post heq => hPQ pre a (h pre a post heq)

theorem every_of_forall (h : ∀ pre, ∀ a ∈ log, P pre a) :
    Every P log := by
  intro pre a post heq
  refine h pre a ?_
  rw [heq]
  exact List.mem_append_right pre List.mem_cons_self

theorem Since.append {x a : α} (h : Since x a log) {l : List α} (hl : x ∉ l) :
    Since x a (log ++ l) := by
  rcases h with ⟨l₁, l₂, rfl, hx⟩
  refine ⟨l₁, l₂ ++ l, by rw [List.append_assoc, List.cons_append], fun hmem => ?_⟩
  exact (List.mem_append.mp hmem).elim hx hl

theorem since_concat (x a : α) (log : List α) : Since x a (log ++ [a]) :=
  ⟨log, [], rfl, List.not_mem_nil⟩

/-- What happened before other events happened before them all. -/
theorem Since.of_append {x a : α} {log l : List α} (h : Since x a (log ++ l)) (ha : a ∉ l) :
    Since x a log := by
  rcases h with ⟨l₁, l₂, heq, hx⟩
  rcases List.append_eq_append_iff.mp heq with ⟨mid, _, hmid⟩ | ⟨mid, hlog, hmid⟩
  · refine absurd ?_ ha
    rw [hmid]
    exact List.mem_append_right mid List.mem_cons_self
  · cases mid with
    | nil =>
        rw [List.nil_append] at hmid
        refine absurd ?_ ha
        rw [← hmid]
        exact List.mem_cons_self
    | cons b mid =>
        rw [List.cons_append, List.cons.injEq] at hmid
        refine ⟨l₁, mid, by rw [hlog, hmid.1], fun hmem => hx ?_⟩
        rw [hmid.2]
        exact List.mem_append_left l hmem

/-! ## Machines -/

/-- In a run of a machine out of `s` something began, and none of the later events ended it.
    An event is looked at in the state it meets. -/
def Pending {S : Type*} (step : S → α → S) (begins ends : S → α → Prop) (s : S)
    (run : List α) : Prop :=
  ∃ l₁ a l₂, run = l₁ ++ a :: l₂ ∧ begins (l₁.foldl step s) a ∧
    Every (fun pre b => ¬ ends ((l₁ ++ a :: pre).foldl step s) b) l₂

theorem not_pending_nil {S : Type*} (step : S → α → S) (begins ends : S → α → Prop) (s : S) :
    ¬ Pending step begins ends s [] := by
  rintro ⟨l₁, a, l₂, h, _⟩
  exact List.append_ne_nil_of_right_ne_nil l₁ (List.cons_ne_nil a l₂) h.symm

theorem pending_concat {S : Type*} (step : S → α → S) (begins ends : S → α → Prop) (s : S)
    (run : List α) (a : α) : Pending step begins ends s (run ++ [a]) ↔
      begins (run.foldl step s) a ∨
        Pending step begins ends s run ∧ ¬ ends (run.foldl step s) a := by
  constructor
  · rintro ⟨l₁, b, l₂, heq, hb, hno⟩
    rcases List.eq_nil_or_concat l₂ with rfl | ⟨l₂, c, rfl⟩
    · rcases List.append_inj' heq rfl with ⟨rfl, hab⟩
      rw [List.singleton_inj.mp hab]
      exact Or.inl hb
    · rw [List.concat_eq_append, ← List.cons_append, ← List.append_assoc] at heq
      rcases List.append_inj' heq rfl with ⟨rfl, hac⟩
      rw [List.concat_eq_append, every_append] at hno
      rw [List.singleton_inj.mp hac]
      refine Or.inr ⟨⟨l₁, b, l₂, rfl, hb, hno.1⟩, ?_⟩
      have hlast : ¬ ends ((l₁ ++ b :: (l₂ ++ [])).foldl step s) c := hno.2 [] c [] rfl
      rwa [List.append_nil] at hlast
  · rintro (ha | ⟨⟨l₁, b, l₂, rfl, hb, hno⟩, ha⟩)
    · exact ⟨run, a, [], rfl, ha, every_nil _⟩
    · refine ⟨l₁, b, l₂ ++ [a], by rw [List.append_assoc, List.cons_append], hb, ?_⟩
      refine every_append.mpr ⟨hno, every_cons.mpr ⟨?_, every_nil _⟩⟩
      rwa [List.append_nil]

end History

end EarthRise
