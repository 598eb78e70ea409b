import Mathlib.Data.List.Basic

/-!
# Codecs Over a Stream

Writers that append to a stream and readers that take from the front of one, as state
monads, and the two laws that a format is checked with.

A format is a writer and a reader made of the same fields in the same order. `Codes` says
of them that the reader finds the value that was written, wherever in a stream it stands;
the law of a record follows from those of its fields by `Codes.bind`, field by field.
`Local` says of a reader alone that it fails or depends on nothing but what it took, and
that what has failed stays failed. A reader that takes all of a stream then fails on every
stream that is cut short (`Local.cut`), whatever the lengths in it made it do.

Nothing is said about what a symbol is or how a state holds a stream: that is the medium,
and the only laws about it are that a reader has one thing left and has not failed while it
is in order.

## Main definitions

* `Medium`: What the states of a writer and of a reader hold.
* `Codes`, `Local`, `Returns`: The laws.
* `PutsLength`, `TakesLength`: How much is written and read, whatever it is.
* `Feeds`: Enough is written.
* `readTimes`: A reader, a number of times.

## Theorems

* `Codes.bind`, `Codes.last`, `codes_forM`: Formats from formats.
* `Local.bind`, `local_readTimes`: Readers from readers.
* `Local.cut`: A stream that is cut short.
-/

namespace EarthRise

namespace Codec

/-- What the states of a writer and of a reader hold of a stream of symbols. -/
structure Medium (σ ρ β : Type) where
  /-- The writer is in order and this is what it has written. -/
  holds : σ → List β → Prop
  /-- The reader is in order and this is what it has left. -/
  left : ρ → List β → Prop
  failed : ρ → Prop
  unique : ∀ s bs cs, left s bs → left s cs → bs = cs
  sound : ∀ s bs, left s bs → ¬ failed s

/-- A reader, a number of times. -/
def readTimes {ρ α : Type} (r : StateM ρ α) : Nat → StateM ρ (List α)
  | 0 => pure []
  | n + 1 => do
      let a ← r
      let as ← readTimes r n
      pure (a :: as)

section

variable {σ ρ β : Type} (M : Medium σ ρ β) {α γ δ : Type}

/-- The writer appends these symbols. -/
def Puts (w : StateM σ PUnit) (bs : List β) : Prop :=
  ∀ s cs, M.holds s cs → M.holds (w.run s).2 (cs ++ bs)

/-- The reader takes these symbols off the front and returns the value. -/
def Gets (r : StateM ρ α) (bs : List β) (a : α) : Prop :=
  ∀ s rest, M.left s (bs ++ rest) → (r.run s).1 = a ∧ M.left (r.run s).2 rest

/-- What is written is read back as the value. -/
def Codes (w : StateM σ PUnit) (r : StateM ρ α) (a : α) : Prop :=
  ∃ bs, Puts M w bs ∧ Gets M r bs a

/-- A reader that fails or depends on nothing but what it takes. -/
structure Local (r : StateM ρ α) : Prop where
  failed : ∀ s, M.failed s → M.failed (r.run s).2
  taken : ∀ s bs, M.left s bs → M.failed (r.run s).2 ∨
    ∃ used rest, bs = used ++ rest ∧ ∀ t after, M.left t (used ++ after) →
      (r.run t).1 = (r.run s).1 ∧ M.left (r.run t).2 after

/-- Whatever a reader returns satisfies `P`. -/
def Returns (P : α → Prop) (r : StateM ρ α) : Prop := ∀ s, P (r.run s).1

/-- The writer appends so many symbols or more. -/
def PutsLength (w : StateM σ PUnit) (n : Nat) : Prop := ∃ bs, n ≤ bs.length ∧ Puts M w bs

/-- The reader takes so many symbols, whatever they are. -/
def TakesLength (r : StateM ρ α) (n : Nat) : Prop :=
  ∀ s bs, n ≤ bs.length → M.left s bs → M.left (r.run s).2 (bs.drop n)

/-- What is written is enough for the reader, whatever it makes of it. -/
def Feeds (w : StateM σ PUnit) (r : StateM ρ α) : Prop :=
  ∃ bs, Puts M w bs ∧ ∀ s, M.left s bs → ∃ rest, M.left (r.run s).2 rest

variable {M} {w w' : StateM σ PUnit} {r : StateM ρ α} {k : α → StateM ρ γ} {a : α} {P : α → Prop}
  {m n : Nat}

/-! ## Formats -/

theorem run_bind (r : StateM ρ α) (k : α → StateM ρ γ) (s : ρ) :
    (r >>= k).run s = (k (r.run s).1).run (r.run s).2 := rfl

theorem Puts.bind {bs bs' : List β} (h : Puts M w bs)
    (h' : Puts M w' bs') : Puts M (w >>= fun _ => w') (bs ++ bs') := by
  intro s cs hs
  rw [run_bind, ← List.append_assoc]
  exact h' _ _ (h s cs hs)

theorem Gets.bind {bs bs' : List β} {c : γ}
    (h : Gets M r bs a) (h' : Gets M (k a) bs' c) : Gets M (r >>= k) (bs ++ bs') c := by
  intro s rest hs
  rw [List.append_assoc] at hs
  rcases h s _ hs with ⟨ha, hleft⟩
  rw [run_bind, ha]
  exact h' _ rest hleft

theorem gets_pure (a : α) : Gets M (pure a : StateM ρ α) [] a := fun _ _ h => ⟨rfl, h⟩

/-- One field and the rest. -/
theorem Codes.bind
    {c : γ} (h : Codes M w r a) (h' : Codes M w' (k a) c) :
    Codes M (w >>= fun _ => w') (r >>= k) c := by
  rcases h with ⟨bs, hw, hr⟩
  rcases h' with ⟨bs', hw', hr'⟩
  exact ⟨bs ++ bs', hw.bind hw', hr.bind hr'⟩

/-- The last field, and what the value is made of. -/
theorem Codes.last {w : StateM σ PUnit} {f : α → γ}
    (h : Codes M w r a) : Codes M w (r >>= fun a => pure (f a)) (f a) := by
  rcases h with ⟨bs, hw, hr⟩
  refine ⟨bs, hw, ?_⟩
  have hgets : Gets M (r >>= fun a => pure (f a)) (bs ++ []) (f a) := hr.bind (gets_pure (f a))
  rwa [List.append_nil] at hgets

theorem codes_nothing (a : α) : Codes M (pure PUnit.unit) (pure a) a :=
  ⟨[], fun _ _ h => by rwa [List.append_nil], gets_pure a⟩

/-- A list, written value by value. -/
theorem codes_forM {f : α → StateM σ PUnit} (as : List α)
    (h : ∀ a ∈ as, Codes M (f a) r a) : Codes M (as.forM f) (readTimes r as.length) as := by
  induction as with
  | nil => exact codes_nothing []
  | cons a as ih =>
      exact (h a List.mem_cons_self).bind
        (ih fun a' ha' => h a' (List.mem_cons_of_mem a ha')).last

/-! ## Readers -/

theorem local_pure (a : α) : Local M (pure a : StateM ρ α) where
  failed _ h := h
  taken _ bs _ := Or.inr ⟨[], bs, rfl, fun _ _ h => ⟨rfl, h⟩⟩

theorem Local.bind (hr : Local M r)
    (hk : ∀ a, Local M (k a)) : Local M (r >>= k) where
  failed s h := (hk _).failed _ (hr.failed s h)
  taken s bs h := by
    rw [run_bind]
    rcases hr.taken s bs h with hbad | ⟨used, rest, rfl, hsame⟩
    · exact Or.inl ((hk _).failed _ hbad)
    · rcases (hk (r.run s).1).taken _ rest (hsame s rest h).2 with hbad | ⟨used', rest', rfl, hsame'⟩
      · exact Or.inl hbad
      · refine Or.inr ⟨used ++ used', rest', (List.append_assoc _ _ _).symm, fun t after ht => ?_⟩
        rw [List.append_assoc] at ht
        rcases hsame t _ ht with ⟨hval, hleft⟩
        rw [run_bind, hval]
        exact hsame' _ after hleft

theorem local_readTimes (hr : Local M r) (n : Nat) :
    Local M (readTimes r n) := by
  induction n with
  | zero => exact local_pure []
  | succ n ih => exact hr.bind fun a => ih.bind fun as => local_pure (a :: as)

/-- What took all of a stream fails on a stream that is cut short. -/
theorem Local.cut (hr : Local M r) {bs part : List β}
    (hgets : Gets M r bs a) {t : ρ} (ht : M.left t bs) {s : ρ} (hs : M.left s part)
    (hpart : part <+: bs) (hne : part ≠ bs) : M.failed (r.run s).2 := by
  rcases hr.taken s part hs with hbad | ⟨used, rest, rfl, hsame⟩
  · exact hbad
  · -- On the whole stream the reader would leave what was cut off.
    rcases hpart with ⟨missing, rfl⟩
    have hwhole := (hgets t [] (by rwa [List.append_nil])).2
    rw [List.append_assoc] at ht
    have hnil := M.unique _ _ _ hwhole (hsame t _ ht).2
    exact absurd (by rw [(List.append_eq_nil_iff.mp hnil.symm).2, List.append_nil]) hne

/-! ## Values -/

theorem Returns.bind {Q : γ → Prop}
    (hr : Returns P r) (hk : ∀ a, P a → Returns Q (k a)) : Returns Q (r >>= k) :=
  fun s => hk _ (hr s) _

theorem returns_any (r : StateM ρ α) : Returns (fun _ => True) r := fun _ => trivial

/-- A step whose value does not matter. -/
theorem returns_then {Q : γ → Prop}
    (hk : ∀ a, Returns Q (k a)) : Returns Q (r >>= k) := fun _ => hk _ _

theorem returns_pure (h : P a) : Returns P (pure a : StateM ρ α) :=
  fun _ => h

theorem returns_readTimes (hr : Returns P r) (n : Nat) :
    Returns (fun as => as.length = n ∧ ∀ a ∈ as, P a) (readTimes r n) := by
  induction n with
  | zero => exact returns_pure ⟨rfl, fun _ h => absurd h List.not_mem_nil⟩
  | succ n ih =>
      refine hr.bind fun a ha => ih.bind fun as has => returns_pure ⟨?_, ?_⟩
      · rw [List.length_cons, has.1]
      · intro b hb
        rcases List.mem_cons.mp hb with rfl | hb
        · exact ha
        · exact has.2 b hb

/-! ## Lengths -/

theorem PutsLength.bind (h : PutsLength M w m)
    (h' : PutsLength M w' n) : PutsLength M (w >>= fun _ => w') (m + n) := by
  rcases h with ⟨bs, hlen, hputs⟩
  rcases h' with ⟨bs', hlen', hputs'⟩
  exact ⟨bs ++ bs', by rw [List.length_append]; omega, hputs.bind hputs'⟩

theorem Codes.puts {w : StateM σ PUnit} (h : Codes M w r a) :
    PutsLength M w 0 := by
  rcases h with ⟨bs, hw, _⟩
  exact ⟨bs, Nat.zero_le _, hw⟩

theorem putsLength_forM {f : α → StateM σ PUnit} {n : Nat} (hf : ∀ a, PutsLength M (f a) n)
    (as : List α) : PutsLength M (as.forM f) (n * as.length) := by
  induction as with
  | nil => exact ⟨[], Nat.le_refl 0, fun _ _ h => by rwa [List.append_nil]⟩
  | cons a as ih =>
      rw [List.length_cons, Nat.mul_succ, Nat.add_comm]
      exact (hf a).bind ih

theorem takesLength_pure (a : α) : TakesLength M (pure a : StateM ρ α) 0 := fun _ _ _ h => h

theorem TakesLength.bind (h : TakesLength M r m)
    (hk : ∀ a, TakesLength M (k a) n) : TakesLength M (r >>= k) (m + n) := by
  intro s bs hlen hs
  rw [run_bind, ← List.drop_drop]
  exact hk _ _ _ (by rw [List.length_drop]; omega) (h s bs (by omega) hs)

/-- As much is written as is read. -/
theorem PutsLength.feeds {w : StateM σ PUnit}
    (hw : PutsLength M w m) (hr : TakesLength M r n) (hle : n ≤ m) : Feeds M w r := by
  rcases hw with ⟨bs, hlen, hputs⟩
  exact ⟨bs, hputs, fun s hs => ⟨bs.drop n, hr s bs (by omega) hs⟩⟩

/-- A field that is read back, and the rest. -/
theorem Codes.feeds
    (h : Codes M w r a) (h' : Feeds M w' (k a)) : Feeds M (w >>= fun _ => w') (r >>= k) := by
  rcases h with ⟨bs, hw, hr⟩
  rcases h' with ⟨bs', hw', hr'⟩
  refine ⟨bs ++ bs', hw.bind hw', fun s hs => ?_⟩
  rcases hr s bs' hs with ⟨hval, hleft⟩
  rw [run_bind, hval]
  exact hr' _ hleft

end

end Codec

end EarthRise
