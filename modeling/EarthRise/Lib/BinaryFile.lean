import Mathlib.Data.UInt
import Mathlib.Data.List.Basic

/-!
# Reading Binary Files

Numbers and tags at a position of a file, with the bytes least significant first. A read past the
end of the file is `none`: it is not an error that the reader is told of but one that it has to
keep clear of, so the parsers built on these reads are shown to return something.

A parser with a cursor keeps a position and an error that stays: where a read would go past the
end the cursor is marked, nothing is read, and whoever goes on reads zeros. It can also give up
with a reason. What it reads is described by a relation between where it starts, what it returns
and where it ends. The relation holds if the cursor is good at the end; it was good all along then,
since the error stays. The relation of a sequence of parsers is the sequence of their relations.

## Main definitions

* `u16At`, `u32At`: A number of two or four bytes.
* `tagAt`: Whether bytes stand at a position; no more are read than it takes.
* `Span`: A part of a file.
* `Cursor`, `Parser`: The state, and parsers on it.
* `ensure`, `readList`: The check before a read, and a loop that ends with the error.
* `ReadsWith`, `Reads`: What a parser reads, and that it stays in the file.
* `Items`, `Within`: Things, and parts of a file, that stand one after the other.

## Theorems

* `u16At_some`, `u32At_some`, `tagAt_eq`: Reads inside the file.
* `ReadsWith.bind`, `ReadsWith.ite`, `readList_reads`: Sequences, choices and loops.
* `ReadsWith.ensure`: Reads behind a check.
* `Within.disjoint`, `Within.inside`: Parts in a row are disjoint and end before the last does.
-/

namespace EarthRise

namespace BinaryFile

def u16At (file : List UInt8) (p : Nat) : Option UInt16 := do
  let b₀ ← file[p]?
  let b₁ ← file[p + 1]?
  pure (b₀.toUInt16 ||| b₁.toUInt16 <<< 8)

def u32At (file : List UInt8) (p : Nat) : Option UInt32 := do
  let b₀ ← file[p]?
  let b₁ ← file[p + 1]?
  let b₂ ← file[p + 2]?
  let b₃ ← file[p + 3]?
  pure (b₀.toUInt32 ||| b₁.toUInt32 <<< 8 ||| b₂.toUInt32 <<< 16 ||| b₃.toUInt32 <<< 24)

def tagAt (file : List UInt8) : Nat → List UInt8 → Option Bool
  | _, [] => some true
  | p, c :: cs => do
      let b ← file[p]?
      if b = c then tagAt file (p + 1) cs else pure false

/-- A part of a file. -/
structure Span where
  offset : Nat
  size : Nat
  deriving DecidableEq, Repr

def Span.stop (s : Span) : Nat := s.offset + s.size

variable {file : List UInt8} {p : Nat}

theorem byte_some (h : p < file.length) : ∃ b, file[p]? = some b :=
  ⟨_, List.getElem?_eq_getElem h⟩

theorem u16At_some (h : p + 2 ≤ file.length) :
    ∃ v, u16At file p = some v := by
  rcases byte_some (show p < file.length by omega) with ⟨b₀, h₀⟩
  rcases byte_some (show p + 1 < file.length by omega) with ⟨b₁, h₁⟩
  unfold u16At
  rw [h₀, h₁]
  exact ⟨_, rfl⟩

theorem u32At_some (h : p + 4 ≤ file.length) :
    ∃ v, u32At file p = some v := by
  rcases byte_some (show p < file.length by omega) with ⟨b₀, h₀⟩
  rcases byte_some (show p + 1 < file.length by omega) with ⟨b₁, h₁⟩
  rcases byte_some (show p + 2 < file.length by omega) with ⟨b₂, h₂⟩
  rcases byte_some (show p + 3 < file.length by omega) with ⟨b₃, h₃⟩
  unfold u32At
  rw [h₀, h₁, h₂, h₃]
  exact ⟨_, rfl⟩

/-- The bytes of a tag are compared with those of the file. -/
theorem tagAt_eq (tag : List UInt8)
    (h : p + tag.length ≤ file.length) :
    tagAt file p tag = some (decide ((file.drop p).take tag.length = tag)) := by
  induction tag generalizing p with
  | nil => simp only [tagAt, List.length_nil, List.take_zero, decide_true]
  | cons c cs ih =>
      rw [List.length_cons] at h
      have hp : p < file.length := by omega
      have hfirst : file[p]? = some file[p] := List.getElem?_eq_getElem hp
      unfold tagAt
      rw [hfirst, List.drop_eq_getElem_cons hp, List.length_cons, List.take_succ_cons]
      simp only [Option.bind_eq_bind, Option.bind_some, List.cons.injEq]
      by_cases hc : file[p] = c
      · rw [if_pos hc, ih (by omega)]
        simp only [hc, true_and]
      · rw [if_neg hc]
        simp only [hc, false_and, decide_false]
        rfl

/-! ## Parsers with a cursor -/

structure Cursor where
  pos : Nat
  ok : Bool
  overran : Bool
  deriving DecidableEq, Repr

def Cursor.start : Cursor := ⟨0, true, false⟩

/-- A parser reads, or gives up with a reason. -/
def Parser (ε α : Type) : Type := Cursor → Option (Except ε (α × Cursor))

namespace Parser

variable {ε α β : Type}

instance : Monad (Parser ε) where
  pure a c := some (.ok (a, c))
  bind p f c :=
    match p c with
    | none => none
    | some (.error e) => some (.error e)
    | some (.ok (a, c')) => f a c'

def fail (e : ε) : Parser ε α := fun _ => some (.error e)

theorem bind_run (p : Parser ε α) (f : α → Parser ε β) (c : Cursor) :
    (p >>= f) c = match p c with
      | none => none
      | some (.error e) => some (.error e)
      | some (.ok (a, c')) => f a c' := rfl

end Parser

variable {ε α β : Type} (file : List UInt8)

def isOk : Parser ε Bool := fun c => some (.ok (c.ok, c))

/-- Whether so many bytes can be read. -/
def ensure (bytes : Nat) : Parser ε Bool := fun c =>
  if !c.ok then some (.ok (false, c))
  else if c.pos + bytes > file.length then
    some (.ok (false, { c with ok := false, overran := true }))
  else some (.ok (true, c))

/-- A read of bytes that are there. -/
def take (bytes : Nat) (read : Nat → Option α) : Parser ε α := fun c =>
  (read c.pos).map fun a => .ok (a, { c with pos := c.pos + bytes })

/-- Reads that are counted, until the error. -/
@[simp] def readList (item : Parser ε α) : Nat → Parser ε (List α)
  | 0 => pure []
  | n + 1 => do
      if ← isOk then
        let a ← item
        if ← isOk then
          let rest ← readList item n
          pure (a :: rest)
        else readList item n
      else pure []

/-! ## What is read -/

/-- From a position with some room in the file a parser ends at a position in the file. If the
cursor is good at the end, it was so before, and the relation holds. -/
structure ReadsWith (room : Nat) (p : Parser ε α) (At : Nat → α → Nat → Prop) : Prop where
  total : ∀ c, c.pos + room ≤ file.length → ∃ r, p c = some r
  inside : ∀ c a c', c.pos + room ≤ file.length → p c = some (.ok (a, c')) → c'.pos ≤ file.length
  result : ∀ c a c', c.pos + room ≤ file.length → p c = some (.ok (a, c')) → c'.ok = true →
    c.ok = true ∧ c.pos ≤ c'.pos ∧ At c.pos a c'.pos

/-- A parser that needs no room. -/
abbrev Reads (p : Parser ε α) (At : Nat → α → Nat → Prop) : Prop := ReadsWith file 0 p At

namespace ReadsWith

variable {file} {room : Nat} {p q : Parser ε α} {At At' : Nat → α → Nat → Prop}

theorem mono (h : ReadsWith file room p At)
    (hmono : ∀ i a j, j ≤ file.length → At i a j → At' i a j) : ReadsWith file room p At' := by
  refine ⟨h.total, h.inside, fun c a c' hc hp hok => ?_⟩
  rcases h.result c a c' hc hp hok with ⟨hgood, hle, hat⟩
  exact ⟨hgood, hle, hmono _ _ _ (h.inside c a c' hc hp) hat⟩

theorem pure (a : α) : Reads file (Pure.pure a : Parser ε α) (fun i b j => b = a ∧ i = j) := by
  refine ⟨fun c _ => ⟨_, rfl⟩, fun c b c' hc hp => ?_, fun c b c' hc hp hok => ?_⟩
  all_goals
    have heq := Except.ok.inj (Option.some.inj hp)
    simp only [Prod.mk.injEq] at heq
    rcases heq with ⟨rfl, rfl⟩
  · exact hc
  · exact ⟨hok, le_rfl, rfl, rfl⟩

theorem fail (e : ε) : Reads file (Parser.fail e : Parser ε α) (fun _ _ _ => False) := by
  refine ⟨fun c _ => ⟨_, rfl⟩, fun c b c' _ hp => ?_, fun c b c' _ hp => ?_⟩
  all_goals exact absurd (Option.some.inj hp) nofun

theorem isOk : Reads file (isOk : Parser ε Bool) (fun i b j => b = true ∧ i = j) := by
  refine ⟨fun c _ => ⟨_, rfl⟩, fun c b c' hc hp => ?_, fun c b c' hc hp hok => ?_⟩
  all_goals
    have heq := Except.ok.inj (Option.some.inj hp)
    simp only [Prod.mk.injEq] at heq
    rcases heq with ⟨rfl, rfl⟩
  · exact hc
  · exact ⟨hok, le_rfl, hok, rfl⟩

/-- The first parser ends where the second one starts. -/
theorem bind {f : α → Parser ε β} {Bt : α → Nat → β → Nat → Prop} (hp : ReadsWith file room p At)
    (hf : ∀ a, Reads file (f a) (Bt a)) :
    ReadsWith file room (p >>= f) (fun i b j => ∃ a k, i ≤ k ∧ k ≤ j ∧ At i a k ∧ Bt a k b j) := by
  -- A result of the sequence is one of the second parser, after one of the first.
  have hsplit : ∀ c b c', (p >>= f) c = some (.ok (b, c')) →
      ∃ a c₁, p c = some (.ok (a, c₁)) ∧ f a c₁ = some (.ok (b, c')) := by
    intro c b c' h
    rw [Parser.bind_run] at h
    cases hpc : p c with
    | none =>
        rw [hpc] at h
        exact absurd h.symm (Option.some_ne_none _)
    | some r =>
        cases r with
        | error e =>
            rw [hpc] at h
            exact absurd (Option.some.inj h) nofun
        | ok ac =>
            rw [hpc] at h
            exact ⟨ac.1, ac.2, rfl, h⟩
  refine ⟨fun c hc => ?_, fun c b c' hc h => ?_, fun c b c' hc h hok => ?_⟩
  · rcases hp.total c hc with ⟨r, hr⟩
    rw [Parser.bind_run, hr]
    cases r with
    | error e => exact ⟨_, rfl⟩
    | ok ac => exact (hf ac.1).total ac.2 (hp.inside c ac.1 ac.2 hc hr)
  · rcases hsplit c b c' h with ⟨a, c₁, hpa, hfa⟩
    exact (hf a).inside c₁ b c' (hp.inside c a c₁ hc hpa) hfa
  · rcases hsplit c b c' h with ⟨a, c₁, hpa, hfa⟩
    rcases (hf a).result c₁ b c' (hp.inside c a c₁ hc hpa) hfa hok with ⟨hok₁, hle₁, hbt⟩
    rcases hp.result c a c₁ hc hpa hok₁ with ⟨hok₀, hle₀, hat⟩
    exact ⟨hok₀, hle₀.trans hle₁, a, c₁.pos, hle₀, hle₁, hat, hbt⟩

theorem ite {b : Prop} [Decidable b] (hp : ReadsWith file room p At)
    (hq : ReadsWith file room q At') :
    ReadsWith file room (if b then p else q) (fun i a j => if b then At i a j else At' i a j) := by
  by_cases hb : b
  · simp only [if_pos hb]
    exact hp
  · simp only [if_neg hb]
    exact hq

theorem take {read : Nat → Option α} (h : ∀ i, i + room ≤ file.length → ∃ a, read i = some a) :
    ReadsWith file room (take room read : Parser ε α)
      (fun i a j => read i = some a ∧ j = i + room) := by
  refine ⟨fun c hc => ?_, fun c a c' hc hp => ?_, fun c a c' hc hp hok => ?_⟩
  · rcases h c.pos hc with ⟨a, ha⟩
    unfold BinaryFile.take
    rw [ha]
    exact ⟨_, rfl⟩
  · rcases Option.map_eq_some_iff.mp hp with ⟨x, _, hx⟩
    cases hx
    exact hc
  · rcases Option.map_eq_some_iff.mp hp with ⟨x, hx, hc'⟩
    cases hc'
    exact ⟨hok, Nat.le_add_right _ _, hx, rfl⟩

/-- Behind the check a parser has the room. The error is never taken back. -/
theorem ensure (hp : ReadsWith file room p At) (hq : Reads file q At') :
    Reads file (do if ← ensure file room then p else q) At := by
  have hrun (c : Cursor) :
      (do if ← BinaryFile.ensure file room then p else q : Parser ε α) c =
        if c.ok = false then q c
        else if c.pos + room > file.length then q { c with ok := false, overran := true }
        else p c := by
    rw [Parser.bind_run]
    unfold BinaryFile.ensure
    cases hok : c.ok with
    | false =>
        rw [Bool.not_false, if_pos rfl, if_pos rfl]
        rfl
    | true =>
        rw [Bool.not_true, if_neg Bool.false_ne_true, if_neg (Ne.symm Bool.false_ne_true)]
        by_cases hend : c.pos + room > file.length
        · rw [if_pos hend, if_pos hend]
          rfl
        · rw [if_neg hend, if_neg hend]
          rfl
  -- The two ways past the check end in `q`, and only the one through it in `p`.
  refine ⟨fun c hc => ?_, fun c a c' hc h => ?_, fun c a c' hc h hgood => ?_⟩
  · rw [hrun]
    by_cases hok : c.ok = false
    · rw [if_pos hok]
      exact hq.total c hc
    rw [if_neg hok]
    by_cases hend : c.pos + room > file.length
    · rw [if_pos hend]
      exact hq.total _ hc
    · rw [if_neg hend]
      exact hp.total c (Nat.le_of_not_lt hend)
  · rw [hrun] at h
    by_cases hok : c.ok = false
    · rw [if_pos hok] at h
      exact hq.inside c a c' hc h
    rw [if_neg hok] at h
    by_cases hend : c.pos + room > file.length
    · rw [if_pos hend] at h
      exact hq.inside { c with ok := false, overran := true } a c' hc h
    · rw [if_neg hend] at h
      exact hp.inside c a c' (Nat.le_of_not_lt hend) h
  · rw [hrun] at h
    by_cases hok : c.ok = false
    · rw [if_pos hok] at h
      have hbefore := (hq.result c a c' hc h hgood).1
      exact absurd (hok.symm.trans hbefore) Bool.false_ne_true
    rw [if_neg hok] at h
    by_cases hend : c.pos + room > file.length
    · rw [if_pos hend] at h
      have hbefore := (hq.result { c with ok := false, overran := true } a c' hc h hgood).1
      exact absurd hbefore Bool.false_ne_true
    · rw [if_neg hend] at h
      exact hp.result c a c' (Nat.le_of_not_lt hend) h hgood

end ReadsWith

/-- Things that stand one after the other. -/
inductive Items (At : Nat → α → Nat → Prop) : Nat → List α → Nat → Prop
  | nil (i : Nat) : Items At i [] i
  | cons {i k j : Nat} {a : α} {l : List α} (hle : i ≤ k) (ha : At i a k) (hl : Items At k l j) :
      Items At i (a :: l) j

theorem Items.forall {At : Nat → α → Nat → Prop} {P : α → Prop} {i j : Nat} {l : List α}
    (h : Items At i l j) (hat : ∀ i a j, At i a j → P a) : ∀ a ∈ l, P a := by
  induction h with
  | nil i => exact fun a ha => absurd ha List.not_mem_nil
  | cons _ ha _ ih => exact List.forall_mem_cons.mpr ⟨hat _ _ _ ha, ih⟩

theorem Items.le {At : Nat → α → Nat → Prop} {i j : Nat} {l : List α} (h : Items At i l j) :
    i ≤ j := by
  induction h with
  | nil i => exact le_rfl
  | cons hle _ _ ih => exact hle.trans ih

/-- A loop that ends without the error has read as many things as it was told. -/
theorem readList_reads {item : Parser ε α} {At : Nat → α → Nat → Prop} (h : Reads file item At)
    (n : Nat) : Reads file (readList item n) (fun i l j => l.length = n ∧ Items At i l j) := by
  induction n with
  | zero =>
      refine (ReadsWith.pure ([] : List α)).mono fun i l j _ hl => ?_
      rcases hl with ⟨rfl, rfl⟩
      exact ⟨rfl, .nil i⟩
  | succ n ih =>
      refine (ReadsWith.isOk.bind fun b => ReadsWith.ite (h.bind fun a => ReadsWith.isOk.bind
        fun b' => ReadsWith.ite (ih.bind fun rest => ReadsWith.pure (a :: rest)) ih)
          (ReadsWith.pure ([] : List α))).mono fun i l j _ hl => ?_
      rcases hl with ⟨b, k, _, _, ⟨rfl, rfl⟩, hl⟩
      rw [if_pos rfl] at hl
      rcases hl with ⟨a, k, hle, _, ha, b', k', _, _, ⟨rfl, rfl⟩, hl⟩
      rw [if_pos rfl] at hl
      rcases hl with ⟨rest, j, _, _, ⟨hlength, hrest⟩, rfl, rfl⟩
      exact ⟨congrArg Nat.succ hlength, .cons hle ha hrest⟩

/-! ## Parts of a file -/

/-- Parts that stand one after the other between two positions. -/
def Within : Nat → List Span → Nat → Prop
  | i, [], j => i ≤ j
  | i, s :: l, j => i ≤ s.offset ∧ Within s.stop l j

namespace Within

variable {i i' j j' : Nat} {l l' : List Span}

theorem of_le (h : Within i l j) (hi : i' ≤ i) : Within i' l j := by
  cases l with
  | nil => exact hi.trans h
  | cons s l => exact ⟨hi.trans h.1, h.2⟩

theorem le_of (h : Within i l j) (hj : j ≤ j') : Within i l j' := by
  induction l generalizing i with
  | nil => exact le_trans h hj
  | cons s l ih => exact ⟨h.1, ih h.2⟩

theorem append (h : Within i l j) (h' : Within j l' j') : Within i (l ++ l') j' := by
  induction l generalizing i with
  | nil => exact h'.of_le h
  | cons s l ih => exact ⟨h.1, ih h.2⟩

/-- Parts of things that stand one after the other. -/
theorem of_items (spans : α → List Span) {At : Nat → α → Nat → Prop} {as : List α}
    (h : Items At i as j) (hat : ∀ i a j, At i a j → Within i (spans a) j) :
    Within i (as.flatMap spans) j := by
  induction h with
  | nil i => exact le_rfl
  | cons _ ha _ ih => exact (hat _ _ _ ha).append ih

theorem le (h : Within i l j) : i ≤ j := by
  induction l generalizing i with
  | nil => exact h
  | cons s l ih => exact h.1.trans ((Nat.le_add_right _ _).trans (ih h.2))

theorem inside (h : Within i l j) : ∀ s ∈ l, i ≤ s.offset ∧ s.stop ≤ j := by
  induction l generalizing i with
  | nil => exact fun s hs => absurd hs List.not_mem_nil
  | cons t l ih =>
      refine List.forall_mem_cons.mpr ⟨⟨h.1, h.2.le⟩, fun s hs => ?_⟩
      rcases ih h.2 s hs with ⟨hfrom, hto⟩
      exact ⟨h.1.trans ((Nat.le_add_right _ _).trans hfrom), hto⟩

/-- A part ends before those behind it start. -/
theorem disjoint (h : Within i l j) : l.Pairwise fun s t => s.stop ≤ t.offset := by
  induction l generalizing i with
  | nil => exact .nil
  | cons s l ih => exact .cons (fun t ht => (h.2.inside t ht).1) (ih h.2)

end Within

end BinaryFile

end EarthRise
