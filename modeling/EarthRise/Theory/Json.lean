import EarthRise.Theory.JsonTokens
import Mathlib.Data.List.DropRight

/-!
# The JSON Parser and the Grammar

The parser accepts the documents of the grammar and gives their values.

Soundness is by induction on the supply: a call that succeeds has read the text of a tree
that stands for what it returns. Completeness is by induction on the tree. A loop that has
read some members already is covered by the same statements, for any such members.

The supply is what the source has no counterpart of, so it must not matter: three calls for
each byte are enough, because a value, the object it opens and the loop over its members
are called on one byte between them.

The trees of the parser are not those of the standard. A numeral may start with zeros the
standard forbids, and a surrogate escape without its partner, which the grammar allows, is
refused. On texts without such numerals the two agree, surrogates apart.

## Main definitions

* `Sound`, `Complete`, `Fed`: What is shown of each call.

## Theorems

* `sound`, `complete`, `fed`: By induction.
* `parser_parse_iff`: The texts that are accepted, with their values.
* `parse_iff_document`: Those texts, with the numerals of the standard.
* `lone_surrogate`: A document that is refused, and a text that is accepted and is none.
-/

namespace EarthRise

namespace Json

open JsonText

section Blanks

/-- Nothing follows that goes on with blanks. -/
def NoBlank (rest : Bytes) : Prop := ∀ b, rest.head? = some b → isBlank b = false

theorem noBlank_cons {b : UInt8} (hb : isBlank b = false) (rest : Bytes) : NoBlank (b :: rest) :=
  fun _ hc => Option.some.inj hc ▸ hb

/-- What is skipped is blank. -/
theorem exists_blanks (s : Bytes) : ∃ w : Blanks, s = w.bytes ++ skipWhitespace s :=
  ⟨⟨s.takeWhile isBlank, fun _ hb => List.mem_takeWhile_imp hb⟩,
    List.takeWhile_append_dropWhile.symm⟩

theorem length_skip (s : Bytes) : (skipWhitespace s).length ≤ s.length :=
  (List.dropWhile_suffix isBlank).length_le

theorem skip_blanks (w : Blanks) {rest : Bytes} (h : NoBlank rest) :
    skipWhitespace (w.bytes ++ rest) = rest := by
  rw [skipWhitespace, List.dropWhile_append_of_pos w.blank]
  cases rest with
  | nil => rfl
  | cons b rest => exact List.dropWhile_cons_of_neg (by rw [h b rfl]; decide)

@[simp] theorem skip_skip (s : Bytes) :
    skipWhitespace (skipWhitespace s) = skipWhitespace s := List.dropWhile_idempotent _ _

/-- A blank goes on with no number, so a number ends before the blanks after it. -/
theorem ends_blanks (w : Blanks) {rest : Bytes} (h : Ends rest) : Ends (w.bytes ++ rest) := by
  rcases hbytes : w.bytes with _ | ⟨b, bytes⟩
  · exact h
  · apply ends_cons
    have hblank := w.blank b (hbytes ▸ List.mem_cons_self)
    simp only [isBlank, Bool.or_eq_true, beq_iff_eq] at hblank
    rcases hblank with ((rfl | rfl) | rfl) | rfl <;> decide

theorem noBlank_value (t : Tree .value) (rest : Bytes) : NoBlank (t.render ++ rest) := by
  obtain ⟨b, s, hrender, hblank, _⟩ := t.head_render
  rw [hrender]
  exact noBlank_cons hblank _

theorem length_value (t : Tree .value) : 0 < t.render.length := by
  obtain ⟨b, s, hrender, _⟩ := t.head_render
  rw [hrender]
  exact Nat.succ_pos _

variable (fuel : Nat)

theorem parseMembers_skip (out : List (Bytes × Value)) (s : Bytes) :
    parseMembers fuel out (skipWhitespace s) = parseMembers fuel out s := by
  cases fuel with
  | zero => rfl
  | succ fuel => simp only [parseMembers, skip_skip]

theorem parseElements_skip (out : List Value) (s : Bytes) :
    parseElements fuel out (skipWhitespace s) = parseElements fuel out s := by
  cases fuel with
  | zero => rfl
  | succ fuel => simp only [parseElements, skip_skip]

end Blanks

section Soundness

/-- What a call has read when it succeeds: the text of a tree that stands for its result. -/
structure Sound (fuel : Nat) : Prop where
  value : ∀ {s v rest}, parseValue fuel s = .ok (v, rest) →
    ∃ t : Tree .value, s = t.render ++ rest ∧ t.read Decimal.toDouble = some v
  object : ∀ {s v rest}, parseObject fuel s = .ok (v, rest) →
    ∃ t : Tree .value, 0x7B :: s = t.render ++ rest ∧ t.read Decimal.toDouble = some v
  members : ∀ {out s ms rest}, parseMembers fuel out s = .ok (ms, rest) →
    ∃ (t : Tree .members) (xs : _), s = t.render ++ rest ∧
      t.read Decimal.toDouble = some xs ∧ ms = out ++ xs
  array : ∀ {s v rest}, parseArray fuel s = .ok (v, rest) →
    ∃ t : Tree .value, 0x5B :: s = t.render ++ rest ∧ t.read Decimal.toDouble = some v
  elements : ∀ {out s vs rest}, parseElements fuel out s = .ok (vs, rest) →
    ∃ (t : Tree .elements) (xs : _), s = t.render ++ rest ∧
      t.read Decimal.toDouble = some xs ∧ vs = out ++ xs

namespace Sound

variable {fuel : Nat} (h : Sound fuel) {s rest : Bytes} {v : Value}

include h

theorem value_succ (hparse : parseValue (fuel + 1) s = .ok (v, rest)) :
    ∃ t : Tree .value, s = t.render ++ rest ∧ t.read Decimal.toDouble = some v := by
  cases s with
  | nil => exact absurd hparse (by rw [parseValue]; exact fail_ne_ok _ _ _)
  | cons c s =>
    rw [parseValue] at hparse
    split_ifs at hparse with hbrace hbracket hquote hbool hnull
    · rw [hbrace]
      exact h.object hparse
    · rw [hbracket]
      exact h.array hparse
    · obtain ⟨⟨text, s1⟩, hstring, hv⟩ := ok_of_map hparse
      obtain ⟨ps, hs, hps⟩ := parseString_iff.mp hstring
      obtain ⟨rfl, rfl⟩ := Prod.mk.inj hv
      refine ⟨.string ps, ?_, ?_⟩
      · rw [hquote, hs]
        rfl
      · rw [Tree.read, hps]
        rfl
    · obtain ⟨b, hs, rfl⟩ := parseBool_iff.mp hparse
      exact ⟨.bool b, hs, rfl⟩
    · obtain ⟨hs, rfl⟩ := parseNull_iff.mp hparse
      exact ⟨.null, hs, rfl⟩
    · obtain ⟨n, hs, rfl⟩ := parseNumber_sound hparse
      exact ⟨.number n, hs, rfl⟩

theorem object_succ
    (hparse : parseObject (fuel + 1) s = .ok (v, rest)) :
    ∃ t : Tree .value, 0x7B :: s = t.render ++ rest ∧ t.read Decimal.toDouble = some v := by
  rw [parseObject] at hparse
  split_ifs at hparse with hempty
  · obtain ⟨rfl, rfl⟩ := Prod.mk.inj (Except.ok.inj hparse)
    obtain ⟨w, hw⟩ := exists_blanks s
    refine ⟨.emptyObject w, ?_, rfl⟩
    simp only [Tree.render, List.cons_append, List.append_assoc, List.nil_append]
    rw [← List.eq_cons_of_mem_head? hempty, ← hw]
  · obtain ⟨⟨ms, s1⟩, hmembers, hv⟩ := ok_of_map hparse
    rw [parseMembers_skip] at hmembers
    obtain ⟨t, xs, hs, hread, rfl⟩ := h.members hmembers
    obtain ⟨rfl, rfl⟩ := Prod.mk.inj hv
    refine ⟨.object t, congrArg _ hs, ?_⟩
    rw [Tree.read, hread]
    rfl

theorem array_succ
    (hparse : parseArray (fuel + 1) s = .ok (v, rest)) :
    ∃ t : Tree .value, 0x5B :: s = t.render ++ rest ∧ t.read Decimal.toDouble = some v := by
  rw [parseArray] at hparse
  split_ifs at hparse with hempty
  · obtain ⟨rfl, rfl⟩ := Prod.mk.inj (Except.ok.inj hparse)
    obtain ⟨w, hw⟩ := exists_blanks s
    refine ⟨.emptyArray w, ?_, rfl⟩
    simp only [Tree.render, List.cons_append, List.append_assoc, List.nil_append]
    rw [← List.eq_cons_of_mem_head? hempty, ← hw]
  · obtain ⟨⟨vs, s1⟩, helements, hv⟩ := ok_of_map hparse
    rw [parseElements_skip] at helements
    obtain ⟨t, xs, hs, hread, rfl⟩ := h.elements helements
    obtain ⟨rfl, rfl⟩ := Prod.mk.inj hv
    refine ⟨.array t, congrArg _ hs, ?_⟩
    rw [Tree.read, hread]
    rfl

/-- One turn of the loop over the elements: an element, and what the blanks after it end
    with. -/
theorem elements_succ {out vs : List Value}
    (hparse : parseElements (fuel + 1) out s = .ok (vs, rest)) :
    ∃ (t : Tree .elements) (xs : _), s = t.render ++ rest ∧
      t.read Decimal.toDouble = some xs ∧ vs = out ++ xs := by
  rw [parseElements] at hparse
  obtain ⟨⟨child, s1⟩, hvalue, hparse⟩ := ok_of_bind hparse
  obtain ⟨v, hs, hv⟩ := h.value hvalue
  obtain ⟨before, hbefore⟩ := exists_blanks s
  obtain ⟨after, hafter⟩ := exists_blanks s1
  dsimp only at hparse
  split at hparse
  · exact absurd hparse (fail_ne_ok _ _ _)
  · rename_i c s2 hnext
    rw [hnext] at hafter
    split_ifs at hparse with hcomma hclose
    · obtain ⟨t, xs, hs2, ht, rfl⟩ := h.elements hparse
      refine ⟨.cons before v after t, child :: xs, ?_, ?_, ?_⟩
      · rw [hbefore, hs, hafter, hs2, hcomma]
        simp only [Tree.render, List.append_assoc, List.cons_append]
      · rw [Tree.read, hv, ht]
        rfl
      · rw [List.append_assoc]
        rfl
    · obtain ⟨rfl, rfl⟩ := Prod.mk.inj (Except.ok.inj hparse)
      refine ⟨.last before v after, [child], ?_, ?_, rfl⟩
      · rw [hbefore, hs, hafter, hclose]
        simp only [Tree.render, List.append_assoc, List.cons_append, List.nil_append]
      · rw [Tree.read, hv]
        rfl
    · exact absurd hparse (fail_ne_ok _ _ _)

/-- One turn of the loop over the members: a key, a colon, a value, and what the blanks
    after it end with. -/
theorem members_succ {out ms : List (Bytes × Value)}
    (hparse : parseMembers (fuel + 1) out s = .ok (ms, rest)) :
    ∃ (t : Tree .members) (xs : _), s = t.render ++ rest ∧
      t.read Decimal.toDouble = some xs ∧ ms = out ++ xs := by
  rw [parseMembers] at hparse
  split_ifs at hparse with hquote
  · exact absurd hparse (fail_ne_ok _ _ _)
  rw [ne_eq, not_not] at hquote
  obtain ⟨⟨key, s1⟩, hstring, hparse⟩ := ok_of_bind hparse
  obtain ⟨ps, hs, hps⟩ := parseString_iff.mp hstring
  dsimp only at hparse
  split_ifs at hparse with hcolon
  · exact absurd hparse (fail_ne_ok _ _ _)
  rw [ne_eq, not_not] at hcolon
  obtain ⟨⟨child, s2⟩, hvalue, hparse⟩ := ok_of_bind hparse
  obtain ⟨v, hs1, hv⟩ := h.value hvalue
  obtain ⟨before, hbefore⟩ := exists_blanks s
  obtain ⟨left, hleft⟩ := exists_blanks s1
  obtain ⟨right, hright⟩ := exists_blanks (skipWhitespace s1).tail
  obtain ⟨after, hafter⟩ := exists_blanks s2
  -- The text up to the blanks after the value.
  have hkey : s = Tree.renderKey before ps (left, right) ++ (v.render ++ s2) := by
    rw [hbefore, List.eq_cons_of_mem_head? hquote, hs, hleft, List.eq_cons_of_mem_head? hcolon,
      hright, hs1]
    simp only [Tree.renderKey, List.append_assoc, List.cons_append]
  dsimp only at hparse
  split at hparse
  · exact absurd hparse (fail_ne_ok _ _ _)
  · rename_i c s3 hnext
    rw [hnext] at hafter
    split_ifs at hparse with hcomma hclose
    · obtain ⟨t, xs, hs3, ht, rfl⟩ := h.members hparse
      refine ⟨.consMember before ps (left, right) v after t, (key, child) :: xs, ?_, ?_, ?_⟩
      · rw [hkey, hafter, hs3, hcomma]
        simp only [Tree.render, List.append_assoc, List.cons_append]
      · rw [Tree.read, hps, hv, ht]
        rfl
      · rw [List.append_assoc]
        rfl
    · obtain ⟨rfl, rfl⟩ := Prod.mk.inj (Except.ok.inj hparse)
      refine ⟨.lastMember before ps (left, right) v after, [(key, child)], ?_, ?_, rfl⟩
      · rw [hkey, hafter, hclose]
        simp only [Tree.render, List.append_assoc, List.cons_append, List.nil_append]
      · rw [Tree.read, hps, hv]
        rfl
    · exact absurd hparse (fail_ne_ok _ _ _)

end Sound

/-- Each call that succeeds has read a tree, by induction on the supply. -/
theorem sound (fuel : Nat) : Sound fuel := by
  induction fuel with
  | zero => constructor <;> intros <;> contradiction
  | succ fuel ih =>
    exact ⟨ih.value_succ, ih.object_succ, ih.members_succ, ih.array_succ, ih.elements_succ⟩

end Soundness

section Completeness

/-- What is shown of a tree: with three calls for each of its bytes it is read to its end,
    whatever has been read before it. -/
def Complete : (p : Part) → Tree p → Prop
  | .value, t => ∀ v, t.read Decimal.toDouble = some v → ∀ fuel, 3 * t.render.length + 1 ≤ fuel →
    ∀ rest, Ends rest → parseValue fuel (t.render ++ rest) = .ok (v, rest)
  | .elements, t => ∀ vs, t.read Decimal.toDouble = some vs →
    ∀ fuel, 3 * t.render.length + 2 ≤ fuel →
      ∀ out rest, parseElements fuel out (t.render ++ rest) = .ok (out ++ vs, rest)
  | .members, t => ∀ ms, t.read Decimal.toDouble = some ms →
    ∀ fuel, 3 * t.render.length + 2 ≤ fuel →
      ∀ out rest, parseMembers fuel out (t.render ++ rest) = .ok (out ++ ms, rest)

/-- What may follow a value in a text. -/
theorem ends_comma (rest : Bytes) : Ends (0x2C :: rest) := ends_cons (by decide) rest

theorem ends_bracket (rest : Bytes) : Ends (0x5D :: rest) := ends_cons (by decide) rest

theorem ends_brace (rest : Bytes) : Ends (0x7D :: rest) := ends_cons (by decide) rest

variable {c : UInt8}

/-- An element and the blanks around it. -/
theorem parseElements_step {v : Tree .value} (hv : Complete .value v) {child : Value}
    (hread : v.read Decimal.toDouble = some child) {fuel : Nat}
    (hfuel : 3 * v.render.length + 1 ≤ fuel) (before after : Blanks) (out : List Value)
    (hc : isBlank c = false) {rest : Bytes} (hends : Ends (c :: rest)) :
    parseElements (fuel + 1) out (before.bytes ++ v.render ++ after.bytes ++ c :: rest) =
      if c = 0x2C then parseElements fuel (out ++ [child]) rest
      else if c = 0x5D then .ok (out ++ [child], rest)
      else fail "expected ',' or ']' in array" (c :: rest) := by
  have hskip : skipWhitespace (before.bytes ++ v.render ++ after.bytes ++ c :: rest) =
      v.render ++ (after.bytes ++ c :: rest) := by
    rw [List.append_assoc, List.append_assoc]
    exact skip_blanks before (noBlank_value v _)
  rw [parseElements, hskip, hv child hread fuel hfuel _ (ends_blanks after hends), bind_ok]
  dsimp only
  rw [skip_blanks after (noBlank_cons hc rest)]

/-- A member and the blanks around it. -/
theorem parseMembers_step {ps : List Piece} {key : Bytes} (hkey : Piece.decode ps = some key)
    {v : Tree .value} (hv : Complete .value v) {child : Value}
    (hread : v.read Decimal.toDouble = some child) {fuel : Nat}
    (hfuel : 3 * v.render.length + 1 ≤ fuel) (before : Blanks) (colon : Blanks × Blanks)
    (after : Blanks) (out : List (Bytes × Value)) (hc : isBlank c = false)
    {rest : Bytes} (hends : Ends (c :: rest)) :
    parseMembers (fuel + 1) out
        (Tree.renderKey before ps colon ++ v.render ++ after.bytes ++ c :: rest) =
      if c = 0x2C then parseMembers fuel (out ++ [(key, child)]) rest
      else if c = 0x7D then .ok (out ++ [(key, child)], rest)
      else fail "expected ',' or '\x7d' in object" (c :: rest) := by
  have hquote : skipWhitespace
      (Tree.renderKey before ps colon ++ v.render ++ after.bytes ++ c :: rest) =
      0x22 :: (Piece.renderAll ps ++ (colon.1.bytes ++ 0x3A ::
        (colon.2.bytes ++ (v.render ++ (after.bytes ++ c :: rest))))) := by
    simp only [Tree.renderKey, List.append_assoc, List.cons_append]
    exact skip_blanks before (noBlank_cons rfl _)
  have hstring : parseString (Piece.renderAll ps ++ (colon.1.bytes ++ 0x3A ::
      (colon.2.bytes ++ (v.render ++ (after.bytes ++ c :: rest))))) = .ok (key, colon.1.bytes ++
        0x3A :: (colon.2.bytes ++ (v.render ++ (after.bytes ++ c :: rest)))) :=
    parseString_iff.mpr ⟨ps, rfl, hkey⟩
  have hcolon : skipWhitespace (colon.1.bytes ++ 0x3A ::
      (colon.2.bytes ++ (v.render ++ (after.bytes ++ c :: rest)))) =
        0x3A :: (colon.2.bytes ++ (v.render ++ (after.bytes ++ c :: rest))) :=
    skip_blanks colon.1 (noBlank_cons rfl _)
  rw [parseMembers, hquote]
  simp only [List.head?_cons, ne_eq, not_true_eq_false, if_false, List.tail_cons, hstring, bind_ok,
    hcolon]
  rw [skip_blanks colon.2 (noBlank_value v _), hv child hread fuel hfuel _
    (ends_blanks after hends), bind_ok]
  dsimp only
  rw [skip_blanks after (noBlank_cons hc rest)]

/-- A number is not taken for anything else. -/
theorem complete_number (n : Numeral) : Complete .value (.number n) := by
  intro v hread fuel hfuel rest hends
  obtain ⟨fuel, rfl⟩ : ∃ k, fuel = k + 1 := ⟨fuel - 1, by omega⟩
  obtain ⟨b, s, hrender, hhead⟩ := n.head_render
  have hparse := parseNumber_complete n hends
  rw [strtod, scan_render] at hparse
  rw [Tree.read, Option.some.injEq] at hread
  rw [← hread, ← hparse, Tree.render, hrender, List.cons_append, parseValue]
  have hne {c : UInt8} (hc : c ≠ 0x2D ∧ isDigit c = false) : ¬ b = c := by
    rintro rfl
    rcases hhead with h | h
    · exact hc.1 h
    · exact absurd h (by rw [hc.2]; decide)
  rw [if_neg (hne (by decide)), if_neg (hne (by decide)), if_neg (hne (by decide)),
    if_neg (not_or.mpr ⟨hne (by decide), hne (by decide)⟩), if_neg (hne (by decide))]

/-- The bracket of an array that is not empty is not followed by the closing one. -/
theorem head_elements (t : Tree .elements) (rest : Bytes) :
    (skipWhitespace (t.render ++ rest)).head? ≠ some 0x5D := by
  have hfirst (before : Blanks) (v : Tree .value) (s : Bytes) :
      (skipWhitespace (before.bytes ++ (v.render ++ s))).head? ≠ some 0x5D := by
    rw [skip_blanks before (noBlank_value v s)]
    obtain ⟨b, s', hrender, _, hb, _⟩ := v.head_render
    rw [hrender]
    exact fun h => hb (Option.some.inj h)
  cases t <;> simp only [Tree.render, List.append_assoc] <;> exact hfirst _ _ _

theorem head_members (t : Tree .members) (rest : Bytes) :
    (skipWhitespace (t.render ++ rest)).head? ≠ some 0x7D := by
  have hfirst (before : Blanks) (s : Bytes) :
      (skipWhitespace (before.bytes ++ 0x22 :: s)).head? ≠ some 0x7D := by
    rw [skip_blanks before (noBlank_cons rfl s)]
    exact fun h => absurd (Option.some.inj h) (by decide)
  cases t <;> simp only [Tree.render, Tree.renderKey, List.append_assoc, List.cons_append] <;>
    exact hfirst _ _

/-- Brackets with nothing between them but blanks. -/
theorem skip_closing (inside : Blanks) (hc : isBlank c = false) (rest : Bytes) :
    skipWhitespace (inside.bytes ++ [c] ++ rest) = c :: rest := by
  rw [List.append_assoc]
  exact skip_blanks inside (noBlank_cons hc rest)

/-- Each tree that stands for something is read, by induction on the tree. -/
theorem complete {p : Part} (t : Tree p) : Complete p t := by
  induction t with
  | number n => exact complete_number n
  | null =>
    intro v hread fuel hfuel rest _
    obtain ⟨fuel, rfl⟩ : ∃ k, fuel = k + 1 := ⟨fuel - 1, by omega⟩
    cases hread
    exact parseNull_iff.mpr ⟨rfl, rfl⟩
  | bool b =>
    intro v hread fuel hfuel rest _
    obtain ⟨fuel, rfl⟩ : ∃ k, fuel = k + 1 := ⟨fuel - 1, by omega⟩
    cases hread
    cases b <;> rfl
  | string s =>
    intro v hread fuel hfuel rest _
    obtain ⟨fuel, rfl⟩ : ∃ k, fuel = k + 1 := ⟨fuel - 1, by omega⟩
    rw [Tree.read, Option.map_eq_some_iff] at hread
    obtain ⟨d, hs, rfl⟩ := hread
    have hstring : parseString (Piece.renderAll s ++ rest) = .ok (d, rest) :=
      parseString_iff.mpr ⟨s, rfl, hs⟩
    rw [Tree.render, List.cons_append, parseValue, if_neg (by decide), if_neg (by decide),
      if_pos rfl, hstring]
    rfl
  | emptyArray inside =>
    intro v hread fuel hfuel rest _
    obtain ⟨fuel, rfl⟩ : ∃ k, fuel = k + 2 := ⟨fuel - 2, by
      simp only [Tree.render, List.length_append, List.length_cons] at hfuel; omega⟩
    cases hread
    rw [Tree.render, List.cons_append, List.cons_append, parseValue, if_neg (by decide),
      if_pos rfl, parseArray, skip_closing inside rfl]
    rfl
  | emptyObject inside =>
    intro v hread fuel hfuel rest _
    obtain ⟨fuel, rfl⟩ : ∃ k, fuel = k + 2 := ⟨fuel - 2, by
      simp only [Tree.render, List.length_append, List.length_cons] at hfuel; omega⟩
    cases hread
    rw [Tree.render, List.cons_append, List.cons_append, parseValue, if_pos rfl, parseObject,
      skip_closing inside rfl]
    rfl
  | array elements ih =>
    intro v hread fuel hfuel rest _
    simp only [Tree.render, List.length_cons] at hfuel
    obtain ⟨fuel, rfl⟩ : ∃ k, fuel = k + 2 := ⟨fuel - 2, by omega⟩
    rw [Tree.read, Option.map_eq_some_iff] at hread
    obtain ⟨vs, helements, rfl⟩ := hread
    rw [Tree.render, List.cons_append, parseValue, if_neg (by decide), if_pos rfl, parseArray,
      if_neg (head_elements elements rest), parseElements_skip,
      ih vs helements fuel (by omega) [] rest]
    rfl
  | object members ih =>
    intro v hread fuel hfuel rest _
    simp only [Tree.render, List.length_cons] at hfuel
    obtain ⟨fuel, rfl⟩ : ∃ k, fuel = k + 2 := ⟨fuel - 2, by omega⟩
    rw [Tree.read, Option.map_eq_some_iff] at hread
    obtain ⟨ms, hmembers, rfl⟩ := hread
    rw [Tree.render, List.cons_append, parseValue, if_pos rfl, parseObject,
      if_neg (head_members members rest), parseMembers_skip,
      ih ms hmembers fuel (by omega) [] rest]
    rfl
  | last before v after ih =>
    intro vs hread fuel hfuel out rest
    simp only [Tree.render, List.length_append, List.length_cons, List.length_nil] at hfuel
    obtain ⟨fuel, rfl⟩ : ∃ k, fuel = k + 1 := ⟨fuel - 1, by omega⟩
    rw [Tree.read, Option.map_eq_some_iff] at hread
    obtain ⟨child, hchild, rfl⟩ := hread
    rw [Tree.render, List.append_assoc]
    exact parseElements_step ih hchild (by omega) before after out rfl (ends_bracket rest)
  | cons before v after t ihv iht =>
    intro vs hread fuel hfuel out rest
    simp only [Tree.render, List.length_append, List.length_cons] at hfuel
    obtain ⟨fuel, rfl⟩ : ∃ k, fuel = k + 1 := ⟨fuel - 1, by omega⟩
    rw [Tree.read, Option.bind_eq_some_iff] at hread
    obtain ⟨child, hchild, hread⟩ := hread
    obtain ⟨xs, ht, rfl⟩ := Option.map_eq_some_iff.mp hread
    rw [Tree.render, List.append_assoc, List.cons_append,
      parseElements_step ihv hchild (by omega) before after out rfl (ends_comma _), if_pos rfl,
      iht xs ht fuel (by omega), List.append_assoc]
    rfl
  | lastMember before key colon v after ih =>
    intro ms hread fuel hfuel out rest
    simp only [Tree.render, List.length_append, List.length_cons, List.length_nil] at hfuel
    obtain ⟨fuel, rfl⟩ : ∃ k, fuel = k + 1 := ⟨fuel - 1, by omega⟩
    rw [Tree.read, Option.bind_eq_some_iff] at hread
    obtain ⟨k, hkey, hread⟩ := hread
    obtain ⟨child, hchild, rfl⟩ := Option.map_eq_some_iff.mp hread
    rw [Tree.render, List.append_assoc]
    exact parseMembers_step hkey ih hchild (by omega) before colon after out rfl (ends_brace rest)
  | consMember before key colon v after t ihv iht =>
    intro ms hread fuel hfuel out rest
    simp only [Tree.render, List.length_append, List.length_cons] at hfuel
    obtain ⟨fuel, rfl⟩ : ∃ k, fuel = k + 1 := ⟨fuel - 1, by omega⟩
    rw [Tree.read, Option.bind_eq_some_iff] at hread
    obtain ⟨k, hkey, hread⟩ := hread
    obtain ⟨child, hchild, hread⟩ := Option.bind_eq_some_iff.mp hread
    obtain ⟨xs, ht, rfl⟩ := Option.map_eq_some_iff.mp hread
    rw [Tree.render, List.append_assoc, List.cons_append,
      parseMembers_step hkey ihv hchild (by omega) before colon after out rfl (ends_comma _),
      if_pos rfl, iht xs ht fuel (by omega), List.append_assoc]
    rfl

end Completeness

section Supply

/-- A value that was read has taken a byte at least. -/
theorem shorter {fuel : Nat} {s rest : Bytes} {v : Value}
    (h : parseValue fuel s = .ok (v, rest)) : rest.length < s.length := by
  obtain ⟨t, rfl, _⟩ := (sound fuel).value h
  have := length_value t
  rw [List.length_append]
  omega

theorem shorter_string {s d rest : Bytes} (h : parseString s = .ok (d, rest)) :
    rest.length < s.length := by
  obtain ⟨ps, rfl, _⟩ := parseString_iff.mp h
  rw [List.length_append, Piece.renderAll, List.length_append, List.length_singleton]
  omega

/-- The bytes for which a supply is enough, call by call. -/
structure Fed (fuel : Nat) : Prop where
  value : ∀ s, 3 * s.length + 1 ≤ fuel → Ready (parseValue fuel s)
  object : ∀ s, 3 * s.length + 3 ≤ fuel → Ready (parseObject fuel s)
  members : ∀ out s, 3 * s.length + 2 ≤ fuel → Ready (parseMembers fuel out s)
  array : ∀ s, 3 * s.length + 3 ≤ fuel → Ready (parseArray fuel s)
  elements : ∀ out s, 3 * s.length + 2 ≤ fuel → Ready (parseElements fuel out s)

namespace Fed

variable {fuel : Nat} (h : Fed fuel)

include h

theorem value_succ (s : Bytes) (hfuel : 3 * s.length + 1 ≤ fuel + 1) :
    Ready (parseValue (fuel + 1) s) := by
  cases s with
  | nil => rw [parseValue]; exact Ready.fail _ _
  | cons c s =>
    rw [List.length_cons] at hfuel
    rw [parseValue]
    split_ifs
    · exact h.object s (by omega)
    · exact h.array s (by omega)
    · exact (ready_parseString s).map _
    · exact ready_parseBool _
    · exact ready_parseNull _
    · exact ready_parseNumber _

theorem object_succ (s : Bytes) (hfuel : 3 * s.length + 3 ≤ fuel + 1) :
    Ready (parseObject (fuel + 1) s) := by
  rw [parseObject]
  split_ifs
  · exact Ready.ok _
  · exact (parseMembers_skip fuel [] s ▸ h.members [] s (by omega)).map _

theorem array_succ (s : Bytes) (hfuel : 3 * s.length + 3 ≤ fuel + 1) :
    Ready (parseArray (fuel + 1) s) := by
  rw [parseArray]
  split_ifs
  · exact Ready.ok _
  · exact (parseElements_skip fuel [] s ▸ h.elements [] s (by omega)).map _

theorem elements_succ (out : List Value) (s : Bytes) (hfuel : 3 * s.length + 2 ≤ fuel + 1) :
    Ready (parseElements (fuel + 1) out s) := by
  have hskip := length_skip s
  rw [parseElements]
  refine (h.value _ (by omega)).bind fun ⟨child, s1⟩ hvalue => ?_
  have hshort := shorter hvalue
  have hskip1 := length_skip s1
  dsimp only
  split
  · exact Ready.fail _ _
  · rename_i c s2 hnext
    rw [hnext, List.length_cons] at hskip1
    split_ifs
    · exact h.elements _ _ (by omega)
    · exact Ready.ok _
    · exact Ready.fail _ _

theorem members_succ (out : List (Bytes × Value)) (s : Bytes)
    (hfuel : 3 * s.length + 2 ≤ fuel + 1) : Ready (parseMembers (fuel + 1) out s) := by
  have hskip := length_skip s
  rw [parseMembers]
  split_ifs with hquote
  · exact Ready.fail _ _
  refine (ready_parseString _).bind fun ⟨key, s1⟩ hstring => ?_
  have hshort := shorter_string hstring
  have hskip1 := length_skip s1
  have htail := List.length_tail (l := skipWhitespace s)
  dsimp only
  split_ifs with hcolon
  · exact Ready.fail _ _
  have htail1 := List.length_tail (l := skipWhitespace s1)
  have hright := length_skip (skipWhitespace s1).tail
  refine (h.value _ (by omega)).bind fun ⟨child, s2⟩ hvalue => ?_
  have hshort2 := shorter hvalue
  have hskip2 := length_skip s2
  dsimp only
  split
  · exact Ready.fail _ _
  · rename_i c s3 hnext
    rw [hnext, List.length_cons] at hskip2
    split_ifs
    · exact h.members _ _ (by omega)
    · exact Ready.ok _
    · exact Ready.fail _ _

end Fed

/-- The supply is enough at each depth, by induction on it. -/
theorem fed (fuel : Nat) : Fed fuel := by
  induction fuel with
  | zero => constructor <;> intros <;> omega
  | succ fuel ih =>
    exact ⟨ih.value_succ, ih.object_succ, ih.members_succ, ih.array_succ, ih.elements_succ⟩

theorem ready_parse (text : Bytes) : Ready (Parser.parse text) := by
  have hskip := length_skip text
  refine ((fed _).value _ (by omega)).bind fun ⟨v, s⟩ _ => ?_
  dsimp only
  split_ifs
  · exact Ready.ok _
  · exact Ready.fail _ _

end Supply

section Texts

/-- The texts that are accepted are those of the trees, with the values of these. -/
theorem parser_parse_iff {text : Bytes} {v : Value} :
    Parser.parse text = .ok v ↔
      ∃ d : Document, d.render = text ∧ d.read Decimal.toDouble = some v := by
  constructor
  · intro h
    obtain ⟨⟨out, s⟩, hvalue, h⟩ := ok_of_bind h
    obtain ⟨t, hs, ht⟩ := (sound _).value hvalue
    dsimp only at h
    split_ifs at h with hend
    · obtain ⟨before, hbefore⟩ := exists_blanks text
      obtain ⟨after, hafter⟩ := exists_blanks s
      rw [hend, List.append_nil] at hafter
      refine ⟨⟨before, t, after⟩, ?_, Except.ok.inj h ▸ ht⟩
      rw [Document.render, List.append_assoc, ← hafter, ← hs, ← hbefore]
    · exact absurd h (fail_ne_ok _ _ _)
  · rintro ⟨⟨before, t, after⟩, rfl, hread⟩
    have hskip : skipWhitespace (Document.render ⟨before, t, after⟩) =
        t.render ++ (after.bytes ++ []) := by
      rw [Document.render, List.append_assoc, List.append_nil]
      exact skip_blanks before (noBlank_value t _)
    have hfuel : 3 * t.render.length + 1 ≤
        3 * (Document.render ⟨before, t, after⟩).length + 1 := by
      simp only [Document.render, List.length_append]
      omega
    rw [Parser.parse, hskip, complete t v hread _ hfuel _ (ends_blanks after ends_nil), bind_ok]
    dsimp only
    have hend : skipWhitespace (after.bytes ++ []) = [] := skip_blanks after fun _ h => nomatch h
    rw [hend, if_pos rfl]

/-- A text without a numeral that the standard forbids is accepted exactly if it is a
    document whose surrogates are paired, and then for the value of the document. -/
theorem parse_iff_document (text : Bytes) :
    ∃ r, parse text = some r ∧ (¬ ZeroLed text → ∀ v, r = .ok v ↔
      ∃ d : Document, d.Strict ∧ d.render = text ∧ d.read Decimal.toDouble = some v) := by
  have hready := ready_parse text
  -- Without such a numeral every tree is one of the standard.
  have hstrict (hplain : ¬ ZeroLed text) (v : Value) : Parser.parse text = .ok v ↔
      ∃ d : Document, d.Strict ∧ d.render = text ∧ d.read Decimal.toDouble = some v := by
    rw [parser_parse_iff]
    constructor
    · rintro ⟨d, hd, hread⟩
      exact ⟨d, by_contra fun hn => hplain ⟨d, hd, hn⟩, hd, hread⟩
    · rintro ⟨d, _, hd, hread⟩
      exact ⟨d, hd, hread⟩
  rcases hparse : Parser.parse text with (⟨message, rest⟩ | _) | out
  · refine ⟨.error (report text message rest), by rw [parse, hparse], fun hplain v => ?_⟩
    rw [← hstrict hplain v, hparse]
    simp only [reduceCtorEq]
  · exact absurd hparse hready
  · refine ⟨.ok out, by rw [parse, hparse], fun hplain v => ?_⟩
    rw [← hstrict hplain v, hparse, Except.ok.injEq, Except.ok.injEq]

/-- A text that starts with a digit is a numeral, and its digits are those of the text. -/
theorem whole_of_render {d : Document} {b : UInt8} {s : Bytes} (h : d.render = b :: s)
    (hb : isDigit b = true) :
    ∃ n, d.value = .number n ∧ n.whole.bytes = (b :: s).takeWhile isDigit := by
  obtain ⟨before, t, after⟩ := d
  have hbefore : before.bytes = [] := by
    rcases hbytes : before.bytes with _ | ⟨c, bytes⟩
    · rfl
    · -- A blank is no digit.
      have hblank := before.blank c (hbytes ▸ List.mem_cons_self)
      simp only [Document.render, hbytes, List.cons_append, List.cons.injEq] at h
      rw [h.1] at hblank
      simp only [isBlank, Bool.or_eq_true, beq_iff_eq] at hblank
      rcases hblank with ((rfl | rfl) | rfl) | rfl <;> exact absurd hb (by decide)
  simp only [Document.render, hbefore, List.nil_append] at h
  have hfirst {c : UInt8} {rest : Bytes} (hc : c :: rest = b :: s) (hno : isDigit c = false) :
      False := by
    rw [(List.cons.inj hc).1, hb] at hno
    exact absurd hno (by decide)
  cases t with
  | number n =>
    refine ⟨n, rfl, ?_⟩
    obtain ⟨negative, whole, fraction, exponent⟩ := n
    cases negative with
    | true => exact (hfirst h rfl).elim
    | false =>
      have hends := noDigit_fraction fraction exponent (ends_blanks after ends_nil).noDigit
      simp only [Tree.render, Numeral.render, Bool.false_eq_true, if_false, List.nil_append,
        List.append_assoc] at h
      rw [← h]
      rw [List.append_nil] at hends
      exact (takeWhile_digits whole hends).symm
  | null => exact (hfirst h rfl).elim
  | bool b => cases b <;> exact (hfirst h rfl).elim
  | string s => exact (hfirst h rfl).elim
  | emptyArray inside => exact (hfirst h rfl).elim
  | array elements => exact (hfirst h rfl).elim
  | emptyObject inside => exact (hfirst h rfl).elim
  | object members => exact (hfirst h rfl).elim

/-- A value with no blanks around it. -/
def bare (t : Tree .value) : Document := ⟨⟨[], nofun⟩, t, ⟨[], nofun⟩⟩

/-- A numeral of digits only. -/
def ofDigits (d : Digits) : Tree .value := .number ⟨false, d, none, none⟩

theorem bare_render (t : Tree .value) : (bare t).render = t.render := List.append_nil _

theorem ofDigits_render (d : Digits) : (ofDigits d).render = d.bytes := by
  simp only [ofDigits, Tree.render, Numeral.render, Bool.false_eq_true, if_false,
    Numeral.renderFraction, Numeral.renderExponent, List.append_nil, List.nil_append]

/-- `70`. -/
def seventy : Digits where
  bytes := [0x37, 0x30]
  digit := List.forall_mem_cons.mpr ⟨rfl, List.forall_mem_singleton.mpr rfl⟩
  nonempty := List.cons_ne_nil _ _

/-- `70` is accepted. -/
theorem seventy_accepted : ∃ v, parse seventy.bytes = some (.ok v) := by
  obtain ⟨r, hr, hiff⟩ := parse_iff_document seventy.bytes
  have hplain : ¬ ZeroLed seventy.bytes := by
    rintro ⟨d, hd, hn⟩
    obtain ⟨n, hvalue, hwhole⟩ := whole_of_render hd rfl
    rw [Document.Strict, hvalue] at hn
    exact hn fun hzero => absurd (hwhole ▸ hzero) (by decide)
  have hstrict : (bare (ofDigits seventy)).Strict := fun hzero => absurd hzero (by decide)
  have hdocument := (hiff hplain _).mpr ⟨bare (ofDigits seventy), hstrict,
    (bare_render _).trans (ofDigits_render _), rfl⟩
  exact ⟨_, hr.trans (congrArg some hdocument)⟩

/-- `"\uDEAD"`, half of a surrogate pair. -/
def halfPair : Tree .value :=
  .string [.unit ⟨0x44, 0x45, 0x41, 0x44, 13, 14, 10, 13, by decide⟩]

/-- `01`. -/
def zeroOne : Digits where
  bytes := [0x30, 0x31]
  digit := List.forall_mem_cons.mpr ⟨rfl, List.forall_mem_singleton.mpr rfl⟩
  nonempty := List.cons_ne_nil _ _

/-- The grammar allows half of a surrogate pair, which is refused, and no zero in front of
    another digit, which is accepted. -/
theorem lone_surrogate :
    ((bare halfPair).Strict ∧ ∀ v, parse (bare halfPair).render ≠ some (.ok v)) ∧
      (¬ ∃ d : Document, d.Strict ∧ d.render = zeroOne.bytes) ∧
        ∃ v, parse zeroOne.bytes = some (.ok v) := by
  refine ⟨⟨trivial, fun v hv => ?_⟩, ?_, ?_⟩
  · have hparse : ((parse (bare halfPair).render).bind Except.toOption).isNone := by
      decide +kernel
    rw [hv] at hparse
    exact absurd hparse Bool.false_ne_true
  · rintro ⟨d, hd, hrender⟩
    obtain ⟨n, hvalue, hwhole⟩ := whole_of_render hrender rfl
    rw [Document.Strict, hvalue] at hd
    have hlong := hd (by rw [hwhole]; rfl)
    rw [hwhole] at hlong
    exact absurd hlong (by decide)
  · have hdocument : Parser.parse zeroOne.bytes = .ok _ := parser_parse_iff.mpr
      ⟨bare (ofDigits zeroOne), (bare_render _).trans (ofDigits_render _), rfl⟩
    exact ⟨_, by rw [parse, hdocument]⟩

end Texts

end Json

end EarthRise
