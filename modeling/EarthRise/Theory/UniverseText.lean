import EarthRise.Core.UniverseSource

/-!
# The Grammar of Universe Texts

A text that is accepted is a document: blocks of assignments, as the grammar has them. And what is
accepted says what the assignments say in their order. Both directions go token by token, with the
lines left out, since they only matter to messages.

An assignment may have any tokens as values but those that end it: no closing brace, and no equals
sign but the first value. A key is no brace and no equals sign.

## Main definitions

* `Assignment`, `Block`: The parts of a document, with their tokens.
* `runBody`: What assignments do, one after the other.
* `extend`: What a document adds to a dataset.

## Theorems

* `readBlock_sound`, `readBlock_complete`: Blocks.
* `parseLoop_sound`: What is accepted is a document.
* `parseLoop_complete`: A document without messages is accepted.
-/

namespace EarthRise

namespace Tools

open Cooked (Text UniverseDataset)

structure Assignment where
  key : Text
  values : List Text

namespace Assignment

def tokens (a : Assignment) : List Text := a.key :: equals :: a.values

structure WellFormed (a : Assignment) : Prop where
  key : a.key ≠ closeBrace ∧ a.key ≠ openBrace ∧ a.key ≠ equals
  values : closeBrace ∉ a.values
  tail : equals ∉ a.values.tail

end Assignment

structure Block where
  kind : Kind
  name : Text
  body : List Assignment

namespace Block

def header (b : Block) : List Text :=
  b.kind.text :: (if b.kind.named then [b.name] else []) ++ [openBrace]

def bodyTokens (body : List Assignment) : List Text := body.flatMap Assignment.tokens

def tokens (b : Block) : List Text := b.header ++ bodyTokens b.body ++ [closeBrace]

/-- A name is a token that is no mark, and there is none where none is written. -/
structure WellFormed (b : Block) : Prop where
  name : if b.kind.named then b.name ≠ openBrace ∧ b.name ≠ closeBrace ∧ b.name ≠ equals
    else b.name = []
  body : ∀ a ∈ b.body, a.WellFormed

end Block

theorem bodyTokens_cons (a : Assignment) (body : List Assignment) :
    Block.bodyTokens (a :: body) = a.key :: equals :: (a.values ++ Block.bodyTokens body) := rfl

def texts (toks : List Token) : List Text := toks.map Token.text

/-! ## Values -/

/-- What follows values: the end of the block, or a key that is assigned to. -/
def EndsValues : List Text → Prop
  | [] => False
  | t :: rest => t = closeBrace ∨ (t ≠ equals ∧ rest.head? = some equals)

theorem readValues_sound (toks : List Token) :
    texts toks = (readValues toks).1 ++ texts (readValues toks).2 ∧
      closeBrace ∉ (readValues toks).1 ∧
      ((texts toks).head? ≠ some equals → equals ∉ (readValues toks).1) := by
  induction toks with
  | nil => exact ⟨rfl, List.not_mem_nil, fun _ => List.not_mem_nil⟩
  | cons t rest ih =>
      rcases ih with ⟨happend, hclosed, hequals⟩
      unfold readValues
      by_cases hclose : t.text = closeBrace
      · rw [if_pos hclose]
        exact ⟨rfl, List.not_mem_nil, fun _ => List.not_mem_nil⟩
      by_cases hnext : rest.head?.map Token.text = some equals
      · rw [if_neg hclose, if_pos hnext]
        exact ⟨rfl, List.not_mem_nil, fun _ => List.not_mem_nil⟩
      rw [if_neg hclose, if_neg hnext]
      have hrest : (texts rest).head? ≠ some equals := by
        unfold texts
        rwa [List.head?_map]
      refine ⟨congrArg (t.text :: ·) happend, ?_, fun ht => ?_⟩
      · exact List.not_mem_cons_of_ne_of_not_mem (fun h => hclose h.symm) hclosed
      · exact List.not_mem_cons_of_ne_of_not_mem (fun h => ht (congrArg some h.symm))
          (hequals hrest)

/-- No value but the first one is an equals sign. -/
theorem readValues_tail (toks : List Token) : equals ∉ (readValues toks).1.tail := by
  cases toks with
  | nil => exact List.not_mem_nil
  | cons t rest =>
      unfold readValues
      split_ifs with hclose hnext
      · exact List.not_mem_nil
      · exact List.not_mem_nil
      · refine (readValues_sound rest).2.2 ?_
        unfold texts
        rwa [List.head?_map]

theorem readValues_complete {toks : List Token} {values next : List Text}
    (h : texts toks = values ++ next) (hclose : closeBrace ∉ values)
    (hequals : equals ∉ values.tail) (hnext : EndsValues next) :
    (readValues toks).1 = values ∧ texts (readValues toks).2 = next := by
  induction values generalizing toks with
  | nil =>
      rw [List.nil_append] at h
      rw [← h] at hnext
      cases toks with
      | nil => exact absurd hnext not_false
      | cons t rest =>
          rw [← h]
          unfold readValues
          rcases hnext with hbrace | ⟨_, hassigned⟩
          · rw [if_pos hbrace]
            exact ⟨rfl, rfl⟩
          · rw [List.head?_map] at hassigned
            split_ifs
            · exact ⟨rfl, rfl⟩
            · exact ⟨rfl, rfl⟩
  | cons v values ih =>
      cases toks with
      | nil => exact absurd h (List.cons_ne_nil _ _).symm
      | cons t rest =>
          rcases List.cons.inj h with ⟨hv, hrest⟩
          have hvclose := List.ne_of_not_mem_cons hclose
          have hclose := List.not_mem_of_not_mem_cons hclose
          -- The next token is a value or what ends them, and neither is an equals sign.
          have hhead : ¬rest.head?.map Token.text = some equals := by
            have hmap : rest.head?.map Token.text = (values ++ next).head? := by
              rw [← List.head?_map]
              exact congrArg List.head? hrest
            rw [hmap]
            intro heq
            cases values with
            | nil =>
                cases next with
                | nil => exact absurd hnext not_false
                | cons n next =>
                    have hn : n = equals := Option.some.inj heq
                    rcases hnext with hbrace | ⟨hne, _⟩
                    · exact absurd (hn.symm.trans hbrace) (by decide)
                    · exact hne hn
            | cons w values =>
                have hw : w = equals := Option.some.inj heq
                exact hequals (hw ▸ List.mem_cons_self)
          unfold readValues
          rw [if_neg (fun ht => hvclose (ht.symm.trans hv)), if_neg hhead]
          rcases ih hrest hclose (fun hmem => hequals (List.mem_of_mem_tail hmem)) with ⟨h1, h2⟩
          exact ⟨congrArg₂ List.cons hv h1, h2⟩

/-! ## Blocks -/

section

variable {F : Type} [FloatText F] {kind : Kind}

/-- What assignments do, one after the other, and their messages. -/
@[simp] def runBody (kind : Kind) : List Assignment → OpenBlock F → OpenBlock F × List Text
  | [], o => (o, [])
  | a :: body, o =>
      let r := applyKey kind a.key a.values o
      let r' := runBody kind body r.1
      (r'.1, r.2 ++ r'.2)

theorem readBlock_assign {t e : Token} (rest : List Token) (o : OpenBlock F)
    (hclose : t.text ≠ closeBrace) (hmark : ¬(t.text = openBrace ∨ t.text = equals))
    (he : e.text = equals) :
    readBlock kind (t :: e :: rest) o =
      (readBlock kind (readValues rest).2 (apply kind t.text t.line (readValues rest).1 o).1).report
        (apply kind t.text t.line (readValues rest).1 o).2 := by
  have hnext : (e :: rest).head?.map Token.text = some equals := congrArg some he
  rw [readBlock, if_neg hclose, if_neg hmark, if_pos hnext]
  rfl

theorem readBlock_sound {toks : List Token} {o : OpenBlock F}
    (hclosed : (readBlock kind toks o).closed = true) (herrors : (readBlock kind toks o).errors = []) :
    ∃ body : List Assignment, (∀ a ∈ body, a.WellFormed) ∧
      texts toks = Block.bodyTokens body ++ closeBrace :: texts (readBlock kind toks o).rest ∧
      runBody kind body o = ((readBlock kind toks o).block, []) := by
  induction toks, o using @readBlock.induct F _ kind with
  | case1 o =>
      rw [readBlock] at hclosed
      exact absurd hclosed Bool.false_ne_true
  | case2 t rest o hclose =>
      rw [readBlock, if_pos hclose]
      exact ⟨[], fun a ha => absurd ha List.not_mem_nil, congrArg (· :: texts rest) hclose, rfl⟩
  | case3 t rest o hclose hmark ih =>
      rw [readBlock, if_neg hclose, if_pos hmark] at herrors
      exact absurd herrors (List.cons_ne_nil _ _)
  | case4 t rest o hclose hmark heq v r ih =>
      cases rest with
      | nil => exact absurd heq (Option.some_ne_none _).symm
      | cons e rest =>
          have he : e.text = equals := Option.some.inj heq
          rw [readBlock_assign rest o hclose hmark he] at hclosed herrors ⊢
          -- The assignment had no messages, and the rest of the block has none.
          rcases List.append_eq_nil_iff.mp herrors with ⟨hr, herrors⟩
          have happly : (applyKey kind t.text (readValues rest).1 o).2 = [] :=
            List.map_eq_nil_iff.mp hr
          rcases ih hclosed herrors with ⟨body, hwf, htexts, hrun⟩
          rcases readValues_sound rest with ⟨happend, hbrace, _⟩
          refine ⟨⟨t.text, (readValues rest).1⟩ :: body, List.forall_mem_cons.mpr
            ⟨⟨⟨hclose, not_or.mp hmark⟩, hbrace, readValues_tail rest⟩, hwf⟩, ?_, ?_⟩
          · calc texts (t :: e :: rest)
                = t.text :: equals :: ((readValues rest).1 ++ texts (readValues rest).2) := by
                  rw [← happend, ← he]
                  rfl
              _ = t.text :: equals :: ((readValues rest).1 ++
                    (Block.bodyTokens body ++ closeBrace :: texts (readBlock kind v.2 r.1).rest)) := by
                  rw [← htexts]
                  rfl
              _ = _ := by
                  rw [bodyTokens_cons, ← List.append_assoc]
                  rfl
          · unfold runBody
            dsimp only
            rw [happly]
            exact congrArg₂ Prod.mk (congrArg Prod.fst hrun) (congrArg Prod.snd hrun)
  | case5 t rest o hclose hmark heq ih =>
      rw [readBlock, if_neg hclose, if_neg hmark, if_neg heq] at herrors
      exact absurd herrors (List.cons_ne_nil _ _)

/-- What follows the values of an assignment: the next one, or the end of the block. -/
theorem endsValues_body {body : List Assignment} (hwf : ∀ a ∈ body, a.WellFormed)
    (rest : List Text) : EndsValues (Block.bodyTokens body ++ closeBrace :: rest) := by
  cases body with
  | nil => exact .inl rfl
  | cons a body => exact .inr ⟨(hwf a List.mem_cons_self).key.2.2, rfl⟩

theorem readBlock_complete {body : List Assignment}
    (hwf : ∀ a ∈ body, a.WellFormed) {toks : List Token} {o : OpenBlock F} {rest : List Text}
    (htexts : texts toks = Block.bodyTokens body ++ closeBrace :: rest)
    (hrun : (runBody kind body o).2 = []) :
    (readBlock kind toks o).closed = true ∧ (readBlock kind toks o).errors = [] ∧
      texts (readBlock kind toks o).rest = rest ∧
      (readBlock kind toks o).block = (runBody kind body o).1 := by
  induction body generalizing toks o with
  | nil =>
      cases toks with
      | nil => exact absurd htexts (List.cons_ne_nil _ _).symm
      | cons t toks =>
          rcases List.cons.inj htexts with ⟨ht, hrest⟩
          rw [readBlock, if_pos ht]
          exact ⟨rfl, rfl, hrest, rfl⟩
  | cons a body ih =>
      rcases List.forall_mem_cons.mp hwf with ⟨ha, hwf⟩
      rcases List.append_eq_nil_iff.mp hrun with ⟨happly, hrun⟩
      -- The tokens start with the key, an equals sign and the values.
      cases toks with
      | nil => exact absurd htexts (List.cons_ne_nil _ _).symm
      | cons t toks =>
      cases toks with
      | nil => exact absurd (List.cons.inj htexts).2 (List.cons_ne_nil _ _).symm
      | cons e toks =>
          rw [bodyTokens_cons] at htexts
          rcases List.cons.inj htexts with ⟨ht, htail⟩
          rcases List.cons.inj htail with ⟨he, hvalues⟩
          rw [List.append_eq, List.append_assoc] at hvalues
          rcases readValues_complete hvalues ha.values ha.tail (endsValues_body hwf rest) with
            ⟨hv, hrest⟩
          have hclose : t.text ≠ closeBrace := fun h => ha.key.1 (ht.symm.trans h)
          have hmark : ¬(t.text = openBrace ∨ t.text = equals) := by
            rw [ht]
            exact not_or.mpr ha.key.2
          rw [readBlock_assign toks o hclose hmark he]
          have hr : (apply kind t.text t.line (readValues toks).1 o).1 =
              (applyKey kind a.key a.values o).1 := by
            rw [← ht, ← hv]
            rfl
          have hmessages : (apply kind t.text t.line (readValues toks).1 o).2 = [] := by
            unfold apply
            dsimp only
            rw [ht, hv, happly]
            rfl
          rw [hr, hmessages]
          exact ih hwf hrest hrun

end

/-! ## Headers -/

variable {kind : Kind}

theorem ofText_eq {t : Text} (h : Kind.ofText t = some kind) : t = kind.text := by
  unfold Kind.ofText at h
  have hfound := List.find?_some h
  exact of_decide_eq_true hfound

theorem ofText_text (kind : Kind) : Kind.ofText kind.text = some kind := by
  cases kind <;> decide

theorem readBrace_sound {line : Nat} {kind kind' : Kind} {name name' : Text}
    {rest rest' : List Token} (h : readBrace line kind name rest = .ok (kind', name', rest')) :
    kind' = kind ∧ name' = name ∧ texts rest = openBrace :: texts rest' := by
  unfold readBrace at h
  cases rest with
  | nil => cases h
  | cons brace rest =>
      dsimp only at h
      split at h
      · cases h
        exact ⟨rfl, rfl, congrArg (· :: texts rest') ‹_›⟩
      · cases h

theorem readHeader_sound {t : Token} {rest rest' : List Token} {name : Text}
    (h : readHeader t rest = .ok (kind, name, rest')) :
    (if kind.named then name ≠ openBrace ∧ name ≠ closeBrace ∧ name ≠ equals else name = []) ∧
      texts (t :: rest) = Block.header ⟨kind, name, []⟩ ++ texts rest' := by
  unfold readHeader at h
  cases hkind : Kind.ofText t.text with
  | none =>
      rw [hkind] at h
      cases h
  | some k =>
      rw [hkind] at h
      have ht := ofText_eq hkind
      dsimp only at h
      by_cases hnamed : k.named = true
      · rw [if_pos hnamed] at h
        unfold readName at h
        cases rest with
        | nil => cases h
        | cons n rest =>
            dsimp only at h
            split_ifs at h with hmark
            rcases readBrace_sound h with ⟨rfl, rfl, hrest⟩
            rcases not_or.mp hmark with ⟨hopen, hmark⟩
            rw [if_pos hnamed]
            refine ⟨⟨hopen, not_or.mp hmark⟩, ?_⟩
            unfold Block.header
            rw [if_pos hnamed, ← ht]
            exact congrArg (t.text :: n.text :: ·) hrest
      · rw [if_neg hnamed] at h
        rcases readBrace_sound h with ⟨rfl, rfl, hrest⟩
        rw [if_neg hnamed]
        refine ⟨rfl, ?_⟩
        unfold Block.header
        rw [if_neg hnamed, ← ht]
        exact congrArg (t.text :: ·) hrest

theorem readBrace_complete {line : Nat} {name : Text} {rest : List Token}
    {next : List Text} (h : texts rest = openBrace :: next) :
    readBrace line kind name rest = .ok (kind, name, rest.tail) ∧ texts rest.tail = next := by
  cases rest with
  | nil => exact absurd h (List.cons_ne_nil _ _).symm
  | cons brace rest =>
      rcases List.cons.inj h with ⟨hbrace, hrest⟩
      exact ⟨if_pos hbrace, hrest⟩

theorem readHeader_complete {b : Block} (hwf : b.WellFormed) {t : Token} {rest : List Token}
    {next : List Text} (h : texts (t :: rest) = b.header ++ next) :
    ∃ rest', readHeader t rest = .ok (b.kind, b.name, rest') ∧ texts rest' = next := by
  have hname := hwf.name
  unfold Block.header at h
  rcases List.cons.inj h with ⟨ht, hrest⟩
  unfold readHeader
  rw [ht, ofText_text]
  dsimp only
  by_cases hnamed : b.kind.named = true
  · rw [if_pos hnamed] at hname hrest ⊢
    cases rest with
    | nil => exact absurd hrest (List.cons_ne_nil _ _).symm
    | cons n rest =>
        rcases List.cons.inj hrest with ⟨hn, hrest⟩
        unfold readName
        dsimp only
        rw [hn, if_neg (not_or.mpr ⟨hname.1, not_or.mpr hname.2⟩)]
        exact ⟨rest.tail, readBrace_complete hrest⟩
  · rw [if_neg hnamed] at hname hrest ⊢
    rw [hname]
    exact ⟨rest.tail, readBrace_complete hrest⟩

/-! ## Documents -/

section

variable {F : Type} [Floating F] [FloatText F]

/-- The block that is made of the assignments, and their messages. -/
def Block.run (b : Block) : OpenBlock F × List Text :=
  runBody b.kind b.body (OpenBlock.start b.kind b.name)

/-- What a document adds to a dataset. -/
def extend (doc : List Block) (out : UniverseDataset F) : UniverseDataset F :=
  doc.foldl (fun out b => commit b.kind (Block.run b).1 out) out

/-- The blocks of the grammar, none of which has anything wrong with it. -/
def Document (F : Type) [Floating F] [FloatText F] (doc : List Block) : Prop :=
  ∀ b ∈ doc, b.WellFormed ∧ (Block.run (F := F) b).2 = []

def docTokens (doc : List Block) : List Text := doc.flatMap Block.tokens

theorem parseLoop_refused {t : Token} {rest rest' : List Token} {e : Text}
    (h : readHeader t rest = .error (e, rest')) (out : UniverseDataset F) :
    parseLoop (t :: rest) out = ((parseLoop rest' out).1, e :: (parseLoop rest' out).2) := by
  rw [parseLoop]
  split
  · rename_i hheader
    rw [h] at hheader
    cases hheader
    rfl
  · rename_i hheader
    rw [h] at hheader
    cases hheader

theorem parseLoop_opened {t : Token} {rest rest' : List Token} {kind : Kind} {name : Text}
    (h : readHeader t rest = .ok (kind, name, rest')) (out : UniverseDataset F) :
    parseLoop (t :: rest) out =
      let b := readBlock kind rest' (OpenBlock.start kind name)
      if b.closed then
        let r := parseLoop b.rest (commit kind b.block out)
        (r.1, b.errors ++ r.2)
      else
        let r := parseLoop b.rest out
        (r.1, b.errors ++
          err t.line (blockName kind name ++ Net.ascii " is missing a closing '\x7d'") :: r.2) := by
  rw [parseLoop]
  split
  · rename_i hheader
    rw [h] at hheader
    cases hheader
  · rename_i hheader
    rw [h] at hheader
    cases hheader
    rfl

theorem tokens_append (b : Block) (rest : List Text) :
    b.tokens ++ rest = b.header ++ (Block.bodyTokens b.body ++ closeBrace :: rest) := by
  unfold Block.tokens
  rw [List.append_assoc, List.append_assoc]
  rfl

/-- What is accepted is a document, and is added to the dataset. -/
theorem parseLoop_sound {toks : List Token} {out : UniverseDataset F}
    (h : (parseLoop toks out).2 = []) :
    ∃ doc, Document F doc ∧ texts toks = docTokens doc ∧
      (parseLoop toks out).1 = extend doc out := by
  induction toks, out using parseLoop.induct with
  | case1 out =>
      refine ⟨[], fun b hb => absurd hb List.not_mem_nil, rfl, ?_⟩
      rw [parseLoop]
      rfl
  | case2 t rest out e rest' hheader ih =>
      rw [parseLoop_refused hheader] at h
      exact absurd h (List.cons_ne_nil _ _)
  | case3 t rest out kind name rest' hheader b hclosed ih =>
      rw [parseLoop_opened hheader] at h ⊢
      dsimp only at h ⊢
      rw [if_pos hclosed] at h ⊢
      rcases List.append_eq_nil_iff.mp h with ⟨herrors, h⟩
      rcases ih h with ⟨doc, hdoc, htexts, hout⟩
      rcases readHeader_sound hheader with ⟨hname, hstart⟩
      rcases readBlock_sound hclosed herrors with ⟨body, hbody, hrest, hrun⟩
      refine ⟨⟨kind, name, body⟩ :: doc, List.forall_mem_cons.mpr
        ⟨⟨⟨hname, hbody⟩, congrArg Prod.snd hrun⟩, hdoc⟩, ?_, ?_⟩
      · calc texts (t :: rest)
            = Block.header ⟨kind, name, body⟩ ++
                (Block.bodyTokens body ++ closeBrace :: docTokens doc) := by
              rw [hstart, hrest, ← htexts]
              rfl
          _ = docTokens (⟨kind, name, body⟩ :: doc) := (tokens_append ⟨kind, name, body⟩ _).symm
      · refine hout.trans ?_
        have hblock : b.block = (Block.run ⟨kind, name, body⟩).1 := (congrArg Prod.fst hrun).symm
        rw [hblock]
        rfl
  | case4 t rest out kind name rest' hheader b hclosed ih =>
      rw [parseLoop_opened hheader] at h
      dsimp only at h
      rw [if_neg hclosed] at h
      exact absurd (List.append_eq_nil_iff.mp h).2 (List.cons_ne_nil _ _)

/-- A document is accepted as it is. -/
theorem parseLoop_complete {doc : List Block} (hdoc : Document F doc) {toks : List Token}
    (htexts : texts toks = docTokens doc) (out : UniverseDataset F) :
    parseLoop toks out = (extend doc out, []) := by
  induction doc generalizing toks out with
  | nil =>
      have htoks : toks = [] := List.map_eq_nil_iff.mp htexts
      rw [htoks, parseLoop]
      rfl
  | cons b doc ih =>
      rcases List.forall_mem_cons.mp hdoc with ⟨⟨hwf, hrun⟩, hdoc⟩
      have hsplit := htexts.trans (tokens_append b (docTokens doc))
      cases toks with
      | nil => exact absurd hsplit (List.cons_ne_nil _ _).symm
      | cons t rest =>
          rcases readHeader_complete hwf hsplit with ⟨rest', hheader, hbody⟩
          rcases readBlock_complete hwf.body hbody hrun with ⟨hclosed, herrors, hrest, hblock⟩
          rw [parseLoop_opened hheader]
          dsimp only
          rw [if_pos hclosed, ih hdoc hrest, herrors, hblock]
          rfl

/-- The text of a document is accepted, with what the document adds to the dataset. -/
theorem parse_document {doc : List Block} (hdoc : Document F doc) {text : Text}
    (htexts : texts (lex text) = docTokens doc) (out : UniverseDataset F) (errors : List Text) :
    parseUniverseSource text out errors = (true, extend doc out, errors) := by
  unfold parseUniverseSource
  rw [parseLoop_complete hdoc htexts out]
  dsimp only
  rw [List.append_nil, beq_self_eq_true]

/-- A text that is accepted is a document. -/
theorem document_of_parse {text : Text} {out d : UniverseDataset F} {errors errors' : List Text}
    (h : parseUniverseSource text out errors = (true, d, errors')) :
    errors' = errors ∧ ∃ doc, Document F doc ∧ texts (lex text) = docTokens doc ∧
      d = extend doc out := by
  unfold parseUniverseSource at h
  rw [Prod.mk.injEq, Prod.mk.injEq] at h
  rcases h with ⟨hlength, hd, herrors⟩
  have hnone : (parseLoop (lex text) out).2 = [] := by
    have hsum := eq_of_beq hlength
    rw [List.length_append] at hsum
    exact List.eq_nil_of_length_eq_zero (by omega)
  rw [hnone, List.append_nil] at herrors
  rcases parseLoop_sound hnone with ⟨doc, hdoc, htexts, hout⟩
  exact ⟨herrors.symm, doc, hdoc, htexts, hd.symm.trans hout⟩

end

end Tools

end EarthRise
