import EarthRise.Core.WavParse
import Mathlib.Data.List.Basic

/-!
# What the Wave Parser Accepts

The chunks of a file are there whatever the parser makes of them: `Chunks` says what they are, from
a position on, and where they end. The walk goes over these and no others. It returns a status
where a chunk does not fit or a format is not one it knows; else it has the format of the last
format chunk and the samples of the last data chunk.

It does not look at the order of these two, although there is a status for samples that no format
chunk stands before. And it stops where there is no room for the header of a chunk, so a file that
is cut in a header is accepted, while one that is cut in a body is not.

## Main definitions

* `Chunk`, `Chunks`: The chunks of a file.
* `FormatAt`: A format chunk of linear samples of sixteen bits.
* `Meets`: What is asked of a result.
* `InOrder`: A format chunk stands before the samples, and nothing is left over.

## Theorems

* `chunk_cases`: The body of the loop.
* `walk_spec`: The loop ends, and what it has then.
* `meets_iff`: When a result is as asked for.
* `late_format_accepted`: A format chunk behind the samples, and a file cut in a header.
-/

namespace EarthRise

namespace Wav

open BinaryFile

/-- A chunk by the position of its header. -/
structure Chunk where
  offset : Nat
  size : Nat
  deriving DecidableEq, Repr

namespace Chunk

def body (c : Chunk) : Nat := c.offset + 8

def span (c : Chunk) : Span := ⟨c.body, c.size⟩

/-- The next chunk starts at an even distance. -/
def next (c : Chunk) : Nat := c.body + (c.size + c.size % 2)

def HasTag (file : List UInt8) (tag : List UInt8) (c : Chunk) : Prop :=
  (file.drop c.offset).take 4 = tag

instance (file tag : List UInt8) (c : Chunk) : Decidable (c.HasTag file tag) :=
  inferInstanceAs (Decidable (_ = _))

end Chunk

/-- The chunks of a file from a position on, and the position behind the last one. -/
inductive Chunks (file : List UInt8) : Nat → List Chunk → Nat → Prop
  | done {pos : Nat} (h : file.length < pos + 8) : Chunks file pos [] pos
  | chunk {c : Chunk} {cs : List Chunk} {e : Nat} {size : UInt32}
      (header : u32At file (c.offset + 4) = some size) (hsize : c.size = size.toNat)
      (fits : c.span.stop ≤ file.length) (rest : Chunks file c.next cs e) :
      Chunks file c.offset (c :: cs) e

/-- A format chunk of linear samples of sixteen bits. -/
structure FormatAt (file : List UInt8) (c : Chunk) (f : WavFormat) : Prop where
  size : 16 ≤ c.size
  linear : u16At file (c.body + 0) = some wavPcmTag
  channels : u16At file (c.body + 2) = some f.channels
  sampleRate : u32At file (c.body + 4) = some f.sampleRate
  bits : u16At file (c.body + 14) = some f.bitsPerSample
  sixteen : f.bitsPerSample = 16

/-- The last of some chunks that has a tag. -/
def LastOf (file tag : List UInt8) (cs : List Chunk) (c : Chunk) : Prop :=
  ∃ pre post, cs = pre ++ c :: post ∧ c.HasTag file tag ∧ ∀ x ∈ post, ¬ x.HasTag file tag

/-- One chunk stands before another. -/
def Before (cs : List Chunk) (c d : Chunk) : Prop :=
  ∃ pre mid post, cs = pre ++ c :: (mid ++ d :: post)

/-- A result is as asked for: the samples lie in the file, the format is that of a format chunk
    before the samples, and the chunks take up the whole file; or `out` is as it was. -/
structure Meets (file : List UInt8) (out : WavData) (status : WavStatus) (out' : WavData) :
    Prop where
  accepted : status = .ok → ∃ cs e f d, Chunks file 12 cs e ∧ file.length ≤ e ∧
    (∀ c ∈ cs, c.span.stop ≤ file.length) ∧ Before cs f d ∧
    f.HasTag file fmtTag ∧ FormatAt file f out'.format ∧
    d.HasTag file dataTag ∧ out'.pcm = some d.span ∧ d.span.stop ≤ file.length
  refused : status ≠ .ok → out' = out

/-- Of a wave whose chunks fit, with formats that are known and with samples: nothing is left
    behind the chunks, and a format chunk with what is in the last one stands before the last
    samples. -/
def InOrder (file : List UInt8) : Prop :=
  ∀ cs e l d format, file.take 4 = riffTag → (file.drop 8).take 4 = waveTag →
    Chunks file 12 cs e → (∀ c ∈ cs, c.HasTag file fmtTag → ∃ f, FormatAt file c f) →
    LastOf file fmtTag cs l → LastOf file dataTag cs d → FormatAt file l format →
    file.length ≤ e ∧ ∃ f, Before cs f d ∧ f.HasTag file fmtTag ∧ FormatAt file f format

/-! ## Chunks -/

variable {file : List UInt8} {cs : List Chunk} {c : Chunk}

theorem Chunks.fits {pos e : Nat}
    (h : Chunks file pos cs e) : ∀ c ∈ cs, c.span.stop ≤ file.length := by
  induction h with
  | done => exact fun c hc => absurd hc List.not_mem_nil
  | chunk _ _ hfits _ ih => exact List.forall_mem_cons.mpr ⟨hfits, ih⟩

/-- There is one way to cut a file into chunks. -/
theorem Chunks.unique {pos e e' : Nat} {cs cs' : List Chunk}
    (h : Chunks file pos cs e) (h' : Chunks file pos cs' e') : cs = cs' ∧ e = e' := by
  induction h generalizing cs' e' with
  | done hend =>
      cases h' with
      | done => exact ⟨rfl, rfl⟩
      | @chunk c _ _ _ _ _ hfits _ =>
          have hstop : c.offset + 8 + c.size ≤ file.length := hfits
          omega
  | @chunk c cs e size hheader hsize hfits _ ih =>
      generalize hpos : c.offset = pos at h' hheader
      cases h' with
      | done hend =>
          have hstop : c.offset + 8 + c.size ≤ file.length := hfits
          omega
      | @chunk c' cs' _ size' hheader' hsize' _ hrest' =>
          have hsame : c = c' := by
            have heq : size = size' := Option.some.inj (hheader.symm.trans hheader')
            cases c
            cases c'
            simp only [Chunk.mk.injEq] at hpos hsize hsize' ⊢
            rw [hsize, hsize', heq]
            exact ⟨hpos, rfl⟩
          subst hsame
          rcases ih hrest' with ⟨hcs, he⟩
          exact ⟨congrArg (c :: ·) hcs, he⟩

theorem FormatAt.unique {f f' : WavFormat}
    (h : FormatAt file c f) (h' : FormatAt file c f') : f = f' := by
  have hchannels := Option.some.inj (h.channels.symm.trans h'.channels)
  have hrate := Option.some.inj (h.sampleRate.symm.trans h'.sampleRate)
  have hbits := Option.some.inj (h.bits.symm.trans h'.bits)
  cases f
  cases f'
  simp only at hchannels hrate hbits
  rw [hchannels, hrate, hbits]

theorem LastOf.mem {file tag : List UInt8}
    (h : LastOf file tag cs c) : c ∈ cs := by
  rcases h with ⟨pre, post, rfl, _, _⟩
  exact List.mem_append_right pre List.mem_cons_self

theorem LastOf.cons {file tag : List UInt8} (x : Chunk)
    (h : LastOf file tag cs c) : LastOf file tag (x :: cs) c := by
  rcases h with ⟨pre, post, rfl, hc, hpost⟩
  exact ⟨x :: pre, post, rfl, hc, hpost⟩

theorem lastOf_unique {file tag : List UInt8} {c c' : Chunk}
    (h : LastOf file tag cs c) (h' : LastOf file tag cs c') : c = c' := by
  rcases h with ⟨pre, post, rfl, hc, hpost⟩
  rcases h' with ⟨pre', post', heq, hc', hpost'⟩
  rcases List.append_eq_append_iff.mp heq with ⟨mid, rfl, hmid⟩ | ⟨mid, rfl, hmid⟩
  · cases mid with
    | nil => exact (List.cons.inj hmid).1
    | cons y mid =>
        have hin : c' ∈ post := by
          rw [(List.cons.inj hmid).2]
          exact List.mem_append_right mid List.mem_cons_self
        exact absurd hc' (hpost c' hin)
  · cases mid with
    | nil => exact (List.cons.inj hmid).1.symm
    | cons y mid =>
        have hin : c ∈ post' := by
          rw [(List.cons.inj hmid).2]
          exact List.mem_append_right mid List.mem_cons_self
        exact absurd hc (hpost' c hin)

/-! ## The loop -/

/-- What a round makes of a chunk. -/
structure Takes (file : List UInt8) (s : Walk) (c : Chunk) (s' : Walk) : Prop where
  pos : s'.pos = c.next
  fmt : c.HasTag file fmtTag → FormatAt file c s'.fmt ∧ s'.haveFmt = true
  keepsFmt : ¬ c.HasTag file fmtTag → s'.fmt = s.fmt ∧ s'.haveFmt = s.haveFmt
  data : c.HasTag file dataTag → s'.data = some c.span ∧ s'.haveData = true
  keepsData : ¬ c.HasTag file dataTag → s'.data = s.data ∧ s'.haveData = s.haveData

theorem next_eq (p : Nat) (size : UInt32) :
    p + 8 + (size.toNat + (size &&& 1).toNat) = (⟨p, size.toNat⟩ : Chunk).next := by
  have hodd : (size &&& 1).toNat = size.toNat % 2 := by
    rw [UInt32.toNat_and]
    exact Nat.and_one_is_mod size.toNat
  rw [hodd]
  rfl

/-- A round takes the chunk at its position, or it does not fit or is a format not known. -/
theorem chunk_cases {s : Walk} (h : s.pos + 8 ≤ file.length) :
    ∃ size, u32At file (s.pos + 4) = some size ∧
      ((∃ s', chunk file s = some (.inr s') ∧
          (⟨s.pos, size.toNat⟩ : Chunk).span.stop ≤ file.length ∧
          Takes file s ⟨s.pos, size.toNat⟩ s') ∨
        ∃ status, status ≠ .ok ∧ chunk file s = some (.inl status) ∧
          ¬ ((⟨s.pos, size.toNat⟩ : Chunk).span.stop ≤ file.length ∧
            ((⟨s.pos, size.toNat⟩ : Chunk).HasTag file fmtTag →
              ∃ f, FormatAt file ⟨s.pos, size.toNat⟩ f))) := by
  rcases u32At_some (show s.pos + 4 + 4 ≤ file.length by omega) with ⟨size, hsize⟩
  refine ⟨size, hsize, ?_⟩
  have hfmt : tagEquals file s.pos fmtTag =
      some (decide ((⟨s.pos, size.toNat⟩ : Chunk).HasTag file fmtTag)) :=
    tagAt_eq fmtTag (by
      show s.pos + 4 ≤ file.length
      omega)
  have hdata : tagEquals file s.pos dataTag =
      some (decide ((⟨s.pos, size.toNat⟩ : Chunk).HasTag file dataTag)) :=
    tagAt_eq dataTag (by
      show s.pos + 4 ≤ file.length
      omega)
  have hstop : (⟨s.pos, size.toNat⟩ : Chunk).span.stop = s.pos + 8 + size.toNat := rfl
  unfold chunk readU32 readU16
  rw [hsize, hfmt, hdata, hstop]
  simp only [Option.bind_eq_bind, Option.bind_some, next_eq]
  by_cases hfits : file.length < s.pos + 8 + size.toNat
  · rw [if_pos hfits]
    exact .inr ⟨.truncated, by decide, rfl, fun hgood => absurd hgood.1 (by omega)⟩
  rw [if_neg hfits]
  by_cases htag : (⟨s.pos, size.toNat⟩ : Chunk).HasTag file fmtTag
  · -- A format chunk, and so no samples.
    have hnot : ¬ (⟨s.pos, size.toNat⟩ : Chunk).HasTag file dataTag := fun hother =>
      absurd (htag.symm.trans hother) (by decide)
    rw [decide_eq_true htag, if_pos rfl]
    by_cases hsmall : size < 16
    · rw [if_pos hsmall]
      refine .inr ⟨.truncated, by decide, rfl, fun hgood => ?_⟩
      rcases hgood.2 htag with ⟨f, hf⟩
      have hlarge : 16 ≤ size.toNat := hf.size
      exact absurd (UInt32.lt_iff_toNat_lt.mp hsmall) (Nat.not_lt.mpr hlarge)
    rw [if_neg hsmall]
    have hlarge : 16 ≤ size.toNat := Nat.not_lt.mp fun hlt => hsmall (UInt32.lt_iff_toNat_lt.mpr hlt)
    rcases u16At_some (show s.pos + 8 + 0 + 2 ≤ file.length by omega) with ⟨format, hformat⟩
    rcases u16At_some (show s.pos + 8 + 2 + 2 ≤ file.length by omega) with ⟨channels, hchannels⟩
    rcases u32At_some (show s.pos + 8 + 4 + 4 ≤ file.length by omega) with ⟨rate, hrate⟩
    rcases u16At_some (show s.pos + 8 + 14 + 2 ≤ file.length by omega) with ⟨bits, hbits⟩
    rw [hformat, hchannels, hrate, hbits]
    simp only [Option.bind_some]
    by_cases hlinear : format = wavPcmTag
    · rw [if_neg (not_not.mpr hlinear)]
      by_cases hsixteen : bits = 16
      · rw [if_neg (not_not.mpr hsixteen)]
        have hf : FormatAt file ⟨s.pos, size.toNat⟩ ⟨channels, rate, bits⟩ :=
          ⟨hlarge, hlinear ▸ hformat, hchannels, hrate, hbits, hsixteen⟩
        exact .inl ⟨_, rfl, Nat.not_lt.mp hfits, rfl, fun _ => ⟨hf, rfl⟩, fun hno => absurd htag hno,
          fun hd => absurd hd hnot, fun _ => ⟨rfl, rfl⟩⟩
      · rw [if_pos hsixteen]
        refine .inr ⟨.notPcm16, by decide, rfl, fun hgood => ?_⟩
        rcases hgood.2 htag with ⟨f, hf⟩
        exact hsixteen ((Option.some.inj (hbits.symm.trans hf.bits)).trans hf.sixteen)
    · rw [if_pos hlinear]
      refine .inr ⟨.unsupportedFormat, by decide, rfl, fun hgood => ?_⟩
      rcases hgood.2 htag with ⟨f, hf⟩
      exact hlinear (Option.some.inj (hformat.symm.trans hf.linear))
  · rw [decide_eq_false htag, if_neg Bool.false_ne_true]
    left
    by_cases hsamples : (⟨s.pos, size.toNat⟩ : Chunk).HasTag file dataTag
    · rw [decide_eq_true hsamples, if_pos rfl]
      exact ⟨_, rfl, Nat.not_lt.mp hfits, rfl, fun hf => absurd hf htag, fun _ => ⟨rfl, rfl⟩,
        fun _ => ⟨rfl, rfl⟩, fun hno => absurd hsamples hno⟩
    · rw [decide_eq_false hsamples, if_neg Bool.false_ne_true]
      exact ⟨_, rfl, Nat.not_lt.mp hfits, rfl, fun hf => absurd hf htag, fun _ => ⟨rfl, rfl⟩,
        fun hd => absurd hd hsamples, fun _ => ⟨rfl, rfl⟩⟩

/-- All format chunks are known. -/
def Known (file : List UInt8) (cs : List Chunk) : Prop :=
  ∀ c ∈ cs, c.HasTag file fmtTag → ∃ f, FormatAt file c f

/-- What the loop has after some chunks. -/
structure Walked (file : List UInt8) (s : Walk) (cs : List Chunk) (s' : Walk) : Prop where
  fmt : (∃ l, LastOf file fmtTag cs l ∧ FormatAt file l s'.fmt ∧ s'.haveFmt = true) ∨
    ((∀ c ∈ cs, ¬ c.HasTag file fmtTag) ∧ s'.fmt = s.fmt ∧ s'.haveFmt = s.haveFmt)
  data : (∃ d, LastOf file dataTag cs d ∧ s'.data = some d.span ∧ s'.haveData = true) ∨
    ((∀ c ∈ cs, ¬ c.HasTag file dataTag) ∧ s'.data = s.data ∧ s'.haveData = s.haveData)

theorem walked_nil (file : List UInt8) (s : Walk) : Walked file s [] s where
  fmt := .inr ⟨fun _ hc => absurd hc List.not_mem_nil, rfl, rfl⟩
  data := .inr ⟨fun _ hc => absurd hc List.not_mem_nil, rfl, rfl⟩

theorem Walked.cons {s s₁ s' : Walk}
    (hc : Takes file s c s₁) (h : Walked file s₁ cs s') : Walked file s (c :: cs) s' where
  fmt := by
    rcases h.fmt with ⟨l, hl, hf, hhave⟩ | ⟨hnone, hf, hhave⟩
    · exact .inl ⟨l, hl.cons c, hf, hhave⟩
    · by_cases htag : c.HasTag file fmtTag
      · rcases hc.fmt htag with ⟨hformat, htrue⟩
        rw [← hf] at hformat
        exact .inl ⟨c, ⟨[], cs, rfl, htag, hnone⟩, hformat, hhave.trans htrue⟩
      · rcases hc.keepsFmt htag with ⟨hsame, hflag⟩
        exact .inr ⟨List.forall_mem_cons.mpr ⟨htag, hnone⟩, hf.trans hsame, hhave.trans hflag⟩
  data := by
    rcases h.data with ⟨d, hd, hspan, hhave⟩ | ⟨hnone, hspan, hhave⟩
    · exact .inl ⟨d, hd.cons c, hspan, hhave⟩
    · by_cases htag : c.HasTag file dataTag
      · rcases hc.data htag with ⟨hsamples, htrue⟩
        exact .inl ⟨c, ⟨[], cs, rfl, htag, hnone⟩, hspan.trans hsamples, hhave.trans htrue⟩
      · rcases hc.keepsData htag with ⟨hsame, hflag⟩
        exact .inr ⟨List.forall_mem_cons.mpr ⟨htag, hnone⟩, hspan.trans hsame, hhave.trans hflag⟩

/-- What the loop comes to: a status, where the chunks do not fit or are not known, or the state
    after all of them. -/
def Outcome (file : List UInt8) (s : Walk) : WavStatus ⊕ Walk → Prop
  | .inl status => status ≠ .ok ∧ ∀ cs e, Chunks file s.pos cs e → ¬ Known file cs
  | .inr s' => ∃ cs, Chunks file s.pos cs s'.pos ∧ Known file cs ∧ Walked file s cs s'

/-- Every round goes on by the eight bytes of a header at least, so the loop ends. -/
theorem walk_spec (file : List UInt8) (fuel : Nat) : ∀ s : Walk,
    file.length < s.pos + 8 * (fuel + 1) →
    ∃ r, walk file (fuel + 1) s = some r ∧ Outcome file s r := by
  induction fuel with
  | zero =>
      intro s hfuel
      refine ⟨.inr s, ?_, [], .done (by omega), fun c hc => absurd hc List.not_mem_nil,
        walked_nil file s⟩
      rw [walk, if_neg (by omega)]
  | succ fuel ih =>
      intro s hfuel
      rw [walk]
      by_cases hroom : s.pos + 8 ≤ file.length
      · rw [if_pos hroom]
        rcases chunk_cases hroom with ⟨size, hsize, ⟨s₁, hrun, hfits, htakes⟩ | ⟨status, hne, hrun, hbad⟩⟩
        · have hpos : s₁.pos = s.pos + 8 + (size.toNat + size.toNat % 2) := htakes.pos
          rcases ih s₁ (by omega) with ⟨r, hwalk, hr⟩
          refine ⟨r, by rw [hrun]; exact hwalk, ?_⟩
          cases r with
          | inl status =>
              refine ⟨hr.1, fun cs e hcs hknown => ?_⟩
              generalize hp : s.pos = p at hcs
              cases hcs with
              | done hend => omega
              | @chunk c cs _ size' hheader hsize' _ hrest =>
                  have hsame : c = ⟨s.pos, size.toNat⟩ := by
                    rw [← hp] at hheader
                    have heq : size' = size := Option.some.inj (hheader.symm.trans hsize)
                    cases c
                    simp only [Chunk.mk.injEq] at hp hsize' ⊢
                    exact ⟨hp.symm, by rw [hsize', heq]⟩
                  rw [hsame, ← htakes.pos] at hrest
                  exact hr.2 cs e hrest fun c' hc' => hknown c' (List.mem_cons_of_mem c hc')
          | inr s' =>
              rcases hr with ⟨cs, hcs, hknown, hwalked⟩
              rw [htakes.pos] at hcs
              refine ⟨⟨s.pos, size.toNat⟩ :: cs, .chunk hsize rfl hfits hcs,
                List.forall_mem_cons.mpr ⟨fun htag => ⟨_, (htakes.fmt htag).1⟩, hknown⟩,
                Walked.cons htakes hwalked⟩
        · refine ⟨.inl status, by rw [hrun], hne, fun cs e hcs hknown => hbad ?_⟩
          generalize hp : s.pos = p at hcs
          cases hcs with
          | done hend => omega
          | @chunk c cs _ size' hheader hsize' hfits _ =>
              have hsame : c = ⟨c.offset, size.toNat⟩ := by
                rw [← hp] at hheader
                have heq : size' = size := Option.some.inj (hheader.symm.trans hsize)
                cases c
                simp only [Chunk.mk.injEq] at hsize' ⊢
                exact ⟨trivial, by rw [hsize', heq]⟩
              rw [← hsame]
              exact ⟨hfits, hknown c List.mem_cons_self⟩
      · rw [if_neg hroom]
        exact ⟨.inr s, rfl, [], .done (by omega), fun c hc => absurd hc List.not_mem_nil,
          walked_nil file s⟩

/-! ## Results -/

/-- What the parser returns after the loop. -/
def finish (out : WavData) : WavStatus ⊕ Walk → WavStatus × WavData
  | .inl status => (status, out)
  | .inr s =>
      if s.haveFmt = false then (.missingFmt, out)
      else if s.haveData = false then (.missingData, out)
      else (.ok, { format := s.fmt, pcm := s.data })

/-- The parser ends on every file, and reads nothing past its end. -/
theorem parseWav_cases (file : List UInt8) (out : WavData) :
    (¬ (file.take 4 = riffTag ∧ (file.drop 8).take 4 = waveTag) ∧
      parseWav file out = some (.notRiffWave, out)) ∨
    ((file.take 4 = riffTag ∧ (file.drop 8).take 4 = waveTag) ∧
      ∃ r, Outcome file .start r ∧ parseWav file out = some (finish out r)) := by
  unfold parseWav
  by_cases hshort : file.length < 12
  · refine .inl ⟨fun hwave => ?_, if_pos hshort⟩
    have hlen := congrArg List.length hwave.2
    rw [List.length_take, List.length_drop] at hlen
    have hfour : waveTag.length = 4 := rfl
    omega
  rw [if_neg hshort]
  have hriff : tagEquals file 0 riffTag = some (decide (file.take 4 = riffTag)) :=
    tagAt_eq riffTag (by
      show 0 + 4 ≤ file.length
      omega)
  have hwave : tagEquals file 8 waveTag = some (decide ((file.drop 8).take 4 = waveTag)) :=
    tagAt_eq waveTag (by
      show 8 + 4 ≤ file.length
      omega)
  simp only [hriff, hwave, Option.bind_eq_bind, Option.bind_some]
  by_cases h₁ : file.take 4 = riffTag
  · rw [decide_eq_true h₁, if_neg (by decide)]
    by_cases h₂ : (file.drop 8).take 4 = waveTag
    · rw [decide_eq_true h₂, if_neg (by decide)]
      rcases walk_spec file file.length .start (by
        show file.length < 12 + 8 * (file.length + 1)
        omega) with ⟨r, hrun, hr⟩
      refine .inr ⟨⟨h₁, h₂⟩, r, hr, ?_⟩
      rw [hrun, Option.bind_some]
      cases r with
      | inl status => rfl
      | inr s =>
          simp only [finish]
          split_ifs
          · rfl
          · rfl
          · rfl
    · rw [decide_eq_false h₂, if_pos Bool.not_false]
      exact .inl ⟨fun hboth => h₂ hboth.2, rfl⟩
  · rw [decide_eq_false h₁, if_pos Bool.not_false]
    exact .inl ⟨fun hboth => h₁ hboth.1, rfl⟩

/-- A result that is not accepted. -/
theorem meets_refused {out : WavData} {status : WavStatus}
    (h : status ≠ .ok) : Meets file out status out :=
  ⟨fun hok => absurd hok h, fun _ => rfl⟩

/-- The parser returns what is asked for exactly where the chunks are in order. -/
theorem meets_iff (file : List UInt8) (out : WavData) :
    (∃ status out', parseWav file out = some (status, out') ∧ Meets file out status out') ↔
      InOrder file := by
  constructor
  · rintro ⟨status, out', hparse, hmeets⟩ cs e l d format hriff hwave hcs hknown hl hd hformat
    rcases parseWav_cases file out with ⟨hnot, _⟩ | ⟨_, r, hr, hrun⟩
    · exact absurd ⟨hriff, hwave⟩ hnot
    · cases r with
      | inl status' => exact absurd hknown (hr.2 cs e hcs)
      | inr s =>
          rcases hr with ⟨cs', hcs', _, hwalked⟩
          obtain ⟨rfl, rfl⟩ := hcs'.unique hcs
          -- The loop has the last format and the last samples.
          have hfmt : s.fmt = format ∧ s.haveFmt = true := by
            rcases hwalked.fmt with ⟨l', hl', hf', hhave⟩ | ⟨hnone, _⟩
            · rw [lastOf_unique hl' hl] at hf'
              exact ⟨hf'.unique hformat, hhave⟩
            · rcases hl with ⟨pre, post, hsplit, htag, hpost⟩
              exact absurd htag (hnone l (LastOf.mem ⟨pre, post, hsplit, htag, hpost⟩))
          have hdata : s.data = some d.span ∧ s.haveData = true := by
            rcases hwalked.data with ⟨d', hd', hspan, hhave⟩ | ⟨hnone, _⟩
            · rw [lastOf_unique hd' hd] at hspan
              exact ⟨hspan, hhave⟩
            · rcases hd with ⟨pre, post, hsplit, htag, hpost⟩
              exact absurd htag (hnone d (LastOf.mem ⟨pre, post, hsplit, htag, hpost⟩))
          have hfinish : finish out (.inr s) = (.ok, { format := s.fmt, pcm := s.data }) := by
            unfold finish
            simp only []
            rw [hfmt.2, hdata.2, if_neg (by decide), if_neg (by decide)]
          rw [hrun, hfinish, Option.some.injEq, Prod.mk.injEq] at hparse
          rcases hparse with ⟨rfl, rfl⟩
          rcases hmeets.accepted rfl with
            ⟨cs₂, e₂, f, d₂, hcs₂, hend, _, hbefore, htag, hf, _, hpcm, _⟩
          obtain ⟨rfl, rfl⟩ := hcs₂.unique hcs
          have hsame : d₂ = d := by
            have hspan : d.span = d₂.span := Option.some.inj (hdata.1.symm.trans hpcm)
            cases d
            cases d₂
            simp only [Chunk.span, Chunk.body, Span.mk.injEq, Chunk.mk.injEq] at hspan ⊢
            omega
          subst hsame
          refine ⟨hend, f, hbefore, htag, ?_⟩
          rw [← hfmt.1]
          exact hf
  · intro horder
    rcases parseWav_cases file out with ⟨_, hrun⟩ | ⟨⟨hriff, hwave⟩, r, hr, hrun⟩
    · exact ⟨_, _, hrun, meets_refused (by decide)⟩
    · cases r with
      | inl status => exact ⟨_, _, hrun, meets_refused hr.1⟩
      | inr s =>
          rcases hr with ⟨cs, hcs, hknown, hwalked⟩
          unfold finish at hrun
          simp only [] at hrun
          by_cases hnofmt : s.haveFmt = false
          · rw [if_pos hnofmt] at hrun
            exact ⟨_, _, hrun, meets_refused (by decide)⟩
          by_cases hnodata : s.haveData = false
          · rw [if_neg hnofmt, if_pos hnodata] at hrun
            exact ⟨_, _, hrun, meets_refused (by decide)⟩
          rw [if_neg hnofmt, if_neg hnodata] at hrun
          rcases hwalked.fmt with ⟨l, hl, hf, _⟩ | ⟨_, _, hflag⟩
          · rcases hwalked.data with ⟨d, hd, hspan, _⟩ | ⟨_, _, hflag⟩
            · rcases horder cs s.pos l d s.fmt hriff hwave hcs hknown hl hd hf with
                ⟨hend, f, hbefore, htag, hformat⟩
              refine ⟨_, _, hrun, fun _ => ⟨cs, s.pos, f, d, hcs, hend, hcs.fits, hbefore, htag,
                hformat, ?_, hspan, hcs.fits d hd.mem⟩, fun hne => absurd rfl hne⟩
              rcases hd with ⟨_, _, _, htag', _⟩
              exact htag'
            · exact absurd hflag hnodata
          · exact absurd hflag hnofmt

/-- A file that is accepted although something is left over or no format comes first. -/
theorem not_meets {out : WavData} {e : Nat}
    (hcs : Chunks file 12 cs e) {out₁ : WavData} (hparse : parseWav file out = some (.ok, out₁))
    (hbad : e < file.length ∨
      ∀ f d, Before cs f d → f.HasTag file fmtTag → ¬ d.HasTag file dataTag) :
    ¬ ∃ status out', parseWav file out = some (status, out') ∧ Meets file out status out' := by
  rintro ⟨status, out', hrun, hmeets⟩
  rw [hparse, Option.some.injEq, Prod.mk.injEq] at hrun
  rcases hmeets.accepted hrun.1.symm with ⟨cs', e', f, d, hcs', hend, _, hbefore, hf, _, hd, _⟩
  obtain ⟨rfl, rfl⟩ := hcs.unique hcs'
  rcases hbad with hleft | horder
  · omega
  · exact horder f d hbefore hf hd

/-- The header of a wave. -/
def waveHeader : List UInt8 := riffTag ++ [0, 0, 0, 0] ++ waveTag

/-- One channel of sixteen bits at the lowest rate. -/
def monoFormat : List UInt8 :=
  fmtTag ++ [16, 0, 0, 0] ++ [1, 0, 1, 0, 1, 0, 0, 0, 2, 0, 0, 0, 2, 0, 16, 0]

def twoSamples : List UInt8 := dataTag ++ [4, 0, 0, 0] ++ [1, 0, 2, 0]

def lateFormat : List UInt8 := waveHeader ++ twoSamples ++ monoFormat

def cutInHeader : List UInt8 := waveHeader ++ monoFormat ++ twoSamples ++ [0x4c, 0x49]

/-- The format behind the samples is accepted, and so is a file that is cut in a header. -/
theorem late_format_accepted :
    (¬ ∃ status out', parseWav lateFormat ⟨.empty, none⟩ = some (status, out') ∧
      Meets lateFormat ⟨.empty, none⟩ status out') ∧
    ¬ ∃ status out', parseWav cutInHeader ⟨.empty, none⟩ = some (status, out') ∧
      Meets cutInHeader ⟨.empty, none⟩ status out' := by
  constructor
  · have hcs : Chunks lateFormat 12 [⟨12, 4⟩, ⟨24, 16⟩] 48 :=
      .chunk (c := ⟨12, 4⟩) (show u32At lateFormat 16 = some 4 by decide) rfl (by decide)
        (.chunk (c := ⟨24, 16⟩) (show u32At lateFormat 28 = some 16 by decide) rfl (by decide) (.done (by decide)))
    have hparse : parseWav lateFormat ⟨.empty, none⟩ = some (.ok, ⟨⟨1, 1, 16⟩, some ⟨20, 4⟩⟩) := by
      decide +kernel
    refine not_meets hcs hparse (.inr ?_)
    rintro f d ⟨pre, mid, post, hsplit⟩ hf
    -- The one chunk that another stands behind is not the format.
    cases pre with
    | nil =>
        rw [List.nil_append, List.cons.injEq] at hsplit
        rw [← hsplit.1] at hf
        exact absurd hf (by decide)
    | cons c pre =>
        have hlen := congrArg List.length hsplit
        simp only [List.length_cons, List.length_nil, List.length_append] at hlen
        omega
  · have hcs : Chunks cutInHeader 12 [⟨12, 16⟩, ⟨36, 4⟩] 48 :=
      .chunk (c := ⟨12, 16⟩) (show u32At cutInHeader 16 = some 16 by decide) rfl (by decide)
        (.chunk (c := ⟨36, 4⟩) (show u32At cutInHeader 40 = some 4 by decide) rfl (by decide) (.done (by decide)))
    have hparse : parseWav cutInHeader ⟨.empty, none⟩ = some (.ok, ⟨⟨1, 1, 16⟩, some ⟨44, 4⟩⟩) := by
      decide +kernel
    exact not_meets hcs hparse (.inl (by decide))

end Wav

end EarthRise
