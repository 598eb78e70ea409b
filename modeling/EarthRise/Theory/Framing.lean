import EarthRise.Core.Protocol
import Mathlib.Data.List.Basic

/-!
# Framing Is Two-Way

A list of messages is written and read back, and a payload that can be read is what its
messages are written as.

The reader checks before each of its looks at the payload that the bytes are there.
`readMessagesFrom_eq` says so once: from an offset on it does what a reader of the rest of
the payload would do, and that one has no offsets to check. Both directions are inductions over this
equation, the first along the messages and the second along what is left to read.

## Main definitions

* `Framing.writeMessages`: Several messages, one behind the other.

## Theorems

* `Framing.readMessagesFrom_eq`: One turn of the loop.
* `Framing.readMessages_inBounds`: No look past the end.
* `Framing.readMessages_writeMessages`: What is written is read back.
* `Framing.writeMessages_readMessages`: What is read writes the payload.
* `readMessages_write`: A connection reads a message that fits its length field.
* `Framing.framing`: All of it.
-/

namespace EarthRise

namespace Net

namespace Framing

/-- Several messages, one behind the other. -/
def writeMessages (out : Bytes) (ms : List Message) : Bytes := ms.foldl writeMessage out

theorem writeMessage_eq (out : Bytes) (m : Message) :
    writeMessage out m = out ++ m.channel :: m.type :: UInt8.ofNat m.body.length ::
      UInt8.ofNat (m.body.length / 256) :: m.body := by
  unfold writeMessage
  rw [putU16_eq]
  simp only [List.append_assoc, List.cons_append, List.nil_append]

theorem writeMessages_append (out : Bytes) (ms : List Message) :
    writeMessages out ms = out ++ writeMessages [] ms := by
  induction ms generalizing out with
  | nil => exact (List.append_nil out).symm
  | cons m ms ih =>
      have hcons : ∀ out, writeMessages out (m :: ms) = writeMessages (writeMessage out m) ms :=
        fun _ => rfl
      rw [hcons, hcons, ih, ih (writeMessage [] m), writeMessage_eq, writeMessage_eq,
        List.nil_append, List.append_assoc]

/-! ## One turn -/

theorem getU16?_of_drop {b : Bytes} {off : Nat} {lo hi : UInt8} {rest : Bytes}
    (h : b.drop off = lo :: hi :: rest) : getU16? b off = some (lo.toNat + 256 * hi.toNat) := by
  have h0 : b[off]? = some lo := by
    have hget : (b.drop off)[0]? = b[off + 0]? := List.getElem?_drop
    rw [h] at hget
    exact hget.symm
  have h1 : b[off + 1]? = some hi := by
    have hget : (b.drop off)[1]? = b[off + 1]? := List.getElem?_drop
    rw [h] at hget
    exact hget.symm
  unfold getU16?
  rw [h0, h1]

theorem drop_add {b : Bytes} {off : Nat} {l rest : Bytes} (h : b.drop off = l ++ rest) :
    b.drop (off + l.length) = rest := by
  rw [← List.drop_drop, h, List.drop_left]

/-- The reader does at an offset what a reader of the rest would do. -/
theorem readMessagesFrom_eq (payload : Bytes) (off : Nat) (out : List Message) :
    readMessagesFrom payload off out =
      match payload.drop off with
      | [] => (.ok, out)
      | channel :: type :: lo :: hi :: tail =>
          if tail.length < lo.toNat + 256 * hi.toNat then (.malformed, out)
          else readMessagesFrom payload (off + 4 + (lo.toNat + 256 * hi.toNat))
            (out ++ [⟨channel, type, tail.take (lo.toNat + 256 * hi.toNat)⟩])
      | _ => (.malformed, out) := by
  have hlen : (payload.drop off).length = payload.length - off := List.length_drop
  rw [readMessagesFrom]
  match hrest : payload.drop off with
  | [] =>
      rw [hrest, List.length_nil] at hlen
      exact if_neg (by omega)
  | [_] | [_, _] | [_, _, _] =>
      rw [hrest] at hlen
      simp only [List.length_cons, List.length_nil] at hlen
      rw [if_pos (by omega), if_pos (by omega)]
  | channel :: type :: lo :: hi :: tail =>
      rw [hrest] at hlen
      simp only [List.length_cons] at hlen
      have h0 : payload[off]? = some channel := by
        have hget : (payload.drop off)[0]? = payload[off + 0]? := List.getElem?_drop
        rw [hrest] at hget
        exact hget.symm
      have h1 : payload[off + 1]? = some type := by
        have hget : (payload.drop off)[1]? = payload[off + 1]? := List.getElem?_drop
        rw [hrest] at hget
        exact hget.symm
      have h2 : getU16? payload (off + 2) = some (lo.toNat + 256 * hi.toNat) :=
        getU16?_of_drop (drop_add (l := [channel, type]) hrest)
      have h4 : payload.drop (off + 4) = tail := drop_add (l := [channel, type, lo, hi]) hrest
      rw [if_pos (by omega), if_neg (by omega), h0, h1, h2]
      simp only
      by_cases hshort : tail.length < lo.toNat + 256 * hi.toNat
      · rw [if_pos hshort, if_pos (by omega)]
      · have hbody : subspan? payload (off + 4) (lo.toNat + 256 * hi.toNat) =
            some (tail.take (lo.toNat + 256 * hi.toNat)) := by
          unfold subspan?
          rw [if_pos (by omega), h4]
        rw [if_neg hshort, if_neg (by omega), hbody]

/-! ## From the payload to the messages -/

/-- The two bytes of a length are the ones that the writer puts for it. -/
theorem length_bytes (lo hi : UInt8) :
    UInt8.ofNat (lo.toNat + 256 * hi.toNat) = lo ∧
      UInt8.ofNat ((lo.toNat + 256 * hi.toNat) / 256) = hi := by
  have hlo := lo.toNat_lt
  have hhi := hi.toNat_lt
  constructor <;> apply UInt8.toNat_inj.mp <;> rw [UInt8.toNat_ofNat'] <;> omega

/-- What the reader finds from an offset on: never a byte that is not there, and, if it
    comes to the end, the messages that the rest is written as. -/
theorem readMessagesFrom_spec (payload : Bytes) (n : Nat) :
    ∀ (off : Nat) (out : List Message), (payload.drop off).length ≤ n →
      (readMessagesFrom payload off out).1 ≠ .outOfBounds ∧
        ∃ ms, (readMessagesFrom payload off out).2 = out ++ ms ∧
          ((readMessagesFrom payload off out).1 = .ok →
            payload.drop off = writeMessages [] ms) := by
  -- Each turn leaves less of the payload.
  induction n with
  | zero =>
      intro off out hn
      have hnil := List.length_eq_zero_iff.mp (Nat.le_zero.mp hn)
      rw [readMessagesFrom_eq, hnil]
      exact ⟨nofun, [],
        (List.append_nil out).symm, fun _ => rfl⟩
  | succ n ih =>
      intro off out hn
      rw [readMessagesFrom_eq]
      match hrest : payload.drop off with
      | [] =>
          exact ⟨nofun, [],
            (List.append_nil out).symm, fun _ => rfl⟩
      | [_] | [_, _] | [_, _, _] =>
          exact ⟨nofun, [],
            (List.append_nil out).symm, fun h => absurd h nofun⟩
      | channel :: type :: lo :: hi :: tail =>
          by_cases hshort : tail.length < lo.toNat + 256 * hi.toNat
          · simp only [if_pos hshort]
            exact ⟨nofun, [],
              (List.append_nil out).symm, fun h => absurd h nofun⟩
          · simp only [if_neg hshort]
            have h4 : payload.drop (off + 4) = tail :=
              drop_add (l := [channel, type, lo, hi]) hrest
            have htail : payload.drop (off + 4 + (lo.toNat + 256 * hi.toNat)) =
                tail.drop (lo.toNat + 256 * hi.toNat) := by rw [← List.drop_drop, h4]
            have hless : (payload.drop (off + 4 + (lo.toNat + 256 * hi.toNat))).length ≤ n := by
              rw [hrest] at hn
              simp only [List.length_cons] at hn
              rw [htail, List.length_drop]
              omega
            rcases ih _ (out ++ [⟨channel, type, tail.take (lo.toNat + 256 * hi.toNat)⟩]) hless
              with ⟨hin, ms, hout, hbytes⟩
            refine ⟨hin, ⟨channel, type, tail.take (lo.toNat + 256 * hi.toNat)⟩ :: ms,
              hout.trans (List.append_assoc _ _ _), fun hok => ?_⟩
            have hlen : (tail.take (lo.toNat + 256 * hi.toNat)).length =
                lo.toNat + 256 * hi.toNat := by
              rw [List.length_take]
              omega
            have hcons : ∀ m : Message, writeMessages [] (m :: ms) =
                writeMessage [] m ++ writeMessages [] ms := fun m => writeMessages_append _ ms
            rw [hcons, writeMessage_eq, ← hbytes hok, htail]
            simp only [hlen, length_bytes, List.nil_append, List.cons_append,
              List.take_append_drop]

/-- The reader never looks past the end. -/
theorem readMessages_inBounds (payload : Bytes) (out : List Message) :
    (readMessages payload out).1 ≠ .outOfBounds :=
  (readMessagesFrom_spec payload _ 0 out (Nat.le_refl _)).1

/-- A payload that can be read is what its messages are written as. -/
theorem writeMessages_readMessages (payload : Bytes) (out : List Message)
    (h : (readMessages payload out).1 = .ok) :
    ∃ ms, (readMessages payload out).2 = out ++ ms ∧ writeMessages [] ms = payload := by
  rcases (readMessagesFrom_spec payload _ 0 out (Nat.le_refl _)).2 with ⟨ms, hout, hbytes⟩
  exact ⟨ms, hout, (hbytes h).symm⟩

/-! ## From the messages to the payload -/

theorem readMessagesFrom_writeMessages (payload : Bytes) (ms : List Message)
    (hfit : ∀ m ∈ ms, m.body.length ≤ 65535) : ∀ (off : Nat) (out : List Message),
    payload.drop off = writeMessages [] ms →
      readMessagesFrom payload off out = (.ok, out ++ ms) := by
  induction ms with
  | nil =>
      intro off out h
      rw [readMessagesFrom_eq, h, List.append_nil]
      rfl
  | cons m ms ih =>
      intro off out h
      have hm := hfit m List.mem_cons_self
      have hlen : (UInt8.ofNat m.body.length).toNat +
          256 * (UInt8.ofNat (m.body.length / 256)).toNat = m.body.length := by
        rw [UInt8.toNat_ofNat', UInt8.toNat_ofNat']
        omega
      have hcons : payload.drop off = m.channel :: m.type :: UInt8.ofNat m.body.length ::
          UInt8.ofNat (m.body.length / 256) :: (m.body ++ writeMessages [] ms) := by
        have happend : writeMessages [] (m :: ms) =
            writeMessage [] m ++ writeMessages [] ms := writeMessages_append _ ms
        rw [h, happend, writeMessage_eq]
        rfl
      have h4 : payload.drop (off + 4) = m.body ++ writeMessages [] ms :=
        drop_add (l := [m.channel, m.type, _, _]) hcons
      have hrest : payload.drop (off + 4 + m.body.length) = writeMessages [] ms := by
        rw [← List.drop_drop, h4, List.drop_left]
      rw [readMessagesFrom_eq, hcons]
      simp only [hlen]
      rw [if_neg (by rw [List.length_append]; omega), List.take_left,
        ih (fun m' hm' => hfit m' (List.mem_cons_of_mem m hm')) _ _ hrest, List.append_assoc]
      rfl

/-- Messages that fit their length fields are read back, behind those that are there. -/
theorem readMessages_writeMessages (ms : List Message) (out : List Message)
    (hfit : ∀ m ∈ ms, m.body.length ≤ 65535) :
    readMessages (writeMessages [] ms) out = (.ok, out ++ ms) :=
  readMessagesFrom_writeMessages _ ms hfit 0 out rfl

/-- Messages that fit their length fields are read back as they are; the reader ends on
    every payload without a look past its end; and what it reads to the end is what its
    messages are written as. -/
theorem framing (ms : List Message) (payload : Bytes) :
    ((∀ m ∈ ms, m.body.length ≤ 65535) →
      readMessages (writeMessages [] ms) [] = (.ok, ms)) ∧
    (readMessages payload []).1 ≠ .outOfBounds ∧
    ((readMessages payload []).1 = .ok →
      writeMessages [] (readMessages payload []).2 = payload) := by
  refine ⟨fun hfit => readMessages_writeMessages ms [] hfit, readMessages_inBounds payload [],
    fun h => ?_⟩
  rcases writeMessages_readMessages payload [] h with ⟨ms', hout, hbytes⟩
  rw [hout, List.nil_append, hbytes]

/-- Two messages, the second without a body, and a payload that is cut after a length. -/
theorem framing_two :
    readMessages (writeMessages [] [⟨1, 41, [7, 8]⟩, ⟨0, 43, []⟩]) [] =
      (.ok, [⟨1, 41, [7, 8]⟩, ⟨0, 43, []⟩]) ∧
    (readMessages [0, 43, 1, 0] []).1 ≠ .outOfBounds :=
  have h := framing [⟨1, 41, [7, 8]⟩, ⟨0, 43, []⟩] [0, 43, 1, 0]
  ⟨h.1 (by decide), h.2.1⟩

end Framing

/-- A payload of one message reads as that message. -/
theorem readMessages_write (ch : Channel) (type : MsgType) (body : Bytes)
    (ht : type.Named) (hfit : FitsLength body) :
    readMessages (writeMessage ch type body) = some [⟨ch.toByte, type, body⟩] := by
  have hread : Framing.readMessages (writeMessage ch type body) [] =
      (.ok, [⟨ch.toByte, type.toByte, body⟩]) := by
    refine Framing.readMessages_writeMessages [⟨ch.toByte, type.toByte, body⟩] [] fun m hm => ?_
    rw [List.mem_singleton.mp hm]
    exact Nat.le_of_lt_succ hfit
  rw [readMessages, hread, if_pos rfl]
  simp only [List.map_cons, List.map_nil, Framing.Message.decoded, MsgType.ofByte_toByte type ht]

end Net

end EarthRise
