import EarthRise.Lib.OrdMap
import EarthRise.Lib.Run
import EarthRise.Lib.Exact
import EarthRise.Core.SecureChannel
import Mathlib.Data.Finset.Basic

/-!
# Reliable Messages

Sequences that wrap, the sender that numbers its messages and sends them again, the
receiver that drops duplicates, and the network between them.

A sequence has sixteen bits. Which of two is newer is decided by the shorter way
around. The receiver remembers what it has received, less what it takes to be more
than 1024 older than the newest.

The network may hold a copy for any time, double it or lose it. Messages are told
apart by how many were sent before them; neither end sees that number. The
arithmetic of the round-trip times is exact.

The link of reliable messages with the way back: what the receiver says it has received
is taken at any time, lies under way like a copy, and is handed to the sender late, twice
or never.

A pair says neither when it was taken nor whether anything had been received by then.
Both are kept beside it for the statements about runs, and neither end sees them. A message
is in flight while its sequence is and was not given to another message.

## Main definitions

* `seqGreater`, `seqDiff`: The order of sequences.
* `ReliableSender.send`, `onAck`, `collectTimedOut`: The sending end.
* `ReliableReceiver.onReceive`: The receiving end.
* `ReliableLink.step`: Both ends and the copies under way.
* `named`: The sequences that a pair acknowledges.
* `AckPair`: A pair under way.
* `AckedLink.step`: Both ends, the copies and the pairs under way.
* `AckedLink.Tracked`: A message is in flight.
-/

namespace EarthRise

namespace Net

/-- A sixteen-bit sequence. -/
abbrev Sequence := Fin 65536

instance sequenceNeZero : NeZero 65536 := ⟨by decide⟩

/-- The sequence of a number of messages. -/
def seqOf (n : Nat) : Sequence := Fin.ofNat 65536 n

/-- Whether the first is the newer one. -/
def seqGreater (s1 s2 : Sequence) : Bool :=
  (decide (s2 < s1) && decide (s1.val - s2.val ≤ 32768)) ||
    (decide (s1 < s2) && decide (32768 < s2.val - s1.val))

/-- The signed distance: the difference as a 16-bit signed number. -/
def seqDiff (s1 s2 : Sequence) : Int :=
  if (s1 - s2).val < 32768 then (s1 - s2).val else (s1 - s2).val - 65536

/-! ## The sender -/

structure InFlight where
  sequence : Sequence
  payload : Bytes
  sentTime : ℚ
  sendCount : Nat

structure ReliableSender where
  nextSequence : Sequence
  inFlight : OrdMap Sequence InFlight
  srtt : ℚ
  rttvar : ℚ

namespace ReliableSender

def fresh : ReliableSender :=
  { nextSequence := 0, inFlight := OrdMap.empty, srtt := 0, rttvar := 0 }

def initialRto : ℚ := 1 / 5

def minRto : ℚ := 1 / 20

def maxRto : ℚ := 2

/-- Give a payload the next sequence and track it. -/
def send (s : ReliableSender) (payload : Bytes) (now : ℚ) : Sequence × ReliableSender :=
  let seq := s.nextSequence
  (seq, { s with
    nextSequence := s.nextSequence + 1
    inFlight := s.inFlight.insert seq ⟨seq, payload, now, 1⟩ })

def updateRtt (s : ReliableSender) (sample : ℚ) : ReliableSender :=
  if sample < 0 then s
  else if s.srtt ≤ 0 then { s with srtt := sample, rttvar := sample / 2 }
  else
    let diff := sample - s.srtt
    { s with
      rttvar := (1 - 1 / 4) * s.rttvar + 1 / 4 * (if diff < 0 then -diff else diff)
      srtt := (1 - 1 / 8) * s.srtt + 1 / 8 * sample }

/-- Retire a message. Only one that was sent once samples the round trip. -/
def ackOne (s : ReliableSender) (seq : Sequence) (now : ℚ) : ReliableSender :=
  match s.inFlight.find? seq with
  | none => s
  | some f =>
      let s := if f.sendCount = 1 then s.updateRtt (now - f.sentTime) else s
      { s with inFlight := s.inFlight.erase seq }

/-- Retire the acknowledged sequence and those of the 32 before it that are set. -/
def onAck (s : ReliableSender) (ack : Sequence) (ackBits : BitVec 32) (now : ℚ) :
    ReliableSender :=
  (List.range 32).foldl
    (fun s i => if ackBits.getLsbD i then s.ackOne (ack - 1 - seqOf i) now else s)
    (s.ackOne ack now)

def currentRto (s : ReliableSender) : ℚ :=
  if s.srtt ≤ 0 then initialRto
  else
    let rto := s.srtt + 4 * s.rttvar
    if rto < minRto then minRto else if maxRto < rto then maxRto else rto

/-- A message that has waited long enough, sent once more. -/
def resent (s : ReliableSender) (now : ℚ) (f : InFlight) : Option InFlight :=
  if s.currentRto ≤ now - f.sentTime then
    some { f with sentTime := now, sendCount := (f.sendCount + 1) % 2 ^ 32 }
  else none

/-- What is to be sent again, marked as sent. -/
def collectTimedOut (s : ReliableSender) (now : ℚ) : List InFlight × ReliableSender :=
  (s.inFlight.entries.filterMap fun e => s.resent now e.2,
    { s with inFlight := s.inFlight.map fun f => (s.resent now f).getD f })

end ReliableSender

/-! ## The receiver -/

structure ReliableReceiver where
  seenAny : Bool
  latest : Sequence
  received : Finset Sequence

namespace ReliableReceiver

def fresh : ReliableReceiver := { seenAny := false, latest := 0, received := ∅ }

/-- Keep the sequences within 1024 of the latest. -/
def pruneOld (r : ReliableReceiver) : ReliableReceiver :=
  { r with received := r.received.filter fun seq => ¬ 1024 < seqDiff r.latest seq }

/-- Record a sequence; false if it was seen already. -/
def onReceive (r : ReliableReceiver) (seq : Sequence) : Bool × ReliableReceiver :=
  if r.seenAny = false then (true, { seenAny := true, latest := seq, received := {seq} })
  else if seq ∈ r.received then (false, r)
  else
    let latest := if seqGreater seq r.latest then seq else r.latest
    (true, pruneOld { r with received := insert seq r.received, latest := latest })

/-- The 32 sequences before the latest that have been received. -/
def ackBits (r : ReliableReceiver) : BitVec 32 :=
  (List.range 32).foldl
    (fun bits i => if r.latest - 1 - seqOf i ∈ r.received then bits ||| (1#32 <<< i) else bits) 0

end ReliableReceiver

/-! ## The network -/

/-- A copy of a message under way. The message's number is not on the wire. -/
structure Copy where
  message : Nat
  sequence : Sequence
  deriving DecidableEq

/-- The two ends, the copies under way, and what the receiver answered to each copy it
    got, in order. `holder` is the message a sequence was last given to. -/
structure ReliableLink where
  sender : ReliableSender
  receiver : ReliableReceiver
  sent : Nat
  holder : Sequence → Nat
  copies : List Copy
  log : List (Nat × Bool)

namespace ReliableLink

def start : ReliableLink :=
  { sender := ReliableSender.fresh, receiver := ReliableReceiver.fresh, sent := 0
    holder := fun _ => 0, copies := [], log := [] }

inductive Label
  | send (payload : Bytes) (now : ℚ)
  | resend (now : ℚ)
  | ack (ack : Sequence) (ackBits : BitVec 32) (now : ℚ)
  | duplicate (c : Copy)
  | drop (c : Copy)
  | deliver (c : Copy)

def step (s : ReliableLink) : Label → Option ReliableLink
  | .send payload now =>
      let r := s.sender.send payload now
      some { s with
        sender := r.2, sent := s.sent + 1
        holder := fun seq => if seq = r.1 then s.sent else s.holder seq
        copies := s.copies ++ [⟨s.sent, r.1⟩] }
  | .resend now =>
      let r := s.sender.collectTimedOut now
      some { s with
        sender := r.2
        copies := s.copies ++ r.1.map fun f => ⟨s.holder f.sequence, f.sequence⟩ }
  -- An acknowledgement, whatever it says.
  | .ack ack ackBits now => some { s with sender := s.sender.onAck ack ackBits now }
  | .duplicate c => if c ∈ s.copies then some { s with copies := s.copies ++ [c] } else none
  | .drop c => if c ∈ s.copies then some { s with copies := s.copies.erase c } else none
  | .deliver c =>
      if c ∈ s.copies then
        let r := s.receiver.onReceive c.sequence
        some { s with
          receiver := r.2, copies := s.copies.erase c, log := s.log ++ [(c.message, r.1)] }
      else none

/-- No copy under way is more than 32767 behind the newest message sent. -/
def Close (s : ReliableLink) : Prop := ∀ c ∈ s.copies, s.sent ≤ c.message + 32768

end ReliableLink

/-- The sequences that a pair acknowledges. -/
def named (ack : Sequence) (ackBits : BitVec 32) : List Sequence :=
  ack :: ((List.range 32).filter fun i => ackBits.getLsbD i).map fun i => ack - 1 - seqOf i

/-- A pair under way. `seen` is whether the receiver had received anything, `sent` how many
    messages had been sent. -/
structure AckPair where
  ack : Sequence
  ackBits : BitVec 32
  seen : Bool
  sent : Nat
  deriving DecidableEq

/-- The link and the pairs under way. -/
structure AckedLink where
  link : ReliableLink
  acks : List AckPair

namespace AckedLink

def start : AckedLink := { link := ReliableLink.start, acks := [] }

inductive Label
  | send (payload : Bytes) (now : ℚ)
  | resend (now : ℚ)
  | duplicate (c : Copy)
  | drop (c : Copy)
  | deliver (c : Copy)
  | takeAck
  | duplicateAck (p : AckPair)
  | dropAck (p : AckPair)
  | deliverAck (p : AckPair) (now : ℚ)

/-- A step of the link beneath. -/
def within (s : AckedLink) (l : ReliableLink.Label) : Option AckedLink :=
  (s.link.step l).map fun link => { s with link := link }

def step (s : AckedLink) : Label → Option AckedLink
  | .send payload now => s.within (.send payload now)
  | .resend now => s.within (.resend now)
  | .duplicate c => s.within (.duplicate c)
  | .drop c => s.within (.drop c)
  | .deliver c => s.within (.deliver c)
  | .takeAck =>
      let r := s.link.receiver
      some { s with acks := s.acks ++ [⟨r.latest, r.ackBits, r.seenAny, s.link.sent⟩] }
  | .duplicateAck p => if p ∈ s.acks then some { s with acks := s.acks ++ [p] } else none
  | .dropAck p => if p ∈ s.acks then some { s with acks := s.acks.erase p } else none
  | .deliverAck p now =>
      if p ∈ s.acks then
        { s with acks := s.acks.erase p }.within (.ack p.ack p.ackBits now)
      else none

/-- A message is in flight. -/
def Tracked (s : AckedLink) (m : Nat) : Prop :=
  ∃ seq f, s.link.sender.inFlight.find? seq = some f ∧ s.link.holder seq = m

end AckedLink

end Net

end EarthRise
