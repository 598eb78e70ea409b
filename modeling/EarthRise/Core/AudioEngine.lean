import EarthRise.Core.UniversePos
import EarthRise.Core.WavParse
import EarthRise.Lib.Arith
import Mathlib.Data.UInt

/-!
# The Audio Engine

Sounds are played on source voices, which belong to the audio device and have the format and
the output that they were made with. A pool keeps the voices that are not in use, so that a
sound of the same format can have one. What a caller gets is the number of a slot of the pool
and its generation, in one word; freeing a slot raises the generation.

The device decides whether a call succeeds. Its answers to the calls of one operation are an
argument, and the voices are of any type. The log has the calls that were made and the slots
that were freed, in their order; the code keeps none. A call with one voice as its only
argument that matters here is `use`.

## Main definitions

* `VoiceId`, `makeVoiceId`: Handles.
* `VoicePool`: The slots, with `acquire`, `resolve`, `release` and `reclaimFinished`.
* `AudioEngine`, `Call`: The engine and what is asked of it.
-/

namespace EarthRise

namespace Audio

open Universe (Vec3)

/-! ## Handles -/

structure VoiceId where
  v : UInt32
  deriving DecidableEq, Repr

def voiceIndexBits : UInt32 := 20

def voiceIndexMask : UInt32 := (1 <<< voiceIndexBits) - 1

def voiceGenerationMask : UInt32 := (1 <<< (32 - voiceIndexBits)) - 1

def VoiceId.null : VoiceId := ⟨0⟩

def VoiceId.valid (id : VoiceId) : Bool := id.v != 0

def makeVoiceId (index generation : UInt32) : VoiceId :=
  ⟨(index &&& voiceIndexMask) ||| ((generation &&& voiceGenerationMask) <<< voiceIndexBits)⟩

def voiceIndex (id : VoiceId) : UInt32 := id.v &&& voiceIndexMask

def voiceGeneration (id : VoiceId) : UInt32 := (id.v >>> voiceIndexBits) &&& voiceGenerationMask

/-! ## Voices -/

inductive Bus
  | music
  | ambient
  | sfx
  | ui
  deriving DecidableEq, Repr

structure WaveFormat where
  wFormatTag : UInt16
  nChannels : UInt16
  nSamplesPerSec : UInt32
  nAvgBytesPerSec : UInt32
  nBlockAlign : UInt16
  wBitsPerSample : UInt16
  cbSize : UInt16
  deriving DecidableEq, Repr

def WaveFormat.zero : WaveFormat := ⟨0, 0, 0, 0, 0, 0, 0⟩

def formatMatches (a b : WaveFormat) : Bool :=
  a.wFormatTag == b.wFormatTag && a.nChannels == b.nChannels &&
    a.nSamplesPerSec == b.nSamplesPerSec && a.wBitsPerSample == b.wBitsPerSample

structure Emitter (F : Type) where
  position : Vec3 F
  velocity : Vec3 F
  minDistance : F
  maxDistance : F
  doppler : Bool

/-- What is asked of the device about source voices, and the slots that are freed. -/
inductive Event (V B : Type)
  | createSourceVoice (voice : V) (format : WaveFormat) (sends : B)
  | setOutputVoices (voice : V) (sends : B) (done : Bool)
  | submitSourceBuffer (voice : V) (format : WaveFormat) (bus : B)
  | use (voice : V)
  | destroyVoice (voice : V)
  | freed (slot : Nat)
  deriving DecidableEq

/-- The answers of the device in the course of one operation. -/
structure Device (V : Type) where
  setOutputVoices : V → Bool
  createSourceVoice : Option V
  buffersQueued : V → UInt32
  submitSourceBuffer : Bool
  start : Bool

structure VoiceSlot (V F : Type) where
  voice : Option V
  format : WaveFormat
  generation : UInt32
  busy : Bool
  looping : Bool
  is3d : Bool
  bus : Bus
  emitter : Emitter F
  baseVolume : F
  basePitch : F

section

variable {V B F : Type} [Floating F]

def Emitter.default : Emitter F := ⟨⟨0, 0, 0⟩, ⟨0, 0, 0⟩, 25.0, 5000.0, true⟩

def VoiceSlot.default : VoiceSlot V F :=
  { voice := none, format := .zero, generation := 1, busy := false, looping := false,
    is3d := false, bus := .sfx, emitter := .default, baseVolume := 1, basePitch := 1 }

/-- The generation after a slot is freed; zero is left out. -/
def nextGeneration (g : UInt32) : UInt32 :=
  if (g + 1) &&& voiceGenerationMask = 0 then 1 else (g + 1) &&& voiceGenerationMask

def freeSlotState (slot : VoiceSlot V F) : VoiceSlot V F :=
  { slot with
    busy := false
    looping := false
    is3d := false
    emitter := .default
    baseVolume := 1
    basePitch := 1
    generation := nextGeneration slot.generation }

/-- The calls and the note of freeing the slot of a number. -/
def freeCalls (i : Nat) (slot : VoiceSlot V F) : List (Event V B) :=
  match slot.voice with
  | none => [.freed i]
  | some v => [.use v, .use v, .freed i]

structure VoicePool (V B F : Type) where
  engine : Bool
  slots : List (VoiceSlot V F)
  log : List (Event V B)

namespace VoicePool

/-- Calls made by an operation that leaves the slots so. -/
def next (pool : VoicePool V B F) (slots : List (VoiceSlot V F)) (calls : List (Event V B)) :
    VoicePool V B F :=
  { pool with slots := slots, log := pool.log ++ calls }

/-- The variables of the loop through the slots. -/
structure Search (V B : Type) where
  found : Option Nat
  voiceless : Option Nat
  mismatch : Option Nat
  calls : List (Event V B)

/-- Look for a free slot with a voice of the format that takes the output. -/
def search (dev : Device V) (format : WaveFormat) (destBus : B) :
    Nat → List (VoiceSlot V F) → Search V B → Search V B
  | _, [], r => r
  | i, slot :: slots, r =>
      if slot.busy then search dev format destBus (i + 1) slots r
      else
        match slot.voice with
        | none =>
            search dev format destBus (i + 1) slots { r with voiceless := r.voiceless.or (some i) }
        | some v =>
            if formatMatches slot.format format then
              let r := { r with
                calls := r.calls ++ [.setOutputVoices v destBus (dev.setOutputVoices v)] }
              if dev.setOutputVoices v then { r with found := some i }
              else search dev format destBus (i + 1) slots r
            else
              search dev format destBus (i + 1) slots { r with mismatch := r.mismatch.or (some i) }

/-- Give a slot a new voice, in place of the one that it has. -/
def recreate (pool : VoicePool V B F) (dev : Device V) (format : WaveFormat) (destBus : B)
    (target : Nat) (slot : VoiceSlot V F) (calls : List (Event V B)) :
    VoiceId × Option V × VoicePool V B F :=
  let destroyed := slot.voice.toList.map Event.destroyVoice
  match dev.createSourceVoice with
  | none =>
      (.null, none,
        pool.next (pool.slots.set target { slot with voice := none }) (calls ++ destroyed))
  | some v =>
      (makeVoiceId (.ofNat target) slot.generation, some v,
        pool.next
          (pool.slots.set target
            { slot with voice := some v, format := format, busy := true, bus := .sfx })
          (calls ++ destroyed ++ [.createSourceVoice v format destBus]))

def acquire (pool : VoicePool V B F) (dev : Device V) (format : WaveFormat)
    (destBus : Option B) : VoiceId × Option V × VoicePool V B F :=
  match pool.engine, destBus with
  | true, some destBus =>
      let r := search dev format destBus 0 pool.slots ⟨none, none, none, []⟩
      match r.found.bind fun i => (pool.slots[i]?).map fun slot => (i, slot) with
      | some (i, slot) =>
          (makeVoiceId (.ofNat i) slot.generation, slot.voice,
            pool.next (pool.slots.set i { slot with busy := true, bus := .sfx }) r.calls)
      | none =>
          match (r.voiceless.or r.mismatch).bind fun i =>
              (pool.slots[i]?).map fun slot => (i, slot) with
          | some (i, slot) => recreate pool dev format destBus i slot r.calls
          | none =>
              recreate { pool with slots := pool.slots ++ [.default] } dev format destBus
                pool.slots.length .default r.calls
  | _, _ => (.null, none, pool)

/-- The slot that a handle stands for. -/
def resolve (pool : VoicePool V B F) (id : VoiceId) : Option (VoiceSlot V F) :=
  if id.valid then
    (pool.slots[(voiceIndex id).toNat]?).filter fun slot =>
      slot.busy && slot.generation == voiceGeneration id
  else none

def release (pool : VoicePool V B F) (id : VoiceId) : VoicePool V B F :=
  match pool.resolve id with
  | none => pool
  | some slot =>
      pool.next (pool.slots.set (voiceIndex id).toNat (freeSlotState slot))
        (freeCalls (voiceIndex id).toNat slot)

/-- What becomes of one slot, the calls for it, and whether it is still in use. -/
def reclaimSlot (dev : Device V) (i : Nat) (slot : VoiceSlot V F) :
    VoiceSlot V F × List (Event V B) × Nat :=
  if slot.busy then
    match slot.voice with
    | none => (slot, [], 1)
    | some v =>
        if slot.looping then (slot, [], 1)
        else if dev.buffersQueued v = 0 then
          (freeSlotState slot, .use v :: freeCalls i slot, 0)
        else (slot, [.use v], 1)
  else (slot, [], 0)

def reclaimSlots (dev : Device V) : Nat → List (VoiceSlot V F) →
    List (VoiceSlot V F) × List (Event V B) × Nat
  | _, [] => ([], [], 0)
  | i, slot :: slots =>
      let head := reclaimSlot dev i slot
      let tail := reclaimSlots dev (i + 1) slots
      (head.1 :: tail.1, head.2.1 ++ tail.2.1, head.2.2 + tail.2.2)

/-- The voices still in use, and the pool. -/
def reclaimFinished (pool : VoicePool V B F) (dev : Device V) : Nat × VoicePool V B F :=
  let r := reclaimSlots (B := B) dev 0 pool.slots
  (r.2.2, pool.next r.1 r.2.1)

def shutdown (pool : VoicePool V B F) : VoicePool V B F :=
  pool.next [] (pool.slots.flatMap fun slot =>
    match slot.voice with
    | none => []
    | some v => [.use v, .use v, .destroyVoice v])

end VoicePool

/-! ## The engine -/

structure WavClip where
  format : WaveFormat
  pcm : List UInt8
  deriving DecidableEq

def WavClip.isMono (clip : WavClip) : Bool := clip.format.nChannels == 1

structure PlayParams (F : Type) where
  bus : Bus
  volume : F
  pitch : F
  loop : Bool
  emitter : Option (Emitter F)

structure AudioEngine (V B F : Type) where
  initialized : Bool
  clips : List WavClip
  busVoice : Bus → Option B
  pool : VoicePool V B F

/-- How far the device lets an engine start. -/
inductive Startup (B : Type)
  | engineFailed
  | partFailed
  | ready (buses : Bus → B)

namespace AudioEngine

/-- Before anything was asked of it. -/
def new : AudioEngine V B F :=
  { initialized := false, clips := [], busVoice := fun _ => none, pool := ⟨false, [], []⟩ }

def shutdown (engine : AudioEngine V B F) : AudioEngine V B F :=
  { initialized := false, clips := [], busVoice := fun _ => none, pool := engine.pool.shutdown }

def initializeEngine (engine : AudioEngine V B F) (startup : Startup B) : AudioEngine V B F :=
  if engine.initialized then engine
  else
    match startup with
    | .engineFailed => engine
    | .partFailed => engine.shutdown
    | .ready buses =>
        { initialized := true
          clips := [⟨.zero, []⟩]
          busVoice := fun bus => some (buses bus)
          pool := { engine.pool with engine := true } }

/-- The number of the clip of a file, if it is one that can be played. -/
def loadClip (engine : AudioEngine V B F) (wav : Option WavClip) :
    Option Nat × AudioEngine V B F :=
  match engine.initialized, wav with
  | true, some clip =>
      (some engine.clips.length, { engine with clips := engine.clips ++ [clip] })
  | _, _ => (none, engine)

def resolveClip (engine : AudioEngine V B F) (clip : UInt32) : Option WavClip :=
  if clip = 0 then none else engine.clips[clip.toNat]?

/-- What a sound is played with, of the slot that was acquired for it. -/
def configure (slot : VoiceSlot V F) (wav : WavClip) (params : PlayParams F) : VoiceSlot V F :=
  let is3d := params.emitter.isSome && wav.isMono
  { slot with
    bus := params.bus
    looping := params.loop
    is3d := is3d
    baseVolume := params.volume
    basePitch := params.pitch
    emitter := if is3d then params.emitter.getD slot.emitter else slot.emitter }

def play (engine : AudioEngine V B F) (dev : Device V) (clip : UInt32) (params : PlayParams F) :
    VoiceId × AudioEngine V B F :=
  if ¬ engine.initialized then (.null, engine)
  else
    match (engine.resolveClip clip).filter fun wav => !wav.pcm.isEmpty,
        engine.busVoice params.bus with
    | some wav, some busVoice =>
        match engine.pool.acquire dev wav.format (some busVoice) with
        | (_, none, pool) => (.null, { engine with pool := pool })
        | (id, some voice, pool) =>
            match pool.resolve id with
            | none => (.null, { engine with pool := pool })
            | some slot =>
                let pool := pool.next
                  (pool.slots.set (voiceIndex id).toNat (configure slot wav params))
                  [.submitSourceBuffer voice wav.format busVoice]
                if ¬ dev.submitSourceBuffer then (.null, { engine with pool := pool.release id })
                else
                  -- The volume, the place or the pitch, and the start.
                  let pool := pool.next pool.slots [.use voice, .use voice, .use voice]
                  if ¬ dev.start then (.null, { engine with pool := pool.release id })
                  else (id, { engine with pool := pool })
    | _, _ => (.null, engine)

def stop (engine : AudioEngine V B F) (id : VoiceId) : AudioEngine V B F :=
  { engine with pool := engine.pool.release id }

/-- Change the slot of a handle, with a call for its voice. -/
def adjust (engine : AudioEngine V B F) (id : VoiceId) (change : VoiceSlot V F → VoiceSlot V F)
    (called : VoiceSlot V F → Bool) : AudioEngine V B F :=
  match engine.pool.resolve id with
  | none => engine
  | some slot =>
      { engine with
        pool := engine.pool.next (engine.pool.slots.set (voiceIndex id).toNat (change slot))
          (if called slot then slot.voice.toList.map Event.use else []) }

def setVoiceVolume (engine : AudioEngine V B F) (id : VoiceId) (volume : F) :
    AudioEngine V B F :=
  engine.adjust id (fun slot => { slot with baseVolume := volume }) fun _ => true

/-- The pitch of a sound with a place is set by the next update. -/
def setVoicePitch (engine : AudioEngine V B F) (id : VoiceId) (pitch : F) : AudioEngine V B F :=
  engine.adjust id (fun slot => { slot with basePitch := pitch }) fun slot => !slot.is3d

def isPlaying (engine : AudioEngine V B F) (id : VoiceId) : Bool :=
  (engine.pool.resolve id).isSome

/-- Once a frame: free the voices that are done, and place those that have a place. -/
def update (engine : AudioEngine V B F) (dev : Device V) : AudioEngine V B F :=
  if engine.initialized then
    let pool := (engine.pool.reclaimFinished dev).2
    { engine with
      pool := pool.next pool.slots (pool.slots.flatMap fun slot =>
        if slot.busy && slot.is3d && (engine.busVoice slot.bus).isSome then
          slot.voice.toList.map Event.use
        else []) }
  else engine

end AudioEngine

/-- What a program asks of an engine. -/
inductive Call (V B F : Type)
  | initializeEngine (startup : Startup B)
  | loadClip (wav : Option WavClip)
  | play (dev : Device V) (clip : UInt32) (params : PlayParams F)
  | stop (id : VoiceId)
  | setVoiceVolume (id : VoiceId) (volume : F)
  | setVoicePitch (id : VoiceId) (pitch : F)
  | update (dev : Device V)
  | shutdown

def Call.isShutdown : Call V B F → Bool
  | .shutdown => true
  | _ => false

def AudioEngine.perform (engine : AudioEngine V B F) : Call V B F → AudioEngine V B F
  | .initializeEngine startup => engine.initializeEngine startup
  | .loadClip wav => (engine.loadClip wav).2
  | .play dev clip params => (engine.play dev clip params).2
  | .stop id => engine.stop id
  | .setVoiceVolume id volume => engine.setVoiceVolume id volume
  | .setVoicePitch id pitch => engine.setVoicePitch id pitch
  | .update dev => engine.update dev
  | .shutdown => engine.shutdown

/-- One call after the other. -/
def AudioEngine.run (engine : AudioEngine V B F) (calls : List (Call V B F)) :
    AudioEngine V B F := calls.foldl AudioEngine.perform engine

end

end Audio

end EarthRise
