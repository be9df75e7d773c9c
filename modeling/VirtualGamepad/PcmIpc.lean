import VirtualGamepad.Fallible
import VirtualGamepad.MachineInt
import VirtualGamepad.PcmQueue
import VirtualGamepad.WireBytes

/-! Versioned PCM blocks between the client and the worker, over one stream socket for each
direction. How much a write or a read moves is up to the socket. `sent` and `received` are ghost
lists of the blocks that were encoded and handed out. -/
namespace PcmIpc

open Fallible MachineInt WireBytes
open PcmQueue (AudioChannel AudioError PcmFormat)

def headerBytes : ℕ := 40

def blockFrames : ℕ := 128

def deadlineUs : ℕ := 1000000

section Blocks

inductive Direction where
  | playback
  | microphone
  deriving DecidableEq, Repr

/-- The audio part of a compiled USB profile. -/
structure UsbProfileSpec where
  playback : List AudioChannel
  microphone : List AudioChannel
  fits : playback.length ≤ 4 ∧ microphone.length ≤ 4

def UsbProfileSpec.layout (spec : UsbProfileSpec) : Direction → List AudioChannel
  | .playback => spec.playback
  | .microphone => spec.microphone

/-- What the registry knows about a controller family. -/
structure Family where
  usbProfile : Option UsbProfileSpec
  brokerTag : Option UInt8

structure Format where
  spec : UsbProfileSpec
  channels : ℕ
  tag : UInt8
  direction : Direction
  generation : ℕ

inductive PcmError where
  | brokenPipe
  | timedOut
  | writeZero
  | unexpectedEof
  | socket
  | invalid (reason : String)
  | audio (error : AudioError)
  deriving DecidableEq, Repr

def Format.new (family : Option Family) (direction : Direction) (generation : ℕ) :
    Except PcmError Format :=
  if generation = 0 then .error (.invalid "zero PCM generation")
  else
    match family with
    | none => .error (.invalid "unknown PCM family")
    | some family =>
      match family.usbProfile, family.brokerTag with
      | none, _ => .error (.invalid "family has no PCM profile")
      | some _, none => .error (.invalid "family has no PCM tag")
      | some spec, some tag =>
        .ok { spec, tag, direction, generation, channels := (spec.layout direction).length }

structure Block where
  frames : ℕ
  firstFrame : ℕ
  discontinuity : Bool
  /-- The producer's clock. -/
  producedAtUs : UInt64
  deriving DecidableEq, Repr

def flag (b : Bool) : UInt8 := if b then 1 else 0

/-- The letters VGPA. -/
def magic : List UInt8 := [0x56, 0x47, 0x50, 0x41]

def directionByte (format : Format) : UInt8 := flag (format.direction = .microphone)

def header (format : Format) (block : Block) : List UInt8 :=
  magic ++ [1, 0, format.tag, directionByte format] ++ bytesLe 8 format.generation ++
    bytesLe 8 block.firstFrame ++ bytesLe 4 block.frames ++ [flag block.discontinuity, 0, 0, 0] ++
    bytesLe 8 block.producedAtUs.toNat

def sampleBytes (sample : Int16) : List UInt8 := bytesLe 2 sample.toUInt16.toNat

def samplesOf : List UInt8 → List Int16
  | lo :: hi :: rest => (UInt16.ofNat (ofBytesLe [lo, hi])).toInt16 :: samplesOf rest
  | _ => []

def encode (format : Format) (block : Block) (samples : List Int16) :
    Except PcmError (List UInt8) :=
  if block.frames = 0 ∨ blockFrames < block.frames ∨
      samples.length ≠ block.frames * format.channels ∨
      checkedAdd block.firstFrame block.frames = none then
    .error (.invalid "invalid PCM block")
  else .ok (header format block ++ samples.flatMap sampleBytes)

def decode (format : Format) (bytes : List UInt8) : Except PcmError Block :=
  if bytes.length < headerBytes ∨ slice bytes 0 4 ≠ magic ∨ slice bytes 4 2 ≠ [1, 0] ∨
      slice bytes 6 1 ≠ [format.tag] ∨ slice bytes 7 1 ≠ [directionByte format] ∨
      slice bytes 8 8 ≠ bytesLe 8 format.generation ∨ 1 < bytes.getD 28 0 ∨
      slice bytes 29 3 ≠ [0, 0, 0] then
    .error (.invalid "PCM version, format or generation mismatch")
  else
    let frames := ofBytesLe (slice bytes 24 4)
    let firstFrame := ofBytesLe (slice bytes 16 8)
    if ¬(1 ≤ frames ∧ frames ≤ blockFrames) ∨ checkedAdd firstFrame frames = none then
      .error (.invalid "PCM frame bounds")
    else
      .ok { frames, firstFrame, discontinuity := bytes.getD 28 0 = 1
            producedAtUs := UInt64.ofNat (ofBytesLe (slice bytes 32 8)) }

/-- A block with its samples. -/
structure Packet where
  block : Block
  samples : List Int16
  deriving DecidableEq, Repr

end Blocks

section Channels

/-- One end of a socket. `bytes` is the part of the buffer that was filled. -/
structure Channel where
  format : Format
  bytes : List UInt8
  offset : ℕ
  length : ℕ
  deadline : Option ℕ
  lastNow : ℕ
  closed : Bool

namespace Channel

def new (format : Format) : Channel := ⟨format, [], 0, 0, none, 0, false⟩

def close (c : Channel) : Channel := { c with closed := true }

def check (now : UInt64) : Action PcmError Channel Unit := fun c =>
  if c.closed then (.error .brokenPipe, c)
  else if now.toNat < c.lastNow ∨ c.deadline.any (· ≤ now.toNat) then (.error .timedOut, c.close)
  else (.ok (), { c with lastNow := now.toNat })

def begin (now : UInt64) : Action PcmError Channel Unit := fun c =>
  match checkedAdd deadlineUs now.toNat with
  | none => (.error (.invalid "PCM deadline overflow"), c)
  | some due => (.ok (), { c with deadline := some due })

end Channel

structure Receiver where
  channel : Channel
  nextFrame : ℕ

/-- Both ends of a socket and the bytes that are under way. -/
structure Link where
  sender : Channel
  wire : List UInt8
  receiver : Receiver
  sent : List Packet
  received : List Packet

def Link.new (format : Format) : Link := ⟨.new format, [], ⟨.new format, 0⟩, [], []⟩

/-- An interrupted call counts as blocked. -/
inductive WriteOutcome where
  | wrote (n : ℕ)
  | blocked
  | failed
  deriving DecidableEq, Repr

inductive ReadOutcome where
  | data (n : ℕ)
  | blocked
  | eof
  | failed
  deriving DecidableEq, Repr

def onSender {α : Type} (m : Action PcmError Channel α) : Action PcmError Link α := fun l =>
  let (result, c) := m l.sender
  (result, { l with sender := c })

def onReceiver {α : Type} (m : Action PcmError Channel α) : Action PcmError Link α := fun l =>
  let (result, c) := m l.receiver.channel
  (result, { l with receiver := { l.receiver with channel := c } })

end Channels

namespace Sender

def close (l : Link) : Link := { l with sender := l.sender.close }

/-- After these bytes were written. -/
def advance (chunk : List UInt8) (l : Link) : Link :=
  let c := { l.sender with offset := l.sender.offset + chunk.length }
  { l with
    wire := l.wire ++ chunk
    sender := if c.offset = c.length then { c with offset := 0, length := 0, deadline := none }
      else c }

def pump (now : UInt64) (write : WriteOutcome) : Action PcmError Link Unit := do
  onSender (Channel.check now)
  let l ← get
  let c := l.sender
  if c.length = 0 then return ()
  else
    match write with
    | .blocked => return ()
    | .failed =>
      modify close
      fail .socket
    | .wrote n =>
      let chunk := slice c.bytes c.offset (min n (c.length - c.offset))
      if chunk = [] then
        modify close
        fail .writeZero
      else modify (advance chunk)

def enqueue (bytes : List UInt8) (packet : Packet) (l : Link) : Link :=
  { l with
    sender := { l.sender with bytes, length := bytes.length }
    sent := l.sent ++ [packet] }

/-- At most one block; zero means that the socket is still busy. -/
def send (samples : List Int16) (firstFrame : ℕ) (discontinuity : Bool) (now : UInt64)
    (first second : WriteOutcome) : Action PcmError Link ℕ := do
  pump now first
  let l ← get
  let c := l.sender
  if samples.length % c.format.channels ≠ 0 then fail (.invalid "PCM sample alignment")
  else if c.length ≠ 0 ∨ samples = [] then return 0
  else
    let frames := min (samples.length / c.format.channels) blockFrames
    let block : Block := { frames, firstFrame, discontinuity, producedAtUs := now }
    let samples := samples.take (frames * c.format.channels)
    let bytes ← lift (encode c.format block samples)
    modify (enqueue bytes ⟨block, samples⟩)
    onSender (Channel.begin now)
    pump now second
    return frames

end Sender

namespace Receiver

def close (l : Link) : Link :=
  { l with receiver := { l.receiver with channel := l.receiver.channel.close } }

def expect (length : ℕ) (l : Link) : Link :=
  { l with receiver := { l.receiver with channel := { l.receiver.channel with length } } }

def store (chunk : List UInt8) (l : Link) : Link :=
  let c := l.receiver.channel
  { l with receiver := { l.receiver with channel := { c with
      bytes := c.bytes.take c.offset ++ chunk, offset := c.offset + chunk.length } } }

/-- One read into the rest of the expected bytes; false while some are missing. -/
def fill (now : UInt64) (read : ReadOutcome) : Action PcmError Link Bool := do
  let l ← get
  let c := l.receiver.channel
  if c.length ≤ c.offset then return true
  else
    match read with
    | .eof => fail .unexpectedEof
    | .failed => fail .socket
    | .blocked => return false
    | .data n =>
      let chunk := l.wire.take (min n (c.length - c.offset))
      if chunk = [] then return false
      else
        modify fun l => { l with wire := l.wire.drop chunk.length }
        if c.deadline = none then onReceiver (Channel.begin now)
        modify (store chunk)
        return c.length ≤ c.offset + chunk.length

def accept (packet : Packet) (l : Link) : Link :=
  { l with
    receiver := ⟨{ l.receiver.channel with offset := 0, length := 0, deadline := none },
      packet.block.firstFrame + packet.block.frames⟩
    received := l.received ++ [packet] }

def gapError : PcmError := .invalid "PCM duplicate, reorder or unannounced gap"

/-- The read loop: one turn for the header and one for the body. -/
def turns (now : UInt64) (dest : List Int16) :
    List ReadOutcome → Action PcmError Link (Option Block × List Int16)
  | [] => return (none, dest)
  | read :: rest => do
    if ← fill now read then
      let l ← get
      let c := l.receiver.channel
      let block ← lift (decode c.format (c.bytes.take headerBytes))
      let length := headerBytes + block.frames * c.format.channels * 2
      modify (expect length)
      if c.offset < length then turns now dest rest
      else if block.firstFrame < l.receiver.nextFrame ∨
          (block.firstFrame ≠ l.receiver.nextFrame ∧ block.discontinuity = false) then
        fail gapError
      else
        let samples := samplesOf (slice c.bytes headerBytes (length - headerBytes))
        modify (accept ⟨block, samples⟩)
        return (some block, samples ++ dest.drop samples.length)
    else return (none, dest)

def receiveInner (dest : List Int16) (now : UInt64) (first second : ReadOutcome) :
    Action PcmError Link (Option Block × List Int16) := do
  onReceiver (Channel.check now)
  let l ← get
  let c := l.receiver.channel
  if dest.length < blockFrames * c.format.channels then
    fail (.invalid "PCM destination too short")
  else
    if c.length = 0 then modify (expect headerBytes)
    turns now dest [first, second]

/-- A partial packet is retained; any error is final. -/
def receive (dest : List Int16) (now : UInt64) (first second : ReadOutcome) :
    Action PcmError Link (Option Block × List Int16) := fun l =>
  match receiveInner dest now first second l with
  | (.error e, l) => (.error e, close l)
  | (.ok result, l) => (.ok result, l)

end Receiver

end PcmIpc
