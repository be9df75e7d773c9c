import Mathlib.Data.Fintype.Basic
import Mathlib.Data.List.FinRange
import Mathlib.Logic.Function.Basic
import VirtualGamepad.HidRuntime

/-! The haptic PCM stream of the wired Steam Controller: packet framing and one bounded FIFO for
each of four channels, drained at a fixed rate. `consumed` and `dropped` are ghosts that no branch
reads. -/
namespace SteamStreaming

open Fallible MachineInt HidRuntime

inductive StreamPacket where
  | configure (operation target mode : UInt8)
  | mono (target : UInt8) (data : List UInt8)
  | stereo (left right : List UInt8)
  deriving DecidableEq, Repr

def StreamPacket.decode (report : Report) : Except ReplyError StreamPacket :=
  if report.kind ≠ .output then .error .unsupported
  else
    let b := report.payload
    let byte (i : ℕ) := b.getD i 0
    match report.id with
    | some 0x86 =>
      if b.length = 3 then
        if ¬ (byte 0 = 1 ∨ byte 0 = 2) ∨ ¬ (byte 1 = 2 ∨ byte 1 = 5) ∨ byte 2 ≠ 0 then
          .error .unsupported
        else .ok (.configure (byte 0) (byte 1) (byte 2))
      else .error .invalid
    | some 0x87 =>
      if 3 ≤ b.length ∧ b.length ≤ 63 ∧ (b.length - 1) % 2 = 0 then
        if ¬ (byte 0 = 0 ∨ byte 0 = 4) then .error .unsupported
        else .ok (.mono (byte 0) (b.drop 1))
      else .error .invalid
    | some 0x88 =>
      if b.length = 63 then
        let length := (byte 0).toNat
        if ¬ (2 ≤ length ∧ length ≤ 30) ∨ length % 2 ≠ 0 then .error .invalid
        else .ok (.stereo ((b.drop 1).take length) ((b.drop 32).take length))
      else .error .invalid
    | _ => .error .unsupported

/-- What the application can see of the stream. -/
structure StreamOutputs where
  enabled : Bool
  configured : Fin 4 → Bool
  bufferedBytes : Fin 4 → ℕ
  receivedBytes : Fin 4 → ℕ
  overrunBytes : Fin 4 → ℕ
  lastPacket : Option StreamPacket
  deriving DecidableEq

def StreamOutputs.default : StreamOutputs :=
  ⟨false, fun _ => false, fun _ => 0, fun _ => 0, fun _ => 0, none⟩

def capacity : ℕ := 1024
def highWater : ℕ := 128
def lowWater : ℕ := 64
def startDelayUs : ℕ := 8000
def feedbackPollUs : ℕ := 4000
def bytesPerSecond : ℕ := 16000
def maxFeedback : ℕ := 16

def feedbackId (index : Fin 4) : UInt8 := [0, 1, 3, 4].getD index.val 0

structure Channel where
  playing : Bool
  startAt : Option ℕ
  fraction : ℕ
  high : Option Bool
  deriving DecidableEq, Repr

def Channel.default : Channel := ⟨false, none, 0, none⟩

structure StreamState where
  outputs : StreamOutputs
  channels : Fin 4 → Channel
  feedback : List (UInt8 × UInt8)
  now : ℕ
  consumed : Fin 4 → ℕ
  dropped : Fin 4 → ℕ

namespace StreamState

def new (enabled : Bool) : StreamState where
  outputs := { StreamOutputs.default with enabled }
  channels := fun _ => .default
  feedback := []
  now := 0
  consumed := fun _ => 0
  dropped := fun _ => 0

def setChannel (s : StreamState) (index : Fin 4) (channel : Channel) : StreamState :=
  { s with channels := Function.update s.channels index channel }

def setBuffered (s : StreamState) (index : Fin 4) (bytes : ℕ) : StreamState :=
  { s with outputs := { s.outputs with
      bufferedBytes := Function.update s.outputs.bufferedBytes index bytes } }

/-- An empty channel, configured or not; what it held is lost. -/
def clear (s : StreamState) (index : Fin 4) (configured : Bool) : StreamState :=
  { s with
    outputs := { s.outputs with
      configured := Function.update s.outputs.configured index configured
      bufferedBytes := Function.update s.outputs.bufferedBytes index 0 }
    channels := Function.update s.channels index .default
    dropped := Function.update s.dropped index (s.dropped index + s.outputs.bufferedBytes index) }

def reset (now : ℕ) (s : StreamState) : StreamState :=
  { s with
    outputs := { s.outputs with configured := fun _ => false, bufferedBytes := fun _ => 0 }
    channels := fun _ => .default
    feedback := []
    now
    dropped := fun index => s.dropped index + s.outputs.bufferedBytes index }

end StreamState

/-- The state and result type of the stream's own calls. -/
abbrev Stream (α : Type) := Action ReplyError StreamState α

def feedback (index : Fin 4) (status : UInt8) : Stream Unit := fun s =>
  if maxFeedback ≤ s.feedback.length then (.error .busy, s)
  else (.ok (), { s with feedback := s.feedback ++ [(feedbackId index, status)] })

/-- Which side of the water marks a fill level is on; between them nothing changes. -/
def mark (size : ℕ) (high : Option Bool) : Option Bool :=
  if highWater ≤ size then some true
  else if size ≤ lowWater then some false
  else high

def watermark (index : Fin 4) : Stream Unit := do
  let s ← get
  let channel := s.channels index
  let high := mark (s.outputs.bufferedBytes index) channel.high
  if high ≠ channel.high then
    modify fun s => s.setChannel index { channel with high }
    match high with
    | some high => feedback index (if high then 0x08 else 0x04)
    | none => pure ()
  else pure ()

def receive (s : StreamState) (index : Fin 4) (length : ℕ) : StreamState :=
  { s with outputs := { s.outputs with
      receivedBytes := Function.update s.outputs.receivedBytes index
        (saturatingAdd (s.outputs.receivedBytes index) length) } }

def overrun (s : StreamState) (index : Fin 4) (length : ℕ) : StreamState :=
  { s with outputs := { s.outputs with
      overrunBytes := Function.update s.outputs.overrunBytes index
        (saturatingAdd (s.outputs.overrunBytes index) length) } }

/-- What does not fit is counted, reported and lost. -/
def spill (index : Fin 4) (length space : ℕ) : Stream Unit :=
  if space < length then do
    modify fun s => overrun s index (length - space)
    feedback index 0x01
  else pure ()

/-- The first bytes of an empty channel start its delay. -/
def schedule (s : StreamState) (index : Fin 4) : StreamState :=
  if s.outputs.bufferedBytes index = 0 then
    s.setChannel index { s.channels index with
      startAt := some (saturatingAdd s.now startDelayUs) }
  else s

def push (index : Fin 4) (data : List UInt8) : Stream Unit := do
  let s ← get
  if ¬ s.outputs.configured index then fail .invalid
  else if 65535 < data.length then fail .invalid
  else
    let length := data.length
    modify fun s => receive s index length
    let space := capacity - s.outputs.bufferedBytes index
    spill index length space
    modify fun s => schedule s index
    modify fun s => s.setBuffered index (s.outputs.bufferedBytes index + min length space)
    watermark index

def configureOne (operation target : UInt8) (index : Fin 4) : Stream Unit := do
  let s ← get
  if operation = 1 then
    modify fun s => s.clear index false
    feedback index 0x02
  else if target = 5 then feedback index 0x10
  else if s.outputs.configured index then fail .busy
  else
    modify fun s => s.clear index true
    feedback index 0x20

def numbered (index : ℕ) : Fin 4 := (List.finRange 4).getD index (Fin.last 3)

def applyPacket : StreamPacket → Stream Unit
  | .configure operation target _ => do
    if target = 2 then
      configureOne operation target (numbered 1)
      configureOne operation target (numbered 0)
    else
      configureOne operation target (numbered 3)
      configureOne operation target (numbered 2)
  | .mono target data => push (numbered (if target = 4 then 1 else 0)) data
  | .stereo left right => do
    push (numbered 0) left
    push (numbered 1) right

/-- Since when the channel has been playing, if it is to play at all. -/
def playFrom (s : StreamState) (now : ℕ) (index : Fin 4) : Option ℕ :=
  if (s.channels index).playing then some s.now
  else (s.channels index).startAt.filter (· ≤ now)

def Channel.start (channel : Channel) : Channel :=
  if channel.playing then channel else { channel with playing := true, startAt := none }

/-- The bytes that are due by now come out of the channel, as far as it has them. -/
def drain (s : StreamState) (index : Fin 4) (units : ℕ) : StreamState :=
  let bytes := min (units / 1000000) (s.outputs.bufferedBytes index)
  { (s.setBuffered index (s.outputs.bufferedBytes index - bytes)).setChannel index
      { (s.channels index).start with fraction := units % 1000000 } with
    consumed := Function.update s.consumed index (s.consumed index + bytes) }

def advanceOne (now : ℕ) (index : Fin 4) : Stream Unit := do
  let s ← get
  if ¬ s.outputs.configured index ∨ s.outputs.bufferedBytes index = 0 then pure ()
  else
    match playFrom s now index with
    | none => pure ()
    | some start =>
      let units := (now - start) * bytesPerSecond + (s.channels index).fraction
      modify fun s => drain s index units
      let s ← get
      if s.outputs.bufferedBytes index = 0 then
        modify fun s => s.setChannel index .default
        feedback index 0x02
      else watermark index

def advanceEach (now : ℕ) : List (Fin 4) → Stream Unit
  | [] => pure ()
  | index :: indices => do
    advanceOne now index
    advanceEach now indices

def advance (now : ℕ) : Stream Unit := do
  advanceEach now (List.finRange 4)
  modify fun s => { s with now }

/-- A packet is taken as a whole or not at all. -/
def accept (packet : StreamPacket) (now : ℕ) : Stream Unit := fun s =>
  if ¬ s.outputs.enabled then (.error .unsupported, s)
  else
    match (advance now >>= fun _ => applyPacket packet) s with
    | (.ok (), next) =>
      (.ok (), { next with outputs := { next.outputs with lastPacket := some packet } })
    | (.error e, _) => (.error e, s)

theorem accept_error {packet : StreamPacket} {now : ℕ} {e : ReplyError} {s t : StreamState}
    (h : accept packet now s = (.error e, t)) : t = s := by
  unfold accept at h
  split at h
  · exact (Prod.mk.inj h).2.symm
  · split at h
    · cases h
    · exact (Prod.mk.inj h).2.symm

/-- When the stream has to be polled next. -/
def channelDeadline (s : StreamState) (index : Fin 4) : Option ℕ :=
  if s.outputs.bufferedBytes index = 0 then none
  else if (s.channels index).playing then some (saturatingAdd s.now feedbackPollUs)
  else (s.channels index).startAt

def StreamState.deadline (s : StreamState) : Option ℕ :=
  if s.feedback ≠ [] then some s.now
  else ((List.finRange 4).filterMap (channelDeadline s)).min?

def feedbackReport (entry : UInt8 × UInt8) : Report :=
  ⟨.input, some 0x44, [entry.1, entry.2, 0, 0, 0], by simp [Framed]⟩

/-- Takes all statuses out of the queue. -/
def takeFeedback : Stream (List (UInt8 × UInt8)) := fun s =>
  (.ok s.feedback, { s with feedback := [] })

def poll (now : ℕ) : Stream (List Report) := do
  let pending ← takeFeedback
  advance now
  let fresh ← takeFeedback
  pure ((pending ++ fresh).map feedbackReport)

end SteamStreaming
