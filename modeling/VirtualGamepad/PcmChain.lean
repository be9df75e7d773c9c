import VirtualGamepad.PcmIpc

/-! One direction of the audio path: a source queue, a socket and a destination queue, with a pump
at each end of the socket. The logs of the two queues are ghosts. -/
namespace PcmChain

open Fallible PcmQueue
open PcmIpc

/-- The outbound pump's own fields. -/
structure Outbound where
  samples : List Int16
  pending : Option PcmRead

/-- The inbound pump's own fields. -/
structure Inbound where
  samples : List Int16
  nextFrame : ℕ

structure Chain where
  source : Queue
  outbound : Outbound
  link : Link
  inbound : Inbound
  destination : Queue
  sourceLog : List Label
  destinationLog : List Label

def validateQueue (format : Format) (pcm : PcmFormat) : Except PcmError Unit :=
  if pcm.rate = 48000 ∧ pcm.channels = format.spec.layout format.direction then .ok ()
  else .error (.invalid "PCM queue does not match compiled profile")

/-- Both pumps over one new socket. -/
def Chain.new (format : Format) (source destination : Queue) : Except PcmError Chain :=
  match validateQueue format source.format, validateQueue format destination.format with
  | .ok (), .ok () =>
    .ok {
      source, destination
      outbound := ⟨List.replicate 512 0, none⟩
      link := .new format
      inbound := ⟨List.replicate 512 0, 0⟩
      sourceLog := []
      destinationLog := [] }
  | .error e, _ => .error e
  | .ok (), .error e => .error e

section Endpoints

variable {α : Type}

def ioResult : Except AudioError α → Except PcmError α
  | .ok a => .ok a
  | .error e => .error (.audio e)

def atSource (op : Action AudioError Queue α) (label : Except AudioError α → Label) :
    Action PcmError Chain α := fun s =>
  let (result, q) := op s.source
  (ioResult result, { s with source := q, sourceLog := s.sourceLog ++ [label result] })

def atDestination (op : Action AudioError Queue α) (label : Except AudioError α → Label) :
    Action PcmError Chain α := fun s =>
  let (result, q) := op s.destination
  (ioResult result, { s with destination := q, destinationLog := s.destinationLog ++ [label result] })

def onLink (m : Action PcmError Link α) : Action PcmError Chain α := fun s =>
  let (result, l) := m s.link
  (result, { s with link := l })

def closeSource (s : Chain) : Chain :=
  { s with source := PcmQueue.close s.source, sourceLog := s.sourceLog ++ [.close] }

def closeDestination (s : Chain) : Chain :=
  { s with
    destination := PcmQueue.close s.destination
    destinationLog := s.destinationLog ++ [.close] }

/-- What the application or the USB worker does with the source. -/
inductive ProducerOp where
  | push (samples : List Int16)
  | discard (frames : ℕ)
  | flush
  deriving DecidableEq, Repr

/-- What the other side does with the destination. -/
inductive ConsumerOp where
  | read (dest : List Int16)
  | flush
  deriving DecidableEq, Repr

def produce : ProducerOp → Chain → Chain
  | .push samples, s => (atSource (push samples) (.push samples) s).2
  | .discard frames, s => (atSource (discard frames) (.discard frames) s).2
  | .flush, s => (atSource flush .flush s).2

def consume : ConsumerOp → Chain → Chain
  | .read dest, s => (atDestination (read dest) (.read dest) s).2
  | .flush, s => (atDestination consumerFlush .consumerFlush s).2

def consumeAll (ops : List ConsumerOp) (s : Chain) : Chain :=
  ops.foldl (fun s op => consume op s) s

end Endpoints

namespace Outbound

def close (s : Chain) : Chain :=
  let s := closeSource s
  { s with link := Sender.close s.link }

/-- Reads the next segment of the source when none is pending. -/
def fetch (channels : ℕ) : Action PcmError Chain Unit := do
  let s ← get
  let dest := s.outbound.samples.take (blockFrames * channels)
  let (result, dest') ← atSource (read dest) (.read dest)
  let samples := dest' ++ s.outbound.samples.drop dest'.length
  modify fun s => { s with
    outbound := ⟨samples, if result.frames = 0 then none else some result⟩ }

/-- The pending segment leaves in one block or stays. -/
def transmit (channels : ℕ) (now : UInt64) (first second : WriteOutcome) :
    Action PcmError Chain Unit := do
  let s ← get
  match s.outbound.pending with
  | none => return ()
  | some result =>
    let sent ← onLink (Sender.send (s.outbound.samples.take (result.frames * channels))
      result.firstFrame result.discontinuity now first second)
    if sent = result.frames then
      modify fun s => { s with outbound := { s.outbound with pending := none } }

def pumpInner (now : UInt64) (first second third : WriteOutcome) :
    Action PcmError Chain Unit := do
  onLink (Sender.pump now first)
  let s ← get
  if s.link.sender.length ≠ 0 then return ()
  else
    let channels := s.link.sender.format.channels
    if s.outbound.pending = none then fetch channels
    transmit channels now second third

def pump (now : UInt64) (first second third : WriteOutcome) : Action PcmError Chain Unit :=
  fun s =>
    match pumpInner now first second third s with
    | (.error e, s) => (.error e, close s)
    | (.ok (), s) => (.ok (), s)

end Outbound

namespace Inbound

def close (s : Chain) : Chain :=
  let s := closeDestination s
  { s with link := Receiver.close s.link }

/-- The gap in front of a block is counted as loss. -/
def skipTo (firstFrame : ℕ) : Action PcmError Chain Unit := do
  let s ← get
  if s.inbound.nextFrame < firstFrame then
    let gap := firstFrame - s.inbound.nextFrame
    atDestination (discard gap) (.discard gap)

/-- What does not fit is counted as loss. `before` and `after` are what the consumer does around
the push. -/
def place (block : Block) (samples : List Int16) (before after : List ConsumerOp) :
    Action PcmError Chain Unit := do
  modify (consumeAll before)
  let accepted ← atDestination (push samples) (.push samples)
  modify (consumeAll after)
  let refused := block.frames - accepted
  atDestination (discard refused) (.discard refused)
  modify fun s => { s with
    inbound := { s.inbound with nextFrame := block.firstFrame + block.frames } }

def pumpInner (now : UInt64) (first second : ReadOutcome) (before after : List ConsumerOp) :
    Action PcmError Chain Unit := do
  let s ← get
  let (block, samples) ← onLink (Receiver.receive s.inbound.samples now first second)
  modify fun s => { s with inbound := { s.inbound with samples } }
  match block with
  | none => return ()
  | some block =>
    let channels := s.link.receiver.channel.format.channels
    skipTo block.firstFrame
    place block (samples.take (block.frames * channels)) before after

def pump (now : UInt64) (first second : ReadOutcome) (before after : List ConsumerOp) :
    Action PcmError Chain Unit := fun s =>
  match pumpInner now first second before after s with
  | (.error e, s) => (.error e, close s)
  | (.ok (), s) => (.ok (), s)

end Inbound

inductive Event where
  | produce (op : ProducerOp)
  | consume (op : ConsumerOp)
  | closeSource
  | closeDestination
  | outboundPump (now : UInt64) (first second third : WriteOutcome)
  | outboundClose
  | inboundPump (now : UInt64) (first second : ReadOutcome) (before after : List ConsumerOp)
  | inboundClose
  deriving Repr

def perform (s : Chain) : Event → Chain
  | .produce op => produce op s
  | .consume op => consume op s
  | .closeSource => closeSource s
  | .closeDestination => closeDestination s
  | .outboundPump now first second third => (Outbound.pump now first second third s).2
  | .outboundClose => Outbound.close s
  | .inboundPump now first second before after => (Inbound.pump now first second before after s).2
  | .inboundClose => Inbound.close s

end PcmChain
