import VirtualGamepad.PcmChainDelivery
import VirtualGamepad.PcmIpcParsing

/-! The sample pump of a controller's client. Playback blocks go from the socket to a queue that the
application reads; microphone packets go from a queue that the application fills to the socket. -/
namespace ClientPcm

open Fallible PcmQueue PcmIpc PcmChain

def microphoneCapacityFrames : ℕ := 1024

/-- The packets that one call may take: the capacity in blocks, rounded up. -/
def burstLimit : ℕ := (microphoneCapacityFrames + blockFrames - 1) / blockFrames

section Playback

/-- What is done with a block: a gap, the samples, and what does not fit. `before` and `after` are
what the application does around the push. -/
def accept (block : Block) (samples : List Int16) (before after : List ConsumerOp) :
    Action PcmError Chain Unit := do
  Inbound.skipTo block.firstFrame
  modify (consumeAll before)
  let accepted ← atDestination (push samples) (.push samples)
  modify (consumeAll after)
  if accepted < block.frames then
    let refused := block.frames - accepted
    atDestination (discard refused) (.discard refused)
  modify fun s => { s with
    inbound := { s.inbound with nextFrame := block.firstFrame + block.frames } }

/-- The playback branch of one turn of the pump. -/
def playback (channels : ℕ) (now : UInt64) (first second : ReadOutcome)
    (before after : List ConsumerOp) : Action PcmError Chain Unit := do
  let s ← get
  let (block, samples) ← onLink (Receiver.receive s.inbound.samples now first second)
  modify fun s => { s with inbound := { s.inbound with samples } }
  match block with
  | none => return ()
  | some block => accept block (samples.take (block.frames * channels)) before after

/-- An error ends the pump, which drops the queue's writer. -/
def playbackTurn (channels : ℕ) (now : UInt64) (first second : ReadOutcome)
    (before after : List ConsumerOp) : Action PcmError Chain Unit := fun s =>
  match playback channels now first second before after s with
  | (.error e, s) => (.error e, closeDestination s)
  | (.ok (), s) => (.ok (), s)

/-- A turn of a playback pump, or what anyone else does with its queue and its socket. -/
inductive PlaybackEvent where
  | turn (now : UInt64) (first second : ReadOutcome) (before after : List ConsumerOp)
  | consume (op : ConsumerOp)
  | closeDestination
  | feed (bytes : List UInt8)

def playEvent (pump : UInt64 → ReadOutcome → ReadOutcome → List ConsumerOp → List ConsumerOp →
    Action PcmError Chain Unit) : PlaybackEvent → Action PcmError Chain Unit
  | .turn now first second before after => pump now first second before after
  | .consume op => modify (consume op)
  | .closeDestination => modify closeDestination
  | .feed bytes => modify fun s => { s with link := PcmIpcParsing.feed bytes s.link }

/-- A pump runs until its first error. -/
def playEvents (pump : UInt64 → ReadOutcome → ReadOutcome → List ConsumerOp → List ConsumerOp →
    Action PcmError Chain Unit) : List PlaybackEvent → Action PcmError Chain Unit
  | [] => return ()
  | event :: events => do
    playEvent pump event
    playEvents pump events

end Playback

section Microphone

inductive PumpError where
  | pcm (error : PcmError)
  | other (reason : String)
  deriving DecidableEq, Repr

def partialAcceptance : PumpError := .other "partial microphone packet acceptance"

def atPcm {α : Type} (m : Action PcmError Chain α) : Action PumpError Chain α := fun s =>
  match m s with
  | (.error e, s) => (.error (.pcm e), s)
  | (.ok a, s) => (.ok a, s)

/-- One turn of the burst: what the application does before it, and what the socket takes. -/
structure Turn where
  produced : List ProducerOp
  first : WriteOutcome
  second : WriteOutcome

def produceAll (ops : List ProducerOp) (s : Chain) : Chain := ops.foldl (fun s op => produce op s) s

/-- The second half of a turn: the pending packet leaves in one block, and the burst goes on, or the
packet waits for the next call. -/
def offer (channels : ℕ) (now : UInt64) (turn : Turn) (rest : Action PumpError Chain Unit) :
    Action PumpError Chain Unit := do
  let s ← get
  match s.outbound.pending with
  | none => return ()
  | some packet =>
    let accepted ← atPcm (onLink (Sender.send (s.outbound.samples.take (packet.frames * channels))
      packet.firstFrame packet.discontinuity now turn.first turn.second))
    if accepted = 0 then return ()
    else if accepted ≠ packet.frames then fail partialAcceptance
    else
      modify fun s => { s with outbound := { s.outbound with pending := none } }
      rest

/-- The bounded catch-up of one call; `n` turns are left. -/
def burst (channels : ℕ) (now : UInt64) (turns : ℕ → Turn) : ℕ → Action PumpError Chain Unit
  | 0 => return ()
  | n + 1 => do
    modify (produceAll (turns n).produced)
    let s ← get
    if s.outbound.pending = none then atPcm (Outbound.fetch channels)
    offer channels now (turns n) (burst channels now turns n)

def pumpMicrophone (channels : ℕ) (now : UInt64) (write : WriteOutcome) (turns : ℕ → Turn) :
    Action PumpError Chain Unit := do
  atPcm (onLink (Sender.pump now write))
  burst channels now turns burstLimit

/-- The microphone's queue and socket, and whether the pump is over. -/
structure Microphone where
  chain : Chain
  exited : Bool

/-- The end of the pump drops the queue's reader; the socket stays with the client. -/
def Microphone.exit (m : Microphone) : Microphone := ⟨closeSource m.chain, true⟩

/-- A call that failed is the pump's last. -/
def Microphone.after : Except PumpError Unit × Chain → Microphone
  | (.ok (), s) => ⟨s, false⟩
  | (.error _, s) => Microphone.exit ⟨s, true⟩

/-- What the client does with its microphone, and the other end of the socket. -/
inductive MicrophoneEvent where
  | pump (now : UInt64) (write : WriteOutcome) (turns : ℕ → Turn)
  /-- The pump ends because it is stopped or because playback fails. -/
  | leave
  | produce (op : ProducerOp)
  | closeSource
  | receive (dest : List Int16) (now : UInt64) (first second : ReadOutcome)
  | closeReceiver

def Microphone.perform (channels : ℕ) (m : Microphone) : MicrophoneEvent → Microphone
  | .pump now write turns =>
    if m.exited then m else Microphone.after (pumpMicrophone channels now write turns m.chain)
  | .leave => if m.exited then m else m.exit
  | .produce op => { m with chain := PcmChain.produce op m.chain }
  | .closeSource => { m with chain := PcmChain.closeSource m.chain }
  | .receive dest now first second =>
    { m with chain := (onLink (Receiver.receive dest now first second) m.chain).2 }
  | .closeReceiver => { m with chain := { m.chain with link := Receiver.close m.chain.link } }

def Microphone.run (channels : ℕ) (m : Microphone) (events : List MicrophoneEvent) : Microphone :=
  events.foldl (Microphone.perform channels) m

end Microphone

end ClientPcm
