import VirtualGamepad.Dialogue
import VirtualGamepad.PcmIpc
import VirtualGamepad.PcmQueueLosses

/-! Capture of host audio at one endpoint: each buffer of the graph is accepted by the queue, or
counted and logged as lost, while the consumer drains the queue at any time. -/
namespace PipewireCapture

open Dialogue MachineInt PcmIpc PcmQueue PcmQueueDelivery

section Ledger

inductive InputLossReason where
  | empty
  | corrupted
  | queueOverflow
  deriving DecidableEq, Repr

structure InputLossEvent where
  reason : InputLossReason
  firstFrame : ℕ
  frames : ℕ
  graphTicks : Option ℕ
  deriving DecidableEq, Repr

structure InputLossTrace where
  endpoint : String
  receivedFrames : ℕ
  events : List InputLossEvent
  omittedEvents : ℕ
  deriving DecidableEq, Repr

def lossEvents : ℕ := 64

structure LossSlot where
  reason : ℕ
  firstFrame : ℕ
  frames : ℕ
  graphTicks : ℕ
  clockAvailable : Bool
  deriving DecidableEq, Repr

structure InputLoss where
  empty : ℕ
  corrupted : ℕ
  overflow : ℕ
  received : ℕ
  published : ℕ
  omitted : ℕ
  events : List LossSlot
  deriving DecidableEq, Repr

def InputLoss.default : InputLoss :=
  ⟨0, 0, 0, 0, 0, 0, List.replicate lossEvents ⟨0, 0, 0, 0, false⟩⟩

def InputLossReason.code : InputLossReason → ℕ
  | .empty => 1
  | .corrupted => 2
  | .queueOverflow => 3

def InputLossReason.ofCode : ℕ → Option InputLossReason
  | 1 => some .empty
  | 2 => some .corrupted
  | 3 => some .queueOverflow
  | _ => none

def InputLoss.record (l : InputLoss) (reason : InputLossReason) (firstFrame frames : ℕ)
    (ticks : Option ℕ) : InputLoss :=
  if frames = 0 then l
  else if l.published < l.events.length then
    { l with
      events := l.events.set l.published
        ⟨reason.code, firstFrame, frames, ticks.getD 0, ticks.isSome⟩
      published := l.published + 1 }
  else { l with omitted := (l.omitted + 1) % 2 ^ 64 }

def LossSlot.event (slot : LossSlot) : Option InputLossEvent :=
  (InputLossReason.ofCode slot.reason).map fun reason =>
    ⟨reason, slot.firstFrame, slot.frames,
      if slot.clockAvailable then some slot.graphTicks else none⟩

/-- There is none when a published slot has a reason that does not exist. -/
def InputLoss.trace (l : InputLoss) (endpoint : String) : Option InputLossTrace :=
  ((l.events.take l.published).mapM LossSlot.event).map fun events =>
    ⟨endpoint, l.received, events, l.omitted⟩

/-- The counter of a reason goes up, then the range is recorded. -/
def InputLoss.lose (l : InputLoss) (reason : InputLossReason) (firstFrame frames : ℕ)
    (ticks : Option ℕ) : InputLoss :=
  let counted : InputLoss :=
    match reason with
    | .empty => { l with empty := (l.empty + frames) % 2 ^ 64 }
    | .corrupted => { l with corrupted := (l.corrupted + frames) % 2 ^ 64 }
    | .queueOverflow => { l with overflow := (l.overflow + frames) % 2 ^ 64 }
  counted.record reason firstFrame frames ticks

end Ledger

section Ingest

inductive Call where
  | push (samples : List Int16)
  | discard (frames : ℕ)

/-- The queue never accepts more frames than it is given. -/
abbrev Answer (channels : ℕ) : Call → Type
  | .push samples => Except AudioError { n : ℕ // n ≤ samples.length / channels }
  | .discard _ => Except AudioError Unit

abbrev Ingest (channels : ℕ) := Body Call (Answer channels) AudioError InputLoss

variable (channels : ℕ)

def Tx.push (samples : List Int16) : Ingest channels { n : ℕ // n ≤ samples.length / channels } :=
  ask (.push samples) >>= lift

def Tx.discard (frames : ℕ) : Ingest channels Unit := ask (.discard frames) >>= lift

def lose (reason : InputLossReason) (firstFrame frames : ℕ) (ticks : Option ℕ) :
    Ingest channels Unit := do
  let loss ← get
  set (loss.lose reason firstFrame frames ticks)

def ingestPackets (ticks : Option ℕ) : List (List UInt8) → ℕ → Ingest channels Unit
  | [], _ => pure ()
  | packet :: packets, position => do
    let n ← Tx.push channels (samplesOf packet)
    let discarded := (samplesOf packet).length / channels - n.val
    Tx.discard channels discarded
    lose channels .queueOverflow (position + n.val) discarded ticks
    ingestPackets ticks packets (position + (samplesOf packet).length / channels)

def chunkFlagEmpty : Int32 := 2

/-- Pieces of one size, and a shorter one at the end. -/
def packetsOf (size : ℕ) (bytes : List UInt8) : List (List UInt8) :=
  Slab.chunks size ((bytes.length + size - 1) / size) bytes

/-- `scratch` is the length of the conversion buffer, `corrupted` the graph's flag for damaged
buffers. -/
def ingest (scratch : ℕ) (corrupted : Int32) (bytes : List UInt8) (flags : Int32)
    (ticks : Option ℕ) : Ingest channels Unit := do
  if bytes.length % (channels * 2) ≠ 0 then fail .invalidRequirement
  else
    let frames := bytes.length / (channels * 2)
    let loss ← get
    let firstFrame := loss.received
    match checkedAdd firstFrame frames with
    | none => fail .invalidRequirement
    | some received =>
      set { loss with received }
      if flags &&& corrupted ≠ 0 then
        Tx.discard channels frames
        lose channels .corrupted firstFrame frames ticks
      else if flags &&& chunkFlagEmpty ≠ 0 then
        Tx.discard channels frames
        lose channels .empty firstFrame frames ticks
      else
        ingestPackets channels ticks (packetsOf (scratch / channels * channels * 2) bytes) firstFrame

end Ingest

section Endpoints

structure Endpoint where
  format : PcmFormat
  capacity : ℕ
  scratch : ℕ
  corrupted : Int32

def Endpoint.channels (e : Endpoint) : ℕ := e.format.channels.length

/-- The frames of a payload, in order. -/
def framesOf (channels : ℕ) (bytes : List UInt8) : List (List Int16) :=
  Slab.chunks channels (bytes.length / (channels * 2)) (samplesOf bytes)

abbrev Flight (e : Endpoint) := Prog Call (Answer e.channels) (Except AudioError Unit × InputLoss)

/-- `log`, `stream` and `results` are histories: the operations on the queue, the frames of the
payloads that were ingested, and what each call returned. -/
structure System (e : Endpoint) where
  queue : Queue
  loss : InputLoss
  flight : Option (List UInt8 × Flight e)
  log : List Label
  stream : List (List Int16)
  results : List (Except AudioError Unit)

/-- What the other endpoint of the queue may do. -/
def Consumes : Label → Prop
  | .read _ _ => True
  | .consumerFlush _ => True
  | .close => True
  | _ => False

inductive Step (e : Endpoint) : System e → System e → Prop where
  | ingest {s : System e} (bytes : List UInt8) (flags : Int32) (ticks : Option ℕ) :
      s.flight = none →
      Step e s { s with
        flight := some (bytes, ingest e.channels e.scratch e.corrupted bytes flags ticks s.loss) }
  | push {s : System e} {bytes : List UInt8} {samples : List Int16}
      {next : Answer e.channels (.push samples) → Flight e}
      {answer : Answer e.channels (.push samples)} {queue : Queue} :
      s.flight = some (bytes, .ask (.push samples) next) →
      PcmQueue.push samples s.queue = (answer.map Subtype.val, queue) →
      Step e s { s with
        queue
        log := s.log ++ [.push samples (answer.map Subtype.val)]
        flight := some (bytes, next answer) }
  | discard {s : System e} {bytes : List UInt8} {frames : ℕ}
      {next : Answer e.channels (.discard frames) → Flight e}
      {answer : Answer e.channels (.discard frames)} {queue : Queue} :
      s.flight = some (bytes, .ask (.discard frames) next) →
      PcmQueue.discard frames s.queue = (answer, queue) →
      Step e s { s with
        queue
        log := s.log ++ [.discard frames answer]
        flight := some (bytes, next answer) }
  | done {s : System e} {bytes : List UInt8} {result : Except AudioError Unit} {loss : InputLoss} :
      s.flight = some (bytes, .ret (result, loss)) →
      Step e s { s with
        loss
        flight := none
        stream := s.stream ++ framesOf e.channels bytes
        results := s.results ++ [result] }
  | consume {s : System e} {label : Label} {queue : Queue} : Consumes label →
      PcmQueue.Step s.queue label queue →
      Step e s { s with queue, log := s.log ++ [label] }

inductive Reachable (e : Endpoint) : System e → Prop where
  | initial {queue : Queue} : pcmQueue e.format e.capacity = .ok queue →
      Reachable e ⟨queue, .default, none, [], [], []⟩
  | step {s t : System e} : Reachable e s → Step e s t → Reachable e t

end Endpoints

end PipewireCapture
