import VirtualGamepad.Fallible
import VirtualGamepad.MachineInt
import VirtualGamepad.RingBuffer
import VirtualGamepad.Slab

/-! The bounded PCM queue between one producer and one consumer. Both endpoints are one state
here: `nextFrame` is the producer's own, `expectedFrame` the consumer's own, the rest is
shared. Each operation is one step. -/
namespace PcmQueue

open Fallible MachineInt

inductive AudioError where
  | unavailable
  | invalidRequirement
  | invalidSampleBuffer
  | ownershipMismatch
  | unsupported
  | incompatibleTopology
  | accessDenied
  | closed
  | backend (reason : String)
  deriving DecidableEq, Repr

inductive AudioChannel where
  | audibleLeft
  | audibleRight
  | speaker
  | microphone
  | microphoneLeft
  | microphoneRight
  | hapticLeft
  | hapticRight
  deriving DecidableEq, Repr

def ValidFormat (rate : ℕ) (channels : List AudioChannel) : Prop :=
  rate ≠ 0 ∧ channels ≠ [] ∧ channels.length ≤ 32 ∧ channels.Nodup

instance (rate : ℕ) (channels : List AudioChannel) : Decidable (ValidFormat rate channels) :=
  inferInstanceAs (Decidable (_ ∧ _))

structure PcmFormat where
  rate : ℕ
  channels : List AudioChannel
  valid : ValidFormat rate channels
  deriving DecidableEq

def PcmFormat.new (rate : ℕ) (channels : List AudioChannel) : Except AudioError PcmFormat :=
  if h : ValidFormat rate channels then .ok ⟨rate, channels, h⟩ else .error .invalidRequirement

theorem PcmFormat.channels_pos (format : PcmFormat) : 0 < format.channels.length :=
  List.length_pos_iff.mpr format.valid.2.1

structure Queue where
  format : PcmFormat
  samples : List Int16
  positions : List ℕ
  channels : ℕ
  slots : ℕ
  head : ℕ
  tail : ℕ
  closed : Bool
  discarded : ℕ
  flushBefore : ℕ
  nextFrame : ℕ
  expectedFrame : ℕ
  deriving DecidableEq

/-- One contiguous segment. -/
structure PcmRead where
  frames : ℕ
  firstFrame : ℕ
  discontinuity : Bool
  deriving DecidableEq, Repr

def pcmQueue (format : PcmFormat) (capacity : ℕ) : Except AudioError Queue :=
  if 1 ≤ capacity ∧ capacity ≤ 65536 then
    let slots := capacity + 1
    .ok {
      format, slots
      samples := List.replicate (slots * format.channels.length) 0
      positions := List.replicate slots 0
      channels := format.channels.length
      head := 0
      tail := 0
      closed := false
      discarded := 0
      flushBefore := 0
      nextFrame := 0
      expectedFrame := 0 }
  else
    .error .invalidRequirement

namespace Queue

def validate (q : Queue) (len : ℕ) : Except AudioError Unit :=
  if q.closed then .error .closed
  else if len % q.channels ≠ 0 then .error .invalidSampleBuffer
  else .ok ()

def queuedFrames (q : Queue) : ℕ := (q.head + q.slots - q.tail) % q.slots

/-- One turn of the store loop of `push`. -/
def store (q : Queue) (frame : List Int16) (position : ℕ) : Queue :=
  { q with
    samples := Slab.write q.channels q.samples q.head frame
    positions := q.positions.set q.head position
    head := RingBuffer.next q.slots q.head }

def storeAll (q : Queue) (position : ℕ) : List (List Int16) → Queue
  | [] => q
  | frame :: frames => (q.store frame position).storeAll (position + 1) frames

def position (q : Queue) (i : ℕ) : ℕ := q.positions.getD i 0

/-- The skip loop of `read`, over at most the frames that are queued. -/
def skipFlushed : ℕ → Queue → Queue
  | 0, q => q
  | n + 1, q =>
    if q.tail ≠ q.head ∧ q.position q.tail < q.flushBefore then
      skipFlushed n { q with tail := RingBuffer.next q.slots q.tail }
    else q

/-- The copy loop of `read`, one turn for each destination frame. -/
def copy : ℕ → PcmRead → List Int16 → Queue → PcmRead × List Int16 × Queue
  | 0, result, dest, q => (result, dest, q)
  | n + 1, result, dest, q =>
    if q.tail = q.head then (result, dest, q)
    else
      let position := q.position q.tail
      let next := { q with
        expectedFrame := position + 1
        tail := RingBuffer.next q.slots q.tail }
      let dest' := dest ++ Slab.slot q.channels q.samples q.tail
      if result.frames = 0 then
        copy n ⟨1, position, position ≠ q.expectedFrame⟩ dest' next
      else if position ≠ q.expectedFrame then (result, dest, q)
      else copy n { result with frames := result.frames + 1 } dest' next

end Queue

/-- Accepts a prefix of complete frames. -/
def push (samples : List Int16) : Action AudioError Queue ℕ := fun q =>
  match q.validate samples.length with
  | .error error => (.error error, q)
  | .ok () =>
    let available := (q.tail + q.slots - q.head - 1) % q.slots
    let frames := min available (samples.length / q.channels)
    match checkedAdd q.nextFrame frames with
    | none => (.error .invalidRequirement, q)
    | some next =>
      (.ok frames, { q.storeAll q.nextFrame (Slab.chunks q.channels frames samples) with
        nextFrame := next })

/-- Records frames that cannot be retried. -/
def discard (frames : ℕ) : Action AudioError Queue Unit := fun q =>
  match q.validate 0 with
  | .error error => (.error error, q)
  | .ok () =>
    match checkedAdd q.nextFrame frames with
    | none => (.error .invalidRequirement, q)
    | some next =>
      (.ok (), { q with nextFrame := next, discarded := (q.discarded + frames) % 2 ^ 64 })

/-- The producer's flush: what was published so far is skipped by the next read. -/
def flush : Action AudioError Queue Unit := fun q =>
  match q.validate 0 with
  | .error error => (.error error, q)
  | .ok () => (.ok (), { q with flushBefore := q.nextFrame })

/-- Reads complete frames up to the next gap; `dest` keeps what was not overwritten. -/
def read (dest : List Int16) : Action AudioError Queue (PcmRead × List Int16) := fun q =>
  match q.validate dest.length with
  | .error error => (.error error, q)
  | .ok () =>
    let q := Queue.skipFlushed q.queuedFrames q
    let (result, written, q) :=
      Queue.copy (dest.length / q.channels) ⟨0, q.expectedFrame, false⟩ [] q
    (.ok (result, written ++ dest.drop written.length), q)

/-- The consumer's flush discards the queued frames. -/
def consumerFlush : Action AudioError Queue Unit := fun q =>
  match q.validate 0 with
  | .error error => (.error error, q)
  | .ok () => (.ok (), { q with tail := q.head })

/-- Either endpoint closes the whole stream, also when it is dropped. -/
def close (q : Queue) : Queue := { q with closed := true }

/-- One operation with what it was given and what it answered. -/
inductive Label where
  | push (samples : List Int16) (result : Except AudioError ℕ)
  | discard (frames : ℕ) (result : Except AudioError Unit)
  | flush (result : Except AudioError Unit)
  | read (dest : List Int16) (result : Except AudioError (PcmRead × List Int16))
  | consumerFlush (result : Except AudioError Unit)
  | close

def Step (q : Queue) (label : Label) (q' : Queue) : Prop :=
  match label with
  | .push samples result => push samples q = (result, q')
  | .discard frames result => discard frames q = (result, q')
  | .flush result => flush q = (result, q')
  | .read dest result => read dest q = (result, q')
  | .consumerFlush result => consumerFlush q = (result, q')
  | .close => q' = close q

end PcmQueue
