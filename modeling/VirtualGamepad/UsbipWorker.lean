import VirtualGamepad.UsbipControl
import VirtualGamepad.UsbipPending
import VirtualGamepad.UsbipCompletionQueue

/-! The worker behind one USB/IP connection: it admits transfers into 32 slots, serves them when
they are due, and queues the replies. The socket, the personality and the threads at the other
ends of the two PCM queues are parameters. `log` is a ghost that no branch reads. -/
namespace UsbipWorker

open Fallible MachineInt WireBytes UsbipFrame UsbipPending UsbipControl
open HidRuntime (Report RequestKind Reply)
open PcmQueue (PcmRead PcmFormat AudioError)
open UsbipCompletionQueue (CompletionQueue IoError Written Outlet)

def slotCount : ℕ := 32

inductive Failure where
  | io (error : IoError)
  | panic
  deriving DecidableEq, Repr

/-- An error of the worker itself, from the debug form of its cause. -/
def error (debug : String) : Failure := .io ⟨.invalidData, "USB worker: " ++ debug⟩

def message (text : String) : Failure := error text.quote

def frameDebug : UsbipFrame.Error → String
  | .incomplete => "Incomplete"
  | .malformed => "Malformed"
  | .limit => "Limit"
  | .wrongDevice => "WrongDevice"
  | .replyLength => "ReplyLength"

def pendingDebug : PendingError → String
  | .full => "Full"
  | .duplicate => "Duplicate"
  | .stale => "Stale"
  | .deadline => "Deadline"
  | .clock => "Clock"
  | .notSubmit => "NotSubmit"

def audioDebug : AudioError → String
  | .unavailable => "Unavailable"
  | .invalidRequirement => "InvalidRequirement"
  | .invalidSampleBuffer => "InvalidSampleBuffer"
  | .ownershipMismatch => "OwnershipMismatch"
  | .unsupported => "Unsupported"
  | .incompatibleTopology => "IncompatibleTopology"
  | .accessDenied => "AccessDenied"
  | .closed => "Closed"
  | .backend reason => "Backend \x7b reason: " ++ reason.quote ++ " \x7d"

/-- The trusted personality. Only `input` and `request` must always answer. -/
class HidHandler (H : Type) where
  service : ℕ → Action IoError H Unit := fun _ h => (.ok (), h)
  request : H → RequestKind → ℕ → Reply × H
  input : H → ℕ → Option Report × H
  output : H → List UInt8 → ℕ → Bool × H

inductive Received where
  | data (bytes : List UInt8)
  | wouldBlock
  | interrupted
  | failed (error : IoError)
  deriving DecidableEq, Repr

/-- What the microphone's producer thread can do. -/
inductive ProducerCall where
  | push (samples : List Int16)
  | discard (frames : ℕ)
  | flush
  | close

/-- What the playback consumer's thread can do. -/
inductive ConsumerCall where
  | read (dest : List Int16)
  | flush
  | close

/-- The socket, the poll, and what the other threads did since they were last looked at. -/
class Host (K : Type) where
  read : K → ℕ → Received × K
  write : K → List UInt8 → Written × K
  wait : Action IoError K Unit
  produced : K → List ProducerCall × K
  consumed : K → List ConsumerCall × K

structure Counters where
  microphoneSilenceFrames : ℕ
  completedTransfers : ℕ
  stalledTransfers : ℕ
  inactiveAudioTransfers : ℕ
  playbackFrames : ℕ
  captureFrames : ℕ
  microphoneConsumedFrames : ℕ
  microphoneHostFrames : ℕ
  microphoneQueueDroppedFrames : ℕ
  abandonedCaptureFrames : ℕ
  maximumAudioLatenessUs : ℕ
  deriving DecidableEq, Repr

def Counters.default : Counters := ⟨0, 0, 0, 0, 0, 0, 0, 0, 0, 0, 0⟩

/-- An occupied slot. `captureData` is the part of its buffer that was filled. -/
structure Slot where
  bytes : List UInt8
  ticket : Ticket
  ready : ℕ
  order : ℕ
  stream : ℕ
  capturePackets : ℕ
  captured : ℕ
  captureData : List UInt8
  deriving DecidableEq, Repr

inductive Event where
  | received (bytes : List UInt8)
  | command (request : Request)
  | admitted (now : ℕ) (slot : Slot)
  | cancelled (sequence target : ℕ) (found : Bool) (gone : List Slot)
  | retUnlink (sequence : ℕ) (found : Bool) (bytes : List UInt8)
  | microphone (label : PcmQueue.Label)
  | captured (slot : Slot) (read : PcmRead) (samples : List Int16)
  | completing (now : ℕ) (slot : Slot)
  | control (slot : Slot) (setup payload : List UInt8)
  | counted (slot : Slot) (frames : ℕ)
  | retSubmit (slot : Slot) (status : ℤ) (bytes : List UInt8)
  | delivered (slot : Slot) (abandoned : Bool)
  | written (bytes : List UInt8)
  | checked (now : ℕ)

structure Worker (H K : Type) where
  host : K
  device : ℕ
  profile : Profile
  control : ControlState
  hid : H
  playback : PcmQueue.Queue
  microphone : PcmQueue.Queue
  counters : Counters
  pending : Pending
  slots : List (Option Slot)
  receive : List UInt8
  expected : ℕ
  frameStarted : Option ℕ
  nextOrder : ℕ
  outgoing : CompletionQueue
  log : List Event

/-- When the next packet of a capture transfer is due. -/
def captureDue (control : ControlState) (slot : Slot) : Option ℕ :=
  if control.microphoneActive ∧ slot.captured < slot.capturePackets then
    some (slot.ready - (slot.capturePackets - slot.captured - 1) * 1000)
  else none

def dueAt (control : ControlState) (slot : Slot) : ℕ := (captureDue control slot).getD slot.ready

/-- The frames a slot has collected for the host. -/
def Slot.frames (slot : Slot) : ℕ := slot.captured * 48

def Slot.key (control : ControlState) (slot : Slot) : ℕ × ℕ := (dueAt control slot, slot.order)

def sampleBytes (samples : List Int16) : List UInt8 :=
  samples.flatMap fun s => le16 s.toUInt16.toNat

/-- Pairs of bytes as little-endian samples; an odd last byte is left out. -/
def bytesSamples : List UInt8 → List Int16
  | low :: high :: bytes => (UInt16.ofNat (low.toNat + 256 * high.toNat)).toInt16 :: bytesSamples bytes
  | _ => []

variable {H K : Type} [HidHandler H] [Host K]

namespace Worker

def slot (w : Worker H K) (index : ℕ) : Option Slot := (w.slots[index]?).join

def live (w : Worker H K) : List Slot := SlotTable.live w.slots

def nextReady (w : Worker H K) (now : ℕ) : Option ℕ :=
  (SlotTable.pick (Slot.key w.control) (fun s => dueAt w.control s ≤ now) 0 w.slots).map Prod.fst

def record (w : Worker H K) (event : Event) : Worker H K := { w with log := w.log ++ [event] }

end Worker

def new (host : K) (device : ℕ) (profile : Profile) (hid : H) (playback microphone : PcmQueue.Queue) :
    Except Failure (Worker H K) :=
  if ¬ profile.acceptsPlayback playback.format ∨ ¬ profile.acceptsMicrophone microphone.format then
    .error (message "PCM format or channel roles do not match the compiled USB profile")
  else
    .ok {
      host, device, profile, hid, playback, microphone
      control := .default
      counters := .default
      pending := .new device
      slots := List.replicate slotCount none
      receive := []
      expected := headerBytes
      frameStarted := none
      nextOrder := 0
      outgoing := .new slotCount maxFrameBytes
      log := [] }

/-- The state and result type of the worker's own calls. -/
abbrev Work (H K α : Type) := Action Failure (Worker H K) α

section Parts

variable {α : Type}

def emit (event : Event) : Work H K Unit := modify fun w => w.record event

def onPending (call : Action PendingError Pending α) : Work H K α := fun w =>
  match call w.pending with
  | (.ok a, pending) => (.ok a, { w with pending })
  | (.error e, pending) => (.error (error (pendingDebug e)), { w with pending })

def onMicrophone (call : Action AudioError PcmQueue.Queue α) : Work H K α := fun w =>
  match call w.microphone with
  | (.ok a, microphone) => (.ok a, { w with microphone })
  | (.error e, microphone) => (.error (error (audioDebug e)), { w with microphone })

def onPlayback (call : Action AudioError PcmQueue.Queue α) : Work H K α := fun w =>
  match call w.playback with
  | (.ok a, playback) => (.ok a, { w with playback })
  | (.error e, playback) => (.error (error (audioDebug e)), { w with playback })

def liftFrame (result : Except UsbipFrame.Error α) : Work H K α :=
  match result with
  | .ok a => pure a
  | .error e => fail (error (frameDebug e))

def ProducerCall.label (call : ProducerCall) (q : PcmQueue.Queue) : PcmQueue.Label × PcmQueue.Queue :=
  match call with
  | .push samples => (.push samples (PcmQueue.push samples q).1, (PcmQueue.push samples q).2)
  | .discard frames =>
    (.discard frames (PcmQueue.discard frames q).1, (PcmQueue.discard frames q).2)
  | .flush => (.flush (PcmQueue.flush q).1, (PcmQueue.flush q).2)
  | .close => (.close, PcmQueue.close q)

def ConsumerCall.apply (q : PcmQueue.Queue) (call : ConsumerCall) : PcmQueue.Queue :=
  match call with
  | .read dest => (PcmQueue.read dest q).2
  | .flush => (PcmQueue.consumerFlush q).2
  | .close => PcmQueue.close q

def produce (w : Worker H K) (call : ProducerCall) : Worker H K :=
  { w.record (.microphone (call.label w.microphone).1) with
    microphone := (call.label w.microphone).2 }

/-- The microphone's producer runs beside the worker; its calls take effect here. -/
def hearProducer : Work H K Unit := modify fun w =>
  let (calls, host) := Host.produced w.host
  calls.foldl produce { w with host }

def hearConsumer : Work H K Unit := modify fun w =>
  let (calls, host) := Host.consumed w.host
  { w with host, playback := calls.foldl ConsumerCall.apply w.playback }

end Parts

/-- Queues one encoded reply. -/
def push (bytes : List UInt8) (now : ℕ) (event : Event) : Work H K Unit := fun w =>
  match UsbipCompletionQueue.push bytes now w.outgoing with
  | (.ok (), outgoing) => (.ok (), { w.record event with outgoing })
  | (.error e, outgoing) => (.error (.io e), { w with outgoing })

def flush (now : ℕ) : Work H K Unit := fun w =>
  let (result, outlet) :=
    UsbipCompletionQueue.flush Host.write now ⟨w.outgoing, w.host, []⟩
  (result.mapError .io, { w.record (.written outlet.sent) with
    outgoing := outlet.queue, host := outlet.writer })

section Capture

def Counters.recordMicrophoneProgress (c : Counters) (silence : ℕ) : Counters :=
  { c with
    microphoneSilenceFrames := c.microphoneSilenceFrames + silence
    microphoneHostFrames := c.microphoneHostFrames + 48 }

/-- Fills one packet from the queue, and with silence behind what the queue had. -/
def capturePacket (length channels room : ℕ) : Work H K (PcmRead × List Int16) := do
  let count := 48 * channels
  if length < count * 2 ∨ room < count * 2 then fail (message "invalid capture ISO packet")
  else if 96 < count then fail .panic
  else
    hearProducer
    let (read, samples) ← onMicrophone (PcmQueue.read (List.replicate count 0))
    modify fun w => { w with
      counters := ({ w.counters with
        microphoneConsumedFrames := w.counters.microphoneConsumedFrames + read.frames
        }).recordMicrophoneProgress (48 - read.frames) }
    pure (read, samples)

/-- The transfer a slot holds; every occupied slot was filled with a decoded one. -/
def heldRequest (slot : Slot) (otherwise : String) : Work H K Submit := do
  let w ← get
  let (request, _) ← liftFrame (UsbipFrame.decode slot.bytes w.device)
  match request with
  | .submit request => pure request
  | .unlink _ _ => fail (message otherwise)

def captureOne (index : ℕ) : Work H K Unit := do
  let w ← get
  match w.slot index with
  | none => fail .panic
  | some slot =>
    let request ← heldRequest slot "non-submit capture"
    match request.packets[slot.captured]? with
    | none => fail (message "missing capture packet")
    | some packet =>
      let channels := w.profile.microphoneChannels
      let offset := slot.captured * 48 * channels * 2
      if maxTransferBytes < offset then fail .panic
      else
        let (read, samples) ← capturePacket packet.length channels (maxTransferBytes - offset)
        modify fun w => { w.record (.captured slot read samples) with
          slots := w.slots.set index (some { slot with
            captured := slot.captured + 1
            captureData := slot.captureData ++ sampleBytes samples }) }

end Capture

section Receive

/-- The socket read of `receiveOne`, with the answer of its early returns. -/
def readMore (now : ℕ) : Work H K (Option Bool) := do
  let w ← get
  if w.receive.length < w.expected then
    let room := w.expected - w.receive.length
    let (outcome, host) := Host.read w.host room
    modify fun w => { w with host }
    match outcome with
    | .data [] => fail (.io ⟨.unexpectedEof, "USB/IP peer closed"⟩)
    | .data bytes =>
      modify fun w => { w.record (.received (bytes.take room)) with
        frameStarted := some (w.frameStarted.getD now)
        receive := w.receive ++ bytes.take room }
      pure none
    | .wouldBlock => pure (some false)
    | .interrupted => pure (some true)
    | .failed e => fail (.io e)
  else pure none

/-- Takes the target out of both tables; whether it was still waiting. -/
def cancel (sequence target : ℕ) : Work H K Bool := fun w =>
  let found := (UsbipPending.unlink target w.pending).1
  let gone := w.live.filter (·.ticket.sequence = target)
  (.ok found, { w.record (.cancelled sequence target found gone) with
    pending := (UsbipPending.unlink target w.pending).2
    slots := SlotTable.clear (·.ticket.sequence = target) w.slots
    counters := { w.counters with
      abandonedCaptureFrames :=
        w.counters.abandonedCaptureFrames + (gone.map Slot.frames).sum } })

def unlinkRequest (sequence target now : ℕ) : Work H K Unit := do
  let found ← cancel sequence target
  push (unlinkBytes sequence found) now (.retUnlink sequence found (unlinkBytes sequence found))
  flush now

def streamOf (header : Header) : ℕ := header.endpoint + if header.direction = .in then 16 else 0

def delayOf (header : Header) : ℕ :=
  if header.packets ≠ 0 then header.packets * 1000
  else if header.endpoint = 3 ∧ header.direction = .in then 4000
  else 0

/-- The latest time that a transfer of the stream is ready, and not before now. -/
def latestReady (slots : List Slot) (stream now : ℕ) : ℕ :=
  max (((slots.filter (·.stream = stream)).map Slot.ready).max?.getD now) now

def captureCount (header : Header) : ℕ :=
  if header.endpoint = 2 ∧ header.direction = .in then header.packets else 0

def submitRequest (header : Header) (now : ℕ) : Work H K Unit := do
  let w ← get
  match checkedAdd (latestReady w.live (streamOf header) now) (delayOf header) with
  | none => fail (message "USB clock overflow")
  | some ready =>
    if w.slots.all (·.isSome) then fail (message "USB pending quota reached")
    else
      let ticket ← onPending (UsbipPending.insert header now 1000000)
      let slot : Slot := {
        bytes := w.receive
        ticket, ready
        order := w.nextOrder
        stream := streamOf header
        capturePackets := captureCount header
        captured := 0
        captureData := [] }
      modify fun w => { w.record (.admitted now slot) with
        slots := (SlotTable.insert slot w.slots).getD w.slots }
      match checkedAdd w.nextOrder 1 with
      | none => fail (message "USB ordering clock overflow")
      | some next => modify fun w => { w with nextOrder := next }

/-- At most one read and one command; whether another turn is worth while. -/
def receiveOne (now : ℕ) : Work H K Bool := do
  let early ← readMore now
  let w ← get
  match early with
  | some more => pure more
  | none =>
    if w.receive.length < w.expected then pure true
    else
      let header ← liftFrame (Header.decode w.receive w.device)
      modify fun w => { w with expected := header.wireBytes }
      if w.receive.length < header.wireBytes then pure true
      else
        let (request, _) ← liftFrame (UsbipFrame.decode w.receive w.device)
        emit (.command request)
        match request with
        | .unlink sequence target => unlinkRequest sequence target now
        | .submit _ => submitRequest header now
        modify fun w => { w with receive := [], expected := headerBytes, frameStarted := none }
        pure true

end Receive

section Complete

/-- What a transfer returns to the host. -/
structure Outcome where
  status : ℤ
  data : List UInt8
  actual : ℕ
  isoActual : List ℕ
  deriving DecidableEq, Repr

/-- The explicit stall of unsupported endpoints and requests. -/
def Outcome.stalled (header : Header) : Outcome := ⟨-32, [], 0, List.replicate header.packets 0⟩

def controlResponse (completion : Completion) (now : ℕ) : Work H K (Option (List UInt8)) := fun w =>
  match completion with
  | .data bytes => (.ok (some bytes), w)
  | .stall => (.ok none, w)
  | .hid kind =>
    let (reply, hid) := HidHandler.request w.hid kind now
    let response := match reply, kind with
      | .get (.ok report), .get kind id =>
        if report.kind = kind ∧ report.id = id then some report.wire else none
      | .set (.ok ()), .set _ => some []
      | _, _ => none
    (.ok response, { w with hid })

/-- Data for an IN transfer is cut to what the host has room for. -/
def Outcome.input (header : Header) (bytes : List UInt8) : Outcome :=
  let actual := min (min bytes.length header.transferBytes) maxTransferBytes
  ⟨0, bytes.take actual, actual, []⟩

/-- The setup packet agrees with the direction and the length of its transfer. -/
def controlMatches (header : Header) : Bool :=
  decide ((header.setup.getD 0 0) &&& 0x80 ≠ 0) = decide (header.direction = .in) ∧
    setupWord header.setup 6 = header.transferBytes

def controlTransfer (slot : Slot) (request : Submit) (now : ℕ) : Work H K Outcome := do
  let w ← get
  let header := request.header
  let (completion, control) := handle w.profile header.setup request.payload w.control
  modify fun w => { w.record (.control slot header.setup request.payload) with control }
  let response ← controlResponse completion now
  match response with
  | none => pure (.stalled header)
  | some bytes =>
    if header.direction = .in then pure (.input header bytes)
    else pure ⟨0, [], request.payload.length, []⟩

def inputTransfer (header : Header) (now : ℕ) : Work H K Outcome := do
  let w ← get
  let (report, hid) := HidHandler.input w.hid now
  modify fun w => { w with hid }
  match report with
  | none => fail (message "required HID input unavailable")
  | some report =>
    if report.kind ≠ .input then fail (message "personality returned a non-input report")
    else pure (.input header report.wire)

def outputTransfer (request : Submit) (now : ℕ) : Work H K Outcome := do
  let w ← get
  let (accepted, hid) := HidHandler.output w.hid request.payload now
  modify fun w => { w with hid }
  if accepted then pure ⟨0, [], request.payload.length, []⟩ else pure (.stalled request.header)

/-- Frames the queue has no room for are recorded as discarded, never retried. -/
def playbackPackets (channels : ℕ) (payload : List UInt8) : List IsoPacket → Work H K Unit
  | [] => pure ()
  | packet :: packets => do
    if 392 < packet.length ∨ packet.length % (channels * 2) ≠ 0 then
      fail (message "invalid playback ISO packet")
    else
      hearConsumer
      let frames ← onPlayback
        (PcmQueue.push (bytesSamples (slice payload packet.offset packet.length)))
      hearConsumer
      onPlayback (PcmQueue.discard (packet.length / (channels * 2) - frames))
      playbackPackets channels payload packets

def playbackTransfer (request : Submit) : Work H K Outcome := do
  let w ← get
  playbackPackets w.profile.playbackChannels request.payload request.packets
  let lengths := request.packets.map IsoPacket.length
  pure ⟨0, [], lengths.sum, lengths⟩

/-- Packets that were not captured in time are filled now. -/
def capturePackets (slot : Slot) (channels : ℕ) : ℕ → List IsoPacket → Work H K (List UInt8)
  | _, [] => pure []
  | i, packet :: packets => do
    let bytes := 48 * channels * 2
    if i < slot.captured then
      if maxTransferBytes < i * bytes + bytes then fail .panic
      else
        let rest ← capturePackets slot channels (i + 1) packets
        pure (slice slot.captureData (i * bytes) bytes ++ rest)
    else if maxTransferBytes < i * bytes then fail .panic
    else
      let (_, samples) ← capturePacket packet.length channels (maxTransferBytes - i * bytes)
      let rest ← capturePackets slot channels (i + 1) packets
      pure (sampleBytes samples ++ rest)

def captureTransfer (slot : Slot) (request : Submit) : Work H K Outcome := do
  let w ← get
  let channels := w.microphone.format.channels.length
  let data ← capturePackets slot channels 0 request.packets
  let lengths := request.packets.map fun _ => 48 * channels * 2
  pure ⟨0, data, lengths.sum, lengths⟩

def transfer (slot : Slot) (request : Submit) (now : ℕ) : Work H K Outcome := do
  let w ← get
  let header := request.header
  if header.endpoint = 0 ∧ header.packets = 0 ∧ controlMatches header then
    controlTransfer slot request now
  else if header.endpoint = 3 ∧ header.direction = .in ∧ header.packets = 0 ∧
      w.control.configured then
    inputTransfer header now
  else if header.endpoint = 4 ∧ header.direction = .out ∧ header.packets = 0 ∧
      w.control.configured then
    outputTransfer request now
  else if header.endpoint = 1 ∧ header.direction = .out ∧ 0 < header.packets ∧
      w.control.playbackActive then
    playbackTransfer request
  else if header.endpoint = 2 ∧ header.direction = .in ∧ 0 < header.packets ∧
      w.control.microphoneActive then
    captureTransfer slot request
  else pure (.stalled header)

def recordTransfer (slot : Slot) (header : Header) (status : ℤ) (actual : ℕ) : Work H K Unit :=
  modify fun w =>
    let c := w.counters
    if status ≠ 0 then
      { w with counters := { c with
        stalledTransfers := c.stalledTransfers + 1
        inactiveAudioTransfers := c.inactiveAudioTransfers +
          if header.packets ≠ 0 ∧ (header.endpoint = 1 ∨ header.endpoint = 2) then 1 else 0 } }
    else if header.packets = 0 then w
    else if header.direction = .out then
      { w with counters := { c with
        playbackFrames := c.playbackFrames + actual / (w.profile.playbackChannels * 2) } }
    else
      let frames := actual / (w.profile.microphoneChannels * 2)
      { w.record (.counted slot frames) with
        counters := { c with captureFrames := c.captureFrames + frames } }

def recordLateness (due now : ℕ) : Work H K Unit :=
  modify fun w => { w with counters := { w.counters with
    maximumAudioLatenessUs := max w.counters.maximumAudioLatenessUs (now - due) } }

def recordAudioLateness (header : Header) (ready now : ℕ) : Work H K Unit :=
  if header.packets ≠ 0 then recordLateness ready now else pure ()

/-- Serves one transfer and encodes its reply; the slot stays occupied. -/
def complete (slot : Slot) (now : ℕ) : Work H K (ℤ × List UInt8) := do
  let _ ← onPending (UsbipPending.complete slot.ticket now)
  emit (.completing now slot)
  let request ← heldRequest slot "non-submit queued"
  recordAudioLateness request.header slot.ready now
  let outcome ← transfer slot request now
  recordTransfer slot request.header outcome.status outcome.actual
  let bytes ← liftFrame
    (request.encode outcome.status outcome.data outcome.actual outcome.isoActual)
  if maxFrameBytes < bytes.length then fail (error (frameDebug .incomplete))
  else pure (outcome.status, bytes)

/-- The bookkeeping behind a queued reply, which frees the slot. -/
def deliver (index : ℕ) (slot : Slot) (bytes : List UInt8) : Work H K Unit :=
  modify fun w => { w.record (.delivered slot (word bytes 20 ≠ 0)) with
    slots := w.slots.set index none
    counters := { w.counters with
      completedTransfers := w.counters.completedTransfers + 1
      abandonedCaptureFrames := w.counters.abandonedCaptureFrames +
        if word bytes 20 ≠ 0 then slot.frames else 0 } }

def completeOne (index now : ℕ) : Work H K Unit := do
  let w ← get
  match w.slot index with
  | none => fail (message "missing USB ticket")
  | some slot =>
    let (status, bytes) ← complete slot now
    push bytes now (.retSubmit slot status bytes)
    flush now
    deliver index slot bytes

end Complete

section Loop

/-- One turn of the readiness loop; whether there was anything to do. -/
def readyTurn (now : ℕ) : Work H K Bool := do
  let w ← get
  match w.nextReady now with
  | none => pure false
  | some index =>
    match (w.slot index).bind (captureDue w.control) with
    | some due =>
      if due ≤ now then
        recordLateness due now
        captureOne index
        pure true
      else
        completeOne index now
        pure true
    | none =>
      completeOne index now
      pure true

/-- What is left to capture and to complete. -/
def Worker.work (w : Worker H K) : ℕ :=
  (w.live.map fun s => s.capturePackets - s.captured + 1).sum

def readyLoop (now : ℕ) : ℕ → Work H K Unit
  | 0 => pure ()
  | fuel + 1 => do
    let more ← readyTurn now
    if more then readyLoop now fuel else pure ()

def receiveLoop (now : ℕ) : ℕ → Work H K Unit
  | 0 => pure ()
  | turns + 1 => do
    let more ← receiveOne now
    if more then receiveLoop now turns else pure ()

def service (now : ℕ) : Work H K Unit := fun w =>
  match HidHandler.service now w.hid with
  | (.ok (), hid) => (.ok (), { w with hid })
  | (.error e, hid) => (.error (.io e), { w with hid })

def wait : Work H K Unit := fun w =>
  match Host.wait w.host with
  | (.ok (), host) => (.ok (), { w with host })
  | (.error e, host) => (.error (.io e), { w with host })

def checkDeadlines (now : ℕ) : Work H K Unit := do
  let expired ← onPending (UsbipPending.expire now)
  if expired.isSome then fail (message "USB request deadline exceeded")
  else
    emit (.checked now)
    let w ← get
    if w.frameStarted.any (1000000 ≤ now - ·) then
      fail (message "partial USB/IP frame deadline exceeded")
    else pure ()

/-- One round of the main loop. A round has work for finitely many turns. -/
def iteration (now : ℕ) : Work H K Unit := do
  service now
  receiveLoop now slotCount
  let w ← get
  readyLoop now (w.work + 1)
  checkDeadlines now
  flush now
  hearProducer
  modify fun w => { w with counters := { w.counters with
    microphoneQueueDroppedFrames := w.microphone.discarded } }
  wait

/-- The main loop, with the times of its rounds; it is told to stop after them. -/
def runInner : List ℕ → Work H K Unit
  | [] => pure ()
  | now :: nows => do
    iteration now
    runInner nows

/-- What `run` does after its loop, however that ended. -/
def shutdown (w : Worker H K) : Worker H K :=
  { w with
    pending := cancelAll w.pending
    counters := { w.counters with
      abandonedCaptureFrames :=
        w.counters.abandonedCaptureFrames + (w.live.map Slot.frames).sum }
    playback := PcmQueue.close w.playback
    microphone := PcmQueue.close w.microphone }

/-- A panic unwinds past the bookkeeping. -/
def run (nows : List ℕ) : Work H K Unit := fun w =>
  match runInner nows w with
  | (.error .panic, w) => (.error .panic, w)
  | (result, w) => (result, shutdown w)

end Loop

end UsbipWorker
