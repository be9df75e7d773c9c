import VirtualGamepad.AudioWorkerClient
import VirtualGamepad.AudioWorkerLoop

/-! A client and the worker it controls, over a stream that loses nothing. Calls of the client, calls
of the control loop, turns of the USB thread and traffic of its host interleave freely. -/
namespace AudioWorkerSystem

open AudioWorker AudioWorkerClient ControllerContract Dialogue HidRuntime NativeState WireBytes

section System

abbrev CallProgram := Prog ClientCall ClientAnswer (Except ClientError Returned × Control)

/-- `results` and `produced` are histories: what the calls returned, and every output event the
controller had for the application, taken or lost. -/
structure System where
  control : Control
  call : Option (Operation × CallProgram)
  loop : LoopProgram
  worker : Worker
  toWorker : List Frame
  toClient : List Frame
  usbEnded : Bool
  pcmEnded : Bool
  clientShut : Bool
  loopShut : Bool
  results : List (Operation × Except ClientError Returned)
  produced : List RawReverseEvent

/-- One of the worker's threads is gone, and woke the control loop. -/
def System.stopped (s : System) : Prop := s.usbEnded = true ∨ s.pcmEnded = true

/-- What the host sends to the controller. -/
inductive Traffic where
  | request (kind : RequestKind)
  | output (bytes : List UInt8)

def Worker.traffic (w : Worker) : Traffic → Worker
  | .request kind => w.request kind
  | .output bytes => (w.output bytes).2

/-- The event the traffic has for the application. -/
def offered (p : Personality) : Traffic → Option RawReverseEvent
  | .request kind => (p.request kind).2
  | .output bytes =>
    match Report.fromWire .output p.numbered bytes with
    | .error _ => none
    | .ok report =>
      match p.request (.set report) with
      | (some (.ok ()), event) => event
      | _ => none

/-- What a call of the client may be answered. A read waits for a frame or for the end. -/
inductive ClientServed (s : System) : (call : ClientCall) → ClientAnswer call → System → Prop where
  | sent (frame : Frame) :
      ClientServed s (.write frame) (.ok ()) { s with toWorker := s.toWorker ++ [frame] }
  | unsent (frame : Frame) (error : IoError) : s.stopped ∨ s.clientShut = true →
      ClientServed s (.write frame) (.error error) s
  | received {frame : Frame} {rest : List Frame} : s.toClient = frame :: rest →
      ClientServed s .read (.ok frame) { s with toClient := rest }
  | unreceived (error : IoError) : (s.loopShut = true ∧ s.toClient = []) ∨ s.clientShut = true →
      ClientServed s .read (.error error) s
  | pending {frame : Frame} {rest : List Frame} : s.toClient = frame :: rest →
      ClientServed s .readPending (some frame) { s with toClient := rest }
  | nothing : ClientServed s .readPending none s
  | shutdown : ClientServed s .shutdown () { s with clientShut := true }

inductive LoopServed (s : System) : (call : LoopCall) → LoopAnswer call → System → Prop where
  | sent (frame : Frame) :
      LoopServed s (.write frame) (.ok ()) { s with toClient := s.toClient ++ [frame] }
  | unsent (frame : Frame) (error : IoError) : s.clientShut = true ∨ s.loopShut = true →
      LoopServed s (.write frame) (.error error) s
  | received {frame : Frame} {rest : List Frame} : s.toWorker = frame :: rest →
      LoopServed s .read (.ok frame) { s with toWorker := rest }
  | unreceived (error : IoError) : s.stopped ∨ s.clientShut = true →
      LoopServed s .read (.error error) s
  | handed (message : Transactions.Message) : s.usbEnded = false → s.worker.updates.length < 8 →
      LoopServed s (.trySend message) (.ok ())
        { s with worker := { s.worker with updates := s.worker.updates ++ [message] } }
  | unhanded (message : Transactions.Message) (error : IoError) :
      s.usbEnded = true ∨ 8 ≤ s.worker.updates.length →
      LoopServed s (.trySend message) (.error error) s
  | acknowledged {ack : ℕ × Bool} {rest : List (ℕ × Bool)} :
      s.worker.acknowledgements = ack :: rest →
      LoopServed s .receiveAcknowledgement (.ok ack)
        { s with worker := { s.worker with acknowledgements := rest } }
  | unacknowledged (error : IoError) : s.usbEnded = true → s.worker.acknowledgements = [] →
      LoopServed s .receiveAcknowledgement (.error error) s
  | event {event : RawReverseEvent} {rest : List RawReverseEvent} :
      s.worker.events = event :: rest →
      LoopServed s .tryReceiveEvent (.ok event)
        { s with worker := { s.worker with events := rest } }
  | empty : s.usbEnded = false → s.worker.events = [] →
      LoopServed s .tryReceiveEvent (.error .empty) s
  | disconnected : s.usbEnded = true → s.worker.events = [] →
      LoopServed s .tryReceiveEvent (.error .disconnected) s
  | stats (stats : Stats) : stats.lost = s.worker.lost → LoopServed s .loadStats stats s
  | stopped (result : Except IoError Unit) :
      LoopServed s .stopThreads result { s with usbEnded := true, pcmEnded := true }
  | shutdown : LoopServed s .shutdown () { s with loopShut := true }

inductive Step : System → System → Prop where
  | call (s : System) (op : Operation) : s.call = none →
      Step s { s with call := some (op, op.run s.control) }
  | client {s t : System} {op : Operation} {call : ClientCall}
      {next : ClientAnswer call → CallProgram} {answer : ClientAnswer call} :
      s.call = some (op, .ask call next) → ClientServed s call answer t →
      Step s { t with call := some (op, next answer) }
  | returned {s : System} {op : Operation} {result : Except ClientError Returned}
      {control : Control} : s.call = some (op, .ret (result, control)) →
      Step s { s with control, call := none, results := s.results ++ [(op, result)] }
  | loop {s t : System} {call : LoopCall} {next : LoopAnswer call → LoopProgram}
      {answer : LoopAnswer call} : s.loop = .ask call next → LoopServed s call answer t →
      Step s { t with loop := next answer }
  | service {s : System} {worker : Worker} : s.usbEnded = false →
      s.worker.service = (.ok (), worker) → Step s { s with worker }
  | serviceFailed {s : System} {error : IoError} {worker : Worker} : s.usbEnded = false →
      s.worker.service = (.error error, worker) → Step s { s with worker, usbEnded := true }
  | traffic (s : System) (traffic : Traffic) : s.usbEnded = false →
      Step s { s with
        worker := Worker.traffic s.worker traffic
        produced := s.produced ++ (offered s.worker.personality traffic).toList }
  | usbEnds (s : System) : Step s { s with usbEnded := true }
  | pcmEnds (s : System) : Step s { s with pcmEnded := true }

/-- A client and a worker of one generation and one family, once the worker is ready. -/
inductive Reachable (generation : ℕ) (p : Personality) (fuel : ℕ) : System → Prop where
  | ready {control : Control} {state : Transactions} :
      Control.new generation (familyOf p.neutral) = .ok control →
      Transactions.new generation p.neutral = .ok state →
      Reachable generation p fuel ⟨control, none, serve generation fuel, ⟨p, state, [], [], [], 0⟩,
        [], [], false, false, false, false, [], []⟩
  | step {s t : System} : Reachable generation p fuel s → Step s t → Reachable generation p fuel t

/-- The states of the updates that succeeded, in order. -/
def updated (results : List (Operation × Except ClientError Returned)) : List NativeState :=
  results.filterMap fun
    | (.update state, .ok _) => some state
    | _ => none

def eventOf : Operation × Except ClientError Returned → Option RawReverseEvent
  | (_, .ok (.event event)) => event
  | _ => none

/-- The events that were returned, in order. -/
def returnedEvents (results : List (Operation × Except ClientError Returned)) :
    List RawReverseEvent := results.filterMap eventOf

end System

end AudioWorkerSystem
