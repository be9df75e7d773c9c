import VirtualGamepad.AudioConnection
import VirtualGamepad.ControllerContract
import VirtualGamepad.Dialogue
import VirtualGamepad.Transactions

/-! The control protocol of an audio worker: the client of the application, the control loop of the
worker and the handler of its USB thread, which shares channels with the loop. Client and loop are
programs, so that every call of one may fall between any two calls of the other. Errors are
texts. -/
namespace AudioWorker

open ControllerContract Dialogue HidRuntime MachineInt NativeState WireBytes

abbrev IoError := String

/-- A tag and a body, as one message carries them. -/
abbrev Frame := UInt8 × List UInt8

section Client

inductive ClientCall where
  | write (frame : Frame)
  | read
  | readPending
  | shutdown

/-- `readPending` waits for a failure only a moment. -/
abbrev ClientAnswer : ClientCall → Type
  | .write _ => Except IoError Unit
  | .read => Except IoError Frame
  | .readPending => Option Frame
  | .shutdown => Unit

/-- `workerFailed` carries the reason the worker sent. -/
inductive ClientError where
  | io (error : IoError)
  | workerFailed (reason : List UInt8)
  deriving DecidableEq

structure Control where
  generation : ℕ
  family : UInt8
  sequence : ℕ
  closed : Bool
  retained : List ℕ
  deriving DecidableEq

def Control.new (generation : ℕ) (family : UInt8) : Except IoError Control :=
  if generation = 0 ∨ ¬(1 ≤ family ∧ family ≤ 3) then .error "invalid input parameter"
  else .ok ⟨generation, family, 0, false, List.replicate 9 0⟩

abbrev Client := Body ClientCall ClientAnswer ClientError Control

def clientCall (c : ClientCall) : Client (ClientAnswer c) := ask c

def terminal : Client Unit := do
  set { ← get with closed := true }
  let () ← clientCall .shutdown
  return ()

def workerFailure (generation : ℕ) (frame : Frame) : Option ClientError :=
  if frame.1 = 0x81 ∧ 8 ≤ frame.2.length ∧ frame.2.take 8 = bytesLe 8 generation then
    some (.workerFailed (frame.2.drop 8))
  else none

def clientFail {α : Type} (error : IoError) : Client α := fail (.io error)

/-- One request and its reply, in an open session. -/
def converse (tag : UInt8) (suffix : List UInt8) : Client (List UInt8) := do
  let generation := (← get).generation
  match ← clientCall (.write (tag, bytesLe 8 generation ++ suffix)) with
  | .error writeError =>
    match (← clientCall .readPending).bind (workerFailure generation) with
    | some failure => fail failure
    | none => clientFail writeError
  | .ok () =>
    let frame ← lift ((← clientCall .read).mapError .io)
    match workerFailure generation frame with
    | some failure => fail failure
    | none =>
      if frame.1 ≠ tag ∨ frame.2.length < 8 ∨ frame.2.take 8 ≠ bytesLe 8 generation then
        clientFail "stale or invalid worker acknowledgement"
      else return frame.2.drop 8

def exchange (tag : UInt8) (suffix : List UInt8) : Client (List UInt8) := do
  if (← get).closed then clientFail "broken pipe"
  else dropping terminal (converse tag suffix)

/-- A reply that closes the session. -/
def invalid {α : Type} (error : IoError) : Client α := do
  terminal
  clientFail error

/-- What the client makes of an acknowledgement of this transaction. -/
def acknowledged (sequence : ℕ) (response : List UInt8) : Client Unit := do
  if response.length ≠ 9 ∨ response.take 8 ≠ bytesLe 8 sequence ∨ 1 < response.getD 8 0 then
    invalid "invalid native-state acknowledgement"
  else if response.getD 8 0 = 0 then clientFail "worker rejected native state"
  else set { ← get with sequence }

def update (state : NativeState) : Client Unit := do
  let control ← get
  match decode (encode state) control.family with
  | .error _ => clientFail "state belongs to another controller family"
  | .ok _ =>
    match checkedAdd control.sequence 1 with
    | none => clientFail "worker transaction sequence exhausted"
    | some sequence =>
      let response ← exchange 1 (bytesLe 8 sequence ++ encode state)
      acknowledged sequence response

def reported : List UInt8 → Client (Option RawReverseEvent)
  | [0] => return none
  | 1 :: report :: bytes =>
    if bytes.length ≤ 240 then
      return some (.hidOutput (if report ≠ 0 then some report else none) bytes)
    else invalid "invalid worker output"
  | _ => invalid "invalid worker output"

def output : Client (Option RawReverseEvent) := do
  let response ← exchange 2 []
  reported response

/-- Consecutive little-endian 64-bit values. -/
def values : ℕ → List UInt8 → List ℕ
  | 0, _ => []
  | n + 1, bytes => ofBytesLe (bytes.take 8) :: values n (bytes.drop 8)

def diagnostics : Client (List ℕ) := do
  let control ← get
  if control.closed then return control.retained
  else
    let response ← exchange 3 []
    if response.length ≠ 72 then invalid "invalid worker diagnostics"
    else
      set { ← get with retained := values 9 response }
      return values 9 response

def microphoneConsumedFrames : Client ℕ := do
  let response ← exchange 5 []
  if response.length ≠ 8 then invalid "invalid microphone credit"
  else return ofBytesLe response

def microphoneHostFrames : Client (ℕ × ℕ) := do
  let response ← exchange 7 []
  if response.length ≠ 16 then invalid "invalid microphone host-frame reply"
  else
    let host := ofBytesLe (response.take 8)
    let silence := ofBytesLe (response.drop 8)
    if host < silence then invalid "microphone silence exceeds host frames"
    else return (host, silence)

def maximumPcmPumpLatenessUs : Client ℕ := do
  let response ← exchange 6 []
  if response.length ≠ 8 then invalid "invalid PCM pump timing reply"
  else return ofBytesLe response

/-- Whatever a close comes to, the session is over after it. -/
def close : Client Unit := do
  if (← get).closed then return ()
  else
    dropping terminal do
      let response ← exchange 4 []
      if response ≠ [] then clientFail "invalid worker close acknowledgement"
    terminal

inductive Operation where
  | update (state : NativeState)
  | output
  | diagnostics
  | microphoneConsumedFrames
  | microphoneHostFrames
  | maximumPcmPumpLatenessUs
  | close

inductive Returned where
  | done
  | event (event : Option RawReverseEvent)
  | counters (values : List ℕ)
  deriving DecidableEq

def Operation.run : Operation → Client Returned
  | .update state => do
    AudioWorker.update state
    return .done
  | .output => do return .event (← AudioWorker.output)
  | .diagnostics => do return .counters (← AudioWorker.diagnostics)
  | .microphoneConsumedFrames => do return .counters [← AudioWorker.microphoneConsumedFrames]
  | .microphoneHostFrames => do
    let (host, silence) ← AudioWorker.microphoneHostFrames
    return .counters [host, silence]
  | .maximumPcmPumpLatenessUs => do return .counters [← AudioWorker.maximumPcmPumpLatenessUs]
  | .close => do
    AudioWorker.close
    return .done

end Client

section Worker

inductive Personality where
  | dualSense
  | dualShock4
  | xbox360
  deriving DecidableEq

def Personality.neutral : Personality → NativeState
  | .dualSense => .dualSense .default
  | .dualShock4 => .dualShock4 .default
  | .xbox360 => .xbox360 .default

def Personality.numbered : Personality → Bool
  | .dualSense => true
  | .dualShock4 => true
  | .xbox360 => false

/-- Which output reports the controller takes. -/
def Personality.acceptOutput (p : Personality) (report : Report) : Except ReplyError Unit :=
  match p with
  | .dualSense =>
    if report.kind ≠ .output ∨ report.id ≠ some 2 then .error .unsupported
    else if ¬(report.payload.length = 47 ∨ report.payload.length = 62) then .error .invalid
    else .ok ()
  | .dualShock4 =>
    if report.kind ≠ .output ∨ report.id ≠ some 5 then .error .unsupported
    else if report.payload.length ≠ 31 then .error .invalid
    else .ok ()
  | .xbox360 => .error .unsupported

def Personality.request (p : Personality) :
    RequestKind → Option (Except ReplyError Unit) × Option RawReverseEvent
  | .get _ _ => (none, none)
  | .set report =>
    match p.acceptOutput report with
    | .ok () => (some (.ok ()), some (observe report))
    | .error error => (some (.error error), none)

/-- The USB thread's side: the handler and the channels it shares with the control loop. -/
structure Worker where
  personality : Personality
  state : Transactions
  updates : List Transactions.Message
  acknowledgements : List (ℕ × Bool)
  events : List RawReverseEvent
  lost : ℕ

def Worker.event (w : Worker) : Option RawReverseEvent → Worker
  | none => w
  | some event =>
    if w.events.length < 128 then { w with events := w.events ++ [event] }
    else { w with lost := w.lost + 1 }

/-- Up to eight updates. The loop keeps its sender until this thread has ended. -/
def Worker.serviceTurns : ℕ → Worker → Except IoError Unit × Worker
  | 0, w => (.ok (), w)
  | n + 1, w =>
    match w.updates with
    | [] => (.ok (), w)
    | message :: updates =>
      let (result, state) := w.state.apply message
      if w.acknowledgements.length < 8 then
        serviceTurns n { w with
          state
          updates
          acknowledgements := w.acknowledgements ++ [(message.sequence, result.isOk)] }
      else (.error "sending on a full channel", { w with state, updates })

def Worker.service (w : Worker) : Except IoError Unit × Worker := w.serviceTurns 8

def Worker.request (w : Worker) (kind : RequestKind) : Worker :=
  w.event (w.personality.request kind).2

def Worker.output (w : Worker) (bytes : List UInt8) : Bool × Worker :=
  match Report.fromWire .output w.personality.numbered bytes with
  | .error _ => (false, w)
  | .ok report =>
    match w.personality.request (.set report) with
    | (some (.ok ()), event) => (true, w.event event)
    | _ => (false, w)

end Worker

section ControlLoop

inductive TryReceiveError where
  | empty
  | disconnected
  deriving DecidableEq

/-- Host progress and its silence are read under one lock: each packet adds its silence to both. -/
structure Stats where
  lost : ℕ
  completedTransfers : ℕ
  microphoneSilenceFrames : ℕ
  stalledTransfers : ℕ
  playbackFrames : ℕ
  captureFrames : ℕ
  abandonedCaptureFrames : ℕ
  maximumAudioLatenessUs : ℕ
  microphoneQueueDroppedFrames : ℕ
  microphoneConsumedFrames : ℕ
  microphoneHostFrames : ℕ
  pcmLateness : ℕ
  silence_le_host : microphoneSilenceFrames ≤ microphoneHostFrames
  host_le_max : microphoneHostFrames ≤ u64Max

inductive LoopCall where
  | write (frame : Frame)
  | read
  | trySend (update : Transactions.Message)
  | receiveAcknowledgement
  | tryReceiveEvent
  | loadStats
  | stopThreads
  | shutdown

abbrev LoopAnswer : LoopCall → Type
  | .write _ => Except IoError Unit
  | .read => Except IoError Frame
  | .trySend _ => Except IoError Unit
  | .receiveAcknowledgement => Except IoError (ℕ × Bool)
  | .tryReceiveEvent => Except TryReceiveError RawReverseEvent
  | .loadStats => Stats
  | .stopThreads => Except IoError Unit
  | .shutdown => Unit

/-- A run of the loop that used up its fuel was cut. -/
inductive Stop where
  | cut
  | failed (error : IoError)

abbrev Loop := Body LoopCall LoopAnswer Stop Unit

def loopCall (c : LoopCall) : Loop (LoopAnswer c) := ask c

def loopFail {α : Type} (error : IoError) : Loop α := fail (.failed error)

def attempt {α : Type} (result : Except IoError α) : Loop α := lift (result.mapError .failed)

/-- Values as the client reads them. -/
def counters (fields : List ℕ) : List UInt8 := fields.flatMap (bytesLe 8)

def bit (b : Bool) : UInt8 := if b then 1 else 0

/-- Whether the client asked for the end. -/
def handle (generation : ℕ) (tag : UInt8) (body : List UInt8) : Loop Bool := do
  if tag = 1 ∧ 17 ≤ body.length ∧ body.length ≤ 144 then
    let sequence := ofBytesLe ((body.drop 8).take 8)
    attempt (← loopCall (.trySend ⟨generation, sequence, body.drop 16⟩))
    let (ack, accepted) ← attempt (← loopCall .receiveAcknowledgement)
    if ack ≠ sequence then loopFail "worker acknowledgement mismatch"
    else
      attempt (← loopCall (.write (1, body.take 16 ++ [bit accepted])))
      return false
  else if tag = 2 ∧ body.length = 8 then
    match ← loopCall .tryReceiveEvent with
    | .ok (.hidOutput id bytes) =>
      if bytes.length ≤ 240 then
        attempt (← loopCall (.write (2, bytesLe 8 generation ++ 1 :: id.getD 0 :: bytes)))
        return false
      else loopFail "worker output contract failure"
    | .error .empty =>
      attempt (← loopCall (.write (2, bytesLe 8 generation ++ [0])))
      return false
    | _ => loopFail "worker output contract failure"
  else if tag = 3 ∧ body.length = 8 then
    let stats ← loopCall .loadStats
    attempt (← loopCall (.write (3, bytesLe 8 generation ++ counters [stats.lost,
      stats.completedTransfers, stats.microphoneSilenceFrames, stats.stalledTransfers,
      stats.playbackFrames, stats.captureFrames, stats.abandonedCaptureFrames,
      stats.maximumAudioLatenessUs, stats.microphoneQueueDroppedFrames])))
    return false
  else if tag = 5 ∧ body.length = 8 then
    let stats ← loopCall .loadStats
    attempt (← loopCall (.write
      (5, bytesLe 8 generation ++ counters [stats.microphoneConsumedFrames])))
    return false
  else if tag = 6 ∧ body.length = 8 then
    let stats ← loopCall .loadStats
    attempt (← loopCall (.write (6, bytesLe 8 generation ++ counters [stats.pcmLateness])))
    return false
  else if tag = 7 ∧ body.length = 8 then
    let stats ← loopCall .loadStats
    attempt (← loopCall (.write (7, bytesLe 8 generation ++
      counters [stats.microphoneHostFrames, stats.microphoneSilenceFrames])))
    return false
  else if tag = 4 ∧ body.length = 8 then return true
  else loopFail "unknown worker control operation"

def listen (generation : ℕ) : ℕ → Loop Unit
  | 0 => fail .cut
  | fuel + 1 => do
    let (tag, body) ← attempt (← loopCall .read)
    if body.length < 8 ∨ body.take 8 ≠ bytesLe 8 generation then
      loopFail "worker generation mismatch"
    else if ← handle generation tag body then return ()
    else listen generation fuel

/-- The worker is ready before it listens. -/
def controlLoop (generation fuel : ℕ) : Loop Unit := do
  attempt (← loopCall (.write (0, 1 :: bytesLe 8 generation)))
  listen generation fuel

abbrev LoopProgram := Prog LoopCall LoopAnswer (Option (Except IoError Unit))

def failureFrame (generation : ℕ) (problem : IoError) : Frame :=
  (0x81, bytesLe 8 generation ++ AudioConnection.textUpTo 192 problem)

/-- The threads are stopped first: an acknowledged close says that they have ended. -/
def finish (generation : ℕ) (result : Except IoError Unit) : LoopProgram :=
  .ask .stopThreads fun (cleanup : Except IoError Unit) =>
    let outcome : Except IoError Unit :=
      match result, cleanup with
      | .error control, .error worker =>
        .error ("worker: " ++ worker ++ "; control: " ++ control)
      | .error error, _ => .error error
      | _, .error error => .error error
      | .ok (), .ok () => .ok ()
    let acknowledgement : Frame :=
      match outcome with
      | .error problem => failureFrame generation problem
      | .ok () => (4, bytesLe 8 generation)
    .ask (.write acknowledgement) fun (written : Except IoError Unit) =>
      .ask .shutdown fun _ => .ret (some (outcome.bind fun () => written))

/-- What is left of a worker once it is ready. -/
def serve (generation fuel : ℕ) : LoopProgram :=
  (listen generation fuel ()).bind fun
  | (.ok (), _) => finish generation (.ok ())
  | (.error .cut, _) => .ret none
  | (.error (.failed error), _) => finish generation (.error error)

end ControlLoop

end AudioWorker
