import VirtualGamepad.ForceFeedback
import VirtualGamepad.HidRuntimeObservations

/-! The session behind a curated controller: a HID personality, a native provider or a worker, and
the ring in which observations wait for the application. `pushed`, `delivered` and `made` are ghost
records. -/
namespace ControllerSession

open ControllerContract Eviction Fallible ForceFeedback MachineInt
open HidRuntime (Runtime Protocol Transport)
open HidRuntimeObservations (made)

section Outboxes

def observationSlots : ℕ := 32

structure Outbox where
  observations : List RawReverseEvent
  dropped : ℕ
  pushed : List RawReverseEvent
  delivered : List RawReverseEvent

def Outbox.new : Outbox := ⟨[], 0, [], []⟩

/-- A full ring evicts its oldest observation. -/
def Outbox.push (event : RawReverseEvent) (outbox : Outbox) : Outbox :=
  let evicted :=
    if outbox.observations.length = observationSlots then
      { outbox with
        observations := outbox.observations.tail, dropped := saturatingAdd outbox.dropped 1 }
    else outbox
  { evicted with
    observations := evicted.observations ++ [event], pushed := evicted.pushed ++ [event] }

/-- Everything held goes to the callback of the application. -/
def Outbox.deliver (outbox : Outbox) : Outbox :=
  { outbox with observations := [], delivered := outbox.delivered ++ outbox.observations }

/-- An event that goes to the callback at once. -/
def Outbox.pass (event : RawReverseEvent) (outbox : Outbox) : Outbox :=
  { outbox with
    pushed := outbox.pushed ++ [event], delivered := outbox.delivered ++ [event] }

end Outboxes

section Sessions

/-- The controller's end of a worker. -/
class WorkerBridge (B : Type) where
  output : Action ProviderError B (Option RawReverseEvent)
  droppedOutputEvents : B → ℕ
  close : Action ProviderError B Unit

/-- A native provider hands its observations to the endpoint's callback; with evdev effects they
wait in the ring, otherwise they go to the application at once. -/
inductive Backend (P T S K B : Type) where
  | native (uinput : Bool) (endpoint : Endpoint K Outbox)
  | hid (runtime : Runtime P T S RawReverseEvent) (outbox : Outbox)
      (made : List (RawReverseEvent × Bool))
  | worker (bridge : B) (closed : Bool) (outbox : Outbox)

variable {P T S K B : Type} [Protocol P S RawReverseEvent] [Transport T] [NativeSession K]
  [WorkerBridge B]

def Backend.outbox : Backend P T S K B → Outbox
  | .native _ endpoint => endpoint.observer
  | .hid _ outbox _ => outbox
  | .worker _ _ outbox => outbox

def errorText (error : HidRuntime.Error) : String :=
  "HID session: " ++ match error with
    | .closed => "Closed"
    | .framing => "Framing"
    | .invalidState => "InvalidState"
    | .queueFull => "QueueFull"
    | .invalidReply => "InvalidReply"
    | .invalidRequest => "InvalidRequest"
    | .timeReversed => "TimeReversed"
    | .deadline => "Deadline"
    | .uncertainDelivery => "UncertainDelivery"
    | .transport => "Transport"

def providerError (error : HidRuntime.Error) : ProviderError :=
  if error = .closed then .closed else .read (errorText error)

/-- One service of the HID runtime. After an error its observations are recovered. -/
def serviceHid (now : ℕ) (runtime : Runtime P T S RawReverseEvent) (outbox : Outbox) :
    Except ProviderError Unit × Runtime P T S RawReverseEvent × Outbox :=
  match HidRuntime.service now runtime with
  | (.ok events, runtime) => (.ok (), runtime, events.foldl (flip Outbox.push) outbox)
  | (.error error, runtime) =>
    let events := runtime.observations
    let runtime := (HidRuntime.takeObservations (P := P) runtime).2
    (.error (providerError error), runtime, events.foldl (flip Outbox.push) outbox)

/-- What goes straight from the provider to the application. -/
def drainDirect (endpoint : Endpoint K Outbox) : Except ProviderError Unit × Endpoint K Outbox :=
  if endpoint.closed then (.error .closed, endpoint)
  else
    let ((events, result), session) := NativeSession.drain endpoint.session
    (if result = .error .wouldBlock then .ok () else result,
      { endpoint with session, observer := events.foldl (flip Outbox.pass) endpoint.observer })

/-- At most 32 outputs of the worker in one call. -/
def drainWorker : ℕ → B → Outbox → Except ProviderError Unit × Backend P T S K B
  | 0, bridge, outbox => (.ok (), .worker bridge false outbox)
  | n + 1, bridge, outbox =>
    match WorkerBridge.output bridge with
    | (.ok (some event), bridge) => drainWorker n bridge (outbox.pass event)
    | (.ok none, bridge) => (.ok (), .worker bridge false outbox)
    | (.error error, bridge) =>
      (.error error, .worker (WorkerBridge.close bridge).2 true outbox)

def drain (now : ℕ) : Backend P T S K B → Except ProviderError Unit × Backend P T S K B
  | .worker bridge closed outbox =>
    if closed then (.error .closed, .worker bridge closed outbox)
    else drainWorker 32 bridge outbox
  | .native true endpoint =>
    let (result, endpoint) := ForceFeedback.service Outbox.push endpoint
    (result, .native true { endpoint with observer := endpoint.observer.deliver })
  | .native false endpoint =>
    let (result, endpoint) := drainDirect endpoint
    (result, .native false endpoint)
  | .hid runtime outbox entries =>
    let (result, runtime', outbox) := serviceHid now runtime outbox
    (result, .hid runtime' outbox.deliver (entries ++ made now runtime))

/-- The reason of a refused commit is the text of the error. -/
inductive CommitError where
  | backend (error : ProviderError)
  | queued
  deriving DecidableEq

/-- Committing HID input services the runtime; the observations stay in the ring. -/
def commitHid (now : ℕ) (runtime : Runtime P T S RawReverseEvent) (outbox : Outbox) :
    Except CommitError Unit × Runtime P T S RawReverseEvent × Outbox :=
  match serviceHid now runtime outbox with
  | (.error error, runtime, outbox) => (.error (.backend error), runtime, outbox)
  | (.ok (), runtime, outbox) =>
    if runtime.isDirty then (.error .queued, runtime, outbox) else (.ok (), runtime, outbox)

def close : Backend P T S K B → Backend P T S K B
  | .native uinput endpoint => .native uinput (ForceFeedback.close endpoint).2
  | .hid runtime outbox entries =>
    .hid (HidRuntime.close (P := P) runtime).2 outbox entries
  | .worker bridge closed outbox =>
    .worker (if closed then bridge else (WorkerBridge.close bridge).2) true outbox

def droppedObservations (s : Backend P T S K B) : ℕ :=
  saturatingAdd s.outbox.dropped (match s with
    | .native _ _ => 0
    | .worker bridge _ _ => WorkerBridge.droppedOutputEvents bridge
    | .hid runtime _ _ => runtime.droppedObservations)

/-- Sessions in use. The input side of a native provider or of a worker, and a worker that is
found dead while it is written to, move only what is named. -/
inductive Reachable : Backend P T S K B → Prop where
  | native (uinput : Bool) (session : K) : Reachable (.native uinput (.new session .new))
  | hid {protocol : P} {transport : T} {session : ℕ} {runtime} :
      HidRuntime.Runtime.new protocol transport session HidRuntime.Limits.default = .ok runtime →
      Reachable (.hid runtime .new [])
  | worker (bridge : B) : Reachable (.worker bridge false .new)
  | drain {s} : Reachable s → ∀ now, Reachable (drain now s).2
  | commit {runtime outbox entries} : Reachable (.hid runtime outbox entries) → ∀ now,
      Reachable (.hid (commitHid now runtime outbox).2.1 (commitHid now runtime outbox).2.2
        (entries ++ made now runtime))
  | update {runtime outbox entries} : Reachable (.hid runtime outbox entries) → ∀ edit,
      Reachable (.hid (HidRuntime.update (P := P) edit runtime).2 outbox entries)
  | updateProtocol {runtime outbox entries} : Reachable (.hid runtime outbox entries) → ∀ edit,
      Reachable (.hid (HidRuntime.updateProtocol edit runtime).2 outbox entries)
  | nativeInput {uinput endpoint} : Reachable (.native uinput endpoint) → ∀ session,
      Reachable (.native uinput { endpoint with session })
  | workerInput {bridge closed outbox} : Reachable (.worker bridge closed outbox) →
      ∀ bridge' closed', Reachable (.worker bridge' closed' outbox)
  | close {s} : Reachable s → Reachable (close s)

end Sessions

end ControllerSession
