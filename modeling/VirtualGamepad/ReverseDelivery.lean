import Mathlib.Logic.Function.Basic
import VirtualGamepad.Runs

/-! A bounded, isolated callback worker, as the threads that publish to it, close it and run its
callback interleave. Each step is one access to the flag, a lock, the channel or the thread. -/
namespace ReverseDelivery

section Threads

inductive SubscriptionError where
  | closed
  | full
  deriving DecidableEq, Repr

/-- Where a thread is in `publish` or in `close`. A `sent` event has its answer, and the guard of the
sender is still held; `closing` comes before the flag is stored, `taking` before the sender goes. -/
inductive Call (ε : Type) where
  | publish (event : ε)
  | locking (event : ε)
  | sending (event : ε)
  | sent (event : ε) (result : Except SubscriptionError Unit)
  | closing
  | taking
  | disconnected
  | joining
  | waiting

/-- Where the callback's thread is in `run_subscription`. A parked receiver waits in the channel;
`leaving` is past the loop, and `stopped` has stored the flag and still has the receiver. -/
inductive Worker (ε : Type) where
  | receiving (parked : Bool)
  | calling (event : ε)
  | leaving
  | stopped
  | ended

inductive Label (ι ε : Type) where
  | silent
  | accepted (thread : ι) (event : ε)
  | published (thread : ι) (event : ε) (result : Except SubscriptionError Unit)
  | passed (event : ε)
  | panicked (event : ε)
  | closed (thread : ι)

variable {ι ε : Type} [DecidableEq ι]

/-- `connected` says that the slot still has its sender, `joined` that the handle of the thread was
taken. The threads' locks are held by those in `sending`, `sent`, `joining` and `waiting`. -/
structure State (ι ε : Type) where
  closed : Bool
  connected : Bool
  senderLock : Option ι
  workerLock : Option ι
  joined : Bool
  queue : List ε
  worker : Worker ε
  calls : ι → Option (Call ε)
  delivered : UInt64
  dropped : UInt64
  panics : UInt64

structure CallbackDiagnostics where
  delivered : UInt64
  dropped : UInt64
  panics : UInt64
  closed : Bool
  deriving DecidableEq, Repr

def new : State ι ε :=
  ⟨false, true, none, none, false, [], .receiving false, fun _ => none, 0, 0, 0⟩

def diagnostics (s : State ι ε) : CallbackDiagnostics :=
  ⟨s.delivered, s.dropped, s.panics, s.closed⟩

def State.setCall (s : State ι ε) (i : ι) (call : Option (Call ε)) : State ι ε :=
  { s with calls := Function.update s.calls i call }

/-- A bounded channel takes an event while it has a place. One without places hands the event to a
receiver that waits. -/
def Room (capacity : ℕ) (s : State ι ε) : Prop :=
  s.queue.length < capacity ∨ (s.queue = [] ∧ s.worker matches .receiving true)

/-- The thread that runs the callback makes calls from inside it only. -/
def MayCall (self : ι) (s : State ι ε) (i : ι) : Prop :=
  s.calls i = none ∧ (i = self → s.worker matches .calling _)

end Threads

section Steps

variable {ι ε : Type} [DecidableEq ι] (capacity : ℕ) (self : ι)

inductive Publish (s : State ι ε) (i : ι) : Label ι ε → State ι ε → Prop where
  | invoke (event : ε) : MayCall self s i →
      Publish s i .silent (s.setCall i (some (.publish event)))
  | flagged {event : ε} : s.calls i = some (.publish event) → s.closed = true →
      Publish s i (.published i event (.error .closed)) (s.setCall i none)
  | unflagged {event : ε} : s.calls i = some (.publish event) → s.closed = false →
      Publish s i .silent (s.setCall i (some (.locking event)))
  | lock {event : ε} : s.calls i = some (.locking event) → s.senderLock = none →
      Publish s i .silent { s.setCall i (some (.sending event)) with senderLock := some i }
  | accept {event : ε} : s.calls i = some (.sending event) → s.connected = true →
      ¬(s.worker matches .ended) → Room capacity s →
      Publish s i (.accepted i event)
        { s.setCall i (some (.sent event (.ok ()))) with queue := s.queue ++ [event] }
  | full {event : ε} : s.calls i = some (.sending event) → s.connected = true →
      ¬(s.worker matches .ended) → ¬Room capacity s →
      Publish s i .silent
        { s.setCall i (some (.sent event (.error .full))) with dropped := s.dropped + 1 }
  | disconnected {event : ε} : s.calls i = some (.sending event) →
      s.connected = false ∨ s.worker matches .ended →
      Publish s i .silent (s.setCall i (some (.sent event (.error .closed))))
  | return {event : ε} {result : Except SubscriptionError Unit} :
      s.calls i = some (.sent event result) →
      Publish s i (.published i event result) { s.setCall i none with senderLock := none }

inductive Close (s : State ι ε) (i : ι) : Label ι ε → State ι ε → Prop where
  | invoke : MayCall self s i → Close s i .silent (s.setCall i (some .closing))
  | store : s.calls i = some .closing →
      Close s i .silent { s.setCall i (some .taking) with closed := true }
  | take : s.calls i = some .taking → s.senderLock = none →
      Close s i .silent { s.setCall i (some .disconnected) with connected := false }
  | own : s.calls i = some .disconnected → i = self →
      Close s i (.closed i) (s.setCall i none)
  | lock : s.calls i = some .disconnected → i ≠ self → s.workerLock = none →
      Close s i .silent { s.setCall i (some .joining) with workerLock := some i }
  | join : s.calls i = some .joining → s.joined = false →
      Close s i .silent { s.setCall i (some .waiting) with joined := true }
  | joined : s.calls i = some .joining → s.joined = true →
      Close s i (.closed i) { s.setCall i none with workerLock := none }
  | return : s.calls i = some .waiting → s.worker matches .ended →
      Close s i (.closed i) { s.setCall i none with workerLock := none }

inductive RunSubscription (s : State ι ε) : Label ι ε → State ι ε → Prop where
  | park : s.worker = .receiving false → s.queue = [] → s.connected = true →
      RunSubscription s .silent { s with worker := .receiving true }
  | receive {parked : Bool} {event : ε} {rest : List ε} :
      s.worker = .receiving parked → s.queue = event :: rest →
      RunSubscription s (.passed event) { s with worker := .calling event, queue := rest }
  | disconnected {parked : Bool} : s.worker = .receiving parked → s.queue = [] →
      s.connected = false → RunSubscription s .silent { s with worker := .leaving }
  | return {event : ε} : s.worker = .calling event → s.calls self = none →
      RunSubscription s .silent
        { s with worker := .receiving false, delivered := s.delivered + 1 }
  | panic {event : ε} : s.worker = .calling event → s.calls self = none →
      RunSubscription s (.panicked event) { s with worker := .leaving, panics := s.panics + 1 }
  | store : s.worker = .leaving →
      RunSubscription s .silent { s with worker := .stopped, closed := true }
  -- The receiver goes with the thread, and whatever is queued goes with it.
  | finish : s.worker = .stopped → RunSubscription s .silent { s with worker := .ended, queue := [] }

inductive Step : State ι ε → Label ι ε → State ι ε → Prop where
  | publish {s t : State ι ε} {i : ι} {l : Label ι ε} : Publish capacity self s i l t → Step s l t
  | close {s t : State ι ε} {i : ι} {l : Label ι ε} : Close self s i l t → Step s l t
  | run {s t : State ι ε} {l : Label ι ε} : RunSubscription self s l t → Step s l t

end Steps

section Logs

variable {ι ε : Type}

/-- The events the channel took, in order. -/
def accepted (log : List (Label ι ε)) : List ε :=
  log.filterMap fun
    | .accepted _ event => some event
    | _ => none

/-- The events whose `publish` returned success, in order. -/
def published (log : List (Label ι ε)) : List ε :=
  log.filterMap fun
    | .published _ event (.ok ()) => some event
    | _ => none

/-- The events the callback was called with, in order. -/
def passed (log : List (Label ι ε)) : List ε :=
  log.filterMap fun
    | .passed event => some event
    | _ => none

def Panicked (log : List (Label ι ε)) : Prop := ∃ event, .panicked event ∈ log

end Logs

end ReverseDelivery
