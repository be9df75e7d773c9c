import VirtualGamepad.ControllerContract
import VirtualGamepad.Fallible
import VirtualGamepad.MachineInt
import VirtualGamepad.Transducer

/-! Conventional evdev effects as the curated controllers own them. The provider decodes the ABI
and completes the ioctls. `calls` is a ghost log of the calls on the provider and on the callback;
no branch reads it. -/
namespace ForceFeedback

open ControllerContract Fallible MachineInt

section Bookkeeping

def effectSlots : ℕ := 64

def eventSlots : ℕ := 32

def retryBudget : ℕ := 8

def einval : Int32 := -22

def eopnotsupp : Int32 := -95

def evFf : UInt16 := 0x15

/-- The application's view of the motors. -/
structure RumblePlayback where
  strong : UInt16
  weak : UInt16
  repetitions : ℕ
  deriving DecidableEq, Repr

structure NativePlayback where
  revision : ℕ
  latest : Option RumblePlayback
  deriving DecidableEq, Repr

abbrev Effects := Vector (Option RumbleEffect) effectSlots

def noEffects : Effects := Vector.replicate effectSlots none

structure Feedback where
  playback : NativePlayback
  effects : Effects
  events : List RawReverseEvent
  pending : Option (ProviderFrame × ForceFeedbackEvent)
  retries : ℕ

def Feedback.default : Feedback := ⟨⟨0, none⟩, noEffects, [], none, 0⟩

def Feedback.clear (feedback : Feedback) : Feedback :=
  { Feedback.default with playback := feedback.playback }

def uploadStatus : ForceFeedbackEffect → Int32
  | .rumble effect =>
    if effect.id.toInt < 0 ∨ effectSlots ≤ effect.id.toInt then einval
    else if effect.triggerButton ≠ 0 ∨ effect.triggerIntervalMs ≠ 0 then eopnotsupp
    else 0
  | .unsupported _ _ => eopnotsupp

def stored (effects : Effects) (id : ℕ) : Option RumbleEffect := (effects[id]?).join

def eraseStatus (effects : Effects) (id : UInt32) : Int32 :=
  if (stored effects id.toNat).isSome then 0 else einval

/-- What a delivered completion does to the table. -/
def settle (effects : Effects) : ForceFeedbackEvent → Effects
  | .uploaded _ (.rumble effect) status =>
    if status = 0 then effects.setIfInBounds effect.id.toInt.toNat (some effect) else effects
  | .erased _ id status =>
    if status = 0 then effects.setIfInBounds id.toNat none else effects
  | _ => effects

/-- A request is answered at the status it had when its turn came. -/
def completion (effects : Effects) : RawReverseEvent → Option (ProviderFrame × ForceFeedbackEvent)
  | .forceFeedbackUpload requestId effect =>
    let status := uploadStatus effect
    some (.forceFeedbackUploadReply requestId status, .uploaded requestId effect status)
  | .forceFeedbackErase requestId id =>
    let status := eraseStatus effects id
    some (.forceFeedbackEraseReply requestId status, .erased requestId id status)
  | _ => none

def level (effect : RumbleEffect) (repetitions : ℕ) : RumblePlayback :=
  if repetitions = 0 then ⟨0, 0, repetitions⟩ else ⟨effect.strong, effect.weak, repetitions⟩

/-- The stored effect an input event starts or stops, with its repetitions. -/
def played (effects : Effects) (event : EvdevEvent) : Option (RumbleEffect × ℕ) :=
  if event.eventType = evFf ∧ 0 ≤ event.value.toInt then
    (stored effects event.code.toNat).map (·, event.value.toInt.toNat)
  else none

/-- An accepted upload has a slot, so that the two indexings of the table cannot fail. -/
theorem uploadStatus_eq_zero {effect : RumbleEffect} (h : uploadStatus (.rumble effect) = 0) :
    0 ≤ effect.id.toInt ∧ effect.id.toInt.toNat < effectSlots := by
  unfold uploadStatus at h
  dsimp only at h
  by_cases hid : effect.id.toInt < 0 ∨ effectSlots ≤ effect.id.toInt
  · rw [if_pos hid] at h
    exact absurd h (by decide)
  · omega

theorem eraseStatus_eq_zero {effects : Effects} {id : UInt32} (h : eraseStatus effects id = 0) :
    id.toNat < effectSlots := by
  unfold eraseStatus stored at h
  by_cases hid : id.toNat < effectSlots
  · exact hid
  · rw [Vector.getElem?_eq_none (Nat.le_of_not_lt hid)] at h
    exact absurd h (by decide)

end Bookkeeping

section Service

/-- The provider's session, as the sink of the controller uses it. -/
class NativeSession (K : Type) where
  drain : K → (List RawReverseEvent × Except ProviderError Unit) × K
  send : ProviderFrame → Action ProviderError K Unit
  close : Action ProviderError K Unit

inductive Call where
  | drain (events : List RawReverseEvent) (result : Except ProviderError Unit)
  | reply (frame : ProviderFrame) (result : Except ProviderError Unit)
  | callback (event : RawReverseEvent)
  | close

/-- The bookkeeping with its sink, and with what the callback has gathered. -/
structure Endpoint (K R : Type) where
  feedback : Feedback
  session : K
  closed : Bool
  observer : R
  calls : List Call

variable {K R : Type} [NativeSession K] (emit : RawReverseEvent → R → R)

def Endpoint.new (session : K) (observer : R) : Endpoint K R :=
  ⟨.default, session, false, observer, []⟩

def setFeedback (f : Feedback → Feedback) : Action ProviderError (Endpoint K R) Unit :=
  modify fun s => { s with feedback := f s.feedback }

def callback (event : RawReverseEvent) : Action ProviderError (Endpoint K R) Unit :=
  modify fun s => { s with
    observer := emit event s.observer, calls := s.calls ++ [.callback event] }

/-- Nothing to read is an empty batch. -/
def drainSink : Action ProviderError (Endpoint K R) (List RawReverseEvent) := fun s =>
  if s.closed then (.error .closed, s)
  else
    let ((events, result), session) := NativeSession.drain s.session
    let result := if result = .error .wouldBlock then .ok () else result
    (result.map fun _ => events,
      { s with session, calls := s.calls ++ [.drain events result] })

def replySink (frame : ProviderFrame) : Action ProviderError (Endpoint K R) Unit := fun s =>
  let (result, session) := NativeSession.send frame s.session
  (result, { s with session, calls := s.calls ++ [.reply frame result] })

def closeSink : Action ProviderError (Endpoint K R) Unit := modify fun s =>
  if s.closed then s
  else { s with
    session := (NativeSession.close s.session).2, closed := true, calls := s.calls ++ [.close] }

/-- Returns whether nothing is left waiting for its reply to go out. -/
def flush : Action ProviderError (Endpoint K R) Bool := fun s =>
  match s.feedback.pending with
  | none => (.ok true, s)
  | some (reply, observation) =>
    match replySink reply s with
    | (.ok (), s) =>
      (do
        setFeedback fun feedback => { feedback with
          effects := settle feedback.effects observation, pending := none, retries := 0 }
        callback emit (.forceFeedback observation)
        pure true) s
    | (.error .wouldBlock, s) =>
      if s.feedback.retries < retryBudget then
        (do
          setFeedback fun feedback => { feedback with retries := feedback.retries + 1 }
          pure false) s
      else (.error (.write "evdev completion retry budget exhausted"), s)
    | (.error error, s) => (.error error, s)

def play (event : EvdevEvent) : Action ProviderError (Endpoint K R) Unit := do
  let s ← get
  match played s.feedback.effects event with
  | none => pure ()
  | some (effect, repetitions) => do
    let latest := level effect repetitions
    if s.feedback.playback.latest ≠ some latest then
      match checkedAdd s.feedback.playback.revision 1 with
      | none => fail (.read "retained output revision exhausted")
      | some revision => setFeedback fun feedback => { feedback with
          playback := ⟨revision, some latest⟩ }
    else pure ()
    callback emit (.forceFeedback (.playback effect repetitions))

def playAll : List EvdevEvent → Action ProviderError (Endpoint K R) Unit
  | [] => pure ()
  | event :: events => do
    play emit event
    playAll events

def handle (event : RawReverseEvent) : Action ProviderError (Endpoint K R) Unit := do
  let s ← get
  match completion s.feedback.effects event with
  | some pending => setFeedback fun feedback => { feedback with pending := some pending }
  | none =>
    match event with
    | .evdev events => do
      playAll emit events
      callback emit (.evdev events)
    | event => callback emit event

/-- The events still owned, oldest first; a blocked reply leaves the later ones owned. -/
def handleAll : List RawReverseEvent → Action ProviderError (Endpoint K R) Unit
  | [] => pure ()
  | event :: events => do
    setFeedback fun feedback => { feedback with events }
    handle emit event
    let flushed ← flush emit
    if flushed then handleAll events else pure ()

def refill : Action ProviderError (Endpoint K R) Unit := do
  let s ← get
  if s.feedback.events = [] then
    let events ← drainSink
    setFeedback fun feedback => { feedback with events := events.take eventSlots }
    if eventSlots < events.length then
      fail (.read "evdev reverse batch exceeds bounded ownership")
    else pure ()
  else pure ()

def serviceInner : Action ProviderError (Endpoint K R) Unit := do
  let flushed ← flush emit
  if flushed then
    refill
    let s ← get
    handleAll emit s.feedback.events
  else pure ()

def service : Action ProviderError (Endpoint K R) Unit := fun s =>
  match serviceInner emit s with
  | (.ok (), s) => (.ok (), s)
  | (.error error, s) =>
    let (_, s) := (do
      setFeedback Feedback.clear
      closeSink) s
    (.error error, s)

/-- The session that owns the bookkeeping is closed by its application. -/
def close : Action ProviderError (Endpoint K R) Unit := do
  setFeedback Feedback.clear
  closeSink

/-- Services and closes in any order. Between them the rest of the session may use the provider
for its input, and the application may take what the callback gathered. -/
inductive Reachable : Endpoint K R → Prop where
  | new (session : K) (observer : R) : Reachable (.new session observer)
  | service {s} : Reachable s → Reachable (service emit s).2
  | close {s} : Reachable s → Reachable (close s).2
  | elsewhere {s} : Reachable s → ∀ session observer,
      Reachable { s with session, observer }

end Service

end ForceFeedback
