import VirtualGamepad.Fallible
import Mathlib.Data.List.Sort
import Mathlib.Data.Int.Notation

/-! Ownership of the provider sessions of one controller. Every call on a provider, and every
reverse event handed to the caller, is appended to the ghost log `calls`, which no branch
reads. -/
namespace CompoundSession

open Fallible

inductive ProviderPreflightError where
  | unavailable (target reason : String)
  | invalidRequest (reason : String)
  | unsupportedPlatform (target : String)
  | missingDeviceNode (target path : String)
  | accessDenied (target path : String)
  deriving DecidableEq, Repr

def ProviderPreflightError.text : ProviderPreflightError → String
  | .unavailable target reason => target ++ " is unavailable: " ++ reason
  | .invalidRequest reason => "invalid provider request: " ++ reason
  | .unsupportedPlatform target => target ++ " is unavailable on this platform"
  | .missingDeviceNode target path => target ++ " requires device node `" ++ path ++ "`"
  | .accessDenied target path => target ++ " cannot access device node `" ++ path ++ "`"

inductive ProviderError where
  | preflight (error : ProviderPreflightError)
  | openFailed (reason : String)
  | write (reason : String)
  | read (reason : String)
  | closed
  | unsupported (reason : String)
  | wouldBlock
  deriving DecidableEq, Repr

def ProviderError.text : ProviderError → String
  | .preflight error => error.text
  | .openFailed reason => "provider open failed: " ++ reason
  | .write reason => "provider write failed: " ++ reason
  | .read reason => "provider read failed: " ++ reason
  | .closed => "provider is closed"
  | .unsupported reason =>
    "provider does not support this realization or frame: " ++ reason
  | .wouldBlock => "provider would block"

structure EvdevEvent where
  eventType : ℕ
  code : ℕ
  value : ℤ
  deriving DecidableEq, Repr

inductive ProviderFrame where
  | evdev (events : List EvdevEvent)
  | hidInput (reportId : Option UInt8) (bytes : List UInt8)
  | hidGetReportReply (requestId : ℕ) (status : ℤ) (bytes : List UInt8)
  | hidSetReportReply (requestId : ℕ) (status : ℤ)
  | forceFeedbackUploadReply (requestId : ℕ) (status : ℤ)
  | forceFeedbackEraseReply (requestId : ℕ) (status : ℤ)
  | dummyHcdInput (bytes : List UInt8)
  deriving DecidableEq, Repr

def ProviderFrame.isReply : ProviderFrame → Bool
  | .hidGetReportReply .. | .hidSetReportReply .. | .forceFeedbackUploadReply ..
  | .forceFeedbackEraseReply .. => true
  | _ => false

/-- Labels of a requested host object; what else a realization prescribes is in `R`. -/
inductive Realization where
  | evdev (physicalPath : Option String)
  | uhid (physicalPath uniqueId : String)
  | dummyHcd
  deriving DecidableEq, Repr

structure ProviderOpenRequest (R : Type) where
  realization : Realization
  rest : R

structure CompoundIdentity where
  logical : List UInt8
  creation : List UInt8
  deriving DecidableEq, Repr

structure ComponentAssociation where
  identity : CompoundIdentity
  role : ℕ
  physicalPath : String
  uniqueId : String
  deriving DecidableEq, Repr

def hexByte (b : UInt8) : List Char :=
  [Nat.digitChar (b.toNat / 16), Nat.digitChar (b.toNat % 16)]

def hex (bytes : List UInt8) : String := String.ofList (bytes.flatMap hexByte)

/-- The four hexadecimal digits of a component in its labels. -/
def componentLabel (role : ℕ) : String :=
  "c" ++ String.ofList (List.leftpad 4 '0' (Nat.toDigits 16 role))

def componentPhysicalPath (creation : String) (role process : ℕ) : String :=
  "virtualgamepad/p" ++ String.ofList (Nat.toDigits 16 process) ++ "/" ++ creation ++ "/" ++
    componentLabel role

def CompoundIdentity.component (identity : CompoundIdentity) (process role : ℕ) :
    ComponentAssociation where
  identity := identity
  role := role
  physicalPath := componentPhysicalPath (hex identity.creation) role process
  uniqueId := hex identity.logical ++ "/" ++ componentLabel role

/-- Provider sessions `S` in an environment that keeps their state. A `drain` hands over
reverse events `V` and may fail afterwards. -/
class Provider (E S : Type) (V D : outParam Type) where
  send : S → ProviderFrame → Action ProviderError E Unit
  drain : S → E → (List V × Except ProviderError Unit) × E
  hostPath : E → S → Option String
  diagnostics : E → S → D
  close : S → Action ProviderError E Unit

class Factory (E F : Type) (R S : outParam Type) where
  preflight : F → ProviderOpenRequest R → Action ProviderPreflightError E Unit
  openSession : F → ProviderOpenRequest R → Action ProviderError E S

inductive Call (V : Type) where
  | preflight (component : ℕ) (result : Except ProviderPreflightError Unit)
  | openSession (component : ℕ) (result : Except ProviderError Unit)
  | send (component : ℕ) (frame : ProviderFrame) (result : Except ProviderError Unit)
  | drain (component : ℕ) (result : Except ProviderError Unit)
  | event (component : ℕ) (event : V)
  | close (component : ℕ) (result : Except ProviderError Unit)
  | hostPath (component : ℕ)
  | diagnostics (component : ℕ)

structure ComponentOpen (F R : Type) where
  id : ℕ
  factory : F
  request : ProviderOpenRequest R

structure ComponentFrame where
  component : ℕ
  frame : ProviderFrame
  deriving DecidableEq, Repr

structure ComponentDiagnostics (D : Type) where
  component : ℕ
  association : Option ComponentAssociation
  hostPath : Option String
  provider : D
  closeFailures : ℕ
  lastCloseError : Option String

structure CompoundDiagnostics (D : Type) where
  closed : Bool
  components : List (ComponentDiagnostics D)

inductive CompoundOpenError where
  | unsupportedAssociation (component : ℕ)
  | preflight (component : ℕ) (reason : String)
  | openFailed (component : ℕ) (reason : String) (rollbackFailures : List String)
  | invalidComponentOrder (component : ℕ)
  deriving DecidableEq, Repr

inductive CompoundSessionError where
  | closed
  | invalidFrameSet
  | unknownComponent (component : ℕ)
  | invalidReply
  | provider (component : ℕ) (source : ProviderError)
  deriving DecidableEq, Repr

structure Component (S : Type) where
  id : ℕ
  association : Option ComponentAssociation
  session : S
  closeFailures : ℕ
  lastCloseError : Option String

/-- The environment together with the log of calls made on it. -/
structure World (E V : Type) where
  env : E
  calls : List (Call V)

/-- A session and the world it acts on. -/
structure Owner (E S V : Type) where
  components : List (Component S)
  closed : Bool
  world : World E V

variable {E F R S V D : Type} [Provider E S V D] [Factory E F R S]

/-- Makes one call on the environment and records it. -/
def World.call {ε α : Type} (w : World E V) (run : Action ε E α)
    (record : Except ε Unit → Call V) : Except ε α × World E V :=
  let (result, env) := run w.env
  (result, ⟨env, w.calls ++ [record (result.map fun _ => ())]⟩)

/-- Closes sessions in the order given and collects the failures. -/
def closeEach : List (Component S) → World E V → List String × List (Component S) × World E V
  | [], w => ([], [], w)
  | component :: components, w =>
    let (result, w) := w.call (Provider.close component.session) (.close component.id)
    let (failures, closed, w) := closeEach components w
    match result with
    | .ok () => (failures, component :: closed, w)
    | .error error =>
      (("ComponentId(" ++ toString component.id ++ "): " ++ error.text) :: failures,
        { component with
          closeFailures := component.closeFailures + 1
          lastCloseError := some error.text } :: closed, w)

/-- The last opened session is closed first. -/
def closeComponents (components : List (Component S)) (w : World E V) :
    List String × List (Component S) × World E V :=
  let (failures, closed, w) := closeEach components.reverse w
  (failures, closed.reverse, w)

/-- The first two neighbours of one id. -/
def duplicate : List (ComponentOpen F R) → Option ℕ
  | first :: second :: opens =>
    if first.id = second.id then some second.id else duplicate (second :: opens)
  | _ => none

def preflightAll : List (ComponentOpen F R) → Action CompoundOpenError (World E V) Unit
  | [] => pure ()
  | request :: opens => fun w =>
    match w.call (Factory.preflight request.factory request.request) (.preflight request.id) with
    | (.ok (), w) => preflightAll opens w
    | (.error error, w) => (.error (.preflight request.id error.text), w)

/-- Opens one component after the other; a failure closes those already opened. -/
def openEach : List (Component S) → List (ComponentOpen F R) →
    Action CompoundOpenError (World E V) (List (Component S))
  | components, [] => pure components
  | components, request :: opens => fun w =>
    match w.call (Factory.openSession request.factory request.request)
        (.openSession request.id) with
    | (.ok session, w) => openEach (components ++ [⟨request.id, none, session, 0, none⟩]) opens w
    | (.error error, w) =>
      let (failures, _, w) := closeComponents components w
      (.error (.openFailed request.id error.text failures), w)

/-- `open`: preflights and opens all components, rolling back partial opens. -/
def openCompound (opens : List (ComponentOpen F R)) :
    Action CompoundOpenError (World E V) (List (Component S)) :=
  let opens := opens.insertionSort (·.id ≤ ·.id)
  match duplicate opens with
  | some component => fail (.invalidComponentOrder component)
  | none => do
    preflightAll opens
    openEach [] opens

def Realization.label (association : ComponentAssociation) : Realization → Option Realization
  | .evdev _ => some (.evdev (some association.physicalPath))
  | .uhid _ _ => some (.uhid association.physicalPath association.uniqueId)
  | .dummyHcd => none

/-- Replaces the labels of every request by those of its component. -/
def labelAll (identity : CompoundIdentity) (process : ℕ) :
    List (ComponentOpen F R) → Except CompoundOpenError (List (ComponentOpen F R))
  | [] => .ok []
  | request :: opens =>
    match request.request.realization.label (identity.component process request.id) with
    | none => .error (.unsupportedAssociation request.id)
    | some realization =>
      (labelAll identity process opens).map
        ({ request with request := { request.request with realization } } :: ·)

def openAssociated (identity : CompoundIdentity) (process : ℕ)
    (opens : List (ComponentOpen F R)) :
    Action CompoundOpenError (World E V) (List (Component S)) := do
  let opens ← lift (labelAll identity process opens)
  let components ← openCompound opens
  pure (components.map fun component =>
    { component with association := some (identity.component process component.id) })

/-- The labels a package prepared must all be there and differ. -/
def preparedAssociations (identity : CompoundIdentity) (process : ℕ) :
    List String → List (ComponentOpen F R) → Except CompoundOpenError (List ComponentAssociation)
  | _, [] => .ok []
  | paths, request :: opens =>
    match request.request.realization with
    | .evdev (some path) =>
      if path = "" ∨ path ∈ paths then .error (.unsupportedAssociation request.id)
      else
        (preparedAssociations identity process (path :: paths) opens).map
          ({ identity.component process request.id with physicalPath := path } :: ·)
    | _ => .error (.unsupportedAssociation request.id)

def openAssociatedPreparedEvdev (identity : CompoundIdentity) (process : ℕ)
    (opens : List (ComponentOpen F R)) :
    Action CompoundOpenError (World E V) (List (Component S)) := do
  let associations ← lift (preparedAssociations identity process [] opens)
  let components ← openCompound opens
  pure (components.map fun component =>
    { component with association := associations.find? (·.role = component.id) })

/-- Reads the diagnostics of one component; a closed session has no host path. -/
def diagnoseEach (closed : Bool) :
    List (Component S) → World E V → List (ComponentDiagnostics D) × World E V
  | [], w => ([], w)
  | component :: components, w =>
    let path := if closed then none else Provider.hostPath w.env component.session
    let reads := if closed then [] else [Call.hostPath component.id]
    let provider := Provider.diagnostics w.env component.session
    let w := { w with calls := w.calls ++ reads ++ [.diagnostics component.id] }
    let (rest, w) := diagnoseEach closed components w
    (⟨component.id, component.association, path, provider, component.closeFailures,
      component.lastCloseError⟩ :: rest, w)

def diagnostics (o : Owner E S V) : CompoundDiagnostics D × Owner E S V :=
  let (components, world) := diagnoseEach o.closed o.components o.world
  (⟨o.closed, components⟩, { o with world })

/-- Closes all components once, in reverse order, and reports. -/
def close (o : Owner E S V) : CompoundDiagnostics D × Owner E S V :=
  if o.closed then diagnostics o
  else
    let (_, components, world) := closeComponents o.components o.world
    diagnostics ⟨components, true, world⟩

def providerFailure (component : ℕ) (source : ProviderError) (o : Owner E S V) :
    CompoundSessionError × Owner E S V :=
  (.provider component source, if source = .wouldBlock then o else (close o).2)

/-- One send on one component; its failure is the compound's. -/
def sendOne (component : Component S) (id : ℕ) (frame : ProviderFrame) :
    Action CompoundSessionError (Owner E S V) Unit := fun o =>
  let (result, world) := o.world.call (Provider.send component.session frame) (.send id frame)
  let o := { o with world }
  match result with
  | .ok () => (.ok (), o)
  | .error source =>
    let (error, o) := providerFailure id source o
    (.error error, o)

def sendEach : List ComponentFrame → Action CompoundSessionError (Owner E S V) Unit
  | [] => pure ()
  | frame :: frames => do
    let o ← get
    match o.components.find? (·.id = frame.component) with
    | none => fail .invalidFrameSet
    | some component => do
      sendOne component frame.component frame.frame
      sendEach frames

/-- Sends a complete frame set in component order. -/
def send (frames : List ComponentFrame) : Action CompoundSessionError (Owner E S V) Unit := do
  let o ← get
  if o.closed then fail .closed
  else if frames.map ComponentFrame.component ≠ o.components.map Component.id then
    fail .invalidFrameSet
  else sendEach frames

def reply (id : ℕ) (frame : ProviderFrame) : Action CompoundSessionError (Owner E S V) Unit := do
  let o ← get
  if o.closed then fail .closed
  else if !frame.isReply then fail .invalidReply
  else
    match o.components.find? (·.id = id) with
    | none => fail (.unknownComponent id)
    | some component => sendOne component id frame

/-- Drains one component after the other; events are handed over as they come. -/
def drainEach : List (Component S) → Action CompoundSessionError (Owner E S V) Unit
  | [] => pure ()
  | component :: components => fun o =>
    let ((events, result), env) := Provider.drain component.session o.world.env
    let o := { o with
      world := ⟨env, o.world.calls ++ events.map (.event component.id) ++
        [.drain component.id result]⟩ }
    match result with
    | .ok () | .error .wouldBlock => drainEach components o
    | .error source =>
      let (error, o) := providerFailure component.id source o
      (.error error, o)

def drainReverse : Action CompoundSessionError (Owner E S V) Unit := do
  let o ← get
  if o.closed then fail .closed
  else drainEach o.components

/-- Dropping the session closes it. -/
def drop (o : Owner E S V) : Owner E S V := (close o).2

inductive Op where
  | send (frames : List ComponentFrame)
  | reply (id : ℕ) (frame : ProviderFrame)
  | drainReverse
  | close
  | diagnostics

def perform (op : Op) (o : Owner E S V) : Owner E S V :=
  match op with
  | .send frames => (send frames o).2
  | .reply id frame => (reply id frame o).2
  | .drainReverse => (drainReverse o).2
  | .close => (close o).2
  | .diagnostics => (CompoundSession.diagnostics o).2

end CompoundSession
