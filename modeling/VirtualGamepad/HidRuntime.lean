import VirtualGamepad.Fallible
import VirtualGamepad.MachineInt

/-! The executor-neutral HID session. Every call the runtime makes on its transport or on
its personality is appended to `calls`, a ghost log that no branch reads. Time is monotonic
microseconds. -/
namespace HidRuntime

open Fallible MachineInt

inductive ReportType where
  | input
  | output
  | feature
  | other (code : UInt8)
  deriving DecidableEq, Repr

inductive Error where
  | closed
  | framing
  | invalidState
  | queueFull
  | invalidReply
  | invalidRequest
  | timeReversed
  | deadline
  | uncertainDelivery
  | transport
  deriving DecidableEq, Repr

/-- A report number is never zero, and the numbered payload fits 4096 bytes. -/
def Framed (id : Option UInt8) (payload : List UInt8) : Prop :=
  id ≠ some 0 ∧ payload.length + (if id.isSome then 1 else 0) ≤ 4096

instance (id : Option UInt8) (payload : List UInt8) : Decidable (Framed id payload) :=
  inferInstanceAs (Decidable (_ ∧ _))

structure Report where
  kind : ReportType
  id : Option UInt8
  payload : List UInt8
  framed : Framed id payload
  deriving DecidableEq

def Report.new (kind : ReportType) (id : Option UInt8) (payload : List UInt8) :
    Except Error Report :=
  if h : Framed id payload then .ok ⟨kind, id, payload, h⟩ else .error .framing

def Report.fromWire (kind : ReportType) (numbered : Bool) (bytes : List UInt8) :
    Except Error Report :=
  if numbered then
    match bytes with
    | [] => .error .framing
    | id :: payload => Report.new kind (some id) payload
  else
    Report.new kind none bytes

def Report.wire (r : Report) : List UInt8 := r.id.toList ++ r.payload

theorem fromWire_wire {kind : ReportType} {numbered : Bool} {bytes : List UInt8} {r : Report}
    (h : Report.fromWire kind numbered bytes = .ok r) : r.wire = bytes := by
  cases numbered with
  | false =>
    simp only [Report.fromWire, Bool.false_eq_true, if_false, Report.new] at h
    split at h
    · cases h; rfl
    · cases h
  | true =>
    cases bytes with
    | nil => simp [Report.fromWire] at h
    | cons id payload =>
      simp only [Report.fromWire, if_true, Report.new] at h
      split at h
      · cases h; rfl
      · cases h

/-- The transport assigns increasing ordinals, independently of reusable kernel ids. -/
structure RequestId where
  session : ℕ
  ordinal : ℕ
  deriving DecidableEq, Repr

inductive RequestKind where
  | get (kind : ReportType) (id : Option UInt8)
  | set (report : Report)
  deriving DecidableEq

structure Request where
  token : RequestId
  kind : RequestKind
  deriving DecidableEq

inductive ReplyError where
  | busy
  | unsupported
  | invalid
  deriving DecidableEq, Repr

inductive Reply where
  | get (result : Except ReplyError Report)
  | set (result : Except ReplyError Unit)
  deriving DecidableEq

inductive Lifecycle where
  | start (numberedInput numberedOutput numberedFeature : Bool)
  | stop
  | open
  | close
  deriving DecidableEq, Repr

inductive HostEvent where
  | request (request : Request)
  | output (report : Report)
  | lifecycle (event : Lifecycle)
  deriving DecidableEq

inductive Command where
  | input (report : Report)
  | reply (token : RequestId) (reply : Reply)
  deriving DecidableEq

inductive Delivery where
  | submitted
  | definitelyUnsent
  | uncertain
  deriving DecidableEq, Repr

/-- A personality owns wire meaning, sequence generation, cadence and replies. -/
class Protocol (P : Type) (S O : outParam Type) where
  neutral : P → S
  validate : P → S → Except Error Unit
  input : S → ℕ → Action Error P (List Report)
  deadline : P → Option ℕ
  request : P → RequestKind → ℕ → (Reply × Option O) × P
  output : Report → ℕ → Action Error P (Option O)
  lifecycle : P → Lifecycle → ℕ → Option O × P
  delivered : P → Command → Delivery → P

inductive Readiness where
  | poll
  | descriptor (fd : ℤ)
  deriving DecidableEq, Repr

class Transport (T : Type) where
  readiness : T → Readiness := fun _ => .poll
  event : Action Error T (Option HostEvent)
  submit : T → Command → Delivery × T
  close : Action Error T Unit

structure Limits where
  inputQueue : ℕ
  submissionsPerService : ℕ
  replyTimeoutUs : ℕ
  deriving DecidableEq, Repr

def Limits.default : Limits := ⟨32, 16, 100000⟩

structure PendingReply where
  command : Command
  deadline : ℕ
  deriving DecidableEq

/-- One call out of the runtime, with what was passed and what came back. `replace` is the
commit of an `update_protocol`, the only change of the personality that is no call on it. -/
inductive Call (P S : Type) where
  | event (result : Except Error (Option HostEvent))
  | submit (command : Command) (outcome : Delivery)
  | close (result : Except Error Unit)
  | request (kind : RequestKind) (reply : Reply)
  | output (report : Report) (result : Except Error Unit)
  | lifecycle (event : Lifecycle)
  | input (state : S) (result : Except Error (List Report))
  | replace (protocol : P)

structure Entry (P S : Type) where
  now : ℕ
  call : Call P S

structure Runtime (P T S O : Type) where
  protocol : P
  transport : T
  state : S
  dirty : Bool
  pending : List Command
  observations : List O
  droppedObservations : ℕ
  reply : Option PendingReply
  session : ℕ
  lastRequest : Option ℕ
  now : ℕ
  closed : Bool
  closeError : Option Error
  limits : Limits
  calls : List (Entry P S)

variable {P T S O : Type} [Protocol P S O] [Transport T]

def Runtime.record (rt : Runtime P T S O) (call : Call P S) : Runtime P T S O :=
  { rt with calls := rt.calls ++ [⟨rt.now, call⟩] }

/-- A failed construction has already closed the transport it was given. -/
def Runtime.new (protocol : P) (transport : T) (session : ℕ) (limits : Limits) :
    Except (Error × List (Entry P S)) (Runtime P T S O) :=
  let state := Protocol.neutral protocol
  let closing : List (Entry P S) := [⟨0, .close (Transport.close transport).1⟩]
  if limits.inputQueue = 0 ∨ limits.submissionsPerService < 2 ∨ limits.replyTimeoutUs = 0 then
    .error (.invalidState, closing)
  else
    match Protocol.validate protocol state with
    | .error error => .error (error, closing)
    | .ok () =>
      .ok {
        protocol, transport, state, session, limits
        dirty := true
        pending := []
        observations := []
        droppedObservations := 0
        reply := none
        lastRequest := none
        now := 0
        closed := false
        closeError := none
        calls := [] }

def update (edit : Action Error S Unit) : Action Error (Runtime P T S O) Unit := do
  let rt ← get
  if rt.closed then fail .closed
  else
    match edit rt.state with
    | (.error error, _) => fail error
    | (.ok (), candidate) =>
      match Protocol.validate rt.protocol candidate with
      | .error error => fail error
      | .ok () => modify fun rt => { rt with state := candidate, dirty := true }

def updateProtocol (edit : Action Error P Unit) : Action Error (Runtime P T S O) Unit := do
  let rt ← get
  if rt.closed then fail .closed
  else
    match edit rt.protocol with
    | (.error error, _) => fail error
    | (.ok (), candidate) =>
      match Protocol.validate candidate rt.state with
      | .error error => fail error
      | .ok () =>
        modify fun rt => { rt.record (.replace candidate) with
          protocol := candidate, dirty := true }

def Runtime.isDirty (rt : Runtime P T S O) : Bool := rt.dirty || !rt.pending.isEmpty

def Runtime.deadline (rt : Runtime P T S O) : Option ℕ :=
  if rt.closed then none
  else if rt.isDirty then some rt.now
  else ((Protocol.deadline rt.protocol).toList ++ (rt.reply.map PendingReply.deadline).toList).min?

def Runtime.readiness (rt : Runtime P T S O) : Option Readiness :=
  if rt.closed then none else some (Transport.readiness rt.transport)

def Runtime.wantsWrite (rt : Runtime P T S O) : Bool :=
  !rt.closed && (rt.reply.isSome || !rt.pending.isEmpty)

def takeObservations : Action Error (Runtime P T S O) (List O) := do
  let rt ← get
  modify fun rt => { rt with observations := [] }
  pure rt.observations

/-- Overflow evicts the oldest observation. -/
def Runtime.observe (rt : Runtime P T S O) (output : O) : Runtime P T S O :=
  let rt :=
    if rt.observations.length = rt.limits.inputQueue then
      { rt with
        observations := rt.observations.tail
        droppedObservations := saturatingAdd rt.droppedObservations 1 }
    else rt
  { rt with observations := rt.observations ++ [output] }

def Runtime.observeOutput (rt : Runtime P T S O) (output : Option O) : Runtime P T S O :=
  output.elim rt rt.observe

/-- One submission, followed by the delivery feedback to the personality. -/
def submit (command : Command) : Action Error (Runtime P T S O) Delivery := fun rt =>
  let (outcome, transport) := Transport.submit rt.transport command
  (.ok outcome, { rt.record (.submit command outcome) with
    transport, protocol := Protocol.delivered rt.protocol command outcome })

def readEvent : Action Error (Runtime P T S O) (Option HostEvent) := fun rt =>
  let (result, transport) := Transport.event rt.transport
  (result, { rt.record (.event result) with transport })

def validateReply : RequestKind → Reply → Except Error Unit
  | .get kind id, .get (.ok report) =>
    if report.kind = kind ∧ report.id = id then .ok () else .error .invalidReply
  | .get _ _, .get (.error _) => .ok ()
  | .set _, .set _ => .ok ()
  | _, _ => .error .invalidReply

/-- Returns the budget left. -/
def flushReply (now budget : ℕ) : Action Error (Runtime P T S O) ℕ := do
  let rt ← get
  match rt.reply with
  | none => pure budget
  | some pending =>
    if pending.deadline ≤ now then fail .deadline
    else
      let delivery ← submit pending.command
      match delivery with
      | .submitted => do
        modify fun rt => { rt with reply := none }
        pure (budget - 1)
      | .definitelyUnsent => pure (budget - 1)
      | .uncertain => fail .uncertainDelivery

def acceptRequest (request : Request) (now budget : ℕ) : Action Error (Runtime P T S O) ℕ := do
  let rt ← get
  if request.token.session ≠ rt.session ∨ rt.lastRequest.any (request.token.ordinal ≤ ·) then
    fail .invalidRequest
  else
    let ((reply, output), protocol) := Protocol.request rt.protocol request.kind now
    modify fun rt => { rt.record (.request request.kind reply) with
      lastRequest := some request.token.ordinal, protocol }
    lift (validateReply request.kind reply)
    modify fun rt => { rt with
      reply := some ⟨.reply request.token reply, saturatingAdd now rt.limits.replyTimeoutUs⟩ }
    modify fun rt => rt.observeOutput output
    flushReply now budget

def acceptOutput (report : Report) (now : ℕ) : Action Error (Runtime P T S O) Unit := do
  let rt ← get
  let (result, protocol) := Protocol.output report now rt.protocol
  modify fun rt => { rt.record (.output report (result.map fun _ => ())) with protocol }
  let output ← lift result
  modify fun rt => rt.observeOutput output

def acceptLifecycle (event : Lifecycle) (now : ℕ) : Action Error (Runtime P T S O) Unit := do
  modify fun rt => if event = .stop then { rt with pending := [], dirty := true } else rt
  let rt ← get
  let (output, protocol) := Protocol.lifecycle rt.protocol event now
  modify fun rt => { rt.record (.lifecycle event) with protocol }
  modify fun rt => rt.observeOutput output

/-- A reserved reply slot and one unit of budget for input bound the host events. -/
def hostEvent (now budget : ℕ) : Action Error (Runtime P T S O) ℕ := do
  let rt ← get
  if rt.reply.isNone ∧ 1 < budget then
    let event ← readEvent
    match event with
    | none => pure budget
    | some (.request request) => acceptRequest request now budget
    | some (.output report) => do
      acceptOutput report now
      pure budget
    | some (.lifecycle event) => do
      acceptLifecycle event now
      pure budget
  else
    pure budget

/-- The submission loop; a definitely unsent command stays at the front. -/
def drain : ℕ → Action Error (Runtime P T S O) ℕ
  | 0 => pure 0
  | budget + 1 => do
    let rt ← get
    match rt.pending with
    | [] => pure (budget + 1)
    | command :: _ =>
      let delivery ← submit command
      match delivery with
      | .submitted => do
        modify fun rt => { rt with pending := rt.pending.tail }
        drain budget
      | .definitelyUnsent => pure budget
      | .uncertain => fail .uncertainDelivery

def Runtime.generationDue (rt : Runtime P T S O) (now : ℕ) : Bool :=
  rt.pending.isEmpty && (rt.dirty || (Protocol.deadline rt.protocol).any (· ≤ now))

/-- The candidate personality is committed only with its whole batch. -/
def generate (now : ℕ) : Action Error (Runtime P T S O) Unit := do
  let rt ← get
  let (result, candidate) := Protocol.input rt.state now rt.protocol
  modify fun rt => rt.record (.input rt.state result)
  let reports ← lift result
  if rt.limits.inputQueue < reports.length then fail .queueFull
  else if reports.any (·.kind ≠ .input) then fail .framing
  else
    modify fun rt => { rt with
      pending := rt.pending ++ reports.map .input, protocol := candidate, dirty := false }

def serviceInner (now : ℕ) : Action Error (Runtime P T S O) (List O) := do
  let rt ← get
  let budget ← flushReply now rt.limits.submissionsPerService
  let budget ← hostEvent now budget
  let budget ← drain budget
  let rt ← get
  if rt.generationDue now then
    generate now
    let _ ← drain budget
    takeObservations
  else
    takeObservations

def close : Action Error (Runtime P T S O) Unit := fun rt =>
  if rt.closed then (.ok (), rt)
  else
    let (result, transport) := Transport.close rt.transport
    (result, { rt.record (.close result) with
      transport, closed := true, pending := [], reply := none
      closeError := match result with | .ok () => none | .error error => some error })

/-- The two errors that leave a session open. -/
def Error.recoverable : Error → Bool
  | .queueFull | .invalidState => true
  | _ => false

def service (now : ℕ) : Action Error (Runtime P T S O) (List O) := fun rt =>
  if rt.closed then (.error .closed, rt)
  else if now < rt.now then (.error .timeReversed, rt)
  else
    match serviceInner now { rt with now := now } with
    | (.ok output, rt) => (.ok output, rt)
    | (.error error, rt) =>
      if error.recoverable then (.error error, rt) else (.error error, (close rt).2)

/-- Dropping the runtime closes it. -/
def drop (rt : Runtime P T S O) : Runtime P T S O := (close rt).2

inductive Op (P S : Type) where
  | update (edit : Action Error S Unit)
  | updateProtocol (edit : Action Error P Unit)
  | service (now : ℕ)
  | takeObservations
  | close

def perform (op : Op P S) (rt : Runtime P T S O) : Runtime P T S O :=
  match op with
  | .update edit => (update edit rt).2
  | .updateProtocol edit => (updateProtocol edit rt).2
  | .service now => (service now rt).2
  | .takeObservations => (HidRuntime.takeObservations (P := P) rt).2
  | .close => (HidRuntime.close (P := P) rt).2

/-- Every state of a runtime built from these parts, under calls in any order and at any
times, whatever the transport and the personality answer. -/
inductive Reachable (protocol : P) (transport : T) (session : ℕ) (limits : Limits) :
    Runtime P T S O → Prop where
  | new {rt} : Runtime.new protocol transport session limits = .ok rt →
      Reachable protocol transport session limits rt
  | step {rt} : Reachable protocol transport session limits rt → ∀ op,
      Reachable protocol transport session limits (perform op rt)

/-- A personality for concrete runs: `batch` reports of state and sequence number each time,
one feature report answered, and no cadence of its own. -/
structure Counting where
  batch : ℕ
  sequence : UInt8
  deriving DecidableEq, Repr

def Counting.report (state sequence : UInt8) : Report :=
  ⟨.input, some 1, [state, sequence], by simp [Framed]⟩

def Counting.feature : Report := ⟨.feature, some 5, [42], by decide⟩

def Counting.reports (c : Counting) (state : UInt8) : List Report :=
  (List.range c.batch).map fun i => Counting.report state (c.sequence + UInt8.ofNat i)

instance : Protocol Counting UInt8 UInt8 where
  neutral _ := 0
  validate _ state := if 100 < state then .error .invalidState else .ok ()
  input state _ c := (.ok (c.reports state), { c with sequence := c.sequence + UInt8.ofNat c.batch })
  deadline _ := none
  request c kind _ :=
    match kind with
    | .get .feature (some 5) => ((.get (.ok Counting.feature), none), c)
    | .get _ _ => ((.get (.error .unsupported), none), c)
    | .set r => ((.set (.ok ()), r.payload.head?), c)
  output r _ c := (.ok r.payload.head?, c)
  lifecycle c _ _ := (none, c)
  delivered c _ _ := c

/-- A transport for concrete runs: scripted events, then idle; scripted outcomes, then
acceptance. -/
structure Scripted where
  events : List HostEvent
  outcomes : List Delivery

instance : Transport Scripted where
  event t := (.ok t.events.head?, { t with events := t.events.tail })
  submit t _ := (t.outcomes.headD .submitted, { t with outcomes := t.outcomes.tail })
  close t := (.ok (), t)

def Counting.runtime (c : Counting) (t : Scripted) (limits : Limits) :
    Runtime Counting Scripted UInt8 UInt8 :=
  { protocol := c, transport := t, state := 0, dirty := true, pending := []
    observations := [], droppedObservations := 0, reply := none, session := 7
    lastRequest := none, now := 0, closed := false, closeError := none, limits, calls := [] }

theorem Counting.new_runtime (c : Counting) (t : Scripted) {limits : Limits}
    (h : ¬ (limits.inputQueue = 0 ∨ limits.submissionsPerService < 2 ∨
      limits.replyTimeoutUs = 0)) :
    Runtime.new c t 7 limits = .ok (c.runtime t limits) := by
  unfold Runtime.new
  rw [if_neg h]
  simp [Protocol.neutral, Protocol.validate, Counting.runtime]

theorem Counting.reachable (c : Counting) (t : Scripted) {limits : Limits}
    (h : ¬ (limits.inputQueue = 0 ∨ limits.submissionsPerService < 2 ∨
      limits.replyTimeoutUs = 0)) : Reachable c t 7 limits (c.runtime t limits) :=
  .new (c.new_runtime t h)

end HidRuntime
