import VirtualGamepad.Fallible
import VirtualGamepad.Runs
import VirtualGamepad.UhidEvents

/-! The provider's session on the kernel's HID node: it frames what it sends, and while a request
of the kernel is unanswered it reads nothing more. `wire` is a ghost record of the reads and the
writes. -/
namespace UhidSession

open ControllerContract Fallible UhidEvents

section Nodes

inductive ReadOutcome where
  | bytes (bytes : List UInt8)
  | wouldBlock
  | failed (reason : String)
  deriving DecidableEq

inductive WriteOutcome where
  | wrote (count : ℕ)
  | wouldBlock
  | failed (reason : String)
  deriving DecidableEq

/-- The open file of the node. -/
class Node (K : Type) where
  descriptor : K → ℤ
  read : K → ReadOutcome × K
  write : K → List UInt8 → WriteOutcome × K

inductive Exchange where
  | read (outcome : ReadOutcome)
  | write (event : List UInt8) (outcome : WriteOutcome)
  deriving DecidableEq

inductive ProviderState where
  | notOpen
  | open
  | closed
  | failed
  deriving DecidableEq, Repr

/-- The unanswered request of the kernel, with whether it is a GET. -/
abbrev PendingRequest := Option (UInt32 × Bool)

structure Session (K : Type) where
  io : K
  id : ℕ
  state : ProviderState
  sent : ℕ
  reverse : ℕ
  failures : ℕ
  lifecycleEvents : ℕ
  numberedInputReports : Bool
  numberedOutputReports : Bool
  pendingRequest : PendingRequest
  wire : List Exchange

structure ProviderReverseEvent where
  session : ℕ
  sequence : ℕ
  event : RawReverseEvent
  deriving DecidableEq

end Nodes

section Operations

variable {K : Type} [Node K]

/-- One write is one event. A short one is not taken up again. -/
def written (event : List UInt8) : WriteOutcome → Except ProviderError Unit
  | .wrote n =>
    if n = event.length then .ok ()
    else .error (.write "short UHID event write; delivery uncertain")
  | .wouldBlock => .error .wouldBlock
  | .failed reason => .error (.write reason)

def writeEvent (event : List UInt8) : Action ProviderError (Session K) Unit := fun s =>
  let (outcome, io) := Node.write s.io event
  (written event outcome, { s with io, wire := s.wire ++ [.write event outcome] })

/-- The buffer holds one event. -/
def received : ReadOutcome → Except ProviderError Event
  | .bytes bytes =>
    if (bytes.take uhidEventSize).length < 4 then .error (.read "truncated UHID event")
    else (parseEvent (bytes.take uhidEventSize)).returned (parseEvent_returns _)
  | .wouldBlock => .error .wouldBlock
  | .failed reason => .error (.read reason)

def readEvent : Action ProviderError (Session K) Event := fun s =>
  let (outcome, io) := Node.read s.io
  (received outcome, { s with io, wire := s.wire ++ [.read outcome] })

def Session.new (io : K) (id : ℕ) (specification : NativeHidRealization) : Session K where
  io := io
  id := id
  state := .open
  sent := 0
  reverse := 0
  failures := 0
  lifecycleEvents := 0
  numberedInputReports := specification.numberedInputReports
  numberedOutputReports := specification.numberedOutputReports
  pendingRequest := none
  wire := []

/-- An event that its encoder has finished goes to the node. -/
def emit (event : Except ProviderError (List UInt8)) : Action ProviderError (Session K) Unit := do
  let bytes ← lift event
  writeEvent bytes

/-- Opening creates the device first; on failure nothing is left of the session. -/
def Session.open (io : K) (id : ℕ) (specification : NativeHidRealization) :
    Except ProviderError (Session K) :=
  match emit ((createEvent specification).returned (createEvent_reads_back specification).1)
    (Session.new io id specification) with
  | (.ok (), s) => .ok s
  | (.error error, _) => .error error

def counted (m : Action ProviderError (Session K) Unit) : Action ProviderError (Session K) Unit :=
  fun s =>
    match m s with
    | (.ok (), s) => (.ok (), { s with sent := s.sent + 1 })
    | (.error error, s) => (.error error, { s with failures := s.failures + 1 })

def checkReply (id : UInt32) (isGet : Bool) : Action ProviderError (Session K) Unit := do
  let s ← get
  if s.pendingRequest ≠ some (id, isGet) then
    fail (.unsupported "unknown, duplicate, or wrong-kind HID reply")
  else pure ()

/-- A reply that is written in full frees the request slot. -/
def answer (event : Except ProviderError (List UInt8)) : Action ProviderError (Session K) Unit := do
  emit event
  modify fun s => { s with pendingRequest := none }

/-- A reply that does not answer the pending request is not counted as a failure. -/
def reply (id : UInt32) (isGet : Bool) (event : Except ProviderError (List UInt8)) :
    Action ProviderError (Session K) Unit := do
  checkReply id isGet
  counted (answer event)

def input (reportId : Option UInt8) (bytes : List UInt8) : Action ProviderError (Session K) Unit := do
  let s ← get
  if s.numberedInputReports = reportId.isSome then
    emit ((inputEvent reportId bytes).returned (inputEvent_encodes reportId bytes).returns)
  else fail (.unsupported "HID input report ID does not match realization numbering")

def send (frame : ProviderFrame) : Action ProviderError (Session K) Unit := do
  let s ← get
  if s.state ≠ .open then fail .closed
  else
    match frame with
    | .hidInput reportId bytes => counted (input reportId bytes)
    | .hidGetReportReply requestId status bytes =>
      reply requestId true
        ((getReplyEvent requestId status bytes).returned
          (getReplyEvent_encodes requestId status bytes).returns)
    | .hidSetReportReply requestId status =>
      reply requestId false
        ((setReplyEvent requestId status).returned (setReplyEvent_encodes requestId status).returns)
    | _ => counted (fail (.unsupported "UHID accepts HID input and feature replies only"))

/-- The numbering of the reports is what the last START announced. -/
def Session.onLifecycle (s : Session K) (event : HidRuntime.Lifecycle) : Session K :=
  match event with
  | .start numberedInput numberedOutput _ => { s with
      lifecycleEvents := s.lifecycleEvents + 1
      numberedInputReports := numberedInput
      numberedOutputReports := numberedOutput }
  | _ => { s with lifecycleEvents := s.lifecycleEvents + 1 }

def surfaceOutput (bytes : List UInt8) : Action ProviderError (Session K) RawReverseEvent := do
  let s ← get
  if s.numberedOutputReports then
    match bytes with
    | [] => do
      modify fun s => { s with failures := s.failures + 1 }
      fail (.read "numbered UHID output report omitted its report ID")
    | reportId :: bytes => pure (.hidOutput (some reportId) bytes)
  else pure (.hidOutput none bytes)

def surface : Event → Action ProviderError (Session K) RawReverseEvent
  | .output bytes => surfaceOutput bytes
  | .get id reportId reportType => do
    modify fun s => { s with pendingRequest := some (id, true) }
    pure (.hidGetReportRequest id reportId reportType)
  | .set id reportId reportType bytes => do
    modify fun s => { s with pendingRequest := some (id, false) }
    pure (.hidSetReportRequest id reportId reportType bytes)
  | .lifecycle event => do
    modify fun s => s.onLifecycle event
    pure (.hidLifecycle event)

/-- The events that a successful call hands on. -/
def drainReverseEvents : Action ProviderError (Session K) (List ProviderReverseEvent) := do
  let s ← get
  if s.state ≠ .open then fail .closed
  else if s.pendingRequest.isSome then fail .wouldBlock
  else
    let event ← readEvent
    let raw ← surface event
    modify fun s => { s with reverse := s.reverse + 1 }
    let s ← get
    pure [⟨s.id, s.reverse, raw⟩]

def close : Action ProviderError (Session K) Unit := fun s =>
  if s.state = .closed then (.ok (), s)
  else
    match emit (destroyEvent.returned destroyEvent_encodes.returns)
      { s with state := .closed, pendingRequest := none } with
    | (.ok (), s) => (.ok (), s)
    | (.error error, s) => (.error error, { s with failures := s.failures + 1 })

end Operations

section Effects

variable {K : Type} {s s' : Session K}

/-- Two sessions that differ in the state of the node and in their counters only. -/
structure Alike (s s' : Session K) : Prop where
  id : s'.id = s.id
  state : s'.state = s.state
  input : s'.numberedInputReports = s.numberedInputReports
  output : s'.numberedOutputReports = s.numberedOutputReports
  pending : s'.pendingRequest = s.pendingRequest
  wire : s'.wire = s.wire

theorem Alike.refl (s : Session K) : Alike s s := ⟨rfl, rfl, rfl, rfl, rfl, rfl⟩

theorem Alike.trans {s'' : Session K} (h : Alike s s') (k : Alike s' s'') : Alike s s'' where
  id := k.id.trans h.id
  state := k.state.trans h.state
  input := k.input.trans h.input
  output := k.output.trans h.output
  pending := k.pending.trans h.pending
  wire := k.wire.trans h.wire

/-- The request slot after a write of a reply. -/
def slotAfter (s : Session K) (bytes : List UInt8) (outcome : WriteOutcome) : PendingRequest :=
  if written bytes outcome = .ok () then none else s.pendingRequest

/-- The effects of a reply: it is refused unseen by the kernel, or written once. -/
inductive Replies (s : Session K) (kr : KernelReply) : Except ProviderError Unit → Session K → Prop
  | refused {error s'} : error ≠ .wouldBlock → Alike s s' → Replies s kr (.error error) s'
  | wrote {bytes outcome s'} : s.state = .open → s.pendingRequest = some (kr.id, kr.get) →
    readWritten bytes = some (.reply kr) →
    Alike { s with
      pendingRequest := slotAfter s bytes outcome
      wire := s.wire ++ [.write bytes outcome] } s' →
    Replies s kr (written bytes outcome) s'

/-- What a kernel event becomes, or nothing where a numbered report lacks its number. -/
def rawEvent (numberedOutput : Bool) : Event → Option RawReverseEvent
  | .output bytes =>
    if numberedOutput then
      match bytes with
      | [] => none
      | reportId :: bytes => some (.hidOutput (some reportId) bytes)
    else some (.hidOutput none bytes)
  | .get id reportId reportType => some (.hidGetReportRequest id reportId reportType)
  | .set id reportId reportType bytes => some (.hidSetReportRequest id reportId reportType bytes)
  | .lifecycle event => some (.hidLifecycle event)

def asks : Event → PendingRequest
  | .get id _ _ => some (id, true)
  | .set id _ _ _ => some (id, false)
  | _ => none

def Session.hear (s : Session K) : Event → Session K
  | .output _ => s
  | .get id _ _ => { s with pendingRequest := some (id, true) }
  | .set id _ _ _ => { s with pendingRequest := some (id, false) }
  | .lifecycle event => s.onLifecycle event

theorem Session.hear_id (s : Session K) (event : Event) : (s.hear event).id = s.id := by
  rcases event with _ | _ | _ | (_ | _ | _ | _)
  all_goals rfl

/-- The effects of draining. -/
inductive Drains (s : Session K) :
    Except ProviderError (List ProviderReverseEvent) → Session K → Prop
  | shut : s.state ≠ .open → Drains s (.error .closed) s
  | waiting : s.state = .open → s.pendingRequest ≠ none → Drains s (.error .wouldBlock) s
  | unread {outcome error s'} : s.state = .open → s.pendingRequest = none →
    received outcome = .error error → Alike { s with wire := s.wire ++ [.read outcome] } s' →
    Drains s (.error error) s'
  | unnumbered {outcome event s'} : s.state = .open → s.pendingRequest = none →
    received outcome = .ok event → rawEvent s.numberedOutputReports event = none →
    Alike { s with wire := s.wire ++ [.read outcome] } s' →
    Drains s (.error (.read "numbered UHID output report omitted its report ID")) s'
  | took {outcome event raw sequence s'} : s.state = .open → s.pendingRequest = none →
    received outcome = .ok event → rawEvent s.numberedOutputReports event = some raw →
    Alike (Session.hear { s with wire := s.wire ++ [.read outcome] } event) s' →
    Drains s (.ok [⟨s.id, sequence, raw⟩]) s'

/-- The effects of closing. -/
inductive Closes (s : Session K) : Except ProviderError Unit → Session K → Prop
  | again : s.state = .closed → Closes s (.ok ()) s
  | wrote {bytes outcome s'} : s.state ≠ .closed → readWritten bytes = some .destroy →
    Alike { s with
      state := .closed
      pendingRequest := none
      wire := s.wire ++ [.write bytes outcome] } s' →
    Closes s (written bytes outcome) s'

/-- The effects of an input report. -/
inductive Inputs (s : Session K) (data : List UInt8) : Except ProviderError Unit → Session K → Prop
  | refused {error s'} : error ≠ .wouldBlock → Alike s s' → Inputs s data (.error error) s'
  | wrote {bytes outcome s'} : s.state = .open → readWritten bytes = some (.input data) →
    Alike { s with wire := s.wire ++ [.write bytes outcome] } s' →
    Inputs s data (written bytes outcome) s'

variable [Node K]

theorem writeEvent_eq (bytes : List UInt8) (s : Session K) :
    writeEvent bytes s = (written bytes (Node.write s.io bytes).1,
      { s with io := (Node.write s.io bytes).2
               wire := s.wire ++ [.write bytes (Node.write s.io bytes).1] }) := rfl

theorem emit_ok (bytes : List UInt8) (s : Session K) : emit (.ok bytes) s = writeEvent bytes s := rfl

theorem emit_error (error : ProviderError) (s : Session K) :
    emit (.error error) s = (.error error, s) := rfl

omit [Node K] in
theorem counted_eq (m : Action ProviderError (Session K) Unit) (s : Session K) :
    ∃ t, counted m s = ((m s).1, t) ∧ Alike (m s).2 t := by
  unfold counted
  rcases m s with ⟨error | _, t⟩
  · exact ⟨_, rfl, ⟨rfl, rfl, rfl, rfl, rfl, rfl⟩⟩
  · exact ⟨_, rfl, ⟨rfl, rfl, rfl, rfl, rfl, rfl⟩⟩

theorem answer_ok (bytes : List UInt8) (s : Session K) :
    ∃ t, answer (.ok bytes) s = (written bytes (Node.write s.io bytes).1, t) ∧
      Alike { s with
        pendingRequest := slotAfter s bytes (Node.write s.io bytes).1
        wire := s.wire ++ [.write bytes (Node.write s.io bytes).1] } t := by
  have hemit : emit (.ok bytes) s = (written bytes (Node.write s.io bytes).1,
      { s with io := (Node.write s.io bytes).2
               wire := s.wire ++ [.write bytes (Node.write s.io bytes).1] }) := rfl
  unfold answer slotAfter
  cases hwritten : written bytes (Node.write s.io bytes).1 with
  | ok _ =>
    rw [hwritten] at hemit
    exact ⟨_, (bind_run_ok hemit).trans rfl, ⟨rfl, rfl, rfl, rfl, rfl, rfl⟩⟩
  | error error =>
    rw [hwritten] at hemit
    exact ⟨_, bind_run_error hemit, ⟨rfl, rfl, rfl, rfl, rfl, rfl⟩⟩

omit [Node K] in
theorem checkReply_eq (id : UInt32) (isGet : Bool) (s : Session K) :
    checkReply id isGet s =
      (if s.pendingRequest = some (id, isGet) then .ok ()
        else .error (.unsupported "unknown, duplicate, or wrong-kind HID reply"), s) := by
  unfold checkReply
  rw [get_bind_run]
  by_cases hpending : s.pendingRequest = some (id, isGet)
  · rw [if_pos hpending, if_neg (not_not.mpr hpending)]
    rfl
  · rw [if_neg hpending, if_pos hpending]
    rfl

theorem reply_effect {kr : KernelReply} {event : Panicking.Outcome ProviderError (List UInt8)}
    (h : Encodes event (.reply kr)) (hopen : s.state = .open) :
    ∃ r t, reply kr.id kr.get (event.returned h.returns) s = (r, t) ∧ Replies s kr r t := by
  have hcheck := checkReply_eq kr.id kr.get s
  unfold reply
  by_cases hpending : s.pendingRequest = some (kr.id, kr.get)
  · rw [if_pos hpending] at hcheck
    rw [bind_run_ok hcheck]
    obtain ⟨t, hcounted, halike⟩ := counted_eq (answer (event.returned h.returns)) s
    refine ⟨_, t, hcounted, ?_⟩
    cases hevent : event.returned h.returns with
    | error error =>
      have hanswer : answer (.error error) s = (.error error, s) := rfl
      rw [hevent, hanswer] at halike
      rw [hanswer]
      exact .refused (h.error_of_eq ((Panicking.returned_eq_error _).mp hevent)) halike
    | ok bytes =>
      obtain ⟨u, hanswer, hu⟩ := answer_ok bytes s
      rw [hevent, hanswer] at halike
      rw [hanswer]
      have hread := h.ok_of_eq ((Panicking.returned_eq_ok _).mp hevent)
      exact .wrote hopen hpending hread (hu.trans halike)
  · rw [if_neg hpending] at hcheck
    exact ⟨_, _, bind_run_error hcheck, .refused (by simp) (.refl s)⟩

theorem send_open (frame : ProviderFrame) (hopen : s.state = .open) :
    send frame s =
      (match frame with
      | .hidInput reportId bytes => counted (input reportId bytes)
      | .hidGetReportReply requestId status bytes =>
        reply requestId true
          ((getReplyEvent requestId status bytes).returned
            (getReplyEvent_encodes requestId status bytes).returns)
      | .hidSetReportReply requestId status =>
        reply requestId false
          ((setReplyEvent requestId status).returned (setReplyEvent_encodes requestId status).returns)
      | _ => counted (fail (.unsupported "UHID accepts HID input and feature replies only"))) s := by
  unfold send
  rw [get_bind_run, if_neg (not_not.mpr hopen)]

theorem send_shut (frame : ProviderFrame) (hshut : s.state ≠ .open) :
    send frame s = (.error .closed, s) := by
  unfold send
  rw [get_bind_run, if_pos hshut]
  rfl

theorem send_getReply (requestId : UInt32) (status : Int16) (bytes : List UInt8) (s : Session K) :
    ∃ r t, send (.hidGetReportReply requestId status bytes) s = (r, t) ∧
      Replies s ⟨requestId, true, status, bytes⟩ r t := by
  by_cases hopen : s.state = .open
  · rw [send_open _ hopen]
    exact reply_effect (getReplyEvent_encodes requestId status bytes) hopen
  · exact ⟨_, _, send_shut _ hopen, .refused (by simp) (.refl s)⟩

theorem send_setReply (requestId : UInt32) (status : Int16) (s : Session K) :
    ∃ r t, send (.hidSetReportReply requestId status) s = (r, t) ∧
      Replies s ⟨requestId, false, status, []⟩ r t := by
  by_cases hopen : s.state = .open
  · rw [send_open _ hopen]
    exact reply_effect (setReplyEvent_encodes requestId status) hopen
  · exact ⟨_, _, send_shut _ hopen, .refused (by simp) (.refl s)⟩

theorem send_input (reportId : Option UInt8) (bytes : List UInt8) (s : Session K) :
    ∃ r t, send (.hidInput reportId bytes) s = (r, t) ∧
      Inputs s (reportId.toList ++ bytes) r t := by
  by_cases hopen : s.state = .open
  case neg => exact ⟨_, _, send_shut _ hopen, .refused (by simp) (.refl s)⟩
  obtain ⟨t, hcounted, halike⟩ := counted_eq (input reportId bytes) s
  rw [send_open _ hopen]
  refine ⟨_, t, hcounted, ?_⟩
  have hencodes := inputEvent_encodes reportId bytes
  by_cases hnumbered : s.numberedInputReports = reportId.isSome
  case neg =>
    have hinput : input reportId bytes s =
        (.error (.unsupported "HID input report ID does not match realization numbering"), s) := by
      unfold input
      rw [get_bind_run, if_neg hnumbered]
      rfl
    rw [hinput] at halike ⊢
    exact .refused (by simp) halike
  have hinput : input reportId bytes s =
      emit ((inputEvent reportId bytes).returned hencodes.returns) s := by
    unfold input
    rw [get_bind_run, if_pos hnumbered]
  rw [hinput] at halike ⊢
  cases hevent : (inputEvent reportId bytes).returned hencodes.returns with
  | error error =>
    rw [hevent] at halike
    exact .refused (hencodes.error_of_eq ((Panicking.returned_eq_error _).mp hevent)) halike
  | ok event =>
    rw [hevent] at halike
    have hwrite : Alike { s with wire := s.wire ++ [.write event (Node.write s.io event).1] }
        (emit (.ok event) s).2 := ⟨rfl, rfl, rfl, rfl, rfl, rfl⟩
    have hread := hencodes.ok_of_eq ((Panicking.returned_eq_ok _).mp hevent)
    exact .wrote hopen hread (hwrite.trans halike)

omit [Node K] in
theorem Alike.hear (h : Alike s s') (event : Event) : Alike (s.hear event) (s'.hear event) := by
  cases event with
  | output bytes => exact h
  | get id reportId reportType => exact ⟨h.id, h.state, h.input, h.output, rfl, h.wire⟩
  | set id reportId reportType bytes => exact ⟨h.id, h.state, h.input, h.output, rfl, h.wire⟩
  | lifecycle event =>
    cases event with
    | start input output feature => exact ⟨h.id, h.state, rfl, rfl, h.pending, h.wire⟩
    | stop => exact ⟨h.id, h.state, h.input, h.output, h.pending, h.wire⟩
    | «open» => exact ⟨h.id, h.state, h.input, h.output, h.pending, h.wire⟩
    | close => exact ⟨h.id, h.state, h.input, h.output, h.pending, h.wire⟩

omit [Node K] in
theorem surface_none {event : Event} (h : rawEvent s.numberedOutputReports event = none) :
    surface event s = (.error (.read "numbered UHID output report omitted its report ID"),
      { s with failures := s.failures + 1 }) := by
  cases event with
  | output bytes =>
    by_cases hnumbered : s.numberedOutputReports
    · cases bytes with
      | cons reportId bytes => simp [rawEvent, hnumbered] at h
      | nil =>
        change surfaceOutput [] s = _
        unfold surfaceOutput
        rw [get_bind_run, if_pos hnumbered]
        rfl
    · simp [rawEvent, hnumbered] at h
  | get id reportId reportType => simp [rawEvent] at h
  | set id reportId reportType bytes => simp [rawEvent] at h
  | lifecycle event => simp [rawEvent] at h

omit [Node K] in
theorem surface_some {event : Event} {raw : RawReverseEvent}
    (h : rawEvent s.numberedOutputReports event = some raw) :
    surface event s = (.ok raw, s.hear event) := by
  cases event with
  | output bytes =>
    change surfaceOutput bytes s = _
    unfold surfaceOutput
    rw [get_bind_run]
    by_cases hnumbered : s.numberedOutputReports
    · rw [if_pos hnumbered]
      cases bytes with
      | nil => simp [rawEvent, hnumbered] at h
      | cons reportId bytes =>
        simp only [rawEvent, hnumbered, if_true, Option.some.injEq] at h
        subst h
        rfl
    · rw [if_neg hnumbered]
      simp only [rawEvent, hnumbered, Bool.false_eq_true, if_false, Option.some.injEq] at h
      subst h
      rfl
  | get id reportId reportType =>
    obtain rfl := Option.some.inj h
    rfl
  | set id reportId reportType bytes =>
    obtain rfl := Option.some.inj h
    rfl
  | lifecycle event =>
    obtain rfl := Option.some.inj h
    rfl

theorem drain_effect (s : Session K) :
    ∃ r t, drainReverseEvents s = (r, t) ∧ Drains s r t := by
  unfold drainReverseEvents
  rw [get_bind_run]
  by_cases hopen : s.state = .open
  case neg =>
    rw [if_pos hopen]
    exact ⟨_, _, rfl, .shut hopen⟩
  rw [if_neg (not_not.mpr hopen)]
  by_cases hpending : s.pendingRequest = none
  case neg =>
    rw [if_pos (Option.isSome_iff_ne_none.mpr hpending)]
    exact ⟨_, _, rfl, .waiting hopen hpending⟩
  rw [if_neg (by simp [hpending])]
  obtain ⟨t, ht⟩ : ∃ t : Session K, t = { s with
      io := (Node.read s.io).2
      wire := s.wire ++ [.read (Node.read s.io).1] } := ⟨_, rfl⟩
  have halike : Alike { s with wire := s.wire ++ [.read (Node.read s.io).1] } t := by
    rw [ht]
    exact ⟨rfl, rfl, rfl, rfl, rfl, rfl⟩
  have hread : readEvent s = (received (Node.read s.io).1, t) := by
    rw [ht]
    rfl
  cases hreceived : received (Node.read s.io).1 with
  | error error =>
    rw [hreceived] at hread
    exact ⟨_, _, bind_run_error hread, .unread hopen hpending hreceived halike⟩
  | ok event =>
    rw [hreceived] at hread
    rw [bind_run_ok hread]
    cases hraw : rawEvent t.numberedOutputReports event with
    | none =>
      refine ⟨_, _, bind_run_error (surface_none hraw), ?_⟩
      rw [halike.output] at hraw
      exact .unnumbered hopen hpending hreceived hraw (halike.trans ⟨rfl, rfl, rfl, rfl, rfl, rfl⟩)
    | some raw =>
      rw [bind_run_ok (surface_some hraw)]
      refine ⟨_, _, rfl, ?_⟩
      rw [halike.output] at hraw
      have hheard := halike.hear event
      have hid : (t.hear event).id = s.id := by
        rw [hheard.id, Session.hear_id]
      rw [hid]
      exact .took hopen hpending hreceived hraw (hheard.trans ⟨rfl, rfl, rfl, rfl, rfl, rfl⟩)

theorem close_effect (s : Session K) : ∃ r t, close s = (r, t) ∧ Closes s r t := by
  unfold close
  by_cases hclosed : s.state = .closed
  · rw [if_pos hclosed]
    exact ⟨_, _, rfl, .again hclosed⟩
  rw [if_neg hclosed]
  obtain ⟨t, ht⟩ : ∃ t : Session K, t = { s with state := .closed, pendingRequest := none } :=
    ⟨_, rfl⟩
  rw [← ht]
  cases hevent : destroyEvent.returned destroyEvent_encodes.returns with
  | error error =>
    have herror := (Panicking.returned_eq_error _).mp hevent
    rw [destroyEvent_eq] at herror
    cases herror
  | ok bytes =>
    have hread := destroyEvent_encodes.ok_of_eq ((Panicking.returned_eq_ok _).mp hevent)
    have hemit : emit (.ok bytes) t = (written bytes (Node.write t.io bytes).1, { t with
        io := (Node.write t.io bytes).2
        wire := t.wire ++ [.write bytes (Node.write t.io bytes).1] }) := rfl
    have hcloses : ∀ u, Alike { t with wire := t.wire ++ [.write bytes (Node.write t.io bytes).1] } u →
        Closes s (written bytes (Node.write t.io bytes).1) u := by
      intro u hu
      rw [ht] at hu ⊢
      exact .wrote hclosed hread hu
    cases hwritten : written bytes (Node.write t.io bytes).1 with
    | ok _ =>
      rw [hemit, hwritten]
      rw [hwritten] at hcloses
      exact ⟨_, _, rfl, hcloses _ ⟨rfl, rfl, rfl, rfl, rfl, rfl⟩⟩
    | error error =>
      rw [hemit, hwritten]
      rw [hwritten] at hcloses
      exact ⟨_, _, rfl, hcloses _ ⟨rfl, rfl, rfl, rfl, rfl, rfl⟩⟩

end Effects

section Wire

open Runs

/-- What may cross the wire next: `slot` is the request that waits for its reply. -/
inductive Line where
  | open (slot : PendingRequest)
  | closed
  deriving DecidableEq

def asked (outcome : ReadOutcome) : PendingRequest := (received outcome).toOption.bind asks

/-- Nothing is read while a request waits, only a reply to that request may be written, and once
it is written in full it may not be written again. -/
def Line.Step (l : Line) (x : Exchange) (l' : Line) : Prop :=
  match x with
  | .read outcome => l = .open none ∧ l' = .open (asked outcome)
  | .write event outcome =>
    match readWritten event with
    | some (.reply kr) =>
      l = .open (some (kr.id, kr.get)) ∧
        l' = .open (if written event outcome = .ok () then none else some (kr.id, kr.get))
    | some .destroy => l ≠ .closed ∧ l' = .closed
    | _ => l ≠ .closed ∧ l' = l

def kernelEvents (wire : List Exchange) : List Event :=
  wire.filterMap fun x => match x with
    | .read outcome => (received outcome).toOption
    | .write _ _ => none

/-- The requests of the kernel, in the order in which it made them. -/
def requests (wire : List Exchange) : List (UInt32 × Bool) := (kernelEvents wire).filterMap asks

/-- The replies that the kernel took in full. -/
def replies (wire : List Exchange) : List KernelReply :=
  wire.filterMap fun x => match x with
    | .read _ => none
    | .write event outcome =>
      if written event outcome = .ok () then
        match readWritten event with
        | some (.reply kr) => some kr
        | _ => none
      else none

/-- The input reports that the kernel took in full. -/
def inputs (wire : List Exchange) : List (List UInt8) :=
  wire.filterMap fun x => match x with
    | .read _ => none
    | .write event outcome =>
      if written event outcome = .ok () then
        match readWritten event with
        | some (.input data) => some data
        | _ => none
      else none

def Line.slot : Line → PendingRequest
  | .open slot => slot
  | .closed => none

variable {wire wire' : List Exchange} {l l' : Line} {x : Exchange}

@[simp] theorem kernelEvents_append :
    kernelEvents (wire ++ wire') = kernelEvents wire ++ kernelEvents wire' := List.filterMap_append

@[simp] theorem requests_append : requests (wire ++ wire') = requests wire ++ requests wire' := by
  simp [requests]

@[simp] theorem replies_append : replies (wire ++ wire') = replies wire ++ replies wire' :=
  List.filterMap_append

@[simp] theorem inputs_append : inputs (wire ++ wire') = inputs wire ++ inputs wire' :=
  List.filterMap_append

def question (kr : KernelReply) : UInt32 × Bool := (kr.id, kr.get)

/-- The requests are those answered, in order, and at the end at most one more. -/
structure Dialogue (wire : List Exchange) (l : Line) : Prop where
  waiting : ∀ slot, l = .open slot →
    requests wire = (replies wire).map question ++ slot.toList
  answered : ∃ slot : PendingRequest,
    requests wire = (replies wire).map question ++ slot.toList

theorem requests_read (outcome : ReadOutcome) :
    requests [.read outcome] = (asked outcome).toList := by
  unfold requests kernelEvents asked
  cases h : (received outcome).toOption with
  | none => simp [h]
  | some event => cases ha : asks event <;> simp [h, ha]

theorem replies_reply {kr : KernelReply} {event : List UInt8} (outcome : WriteOutcome)
    (hread : readWritten event = some (.reply kr)) :
    replies [.write event outcome] = if written event outcome = .ok () then [kr] else [] := by
  by_cases hwritten : written event outcome = .ok ()
  · simp [replies, hwritten, hread]
  · simp [replies, hwritten]

theorem replies_silent {event : List UInt8} (outcome : WriteOutcome)
    (hread : ∀ kr, readWritten event ≠ some (.reply kr)) : replies [.write event outcome] = [] := by
  unfold replies
  cases hevent : readWritten event with
  | none => simp [hevent]
  | some w =>
    cases w with
    | reply kr => exact absurd hevent (hread kr)
    | create device => simp [hevent]
    | input data => simp [hevent]
    | destroy => simp [hevent]

theorem inputs_input {data event : List UInt8} (outcome : WriteOutcome)
    (hread : readWritten event = some (.input data)) :
    inputs [.write event outcome] = if written event outcome = .ok () then [data] else [] := by
  by_cases hwritten : written event outcome = .ok ()
  · simp [inputs, hwritten, hread]
  · simp [inputs, hwritten]

theorem inputs_silent {event : List UInt8} (outcome : WriteOutcome)
    (hread : ∀ data, readWritten event ≠ some (.input data)) :
    inputs [.write event outcome] = [] := by
  unfold inputs
  cases hevent : readWritten event with
  | none => simp [hevent]
  | some w =>
    cases w with
    | input data => exact absurd hevent (hread data)
    | create device => simp [hevent]
    | reply kr => simp [hevent]
    | destroy => simp [hevent]

/-- A write that is no reply leaves the dialogue as it is. -/
theorem Dialogue.silent (h : Dialogue wire l) {event : List UInt8} {outcome : WriteOutcome}
    (hread : ∀ kr, readWritten event ≠ some (.reply kr)) (hslot : ∀ slot, l' = .open slot → l = l') :
    Dialogue (wire ++ [.write event outcome]) l' := by
  have hreplies : replies [.write event outcome] = [] := replies_silent outcome hread
  have hrequests : requests [.write event outcome] = [] := rfl
  constructor
  · rintro slot hl'
    simpa [hreplies, hrequests] using h.waiting slot ((hslot slot hl').trans hl')
  · simpa [hreplies, hrequests] using h.answered

/-- A reply to the request that waits. -/
theorem Dialogue.reply {kr : KernelReply} (h : Dialogue wire (.open (some (question kr))))
    {event : List UInt8} {outcome : WriteOutcome} (hread : readWritten event = some (.reply kr)) :
    Dialogue (wire ++ [.write event outcome])
      (.open (if written event outcome = .ok () then none else some (question kr))) := by
  have hwaiting := h.waiting _ rfl
  have hrequests : requests (wire ++ [.write event outcome]) =
      (replies (wire ++ [.write event outcome])).map question ++
        (if written event outcome = .ok () then none else some (question kr) : PendingRequest).toList := by
    have hnone : requests [.write event outcome] = [] := rfl
    rw [requests_append, hnone, hwaiting, replies_append, replies_reply outcome hread]
    by_cases hwritten : written event outcome = .ok ()
    · simp [hwritten]
    · simp [hwritten]
  refine ⟨?_, _, hrequests⟩
  rintro slot ⟨⟩
  exact hrequests

theorem step_dialogue (h : Dialogue wire l) (st : Line.Step l x l') :
    Dialogue (wire ++ [x]) l' := by
  cases x with
  | read outcome =>
    obtain ⟨rfl, rfl⟩ := st
    have hwaiting := h.waiting none rfl
    have hrequests : requests (wire ++ [.read outcome]) =
        (replies (wire ++ [.read outcome])).map question ++ (asked outcome).toList := by
      rw [requests_append, requests_read, hwaiting]
      simp [replies]
    refine ⟨?_, _, hrequests⟩
    rintro slot ⟨⟩
    exact hrequests
  | write event outcome =>
    unfold Line.Step at st
    cases hread : readWritten event with
    | none =>
      simp only [hread] at st
      exact h.silent (by simp [hread]) (fun _ _ => st.2.symm)
    | some w =>
      cases w with
      | reply kr =>
        simp only [hread] at st
        obtain ⟨rfl, rfl⟩ := st
        exact h.reply hread
      | destroy =>
        simp only [hread] at st
        exact h.silent (by simp [hread]) (by simp [st.2])
      | create device =>
        simp only [hread] at st
        exact h.silent (by simp [hread]) (fun _ _ => st.2.symm)
      | input data =>
        simp only [hread] at st
        exact h.silent (by simp [hread]) (fun _ _ => st.2.symm)

theorem run_dialogue (h : Run Line.Step (.open none) wire l) : Dialogue wire l := by
  induction h with
  | nil =>
    refine ⟨?_, none, rfl⟩
    rintro slot ⟨⟩
    rfl
  | snoc _ st ih => exact step_dialogue ih st

end Wire

section Sessions

open Runs

variable {K : Type} {s s' : Session K}

/-- What the session takes the wire to wait for. -/
def Session.line (s : Session K) : Line :=
  if s.state = .closed then .closed else .open s.pendingRequest

/-- The wire of a session is a run of the dialogue, up to what the session holds. -/
def Lined (s : Session K) : Prop := Run Line.Step (.open none) s.wire s.line

theorem Alike.line (h : Alike s s') : s'.line = s.line := by
  unfold Session.line
  rw [h.state, h.pending]

theorem Alike.lined (h : Alike s s') (hs : Lined s) : Lined s' := by
  unfold Lined
  rw [h.wire, h.line]
  exact hs

theorem line_live (h : s.state ≠ .closed) : s.line = .open s.pendingRequest := if_neg h

theorem line_open (h : s.state = .open) : s.line = .open s.pendingRequest :=
  line_live (by simp [h])

theorem line_closed (h : s.state = .closed) : s.line = .closed := if_pos h

/-- One exchange, after which the session holds what the dialogue waits for. -/
theorem Lined.snoc {x : Exchange} (hs : Lined s) (hwire : s'.wire = s.wire ++ [x])
    (st : Line.Step s.line x s'.line) : Lined s' := by
  unfold Lined
  rw [hwire]
  exact Run.snoc hs st

theorem lined_new (io : K) (id : ℕ) (spec : NativeHidRealization) : Lined (Session.new io id spec) :=
  Run.nil

theorem replies_lined {kr : KernelReply} {r : Except ProviderError Unit} (hs : Lined s)
    (h : Replies s kr r s') : Lined s' := by
  cases h with
  | refused _ halike => exact halike.lined hs
  | @wrote event outcome _ hopen hpending hread halike =>
    refine hs.snoc halike.wire ?_
    rw [line_open hopen, line_open (halike.state.trans hopen), halike.pending]
    unfold Line.Step
    simp only [hread]
    exact ⟨congrArg Line.open hpending, by simp only [slotAfter, hpending]⟩

theorem inputs_lined {data : List UInt8} {r : Except ProviderError Unit} (hs : Lined s)
    (h : Inputs s data r s') : Lined s' := by
  cases h with
  | refused _ halike => exact halike.lined hs
  | wrote hopen hread halike =>
    refine hs.snoc halike.wire ?_
    rw [line_open hopen, line_open (halike.state.trans hopen), halike.pending]
    unfold Line.Step
    simp only [hread]
    exact ⟨by simp, trivial⟩

theorem hear_pending (s : Session K) (event : Event) (h : s.pendingRequest = none) :
    (s.hear event).pendingRequest = asks event := by
  rcases event with _ | _ | _ | (_ | _ | _ | _)
  all_goals first | rfl | exact h

theorem hear_frame (s : Session K) (event : Event) :
    (s.hear event).state = s.state ∧ (s.hear event).wire = s.wire := by
  rcases event with _ | _ | _ | (_ | _ | _ | _)
  all_goals exact ⟨rfl, rfl⟩

theorem heard_lined {event : Event} {outcome : ReadOutcome} (hs : Lined s) (hopen : s.state = .open)
    (hpending : s.pendingRequest = none) (hreceived : received outcome = .ok event)
    (halike : Alike (Session.hear { s with wire := s.wire ++ [.read outcome] } event) s') :
    Lined s' := by
  have hframe := hear_frame { s with wire := s.wire ++ [.read outcome] } event
  have hheard := hear_pending { s with wire := s.wire ++ [.read outcome] } event hpending
  refine hs.snoc (halike.wire.trans hframe.2) ?_
  rw [line_open hopen, line_open ((halike.state.trans hframe.1).trans hopen), halike.pending, hheard]
  exact ⟨congrArg Line.open hpending, by simp [asked, hreceived, Except.toOption]⟩

theorem closes_lined {r : Except ProviderError Unit} (hs : Lined s) (h : Closes s r s') :
    Lined s' := by
  cases h with
  | again _ => exact hs
  | wrote hclosed hread halike =>
    refine hs.snoc halike.wire ?_
    rw [line_live hclosed, line_closed halike.state]
    unfold Line.Step
    simp only [hread]
    exact ⟨by simp, trivial⟩

end Sessions

end UhidSession
