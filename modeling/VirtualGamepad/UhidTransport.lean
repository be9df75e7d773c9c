import VirtualGamepad.HidRuntime
import VirtualGamepad.UhidSession

/-! The adapter between the provider's session and a HID session: it gives the kernel's requests
tokens, splits reports by their numbering, and answers what is framed wrongly itself. Session and
adapter each keep a slot for the unanswered request and a copy of the numbering. -/
namespace UhidTransport

open ControllerContract Fallible MachineInt HidRuntime UhidEvents UhidSession

structure Numbered where
  input : Bool
  output : Bool
  feature : Bool
  deriving DecidableEq, Repr

structure HidTransport (K : Type) where
  session : Session K
  id : ℕ
  ordinal : ℕ
  pending : Option (RequestId × UInt32)
  numbered : Numbered
  closed : Bool

variable {K : Type}

def HidTransport.fromSession (session : Session K) (id : ℕ) (numbered : Numbered) :
    HidTransport K where
  session := session
  id := id
  ordinal := 0
  pending := none
  numbered := numbered
  closed := false

def kindOf (value : UInt8) : ReportType :=
  if value = 0 then .feature else if value = 1 then .output else if value = 2 then .input
  else .other value

def Numbered.of (numbered : Numbered) : ReportType → Bool
  | .input => numbered.input
  | .output => numbered.output
  | .feature => numbered.feature
  | .other _ => false

/-- Tokens count up, so that a kernel id that comes again is a new request. -/
def token (kernelId : UInt32) : Action Error (HidTransport K) RequestId := do
  let t ← get
  if t.pending.isSome then fail .invalidRequest
  else
    match checkedAdd t.ordinal 1 with
    | none => fail .invalidRequest
    | some ordinal => do
      modify fun t => { t with ordinal, pending := some (⟨t.id, ordinal⟩, kernelId) }
      pure ⟨t.id, ordinal⟩

def status : Except ReplyError Unit → Int16
  | .ok () => 0
  | .error .unsupported => -95
  | .error .invalid => -22
  | .error .busy => -16

def replyFrame (requestId : UInt32) : Reply → ProviderFrame
  | .get (.ok report) => .hidGetReportReply requestId (status (.ok ())) report.wire
  | .get (.error error) => .hidGetReportReply requestId (status (.error error)) []
  | .set result => .hidSetReportReply requestId (status result)

def delivery : Except ProviderError Unit → Delivery
  | .ok () => .submitted
  | .error .wouldBlock => .definitelyUnsent
  | .error _ => .uncertain

section Operations

variable [Node K]

def submit (t : HidTransport K) : Command → Delivery × HidTransport K
  | .input report =>
    if report.kind = .input then
      let (result, session) := send (.hidInput report.id report.payload) t.session
      (delivery result, { t with session })
    else (.uncertain, t)
  | .reply token reply =>
    match t.pending with
    | none => (.uncertain, t)
    | some (expected, requestId) =>
      if token ≠ expected then (.uncertain, t)
      else
        let (result, session) := send (replyFrame requestId reply) t.session
        (delivery result, { t with
          session
          pending := if result = .ok () then none else t.pending })

/-- Wrong framing never reaches a personality. An answer that is not taken ends the session. -/
def refuse (token : RequestId) : Action Error (HidTransport K) (Option HostEvent) := fun t =>
  let (outcome, t) := submit t (.reply token (.set (.error .invalid)))
  (if outcome = .submitted then .ok none else .error .transport, t)

def onLifecycle (event : Lifecycle) (t : HidTransport K) : HidTransport K :=
  match event with
  | .start input output feature => { t with numbered := ⟨input, output, feature⟩ }
  | _ => t

/-- A report number of zero stands for an unnumbered report. -/
def accept : RawReverseEvent → Action Error (HidTransport K) (Option HostEvent)
  | .hidLifecycle event => do
    modify (onLifecycle event)
    pure (some (.lifecycle event))
  | .hidOutput reportId bytes => do
    let report ← lift (Report.new .output reportId bytes)
    pure (some (.output report))
  | .hidGetReportRequest requestId reportId reportType => do
    let t ← get
    let kind := kindOf reportType
    let token ← token requestId
    pure (some (.request ⟨token, .get kind (if t.numbered.of kind then some reportId else none)⟩))
  | .hidSetReportRequest requestId reportId reportType bytes => do
    let t ← get
    let kind := kindOf reportType
    let token ← token requestId
    match Report.fromWire kind (t.numbered.of kind) bytes with
    | .ok report =>
      if report.id.getD 0 = reportId then pure (some (.request ⟨token, .set report⟩))
      else refuse token
    | .error _ => refuse token
  | _ => fail .transport

def event : Action Error (HidTransport K) (Option HostEvent) := fun t =>
  match drainReverseEvents t.session with
  | (.error .wouldBlock, session) => (.ok none, { t with session })
  | (.error _, session) => (.error .transport, { t with session })
  | (.ok events, session) =>
    match events.getLast? with
    | none => (.ok none, { t with session })
    | some event =>
      if 1 < events.length ∨ event.session ≠ t.id then (.error .transport, { t with session })
      else accept event.event { t with session }

def close : Action Error (HidTransport K) Unit := fun t =>
  if t.closed then (.ok (), t)
  else
    let (result, session) := UhidSession.close t.session
    (if result = .ok () then .ok () else .error .transport,
      { t with session, pending := none, closed := true })

/-- Opening creates the device and starts with the numbering of its specification. -/
def openTransport (io : K) (id : ℕ) (specification : NativeHidRealization) :
    Except ProviderError (HidTransport K) :=
  (Session.open io id specification).map fun session =>
    .fromSession session id ⟨specification.numberedInputReports,
      specification.numberedOutputReports, specification.numberedFeatureReports⟩

instance : Transport (HidTransport K) where
  readiness t := .descriptor (Node.descriptor t.session.io)
  event := event
  submit := submit
  close := close

end Operations

section Interpretation

/-- What the adapter remembers of the events of the kernel. -/
structure Reading where
  numbered : Numbered
  ordinal : ℕ
  deriving DecidableEq

inductive Verdict where
  | deliver (event : HostEvent)
  | refuse (token : RequestId)
  | fail (error : Error)
  deriving DecidableEq

/-- The numbering of the last START. -/
def Numbered.hear (numbered : Numbered) : Lifecycle → Numbered
  | .start input output feature => ⟨input, output, feature⟩
  | _ => numbered

/-- A report is read by the numbering of its kind. -/
def outputVerdict (r : Reading) (bytes : List UInt8) : Verdict :=
  match Report.fromWire .output r.numbered.output bytes with
  | .ok report => .deliver (.output report)
  | .error _ => .fail (if r.numbered.output ∧ bytes = [] then .transport else .framing)

def getVerdict (token : RequestId) (r : Reading) (reportId reportType : UInt8) : Verdict :=
  .deliver (.request ⟨token, .get (kindOf reportType)
    (if r.numbered.of (kindOf reportType) then some reportId else none)⟩)

def setVerdict (token : RequestId) (r : Reading) (reportId reportType : UInt8)
    (bytes : List UInt8) : Verdict :=
  match Report.fromWire (kindOf reportType) (r.numbered.of (kindOf reportType)) bytes with
  | .ok report =>
    if report.id.getD 0 = reportId then .deliver (.request ⟨token, .set report⟩) else .refuse token
  | .error _ => .refuse token

/-- The meaning of the kernel's events, one after the other: what each becomes for the HID session,
and the reading of those that follow. -/
def interpret (session : ℕ) (r : Reading) : Event → Verdict × Reading
  | .output bytes => (outputVerdict r bytes, r)
  | .get _ reportId reportType =>
    if r.ordinal = u64Max then (.fail .invalidRequest, r)
    else
      (getVerdict ⟨session, r.ordinal + 1⟩ r reportId reportType,
        { r with ordinal := r.ordinal + 1 })
  | .set _ reportId reportType bytes =>
    if r.ordinal = u64Max then (.fail .invalidRequest, r)
    else
      (setVerdict ⟨session, r.ordinal + 1⟩ r reportId reportType bytes,
        { r with ordinal := r.ordinal + 1 })
  | .lifecycle event => (.deliver (.lifecycle event), { r with numbered := r.numbered.hear event })

/-- The reading behind a sequence of events. -/
def readingAfter (session : ℕ) (r : Reading) (events : List Event) : Reading :=
  events.foldl (fun r event => (interpret session r event).2) r

def verdicts (session : ℕ) : Reading → List Event → List Verdict
  | _, [] => []
  | r, event :: events =>
    (interpret session r event).1 :: verdicts session (interpret session r event).2 events

def HidTransport.reading (t : HidTransport K) : Reading := ⟨t.numbered, t.ordinal⟩

/-- The request slot after an event; a token that cannot be made leaves it as it is. -/
def HidTransport.slotFor (t : HidTransport K) (event : Event) : Option (RequestId × UInt32) :=
  match asks event with
  | none => t.pending
  | some (kernelId, _) =>
    if t.ordinal = u64Max then t.pending else some (⟨t.id, t.ordinal + 1⟩, kernelId)

def HidTransport.take (t : HidTransport K) (event : Event) : HidTransport K :=
  { t with
    numbered := (interpret t.id t.reading event).2.numbered
    ordinal := (interpret t.id t.reading event).2.ordinal
    pending := t.slotFor event }

variable [Node K]

def Verdict.run : Verdict → Action Error (HidTransport K) (Option HostEvent)
  | .deliver event => pure (some event)
  | .refuse token => UhidTransport.refuse token
  | .fail error => Fallible.fail error

variable {t : HidTransport K}

omit [Node K] in
theorem token_eq (kernelId : UInt32) (h : t.pending = none) (hbound : t.ordinal ≤ u64Max) :
    token kernelId t =
      if t.ordinal = u64Max then (.error .invalidRequest, t)
      else (.ok ⟨t.id, t.ordinal + 1⟩, { t with
        ordinal := t.ordinal + 1
        pending := some (⟨t.id, t.ordinal + 1⟩, kernelId) }) := by
  unfold token
  rw [get_bind_run, if_neg (by simp [h])]
  by_cases hfull : t.ordinal = u64Max
  · have hnone : checkedAdd t.ordinal 1 = none := if_neg (by omega)
    rw [if_pos hfull, hnone]
    rfl
  · have hsome : checkedAdd t.ordinal 1 = some (t.ordinal + 1) := if_pos (by omega)
    rw [if_neg hfull, hsome]
    rfl

omit [Node K] in
/-- Without a token to give, a request changes nothing. -/
theorem take_full {event : Event} {kernelId : UInt32} {isGet : Bool}
    (h : asks event = some (kernelId, isGet)) (hfull : t.ordinal = u64Max) :
    interpret t.id t.reading event = (.fail .invalidRequest, t.reading) ∧ t.take event = t := by
  have hinterpret : interpret t.id t.reading event = (.fail .invalidRequest, t.reading) := by
    cases event with
    | output bytes => simp [asks] at h
    | get id reportId reportType => exact if_pos hfull
    | set id reportId reportType bytes => exact if_pos hfull
    | lifecycle event => simp [asks] at h
  refine ⟨hinterpret, ?_⟩
  unfold HidTransport.take HidTransport.slotFor
  rw [hinterpret, h]
  simp only [hfull, if_true]
  rfl

omit [Node K] in
theorem interpret_get (kernelId : UInt32) (reportId reportType : UInt8)
    (hfull : t.ordinal ≠ u64Max) :
    interpret t.id t.reading (.get kernelId reportId reportType) =
      (getVerdict ⟨t.id, t.ordinal + 1⟩ t.reading reportId reportType,
        { t.reading with ordinal := t.ordinal + 1 }) := if_neg hfull

omit [Node K] in
theorem interpret_set (kernelId : UInt32) (reportId reportType : UInt8) (bytes : List UInt8)
    (hfull : t.ordinal ≠ u64Max) :
    interpret t.id t.reading (.set kernelId reportId reportType bytes) =
      (setVerdict ⟨t.id, t.ordinal + 1⟩ t.reading reportId reportType bytes,
        { t.reading with ordinal := t.ordinal + 1 }) := if_neg hfull

omit [Node K] in
/-- A request takes the next token. -/
theorem take_request {event : Event} {kernelId : UInt32} {isGet : Bool}
    (h : asks event = some (kernelId, isGet)) (hfull : t.ordinal ≠ u64Max) :
    t.take event = { t with
      ordinal := t.ordinal + 1
      pending := some (⟨t.id, t.ordinal + 1⟩, kernelId) } := by
  have hreading : (interpret t.id t.reading event).2 =
      { t.reading with ordinal := t.ordinal + 1 } := by
    cases event with
    | output bytes => simp [asks] at h
    | get id reportId reportType => rw [interpret_get id reportId reportType hfull]
    | set id reportId reportType bytes => rw [interpret_set id reportId reportType bytes hfull]
    | lifecycle event => simp [asks] at h
  unfold HidTransport.take HidTransport.slotFor
  rw [hreading, h]
  simp only [hfull, if_false]
  rfl

omit [Node K] in
/-- What the session split by its numbering is what the adapter would split by its own. -/
theorem output_split {bytes : List UInt8} {raw : RawReverseEvent}
    (hraw : rawEvent t.numbered.output (.output bytes) = some raw) :
    ∃ reportId payload, raw = .hidOutput reportId payload ∧
      Report.fromWire .output t.numbered.output bytes = Report.new .output reportId payload ∧
      ¬ (t.numbered.output = true ∧ bytes = []) := by
  by_cases hnumbered : t.numbered.output
  · cases bytes with
    | nil => simp [rawEvent, hnumbered] at hraw
    | cons reportId payload =>
      simp only [rawEvent, hnumbered, if_true, Option.some.injEq] at hraw
      refine ⟨some reportId, payload, hraw.symm, ?_, by simp⟩
      simp only [Report.fromWire, hnumbered, if_true]
  · simp only [rawEvent, hnumbered, Bool.false_eq_true, if_false, Option.some.injEq] at hraw
    refine ⟨none, bytes, hraw.symm, ?_, by simp [hnumbered]⟩
    simp only [Report.fromWire, hnumbered, Bool.false_eq_true, if_false]

theorem accept_output (reportId : Option UInt8) (payload : List UInt8) (t : HidTransport K) :
    accept (.hidOutput reportId payload) t =
      ((Report.new .output reportId payload).map fun report => some (.output report), t) := by
  change (do
    let report ← lift (Report.new .output reportId payload)
    pure (some (.output report)) : Action Error (HidTransport K) (Option HostEvent)) t = _
  cases Report.new .output reportId payload with
  | error error => rfl
  | ok report => rfl

theorem new_error {kind : ReportType} {id : Option UInt8} {payload : List UInt8} {error : Error}
    (h : Report.new kind id payload = .error error) : error = .framing := by
  unfold Report.new at h
  split at h
  · cases h
  · cases h
    rfl

theorem accept_eq {event : Event} {raw : RawReverseEvent}
    (hraw : rawEvent t.numbered.output event = some raw) (hpending : t.pending = none)
    (hbound : t.ordinal ≤ u64Max) :
    accept raw t = (interpret t.id t.reading event).1.run (t.take event) := by
  cases event with
  | output bytes =>
    obtain ⟨reportId, payload, rfl, hsplit, hnonempty⟩ := output_split hraw
    change _ = (outputVerdict t.reading bytes).run t
    unfold outputVerdict
    rw [accept_output, HidTransport.reading, hsplit]
    cases hnew : Report.new .output reportId payload with
    | error error =>
      obtain rfl := new_error hnew
      simp only [hnonempty, if_false]
      rfl
    | ok report => rfl
  | get kernelId reportId reportType =>
    obtain rfl := Option.some.inj hraw
    have htoken := token_eq kernelId hpending hbound
    change (do
      let token ← token kernelId
      pure (some (.request ⟨token, .get (kindOf reportType)
        (if t.numbered.of (kindOf reportType) then some reportId else none)⟩))
        : Action Error (HidTransport K) (Option HostEvent)) t = _
    by_cases hfull : t.ordinal = u64Max
    · obtain ⟨hinterpret, htake⟩ :=
        take_full (show asks (.get kernelId reportId reportType) = some (kernelId, true) from rfl) hfull
      rw [if_pos hfull] at htoken
      rw [bind_run_error htoken, hinterpret, htake]
      rfl
    · have htake := take_request
        (show asks (.get kernelId reportId reportType) = some (kernelId, true) from rfl) hfull
      rw [if_neg hfull] at htoken
      rw [bind_run_ok htoken, interpret_get kernelId reportId reportType hfull, htake]
      rfl
  | set kernelId reportId reportType bytes =>
    obtain rfl := Option.some.inj hraw
    have htoken := token_eq kernelId hpending hbound
    change (do
      let token ← token kernelId
      match Report.fromWire (kindOf reportType) (t.numbered.of (kindOf reportType)) bytes with
      | .ok report =>
        if report.id.getD 0 = reportId then pure (some (.request ⟨token, .set report⟩))
        else refuse token
      | .error _ => refuse token
        : Action Error (HidTransport K) (Option HostEvent)) t = _
    by_cases hfull : t.ordinal = u64Max
    · obtain ⟨hinterpret, htake⟩ := take_full
        (show asks (.set kernelId reportId reportType bytes) = some (kernelId, false) from rfl) hfull
      rw [if_pos hfull] at htoken
      rw [bind_run_error htoken, hinterpret, htake]
      rfl
    · have htake := take_request
        (show asks (.set kernelId reportId reportType bytes) = some (kernelId, false) from rfl) hfull
      rw [if_neg hfull] at htoken
      rw [bind_run_ok htoken, interpret_set kernelId reportId reportType bytes hfull, htake]
      unfold setVerdict
      rw [HidTransport.reading]
      cases Report.fromWire (kindOf reportType) (t.numbered.of (kindOf reportType)) bytes with
      | error error => rfl
      | ok report =>
        by_cases hid : report.id.getD 0 = reportId
        · simp only [hid, if_true]
          rfl
        · simp only [hid, if_false]
          rfl
  | lifecycle event =>
    obtain rfl := Option.some.inj hraw
    rcases event with _ | _ | _ | _
    all_goals rfl

end Interpretation

section Agreement

variable {t t' : HidTransport K}

/-- The reply to a kernel request as the kernel is to read it. -/
def kernelReply (kernelId : UInt32) : Reply → KernelReply
  | .get (.ok report) => ⟨kernelId, true, 0, report.wire⟩
  | .get (.error error) => ⟨kernelId, true, status (.error error), []⟩
  | .set result => ⟨kernelId, false, status result, []⟩

@[simp] theorem kernelReply_id (kernelId : UInt32) (reply : Reply) :
    (kernelReply kernelId reply).id = kernelId := by
  rcases reply with (_ | _) | _
  all_goals rfl

/-- The two layers hold the same request and the same numbering. Only after the last token is
spent may the session hold a request for which the adapter holds none. -/
structure Agrees (t : HidTransport K) : Prop where
  id : t.session.id = t.id
  state : t.session.state = if t.closed then .closed else .open
  input : t.session.numberedInputReports = t.numbered.input
  output : t.session.numberedOutputReports = t.numbered.output
  bound : t.ordinal ≤ u64Max
  lined : Lined t.session
  held : ∀ token kernelId, t.pending = some (token, kernelId) →
    token = ⟨t.id, t.ordinal⟩ ∧ ∃ isGet, t.session.pendingRequest = some (kernelId, isGet)
  free : t.pending = none → t.session.pendingRequest = none ∨ t.ordinal = u64Max

/-- The effects of a submission: nothing is written, or one event is. -/
inductive Submits (t : HidTransport K) : Command → Delivery → HidTransport K → Prop
  | refused {command s'} : Alike t.session s' →
    Submits t command .uncertain { t with session := s' }
  | input {report bytes outcome s'} : report.kind = .input → t.session.state = .open →
    readWritten bytes = some (.input report.wire) →
    Alike { t.session with wire := t.session.wire ++ [.write bytes outcome] } s' →
    Submits t (.input report) (delivery (written bytes outcome)) { t with session := s' }
  | reply {token reply kernelId bytes outcome s'} : t.pending = some (token, kernelId) →
    t.session.state = .open →
    t.session.pendingRequest = some (question (kernelReply kernelId reply)) →
    readWritten bytes = some (.reply (kernelReply kernelId reply)) →
    Alike { t.session with
      pendingRequest := slotAfter t.session bytes outcome
      wire := t.session.wire ++ [.write bytes outcome] } s' →
    Submits t (.reply token reply) (delivery (written bytes outcome)) { t with
      session := s'
      pending := if written bytes outcome = .ok () then none else t.pending }

variable [Node K]

theorem send_replyFrame (kernelId : UInt32) (reply : Reply) (s : Session K) :
    ∃ r s', send (replyFrame kernelId reply) s = (r, s') ∧
      Replies s (kernelReply kernelId reply) r s' := by
  rcases reply with (error | report) | result
  · exact send_getReply kernelId _ _ s
  · exact send_getReply kernelId _ _ s
  · exact send_setReply kernelId _ s

omit [Node K] in
theorem delivery_error {error : ProviderError} (h : error ≠ .wouldBlock) :
    delivery (.error error) = .uncertain := by
  cases error with
  | wouldBlock => exact absurd rfl h
  | _ => rfl

theorem submit_effect (t : HidTransport K) (command : Command) :
    ∃ d t', submit t command = (d, t') ∧ Submits t command d t' := by
  cases command with
  | input report =>
    unfold submit
    by_cases hkind : report.kind = .input
    case neg => exact ⟨_, _, if_neg hkind, .refused (.refl _)⟩
    simp only [hkind, if_true]
    obtain ⟨r, s', hsend, heffect⟩ := send_input report.id report.payload t.session
    rw [hsend]
    refine ⟨_, _, rfl, ?_⟩
    cases heffect with
    | refused herror halike =>
      rw [delivery_error herror]
      exact .refused halike
    | wrote hopen hread halike => exact .input hkind hopen hread halike
  | reply token reply =>
    unfold submit
    cases hpending : t.pending with
    | none => exact ⟨_, _, rfl, .refused (.refl _)⟩
    | some held =>
      obtain ⟨expected, kernelId⟩ := held
      by_cases htoken : token = expected
      case neg =>
        simp only [ne_eq, htoken, not_false_eq_true, if_true]
        exact ⟨_, _, rfl, .refused (.refl _)⟩
      subst htoken
      obtain ⟨r, s', hsend, heffect⟩ := send_replyFrame kernelId reply t.session
      simp only [ne_eq, not_true_eq_false, if_false, hsend]
      refine ⟨_, _, rfl, ?_⟩
      cases heffect with
      | refused herror halike =>
        rw [delivery_error herror]
        simp only [reduceCtorEq, if_false]
        rw [← hpending]
        exact .refused halike
      | wrote hopen hslot hread halike =>
        rw [← hpending]
        exact .reply hpending hopen hslot hread halike

omit [Node K] in
/-- Another session in the place of the old one, with the request slot as it was. -/
theorem Agrees.session (h : Agrees t) {s s' : Session K}
    (halike : Alike s s') (hs : Alike { t.session with wire := s.wire } s) (hlined : Lined s') :
    Agrees { t with session := s' } := by
  have hkept := hs.trans halike
  refine ⟨hkept.id.trans h.id, hkept.state.trans h.state, hkept.input.trans h.input,
    hkept.output.trans h.output, h.bound, hlined, ?_, ?_⟩
  · intro token kernelId hp
    obtain ⟨htoken, isGet, hslot⟩ := h.held token kernelId hp
    exact ⟨htoken, isGet, hkept.pending.trans hslot⟩
  · intro hp
    rcases h.free hp with hslot | hfull
    · exact .inl (hkept.pending.trans hslot)
    · exact .inr hfull

omit [Node K] in
theorem submits_agrees {command : Command} {d : Delivery} (h : Agrees t)
    (hsubmit : Submits t command d t') : Agrees t' := by
  cases hsubmit with
  | refused halike => exact h.session halike (.refl _) (halike.lined h.lined)
  | input hkind hopen hread halike =>
    exact h.session halike (.refl _) (inputs_lined h.lined (.wrote hopen hread halike))
  | @reply token reply kernelId bytes outcome s' hpending hopen hslot hread halike =>
    have hlined : Lined s' := replies_lined h.lined (.wrote hopen hslot hread halike)
    obtain ⟨htoken, -⟩ := h.held token kernelId hpending
    refine ⟨halike.id.trans h.id, halike.state.trans h.state, halike.input.trans h.input,
      halike.output.trans h.output, h.bound, hlined, ?_, ?_⟩
    · intro token' kernelId' hp
      by_cases hwritten : written bytes outcome = .ok ()
      · simp [hwritten] at hp
      · simp only [hwritten, if_false, hpending, Option.some.injEq, Prod.mk.injEq] at hp
        obtain ⟨rfl, rfl⟩ := hp
        have hkept : slotAfter t.session bytes outcome = t.session.pendingRequest := if_neg hwritten
        rw [question, kernelReply_id] at hslot
        exact ⟨htoken, _, halike.pending.trans (hkept.trans hslot)⟩
    · intro hp
      by_cases hwritten : written bytes outcome = .ok ()
      · have hfreed : slotAfter t.session bytes outcome = none := if_pos hwritten
        exact .inl (halike.pending.trans hfreed)
      · simp [hwritten, hpending] at hp

omit [Node K] in
/-- A request that the session took is in both slots, unless there is no token for it. -/
theorem take_request_agrees {event : Event} {kernelId : UInt32} {isGet : Bool} {s' : Session K}
    (h : Agrees t) (hasks : asks event = some (kernelId, isGet)) (hpending : t.pending = none)
    (hlined : Lined s') (halike : Alike { t.session with
      pendingRequest := some (kernelId, isGet), wire := s'.wire } s') :
    Agrees ({ t with session := s' }.take event) := by
  have hslot : s'.pendingRequest = some (kernelId, isGet) := halike.pending
  by_cases hfull : t.ordinal = u64Max
  · rw [(take_full (t := { t with session := s' }) hasks hfull).2]
    refine ⟨halike.id.trans h.id, halike.state.trans h.state, halike.input.trans h.input,
      halike.output.trans h.output, h.bound, hlined, ?_, fun _ => .inr hfull⟩
    intro token kernelId' hp
    rw [hpending] at hp
    cases hp
  · have hbound := h.bound
    rw [take_request (t := { t with session := s' }) hasks hfull]
    refine ⟨halike.id.trans h.id, halike.state.trans h.state, halike.input.trans h.input,
      halike.output.trans h.output, by simp only; omega, hlined, ?_, by simp⟩
    intro token kernelId' hp
    simp only [Option.some.injEq, Prod.mk.injEq] at hp
    obtain ⟨rfl, rfl⟩ := hp
    exact ⟨rfl, isGet, hslot⟩

omit [Node K] in
/-- An event that the session took is one that the adapter takes the same way. -/
theorem take_agrees {event : Event} {outcome : ReadOutcome} {s' : Session K} (h : Agrees t)
    (hslot : t.session.pendingRequest = none) (hpending : t.pending = none) (hlined : Lined s')
    (halike : Alike (Session.hear { t.session with
      wire := t.session.wire ++ [.read outcome] } event) s') :
    Agrees ({ t with session := s' }.take event) := by
  have hwire : s'.wire = t.session.wire ++ [.read outcome] :=
    halike.wire.trans (hear_frame _ event).2
  cases event with
  | output bytes => exact h.session halike (.refl _) hlined
  | get kernelId reportId reportType =>
    have hasks : asks (.get kernelId reportId reportType) = some (kernelId, true) := rfl
    refine take_request_agrees h hasks hpending hlined ?_
    rw [hwire]
    exact halike
  | set kernelId reportId reportType bytes =>
    have hasks : asks (.set kernelId reportId reportType bytes) = some (kernelId, false) := rfl
    refine take_request_agrees h hasks hpending hlined ?_
    rw [hwire]
    exact halike
  | lifecycle event =>
    cases event with
    | start input output feature =>
      refine ⟨halike.id.trans h.id, halike.state.trans h.state, halike.input, halike.output,
        h.bound, hlined, ?_, fun _ => .inl (halike.pending.trans hslot)⟩
      intro token kernelId hp
      rw [show _ = t.pending from rfl, hpending] at hp
      cases hp
    | stop => exact h.session halike ⟨rfl, rfl, rfl, rfl, rfl, rfl⟩ hlined
    | «open» => exact h.session halike ⟨rfl, rfl, rfl, rfl, rfl, rfl⟩ hlined
    | close => exact h.session halike ⟨rfl, rfl, rfl, rfl, rfl, rfl⟩ hlined

/-- The effects of reading. -/
inductive Events (t : HidTransport K) : Except Error (Option HostEvent) → HidTransport K → Prop
  | quiet {r s'} : r = .ok none ∨ r = .error .transport → Alike t.session s' →
    Events t r { t with session := s' }
  | unread {outcome error r s'} : t.session.state = .open → t.session.pendingRequest = none →
    received outcome = .error error → r = .ok none ∨ r = .error .transport →
    Alike { t.session with wire := t.session.wire ++ [.read outcome] } s' →
    Events t r { t with session := s' }
  | took {outcome event s'} : t.session.state = .open → t.session.pendingRequest = none →
    received outcome = .ok event →
    Alike (Session.hear { t.session with
      wire := t.session.wire ++ [.read outcome] } event) s' →
    Events t ((interpret t.id t.reading event).1.run ({ t with session := s' }.take event)).1
      ((interpret t.id t.reading event).1.run ({ t with session := s' }.take event)).2

omit [Node K] in
theorem Agrees.pending_none (h : Agrees t) (hslot : t.session.pendingRequest = none) :
    t.pending = none := by
  cases hpending : t.pending with
  | none => rfl
  | some held =>
    obtain ⟨-, isGet, hheld⟩ := h.held held.1 held.2 hpending
    rw [hslot] at hheld
    cases hheld

omit [Node K] in
/-- Only a numbered output report can lack its number, and the adapter would refuse it too. -/
theorem unnumbered_verdict {event : Event} (hraw : rawEvent t.numbered.output event = none) :
    event = .output [] ∧ (interpret t.id t.reading event).1 = .fail .transport := by
  cases event with
  | output bytes =>
    by_cases hnumbered : t.numbered.output
    · cases bytes with
      | cons reportId payload => simp [rawEvent, hnumbered] at hraw
      | nil =>
        refine ⟨rfl, ?_⟩
        simp [interpret, outputVerdict, HidTransport.reading, Report.fromWire, hnumbered]
    · simp [rawEvent, hnumbered] at hraw
  | get id reportId reportType => simp [rawEvent] at hraw
  | set id reportId reportType bytes => simp [rawEvent] at hraw
  | lifecycle event => simp [rawEvent] at hraw

theorem event_effect (h : Agrees t) : ∃ r t', event t = (r, t') ∧ Events t r t' := by
  obtain ⟨r, s', hdrain, heffect⟩ := drain_effect t.session
  unfold event
  rw [hdrain]
  cases heffect with
  | shut hshut => exact ⟨_, _, rfl, .quiet (.inr rfl) (.refl _)⟩
  | waiting hopen hslot => exact ⟨_, _, rfl, .quiet (.inl rfl) (.refl _)⟩
  | @unread outcome error _ hopen hslot hreceived halike =>
    cases error with
    | wouldBlock => exact ⟨_, _, rfl, .unread hopen hslot hreceived (.inl rfl) halike⟩
    | _ => exact ⟨_, _, rfl, .unread hopen hslot hreceived (.inr rfl) halike⟩
  | @unnumbered outcome event _ hopen hslot hreceived hraw halike =>
    rw [h.output] at hraw
    obtain ⟨rfl, hinterpret⟩ := unnumbered_verdict hraw
    have htook := Events.took hopen hslot hreceived halike
    rw [hinterpret] at htook
    exact ⟨_, _, rfl, htook⟩
  | @took outcome event raw sequence _ hopen hslot hreceived hraw halike =>
    rw [h.output] at hraw
    have haccept := accept_eq (t := { t with session := s' }) hraw (h.pending_none hslot) h.bound
    have hone : ¬ (1 < [(⟨t.session.id, sequence, raw⟩ : ProviderReverseEvent)].length ∨
        t.session.id ≠ t.id) := by
      simp [h.id]
    simp only [List.getLast?_singleton, hone, if_false]
    rw [haccept]
    exact ⟨_, _, rfl, .took hopen hslot hreceived halike⟩

theorem refuse_effect (token : RequestId) (t : HidTransport K) :
    ∃ d t', submit t (.reply token (.set (.error .invalid))) = (d, t') ∧
      Submits t (.reply token (.set (.error .invalid))) d t' ∧
      refuse token t = (if d = .submitted then .ok none else .error .transport, t') := by
  obtain ⟨d, t', hsubmit, heffect⟩ := submit_effect t (.reply token (.set (.error .invalid)))
  refine ⟨d, t', hsubmit, heffect, ?_⟩
  unfold refuse
  rw [hsubmit]

theorem run_agrees (h : Agrees t) (verdict : Verdict) : Agrees (verdict.run t).2 := by
  cases verdict with
  | deliver event => exact h
  | fail error => exact h
  | refuse token =>
    obtain ⟨d, t', -, heffect, hrefuse⟩ := refuse_effect token t
    change Agrees (refuse token t).2
    rw [hrefuse]
    exact submits_agrees h heffect

theorem events_agrees {r : Except Error (Option HostEvent)} (h : Agrees t)
    (hevents : Events t r t') : Agrees t' := by
  cases hevents with
  | quiet _ halike => exact h.session halike (.refl _) (halike.lined h.lined)
  | @unread outcome error _ s' hopen hslot hreceived _ halike =>
    have hlined : Lined s' := by
      refine h.lined.snoc halike.wire ?_
      rw [line_open hopen, line_open (halike.state.trans hopen), halike.pending]
      exact ⟨congrArg Line.open hslot, by simp [asked, hreceived, hslot, Except.toOption]⟩
    exact h.session halike (.refl _) hlined
  | @took outcome event s' hopen hslot hreceived halike =>
    have hlined : Lined s' := heard_lined h.lined hopen hslot hreceived halike
    exact run_agrees (take_agrees h hslot (h.pending_none hslot) hlined halike) _

theorem close_agrees (h : Agrees t) : Agrees (close t).2 := by
  unfold close
  by_cases hclosed : t.closed = true
  · rw [if_pos hclosed]
    exact h
  rw [if_neg hclosed]
  obtain ⟨r, s', hclose, heffect⟩ := close_effect t.session
  rw [hclose]
  have hlined := closes_lined h.lined heffect
  cases heffect with
  | again hshut =>
    have hstate := h.state
    rw [if_neg hclosed, hshut] at hstate
    cases hstate
  | wrote _ _ halike =>
    refine ⟨halike.id.trans h.id, halike.state, halike.input.trans h.input,
      halike.output.trans h.output, h.bound, hlined, by simp, fun _ => .inl halike.pending⟩

end Agreement

end UhidTransport
