import VirtualGamepad.AudioWorkerPositions

/-! Client, control loop and transaction log agree over every run, and every output event is returned
once, queued or counted. -/
namespace AudioWorkerAgreement

open AudioWorker AudioWorkerClient AudioWorkerLoop AudioWorkerPositions AudioWorkerSystem
open ControllerContract Dialogue HidRuntime MachineInt NativeState WireBytes

section Invariant

/-- Nothing ends before a thread of the worker has ended. -/
structure Flags (s : System) (client : Option (Operation × View)) (stage : Stage) : Prop where
  leaving : Leaving stage ∨ stage = .closing → s.stopped
  broken : ∀ op, client = some (op, .broken) → s.stopped
  closed : s.control.closed = true → s.stopped
  shut : s.clientShut = true → s.control.closed = true ∨ Over client
  loopShut : s.loopShut = true → stage = .gone

inductive Calls (c : Control) : Option (Operation × CallProgram) → Option (Operation × View) →
    Prop where
  | none : Calls c none none
  | some {op : Operation} {program : CallProgram} {view : View} :
      Obeys (AudioWorkerClient.monitor c op) (Ends c op) program view →
      Calls c (some (op, program)) (some (op, view))


/-- What became of an update. -/
def Verdict (family : UInt8) (stopped : Prop) (sequence : ℕ) :
    Operation × Except ClientError Returned → Prop
  | (.update state, result) =>
    (familyOf state ≠ family →
      result = .error (.io "state belongs to another controller family")) ∧
    (familyOf state = family → result = .ok .done ∨ stopped ∨ u64Max ≤ sequence)
  | _ => True

/-- The log has applied what the client knows of and what is on its way to it; events are returned,
on their way, queued or lost. -/
structure Ledger (generation : ℕ) (p : Personality) (ahead : List NativeState)
    (event : Option RawReverseEvent) (s : System) : Prop where
  client_generation : s.control.generation = generation
  client_family : s.control.family = familyOf p.neutral
  log_generation : s.worker.state.generation = generation
  log_family : s.worker.state.family = familyOf p.neutral
  sequence : s.worker.state.sequence = s.control.sequence + ahead.length
  updates : (updated s.results).length = s.control.sequence
  applied : s.worker.state.state = (updated s.results ++ ahead).getLastD p.neutral
  order : (returnedEvents s.results ++ event.toList ++ s.worker.events).Sublist s.produced
  account : s.produced.length = (returnedEvents s.results ++ event.toList ++
    s.worker.events).length + s.worker.lost
  fine : ∀ produced ∈ s.produced, Fine produced
  verdicts : ∀ entry ∈ s.results,
    Verdict s.control.family s.stopped s.control.sequence entry

structure Joint (generation : ℕ) (p : Personality) (client : Option (Operation × View))
    (stage : Stage) (ahead : List NativeState) (event : Option RawReverseEvent) (s : System) :
    Prop where
  position : Position s.control s.usbEnded client stage s.toWorker s.toClient s.worker.updates
    s.worker.acknowledgements ahead event
  flags : Flags s client stage
  calls : Calls s.control s.call client
  loop : Obeys (AudioWorkerLoop.monitor generation) Ended s.loop stage
  ledger : Ledger generation p ahead event s

def Agreeing (generation : ℕ) (p : Personality) (s : System) : Prop :=
  ∃ client stage ahead event, Joint generation p client stage ahead event s

end Invariant

section ClientSteps

variable {generation : ℕ} {p : Personality} {client : Option (Operation × View)} {stage : Stage}
variable {ahead : List NativeState} {event : Option RawReverseEvent} {s t : System}

theorem Joint.begins (h : Joint generation p client stage ahead event s) (op : Operation)
    (hcall : s.call = none) :
    Joint generation p (some (op, .ready)) stage ahead event
      { s with call := some (op, op.run s.control) } := by
  obtain rfl : client = none := by
    have hcalls := h.calls
    rw [hcall] at hcalls
    cases hcalls
    rfl
  refine ⟨h.position.idling .none (.ready op), ?_, .some (obeys ..), h.loop, ?_⟩
  · exact ⟨h.flags.leaving, (fun _ hclient => nomatch hclient), h.flags.closed, h.flags.shut,
      h.flags.loopShut⟩
  · exact { h.ledger with }

theorem Flags.unshut {op : Operation} {view : View} (h : Flags s (some (op, view)) stage)
    (hwrites : Writes s.control op) (hover : ¬Over (some (op, view))) : s.clientShut = false := by
  by_contra hshut
  rcases h.shut (Bool.eq_true_of_not_eq_false hshut) with hclosed | hclose
  · exact Bool.false_ne_true (hwrites.1.symm.trans hclosed)
  · exact hover hclose

/-- Only a call that may write waits for a reply. -/
theorem writes_of_awaiting {c : Control} {usbEnded : Bool} {op : Operation}
    {toWorker toClient : List Frame} {updates : List Transactions.Message}
    {acks : List (ℕ × Bool)} (h : Position c usbEnded (some (op, .awaiting)) stage toWorker toClient
      updates acks ahead event) : Writes c op := by
  cases h with
  | requested hwrites => exact hwrites
  | heard hwrites => exact hwrites
  | handed hwrites => exact hwrites
  | acknowledged hwrites => exact hwrites
  | replying _ hanswers => exact hanswers.1
  | closing hwrites => exact hwrites
  | replied hanswers _ => exact hanswers.1
  | idle hidle => cases hidle
  | left hclient _ _ _ =>
    rcases hclient with hidle | ⟨_, hwrites, hclient⟩
    · cases hidle
    · cases hclient
      exact hwrites

/-- A call of the client in its place. -/
theorem Joint.client_served {op : Operation} {view : View} {call : ClientCall}
    {answer : ClientAnswer call} (hposition : Position s.control s.usbEnded (some (op, view)) stage
      s.toWorker s.toClient s.worker.updates s.worker.acknowledgements ahead event)
    (hflags : Flags s (some (op, view)) stage) (hallowed : view.allows s.control op call)
    (hserved : ClientServed s call answer t) :
    Position t.control t.usbEnded (some (op, view.after s.control op call answer)) stage t.toWorker
      t.toClient t.worker.updates t.worker.acknowledgements ahead event ∧
    Flags t (some (op, view.after s.control op call answer)) stage := by
  cases hserved with
  | sent frame =>
    cases view with
    | ready =>
      obtain ⟨hwrites, rfl⟩ := hallowed
      refine ⟨hposition.sent hwrites, hflags.leaving, (fun _ hclient => nomatch hclient),
        hflags.closed, fun hshut => ?_, hflags.loopShut⟩
      rw [hflags.unshut hwrites id] at hshut
      nomatch hshut
    | _ => exact hallowed.elim
  | unsent frame error hended =>
    cases view with
    | ready =>
      obtain ⟨hwrites, rfl⟩ := hallowed
      have hstopped : s.stopped := by
        refine hended.resolve_right ?_
        rw [hflags.unshut hwrites id]
        exact Bool.false_ne_true
      exact ⟨hposition.idling (.ready op) (.broken op), hflags.leaving, fun _ _ => hstopped,
        hflags.closed, fun _ => .inr trivial, hflags.loopShut⟩
    | _ => exact hallowed.elim
  | received hqueue =>
    cases view with
    | awaiting =>
      have hopen := hflags.unshut (writes_of_awaiting hposition) id
      rw [hqueue] at hposition
      obtain ⟨hnext, hbroken⟩ := hposition.received
      refine ⟨hnext, hflags.leaving, fun _ hclient => ?_, hflags.closed, fun hshut => ?_,
        hflags.loopShut⟩
      · exact hflags.leaving (.inl (hbroken (congrArg Prod.snd (Option.some.inj hclient))))
      · exact absurd (hopen.symm.trans hshut) Bool.false_ne_true
    | _ => exact hallowed.elim
  | unreceived error hended =>
    cases view with
    | awaiting =>
      have hopen := hflags.unshut (writes_of_awaiting hposition) id
      obtain ⟨hloop, hempty⟩ := hended.resolve_right (hopen ▸ Bool.false_ne_true)
      obtain rfl := hflags.loopShut hloop
      rw [hempty] at hposition ⊢
      exact ⟨hposition.unreceived, hflags.leaving, (fun _ _ => hflags.leaving (.inl trivial)),
        hflags.closed, (fun _ => .inr trivial), hflags.loopShut⟩
    | _ => exact hallowed.elim
  | pending hqueue =>
    cases view with
    | broken =>
      rw [hqueue] at hposition
      exact ⟨hposition.pending, hflags.leaving, hflags.broken, hflags.closed, hflags.shut,
        hflags.loopShut⟩
    | _ => exact hallowed.elim
  | nothing =>
    cases view with
    | broken => exact ⟨hposition, hflags⟩
    | _ => exact hallowed.elim
  | shutdown =>
    cases view with
    | broken => exact ⟨hposition, hflags.leaving, hflags.broken, hflags.closed,
        (fun _ => .inr trivial), hflags.loopShut⟩
    | answered response => exact ⟨hposition, hflags.leaving, hflags.broken, hflags.closed,
        (fun _ => .inr hallowed), hflags.loopShut⟩
    | _ => exact hallowed.elim

theorem ledger_of_served {call : ClientCall} {answer : ClientAnswer call}
    (h : Ledger generation p ahead event s) (hserved : ClientServed s call answer t) :
    Ledger generation p ahead event t ∧ t.control = s.control ∧ t.loop = s.loop := by
  cases hserved with
  | unsent _ _ _ => exact ⟨h, rfl, rfl⟩
  | unreceived _ _ => exact ⟨h, rfl, rfl⟩
  | nothing => exact ⟨h, rfl, rfl⟩
  | _ => exact ⟨{ h with }, rfl, rfl⟩

theorem Joint.asks (h : Joint generation p client stage ahead event s) {op : Operation}
    {call : ClientCall} {next : ClientAnswer call → CallProgram} {answer : ClientAnswer call}
    (hcall : s.call = some (op, .ask call next)) (hserved : ClientServed s call answer t) :
    Agreeing generation p { t with call := some (op, next answer) } := by
  have hcalls := h.calls
  rw [hcall] at hcalls
  cases hcalls with
  | some hobeys =>
    obtain ⟨hallowed, hnext⟩ := hobeys
    obtain ⟨hposition, hflags⟩ := Joint.client_served h.position h.flags hallowed hserved
    obtain ⟨hledger, hcontrol, hloop⟩ := ledger_of_served h.ledger hserved
    have hrest := hnext answer
    rw [← hcontrol] at hposition hflags hrest
    refine ⟨_, stage, ahead, event, hposition, ?_, .some hrest, ?_, { hledger with }⟩
    · exact ⟨hflags.leaving, hflags.broken, hflags.closed, hflags.shut, hflags.loopShut⟩
    · have hobeyed := h.loop
      rw [← hloop] at hobeyed
      exact hobeyed

theorem Verdict.mono {family : UInt8} {stopped stopped' : Prop} {sequence sequence' : ℕ}
    {entry : Operation × Except ClientError Returned} (h : Verdict family stopped sequence entry)
    (hstopped : stopped → stopped') (hsequence : sequence ≤ sequence') :
    Verdict family stopped' sequence' entry := by
  obtain ⟨op, result⟩ := entry
  cases op with
  | update state =>
    refine ⟨h.1, fun hfamily => ?_⟩
    rcases h.2 hfamily with hok | hended | hmax
    · exact .inl hok
    · exact .inr (.inl (hstopped hended))
    · exact .inr (.inr (hmax.trans hsequence))
  | _ => trivial

theorem Ledger.returned (h : Ledger generation p ahead event s) {op : Operation}
    {result : Except ClientError Returned} {control : Control}
    (hgeneration : control.generation = s.control.generation)
    (hfamily : control.family = s.control.family)
    (hsequence : control.sequence = s.control.sequence + ahead.length)
    (hupdated : updated [(op, result)] = ahead) (hevent : eventOf (op, result) = event)
    (hverdict : Verdict s.control.family s.stopped control.sequence (op, result)) :
    Ledger generation p [] none
      { s with control, call := none, results := s.results ++ [(op, result)] } := by
  have hsplit : updated (s.results ++ [(op, result)]) = updated s.results ++ ahead := by
    rw [← hupdated]
    exact List.filterMap_append
  have hevents : returnedEvents (s.results ++ [(op, result)]) ++ (none : Option _).toList =
      returnedEvents s.results ++ event.toList := by
    unfold returnedEvents
    rw [List.filterMap_append, ← hevent, Option.toList_none, List.append_nil,
      List.filterMap_cons, List.filterMap_nil]
    cases eventOf (op, result) <;> rfl
  constructor
  · exact hgeneration.trans h.client_generation
  · exact hfamily.trans h.client_family
  · exact h.log_generation
  · exact h.log_family
  · exact h.sequence.trans hsequence.symm
  · change (updated (s.results ++ [(op, result)])).length = control.sequence
    rw [hsplit, List.length_append, h.updates, hsequence]
  · change s.worker.state.state = (updated (s.results ++ [(op, result)]) ++ []).getLastD _
    rw [hsplit, List.append_nil]
    exact h.applied
  · change (returnedEvents (s.results ++ [(op, result)]) ++ _ ++ _).Sublist _
    rw [hevents]
    exact h.order
  · change _ = (returnedEvents (s.results ++ [(op, result)]) ++ _ ++ _).length + _
    rw [hevents]
    exact h.account
  · exact h.fine
  · intro entry hentry
    change Verdict control.family s.stopped control.sequence entry
    rw [hfamily]
    rcases List.mem_append.mp hentry with hentry | hentry
    · exact (h.verdicts entry hentry).mono id (hsequence ▸ Nat.le_add_right _ _)
    · rw [List.mem_singleton.mp hentry]
      exact hverdict

theorem position_idle {c : Control} {usbEnded : Bool} {toWorker toClient : List Frame}
    {updates : List Transactions.Message} {acks : List (ℕ × Bool)}
    (h : Position c usbEnded client stage toWorker toClient updates acks ahead event)
    (hidle : Idle client) : ahead = [] ∧ event = none := by
  cases h with
  | idle _ => exact ⟨rfl, rfl⟩
  | left _ _ _ _ => exact ⟨rfl, rfl⟩
  | _ => cases hidle

theorem position_answered {c : Control} {usbEnded : Bool} {op : Operation} {response : List UInt8}
    {toWorker toClient : List Frame} {updates : List Transactions.Message} {acks : List (ℕ × Bool)}
    (h : Position c usbEnded (some (op, .answered response)) stage toWorker toClient updates acks
      ahead event) :
    ∃ reply, response = reply.2.drop 8 ∧ Answers c op reply event ∧ ahead = sentBy op ∧
      (op = .close → Leaving stage) := by
  cases h with
  | answered hanswers honward =>
    refine ⟨_, rfl, hanswers, rfl, fun hclose => ?_⟩
    exact honward.elim (fun h => absurd hclose h.2.2) fun h => h.1
  | idle hidle => cases hidle
  | left hclient _ _ _ =>
    rcases hclient with hidle | ⟨_, _, hclient⟩
    · cases hidle
    · cases hclient

theorem refusal_verdict {c : Control} {op : Operation} {stopped : Prop} (h : ¬Writes c op)
    (hclosed : c.closed = true → stopped) :
    Verdict c.family stopped c.sequence (op, refusal c op) := by
  cases op with
  | update state =>
    refine ⟨fun hfamily => if_pos hfamily, fun hfamily => .inr ?_⟩
    by_cases hopen : c.closed = true
    · exact .inl (hclosed hopen)
    · refine .inr (Nat.le_of_not_lt fun hlt => h ⟨Bool.eq_false_iff.mpr hopen, fun state' hop => ?_⟩)
      cases hop
      exact ⟨hfamily, hlt⟩
  | _ => trivial

theorem refusal_silent {c : Control} {op : Operation} :
    updated [(op, refusal c op)] = [] ∧ eventOf (op, refusal c op) = none := by
  cases op with
  | update state =>
    have hrefused : ∃ error, refusal c (.update state) = .error error := by
      by_cases hfamily : familyOf state ≠ c.family
      · exact ⟨_, if_pos hfamily⟩
      · by_cases hmax : u64Max < c.sequence + 1
        · exact ⟨_, (if_neg hfamily).trans (if_pos hmax)⟩
        · exact ⟨_, (if_neg hfamily).trans (if_neg hmax)⟩
    obtain ⟨error, herror⟩ := hrefused
    rw [herror]
    exact ⟨rfl, rfl⟩
  | _ => exact ⟨rfl, rfl⟩

theorem error_silent (op : Operation) (error : ClientError) :
    updated [(op, .error error)] = [] ∧ eventOf (op, .error error) = none := by
  cases op <;> exact ⟨rfl, rfl⟩

theorem updated_ok (op : Operation) (r : Returned) : updated [(op, .ok r)] = sentBy op := by
  cases op <;> rfl

theorem Joint.returns (h : Joint generation p client stage ahead event s) {op : Operation}
    {result : Except ClientError Returned} {control : Control}
    (hcall : s.call = some (op, .ret (result, control))) :
    Agreeing generation p
      { s with control, call := none, results := s.results ++ [(op, result)] } := by
  have hcalls := h.calls
  rw [hcall] at hcalls
  cases hcalls with
  | @some _ _ view hends =>
    have hposition := h.position
    have hflags := h.flags
    cases view with
    | awaiting => exact hends.elim
    | ready =>
      obtain ⟨hsilent, hresult⟩ := hends
      obtain ⟨rfl, rfl⟩ := Prod.mk.inj hresult
      obtain ⟨rfl, rfl⟩ := position_idle hposition (.ready op)
      have hnothing := @refusal_silent s.control op
      refine ⟨none, stage, [], none, hposition.idling (.ready op) .none, ?_, .none, h.loop, ?_⟩
      · exact ⟨hflags.leaving, (fun _ hclient => nomatch hclient), hflags.closed,
          (fun hshut => (hflags.shut hshut).imp_right False.elim), hflags.loopShut⟩
      · exact h.ledger.returned rfl rfl rfl hnothing.1 hnothing.2
          (refusal_verdict hsilent hflags.closed)
    | answered response =>
      obtain ⟨reply, rfl, hanswers, rfl, hclose⟩ := position_answered hposition
      have hsucceeds := hanswers.succeeds
      have hresult : (result, control) = outcome s.control op (reply.2.drop 8) := hends
      rw [← hresult] at hsucceeds
      obtain ⟨r, rfl⟩ := hsucceeds.returned
      refine ⟨none, stage, [], none, hposition.returned, ?_, .none, h.loop, ?_⟩
      · refine ⟨hflags.leaving, (fun _ hclient => nomatch hclient), fun hclosed => ?_,
          fun hshut => .inl ?_, hflags.loopShut⟩
        · exact hflags.leaving (.inl (hclose (hsucceeds.closed.mp hclosed)))
        · rcases hflags.shut hshut with hclosed | hop
          · exact absurd (hanswers.1.1.symm.trans hclosed) Bool.false_ne_true
          · exact hsucceeds.closed.mpr hop
      · refine h.ledger.returned hsucceeds.generation hsucceeds.family hsucceeds.sequence
          (updated_ok op r) hsucceeds.event ?_
        cases op with
        | update state =>
          have hfamily := (hanswers.1.2 state rfl).1
          exact ⟨fun hforeign => absurd hfamily hforeign, fun _ => .inl (hsucceeds.done state rfl)⟩
        | _ => trivial
    | broken =>
      obtain ⟨hwrites, ⟨error, rfl⟩, rfl⟩ := hends
      obtain ⟨rfl, rfl⟩ := position_idle hposition (.broken op)
      have hnothing := error_silent op error
      have hstopped := hflags.broken op rfl
      refine ⟨none, stage, [], none, hposition.idling (.broken op) .none, ?_, .none, h.loop, ?_⟩
      · exact ⟨hflags.leaving, (fun _ hclient => nomatch hclient), (fun _ => hstopped),
          (fun _ => .inl rfl), hflags.loopShut⟩
      · refine h.ledger.returned rfl rfl rfl hnothing.1 hnothing.2 ?_
        cases op with
        | update state =>
          exact ⟨fun hforeign => absurd (hwrites.2 state rfl).1 hforeign, fun _ => .inr (.inl hstopped)⟩
        | _ => trivial

end ClientSteps

section LoopSteps

variable {generation : ℕ} {p : Personality} {client : Option (Operation × View)}
variable {stage stage' : Stage} {ahead : List NativeState} {event : Option RawReverseEvent}
variable {s t : System}

theorem Flags.move (h : Flags s client stage) (hgone : stage ≠ .gone)
    (hstopped : Leaving stage' ∨ stage' = .closing → s.stopped) : Flags s client stage' :=
  ⟨hstopped, h.broken, h.closed, h.shut, fun hshut => absurd (h.loopShut hshut) hgone⟩

/-- A loop that is busy with a request has a client that waits for its reply. -/
theorem position_busy {c : Control} {usbEnded : Bool} {toWorker toClient : List Frame}
    {updates : List Transactions.Message} {acks : List (ℕ × Bool)}
    (h : Position c usbEnded client stage toWorker toClient updates acks ahead event)
    (hlistening : stage ≠ .listening) (hleaving : ¬Leaving stage) :
    ∃ op, client = some (op, .awaiting) ∧ Writes c op := by
  cases h with
  | idle _ => exact absurd rfl hlistening
  | requested hwrites => exact ⟨_, rfl, hwrites⟩
  | heard hwrites => exact ⟨_, rfl, hwrites⟩
  | handed hwrites => exact ⟨_, rfl, hwrites⟩
  | acknowledged hwrites => exact ⟨_, rfl, hwrites⟩
  | replying _ hanswers => exact ⟨_, rfl, hanswers.1⟩
  | closing hwrites => exact ⟨_, rfl, hwrites⟩
  | replied hanswers _ => exact ⟨_, rfl, hanswers.1⟩
  | answered _ honward =>
    rcases honward with ⟨h, _⟩ | ⟨h, _⟩
    · exact absurd h hlistening
    · exact absurd h hleaving
  | left _ h _ _ => exact absurd h hleaving

/-- Such a client has not shut its stream, and the loop has not either. -/
theorem Flags.busy (h : Flags s client stage)
    (hposition : Position s.control s.usbEnded client stage s.toWorker s.toClient s.worker.updates
      s.worker.acknowledgements ahead event) (hlistening : stage ≠ .listening)
    (hleaving : ¬Leaving stage) : ¬(s.clientShut = true ∨ s.loopShut = true) := by
  rintro (hshut | hshut)
  · obtain ⟨op, rfl, hwrites⟩ := position_busy hposition hlistening hleaving
    rw [h.unshut hwrites id] at hshut
    nomatch hshut
  · exact hleaving (h.loopShut hshut ▸ trivial)

/-- While the loop listens, a client has shut its stream only after a thread ended. -/
theorem Flags.shut_stopped (h : Flags s client .listening)
    (hposition : Position s.control s.usbEnded client .listening s.toWorker s.toClient
      s.worker.updates s.worker.acknowledgements ahead event) (hshut : s.clientShut = true) :
    s.stopped := by
  rcases h.shut hshut with hclosed | hover
  · exact h.closed hclosed
  · rcases client with _ | ⟨op, view⟩
    · exact hover.elim
    · cases view with
      | ready => exact hover.elim
      | awaiting => exact hover.elim
      | broken => exact h.broken op rfl
      | answered response =>
        obtain ⟨_, _, _, _, hclose⟩ := position_answered hposition
        exact (hclose hover).elim

theorem Ledger.stopping (h : Ledger generation p ahead event s) :
    Ledger generation p ahead event { s with usbEnded := true, pcmEnded := true } :=
  { h with verdicts := fun entry hentry =>
      (h.verdicts entry hentry).mono (fun _ => .inl rfl) (Nat.le_refl _) }

theorem Ledger.gives {given : RawReverseEvent} {rest : List RawReverseEvent}
    (h : Ledger generation p ahead none s) (hevents : s.worker.events = given :: rest) :
    Fine given ∧ Ledger generation p ahead (some given)
      { s with worker := { s.worker with events := rest } } := by
  have horder := h.order
  have haccount := h.account
  rw [hevents, Option.toList_none, List.append_nil] at horder haccount
  have hsplit : returnedEvents s.results ++ (some given).toList ++ rest =
      returnedEvents s.results ++ given :: rest := by
    rw [Option.toList_some, List.append_assoc, List.singleton_append]
  refine ⟨h.fine given (horder.subset (List.mem_append_right _ (List.mem_cons_self ..))), ?_⟩
  exact { h with order := hsplit ▸ horder, account := hsplit ▸ haccount }

/-- A call of the loop in its place. -/
theorem Joint.loop_served (hposition : Position s.control s.usbEnded client stage s.toWorker
      s.toClient s.worker.updates s.worker.acknowledgements ahead event)
    (hflags : Flags s client stage) (hledger : Ledger s.control.generation p ahead event s)
    {call : LoopCall} {answer : LoopAnswer call} (hallowed : stage.allows s.control.generation call)
    (hserved : LoopServed s call answer t) :
    ∃ event', Position t.control t.usbEnded client (stage.after s.control.generation call answer)
        t.toWorker t.toClient t.worker.updates t.worker.acknowledgements ahead event' ∧
      Flags t client (stage.after s.control.generation call answer) ∧
      Ledger s.control.generation p ahead event' t := by
  cases hserved with
  | sent frame =>
    cases stage with
    | replying reply =>
      obtain rfl : frame = reply := hallowed
      exact ⟨event, hposition.replies, { hflags.move nofun (nofun : _ ∨ _ → _) with },
        { hledger with }⟩
    | closing =>
      obtain rfl : frame = _ := hallowed
      refine ⟨event, hposition.closes, { hflags.move nofun ?_ with }, { hledger with }⟩
      exact fun _ => hflags.leaving (.inr rfl)
    | reporting =>
      have hfailure : ∀ failure ∈ [frame], failure.1 = 0x81 := fun failure hmem =>
        List.mem_singleton.mp hmem ▸ hallowed.1
      refine ⟨event, hposition.departs trivial trivial hfailure, { hflags.move nofun ?_ with },
        { hledger with }⟩
      exact fun _ => hflags.leaving (.inl trivial)
    | _ => exact hallowed.elim
  | unsent frame error hshut =>
    cases stage with
    | replying reply => exact absurd hshut (hflags.busy hposition nofun id)
    | closing => exact absurd hshut (hflags.busy hposition nofun id)
    | reporting =>
      exact ⟨event, hposition.departs_silent trivial trivial,
        hflags.move nofun fun _ => hflags.leaving (.inl trivial), hledger⟩
    | _ => exact hallowed.elim
  | received hqueue =>
    cases stage with
    | listening =>
      rw [hqueue] at hposition
      obtain ⟨hstage, hheard⟩ := hposition.hears
      rw [hstage]
      exact ⟨event, hheard, { hflags.move nofun (nofun : _ ∨ _ → _) with }, { hledger with }⟩
    | _ => exact hallowed.elim
  | unreceived error hended =>
    cases stage with
    | listening =>
      exact ⟨event, hposition.leaves, hflags.move nofun fun _ =>
        hended.elim id (hflags.shut_stopped hposition), hledger⟩
    | _ => exact hallowed.elim
  | handed message husb hroom =>
    cases stage with
    | heard frame =>
      exact ⟨event, hposition.hands hallowed.1 hallowed.2,
        { hflags.move nofun (nofun : _ ∨ _ → _) with }, { hledger with }⟩
    | _ => exact hallowed.elim
  | unhanded message error hended =>
    cases stage with
    | heard frame =>
      have hstopped : s.usbEnded = true := by
        obtain ⟨_, _, _, _, _, _, hupdates, _⟩ := hposition.heard_cases
        rw [hupdates] at hended
        exact hended.resolve_right (by decide)
      exact ⟨event, hposition.drops trivial, hflags.move nofun fun _ => .inl hstopped, hledger⟩
    | _ => exact hallowed.elim
  | acknowledged hqueue =>
    cases stage with
    | handed frame =>
      rw [hqueue] at hposition
      obtain ⟨reply, hstage, hreplying⟩ := hposition.acknowledges
      rw [hstage]
      exact ⟨event, hreplying, { hflags.move nofun (nofun : _ ∨ _ → _) with }, { hledger with }⟩
    | _ => exact hallowed.elim
  | unacknowledged error husb hempty =>
    cases stage with
    | handed frame =>
      rw [husb, hempty] at hposition
      have habandoned := hposition.abandons
      rw [← husb, ← hempty] at habandoned
      exact ⟨event, habandoned, hflags.move nofun fun _ => .inl husb, hledger⟩
    | _ => exact hallowed.elim
  | event hevents =>
    cases stage with
    | heard frame =>
      obtain ⟨_, _, _, _, _, _, _, _, _, rfl⟩ := hposition.heard_cases
      obtain ⟨hfine, hgiven⟩ := hledger.gives hevents
      obtain ⟨_, reply, hstage, hreplying⟩ := hposition.gives hallowed hfine
      rw [hstage]
      exact ⟨_, hreplying, { hflags.move nofun (nofun : _ ∨ _ → _) with }, hgiven⟩
    | _ => exact hallowed.elim
  | empty husb hempty =>
    cases stage with
    | heard frame =>
      exact ⟨event, hposition.empties hallowed, hflags.move nofun (nofun : _ ∨ _ → _), hledger⟩
    | _ => exact hallowed.elim
  | disconnected husb hempty =>
    cases stage with
    | heard frame =>
      exact ⟨event, hposition.drops trivial, hflags.move nofun fun _ => .inl husb, hledger⟩
    | _ => exact hallowed.elim
  | stats stats hlost =>
    cases stage with
    | heard frame =>
      exact ⟨event, hposition.counts hallowed, hflags.move nofun (nofun : _ ∨ _ → _), hledger⟩
    | _ => exact hallowed.elim
  | stopped result =>
    have hended : Flags { s with usbEnded := true, pcmEnded := true } client stage :=
      ⟨fun _ => .inl rfl, fun _ _ => .inl rfl, fun _ => .inl rfl, hflags.shut, hflags.loopShut⟩
    cases stage with
    | heard frame =>
      exact ⟨event, (hposition.stops hallowed).ended, hended.move nofun fun _ => .inl rfl,
        hledger.stopping⟩
    | failing =>
      have hreporting : Position s.control s.usbEnded client .reporting s.toWorker s.toClient
          s.worker.updates s.worker.acknowledgements ahead event :=
        hposition.departs_silent trivial trivial
      exact ⟨event, hreporting.ended, hended.move nofun fun _ => .inl rfl, hledger.stopping⟩
    | _ => exact hallowed.elim
  | shutdown =>
    cases stage with
    | parting =>
      have hgone : Position s.control s.usbEnded client .gone s.toWorker s.toClient s.worker.updates
          s.worker.acknowledgements ahead event := hposition.departs_silent trivial trivial
      exact ⟨event, hgone, ⟨fun _ => hflags.leaving (.inl trivial), hflags.broken, hflags.closed,
        hflags.shut, fun _ => rfl⟩, { hledger with }⟩
    | _ => exact hallowed.elim

theorem served_same {call : LoopCall} {answer : LoopAnswer call} (h : LoopServed s call answer t) :
    t.control = s.control ∧ t.call = s.call := by
  cases h <;> exact ⟨rfl, rfl⟩

theorem Joint.answers (h : Joint generation p client stage ahead event s) {call : LoopCall}
    {next : LoopAnswer call → LoopProgram} {answer : LoopAnswer call}
    (hloop : s.loop = .ask call next) (hserved : LoopServed s call answer t) :
    Agreeing generation p { t with loop := next answer } := by
  obtain ⟨hposition, hflags, hcalls, hobeys, hledger⟩ := h
  obtain rfl := hledger.client_generation
  rw [hloop] at hobeys
  obtain ⟨hallowed, hnext⟩ := hobeys
  obtain ⟨event', hposition', hflags', hledger'⟩ :=
    Joint.loop_served hposition hflags hledger hallowed hserved
  obtain ⟨hcontrol, hcall⟩ := served_same hserved
  rw [← hcontrol, ← hcall] at hcalls
  exact ⟨client, _, ahead, event', hposition', { hflags' with }, hcalls, hnext answer,
    { hledger' with }⟩

end LoopSteps

section WorkerSteps

variable {generation : ℕ} {p : Personality} {client : Option (Operation × View)} {stage : Stage}
variable {ahead : List NativeState} {event : Option RawReverseEvent} {s : System} {w : Worker}

theorem service_idle (h : w.updates = []) : w.service = (.ok (), w) := by
  unfold Worker.service Worker.serviceTurns
  rw [h]

theorem service_one {message : Transactions.Message} {applied : Bool} {state : Transactions}
    (hupdates : w.updates = [message]) (hacks : w.acknowledgements = [])
    (happly : w.state.apply message = (.ok applied, state)) :
    w.service = (.ok (), { w with
      state, updates := [], acknowledgements := [(message.sequence, true)] }) := by
  have hroom : w.acknowledgements.length < 8 := by
    rw [hacks]
    decide
  unfold Worker.service Worker.serviceTurns
  rw [hupdates]
  dsimp only
  rw [happly]
  dsimp only
  rw [if_pos hroom, hacks]
  unfold Worker.serviceTurns
  rfl

/-- The next update of the session is applied. -/
theorem apply_next {log : Transactions} {state : NativeState} (hgeneration : log.generation = generation)
    (hfamily : familyOf state = log.family) (hmax : log.sequence + 1 ≤ u64Max) :
    log.apply ⟨generation, log.sequence + 1, encode state⟩ = (.ok true, { log with
      bytes := encode state, state, sequence := log.sequence + 1 }) := by
  unfold Transactions.apply
  have hnext : checkedAdd log.sequence 1 = some (log.sequence + 1) := if_pos hmax
  rw [if_neg (by dsimp only; omega), if_neg (by dsimp only; omega),
    if_neg (not_not.mpr hnext), decode_ok.mpr ⟨hfamily, rfl⟩]

/-- The only update in the channel is the one of the call. -/
theorem position_updates {c : Control} {toWorker toClient : List Frame}
    {updates : List Transactions.Message} {acks : List (ℕ × Bool)}
    (h : Position c false client stage toWorker toClient updates acks ahead event) :
    updates = [] ∨ ∃ state, Writes c (.update state) ∧
      updates = [⟨c.generation, c.sequence + 1, encode state⟩] ∧ acks = [] ∧ ahead = [] ∧
      event = none ∧ Position c false client stage toWorker toClient []
        [(c.sequence + 1, true)] [state] none := by
  cases h with
  | handed hwrites => exact .inr ⟨_, hwrites, rfl, rfl, rfl, rfl, .acknowledged hwrites⟩
  | left _ _ _ hupdates => exact .inl (hupdates.resolve_right Bool.false_ne_true)
  | _ => exact .inl rfl

theorem Joint.serves (h : Joint generation p client stage ahead event s)
    (husb : s.usbEnded = false) :
    ∃ worker, s.worker.service = (.ok (), worker) ∧ Agreeing generation p { s with worker } := by
  have hposition := h.position
  rw [husb] at hposition
  rcases position_updates hposition with hnone | ⟨state, hwrites, hone, hacks, rfl, rfl, hafter⟩
  · exact ⟨s.worker, service_idle hnone, client, stage, ahead, event, h⟩
  · have hledger := h.ledger
    obtain ⟨hfamily, hmax⟩ := hwrites.2 state rfl
    have hsequence : s.worker.state.sequence = s.control.sequence := hledger.sequence
    rw [← hsequence] at hone hmax hafter
    have happly := apply_next (hledger.log_generation.trans hledger.client_generation.symm)
      (hfamily.trans (hledger.client_family.trans hledger.log_family.symm)) hmax
    refine ⟨_, service_one hone hacks happly, client, stage, [state], none, ?_, { h.flags with },
      h.calls, h.loop, ?_⟩
    · rw [← husb] at hafter
      exact hafter
    · refine { hledger with sequence := ?_, applied := ?_ }
      · exact congrArg (· + 1) hsequence
      · exact List.getLastD_concat.symm

theorem traffic_event (w : Worker) (traffic : Traffic) :
    Worker.traffic w traffic = w.event (offered w.personality traffic) := by
  cases traffic with
  | request kind => rfl
  | output bytes =>
    simp only [Worker.traffic, Worker.output, offered]
    cases Report.fromWire .output w.personality.numbered bytes with
    | error e => rfl
    | ok report =>
      dsimp only
      rcases w.personality.request (.set report) with ⟨_ | _ | _, event⟩
      · rfl
      · rfl
      · rfl

theorem acceptOutput_fine {report : Report} (h : p.acceptOutput report = .ok ()) :
    Fine (observe report) := by
  cases p with
  | dualSense =>
    simp only [Personality.acceptOutput] at h
    split at h
    · cases h
    · rename_i hid
      split at h
      · cases h
      · rename_i hlength
        simp only [not_or, not_not] at hid hlength
        refine ⟨?_, ?_⟩
        · rw [hid.2]
          decide
        · omega
  | dualShock4 =>
    simp only [Personality.acceptOutput] at h
    split at h
    · cases h
    · rename_i hid
      split at h
      · cases h
      · rename_i hlength
        simp only [not_or, not_not] at hid hlength
        refine ⟨?_, ?_⟩
        · rw [hid.2]
          decide
        · omega
  | xbox360 => cases h

theorem request_fine {kind : RequestKind} {event : RawReverseEvent}
    (h : (p.request kind).2 = some event) : Fine event := by
  cases kind with
  | get _ _ => cases h
  | set report =>
    simp only [Personality.request] at h
    cases haccept : p.acceptOutput report with
    | error e =>
      rw [haccept] at h
      cases h
    | ok _ =>
      rw [haccept] at h
      obtain rfl := Option.some.inj h
      exact acceptOutput_fine haccept

theorem offered_fine {traffic : Traffic} {event : RawReverseEvent}
    (h : offered p traffic = some event) : Fine event := by
  cases traffic with
  | request kind => exact request_fine h
  | output bytes =>
    simp only [offered] at h
    cases hwire : Report.fromWire .output p.numbered bytes with
    | error e =>
      rw [hwire] at h
      cases h
    | ok report =>
      rw [hwire] at h
      dsimp only at h
      rcases hrequest : p.request (.set report) with ⟨_ | _ | _, event'⟩
      all_goals
        rw [hrequest] at h
        try cases h
      exact request_fine (congrArg Prod.snd hrequest)

theorem Ledger.produces (h : Ledger generation p ahead event s) {offer : Option RawReverseEvent}
    (hfine : ∀ given, offer = some given → Fine given) :
    Ledger generation p ahead event
      { s with worker := s.worker.event offer, produced := s.produced ++ offer.toList } := by
  cases offer with
  | none => exact { h with
      order := (List.append_nil s.produced).symm ▸ h.order
      account := (List.append_nil s.produced).symm ▸ h.account
      fine := (List.append_nil s.produced).symm ▸ h.fine }
  | some given =>
    have hgiven : ∀ produced ∈ s.produced ++ [given], Fine produced := by
      intro produced hproduced
      rcases List.mem_append.mp hproduced with hold | hnew
      · exact h.fine produced hold
      · rw [List.mem_singleton.mp hnew]
        exact hfine given rfl
    rw [Option.toList_some]
    unfold Worker.event
    by_cases hroom : s.worker.events.length < 128
    · dsimp only
      rw [if_pos hroom]
      refine { h with order := ?_, account := ?_, fine := hgiven }
      · rw [← List.append_assoc]
        exact h.order.append (List.Sublist.refl _)
      · rw [← List.append_assoc, List.length_append, @List.length_append _ _ [given],
          h.account]
        dsimp only
        omega
    · dsimp only
      rw [if_neg hroom]
      refine { h with order := ?_, account := ?_, fine := hgiven }
      · exact h.order.trans (List.sublist_append_left ..)
      · rw [List.length_append, h.account]
        rfl

theorem event_state (offer : Option RawReverseEvent) :
    (w.event offer).updates = w.updates ∧ (w.event offer).acknowledgements = w.acknowledgements := by
  cases offer with
  | none => exact ⟨rfl, rfl⟩
  | some given =>
    unfold Worker.event
    dsimp only
    split
    · exact ⟨rfl, rfl⟩
    · exact ⟨rfl, rfl⟩

end WorkerSteps

section Runs

variable {generation fuel : ℕ} {p : Personality} {s t : System}

theorem agreeing_step (h : Agreeing generation p s) (hstep : Step s t) : Agreeing generation p t := by
  obtain ⟨client, stage, ahead, event, h⟩ := h
  cases hstep with
  | call op hcall => exact ⟨_, _, _, _, h.begins op hcall⟩
  | client hcall hserved => exact h.asks hcall hserved
  | returned hcall => exact h.returns hcall
  | loop hloop hserved => exact h.answers hloop hserved
  | service husb hservice =>
    obtain ⟨worker, hserved, hagreeing⟩ := h.serves husb
    obtain ⟨_, rfl⟩ := Prod.mk.inj (hserved.symm.trans hservice)
    exact hagreeing
  | serviceFailed husb hservice =>
    obtain ⟨worker, hserved, _⟩ := h.serves husb
    nomatch hserved.symm.trans hservice
  | traffic traffic husb =>
    rw [traffic_event]
    refine ⟨client, stage, ahead, event, ?_, { h.flags with }, h.calls, h.loop,
      h.ledger.produces fun given hgiven => offered_fine hgiven⟩
    dsimp only
    rw [(event_state _).1, (event_state _).2]
    exact h.position
  | usbEnds =>
    refine ⟨client, stage, ahead, event, h.position.ended, ?_, h.calls, h.loop, ?_⟩
    · exact ⟨fun _ => .inl rfl, fun _ _ => .inl rfl, fun _ => .inl rfl, h.flags.shut,
        h.flags.loopShut⟩
    · exact { h.ledger with verdicts := fun entry hentry =>
        (h.ledger.verdicts entry hentry).mono (fun _ => .inl rfl) (Nat.le_refl _) }
  | pcmEnds =>
    refine ⟨client, stage, ahead, event, h.position, ?_, h.calls, h.loop, ?_⟩
    · exact ⟨fun _ => .inr rfl, fun _ _ => .inr rfl, fun _ => .inr rfl, h.flags.shut,
        h.flags.loopShut⟩
    · exact { h.ledger with verdicts := fun entry hentry =>
        (h.ledger.verdicts entry hentry).mono (fun _ => .inr rfl) (Nat.le_refl _) }

theorem control_new {family : UInt8} {control : Control}
    (h : Control.new generation family = .ok control) :
    control = ⟨generation, family, 0, false, List.replicate 9 0⟩ := by
  unfold Control.new at h
  split at h
  · cases h
  · exact (Except.ok.inj h).symm

theorem transactions_new {state : NativeState} {log : Transactions}
    (h : Transactions.new generation state = .ok log) :
    log = ⟨generation, familyOf state, 0, encode state, state⟩ := by
  unfold Transactions.new at h
  split at h
  · cases h
  · rw [← Except.ok.inj h, familyOf_eq, List.getD_eq_getElem?_getD,
      List.getElem?_eq_getElem (one_lt_encode state)]
    rfl

theorem reachable_agreeing (h : Reachable generation p fuel s) : Agreeing generation p s := by
  induction h with
  | ready hcontrol hstate =>
    obtain rfl := control_new hcontrol
    obtain rfl := transactions_new hstate
    refine ⟨none, .listening, [], none, .idle .none, ?_, .none, serve_obeys generation fuel, ?_⟩
    · exact ⟨fun h => h.elim False.elim nofun, nofun, nofun, nofun, nofun⟩
    · exact ⟨rfl, rfl, rfl, rfl, rfl, rfl, rfl, List.Sublist.refl _, rfl, nofun, nofun⟩
  | step _ hstep ih => exact agreeing_step ih hstep

/-- What holds of a client and its worker at every moment. -/
structure Agreed (p : Personality) (s : System) : Prop where
  counted : s.control.sequence = (updated s.results).length
  applied : s.call = none → s.worker.state.sequence = s.control.sequence ∧
    s.worker.state.state = (updated s.results).getLastD p.neutral
  /-- Updates succeed while both threads run, until the sequence is exhausted. -/
  accepted : ∀ state result, (Operation.update state, result) ∈ s.results →
    familyOf state = familyOf p.neutral → result = .ok .done ∨ s.stopped ∨
      u64Max ≤ s.control.sequence
  foreign : ∀ state result, (Operation.update state, result) ∈ s.results →
    familyOf state ≠ familyOf p.neutral →
      result = .error (.io "state belongs to another controller family")
  order : (returnedEvents s.results ++ s.worker.events).Sublist s.produced
  intact : ∀ event ∈ returnedEvents s.results, Fine event
  account : s.call = none → s.produced.length =
    (returnedEvents s.results).length + s.worker.events.length + s.worker.lost

theorem Agreeing.agreed (h : Agreeing generation p s) : Agreed p s := by
  obtain ⟨client, stage, ahead, event, hjoint⟩ := h
  have hledger := hjoint.ledger
  have hnothing : s.call = none → ahead = [] ∧ event = none := by
    intro hcall
    have hcalls := hjoint.calls
    rw [hcall] at hcalls
    cases hcalls
    exact position_idle hjoint.position .none
  have horder : (returnedEvents s.results ++ s.worker.events).Sublist s.produced :=
    ((List.sublist_append_left _ event.toList).append (List.Sublist.refl _)).trans hledger.order
  constructor
  · exact hledger.updates.symm
  · intro hcall
    obtain ⟨rfl, rfl⟩ := hnothing hcall
    have happlied := hledger.applied
    rw [List.append_nil] at happlied
    exact ⟨hledger.sequence, happlied⟩
  · intro state result hresult hfamily
    exact (hledger.verdicts _ hresult).2 (hfamily.trans hledger.client_family.symm)
  · intro state result hresult hfamily
    exact (hledger.verdicts _ hresult).1 fun h => hfamily (h.trans hledger.client_family)
  · exact horder
  · intro event hevent
    exact hledger.fine event (horder.subset (List.mem_append_left _ hevent))
  · intro hcall
    obtain ⟨rfl, rfl⟩ := hnothing hcall
    have haccount := hledger.account
    rw [Option.toList_none, List.append_nil, List.length_append] at haccount
    exact haccount

/-- The control protocol, for the worker it was made for and against every other peer. -/
theorem control_protocol :
    (∀ generation p fuel s, Reachable generation p fuel s → Agreed p s) ∧
    (∀ (c : Control) (state : NativeState), familyOf state ≠ c.family →
      (Operation.update state).run c =
        .ret (.error (.io "state belongs to another controller family"), c)) ∧
    (∀ (c : Control) (op : Operation) (frame : Frame), frame.1 = 0x81 → ¬Replies c op frame) ∧
    (∀ (c d : Control) (before after : List Entry) (entry : Entry),
      Session c (before ++ entry :: after) d → entry.Refused →
      (∃ error, entry.result = .error error) ∧ d = { entry.control with closed := true } ∧
        ∀ later ∈ after, later.log = []) := by
  refine ⟨?_, ?_, ?_, ?_⟩
  · intro generation p fuel s h
    exact (reachable_agreeing h).agreed
  · intro c state hfamily
    change (AudioWorker.update state c).bind _ = _
    rw [update_foreign hfamily]
    rfl
  · intro c op frame hfailure
    exact not_replies_failure hfailure
  · intro c d before after entry hsession hrefused
    exact hsession.refused hrefused

end Runs

end AudioWorkerAgreement
