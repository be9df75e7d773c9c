import VirtualGamepad.HidRuntimeLedger
import VirtualGamepad.BatchDelivery

/-! Input reports of a HID session reach the transport once and in order. The ledger's
report queue is a batch sender, so every log of the runtime has a delivery history. -/
namespace HidRuntimeDelivery

open Fallible Runs HidRuntime HidRuntimeLedger

variable {P T S O : Type} [Protocol P S O]

/-- What a call means to the sender of input reports. -/
def deliveryEvent (limits : Limits) (e : Entry P S) : Option (BatchDelivery.Event Report) :=
  match e.call with
  | .submit (.input r) outcome => some (.attempt r (outcome = .submitted))
  | .lifecycle .stop => some .clear
  | .close _ => some .clear
  | .input _ (.ok reports) => if Acceptable limits reports then some (.batch reports) else none
  | _ => none

def deliveries (limits : Limits) (calls : List (Entry P S)) :
    List (BatchDelivery.Event Report) := calls.filterMap (deliveryEvent limits)

/-- The reports of the Input commands the transport accepted. -/
def acceptedInputs (calls : List (Entry P S)) : List Report :=
  calls.filterMap fun e => match e.call with
    | .submit (.input r) .submitted => some r
    | _ => none

/-- Every batch that a successful `Protocol::input` returned. -/
def returnedBatches (calls : List (Entry P S)) : List (List Report) :=
  calls.filterMap fun e => match e.call with
    | .input _ (.ok reports) => some reports
    | _ => none

/-- The returned batches that fit the queue and hold input reports only. -/
def acceptedBatches (limits : Limits) (calls : List (Entry P S)) : List (List Report) :=
  (returnedBatches calls).filter fun reports => Acceptable limits reports

/-- The personality after one more call, where a generation counts only with its batch. -/
def advance (limits : Limits) (p : P) (e : Entry P S) : P :=
  match e.call with
  | .submit command outcome => Protocol.delivered p command outcome
  | .request kind _ => (Protocol.request p kind e.now).2
  | .output report _ => (Protocol.output report e.now p).2
  | .lifecycle event => (Protocol.lifecycle p event e.now).2
  | .input state (.ok reports) =>
    if Acceptable limits reports then (Protocol.input state e.now p).2 else p
  | .replace protocol => protocol
  | _ => p

section Sender

variable {session : ℕ} {limits : Limits} {s t : Ledger P} {e : Entry P S}

theorem failed_queue (s : Ledger P) (e : Error) : (s.failed e).queue = s.queue := by
  unfold Ledger.failed; split <;> rfl

theorem failed_protocol (s : Ledger P) (e : Error) : (s.failed e).protocol = s.protocol := by
  unfold Ledger.failed; split <;> rfl

theorem onEvent_queue (s : Ledger P) (result : Except Error (Option HostEvent)) :
    (s.onEvent session result).queue = s.queue := by
  unfold Ledger.onEvent
  split
  · exact failed_queue s _
  · rfl
  · split <;> rfl
  · rfl

theorem onEvent_protocol (s : Ledger P) (result : Except Error (Option HostEvent)) :
    (s.onEvent session result).protocol = s.protocol := by
  unfold Ledger.onEvent
  split
  · exact failed_protocol s _
  · rfl
  · split <;> rfl
  · rfl

theorem onDelivery_protocol (s : Ledger P) (command : Command) (outcome : Delivery) :
    (s.onDelivery command outcome).protocol = Protocol.delivered s.protocol command outcome := by
  cases outcome <;> rfl

theorem onDelivery_queue (s : Ledger P) (command : Command) (outcome : Delivery) :
    (s.onDelivery command outcome).queue = s.queue := by
  cases outcome <;> rfl

theorem onRequest_queue (s : Ledger P) (now : ℕ) (r : Request) (reply : Reply) :
    (s.onRequest limits now r reply).queue = s.queue := by
  unfold Ledger.onRequest; split <;> rfl

theorem onRequest_protocol (s : Ledger P) (now : ℕ) (r : Request) (reply : Reply) :
    (s.onRequest limits now r reply).protocol = (Protocol.request s.protocol r.kind now).2 := by
  unfold Ledger.onRequest; split <;> rfl

/-- One call of the ledger is at most one event of the batch sender. -/
theorem step_delivery (h : Ledger.Step session limits s e t) :
    match deliveryEvent limits e with
    | some event => BatchDelivery.Step s.queue event t.queue
    | none => t.queue = s.queue := by
  obtain ⟨now, call⟩ := e
  cases call with
  | event result =>
    obtain ⟨_, _, _, rfl⟩ := h
    exact onEvent_queue s result
  | submit command outcome =>
    cases command with
    | input r =>
      obtain ⟨_, _, rest, hq, rfl⟩ := h
      cases outcome with
      | submitted => simpa [deliveryEvent, BatchDelivery.Step] using hq
      | definitelyUnsent => exact ⟨⟨rest, hq⟩, rfl⟩
      | uncertain => exact ⟨⟨rest, hq⟩, rfl⟩
    | reply token reply =>
      obtain ⟨_, _, p, _, _, _, rfl⟩ := h
      exact onDelivery_queue s _ outcome
  | close result =>
    obtain ⟨_, rfl⟩ := h
    rfl
  | request kind reply =>
    obtain ⟨_, r, _, _, _, _, rfl⟩ := h
    exact onRequest_queue s now r reply
  | output report result =>
    obtain ⟨_, _, _, rfl⟩ := h
    cases result with
    | ok _ => rfl
    | error error => exact failed_queue _ error
  | lifecycle event =>
    obtain ⟨_, _, rfl⟩ := h
    cases event <;> simp [deliveryEvent, BatchDelivery.Step]
  | input state result =>
    obtain ⟨_, _, hq, _, rfl⟩ := h
    cases result with
    | error error => exact failed_queue s error
    | ok reports =>
      by_cases ha : Acceptable limits reports
      · simp only [deliveryEvent, if_pos ha, Ledger.onInput]
        exact ⟨hq, rfl⟩
      · simp only [deliveryEvent, if_neg ha, Ledger.onInput]
        split <;> rfl
  | replace protocol =>
    obtain ⟨_, _, rfl⟩ := h
    rfl

theorem step_advance (h : Ledger.Step session limits s e t) :
    t.protocol = advance limits s.protocol e := by
  obtain ⟨now, call⟩ := e
  cases call with
  | event result =>
    obtain ⟨_, _, _, rfl⟩ := h
    exact onEvent_protocol s result
  | submit command outcome =>
    cases command with
    | input r =>
      obtain ⟨_, _, rest, _, rfl⟩ := h
      exact onDelivery_protocol s _ outcome
    | reply token reply =>
      obtain ⟨_, _, p, _, _, _, rfl⟩ := h
      exact onDelivery_protocol s _ outcome
  | close result =>
    obtain ⟨_, rfl⟩ := h
    rfl
  | request kind reply =>
    obtain ⟨_, r, _, rfl, _, _, rfl⟩ := h
    exact onRequest_protocol s now r reply
  | output report result =>
    obtain ⟨_, _, _, rfl⟩ := h
    cases result with
    | ok _ => rfl
    | error error => exact failed_protocol _ error
  | lifecycle event =>
    obtain ⟨_, _, rfl⟩ := h
    rfl
  | input state result =>
    obtain ⟨_, _, _, _, rfl⟩ := h
    cases result with
    | error error => exact failed_protocol s error
    | ok reports =>
      by_cases ha : Acceptable limits reports
      · simp only [advance, if_pos ha, Ledger.onInput]
      · simp only [advance, if_neg ha, Ledger.onInput]
        split <;> rfl
  | replace protocol =>
    obtain ⟨_, _, rfl⟩ := h
    rfl

variable {calls : List (Entry P S)}

theorem run_deliveries (h : Run (Ledger.Step session limits) s calls t) :
    Run BatchDelivery.Step s.queue (deliveries limits calls) t.queue :=
  h.map Ledger.queue (deliveryEvent limits)
    (fun _ _ _ _ st hg => by simpa [hg] using step_delivery st)
    (fun _ _ _ st hg => by simpa [hg] using step_delivery st)

theorem run_advance (h : Run (Ledger.Step session limits) s calls t) :
    t.protocol = calls.foldl (advance limits) s.protocol := by
  induction h with
  | nil => rfl
  | snoc _ st ih => rw [List.foldl_append, ← ih]; exact step_advance st

theorem accepted_deliveries (calls : List (Entry P S)) :
    BatchDelivery.accepted (deliveries limits calls) = acceptedInputs calls := by
  unfold BatchDelivery.accepted deliveries acceptedInputs
  rw [List.filterMap_filterMap]
  congr 1
  funext ⟨now, call⟩
  rcases call with _ | ⟨_ | _, _ | _ | _⟩ | _ | _ | _ | (_ | _ | _ | _) | ⟨_, _ | _⟩ | _ <;>
    simp only [deliveryEvent] <;> try rfl
  split <;> rfl

theorem batches_deliveries (calls : List (Entry P S)) :
    BatchDelivery.batches (deliveries limits calls) = acceptedBatches limits calls := by
  unfold BatchDelivery.batches deliveries acceptedBatches returnedBatches
  rw [List.filterMap_filterMap, List.filter_filterMap]
  congr 1
  funext ⟨now, call⟩
  rcases call with _ | ⟨_ | _, _ | _ | _⟩ | _ | _ | _ | (_ | _ | _ | _) | ⟨_, _ | _⟩ | _ <;>
    simp only [deliveryEvent] <;> try rfl
  rename_i reports
  by_cases ha : Acceptable limits reports <;>
    simp [ha, BatchDelivery.Event.items, Option.filter]

/-- An occupied reply slot is emptied only by a submission of that reply or by a close. -/
theorem run_reply_held {p : PendingReply} (h : Run (Ledger.Step session limits) s calls t)
    (hp : s.reply = some p)
    (hno : ∀ e ∈ calls, ∀ token reply outcome, e.call ≠ .submit (.reply token reply) outcome) :
    t.reply = some p ∨ t.phase = .closed := by
  induction h with
  | nil => exact .inl hp
  | @snoc calls t e u _ st ih =>
    have hno' := hno e (by simp)
    rcases ih fun e he => hno e (by simp [he]) with hr | hc
    · obtain ⟨now, call⟩ := e
      cases call with
      | event result => rw [st.2.1] at hr; cases hr
      | submit command outcome =>
        cases command with
        | input r =>
          obtain ⟨_, _, rest, _, rfl⟩ := st
          cases outcome <;> exact .inl hr
        | reply token reply => exact absurd rfl (hno' token reply outcome)
      | close result => rw [st.2]; exact .inr rfl
      | request kind reply =>
        obtain ⟨_, r, _, _, hn, _⟩ := st
        rw [hn] at hr; cases hr
      | output report result =>
        obtain ⟨_, _, _, rfl⟩ := st
        left
        cases result with
        | ok _ => exact hr
        | error error => simp only [Ledger.failed]; split <;> exact hr
      | lifecycle event => rw [st.2.2]; exact .inl hr
      | input state result =>
        obtain ⟨_, _, _, _, rfl⟩ := st
        left
        cases result with
        | error error => simp only [Ledger.onInput, Ledger.failed]; split <;> exact hr
        | ok reports => simp only [Ledger.onInput]; split <;> (try split) <;> exact hr
      | replace protocol => rw [st.2.2]; exact .inl hr
    · right
      obtain ⟨now, call⟩ := e
      rcases call with _ | ⟨_ | _, _⟩ | _ | _ | _ | _ | _ | _ <;>
        simp [Ledger.Step, hc] at st

theorem run_reply_retried {before between after : List (Entry P S)} {e e' : Entry P S}
    {token token' : RequestId} {reply reply' : Reply} {outcome : Delivery}
    (h : Run (Ledger.Step session limits) s (before ++ e :: (between ++ e' :: after)) t)
    (he : e.call = .submit (.reply token reply) .definitelyUnsent)
    (he' : e'.call = .submit (.reply token' reply') outcome)
    (hno : ∀ e ∈ between, ∀ token reply outcome,
      e.call ≠ .submit (.reply token reply) outcome) : token' = token ∧ reply' = reply := by
  obtain ⟨u, _, h⟩ := run_append.mp h
  obtain ⟨v, hv, h⟩ := run_cons.mp h
  obtain ⟨w, hw, h⟩ := run_append.mp h
  obtain ⟨x, hx, _⟩ := run_cons.mp h
  unfold Ledger.Step at hv hx
  rw [he] at hv
  rw [he'] at hx
  obtain ⟨_, _, p, hp, hcmd, _, rfl⟩ := hv
  obtain ⟨hlive, _, q, hq, hcmd', _, _⟩ := hx
  rcases run_reply_held hw (p := p) hp hno with hr | hc
  · have : p = q := Option.some.inj (hr.symm.trans hq)
    subst this
    have := hcmd.symm.trans hcmd'
    simp only [Command.reply.injEq] at this
    exact ⟨this.1.symm, this.2.symm⟩
  · rw [hlive] at hc; cases hc

end Sender

/-- Delivery of input reports in a runtime that started with the personality `first`. -/
structure DeliveredInOrder (limits : Limits) (first : P) (rt : Runtime P T S O) : Prop where
  /-- The accepted Input commands are the accepted batches in order, each one whole, cut by a
  clear, or, for the last, still partly queued. -/
  history : ∃ queued, rt.pending = queued.map .input ∧
    ∃ h : BatchDelivery.History (deliveries limits rt.calls) queued,
      acceptedInputs rt.calls = h.segments.flatMap (fun s => BatchDelivery.accepted s.events) ∧
      acceptedBatches limits rt.calls = h.segments.map BatchDelivery.Segment.batch
  /-- After a report was not sent comes the same report again, or a clear. -/
  retried : ∀ before after r e,
    deliveries limits rt.calls = before ++ .attempt r false :: e :: after →
      e = .clear ∨ ∃ accepted, e = .attempt r accepted
  retried_reply : ∀ before e between e' after token reply token' reply' outcome,
    rt.calls = before ++ e :: (between ++ e' :: after) →
    e.call = .submit (.reply token reply) .definitelyUnsent →
    e'.call = .submit (.reply token' reply') outcome →
    (∀ d ∈ between, ∀ token reply outcome, d.call ≠ .submit (.reply token reply) outcome) →
      token' = token ∧ reply' = reply
  /-- Generation starts only when nothing of an earlier batch is queued. -/
  generated_when_empty : ∀ before e after state result, rt.calls = before ++ e :: after →
    e.call = .input state result →
      Run BatchDelivery.Step [] (deliveries limits before) []
  /-- The stored personality is the replay in which a generation counts only with its batch. -/
  protocol : rt.protocol = rt.calls.foldl (advance limits) first
  generated : ∀ before e after state result, rt.calls = before ++ e :: after →
    e.call = .input state result →
      result = (Protocol.input state e.now (before.foldl (advance limits) first)).1

section Sessions

variable [Transport T] {first : P} {transport : T} {session : ℕ} {limits : Limits}

theorem input_step {calls before after : List (Entry P S)} {e : Entry P S} {t : Ledger P}
    {state : S} {result : Except Error (List Report)}
    (h : Run (Ledger.Step session limits) (Ledger.start first) calls t)
    (hc : calls = before ++ e :: after) (he : e.call = .input state result) :
    Run BatchDelivery.Step [] (deliveries limits before) [] ∧
      result = (Protocol.input state e.now (before.foldl (advance limits) first)).1 := by
  rw [hc] at h
  obtain ⟨u, hu, h⟩ := run_append.mp h
  obtain ⟨v, hv, _⟩ := run_cons.mp h
  unfold Ledger.Step at hv
  rw [he] at hv
  obtain ⟨_, _, hq, hr, _⟩ := hv
  have hd := run_deliveries hu
  rw [hq] at hd
  rw [run_advance hu] at hr
  exact ⟨hd, hr⟩

/-- Every accepted batch reaches the transport exactly once and in order, up to a suffix that a
STOP or the close removed. -/
theorem inputs_delivered_in_order {rt : Runtime P T S O}
    (h : Reachable first transport session limits rt) : DeliveredInOrder limits first rt := by
  obtain ⟨queue, hq, hr⟩ := (reachable_resting h).run
  have hd : Run BatchDelivery.Step [] (deliveries limits rt.calls) queue := run_deliveries hr
  obtain ⟨hist⟩ := BatchDelivery.run_history hd
  constructor
  · refine ⟨queue, hq, hist, ?_, ?_⟩
    · rw [← hist.accepted_eq, accepted_deliveries]
    · rw [← hist.batches_eq, batches_deliveries]
  · intro before after r e he
    exact BatchDelivery.retry_same (he ▸ hd)
  · intro before e between e' after token reply token' reply' outcome hc he he' hno
    exact run_reply_retried (hc ▸ hr) he he' hno
  · intro before e after state result hc he
    exact (input_step hr hc he).1
  · exact run_advance hr
  · intro before e after state result hc he
    exact (input_step hr hc he).2

/-- A blocked second report is retried before the next state is generated. -/
theorem inputs_delivered_in_order_retry :
    DeliveredInOrder ⟨32, 16, 100000⟩ (⟨2, 255⟩ : Counting)
      (perform (.service 1) (perform (.update (fun s => (.ok (), s + 41)))
        (perform (.service 0) (Counting.runtime ⟨2, 255⟩ ⟨[], [.submitted, .definitelyUnsent]⟩
          ⟨32, 16, 100000⟩)))) :=
  inputs_delivered_in_order (((Counting.reachable ⟨2, 255⟩ ⟨[], [.submitted, .definitelyUnsent]⟩
    (by decide)).step (.service 0)).step (.update fun s => (.ok (), s + 41)) |>.step (.service 1))

/-- A batch that does not fit the queue was returned by a successful generation, yet none of it
is ever sent, although no STOP and no close took it. -/
theorem rejected_batch_not_delivered :
    ∃ rt : Runtime Counting Scripted UInt8 UInt8,
      Reachable ⟨2, 0⟩ ⟨[], []⟩ 7 ⟨1, 2, 1⟩ rt ∧ rt.closed = false ∧ rt.pending = [] ∧
      deliveries ⟨1, 2, 1⟩ rt.calls = [] ∧
      returnedBatches rt.calls = [[Counting.report 0 0, Counting.report 0 1]] ∧
      acceptedInputs rt.calls = [] :=
  ⟨perform (.service 0) (Counting.runtime ⟨2, 0⟩ ⟨[], []⟩ ⟨1, 2, 1⟩),
    (Counting.reachable _ _ (by decide)).step (.service 0), rfl, rfl, rfl, rfl, rfl⟩

end Sessions

end HidRuntimeDelivery
