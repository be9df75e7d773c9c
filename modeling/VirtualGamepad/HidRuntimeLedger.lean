import VirtualGamepad.HidRuntime
import VirtualGamepad.Runs

/-! What a HID session owes its host, stated over the log of calls alone: one report queue,
one reply slot, one event in hand, and a phase. The runtime refines this ledger. -/
namespace HidRuntimeLedger

open Fallible MachineInt Runs HidRuntime

inductive Phase where
  | live
  | doomed
  | closed
  deriving DecidableEq, Repr

/-- `doomed` is a session whose next call can only be the close of its transport. -/
structure Ledger (P : Type) where
  protocol : P
  queue : List Report
  reply : Option PendingReply
  inHand : Option HostEvent
  lastRequest : Option ℕ
  phase : Phase

def Stale (session : ℕ) (last : Option ℕ) (token : RequestId) : Prop :=
  token.session ≠ session ∨ last.any (token.ordinal ≤ ·)

instance (session : ℕ) (last : Option ℕ) (token : RequestId) :
    Decidable (Stale session last token) := inferInstanceAs (Decidable (_ ∨ _))

/-- A batch the session takes: it fits the queue and holds input reports only. -/
def Acceptable (limits : Limits) (reports : List Report) : Prop :=
  reports.length ≤ limits.inputQueue ∧ ∀ r ∈ reports, r.kind = .input

instance (limits : Limits) (reports : List Report) : Decidable (Acceptable limits reports) :=
  inferInstanceAs (Decidable (_ ∧ _))

variable {P T S O : Type} [Protocol P S O]

namespace Ledger

def failed (s : Ledger P) (e : Error) : Ledger P :=
  if e.recoverable then s else { s with phase := .doomed }

def onEvent (session : ℕ) (s : Ledger P) : Except Error (Option HostEvent) → Ledger P
  | .error e => s.failed e
  | .ok none => s
  | .ok (some (.request r)) =>
    if Stale session s.lastRequest r.token then { s with phase := .doomed }
    else { s with inHand := some (.request r) }
  | .ok (some event) => { s with inHand := some event }

def onDelivery (s : Ledger P) (command : Command) : Delivery → Ledger P
  | .submitted => { s with protocol := Protocol.delivered s.protocol command .submitted }
  | .definitelyUnsent =>
    { s with protocol := Protocol.delivered s.protocol command .definitelyUnsent }
  | .uncertain =>
    { s with protocol := Protocol.delivered s.protocol command .uncertain, phase := .doomed }

def onRequest (limits : Limits) (now : ℕ) (s : Ledger P) (r : Request) (reply : Reply) :
    Ledger P :=
  let s := { s with
    inHand := none
    lastRequest := some r.token.ordinal
    protocol := (Protocol.request s.protocol r.kind now).2 }
  match validateReply r.kind reply with
  | .ok () => { s with
      reply := some ⟨.reply r.token reply, saturatingAdd now limits.replyTimeoutUs⟩ }
  | .error _ => { s with phase := .doomed }

def onInput (limits : Limits) (candidate : P) (s : Ledger P) :
    Except Error (List Report) → Ledger P
  | .error e => s.failed e
  | .ok reports =>
    if Acceptable limits reports then { s with queue := reports, protocol := candidate }
    else if limits.inputQueue < reports.length then s
    else { s with phase := .doomed }

/-- What each call may do, and in which states it may be made. -/
def Step (session : ℕ) (limits : Limits) (s : Ledger P) (e : Entry P S) (t : Ledger P) : Prop :=
  match e.call with
  | .event result =>
    s.phase = .live ∧ s.reply = none ∧ s.inHand = none ∧ t = s.onEvent session result
  | .submit (.input r) outcome =>
    s.phase = .live ∧ s.inHand = none ∧ ∃ rest, s.queue = r :: rest ∧
      t = { s.onDelivery (.input r) outcome with
        queue := if outcome = .submitted then rest else s.queue }
  | .submit (.reply token reply) outcome =>
    s.phase = .live ∧ s.inHand = none ∧ ∃ p, s.reply = some p ∧ p.command = .reply token reply ∧
      e.now < p.deadline ∧
      t = { s.onDelivery (.reply token reply) outcome with
        reply := if outcome = .submitted then none else s.reply }
  | .close _ =>
    s.phase ≠ .closed ∧
      t = { s with queue := [], reply := none, inHand := none, phase := .closed }
  | .request kind reply =>
    s.phase = .live ∧ ∃ r, s.inHand = some (.request r) ∧ r.kind = kind ∧ s.reply = none ∧
      reply = (Protocol.request s.protocol kind e.now).1.1 ∧ t = s.onRequest limits e.now r reply
  | .output report result =>
    s.phase = .live ∧ s.inHand = some (.output report) ∧
      result = (Protocol.output report e.now s.protocol).1.map (fun _ => ()) ∧
      t = (match result with
        | .ok () => (id : Ledger P → Ledger P)
        | .error error => fun u => u.failed error)
        { s with inHand := none, protocol := (Protocol.output report e.now s.protocol).2 }
  | .lifecycle event =>
    s.phase = .live ∧ s.inHand = some (.lifecycle event) ∧
      t = { s with
        inHand := none
        queue := if event = .stop then [] else s.queue
        protocol := (Protocol.lifecycle s.protocol event e.now).2 }
  | .input state result =>
    s.phase = .live ∧ s.inHand = none ∧ s.queue = [] ∧
      result = (Protocol.input state e.now s.protocol).1 ∧
      t = s.onInput limits (Protocol.input state e.now s.protocol).2 result
  | .replace protocol => s.phase = .live ∧ s.inHand = none ∧ t = { s with protocol }

def start (protocol : P) : Ledger P := ⟨protocol, [], none, none, none, .live⟩

end Ledger

section Phases

variable {session : ℕ} {limits : Limits} {s t : Ledger P} {calls : List (Entry P S)}
  {e : Entry P S}

theorem step_phase (h : Ledger.Step session limits s e t) :
    s.phase = .live ∨ (s.phase ≠ .closed ∧ t.phase = .closed ∧ ∃ result, e.call = .close result) := by
  obtain ⟨now, call⟩ := e
  rcases call with _ | ⟨_ | _, _⟩ | result | _ | _ | _ | _ | _
  · exact .inl h.1
  · exact .inl h.1
  · exact .inl h.1
  · exact .inr ⟨h.1, h.2 ▸ rfl, result, rfl⟩
  all_goals exact .inl h.1

theorem run_closed (h : Run (Ledger.Step session limits) s calls t) (hs : s.phase = .closed) :
    calls = [] ∧ t = s := by
  cases calls with
  | nil => exact ⟨rfl, run_nil.mp h⟩
  | cons e calls =>
    obtain ⟨u, hu, _⟩ := run_cons.mp h
    rcases step_phase hu with hl | ⟨hl, _⟩
    · rw [hs] at hl; cases hl
    · exact absurd hs hl

/-- A doomed session makes no call but the close of its transport. -/
theorem run_doomed (h : Run (Ledger.Step session limits) s calls t) (hs : s.phase = .doomed) :
    (calls = [] ∧ t = s) ∨
      (t.phase = .closed ∧ ∃ e result, calls = [e] ∧ e.call = .close result) := by
  cases calls with
  | nil => exact .inl ⟨rfl, run_nil.mp h⟩
  | cons e calls =>
    obtain ⟨u, hu, hr⟩ := run_cons.mp h
    rcases step_phase hu with hl | ⟨_, hc, result, he⟩
    · rw [hs] at hl; cases hl
    · obtain ⟨rfl, rfl⟩ := run_closed hr hc
      exact .inr ⟨hc, e, result, rfl, he⟩

end Phases

section Simulation

variable {session now : ℕ} {limits : Limits} {first : P}

/-- The log is a run of the ledger that ends in what the runtime holds, up to the event in
hand and the phase, which the runtime keeps in its program counter. -/
structure Tracks (first : P) (session : ℕ) (limits : Limits) (rt : Runtime P T S O)
    (inHand : Option HostEvent) (phase : Phase) : Prop where
  session_eq : rt.session = session
  limits_eq : rt.limits = limits
  run : ∃ queue, rt.pending = queue.map .input ∧
    Run (Ledger.Step session limits) (Ledger.start first) rt.calls
      ⟨rt.protocol, queue, rt.reply, inHand, rt.lastRequest, phase⟩
  shape : ∀ p ∈ rt.reply, ∃ token reply, p.command = .reply token reply

/-- Inside `service`: the session is open and its clock is the caller's. -/
structure Serving (first : P) (session : ℕ) (limits : Limits) (now : ℕ)
    (inHand : Option HostEvent) (rt : Runtime P T S O) : Prop where
  tracks : Tracks first session limits rt inHand .live
  now_eq : rt.now = now
  opened : rt.closed = false

/-- After a failing step: recoverable errors leave a session that can be served again. -/
structure Failing (first : P) (session : ℕ) (limits : Limits) (now : ℕ) (e : Error)
    (rt : Runtime P T S O) : Prop where
  tracks : ∃ inHand phase, Tracks first session limits rt inHand phase ∧ phase ≠ .closed ∧
    (e.recoverable → inHand = none ∧ phase = .live)
  now_eq : rt.now = now
  opened : rt.closed = false

theorem Serving.failing {rt : Runtime P T S O}
    (h : Serving first session limits now none rt) (e : Error) :
    Failing first session limits now e rt :=
  ⟨⟨none, .live, h.tracks, by decide, fun _ => ⟨rfl, rfl⟩⟩, h.now_eq, h.opened⟩

theorem Serving.fatal {rt : Runtime P T S O} {inHand : Option HostEvent}
    (h : Serving first session limits now inHand rt) {e : Error} (he : e.recoverable = false) :
    Failing first session limits now e rt :=
  ⟨⟨inHand, .live, h.tracks, by decide, by simp [he]⟩, h.now_eq, h.opened⟩

theorem Tracks.extend {rt rt' : Runtime P T S O} {a a' : Option HostEvent} {ph ph' : Phase}
    (h : Tracks first session limits rt a ph) (call : Call P S)
    (hs : rt'.session = rt.session) (hl : rt'.limits = rt.limits)
    (hc : rt'.calls = rt.calls ++ [⟨rt.now, call⟩])
    (hshape : ∀ p ∈ rt'.reply, ∃ token reply, p.command = .reply token reply)
    (hst : ∀ queue, rt.pending = queue.map .input → ∃ queue', rt'.pending = queue'.map .input ∧
      Ledger.Step session limits ⟨rt.protocol, queue, rt.reply, a, rt.lastRequest, ph⟩
        ⟨rt.now, call⟩ ⟨rt'.protocol, queue', rt'.reply, a', rt'.lastRequest, ph'⟩) :
    Tracks first session limits rt' a' ph' := by
  obtain ⟨queue, hq, hr⟩ := h.run
  obtain ⟨queue', hq', st⟩ := hst queue hq
  exact ⟨hs.trans h.session_eq, hl.trans h.limits_eq, ⟨queue', hq', hc ▸ hr.snoc st⟩, hshape⟩

/-- Fields outside the ledger may change freely between calls. -/
theorem Tracks.congr {rt rt' : Runtime P T S O} {a : Option HostEvent} {ph : Phase}
    (h : Tracks first session limits rt a ph)
    (he : (rt'.session, rt'.limits, rt'.calls, rt'.pending, rt'.protocol, rt'.reply,
      rt'.lastRequest) = (rt.session, rt.limits, rt.calls, rt.pending, rt.protocol, rt.reply,
      rt.lastRequest)) : Tracks first session limits rt' a ph := by
  simp only [Prod.mk.injEq] at he
  obtain ⟨hs, hl, hc, hp, hpr, hr, hlr⟩ := he
  exact ⟨hs.trans h.session_eq, hl.trans h.limits_eq, by rw [hp, hpr, hr, hlr, hc]; exact h.run,
    by rw [hr]; exact h.shape⟩

theorem Serving.congr {rt rt' : Runtime P T S O} {a : Option HostEvent}
    (h : Serving first session limits now a rt)
    (he : (rt'.session, rt'.limits, rt'.calls, rt'.pending, rt'.protocol, rt'.reply,
      rt'.lastRequest) = (rt.session, rt.limits, rt.calls, rt.pending, rt.protocol, rt.reply,
      rt.lastRequest)) (hn : rt'.now = rt.now) (hc : rt'.closed = rt.closed) :
    Serving first session limits now a rt' :=
  ⟨h.tracks.congr he, hn.trans h.now_eq, hc.trans h.opened⟩

theorem Serving.observeOutput {rt : Runtime P T S O} {a : Option HostEvent}
    (h : Serving first session limits now a rt) (output : Option O) :
    Serving first session limits now a (rt.observeOutput output) := by
  cases output with
  | none => exact h
  | some output =>
    refine h.congr ?_ ?_ ?_ <;>
      simp only [Runtime.observeOutput, Option.elim, Runtime.observe] <;> split <;> rfl

def restingPhase (rt : Runtime P T S O) : Phase := if rt.closed then .closed else .live

/-- Between calls: no event is in hand and the phase is the runtime's own flag. -/
def Resting (first : P) (session : ℕ) (limits : Limits) (rt : Runtime P T S O) : Prop :=
  Tracks first session limits rt none (restingPhase rt)

theorem Resting.serving {rt : Runtime P T S O} (h : Resting first session limits rt)
    (hc : rt.closed = false) : Serving first session limits rt.now none rt := by
  refine ⟨?_, rfl, hc⟩
  simpa [Resting, restingPhase, hc] using h

theorem Serving.resting {rt : Runtime P T S O} (h : Serving first session limits now none rt) :
    Resting first session limits rt := by
  simpa [Resting, restingPhase, h.opened] using h.tracks

variable [Transport T]

/-- The phase after a submission: only an uncertain one dooms the session. -/
def afterDelivery : Delivery → Phase
  | .uncertain => .doomed
  | _ => .live

theorem submit_reply {rt : Runtime P T S O} (h : Serving first session limits now none rt)
    {p : PendingReply} (hp : rt.reply = some p) (hd : now < p.deadline) :
    ∃ outcome rt', submit p.command rt = (.ok outcome, rt') ∧ rt'.now = now ∧
      rt'.closed = false ∧ rt'.reply = rt.reply ∧
      Tracks first session limits
        { rt' with reply := if outcome = .submitted then none else rt'.reply } none
        (afterDelivery outcome) := by
  obtain ⟨token, reply, hcmd⟩ := h.tracks.shape p hp
  rcases hs : Transport.submit rt.transport p.command with ⟨outcome, transport⟩
  refine ⟨outcome, { rt.record (.submit p.command outcome) with
    transport, protocol := Protocol.delivered rt.protocol p.command outcome },
    by simp [submit, hs], h.now_eq, h.opened, rfl, ?_⟩
  refine h.tracks.extend (.submit p.command outcome) rfl rfl rfl ?_ ?_
  · intro q hq
    apply h.tracks.shape q
    split at hq
    · cases hq
    · exact hq
  · intro queue hq
    refine ⟨queue, hq, ?_⟩
    rw [hcmd]
    refine ⟨rfl, rfl, p, hp, hcmd, h.now_eq ▸ hd, ?_⟩
    cases outcome <;> rfl

theorem flushReply_spec {rt : Runtime P T S O} (h : Serving first session limits now none rt)
    (budget : ℕ) :
    Meets (flushReply now budget rt) (fun _ => Serving first session limits now none)
      (Failing first session limits now) := by
  unfold flushReply
  rw [meets_get_bind]
  cases hp : rt.reply with
  | none => exact h
  | some p =>
    dsimp only
    split
    · exact h.fatal rfl
    · next hd =>
      obtain ⟨outcome, rt', hsub, hn, ho, hr, ht⟩ := submit_reply h hp (by omega)
      rw [meets_bind_ok hsub]
      cases outcome with
      | submitted => exact ⟨ht, hn, ho⟩
      | definitelyUnsent => exact ⟨ht, hn, ho⟩
      | uncertain => exact ⟨⟨none, .doomed, ht, by decide, by simp [Error.recoverable]⟩, hn, ho⟩

/-- A read leaves the event in hand, unless it failed or the request is refused. -/
theorem readEvent_spec {rt : Runtime P T S O} (h : Serving first session limits now none rt)
    (hr : rt.reply = none) :
    Meets (readEvent rt)
      (fun event rt' => rt'.reply = none ∧ match event with
        | none => Serving first session limits now none rt'
        | some (.request r) =>
          (Stale session rt'.lastRequest r.token ∧ rt'.session = session ∧
            Failing first session limits now .invalidRequest rt') ∨
          (¬ Stale session rt'.lastRequest r.token ∧
            Serving first session limits now (some (.request r)) rt')
        | some event => Serving first session limits now (some event) rt')
      (Failing first session limits now) := by
  rcases hev : Transport.event rt.transport with ⟨result, transport⟩
  let rt' : Runtime P T S O := { rt.record (.event result) with transport }
  have hrun : readEvent rt = (result, rt') := by simp [readEvent, hev, rt']
  -- the ledger moves by `onEvent`, whatever the transport answered
  have key : ∀ inHand phase, Ledger.onEvent session
        ⟨rt.protocol, [], none, none, rt.lastRequest, .live⟩ result =
        ⟨rt.protocol, [], none, inHand, rt.lastRequest, phase⟩ →
      Tracks first session limits rt' inHand phase := by
    intro inHand phase hk
    refine h.tracks.extend (.event result) rfl rfl rfl h.tracks.shape ?_
    intro queue hq
    refine ⟨queue, hq, rfl, hr, rfl, ?_⟩
    rw [show rt'.reply = none from hr, hr]
    revert hk
    rcases result with e | _ | event
    · simp only [Ledger.onEvent, Ledger.failed]
      split <;> simp_all [rt', Runtime.record]
    · simp_all [Ledger.onEvent, rt', Runtime.record]
    · cases event <;> simp only [Ledger.onEvent] <;> try split
      all_goals simp_all [rt', Runtime.record]
  rw [hrun]
  rcases result with e | _ | event
  · refine ⟨?_, h.now_eq, h.opened⟩
    cases he : e.recoverable with
    | true => exact ⟨none, .live, key _ _ (by simp [Ledger.onEvent, Ledger.failed, he]),
        by decide, fun _ => ⟨rfl, rfl⟩⟩
    | false => exact ⟨none, .doomed, key _ _ (by simp [Ledger.onEvent, Ledger.failed, he]),
        by decide, by simp⟩
  · exact ⟨hr, key _ _ rfl, h.now_eq, h.opened⟩
  · refine ⟨hr, ?_⟩
    cases event with
    | output report => exact ⟨key _ _ rfl, h.now_eq, h.opened⟩
    | lifecycle event => exact ⟨key _ _ rfl, h.now_eq, h.opened⟩
    | request r =>
      by_cases hst : Stale session rt.lastRequest r.token
      · exact .inl ⟨hst, h.tracks.session_eq, ⟨none, .doomed,
          key _ _ (by simp [Ledger.onEvent, hst]), by decide, by simp [Error.recoverable]⟩,
          h.now_eq, h.opened⟩
      · exact .inr ⟨hst, key _ _ (by simp [Ledger.onEvent, hst]), h.now_eq, h.opened⟩

theorem acceptRequest_spec {rt : Runtime P T S O} {r : Request} (budget : ℕ)
    (h : Serving first session limits now (some (.request r)) rt) (hr : rt.reply = none)
    (hst : ¬ Stale session rt.lastRequest r.token) :
    Meets (acceptRequest r now budget rt) (fun _ => Serving first session limits now none)
      (Failing first session limits now) := by
  have hst' : ¬ (r.token.session ≠ rt.session ∨ rt.lastRequest.any (r.token.ordinal ≤ ·)) := by
    rw [h.tracks.session_eq]; exact hst
  unfold acceptRequest
  rw [meets_get_bind, if_neg hst']
  rcases hq : Protocol.request rt.protocol r.kind now with ⟨⟨reply, output⟩, protocol⟩
  rw [meets_modify_bind]
  let rt' : Runtime P T S O := { rt.record (.request r.kind reply) with
    lastRequest := some r.token.ordinal, protocol }
  change Meets ((lift (validateReply r.kind reply) >>= _) rt') _ _
  -- the ledger moves by `onRequest`
  have key : ∀ (rt'' : Runtime P T S O) phase,
      (rt''.session, rt''.limits, rt''.calls, rt''.pending, rt''.protocol, rt''.lastRequest) =
        (rt'.session, rt'.limits, rt'.calls, rt'.pending, rt'.protocol, rt'.lastRequest) →
      Ledger.onRequest limits now ⟨rt.protocol, [], none, some (.request r), rt.lastRequest, .live⟩
        r reply = ⟨protocol, [], rt''.reply, none, some r.token.ordinal, phase⟩ →
      Tracks first session limits rt'' none phase := by
    intro rt'' phase he hk
    simp only [Prod.mk.injEq] at he
    obtain ⟨h1, h2, h3, h4, h5, h6⟩ := he
    refine h.tracks.extend (.request r.kind reply) h1 h2 h3 ?_ ?_
    · intro p hp
      simp only [Ledger.onRequest] at hk
      split at hk
      · have hr' := (Ledger.mk.inj hk).2.2.1
        rw [← hr'] at hp
        exact ⟨r.token, reply, by rw [← Option.some.inj hp]⟩
      · have hr' := (Ledger.mk.inj hk).2.2.1
        rw [← hr'] at hp
        cases hp
    · intro queue hq'
      refine ⟨queue, h4.trans hq', rfl, r, rfl, rfl, hr, ?_, ?_⟩
      · simp [h.now_eq, hq]
      · rw [h5, h6]
        revert hk
        simp only [Ledger.onRequest, h.now_eq, hq]
        split <;> simp_all [rt']
  rcases hv : validateReply r.kind reply with e | _
  · rw [meets_lift_error_bind]
    refine ⟨⟨none, .doomed, key rt' .doomed rfl ?_, by decide, ?_⟩, h.now_eq, h.opened⟩
    · simp [Ledger.onRequest, hq, hv, rt', Runtime.record, hr]
    · have : e = .invalidReply := by
        revert hv
        unfold validateReply
        split <;> (try split) <;> simp_all
      simp [this, Error.recoverable]
  · rw [meets_lift_ok_bind, meets_modify_bind, meets_modify_bind]
    apply flushReply_spec
    apply Serving.observeOutput
    refine ⟨key _ .live rfl ?_, h.now_eq, h.opened⟩
    have hl : rt'.limits = limits := h.tracks.limits_eq
    simp [Ledger.onRequest, hq, hv, hl]

omit [Transport T] in
theorem acceptOutput_spec {rt : Runtime P T S O} {report : Report}
    (h : Serving first session limits now (some (.output report)) rt) :
    Meets (acceptOutput report now rt) (fun _ => Serving first session limits now none)
      (Failing first session limits now) := by
  unfold acceptOutput
  rw [meets_get_bind]
  rcases hq : Protocol.output report now rt.protocol with ⟨result, protocol⟩
  rw [meets_modify_bind]
  let rt' : Runtime P T S O := { rt.record (.output report (result.map fun _ => ())) with protocol }
  have key : ∀ phase, (match result with
        | .ok _ => phase = .live
        | .error e => phase = if e.recoverable then .live else .doomed) →
      Tracks first session limits rt' none phase := by
    intro phase hk
    refine h.tracks.extend (.output report (result.map fun _ => ())) rfl rfl rfl
      h.tracks.shape ?_
    intro queue hq'
    refine ⟨queue, hq', rfl, rfl, by simp [h.now_eq, hq], ?_⟩
    rcases result with e | output
    · cases he : e.recoverable <;>
        simp_all [Except.map, Ledger.failed, rt', Runtime.record, h.now_eq]
    · simp_all [Except.map, rt', Runtime.record, h.now_eq]
  rcases result with e | output
  · rw [meets_lift_error_bind]
    refine ⟨⟨none, _, key _ rfl, ?_, ?_⟩, h.now_eq, h.opened⟩ <;>
      cases he : e.recoverable <;> simp
  · rw [meets_lift_ok_bind]
    exact (Serving.mk (key .live rfl) h.now_eq h.opened).observeOutput output

omit [Transport T] in
theorem acceptLifecycle_spec {rt : Runtime P T S O} {event : Lifecycle}
    (h : Serving first session limits now (some (.lifecycle event)) rt) :
    Meets (acceptLifecycle event now rt) (fun _ => Serving first session limits now none)
      (Failing first session limits now) := by
  unfold acceptLifecycle
  rw [meets_modify_bind, meets_get_bind]
  rcases hq : Protocol.lifecycle rt.protocol event now with ⟨output, protocol⟩
  by_cases he : event = .stop
  · subst he
    simp only [if_true, hq]
    rw [meets_modify_bind, meets_modify]
    apply Serving.observeOutput
    refine ⟨?_, h.now_eq, h.opened⟩
    refine h.tracks.extend (.lifecycle .stop) rfl rfl rfl h.tracks.shape ?_
    intro queue hq'
    refine ⟨[], rfl, rfl, rfl, ?_⟩
    simp [h.now_eq, hq, Runtime.record]
  · simp only [if_neg he, hq]
    rw [meets_modify_bind, meets_modify]
    apply Serving.observeOutput
    refine ⟨?_, h.now_eq, h.opened⟩
    refine h.tracks.extend (.lifecycle event) rfl rfl rfl h.tracks.shape ?_
    intro queue hq'
    refine ⟨queue, hq', rfl, rfl, ?_⟩
    simp [h.now_eq, hq, he, Runtime.record]

theorem hostEvent_spec {rt : Runtime P T S O} (h : Serving first session limits now none rt)
    (budget : ℕ) :
    Meets (hostEvent now budget rt) (fun _ => Serving first session limits now none)
      (Failing first session limits now) := by
  unfold hostEvent
  rw [meets_get_bind]
  split
  · next hc =>
    have hr : rt.reply = none := by simpa using hc.1
    refine meets_bind (readEvent_spec h hr) ?_
    rintro (_ | event) rt' ⟨hr', hev⟩
    · exact hev
    · cases event with
      | request r =>
        rcases hev with ⟨hst, hs, hf⟩ | ⟨hst, hs⟩
        · change Meets (acceptRequest r now budget rt') _ _
          unfold acceptRequest
          rw [meets_get_bind, if_pos (by rw [hs]; exact hst)]
          exact hf
        · exact acceptRequest_spec budget hs hr' hst
      | output report => exact meets_bind (acceptOutput_spec hev) fun _ _ hs => hs
      | lifecycle event => exact meets_bind (acceptLifecycle_spec hev) fun _ _ hs => hs
  · exact h

theorem submit_input {rt : Runtime P T S O} (h : Serving first session limits now none rt)
    {command : Command} {rest : List Command} (hp : rt.pending = command :: rest) :
    ∃ outcome rt', submit command rt = (.ok outcome, rt') ∧ rt'.now = now ∧
      rt'.closed = false ∧ rt'.pending = rt.pending ∧
      Tracks first session limits
        { rt' with pending := if outcome = .submitted then rt'.pending.tail else rt'.pending } none
        (afterDelivery outcome) := by
  rcases hs : Transport.submit rt.transport command with ⟨outcome, transport⟩
  refine ⟨outcome, { rt.record (.submit command outcome) with
    transport, protocol := Protocol.delivered rt.protocol command outcome },
    by simp [submit, hs], h.now_eq, h.opened, rfl, ?_⟩
  refine h.tracks.extend (.submit command outcome) rfl rfl rfl h.tracks.shape ?_
  intro queue hq
  cases queue with
  | nil => simp [hp] at hq
  | cons r queue =>
    rw [hp, List.map_cons, List.cons.injEq] at hq
    obtain ⟨rfl, rfl⟩ := hq
    refine ⟨if outcome = .submitted then queue else r :: queue, ?_, rfl, rfl, queue, rfl, ?_⟩
    · simp only [Runtime.record, hp]
      split <;> rfl
    · cases outcome <;> rfl

theorem drain_spec (budget : ℕ) : ∀ {rt : Runtime P T S O},
    Serving first session limits now none rt →
    Meets (drain budget rt) (fun _ => Serving first session limits now none)
      (Failing first session limits now) := by
  induction budget with
  | zero => intro rt h; exact h
  | succ budget ih =>
    intro rt h
    unfold drain
    rw [meets_get_bind]
    cases hp : rt.pending with
    | nil => exact h
    | cons command rest =>
      obtain ⟨outcome, rt', hsub, hn, ho, _, ht⟩ := submit_input h hp
      dsimp only
      rw [meets_bind_ok hsub]
      cases outcome with
      | submitted => exact ih ⟨ht, hn, ho⟩
      | definitelyUnsent => exact ⟨ht, hn, ho⟩
      | uncertain => exact ⟨⟨none, .doomed, ht, by decide, by simp [Error.recoverable]⟩, hn, ho⟩

omit [Transport T] in
theorem generate_spec {rt : Runtime P T S O} (h : Serving first session limits now none rt)
    (hp : rt.pending = []) :
    Meets (generate now rt) (fun _ => Serving first session limits now none)
      (Failing first session limits now) := by
  unfold generate
  rw [meets_get_bind]
  rcases hq : Protocol.input rt.state now rt.protocol with ⟨result, candidate⟩
  rw [meets_modify_bind]
  let rt' : Runtime P T S O := rt.record (.input rt.state result)
  -- the ledger moves by `onInput`
  have key : ∀ (rt'' : Runtime P T S O) queue phase,
      (rt''.session, rt''.limits, rt''.calls, rt''.reply, rt''.lastRequest) =
        (rt'.session, rt'.limits, rt'.calls, rt'.reply, rt'.lastRequest) →
      rt''.pending = queue.map .input →
      Ledger.onInput limits candidate ⟨rt.protocol, [], rt.reply, none, rt.lastRequest, .live⟩
        result = ⟨rt''.protocol, queue, rt.reply, none, rt.lastRequest, phase⟩ →
      Tracks first session limits rt'' none phase := by
    intro rt'' queue phase he hpend hk
    simp only [Prod.mk.injEq] at he
    obtain ⟨h1, h2, h3, h4, h5⟩ := he
    refine h.tracks.extend (.input rt.state result) h1 h2 h3 ?_ ?_
    · rw [h4]; exact h.tracks.shape
    · intro queue' hq'
      have hnil : queue' = [] := by simpa [hp] using hq'.symm
      subst hnil
      refine ⟨queue, hpend, rfl, rfl, rfl, by simp [h.now_eq, hq], ?_⟩
      rw [h4, h5]
      simp only [h.now_eq, hq]
      exact hk.symm
  rcases result with e | reports
  · rw [meets_lift_error_bind]
    refine ⟨⟨none, if e.recoverable then .live else .doomed,
      key rt' [] _ rfl (by simp [rt', Runtime.record, hp]) ?_, ?_, ?_⟩, h.now_eq, h.opened⟩
    · cases he : e.recoverable <;> simp [Ledger.onInput, Ledger.failed, he, rt', Runtime.record]
    · cases he : e.recoverable <;> simp
    · cases he : e.recoverable <;> simp
  · rw [meets_lift_ok_bind]
    have hl : rt.limits = limits := h.tracks.limits_eq
    rw [hl]
    split
    · next hlen =>
      have hna : ¬ Acceptable limits reports := fun ha => by have := ha.1; omega
      refine (Serving.mk (key rt' [] .live rfl (by simp [rt', Runtime.record, hp]) ?_)
        h.now_eq h.opened).failing _
      simp [Ledger.onInput, hna, hlen, rt', Runtime.record]
    · next hlen =>
      split
      · next hkind =>
        have hna : ¬ Acceptable limits reports := by
          intro ha
          obtain ⟨r, hr, hk⟩ := List.any_eq_true.mp hkind
          simp [ha.2 r hr] at hk
        refine ⟨⟨none, .doomed, key rt' [] .doomed rfl (by simp [rt', Runtime.record, hp]) ?_,
          by decide, by simp [Error.recoverable]⟩, h.now_eq, h.opened⟩
        simp [Ledger.onInput, hna, hlen, rt', Runtime.record]
      · next hkind =>
        have ha : Acceptable limits reports := by
          refine ⟨by omega, fun r hr => ?_⟩
          by_contra hk
          exact hkind (List.any_eq_true.mpr ⟨r, hr, by simpa using hk⟩)
        refine ⟨key _ reports .live rfl ?_ ?_, h.now_eq, h.opened⟩
        · simp [Runtime.record, hp]
        · simp [Ledger.onInput, ha]

theorem serviceInner_spec {rt : Runtime P T S O} (h : Serving first session limits now none rt) :
    Meets (serviceInner now rt) (fun _ => Serving first session limits now none)
      (Failing first session limits now) := by
  have take : ∀ {rt : Runtime P T S O}, Serving first session limits now none rt →
      Meets (takeObservations rt) (fun _ => Serving first session limits now none)
        (Failing first session limits now) :=
    fun h => h.congr rfl rfl rfl
  unfold serviceInner
  rw [meets_get_bind]
  refine meets_bind (flushReply_spec h _) fun budget rt₁ h₁ => ?_
  refine meets_bind (hostEvent_spec h₁ budget) fun budget rt₂ h₂ => ?_
  refine meets_bind (drain_spec budget h₂) fun budget rt₃ h₃ => ?_
  rw [meets_get_bind]
  split
  · next hdue =>
    have hp : rt₃.pending = [] := by
      simp only [Runtime.generationDue, Bool.and_eq_true, List.isEmpty_iff] at hdue
      exact hdue.1
    refine meets_bind (generate_spec h₃ hp) fun _ rt₄ h₄ => ?_
    exact meets_bind (drain_spec budget h₄) fun _ _ h₅ => take h₅
  · exact take h₃

theorem close_resting {rt : Runtime P T S O} {inHand : Option HostEvent} {phase : Phase}
    (h : Tracks first session limits rt inHand phase) (hp : phase ≠ .closed)
    (hc : rt.closed = false) : Resting first session limits (close rt).2 := by
  rcases hq : Transport.close rt.transport with ⟨result, transport⟩
  simp only [close, hc, Bool.false_eq_true, if_false, hq]
  refine h.extend (.close result) rfl rfl rfl (by simp) ?_
  intro queue _
  exact ⟨[], rfl, hp, rfl⟩

theorem close_spec {rt : Runtime P T S O} (h : Resting first session limits rt) :
    Resting first session limits (close rt).2 := by
  cases hc : rt.closed with
  | true => simpa [close, hc] using h
  | false => exact close_resting (h.serving hc).tracks (by decide) hc

theorem service_spec {rt : Runtime P T S O} (h : Resting first session limits rt) (now : ℕ) :
    Resting first session limits (service now rt).2 := by
  unfold service
  split
  · exact h
  · next hc =>
    rw [Bool.not_eq_true] at hc
    split
    · exact h
    · have hs : Serving first session limits now none { rt with now } :=
        ⟨(h.serving hc).tracks.congr rfl, rfl, hc⟩
      have hi := serviceInner_spec hs
      rcases hr : serviceInner now { rt with now } with ⟨e | output, rt'⟩
      · rw [hr] at hi
        obtain ⟨⟨inHand, phase, ht, hp, hrec⟩, hn, ho⟩ := hi
        dsimp only
        split
        · next he =>
          obtain ⟨rfl, rfl⟩ := hrec he
          exact (Serving.mk ht hn ho).resting
        · exact close_resting ht hp ho
      · rw [hr] at hi
        exact hi.resting

omit [Transport T] in
theorem update_spec {rt : Runtime P T S O} (h : Resting first session limits rt)
    (edit : Action Error S Unit) : Resting first session limits (update edit rt).2 := by
  rw [← meets_state (I := Resting first session limits)]
  unfold update
  rw [meets_get_bind]
  split
  · exact h
  · next hc =>
    rw [Bool.not_eq_true] at hc
    rcases edit rt.state with ⟨e | _, candidate⟩
    · exact h
    · dsimp only
      cases Protocol.validate rt.protocol candidate with
      | error e => exact h
      | ok _ =>
        rw [meets_modify]
        apply Serving.resting
        exact (h.serving hc).congr rfl rfl rfl

omit [Transport T] in
theorem updateProtocol_spec {rt : Runtime P T S O} (h : Resting first session limits rt)
    (edit : Action Error P Unit) : Resting first session limits (updateProtocol edit rt).2 := by
  rw [← meets_state (I := Resting first session limits)]
  unfold updateProtocol
  rw [meets_get_bind]
  split
  · exact h
  · next hc =>
    rw [Bool.not_eq_true] at hc
    rcases edit rt.protocol with ⟨e | _, candidate⟩
    · exact h
    · dsimp only
      cases Protocol.validate candidate rt.state with
      | error e => exact h
      | ok _ =>
        have hs := h.serving hc
        rw [meets_modify]
        refine Serving.resting (?_ : Serving first session limits rt.now none _)
        refine ⟨?_, rfl, hc⟩
        refine hs.tracks.extend (.replace candidate) rfl rfl rfl h.shape ?_
        intro queue hq
        exact ⟨queue, hq, rfl, rfl, rfl⟩

omit [Transport T] in
theorem takeObservations_spec {rt : Runtime P T S O} (h : Resting first session limits rt) :
    Resting first session limits (takeObservations (P := P) rt).2 :=
  Tracks.congr h rfl

theorem perform_resting {rt : Runtime P T S O} (h : Resting first session limits rt)
    (op : Op P S) : Resting first session limits (perform op rt) := by
  cases op with
  | update edit => exact update_spec h edit
  | updateProtocol edit => exact updateProtocol_spec h edit
  | service now => exact service_spec h now
  | takeObservations => exact takeObservations_spec h
  | close => exact close_spec h

theorem new_resting {transport : T} {rt : Runtime P T S O}
    (h : Runtime.new first transport session limits = .ok rt) :
    Resting first session limits rt ∧ rt.calls = [] := by
  unfold Runtime.new at h
  dsimp only at h
  split at h
  · cases h
  · split at h
    · cases h
    · cases h
      exact ⟨⟨rfl, rfl, ⟨[], rfl, .nil⟩, by simp⟩, rfl⟩

/-- The runtime refines the ledger: its log is a run of it, and its fields are the end. -/
theorem reachable_resting {transport : T} {rt : Runtime P T S O}
    (h : Reachable first transport session limits rt) : Resting first session limits rt := by
  induction h with
  | new h => exact (new_resting h).1
  | step _ op ih => exact perform_resting ih op

end Simulation

end HidRuntimeLedger
