import VirtualGamepad.HidRuntimeLifetime

/-! What one service call makes of the personality: it waits with `J`, hears the host event of the call,
and goes on with `I`. -/
namespace HidRuntimePersonality

open Fallible HidRuntime MachineInt

variable {P T S O : Type} [Protocol P S O] [Transport T]

/-- The host event that a service call reads. It needs a free reply slot. -/
def arrival (now : ℕ) (rt : Runtime P T S O) : Option HostEvent :=
  match flushReply now rt.limits.submissionsPerService { rt with now := now } with
  | (.ok budget, rt) =>
    if rt.reply.isNone ∧ 1 < budget then
      match (Transport.event rt.transport).1 with
      | .ok event => event
      | .error _ => none
    else none
  | (.error _, _) => none

/-- The personality after a host event. -/
def hears (p : P) (event : HostEvent) (now : ℕ) : P :=
  match event with
  | .request request => (Protocol.request p request.kind now).2
  | .output report => (Protocol.output report now p).2
  | .lifecycle event => (Protocol.lifecycle p event now).2

/-- What is kept while commands are delivered. -/
def Kept (I : P → Prop) : Prop :=
  ∀ p command delivery, I p → I (Protocol.delivered p command delivery)

/-- The calls of a service keep `J` of the personality until the event and `I` from then on, and fail
with errors of `E`. -/
structure Serves (T : Type) [Transport T] (J I : P → Prop) (E : Error → Prop) (now : ℕ) (state : S)
    (limits : Limits) (event : Option HostEvent) : Prop where
  own : E .deadline ∧ E .uncertainDelivery ∧ E .invalidRequest ∧ E .invalidReply
  transport : ∀ (t : T) e, (Transport.event t).1 = .error e → E e
  awaits : Kept J
  delivered : Kept I
  silent : ∀ p, J p → I p
  heard : ∀ p e, J p → event = some e → I (hears p e now)
  refused : ∀ p report error, J p → event = some (.output report) →
    (Protocol.output report now p).1 = .error error → E error
  generated : ∀ p, I p → Meets (Protocol.input state now p)
    (fun reports p' => I p' ∧ (limits.inputQueue < reports.length → E .queueFull) ∧
      (reports.any (·.kind ≠ .input) = true → E .framing)) (fun e _ => E e)

/-- The personality meets `I`, and the application's state is the same. -/
structure Holds (I : P → Prop) (rt t : Runtime P T S O) : Prop where
  personality : I t.protocol
  state_eq : t.state = rt.state
  limits_eq : t.limits = rt.limits
  closed_eq : t.closed = rt.closed

variable {rt t u : Runtime P T S O} {J I : P → Prop} {E : Error → Prop} {now budget : ℕ}
  {event : Option HostEvent} {state : S} {limits : Limits}

omit [Protocol P S O] [Transport T] in
theorem Holds.trans (h : Holds J rt t) (k : Holds I t u) : Holds I rt u :=
  ⟨k.personality, k.state_eq.trans h.state_eq, k.limits_eq.trans h.limits_eq,
    k.closed_eq.trans h.closed_eq⟩

omit [Protocol P S O] [Transport T] in
theorem Holds.later {α : Type} {r : Except Error α × Runtime P T S O} (h : Holds J rt t)
    (k : Meets r (fun _ u => Holds I t u) (fun e u => E e ∧ Holds I t u)) :
    Meets r (fun _ u => Holds I rt u) (fun e u => E e ∧ Holds I rt u) :=
  k.mono (fun _ _ hu => h.trans hu) (fun _ _ hu => ⟨hu.1, h.trans hu.2⟩)

omit [Protocol P S O] [Transport T] in
theorem Holds.weaken (h : Holds J rt t) (k : ∀ p, J p → I p) : Holds I rt t :=
  ⟨k _ h.personality, h.state_eq, h.limits_eq, h.closed_eq⟩

theorem submit_holds (h : Kept I) (hI : I rt.protocol) (command : Command) :
    Meets (submit command rt) (fun _ t => Holds I rt t) (fun e t => E e ∧ Holds I rt t) := by
  unfold submit
  rcases Transport.submit rt.transport command with ⟨outcome, transport⟩
  exact ⟨h _ _ _ hI, rfl, rfl, rfl⟩

theorem flushReply_holds (h : Kept I) (hown : E .deadline ∧ E .uncertainDelivery) (hI : I rt.protocol) :
    Meets (flushReply now budget rt) (fun _ t => Holds I rt t) (fun e t => E e ∧ Holds I rt t) := by
  unfold flushReply
  rw [meets_get_bind]
  cases rt.reply with
  | none => exact ⟨hI, rfl, rfl, rfl⟩
  | some pending =>
    dsimp only
    by_cases hdue : pending.deadline ≤ now
    · rw [if_pos hdue]
      exact ⟨hown.1, hI, rfl, rfl, rfl⟩
    · rw [if_neg hdue]
      refine meets_bind (submit_holds h hI pending.command) ?_
      intro delivery t ht
      cases delivery with
      | submitted => exact ⟨ht.personality, ht.state_eq, ht.limits_eq, ht.closed_eq⟩
      | definitelyUnsent => exact ht
      | uncertain => exact ⟨hown.2, ht⟩

theorem drain_holds (h : Kept I) (hown : E .uncertainDelivery) (hI : I rt.protocol) :
    Meets (drain budget rt) (fun _ t => Holds I rt t) (fun e t => E e ∧ Holds I rt t) := by
  induction budget generalizing rt with
  | zero => exact ⟨hI, rfl, rfl, rfl⟩
  | succ budget ih =>
    unfold drain
    rw [meets_get_bind]
    cases rt.pending with
    | nil => exact ⟨hI, rfl, rfl, rfl⟩
    | cons command _ =>
      dsimp only
      refine meets_bind (submit_holds h hI command) ?_
      intro delivery t ht
      cases delivery with
      | submitted =>
        have htail : Holds I rt { t with pending := t.pending.tail } :=
          ht.trans ⟨ht.personality, rfl, rfl, rfl⟩
        exact htail.later (ih htail.personality)
      | definitelyUnsent => exact ht
      | uncertain => exact ⟨hown, ht⟩

omit [Protocol P S O] [Transport T] in
theorem observeOutput_holds (hI : I rt.protocol) (output : Option O) :
    Holds I rt (rt.observeOutput output) := by
  cases output with
  | none => exact ⟨hI, rfl, rfl, rfl⟩
  | some output =>
    change Holds I rt (rt.observe output)
    unfold Runtime.observe
    by_cases hfull : rt.observations.length = rt.limits.inputQueue
    · rw [if_pos hfull]
      exact ⟨hI, rfl, rfl, rfl⟩
    · rw [if_neg hfull]
      exact ⟨hI, rfl, rfl, rfl⟩

theorem acceptRequest_holds (h : Serves T J I E now state limits event) (hJ : J rt.protocol)
    {request : Request} (hevent : event = some (.request request)) :
    Meets (acceptRequest request now budget rt) (fun _ t => Holds I rt t)
      (fun e t => E e ∧ Holds I rt t) := by
  unfold acceptRequest
  rw [meets_get_bind]
  by_cases hstale : request.token.session ≠ rt.session ∨
      rt.lastRequest.any (request.token.ordinal ≤ ·)
  · rw [if_pos hstale]
    exact ⟨h.own.2.2.1, h.silent _ hJ, rfl, rfl, rfl⟩
  · rw [if_neg hstale]
    have hheard : I (Protocol.request rt.protocol request.kind now).2 := h.heard _ _ hJ hevent
    rcases hr : Protocol.request rt.protocol request.kind now with ⟨⟨reply, output⟩, protocol⟩
    rw [hr] at hheard
    dsimp only at hheard ⊢
    rw [meets_modify_bind]
    cases hvalid : validateReply request.kind reply with
    | error error =>
      have herror : error = .invalidReply := by
        unfold validateReply at hvalid
        split at hvalid
        · split at hvalid <;> cases hvalid
          rfl
        all_goals cases hvalid
        rfl
      rw [meets_lift_error_bind, herror]
      exact ⟨h.own.2.2.2, hheard, rfl, rfl, rfl⟩
    | ok _ =>
      rw [meets_lift_ok_bind, meets_modify_bind, meets_modify_bind]
      generalize hrt : ({ rt.record (.request request.kind reply) with
        lastRequest := some request.token.ordinal, protocol := protocol,
        reply := some ⟨.reply request.token reply,
          saturatingAdd now rt.limits.replyTimeoutUs⟩ } : Runtime P T S O) = rt₁
      have hfirst : Holds I rt rt₁ := by
        rw [← hrt]
        exact ⟨hheard, rfl, rfl, rfl⟩
      have hsecond := hfirst.trans (observeOutput_holds hfirst.personality output)
      have hflush : Meets (flushReply now budget (rt₁.observeOutput output))
          (fun _ t => Holds I rt t) (fun e t => E e ∧ Holds I rt t) :=
        hsecond.later (flushReply_holds h.delivered ⟨h.own.1, h.own.2.1⟩ hsecond.personality)
      rw [← hrt] at hflush
      exact hflush

theorem acceptOutput_holds (h : Serves T J I E now state limits event) (hJ : J rt.protocol)
    {report : Report} (hevent : event = some (.output report)) :
    Meets (acceptOutput report now rt) (fun _ t => Holds I rt t) (fun e t => E e ∧ Holds I rt t) := by
  have hheard : I (Protocol.output report now rt.protocol).2 := h.heard _ _ hJ hevent
  have hrefused := fun error => h.refused _ _ error hJ hevent
  unfold acceptOutput
  rw [meets_get_bind]
  rcases hr : Protocol.output report now rt.protocol with ⟨error | output, protocol⟩
  · rw [hr] at hheard hrefused
    exact ⟨hrefused error rfl, hheard, rfl, rfl, rfl⟩
  · rw [hr] at hheard
    dsimp only
    rw [meets_modify_bind, meets_lift_ok_bind]
    have hfirst : Holds I rt { rt.record (.output report (.ok ())) with protocol := protocol } :=
      ⟨hheard, rfl, rfl, rfl⟩
    exact hfirst.trans (observeOutput_holds hheard output)

theorem acceptLifecycle_holds (h : Serves T J I E now state limits event) (hJ : J rt.protocol)
    {lifecycle : Lifecycle} (hevent : event = some (.lifecycle lifecycle)) :
    Meets (acceptLifecycle lifecycle now rt) (fun _ t => Holds I rt t)
      (fun e t => E e ∧ Holds I rt t) := by
  have hheard : I (Protocol.lifecycle rt.protocol lifecycle now).2 := h.heard _ _ hJ hevent
  unfold acceptLifecycle
  rw [meets_modify_bind, meets_get_bind]
  rcases hr : Protocol.lifecycle rt.protocol lifecycle now with ⟨output, protocol⟩
  rw [hr] at hheard
  by_cases hstop : lifecycle = .stop
  · rw [if_pos hstop]
    dsimp only
    rw [hr]
    have hfirst : Holds I rt { Runtime.record { rt with pending := [], dirty := true }
        (.lifecycle lifecycle) with protocol := protocol } := ⟨hheard, rfl, rfl, rfl⟩
    exact hfirst.trans (observeOutput_holds hheard output)
  · rw [if_neg hstop]
    dsimp only
    rw [hr]
    have hfirst : Holds I rt { rt.record (.lifecycle lifecycle) with protocol := protocol } :=
      ⟨hheard, rfl, rfl, rfl⟩
    exact hfirst.trans (observeOutput_holds hheard output)

theorem generate_holds (h : Serves T J I E now rt.state rt.limits event) (hI : I rt.protocol) :
    Meets (generate now rt) (fun _ t => Holds I rt t) (fun e t => E e ∧ Holds I rt t) := by
  have hinput := h.generated _ hI
  unfold generate
  rw [meets_get_bind]
  rcases hr : Protocol.input rt.state now rt.protocol with ⟨error | reports, candidate⟩
  · rw [hr] at hinput
    exact ⟨hinput, hI, rfl, rfl, rfl⟩
  · rw [hr] at hinput
    obtain ⟨hcandidate, hfull, hframing⟩ := hinput
    dsimp only
    rw [meets_modify_bind, meets_lift_ok_bind]
    by_cases hlimit : rt.limits.inputQueue < reports.length
    · rw [if_pos hlimit]
      exact ⟨hfull hlimit, hI, rfl, rfl, rfl⟩
    · rw [if_neg hlimit]
      by_cases hkinds : reports.any (·.kind ≠ .input) = true
      · rw [if_pos hkinds]
        exact ⟨hframing hkinds, hI, rfl, rfl, rfl⟩
      · rw [if_neg hkinds]
        exact ⟨hcandidate, rfl, rfl, rfl⟩

theorem hostEvent_holds (h : Serves T J I E now state limits event) (hJ : J rt.protocol)
    (hevent : rt.reply.isNone ∧ 1 < budget → ∀ e, (Transport.event rt.transport).1 = .ok (some e) →
      event = some e) :
    Meets (hostEvent now budget rt) (fun _ t => Holds I rt t) (fun e t => E e ∧ Holds I rt t) := by
  unfold hostEvent
  rw [meets_get_bind]
  by_cases hfree : rt.reply.isNone ∧ 1 < budget
  · rw [if_pos hfree]
    have hread := hevent hfree
    have herror := h.transport rt.transport
    refine meets_bind (Q := fun e t => Holds J rt t ∧ ∀ e', e = some e' → event = some e') ?_ ?_
    · unfold readEvent
      rcases hr : Transport.event rt.transport with ⟨error | e, transport⟩
      · rw [hr] at herror
        exact ⟨herror error rfl, h.silent _ hJ, rfl, rfl, rfl⟩
      · rw [hr] at hread
        exact ⟨⟨hJ, rfl, rfl, rfl⟩, fun e' he => hread e' (congrArg Except.ok he)⟩
    · rintro e t ⟨ht, he⟩
      cases e with
      | none => exact ht.weaken h.silent
      | some e =>
        have harrived := he e rfl
        cases e with
        | request request => exact ht.later (acceptRequest_holds h ht.personality harrived)
        | output report =>
          exact meets_bind (ht.later (acceptOutput_holds h ht.personality harrived)) fun _ _ hu => hu
        | lifecycle lifecycle =>
          exact meets_bind (ht.later (acceptLifecycle_holds h ht.personality harrived)) fun _ _ hu => hu
  · rw [if_neg hfree]
    exact ⟨h.silent _ hJ, rfl, rfl, rfl⟩

theorem serviceInner_holds {rt : Runtime P T S O}
    (h : Serves T J I E now rt.state rt.limits (arrival now rt)) (hJ : J rt.protocol) :
    Meets (serviceInner now { rt with now := now }) (fun _ t => Holds I rt t)
      (fun e t => E e ∧ Holds I rt t) := by
  unfold serviceInner
  rw [meets_get_bind]
  have hnow : Holds J rt { rt with now := now } := ⟨hJ, rfl, rfl, rfl⟩
  have hflush : Meets (flushReply now rt.limits.submissionsPerService { rt with now := now })
      (fun _ t => Holds J rt t) (fun e t => E e ∧ Holds J rt t) :=
    hnow.later (flushReply_holds h.awaits ⟨h.own.1, h.own.2.1⟩ hnow.personality)
  rcases hr : flushReply now rt.limits.submissionsPerService { rt with now := now } with
    ⟨error | budget, rt₁⟩
  · rw [hr] at hflush
    rw [bind_run_error hr]
    exact ⟨hflush.1, hflush.2.weaken h.silent⟩
  · rw [hr] at hflush
    rw [meets_bind_ok hr]
    have hevent : rt₁.reply.isNone ∧ 1 < budget → ∀ e,
        (Transport.event rt₁.transport).1 = .ok (some e) → arrival now rt = some e := by
      intro hfree e he
      unfold arrival
      rw [hr]
      dsimp only
      rw [if_pos hfree, he]
    refine meets_bind (Holds.later hflush (hostEvent_holds h hflush.personality hevent)) ?_
    intro budget₁ rt₂ h₂
    refine meets_bind (h₂.later (drain_holds h.delivered h.own.2.1 h₂.personality)) ?_
    intro budget₂ rt₃ h₃
    rw [meets_get_bind]
    by_cases hdue : rt₃.generationDue now = true
    · rw [if_pos hdue]
      have hgenerate : Serves T J I E now rt₃.state rt₃.limits (arrival now rt) := by
        rw [h₃.state_eq, h₃.limits_eq]
        exact h
      refine meets_bind (h₃.later (generate_holds hgenerate h₃.personality)) ?_
      intro _ rt₄ h₄
      refine meets_bind (h₄.later (drain_holds h.delivered h.own.2.1 h₄.personality)) ?_
      intro _ rt₅ h₅
      exact ⟨h₅.personality, h₅.state_eq, h₅.limits_eq, h₅.closed_eq⟩
    · rw [if_neg hdue]
      exact ⟨h₃.personality, h₃.state_eq, h₃.limits_eq, h₃.closed_eq⟩

/-- After a service the session is closed, or its personality meets `I` beside the same state. -/
theorem service_holds {rt : Runtime P T S O}
    (h : Serves T J I E now rt.state rt.limits (arrival now rt)) (hJ : J rt.protocol) :
    Meets (service now rt) (fun _ t => Holds I rt t)
      (fun e t => (e = .closed ∨ e = .timeReversed ∨ E e) ∧ (t.closed = true ∨ Holds I rt t)) := by
  have hsame : Holds I rt rt := ⟨h.silent _ hJ, rfl, rfl, rfl⟩
  unfold service
  by_cases hclosed : rt.closed = true
  · rw [if_pos hclosed]
    exact ⟨.inl rfl, .inr hsame⟩
  · rw [if_neg hclosed]
    by_cases hpast : now < rt.now
    · rw [if_pos hpast]
      exact ⟨.inr (.inl rfl), .inr hsame⟩
    · rw [if_neg hpast]
      have hinner := serviceInner_holds h hJ
      rcases hr : serviceInner now { rt with now := now } with ⟨error | output, t⟩
      · rw [hr] at hinner
        dsimp only
        by_cases hrecoverable : error.recoverable = true
        · rw [if_pos hrecoverable]
          exact ⟨.inr (.inr hinner.1), .inr hinner.2⟩
        · rw [if_neg hrecoverable]
          exact ⟨.inr (.inr hinner.1), .inl (HidRuntimeLifetime.close_closed t)⟩
      · rw [hr] at hinner
        exact hinner

end HidRuntimePersonality
