import VirtualGamepad.HidPersonality

/-! What a STOP of the host does to a HID session. A personality that has nothing to report while it is
stopped silences its session until the next START, which goes on with fresh reports alone. -/
namespace HidSilence

open Fallible HidRuntime HidRuntimeLedger HidPersonality Runs

variable {P T S O : Type} [Protocol P S O]

def isStart : Lifecycle → Bool
  | .start _ _ _ => true
  | _ => false

/-- Once stopped, a personality stays so until it is started, and has nothing to report. -/
structure Hushes (stopped : P → Prop) : Prop where
  stop : ∀ (p : P) now, stopped (Protocol.lifecycle p .stop now).2
  lifecycle : ∀ (p : P) event now, stopped p → isStart event = false →
    stopped (Protocol.lifecycle p event now).2
  request : ∀ (p : P) kind now, stopped p → stopped (Protocol.request p kind now).2
  output : ∀ (p : P) report now, stopped p → stopped (Protocol.output report now p).2
  delivered : ∀ (p : P) command outcome, stopped p → stopped (Protocol.delivered p command outcome)
  input : ∀ (p : P) state now, stopped p → Meets (Protocol.input state now p)
    (fun reports p' => reports = [] ∧ stopped p') (fun _ _ => True)

/-- A call that starts the device. -/
def starts (e : Entry P S) : Prop := ∃ event, e.call = .lifecycle event ∧ isStart event = true

def submits (e : Entry P S) (r : Report) : Prop := ∃ outcome, e.call = .submit (.input r) outcome

/-- A call that generates a report. -/
def generates (e : Entry P S) (r : Report) : Prop :=
  ∃ state reports, e.call = .input state (.ok reports) ∧ r ∈ reports

section Ledgers

variable {session : ℕ} {limits : Limits} {s t : Ledger P} {e : Entry P S} {calls : List (Entry P S)}
  {stopped : P → Prop} {r : Report}

/-- Nothing is queued, and nothing will be. -/
structure Quiet (stopped : P → Prop) (s : Ledger P) : Prop where
  queue : s.queue = []
  protocol : stopped s.protocol

/-- A call that leaves a stopped session stopped: no start, and no other personality. -/
structure Hushed (stopped : P → Prop) (e : Entry P S) : Prop where
  start : ¬starts e
  replace : ∀ protocol, e.call = .replace protocol → stopped protocol

omit [Protocol P S O] in
theorem failed_queue (s : Ledger P) (error : Error) : (s.failed error).queue = s.queue := by
  unfold Ledger.failed
  split
  · rfl
  · rfl

omit [Protocol P S O] in
theorem onEvent_queue (session : ℕ) (s : Ledger P) (result : Except Error (Option HostEvent)) :
    (s.onEvent session result).queue = s.queue := by
  unfold Ledger.onEvent
  split
  · exact failed_queue s _
  · rfl
  · split
    · rfl
    · rfl
  · rfl

theorem onDelivery_queue (s : Ledger P) (command : Command) (outcome : Delivery) :
    (s.onDelivery command outcome).queue = s.queue := by
  cases outcome with
  | submitted => rfl
  | definitelyUnsent => rfl
  | uncertain => rfl

theorem onRequest_queue (limits : Limits) (now : ℕ) (s : Ledger P) (r : Request) (reply : Reply) :
    (Ledger.onRequest limits now s r reply).queue = s.queue := by
  unfold Ledger.onRequest
  dsimp only
  split
  · rfl
  · rfl

/-- Every queued report is one that the session has generated. -/
theorem step_queue (h : Ledger.Step session limits s e t) :
    (∀ r, submits e r → r ∈ s.queue) ∧ ∀ r ∈ t.queue, r ∈ s.queue ∨ generates e r := by
  obtain ⟨now, logged⟩ := e
  have hother (hcall : ∀ r outcome, logged ≠ .submit (.input r) outcome) :
      ∀ r, submits (⟨now, logged⟩ : Entry P S) r → r ∈ s.queue :=
    fun r hr => absurd hr.choose_spec (hcall r _)
  cases logged with
  | event result =>
    obtain ⟨_, _, _, rfl⟩ := h
    refine ⟨hother fun _ _ hr => (by cases hr), fun r hr => .inl ?_⟩
    rwa [onEvent_queue] at hr
  | submit command outcome =>
    cases command with
    | input report =>
      obtain ⟨_, _, rest, hqueue, rfl⟩ := h
      refine ⟨?_, fun r hr => .inl ?_⟩
      · rintro r ⟨_, hr⟩
        cases hr
        rw [hqueue]
        exact List.mem_cons_self
      · change r ∈ (if outcome = .submitted then rest else s.queue) at hr
        split at hr
        · rw [hqueue]
          exact List.mem_cons_of_mem _ hr
        · exact hr
    | reply token reply =>
      obtain ⟨_, _, p, _, _, _, rfl⟩ := h
      refine ⟨hother fun _ _ hr => (by cases hr), fun r hr => .inl ?_⟩
      rw [← onDelivery_queue s (.reply token reply) outcome]
      exact hr
  | close result =>
    obtain ⟨_, rfl⟩ := h
    exact ⟨hother fun _ _ hr => (by cases hr), fun r hr => absurd hr List.not_mem_nil⟩
  | request kind reply =>
    obtain ⟨_, r', _, _, _, _, rfl⟩ := h
    refine ⟨hother fun _ _ hr => (by cases hr), fun r hr => .inl ?_⟩
    rwa [onRequest_queue] at hr
  | output report result =>
    obtain ⟨_, _, _, rfl⟩ := h
    refine ⟨hother fun _ _ hr => (by cases hr), fun r hr => .inl ?_⟩
    cases result with
    | ok _ => exact hr
    | error error =>
      change r ∈ (Ledger.failed _ error).queue at hr
      rwa [failed_queue] at hr
  | lifecycle event =>
    obtain ⟨_, _, rfl⟩ := h
    refine ⟨hother fun _ _ hr => (by cases hr), fun r hr => .inl ?_⟩
    change r ∈ (if event = .stop then [] else s.queue) at hr
    split at hr
    · cases hr
    · exact hr
  | input state result =>
    obtain ⟨_, _, _, _, rfl⟩ := h
    refine ⟨hother fun _ _ hr => (by cases hr), fun r hr => ?_⟩
    unfold Ledger.onInput at hr
    cases result with
    | error error =>
      dsimp only at hr
      rw [failed_queue] at hr
      exact .inl hr
    | ok reports =>
      dsimp only at hr
      split at hr
      · exact .inr ⟨state, reports, rfl, hr⟩
      · split at hr
        · exact .inl hr
        · exact .inl hr
  | replace protocol =>
    obtain ⟨_, _, rfl⟩ := h
    exact ⟨hother fun _ _ hr => (by cases hr), fun r hr => .inl hr⟩

/-- A report that is handed over was queued before, or has been generated in the meantime. -/
theorem run_fresh {later : List (Entry P S)} (h : Run (Ledger.Step session limits) s (calls ++ e :: later) t)
    (he : submits e r) : r ∈ s.queue ∨ ∃ d ∈ calls, generates d r := by
  obtain ⟨u, hcalls, hrest⟩ := run_append.mp h
  obtain ⟨v, hstep, _⟩ := run_cons.mp hrest
  have hqueued := (step_queue hstep).1 r he
  clear hrest hstep h
  induction hcalls with
  | nil => exact .inl hqueued
  | @snoc calls x d u _ hstep ih =>
    rcases (step_queue hstep).2 r hqueued with hold | hnew
    · rcases ih hold with hfirst | ⟨d', hd', hgenerates⟩
      · exact .inl hfirst
      · exact .inr ⟨d', List.mem_append_left _ hd', hgenerates⟩
    · exact .inr ⟨d, List.mem_append_right _ (List.mem_singleton_self d), hnew⟩

theorem step_hushed (hhushes : Hushes (P := P) stopped) (hs : Quiet stopped s)
    (h : Ledger.Step session limits s e t) (he : Hushed stopped e) : Quiet stopped t := by
  obtain ⟨now, logged⟩ := e
  have hnone : ∀ r, r ∉ s.queue := fun r hr => by
    rw [hs.queue] at hr
    cases hr
  cases logged with
  | event result =>
    obtain ⟨_, _, _, rfl⟩ := h
    refine ⟨(onEvent_queue _ _ _).trans hs.queue, ?_⟩
    rw [onEvent_protocol]
    exact hs.protocol
  | submit command outcome =>
    cases command with
    | input report =>
      obtain ⟨_, _, rest, hqueue, _⟩ := h
      rw [hs.queue] at hqueue
      cases hqueue
    | reply token reply =>
      obtain ⟨_, _, p, _, _, _, rfl⟩ := h
      refine ⟨(onDelivery_queue s (.reply token reply) outcome).trans hs.queue, ?_⟩
      change stopped (s.onDelivery (.reply token reply) outcome).protocol
      rw [onDelivery_protocol]
      exact hhushes.delivered _ _ _ hs.protocol
  | close result =>
    obtain ⟨_, rfl⟩ := h
    exact ⟨rfl, hs.protocol⟩
  | request kind reply =>
    obtain ⟨_, r, _, rfl, _, _, rfl⟩ := h
    refine ⟨(onRequest_queue _ _ _ _ _).trans hs.queue, ?_⟩
    have hrequest := hhushes.request s.protocol r.kind now hs.protocol
    unfold Ledger.onRequest
    dsimp only
    split
    · exact hrequest
    · exact hrequest
  | output report result =>
    obtain ⟨_, _, _, rfl⟩ := h
    have houtput := hhushes.output s.protocol report now hs.protocol
    cases result with
    | ok _ => exact ⟨hs.queue, houtput⟩
    | error error =>
      refine ⟨?_, ?_⟩
      · change (Ledger.failed _ error).queue = []
        rw [failed_queue]
        exact hs.queue
      · change stopped (Ledger.failed _ error).protocol
        rw [failed_protocol]
        exact houtput
  | lifecycle event =>
    obtain ⟨_, _, rfl⟩ := h
    have hevent : isStart event = false := by
      by_contra hstart
      exact he.start ⟨event, rfl, by simpa using hstart⟩
    refine ⟨?_, hhushes.lifecycle _ event now hs.protocol hevent⟩
    change (if event = .stop then [] else s.queue) = []
    rw [hs.queue, ite_self]
  | input state result =>
    obtain ⟨_, _, _, hresult, rfl⟩ := h
    have hinput := hhushes.input s.protocol state now hs.protocol
    rcases hrun : Protocol.input state now s.protocol with ⟨error | reports, candidate⟩
    · rw [hrun] at hresult
      subst hresult
      refine ⟨?_, ?_⟩
      · change (Ledger.failed s error).queue = []
        rw [failed_queue]
        exact hs.queue
      · change stopped (Ledger.failed s error).protocol
        rw [failed_protocol]
        exact hs.protocol
    · rw [hrun] at hresult hinput
      subst hresult
      obtain ⟨rfl, hcandidate⟩ := hinput
      unfold Ledger.onInput
      dsimp only
      rw [if_pos ⟨Nat.zero_le _, List.forall_mem_nil _⟩]
      exact ⟨rfl, hcandidate⟩
  | replace protocol =>
    obtain ⟨_, _, rfl⟩ := h
    exact ⟨hs.queue, he.replace protocol rfl⟩

theorem run_hushed (hhushes : Hushes (P := P) stopped) (hs : Quiet stopped s)
    (h : Run (Ledger.Step session limits) s calls t) (hcalls : ∀ e ∈ calls, Hushed stopped e) :
    Quiet stopped t ∧ ∀ e ∈ calls, ∀ r, ¬submits e r := by
  induction h with
  | nil => exact ⟨hs, List.forall_mem_nil _⟩
  | @snoc calls t e u _ hstep ih =>
    obtain ⟨hquiet, hsilent⟩ := ih fun d hd => hcalls d (List.mem_append_left _ hd)
    refine ⟨step_hushed hhushes hquiet hstep (hcalls e (by simp)), ?_⟩
    intro d hd r hr
    rcases List.mem_append.mp hd with hd | hd
    · exact hsilent d hd r hr
    · obtain rfl := List.mem_singleton.mp hd
      have hqueued := (step_queue hstep).1 r hr
      rw [hquiet.queue] at hqueued
      cases hqueued

/-- A stop empties the queue. -/
theorem stop_quiet (hhushes : Hushes (P := P) stopped) (h : Ledger.Step session limits s e t)
    (he : e.call = .lifecycle .stop) : Quiet stopped t := by
  obtain ⟨now, logged⟩ := e
  obtain rfl : logged = .lifecycle .stop := he
  obtain ⟨_, _, rfl⟩ := h
  exact ⟨rfl, hhushes.stop _ _⟩

end Ledgers

/-- What a host's STOP does to a session. -/
structure Silences (stopped : P → Prop) (rt : Runtime P T S O) : Prop where
  /-- No input report is handed over before the next START. -/
  silent : ∀ before stop quiet after, rt.calls = before ++ stop :: (quiet ++ after) →
    stop.call = .lifecycle .stop → (∀ e ∈ quiet, Hushed stopped e) → ∀ e ∈ quiet, ∀ r, ¬submits e r
  /-- What is handed over after the START was generated after it. -/
  fresh : ∀ before stop quiet start live e after,
    rt.calls = before ++ stop :: (quiet ++ start :: (live ++ e :: after)) →
    stop.call = .lifecycle .stop → (∀ e ∈ quiet, Hushed stopped e) → starts start →
    ∀ r, submits e r → ∃ d ∈ live, generates d r

/-- A personality that hushes silences every session that is opened with it. -/
theorem sessions_silenced [Transport T] {first : P} {transport : T} {session : ℕ} {limits : Limits}
    {rt : Runtime P T S O} {stopped : P → Prop} (hhushes : Hushes (P := P) stopped)
    (h : Reachable first transport session limits rt) : Silences stopped rt := by
  obtain ⟨_, _, hrun⟩ := (reachable_resting h).run
  constructor
  · intro before stop quiet after hcalls hstop hquiet
    rw [hcalls] at hrun
    obtain ⟨_, _, hrest⟩ := run_append.mp hrun
    obtain ⟨_, hstep, hrest⟩ := run_cons.mp hrest
    obtain ⟨_, hhushed, _⟩ := run_append.mp hrest
    exact (run_hushed hhushes (stop_quiet hhushes hstep hstop) hhushed hquiet).2
  · intro before stop quiet start live e after hcalls hstop hquiet hstart r hr
    rw [hcalls] at hrun
    obtain ⟨_, _, hrest⟩ := run_append.mp hrun
    obtain ⟨_, hstep, hrest⟩ := run_cons.mp hrest
    obtain ⟨u, hhushed, hrest⟩ := run_append.mp hrest
    obtain ⟨v, hbegin, hlive⟩ := run_cons.mp hrest
    have hqueue := (run_hushed hhushes (stop_quiet hhushes hstep hstop) hhushed hquiet).1.queue
    rcases run_fresh hlive hr with hold | hnew
    · rcases (step_queue hbegin).2 r hold with hearlier | ⟨state, reports, hinput, _⟩
      · rw [hqueue] at hearlier
        cases hearlier
      · obtain ⟨event, hevent, _⟩ := hstart
        rw [hevent] at hinput
        cases hinput
    · exact hnew

end HidSilence
