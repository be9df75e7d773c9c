import VirtualGamepad.HidRuntimeLedger

/-! The end of a HID session: one close of the transport over its whole life, whichever exit
leads there, and nothing after it. Refused calls leave no trace. -/
namespace HidRuntimeLifetime

open Fallible Runs HidRuntime HidRuntimeLedger

variable {P T S O : Type} [Protocol P S O]

def Entry.closes (e : Entry P S) : Bool := match e.call with
  | .close _ => true
  | _ => false

/-- How often the transport was closed. -/
def closes (calls : List (Entry P S)) : ℕ := calls.countP Entry.closes

section Ledger

variable {session : ℕ} {limits : Limits} {s t : Ledger P} {e : Entry P S}
  {calls : List (Entry P S)}

def closedCount (s : Ledger P) : ℕ := if s.phase = .closed then 1 else 0

theorem failed_open {s : Ledger P} (h : s.phase ≠ .closed) (error : Error) :
    (s.failed error).phase ≠ .closed := by
  unfold Ledger.failed
  split
  · exact h
  · simp

theorem step_closes (st : Ledger.Step session limits s e t) :
    closedCount t = closedCount s + closes [e] := by
  obtain ⟨now, call⟩ := e
  have stays : s.phase = .live → t.phase ≠ .closed →
      closedCount t = closedCount s + 0 := by
    intro hs ht
    simp [closedCount, hs, ht]
  cases call with
  | event result =>
    obtain ⟨hlive, _, _, rfl⟩ := st
    refine stays hlive ?_
    have ho : s.phase ≠ .closed := by simp [hlive]
    rcases result with error | _ | event
    · exact failed_open ho error
    · exact ho
    · cases event with
      | request r =>
        simp only [Ledger.onEvent]
        split
        · simp
        · exact ho
      | output report => exact ho
      | lifecycle event => exact ho
  | submit command outcome =>
    cases command with
    | input r =>
      obtain ⟨hlive, _, rest, _, rfl⟩ := st
      refine stays hlive ?_
      cases outcome <;> simp [Ledger.onDelivery, hlive]
    | reply token reply =>
      obtain ⟨hlive, _, p, _, _, _, rfl⟩ := st
      refine stays hlive ?_
      cases outcome <;> simp [Ledger.onDelivery, hlive]
  | close result =>
    obtain ⟨ho, rfl⟩ := st
    simp [closedCount, ho, closes, Entry.closes]
  | request kind reply =>
    obtain ⟨hlive, r, _, _, _, _, rfl⟩ := st
    refine stays hlive ?_
    unfold Ledger.onRequest
    split <;> simp [hlive]
  | output report result =>
    obtain ⟨hlive, _, _, rfl⟩ := st
    refine stays hlive ?_
    cases result with
    | ok _ => simp [hlive]
    | error error => exact failed_open (by simp [hlive]) error
  | lifecycle event =>
    obtain ⟨hlive, _, rfl⟩ := st
    exact stays hlive (by simp [hlive])
  | input state result =>
    obtain ⟨hlive, _, _, _, rfl⟩ := st
    refine stays hlive ?_
    have ho : s.phase ≠ .closed := by simp [hlive]
    cases result with
    | error error => exact failed_open ho error
    | ok reports =>
      simp only [Ledger.onInput]
      split
      · exact ho
      · split
        · exact ho
        · simp
  | replace protocol =>
    obtain ⟨hlive, _, rfl⟩ := st
    exact stays hlive (by simp [hlive])

theorem run_closes (h : Run (Ledger.Step session limits) s calls t) :
    closedCount t = closedCount s + closes calls := by
  induction h with
  | nil => rfl
  | snoc _ st ih =>
    have hs := step_closes st
    simp only [closes, List.countP_append] at *
    omega

theorem close_step {result : Except Error Unit} (st : Ledger.Step session limits s e t)
    (he : e.call = .close result) : t.phase = .closed := by
  unfold Ledger.Step at st
  rw [he] at st
  rw [st.2]

theorem uncertain_step {command : Command} (st : Ledger.Step session limits s e t)
    (he : e.call = .submit command .uncertain) : t.phase = .doomed := by
  unfold Ledger.Step at st
  rw [he] at st
  cases command with
  | input r => obtain ⟨_, _, rest, _, rfl⟩ := st; rfl
  | reply token reply => obtain ⟨_, _, p, _, _, _, rfl⟩ := st; rfl

end Ledger

section Calls

variable [Transport T]

omit [Protocol P S O] in
theorem close_closed (rt : Runtime P T S O) : (close rt).2.closed = true := by
  unfold close
  split
  · next hc => exact hc
  · rfl

/-- A failing service call closes the runtime, unless the error is recoverable or the call
came with a reversed time. -/
theorem service_error {rt rt' : Runtime P T S O} {now : ℕ} {error : Error}
    (h : service now rt = (.error error, rt')) :
    rt'.closed = true ∨ error.recoverable = true ∨
      (now < rt.now ∧ error = .timeReversed ∧ rt' = rt) := by
  unfold service at h
  split at h
  · next hc =>
    obtain ⟨_, rfl⟩ := Prod.mk.inj h
    exact .inl hc
  · split at h
    · next hlt =>
      obtain ⟨he, rfl⟩ := Prod.mk.inj h
      exact .inr (.inr ⟨hlt, (Except.error.inj he).symm, rfl⟩)
    · rcases hi : serviceInner now { rt with now } with ⟨e | output, rt₁⟩
      · rw [hi] at h
        dsimp only at h
        split at h
        · next hr =>
          obtain ⟨he, rfl⟩ := Prod.mk.inj h
          exact .inr (.inl (Except.error.inj he ▸ hr))
        · obtain ⟨_, rfl⟩ := Prod.mk.inj h
          exact .inl (close_closed rt₁)
      · rw [hi] at h
        cases (Prod.mk.inj h).1

theorem service_reversed {rt : Runtime P T S O} {now : ℕ} (ho : rt.closed = false)
    (hn : now < rt.now) : service now rt = (.error .timeReversed, rt) := by
  have hc : ¬ rt.closed = true := by simp [ho]
  unfold service
  rw [if_neg hc, if_pos hn]

omit [Transport T] in
theorem update_rejected {rt rt' : Runtime P T S O} {edit : Action Error S Unit} {error : Error}
    (h : update edit rt = (.error error, rt')) : rt' = rt := by
  unfold update at h
  rw [get_bind_run] at h
  split at h
  · exact (Prod.mk.inj h).2.symm
  · rcases he : edit rt.state with ⟨e | _, candidate⟩
    · rw [he] at h
      exact (Prod.mk.inj h).2.symm
    · rw [he] at h
      dsimp only at h
      cases hv : Protocol.validate rt.protocol candidate with
      | error e =>
        rw [hv] at h
        exact (Prod.mk.inj h).2.symm
      | ok _ =>
        rw [hv] at h
        cases (Prod.mk.inj h).1

omit [Transport T] in
theorem updateProtocol_rejected {rt rt' : Runtime P T S O} {edit : Action Error P Unit}
    {error : Error} (h : updateProtocol edit rt = (.error error, rt')) : rt' = rt := by
  unfold updateProtocol at h
  rw [get_bind_run] at h
  split at h
  · exact (Prod.mk.inj h).2.symm
  · rcases he : edit rt.protocol with ⟨e | _, candidate⟩
    · rw [he] at h
      exact (Prod.mk.inj h).2.symm
    · rw [he] at h
      dsimp only at h
      cases hv : Protocol.validate candidate rt.state with
      | error e =>
        rw [hv] at h
        exact (Prod.mk.inj h).2.symm
      | ok _ =>
        rw [hv] at h
        cases (Prod.mk.inj h).1

/-- A construction that fails has closed the transport it was given, and only that. -/
theorem new_failed {first : P} {transport : T} {session : ℕ} {limits : Limits} {error : Error}
    {calls : List (Entry P S)}
    (h : Runtime.new first transport session limits = .error (error, calls)) :
    closes calls = 1 ∧ calls.length = 1 := by
  unfold Runtime.new at h
  dsimp only at h
  split at h
  · cases h; exact ⟨rfl, rfl⟩
  · split at h
    · cases h; exact ⟨rfl, rfl⟩
    · cases h

end Calls

/-- The life of a session, at any point of it. -/
structure ClosesOnce [Transport T] (rt : Runtime P T S O) : Prop where
  terminal : ∀ now error rt', service now rt = (.error error, rt') →
    error ≠ .queueFull → error ≠ .invalidState → error ≠ .timeReversed → rt'.closed
  /-- The one close is the last call, be it explicit, after an error, or of the drop. -/
  once : closes (drop rt).calls = 1
  not_before : rt.closed = false → closes rt.calls = 0
  nothing_after_close : ∀ before e after result, rt.calls = before ++ e :: after →
    e.call = .close result → rt.closed ∧ after = []
  only_close_after_uncertain : ∀ before e after command, rt.calls = before ++ e :: after →
    e.call = .submit command .uncertain →
      rt.closed ∧ ∃ d result, after = [d] ∧ d.call = .close result
  reversed : ∀ now, rt.closed = false → now < rt.now →
    service now rt = (.error .timeReversed, rt)
  /-- A personality that reports a reversed time itself ends the session. -/
  reversed_only : ∀ now rt', service now rt = (.error .timeReversed, rt') →
    (now < rt.now ∧ rt' = rt) ∨ rt'.closed
  update_rejected : ∀ edit error rt', update edit rt = (.error error, rt') → rt' = rt
  update_protocol_rejected : ∀ edit error rt',
    updateProtocol edit rt = (.error error, rt') → rt' = rt

section Sessions

variable [Transport T] {first : P} {transport : T} {session : ℕ} {limits : Limits}

omit [Protocol P S O] [Transport T] in
theorem restingPhase_closed {rt : Runtime P T S O} (h : restingPhase rt = .closed) :
    rt.closed = true := by
  unfold restingPhase at h
  split at h
  · next hc => exact hc
  · cases h

omit [Protocol P S O] [Transport T] in
theorem restingPhase_not_doomed (rt : Runtime P T S O) : restingPhase rt ≠ .doomed := by
  unfold restingPhase
  split <;> simp

omit [Transport T] in
theorem resting_closes {rt : Runtime P T S O} (h : Resting first session limits rt) :
    closes rt.calls = if rt.closed then 1 else 0 := by
  obtain ⟨queue, _, hr⟩ := h.run
  have hc := run_closes hr
  have hs : closedCount (Ledger.start first) = 0 := rfl
  rw [hs, Nat.zero_add] at hc
  rw [← hc]
  simp only [closedCount, restingPhase]
  split <;> simp_all

/-- Every session closes its transport exactly once, and is silent from then on. -/
theorem session_closes_once {rt : Runtime P T S O}
    (h : Reachable first transport session limits rt) : ClosesOnce rt := by
  have hrest := reachable_resting h
  obtain ⟨queue, _, hr⟩ := hrest.run
  constructor
  · intro now error rt' hs hq hi ht
    rcases service_error hs with hc | hrec | ⟨_, he, _⟩
    · exact hc
    · cases error <;> simp_all [Error.recoverable]
    · exact absurd he ht
  · have hd : Resting first session limits (drop rt) := close_spec hrest
    have hc : (drop rt).closed = true := close_closed rt
    rw [resting_closes hd, hc]
    rfl
  · intro ho
    rw [resting_closes hrest, ho]
    rfl
  · intro before e after result hc he
    rw [hc] at hr
    obtain ⟨u, _, hr⟩ := run_append.mp hr
    obtain ⟨v, hv, hr⟩ := run_cons.mp hr
    obtain ⟨ha, rfl⟩ := run_closed hr (close_step hv he)
    exact ⟨restingPhase_closed (close_step hv he), ha⟩
  · intro before e after command hc he
    rw [hc] at hr
    obtain ⟨u, _, hr⟩ := run_append.mp hr
    obtain ⟨v, hv, hr⟩ := run_cons.mp hr
    have hd := uncertain_step hv he
    rcases run_doomed hr hd with ⟨_, rfl⟩ | ⟨hp, d, result, ha, hd'⟩
    · exact absurd hd (restingPhase_not_doomed rt)
    · exact ⟨restingPhase_closed hp, d, result, ha, hd'⟩
  · intro now ho hn
    exact service_reversed ho hn
  · intro now rt' hs
    rcases service_error hs with hc | hrec | ⟨hn, _, he⟩
    · exact .inr hc
    · cases hrec
    · exact .inl ⟨hn, he⟩
  · intro edit error rt' hu
    exact update_rejected hu
  · intro edit error rt' hu
    exact updateProtocol_rejected hu

/-- An uncertain first report closes the session. -/
theorem session_closes_once_uncertain :
    ClosesOnce (perform (.service 5) (Counting.runtime ⟨1, 0⟩ ⟨[], [.uncertain]⟩
      ⟨32, 16, 100000⟩)) :=
  session_closes_once ((Counting.reachable ⟨1, 0⟩ _ (by decide)).step (.service 5))

end Sessions

end HidRuntimeLifetime
