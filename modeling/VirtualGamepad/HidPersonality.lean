import VirtualGamepad.HidRuntimeLedger

/-! The personality under a HID session. The session moves it by the calls of its log alone, so what
holds of every run of a personality holds of every session that is opened with it. -/
namespace HidPersonality

open Fallible HidRuntime HidRuntimeLedger Runs

/-- A call on a personality, with what came back. -/
inductive PersonalityCall (P S : Type) where
  | request (kind : RequestKind) (now : ℕ) (reply : Reply)
  | output (report : Report) (now : ℕ) (result : Except Error Unit)
  | lifecycle (event : Lifecycle) (now : ℕ)
  | input (state : S) (now : ℕ) (reports : List Report)
  | delivered (command : Command) (outcome : Delivery)
  | replace (protocol : P)

variable {P T S O : Type} [Protocol P S O]

def PersonalityStep (p : P) (call : PersonalityCall P S) (p' : P) : Prop :=
  match call with
  | .request kind now reply =>
    (Protocol.request p kind now).1.1 = reply ∧ (Protocol.request p kind now).2 = p'
  | .output report now result =>
    (Protocol.output report now p).1.map (fun _ => ()) = result ∧ (Protocol.output report now p).2 = p'
  | .lifecycle event now => (Protocol.lifecycle p event now).2 = p'
  | .input state now reports => Protocol.input state now p = (.ok reports, p')
  | .delivered command outcome => Protocol.delivered p command outcome = p'
  | .replace protocol => protocol = p'

theorem step_unique {p p' p'' : P} {call : PersonalityCall P S} (h : PersonalityStep p call p')
    (k : PersonalityStep p call p'') : p' = p'' := by
  cases call with
  | request kind now reply => exact h.2.symm.trans k.2
  | output report now result => exact h.2.symm.trans k.2
  | lifecycle event now => exact h.symm.trans k
  | input state now reports => exact congrArg Prod.snd (Eq.trans (Eq.symm h) k)
  | delivered command outcome => exact h.symm.trans k
  | replace protocol => exact h.symm.trans k

/-- The calls tell what becomes of a personality. -/
theorem run_unique {p p' p'' : P} {calls : List (PersonalityCall P S)}
    (h : Run (PersonalityStep (P := P) (S := S) (O := O)) p calls p')
    (k : Run (PersonalityStep (P := P) (S := S) (O := O)) p calls p'') : p' = p'' := by
  induction h generalizing p'' with
  | nil => exact (run_nil.mp k).symm
  | snoc _ hstep ih =>
    obtain ⟨q, hrun, hlast⟩ := run_snoc.mp k
    obtain rfl := ih hrun
    exact step_unique hstep hlast

omit [Protocol P S O] in
/-- What a call of the log does to the personality. A batch that the session refuses does nothing. -/
def personalityCall (limits : Limits) (e : Entry P S) : Option (PersonalityCall P S) :=
  match e.call with
  | .request kind reply => some (.request kind e.now reply)
  | .output report result => some (.output report e.now result)
  | .lifecycle event => some (.lifecycle event e.now)
  | .input state (.ok reports) =>
    if Acceptable limits reports then some (.input state e.now reports) else none
  | .submit command outcome => some (.delivered command outcome)
  | .replace protocol => some (.replace protocol)
  | _ => none

/-- The calls of a log on its personality. -/
def personalityCalls (limits : Limits) (calls : List (Entry P S)) : List (PersonalityCall P S) :=
  calls.filterMap (personalityCall limits)

section Ledgers

variable {session : ℕ} {limits : Limits} {s t : Ledger P} {e : Entry P S} {calls : List (Entry P S)}

omit [Protocol P S O] in
theorem failed_protocol (s : Ledger P) (error : Error) : (s.failed error).protocol = s.protocol := by
  unfold Ledger.failed
  split
  · rfl
  · rfl

omit [Protocol P S O] in
theorem onEvent_protocol (session : ℕ) (s : Ledger P) (result : Except Error (Option HostEvent)) :
    (s.onEvent session result).protocol = s.protocol := by
  unfold Ledger.onEvent
  split
  · exact failed_protocol s _
  · rfl
  · split
    · rfl
    · rfl
  · rfl

theorem onDelivery_protocol (s : Ledger P) (command : Command) (outcome : Delivery) :
    (s.onDelivery command outcome).protocol = Protocol.delivered s.protocol command outcome := by
  cases outcome with
  | submitted => rfl
  | definitelyUnsent => rfl
  | uncertain => rfl

theorem step_personality {call : PersonalityCall P S} (h : Ledger.Step session limits s e t)
    (hcall : personalityCall limits e = some call) : PersonalityStep s.protocol call t.protocol := by
  obtain ⟨now, logged⟩ := e
  cases logged with
  | event result => cases hcall
  | submit command outcome =>
    cases hcall
    cases command with
    | input report =>
      obtain ⟨_, _, rest, _, rfl⟩ := h
      exact (onDelivery_protocol s _ outcome).symm
    | reply token reply =>
      obtain ⟨_, _, p, _, _, _, rfl⟩ := h
      exact (onDelivery_protocol s _ outcome).symm
  | close result => cases hcall
  | request kind reply =>
    cases hcall
    obtain ⟨_, r, _, rfl, _, hreply, rfl⟩ := h
    refine ⟨hreply.symm, ?_⟩
    unfold Ledger.onRequest
    dsimp only
    split
    · rfl
    · rfl
  | output report result =>
    cases hcall
    obtain ⟨_, _, hresult, rfl⟩ := h
    refine ⟨hresult.symm, ?_⟩
    cases result with
    | ok _ => rfl
    | error error =>
      change _ = (Ledger.failed _ error).protocol
      rw [failed_protocol]
  | lifecycle event =>
    cases hcall
    obtain ⟨_, _, rfl⟩ := h
    exact rfl
  | input state result =>
    cases result with
    | error _ => cases hcall
    | ok reports =>
      obtain ⟨_, _, _, hresult, rfl⟩ := h
      unfold personalityCall at hcall
      dsimp only at hcall
      split at hcall
      · next haccept =>
        cases hcall
        change Protocol.input state now s.protocol = _
        unfold Ledger.onInput
        dsimp only
        rw [if_pos haccept, hresult]
      · cases hcall
  | replace protocol =>
    cases hcall
    obtain ⟨_, _, rfl⟩ := h
    exact rfl

theorem step_silent (h : Ledger.Step session limits s e t)
    (hcall : personalityCall limits e = none) : t.protocol = s.protocol := by
  obtain ⟨now, logged⟩ := e
  cases logged with
  | event result =>
    obtain ⟨_, _, _, rfl⟩ := h
    exact onEvent_protocol session s result
  | close result =>
    obtain ⟨_, rfl⟩ := h
    rfl
  | input state result =>
    obtain ⟨_, _, _, hresult, rfl⟩ := h
    cases result with
    | error error => exact failed_protocol s error
    | ok reports =>
      unfold personalityCall at hcall
      dsimp only at hcall
      split at hcall
      · cases hcall
      · next haccept =>
        unfold Ledger.onInput
        dsimp only
        rw [if_neg haccept]
        split
        · rfl
        · rfl
  | _ => cases hcall

theorem run_personality (h : Run (Ledger.Step session limits) s calls t) :
    Run (PersonalityStep (P := P) (S := S) (O := O)) s.protocol (personalityCalls limits calls)
      t.protocol := by
  refine h.map Ledger.protocol (personalityCall limits) ?_ ?_
  · intro t e u call hstep hcall
    exact step_personality hstep hcall
  · intro t e u hstep hcall
    exact step_silent hstep hcall

end Ledgers

/-- The log of a session tells how its personality came about. -/
theorem reachable_personality [Transport T] {first : P} {transport : T} {session : ℕ} {limits : Limits}
    {rt : Runtime P T S O} (h : Reachable first transport session limits rt) :
    Run (PersonalityStep (P := P) (S := S) (O := O)) first (personalityCalls limits rt.calls)
      rt.protocol := by
  obtain ⟨_, hrun⟩ := (reachable_resting h).run
  exact run_personality hrun.2

end HidPersonality
