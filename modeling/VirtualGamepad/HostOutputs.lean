import VirtualGamepad.HidPersonality
import VirtualGamepad.HidRuntimeTransport
import VirtualGamepad.SwitchPersonality

/-! What a session retains of its host's requests. A snapshot is the replay of the reports that the
personality has accepted, so that the last word on each field counts and a revision is a change. -/
namespace HostOutputs

open ControllerContract HidPersonality HidRuntime HidRuntimeTransport MachineInt Panicking Registers
  RetainedOutputs Runs SnapshotPersonalities SwitchPersonality

section Retaining

variable {P T S O R : Type}

/-- The report of a call, if it is accepted. A report without an answer has to have the right shape. -/
def hostReport (shaped : Report → Bool) (e : Entry P S) : Option Report :=
  match e.call with
  | .request (.set report) (.set (.ok ())) => some report
  | .output report (.ok ()) => if shaped report then some report else none
  | _ => none

/-- The accepted reports of a log, in their order. -/
def hostReports (shaped : Report → Bool) (calls : List (Entry P S)) : List Report :=
  calls.filterMap (hostReport shaped)

/-- The same report in a call on the personality. -/
def heardReport (shaped : Report → Bool) : PersonalityCall P S → Option Report
  | .request (.set report) _ (.set (.ok ())) => some report
  | .output report _ (.ok ()) => if shaped report then some report else none
  | _ => none

def IsReplace : PersonalityCall P S → Prop
  | .replace _ => True
  | _ => False

theorem heardReport_personalityCall (shaped : Report → Bool) (limits : Limits) (e : Entry P S) :
    (personalityCall limits e).bind (heardReport shaped) = hostReport shaped e := by
  obtain ⟨now, call⟩ := e
  cases call with
  | event result => rfl
  | submit command outcome => rfl
  | close result => rfl
  | request kind reply =>
    cases kind with
    | get kind id => rfl
    | set report =>
      cases reply with
      | get result => rfl
      | set result =>
        cases result with
        | ok _ => rfl
        | error e => rfl
  | output report result =>
    cases result with
    | ok _ => rfl
    | error e => rfl
  | lifecycle event => rfl
  | input state result =>
    cases result with
    | error e => rfl
    | ok reports =>
      unfold personalityCall hostReport
      dsimp only
      split
      · rfl
      · rfl
  | replace protocol => rfl

theorem heardReports_personalityCalls (shaped : Report → Bool) (limits : Limits)
    (calls : List (Entry P S)) :
    (personalityCalls limits calls).filterMap (heardReport shaped) = hostReports shaped calls := by
  unfold personalityCalls hostReports
  rw [List.filterMap_filterMap]
  congr 1
  funext e
  exact heardReport_personalityCall shaped limits e

variable [Protocol P S O] [OutputState R]

/-- A personality of this kind applies each accepted report, and nothing else, to what it retains. -/
structure Retains (kind : P → Prop) (shaped : Report → Bool) (retained : P → R) : Prop where
  kept : ∀ p call p', kind p → PersonalityStep p call p' → ¬IsReplace call → kind p'
  step : ∀ p call p', kind p → PersonalityStep p call p' → ¬IsReplace call →
    retained p' = (heardReport shaped call).elim (retained p) (RetainedOutputs.retain (retained p))

variable {kind : P → Prop} {shaped : Report → Bool} {retained : P → R} {p p' : P}
  {calls : List (PersonalityCall P S)}

theorem run_retained (h : Retains kind shaped retained) (hp : kind p)
    (hrun : Run (PersonalityStep (P := P) (S := S) (O := O)) p calls p')
    (hcalls : ∀ call ∈ calls, ¬IsReplace call) :
    kind p' ∧ retained p' = replay RetainedOutputs.retain (retained p) (calls.filterMap (heardReport shaped)) := by
  induction hrun with
  | nil => exact ⟨hp, rfl⟩
  | @snoc calls q call q' _ hstep ih =>
    obtain ⟨hq, hretained⟩ := ih fun c hc => hcalls c (List.mem_append_left _ hc)
    have hcall : ¬IsReplace call := hcalls call (by simp)
    refine ⟨h.kept q call q' hq hstep hcall, ?_⟩
    rw [h.step q call q' hq hstep hcall, hretained, List.filterMap_append, replay_append]
    cases hheard : heardReport shaped call with
    | none => simp [hheard]
    | some report => simp [hheard, replay]

def replaces : Call P S → Bool
  | .replace _ => true
  | _ => false

/-- Nobody has put another personality in the place of the first. -/
def Unreplaced (calls : List (Entry P S)) : Prop := ∀ e ∈ calls, replaces e.call = false

instance (calls : List (Entry P S)) : Decidable (Unreplaced calls) :=
  inferInstanceAs (Decidable (∀ e ∈ calls, replaces e.call = false))

omit [Protocol P S O] in
theorem not_isReplace {limits : Limits} {e : Entry P S} {call : PersonalityCall P S}
    (h : personalityCall limits e = some call) (he : replaces e.call = false) : ¬IsReplace call := by
  obtain ⟨now, logged⟩ := e
  cases logged with
  | event result => cases h
  | submit command outcome => cases h; exact id
  | close result => cases h
  | request kind reply => cases h; exact id
  | output report result => cases h; exact id
  | lifecycle event => cases h; exact id
  | input state result =>
    cases result with
    | error e => cases h
    | ok reports =>
      unfold personalityCall at h
      dsimp only at h
      split at h
      · cases h; exact id
      · cases h
  | replace protocol => cases he

variable [Transport T]

/-- The snapshot of a session is the replay of what its host has asked for. -/
theorem reachable_retained {first : P} {transport : T} {session : ℕ} {limits : Limits}
    {rt : Runtime P T S O} (hretains : Retains kind shaped retained) (hfirst : kind first)
    (h : Reachable first transport session limits rt) (hcalls : Unreplaced rt.calls) :
    retained rt.protocol = replay RetainedOutputs.retain (retained first) (hostReports shaped rt.calls) := by
  have hpersonality : ∀ call ∈ personalityCalls limits rt.calls, ¬IsReplace call := by
    intro call hcall
    obtain ⟨e, he, hof⟩ := List.mem_filterMap.mp hcall
    exact not_isReplace hof (hcalls e he)
  have hrun := (run_retained hretains hfirst (reachable_personality h) hpersonality).2
  rwa [heardReports_personalityCalls] at hrun

end Retaining

section Families

variable {S R : Type} [OutputState R] {validateOutput : Report → Except ReplyError Unit}
  {applies : Applies R validateOutput} {s t : R} {report : Report} {e : ReplyError}

theorem accepting_ok (h : accepting applies s report = .ok t) :
    (validateOutput report).isOk = true ∧ t = RetainedOutputs.retain s report := by
  unfold accepting at h
  split at h
  · cases h
  · next hvalid =>
    rw [hvalid]
    exact ⟨rfl, (retain_ok ((returned_eq_ok _).mp h)).symm⟩

theorem accepting_error (hvalid : (validateOutput report).isOk = true)
    (h : accepting applies s report = .error e) : RetainedOutputs.retain s report = s := by
  unfold accepting at h
  split at h
  · next hinvalid =>
    rw [hinvalid] at hvalid
    cases hvalid
  · exact retain_error ((returned_eq_error _).mp h)

/-- The reports that a check lets pass. -/
def passes (validateOutput : Report → Except ReplyError Unit) (report : Report) : Bool :=
  (validateOutput report).isOk

theorem snapshot_get (p : SnapshotProtocol S R) (kind : ReportType) (id : Option UInt8) :
    (p.request (.get kind id)).2 = p := by
  cases kind with
  | feature => rfl
  | input =>
    unfold SnapshotProtocol.request
    dsimp only
    cases p.last with
    | none => rfl
    | some report =>
      dsimp only
      split
      · rfl
      · rfl
  | output => rfl
  | other code => rfl

theorem snapshot_retains (validateOutput : Report → Except ReplyError Unit) :
    Retains (fun p : SnapshotProtocol S R => p.validateOutput = validateOutput) (passes validateOutput)
      (·.retained) := by
  have hstep (p : SnapshotProtocol S R) (call : PersonalityCall (SnapshotProtocol S R) S)
      (p' : SnapshotProtocol S R) (h : PersonalityStep p call p') (hcall : ¬IsReplace call) :
      p'.validateOutput = p.validateOutput ∧ p'.retained =
        (heardReport (passes p.validateOutput) call).elim p.retained
          (RetainedOutputs.retain p.retained) := by
    cases call with
    | request kind now reply =>
      obtain ⟨hreply, rfl⟩ := h
      change (SnapshotProtocol.request p kind).1.1 = reply at hreply
      change (SnapshotProtocol.request p kind).2.validateOutput = _ ∧
        (SnapshotProtocol.request p kind).2.retained = _
      cases kind with
      | get kind id =>
        rw [snapshot_get]
        exact ⟨rfl, rfl⟩
      | set report =>
        unfold SnapshotProtocol.request at hreply ⊢
        dsimp only at hreply ⊢
        cases haccept : accepting p.applies p.retained report with
        | ok retained =>
          rw [haccept] at hreply
          subst hreply
          exact ⟨rfl, (accepting_ok haccept).2⟩
        | error e =>
          rw [haccept] at hreply
          subst hreply
          exact ⟨rfl, rfl⟩
    | output report now result =>
      obtain ⟨hresult, rfl⟩ := h
      change (SnapshotProtocol.output report p).1.map (fun _ => ()) = result at hresult
      change (SnapshotProtocol.output report p).2.validateOutput = _ ∧
        (SnapshotProtocol.output report p).2.retained = _
      unfold SnapshotProtocol.output at hresult ⊢
      by_cases hvalid : (p.validateOutput report).isOk = true
      · rw [if_pos hvalid] at hresult ⊢
        cases haccept : accepting p.applies p.retained report with
        | ok retained =>
          rw [haccept] at hresult
          subst hresult
          refine ⟨rfl, ?_⟩
          change retained = (if passes p.validateOutput report then some report else none).elim _ _
          rw [passes, if_pos hvalid]
          exact (accepting_ok haccept).2
        | error e =>
          rw [haccept] at hresult
          subst hresult
          exact ⟨rfl, rfl⟩
      · rw [if_neg hvalid] at hresult ⊢
        subst hresult
        refine ⟨rfl, ?_⟩
        change p.retained = (if passes p.validateOutput report then some report else none).elim _ _
        rw [passes, if_neg hvalid]
        rfl
    | lifecycle event now =>
      obtain rfl := h
      cases event with
      | start _ _ _ => exact ⟨rfl, rfl⟩
      | stop => exact ⟨rfl, rfl⟩
      | «open» => exact ⟨rfl, rfl⟩
      | close => exact ⟨rfl, rfl⟩
    | input state now reports =>
      change SnapshotProtocol.input state now p = (.ok reports, p') at h
      unfold SnapshotProtocol.input at h
      split at h
      · cases h
      · split at h
        · cases h
          exact ⟨rfl, rfl⟩
        · cases h
          exact ⟨rfl, rfl⟩
    | delivered command outcome =>
      obtain rfl := h
      exact ⟨rfl, rfl⟩
    | replace protocol => exact absurd trivial hcall
  constructor
  · rintro p call p' rfl h hcall
    exact (hstep p call p' h hcall).1
  · rintro p call p' rfl h hcall
    exact (hstep p call p' h hcall).2

theorem dualSense_get (p : DualSenseUsbProtocol R) (kind : ReportType) (id : Option UInt8) :
    (p.request (.get kind id)).2 = p := by
  cases kind with
  | feature =>
    cases id with
    | none => rfl
    | some id => rfl
  | input =>
    unfold DualSenseUsbProtocol.request
    dsimp only
    cases p.lastInput with
    | none => rfl
    | some report =>
      dsimp only
      split
      · rfl
      · rfl
  | output => rfl
  | other code => rfl

theorem dualSense_retains :
    Retains (fun _ : DualSenseUsbProtocol R => True) (passes acceptOutput) (·.retained) := by
  refine ⟨fun _ _ _ _ _ _ => trivial, ?_⟩
  intro p call p' _ h hcall
  cases call with
  | request kind now reply =>
    obtain ⟨hreply, rfl⟩ := h
    change (DualSenseUsbProtocol.request p kind).1.1 = reply at hreply
    change (DualSenseUsbProtocol.request p kind).2.retained = _
    cases kind with
    | get kind id =>
      rw [dualSense_get]
      rfl
    | set report =>
      unfold DualSenseUsbProtocol.request at hreply ⊢
      dsimp only at hreply ⊢
      cases haccept : accepting p.applies p.retained report with
      | ok retained =>
        rw [haccept] at hreply
        subst hreply
        exact (accepting_ok haccept).2
      | error e =>
        rw [haccept] at hreply
        subst hreply
        rfl
  | output report now result =>
    obtain ⟨hresult, rfl⟩ := h
    change (DualSenseUsbProtocol.output report p).1.map (fun _ => ()) = result at hresult
    change (DualSenseUsbProtocol.output report p).2.retained = _
    unfold DualSenseUsbProtocol.output at hresult ⊢
    by_cases hvalid : (acceptOutput report).isOk = true
    · rw [if_pos hvalid] at hresult ⊢
      cases haccept : accepting p.applies p.retained report with
      | ok retained =>
        rw [haccept] at hresult
        subst hresult
        change retained = (if passes acceptOutput report then some report else none).elim _ _
        rw [passes, if_pos hvalid]
        exact (accepting_ok haccept).2
      | error e =>
        rw [haccept] at hresult
        subst hresult
        rfl
    · rw [if_neg hvalid] at hresult ⊢
      subst hresult
      change p.retained = (if passes acceptOutput report then some report else none).elim _ _
      rw [passes, if_neg hvalid]
      rfl
  | lifecycle event now =>
    obtain rfl := h
    cases event with
    | start _ _ _ => rfl
    | stop => rfl
    | «open» => rfl
    | close => rfl
  | input state now reports =>
    change DualSenseUsbProtocol.input state now p = (.ok reports, p') at h
    unfold DualSenseUsbProtocol.input at h
    split at h
    · cases h
    · split at h
      · cases h
        rfl
      · cases h
        rfl
  | delivered command outcome =>
    obtain rfl := h
    rfl
  | replace protocol => exact absurd trivial hcall

/-- The reports that the personality of a Switch Pro Controller has a use for. -/
def switchShaped (report : Report) : Bool :=
  report.kind = .output ∧ report.payload.length ≤ 63 ∧
    (report.id = some 0x80 ∧ report.payload ≠ [] ∨ report.id = some 1 ∧ 10 ≤ report.payload.length ∨
      report.id = some 0x10 ∧ 9 ≤ report.payload.length)

theorem takes_shaped {p next : SwitchUsbProtocol} {now : ℕ} (h : SwitchUsbProtocol.Takes p report now next) :
    switchShaped report = true ∧ next.retained = p.retained := by
  have hshape : (report.id = some 0x80 ∧ report.payload ≠ [] ∨
      report.id = some 1 ∧ 10 ≤ report.payload.length ∨
      report.id = some 0x10 ∧ 9 ≤ report.payload.length) ∧ next.retained = p.retained := by
    cases h.taken with
    | command hid hlength => exact ⟨.inl ⟨hid, hlength⟩, rfl⟩
    | subcommand hid hlength => exact ⟨.inr (.inl ⟨hid, hlength⟩), rfl⟩
    | rumble hid hlength => exact ⟨.inr (.inr ⟨hid, hlength⟩), rfl⟩
  exact ⟨decide_eq_true ⟨h.kind, h.length, hshape.1⟩, hshape.2⟩

/-- A report of the right shape is refused only by a full queue. -/
theorem processInner_busy {p : SwitchUsbProtocol} {now : ℕ} (hshaped : switchShaped report = true)
    (h : p.processInner report now = .error e) : e = .busy := by
  obtain ⟨hkind, hlength, hshape⟩ := of_decide_eq_true hshaped
  unfold SwitchUsbProtocol.processInner at h
  dsimp only at h
  rw [if_neg (not_not.mpr hkind), if_neg (Nat.not_lt.mpr hlength)] at h
  split at h
  · cases h
    rfl
  · split at h
    · cases h
    · next hcommand =>
      split at h
      · cases h
      · next hsubcommand =>
        split at h
        · cases h
        · next hrumble => exact absurd hshape (by simp only [hcommand, hsubcommand, hrumble, or_self, not_false_iff])

theorem process_ok {p next : SwitchUsbProtocol} {now : ℕ} (h : p.process report now = .ok next) :
    switchShaped report = true ∧ next.retained = RetainedOutputs.retain p.retained report := by
  unfold SwitchUsbProtocol.process at h
  split at h
  · cases h
  · next first hinner =>
    obtain ⟨hshaped, hsame⟩ := takes_shaped (SwitchUsbProtocol.processInner_takes hinner)
    split at h
    · cases h
    · next retained happly =>
      cases h
      rw [← hsame]
      exact ⟨hshaped, (retain_ok ((returned_eq_ok _).mp happly)).symm⟩

theorem process_error {p : SwitchUsbProtocol} {now : ℕ} (hshaped : switchShaped report = true)
    (h : p.process report now = .error e) :
    e = .busy ∨ RetainedOutputs.retain p.retained report = p.retained := by
  unfold SwitchUsbProtocol.process at h
  split at h
  · next hinner =>
    cases h
    exact .inl (processInner_busy hshaped hinner)
  · next first hinner =>
    have hsame := (takes_shaped (SwitchUsbProtocol.processInner_takes hinner)).2
    split at h
    · next happly =>
      rw [← hsame]
      exact .inr (retain_error ((returned_eq_error _).mp happly))
    · cases h

theorem switchPro_retains :
    Retains (fun _ : SwitchUsbProtocol => True) switchShaped (·.retained) := by
  refine ⟨fun _ _ _ _ _ _ => trivial, ?_⟩
  intro p call p' _ h hcall
  cases call with
  | request kind now reply =>
    obtain ⟨hreply, rfl⟩ := h
    change (SwitchUsbProtocol.request p kind now).1.1 = reply at hreply
    change (SwitchUsbProtocol.request p kind now).2.retained = _
    cases kind with
    | get kind id => rfl
    | set report =>
      unfold SwitchUsbProtocol.request at hreply ⊢
      dsimp only at hreply ⊢
      cases hprocess : p.process report now with
      | ok next =>
        rw [hprocess] at hreply
        subst hreply
        exact (process_ok hprocess).2
      | error e =>
        rw [hprocess] at hreply
        subst hreply
        rfl
  | output report now result =>
    obtain ⟨hresult, rfl⟩ := h
    change (SwitchUsbProtocol.output report now p).1.map (fun _ => ()) = result at hresult
    change (SwitchUsbProtocol.output report now p).2.retained = _
    unfold SwitchUsbProtocol.output at hresult ⊢
    cases hprocess : p.process report now with
    | ok next =>
      rw [hprocess] at hresult
      subst hresult
      change next.retained = (if switchShaped report then some report else none).elim _ _
      rw [if_pos (process_ok hprocess).1]
      exact (process_ok hprocess).2
    | error e =>
      rw [hprocess] at hresult
      have hrefused (hbusy : e ≠ .busy) : p.retained =
          (if switchShaped report then some report else none).elim p.retained
            (RetainedOutputs.retain p.retained) := by
        split
        · next hshaped => exact ((process_error hshaped hprocess).resolve_left hbusy).symm
        · rfl
      cases e with
      | busy =>
        subst hresult
        rfl
      | unsupported =>
        subst hresult
        exact hrefused (by decide)
      | invalid =>
        subst hresult
        exact hrefused (by decide)
  | lifecycle event now =>
    obtain rfl := h
    cases event with
    | start _ _ _ => rfl
    | stop => rfl
    | «open» => rfl
    | close => rfl
  | input state now reports =>
    change SwitchUsbProtocol.input state now p = (.ok reports, p') at h
    unfold SwitchUsbProtocol.input at h
    split at h
    · cases h
    · split at h
      · cases h
        rfl
      · cases h
        rfl
  | delivered command outcome =>
    obtain rfl := h
    rfl
  | replace protocol => exact absurd trivial hcall

end Families

section Sessions

variable {P T S O R : Type} [Protocol P S O] [Transport T] [OutputState R] [DecidableEq R]
  {kind : P → Prop} {shaped : Report → Bool} {retained : P → R} {revision : R → ℕ} {revise : R → ℕ → R}
  {next : R → Report → Outcome ReplyError R} {merge : R → R → R} {first : P} {transport : T}
  {session : ℕ} {limits : Limits} {rt : Runtime P T S O}

/-- The session after further calls of the application. -/
def later (ops : List (Op P S)) (rt : Runtime P T S O) : Runtime P T S O :=
  ops.foldl (fun rt op => perform op rt) rt

/-- What a session tells of its host's requests. -/
structure Remembers (shaped : Report → Bool) (retained : P → R) (revision : R → ℕ)
    (Latest : List Report → R → Prop) (rt : Runtime P T S O) : Prop where
  /-- The last word on every field, while revisions last. -/
  last : revision (retained rt.protocol) < u64Max →
    Latest (hostReports shaped rt.calls) (retained rt.protocol)
  /-- One revision for each report that changed something. -/
  counted : revision (retained rt.protocol) =
    changes RetainedOutputs.retain (OutputState.default : R) (hostReports shaped rt.calls)
  /-- The same revision later on is the same snapshot. -/
  same : ∀ ops, Unreplaced (later ops rt).calls →
    revision (retained (later ops rt).protocol) = revision (retained rt.protocol) →
    retained (later ops rt).protocol = retained rt.protocol

theorem later_reachable (h : Reachable first transport session limits rt) (ops : List (Op P S)) :
    Reachable first transport session limits (later ops rt) := by
  induction ops generalizing rt with
  | nil => exact h
  | cons op ops ih => exact ih (h.step op)

omit [OutputState R] [DecidableEq R] in
theorem later_calls (ops : List (Op P S)) (rt : Runtime P T S O) :
    ∃ more, (later ops rt).calls = rt.calls ++ more := by
  induction ops generalizing rt with
  | nil => exact ⟨[], (List.append_nil _).symm⟩
  | cons op ops ih =>
    obtain ⟨more, hmore⟩ := ih (perform op rt)
    obtain ⟨calls, hcalls, _⟩ := perform_follows op rt
    refine ⟨calls ++ more, ?_⟩
    change (later ops (perform op rt)).calls = _
    rw [hmore, hcalls, List.append_assoc]

theorem reachable_remembers {Latest : List Report → R → Prop} (hretains : Retains kind shaped retained)
    (hmerges : Merges revision revise next merge) (hfirst : kind first)
    (hdefault : retained first = OutputState.default)
    (hlatest : ∀ reports,
      revision (replay RetainedOutputs.retain (OutputState.default : R) reports) < u64Max →
      Latest reports (replay RetainedOutputs.retain OutputState.default reports))
    (h : Reachable first transport session limits rt) (hcalls : Unreplaced rt.calls) :
    Remembers shaped retained revision Latest rt := by
  have hreplay : retained rt.protocol =
      replay RetainedOutputs.retain OutputState.default (hostReports shaped rt.calls) := by
    rw [reachable_retained hretains hfirst h hcalls, hdefault]
  constructor
  · intro hbelow
    rw [hreplay] at hbelow ⊢
    exact hlatest _ hbelow
  · rw [hreplay]
    exact revision_counts hmerges _
  · intro ops hlater hrevision
    obtain ⟨more, hmore⟩ := later_calls ops rt
    have hreplay' := reachable_retained hretains hfirst (later_reachable h ops) hlater
    have happend : hostReports shaped (later ops rt).calls =
        hostReports shaped rt.calls ++ hostReports shaped more := by
      rw [hmore]
      exact List.filterMap_append
    rw [hdefault, happend] at hreplay'
    rw [hreplay, hreplay'] at hrevision
    rw [hreplay, hreplay']
    exact (retain_versioned hmerges).same hrevision

end Sessions

/-- The three families with output reports of their own remember the last word on every field. -/
theorem outputs_remembered {T : Type} [Transport T] (identity : Vector UInt8 6) (transport : T)
    (session : ℕ) (limits : Limits) :
    (∀ rt : Runtime (DualSenseUsbProtocol DualSenseOutputState) T _ _,
      Reachable (DualSenseUsbProtocol.new identity) transport session limits rt →
      Unreplaced rt.calls → Remembers (passes acceptOutput) (·.retained) (·.revision) DualSenseLatest rt) ∧
    (∀ rt : Runtime (SnapshotProtocol NativeState.DualShock4State DualShock4OutputState) T _ _,
      Reachable (dualshock4Protocol identity) transport session limits rt →
      Unreplaced rt.calls → Remembers (passes ds4Validate) (·.retained) (·.revision) DualShock4Latest rt) ∧
    ∀ rt : Runtime SwitchUsbProtocol T _ _,
      Reachable SwitchUsbProtocol.new transport session limits rt →
      Unreplaced rt.calls → Remembers switchShaped (·.retained) (·.revision) SwitchProLatest rt := by
  refine ⟨?_, ?_, ?_⟩
  · intro rt h hcalls
    exact reachable_remembers dualSense_retains dualSense_merges trivial rfl
      (fun _ => dualSense_latest) h hcalls
  · intro rt h hcalls
    exact reachable_remembers (snapshot_retains ds4Validate) dualShock4_merges rfl rfl
      (fun _ => dualShock4_latest) h hcalls
  · intro rt h hcalls
    exact reachable_remembers switchPro_retains switchPro_merges trivial rfl
      (fun _ => switchPro_latest) h hcalls

/-- A report with the motors and the light bar of a DualShock 4. -/
def ds4Request (flags left right red green blue : UInt8) : Report :=
  ⟨.output, some 5, [flags, 0, 0, right, left, red, green, blue] ++ List.replicate 23 0, by simp [Framed]⟩

/-- The host turns on the motors, then only the light. -/
def rumbleThenLight : Scripted :=
  ⟨[.output (ds4Request 1 9 7 0 0 0), .output (ds4Request 2 0 0 1 2 3)], []⟩

def ds4Opened : Runtime (SnapshotProtocol NativeState.DualShock4State DualShock4OutputState) Scripted
    NativeState.DualShock4State RawReverseEvent where
  protocol := dualshock4Protocol (.replicate 6 2)
  transport := rumbleThenLight
  state := .default
  dirty := true
  pending := []
  observations := []
  droppedObservations := 0
  reply := none
  session := 7
  lastRequest := none
  now := 0
  closed := false
  closeError := none
  limits := .default
  calls := []

theorem outputs_remembered_twice :
    let rt := later [.service 0, .service 1] ds4Opened
    rt.protocol.retained = ⟨2, none, some (9, 7), some (1, 2, 3), none⟩ ∧
      Remembers (passes ds4Validate) (·.retained) (·.revision) DualShock4Latest rt := by
  have hnew : Runtime.new (dualshock4Protocol (.replicate 6 2)) rumbleThenLight 7 .default =
      .ok ds4Opened := rfl
  refine ⟨by decide +kernel, ?_⟩
  exact (outputs_remembered (.replicate 6 2) rumbleThenLight 7 .default).2.1 _
    (later_reachable (.new hnew) _) (by decide +kernel)

end HostOutputs
