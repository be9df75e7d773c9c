import VirtualGamepad.HidRuntimeLedger

/-! What one service call may do: how many events it reads, how many commands it submits, and that
queued input is not starved by the host. Each decrement of the budget is one submission, so a bound
on the submissions is also that the counter does not go below zero. -/
namespace HidRuntimeBudget

open Fallible HidRuntime HidRuntimeLedger

variable {P T S O : Type}

section Tallies

def isEvent : Call P S → Bool
  | .event _ => true
  | _ => false

def isSubmit : Call P S → Bool
  | .submit _ _ => true
  | _ => false

def isInputSubmit : Call P S → Bool
  | .submit (.input _) _ => true
  | _ => false

def isGeneration : Call P S → Bool
  | .input _ _ => true
  | _ => false

def isStop : Call P S → Bool
  | .lifecycle .stop => true
  | _ => false

/-- Reading an event, or the personality's handler of an output report, returned an error. -/
def isRefusal : Call P S → Bool
  | .event (.error _) => true
  | .output _ (.error _) => true
  | _ => false

def tally (p : Call P S → Bool) (rt : Runtime P T S O) : ℕ := rt.calls.countP fun e => p e.call

variable {rt rt' rt'' : Runtime P T S O} {events events' submits submits' : ℕ}

theorem tally_le (h : rt.calls <+: rt'.calls) (p : Call P S → Bool) : tally p rt ≤ tally p rt' :=
  h.sublist.countP_le

theorem tally_record {c : Call P S} (h : rt'.calls = (rt.record c).calls) (p : Call P S → Bool) :
    tally p rt' = tally p rt + (p c).toNat := by
  unfold tally
  rw [h]
  unfold Runtime.record
  rw [List.countP_append, List.countP_singleton]
  cases p c <;> rfl

theorem tally_record_lt {c : Call P S} {p : Call P S → Bool} (h : rt'.calls = (rt.record c).calls)
    (hp : p c = true) : tally p rt < tally p rt' := by
  rw [tally_record h p, hp]
  exact Nat.lt_succ_self _

/-- A part of a service call, with a bound on its events and its number of submissions. -/
structure Stage (events submits : ℕ) (rt rt' : Runtime P T S O) : Prop where
  initial : rt.calls <+: rt'.calls
  limits_eq : rt'.limits = rt.limits
  events_le : tally isEvent rt' ≤ tally isEvent rt + events
  submits_eq : tally isSubmit rt' = tally isSubmit rt + submits

theorem Stage.trans (h : Stage events submits rt rt') (k : Stage events' submits' rt' rt'') :
    Stage (events + events') (submits + submits') rt rt'' := by
  have hevents := h.events_le
  have hevents' := k.events_le
  have hsubmits := h.submits_eq
  have hsubmits' := k.submits_eq
  exact ⟨h.initial.trans k.initial, k.limits_eq.trans h.limits_eq, by omega, by omega⟩

theorem Stage.zero_trans (h : Stage 0 0 rt rt') (k : Stage events submits rt' rt'') :
    Stage events submits rt rt'' := by
  have hall := h.trans k
  rw [Nat.zero_add, Nat.zero_add] at hall
  exact hall

theorem stage_of_calls_eq (h : rt'.calls = rt.calls) (hl : rt'.limits = rt.limits) :
    Stage 0 0 rt rt' := by
  refine ⟨h ▸ List.prefix_rfl, hl, ?_, ?_⟩
  · unfold tally
    rw [h]
    exact Nat.le_refl _
  · unfold tally
    rw [h]
    exact (Nat.add_zero _).symm

theorem stage_of_record (c : Call P S) (h : rt'.calls = (rt.record c).calls)
    (hl : rt'.limits = rt.limits) : Stage (isEvent c).toNat (isSubmit c).toNat rt rt' :=
  ⟨h ▸ List.prefix_append _ _, hl, (tally_record h isEvent).le, tally_record h isSubmit⟩

/-- Only reports wait for the loop. -/
def Inputs (rt : Runtime P T S O) : Prop := ∃ queue : List Report, rt.pending = queue.map .input

/-- The submission loop finds what was there. -/
def Kept (rt rt' : Runtime P T S O) : Prop := rt'.pending = rt.pending ∧ rt'.dirty = rt.dirty

/-- A STOP has dropped what was there. -/
def Stopped (rt rt' : Runtime P T S O) : Prop :=
  tally isStop rt < tally isStop rt' ∧ rt'.pending = []

theorem Kept.trans (h : Kept rt rt') (k : Kept rt' rt'') : Kept rt rt'' :=
  ⟨k.1.trans h.1, k.2.trans h.2⟩

theorem Stopped.of_le (h : Stopped rt' rt'') (hcalls : rt.calls <+: rt'.calls) : Stopped rt rt'' :=
  ⟨Nat.lt_of_le_of_lt (tally_le hcalls isStop) h.1, h.2⟩

theorem observeOutput_stage (rt : Runtime P T S O) (output : Option O) :
    Stage 0 0 rt (rt.observeOutput output) ∧ Kept rt (rt.observeOutput output) ∧
      (rt.observeOutput output).reply = rt.reply := by
  cases output with
  | none => exact ⟨stage_of_calls_eq rfl rfl, ⟨rfl, rfl⟩, rfl⟩
  | some output =>
    unfold Runtime.observeOutput Option.elim Runtime.observe
    dsimp only
    split <;> exact ⟨stage_of_calls_eq rfl rfl, ⟨rfl, rfl⟩, rfl⟩

end Tallies

section Stages

variable [Protocol P S O] {rt : Runtime P T S O} {now budget : ℕ}

theorem acceptOutput_stage (report : Report) (now : ℕ) (rt : Runtime P T S O) :
    Meets (acceptOutput report now rt)
      (fun _ rt' => Stage 0 0 rt rt' ∧ Kept rt rt')
      (fun _ rt' => Stage 0 0 rt rt' ∧ tally isRefusal rt < tally isRefusal rt') := by
  unfold acceptOutput
  rw [meets_get_bind]
  rcases hrun : Protocol.output report now rt.protocol with ⟨result, protocol⟩
  dsimp only
  rw [meets_modify_bind]
  cases result with
  | error e =>
    rw [meets_lift_error_bind]
    refine ⟨stage_of_record (.output report (.error e)) rfl rfl, ?_⟩
    exact tally_record_lt (c := .output report (.error e)) rfl rfl
  | ok output =>
    rw [meets_lift_ok_bind, meets_modify]
    obtain ⟨hobserved, hkept, _⟩ := observeOutput_stage
      ({ rt.record (.output report (.ok ())) with protocol } : Runtime P T S O) output
    refine ⟨?_, hkept⟩
    have hrecord : Stage 0 0 rt
        ({ rt.record (.output report (.ok ())) with protocol } : Runtime P T S O) :=
      stage_of_record (.output report (.ok ())) rfl rfl
    exact hrecord.trans hobserved

theorem acceptLifecycle_stage (event : Lifecycle) (now : ℕ) (rt : Runtime P T S O) :
    Meets (acceptLifecycle event now rt)
      (fun _ rt' => Stage 0 0 rt rt' ∧ (Kept rt rt' ∨ Stopped rt rt')) (fun _ _ => False) := by
  unfold acceptLifecycle
  rw [meets_modify_bind, meets_get_bind]
  generalize hrt : (if event = .stop then { rt with pending := [], dirty := true } else rt :
    Runtime P T S O) = rt₁
  have hcalls : rt₁.calls = rt.calls := by
    rw [← hrt]
    split <;> rfl
  have hlimits : rt₁.limits = rt.limits := by
    rw [← hrt]
    split <;> rfl
  obtain ⟨output, protocol⟩ := Protocol.lifecycle rt₁.protocol event now
  dsimp only
  rw [meets_modify_bind, meets_modify]
  generalize hrt₂ : ({ rt₁.record (.lifecycle event) with protocol } : Runtime P T S O) = rt₂
  have hcalls₂ : rt₂.calls = (rt₁.record (.lifecycle event)).calls := by rw [← hrt₂]
  have hlimits₂ : rt₂.limits = rt₁.limits := by
    rw [← hrt₂]
    rfl
  have hkept₂ : Kept rt₁ rt₂ := by
    rw [← hrt₂]
    exact ⟨rfl, rfl⟩
  have hsame : Stage 0 0 rt rt₁ := stage_of_calls_eq hcalls hlimits
  have hrecord : Stage 0 0 rt₁ rt₂ := stage_of_record (.lifecycle event) hcalls₂ hlimits₂
  obtain ⟨hobserved, hkept, _⟩ := observeOutput_stage rt₂ output
  refine ⟨(hsame.trans hrecord).trans hobserved, ?_⟩
  by_cases hstop : event = .stop
  · right
    have hfirst := tally_le hsame.initial isStop
    have hlast := tally_le hobserved.initial isStop
    have hone := tally_record_lt (p := isStop) hcalls₂ (by rw [hstop]; rfl)
    refine ⟨Nat.lt_of_le_of_lt hfirst (Nat.lt_of_lt_of_le hone hlast), ?_⟩
    rw [hkept.1, hkept₂.1, ← hrt, if_pos hstop]
  · left
    rw [if_neg hstop] at hrt
    rw [hrt]
    exact hkept₂.trans hkept

variable [Transport T]

theorem submit_stage (command : Command) (rt : Runtime P T S O) :
    Meets (submit command rt)
      (fun _ rt' => Stage 0 1 rt rt' ∧ Kept rt rt' ∧ ∀ report, command = .input report →
        tally isInputSubmit rt < tally isInputSubmit rt') (fun _ _ => False) := by
  unfold submit
  dsimp only
  rw [meets_ok]
  generalize Transport.submit rt.transport command = result
  refine ⟨stage_of_record (.submit command result.1) rfl rfl, ⟨rfl, rfl⟩, ?_⟩
  rintro report rfl
  exact tally_record_lt (c := .submit (.input report) result.1) rfl rfl

theorem flushReply_stage (now : ℕ) (hbudget : 0 < budget) :
    Meets (flushReply now budget rt)
      (fun left rt' => ∃ n, Stage 0 n rt rt' ∧ left + n = budget ∧ n ≤ 1 ∧ Kept rt rt')
      (fun e rt' => ∃ n, Stage 0 n rt rt' ∧ n ≤ 1 ∧ e.recoverable = false) := by
  unfold flushReply
  rw [meets_get_bind]
  cases hreply : rt.reply with
  | none => exact ⟨0, stage_of_calls_eq rfl rfl, rfl, Nat.zero_le _, rfl, rfl⟩
  | some pending =>
    dsimp only
    by_cases hlate : pending.deadline ≤ now
    · rw [if_pos hlate]
      exact ⟨0, stage_of_calls_eq rfl rfl, Nat.zero_le _, rfl⟩
    · rw [if_neg hlate]
      apply meets_bind ((submit_stage pending.command rt).mono (fun _ _ hq => hq)
        (fun _ _ hf => hf.elim))
      rintro delivery rt₁ ⟨hstage, hkept, _⟩
      cases delivery with
      | submitted =>
        have hcleared : Stage 0 0 rt₁ { rt₁ with reply := none } := stage_of_calls_eq rfl rfl
        exact ⟨1, hstage.trans hcleared, Nat.sub_add_cancel hbudget, Nat.le_refl _,
          hkept.trans ⟨rfl, rfl⟩⟩
      | definitelyUnsent =>
        exact ⟨1, hstage, Nat.sub_add_cancel hbudget, Nat.le_refl _, hkept⟩
      | uncertain => exact ⟨1, hstage, Nat.le_refl _, rfl⟩

theorem validateReply_error {kind : RequestKind} {reply : Reply} {e : Error}
    (h : validateReply kind reply = .error e) : e = .invalidReply := by
  unfold validateReply at h
  split at h
  · split at h
    · cases h
    · exact (Except.error.inj h).symm
  · cases h
  · cases h
  · exact (Except.error.inj h).symm

theorem acceptRequest_stage (request : Request) (now : ℕ) (hbudget : 0 < budget) :
    Meets (acceptRequest request now budget rt)
      (fun left rt' => ∃ n, Stage 0 n rt rt' ∧ left + n = budget ∧ n ≤ 1 ∧ Kept rt rt')
      (fun e rt' => ∃ n, Stage 0 n rt rt' ∧ n ≤ 1 ∧ e.recoverable = false) := by
  unfold acceptRequest
  rw [meets_get_bind]
  by_cases hstale : request.token.session ≠ rt.session ∨
      rt.lastRequest.any (request.token.ordinal ≤ ·)
  · rw [if_pos hstale]
    exact ⟨0, stage_of_calls_eq rfl rfl, Nat.zero_le _, rfl⟩
  · rw [if_neg hstale]
    obtain ⟨⟨reply, output⟩, protocol⟩ := Protocol.request rt.protocol request.kind now
    dsimp only
    rw [meets_modify_bind]
    generalize hrt : ({ rt.record (.request request.kind reply) with
      lastRequest := some request.token.ordinal, protocol } : Runtime P T S O) = rt₁
    have hstage : Stage 0 0 rt rt₁ := by
      rw [← hrt]
      exact stage_of_record (.request request.kind reply) rfl rfl
    have hkept : Kept rt rt₁ := by
      rw [← hrt]
      exact ⟨rfl, rfl⟩
    cases hvalid : validateReply request.kind reply with
    | error e =>
      rw [meets_lift_error_bind, validateReply_error hvalid]
      exact ⟨0, hstage, Nat.zero_le _, rfl⟩
    | ok _ =>
      rw [meets_lift_ok_bind, meets_modify_bind, meets_modify_bind]
      generalize hrt₂ : ({ rt₁ with reply := some ⟨.reply request.token reply,
        MachineInt.saturatingAdd now rt₁.limits.replyTimeoutUs⟩ } : Runtime P T S O) = rt₂
      have hstage₂ : Stage 0 0 rt₁ rt₂ := by
        rw [← hrt₂]
        exact stage_of_calls_eq rfl rfl
      have hkept₂ : Kept rt₁ rt₂ := by
        rw [← hrt₂]
        exact ⟨rfl, rfl⟩
      obtain ⟨hobserved, hkept₃, _⟩ := observeOutput_stage rt₂ output
      have hall := (hstage.trans hstage₂).trans hobserved
      apply (flushReply_stage now hbudget).mono
      · rintro left rt₄ ⟨n, hflush, hleft, hn, hkept₄⟩
        exact ⟨n, hall.zero_trans hflush, hleft, hn,
          ((hkept.trans hkept₂).trans hkept₃).trans hkept₄⟩
      · rintro e rt₄ ⟨n, hflush, hn, he⟩
        exact ⟨n, hall.zero_trans hflush, hn, he⟩

omit [Protocol P S O] in
theorem readEvent_stage (rt : Runtime P T S O) :
    Meets (readEvent rt) (fun _ rt' => Stage 1 0 rt rt' ∧ Kept rt rt')
      (fun _ rt' => Stage 1 0 rt rt' ∧ tally isRefusal rt < tally isRefusal rt') := by
  unfold readEvent
  rcases Transport.event rt.transport with ⟨result, transport⟩
  dsimp only
  cases result with
  | error e =>
    rw [meets_error]
    exact ⟨stage_of_record (.event (.error e)) rfl rfl,
      tally_record_lt (c := .event (.error e)) rfl rfl⟩
  | ok event =>
    rw [meets_ok]
    exact ⟨stage_of_record (.event (.ok event)) rfl rfl, rfl, rfl⟩

/-- The host cannot take the last unit of the budget. -/
theorem hostEvent_stage (now : ℕ) (hbudget : 0 < budget) :
    Meets (hostEvent now budget rt)
      (fun left rt' => ∃ n, Stage 1 n rt rt' ∧ left + n = budget ∧ 0 < left ∧
        (Kept rt rt' ∨ Stopped rt rt'))
      (fun e rt' => ∃ n, Stage 1 n rt rt' ∧ n ≤ budget ∧
        (e.recoverable = false ∨ tally isRefusal rt < tally isRefusal rt')) := by
  unfold hostEvent
  rw [meets_get_bind]
  by_cases hread : rt.reply.isNone ∧ 1 < budget
  · rw [if_pos hread]
    obtain ⟨_, hmore⟩ := hread
    refine meets_bind ((readEvent_stage rt).mono (fun _ _ hq => hq) ?_) ?_
    · rintro e rt₁ ⟨hstage, hrefused⟩
      exact ⟨0, hstage, Nat.zero_le _, .inr hrefused⟩
    · rintro event rt₁ ⟨hstage, hkept⟩
      match event with
      | none => exact ⟨0, hstage, rfl, hbudget, .inl hkept⟩
      | some (.request request) =>
        apply (acceptRequest_stage request now hbudget).mono
        · rintro left rt₂ ⟨n, hstage₂, hleft, hn, hkept₂⟩
          refine ⟨n, ?_, hleft, by omega, .inl (hkept.trans hkept₂)⟩
          have hall := hstage.trans hstage₂
          rw [Nat.zero_add] at hall
          exact hall
        · rintro e rt₂ ⟨n, hstage₂, hn, he⟩
          refine ⟨n, ?_, by omega, .inl he⟩
          have hall := hstage.trans hstage₂
          rw [Nat.zero_add] at hall
          exact hall
      | some (.output report) =>
        refine meets_bind ((acceptOutput_stage report now rt₁).mono (fun _ _ hq => hq) ?_) ?_
        · rintro e rt₂ ⟨hstage₂, hrefused⟩
          have hmono := tally_le hstage.initial isRefusal
          exact ⟨0, hstage.trans hstage₂, Nat.zero_le _, .inr (Nat.lt_of_le_of_lt hmono hrefused)⟩
        · rintro _ rt₂ ⟨hstage₂, hkept₂⟩
          exact ⟨0, hstage.trans hstage₂, rfl, hbudget, .inl (hkept.trans hkept₂)⟩
      | some (.lifecycle event) =>
        refine meets_bind ((acceptLifecycle_stage event now rt₁).mono (fun _ _ hq => hq)
          (fun _ _ hf => hf.elim)) ?_
        rintro _ rt₂ ⟨hstage₂, hkept₂ | hstopped⟩
        · exact ⟨0, hstage.trans hstage₂, rfl, hbudget, .inl (hkept.trans hkept₂)⟩
        · exact ⟨0, hstage.trans hstage₂, rfl, hbudget, .inr (hstopped.of_le hstage.initial)⟩
  · rw [if_neg hread]
    have hsame : Stage 1 0 rt rt :=
      ⟨List.prefix_rfl, rfl, Nat.le_succ _, (Nat.add_zero _).symm⟩
    exact ⟨0, hsame, rfl, hbudget, .inl ⟨rfl, rfl⟩⟩

theorem drain_stage (budget : ℕ) : ∀ {rt : Runtime P T S O}, Inputs rt →
    Meets (drain budget rt)
      (fun left rt' => ∃ n, Stage 0 n rt rt' ∧ left + n = budget ∧ (rt.pending = [] → rt' = rt) ∧
        (0 < budget → rt.pending ≠ [] → tally isInputSubmit rt < tally isInputSubmit rt'))
      (fun e rt' => ∃ n, Stage 0 n rt rt' ∧ n ≤ budget ∧ e.recoverable = false) := by
  induction budget with
  | zero =>
    intro rt _
    exact ⟨0, stage_of_calls_eq rfl rfl, rfl, fun _ => rfl, fun hlt => absurd hlt (Nat.lt_irrefl 0)⟩
  | succ budget ih =>
    rintro rt ⟨queue, hqueue⟩
    unfold drain
    rw [meets_get_bind, hqueue]
    cases queue with
    | nil => exact ⟨0, stage_of_calls_eq rfl rfl, rfl, fun _ => rfl, fun _ hne => absurd rfl hne⟩
    | cons report queue =>
      refine meets_bind ((submit_stage (.input report) rt).mono (fun _ _ hq => hq)
        (fun _ _ hf => hf.elim)) ?_
      rintro delivery rt₁ ⟨hstage, hkept, hinput⟩
      have hattempt := hinput report rfl
      have hnonempty : ∀ {Q : Prop}, (report :: queue).map Command.input = [] → Q :=
        fun hnil => absurd hnil (List.cons_ne_nil _ _)
      cases delivery with
      | submitted =>
        dsimp only
        rw [meets_modify_bind]
        have htail : Inputs ({ rt₁ with pending := rt₁.pending.tail } : Runtime P T S O) :=
          ⟨queue, by rw [hkept.1, hqueue]; rfl⟩
        have hcleared : Stage 0 0 rt₁ ({ rt₁ with pending := rt₁.pending.tail } : Runtime P T S O) :=
          stage_of_calls_eq rfl rfl
        have hfirst := hstage.trans hcleared
        apply (ih htail).mono
        · rintro left rt₂ ⟨n, hrest, hleft, _, _⟩
          have hall := hfirst.trans hrest
          have hmono := tally_le hrest.initial isInputSubmit
          refine ⟨1 + n, ?_, by omega, fun hnil => hnonempty hnil, ?_⟩
          · rw [Nat.add_zero] at hall
            exact hall
          · intro _ _
            exact Nat.lt_of_lt_of_le hattempt hmono
        · rintro e rt₂ ⟨n, hrest, hn, he⟩
          have hall := hfirst.trans hrest
          rw [Nat.add_zero] at hall
          exact ⟨1 + n, hall, by omega, he⟩
      | definitelyUnsent =>
        exact ⟨1, hstage, rfl, fun hnil => hnonempty hnil, fun _ _ => hattempt⟩
      | uncertain => exact ⟨1, hstage, by omega, rfl⟩

omit [Transport T] in
theorem generate_stage (now : ℕ) (rt : Runtime P T S O) :
    Meets (generate now rt)
      (fun _ rt' => Stage 0 0 rt rt' ∧ tally isGeneration rt < tally isGeneration rt' ∧
        (rt.pending = [] → Inputs rt'))
      (fun _ rt' => Stage 0 0 rt rt' ∧ tally isGeneration rt < tally isGeneration rt') := by
  unfold generate
  rw [meets_get_bind]
  rcases Protocol.input rt.state now rt.protocol with ⟨result, candidate⟩
  dsimp only
  rw [meets_modify_bind]
  generalize hrt : rt.record (.input rt.state result) = rt₁
  have hcalls : rt₁.calls = (rt.record (.input rt.state result)).calls := by rw [hrt]
  have hlimits : rt₁.limits = rt.limits := by
    rw [← hrt]
    rfl
  have hpending : rt₁.pending = rt.pending := by
    rw [← hrt]
    rfl
  have hstage : Stage 0 0 rt rt₁ := stage_of_record (.input rt.state result) hcalls hlimits
  have hattempt : tally isGeneration rt < tally isGeneration rt₁ := tally_record_lt hcalls rfl
  cases result with
  | error e =>
    rw [meets_lift_error_bind]
    exact ⟨hstage, hattempt⟩
  | ok reports =>
    rw [meets_lift_ok_bind]
    by_cases hfull : rt.limits.inputQueue < reports.length
    · rw [if_pos hfull]
      exact ⟨hstage, hattempt⟩
    · rw [if_neg hfull]
      by_cases hkind : reports.any (·.kind ≠ .input)
      · rw [if_pos hkind]
        exact ⟨hstage, hattempt⟩
      · rw [if_neg hkind, meets_modify]
        have hqueued : Stage 0 0 rt₁ ({ rt₁ with
            pending := rt₁.pending ++ reports.map .input, protocol := candidate, dirty := false } :
              Runtime P T S O) := stage_of_calls_eq rfl rfl
        refine ⟨hstage.trans hqueued, ?_, ?_⟩
        · exact Nat.lt_of_lt_of_le hattempt (tally_le hqueued.initial isGeneration)
        · intro hempty
          refine ⟨reports, ?_⟩
          change rt₁.pending ++ reports.map .input = reports.map .input
          rw [hpending, hempty, List.nil_append]

/-- What the host cannot prevent in a call that stops nothing and in which no event was refused. -/
def Fair (now : ℕ) (rt rt' : Runtime P T S O) : Prop :=
  tally isStop rt' = tally isStop rt → tally isRefusal rt' = tally isRefusal rt →
    (rt.pending ≠ [] → tally isInputSubmit rt < tally isInputSubmit rt') ∧
      (rt.generationDue now → tally isGeneration rt < tally isGeneration rt' ∨
        (rt.dirty = false ∧ ¬ (Protocol.deadline rt'.protocol).any (· ≤ now)))

omit [Transport T] in
theorem Fair.of_calls_eq {rt' rt'' : Runtime P T S O} (h : Fair now rt rt')
    (hcalls : rt''.calls = rt'.calls) (hprotocol : rt''.protocol = rt'.protocol) :
    Fair now rt rt'' := by
  unfold Fair tally at h ⊢
  rw [hcalls, hprotocol]
  exact h

/-- The part of a service call in which the budget is shared. -/
def spend (now : ℕ) : Action Error (Runtime P T S O) ℕ := do
  let rt ← get
  let budget ← flushReply now rt.limits.submissionsPerService
  let budget ← hostEvent now budget
  drain budget

structure Spent (now : ℕ) (rt rt' : Runtime P T S O) : Prop where
  attempts : tally isStop rt' = tally isStop rt → tally isRefusal rt' = tally isRefusal rt →
    rt.pending ≠ [] → tally isInputSubmit rt < tally isInputSubmit rt'
  untouched : tally isStop rt' = tally isStop rt → rt.pending = [] →
    rt'.pending = [] ∧ rt'.dirty = rt.dirty

theorem spend_stage (now : ℕ) (hinputs : Inputs rt) (hlimit : 2 ≤ rt.limits.submissionsPerService) :
    Meets (spend now rt)
      (fun left rt' => ∃ n, Stage 1 n rt rt' ∧ left + n = rt.limits.submissionsPerService ∧
        Spent now rt rt')
      (fun e rt' => ∃ n, Stage 1 n rt rt' ∧ n ≤ rt.limits.submissionsPerService ∧
        (e.recoverable = false ∨ tally isRefusal rt < tally isRefusal rt')) := by
  unfold spend
  rw [meets_get_bind]
  refine meets_bind ((flushReply_stage now (by omega)).mono (fun _ _ hq => hq) ?_) ?_
  · rintro e rt₁ ⟨n, hstage, hn, he⟩
    refine ⟨n, ⟨hstage.initial, hstage.limits_eq, ?_, hstage.submits_eq⟩, by omega, .inl he⟩
    exact hstage.events_le.trans (Nat.le_succ _)
  · rintro budget rt₁ ⟨n₁, hstage₁, hbudget, hn₁, hkept₁⟩
    have hmono₁ := tally_le hstage₁.initial
    refine meets_bind ((hostEvent_stage now (by omega)).mono (fun _ _ hq => hq) ?_) ?_
    · rintro e rt₂ ⟨n₂, hstage₂, hn₂, he⟩
      have hall := hstage₁.trans hstage₂
      rw [Nat.zero_add] at hall
      refine ⟨n₁ + n₂, hall, by omega, ?_⟩
      rcases he with he | hrefused
      · exact .inl he
      · exact .inr (Nat.lt_of_le_of_lt (hmono₁ isRefusal) hrefused)
    · rintro left rt₂ ⟨n₂, hstage₂, hleft, hpos, hkept₂⟩
      have hpending : Stopped rt rt₂ ∨ Kept rt rt₂ := by
        rcases hkept₂ with hkept₂ | hstopped
        · exact .inr (hkept₁.trans hkept₂)
        · exact .inl (hstopped.of_le hstage₁.initial)
      have hinputs₂ : Inputs rt₂ := by
        rcases hpending with ⟨_, hnil⟩ | hkept
        · exact ⟨[], hnil⟩
        · obtain ⟨queue, hqueue⟩ := hinputs
          exact ⟨queue, hkept.1.trans hqueue⟩
      have hfirst := hstage₁.trans hstage₂
      rw [Nat.zero_add] at hfirst
      apply (drain_stage left hinputs₂).mono
      · rintro rest rt₃ ⟨n₃, hstage₃, hrest, hidle, hattempt⟩
        refine ⟨n₁ + n₂ + n₃, hfirst.trans hstage₃, by omega, ?_, ?_⟩
        · intro hstop _ hne
          have hmono := tally_le hstage₃.initial isStop
          have hmono' := tally_le hfirst.initial isInputSubmit
          rcases hpending with ⟨hstopped, _⟩ | hkept
          · omega
          · rw [← hkept.1] at hne
            exact Nat.lt_of_le_of_lt hmono' (hattempt hpos hne)
        · intro hstop hnil
          have hmono := tally_le hstage₃.initial isStop
          rcases hpending with ⟨hstopped, _⟩ | hkept
          · omega
          · rw [← hkept.1] at hnil
            rw [hidle hnil]
            exact ⟨hnil, hkept.2⟩
      · rintro e rt₃ ⟨n₃, hstage₃, hn₃, he⟩
        exact ⟨n₁ + n₂ + n₃, hfirst.trans hstage₃, by omega, .inl he⟩

omit [Transport T] in
/-- After the shared part, what was not attempted was not due. -/
theorem Spent.fair {rt₁ rt' : Runtime P T S O} (h : Spent now rt rt₁)
    (hinitial : rt.calls <+: rt₁.calls) (hcalls : rt₁.calls <+: rt'.calls)
    (hgenerated : rt₁.pending = [] → rt₁.dirty = rt.dirty → rt.generationDue now →
      tally isGeneration rt₁ < tally isGeneration rt' ∨
        (rt.dirty = false ∧ ¬ (Protocol.deadline rt'.protocol).any (· ≤ now))) :
    Fair now rt rt' := by
  intro hstop hrefusal
  have hstop₁ : tally isStop rt₁ = tally isStop rt := by
    have hlow := tally_le hinitial isStop
    have hhigh := tally_le hcalls isStop
    omega
  have hrefusal₁ : tally isRefusal rt₁ = tally isRefusal rt := by
    have hlow := tally_le hinitial isRefusal
    have hhigh := tally_le hcalls isRefusal
    omega
  constructor
  · intro hne
    exact Nat.lt_of_lt_of_le (h.attempts hstop₁ hrefusal₁ hne) (tally_le hcalls isInputSubmit)
  · intro hdue
    have hempty : rt.pending = [] := by
      unfold Runtime.generationDue at hdue
      rw [Bool.and_eq_true, List.isEmpty_iff] at hdue
      exact hdue.1
    obtain ⟨hpending, hdirty⟩ := h.untouched hstop₁ hempty
    rcases hgenerated hpending hdirty hdue with hlt | hmoved
    · exact .inl (Nat.lt_of_le_of_lt (tally_le hinitial isGeneration) hlt)
    · exact .inr hmoved

theorem serviceInner_stage (now : ℕ) (hinputs : Inputs rt)
    (hlimit : 2 ≤ rt.limits.submissionsPerService) :
    Meets (serviceInner now rt)
      (fun _ rt' => ∃ n, Stage 1 n rt rt' ∧ n ≤ rt.limits.submissionsPerService ∧ Fair now rt rt')
      (fun e rt' => ∃ n, Stage 1 n rt rt' ∧ n ≤ rt.limits.submissionsPerService ∧
        (e.recoverable = false ∨ Fair now rt rt')) := by
  have hsplit : serviceInner now rt = (spend now >>= fun budget => do
      let rt ← get
      if rt.generationDue now then
        generate now
        let _ ← drain budget
        takeObservations
      else takeObservations) rt := by
    unfold serviceInner spend
    simp only [bind_bind]
  rw [hsplit]
  refine meets_bind ((spend_stage now hinputs hlimit).mono (fun _ _ hq => hq) ?_) ?_
  · rintro e rt₁ ⟨n, hstage, hn, he⟩
    refine ⟨n, hstage, hn, ?_⟩
    rcases he with he | hrefused
    · exact .inl he
    · exact .inr fun _ hsame => absurd hsame hrefused.ne'
  · rintro budget rt₁ ⟨n, hstage, hbudget, hspent⟩
    rw [meets_get_bind]
    have hspent_all : ∀ {rt' : Runtime P T S O} {n' : ℕ}, Stage 0 n' rt₁ rt' → n' ≤ budget →
        ∃ m, Stage 1 m rt rt' ∧ m ≤ rt.limits.submissionsPerService := by
      intro rt' n' hstage' hn'
      exact ⟨n + n', hstage.trans hstage', by omega⟩
    by_cases hdue : rt₁.generationDue now
    · rw [if_pos hdue]
      have hempty : rt₁.pending = [] := by
        unfold Runtime.generationDue at hdue
        rw [Bool.and_eq_true, List.isEmpty_iff] at hdue
        exact hdue.1
      have hfair : ∀ {rt' : Runtime P T S O}, rt₁.calls <+: rt'.calls →
          tally isGeneration rt₁ < tally isGeneration rt' → Fair now rt rt' :=
        fun hcalls hlt => hspent.fair hstage.initial hcalls fun _ _ _ => .inl hlt
      refine meets_bind ((generate_stage now rt₁).mono (fun _ _ hq => hq) ?_) ?_
      · rintro e rt₂ ⟨hstage₂, hlt⟩
        obtain ⟨m, hm, hle⟩ := hspent_all hstage₂ (Nat.zero_le _)
        exact ⟨m, hm, hle, .inr (hfair hstage₂.initial hlt)⟩
      · rintro _ rt₂ ⟨hstage₂, hlt, hqueue⟩
        refine meets_bind ((drain_stage budget (hqueue hempty)).mono (fun _ _ hq => hq) ?_) ?_
        · rintro e rt₃ ⟨n₃, hstage₃, hn₃, he⟩
          obtain ⟨m, hm, hle⟩ := hspent_all (hstage₂.zero_trans hstage₃) hn₃
          exact ⟨m, hm, hle, .inl he⟩
        · rintro rest rt₃ ⟨n₃, hstage₃, hrest, _, _⟩
          have htaken : Stage 0 0 rt₃ ({ rt₃ with observations := [] } : Runtime P T S O) :=
            stage_of_calls_eq rfl rfl
          have hstage₄ := (hstage₂.zero_trans hstage₃).trans htaken
          obtain ⟨m, hm, hle⟩ := hspent_all hstage₄ (by omega)
          have hmono := tally_le hstage₃.initial isGeneration
          exact ⟨m, hm, hle, hfair hstage₄.initial (Nat.lt_of_lt_of_le hlt hmono)⟩
    · rw [if_neg hdue]
      have hstage₂ : Stage 0 0 rt₁ ({ rt₁ with observations := [] } : Runtime P T S O) :=
        stage_of_calls_eq rfl rfl
      obtain ⟨m, hm, hle⟩ := hspent_all hstage₂ (Nat.zero_le _)
      refine ⟨m, hm, hle, hspent.fair hstage.initial hstage₂.initial ?_⟩
      intro hpending hdirty _
      right
      unfold Runtime.generationDue at hdue
      rw [hpending] at hdue
      change ¬ (true && (rt₁.dirty || _)) = true at hdue
      rw [Bool.true_and, Bool.or_eq_true, not_or, Bool.not_eq_true, hdirty] at hdue
      exact hdue

/-- What one call of `service` does, whatever its outcome. -/
structure ServiceBudget (now : ℕ) (rt : Runtime P T S O) : Prop where
  reads_one : tally isEvent (service now rt).2 ≤ tally isEvent rt + 1
  submits_le : tally isSubmit (service now rt).2 ≤
    tally isSubmit rt + rt.limits.submissionsPerService
  /-- What is left after the shared part is what was not submitted. -/
  budget_left : ∀ left rt', spend now { rt with now := now } = (.ok left, rt') →
    left + tally isSubmit rt' = rt.limits.submissionsPerService + tally isSubmit rt
  fair : ∀ result rt', service now rt = (result, rt') →
    (∀ e, result = .error e → e.recoverable = true) → Fair now rt rt'

omit [Protocol P S O] in
theorem close_stage (rt : Runtime P T S O) : Stage 0 0 rt (close rt).2 := by
  unfold HidRuntime.close
  by_cases hclosed : rt.closed = true
  · rw [if_pos hclosed]
    exact stage_of_calls_eq rfl rfl
  · rw [if_neg hclosed]
    exact stage_of_record (.close (Transport.close rt.transport).1) rfl rfl

theorem service_budget_of_inputs (now : ℕ) (hinputs : Inputs rt)
    (hlimit : 2 ≤ rt.limits.submissionsPerService) : ServiceBudget now rt := by
  generalize hrt : ({ rt with now := now } : Runtime P T S O) = rt₀
  have hsame : Stage 0 0 rt rt₀ := by
    rw [← hrt]
    exact stage_of_calls_eq rfl rfl
  have hinputs₀ : Inputs rt₀ := by
    rw [← hrt]
    exact hinputs
  have hlimits : rt₀.limits = rt.limits := hsame.limits_eq
  have hfair₀ : ∀ {rt' : Runtime P T S O}, Fair now rt₀ rt' → Fair now rt rt' := by
    rw [← hrt]
    exact fun h => h
  have hspend := spend_stage now hinputs₀ (hlimits ▸ hlimit)
  have hinner := serviceInner_stage now hinputs₀ (hlimits ▸ hlimit)
  have hleft : ∀ left rt', spend now rt₀ = (.ok left, rt') →
      left + tally isSubmit rt' = rt.limits.submissionsPerService + tally isSubmit rt := by
    intro left rt' hrun
    rw [hrun, meets_ok] at hspend
    obtain ⟨n, hstage, hbudget, _⟩ := hspend
    have hsubmits := (hsame.trans hstage).submits_eq
    rw [hlimits] at hbudget
    omega
  -- the three exits of a call: refused at once, served, or served and closed
  have hrefused : ∀ e, e.recoverable = false → service now rt = (.error e, rt) →
      ServiceBudget now rt := by
    intro e he hrun
    refine ⟨by rw [hrun]; exact Nat.le_succ _, by rw [hrun]; exact Nat.le_add_right _ _, ?_, ?_⟩
    · rw [hrt]
      exact hleft
    · intro result rt' hservice hopen
      rw [hrun] at hservice
      obtain ⟨rfl, _⟩ := Prod.mk.inj hservice
      rw [hopen e rfl] at he
      cases he
  have hserved : ∀ (n : ℕ) (rt' : Runtime P T S O), Stage 1 n rt₀ rt' →
      n ≤ rt₀.limits.submissionsPerService → (service now rt).2 = rt' →
      ((∀ e, (service now rt).1 = .error e → e.recoverable = true) → Fair now rt rt') →
      ServiceBudget now rt := by
    intro n rt' hstage hn hrun hfair
    have hall := hsame.trans hstage
    have hsubmits := hall.submits_eq
    refine ⟨?_, ?_, ?_, ?_⟩
    · rw [hrun]
      exact hall.events_le
    · rw [hrun, hsubmits, ← hlimits]
      omega
    · rw [hrt]
      exact hleft
    · intro result rt'' hservice hopen
      rw [hservice] at hrun hfair
      obtain rfl : rt'' = rt' := hrun
      exact hfair hopen
  by_cases hclosed : rt.closed = true
  · exact hrefused .closed rfl (if_pos hclosed)
  · by_cases hlate : now < rt.now
    · exact hrefused .timeReversed rfl ((if_neg hclosed).trans (if_pos hlate))
    · rcases hout : serviceInner now rt₀ with ⟨e | output, rt₁⟩
      · rw [hout, meets_error] at hinner
        obtain ⟨n, hstage, hn, he⟩ := hinner
        have hrun : service now rt = if e.recoverable then (.error e, rt₁)
            else (.error e, (close rt₁).2) := by
          unfold service
          rw [if_neg hclosed, if_neg hlate, hrt, hout]
        by_cases hrec : e.recoverable = true
        · rw [if_pos hrec] at hrun
          apply hserved n rt₁ hstage hn (by rw [hrun])
          intro _
          rcases he with he | hfair
          · rw [he] at hrec
            cases hrec
          · exact hfair₀ hfair
        · rw [if_neg hrec] at hrun
          refine hserved n (close rt₁).2 ?_ hn (by rw [hrun]) ?_
          · exact hstage.trans (close_stage rt₁)
          · intro hopen
            exact absurd (hopen e (by rw [hrun])) hrec
      · rw [hout, meets_ok] at hinner
        obtain ⟨n, hstage, hn, hfair⟩ := hinner
        have hrun : service now rt = (.ok output, rt₁) := by
          unfold service
          rw [if_neg hclosed, if_neg hlate, hrt, hout]
        exact hserved n rt₁ hstage hn (by rw [hrun]) fun _ => hfair₀ hfair

end Stages

section Sessions

variable [Protocol P S O] [Transport T] {protocol : P} {transport : T} {session : ℕ}
  {limits : Limits} {rt : Runtime P T S O}

/-- A runtime is built with room for a reply and an input. -/
theorem reachable_limits (h : Reachable protocol transport session limits rt) :
    2 ≤ limits.submissionsPerService := by
  induction h with
  | new h =>
    unfold Runtime.new at h
    dsimp only at h
    by_cases hlow : limits.inputQueue = 0 ∨ limits.submissionsPerService < 2 ∨
        limits.replyTimeoutUs = 0
    · rw [if_pos hlow] at h
      cases h
    · rw [not_or, not_or, Nat.not_lt] at hlow
      exact hlow.2.1
  | step _ _ ih => exact ih

/-- Every call keeps its budget and leaves queued input its turn. -/
theorem service_keeps_budget (h : Reachable protocol transport session limits rt) (now : ℕ) :
    ServiceBudget now rt := by
  have hr := reachable_resting h
  obtain ⟨queue, hqueue, _⟩ := hr.run
  apply service_budget_of_inputs now ⟨queue, hqueue⟩
  rw [hr.limits_eq]
  exact reachable_limits h

end Sessions

/-- The witness: a queue that the transport has held up, and an output report. -/
theorem service_keeps_budget_held : ServiceBudget 6
    (perform (.service 5) (Counting.runtime ⟨2, 0⟩ ⟨[.lifecycle .open, .output ⟨.output, some 2, [9], by decide⟩],
      [.definitelyUnsent]⟩ ⟨32, 2, 100⟩)) :=
  service_keeps_budget ((Counting.reachable ⟨2, 0⟩ _ (by decide)).step (.service 5)) 6

/-- A personality that refuses output reports, or takes each as a reason to wait longer. -/
structure Wayward where
  refuses : Bool
  due : Option ℕ

instance : Protocol Wayward UInt8 UInt8 where
  neutral _ := 0
  validate _ _ := .ok ()
  input state _ p := (.ok [Counting.report state 0], p)
  deadline p := p.due
  request p _ _ := ((.set (.error .unsupported), none), p)
  output _ now p :=
    if p.refuses then (.error .queueFull, p) else (.ok none, { p with due := some (now + 1000) })
  lifecycle p _ _ := (none, p)
  delivered p _ _ := p

def Wayward.runtime (p : Wayward) (t : Scripted) : Runtime Wayward Scripted UInt8 UInt8 :=
  { protocol := p, transport := t, state := 0, dirty := true, pending := []
    observations := [], droppedObservations := 0, reply := none, session := 7
    lastRequest := none, now := 0, closed := false, closeError := none, limits := ⟨32, 2, 100⟩
    calls := [] }

/-- A report is held up at time 5; at time 6 the host sends an output report that is refused. -/
def refusing : Runtime Wayward Scripted UInt8 UInt8 :=
  perform (.service 5) (Wayward.runtime ⟨true, none⟩
    ⟨[.lifecycle .open, .output ⟨.output, some 2, [9], by decide⟩], [.definitelyUnsent]⟩)

/-- The personality is due at time 6, when the host sends an output report. -/
def postponing : Runtime Wayward Scripted UInt8 UInt8 :=
  perform (.service 5) (Wayward.runtime ⟨false, some 6⟩
    ⟨[.lifecycle .open, .output ⟨.output, some 2, [9], by decide⟩], []⟩)

/-- Neither call attempts what was queued or due, and both leave the session open. -/
theorem host_holds_input_up :
    ((∃ protocol transport, Reachable protocol transport 7 ⟨32, 2, 100⟩ refusing) ∧
      refusing.pending ≠ [] ∧ (service 6 refusing).1 = .error .queueFull ∧
      (service 6 refusing).2.closed = false ∧
      tally isStop (service 6 refusing).2 = tally isStop refusing ∧
      tally isInputSubmit (service 6 refusing).2 = tally isInputSubmit refusing) ∧
    (∃ protocol transport, Reachable protocol transport 7 ⟨32, 2, 100⟩ postponing) ∧
      postponing.generationDue 6 ∧ (service 6 postponing).1 = .ok [] ∧
      (service 6 postponing).2.closed = false ∧
      tally isStop (service 6 postponing).2 = tally isStop postponing ∧
      tally isGeneration (service 6 postponing).2 = tally isGeneration postponing :=
  ⟨⟨⟨_, _, .step (.new rfl) (.service 5)⟩, by decide, by decide, by decide, by decide, by decide⟩,
    ⟨_, _, .step (.new rfl) (.service 5)⟩, by decide, by decide, by decide, by decide, by decide⟩

end HidRuntimeBudget
