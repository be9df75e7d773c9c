import VirtualGamepad.Eviction
import VirtualGamepad.HidRuntimeLifetime

/-! What becomes of the observations a personality returns: each is held in the ring, taken, or
evicted and counted, whichever way the service ends. -/
namespace HidRuntimeObservations

open Fallible Eviction MachineInt HidRuntime
open HidRuntimeLifetime (close_closed)

variable {P T S O : Type} [Protocol P S O] [Transport T]

section Made

/-- What the personality answers to the host event of this call, and whether the answer stands:
a reply of the wrong form closes the session. -/
def heard (now : ℕ) (rt : Runtime P T S O) : List (O × Bool) :=
  match readEvent rt with
  | (.ok (some (.request request)), rt) =>
    if request.token.session ≠ rt.session ∨ rt.lastRequest.any (request.token.ordinal ≤ ·) then []
    else
      let ((reply, output), _) := Protocol.request rt.protocol request.kind now
      output.toList.map (·, decide (validateReply request.kind reply = .ok ()))
  | (.ok (some (.output report)), rt) =>
    match (Protocol.output report now rt.protocol).1 with
    | .ok output => output.toList.map (·, true)
    | .error _ => []
  | (.ok (some (.lifecycle event)), rt) =>
    (Protocol.lifecycle rt.protocol event now).1.toList.map (·, true)
  | _ => []

/-- The observations of one service call: it reaches the host event only with a free reply slot. -/
def made (now : ℕ) (rt : Runtime P T S O) : List (O × Bool) :=
  if rt.closed ∨ now < rt.now then []
  else
    match flushReply now rt.limits.submissionsPerService { rt with now := now } with
    | (.ok budget, rt) => if rt.reply.isNone ∧ 1 < budget then heard now rt else []
    | (.error _, _) => []

def kept (made : List (O × Bool)) : List O := (made.filter (·.2)).map Prod.fst

def refused (made : List (O × Bool)) : List O := (made.filter (!·.2)).map Prod.fst

omit [Protocol P S O] [Transport T] in
theorem kept_sublist (made : List (O × Bool)) : (kept made).Sublist (made.map Prod.fst) :=
  List.filter_sublist.map Prod.fst

theorem length_kept_refused (made : List (O × Bool)) :
    made.length = (kept made).length + (refused made).length := by
  unfold kept refused
  rw [List.length_map, List.length_map]
  induction made with
  | nil => rfl
  | cons m made ih => cases hm : m.2 <;> simp [hm, ih] <;> omega

theorem kept_valid (output : Option O) : kept (output.toList.map (·, true)) = output.toList := by
  cases output <;> rfl

theorem refused_valid (output : Option O) : refused (output.toList.map (·, true)) = [] := by
  cases output <;> rfl

theorem kept_invalid (output : Option O) : kept (output.toList.map (·, false)) = [] := by
  cases output <;> rfl

end Made

section Service

variable {entered left : List O} {rt t : Runtime P T S O}

/-- The runtime's ring, with what entered it and what was taken from it. -/
structure Counted (rt : Runtime P T S O) (entered left : List O) : Prop where
  ring : Ring rt.limits.inputQueue entered left rt.observations rt.droppedObservations
  slots_pos : 0 < rt.limits.inputQueue

/-- A step that touches neither the ring nor its counter. -/
structure Silent (rt t : Runtime P T S O) : Prop where
  observations_eq : t.observations = rt.observations
  dropped_eq : t.droppedObservations = rt.droppedObservations
  limits_eq : t.limits = rt.limits

omit [Protocol P S O] [Transport T] in
theorem Silent.refl (rt : Runtime P T S O) : Silent rt rt := ⟨rfl, rfl, rfl⟩

omit [Protocol P S O] [Transport T] in
theorem Silent.trans {u : Runtime P T S O} (h : Silent rt t) (k : Silent t u) : Silent rt u :=
  ⟨k.observations_eq.trans h.observations_eq, k.dropped_eq.trans h.dropped_eq,
    k.limits_eq.trans h.limits_eq⟩

omit [Protocol P S O] [Transport T] in
theorem record_silent (rt : Runtime P T S O) (call : Call P S) (protocol : P) :
    Silent rt { rt.record call with protocol := protocol } := ⟨rfl, rfl, rfl⟩

omit [Protocol P S O] [Transport T] in
theorem Counted.silent (h : Counted rt entered left) (k : Silent rt t) :
    Counted t entered left := by
  constructor
  · rw [k.observations_eq, k.dropped_eq, k.limits_eq]
    exact h.ring
  · rw [k.limits_eq]
    exact h.slots_pos

omit [Protocol P S O] [Transport T] in
theorem Counted.observe (h : Counted rt entered left) (output : O) :
    Counted (rt.observe output) (entered ++ [output]) left := by
  unfold Runtime.observe
  by_cases hfull : rt.observations.length = rt.limits.inputQueue
  · rw [if_pos hfull]
    exact ⟨h.ring.evict output hfull h.slots_pos, h.slots_pos⟩
  · rw [if_neg hfull]
    exact ⟨h.ring.push output hfull, h.slots_pos⟩

omit [Protocol P S O] [Transport T] in
theorem Counted.observeOutput (h : Counted rt entered left) (output : Option O) :
    Counted (rt.observeOutput output) (entered ++ output.toList) left := by
  cases output with
  | none =>
    change Counted rt (entered ++ []) left
    rwa [List.append_nil]
  | some output => exact h.observe output

theorem submit_silent (command : Command) (rt : Runtime P T S O) :
    Silent rt (submit command rt).2 := ⟨rfl, rfl, rfl⟩

theorem flushReply_silent (now budget : ℕ) (rt : Runtime P T S O) :
    Silent rt (flushReply now budget rt).2 := by
  apply meets_state.mp
  unfold flushReply
  rw [meets_get_bind]
  cases rt.reply with
  | none => exact .refl rt
  | some pending =>
    dsimp only
    by_cases hdue : pending.deadline ≤ now
    · rw [if_pos hdue]
      exact .refl rt
    · rw [if_neg hdue]
      refine meets_bind (Q := fun _ t => Silent rt t) (submit_silent pending.command rt) ?_
      intro delivery t ht
      cases delivery with
      | submitted => exact ht.trans ⟨rfl, rfl, rfl⟩
      | definitelyUnsent => exact ht
      | uncertain => exact ht

theorem drain_silent (budget : ℕ) (rt : Runtime P T S O) : Silent rt (drain budget rt).2 := by
  apply meets_state.mp
  induction budget generalizing rt with
  | zero => exact .refl rt
  | succ budget ih =>
    unfold drain
    rw [meets_get_bind]
    cases rt.pending with
    | nil => exact .refl rt
    | cons command _ =>
      dsimp only
      refine meets_bind (Q := fun _ t => Silent rt t) (submit_silent command rt) ?_
      intro delivery t ht
      cases delivery with
      | submitted =>
        refine (ih _).mono (fun _ _ h => ht.trans ?_) (fun _ _ h => ht.trans ?_)
        · exact ⟨h.observations_eq, h.dropped_eq, h.limits_eq⟩
        · exact ⟨h.observations_eq, h.dropped_eq, h.limits_eq⟩
      | definitelyUnsent => exact ht
      | uncertain => exact ht

omit [Transport T] in
theorem generate_silent (now : ℕ) (rt : Runtime P T S O) : Silent rt (generate now rt).2 := by
  apply meets_state.mp
  unfold generate
  rw [meets_get_bind]
  rcases Protocol.input rt.state now rt.protocol with ⟨error | reports, candidate⟩
  · exact ⟨rfl, rfl, rfl⟩
  · dsimp only
    rw [meets_modify_bind, meets_lift_ok_bind]
    by_cases hfull : rt.limits.inputQueue < reports.length
    · rw [if_pos hfull]
      exact ⟨rfl, rfl, rfl⟩
    · rw [if_neg hfull]
      cases reports.any (·.kind ≠ .input) with
      | true => exact ⟨rfl, rfl, rfl⟩
      | false => exact ⟨rfl, rfl, rfl⟩

omit [Protocol P S O] in
theorem close_silent (rt : Runtime P T S O) : Silent rt (HidRuntime.close (P := P) rt).2 := by
  unfold HidRuntime.close
  by_cases hclosed : rt.closed = true
  · rw [if_pos hclosed]
    exact .refl rt
  · rw [if_neg hclosed]
    exact ⟨rfl, rfl, rfl⟩

/-- After a call that made `made`: what stands has entered the ring, and what was refused ends the
call with `.invalidReply`. -/
structure Entered (made : List (O × Bool)) (entered left : List O) (t : Runtime P T S O) : Prop where
  counted : Counted t (entered ++ kept made) left
  few : (refused made).length ≤ 1

omit [Protocol P S O] [Transport T] in
theorem Counted.unheard (h : Counted rt entered left) : Entered [] entered left rt :=
  ⟨(List.append_nil entered).symm ▸ h, Nat.zero_le 1⟩

omit [Protocol P S O] [Transport T] in
theorem entered_valid (h : Counted rt entered left) (output : Option O) :
    Entered (output.toList.map (·, true)) entered left (rt.observeOutput output) := by
  constructor
  · rw [kept_valid]
    exact h.observeOutput output
  · rw [refused_valid]
    exact Nat.zero_le 1

theorem acceptRequest_entered (h : Counted rt entered left) (request : Request) (now budget : ℕ)
    {made : List (O × Bool)}
    (hmade : made =
      if request.token.session ≠ rt.session ∨ rt.lastRequest.any (request.token.ordinal ≤ ·) then []
      else (Protocol.request rt.protocol request.kind now).1.2.toList.map
        (·, decide (validateReply request.kind (Protocol.request rt.protocol request.kind now).1.1 =
          .ok ()))) :
    Meets (acceptRequest request now budget rt)
      (fun _ t => Entered made entered left t ∧ refused made = [])
      (fun error t => Entered made entered left t ∧
        (refused made ≠ [] → error = .invalidReply)) := by
  unfold acceptRequest
  rw [meets_get_bind]
  by_cases hstale : request.token.session ≠ rt.session ∨
      rt.lastRequest.any (request.token.ordinal ≤ ·)
  · rw [if_pos hstale] at hmade ⊢
    subst hmade
    exact ⟨h.unheard, fun hne => absurd rfl hne⟩
  · rw [if_neg hstale] at hmade ⊢
    rcases hr : Protocol.request rt.protocol request.kind now with ⟨⟨reply, output⟩, protocol⟩
    rw [hr] at hmade
    dsimp only at hmade ⊢
    rw [meets_modify_bind]
    cases hvalid : validateReply request.kind reply with
    | error error =>
      have herror : error = .invalidReply := by
        unfold validateReply at hvalid
        split at hvalid
        · split at hvalid <;> cases hvalid
          rfl
        all_goals cases hvalid
        rfl
      rw [hvalid, decide_eq_false (by simp)] at hmade
      rw [meets_lift_error_bind]
      refine ⟨⟨?_, ?_⟩, fun _ => herror⟩
      · rw [hmade, kept_invalid, List.append_nil]
        exact h.silent ⟨rfl, rfl, rfl⟩
      · rw [hmade]
        cases output <;> simp [refused]
    | ok _ =>
      rw [hvalid, decide_eq_true rfl] at hmade
      rw [meets_lift_ok_bind, meets_modify_bind, meets_modify_bind]
      generalize hrt : ({ rt.record (.request request.kind reply) with
        lastRequest := some request.token.ordinal, protocol := protocol,
        reply := some ⟨.reply request.token reply,
          saturatingAdd now rt.limits.replyTimeoutUs⟩ } : Runtime P T S O) = rt₁
      have hsilent : Silent rt rt₁ := by
        rw [← hrt]
        exact ⟨rfl, rfl, rfl⟩
      have hentered := (h.silent hsilent).observeOutput output
      rw [← kept_valid output, ← hmade] at hentered
      have hnone : refused made = [] := hmade ▸ refused_valid output
      have hflush : Entered made entered left (flushReply now budget (rt₁.observeOutput output)).2 :=
        ⟨hentered.silent (flushReply_silent now budget _), by rw [hnone]; exact Nat.zero_le 1⟩
      rw [← hrt] at hflush
      refine Meets.mono (meets_state.mpr hflush) (fun _ _ ht => ⟨ht, hnone⟩)
        (fun _ _ ht => ⟨ht, fun hne => absurd hnone hne⟩)

theorem hostEvent_entered (h : Counted rt entered left) {now budget : ℕ}
    (hfree : rt.reply.isNone ∧ 1 < budget) :
    Meets (hostEvent now budget rt)
      (fun _ t => Entered (heard now rt) entered left t ∧ refused (heard now rt) = [])
      (fun error t => Entered (heard now rt) entered left t ∧
        (refused (heard now rt) ≠ [] → error = .invalidReply)) := by
  unfold hostEvent
  rw [meets_get_bind, if_pos hfree]
  rcases hread : readEvent rt with ⟨error | event, rt₁⟩
  · have hsilent : Silent rt rt₁ := by
      have hrt : rt₁ = (readEvent rt).2 := by rw [hread]
      rw [hrt]
      exact ⟨rfl, rfl, rfl⟩
    have hheard : heard now rt = [] := by
      unfold heard
      rw [hread]
    rw [bind_run_error hread, hheard]
    exact ⟨(h.silent hsilent).unheard, fun hne => absurd rfl hne⟩
  · have hsilent : Silent rt rt₁ := by
      have hrt : rt₁ = (readEvent rt).2 := by rw [hread]
      rw [hrt]
      exact ⟨rfl, rfl, rfl⟩
    have hcounted := h.silent hsilent
    rw [meets_bind_ok hread]
    cases event with
    | none =>
      have hheard : heard now rt = [] := by
        unfold heard
        rw [hread]
      rw [hheard]
      exact ⟨hcounted.unheard, rfl⟩
    | some event =>
      cases event with
      | request request =>
        refine acceptRequest_entered hcounted request now budget ?_
        unfold heard
        rw [hread]
      | output report =>
        rcases hr : Protocol.output report now rt₁.protocol with ⟨error | output, protocol⟩
        · have hheard : heard now rt = [] := by
            unfold heard
            rw [hread]
            dsimp only
            rw [hr]
          have hrun : (do acceptOutput report now; pure budget : Action Error (Runtime P T S O) ℕ) rt₁ =
              (.error error, { rt₁.record (.output report (.error error)) with
                protocol := protocol }) := by
            unfold acceptOutput
            rw [bind_bind, get_bind_run, hr]
            rfl
          dsimp only
          rw [hrun, hheard]
          exact ⟨(hcounted.silent (record_silent rt₁ _ protocol)).unheard, fun hne => absurd rfl hne⟩
        · have hheard : heard now rt = output.toList.map (·, true) := by
            unfold heard
            rw [hread]
            dsimp only
            rw [hr]
          have hrun : (do acceptOutput report now; pure budget : Action Error (Runtime P T S O) ℕ) rt₁ =
              (.ok budget, ({ rt₁.record (.output report (.ok ())) with
                protocol := protocol } : Runtime P T S O).observeOutput output) := by
            unfold acceptOutput
            rw [bind_bind, get_bind_run, hr]
            rfl
          dsimp only
          rw [hrun, hheard]
          exact ⟨entered_valid (hcounted.silent (record_silent rt₁ _ protocol)) output,
            refused_valid output⟩
      | lifecycle event =>
        rcases hr : Protocol.lifecycle rt₁.protocol event now with ⟨output, protocol⟩
        have hheard : heard now rt = output.toList.map (·, true) := by
          unfold heard
          rw [hread]
          dsimp only
          rw [hr]
        rw [hheard]
        refine meets_bind (Q := fun _ t => Entered (output.toList.map (·, true)) entered left t)
          ?_ (fun _ _ ht => ⟨ht, refused_valid output⟩)
        unfold acceptLifecycle
        rw [meets_modify_bind, meets_get_bind]
        have hprotocol : (if event = .stop then { rt₁ with pending := [], dirty := true }
            else rt₁ : Runtime P T S O).protocol = rt₁.protocol := by
          by_cases hstop : event = .stop
          · rw [if_pos hstop]
          · rw [if_neg hstop]
        rw [hprotocol, hr]
        refine entered_valid (hcounted.silent ?_) output
        by_cases hstop : event = .stop
        · rw [if_pos hstop]
          exact ⟨rfl, rfl, rfl⟩
        · rw [if_neg hstop]
          exact ⟨rfl, rfl, rfl⟩

omit [Protocol P S O] [Transport T] in
/-- A call after the host event changes no ring. -/
theorem Entered.silent {made : List (O × Bool)} (h : Entered made entered left rt)
    (k : Silent rt t) : Entered made entered left t := ⟨h.counted.silent k, h.few⟩

/-- The rest of a service, once the host event is dealt with. -/
theorem finish_entered {made : List (O × Bool)} (h : Entered made entered left rt)
    (hnone : refused made = []) (now budget : ℕ) :
    Meets ((do
        let budget ← drain budget
        let rt ← get
        if rt.generationDue now then
          generate now
          let _ ← drain budget
          takeObservations
        else
          takeObservations : Action Error (Runtime P T S O) (List O)) rt)
      (fun events t => Entered made entered (left ++ events) t ∧ t.observations = [] ∧
        refused made = [])
      (fun error t => Entered made entered left t ∧
        (refused made ≠ [] → error = .invalidReply)) := by
  have htake : ∀ u : Runtime P T S O, Entered made entered left u →
      Meets (takeObservations u)
        (fun events t => Entered made entered (left ++ events) t ∧ t.observations = [] ∧
          refused made = [])
        (fun error t => Entered made entered left t ∧
          (refused made ≠ [] → error = .invalidReply)) := by
    intro u hu
    exact ⟨⟨⟨hu.counted.ring.take, hu.counted.slots_pos⟩, hu.few⟩, rfl, hnone⟩
  have hdrain : ∀ budget (u : Runtime P T S O), Entered made entered left u →
      Meets (drain budget u) (fun _ t => Entered made entered left t)
        (fun error t => Entered made entered left t ∧
          (refused made ≠ [] → error = .invalidReply)) := by
    intro budget u hu
    have hafter := hu.silent (drain_silent budget u)
    exact Meets.mono (meets_state.mpr hafter) (fun _ _ ht => ht)
      (fun _ _ ht => ⟨ht, fun hne => absurd hnone hne⟩)
  refine meets_bind (hdrain budget rt h) ?_
  intro budget u hu
  rw [meets_get_bind]
  by_cases hdue : u.generationDue now = true
  · rw [if_pos hdue]
    have hgenerated := hu.silent (generate_silent now u)
    refine meets_bind (Q := fun _ t => Entered made entered left t) ?_ ?_
    · exact Meets.mono (meets_state.mpr hgenerated) (fun _ _ ht => ht)
        (fun _ _ ht => ⟨ht, fun hne => absurd hnone hne⟩)
    · intro _ v hv
      exact meets_bind (hdrain budget v hv) fun _ w hw => htake w hw
  · rw [if_neg hdue]
    exact htake u hu

/-- One service. What it returns has left the ring; after an error the ring still holds it. -/
theorem service_entered (h : Counted rt entered left) (now : ℕ) :
    Meets (service now rt)
      (fun events t => Entered (made now rt) entered (left ++ events) t ∧ t.observations = [] ∧
        refused (made now rt) = [])
      (fun _ t => Entered (made now rt) entered left t ∧
        (refused (made now rt) ≠ [] → t.closed = true)) := by
  unfold service
  by_cases hclosed : rt.closed = true
  · have hmade : made now rt = [] := if_pos (.inl hclosed)
    rw [if_pos hclosed, hmade]
    exact ⟨h.unheard, fun hne => absurd rfl hne⟩
  by_cases hpast : now < rt.now
  · have hmade : made now rt = [] := if_pos (.inr hpast)
    rw [if_neg hclosed, if_pos hpast, hmade]
    exact ⟨h.unheard, fun hne => absurd rfl hne⟩
  rw [if_neg hclosed, if_neg hpast]
  have hinner : Meets (serviceInner now { rt with now := now })
      (fun events t => Entered (made now rt) entered (left ++ events) t ∧ t.observations = [] ∧
        refused (made now rt) = [])
      (fun error t => Entered (made now rt) entered left t ∧
        (refused (made now rt) ≠ [] → error = .invalidReply)) := by
    unfold serviceInner
    rw [meets_get_bind]
    have hflush := flushReply_silent now rt.limits.submissionsPerService { rt with now := now }
    have hmade : made now rt =
        match flushReply now rt.limits.submissionsPerService { rt with now := now } with
        | (.ok budget, rt) => if rt.reply.isNone ∧ 1 < budget then heard now rt else []
        | (.error _, _) => [] := if_neg (by tauto)
    rcases hr : flushReply now rt.limits.submissionsPerService { rt with now := now } with
      ⟨error | budget, rt₁⟩
    · rw [hr] at hmade hflush
      rw [bind_run_error hr, hmade]
      have hsame : Counted rt₁ entered left :=
        h.silent ⟨hflush.observations_eq, hflush.dropped_eq, hflush.limits_eq⟩
      exact ⟨hsame.unheard, fun hne => absurd rfl hne⟩
    · rw [hr] at hmade hflush
      have hsame : Counted rt₁ entered left :=
        h.silent ⟨hflush.observations_eq, hflush.dropped_eq, hflush.limits_eq⟩
      rw [meets_bind_ok hr]
      by_cases hfree : rt₁.reply.isNone ∧ 1 < budget
      · have hheard : made now rt = heard now rt₁ := hmade.trans (if_pos hfree)
        rw [hheard]
        refine meets_bind (hostEvent_entered hsame hfree) ?_
        rintro budget t ⟨ht, hnone⟩
        exact finish_entered ht hnone now budget
      · have hnothing : made now rt = [] := hmade.trans (if_neg hfree)
        rw [hnothing]
        have hskip : hostEvent now budget rt₁ = (.ok budget, rt₁) := by
          unfold hostEvent
          rw [get_bind_run, if_neg hfree]
          rfl
        rw [meets_bind_ok hskip]
        exact finish_entered hsame.unheard rfl now budget
  rcases hs : serviceInner now { rt with now := now } with ⟨error | events, t⟩
  · rw [hs] at hinner
    obtain ⟨hentered, hrefused⟩ := hinner
    dsimp only
    by_cases hrecoverable : error.recoverable = true
    · rw [if_pos hrecoverable]
      refine ⟨hentered, fun hne => ?_⟩
      rw [hrefused hne] at hrecoverable
      exact absurd hrecoverable (by decide)
    · rw [if_neg hrecoverable]
      exact ⟨hentered.silent (close_silent t), fun _ => close_closed t⟩
  · rw [hs] at hinner
    exact hinner

end Service

end HidRuntimeObservations
