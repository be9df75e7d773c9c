import VirtualGamepad.HidRuntimeReplies
import VirtualGamepad.HidRuntimeTransport
import VirtualGamepad.UhidTransport

/-! Whole runs of the adapter on the kernel's HID node: what of the kernel's events reaches the
session above, and what of its answers reaches the kernel. -/
namespace UhidDialogue

open ControllerContract Fallible HidRuntime HidRuntimeTransport MachineInt Runs UhidEvents
open UhidSession UhidTransport
open WireBytes (bytesLe)

section Records

/-- The host events that the calls handed on. -/
def hostEvents (log : List TransportCall) : List HostEvent :=
  log.filterMap fun call => match call with
    | .event (.ok event) => event
    | _ => none

/-- The input reports that the calls took. -/
def submittedInputs (log : List TransportCall) : List (List UInt8) :=
  log.filterMap fun call => match call with
    | .submit (.input report) .submitted => some report.wire
    | _ => none

def delivered : Verdict → Option HostEvent
  | .deliver event => some event
  | _ => none

variable {log log' : List TransportCall}

@[simp] theorem hostEvents_append : hostEvents (log ++ log') = hostEvents log ++ hostEvents log' :=
  List.filterMap_append

@[simp] theorem submittedInputs_append :
    submittedInputs (log ++ log') = submittedInputs log ++ submittedInputs log' :=
  List.filterMap_append

theorem delivered_one (v : Verdict) : [v].filterMap delivered = (delivered v).toList := by
  cases h : delivered v with
  | none => simp [h]
  | some event => simp [h]

theorem readingAfter_snoc (id : ℕ) (r : Reading) (events : List Event) (event : Event) :
    readingAfter id r (events ++ [event]) = (interpret id (readingAfter id r events) event).2 := by
  simp [readingAfter]

theorem verdicts_snoc (id : ℕ) (r : Reading) (events : List Event) (event : Event) :
    verdicts id r (events ++ [event]) =
      verdicts id r events ++ [(interpret id (readingAfter id r events) event).1] := by
  induction events generalizing r with
  | nil => rfl
  | cons first events ih =>
    rw [List.cons_append, verdicts, verdicts, ih]
    rfl

end Records

section Runs

variable {K : Type} {id : ℕ} {start : Reading} {log : List TransportCall} {t t' : HidTransport K}

/-- The reply number `i` is the answer to the token `i + 1`: it was submitted above, or the
request was framed wrongly and the adapter refused it. -/
def Answered (id : ℕ) (log : List TransportCall) (told : List Verdict) (i : ℕ) (kr : KernelReply) :
    Prop :=
  ∃ answer, kr = kernelReply kr.id answer ∧
    (.submit (.reply ⟨id, i + 1⟩ answer) .submitted ∈ log ∨
      (.refuse ⟨id, i + 1⟩ ∈ told ∧ answer = .set (.error .invalid)))

theorem Answered.mono {told told' : List Verdict} {log' : List TransportCall} {i : ℕ}
    {kr : KernelReply} (h : Answered id log told i kr) (hlog : log ⊆ log') (htold : told ⊆ told') :
    Answered id log' told' i kr := by
  obtain ⟨answer, hkr, hsubmitted | ⟨hrefused, hanswer⟩⟩ := h
  · exact ⟨answer, hkr, .inl (hlog hsubmitted)⟩
  · exact ⟨answer, hkr, .inr ⟨htold hrefused, hanswer⟩⟩

/-- What a log of calls says about the wire. -/
structure Told (id : ℕ) (start : Reading) (log : List TransportCall) (t : HidTransport K) :
    Prop where
  agrees : Agrees t
  session : t.id = id
  reading : t.reading = readingAfter id start (kernelEvents t.session.wire)
  delivered : hostEvents log =
    (verdicts id start (kernelEvents t.session.wire)).filterMap UhidDialogue.delivered
  counted : t.ordinal = min (requests t.session.wire).length u64Max
  holding : t.pending ≠ none → (requests t.session.wire).length = t.ordinal
  answers : ∀ i kr, (replies t.session.wire)[i]? = some kr →
    Answered id log (verdicts id start (kernelEvents t.session.wire)) i kr
  inputs : UhidSession.inputs t.session.wire = submittedInputs log

/-- A call that shows nothing, with a wire that shows nothing. -/
theorem Told.quiet {call : TransportCall} {wire : List Exchange} (h : Told id start log t)
    (hagrees : Agrees t') (hid : t'.id = t.id) (hreading : t'.reading = t.reading)
    (hpending : t'.pending ≠ none → t'.pending = t.pending)
    (hwire : t'.session.wire = t.session.wire ++ wire) (hevents : kernelEvents wire = [])
    (hreplies : replies wire = []) (hinputs : UhidSession.inputs wire = submittedInputs [call])
    (hhost : hostEvents [call] = []) : Told id start (log ++ [call]) t' := by
  have hordinal : t'.ordinal = t.ordinal := congrArg Reading.ordinal hreading
  have hrequests : requests wire = [] := by simp [requests, hevents]
  refine ⟨hagrees, hid.trans h.session, ?_, ?_, ?_, ?_, ?_, ?_⟩
  · simpa [hwire, hevents, hreading] using h.reading
  · simpa [hwire, hevents, hhost] using h.delivered
  · simpa [hwire, hrequests, hordinal] using h.counted
  · intro hp
    have hheld : t.pending ≠ none := by
      rw [← hpending hp]
      exact hp
    simpa [hwire, hrequests, hordinal] using h.holding hheld
  · intro i kr hi
    rw [hwire, replies_append, hreplies, List.append_nil] at hi
    rw [hwire, kernelEvents_append, hevents, List.append_nil]
    exact (h.answers i kr hi).mono (List.subset_append_left _ _) (List.Subset.refl _)
  · rw [hwire, inputs_append, hinputs, h.inputs, submittedInputs_append]

theorem delivery_submitted {r : Except ProviderError Unit} :
    delivery r = .submitted ↔ r = .ok () := by
  rcases r with error | _
  · cases error with
    | _ => simp [delivery]
  · simp [delivery]

/-- The request that waits is the last one, and its token is the number of the reply to come. -/
theorem Told.next (h : Told id start log t) {token : RequestId} {kernelId : UInt32}
    (hpending : t.pending = some (token, kernelId)) (hopen : t.session.state = .open) :
    token = ⟨id, (replies t.session.wire).length + 1⟩ := by
  obtain ⟨htoken, isGet, hslot⟩ := h.agrees.held token kernelId hpending
  have hcount := h.holding (by simp [hpending])
  have hline := run_dialogue h.agrees.lined
  have hwaiting := hline.waiting _ (line_open hopen)
  rw [hslot] at hwaiting
  have hlength := congrArg List.length hwaiting
  simp only [List.length_append, List.length_map, Option.toList_some, List.length_singleton]
    at hlength
  rw [htoken, h.session, ← hcount, hlength]

/-- A reply passes to the kernel under the number of its token. -/
theorem Told.reply {log' : List TransportCall} {token : RequestId} {answer : Reply} {d : Delivery}
    (h : Told id start log t) (hsubmit : Submits t (.reply token answer) d t')
    (hhost : hostEvents log' = hostEvents log)
    (hinputs : submittedInputs log' = submittedInputs log) (hlog : log ⊆ log')
    (hanswer : d = .submitted → .submit (.reply token answer) .submitted ∈ log' ∨
      (.refuse token ∈ verdicts id start (kernelEvents t.session.wire) ∧
        answer = .set (.error .invalid))) :
    Told id start log' t' := by
  have hagrees := submits_agrees h.agrees hsubmit
  cases hsubmit with
  | refused halike =>
    refine ⟨hagrees, h.session, ?_, ?_, ?_, ?_, ?_, ?_⟩
    · rw [halike.wire]
      exact h.reading
    · simpa [halike.wire, hhost] using h.delivered
    · simpa [halike.wire] using h.counted
    · simpa [halike.wire] using h.holding
    · intro i kr hi
      rw [halike.wire] at hi ⊢
      exact (h.answers i kr hi).mono hlog (List.Subset.refl _)
    · rw [halike.wire, h.inputs, hinputs]
  | @reply _ _ kernelId bytes outcome s' hpending hopen hslot hread halike =>
    have htoken := h.next hpending hopen
    have hevents : kernelEvents s'.wire = kernelEvents t.session.wire := by
      simp [halike.wire, kernelEvents]
    have hrequests : requests s'.wire = requests t.session.wire := by simp [requests, hevents]
    have hreplies : replies s'.wire = replies t.session.wire ++
        if written bytes outcome = .ok () then [kernelReply kernelId answer] else [] := by
      rw [halike.wire, replies_append, replies_reply outcome hread]
    refine ⟨hagrees, h.session, ?_, ?_, ?_, ?_, ?_, ?_⟩
    · rw [hevents]
      exact h.reading
    · simpa [hevents, hhost] using h.delivered
    · simpa [hrequests] using h.counted
    · intro hp
      rw [hrequests]
      exact h.holding (by simp [hpending])
    · intro i kr hi
      rw [hreplies] at hi
      rw [hevents]
      by_cases hold : i < (replies t.session.wire).length
      · rw [List.getElem?_append_left hold] at hi
        exact (h.answers i kr hi).mono hlog (List.Subset.refl _)
      · rw [List.getElem?_append_right (by omega)] at hi
        by_cases hwritten : written bytes outcome = .ok ()
        · rw [if_pos hwritten] at hi
          obtain ⟨hlast, hkr⟩ := List.getElem?_eq_some_iff.mp hi
          rw [List.length_singleton] at hlast
          obtain rfl : i = (replies t.session.wire).length := by omega
          rw [List.getElem_singleton] at hkr
          refine ⟨answer, ?_, ?_⟩
          · rw [← hkr, kernelReply_id]
          · rw [← htoken]
            exact hanswer (delivery_submitted.mpr hwritten)
        · rw [if_neg hwritten] at hi
          cases hi
    · have hsilent : UhidSession.inputs [.write bytes outcome] = [] :=
        inputs_silent outcome (by simp [hread])
      rw [halike.wire, inputs_append, hsilent, List.append_nil, h.inputs, hinputs]

/-- How a taken event moves the tokens and the slot. -/
theorem take_tokens {event : Event} (hpending : t.pending = none) :
    (asks event = none ∧ (t.take event).ordinal = t.ordinal ∧ (t.take event).pending = none) ∨
      (asks event ≠ none ∧ t.ordinal = u64Max ∧ (t.take event).ordinal = t.ordinal ∧
        (t.take event).pending = none) ∨
      (asks event ≠ none ∧ t.ordinal ≠ u64Max ∧ (t.take event).ordinal = t.ordinal + 1) := by
  cases hasks : asks event with
  | none =>
    refine .inl ⟨rfl, ?_, ?_⟩
    · cases event with
      | output bytes => rfl
      | get kernelId reportId reportType => simp [asks] at hasks
      | set kernelId reportId reportType bytes => simp [asks] at hasks
      | lifecycle event => rfl
    · change t.slotFor event = none
      rw [HidTransport.slotFor, hasks]
      exact hpending
  | some request =>
    obtain ⟨kernelId, isGet⟩ := request
    by_cases hfull : t.ordinal = u64Max
    · rw [(take_full hasks hfull).2]
      exact .inr (.inl ⟨by simp, hfull, rfl, hpending⟩)
    · rw [take_request hasks hfull]
      exact .inr (.inr ⟨by simp, hfull, rfl⟩)

theorem asked_one {event : Event} (h : asks event ≠ none) : (asks event).toList.length = 1 := by
  obtain ⟨request, hrequest⟩ := Option.ne_none_iff_exists'.mp h
  simp [hrequest]

theorem Told.verdicts_take {outcome : ReadOutcome} {event : Event} {s' : Session K}
    (h : Told id start log t) (hreceived : received outcome = .ok event)
    (halike : Alike (Session.hear { t.session with
      wire := t.session.wire ++ [.read outcome] } event) s') :
    verdicts id start (kernelEvents s'.wire) =
      verdicts id start (kernelEvents t.session.wire) ++
        [(interpret t.id t.reading event).1] := by
  have hwire : s'.wire = t.session.wire ++ [.read outcome] :=
    halike.wire.trans (hear_frame _ event).2
  have hevents : kernelEvents s'.wire = kernelEvents t.session.wire ++ [event] := by
    simp [hwire, kernelEvents, hreceived, Except.toOption]
  rw [hevents, verdicts_snoc, ← h.reading, h.session]

/-- An event that is read goes to the end of what the kernel told. -/
theorem Told.take {log' : List TransportCall} {outcome : ReadOutcome} {event : Event}
    {s' : Session K} (h : Told id start log t) (hopen : t.session.state = .open)
    (hslot : t.session.pendingRequest = none) (hreceived : received outcome = .ok event)
    (halike : Alike (Session.hear { t.session with
      wire := t.session.wire ++ [.read outcome] } event) s')
    (hhost : hostEvents log' = hostEvents log ++
      (UhidDialogue.delivered (interpret t.id t.reading event).1).toList)
    (hinputs : submittedInputs log' = submittedInputs log) (hlog : log ⊆ log') :
    Told id start log' ({ t with session := s' }.take event) := by
  have hlined : Lined s' := heard_lined h.agrees.lined hopen hslot hreceived halike
  have hpending := h.agrees.pending_none hslot
  have hagrees := take_agrees h.agrees hslot hpending hlined halike
  have hwire : s'.wire = t.session.wire ++ [.read outcome] :=
    halike.wire.trans (hear_frame _ event).2
  have hevents : kernelEvents s'.wire = kernelEvents t.session.wire ++ [event] := by
    simp [hwire, kernelEvents, hreceived, Except.toOption]
  have hrequests : requests s'.wire = requests t.session.wire ++ (asks event).toList := by
    rw [hwire, requests_append, requests_read]
    simp [asked, hreceived, Except.toOption]
  have hreplies : replies s'.wire = replies t.session.wire := by simp [hwire, replies]
  have hverdicts := h.verdicts_take hreceived halike
  have hcounted := h.counted
  have htokens := @take_tokens K { t with session := s' } event hpending
  refine ⟨hagrees, h.session, ?_, ?_, ?_, ?_, ?_, ?_⟩
  · change (interpret t.id t.reading event).2 = readingAfter id start (kernelEvents s'.wire)
    rw [hevents, readingAfter_snoc, ← h.reading, h.session]
  · change hostEvents log' = (verdicts id start (kernelEvents s'.wire)).filterMap _
    rw [hverdicts, List.filterMap_append, ← h.delivered, hhost, delivered_one]
  · change (({ t with session := s' } : HidTransport K).take event).ordinal =
      min (requests s'.wire).length u64Max
    rw [hrequests, List.length_append]
    rcases htokens with ⟨hasks, hordinal, -⟩ | ⟨hasks, hfull, hordinal, -⟩ | ⟨hasks, hfull, hordinal⟩
    · rw [hordinal, hasks]
      exact hcounted
    · change _ = t.ordinal at hordinal
      change t.ordinal = u64Max at hfull
      omega
    · change _ = t.ordinal + 1 at hordinal
      change t.ordinal ≠ u64Max at hfull
      have hone := asked_one hasks
      omega
  · intro hp
    change (requests s'.wire).length =
      (({ t with session := s' } : HidTransport K).take event).ordinal
    rw [hrequests, List.length_append]
    rcases htokens with ⟨-, -, hnone⟩ | ⟨-, -, -, hnone⟩ | ⟨hasks, hfull, hordinal⟩
    · exact absurd hnone hp
    · exact absurd hnone hp
    · change _ = t.ordinal + 1 at hordinal
      change t.ordinal ≠ u64Max at hfull
      have hone := asked_one hasks
      omega
  · intro i kr hi
    change (replies s'.wire)[i]? = some kr at hi
    change Answered id log' (verdicts id start (kernelEvents s'.wire)) i kr
    rw [hreplies] at hi
    rw [hverdicts]
    exact (h.answers i kr hi).mono hlog (List.subset_append_left _ _)
  · change UhidSession.inputs s'.wire = submittedInputs log'
    rw [hinputs, ← h.inputs, hwire]
    simp [UhidSession.inputs]

theorem shows_nothing {r : Except Error (Option HostEvent)}
    (h : r = .ok none ∨ r = .error .transport) : hostEvents [.event r] = [] := by
  rcases h with rfl | rfl
  · rfl
  · rfl

variable [Node K]

theorem told_event {r : Except Error (Option HostEvent)} (h : Told id start log t)
    (hevents : Events t r t') : Told id start (log ++ [.event r]) t' := by
  have hagrees := events_agrees h.agrees hevents
  cases hevents with
  | quiet hr halike =>
    have hsame := halike.wire.trans (List.append_nil t.session.wire).symm
    exact h.quiet hagrees rfl rfl (fun _ => rfl) hsame rfl rfl rfl (shows_nothing hr)
  | @unread outcome error _ s' hopen hslot hreceived hr halike =>
    refine h.quiet hagrees rfl rfl (fun _ => rfl) halike.wire ?_ rfl rfl (shows_nothing hr)
    simp [kernelEvents, hreceived, Except.toOption]
  | @took outcome event s' hopen hslot hreceived halike =>
    have htake : ∀ r, hostEvents [.event r] =
        (UhidDialogue.delivered (interpret t.id t.reading event).1).toList →
        Told id start (log ++ [.event r]) ({ t with session := s' }.take event) := by
      intro r hr
      refine h.take hopen hslot hreceived halike ?_ ?_ (List.subset_append_left _ _)
      · rw [hostEvents_append, hr]
      · rw [submittedInputs_append]
        exact List.append_nil _
    have hverdicts := h.verdicts_take hreceived halike
    cases hverdict : (interpret t.id t.reading event).1 with
    | deliver e =>
      rw [hverdict] at htake
      exact htake (.ok (some e)) rfl
    | fail error =>
      rw [hverdict] at htake
      exact htake (.error error) rfl
    | refuse token =>
      rw [hverdict] at htake hverdicts
      obtain ⟨d, u, -, heffect, hrefuse⟩ := refuse_effect token ({ t with session := s' }.take event)
      change Told id start (log ++ [.event (refuse token ({ t with session := s' }.take event)).1])
        (refuse token ({ t with session := s' }.take event)).2
      rw [hrefuse]
      have hnothing : hostEvents [.event (if d = .submitted then .ok none else .error .transport)] =
          [] := by
        split
        · rfl
        · rfl
      have htook := htake (if d = .submitted then .ok none else .error .transport) hnothing
      refine htook.reply heffect rfl rfl (List.Subset.refl _) fun _ => .inr ⟨?_, rfl⟩
      change _ ∈ verdicts id start (kernelEvents s'.wire)
      rw [hverdicts]
      exact List.mem_append_right _ (List.mem_singleton_self _)

omit [Node K] in
theorem told_submit {command : Command} {d : Delivery} (h : Told id start log t)
    (hsubmit : Submits t command d t') : Told id start (log ++ [.submit command d]) t' := by
  have hagrees := submits_agrees h.agrees hsubmit
  have hhost : hostEvents [.submit command d] = [] := rfl
  cases command with
  | reply token answer =>
    have hinputs : submittedInputs [.submit (.reply token answer) d] = [] := rfl
    refine h.reply hsubmit ?_ ?_ (List.subset_append_left _ _) fun hd => .inl ?_
    · rw [hostEvents_append, hhost, List.append_nil]
    · rw [submittedInputs_append, hinputs, List.append_nil]
    · rw [hd]
      exact List.mem_append_right _ (List.mem_singleton_self _)
  | input report =>
    cases hsubmit with
    | refused halike =>
      have hsame := halike.wire.trans (List.append_nil t.session.wire).symm
      exact h.quiet hagrees rfl rfl (fun _ => rfl) hsame rfl rfl rfl hhost
    | @input _ bytes outcome s' hkind hopen hread halike =>
      have hsilent : replies [.write bytes outcome] = [] := replies_silent outcome (by simp [hread])
      refine h.quiet hagrees rfl rfl (fun _ => rfl) halike.wire rfl hsilent ?_ hhost
      rw [inputs_input outcome hread]
      by_cases hwritten : written bytes outcome = .ok ()
      · rw [if_pos hwritten, delivery_submitted.mpr hwritten]
        rfl
      · rw [if_neg hwritten]
        cases hd : delivery (written bytes outcome) with
        | submitted => exact absurd (delivery_submitted.mp hd) hwritten
        | definitelyUnsent => rfl
        | uncertain => rfl

theorem told_close (h : Told id start log t) :
    Told id start (log ++ [.close (UhidTransport.close t).1]) (UhidTransport.close t).2 := by
  have hagrees := close_agrees h.agrees
  obtain ⟨r, hr⟩ : ∃ r, (UhidTransport.close t).1 = r := ⟨_, rfl⟩
  rw [hr]
  revert hagrees
  unfold UhidTransport.close
  by_cases hclosed : t.closed = true
  · rw [if_pos hclosed]
    intro hagrees
    have hsame := (List.append_nil t.session.wire).symm
    exact h.quiet hagrees rfl rfl (fun _ => rfl) hsame rfl rfl rfl rfl
  · rw [if_neg hclosed]
    obtain ⟨r', s', hclose, heffect⟩ := close_effect t.session
    rw [hclose]
    intro hagrees
    cases heffect with
    | again hshut =>
      have hstate := h.agrees.state
      rw [if_neg hclosed, hshut] at hstate
      cases hstate
    | @wrote bytes outcome _ _ hread halike =>
      exact h.quiet hagrees rfl rfl (by simp) halike.wire rfl
        (replies_silent outcome (by simp [hread])) (inputs_silent outcome (by simp [hread])) rfl

theorem step_told {call : TransportCall} (h : Told id start log t)
    (st : TransportStep t call t') : Told id start (log ++ [call]) t' := by
  cases call with
  | event r =>
    obtain ⟨r', u, hevent, heffect⟩ := event_effect h.agrees
    obtain ⟨rfl, rfl⟩ := Prod.mk.inj (hevent.symm.trans st)
    exact told_event h heffect
  | submit command d =>
    obtain ⟨d', u, hsubmit, heffect⟩ := submit_effect t command
    obtain ⟨rfl, rfl⟩ := Prod.mk.inj (hsubmit.symm.trans st)
    exact told_submit h heffect
  | close r =>
    have hclose := told_close h
    change UhidTransport.close t = (r, t') at st
    rwa [st] at hclose

/-- The numbering that a device is opened with. -/
def opening (specification : NativeHidRealization) : Reading :=
  ⟨⟨specification.numberedInputReports, specification.numberedOutputReports,
    specification.numberedFeatureReports⟩, 0⟩

/-- Opening leaves one exchange on the wire, the creation of the device. -/
theorem open_effect {io : K} {specification : NativeHidRealization} {t₀ : HidTransport K}
    (h : openTransport io id specification = .ok t₀) :
    ∃ s event outcome, t₀ = .fromSession s id (opening specification).numbered ∧
      readWritten event = some (.create (Created.of specification)) ∧
      Alike { Session.new io id specification with wire := [.write event outcome] } s := by
  unfold openTransport Session.open at h
  cases hevent : (createEvent specification).returned (createEvent_reads_back specification).1 with
  | error error =>
    rw [hevent] at h
    cases h
  | ok event =>
    have hread := ((createEvent_reads_back specification).2.2 event
      ((Panicking.returned_eq_ok _).mp hevent)).2
    rw [hevent, emit_ok, writeEvent_eq] at h
    cases hwritten : written event (Node.write (Session.new io id specification).io event).1 with
    | error error =>
      rw [hwritten] at h
      cases h
    | ok _ =>
      rw [hwritten] at h
      exact ⟨_, event, _, (Except.ok.inj h).symm, hread, ⟨rfl, rfl, rfl, rfl, rfl, rfl⟩⟩

theorem open_told {io : K} {specification : NativeHidRealization} {t₀ : HidTransport K}
    (h : openTransport io id specification = .ok t₀) : Told id (opening specification) [] t₀ := by
  obtain ⟨s, event, outcome, rfl, hread, halike⟩ := open_effect h
  have hlined : Lined s := by
    refine (lined_new io id specification).snoc halike.wire ?_
    rw [line_open rfl, line_open halike.state, halike.pending]
    unfold Line.Step
    simp only [hread]
    exact ⟨by simp, trivial⟩
  have hevents : kernelEvents s.wire = [] := by rw [halike.wire]; rfl
  have hrequests : requests s.wire = [] := by rw [halike.wire]; rfl
  have hreplies : replies s.wire = [] := by
    rw [halike.wire]
    exact replies_silent outcome (by simp [hread])
  have hinputs : UhidSession.inputs s.wire = [] := by
    rw [halike.wire]
    exact inputs_silent outcome (by simp [hread])
  refine ⟨?_, rfl, ?_, ?_, ?_, ?_, ?_, hinputs⟩
  · refine ⟨halike.id, halike.state, halike.input, halike.output, by simp [HidTransport.fromSession],
      hlined, by simp [HidTransport.fromSession], fun _ => .inl halike.pending⟩
  · change _ = readingAfter id (opening specification) (kernelEvents s.wire)
    rw [hevents]
    rfl
  · change _ = (verdicts id (opening specification) (kernelEvents s.wire)).filterMap _
    rw [hevents]
    rfl
  · change 0 = min (requests s.wire).length u64Max
    simp [hrequests]
  · simp [HidTransport.fromSession]
  · intro i kr hi
    change (replies s.wire)[i]? = some kr at hi
    simp [hreplies] at hi

/-- The induction over a run of calls. -/
theorem run_told {io : K} {specification : NativeHidRealization} {t₀ : HidTransport K}
    (h : openTransport io id specification = .ok t₀) (hrun : Run TransportStep t₀ log t) :
    Told id (opening specification) log t := by
  induction hrun with
  | nil => exact open_told h
  | snoc _ st ih => exact step_told ih st

end Runs

section Taped

/-- A node for concrete runs: scripted reads, then nothing to read, and full writes. -/
structure Tape where
  reads : List ReadOutcome

instance : Node Tape where
  descriptor _ := 3
  read t := (t.reads.headD .wouldBlock, ⟨t.reads.tail⟩)
  write t event := (.wrote event.length, t)

def pad : NativeHidRealization :=
  ⟨3, "pad", "usb-1/input0", "", ⟨0x054c, 0x0ce6, 0x0100⟩, [5, 1], true, true, true⟩

theorem pad_fits : FitsRecord pad := ⟨by decide, by decide, by decide, by decide⟩

/-- GET number 7, of feature report 5. -/
def getFeature : ReadOutcome := .bytes (bytesLe 4 9 ++ (bytesLe 4 7 ++ [5, 0]))

/-- The transport behind the creation of the device. -/
def taped (created : List UInt8) (reads : List ReadOutcome) : HidTransport Tape where
  session := { Session.new ⟨reads⟩ 7 pad with wire := [.write created (.wrote created.length)] }
  id := 7
  ordinal := 0
  pending := none
  numbered := ⟨true, true, true⟩
  closed := false

theorem taped_open (reads : List ReadOutcome) :
    openTransport ⟨reads⟩ 7 pad = .ok (taped (createRecord pad).flatten reads) := by
  have hcreate : (createEvent pad).returned (createEvent_reads_back pad).1 =
      .ok (createRecord pad).flatten := (Panicking.returned_eq_ok _).mpr (createEvent_eq pad_fits)
  unfold openTransport Session.open
  rw [hcreate]
  generalize (createRecord pad).flatten = created
  rw [emit_ok, writeEvent_eq]
  simp only [written, Node.write, if_true]
  rfl

/-- The GET is read, and answered with the feature report. -/
def asked₁ (created : List UInt8) : HidTransport Tape := (event (taped created [getFeature])).2

def answer₁ : Command := .reply ⟨7, 1⟩ (.get (.ok Counting.feature))

def answered₁ (created : List UInt8) : HidTransport Tape := (submit (asked₁ created) answer₁).2

def calls₁ (created : List UInt8) : List TransportCall :=
  [.event (event (taped created [getFeature])).1, .submit answer₁ (submit (asked₁ created) answer₁).1]

theorem run₁ (created : List UInt8) :
    Run TransportStep (taped created [getFeature]) (calls₁ created) (answered₁ created) :=
  run_cons.mpr ⟨asked₁ created, rfl, run_singleton.mpr rfl⟩

theorem replies₁ : (replies (answered₁ (createRecord pad).flatten).session.wire)[0]? =
    some ⟨7, true, 0, [5, 42]⟩ := by
  decide +kernel

end Taped

section Results

variable {K : Type} [Node K] {io : K} {id : ℕ} {specification : NativeHidRealization}
  {log : List TransportCall} {t₀ t : HidTransport K}

/-- One request of the kernel at a time, known to both layers alike. -/
structure OneRequest (start : Reading) (t : HidTransport K) : Prop where
  slots : (requests t.session.wire).length < u64Max →
    t.pending.map Prod.snd = t.session.pendingRequest.map Prod.fst
  numbering : t.numbered = (readingAfter t.id start (kernelEvents t.session.wire)).numbered ∧
    t.session.numberedInputReports = t.numbered.input ∧
    t.session.numberedOutputReports = t.numbered.output
  dialogue : Run Line.Step (.open none) t.session.wire t.session.line
  answered : ∃ slot : PendingRequest, requests t.session.wire =
    (replies t.session.wire).map question ++ slot.toList

/-- In every run of calls, whatever the node reads and however its writes end, both layers hold
the same request, nothing is read while it waits, and the kernel takes in full at most one reply to
each of its requests, in their order and with their ids and kinds. -/
theorem one_request_at_a_time (h : openTransport io id specification = .ok t₀)
    (hrun : Run TransportStep t₀ log t) : OneRequest (opening specification) t := by
  have htold := run_told h hrun
  refine ⟨?_, ?_, htold.agrees.lined, (run_dialogue htold.agrees.lined).answered⟩
  · intro hfew
    have hcounted := htold.counted
    cases hpending : t.pending with
    | none =>
      rcases htold.agrees.free hpending with hslot | hfull
      · simp [hslot]
      · omega
    | some held =>
      obtain ⟨-, isGet, hslot⟩ := htold.agrees.held held.1 held.2 hpending
      simp [hslot]
  · rw [htold.session, ← htold.reading]
    exact ⟨rfl, htold.agrees.input, htold.agrees.output⟩

theorem one_request_at_a_time_taped :
    OneRequest (opening pad) (answered₁ (createRecord pad).flatten) :=
  one_request_at_a_time (taped_open [getFeature]) (run₁ _)

theorem new_kind {kind : ReportType} {number : Option UInt8} {payload : List UInt8}
    {report : Report} (h : Report.new kind number payload = .ok report) : report.kind = kind := by
  unfold Report.new at h
  split at h
  · cases h
    rfl
  · cases h

theorem fromWire_kind {kind : ReportType} {numbered : Bool} {bytes : List UInt8} {report : Report}
    (h : Report.fromWire kind numbered bytes = .ok report) : report.kind = kind := by
  unfold Report.fromWire at h
  split at h
  · cases bytes with
    | nil => cases h
    | cons number payload => exact new_kind h
  · exact new_kind h

theorem setVerdict_deliver {token : RequestId} {r : Reading} {reportId reportType : UInt8}
    {bytes : List UInt8} {event : HostEvent}
    (h : setVerdict token r reportId reportType bytes = .deliver event) :
    ∃ report, event = .request ⟨token, .set report⟩ ∧ report.kind = kindOf reportType ∧
      report.wire = bytes ∧ report.id.getD 0 = reportId := by
  unfold setVerdict at h
  cases hwire : Report.fromWire (kindOf reportType) (r.numbered.of (kindOf reportType)) bytes with
  | error error =>
    rw [hwire] at h
    cases h
  | ok report =>
    rw [hwire] at h
    by_cases hid : report.id.getD 0 = reportId
    · simp only [hid, if_true, Verdict.deliver.injEq] at h
      exact ⟨report, h.symm, fromWire_kind hwire, fromWire_wire hwire, hid⟩
    · simp [hid] at h

/-- The kernel's event that a host event stands for: the bytes of a report are the kernel's own,
numbered or not, and a SET carries the number that the kernel gave beside the bytes. -/
def StandsFor (event : Event) : HostEvent → Prop
  | .output report => report.kind = .output ∧ event = .output report.wire
  | .lifecycle change => event = .lifecycle change
  | .request ⟨_, .get kind number⟩ => ∃ kernelId reportId reportType,
    event = .get kernelId reportId reportType ∧ kind = kindOf reportType ∧
      (number = none ∨ number = some reportId)
  | .request ⟨_, .set report⟩ => ∃ kernelId reportType,
    event = .set kernelId (report.id.getD 0) reportType report.wire ∧ report.kind = kindOf reportType

theorem interpret_stands {r : Reading} {event : Event} {host : HostEvent}
    (h : (interpret id r event).1 = .deliver host) : StandsFor event host := by
  cases event with
  | output bytes =>
    change outputVerdict r bytes = _ at h
    unfold outputVerdict at h
    cases hwire : Report.fromWire .output r.numbered.output bytes with
    | error error =>
      rw [hwire] at h
      cases h
    | ok report =>
      rw [hwire] at h
      cases h
      exact ⟨fromWire_kind hwire, congrArg Event.output (fromWire_wire hwire).symm⟩
  | get kernelId reportId reportType =>
    by_cases hfull : r.ordinal = u64Max
    · simp [interpret, hfull] at h
    · simp only [interpret, hfull, if_false, getVerdict, Verdict.deliver.injEq] at h
      subst h
      refine ⟨kernelId, reportId, reportType, rfl, rfl, ?_⟩
      split
      · exact .inr rfl
      · exact .inl rfl
  | set kernelId reportId reportType bytes =>
    by_cases hfull : r.ordinal = u64Max
    · simp [interpret, hfull] at h
    · simp only [interpret, hfull, if_false] at h
      obtain ⟨report, rfl, hkind, rfl, rfl⟩ := setVerdict_deliver h
      exact ⟨kernelId, reportType, rfl, hkind⟩
  | lifecycle change =>
    cases h
    rfl

/-- The host events stand for kernel events in the order of both, one for one. -/
theorem verdicts_stand (id : ℕ) (r : Reading) (events : List Event) :
    ∃ told : List Event, told.Sublist events ∧
      List.Forall₂ StandsFor told ((verdicts id r events).filterMap delivered) := by
  induction events generalizing r with
  | nil => exact ⟨[], .slnil, .nil⟩
  | cons event events ih =>
    obtain ⟨told, hsub, hall⟩ := ih (interpret id r event).2
    rw [verdicts, List.filterMap_cons]
    cases hverdict : (interpret id r event).1 with
    | deliver host => exact ⟨event :: told, hsub.cons_cons event, .cons (interpret_stands hverdict) hall⟩
    | refuse token => exact ⟨told, hsub.cons event, hall⟩
    | fail error => exact ⟨told, hsub.cons event, hall⟩

/-- What passes between the kernel and the session above in a run. -/
structure Relays (id : ℕ) (start : Reading) (log : List TransportCall) (wire : List Exchange) :
    Prop where
  interpreted : hostEvents log = (verdicts id start (kernelEvents wire)).filterMap delivered
  faithful : ∃ told : List Event, told.Sublist (kernelEvents wire) ∧
    List.Forall₂ StandsFor told (hostEvents log)
  inputs : UhidSession.inputs wire = submittedInputs log

/-- In every run of calls, what is handed on is the meaning of the kernel's events under the
numbering of the last START, in their order and each once, and the kernel takes in full the input
reports whose submission succeeded, byte for byte. -/
theorem events_relayed (h : openTransport io id specification = .ok t₀)
    (hrun : Run TransportStep t₀ log t) :
    Relays id (opening specification) log t.session.wire := by
  have htold := run_told h hrun
  refine ⟨htold.delivered, ?_, htold.inputs⟩
  rw [htold.delivered]
  exact verdicts_stand id _ _

theorem events_relayed_taped : Relays 7 (opening pad) (calls₁ (createRecord pad).flatten)
    (answered₁ (createRecord pad).flatten).session.wire :=
  events_relayed (taped_open [getFeature]) (run₁ _)

/-- The requests among the events of the kernel. -/
def requestEvents (events : List Event) : List Event := events.filter fun event => (asks event).isSome

theorem requests_eq (wire : List Exchange) :
    (requestEvents (kernelEvents wire)).map asks = (requests wire).map some := by
  unfold requestEvents requests
  induction kernelEvents wire with
  | nil => rfl
  | cons event events ih =>
    cases hasks : asks event with
    | none => simpa [hasks] using ih
    | some request => simpa [hasks] using ih

/-- The token that a verdict is about. -/
def Verdict.token : Verdict → Option RequestId
  | .deliver (.request request) => some request.token
  | .refuse token => some token
  | _ => none

/-- Every request takes one token, until the last one is spent. -/
theorem interpret_token (id : ℕ) (r : Reading) (event : Event) :
    (asks event = none ∧ Verdict.token (interpret id r event).1 = none ∧
        (interpret id r event).2.ordinal = r.ordinal) ∨
      (r.ordinal = u64Max ∧ Verdict.token (interpret id r event).1 = none ∧
        (interpret id r event).2.ordinal = r.ordinal) ∨
      (r.ordinal ≠ u64Max ∧ asks event ≠ none ∧ Verdict.token (interpret id r event).1 = some ⟨id, r.ordinal + 1⟩ ∧
        (interpret id r event).2.ordinal = r.ordinal + 1) := by
  cases event with
  | output bytes =>
    refine .inl ⟨rfl, ?_, rfl⟩
    change Verdict.token (outputVerdict r bytes) = none
    unfold outputVerdict
    cases Report.fromWire .output r.numbered.output bytes with
    | error error => rfl
    | ok report => rfl
  | lifecycle change => exact .inl ⟨rfl, rfl, rfl⟩
  | get kernelId reportId reportType =>
    by_cases hfull : r.ordinal = u64Max
    · simp [interpret, hfull, Verdict.token]
    · refine .inr (.inr ⟨hfull, by simp [asks], ?_, ?_⟩)
      · simp [interpret, hfull, Verdict.token, getVerdict]
      · simp [interpret, hfull]
  | set kernelId reportId reportType bytes =>
    by_cases hfull : r.ordinal = u64Max
    · simp [interpret, hfull, Verdict.token]
    · refine .inr (.inr ⟨hfull, by simp [asks], ?_, by simp [interpret, hfull]⟩)
      simp only [interpret, hfull, if_false, setVerdict]
      cases Report.fromWire (kindOf reportType) (r.numbered.of (kindOf reportType)) bytes with
      | error error => rfl
      | ok report =>
        simp only
        split
        · rfl
        · rfl

theorem verdict_full {r : Reading} {events : List Event} {v : Verdict}
    (hv : v ∈ verdicts id r events) (hfull : r.ordinal = u64Max) : Verdict.token v = none := by
  induction events generalizing r with
  | nil => cases hv
  | cons event events ih =>
    rw [verdicts, List.mem_cons] at hv
    rcases interpret_token id r event with ⟨-, hnone, hordinal⟩ | ⟨-, hnone, hordinal⟩ | ⟨hspare, -⟩
    · rcases hv with rfl | hv
      · exact hnone
      · exact ih hv (hordinal.trans hfull)
    · rcases hv with rfl | hv
      · exact hnone
      · exact ih hv (hordinal.trans hfull)
    · exact absurd hfull hspare

/-- A token is the number of its request. -/
theorem verdict_token {r : Reading} {events : List Event} {v : Verdict} {token : RequestId}
    (hv : v ∈ verdicts id r events) (htoken : Verdict.token v = some token) :
    ∃ event r', (requestEvents events)[token.ordinal - r.ordinal - 1]? = some event ∧
      r.ordinal < token.ordinal ∧ (interpret id r' event).1 = v := by
  induction events generalizing r with
  | nil => cases hv
  | cons event events ih =>
    rw [verdicts, List.mem_cons] at hv
    rcases interpret_token id r event with
      ⟨hasks, hnone, hordinal⟩ | ⟨hfull, hnone, hordinal⟩ |
        ⟨-, hasks, hnext, hordinal⟩
    · rcases hv with rfl | hv
      · rw [hnone] at htoken
        cases htoken
      · obtain ⟨event', r', hevent, hlt, hverdict⟩ := ih hv
        rw [hordinal] at hevent hlt
        exact ⟨event', r', by simpa [requestEvents, hasks] using hevent, hlt, hverdict⟩
    · rcases hv with rfl | hv
      · rw [hnone] at htoken
        cases htoken
      · rw [verdict_full hv (hordinal.trans hfull)] at htoken
        cases htoken
    · have hcons : requestEvents (event :: events) = event :: requestEvents events := by
        simp [requestEvents, Option.isSome_iff_ne_none, hasks]
      rw [hcons]
      rcases hv with rfl | hv
      · rw [hnext] at htoken
        obtain rfl := Option.some.inj htoken
        exact ⟨event, r, by simp, by simp, rfl⟩
      · obtain ⟨event', r', hevent, hlt, hverdict⟩ := ih hv
        rw [hordinal] at hevent hlt
        refine ⟨event', r', ?_, by omega, hverdict⟩
        have hindex : token.ordinal - r.ordinal - 1 = token.ordinal - (r.ordinal + 1) - 1 + 1 := by
          omega
        rw [hindex, List.getElem?_cons_succ]
        exact hevent

/-- A SET is refused if its bytes are no report of its kind and numbering, or carry another number
than the one beside them. -/
def Malformed (r : Reading) : Event → Prop
  | .set _ reportId reportType bytes =>
    ∀ report, Report.fromWire (kindOf reportType) (r.numbered.of (kindOf reportType)) bytes =
      .ok report → report.id.getD 0 ≠ reportId
  | _ => False

theorem interpret_refuse {r : Reading} {event : Event} {token : RequestId}
    (h : (interpret id r event).1 = .refuse token) : Malformed r event := by
  cases event with
  | output bytes =>
    change outputVerdict r bytes = _ at h
    unfold outputVerdict at h
    cases hwire : Report.fromWire .output r.numbered.output bytes with
    | error error =>
      rw [hwire] at h
      cases h
    | ok report =>
      rw [hwire] at h
      cases h
  | lifecycle change => cases h
  | get kernelId reportId reportType =>
    by_cases hfull : r.ordinal = u64Max
    · simp [interpret, hfull] at h
    · simp [interpret, hfull, getVerdict] at h
  | set kernelId reportId reportType bytes =>
    by_cases hfull : r.ordinal = u64Max
    · simp [interpret, hfull] at h
    · simp only [interpret, hfull, if_false, setVerdict] at h
      intro report hwire hid
      simp [hwire, hid] at h

/-- The reply to the request `event` of the kernel: what was submitted for it above, or the refusal
of a malformed SET. -/
inductive Serves (log : List TransportCall) (event : Event) (kr : KernelReply) : Prop
  | submitted (token : RequestId) (answer : Reply) : kr = kernelReply kr.id answer →
    .submit (.reply token answer) .submitted ∈ log →
    (∀ request : Request, .request request ∈ hostEvents log → request.token = token →
      StandsFor event (.request request)) → Serves log event kr
  | refused (r : Reading) : Malformed r event → kr = ⟨kr.id, false, -22, []⟩ → Serves log event kr

omit [Node K] in
theorem hostEvents_token (h : Told id (opening specification) log t) {request : Request} {i : ℕ}
    (hrequest : .request request ∈ hostEvents log) (htoken : request.token = ⟨id, i + 1⟩)
    {event : Event} (hevent : (requestEvents (kernelEvents t.session.wire))[i]? = some event) :
    StandsFor event (.request request) := by
  rw [h.delivered, List.mem_filterMap] at hrequest
  obtain ⟨v, hv, hdelivered⟩ := hrequest
  cases v with
  | refuse token => cases hdelivered
  | fail error => cases hdelivered
  | deliver host =>
    obtain rfl := Option.some.inj hdelivered
    obtain ⟨event', r', hevent', -, hverdict⟩ := verdict_token hv rfl
    rw [htoken] at hevent'
    simp only [opening, Nat.sub_zero, Nat.add_sub_cancel] at hevent'
    obtain rfl := Option.some.inj (hevent.symm.trans hevent')
    exact interpret_stands hverdict

omit [Node K] in
theorem replies_served (h : Told id (opening specification) log t) {i : ℕ} {kr : KernelReply}
    (hkr : (replies t.session.wire)[i]? = some kr) :
    ∃ event, (requestEvents (kernelEvents t.session.wire))[i]? = some event ∧
      asks event = some (question kr) ∧ Serves log event kr := by
  obtain ⟨slot, hslot⟩ := (run_dialogue h.agrees.lined).answered
  have hquestion : (requests t.session.wire)[i]? = some (question kr) := by
    obtain ⟨hlt, -⟩ := List.getElem?_eq_some_iff.mp hkr
    rw [hslot, List.getElem?_append_left (by simpa using hlt), List.getElem?_map, hkr]
    rfl
  have hmap := congrArg (fun l => l[i]?) (requests_eq t.session.wire)
  simp only [List.getElem?_map, hquestion, Option.map_some] at hmap
  obtain ⟨event, hevent, hasks⟩ := Option.map_eq_some_iff.mp hmap
  refine ⟨event, hevent, hasks, ?_⟩
  obtain ⟨answer, hanswer, hsubmitted | ⟨hrefused, rfl⟩⟩ := h.answers i kr hkr
  · refine .submitted ⟨id, i + 1⟩ answer hanswer hsubmitted ?_
    intro request hrequest htoken
    exact hostEvents_token h hrequest htoken hevent
  · obtain ⟨event', r', hevent', -, hverdict⟩ := verdict_token hrefused rfl
    simp only [opening, Nat.sub_zero, Nat.add_sub_cancel] at hevent'
    obtain rfl := Option.some.inj (hevent.symm.trans hevent')
    exact .refused r' (interpret_refuse hverdict) hanswer

end Results

section Personalities

open HidRuntimeLedger HidRuntimeReplies

variable {P S O K : Type} [Protocol P S O] [Node K] {io : K} {session : ℕ}
  {specification : NativeHidRealization} {t₀ : HidTransport K} {first : P} {limits : Limits}

/-- The reply to the request `event` of the kernel, in a session with a personality: the
personality's own answer to the request that stands for it, or the refusal of a malformed SET. -/
inductive AnsweredBy (calls : List (Entry P S)) (event : Event) (kr : KernelReply) : Prop
  | personality (request : Request) (answer : Reply) (before after : List (Entry P S))
      (x y : Entry P S) : kr = kernelReply kr.id answer → StandsFor event (.request request) →
    calls = before ++ x :: y :: after → HidRuntimeReplies.Entry.reads x request →
    y.call = .request request.kind answer → Matches request.kind answer → AnsweredBy calls event kr
  | refused (r : Reading) : Malformed r event → kr = ⟨kr.id, false, -22, []⟩ →
    AnsweredBy calls event kr

theorem mem_transportCalls {calls : List (Entry P S)} {command : Command} {outcome : Delivery}
    (h : .submit command outcome ∈ transportCalls calls) :
    ∃ e ∈ calls, e.call = .submit command outcome := by
  obtain ⟨e, he, hcall⟩ := List.mem_filterMap.mp h
  refine ⟨e, he, ?_⟩
  unfold transportCall at hcall
  cases hc : e.call with
  | submit command' outcome' =>
    rw [hc] at hcall
    cases hcall
    rfl
  | _ => simp [hc] at hcall

theorem reads_hostEvents {calls : List (Entry P S)} {x : Entry P S} {request : Request}
    (hx : x ∈ calls) (hreads : HidRuntimeReplies.Entry.reads x request) :
    .request request ∈ hostEvents (transportCalls calls) := by
  refine List.mem_filterMap.mpr ⟨.event (.ok (some (.request request))), ?_, rfl⟩
  refine List.mem_filterMap.mpr ⟨x, hx, ?_⟩
  unfold HidRuntimeReplies.Entry.reads at hreads
  unfold transportCall
  rw [hreads]

/-- From the kernel to the personality and back: in every reachable session over the HID node, the
n-th reply that the kernel takes in full goes to its n-th request, and is what the personality
answered to that very request, unless the request was a SET framed wrongly, which no personality
sees. -/
theorem kernel_replies_answered (h : openTransport io session specification = .ok t₀)
    {rt : Runtime P (HidTransport K) S O} (hreach : Reachable first t₀ session limits rt) (i : ℕ)
    (kr : KernelReply) (hkr : (replies rt.transport.session.wire)[i]? = some kr) :
    ∃ event, (requestEvents (kernelEvents rt.transport.session.wire))[i]? = some event ∧
      asks event = some (question kr) ∧ AnsweredBy rt.calls event kr := by
  obtain ⟨event, hevent, hasks, hserves⟩ :=
    replies_served (run_told h (reachable_transport hreach)) hkr
  refine ⟨event, hevent, hasks, ?_⟩
  cases hserves with
  | refused r hmalformed hreply => exact .refused r hmalformed hreply
  | submitted token answer hanswer hmember hstands =>
    obtain ⟨e, he, hcall⟩ := mem_transportCalls hmember
    obtain ⟨before, after, hcalls⟩ := List.append_of_mem he
    obtain ⟨queue, -, hrun⟩ := (reachable_resting hreach).run
    obtain ⟨request, deadline, htoken, ⟨older, x, y, rest, rfl, hx, hy, hvalid, -⟩, -⟩ :=
      run_answers (hcalls ▸ hrun) hcall
    have hread : .request request ∈ hostEvents (transportCalls rt.calls) :=
      reads_hostEvents (by rw [hcalls]; simp) hx
    refine .personality request answer older (rest ++ e :: after) x y hanswer
      (hstands request hread htoken) ?_ hx hy (validateReply_ok.mp hvalid)
    rw [hcalls]
    simp

/-- A session on the tape. -/
def tapedRuntime (created : List UInt8) : Runtime Counting (HidTransport Tape) UInt8 UInt8 where
  protocol := ⟨1, 0⟩
  transport := taped created [getFeature]
  state := 0
  dirty := true
  pending := []
  observations := []
  droppedObservations := 0
  reply := none
  session := 7
  lastRequest := none
  now := 0
  closed := false
  closeError := none
  limits := ⟨32, 16, 100000⟩
  calls := []

theorem tapedRuntime_replies :
    (replies (perform (.service 0)
      (tapedRuntime (createRecord pad).flatten)).transport.session.wire)[0]? =
      some ⟨7, true, 0, [5, 42]⟩ := by
  decide +kernel

theorem tapedRuntime_reachable (created : List UInt8) :
    Reachable (⟨1, 0⟩ : Counting) (taped created [getFeature]) 7 ⟨32, 16, 100000⟩
      (tapedRuntime created) := .new rfl

/-- The personality answers the GET of the kernel, and its first input report follows. -/
theorem kernel_replies_answered_taped : ∃ event,
    (requestEvents (kernelEvents (perform (.service 0)
      (tapedRuntime (createRecord pad).flatten)).transport.session.wire))[0]? = some event ∧
      asks event = some (7, true) ∧
      AnsweredBy (perform (.service 0) (tapedRuntime (createRecord pad).flatten)).calls event
        ⟨7, true, 0, [5, 42]⟩ :=
  kernel_replies_answered (taped_open [getFeature])
    ((tapedRuntime_reachable _).step (.service 0)) 0 ⟨7, true, 0, [5, 42]⟩ tapedRuntime_replies

end Personalities

end UhidDialogue
