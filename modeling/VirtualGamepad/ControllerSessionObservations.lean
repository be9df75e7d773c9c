import VirtualGamepad.ControllerSession

/-! No observation gets lost between a personality and the application without being counted,
whatever fails on the way. -/
namespace ControllerSessionObservations

open ControllerContract ControllerSession Eviction Fallible MachineInt
open ForceFeedback (Endpoint NativeSession)
open HidRuntime (Runtime Protocol Transport)
open HidRuntimeObservations

section Outboxes

/-- The ring of the session, with all that was pushed and all that was delivered. -/
structure Sound (outbox : Outbox) : Prop where
  ring : Ring observationSlots outbox.pushed outbox.delivered outbox.observations outbox.dropped

variable {outbox : Outbox}

theorem sound_new : Sound .new := ⟨ring_empty observationSlots⟩

theorem Sound.push (h : Sound outbox) (event : RawReverseEvent) : Sound (outbox.push event) := by
  unfold Outbox.push
  by_cases hfull : outbox.observations.length = observationSlots
  · rw [if_pos hfull]
    exact ⟨h.ring.evict event hfull (by decide)⟩
  · rw [if_neg hfull]
    exact ⟨h.ring.push event hfull⟩

theorem Sound.deliver (h : Sound outbox) : Sound outbox.deliver := ⟨h.ring.take⟩

theorem pushed_push (event : RawReverseEvent) (outbox : Outbox) :
    (outbox.push event).pushed = outbox.pushed ++ [event] := by
  unfold Outbox.push
  by_cases hfull : outbox.observations.length = observationSlots
  · rw [if_pos hfull]
  · rw [if_neg hfull]

/-- What goes straight through never waits behind anything. -/
theorem Sound.pass (h : Sound outbox) (hempty : outbox.observations = []) (event : RawReverseEvent) :
    Sound (outbox.pass event) ∧ (outbox.pass event).observations = [] := by
  have hring := h.ring
  rw [hempty] at hring
  have htaken := (hring.push event (by decide)).take
  refine ⟨⟨?_⟩, hempty⟩
  change Ring observationSlots (outbox.pushed ++ [event]) (outbox.delivered ++ [event])
    outbox.observations outbox.dropped
  rwa [hempty]

theorem foldl_push (events : List RawReverseEvent) (h : Sound outbox) :
    Sound (events.foldl (flip Outbox.push) outbox) ∧
      (events.foldl (flip Outbox.push) outbox).pushed = outbox.pushed ++ events := by
  induction events generalizing outbox with
  | nil => exact ⟨h, (List.append_nil _).symm⟩
  | cons event events ih =>
    obtain ⟨hsound, hpushed⟩ := ih (h.push event)
    refine ⟨hsound, hpushed.trans ?_⟩
    rw [pushed_push, List.append_assoc]
    rfl

theorem foldl_pass (events : List RawReverseEvent) (h : Sound outbox)
    (hempty : outbox.observations = []) :
    Sound (events.foldl (flip Outbox.pass) outbox) ∧
      (events.foldl (flip Outbox.pass) outbox).observations = [] := by
  induction events generalizing outbox with
  | nil => exact ⟨h, hempty⟩
  | cons event events ih =>
    obtain ⟨hsound, hnone⟩ := h.pass hempty event
    exact ih hsound hnone

end Outboxes

section Endpoints

open ForceFeedback

variable {K R : Type} [NativeSession K] {emit : RawReverseEvent → R → R} {I : R → Prop}
  {s : Endpoint K R}

omit [NativeSession K] in
theorem play_observer (hemit : ∀ event r, I r → I (emit event r)) (event : EvdevEvent)
    (h : I s.observer) : I (play emit event s).2.observer := by
  apply meets_state (I := fun t : Endpoint K R => I t.observer).mp
  unfold play
  rw [meets_get_bind]
  cases played s.feedback.effects event with
  | none => exact h
  | some p =>
    obtain ⟨effect, repetitions⟩ := p
    dsimp only
    by_cases hsame : s.feedback.playback.latest ≠ some (level effect repetitions)
    · rw [if_pos hsame]
      cases checkedAdd s.feedback.playback.revision 1 with
      | none => exact h
      | some revision => exact hemit _ _ h
    · rw [if_neg hsame]
      exact hemit _ _ h

omit [NativeSession K] in
theorem playAll_observer (hemit : ∀ event r, I r → I (emit event r)) (events : List EvdevEvent)
    (h : I s.observer) : I (playAll emit events s).2.observer := by
  induction events generalizing s with
  | nil => exact h
  | cons event events ih =>
    apply meets_state (I := fun t : Endpoint K R => I t.observer).mp
    refine meets_bind (meets_state.mpr (play_observer hemit event h)) ?_
    intro _ t ht
    exact meets_state.mpr (ih ht)

omit [NativeSession K] in
theorem handle_observer (hemit : ∀ event r, I r → I (emit event r)) (event : RawReverseEvent)
    (h : I s.observer) : I (handle emit event s).2.observer := by
  apply meets_state (I := fun t : Endpoint K R => I t.observer).mp
  unfold handle
  rw [meets_get_bind]
  cases completion s.feedback.effects event with
  | some pending => exact h
  | none =>
    cases event with
    | evdev events =>
      refine meets_bind (meets_state.mpr (playAll_observer hemit events h)) ?_
      intro _ t ht
      exact hemit _ _ ht
    | _ => exact hemit _ _ h

theorem flush_observer (hemit : ∀ event r, I r → I (emit event r)) (h : I s.observer) :
    I (flush emit s).2.observer := by
  unfold flush
  cases s.feedback.pending with
  | none => exact h
  | some p =>
    obtain ⟨reply, observation⟩ := p
    rcases hr : replySink reply s with ⟨error | _, t⟩
    · have ht : I t.observer := by
        have heq : t = (replySink reply s).2 := by rw [hr]
        rw [heq]
        exact h
      dsimp only
      rw [hr]
      cases error with
      | wouldBlock =>
        dsimp only
        by_cases hbudget : t.feedback.retries < retryBudget
        · rw [if_pos hbudget]
          exact ht
        · rw [if_neg hbudget]
          exact ht
      | _ => exact ht
    · have ht : I t.observer := by
        have heq : t = (replySink reply s).2 := by rw [hr]
        rw [heq]
        exact h
      dsimp only
      rw [hr]
      exact hemit _ _ ht

theorem handleAll_observer (hemit : ∀ event r, I r → I (emit event r))
    (events : List RawReverseEvent) (h : I s.observer) :
    I (handleAll emit events s).2.observer := by
  induction events generalizing s with
  | nil => exact h
  | cons event events ih =>
    apply meets_state (I := fun t : Endpoint K R => I t.observer).mp
    unfold handleAll setFeedback
    rw [meets_modify_bind]
    refine meets_bind (meets_state.mpr (handle_observer hemit event h)) ?_
    intro _ t ht
    refine meets_bind (meets_state.mpr (flush_observer hemit ht)) ?_
    intro flushed u hu
    cases flushed with
    | true => exact meets_state.mpr (ih hu)
    | false => exact hu

theorem refill_observer (h : I s.observer) : I (refill s).2.observer := by
  apply meets_state (I := fun t : Endpoint K R => I t.observer).mp
  unfold refill
  rw [meets_get_bind]
  by_cases hempty : s.feedback.events = []
  · rw [if_pos hempty]
    have hdrain : I (drainSink s).2.observer := by
      unfold drainSink
      by_cases hclosed : s.closed = true
      · rw [if_pos hclosed]
        exact h
      · rw [if_neg hclosed]
        exact h
    refine meets_bind (meets_state.mpr hdrain) ?_
    intro events t ht
    unfold setFeedback
    rw [meets_modify_bind]
    by_cases hfits : eventSlots < events.length
    · rw [if_pos hfits]
      exact ht
    · rw [if_neg hfits]
      exact ht
  · rw [if_neg hempty]
    exact h

theorem closeSink_observer (s : Endpoint K R) :
    (closeSink s).2.observer = s.observer := by
  change (if s.closed = true then s else _ : Endpoint K R).observer = _
  by_cases hclosed : s.closed = true
  · rw [if_pos hclosed]
  · rw [if_neg hclosed]

/-- The endpoint touches its observer only to emit into it. -/
theorem service_observer (hemit : ∀ event r, I r → I (emit event r)) (h : I s.observer) :
    I (service emit s).2.observer := by
  have hinner : I (serviceInner emit s).2.observer := by
    apply meets_state (I := fun t : Endpoint K R => I t.observer).mp
    unfold serviceInner
    refine meets_bind (meets_state.mpr (flush_observer hemit h)) ?_
    intro flushed t ht
    cases flushed with
    | true =>
      refine meets_bind (meets_state.mpr (refill_observer ht)) ?_
      intro _ u hu
      exact meets_state.mpr (handleAll_observer hemit _ hu)
    | false => exact ht
  unfold service
  rcases hs : serviceInner emit s with ⟨error | _, t⟩
  · rw [hs] at hinner
    change I (closeSink { t with feedback := t.feedback.clear }).2.observer
    rw [closeSink_observer]
    exact hinner
  · rw [hs] at hinner
    exact hinner

end Endpoints

section Conservation

variable {P T S K B : Type} [Protocol P S RawReverseEvent] [Transport T] [NativeSession K]
  [WorkerBridge B] {runtime : Runtime P T S RawReverseEvent} {outbox : Outbox}
  {entries : List (RawReverseEvent × Bool)}

/-- What the personality, the effect bookkeeping, the provider or the worker has produced. -/
def produced : Backend P T S K B → List RawReverseEvent
  | .native _ endpoint => endpoint.observer.pushed
  | .hid _ _ entries => entries.map Prod.fst
  | .worker _ _ outbox => outbox.pushed

/-- Observations that came with a reply of the wrong form. -/
def refusedBy : Backend P T S K B → List RawReverseEvent
  | .hid _ _ entries => refused entries
  | _ => []

/-- What waits in the ring of the HID runtime. -/
def retained : Backend P T S K B → List RawReverseEvent
  | .hid runtime _ _ => runtime.observations
  | _ => []

def isClosed : Backend P T S K B → Bool
  | .native _ endpoint => endpoint.closed
  | .hid runtime _ _ => runtime.closed
  | .worker _ closed _ => closed

/-- What a worker says it has lost before anything reached the session. -/
def lostOutside : Backend P T S K B → ℕ
  | .worker bridge _ _ => WorkerBridge.droppedOutputEvents bridge
  | _ => 0

/-- Every observation produced was delivered, is retained, or was dropped and counted. One that
came with an invalid reply is not kept, and ends its session. -/
structure Conserved (s : Backend P T S K B) : Prop where
  in_order : (s.outbox.delivered ++ (s.outbox.observations ++ retained s)).Sublist (produced s)
  counted : ∃ lost, (produced s).length = s.outbox.delivered.length +
      s.outbox.observations.length + (retained s).length + lost + (refusedBy s).length ∧
    droppedObservations s = saturated (lost + lostOutside s)
  refused_few : (refusedBy s).length ≤ 1
  refused_closed : refusedBy s ≠ [] → isClosed s = true

/-- The two rings of a HID session in a row. -/
structure HidKept (runtime : Runtime P T S RawReverseEvent) (outbox : Outbox)
    (entries : List (RawReverseEvent × Bool)) : Prop where
  first : Counted runtime (kept entries) outbox.pushed
  second : Sound outbox
  few : (refused entries).length ≤ 1
  closed : refused entries ≠ [] → runtime.closed = true

def Kept : Backend P T S K B → Prop
  | .native uinput endpoint =>
    Sound endpoint.observer ∧ (uinput = false → endpoint.observer.observations = [])
  | .hid runtime outbox entries => HidKept runtime outbox entries
  | .worker _ _ outbox => Sound outbox ∧ outbox.observations = []

theorem kept_append (first second : List (RawReverseEvent × Bool)) :
    HidRuntimeObservations.kept (first ++ second) =
      HidRuntimeObservations.kept first ++ HidRuntimeObservations.kept second := by
  unfold HidRuntimeObservations.kept
  rw [List.filter_append, List.map_append]

theorem refused_append (first second : List (RawReverseEvent × Bool)) :
    refused (first ++ second) = refused first ++ refused second := by
  unfold refused
  rw [List.filter_append, List.map_append]

omit [Transport T] [Protocol P S RawReverseEvent] in
theorem HidKept.silent {runtime' : Runtime P T S RawReverseEvent} (h : HidKept runtime outbox entries)
    (k : Silent runtime runtime') (hclosed : runtime.closed = true → runtime'.closed = true) :
    HidKept runtime' outbox entries :=
  ⟨h.first.silent k, h.second, h.few, fun hne => hclosed (h.closed hne)⟩

/-- A closed runtime makes nothing, so that at most one observation is ever refused. -/
theorem HidKept.refused_made (h : HidKept runtime outbox entries) (now : ℕ)
    (hfew : (refused (made now runtime)).length ≤ 1) :
    (refused (entries ++ made now runtime)).length ≤ 1 ∧
      (refused (entries ++ made now runtime) ≠ [] →
        runtime.closed = true ∨ refused (made now runtime) ≠ []) := by
  rw [refused_append]
  by_cases hne : refused entries = []
  · rw [hne, List.nil_append]
    exact ⟨hfew, .inr⟩
  · have hclosed := h.closed hne
    have hmade : made now runtime = [] := if_pos (.inl hclosed)
    rw [hmade]
    exact ⟨(List.append_nil (refused entries)).symm ▸ h.few, fun _ => .inl hclosed⟩

theorem service_closed (now : ℕ) (h : runtime.closed = true) :
    HidRuntime.service now runtime = (.error .closed, runtime) := if_pos h

theorem serviceHid_kept (h : HidKept runtime outbox entries) (now : ℕ) :
    HidKept (serviceHid now runtime outbox).2.1 (serviceHid now runtime outbox).2.2
      (entries ++ made now runtime) := by
  have hspec := service_entered h.first now
  have hstays : runtime.closed = true → (HidRuntime.service now runtime).2.closed = true := by
    intro hclosed
    rw [service_closed now hclosed]
    exact hclosed
  unfold serviceHid
  rcases hs : HidRuntime.service now runtime with ⟨error | events, runtime'⟩
  · rw [hs] at hspec hstays
    obtain ⟨hentered, hrefused⟩ := hspec
    obtain ⟨hsecond, hpushed⟩ := foldl_push runtime'.observations h.second
    obtain ⟨hfew, hwhich⟩ := h.refused_made now hentered.few
    refine ⟨?_, hsecond, hfew, fun hne => (hwhich hne).elim hstays hrefused⟩
    dsimp only
    rw [hpushed, kept_append]
    exact ⟨hentered.counted.ring.take, hentered.counted.slots_pos⟩
  · rw [hs] at hspec hstays
    obtain ⟨hentered, _, hnone⟩ := hspec
    obtain ⟨hsecond, hpushed⟩ := foldl_push events h.second
    obtain ⟨hfew, hwhich⟩ := h.refused_made now hentered.few
    refine ⟨?_, hsecond, hfew, fun hne => (hwhich hne).elim hstays (absurd hnone)⟩
    dsimp only
    rw [hpushed, kept_append]
    exact hentered.counted

omit [Protocol P S RawReverseEvent] [Transport T] [NativeSession K] in
theorem drainWorker_kept (n : ℕ) (bridge : B) (h : Sound outbox) (hempty : outbox.observations = []) :
    Kept (drainWorker n bridge outbox : Except ProviderError Unit × Backend P T S K B).2 := by
  induction n generalizing bridge outbox with
  | zero => exact ⟨h, hempty⟩
  | succ n ih =>
    unfold drainWorker
    rcases WorkerBridge.output bridge with ⟨error | event, bridge'⟩
    · exact ⟨h, hempty⟩
    · cases event with
      | none => exact ⟨h, hempty⟩
      | some event =>
        obtain ⟨hsound, hnone⟩ := h.pass hempty event
        exact ih bridge' hsound hnone

theorem drain_kept {s : Backend P T S K B} (h : Kept s) (now : ℕ) : Kept (drain now s).2 := by
  cases s with
  | native uinput endpoint =>
    obtain ⟨hsound, hempty⟩ := h
    cases uinput with
    | true =>
      have hobserved : Sound (ForceFeedback.service Outbox.push endpoint).2.observer :=
        service_observer (fun event _ hr => hr.push event) hsound
      exact ⟨hobserved.deliver, fun hfalse => nomatch hfalse⟩
    | false =>
      unfold ControllerSession.drain drainDirect
      dsimp only
      by_cases hclosed : endpoint.closed = true
      · rw [if_pos hclosed]
        exact ⟨hsound, hempty⟩
      · rw [if_neg hclosed]
        obtain ⟨hpassed, hnone⟩ :=
          foldl_pass (NativeSession.drain endpoint.session).1.1 hsound (hempty rfl)
        exact ⟨hpassed, fun _ => hnone⟩
  | hid runtime outbox entries =>
    have hkept := serviceHid_kept (h : HidKept runtime outbox entries) now
    exact ⟨hkept.first, hkept.second.deliver, hkept.few, hkept.closed⟩
  | worker bridge closed outbox =>
    unfold ControllerSession.drain
    cases closed with
    | true => exact h
    | false => exact drainWorker_kept 32 bridge h.1 h.2

omit [Transport T] in
theorem update_kept (h : HidKept runtime outbox entries) (edit : Action HidRuntime.Error S Unit) :
    HidKept (HidRuntime.update (P := P) edit runtime).2 outbox entries := by
  unfold HidRuntime.update
  rw [get_bind_run]
  by_cases hclosed : runtime.closed = true
  · rw [if_pos hclosed]
    exact h
  · rw [if_neg hclosed]
    rcases edit runtime.state with ⟨error | _, candidate⟩
    · exact h
    · dsimp only
      cases Protocol.validate runtime.protocol candidate with
      | error error => exact h
      | ok _ => exact h.silent ⟨rfl, rfl, rfl⟩ id

omit [Transport T] in
theorem updateProtocol_kept (h : HidKept runtime outbox entries)
    (edit : Action HidRuntime.Error P Unit) :
    HidKept (HidRuntime.updateProtocol edit runtime).2 outbox entries := by
  unfold HidRuntime.updateProtocol
  rw [get_bind_run]
  by_cases hclosed : runtime.closed = true
  · rw [if_pos hclosed]
    exact h
  · rw [if_neg hclosed]
    rcases edit runtime.protocol with ⟨error | _, candidate⟩
    · exact h
    · dsimp only
      cases Protocol.validate candidate runtime.state with
      | error error => exact h
      | ok _ => exact h.silent ⟨rfl, rfl, rfl⟩ id

theorem new_kept {protocol : P} {transport : T} {session : ℕ}
    (h : HidRuntime.Runtime.new protocol transport session .default = .ok runtime) :
    HidKept runtime .new [] := by
  have hfresh : runtime.observations = [] ∧ runtime.droppedObservations = 0 ∧
      runtime.limits = .default := by
    unfold HidRuntime.Runtime.new at h
    dsimp only at h
    rw [if_neg (by decide)] at h
    cases hv : Protocol.validate protocol (Protocol.neutral protocol) with
    | error error =>
      rw [hv] at h
      cases h
    | ok _ =>
      rw [hv] at h
      cases h
      exact ⟨rfl, rfl, rfl⟩
  obtain ⟨hobservations, hdropped, hlimits⟩ := hfresh
  refine ⟨⟨?_, ?_⟩, sound_new, Nat.zero_le 1, fun hne => absurd rfl hne⟩
  · rw [hobservations, hdropped]
    exact ring_empty _
  · rw [hlimits]
    decide

theorem reachable_kept {s : Backend P T S K B} (h : Reachable s) : Kept s := by
  induction h with
  | native uinput session => exact ⟨sound_new, fun _ => rfl⟩
  | hid hnew => exact new_kept hnew
  | worker bridge => exact ⟨sound_new, rfl⟩
  | drain _ now ih => exact drain_kept ih now
  | @commit runtime outbox entries _ now ih =>
    have hsame : (commitHid now runtime outbox).2 = (serviceHid now runtime outbox).2 := by
      unfold commitHid
      rcases serviceHid now runtime outbox with ⟨error | _, runtime', outbox'⟩
      · rfl
      · dsimp only
        by_cases hdirty : runtime'.isDirty = true
        · rw [if_pos hdirty]
        · rw [if_neg hdirty]
    rw [hsame]
    exact serviceHid_kept ih now
  | update _ edit ih => exact update_kept ih edit
  | updateProtocol _ edit ih => exact updateProtocol_kept ih edit
  | nativeInput _ session ih => exact ih
  | workerInput _ bridge' closed' ih => exact ih
  | @close s _ ih =>
    cases s with
    | native uinput endpoint =>
      have hsame : (ForceFeedback.close endpoint).2.observer = endpoint.observer :=
        closeSink_observer { endpoint with feedback := endpoint.feedback.clear }
      obtain ⟨hsound, hempty⟩ := ih
      change Sound (ForceFeedback.close endpoint).2.observer ∧
        (uinput = false → (ForceFeedback.close endpoint).2.observer.observations = [])
      rw [hsame]
      exact ⟨hsound, hempty⟩
    | hid runtime outbox entries =>
      exact HidKept.silent ih (close_silent runtime) fun _ => HidRuntimeLifetime.close_closed runtime
    | worker bridge closed outbox => exact ih

/-- One ring alone. -/
theorem Sound.conserved (h : Sound outbox) {dropped : ℕ} (outside : ℕ)
    (hdropped : dropped = saturatingAdd outbox.dropped outside) :
    (outbox.delivered ++ (outbox.observations ++ [])).Sublist outbox.pushed ∧
      ∃ lost, outbox.pushed.length = outbox.delivered.length + outbox.observations.length +
          0 + lost + 0 ∧ dropped = saturated (lost + outside) := by
  obtain ⟨lost, haccounted, hlost⟩ := h.ring.accounted
  refine ⟨?_, lost, ?_, ?_⟩
  · rw [List.append_nil]
    exact haccounted.in_order
  · have hcount := haccounted.count
    omega
  · rw [hdropped, hlost]
    unfold saturatingAdd saturated
    omega

omit [Protocol P S RawReverseEvent] [Transport T] [NativeSession K] in
theorem Kept.conserved {s : Backend P T S K B} (h : Kept s) : Conserved s := by
  cases s with
  | native uinput endpoint =>
    obtain ⟨hinorder, hcounted⟩ := Sound.conserved h.1 0 rfl
    exact ⟨hinorder, hcounted, Nat.zero_le 1, fun hne => absurd rfl hne⟩
  | worker bridge closed outbox =>
    obtain ⟨hinorder, hcounted⟩ := Sound.conserved h.1 (WorkerBridge.droppedOutputEvents bridge) rfl
    exact ⟨hinorder, hcounted, Nat.zero_le 1, fun hne => absurd rfl hne⟩
  | hid runtime outbox entries =>
    obtain ⟨hfirst, hsecond, hfew, hclosed⟩ := (h : HidKept runtime outbox entries)
    obtain ⟨first, hfirst, hfirstCount⟩ := hfirst.ring.accounted
    obtain ⟨second, hsecond, hsecondCount⟩ := hsecond.ring.accounted
    have hchain := hfirst.chain hsecond
    refine ⟨?_, ⟨first + second, ?_, ?_⟩, hfew, hclosed⟩
    · exact hchain.in_order.trans (kept_sublist entries)
    · have hcount := hchain.count
      have hlength := length_kept_refused entries
      change (entries.map Prod.fst).length = outbox.delivered.length +
        outbox.observations.length + runtime.observations.length + (first + second) +
        (refused entries).length
      rw [List.length_append] at hcount
      rw [List.length_map]
      omega
    · change saturatingAdd outbox.dropped runtime.droppedObservations = saturated (first + second + 0)
      rw [hfirstCount, hsecondCount, saturated_add, Nat.add_zero, Nat.add_comm]

/-- A personality that reports what it is sent. It mistakes a query for a setting. -/
structure Reporting where

instance : Protocol Reporting Unit RawReverseEvent where
  neutral _ := ()
  validate _ _ := .ok ()
  input _ _ := pure []
  deadline _ := none
  request p _ _ := ((.set (.ok ()), some (.hidOutput none [])), p)
  output report _ := pure (some (observe report))
  lifecycle p _ _ := (none, p)
  delivered p _ _ := p

/-- No provider and no worker. -/
structure Absent where

instance : NativeSession Absent where
  drain k := (([], .error .wouldBlock), k)
  send _ := fail .wouldBlock
  close := pure ()

instance : WorkerBridge Absent where
  output := pure none
  droppedOutputEvents _ := 0
  close := pure ()

/-- A session of the personality whose host has sent `events`. -/
def reporting (events : List HidRuntime.HostEvent) :
    Backend Reporting HidRuntime.Scripted Unit Absent Absent :=
  .hid {
    protocol := ⟨⟩, transport := ⟨events, []⟩, state := (), dirty := true, pending := []
    observations := [], droppedObservations := 0, reply := none, session := 7
    lastRequest := none, now := 0, closed := false, closeError := none
    limits := .default, calls := [] } .new []

theorem reporting_reachable (events : List HidRuntime.HostEvent) : Reachable (reporting events) :=
  .hid (show HidRuntime.Runtime.new (⟨⟩ : Reporting) (⟨events, []⟩ : HidRuntime.Scripted) 7 .default =
    .ok _ from rfl)

def rumbling (strength : UInt8) : HidRuntime.Report :=
  ⟨.output, some 2, [strength], by decide, by simp⟩

def twoReports : List HidRuntime.HostEvent := [.output (rumbling 9), .output (rumbling 8)]

def oneQuery : List HidRuntime.HostEvent := [.request ⟨⟨7, 1⟩, .get .feature none⟩]

end Conservation

end ControllerSessionObservations
