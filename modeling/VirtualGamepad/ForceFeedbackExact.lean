import VirtualGamepad.ForceFeedback

/-! A service that is blocked in the middle of a request and comes back later does what a device
that never blocks would have seen, event for event. -/
namespace ForceFeedbackExact

open ControllerContract Fallible ForceFeedback MachineInt

section Uninterrupted

/-- What leaves the bookkeeping. -/
inductive Out where
  | answered (frame : ProviderFrame)
  | settled (observation : ForceFeedbackEvent)
  | played (effect : RumbleEffect) (repetitions : ℕ)
  | passed (event : RawReverseEvent)

def Out.call : Out → Call
  | .answered frame => .reply frame (.ok ())
  | .settled observation => .callback (.forceFeedback observation)
  | .played effect repetitions => .callback (.forceFeedback (.playback effect repetitions))
  | .passed event => .callback event

structure Books where
  playback : NativePlayback
  effects : Effects

def Books.fresh : Books := ⟨⟨0, none⟩, noEffects⟩

/-- A playback that changes what is visible needs a revision of its own. -/
def Books.play (b : Books) (event : EvdevEvent) : List Out × Option Books :=
  match played b.effects event with
  | none => ([], some b)
  | some (effect, repetitions) =>
    if b.playback.latest = some (level effect repetitions) then
      ([.played effect repetitions], some b)
    else if b.playback.revision + 1 ≤ u64Max then
      ([.played effect repetitions],
        some { b with playback := ⟨b.playback.revision + 1, some (level effect repetitions)⟩ })
    else ([], none)

/-- One event, with every reply going out at once. -/
def Books.take (b : Books) (event : RawReverseEvent) : List Out × Option Books :=
  match completion b.effects event with
  | some (frame, observation) =>
    ([.answered frame, .settled observation],
      some { b with effects := settle b.effects observation })
  | none =>
    match event with
    | .evdev events =>
      match Transducer.run Books.play b events with
      | (outs, none) => (outs, none)
      | (outs, some b') => (outs ++ [.passed (.evdev events)], some b')
    | event => ([.passed event], some b)

def uninterrupted (events : List RawReverseEvent) : List Out × Option Books :=
  Transducer.run Books.take Books.fresh events

/-- The visible playback value: a revision for each change. -/
def shown (playback : NativePlayback) : Out → NativePlayback
  | .played effect repetitions =>
    if playback.latest = some (level effect repetitions) then playback
    else ⟨playback.revision + 1, some (level effect repetitions)⟩
  | _ => playback

/-- The effects table: a change for each completion that went out. -/
def table (effects : Effects) : Out → Effects
  | .settled observation => settle effects observation
  | _ => effects

inductive Request where
  | upload (id : UInt32)
  | erase (id : UInt32)
  deriving DecidableEq

def requested : RawReverseEvent → Option Request
  | .forceFeedbackUpload id _ => some (.upload id)
  | .forceFeedbackErase id _ => some (.erase id)
  | _ => none

def completed : ProviderFrame → Option Request
  | .forceFeedbackUploadReply id _ => some (.upload id)
  | .forceFeedbackEraseReply id _ => some (.erase id)
  | _ => none

def Out.completed : Out → Option Request
  | .answered frame => ForceFeedbackExact.completed frame
  | _ => none

variable {b b' : Books} {outs : List Out}

theorem play_idle {event : EvdevEvent} (h : played b.effects event = none) :
    b.play event = ([], some b) := by
  unfold Books.play
  rw [h]

variable {event : EvdevEvent} {effect : RumbleEffect} {repetitions : ℕ}

theorem play_same (h : played b.effects event = some (effect, repetitions))
    (hsame : b.playback.latest = some (level effect repetitions)) :
    b.play event = ([.played effect repetitions], some b) := by
  unfold Books.play
  rw [h]
  exact if_pos hsame

theorem play_next (h : played b.effects event = some (effect, repetitions))
    (hsame : b.playback.latest ≠ some (level effect repetitions))
    (hroom : b.playback.revision + 1 ≤ u64Max) :
    b.play event = ([.played effect repetitions],
      some { b with playback := ⟨b.playback.revision + 1, some (level effect repetitions)⟩ }) := by
  unfold Books.play
  rw [h]
  exact (if_neg hsame).trans (if_pos hroom)

theorem play_spent (h : played b.effects event = some (effect, repetitions))
    (hsame : b.playback.latest ≠ some (level effect repetitions))
    (hroom : ¬b.playback.revision + 1 ≤ u64Max) : b.play event = ([], none) := by
  unfold Books.play
  rw [h]
  exact (if_neg hsame).trans (if_neg hroom)

theorem completion_requested {effects : Effects} {event : RawReverseEvent} {frame observation}
    (h : completion effects event = some (frame, observation)) :
    completed frame = requested event := by
  cases event with
  | forceFeedbackUpload id effect =>
    cases h
    rfl
  | forceFeedbackErase id effect =>
    cases h
    rfl
  | _ => cases h

theorem completion_none {effects : Effects} {event : RawReverseEvent}
    (h : completion effects event = none) : requested event = none := by
  cases event with
  | forceFeedbackUpload id effect => cases h
  | forceFeedbackErase id effect => cases h
  | _ => rfl

/-- A playback answers no request and touches no effect. -/
theorem play_keeps (b : Books) (event : EvdevEvent) :
    (b.play event).1.filterMap Out.completed = [] ∧
      ∀ b', (b.play event).2 = some b' →
        (b.play event).1.foldl table b.effects = b'.effects := by
  cases hp : played b.effects event with
  | none =>
    rw [play_idle hp]
    refine ⟨rfl, fun b' h => ?_⟩
    cases h
    rfl
  | some p =>
    obtain ⟨effect, repetitions⟩ := p
    by_cases hsame : b.playback.latest = some (level effect repetitions)
    · rw [play_same hp hsame]
      refine ⟨rfl, fun b' h => ?_⟩
      cases h
      rfl
    · by_cases hroom : b.playback.revision + 1 ≤ u64Max
      · rw [play_next hp hsame hroom]
        refine ⟨rfl, fun b' h => ?_⟩
        cases h
        rfl
      · rw [play_spent hp hsame hroom]
        exact ⟨rfl, fun b' h => nomatch h⟩

theorem playAll_completed (b : Books) (events : List EvdevEvent) :
    (Transducer.run Books.play b events).1.filterMap Out.completed = [] := by
  induction events generalizing b with
  | nil => rfl
  | cons event events ih =>
    have hplay := (play_keeps b event).1
    rcases hs : b.play event with ⟨outs, _ | next⟩
    · rw [Transducer.run_cons_stop hs]
      rwa [hs] at hplay
    · rw [Transducer.run_cons hs, List.filterMap_append, ih next]
      rw [hs] at hplay
      rw [hplay]
      rfl

theorem take_completed (b : Books) (event : RawReverseEvent) :
    (b.take event).1.filterMap Out.completed = (requested event).toList := by
  unfold Books.take
  cases hc : completion b.effects event with
  | some p =>
    obtain ⟨frame, observation⟩ := p
    rw [← completion_requested hc]
    change List.filterMap Out.completed [.answered frame, .settled observation] = _
    cases hr : completed frame <;> simp [Out.completed, hr]
  | none =>
    rw [completion_none hc]
    cases event with
    | evdev events =>
      dsimp only
      have hplays := playAll_completed b events
      rcases hr : Transducer.run Books.play b events with ⟨outs, _ | next⟩
      · rw [hr] at hplays
        exact hplays
      · rw [hr] at hplays
        dsimp only
        rw [List.filterMap_append, hplays]
        rfl
    | _ => rfl

theorem take_table (b : Books) (event : RawReverseEvent) (b' : Books)
    (h : (b.take event).2 = some b') : (b.take event).1.foldl table b.effects = b'.effects := by
  unfold Books.take at h ⊢
  cases hc : completion b.effects event with
  | some p =>
    rw [hc] at h
    cases h
    rfl
  | none =>
    rw [hc] at h
    cases event with
    | evdev events =>
      dsimp only at h ⊢
      rcases hr : Transducer.run Books.play b events with ⟨outs, _ | next⟩
      · rw [hr] at h
        cases h
      · rw [hr] at h
        cases h
        dsimp only
        rw [List.foldl_append,
          Transducer.foldl_run (fun b event b' hb => (play_keeps b event).2 b' hb) hr]
        rfl
    | _ =>
      cases h
      rfl

theorem uninterrupted_completed {events : List RawReverseEvent}
    (h : uninterrupted events = (outs, some b)) :
    outs.filterMap Out.completed = events.filterMap requested :=
  Transducer.filterMap_run (fun b event _ _ => take_completed b event) h

theorem uninterrupted_table {events : List RawReverseEvent}
    (h : uninterrupted events = (outs, some b)) : outs.foldl table noEffects = b.effects :=
  Transducer.foldl_run take_table h

end Uninterrupted

section Following

def arrivals : Call → List RawReverseEvent
  | .drain events _ => events
  | _ => []

/-- Everything the device has handed over. -/
def arrived (calls : List Call) : List RawReverseEvent := calls.flatMap arrivals

def isEffective : Call → Bool
  | .reply _ (.ok ()) => true
  | .callback _ => true
  | _ => false

/-- The replies that went out and the callbacks. -/
def effective (calls : List Call) : List Call := calls.filter isEffective

@[simp] theorem arrived_append (cs ds : List Call) : arrived (cs ++ ds) = arrived cs ++ arrived ds :=
  List.flatMap_append

@[simp] theorem effective_append (cs ds : List Call) :
    effective (cs ++ ds) = effective cs ++ effective ds := List.filter_append _ _

@[simp] theorem arrived_outs (outs : List Out) : arrived (outs.map Out.call) = [] := by
  induction outs with
  | nil => rfl
  | cons out outs ih => cases out <;> exact ih

@[simp] theorem effective_outs (outs : List Out) :
    effective (outs.map Out.call) = outs.map Out.call := by
  apply List.filter_eq_self.mpr
  intro call hcall
  obtain ⟨out, _, rfl⟩ := List.mem_map.mp hcall
  cases out <;> rfl

def books (feedback : Feedback) : Books := ⟨feedback.playback, feedback.effects⟩

variable {K R : Type} [NativeSession K] {emit : RawReverseEvent → R → R}
  {s t u : Endpoint K R} {handled waiting : List RawReverseEvent} {outs outs' : List Out}

/-- `outs` has left the endpoint, and of its own state only the playback may have changed. -/
structure Emitted (s t : Endpoint K R) (outs : List Out) : Prop where
  calls_eq : t.calls = s.calls ++ outs.map Out.call
  feedback_eq : t.feedback =
    { s.feedback with playback := outs.foldl shown s.feedback.playback }
  closed_eq : t.closed = s.closed

omit [NativeSession K] in
theorem Emitted.refl (s : Endpoint K R) : Emitted s s [] :=
  ⟨(List.append_nil _).symm, rfl, rfl⟩

omit [NativeSession K] in
theorem Emitted.trans (h : Emitted s t outs) (k : Emitted t u outs') :
    Emitted s u (outs ++ outs') := by
  constructor
  · rw [k.calls_eq, h.calls_eq, List.map_append, List.append_assoc]
  · rw [k.feedback_eq, h.feedback_eq, List.foldl_append]
  · exact k.closed_eq.trans h.closed_eq

omit [NativeSession K] in
theorem emitted_callback (emit : RawReverseEvent → R → R) (event : RawReverseEvent)
    (s : Endpoint K R) : Emitted s (callback emit event s).2 [.passed event] := ⟨rfl, rfl, rfl⟩

/-- The revision is used up, so that a change of the playback cannot be shown. -/
def Spent (s : Endpoint K R) : Prop := s.feedback.playback.revision = u64Max

omit [NativeSession K] in
theorem play_spec (event : EvdevEvent) (s : Endpoint K R)
    (hrevision : s.feedback.playback.revision ≤ u64Max) :
    Meets (play emit event s)
      (fun _ t => ∃ outs, (books s.feedback).play event = (outs, some (books t.feedback)) ∧
        Emitted s t outs ∧ t.feedback.playback.revision ≤ u64Max)
      (fun _ t => ∃ outs, (books s.feedback).play event = (outs, none) ∧
        Emitted s t outs ∧ Spent t) := by
  unfold play
  rw [meets_get_bind]
  cases hp : played s.feedback.effects event with
  | none => exact ⟨[], play_idle hp, .refl s, hrevision⟩
  | some p =>
    obtain ⟨effect, repetitions⟩ := p
    dsimp only
    by_cases hsame : s.feedback.playback.latest = some (level effect repetitions)
    · rw [if_neg (not_not.mpr hsame)]
      have hshown : s.feedback.playback =
          shown s.feedback.playback (.played effect repetitions) := (if_pos hsame).symm
      exact ⟨_, play_same hp hsame,
        ⟨rfl, congrArg (fun p => { s.feedback with playback := p }) hshown, rfl⟩, hrevision⟩
    · rw [if_pos hsame]
      by_cases hroom : s.feedback.playback.revision + 1 ≤ u64Max
      · have hchecked : checkedAdd s.feedback.playback.revision 1 =
            some (s.feedback.playback.revision + 1) := checkedAdd_eq_some.mpr ⟨rfl, hroom⟩
        rw [hchecked]
        have hshown : ⟨s.feedback.playback.revision + 1, some (level effect repetitions)⟩ =
            shown s.feedback.playback (.played effect repetitions) := (if_neg hsame).symm
        exact ⟨_, play_next hp hsame hroom,
          ⟨rfl, congrArg (fun p => { s.feedback with playback := p }) hshown, rfl⟩, hroom⟩
      · have hchecked : checkedAdd s.feedback.playback.revision 1 = none := if_neg hroom
        rw [hchecked]
        exact ⟨[], play_spent hp hsame hroom, .refl s, by unfold Spent; omega⟩

omit [NativeSession K] in
theorem playAll_spec (events : List EvdevEvent) (s : Endpoint K R)
    (hrevision : s.feedback.playback.revision ≤ u64Max) :
    Meets (playAll emit events s)
      (fun _ t => ∃ outs,
        Transducer.run Books.play (books s.feedback) events = (outs, some (books t.feedback)) ∧
        Emitted s t outs ∧ t.feedback.playback.revision ≤ u64Max)
      (fun _ t => ∃ outs,
        Transducer.run Books.play (books s.feedback) events = (outs, none) ∧
        Emitted s t outs ∧ Spent t) := by
  induction events generalizing s with
  | nil => exact ⟨[], rfl, .refl s, hrevision⟩
  | cons event events ih =>
    unfold playAll
    refine meets_bind ((play_spec event s hrevision).mono (fun _ _ h => h) ?_) ?_
    · rintro _ t ⟨outs, hplay, hemitted, hspent⟩
      exact ⟨outs, Transducer.run_cons_stop hplay, hemitted, hspent⟩
    · rintro _ t ⟨outs, hplay, hemitted, hbound⟩
      refine (ih t hbound).mono ?_ ?_
      · rintro _ u ⟨outs', hrun, hemitted', hbound'⟩
        refine ⟨outs ++ outs', ?_, hemitted.trans hemitted', hbound'⟩
        rw [Transducer.run_cons hplay, hrun]
      · rintro _ u ⟨outs', hrun, hemitted', hspent⟩
        refine ⟨outs ++ outs', ?_, hemitted.trans hemitted', hspent⟩
        rw [Transducer.run_cons hplay, hrun]

/-- At most one request has its answer ready, and it has been refused `retries` times in a row. -/
inductive Waiting (s : Endpoint K R) : List RawReverseEvent → Prop where
  | nothing : s.feedback.pending = none → s.feedback.retries = 0 → Waiting s []
  | reply {event frame observation before} :
      completion s.feedback.effects event = some (frame, observation) →
      s.feedback.pending = some (frame, observation) →
      s.calls = before ++ List.replicate s.feedback.retries (.reply frame (.error .wouldBlock)) →
      s.feedback.retries ≤ retryBudget → Waiting s [event]

/-- What was handled of what arrived went as it goes without interruption. -/
structure Followed (s : Endpoint K R) (handled : List RawReverseEvent) (outs : List Out) : Prop where
  handled_initial : handled <+: arrived s.calls
  run_eq : (uninterrupted handled).1 = outs
  completed_eq : outs.filterMap Out.completed = handled.filterMap requested
  effective_eq : effective s.calls = outs.map Out.call
  playback_eq : s.feedback.playback = outs.foldl shown ⟨0, none⟩
  revision_le : s.feedback.playback.revision ≤ u64Max

/-- Everything that arrived was handled, waits for its reply or is still queued. -/
structure Kept (s : Endpoint K R) (handled : List RawReverseEvent) (outs : List Out)
    (waiting : List RawReverseEvent) : Prop where
  arrived_eq : arrived s.calls = handled ++ (waiting ++ s.feedback.events)
  run_eq : uninterrupted handled = (outs, some (books s.feedback))
  effective_eq : effective s.calls = outs.map Out.call
  playback_eq : s.feedback.playback = outs.foldl shown ⟨0, none⟩
  revision_le : s.feedback.playback.revision ≤ u64Max
  opened : s.closed = false
  waits : Waiting s waiting

/-- What makes a service give up. -/
inductive Failing (calls : List Call) (playback : NativePlayback) : Prop where
  | drain {before events error} : calls = before ++ [.drain events (.error error)] →
      Failing calls playback
  | overflow {before events} : calls = before ++ [.drain events (.ok ())] →
      eventSlots < events.length → Failing calls playback
  | refused {before frame error} : calls = before ++ [.reply frame (.error error)] →
      error ≠ .wouldBlock → Failing calls playback
  | blocked {before frame} :
      calls = before ++ List.replicate (retryBudget + 1) (.reply frame (.error .wouldBlock)) →
      Failing calls playback
  | spent : playback.revision = u64Max → Failing calls playback

/-- A service that gave up, before its endpoint is cleared and closed. -/
structure GaveUp (s : Endpoint K R) : Prop where
  followed : ∃ handled outs, Followed s handled outs
  opened : s.closed = false
  failing : Failing s.calls s.feedback.playback

omit [NativeSession K] in
theorem Kept.followed (h : Kept s handled outs waiting) : Followed s handled outs :=
  ⟨⟨_, h.arrived_eq.symm⟩, congrArg Prod.fst h.run_eq, uninterrupted_completed h.run_eq,
    h.effective_eq, h.playback_eq, h.revision_le⟩

omit [NativeSession K] in
theorem Kept.idle (h : Kept s handled outs []) :
    s.feedback.pending = none ∧ s.feedback.retries = 0 := by
  cases h.waits with
  | nothing hpending hretries => exact ⟨hpending, hretries⟩

theorem replicate_snoc {α : Type*} (n : ℕ) (a : α) :
    List.replicate (n + 1) a = List.replicate n a ++ [a] := List.replicate_succ'

theorem flush_spec (h : Kept s handled outs waiting) :
    Meets (flush emit s)
      (fun flushed t => t.feedback.events = s.feedback.events ∧
        ((flushed = true ∧ ∃ outs', Kept t (handled ++ waiting) outs' []) ∨
          (flushed = false ∧ waiting ≠ [] ∧ 0 < t.feedback.retries ∧ Kept t handled outs waiting)))
      (fun _ t => GaveUp t) := by
  cases h.waits with
  | nothing hpending hretries =>
    unfold flush
    rw [hpending]
    refine ⟨rfl, .inl ⟨rfl, outs, ?_⟩⟩
    rwa [List.append_nil]
  | @reply event frame observation before hcompletion hpending hcalls hretries =>
    have hreply : replySink frame s = ((NativeSession.send frame s.session).1,
        { s with session := (NativeSession.send frame s.session).2,
                 calls := s.calls ++ [.reply frame (NativeSession.send frame s.session).1] }) := rfl
    unfold flush
    rw [hpending]
    dsimp only
    rw [hreply]
    generalize NativeSession.send frame s.session = r
    obtain ⟨result, session⟩ := r
    have harrived : ∀ result, arrived (s.calls ++ [.reply frame result]) =
        handled ++ ([event] ++ s.feedback.events) := by
      intro result
      rw [arrived_append, h.arrived_eq]
      exact List.append_nil _
    have hrefused : ∀ error, effective (s.calls ++ [.reply frame (.error error)]) =
        outs.map Out.call := by
      intro error
      rw [effective_append, h.effective_eq]
      exact List.append_nil _
    cases result with
    | ok _ =>
      refine ⟨rfl, .inl ⟨rfl, outs ++ [.answered frame, .settled observation], ?_, ?_, ?_, ?_,
        h.revision_le, h.opened, .nothing rfl rfl⟩⟩
      · change arrived (s.calls ++ [.reply frame (.ok ())] ++ _) = _
        rw [arrived_append, harrived]
        exact (List.append_nil _).trans (List.append_assoc _ _ _).symm
      · have htake : (books s.feedback).take event = ([.answered frame, .settled observation],
            some ⟨s.feedback.playback, settle s.feedback.effects observation⟩) := by
          unfold Books.take
          rw [show completion (books s.feedback).effects event = some (frame, observation)
            from hcompletion]
          rfl
        change Transducer.run Books.take Books.fresh (handled ++ [event]) = _
        rw [Transducer.run_snoc h.run_eq, htake]
        rfl
      · change effective (s.calls ++ [.reply frame (.ok ())] ++
          [.callback (.forceFeedback observation)]) = _
        rw [effective_append, effective_append, h.effective_eq, List.map_append,
          List.append_assoc]
        rfl
      · rw [List.foldl_append]
        exact h.playback_eq
    | error error =>
      have hfollowed : Followed { s with
          session := session, calls := s.calls ++ [.reply frame (.error error)] } handled outs :=
        ⟨⟨_, (harrived _).symm⟩, congrArg Prod.fst h.run_eq, uninterrupted_completed h.run_eq,
          hrefused error, h.playback_eq, h.revision_le⟩
      by_cases hblocked : error = .wouldBlock
      · subst hblocked
        have htrail : s.calls ++ [.reply frame (.error .wouldBlock)] = before ++
            List.replicate (s.feedback.retries + 1) (.reply frame (.error .wouldBlock)) := by
          rw [replicate_snoc, ← List.append_assoc, ← hcalls]
        dsimp only
        by_cases hbudget : s.feedback.retries < retryBudget
        · rw [if_pos hbudget]
          exact ⟨rfl, .inr ⟨rfl, List.cons_ne_nil _ _, Nat.succ_pos _, harrived _, h.run_eq,
            hrefused _, h.playback_eq, h.revision_le, h.opened,
            .reply hcompletion hpending htrail hbudget⟩⟩
        · rw [if_neg hbudget]
          have hfull : s.feedback.retries = retryBudget := by omega
          rw [hfull] at htrail
          exact ⟨⟨handled, outs, hfollowed⟩, h.opened, .blocked htrail⟩
      · have hgave : GaveUp { s with
            session := session, calls := s.calls ++ [.reply frame (.error error)] } :=
          ⟨⟨handled, outs, hfollowed⟩, h.opened, .refused rfl hblocked⟩
        cases error with
        | wouldBlock => exact absurd rfl hblocked
        | _ => exact hgave

/-- The next event has left the queue, and nothing waits before it. -/
structure Turn (s : Endpoint K R) (handled : List RawReverseEvent) (outs : List Out)
    (event : RawReverseEvent) : Prop where
  arrived_eq : arrived s.calls = handled ++ event :: s.feedback.events
  run_eq : uninterrupted handled = (outs, some (books s.feedback))
  effective_eq : effective s.calls = outs.map Out.call
  playback_eq : s.feedback.playback = outs.foldl shown ⟨0, none⟩
  revision_le : s.feedback.playback.revision ≤ u64Max
  opened : s.closed = false
  pending : s.feedback.pending = none
  retries : s.feedback.retries = 0

omit [NativeSession K] in
theorem Kept.turn {event : RawReverseEvent} {events : List RawReverseEvent}
    (h : Kept s handled outs []) (hevents : s.feedback.events = event :: events) :
    Turn { s with feedback := { s.feedback with events } } handled outs event := by
  refine ⟨?_, h.run_eq, h.effective_eq, h.playback_eq, h.revision_le, h.opened, h.idle.1, h.idle.2⟩
  exact h.arrived_eq.trans (by rw [hevents]; rfl)

omit [NativeSession K] in
/-- An event that is no request has been handled once its output has left. -/
theorem Turn.emitted {event : RawReverseEvent} (h : Turn s handled outs event)
    (htake : (books s.feedback).take event = (outs', some (books t.feedback)))
    (k : Emitted s t outs') (hrevision : t.feedback.playback.revision ≤ u64Max) :
    Kept t (handled ++ [event]) (outs ++ outs') [] := by
  constructor
  · rw [k.calls_eq, arrived_append, arrived_outs, h.arrived_eq, k.feedback_eq, List.append_nil,
      List.append_assoc]
    rfl
  · change Transducer.run Books.take Books.fresh (handled ++ [event]) = _
    rw [Transducer.run_snoc h.run_eq, htake]
  · rw [k.calls_eq, effective_append, effective_outs, h.effective_eq, List.map_append]
  · rw [k.feedback_eq, List.foldl_append, ← h.playback_eq]
  · exact hrevision
  · rw [k.closed_eq, h.opened]
  · refine .nothing ?_ ?_
    · rw [k.feedback_eq]
      exact h.pending
    · rw [k.feedback_eq]
      exact h.retries

omit [NativeSession K] in
/-- The playback that could not be shown is the last thing handled. -/
theorem Turn.spent {event : RawReverseEvent} (h : Turn s handled outs event)
    (htake : (books s.feedback).take event = (outs', none)) (k : Emitted s t outs')
    (hspent : Spent t) : GaveUp t := by
  refine ⟨⟨handled ++ [event], outs ++ outs', ?_, ?_, ?_, ?_, ?_, hspent.le⟩,
    k.closed_eq.trans h.opened, .spent hspent⟩
  · rw [k.calls_eq, arrived_append, arrived_outs, h.arrived_eq, List.append_nil]
    exact ⟨s.feedback.events, by rw [List.append_assoc]; rfl⟩
  · change (Transducer.run Books.take Books.fresh (handled ++ [event])).1 = _
    rw [Transducer.run_snoc h.run_eq, htake]
  · have hcompleted := take_completed (books s.feedback) event
    rw [htake] at hcompleted
    rw [List.filterMap_append, List.filterMap_append, uninterrupted_completed h.run_eq, hcompleted]
    cases hr : requested event <;> simp [hr]
  · rw [k.calls_eq, effective_append, effective_outs, h.effective_eq, List.map_append]
  · rw [k.feedback_eq, List.foldl_append, ← h.playback_eq]

omit [NativeSession K] in
theorem handle_spec {event : RawReverseEvent} (h : Turn s handled outs event) :
    Meets (handle emit event s)
      (fun _ t => t.feedback.events = s.feedback.events ∧
        ∃ handled' outs' waiting, Kept t handled' outs' waiting)
      (fun _ t => GaveUp t) := by
  unfold handle
  rw [meets_get_bind]
  cases hc : completion s.feedback.effects event with
  | some p =>
    obtain ⟨frame, observation⟩ := p
    have hcalls : s.calls = s.calls ++
        List.replicate s.feedback.retries (.reply frame (.error .wouldBlock)) := by
      rw [h.retries]
      exact (List.append_nil _).symm
    exact ⟨rfl, handled, outs, [event], h.arrived_eq, h.run_eq, h.effective_eq, h.playback_eq,
      h.revision_le, h.opened, .reply hc rfl hcalls (h.retries ▸ Nat.zero_le _)⟩
  | none =>
    have hplain : (∀ events, event ≠ .evdev events) →
        Meets (callback emit event s)
          (fun _ t => t.feedback.events = s.feedback.events ∧
            ∃ handled' outs' waiting, Kept t handled' outs' waiting)
          (fun _ t => GaveUp t) := by
      intro hevdev
      have htake : (books s.feedback).take event = ([.passed event], some (books s.feedback)) := by
        unfold Books.take
        rw [show completion (books s.feedback).effects event = none from hc]
        cases event with
        | evdev events => exact absurd rfl (hevdev events)
        | _ => rfl
      exact ⟨rfl, _, _, [], h.emitted htake (emitted_callback emit event s) h.revision_le⟩
    cases event with
    | evdev events =>
      have htake : (books s.feedback).take (.evdev events) =
          match Transducer.run Books.play (books s.feedback) events with
          | (outs, none) => (outs, none)
          | (outs, some b') => (outs ++ [.passed (.evdev events)], some b') := rfl
      refine meets_bind ((playAll_spec events s h.revision_le).mono (fun _ _ hq => hq) ?_) ?_
      · rintro _ t ⟨outs', hrun, hemitted, hspent⟩
        rw [hrun] at htake
        exact h.spent htake hemitted hspent
      · rintro _ t ⟨outs', hrun, hemitted, hbound⟩
        rw [hrun] at htake
        have hall := hemitted.trans (emitted_callback emit (.evdev events) t)
        have hevents := congrArg Feedback.events hall.feedback_eq
        exact ⟨hevents, _, _, [], h.emitted htake hall hbound⟩
    | _ => exact hplain fun _ heq => nomatch heq

/-- Between services: whatever is still owned waits behind a reply that was refused last. -/
def Idle (s : Endpoint K R) (waiting : List RawReverseEvent) : Prop :=
  (waiting = [] → s.feedback.events = []) ∧ (waiting ≠ [] → 0 < s.feedback.retries)

def Resting (s : Endpoint K R) : Prop :=
  ∃ handled outs waiting, Kept s handled outs waiting ∧ Idle s waiting

omit [NativeSession K] in
theorem idle_empty (h : s.feedback.events = []) : Idle s [] :=
  ⟨fun _ => h, fun hne => absurd rfl hne⟩

omit [NativeSession K] in
theorem idle_refused (h : 0 < s.feedback.retries) (hwaiting : waiting ≠ []) : Idle s waiting :=
  ⟨fun hnone => absurd hnone hwaiting, fun _ => h⟩

theorem handleAll_spec (events : List RawReverseEvent) (h : Kept s handled outs [])
    (hevents : s.feedback.events = events) :
    Meets (handleAll emit events s) (fun _ t => Resting t) (fun _ t => GaveUp t) := by
  induction events generalizing s handled outs with
  | nil => exact ⟨handled, outs, [], h, idle_empty hevents⟩
  | cons event events ih =>
    unfold handleAll setFeedback
    rw [meets_modify_bind]
    refine meets_bind (handle_spec (h.turn hevents)) ?_
    rintro _ t ⟨hleft, handled₁, outs₁, waiting, ht⟩
    refine meets_bind (flush_spec ht) ?_
    rintro flushed u ⟨hsame, ⟨rfl, outs₂, hu⟩ | ⟨rfl, hwaiting, hretries, hu⟩⟩
    · exact ih hu (hsame.trans hleft)
    · exact ⟨handled₁, outs₁, waiting, hu, idle_refused hretries hwaiting⟩

theorem refill_spec (h : Kept s handled outs []) :
    Meets (refill s) (fun _ t => Kept t handled outs []) (fun _ t => GaveUp t) := by
  unfold refill
  rw [meets_get_bind]
  by_cases hempty : s.feedback.events = []
  · rw [if_pos hempty]
    have hdrain : drainSink s =
        ((if (NativeSession.drain s.session).1.2 = .error .wouldBlock then .ok ()
            else (NativeSession.drain s.session).1.2 : Except ProviderError Unit).map
              fun _ => (NativeSession.drain s.session).1.1,
          { s with
            session := (NativeSession.drain s.session).2
            calls := s.calls ++ [.drain (NativeSession.drain s.session).1.1
              (if (NativeSession.drain s.session).1.2 = .error .wouldBlock then .ok ()
                else (NativeSession.drain s.session).1.2)] }) := by
      unfold drainSink
      rw [h.opened]
      rfl
    generalize (if (NativeSession.drain s.session).1.2 = .error .wouldBlock then .ok ()
      else (NativeSession.drain s.session).1.2 : Except ProviderError Unit) = result at hdrain
    generalize NativeSession.drain s.session = r at hdrain
    obtain ⟨⟨events, _⟩, session⟩ := r
    have harrived : arrived (s.calls ++ [.drain events result]) = handled ++ events := by
      rw [arrived_append, h.arrived_eq, hempty, List.append_nil]
      exact (List.append_assoc _ _ _).trans (congrArg (handled ++ ·) (List.append_nil events))
    have heffective : effective (s.calls ++ [.drain events result]) = outs.map Out.call := by
      rw [effective_append, h.effective_eq]
      exact List.append_nil _
    have hfollowed : ∀ feedback : Feedback, feedback.playback = s.feedback.playback →
        Followed { s with
          feedback := feedback, session := session, calls := s.calls ++ [.drain events result] }
          handled outs := by
      intro feedback hplayback
      refine ⟨⟨events, harrived.symm⟩, congrArg Prod.fst h.run_eq,
        uninterrupted_completed h.run_eq, heffective, ?_, ?_⟩
      · exact hplayback.trans h.playback_eq
      · exact hplayback.symm ▸ h.revision_le
    cases result with
    | error error =>
      have hrun := bind_run_error (f := fun events => (do
        setFeedback fun feedback => { feedback with events := events.take eventSlots }
        if eventSlots < events.length then
          fail (.read "evdev reverse batch exceeds bounded ownership")
        else pure () : Action ProviderError (Endpoint K R) Unit)) hdrain
      rw [hrun]
      exact ⟨⟨handled, outs, hfollowed s.feedback rfl⟩, h.opened, .drain rfl⟩
    | ok _ =>
      rw [meets_bind_ok hdrain]
      unfold setFeedback
      rw [meets_modify_bind]
      by_cases hfits : eventSlots < events.length
      · rw [if_pos hfits]
        exact ⟨⟨handled, outs, hfollowed _ rfl⟩, h.opened, .overflow rfl hfits⟩
      · rw [if_neg hfits]
        have htake : events.take eventSlots = events := List.take_of_length_le (by omega)
        refine ⟨?_, h.run_eq, heffective, h.playback_eq, h.revision_le, h.opened,
          .nothing h.idle.1 h.idle.2⟩
        exact harrived.trans (congrArg (handled ++ ·) htake.symm)
  · rw [if_neg hempty]
    exact h

theorem serviceInner_spec (h : Kept s handled outs waiting) :
    Meets (serviceInner emit s) (fun _ t => Resting t) (fun _ t => GaveUp t) := by
  unfold serviceInner
  refine meets_bind (flush_spec h) ?_
  rintro flushed t ⟨_, ⟨rfl, outs₁, ht⟩ | ⟨rfl, hwaiting, hretries, ht⟩⟩
  · refine meets_bind (refill_spec ht) ?_
    intro _ u hu
    exact handleAll_spec _ hu rfl
  · exact ⟨handled, outs, waiting, ht, idle_refused hretries hwaiting⟩

/-- After a failure or a close nothing is owned, and only the playback is remembered. -/
structure Cleared (s : Endpoint K R) : Prop where
  followed : ∃ handled outs, Followed s handled outs
  closed : s.closed = true
  feedback_eq : s.feedback = s.feedback.clear

omit [NativeSession K] in
theorem followed_of_clear (h : Followed s handled outs)
    (harrived : arrived t.calls = arrived s.calls) (heffective : effective t.calls = effective s.calls)
    (hplayback : t.feedback.playback = s.feedback.playback) : Followed t handled outs :=
  ⟨harrived ▸ h.handled_initial, h.run_eq, h.completed_eq, heffective.trans h.effective_eq,
    hplayback.trans h.playback_eq, hplayback ▸ h.revision_le⟩

theorem close_spec (h : Followed s handled outs) (hopen : s.closed = false) :
    Cleared (close s).2 ∧ (close s).2.calls = s.calls ++ [.close] ∧
      (close s).2.feedback.playback = s.feedback.playback := by
  have hclose : (close s).2 = { s with
      feedback := s.feedback.clear, session := (NativeSession.close s.session).2, closed := true,
      calls := s.calls ++ [.close] } := by
    change (closeSink { s with feedback := s.feedback.clear }).2 = _
    change (if s.closed = true then _ else _) = _
    rw [hopen]
    rfl
  rw [hclose]
  refine ⟨⟨⟨handled, outs, followed_of_clear h ?_ ?_ rfl⟩, rfl, rfl⟩, rfl, rfl⟩
  · rw [arrived_append]
    exact List.append_nil _
  · rw [effective_append]
    exact List.append_nil _

/-- A closed endpoint does nothing any more. -/
theorem service_closed (hclosed : s.closed = true) (hclear : s.feedback = s.feedback.clear) :
    service emit s = (.error .closed, s) := by
  have hflush : flush emit s = (.ok true, s) := by
    unfold flush
    rw [hclear]
    rfl
  have hdrain : drainSink s = (.error .closed, s) := if_pos hclosed
  have hrefill : refill s = (.error .closed, s) := by
    have hevents : s.feedback.events = [] := congrArg Feedback.events hclear
    unfold refill
    rw [get_bind_run, if_pos hevents, bind_run_error hdrain]
  have hinner : serviceInner emit s = (.error .closed, s) := by
    unfold serviceInner
    rw [bind_run_ok hflush]
    exact bind_run_error hrefill
  unfold service
  rw [hinner]
  change (_, (closeSink { s with feedback := s.feedback.clear }).2) = _
  rw [← hclear]
  exact congrArg (Prod.mk _) (if_pos hclosed)

/-- Why an endpoint closed itself. -/
def ClosedFor (s : Endpoint K R) : Prop :=
  ∃ calls, s.calls = calls ++ [.close] ∧ Failing calls s.feedback.playback

theorem service_spec (h : Resting s) :
    Meets (service emit s) (fun _ t => Resting t) (fun _ t => Cleared t ∧ ClosedFor t) := by
  obtain ⟨handled, outs, waiting, hkept, _⟩ := h
  have hinner : Meets (serviceInner emit s) _ _ := serviceInner_spec hkept
  unfold service
  rcases hs : serviceInner emit s with ⟨error | _, t⟩
  · rw [hs] at hinner
    obtain ⟨⟨_, _, hfollowed⟩, hopen, hfailing⟩ := (hinner : GaveUp t)
    obtain ⟨hcleared, hcalls, hplayback⟩ := close_spec hfollowed hopen
    exact ⟨hcleared, t.calls, hcalls, hplayback ▸ hfailing⟩
  · rw [hs] at hinner
    exact hinner

theorem reachable_cases (h : Reachable emit s) : Resting s ∨ Cleared s := by
  induction h with
  | new session observer =>
    refine .inl ⟨[], [], [], ⟨rfl, rfl, rfl, rfl, Nat.zero_le _, rfl, .nothing rfl rfl⟩, idle_empty rfl⟩
  | @service s _ ih =>
    rcases ih with hresting | hcleared
    · have hspec : Meets (service emit s) _ _ := service_spec hresting
      rcases hs : service emit s with ⟨error | _, t⟩
      · rw [hs] at hspec
        exact .inr hspec.1
      · rw [hs] at hspec
        exact .inl hspec
    · rw [service_closed hcleared.closed hcleared.feedback_eq]
      exact .inr hcleared
  | @close s _ ih =>
    rcases ih with ⟨handled, outs, waiting, hkept, _⟩ | hcleared
    · exact .inr (close_spec hkept.followed hkept.opened).1
    · have hsame : (close s).2 = s := by
        change (closeSink { s with feedback := s.feedback.clear }).2 = _
        rw [← hcleared.feedback_eq]
        exact if_pos hcleared.closed
      rw [hsame]
      exact .inr hcleared
  | @elsewhere s _ session observer ih =>
    rcases ih with ⟨handled, outs, waiting, hkept, hrest⟩ | ⟨⟨handled, outs, hfollowed⟩, hclosed, hclear⟩
    · refine .inl ⟨handled, outs, waiting, ⟨hkept.arrived_eq, hkept.run_eq, hkept.effective_eq,
        hkept.playback_eq, hkept.revision_le, hkept.opened, ?_⟩, hrest⟩
      cases hkept.waits with
      | nothing hpending hretries => exact .nothing hpending hretries
      | reply hcompletion hpending hcalls hretries =>
        exact .reply hcompletion hpending hcalls hretries
    · exact .inr ⟨⟨handled, outs, followed_of_clear hfollowed rfl rfl rfl⟩, hclosed, hclear⟩

end Following

section Exactness

variable {K R : Type} [NativeSession K]

def answers : Call → Option Request
  | .reply frame (.ok ()) => completed frame
  | _ => none

/-- The requests that were answered, in the order of the answers. -/
def answered (calls : List Call) : List Request := calls.filterMap answers

/-- The upload and erase requests among some events. -/
def requests (events : List RawReverseEvent) : List Request := events.filterMap requested

/-- The bookkeeping after any run. `handled` is what is done with of all that arrived, and `outs`
what an uninterrupted run puts out for it. -/
structure Exact (s : Endpoint K R) (handled : List RawReverseEvent) (outs : List Out) : Prop where
  handled_initial : handled <+: arrived s.calls
  run_eq : (uninterrupted handled).1 = outs
  effective_eq : effective s.calls = outs.map Out.call
  answered_eq : answered s.calls = requests handled
  playback_eq : s.feedback.playback = outs.foldl shown ⟨0, none⟩
  owned : s.closed = false → s.feedback.effects = outs.foldl table noEffects ∧
    ∃ waiting, arrived s.calls = handled ++ (waiting ++ s.feedback.events) ∧
      Waiting s waiting ∧ Idle s waiting
  cleared : s.closed = true → s.feedback.effects = noEffects ∧ s.feedback.events = [] ∧
    s.feedback.pending = none

theorem answered_effective (calls : List Call) : answered calls = answered (effective calls) := by
  unfold answered effective
  rw [List.filterMap_filter]
  congr 1
  funext call
  cases call with
  | reply frame result => cases result <;> rfl
  | _ => rfl

theorem answered_outs (outs : List Out) :
    answered (outs.map Out.call) = outs.filterMap Out.completed := by
  unfold answered
  rw [List.filterMap_map]
  congr 1
  funext out
  cases out <;> rfl

variable {s : Endpoint K R} {handled : List RawReverseEvent} {outs : List Out}

omit [NativeSession K] in
theorem Followed.answered_eq (h : Followed s handled outs) :
    answered s.calls = requests handled := by
  rw [answered_effective, h.effective_eq, answered_outs]
  exact h.completed_eq

omit [NativeSession K] in
theorem Resting.exact (h : Resting s) : ∃ handled outs, Exact s handled outs := by
  obtain ⟨handled, outs, waiting, hkept, hrest⟩ := h
  have hfollowed := hkept.followed
  refine ⟨handled, outs, hfollowed.handled_initial, hfollowed.run_eq, hkept.effective_eq,
    hfollowed.answered_eq, hkept.playback_eq, fun _ => ?_, fun hclosed => ?_⟩
  · exact ⟨(uninterrupted_table hkept.run_eq).symm, waiting, hkept.arrived_eq, hkept.waits, hrest⟩
  · exact absurd hclosed (by rw [hkept.opened]; decide)

omit [NativeSession K] in
theorem Cleared.exact (h : Cleared s) : ∃ handled outs, Exact s handled outs := by
  obtain ⟨⟨handled, outs, hfollowed⟩, hclosed, hclear⟩ := h
  refine ⟨handled, outs, hfollowed.handled_initial, hfollowed.run_eq, hfollowed.effective_eq,
    hfollowed.answered_eq, hfollowed.playback_eq, fun hopen => ?_, fun _ => ?_⟩
  · exact absurd hopen (by rw [hclosed]; decide)
  · exact ⟨congrArg Feedback.effects hclear, congrArg Feedback.events hclear,
      congrArg Feedback.pending hclear⟩

/-- A device that hands over its batches one at a time and refuses what it has no result for. -/
structure Scripted where
  inbox : List (List RawReverseEvent)
  results : List (Except ProviderError Unit)

instance : NativeSession Scripted where
  drain d :=
    match d.inbox with
    | [] => (([], .error .wouldBlock), d)
    | batch :: inbox => ((batch, .ok ()), { d with inbox })
  send _ := fun d =>
    match d.results with
    | [] => (.error .wouldBlock, d)
    | result :: results => (result, { d with results })
  close := fun d => (.ok (), d)

def gather (event : RawReverseEvent) (seen : List RawReverseEvent) : List RawReverseEvent :=
  seen ++ [event]

def rumble : RumbleEffect := ⟨3, 100, 50, 0, 0, 0, 0⟩

/-- An upload, a start of the uploaded effect and its erase, all in one batch. -/
def burst : List RawReverseEvent :=
  [.forceFeedbackUpload 5 (.rumble rumble), .evdev [⟨evFf, 3, 2⟩], .forceFeedbackErase 6 3]

def served : ℕ → Endpoint Scripted (List RawReverseEvent) → Endpoint Scripted (List RawReverseEvent)
  | 0, s => s
  | n + 1, s => (service gather (served n s)).2

theorem served_reachable (n : ℕ) (d : Scripted) : Reachable gather (served n (.new d [])) := by
  induction n with
  | zero => exact .new d []
  | succ n ih => exact .service ih

def interrupted : Scripted :=
  ⟨[burst], [.error .wouldBlock, .error .wouldBlock, .ok (), .error .wouldBlock, .ok ()]⟩

end Exactness

end ForceFeedbackExact
