import VirtualGamepad.ReverseDelivery

/-! What a subscription promises over every interleaving: accepted events are passed on in order, and
a close that returned leaves nothing to accept. -/
namespace ReverseDelivery

open Runs

section Locks

variable {ι ε : Type}

/-- What a thread may rely on at each place of its call. -/
def Fits (s : State ι ε) (i : ι) : Call ε → Prop
  | .publish _ => True
  | .locking _ => True
  | .sending _ => s.senderLock = some i
  | .sent _ result =>
    s.senderLock = some i ∧ (s.connected = true ∨ result = .error .closed)
  | .closing => True
  | .taking => s.closed = true
  | .disconnected => s.closed = true ∧ s.connected = false
  | .joining => s.closed = true ∧ s.connected = false ∧ s.workerLock = some i
  | .waiting => s.closed = true ∧ s.connected = false ∧ s.workerLock = some i

structure Sound (s : State ι ε) : Prop where
  fits : ∀ i c, s.calls i = some c → Fits s i c
  joined : s.joined = true → s.worker = .ended ∨ ∃ i, s.calls i = some .waiting

/-- What a step does to a thread that does not take it: its locks stay, nothing is reopened, and the
sender does not go while the thread holds it. -/
structure Spares (s t : State ι ε) (i : ι) : Prop where
  sender : s.senderLock = some i → t.senderLock = some i
  worker : s.workerLock = some i → t.workerLock = some i
  closed : s.closed = true → t.closed = true
  cut : s.connected = false → t.connected = false
  linked : s.senderLock = some i → s.connected = true → t.connected = true

variable {s t : State ι ε} {i : ι} {c : Call ε}

theorem Spares.fits (h : Spares s t i) (hc : Fits s i c) : Fits t i c := by
  cases c with
  | publish => trivial
  | locking => trivial
  | sending => exact h.sender hc
  | sent _ result =>
    obtain ⟨hlock, hconnected | hresult⟩ := hc
    · exact ⟨h.sender hlock, .inl (h.linked hlock hconnected)⟩
    · exact ⟨h.sender hlock, .inr hresult⟩
  | closing => trivial
  | taking => exact h.closed hc
  | disconnected => exact ⟨h.closed hc.1, h.cut hc.2⟩
  | joining => exact ⟨h.closed hc.1, h.cut hc.2.1, h.worker hc.2.2⟩
  | waiting => exact ⟨h.closed hc.1, h.cut hc.2.1, h.worker hc.2.2⟩

/-- A step that leaves the locks, the flag and the sender alone. -/
theorem spares_same (hsender : t.senderLock = s.senderLock) (hworker : t.workerLock = s.workerLock)
    (hclosed : t.closed = s.closed) (hconnected : t.connected = s.connected) : Spares s t i := by
  constructor
  · rw [hsender]; exact id
  · rw [hworker]; exact id
  · rw [hclosed]; exact id
  · rw [hconnected]; exact id
  · rw [hconnected]; exact fun _ => id

theorem sound_new : Sound (new : State ι ε) := by
  constructor
  · intro i c hc
    cases hc
  · intro h
    cases h

/-- A step of the callback's thread outside its calls. -/
theorem Sound.run (h : Sound s) (hcalls : t.calls = s.calls) (hjoined : t.joined = s.joined)
    (hended : s.worker = .ended → t.worker = .ended) (hspares : ∀ i, Spares s t i) : Sound t := by
  constructor
  · intro i c hc
    rw [hcalls] at hc
    exact (hspares i).fits (h.fits i c hc)
  · intro hj
    rw [hjoined] at hj
    rw [hcalls]
    exact (h.joined hj).imp_left hended

variable [DecidableEq ι]

@[simp] theorem setCall_calls (s : State ι ε) (i : ι) (call : Option (Call ε)) :
    (s.setCall i call).calls = Function.update s.calls i call := rfl

/-- A step of a thread inside a call, which does not hand over the join. -/
theorem Sound.call (h : Sound s) {call : Option (Call ε)}
    (hcalls : t.calls = Function.update s.calls i call)
    (hnew : ∀ c, call = some c → Fits t i c) (hspares : ∀ j, j ≠ i → Spares s t j)
    (hjoined : t.joined = true → t.worker = .ended ∨ ∃ j, t.calls j = some .waiting) :
    Sound t := by
  constructor
  · intro j c hc
    rw [hcalls] at hc
    by_cases hji : j = i
    · subst hji
      rw [Function.update_self] at hc
      exact hnew c hc
    · rw [Function.update_of_ne hji] at hc
      exact (hspares j hji).fits (h.fits j c hc)
  · exact hjoined

/-- The thread that joins stays in its call until the callback's thread has ended. -/
theorem Sound.still_joined (h : Sound s) {call : Option (Call ε)}
    (hcalls : t.calls = Function.update s.calls i call) (hjoined : t.joined = s.joined)
    (hworker : t.worker = s.worker) (hmoved : s.calls i ≠ some .waiting) :
    t.joined = true → t.worker = .ended ∨ ∃ j, t.calls j = some .waiting := by
  intro hj
  rw [hjoined] at hj
  rw [hworker, hcalls]
  rcases h.joined hj with hended | ⟨j, hwaiting⟩
  · exact .inl hended
  · refine .inr ⟨j, ?_⟩
    rwa [Function.update_of_ne]
    rintro rfl
    exact hmoved hwaiting

variable {capacity : ℕ} {self : ι} {l : Label ι ε}

theorem sound_publish (h : Sound s) (hs : Publish capacity self s i l t) : Sound t := by
  cases hs with
  | invoke event hmay =>
    refine h.call rfl ?_ (fun _ _ => spares_same rfl rfl rfl rfl)
      (h.still_joined rfl rfl rfl (by simp [hmay.1]))
    rintro c ⟨⟩
    trivial
  | flagged hcall _ =>
    exact h.call rfl (fun c hc => by cases hc) (fun _ _ => spares_same rfl rfl rfl rfl)
      (h.still_joined rfl rfl rfl (by simp [hcall]))
  | unflagged hcall _ =>
    refine h.call rfl ?_ (fun _ _ => spares_same rfl rfl rfl rfl)
      (h.still_joined rfl rfl rfl (by simp [hcall]))
    rintro c ⟨⟩
    trivial
  | lock hcall hfree =>
    refine h.call rfl ?_ (fun j _ => ?_) (h.still_joined rfl rfl rfl (by simp [hcall]))
    · rintro c ⟨⟩
      exact rfl
    · constructor
      · intro hheld
        rw [hfree] at hheld
        cases hheld
      · exact id
      · exact id
      · exact id
      · exact fun _ => id
  | accept hcall hconnected _ _ =>
    refine h.call rfl ?_ (fun _ _ => spares_same rfl rfl rfl rfl)
      (h.still_joined rfl rfl rfl (by simp [hcall]))
    rintro c ⟨⟩
    exact ⟨h.fits i _ hcall, .inl hconnected⟩
  | full hcall hconnected _ _ =>
    refine h.call rfl ?_ (fun _ _ => spares_same rfl rfl rfl rfl)
      (h.still_joined rfl rfl rfl (by simp [hcall]))
    rintro c ⟨⟩
    exact ⟨h.fits i _ hcall, .inl hconnected⟩
  | disconnected hcall _ =>
    refine h.call rfl ?_ (fun _ _ => spares_same rfl rfl rfl rfl)
      (h.still_joined rfl rfl rfl (by simp [hcall]))
    rintro c ⟨⟩
    exact ⟨h.fits i _ hcall, .inr rfl⟩
  | «return» hcall =>
    have hlock : s.senderLock = some i := (h.fits i _ hcall).1
    refine h.call rfl (fun c hc => by cases hc) (fun j hji => ?_)
      (h.still_joined rfl rfl rfl (by simp [hcall]))
    have hother : s.senderLock ≠ some j := by
      rw [hlock]
      simpa using Ne.symm hji
    exact ⟨fun hheld => absurd hheld hother, id, id, id, fun _ => id⟩

theorem sound_close (h : Sound s) (hs : Close self s i l t) : Sound t := by
  cases hs with
  | invoke hmay =>
    refine h.call rfl ?_ (fun _ _ => spares_same rfl rfl rfl rfl)
      (h.still_joined rfl rfl rfl (by simp [hmay.1]))
    rintro c ⟨⟩
    trivial
  | store hcall =>
    refine h.call rfl ?_ (fun j _ => ⟨id, id, fun _ => rfl, id, fun _ => id⟩)
      (h.still_joined rfl rfl rfl (by simp [hcall]))
    rintro c ⟨⟩
    exact rfl
  | take hcall hfree =>
    refine h.call rfl ?_ (fun j _ => ?_) (h.still_joined rfl rfl rfl (by simp [hcall]))
    · rintro c ⟨⟩
      exact ⟨h.fits i _ hcall, rfl⟩
    · refine ⟨id, id, id, fun _ => rfl, fun hheld => ?_⟩
      rw [hfree] at hheld
      cases hheld
  | own hcall _ =>
    exact h.call rfl (fun c hc => by cases hc) (fun _ _ => spares_same rfl rfl rfl rfl)
      (h.still_joined rfl rfl rfl (by simp [hcall]))
  | lock hcall _ hfree =>
    have hcut := h.fits i _ hcall
    refine h.call rfl ?_ (fun j _ => ?_) (h.still_joined rfl rfl rfl (by simp [hcall]))
    · rintro c ⟨⟩
      exact ⟨hcut.1, hcut.2, rfl⟩
    · refine ⟨id, fun hheld => ?_, id, id, fun _ => id⟩
      rw [hfree] at hheld
      cases hheld
  | join hcall _ =>
    have hcut := h.fits i _ hcall
    refine h.call rfl ?_ (fun _ _ => spares_same rfl rfl rfl rfl) (fun _ => .inr ⟨i, ?_⟩)
    · rintro c ⟨⟩
      exact hcut
    · exact Function.update_self ..
  | joined hcall _ =>
    have hlock : s.workerLock = some i := (h.fits i _ hcall).2.2
    refine h.call rfl (fun c hc => by cases hc) (fun j hji => ?_)
      (h.still_joined rfl rfl rfl (by simp [hcall]))
    have hother : s.workerLock ≠ some j := by
      rw [hlock]
      simpa using Ne.symm hji
    exact ⟨id, fun hheld => absurd hheld hother, id, id, fun _ => id⟩
  | «return» hcall hended =>
    have hlock : s.workerLock = some i := (h.fits i _ hcall).2.2
    refine h.call rfl (fun c hc => by cases hc) (fun j hji => ?_) (fun _ => .inl ?_)
    · have hother : s.workerLock ≠ some j := by
        rw [hlock]
        simpa using Ne.symm hji
      exact ⟨id, fun hheld => absurd hheld hother, id, id, fun _ => id⟩
    · change s.worker = .ended
      cases hw : s.worker with
      | ended => rfl
      | _ => rw [hw] at hended; cases hended

omit [DecidableEq ι] in
theorem sound_run (h : Sound s) (hs : RunSubscription self s l t) : Sound t := by
  cases hs with
  | park hw _ _ => exact h.run rfl rfl (by simp [hw]) fun _ => spares_same rfl rfl rfl rfl
  | receive hw _ => exact h.run rfl rfl (by simp [hw]) fun _ => spares_same rfl rfl rfl rfl
  | disconnected hw _ _ => exact h.run rfl rfl (by simp [hw]) fun _ => spares_same rfl rfl rfl rfl
  | «return» hw _ => exact h.run rfl rfl (by simp [hw]) fun _ => spares_same rfl rfl rfl rfl
  | panic hw _ => exact h.run rfl rfl (by simp [hw]) fun _ => spares_same rfl rfl rfl rfl
  | store hw =>
    exact h.run rfl rfl (by simp [hw]) fun i => ⟨id, id, fun _ => rfl, id, fun _ => id⟩
  | finish _ => exact h.run rfl rfl (fun _ => rfl) fun _ => spares_same rfl rfl rfl rfl

theorem sound_step (h : Sound s) (hs : Step capacity self s l t) : Sound t := by
  cases hs with
  | publish hs => exact sound_publish h hs
  | close hs => exact sound_close h hs
  | run hs => exact sound_run h hs

end Locks

section Shut

variable {ι ε : Type} [DecidableEq ι] {capacity : ℕ} {self : ι} {s t : State ι ε} {i : ι}
  {l : Label ι ε} {log : List (Label ι ε)}

/-- No sender is left, and the flag says so. -/
structure Shut (s : State ι ε) : Prop where
  sound : Sound s
  closed : s.closed = true
  connected : s.connected = false

theorem closed_shuts (h : Sound s) (hs : Step capacity self s (.closed i) t) :
    Shut t ∧ (i ≠ self → t.worker = .ended) := by
  have ht := sound_step h hs
  cases hs with
  | publish hs => cases hs
  | run hs => cases hs
  | close hs =>
    cases hs with
    | own hcall hself =>
      obtain ⟨hclosed, hcut⟩ := h.fits i _ hcall
      exact ⟨⟨ht, hclosed, hcut⟩, fun hother => absurd hself hother⟩
    | joined hcall hjoined =>
      obtain ⟨hclosed, hcut, hlock⟩ := h.fits i _ hcall
      refine ⟨⟨ht, hclosed, hcut⟩, fun _ => ?_⟩
      rcases h.joined hjoined with hended | ⟨j, hwaiting⟩
      · exact hended
      · -- the thread that waits for the end has the lock, so it is this one
        have hheld := (h.fits j _ hwaiting).2.2
        rw [hlock] at hheld
        cases hheld
        rw [hcall] at hwaiting
        cases hwaiting
    | «return» hcall hended =>
      obtain ⟨hclosed, hcut, _⟩ := h.fits i _ hcall
      refine ⟨⟨ht, hclosed, hcut⟩, fun _ => ?_⟩
      cases hw : s.worker with
      | ended => exact hw
      | _ => rw [hw] at hended; cases hended

theorem Shut.step (h : Shut s) (hs : Step capacity self s l t) :
    Shut t ∧ (∀ j event, l ≠ .accepted j event) ∧
      ∀ j event result, l = .published j event result → result = .error .closed := by
  obtain ⟨hsound, hclosed, hcut⟩ := h
  have ht := sound_step hsound hs
  cases hs with
  | publish hs =>
    cases hs with
    | unflagged _ hopen => rw [hclosed] at hopen; cases hopen
    | accept _ hconnected _ _ => rw [hcut] at hconnected; cases hconnected
    | full _ hconnected _ _ => rw [hcut] at hconnected; cases hconnected
    | flagged =>
      refine ⟨⟨ht, hclosed, hcut⟩, nofun, ?_⟩
      rintro j event result ⟨⟩
      rfl
    | «return» hcall =>
      refine ⟨⟨ht, hclosed, hcut⟩, nofun, ?_⟩
      rintro j event result ⟨⟩
      rcases (hsound.fits _ _ hcall).2 with hconnected | hresult
      · rw [hcut] at hconnected
        cases hconnected
      · exact hresult
    | _ => exact ⟨⟨ht, hclosed, hcut⟩, nofun, nofun⟩
  | close hs =>
    cases hs with
    | store => exact ⟨⟨ht, rfl, hcut⟩, nofun, nofun⟩
    | take => exact ⟨⟨ht, hclosed, rfl⟩, nofun, nofun⟩
    | _ => exact ⟨⟨ht, hclosed, hcut⟩, nofun, nofun⟩
  | run hs =>
    cases hs with
    | store => exact ⟨⟨ht, rfl, hcut⟩, nofun, nofun⟩
    | _ => exact ⟨⟨ht, hclosed, hcut⟩, nofun, nofun⟩

/-- After a close nothing is accepted, and every `publish` that returns says so. -/
theorem Shut.run (h : Shut s) (hrun : Run (Step capacity self) s log t) :
    Shut t ∧ accepted log = [] ∧
      ∀ j event result, .published j event result ∈ log → result = .error .closed := by
  induction hrun with
  | nil => exact ⟨h, rfl, nofun⟩
  | @snoc log t l u _ hs ih =>
    obtain ⟨hshut, hnone, hpublished⟩ := ih
    obtain ⟨hshut', haccepted, hresult⟩ := hshut.step hs
    refine ⟨hshut', ?_, ?_⟩
    · rw [accepted, List.filterMap_append, ← accepted, hnone]
      cases l with
      | accepted j event => exact absurd rfl (haccepted j event)
      | _ => rfl
    · intro j event result hmem
      rcases List.mem_append.mp hmem with hmem | hmem
      · exact hpublished j event result hmem
      · exact hresult j event result (List.mem_singleton.mp hmem).symm

theorem ended_step (h : s.worker = .ended) (hs : Step capacity self s l t) :
    t.worker = .ended ∧ ∀ event, l ≠ .passed event := by
  cases hs with
  | publish hs =>
    cases hs with
    | _ => exact ⟨h, nofun⟩
  | close hs =>
    cases hs with
    | _ => exact ⟨h, nofun⟩
  | run hs =>
    cases hs with
    | finish hw => rw [h] at hw; cases hw
    | _ hw => rw [h] at hw; cases hw

/-- The callback of a thread that has ended is not called. -/
theorem ended_run (h : s.worker = .ended) (hrun : Run (Step capacity self) s log t) :
    t.worker = .ended ∧ passed log = [] := by
  induction hrun with
  | nil => exact ⟨h, rfl⟩
  | @snoc log t l u _ hs ih =>
    obtain ⟨hended, hnone⟩ := ih
    obtain ⟨hended', hpassed⟩ := ended_step hended hs
    refine ⟨hended', ?_⟩
    rw [passed, List.filterMap_append, ← passed, hnone]
    cases l with
    | passed event => exact absurd rfl (hpassed event)
    | _ => rfl

end Shut

section Records

variable {ι ε : Type}

/-- The event a thread was promised and has not returned with. -/
def promised : Option (Call ε) → List ε
  | some (.sent event (.ok ())) => [event]
  | _ => []

def State.promise (s : State ι ε) : List ε := s.senderLock.elim [] fun i => promised (s.calls i)

/-- The thread is past its loop. -/
def Past : Worker ε → Prop
  | .receiving _ => False
  | .calling _ => False
  | .leaving => True
  | .stopped => True
  | .ended => True

/-- How the log of a run fits the state it leads to. Only a panic of the callback loses events. -/
structure Record (log : List (Label ι ε)) (s : State ι ε) : Prop where
  returned : accepted log = published log ++ s.promise
  flow : ∃ lost, accepted log = passed log ++ s.queue ++ lost ∧
    (lost = [] ∨ (s.worker = .ended ∧ Panicked log))
  drained : ¬Panicked log → Past s.worker → s.connected = false ∧ s.queue = []

variable {log : List (Label ι ε)} {s t : State ι ε} {i : ι} {l : Label ι ε}

@[simp] theorem accepted_snoc : accepted (log ++ [l]) = accepted log ++ accepted [l] :=
  List.filterMap_append ..

@[simp] theorem published_snoc : published (log ++ [l]) = published log ++ published [l] :=
  List.filterMap_append ..

@[simp] theorem passed_snoc : passed (log ++ [l]) = passed log ++ passed [l] :=
  List.filterMap_append ..

theorem Panicked.snoc (h : Panicked log) : Panicked (log ++ [l]) := by
  obtain ⟨event, hevent⟩ := h
  exact ⟨event, List.mem_append_left _ hevent⟩

theorem calm_nil : ¬Panicked ([] : List (Label ι ε)) := by
  rintro ⟨event, hmem⟩
  cases hmem

theorem record_new : Record [] (new : State ι ε) := by
  constructor
  · rfl
  · exact ⟨[], rfl, .inl rfl⟩
  · intro _ hpast
    cases hpast

/-- A step that neither accepts nor passes on, and leaves the thread and the queue alone. -/
theorem Record.quiet (h : Record log s) (haccepted : accepted [l] = []) (hpassed : passed [l] = [])
    (hpromise : s.promise = published [l] ++ t.promise) (hqueue : t.queue = s.queue)
    (hworker : t.worker = s.worker) (hcut : s.connected = false → t.connected = false) :
    Record (log ++ [l]) t := by
  constructor
  · rw [accepted_snoc, published_snoc, haccepted, h.returned, hpromise]
    simp
  · obtain ⟨lost, heq, hlost⟩ := h.flow
    refine ⟨lost, ?_, ?_⟩
    · rw [accepted_snoc, passed_snoc, haccepted, hpassed, hqueue, heq]
      simp
    · rw [hworker]
      exact hlost.imp_right fun ⟨hended, hpanicked⟩ => ⟨hended, hpanicked.snoc⟩
  · intro hcalm hpast
    rw [hworker] at hpast
    obtain ⟨hconnected, hempty⟩ := h.drained (fun hpanicked => hcalm hpanicked.snoc) hpast
    exact ⟨hcut hconnected, hqueue.trans hempty⟩

theorem Record.passed_prefix (h : Record log s) : passed log <+: accepted log := by
  obtain ⟨lost, heq, _⟩ := h.flow
  exact ⟨s.queue ++ lost, by rw [heq, List.append_assoc]⟩

theorem Record.kept (h : Record log s) (hcalm : ¬Panicked log) :
    accepted log = passed log ++ s.queue := by
  obtain ⟨lost, heq, rfl | ⟨_, hpanicked⟩⟩ := h.flow
  · rw [heq, List.append_nil]
  · exact absurd hpanicked hcalm

theorem promise_held (h : s.senderLock = some i) : s.promise = promised (s.calls i) := by
  rw [State.promise, h]
  rfl

theorem promise_free (h : s.senderLock = none) : s.promise = [] := by
  rw [State.promise, h]
  rfl

variable [DecidableEq ι] {capacity : ℕ} {self : ι}

/-- A thread that had no promise and gets none. -/
theorem promise_call {call : Option (Call ε)} (hlock : t.senderLock = s.senderLock)
    (hcalls : t.calls = Function.update s.calls i call) (hold : promised (s.calls i) = [])
    (hnew : promised call = []) : t.promise = s.promise := by
  cases hs : s.senderLock with
  | none => rw [promise_free (hlock.trans hs), promise_free hs]
  | some j =>
    rw [promise_held (hlock.trans hs), promise_held hs, hcalls]
    by_cases hji : j = i
    · subst hji
      rw [Function.update_self, hold, hnew]
    · rw [Function.update_of_ne hji]

/-- A step of a call that is not about the event it carries. -/
theorem Record.calls {call : Option (Call ε)} (h : Record log s) (hold : promised (s.calls i) = [])
    (hcalls : t.calls = Function.update s.calls i call) (hnew : promised call = [])
    (haccepted : accepted [l] = []) (hpassed : passed [l] = []) (hpublished : published [l] = [])
    (hlock : t.senderLock = s.senderLock) (hqueue : t.queue = s.queue)
    (hworker : t.worker = s.worker) (hcut : s.connected = false → t.connected = false) :
    Record (log ++ [l]) t := by
  refine h.quiet haccepted hpassed ?_ hqueue hworker hcut
  rw [hpublished, promise_call hlock hcalls hold hnew]
  rfl

theorem record_publish (hsound : Sound s) (h : Record log s) (hs : Publish capacity self s i l t) :
    Record (log ++ [l]) t := by
  cases hs with
  | invoke event hmay =>
    exact h.calls (congrArg promised hmay.1) rfl rfl rfl rfl rfl rfl rfl rfl id
  | flagged hcall _ =>
    exact h.calls (congrArg promised hcall) rfl rfl rfl rfl rfl rfl rfl rfl id
  | unflagged hcall _ =>
    exact h.calls (congrArg promised hcall) rfl rfl rfl rfl rfl rfl rfl rfl id
  | lock hcall hfree =>
    refine h.quiet rfl rfl ?_ rfl rfl id
    rw [promise_free hfree, promise_held rfl]
    simp [published, promised]
  | @accept event hcall hconnected hlive _ =>
    have hlock : s.senderLock = some i := hsound.fits i _ hcall
    constructor
    · rw [accepted_snoc, published_snoc, h.returned, promise_held hlock, hcall, promise_held (i := i)]
      · simp [accepted, published, promised]
      · exact hlock
    · obtain ⟨lost, heq, rfl | ⟨hended, _⟩⟩ := h.flow
      · refine ⟨[], ?_, .inl rfl⟩
        rw [accepted_snoc, passed_snoc, heq]
        simp [accepted, passed]
      · rw [hended] at hlive
        exact absurd rfl hlive
    · intro hcalm hpast
      rw [(h.drained (fun hpanicked => hcalm hpanicked.snoc) hpast).1] at hconnected
      cases hconnected
  | full hcall _ _ _ =>
    exact h.calls (congrArg promised hcall) rfl rfl rfl rfl rfl rfl rfl rfl id
  | disconnected hcall _ =>
    exact h.calls (congrArg promised hcall) rfl rfl rfl rfl rfl rfl rfl rfl id
  | @«return» event result hcall =>
    have hlock : s.senderLock = some i := (hsound.fits i _ hcall).1
    refine h.quiet rfl rfl ?_ rfl rfl id
    rw [promise_held hlock, hcall, promise_free rfl, List.append_nil]
    rcases result with _ | _
    · rfl
    · rfl

theorem record_close (h : Record log s) (hs : Close self s i l t) : Record (log ++ [l]) t := by
  cases hs with
  | invoke hmay =>
    exact h.calls (congrArg promised hmay.1) rfl rfl rfl rfl rfl rfl rfl rfl id
  | take hcall _ =>
    exact h.calls (congrArg promised hcall) rfl rfl rfl rfl rfl rfl rfl rfl fun _ => rfl
  | _ hcall =>
    exact h.calls (congrArg promised hcall) rfl rfl rfl rfl rfl rfl rfl rfl id

omit [DecidableEq ι] in
/-- A step of the thread outside its calls, which accepts nothing. -/
theorem Record.moves (h : Record log s) (hlive : ¬s.worker matches .ended)
    (haccepted : accepted [l] = []) (hpublished : published [l] = []) (hpromise : t.promise = s.promise)
    (hflow : s.queue = passed [l] ++ t.queue)
    (hpast : ¬Panicked (log ++ [l]) → Past t.worker → t.connected = false ∧ t.queue = []) :
    Record (log ++ [l]) t := by
  constructor
  · rw [accepted_snoc, published_snoc, haccepted, hpublished, h.returned, hpromise]
    simp
  · obtain ⟨lost, heq, rfl | ⟨hended, _⟩⟩ := h.flow
    · refine ⟨[], ?_, .inl rfl⟩
      rw [accepted_snoc, passed_snoc, haccepted, heq, hflow]
      simp
    · rw [hended] at hlive
      exact absurd rfl hlive
  · exact hpast

omit [DecidableEq ι] in
theorem record_run (h : Record log s) (hs : RunSubscription self s l t) :
    Record (log ++ [l]) t := by
  cases hs with
  | park hw _ _ => exact h.moves (by simp [hw]) rfl rfl rfl rfl fun _ hpast => hpast.elim
  | receive hw hqueue => exact h.moves (by simp [hw]) rfl rfl rfl hqueue fun _ hpast => hpast.elim
  | disconnected hw hqueue hcut =>
    exact h.moves (by simp [hw]) rfl rfl rfl rfl fun _ _ => ⟨hcut, hqueue⟩
  | «return» hw _ => exact h.moves (by simp [hw]) rfl rfl rfl rfl fun _ hpast => hpast.elim
  | @panic event hw _ =>
    exact h.moves (by simp [hw]) rfl rfl rfl rfl
      fun hcalm => absurd ⟨event, by simp⟩ hcalm
  | store hw =>
    refine h.moves (by simp [hw]) rfl rfl rfl rfl fun hcalm _ => ?_
    exact h.drained (fun hpanicked => hcalm hpanicked.snoc) (by simp [hw, Past])
  | finish hw =>
    constructor
    · rw [accepted_snoc, published_snoc, h.returned]
      simp [accepted, published, State.promise]
    · obtain ⟨lost, heq, rfl | ⟨hended, _⟩⟩ := h.flow
      · refine ⟨s.queue, ?_, ?_⟩
        · rw [accepted_snoc, passed_snoc, heq]
          simp [accepted, passed]
        · by_cases hpanicked : Panicked log
          · exact .inr ⟨rfl, hpanicked.snoc⟩
          · exact .inl (h.drained hpanicked (by simp [hw, Past])).2
      · rw [hw] at hended
        cases hended
    · intro hcalm _
      have hdrained := h.drained (fun hpanicked => hcalm hpanicked.snoc) (by simp [hw, Past])
      exact ⟨hdrained.1, rfl⟩

theorem record_step (hsound : Sound s) (h : Record log s) (hs : Step capacity self s l t) :
    Record (log ++ [l]) t := by
  cases hs with
  | publish hs => exact record_publish hsound h hs
  | close hs => exact record_close h hs
  | run hs => exact record_run h hs

theorem reachable (hrun : Run (Step capacity self) (new : State ι ε) log s) :
    Sound s ∧ Record log s := by
  induction hrun with
  | nil => exact ⟨sound_new, record_new⟩
  | snoc _ hs ih => exact ⟨sound_step ih.1 hs, record_step ih.1 ih.2 hs⟩

end Records

section Delivery

variable {ι ε : Type} [DecidableEq ι] {capacity : ℕ} {self : ι} {s t : State ι ε}
  {log : List (Label ι ε)}

/-- The thread alone, with a callback that returns, passes on what is queued. -/
theorem drains {parked : Bool} (hworker : s.worker = .receiving parked) (hself : s.calls self = none) :
    ∃ rest t, Run (Step capacity self) s rest t ∧ accepted rest = [] ∧ ¬Panicked rest ∧
      passed rest = s.queue := by
  induction hqueue : s.queue generalizing s parked with
  | nil => exact ⟨[], s, .nil, rfl, calm_nil, rfl⟩
  | cons event queue ih =>
    have hreceive : Step capacity self s (.passed event)
        { s with worker := .calling event, queue := queue } := .run (.receive hworker hqueue)
    have hreturn : Step capacity self { s with worker := .calling event, queue := queue } .silent
        { s with worker := .receiving false, queue, delivered := s.delivered + 1 } :=
      .run (.return rfl hself)
    obtain ⟨rest, t, hrun, haccepted, hcalm, hpassed⟩ := ih (s := { s with worker := .receiving false, queue, delivered := s.delivered + 1 }) rfl hself rfl
    refine ⟨_, t, run_cons.mpr ⟨_, hreceive, run_cons.mpr ⟨_, hreturn, hrun⟩⟩, haccepted, ?_, ?_⟩
    · rintro ⟨event', hmem⟩
      refine hcalm ⟨event', ?_⟩
      simpa using hmem
    · rw [← hpassed]
      rfl

theorem Record.drains (h : Record log s) (hcalm : ¬Panicked log) (hself : s.calls self = none) :
    ∃ rest t, Run (Step capacity self) s rest t ∧ accepted rest = [] ∧ ¬Panicked rest ∧
      passed rest = s.queue := by
  by_cases hpast : Past s.worker
  · rw [(h.drained hcalm hpast).2]
    exact ⟨[], s, .nil, rfl, calm_nil, rfl⟩
  · cases hworker : s.worker with
    | receiving parked => exact ReverseDelivery.drains hworker hself
    | calling event =>
      have hreturn : Step capacity self s .silent _ := .run (.return hworker hself)
      obtain ⟨rest, t, hrun, haccepted, hquiet, hpassed⟩ := @ReverseDelivery.drains _ _ _ capacity
        self { s with worker := .receiving false, delivered := s.delivered + 1 } _ rfl hself
      refine ⟨_, t, run_cons.mpr ⟨_, hreturn, hrun⟩, haccepted, ?_, hpassed⟩
      rintro ⟨event', hmem⟩
      exact hquiet ⟨event', by simpa using hmem⟩
    | _ => rw [hworker] at hpast; exact absurd trivial hpast

omit [DecidableEq ι] in
/-- No event is on its way once the sender has gone. -/
theorem Record.settled (h : Record log s) (hshut : Shut s) : accepted log = published log := by
  rw [h.returned]
  suffices s.promise = [] by rw [this, List.append_nil]
  cases hlock : s.senderLock with
  | none => exact promise_free hlock
  | some i =>
    rw [promise_held hlock]
    rcases hcall : s.calls i with _ | c
    · rfl
    · cases c with
      | sent event result =>
        rcases (hshut.sound.fits i _ hcall).2 with hconnected | rfl
        · rw [hshut.connected] at hconnected
          cases hconnected
        · rfl
      | _ => rfl

/-- Any number of threads publish, close and read what they are answered, while the thread `self`
runs the callback, which may do the same. A callback that never panics is called with every accepted
event, in order, and before any other thread's close returns. -/
theorem events_delivered (hrun : Run (Step capacity self) (new : State ι ε) log s) :
    passed log <+: accepted log ∧ published log <+: accepted log ∧
    (¬Panicked log → accepted log = passed log ++ s.queue ∧
      (s.calls self = none → ∃ rest t, Run (Step capacity self) s rest t ∧
        accepted rest = [] ∧ ¬Panicked rest ∧ passed rest = s.queue)) ∧
    ∀ before i after, log = before ++ .closed i :: after →
      accepted after = [] ∧
      (∀ j event result, .published j event result ∈ after → result = .error .closed) ∧
      (i ≠ self → passed after = [] ∧
        (¬Panicked before → passed before = accepted before ∧ published before = accepted before)) := by
  obtain ⟨hsound, hrecord⟩ := reachable hrun
  refine ⟨hrecord.passed_prefix, ⟨s.promise, hrecord.returned.symm⟩,
    fun hcalm => ⟨hrecord.kept hcalm, hrecord.drains hcalm⟩, ?_⟩
  rintro before i after rfl
  obtain ⟨s₁, hbefore, hrest⟩ := run_append.mp hrun
  obtain ⟨s₂, hclose, hafter⟩ := run_cons.mp hrest
  obtain ⟨hsound₁, hrecord₁⟩ := reachable hbefore
  obtain ⟨hshut, hended⟩ := closed_shuts hsound₁ hclose
  obtain ⟨_, haccepted, hpublished⟩ := hshut.run hafter
  refine ⟨haccepted, hpublished, fun hother => ⟨(ended_run (hended hother) hafter).2, ?_⟩⟩
  intro hcalm
  have hrecord₂ := record_step hsound₁ hrecord₁ hclose
  have hcalm₂ : ¬Panicked (before ++ [.closed i]) := by
    rintro ⟨event, hmem⟩
    exact hcalm ⟨event, by simpa using hmem⟩
  have hempty := (hrecord₂.drained hcalm₂ (by rw [hended hother]; trivial)).2
  have hkept := hrecord₂.kept hcalm₂
  have hsettled := hrecord₂.settled hshut
  rw [hempty] at hkept
  simp only [accepted_snoc, passed_snoc, published_snoc, List.append_nil] at hkept hsettled
  exact ⟨by simpa [accepted, passed] using hkept.symm, by simpa [accepted, published] using hsettled.symm⟩

/-- A `publish` that no other thread gets in the way of, with a place in the channel. -/
theorem publishes {i : ι} {event : ε} (hcall : s.calls i = none) (hother : i ≠ self)
    (hclosed : s.closed = false) (hlock : s.senderLock = none) (hconnected : s.connected = true)
    (hlive : ¬s.worker matches .ended) (hroom : Room capacity s) :
    Run (Step capacity self) s
      [.silent, .silent, .silent, .accepted i event, .published i event (.ok ())]
      { s with queue := s.queue ++ [event] } := by
  have hmine (t : State ι ε) (call : Option (Call ε)) : (t.setCall i call).calls i = call :=
    Function.update_self ..
  have hlast : { s with queue := s.queue ++ [event] } =
      { s with
        queue := s.queue ++ [event]
        senderLock := none
        calls := (Function.update (Function.update (Function.update (Function.update
          (Function.update s.calls i (some (.publish event))) i (some (.locking event)))
          i (some (.sending event))) i (some (.sent event (.ok ())))) i none) } := by
    simp [hlock, hcall]
  rw [hlast]
  refine run_cons.mpr ⟨_, .publish (.invoke event ⟨hcall, fun h => absurd h hother⟩), ?_⟩
  refine run_cons.mpr ⟨_, .publish (.unflagged (hmine _ _) hclosed), ?_⟩
  refine run_cons.mpr ⟨_, .publish (.lock (hmine _ _) hlock), ?_⟩
  refine run_cons.mpr ⟨_, .publish (.accept (hmine _ _) hconnected hlive hroom), ?_⟩
  exact run_singleton.mpr (.publish (.return (hmine _ _)))

def twoPublished : List (Label ℕ ℕ) :=
  [.silent, .silent, .silent, .accepted 1 7, .published 1 7 (.ok ()),
    .silent, .silent, .silent, .accepted 1 8, .published 1 8 (.ok ())]

theorem two_published :
    Run (Step 2 0) (new : State ℕ ℕ) twoPublished { new with queue := [7, 8] } := by
  have hfirst : Run (Step 2 0) (new : State ℕ ℕ) _ { new with queue := [] ++ [7] } :=
    publishes (i := 1) rfl (by decide) rfl rfl rfl nofun (.inl (by decide))
  exact hfirst.append
    (publishes rfl (by decide) rfl rfl rfl nofun (.inl (by decide)))

theorem events_delivered_two :
    passed twoPublished <+: accepted twoPublished ∧ accepted twoPublished = passed twoPublished ++ [7, 8] := by
  have hcalm : ¬Panicked twoPublished := by
    rintro ⟨event, hmem⟩
    simp [twoPublished] at hmem
  exact ⟨(events_delivered two_published).1, ((events_delivered two_published).2.2.1 hcalm).1⟩

/-- An accepted event is lost when the callback panics on the one before it, and a callback that
closes its own subscription is called again once the close has returned. -/
theorem delivery_fails :
    (∃ log s, Run (Step 2 0) (new : State ℕ ℕ) log s ∧ .closed 1 ∈ log ∧
      published log = [7, 8] ∧ passed log = [7]) ∧
    ∃ before after s, Run (Step 2 0) (new : State ℕ ℕ) (before ++ .closed 0 :: after) s ∧
      published before = [7, 8] ∧ passed after = [8] := by
  constructor
  · suffices h : ∃ t, Run (Step 2 0) { (new : State ℕ ℕ) with queue := [7, 8] }
        [.passed 7, .panicked 7, .silent, .silent, .silent, .silent, .silent, .silent, .silent,
          .closed 1] t by
      obtain ⟨t, h⟩ := h
      exact ⟨_, t, two_published.append h, by simp, rfl, rfl⟩
    refine exists_run_cons.mpr ⟨_, .run (.receive rfl rfl), ?_⟩
    refine exists_run_cons.mpr ⟨_, .run (.panic rfl rfl), ?_⟩
    refine exists_run_cons.mpr ⟨_, .run (.store rfl), ?_⟩
    refine exists_run_cons.mpr ⟨_, .run (.finish rfl), ?_⟩
    refine exists_run_cons.mpr ⟨_, .close (.invoke (i := 1) ⟨rfl, nofun⟩), ?_⟩
    refine exists_run_cons.mpr ⟨_, .close (.store (i := 1) rfl), ?_⟩
    refine exists_run_cons.mpr ⟨_, .close (.take (i := 1) rfl rfl), ?_⟩
    refine exists_run_cons.mpr ⟨_, .close (.lock (i := 1) rfl (by decide) rfl), ?_⟩
    refine exists_run_cons.mpr ⟨_, .close (.join (i := 1) rfl rfl), ?_⟩
    exact ⟨_, run_singleton.mpr (.close (.return rfl rfl))⟩
  · suffices h : ∃ t, Run (Step 2 0) { (new : State ℕ ℕ) with queue := [7, 8] }
        [.passed 7, .silent, .silent, .silent, .closed 0, .silent, .passed 8] t by
      obtain ⟨t, h⟩ := h
      have hrun := two_published.append h
      exact ⟨twoPublished ++ [.passed 7, .silent, .silent, .silent], [.silent, .passed 8], t,
        by simpa using hrun, rfl, rfl⟩
    refine exists_run_cons.mpr ⟨_, .run (.receive rfl rfl), ?_⟩
    refine exists_run_cons.mpr ⟨_, .close (.invoke (i := 0) ⟨rfl, fun _ => rfl⟩), ?_⟩
    refine exists_run_cons.mpr ⟨_, .close (.store (i := 0) rfl), ?_⟩
    refine exists_run_cons.mpr ⟨_, .close (.take (i := 0) rfl rfl), ?_⟩
    refine exists_run_cons.mpr ⟨_, .close (.own rfl rfl), ?_⟩
    refine exists_run_cons.mpr ⟨_, .run (.return rfl rfl), ?_⟩
    exact ⟨_, run_singleton.mpr (.run (.receive rfl rfl))⟩

end Delivery

end ReverseDelivery
