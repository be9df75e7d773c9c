import VirtualGamepad.HidRuntimePersonality
import VirtualGamepad.WiiReplies

/-! The Wii Remote personality in its HID session. The session holds the state of the application, the
personality the state of the last input call. -/
namespace WiiSession

open HidRuntime HidRuntimePersonality
open ControllerContract MachineInt WiiRemote WiiReports WiiMemory WiiProtocol WiiSafety WiiInput WiiReplies
open Panicking (Outcome)
open WiiRuns (hidProtocol)

section Personality

variable {α : Type}

/-- A panic unwinds through the session, which closes. Here it is an error that closes it. -/
def fatal : Outcome Error α → Except Error α
  | .ok a => .ok a
  | .error e => .error e
  | .panicked => .error .transport

def settle (m : Panicking.Action Error Wii α) : Fallible.Action Error Wii α := fun w =>
  (fatal (m w).1, (m w).2)

/-- A panic has no answer; one of the wrong form closes the session as well. -/
def answer : Outcome ReplyError Unit → Reply
  | .ok () => .set (.ok ())
  | .error e => .set (.error e)
  | .panicked => .get (.error .invalid)

def heed (report : Report) : Outcome ReplyError Unit → Except Error (Option RawReverseEvent)
  | .ok () => .ok (some (observe report))
  | .error .busy => .error .transport
  | .error _ => .ok none
  | .panicked => .error .transport

instance : Protocol Wii WiiRemoteState RawReverseEvent where
  neutral w := .new w.state.revision
  validate w state := fatal (validate w state)
  input state now := settle (inputReports state now)
  deadline w := w.next
  request w kind now :=
    match kind with
    | .get _ _ => ((.get (.error .unsupported), none), w)
    | .set report =>
      let result := (accept report now w).1
      ((answer result, if result = .ok () then some (observe report) else none),
        (accept report now w).2)
  output report now w := (heed report (accept report now w).1, (accept report now w).2)
  lifecycle w event now := (some (.hidLifecycle event), lifecycle event now w)
  delivered w _ _ := w

theorem validate_ok {w : Wii} {state : WiiRemoteState}
    (h : (Protocol.validate w state : Except Error Unit) = .ok ()) : Valid w state := by
  have hvalidate := validate_yields w state
  have hfatal : fatal (validate w state) = .ok () := h
  cases hrun : validate w state with
  | ok _ =>
    rw [hrun] at hvalidate
    exact hvalidate
  | error e =>
    rw [hrun] at hfatal
    cases hfatal
  | panicked =>
    rw [hrun] at hfatal
    cases hfatal

/-- What a session keeps of its personality, beside the state of its application. -/
structure Fits (state : WiiRemoteState) (w : Wii) : Prop where
  sound : Sound w
  valid : Valid w state

theorem Valid.next {w : Wii} {state : WiiRemoteState} (h : Valid w state) {mode : UInt8} {ir : Bool × Bool}
    {w' : Wii} (hvalid : w'.valid = w.valid) (hmode : w'.mode = mode) (hir : w'.irEnabled = ir)
    (hencodable : Encodable mode state ir.1) : Valid w' state := by
  subst hmode hir
  exact ⟨hvalid.trans h.numbered, h.identity, h.acceleration, h.extension, h.rotation, hencodable⟩

theorem nextMode_encodable {mode : UInt8} {state : WiiRemoteState} {ir : Bool}
    (h : Encodable mode state ir) : Encodable (nextMode mode) state ir := by
  unfold nextMode
  split
  · next hfirst =>
    subst hfirst
    exact ⟨by decide, fun hblind => h.sighted ⟨.inr (.inl rfl), hblind.2⟩⟩
  · split
    · next hsecond =>
      subst hsecond
      exact ⟨by decide, fun hblind => h.sighted ⟨.inr (.inr rfl), hblind.2⟩⟩
    · exact h

theorem Fits.input {w w' : Wii} {state : WiiRemoteState} {now : ℕ} {reports : List Report}
    (h : Fits state w) (hs : Sent w state now reports w') : Fits state w' := by
  refine ⟨h.sound.input hs, ?_⟩
  have hvalid := h.valid
  cases hs with
  | silent => exact ⟨hvalid.numbered, hvalid.identity, hvalid.acceleration, hvalid.extension,
      hvalid.rotation, hvalid.encodable⟩
  | batch _ _ hgenerated =>
    cases hgenerated with
    | awaiting => exact ⟨hvalid.numbered, hvalid.identity, hvalid.acceleration, hvalid.extension,
        hvalid.rotation, hvalid.encodable⟩
    | data => exact ⟨hvalid.numbered, hvalid.identity, hvalid.acceleration, hvalid.extension,
        hvalid.rotation, nextMode_encodable hvalid.encodable⟩

end Personality

section Reports

open Panicking Panicking.Action

variable {w w' : Wii} {state : WiiRemoteState} {report : Report} {now : ℕ}

/-- The modes without a typed point size. -/
def blindMode (mode : UInt8) : Prop := mode = 0x33 ∨ mode = 0x3e ∨ mode = 0x3f

/-- A report that chooses such a mode while the camera is on, or turns the camera on in such a mode. -/
def Blinds (w : Wii) (report : Report) : Prop :=
  (report.id = some 0x12 ∧ report.payload.length = 2 ∧ blindMode (report.payload.getD 1 0) ∧
      w.irEnabled.1 = true) ∨
    (report.id = some 0x13 ∧ report.payload.length = 1 ∧ report.payload.getD 0 0 &&& 4 ≠ 0 ∧
      blindMode w.mode)

/-- The personality has the time and the numbers for an output report with one reply. -/
structure Ready (w : Wii) (report : Report) : Prop where
  kind_eq : report.kind = .output
  hears : w.active = true ∧ w.valid = true
  room : w.pending.length < maxPending
  counts : w.outputs.rumble = decide (report.payload.getD 0 0 &&& 1 ≠ 0) ∨
    w.outputs.revision < u64Max

/-- A report takes away the sight of points that the application shows and the personality has not
been given yet. -/
structure Surprises (w : Wii) (state : WiiRemoteState) (report : Report) : Prop where
  blinds : Blinds w report
  shown : state.visible = true
  unseen : w.state.visible = false
  ready : Ready w report

/-- A report leaves the mode and the camera alone, chooses the mode, or switches the camera. -/
inductive Set (p : List UInt8) (w : Wii) : UInt8 → UInt8 → Bool → Prop where
  | same {id : UInt8} : id ≠ 0x12 ∧ id ≠ 0x13 → Set p w id w.mode w.irEnabled.1
  | mode : Set p w 0x12 (p.getD 1 0) w.irEnabled.1
  | camera : Set p w 0x13 w.mode (decide (p.getD 0 0 &&& 4 ≠ 0))

theorem edges_settings (both : Bool) (w : Wii) : (edges both w).valid = w.valid ∧
    (edges both w).state = w.state ∧ (edges both w).mode = w.mode ∧
    (edges both w).irEnabled = w.irEnabled := by
  cases both with
  | true => exact ⟨rfl, rfl, rfl, rfl⟩
  | false => exact ⟨rfl, rfl, rfl, rfl⟩

theorem handled_settings {p : List UInt8} {both : Bool} {id : UInt8} (h : Handled p both w id w') :
    w'.valid = w.valid ∧ w'.state = w.state ∧ Set p w id w'.mode w'.irEnabled.1 := by
  cases h with
  | mode => exact ⟨rfl, rfl, .mode⟩
  | camera => exact ⟨rfl, rfl, .camera⟩
  | switched =>
    obtain ⟨hvalid, hstate, hmode, hir⟩ := edges_settings both _
    rw [hvalid, hstate, hmode, hir]
    exact ⟨rfl, rfl, .same (by decide)⟩
  | audio hid =>
    refine ⟨rfl, rfl, .same ?_⟩
    rcases hid with rfl | rfl
    · decide
    · decide
  | speaker _ _ hid =>
    refine ⟨rfl, rfl, .same ?_⟩
    rcases hid with rfl | rfl
    · decide
    · decide
  | _ => exact ⟨rfl, rfl, .same (by decide)⟩

/-- What an accepted report leaves of the settings, with the room that it had. -/
theorem accepted_settings (h : Accepted report now w w') : ∃ id, report.id = some id ∧
    payloadSize id = some report.payload.length ∧ Ready w report ∧
    w'.valid = w.valid ∧ w'.state = w.state ∧
    Set report.payload w id w'.mode w'.irEnabled.1 ∧ Encodable w'.mode w.state w'.irEnabled.1 := by
  obtain ⟨id, both, w₁, hadmitted, hhandled, hfinished⟩ := h
  obtain ⟨hvalid, hstate, hset⟩ := handled_settings hhandled
  have hencodable := data_ok_iff.mp hfinished.encodable
  rw [hstate] at hencodable
  obtain ⟨w₂, hrevised, _⟩ := hfinished.settled
  have hready : Ready w report := by
    constructor
    · exact hadmitted.kind_eq
    · exact hadmitted.hears
    · have hroom := hadmitted.room
      have hone : 1 ≤ replies id both := by
        unfold replies
        split
        · decide
        · split
          · decide
          · exact Nat.le_refl 1
      exact Nat.lt_of_lt_of_le (Nat.lt_add_of_pos_right hone) hroom
    · by_cases hsame : w.outputs.rumble = decide (report.payload.getD 0 0 &&& 1 ≠ 0)
      · exact .inl hsame
      · exact .inr (hrevised.changed (.inr fun h => hsame h.symm)).1
  obtain ⟨outputs, queued, rfl, _⟩ := finished_eq hfinished
  exact ⟨id, hadmitted.id_eq, hadmitted.size_eq, hready, hvalid, hstate, hset, hencodable⟩

/-- An accepted report leaves the application's state valid unless it comes as a surprise. -/
theorem Fits.accept (h : Fits state w) (k : Accepted report now w w') (hcalm : ¬Surprises w state report) :
    Fits state w' := by
  obtain ⟨id, hid, hsize, hready, hvalid, hstate, hset, hencodable⟩ := accepted_settings k
  refine ⟨h.sound.accept k, Valid.next h.valid hvalid rfl rfl ⟨hencodable.known, ?_⟩⟩
  intro hblind
  have hunseen : w.state.visible = false := by
    by_contra hseen
    exact hencodable.sighted ⟨hblind.1, hblind.2.1, by simpa using hseen⟩
  have hsurprise (hblinds : Blinds w report) : False :=
    hcalm ⟨hblinds, hblind.2.2, hunseen, hready⟩
  generalize hmode : w'.mode = mode at hset hblind
  generalize hir : w'.irEnabled.1 = ir at hset hblind
  cases hset with
  | same => exact h.valid.encodable.sighted hblind
  | mode =>
    have hlength : 2 = report.payload.length := Option.some.inj hsize
    exact hsurprise (.inl ⟨hid, hlength.symm, hblind.1, hblind.2.1⟩)
  | camera =>
    have hlength : 1 = report.payload.length := Option.some.inj hsize
    exact hsurprise (.inr ⟨hid, hlength.symm, of_decide_eq_true hblind.2.1, hblind.1⟩)

theorem finish_runs {id : UInt8} {p : List UInt8} {before : WiiRemoteOutputs} (h : 1 ≤ p.length)
    (hencodable : Encodable w.mode w.state w.irEnabled.1) (hleds : w.outputs.leds = before.leds)
    (hcounts : before.rumble = decide (p.getD 0 0 &&& 1 ≠ 0) ∨ before.revision < u64Max) :
    (finish id p before now w).1 = .ok () := by
  obtain ⟨report, hdata⟩ := data_ok_iff.mpr hencodable
  unfold finish
  rw [get_bind_run, hdata]
  change ((setBit p 1 _ >>= _) w).1 = _
  rw [bind_run_ok (setBit_calm h _ _ _), get_bind_run, index_eq h]
  generalize hw : ({ w with outputs := { w.outputs with rumble := p.getD 0 0 &&& 1 ≠ 0 } } : Wii) = w₀
  have hrest : ∀ w₁, ((do
        let b ← lift (.ok (p.getD 0 0))
        if acknowledges id = true ∧ b &&& 2 ≠ 0 then modify (push (ack · id 0))
        modify fun w => { w with next := some now } : Panicking.Action ReplyError Wii Unit) w₁).1 =
      .ok () := by
    intro w₁
    rw [lift_ok_bind_run]
    by_cases hack : acknowledges id = true ∧ p.getD 0 0 &&& 2 ≠ 0
    · rw [if_pos hack]
      rfl
    · rw [if_neg hack]
      rfl
  by_cases hchanged : w₀.outputs.leds ≠ before.leds ∨ w₀.outputs.rumble ≠ before.rumble
  · rw [if_pos hchanged]
    have hroom : before.revision < u64Max := by
      subst hw
      rcases hchanged with h | h
      · exact absurd hleds h
      · exact hcounts.resolve_left fun hsame => h hsame.symm
    rw [checkedAdd_eq_some.mpr ⟨rfl, hroom⟩]
    exact hrest _
  · rw [if_neg hchanged]
    exact hrest w₀

theorem blindMode_known {mode : UInt8} (h : blindMode mode) : mode ∈ modes.map Prod.fst := by
  rcases h with rfl | rfl | rfl
  · decide
  · decide
  · decide

/-- A report is taken when it is admitted, handled and can be finished. -/
theorem accept_runs {id : UInt8} {w₁ : Wii} (h : Ready w report) (hid : report.id = some id)
    (hsize : payloadSize id = some report.payload.length) (hother : id ≠ 0x16)
    (hdispatch : dispatch id report.payload false w = (.ok (), w₁))
    (hleds : w₁.outputs = w.outputs) (hencodable : Encodable w₁.mode w₁.state w₁.irEnabled.1) :
    (accept report now w).1 = .ok () := by
  have hdeaf : ¬(!w.active || !w.valid) = true := by
    rw [h.hears.1, h.hears.2]
    decide
  have hdeactivates : deactivates w id report.payload = .ok false := by
    unfold deactivates
    rw [if_neg fun hid => hother hid.1]
    rfl
  have hreattaches : reattaches w id report.payload = .ok false := by
    unfold reattaches
    rw [if_neg fun hid => hother hid.1]
    rfl
  have hroom : ¬maxPending < w.pending.length + replies id (false || false) := by
    have hone : replies id (false || false) = 1 := if_neg hother
    rw [hone]
    exact Nat.not_lt_of_ge h.room
  have hfinish : (finish id report.payload w.outputs now w₁).1 = .ok () :=
    finish_runs (payloadSize_eq hsize).1 hencodable (congrArg _ hleds) h.counts
  have hinner : (acceptInner report now w).1 = .ok () := by
    unfold acceptInner
    rw [get_bind_run, ite_run, if_neg hdeaf, ite_run, if_neg (not_not.mpr h.kind_eq), hid]
    dsimp only
    rw [hsize]
    dsimp only
    rw [ite_run, if_neg (not_not.mpr rfl), hdeactivates, lift_ok_bind_run, hreattaches,
      lift_ok_bind_run, ite_run]
    change (if maxPending < w.pending.length + replies id (false || false) then _ else _ :
      Outcome ReplyError Unit × Wii).1 = _
    rw [if_neg hroom, Bool.or_self, bind_run_ok hdispatch]
    exact hfinish
  unfold accept
  rcases hrun : acceptInner report now w with ⟨_ | _ | _, w'⟩
  · rfl
  · rw [hrun] at hinner
    cases hinner
  · rw [hrun] at hinner
    cases hinner

theorem dispatch_mode {p : List UInt8} {both : Bool} (h : p.length = 2)
    (hknown : p.getD 1 0 ∈ modes.map Prod.fst) (hsighted : ¬Blind (p.getD 1 0) w.state w.irEnabled.1) :
    dispatch 0x12 p both w = (.ok (), { w with mode := p.getD 1 0, reporting := .running }) := by
  have hmode : modes.any (·.1 = p.getD 1 0) = true := by
    obtain ⟨entry, hentry, heq⟩ := List.mem_map.mp hknown
    exact List.any_eq_true.mpr ⟨entry, hentry, decide_eq_true heq⟩
  obtain ⟨report, hdata⟩ := data_ok_iff.mpr ⟨hknown, hsighted⟩
  unfold dispatch
  rw [if_neg (by decide), if_pos rfl]
  unfold selectMode
  rw [index_eq (by omega), lift_ok_bind_run, ite_run, if_neg (not_not.mpr hmode), get_bind_run, hdata]
  rfl

theorem dispatch_camera {p : List UInt8} {both : Bool} (h : 1 ≤ p.length) :
    dispatch 0x13 p both w =
      (.ok (), { w with irEnabled := (decide (p.getD 0 0 &&& 4 ≠ 0), w.irEnabled.2) }) := by
  unfold dispatch
  rw [if_neg (by decide), if_neg (by decide), if_pos rfl]
  exact setBit_calm h _ _ w

/-- A surprise is accepted, and the state of the application is encodable no longer. -/
theorem surprised (hmode : w.mode ∈ modes.map Prod.fst) (h : Surprises w state report) :
    ∃ w', accept report now w = (.ok (), w') ∧ ¬Encodable w'.mode state w'.irEnabled.1 := by
  have hsighted (mode : UInt8) (ir : Bool) : ¬Blind mode w.state ir := by
    intro hblind
    have hseen := hblind.2.2
    rw [h.unseen] at hseen
    cases hseen
  have hresult : (accept report now w).1 = .ok () := by
    rcases h.blinds with ⟨hid, hlength, hblind, hir⟩ | ⟨hid, hlength, hon, hblind⟩
    · have hsize : payloadSize 0x12 = some report.payload.length := congrArg some hlength.symm
      exact accept_runs h.ready hid hsize (by decide)
        (dispatch_mode hlength (blindMode_known hblind) (hsighted _ _)) rfl
        ⟨blindMode_known hblind, hsighted _ _⟩
    · have hsize : payloadSize 0x13 = some report.payload.length := congrArg some hlength.symm
      exact accept_runs h.ready hid hsize (by decide) (dispatch_camera hlength.ge) rfl
        ⟨hmode, hsighted _ _⟩
  rcases hrun : accept report now w with ⟨result, w'⟩
  rw [hrun] at hresult
  obtain rfl : result = .ok () := hresult
  refine ⟨w', rfl, fun hencodable => ?_⟩
  rcases accept_turn hrun with ⟨_, haccepted⟩ | ⟨hrefused, _⟩
  · obtain ⟨id, hid, _, _, _, _, hset, _⟩ := accepted_settings haccepted
    generalize w'.mode = mode at hset hencodable
    generalize w'.irEnabled.1 = ir at hset hencodable
    rcases h.blinds with ⟨hreport, _, hblind, hir⟩ | ⟨hreport, _, hon, hblind⟩
    · obtain rfl : 0x12 = id := Option.some.inj (hreport.symm.trans hid)
      cases hset with
      | same h12 => exact h12.1 rfl
      | mode => exact hencodable.sighted ⟨hblind, hir, h.shown⟩
    · obtain rfl : 0x13 = id := Option.some.inj (hreport.symm.trans hid)
      cases hset with
      | same h13 => exact h13.2 rfl
      | camera => exact hencodable.sighted ⟨hblind, decide_eq_true hon, h.shown⟩
  · exact absurd rfl hrefused

end Reports

section Sessions

variable {T : Type} [Transport T] {first : Wii} {transport : T} {session : ℕ} {limits : Limits}

abbrev Session (T : Type) := Runtime Wii T WiiRemoteState RawReverseEvent

/-- A condition on the report of a host, which a get does not have. -/
inductive Heard (C : Report → Prop) : HostEvent → Prop where
  | output {report : Report} : C report → Heard C (.output report)
  | set {token : RequestId} {report : Report} : C report → Heard C (.request ⟨token, .set report⟩)
  | get {token : RequestId} {kind : ReportType} {id : Option UInt8} :
      Heard C (.request ⟨token, .get kind id⟩)

/-- What a service call hears from its host meets `C` beside both states. -/
def Hears (C : Wii → WiiRemoteState → Report → Prop) (now : ℕ) (rt : Session T) : Prop :=
  ∀ e, arrival now rt = some e → Heard (C rt.protocol rt.state) e

/-- The sessions that calls of the application and reports of the host lead to, where the reports meet
`C`. -/
inductive Reached (C : Wii → WiiRemoteState → Report → Prop) (first : Wii) (transport : T)
    (session : ℕ) (limits : Limits) : Session T → Prop where
  | new {rt : Session T} : Runtime.new first transport session limits = .ok rt →
      Reached C first transport session limits rt
  | update {rt : Session T} (edit : Fallible.Action Error WiiRemoteState Unit) :
      Reached C first transport session limits rt →
      Reached C first transport session limits (update edit rt).2
  | attach {rt : Session T} (extension : WiiExtension) (motionPlus : Bool) (now : ℕ) :
      Reached C first transport session limits rt →
      Reached C first transport session limits
        (updateProtocol (settle (changeAttachment extension motionPlus now)) rt).2
  | service {rt : Session T} (now : ℕ) : Reached C first transport session limits rt →
      Hears C now rt → Reached C first transport session limits (service now rt).2
  | takeObservations {rt : Session T} : Reached C first transport session limits rt →
      Reached C first transport session limits (HidRuntime.takeObservations (P := Wii) rt).2
  | close {rt : Session T} : Reached C first transport session limits rt →
      Reached C first transport session limits (HidRuntime.close (P := Wii) rt).2

/-- A host that leaves the application its points in sight. -/
def Sighted (w : Wii) (state : WiiRemoteState) (report : Report) : Prop := ¬Surprises w state report

/-- The errors of a service whose transport reports no invalid state of its own. -/
def Excused (T : Type) [Transport T] (e : Error) : Prop :=
  e ≠ .invalidState ∨ ∃ t : T, (Transport.event t).1 = .error .invalidState

/-- The personality that a service call asks for input. -/
def answering (now : ℕ) (rt : Session T) : Wii :=
  match arrival now rt with
  | none => rt.protocol
  | some event => hears rt.protocol event now

theorem report_fits {w : Wii} {state : WiiRemoteState} {report : Report} {now : ℕ} (h : Fits state w)
    (hcalm : Sighted w state report) :
    Fits state (accept report now w).2 ∧ w.pending <+: (accept report now w).2.pending := by
  rcases hrun : accept report now w with ⟨result, w'⟩
  rcases accept_turn hrun with ⟨_, haccepted⟩ | ⟨_, rfl⟩
  · obtain ⟨queued, hadds, _⟩ := accepted_adds haccepted
    exact ⟨h.accept haccepted hcalm, ⟨queued, hadds.pending_eq.symm⟩⟩
  · exact ⟨h, List.prefix_rfl⟩

theorem hears_fits {w : Wii} {state : WiiRemoteState} {event : HostEvent} {now : ℕ} (h : Fits state w)
    (hheard : Heard (Sighted w state) event) : Fits state (hears w event now) ∧
      w.pending <+: (hears w event now).pending := by
  cases hheard with
  | output hcalm => exact report_fits h hcalm
  | set hcalm => exact report_fits h hcalm
  | get => exact ⟨h, List.prefix_rfl⟩

/-- An input call sends the whole queue. -/
theorem sends_fits {w : Wii} {state : WiiRemoteState} {now : ℕ} (h : Fits state w) :
    ∃ reports w', (Protocol.input state now w : Except Error (List Report) × Wii) = (.ok reports, w') ∧
      Fits state w' ∧ w.pending <:+: reports := by
  rcases hrun : inputReports state now w with ⟨result, w'⟩
  rcases input_turn h.sound.nonzero hrun with ⟨reports, rfl, _, hsent⟩ | ⟨_, hinvalid, _⟩
  · refine ⟨reports, w', ?_, h.input hsent, ?_⟩
    · change (fatal (inputReports state now w).1, (inputReports state now w).2) = _
      rw [hrun]
      rfl
    · cases hsent with
      | silent haway =>
        have hpending := h.sound.hushed haway
        exact hpending ▸ List.nil_infix
      | @batch chunks data _ _ _ _ _ =>
        exact ⟨greeting w state, chunks ++ data, (List.append_assoc _ _ _).symm⟩
  · exact absurd h.valid hinvalid

theorem serves {rt : Session T} {now : ℕ} (h : Fits rt.state rt.protocol) (hhears : Hears Sighted now rt) :
    Serves T (· = rt.protocol) (Fits rt.state) (Excused T) now rt.state rt.limits (arrival now rt) := by
  constructor
  · exact ⟨.inl (by decide), .inl (by decide), .inl (by decide), .inl (by decide)⟩
  · intro t e he
    by_cases hinvalid : e = .invalidState
    · exact .inr ⟨t, hinvalid ▸ he⟩
    · exact .inl hinvalid
  · intro p command delivery hp
    exact hp
  · intro p command delivery hp
    exact hp
  · rintro p rfl
    exact h
  · rintro p e rfl he
    exact (hears_fits h (hhears e he)).1
  · intro p report error _ _ herror
    have hheed : heed report (accept report now p).1 = .error error := herror
    left
    rintro rfl
    unfold heed at hheed
    split at hheed <;> cases hheed
  · intro p hp
    obtain ⟨reports, w', hrun, hfits, _⟩ := sends_fits hp
    rw [hrun]
    exact ⟨hfits, fun _ => .inl (by decide), fun _ => .inl (by decide)⟩

omit [Transport T] in
theorem update_fits {rt : Session T} {edit : Fallible.Action Error WiiRemoteState Unit}
    (h : rt.closed = true ∨ Fits rt.state rt.protocol) :
    (update edit rt).2.closed = true ∨ Fits (update edit rt).2.state (update edit rt).2.protocol := by
  unfold update
  rw [Fallible.get_bind_run]
  split
  · exact h
  · next hopen =>
    rcases edit rt.state with ⟨error | _, candidate⟩
    · exact h
    · dsimp only
      cases hvalid : (Protocol.validate rt.protocol candidate : Except Error Unit) with
      | error error => exact h
      | ok _ => exact .inr ⟨(h.resolve_left hopen).sound, validate_ok hvalid⟩

omit [Transport T] in
theorem attach_fits {rt : Session T} {extension : WiiExtension} {motionPlus : Bool} {now : ℕ}
    (h : rt.closed = true ∨ Fits rt.state rt.protocol) :
    (updateProtocol (settle (changeAttachment extension motionPlus now)) rt).2.closed = true ∨
      Fits (updateProtocol (settle (changeAttachment extension motionPlus now)) rt).2.state
        (updateProtocol (settle (changeAttachment extension motionPlus now)) rt).2.protocol := by
  unfold updateProtocol settle
  rw [Fallible.get_bind_run]
  split
  · exact h
  · next hopen =>
    rcases hrun : changeAttachment extension motionPlus now rt.protocol with ⟨result, candidate⟩
    rcases attachment_turn hrun with ⟨rfl, hattached⟩ | ⟨hrefused, rfl⟩
    · dsimp only [fatal]
      cases hvalid : (Protocol.validate candidate rt.state : Except Error Unit) with
      | error error => exact h
      | ok _ => exact .inr ⟨(h.resolve_left hopen).sound.attach hattached, validate_ok hvalid⟩
    · cases result with
      | ok _ => exact absurd rfl hrefused
      | error error => exact h
      | panicked => exact h

theorem service_fits {rt : Session T} {now : ℕ} (h : rt.closed = true ∨ Fits rt.state rt.protocol)
    (hhears : Hears Sighted now rt) : (service now rt).2.closed = true ∨
      Fits (service now rt).2.state (service now rt).2.protocol := by
  rcases h with hclosed | hfits
  · unfold service
    rw [if_pos hclosed]
    exact .inl hclosed
  · have hservice := service_holds (serves hfits hhears) rfl
    rcases hrun : service now rt with ⟨error | output, t⟩
    · rw [hrun] at hservice
      rcases hservice.2 with hclosed | hholds
      · exact .inl hclosed
      · right
        rw [hholds.state_eq]
        exact hholds.personality
    · rw [hrun] at hservice
      right
      rw [hservice.state_eq]
      exact hservice.personality

theorem new_fits {rt : Session T} (hsound : Sound first)
    (h : Runtime.new first transport session limits = .ok rt) : Fits rt.state rt.protocol := by
  unfold Runtime.new at h
  dsimp only at h
  split at h
  · cases h
  · split at h
    · cases h
    · next hvalid =>
      cases h
      exact ⟨hsound, validate_ok hvalid⟩

/-- Every open session that has not lost its points keeps a state that its personality can report. -/
theorem reached_fits {rt : Session T} (hsound : Sound first)
    (h : Reached Sighted first transport session limits rt) :
    rt.closed = true ∨ Fits rt.state rt.protocol := by
  induction h with
  | new hnew => exact .inr (new_fits hsound hnew)
  | update edit _ ih => exact update_fits ih
  | attach extension motionPlus now _ ih => exact attach_fits ih
  | service now _ hhears ih => exact service_fits ih hhears
  | takeObservations _ ih => exact ih
  | close _ _ => exact .inl (HidRuntimeLifetime.close_closed _)

/-- No reply of an open session waits for a report that cannot be generated. -/
structure Unstranded (rt : Session T) : Prop where
  encodable : Encodable rt.protocol.mode rt.state rt.protocol.irEnabled.1
  serviced : ∀ now, Hears Sighted now rt → (service now rt).1 = .error .invalidState →
    ∃ t : T, (Transport.event t).1 = .error .invalidState
  queued : ∀ now, Hears Sighted now rt → rt.protocol.pending <+: (answering now rt).pending
  sent : ∀ now, Hears Sighted now rt → ∃ reports w',
    (Protocol.input rt.state now (answering now rt) : Except Error (List Report) × Wii) =
      (.ok reports, w') ∧ (answering now rt).pending <:+: reports
  /-- The condition is exact. -/
  sighted : ∀ report now, Sighted rt.protocol rt.state report ↔
    Encodable (accept report now rt.protocol).2.mode rt.state
      (accept report now rt.protocol).2.irEnabled.1

theorem answering_fits {rt : Session T} {now : ℕ} (h : Fits rt.state rt.protocol)
    (hhears : Hears Sighted now rt) : Fits rt.state (answering now rt) ∧
      rt.protocol.pending <+: (answering now rt).pending := by
  unfold answering
  cases harrival : arrival now rt with
  | none => exact ⟨h, List.prefix_rfl⟩
  | some e => exact hears_fits h (hhears e harrival)

/-- A session whose host takes no shown point out of sight strands no reply. -/
theorem unstranded {rt : Session T} {revision : WiiRemoteRevision} {image : WiiEepromImage}
    {options : WiiRemoteCreationOptions}
    (h : Reached Sighted (hidProtocol revision image options) transport session limits rt)
    (hopen : rt.closed = false) : Unstranded rt := by
  have hfits : Fits rt.state rt.protocol := by
    rcases reached_fits (new_sound revision image options) h with hclosed | hfits
    · rw [hopen] at hclosed
      cases hclosed
    · exact hfits
  constructor
  · exact hfits.valid.encodable
  · intro now hhears hservice
    have hspec := service_holds (serves hfits hhears) rfl
    rcases hrun : service now rt with ⟨error | output, t⟩
    · rw [hrun] at hspec hservice
      obtain rfl : error = .invalidState := Except.error.inj hservice
      rcases hspec.1 with hclosed | hreversed | hexcused
      · cases hclosed
      · cases hreversed
      · exact hexcused.resolve_left (not_not.mpr rfl)
    · rw [hrun] at hservice
      cases hservice
  · intro now hhears
    exact (answering_fits hfits hhears).2
  · intro now hhears
    obtain ⟨reports, w', hrun, _, hsent⟩ := sends_fits (answering_fits hfits hhears).1
    exact ⟨reports, w', hrun, hsent⟩
  · intro report now
    constructor
    · intro hsighted
      exact (report_fits hfits hsighted).1.valid.encodable
    · intro hencodable hsurprises
      obtain ⟨w', hrun, hblind⟩ : ∃ w', accept report now rt.protocol = (.ok (), w') ∧
          ¬Encodable w'.mode rt.state w'.irEnabled.1 :=
        surprised hfits.valid.encodable.known hsurprises
      rw [hrun] at hencodable
      exact hblind hencodable

/-- The camera is switched on, then a mode without a point size is chosen, with an acknowledgement. -/
def script : Scripted :=
  ⟨[.output ⟨.output, some 0x13, [4], by decide⟩, .output ⟨.output, some 0x12, [2, 0x33], by decide⟩], []⟩

/-- A session of the script, as it is opened. -/
def opened : Session Scripted :=
  { protocol := hidProtocol .original .default .default, transport := script, state := .new .original
    dirty := true, pending := [], observations := [], droppedObservations := 0, reply := none
    session := 7, lastRequest := none, now := 0, closed := false, closeError := none
    limits := .default, calls := [] }

theorem new_opened : Runtime.new (hidProtocol .original .default .default) script 7 .default =
    .ok opened := by
  have hvalid : (Protocol.validate (hidProtocol .original .default .default)
      (Protocol.neutral (hidProtocol .original .default .default)) : Except Error Unit) = .ok () := by
    decide +kernel
  unfold Runtime.new
  rw [if_neg (by decide), hvalid]
  rfl

theorem centred : (512 : UInt16) ≤ 1023 ∧ (384 : UInt16) ≤ 767 := by decide

/-- The application shows a point. -/
def aim : Fallible.Action Error WiiRemoteState Unit := fun state =>
  (.ok (), { state with ir := #v[some ⟨512, 384, centred⟩, none, none, none] })

/-- The camera is on, and the application shows a point that no input call has carried yet. -/
def aimed : Session Scripted := (update aim (service 0 opened).2).2

theorem arrival_opened :
    arrival 0 opened = some (.output ⟨.output, some 0x13, [4], by decide⟩) := by
  decide +kernel

theorem arrival_aimed :
    arrival 1 aimed = some (.output ⟨.output, some 0x12, [2, 0x33], by decide⟩) := by
  decide +kernel

theorem reached_aimed : Reached Sighted (hidProtocol .original .default .default) script 7 .default
    aimed := by
  refine .update aim (.service 0 (.new new_opened) ?_)
  intro e he
  obtain rfl := Option.some.inj (arrival_opened.symm.trans he)
  refine .output fun hsurprises => ?_
  have hshown : opened.state.visible = true := hsurprises.shown
  have hdark : opened.state.visible = false := by decide +kernel
  rw [hdark] at hshown
  cases hshown

/-- The camera can be switched on before a point is shown. -/
theorem unstranded_aimed : Unstranded aimed :=
  unstranded reached_aimed (by decide +kernel)

/-- A chosen mode is checked against the state of the last input call, a shown point against the mode. -/
theorem stranded : ∃ rt : Session Scripted,
    Reached (fun _ _ _ => True) (hidProtocol .original .default .default) script 7 .default rt ∧
      rt.closed = false ∧ rt.protocol.pending ≠ [] ∧
      ¬Encodable rt.protocol.mode rt.state rt.protocol.irEnabled.1 ∧
      (service 2 rt).1 = .error .invalidState := by
  have hany {rt : Session Scripted} {now : ℕ} {report : Report}
      (h : arrival now rt = some (.output report)) : Hears (fun _ _ _ => True) now rt := by
    intro e he
    obtain rfl := Option.some.inj (h.symm.trans he)
    exact .output trivial
  have hopened := Reached.service 0 (.new new_opened) (hany arrival_opened)
  refine ⟨(service 1 aimed).2, .service 1 (.update aim hopened) (hany arrival_aimed), ?_, ?_, ?_, ?_⟩
  · decide +kernel
  · decide +kernel
  · intro h
    have hmode : (service 1 aimed).2.protocol.mode = 0x33 := by decide +kernel
    have hshown : (service 1 aimed).2.protocol.irEnabled.1 = true ∧
      (service 1 aimed).2.state.visible = true := by decide +kernel
    exact h.sighted ⟨.inl hmode, hshown⟩
  · decide +kernel

end Sessions

end WiiSession
