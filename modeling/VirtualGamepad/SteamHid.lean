import VirtualGamepad.ControllerContract
import VirtualGamepad.SteamFeatureExchange
import VirtualGamepad.SteamStreamingAccounts

/-! The HID personality of a Steam Controller around its protocol, with the snapshot of the host's requests
that the application reads. -/
namespace SteamHid

open ControllerContract HidRuntime Panicking SteamController SteamStreaming

section Polling

open Fallible

variable {s : StreamState} {now : ℕ} {i : Fin 4}

theorem feedback_adds {t : StreamState} (status : UInt8) (hsame : t.feedback = s.feedback)
    (h : s.feedback.length < maxFeedback) :
    Meets (feedback i status t) (fun _ u => u.feedback.length ≤ s.feedback.length + 1)
      (fun _ _ => False) := by
  rw [← hsame] at h ⊢
  unfold feedback
  rw [if_neg (Nat.not_le.mpr h)]
  exact List.length_append.le

theorem watermark_adds (h : s.feedback.length < maxFeedback) :
    Meets (watermark i s) (fun _ t => t.feedback.length ≤ s.feedback.length + 1) (fun _ _ => False) := by
  unfold watermark
  rw [meets_get_bind]
  by_cases hsame : mark (s.outputs.bufferedBytes i) (s.channels i).high = (s.channels i).high
  · rw [if_neg (not_not.mpr hsame)]
    exact Nat.le_succ _
  · rw [if_pos hsame, meets_modify_bind]
    cases mark (s.outputs.bufferedBytes i) (s.channels i).high with
    | none => exact Nat.le_succ _
    | some high => exact feedback_adds (s := s) _ rfl h

/-- A channel tells one thing at most. -/
theorem advanceOne_adds (h : s.feedback.length < maxFeedback) :
    Meets (advanceOne now i s) (fun _ t => t.feedback.length ≤ s.feedback.length + 1)
      (fun _ _ => False) := by
  unfold advanceOne
  rw [meets_get_bind]
  split
  · exact Nat.le_succ _
  · cases playFrom s now i with
    | none => exact Nat.le_succ _
    | some start =>
      dsimp only
      rw [meets_modify_bind, meets_get_bind]
      split
      · rw [meets_modify_bind]
        exact feedback_adds (s := s) _ rfl h
      · exact watermark_adds h

theorem advanceEach_adds (indices : List (Fin 4)) (h : s.feedback.length + indices.length ≤ maxFeedback) :
    Meets (advanceEach now indices s) (fun _ t => t.feedback.length ≤ s.feedback.length + indices.length)
      (fun _ _ => False) := by
  induction indices generalizing s with
  | nil => exact Nat.le_refl _
  | cons i indices ih =>
    rw [List.length_cons] at h
    unfold advanceEach
    refine meets_bind (advanceOne_adds (by omega)) ?_
    intro _ t ht
    refine (ih (by omega)).mono ?_ fun _ _ hu => hu
    intro _ u hu
    rw [List.length_cons]
    omega

/-- A poll has room for what all channels tell, and hands on what waited before it. -/
theorem poll_returns (now : ℕ) (s : StreamState) :
    Meets (poll now s) (fun reports _ => reports.length ≤ s.feedback.length + 4 ∧
      ∀ r ∈ reports, r.kind = .input) (fun _ _ => False) := by
  unfold poll
  have htaken : Meets (takeFeedback s) (fun pending t => pending = s.feedback ∧ t.feedback = [])
      (fun _ _ => False) := ⟨rfl, rfl⟩
  refine meets_bind htaken ?_
  rintro pending t ⟨rfl, ht⟩
  have hadvance : Meets (advance now t) (fun _ u => u.feedback.length ≤ 4) (fun _ _ => False) := by
    unfold advance
    have heach : Meets (advanceEach now (List.finRange 4) t) (fun _ u => u.feedback.length ≤ 4)
        (fun _ _ => False) := by
      have hroom : t.feedback.length + (List.finRange 4).length ≤ maxFeedback := by
        rw [ht]
        decide
      refine (advanceEach_adds (List.finRange 4) hroom).mono ?_ fun _ _ hu => hu
      intro _ u hu
      rw [ht] at hu
      exact hu
    exact meets_bind heach fun _ _ hu => hu
  refine meets_bind hadvance ?_
  intro _ u hu
  have hfresh : Meets (takeFeedback u) (fun fresh _ => fresh.length ≤ 4) (fun _ _ => False) := hu
  refine meets_bind hfresh ?_
  intro fresh v hv
  constructor
  · rw [List.length_map, List.length_append]
    omega
  · intro r hr
    obtain ⟨entry, _, rfl⟩ := List.mem_map.mp hr
    rfl

end Polling

section Protocol

open Panicking.Action

/-- The value of a computation that is known to succeed. -/
theorem no_error {ε α : Type} (e : ε) : ¬∃ a, (Outcome.error e : Outcome ε α) = .ok a := by
  rintro ⟨a, h⟩
  cases h

theorem no_panic {ε α : Type} : ¬∃ a, (Outcome.panicked : Outcome ε α) = .ok a := by
  rintro ⟨a, h⟩
  cases h

def value {ε α : Type} : (r : Outcome ε α) → (∃ a, r = .ok a) → α
  | .ok a, _ => a
  | .error e, h => absurd h (no_error e)
  | .panicked, h => absurd h no_panic

@[simp] theorem value_ok {ε α : Type} {r : Outcome ε α} {a : α} (hr : r = .ok a) (h : ∃ a, r = .ok a) :
    value r h = a := by
  subst hr
  rfl

variable {p : SteamProtocol} {report : Report} {now : ℕ}

theorem featureReport_numbered (wire : List UInt8) :
    (featureReport wire).Yields (fun r => r.kind = .feature ∧ r.id.isSome) (fun _ => True) True := by
  cases wire with
  | nil => exact trivial
  | cons id payload =>
    unfold featureReport Report.fromWire Report.new
    rw [if_pos rfl]
    dsimp only
    by_cases hframed : Framed (some id) payload
    · rw [dif_pos hframed]
      exact ⟨rfl, rfl⟩
    · rw [dif_neg hframed]
      exact trivial

/-- A feature report that is answered with is a numbered one. -/
theorem getFeature_numbered (p : SteamProtocol) :
    (getFeature p).Yields (fun r => r.kind = .feature ∧ r.id.isSome) (fun _ => True) True := by
  have hrest {r : Outcome ReplyError (List UInt8)} {f : List UInt8 → Outcome ReplyError Report}
      (h : ∀ wire, (f wire).Yields (fun r => r.kind = .feature ∧ r.id.isSome) (fun _ => True) True) :
      (r >>= f).Yields (fun r => r.kind = .feature ∧ r.id.isSome) (fun _ => True) True := by
    cases r with
    | ok wire => exact h wire
    | error e => exact trivial
    | panicked => exact trivial
  unfold getFeature
  split
  · exact featureReport_numbered _
  · dsimp only
    split
    · exact hrest fun _ => hrest fun _ => featureReport_numbered _
    · exact hrest fun _ => featureReport_numbered _
    · exact hrest fun _ => featureReport_numbered _
    · split
      · exact trivial
      · exact hrest fun _ => hrest fun _ => featureReport_numbered _
    · exact hrest fun _ => featureReport_numbered _
    · exact hrest fun _ => hrest fun _ => featureReport_numbered _
    · exact trivial

/-- What a protocol answers to a request, and that it keeps its serial number. -/
structure Replies (p : SteamProtocol) (kind : RequestKind) (now : ℕ) : Prop where
  returns : ∃ a, (p.request kind now).1 = .ok a
  serial : (p.request kind now).2.serial = p.serial
  valid : ∀ reply output, (p.request kind now).1 = .ok (reply, output) →
    validateReply kind reply = .ok ()

theorem frame_head (p : SteamProtocol) (q : Query) : (frame p q).head? = some 1 := by
  cases q with
  | serial => rfl
  | attributes =>
    change (if p.steamClientCompat = true then steamClientAttributes else padded 64 [1, 131, 2, 0, 0]).head? = _
    split
    · rfl
    · rfl
  | named name => rfl
  | ledColor => rfl
  | ledOverride => rfl
  | unsupported command => rfl

theorem request_feature {report : Report} (h : getFeature p = .ok report) :
    p.request (.get .feature (some 1)) now = (.ok (.get (.ok report), none), p) := by
  unfold SteamProtocol.request
  dsimp only
  rw [get_bind_run, if_pos ⟨rfl, rfl⟩, h]
  rfl

theorem request_featureless {e : ReplyError} (h : getFeature p = .error e) :
    p.request (.get .feature (some 1)) now = (.ok (.get (.error e), none), p) := by
  unfold SteamProtocol.request
  dsimp only
  rw [get_bind_run, if_pos ⟨rfl, rfl⟩, h]
  rfl

/-- A request that is answered like this leaves the protocol as it is. -/
theorem replies_of_get {result : Except ReplyError Report} {kind : ReportType} {id : Option UInt8}
    (hrun : p.request (.get kind id) now = (.ok (.get result, none), p))
    (hvalid : validateReply (.get kind id) (.get result) = .ok ()) : Replies p (.get kind id) now := by
  constructor
  · rw [hrun]
    exact ⟨_, rfl⟩
  · rw [hrun]
  · intro reply output hreply
    rw [hrun] at hreply
    cases hreply
    exact hvalid

theorem request_replies (kind : RequestKind) (now : ℕ) (h : p.serial.length ≤ 21) :
    Replies p kind now := by
  cases kind with
  | get kind id =>
    by_cases hfeature : kind = .feature ∧ id = some 1
    · obtain ⟨rfl, rfl⟩ := hfeature
      have hspec := getFeature_spec h
      cases hq : p.query with
      | none =>
        rw [hq] at hspec
        exact replies_of_get (request_featureless hspec) rfl
      | some q =>
        rw [hq] at hspec
        obtain ⟨report, hget, hkind, hwire⟩ := hspec
        have hnumbered := getFeature_numbered p
        rw [hget] at hnumbered
        obtain ⟨id, hid⟩ := Option.isSome_iff_exists.mp hnumbered.2
        have hone : report.id = some 1 := by
          have hhead := frame_head p q
          rw [← hwire, Report.wire, hid] at hhead
          rw [hid]
          exact hhead
        refine replies_of_get (request_feature hget) ?_
        change (if report.kind = .feature ∧ report.id = some 1 then _ else _) = _
        rw [if_pos ⟨hkind, hone⟩]
    · exact replies_of_get (request_get_other hfeature) rfl
  | set report =>
    obtain ⟨result, output, p', hrun, hset⟩ := request_set report now p
    constructor
    · rw [hrun]
      exact ⟨_, rfl⟩
    · rw [hrun]
      exact hset.serial
    · intro reply output hreply
      rw [hrun] at hreply
      cases hreply
      rfl

theorem output_spec (report : Report) (now : ℕ) (p : SteamProtocol) :
    Meets (SteamProtocol.output report now p) (fun _ => Settled p) (fun _ p' => p' = p) False := by
  have hspec := acceptOutput_spec report now p
  unfold SteamProtocol.output
  rcases ha : acceptOutput report now p with ⟨haptic | e | _, p'⟩
  · rw [ha] at hspec
    rw [bind_run_ok (attempt_ok ha)]
    exact hspec
  · rw [ha] at hspec
    rw [bind_run_ok (attempt_error ha)]
    exact hspec
  · rw [ha] at hspec
    exact absurd hspec id

theorem poll_attempted {E : Error → SteamProtocol → Prop} (now : ℕ) (p : SteamProtocol) :
    Meets (attempt (onStream (poll now)) p) (fun result p' => ∃ reports, result = .ok reports ∧
      p' = { p with stream := p'.stream } ∧ reports.length ≤ p.stream.feedback.length + 4 ∧
        ∀ r ∈ reports, r.kind = .input) E False := by
  have hpoll := poll_returns now p.stream
  rcases hrun : poll now p.stream with ⟨e | reports, stream⟩
  · rw [hrun] at hpoll
    exact absurd hpoll id
  · rw [hrun] at hpoll
    have hstream : onStream (poll now) p = (.ok reports, { p with stream }) := by
      unfold onStream
      rw [hrun]
    rw [attempt_ok hstream]
    exact ⟨reports, rfl, rfl, hpoll.1, hpoll.2⟩

/-- What an input call makes of a protocol. Its own statuses always fit. -/
structure Polled (p : SteamProtocol) (reports : List Report) (p' : SteamProtocol) : Prop where
  serial : p'.serial = p.serial
  outputs : p'.outputs = p.outputs
  stopped : p'.stopped = p.stopped
  silent : p.stopped = true → reports = []
  length : reports.length ≤ p.stream.feedback.length + 5
  kinds : ∀ r ∈ reports, r.kind = .input

theorem input_spec (state : State) (now : ℕ) (p : SteamProtocol) :
    Meets (SteamProtocol.input state now p) (fun reports p' => Polled p reports p')
      (fun _ p' => p' = p) False := by
  unfold SteamProtocol.input
  rw [get_bind_run]
  cases p.validate state with
  | error e => rfl
  | ok _ =>
    change Meets (((lift (.ok ())) >>= fun _ => (_ : Action Error SteamProtocol (List Report))) p) _ _ _
    rw [lift_ok_bind_run]
    by_cases hstopped : p.stopped = true
    · rw [if_pos hstopped]
      exact ⟨rfl, rfl, rfl, fun _ => rfl, Nat.zero_le _, List.forall_mem_nil _⟩
    · rw [if_neg hstopped, modify_bind_run, modify_bind_run]
      refine meets_bind (poll_attempted now _) ?_
      rintro result p' ⟨reports, rfl, hp, hlength, hkinds⟩
      rw [hp]
      refine ⟨rfl, rfl, rfl, fun h => absurd h hstopped, ?_, ?_⟩
      · rw [List.length_cons]
        change reports.length ≤ p.stream.feedback.length + 4 at hlength
        omega
      · intro r hr
        rcases List.mem_cons.mp hr with rfl | hr
        · rfl
        · exact hkinds r hr

end Protocol

section Personality

/-- The host's requests as the application sees them, with a revision that wraps. -/
structure SteamController2026Outputs where
  revision : ℕ
  haptics : Fin 6 → Option Haptic
  streaming : StreamOutputs
  ledBrightness : Option UInt16
  ledOverride : Option Bool
  ledRgbw : Option (List UInt8)
  deriving DecidableEq

def SteamController2026Outputs.default : SteamController2026Outputs :=
  ⟨0, fun _ => none, .default, none, none, none⟩

def SteamController2026Outputs.retain (outputs : SteamController2026Outputs) (reportId : Option UInt8)
    (haptic : Haptic) : SteamController2026Outputs :=
  match haptic with
  | .stream packet =>
    { outputs with
      streaming := { outputs.streaming with lastPacket := some packet }
      revision := (outputs.revision + 1) % 2 ^ 64 }
  | haptic =>
    match hapticIndex reportId with
    | none => outputs
    | some index =>
      if outputs.haptics index ≠ some haptic then
        { outputs with
          haptics := Function.update outputs.haptics index (some haptic)
          revision := (outputs.revision + 1) % 2 ^ 64 }
      else outputs

/-- The serial number of a configuration has 21 bytes at most. -/
structure SteamHidProtocol where
  protocol : SteamProtocol
  outputs : SteamController2026Outputs
  serial : protocol.serial.length ≤ 21

namespace SteamHidProtocol

/-- The protocol after a call, which keeps its serial number. -/
def moved (p : SteamHidProtocol) (protocol : SteamProtocol) (h : protocol.serial = p.protocol.serial) :
    SteamHidProtocol :=
  ⟨protocol, p.outputs, h ▸ p.serial⟩

def brightness (p : SteamProtocol) : Option UInt16 := p.outputs.compatSettings.get 45

def overriding (p : SteamProtocol) : Option Bool :=
  (p.outputs.compatSettings.get 37).map fun value => decide (value ≠ 0)

/-- Brings the snapshot up to date with the protocol. -/
def syncOutputs (p : SteamHidProtocol) : SteamHidProtocol :=
  if p.outputs.streaming ≠ p.protocol.stream.outputs ∨ p.outputs.ledBrightness ≠ brightness p.protocol ∨
      p.outputs.ledOverride ≠ overriding p.protocol ∨ p.outputs.ledRgbw ≠ p.protocol.outputs.rgbw then
    { p with outputs := { p.outputs with
        streaming := p.protocol.stream.outputs
        ledBrightness := brightness p.protocol
        ledOverride := overriding p.protocol
        ledRgbw := p.protocol.outputs.rgbw
        revision := (p.outputs.revision + 1) % 2 ^ 64 } }
  else p

def retain (p : SteamHidProtocol) (report : Report) (haptic : Haptic) : SteamHidProtocol :=
  { p with outputs := p.outputs.retain report.id haptic }

def withStreamingOptions (serial : List UInt8) (h : serial.length ≤ 21)
    (steamClientCompat hapticStreaming : Bool) : SteamHidProtocol :=
  syncOutputs ⟨.new serial steamClientCompat hapticStreaming, .default, h⟩

theorem input_serial (state : State) (now : ℕ) (p : SteamProtocol) :
    (SteamProtocol.input state now p).1 ≠ .panicked ∧
      (SteamProtocol.input state now p).2.serial = p.serial := by
  have hspec := input_spec state now p
  rcases hrun : SteamProtocol.input state now p with ⟨reports | e | _, p'⟩
  · rw [hrun] at hspec
    exact ⟨fun h => (by cases h), hspec.serial⟩
  · rw [hrun] at hspec
    exact ⟨fun h => (by cases h), congrArg SteamProtocol.serial hspec⟩
  · rw [hrun] at hspec
    exact absurd hspec id

theorem output_serial (report : Report) (now : ℕ) (p : SteamProtocol) :
    (SteamProtocol.output report now p).1 ≠ .panicked ∧
      (SteamProtocol.output report now p).2.serial = p.serial := by
  have hspec := output_spec report now p
  rcases hrun : SteamProtocol.output report now p with ⟨output | e | _, p'⟩
  · rw [hrun] at hspec
    exact ⟨fun h => (by cases h), hspec.serial⟩
  · rw [hrun] at hspec
    exact ⟨fun h => (by cases h), congrArg SteamProtocol.serial hspec⟩
  · rw [hrun] at hspec
    exact absurd hspec id

theorem lifecycle_serial (event : Lifecycle) (now : ℕ) (p : SteamProtocol) :
    (p.lifecycle event now).serial = p.serial := by
  cases event with
  | start _ _ _ => rfl
  | stop => rfl
  | «open» => rfl
  | close => rfl

def input (state : State) (now : ℕ) : Fallible.Action Error SteamHidProtocol (List Report) := fun p =>
  let safe := input_serial state now p.protocol
  ((SteamProtocol.input state now p.protocol).1.returned safe.1,
    (p.moved (SteamProtocol.input state now p.protocol).2 safe.2).syncOutputs)

def request (p : SteamHidProtocol) (kind : RequestKind) (now : ℕ) :
    (Reply × Option RawReverseEvent) × SteamHidProtocol :=
  let replies := request_replies kind now p.serial
  let answer := value (p.protocol.request kind now).1 replies.returns
  let next := p.moved (p.protocol.request kind now).2 replies.serial
  match answer.2, kind with
  | some haptic, .set report => ((answer.1, some (observe report)), (next.retain report haptic).syncOutputs)
  | _, _ => ((answer.1, none), next.syncOutputs)

def output (report : Report) (now : ℕ) : Fallible.Action Error SteamHidProtocol (Option RawReverseEvent) :=
  fun p =>
    let safe := output_serial report now p.protocol
    let next := p.moved (SteamProtocol.output report now p.protocol).2 safe.2
    match (SteamProtocol.output report now p.protocol).1.returned safe.1 with
    | .ok (some haptic) => (.ok (some (observe report)), (next.retain report haptic).syncOutputs)
    | .ok none => (.ok none, next.syncOutputs)
    | .error e => (.error e, next.syncOutputs)

def lifecycle (p : SteamHidProtocol) (event : Lifecycle) (now : ℕ) : SteamHidProtocol :=
  (p.moved (p.protocol.lifecycle event now) (lifecycle_serial event now p.protocol)).syncOutputs

end SteamHidProtocol

instance : Protocol SteamHidProtocol State RawReverseEvent where
  neutral _ := .default
  validate p state := p.protocol.validate state
  input := SteamHidProtocol.input
  deadline p := p.protocol.deadline
  request p kind now := p.request kind now
  output report now := SteamHidProtocol.output report now
  lifecycle p event now := (some (.hidLifecycle event), p.lifecycle event now)
  delivered p _ _ := p

end Personality

end SteamHid
