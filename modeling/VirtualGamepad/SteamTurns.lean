import VirtualGamepad.SteamHid

/-! What each call of the host and of the application makes of a Steam protocol, said once. -/
namespace SteamTurns

open HidRuntime (Reply ReplyError Report ReportType RequestKind)
open Panicking Panicking.Action SteamController SteamHid SteamStreaming

section Commands

variable {p : SteamProtocol} {b : List UInt8}

theorem applySetting_haptics {compat : Bool} {key : UInt8} {value : UInt16} {next outputs : Outputs}
    (h : applySetting compat key value next = .ok outputs) : outputs.haptics = next.haptics := by
  have hlast {kept : Outputs}
      (h : (if compat = true then Except.ok { kept with compatSettings := kept.compatSettings.insert key value }
        else Except.ok kept : Except ReplyError Outputs) = .ok outputs)
      (hkept : kept.haptics = next.haptics) : outputs.haptics = next.haptics := by
    split at h
    · cases h
      exact hkept
    · cases h
      exact hkept
  unfold applySetting at h
  dsimp only [bind, Except.bind] at h
  by_cases hlizard : key = 9
  · rw [if_pos hlizard] at h
    by_cases hvalue : value ≤ 1
    · rw [if_pos hvalue] at h
      exact hlast h rfl
    · rw [if_neg hvalue] at h
      cases h
  rw [if_neg hlizard] at h
  by_cases hoverride : key = 37 ∧ compat = true
  · rw [if_pos hoverride] at h
    by_cases hvalue : value ≤ 1
    · rw [if_pos hvalue] at h
      exact hlast h rfl
    · rw [if_neg hvalue] at h
      cases h
  rw [if_neg hoverride] at h
  by_cases himu : key = 48
  · rw [if_pos himu] at h
    exact hlast h rfl
  rw [if_neg himu] at h
  by_cases hwatchdog : key = 71
  · rw [if_pos hwatchdog] at h
    exact hlast h rfl
  rw [if_neg hwatchdog] at h
  by_cases hknown : compat = true ∧ key ∈ steamClientSettingKeys
  · rw [if_pos hknown] at h
    exact hlast h rfl
  · rw [if_neg hknown] at h
    cases h

theorem applySettings_haptics {compat : Bool} {settings : List UInt8} {next outputs : Outputs}
    (h : applySettings compat settings next = .ok outputs) : outputs.haptics = next.haptics := by
  induction settings, next using applySettings.induct with
  | case1 key low high rest next ih =>
    unfold applySettings at h
    cases hone : applySetting compat key (le low high) next with
    | error e =>
      rw [hone] at h
      cases h
    | ok kept =>
      rw [hone] at h
      exact (ih kept h).trans (applySetting_haptics hone)
  | case2 settings next hshort =>
    rw [applySettings] at h
    · cases h
      rfl
    · exact hshort

/-- No command touches the haptics. -/
theorem command_haptics (b : List UInt8) (p : SteamProtocol) :
    Meets (command b p) (fun next _ => next.haptics = p.outputs.haptics) (fun _ _ => True) True := by
  have hlift {α : Type} {r : Outcome ReplyError α} {f : α → Call Outputs}
      (h : ∀ a, Meets (f a p) (fun next _ => next.haptics = p.outputs.haptics) (fun _ _ => True) True) :
      Meets ((lift r >>= f) p) (fun next _ => next.haptics = p.outputs.haptics) (fun _ _ => True) True := by
    cases r with
    | ok a => exact h a
    | error e => exact trivial
    | panicked => exact trivial
  have hite {c : Prop} [Decidable c] {m n : Call Outputs}
      (hm : Meets (m p) (fun next _ => next.haptics = p.outputs.haptics) (fun _ _ => True) True)
      (hn : Meets (n p) (fun next _ => next.haptics = p.outputs.haptics) (fun _ _ => True) True) :
      Meets ((if c then m else n) p) (fun next _ => next.haptics = p.outputs.haptics)
        (fun _ _ => True) True := by
    rw [ite_run]
    split
    · exact hm
    · exact hn
  unfold command
  rw [get_bind_run]
  refine hlift fun name => hlift fun size => hlift fun third => hlift fun fourth => ?_
  refine hite rfl (hite rfl (hite rfl (hite rfl (hite rfl (hite ?_ (hite ?_ ?_))))))
  · exact hite trivial (hlift fun rgbw => rfl)
  · exact hite trivial rfl
  refine hite rfl (hite rfl (hite rfl (hite rfl (hite ?_ (hite trivial trivial)))))
  refine hite trivial (hlift fun settings => ?_)
  cases happly : applySettings p.steamClientCompat settings p.outputs with
  | ok next => exact applySettings_haptics happly
  | error e => exact trivial

theorem commit_haptics (next : Outputs) (p : SteamProtocol) (h : next.haptics = p.outputs.haptics) :
    (commit next p).2.outputs.haptics = p.outputs.haptics := by
  unfold commit Action.modify
  dsimp only
  split
  · exact h
  · rfl

theorem feature_haptics (report : Report) (p : SteamProtocol) :
    Meets (feature report p) (fun _ p' => p'.outputs.haptics = p.outputs.haptics)
      (fun _ _ => True) True := by
  unfold feature
  rw [modify_bind_run]
  by_cases hid : report.kind ≠ .feature ∨ report.id ≠ some 1
  · rw [if_pos hid]
    exact trivial
  rw [if_neg hid]
  by_cases hlength : report.payload.length = 63
  · rw [if_neg (not_not.mpr hlength)]
    obtain ⟨r, hrun, _⟩ := command_spec (p := { p with query := none }) hlength rfl
    have hhaptics := command_haptics report.payload { p with query := none }
    cases r with
    | ok next =>
      rw [hrun] at hhaptics
      rw [bind_run_ok hrun]
      exact commit_haptics next _ hhaptics
    | error e =>
      rw [bind_run_error hrun]
      exact trivial
    | panicked =>
      rw [bind_run_panicked hrun]
      exact trivial
  · rw [if_pos hlength]
    exact trivial

end Commands

section Turns

variable {p p' : SteamProtocol} {report : Report} {now : ℕ}

/-- What an accepted output report changes: the stream that it is for, or the haptic of its slot. -/
inductive Heard (p : SteamProtocol) (report : Report) (now : ℕ) : Haptic → SteamProtocol → Prop where
  | stream {packet : StreamPacket} {stream : StreamState} :
      SteamStreaming.accept packet now p.stream = (.ok (), stream) →
      Heard p report now (.stream packet) { p with stream }
  | slot {haptic : Haptic} {index : Fin 6} : hapticIndex report.id = some index →
      (∀ packet, haptic ≠ .stream packet) → Heard p report now haptic (retainHaptic index haptic p)

theorem takeHaptic_heard {haptic : Haptic} (hdecode : Haptic.decode report = .ok haptic) :
    Meets (takeHaptic report now haptic p) (fun _ p' => Heard p report now haptic p')
      (fun _ p' => p' = p) False := by
  have hslot (hplain : ∀ packet, haptic ≠ .stream packet) :
      Meets (slotHaptic (hapticIndex report.id) haptic p) (fun _ p' => Heard p report now haptic p')
        (fun _ p' => p' = p) False := by
    obtain ⟨i, hi⟩ := (decode_index hdecode).resolve_left fun ⟨packet, h⟩ => hplain packet h
    rw [hi]
    exact Heard.slot hi hplain
  unfold takeHaptic
  cases haptic with
  | stream packet =>
    dsimp only
    unfold onStream
    rcases haccept : SteamStreaming.accept packet now p.stream with ⟨e | _, stream⟩
    · obtain rfl := SteamStreaming.accept_error haccept
      rfl
    · exact .stream haccept
  | rumble => exact hslot fun packet h => (by cases h)
  | pulse => exact hslot fun packet h => (by cases h)
  | command => exact hslot fun packet h => (by cases h)
  | lfo => exact hslot fun packet h => (by cases h)
  | sweep => exact hslot fun packet h => (by cases h)
  | script => exact hslot fun packet h => (by cases h)

theorem acceptOutput_heard (report : Report) (now : ℕ) (p : SteamProtocol) :
    Meets (acceptOutput report now p)
      (fun haptic p' => Haptic.decode report = .ok haptic ∧ Heard p report now haptic p')
      (fun _ p' => p' = p) False := by
  unfold acceptOutput
  rw [get_bind_run]
  split
  · rfl
  · split
    · rfl
    · cases hdecode : Haptic.decode report with
      | error e => rfl
      | ok haptic =>
        change Meets ((takeHaptic report now haptic >>= fun _ => pure haptic) p) _ _ _
        exact meets_bind (takeHaptic_heard hdecode) fun _ _ h => ⟨rfl, h⟩

/-- What a request of the host is answered, and what it changes. -/
inductive Turn (p : SteamProtocol) (now : ℕ) : RequestKind → Reply × Option Haptic → SteamProtocol → Prop where
  | get {kind : ReportType} {id : Option UInt8} {result : Except ReplyError Report} :
      Turn p now (.get kind id) (.get result, none) p
  | heard {report : Report} {haptic : Haptic} {p' : SteamProtocol} : report.kind = .output →
      Haptic.decode report = .ok haptic → Heard p report now haptic p' →
      Turn p now (.set report) (.set (.ok ()), some haptic) p'
  | refused {report : Report} {e : ReplyError} : report.kind = .output →
      Turn p now (.set report) (.set (.error e), none) p
  | feature {report : Report} {result : Except ReplyError Unit} {query : Option Query}
      {outputs : Outputs} : report.kind ≠ .output → outputs.haptics = p.outputs.haptics →
      Turn p now (.set report) (.set result, none) { p with query, outputs }

theorem set_turn (report : Report) (now : ℕ) (p : SteamProtocol) :
    ∃ answer p', p.request (.set report) now = (.ok answer, p') ∧ Turn p now (.set report) answer p' := by
  unfold SteamProtocol.request
  dsimp only
  by_cases hkind : report.kind = .output
  · rw [if_pos hkind]
    have hheard := acceptOutput_heard report now p
    rcases haccept : acceptOutput report now p with ⟨haptic | e | _, p'⟩
    · rw [haccept] at hheard
      rw [bind_run_ok (attempt_ok haccept)]
      exact ⟨_, _, rfl, .heard hkind hheard.1 hheard.2⟩
    · rw [haccept] at hheard
      obtain rfl : p' = p := hheard
      rw [bind_run_ok (attempt_error haccept)]
      exact ⟨_, _, rfl, .refused hkind⟩
    · rw [haccept] at hheard
      exact absurd hheard id
  · rw [if_neg hkind]
    obtain ⟨r, outputs, hrun, hsets⟩ := feature_spec report p
    have hhaptics := feature_haptics report p
    rw [hrun] at hhaptics
    cases r with
    | panicked => exact absurd rfl hsets.returns
    | ok _ =>
      rw [bind_run_ok (attempt_ok hrun)]
      exact ⟨_, _, rfl, .feature hkind hhaptics⟩
    | error e =>
      rw [bind_run_ok (attempt_error hrun)]
      exact ⟨_, _, rfl, .feature hkind (congrArg Outputs.haptics (hsets.refused e rfl))⟩

theorem request_turn (kind : RequestKind) (now : ℕ) (h : p.serial.length ≤ 21) :
    ∃ answer p', p.request kind now = (.ok answer, p') ∧ Turn p now kind answer p' := by
  cases kind with
  | get kind id =>
    by_cases hfeature : kind = .feature ∧ id = some 1
    · obtain ⟨rfl, rfl⟩ := hfeature
      have hspec := getFeature_spec h
      cases hq : p.query with
      | none =>
        rw [hq] at hspec
        exact ⟨_, _, request_featureless hspec, .get⟩
      | some q =>
        rw [hq] at hspec
        obtain ⟨report, hget, _⟩ := hspec
        exact ⟨_, _, request_feature hget, .get⟩
    · exact ⟨_, _, request_get_other hfeature, .get⟩
  | set report => exact set_turn report now p

theorem output_turn (report : Report) (now : ℕ) (p : SteamProtocol) :
    Meets (SteamProtocol.output report now p)
      (fun output p' => ∃ haptic, output = some haptic ∧ Haptic.decode report = .ok haptic ∧
        Heard p report now haptic p') (fun _ p' => p' = p) False := by
  have hheard := acceptOutput_heard report now p
  unfold SteamProtocol.output
  rcases haccept : acceptOutput report now p with ⟨haptic | e | _, p'⟩
  · rw [haccept] at hheard
    rw [bind_run_ok (attempt_ok haccept)]
    exact ⟨haptic, rfl, hheard⟩
  · rw [haccept] at hheard
    rw [bind_run_ok (attempt_error haccept)]
    exact hheard
  · rw [haccept] at hheard
    exact absurd hheard id

end Turns

section Personality

variable {p : SteamHidProtocol}

theorem syncOutputs_protocol (p : SteamHidProtocol) : p.syncOutputs.protocol = p.protocol := by
  unfold SteamHidProtocol.syncOutputs
  split
  · rfl
  · rfl

/-- The protocol under a personality takes the turns of its own calls. -/
theorem request_protocol (p : SteamHidProtocol) (kind : RequestKind) (now : ℕ) :
    (p.request kind now).2.protocol = (p.protocol.request kind now).2 := by
  unfold SteamHidProtocol.request
  dsimp only
  split
  · exact syncOutputs_protocol _
  · exact syncOutputs_protocol _

theorem output_protocol (report : Report) (now : ℕ) (p : SteamHidProtocol) :
    (SteamHidProtocol.output report now p).2.protocol = (SteamProtocol.output report now p.protocol).2 := by
  unfold SteamHidProtocol.output
  dsimp only
  split
  · exact syncOutputs_protocol _
  · exact syncOutputs_protocol _
  · exact syncOutputs_protocol _

theorem lifecycle_protocol (p : SteamHidProtocol) (event : HidRuntime.Lifecycle) (now : ℕ) :
    (p.lifecycle event now).protocol = p.protocol.lifecycle event now := syncOutputs_protocol _

theorem input_protocol (state : State) (now : ℕ) (p : SteamHidProtocol) :
    (SteamHidProtocol.input state now p).2.protocol = (SteamProtocol.input state now p.protocol).2 :=
  syncOutputs_protocol _

/-- What the protocol makes of an output report, whether it comes with a request or without. -/
theorem output_cases (report : Report) (now : ℕ) (p : SteamProtocol) :
    (∃ haptic p', SteamProtocol.output report now p = (.ok (some haptic), p') ∧
      Haptic.decode report = .ok haptic ∧ Heard p report now haptic p') ∨
    ∃ e, SteamProtocol.output report now p = (.error e, p) := by
  have hturn := output_turn report now p
  rcases hrun : SteamProtocol.output report now p with ⟨output | e | _, p'⟩
  · rw [hrun] at hturn
    obtain ⟨haptic, rfl, hdecode, hheard⟩ := hturn
    exact .inl ⟨haptic, p', rfl, hdecode, hheard⟩
  · rw [hrun] at hturn
    obtain rfl : p' = p := hturn
    exact .inr ⟨e, rfl⟩
  · rw [hrun] at hturn
    exact absurd hturn id

end Personality

end SteamTurns
