import VirtualGamepad.HidRuntime
import VirtualGamepad.Panicking
import VirtualGamepad.Registers

/-! What the host asked a controller for last, as a typed snapshot with a revision. A snapshot is no proof
that a motor or a light ever followed. -/
namespace RetainedOutputs

open HidRuntime MachineInt Panicking Registers
open WireBytes (slice)

section Decoding

variable {α : Type}

def hasBit (byte mask : UInt8) : Bool := byte &&& mask ≠ 0

def thenSome (c : Bool) (a : α) : Option α := if c then some a else none

def both : Option α → Option α → Option (α × α)
  | some a, some b => some (a, b)
  | _, _ => none

/-- A value that is read only where the report has it. -/
def wanted (c : Bool) (value : Outcome ReplyError α) : Outcome ReplyError (Option α) :=
  if c then do
    let a ← value
    pure (some a)
  else pure none

inductive DualSenseAudioPath where
  | headphonesStereo
  | headphonesDualMono
  | headphonesLeftSpeakerRight
  | speakerRightOnly
  deriving DecidableEq, Repr

def DualSenseAudioPath.of (byte : UInt8) : DualSenseAudioPath :=
  match (byte >>> 4 &&& 0x03).toNat with
  | 0 => .headphonesStereo
  | 1 => .headphonesDualMono
  | 2 => .headphonesLeftSpeakerRight
  | _ => .speakerRightOnly

structure UsbOutput where
  raw : List UInt8
  validFlag0 : UInt8
  validFlag1 : UInt8
  validFlag2 : UInt8
  rightMotor : Option UInt8
  leftMotor : Option UInt8
  rightTriggerEffect : List UInt8
  leftTriggerEffect : List UInt8
  muteButtonLed : Option Bool
  microphoneMuted : Option Bool
  audioPath : Option DualSenseAudioPath
  speakerVolume : Option UInt8
  microphoneVolume : Option UInt8
  speakerPreamp : Option UInt8
  playerLeds : Option UInt8
  lightbarRgb : Option (UInt8 × UInt8 × UInt8)
  deriving DecidableEq, Repr

inductive DualSenseHidOutput where
  | usbOutput (out : UsbOutput)
  | unknown (reportId : Option UInt8) (raw : List UInt8)
  deriving DecidableEq, Repr

def decodeDualsenseHidOutput (reportId : Option UInt8) (raw : List UInt8) : DualSenseHidOutput :=
  if reportId = some 0x02 ∧ 47 ≤ raw.length then
    let b := fun i => raw.getD i 0
    let vibrationEnabled := hasBit (b 0) 0x01 || hasBit (b 38) 0x04
    .usbOutput {
      raw
      validFlag0 := b 0
      validFlag1 := b 1
      validFlag2 := b 38
      rightMotor := thenSome vibrationEnabled (b 2)
      leftMotor := thenSome vibrationEnabled (b 3)
      rightTriggerEffect := slice raw 10 11
      leftTriggerEffect := slice raw 21 11
      muteButtonLed := thenSome (hasBit (b 1) 0x01) (b 8 ≠ 0)
      microphoneMuted := thenSome (hasBit (b 1) 0x02) (hasBit (b 9) 0x10)
      audioPath := thenSome (hasBit (b 0) 0x80) (.of (b 7))
      speakerVolume := thenSome (hasBit (b 0) 0x20) (b 5)
      microphoneVolume := thenSome (hasBit (b 0) 0x40) (b 6)
      speakerPreamp := thenSome (hasBit (b 1) 0x80) (b 37 &&& 0x07)
      playerLeds := thenSome (hasBit (b 1) 0x10) (b 43)
      lightbarRgb := thenSome (hasBit (b 1) 0x04) (b 44, b 45, b 46) }
  else .unknown reportId raw

end Decoding

section Snapshots

structure RumblePlayback where
  strong : UInt16
  weak : UInt16
  repetitions : UInt32
  deriving DecidableEq, Repr

structure DualSenseOutputState where
  revision : ℕ
  evdevRumble : Option RumblePlayback
  motors : Option (UInt8 × UInt8)
  rightTrigger : Option (List UInt8)
  leftTrigger : Option (List UInt8)
  muteLed : Option UInt8
  microphoneMuted : Option Bool
  audioPath : Option DualSenseAudioPath
  speakerVolume : Option UInt8
  microphoneVolume : Option UInt8
  speakerPreamp : Option UInt8
  playerLeds : Option UInt8
  lightbarRgb : Option (UInt8 × UInt8 × UInt8)
  deriving DecidableEq, Repr

structure DualShock4OutputState where
  revision : ℕ
  evdevRumble : Option RumblePlayback
  motors : Option (UInt8 × UInt8)
  lightbarRgb : Option (UInt8 × UInt8 × UInt8)
  blink : Option (UInt8 × UInt8)
  deriving DecidableEq, Repr

/-- The motor words stay encoded, without the packet counter before them. -/
structure SwitchProOutputState where
  revision : ℕ
  evdevRumble : Option RumblePlayback
  motorWords : Option (List UInt8 × List UInt8)
  playerLights : Option UInt8
  deriving DecidableEq, Repr

structure Xbox360OutputState where
  revision : ℕ
  evdevRumble : Option RumblePlayback
  deriving DecidableEq, Repr

class OutputState (R : Type) where
  default : R
  apply : R → Report → Outcome ReplyError R

/-- A snapshot that changes is the next revision. -/
def replace {R : Type} [DecidableEq R] (old next : R) (revision : R → ℕ) (revise : R → ℕ → R) :
    Outcome ReplyError R :=
  if old ≠ next then
    match checkedAdd (revision old) 1 with
    | some n => .ok (revise next n)
    | none => .error .invalid
  else .ok old

def DualSenseOutputState.default : DualSenseOutputState :=
  ⟨0, none, none, none, none, none, none, none, none, none, none, none, none⟩

/-- A field without its validity bit keeps what it has. -/
def DualSenseOutputState.next (s : DualSenseOutputState) (report : Report) : DualSenseOutputState :=
  let b := report.payload
  match decodeDualsenseHidOutput report.id b with
  | .usbOutput out =>
    { s with
      motors := (both out.leftMotor out.rightMotor).or s.motors
      rightTrigger := (thenSome (hasBit (b.getD 0 0) 0x04) (slice b 10 11)).or s.rightTrigger
      leftTrigger := (thenSome (hasBit (b.getD 0 0) 0x08) (slice b 21 11)).or s.leftTrigger
      muteLed := (thenSome (hasBit (b.getD 1 0) 1) (b.getD 8 0)).or s.muteLed
      microphoneMuted := out.microphoneMuted.or s.microphoneMuted
      audioPath := out.audioPath.or s.audioPath
      speakerVolume := out.speakerVolume.or s.speakerVolume
      microphoneVolume := out.microphoneVolume.or s.microphoneVolume
      speakerPreamp := out.speakerPreamp.or s.speakerPreamp
      playerLeds := out.playerLeds.or s.playerLeds
      lightbarRgb := out.lightbarRgb.or s.lightbarRgb }
  | .unknown _ _ => s

instance : OutputState DualSenseOutputState where
  default := .default
  apply s report := replace s (s.next report) (·.revision) fun s n => { s with revision := n }

def DualShock4OutputState.default : DualShock4OutputState := ⟨0, none, none, none, none⟩

def DualShock4OutputState.next (s : DualShock4OutputState) (report : Report) :
    Outcome ReplyError DualShock4OutputState := do
  let b := report.payload
  let flags ← index b 0
  let motors ← wanted (hasBit flags 1) do
    let left ← index b 4
    let right ← index b 3
    pure (left, right)
  let lightbar ← wanted (hasBit flags 2) do
    let red ← index b 5
    let green ← index b 6
    let blue ← index b 7
    pure (red, green, blue)
  let blink ← wanted (hasBit flags 4) do
    let on ← index b 8
    let off ← index b 9
    pure (on, off)
  pure { s with
    motors := motors.or s.motors
    lightbarRgb := lightbar.or s.lightbarRgb
    blink := blink.or s.blink }

instance : OutputState DualShock4OutputState where
  default := .default
  apply s report := do
    let next ← s.next report
    replace s next (·.revision) fun s n => { s with revision := n }

def SwitchProOutputState.default : SwitchProOutputState := ⟨0, none, none, none⟩

def SwitchProOutputState.next (s : SwitchProOutputState) (report : Report) :
    Outcome ReplyError SwitchProOutputState := do
  let b := report.payload
  if report.id = some 1 ∨ report.id = some 0x10 then
    let left ← range b 1 5
    let right ← range b 5 9
    let subcommand ← wanted (report.id = some 1) (index b 9)
    let lights ← wanted (subcommand = some 0x30 ∧ 11 ≤ b.length) (index b 10)
    pure { s with motorWords := some (left, right), playerLights := lights.or s.playerLights }
  else pure s

instance : OutputState SwitchProOutputState where
  default := .default
  apply s report := do
    let next ← s.next report
    replace s next (·.revision) fun s n => { s with revision := n }

/-- The standard HID presentation has no output reports. -/
instance : OutputState Xbox360OutputState where
  default := ⟨0, none⟩
  apply s _ := .ok s

/-- A worker retains nothing. -/
instance : OutputState Unit where
  default := ()
  apply _ _ := .ok ()

end Snapshots

section Retention

variable {R : Type} [OutputState R]

/-- What an accepted report leaves of a snapshot. A refused one leaves it alone. -/
def retain (s : R) (report : Report) : R :=
  match OutputState.apply s report with
  | .ok t => t
  | .error _ => s
  | .panicked => s

/-- What a report says on its own. -/
def alone (report : Report) : R := retain OutputState.default report

/-- A family of snapshots whose reports are merged field by field. -/
structure Merges [DecidableEq R] (revision : R → ℕ) (revise : R → ℕ → R)
    (next : R → Report → Outcome ReplyError R) (merge : R → R → R) : Prop where
  apply : ∀ s report, OutputState.apply s report = (next s report >>= fun t => replace s t revision revise)
  revised : ∀ s n, revision (revise s n) = n
  first : revision (OutputState.default : R) = 0
  next : ∀ s report, next s report = (next OutputState.default report >>= fun u => pure (merge s u))

/-- A field of a snapshot, which no revision touches and which a merge takes from the newer side first. -/
structure Field {β : Type} (revise : R → ℕ → R) (merge : R → R → R) (field : R → Option β) : Prop where
  revised : ∀ s n, field (revise s n) = field s
  merged : ∀ s u, field (merge s u) = (field u).or (field s)
  first : field (OutputState.default : R) = none

variable [DecidableEq R] {β : Type} {revision : R → ℕ} {revise : R → ℕ → R}
  {next : R → Report → Outcome ReplyError R} {merge : R → R → R} {field : R → Option β} {s u : R}
  {report : Report}

theorem apply_ok (h : Merges revision revise next merge) (hu : next OutputState.default report = .ok u) :
    OutputState.apply s report = replace s (merge s u) revision revise := by
  rw [h.apply, h.next s, hu]
  rfl

theorem retain_refused (h : Merges revision revise next merge)
    (hu : ∀ u, next OutputState.default report ≠ .ok u) : retain s report = s := by
  unfold retain
  rw [h.apply, h.next s]
  cases hr : next OutputState.default report with
  | ok u => exact absurd hr (hu u)
  | error e => rfl
  | panicked => rfl

omit [OutputState R] in
theorem replace_same : replace s s revision revise = .ok s := by
  unfold replace
  rw [if_neg (not_not.mpr rfl)]

omit [OutputState R] in
theorem replace_next (hne : s ≠ u) (hbelow : revision s < u64Max) :
    replace s u revision revise = .ok (revise u (revision s + 1)) := by
  unfold replace
  rw [if_pos hne, checkedAdd_eq_some.mpr ⟨rfl, hbelow⟩]

omit [OutputState R] in
/-- After the last revision there is none. -/
theorem replace_exhausted (hne : s ≠ u) (hlast : ¬revision s < u64Max) :
    replace s u revision revise = .error .invalid := by
  have hnone : checkedAdd (revision s) 1 = none := by
    unfold checkedAdd
    exact if_neg hlast
  unfold replace
  rw [if_pos hne, hnone]

omit [DecidableEq R] in
theorem retain_ok {t : R} (h : OutputState.apply s report = .ok t) : retain s report = t := by
  unfold retain
  rw [h]

omit [DecidableEq R] in
theorem retain_error {e : ReplyError} (h : OutputState.apply s report = .error e) :
    retain s report = s := by
  unfold retain
  rw [h]

theorem retain_versioned (h : Merges revision revise next merge) :
    Versioned (retain (R := R)) revision := by
  intro s report
  by_cases hok : ∃ u, next OutputState.default report = .ok u
  · obtain ⟨u, hu⟩ := hok
    have happly : OutputState.apply s report = replace s (merge s u) revision revise := apply_ok h hu
    by_cases hsame : s = merge s u
    · rw [← hsame, replace_same] at happly
      exact .inl (retain_ok happly)
    · by_cases hbelow : revision s < u64Max
      · rw [replace_next hsame hbelow] at happly
        rw [retain_ok happly]
        exact .inr (h.revised _ _)
      · rw [replace_exhausted hsame hbelow] at happly
        exact .inl (retain_error happly)
  · exact .inl (retain_refused h fun u hu => hok ⟨u, hu⟩)

theorem retain_field (h : Merges revision revise next merge) (hfield : Field revise merge field)
    (hu : next OutputState.default report = .ok u) (hbelow : revision s < u64Max) :
    field (retain s report) = field (merge s u) := by
  have happly : OutputState.apply s report = replace s (merge s u) revision revise := apply_ok h hu
  by_cases hsame : s = merge s u
  · rw [← hsame, replace_same] at happly
    rw [retain_ok happly, ← hsame]
  · rw [replace_next hsame hbelow] at happly
    rw [retain_ok happly, hfield.revised]

theorem alone_field (h : Merges revision revise next merge) (hfield : Field revise merge field)
    (hu : next OutputState.default report = .ok u) : field (alone report) = field u := by
  have hfirst : revision (OutputState.default : R) < u64Max := by
    rw [h.first]
    decide
  unfold alone
  rw [retain_field h hfield hu hfirst, hfield.merged, hfield.first, Option.or_none]

theorem alone_refused (h : Merges revision revise next merge) (hfield : Field revise merge field)
    (hu : ∀ u, next OutputState.default report ≠ .ok u) : field (alone report) = none := by
  unfold alone
  rw [retain_refused h hu, hfield.first]

/-- Below the last revision, a field takes what a report says about it. -/
theorem field_keeps (h : Merges revision revise next merge) (hfield : Field revise merge field) :
    Keeps (retain (R := R)) revision u64Max field (fun report => field (alone report)) := by
  intro s report hbelow
  dsimp only
  by_cases hok : ∃ u, next OutputState.default report = .ok u
  · obtain ⟨u, hu⟩ := hok
    rw [retain_field h hfield hu hbelow, hfield.merged, alone_field h hfield hu]
  · have hrefused : ∀ u, next OutputState.default report ≠ .ok u := fun u hu => hok ⟨u, hu⟩
    rw [retain_refused h hrefused, alone_refused h hfield hrefused, Option.none_or]

/-- After any number of reports, a field holds the last value that one of them had for it. -/
theorem field_latest (h : Merges revision revise next merge) (hfield : Field revise merge field)
    {reports : List Report}
    (hbelow : revision (replay retain (OutputState.default : R) reports) < u64Max) :
    field (replay retain OutputState.default reports) =
      latest (fun report => field (alone report)) reports :=
  (field_keeps h hfield).latest (retain_versioned h) hfield.first hbelow

theorem revision_counts (h : Merges revision revise next merge) (reports : List Report) :
    revision (replay retain (OutputState.default : R) reports) =
      changes retain (OutputState.default : R) reports := by
  rw [(retain_versioned h).counts, h.first, Nat.zero_add]

end Retention

section Families

variable {b : List UInt8} {i j : ℕ} {report : Report}

/-- The fields of a report over those of a snapshot. -/
def DualSenseOutputState.merge (s u : DualSenseOutputState) : DualSenseOutputState where
  revision := s.revision
  evdevRumble := u.evdevRumble.or s.evdevRumble
  motors := u.motors.or s.motors
  rightTrigger := u.rightTrigger.or s.rightTrigger
  leftTrigger := u.leftTrigger.or s.leftTrigger
  muteLed := u.muteLed.or s.muteLed
  microphoneMuted := u.microphoneMuted.or s.microphoneMuted
  audioPath := u.audioPath.or s.audioPath
  speakerVolume := u.speakerVolume.or s.speakerVolume
  microphoneVolume := u.microphoneVolume.or s.microphoneVolume
  speakerPreamp := u.speakerPreamp.or s.speakerPreamp
  playerLeds := u.playerLeds.or s.playerLeds
  lightbarRgb := u.lightbarRgb.or s.lightbarRgb

def DualShock4OutputState.merge (s u : DualShock4OutputState) : DualShock4OutputState where
  revision := s.revision
  evdevRumble := u.evdevRumble.or s.evdevRumble
  motors := u.motors.or s.motors
  lightbarRgb := u.lightbarRgb.or s.lightbarRgb
  blink := u.blink.or s.blink

def SwitchProOutputState.merge (s u : SwitchProOutputState) : SwitchProOutputState where
  revision := s.revision
  evdevRumble := u.evdevRumble.or s.evdevRumble
  motorWords := u.motorWords.or s.motorWords
  playerLights := u.playerLights.or s.playerLights

theorem dualSense_merges : Merges (R := DualSenseOutputState) (·.revision)
    (fun s n => { s with revision := n }) (fun s report => .ok (s.next report)) .merge := by
  refine ⟨fun _ _ => rfl, fun _ _ => rfl, rfl, ?_⟩
  intro s report
  refine congrArg Outcome.ok ?_
  change s.next report = s.merge (DualSenseOutputState.default.next report)
  unfold DualSenseOutputState.next
  dsimp only
  cases decodeDualsenseHidOutput report.id report.payload with
  | unknown _ _ => rfl
  | usbOutput out => simp [DualSenseOutputState.merge, DualSenseOutputState.default]

theorem dualShock4_merges : Merges (R := DualShock4OutputState) (·.revision)
    (fun s n => { s with revision := n }) DualShock4OutputState.next .merge := by
  refine ⟨fun _ _ => rfl, fun _ _ => rfl, rfl, ?_⟩
  intro s report
  unfold DualShock4OutputState.next
  dsimp only
  cases (index report.payload 0 : Outcome ReplyError UInt8) with
  | error e => rfl
  | panicked => rfl
  | ok flags =>
    simp only [ok_bind]
    generalize wanted (hasBit flags 1) _ = motors
    generalize wanted (hasBit flags 2) _ = lightbar
    generalize wanted (hasBit flags 4) _ = blink
    cases motors with
    | error e => rfl
    | panicked => rfl
    | ok motors =>
      cases lightbar with
      | error e => rfl
      | panicked => rfl
      | ok lightbar =>
        cases blink with
        | error e => rfl
        | panicked => rfl
        | ok blink => simp [DualShock4OutputState.merge, OutputState.default, DualShock4OutputState.default]

theorem switchPro_merges : Merges (R := SwitchProOutputState) (·.revision)
    (fun s n => { s with revision := n }) SwitchProOutputState.next .merge := by
  refine ⟨fun _ _ => rfl, fun _ _ => rfl, rfl, ?_⟩
  intro s report
  unfold SwitchProOutputState.next
  dsimp only
  split
  · cases (range report.payload 1 5 : Outcome ReplyError (List UInt8)) with
    | error e => rfl
    | panicked => rfl
    | ok left =>
      cases (range report.payload 5 9 : Outcome ReplyError (List UInt8)) with
      | error e => rfl
      | panicked => rfl
      | ok right =>
        simp only [ok_bind]
        cases wanted (report.id = some 1) (index report.payload 9) with
        | error e => rfl
        | panicked => rfl
        | ok subcommand =>
          simp only [ok_bind]
          generalize wanted _ (index report.payload 10) = lights
          cases lights with
          | error e => rfl
          | panicked => rfl
          | ok lights => simp [SwitchProOutputState.merge, OutputState.default, SwitchProOutputState.default]
  · simp [SwitchProOutputState.merge, OutputState.default, SwitchProOutputState.default]

/-- Every field of a snapshot is the last value that one of the reports had for it. -/
structure DualSenseLatest (reports : List Report) (s : DualSenseOutputState) : Prop where
  motors : s.motors = latest (fun r => (alone r : DualSenseOutputState).motors) reports
  rightTrigger : s.rightTrigger = latest (fun r => (alone r : DualSenseOutputState).rightTrigger) reports
  leftTrigger : s.leftTrigger = latest (fun r => (alone r : DualSenseOutputState).leftTrigger) reports
  muteLed : s.muteLed = latest (fun r => (alone r : DualSenseOutputState).muteLed) reports
  microphoneMuted : s.microphoneMuted =
    latest (fun r => (alone r : DualSenseOutputState).microphoneMuted) reports
  audioPath : s.audioPath = latest (fun r => (alone r : DualSenseOutputState).audioPath) reports
  speakerVolume : s.speakerVolume = latest (fun r => (alone r : DualSenseOutputState).speakerVolume) reports
  microphoneVolume : s.microphoneVolume =
    latest (fun r => (alone r : DualSenseOutputState).microphoneVolume) reports
  speakerPreamp : s.speakerPreamp = latest (fun r => (alone r : DualSenseOutputState).speakerPreamp) reports
  playerLeds : s.playerLeds = latest (fun r => (alone r : DualSenseOutputState).playerLeds) reports
  lightbarRgb : s.lightbarRgb = latest (fun r => (alone r : DualSenseOutputState).lightbarRgb) reports

structure DualShock4Latest (reports : List Report) (s : DualShock4OutputState) : Prop where
  motors : s.motors = latest (fun r => (alone r : DualShock4OutputState).motors) reports
  lightbarRgb : s.lightbarRgb = latest (fun r => (alone r : DualShock4OutputState).lightbarRgb) reports
  blink : s.blink = latest (fun r => (alone r : DualShock4OutputState).blink) reports

structure SwitchProLatest (reports : List Report) (s : SwitchProOutputState) : Prop where
  motorWords : s.motorWords = latest (fun r => (alone r : SwitchProOutputState).motorWords) reports
  playerLights : s.playerLights = latest (fun r => (alone r : SwitchProOutputState).playerLights) reports

theorem dualSense_latest {reports : List Report}
    (hbelow : (replay retain (OutputState.default : DualSenseOutputState) reports).revision < u64Max) :
    DualSenseLatest reports (replay retain OutputState.default reports) := by
  have hlatest {β : Type} (field : DualSenseOutputState → Option β)
      (hfield : Field (fun s n => { s with revision := n }) DualSenseOutputState.merge field) :
      field (replay retain OutputState.default reports) =
        latest (fun r => field (alone r)) reports := field_latest dualSense_merges hfield hbelow
  constructor
  · exact hlatest (·.motors) ⟨fun _ _ => rfl, fun _ _ => rfl, rfl⟩
  · exact hlatest (·.rightTrigger) ⟨fun _ _ => rfl, fun _ _ => rfl, rfl⟩
  · exact hlatest (·.leftTrigger) ⟨fun _ _ => rfl, fun _ _ => rfl, rfl⟩
  · exact hlatest (·.muteLed) ⟨fun _ _ => rfl, fun _ _ => rfl, rfl⟩
  · exact hlatest (·.microphoneMuted) ⟨fun _ _ => rfl, fun _ _ => rfl, rfl⟩
  · exact hlatest (·.audioPath) ⟨fun _ _ => rfl, fun _ _ => rfl, rfl⟩
  · exact hlatest (·.speakerVolume) ⟨fun _ _ => rfl, fun _ _ => rfl, rfl⟩
  · exact hlatest (·.microphoneVolume) ⟨fun _ _ => rfl, fun _ _ => rfl, rfl⟩
  · exact hlatest (·.speakerPreamp) ⟨fun _ _ => rfl, fun _ _ => rfl, rfl⟩
  · exact hlatest (·.playerLeds) ⟨fun _ _ => rfl, fun _ _ => rfl, rfl⟩
  · exact hlatest (·.lightbarRgb) ⟨fun _ _ => rfl, fun _ _ => rfl, rfl⟩

theorem dualShock4_latest {reports : List Report}
    (hbelow : (replay retain (OutputState.default : DualShock4OutputState) reports).revision < u64Max) :
    DualShock4Latest reports (replay retain OutputState.default reports) := by
  have hlatest {β : Type} (field : DualShock4OutputState → Option β)
      (hfield : Field (fun s n => { s with revision := n }) DualShock4OutputState.merge field) :
      field (replay retain OutputState.default reports) =
        latest (fun r => field (alone r)) reports := field_latest dualShock4_merges hfield hbelow
  constructor
  · exact hlatest (·.motors) ⟨fun _ _ => rfl, fun _ _ => rfl, rfl⟩
  · exact hlatest (·.lightbarRgb) ⟨fun _ _ => rfl, fun _ _ => rfl, rfl⟩
  · exact hlatest (·.blink) ⟨fun _ _ => rfl, fun _ _ => rfl, rfl⟩

theorem switchPro_latest {reports : List Report}
    (hbelow : (replay retain (OutputState.default : SwitchProOutputState) reports).revision < u64Max) :
    SwitchProLatest reports (replay retain OutputState.default reports) := by
  have hlatest {β : Type} (field : SwitchProOutputState → Option β)
      (hfield : Field (fun s n => { s with revision := n }) SwitchProOutputState.merge field) :
      field (replay retain OutputState.default reports) =
        latest (fun r => field (alone r)) reports := field_latest switchPro_merges hfield hbelow
  constructor
  · exact hlatest (·.motorWords) ⟨fun _ _ => rfl, fun _ _ => rfl, rfl⟩
  · exact hlatest (·.playerLights) ⟨fun _ _ => rfl, fun _ _ => rfl, rfl⟩

/-- A computation that returns, with or without an error. -/
def Returns {α : Type} (r : Outcome ReplyError α) : Prop := r.Yields (fun _ => True) (fun _ => True) False

theorem returns_bind {α β : Type} {r : Outcome ReplyError α} {f : α → Outcome ReplyError β}
    (h : Returns r) (k : ∀ a, Returns (f a)) : Returns (r >>= f) := yields_bind h fun a _ => k a

theorem returns_index (h : i < b.length) : Returns (index b i) := by
  unfold Returns
  rw [index_eq_ok h]
  exact trivial

theorem returns_range (h : i ≤ j) (hj : j ≤ b.length) : Returns (range b i j) := by
  unfold Returns
  rw [range_eq_ok h hj]
  exact trivial

theorem returns_wanted {α : Type} {c : Bool} {value : Outcome ReplyError α} (h : c = true → Returns value) :
    Returns (wanted c value) := by
  unfold wanted
  split
  · next hc => exact returns_bind (h hc) fun _ => trivial
  · exact trivial

theorem returns_replace {R : Type} [DecidableEq R] (old next : R) (revision : R → ℕ) (revise : R → ℕ → R) :
    Returns (replace old next revision revise) := by
  unfold replace
  split
  · cases checkedAdd (revision old) 1 with
    | none => exact trivial
    | some n => exact trivial
  · exact trivial

theorem dualSense_applies (s : DualSenseOutputState) (report : Report) :
    (OutputState.apply s report : Outcome ReplyError DualSenseOutputState) ≠ .panicked :=
  (returns_replace s (s.next report) _ _).returns

/-- A report of the exact length is read without a panic. -/
theorem dualShock4_applies (h : report.payload.length = 31) (s : DualShock4OutputState) :
    OutputState.apply s report ≠ .panicked := by
  have hindex (i : ℕ) (hi : i < 31) : Returns (index report.payload i) := returns_index (by omega)
  have hnext : Returns (s.next report) := by
    unfold DualShock4OutputState.next
    apply returns_bind (hindex 0 (by omega))
    intro flags
    apply returns_bind
    · apply returns_wanted
      intro _
      apply returns_bind (hindex 4 (by omega))
      intro left
      exact returns_bind (hindex 3 (by omega)) fun _ => trivial
    · intro motors
      apply returns_bind
      · apply returns_wanted
        intro _
        apply returns_bind (hindex 5 (by omega))
        intro red
        apply returns_bind (hindex 6 (by omega))
        intro green
        exact returns_bind (hindex 7 (by omega)) fun _ => trivial
      · intro lightbar
        apply returns_bind
        · apply returns_wanted
          intro _
          apply returns_bind (hindex 8 (by omega))
          intro on
          exact returns_bind (hindex 9 (by omega)) fun _ => trivial
        · intro blink
          exact trivial
  have happly : Returns (OutputState.apply s report) :=
    returns_bind hnext fun _ => returns_replace _ _ _ _
  exact happly.returns

theorem switchPro_applies (hwords : report.id = some 1 → 10 ≤ report.payload.length)
    (hrumble : report.id = some 0x10 → 9 ≤ report.payload.length) (s : SwitchProOutputState) :
    OutputState.apply s report ≠ .panicked := by
  have hnext : Returns (s.next report) := by
    unfold SwitchProOutputState.next
    dsimp only
    split
    · next hid =>
      have hlength : 9 ≤ report.payload.length := by
        rcases hid with hid | hid
        · exact (Nat.le_succ 9).trans (hwords hid)
        · exact hrumble hid
      apply returns_bind (returns_range (by omega) (by omega))
      intro left
      apply returns_bind (returns_range (by omega) (by omega))
      intro right
      apply returns_bind
      · apply returns_wanted
        intro hone
        exact returns_index (hwords (of_decide_eq_true hone))
      · intro subcommand
        apply returns_bind
        · apply returns_wanted
          intro hlights
          exact returns_index (of_decide_eq_true hlights).2
        · intro lights
          exact trivial
    · exact trivial
  have happly : Returns (OutputState.apply s report) :=
    returns_bind hnext fun _ => returns_replace _ _ _ _
  exact happly.returns

end Families

end RetainedOutputs
