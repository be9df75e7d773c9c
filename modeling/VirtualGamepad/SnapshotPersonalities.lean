import VirtualGamepad.ControllerContract
import VirtualGamepad.RetainedOutputs
import VirtualGamepad.SonyInput

/-! The USB personalities that answer every poll with a snapshot of the controller: the shared one, of a
DualShock 4 and of an Xbox 360 controller, and that of a DualSense. -/
namespace SnapshotPersonalities

open BitFields ControllerContract HidRuntime MachineInt NativeState Panicking RetainedOutputs SonyInput
open WireBytes (bytesLe)

section Features

/-- A feature report has type 0, an output report 1 and an input report 2. -/
structure NativeHidReportKey where
  reportId : UInt8
  reportType : UInt8
  deriving DecidableEq, Repr

abbrev Features := List (NativeHidReportKey × List UInt8)

def little (v : Int16) : List UInt8 := bytesLe 2 v.toUInt16.toNat

/-- The calibration of the motion sensors, two limits an axis. -/
def calibration (size : ℕ) (id : UInt8) : List UInt8 :=
  assemble size 0 [
    (0, [id]),
    (7, little 32000 ++ little (-32000) ++ little 32000 ++ little (-32000) ++ little 32000 ++
      little (-32000)),
    (19, little 2000 ++ little 2000),
    (23, little 8192 ++ little (-8192) ++ little 8192 ++ little (-8192) ++ little 8192 ++ little (-8192))]

def dualsenseFeatureResponses (identity : Vector UInt8 6) : Features := [
  (⟨0x03, 0⟩, assemble 48 0 [(0, [0x03]), (2, [0x28, 0x01, 0x00, 0x0e])]),
  (⟨0x05, 0⟩, calibration 41 0x05),
  (⟨0x09, 0⟩, assemble 20 0 [(0, [0x09]), (1, identity.toList)]),
  (⟨0x20, 0⟩, assemble 64 0 [(0, [0x20]), (24, [1]), (28, [1]), (44, bytesLe 2 0x0224)])]

def dualshock4FeatureResponses (identity : Vector UInt8 6) : Features := [
  (⟨2, 0⟩, calibration 37 2),
  (⟨0x12, 0⟩, assemble 16 0 [(0, [0x12]), (1, identity.toList)]),
  (⟨0xa3, 0⟩, assemble 49 0 [(0, [0xa3]), (1, [1])])]

/-- A feature report from its table. -/
def feature (features : Features) (numbered : Bool) (id : UInt8) : Except ReplyError Report :=
  match features.lookup ⟨id, 0⟩ with
  | none => .error .unsupported
  | some bytes =>
    match Report.fromWire .feature numbered bytes with
    | .ok report => .ok report
    | .error _ => .error .unsupported

end Features

section Frames

/-- An encoder's frame as an input report. What the encoders make fits a report. -/
def logicalInput (frame : HidInput) (h : Framed frame.reportId frame.bytes) : Report :=
  ⟨.input, frame.reportId, frame.bytes, h⟩

def hidGamepadFrame (face dpad : Vector Bool 4) (buttons : List Bool) (axes : List UInt8) : HidInput :=
  let pressed := (face.toList ++ buttons).take 16
  let bits := (pressed.mapIdx fun i b => if b then 2 ^ i else 0).sum
  ⟨none, bytesLe 2 bits ++ [hat dpad] ++ axes⟩

/-- The upper half of an axis, from its lowest value. -/
def axisByte (v : Int16) : UInt8 := UInt8.ofNat ((v.toInt + 32768) / 2 ^ 8).toNat

def xboxHidFrame (state : Xbox360State) : HidInput :=
  hidGamepadFrame state.face state.dpad state.buttons.toList [axisByte state.left.1,
    axisByte state.left.2, state.triggers.1, axisByte state.right.1, axisByte state.right.2,
    state.triggers.2]

theorem length_i16Bytes (v : Int16) : (i16Bytes v).length = 2 := WireBytes.length_bytesLe _ _

theorem length_encodeTouch {maxX maxY : UInt16} (contact : Option (TouchContact maxX maxY)) :
    (encodeTouch contact).length = 4 := by
  cases contact with
  | none => rfl
  | some contact => rfl

theorem dualsense_framed (state : DualSenseState) :
    Framed (dualsenseHidInputReport state).reportId (dualsenseHidInputReport state).bytes := by
  refine ⟨by simp [dualsenseHidInputReport], ?_⟩
  have hlength : (dualsenseHidInputReport state).bytes.length = 63 := by
    unfold dualsenseHidInputReport
    apply length_assemble
    simp [Placed, length_i16Bytes, WireBytes.length_bytesLe, encodeHidTouches, length_encodeTouch]
  rw [hlength]
  simp [dualsenseHidInputReport]

theorem ds4_framed (state : DualShock4State) : Framed (ds4Frame state).reportId (ds4Frame state).bytes := by
  refine ⟨by simp [ds4Frame], ?_⟩
  have hlength : (ds4Frame state).bytes.length = 63 := by
    unfold ds4Frame
    apply length_assemble
    simp [Placed, length_i16Bytes, WireBytes.length_bytesLe, encodeDs4Touches, length_encodeTouch]
  rw [hlength]
  simp [ds4Frame]

theorem xbox_framed (state : Xbox360State) :
    Framed (xboxHidFrame state).reportId (xboxHidFrame state).bytes := by
  refine ⟨by simp [xboxHidFrame, hidGamepadFrame], ?_⟩
  simp [xboxHidFrame, hidGamepadFrame, WireBytes.length_bytesLe]

end Frames

section Personalities

variable {S R : Type} [OutputState R]

/-- A report is applied to what is retained only where it has been checked, and then without a panic. -/
def Applies (R : Type) [OutputState R] (validateOutput : Report → Except ReplyError Unit) : Prop :=
  ∀ (s : R) report, validateOutput report = .ok () → OutputState.apply s report ≠ .panicked

/-- What an accepted report makes of the retained outputs. -/
def accepting {validateOutput : Report → Except ReplyError Unit} (applies : Applies R validateOutput)
    (retained : R) (report : Report) : Except ReplyError R :=
  match h : validateOutput report with
  | .error e => .error e
  | .ok () => (OutputState.apply retained report).returned (applies retained report h)

structure SnapshotProtocol (S R : Type) [OutputState R] where
  neutral : S
  encode : S → ℕ → UInt8 → Report
  validateOutput : Report → Except ReplyError Unit
  applies : Applies R validateOutput
  features : Features
  numbered : Bool × Bool × Bool
  period : Option ℕ
  sequence : UInt8
  next : Option ℕ
  active : Bool
  valid : Bool
  last : Option Report
  retained : R

namespace SnapshotProtocol

def new (neutral : S) (encode : S → ℕ → UInt8 → Report)
    (validateOutput : Report → Except ReplyError Unit) (applies : Applies R validateOutput)
    (features : Features) (numbered : Bool × Bool × Bool) (period : Option ℕ) : SnapshotProtocol S R where
  neutral
  encode
  validateOutput
  applies
  features
  numbered
  period
  sequence := 1
  next := some 0
  active := true
  valid := true
  last := none
  retained := OutputState.default

def input (state : S) (now : ℕ) : Fallible.Action Error (SnapshotProtocol S R) (List Report) := fun p =>
  if !p.valid then (.error .framing, p)
  else if !p.active then (.ok [], p)
  else
    let report := p.encode state now p.sequence
    (.ok [report], { p with
      sequence := p.sequence + 1
      last := some report
      next := p.period.map (saturatingAdd now) })

def request (p : SnapshotProtocol S R) (kind : RequestKind) :
    (Reply × Option RawReverseEvent) × SnapshotProtocol S R :=
  match kind with
  | .get .feature id => ((.get (feature p.features p.numbered.2.2 (id.getD 0)), none), p)
  | .get .input id =>
    match p.last with
    | some report =>
      if report.id = id then ((.get (.ok report), none), p) else ((.get (.error .unsupported), none), p)
    | none => ((.get (.error .unsupported), none), p)
  | .get _ _ => ((.get (.error .unsupported), none), p)
  | .set report =>
    match accepting p.applies p.retained report with
    | .ok retained => ((.set (.ok ()), some (observe report)), { p with retained })
    | .error e => ((.set (.error e), none), p)

/-- Reports without an answer are observed even where they are refused. -/
def output (report : Report) : Fallible.Action Error (SnapshotProtocol S R) (Option RawReverseEvent) :=
  fun p =>
    if (p.validateOutput report).isOk then
      match accepting p.applies p.retained report with
      | .ok retained => (.ok (some (observe report)), { p with retained })
      | .error _ => (.error .invalidState, p)
    else (.ok (some (observe report)), p)

def lifecycle (p : SnapshotProtocol S R) (event : Lifecycle) (now : ℕ) : SnapshotProtocol S R :=
  match event with
  | .start numberedInput numberedOutput numberedFeature =>
    { p with
      valid := p.numbered = (numberedInput, numberedOutput, numberedFeature)
      active := true
      next := some now }
  | .stop => { p with active := false, next := none }
  | .open => p
  | .close => p

end SnapshotProtocol

instance : Protocol (SnapshotProtocol S R) S RawReverseEvent where
  neutral p := p.neutral
  validate _ _ := .ok ()
  input := SnapshotProtocol.input
  deadline p := p.next
  request p kind _ := p.request kind
  output report _ := SnapshotProtocol.output report
  lifecycle p event now := (some (.hidLifecycle event), p.lifecycle event now)
  delivered p _ _ := p

section DualShock4

/-- The sequence and the clock of the wire are the personality's. -/
def ds4Encode (state : DualShock4State) (now : ℕ) (sequence : UInt8) : Report :=
  let wire := { state with
    sequence, sensorTimestamp := UInt16.ofNat (now / 16 * 3), touchSequence := sequence }
  logicalInput (ds4Frame wire) (ds4_framed wire)

def ds4Validate (report : Report) : Except ReplyError Unit :=
  if report.kind ≠ .output ∨ report.id ≠ some 5 then .error .unsupported
  else if report.payload.length ≠ 31 then .error .invalid
  else .ok ()

theorem ds4_applies : Applies DualShock4OutputState ds4Validate := by
  intro s report h
  unfold ds4Validate at h
  split at h
  · cases h
  · split at h
    · cases h
    · next hlength => exact dualShock4_applies (not_not.mp hlength) s

def dualshock4Protocol (identity : Vector UInt8 6) :
    SnapshotProtocol DualShock4State DualShock4OutputState :=
  .new .default ds4Encode ds4Validate ds4_applies (dualshock4FeatureResponses identity)
    (true, true, true) (some 4000)

end DualShock4

section Xbox360

def xbox360Encode (state : Xbox360State) (_now : ℕ) (_sequence : UInt8) : Report :=
  logicalInput (xboxHidFrame state) (xbox_framed state)

def xbox360Protocol : SnapshotProtocol Xbox360State Xbox360OutputState :=
  .new .default xbox360Encode (fun _ => .error .unsupported) (fun _ _ h => (by cases h)) []
    (false, false, false) none

end Xbox360

section DualSense

def acceptOutput (report : Report) : Except ReplyError Unit :=
  if report.kind ≠ .output ∨ report.id ≠ some 2 then .error .unsupported
  else if report.payload.length = 47 ∨ report.payload.length = 62 then .ok ()
  else .error .invalid

structure DualSenseUsbProtocol (R : Type) [OutputState R] where
  retained : R
  applies : Applies R acceptOutput
  features : Features
  sequence : UInt8
  nextInput : ℕ
  active : Bool
  numberingValid : Bool
  lastInput : Option Report

namespace DualSenseUsbProtocol

def new (identity : Vector UInt8 6) : DualSenseUsbProtocol DualSenseOutputState where
  retained := OutputState.default
  applies := fun s report _ => dualSense_applies s report
  features := dualsenseFeatureResponses identity
  sequence := 1
  nextInput := 0
  active := true
  numberingValid := true
  lastInput := none

def input (state : DualSenseState) (now : ℕ) :
    Fallible.Action Error (DualSenseUsbProtocol R) (List Report) := fun p =>
  if !p.numberingValid then (.error .framing, p)
  else if !p.active then (.ok [], p)
  else
    let sample := { state with
      inputSequence := p.sequence, sensorTimestamp := UInt32.ofNat (now * 3) }
    let report := logicalInput (dualsenseHidInputReport sample) (dualsense_framed sample)
    (.ok [report], { p with
      lastInput := some report
      sequence := p.sequence + 1
      nextInput := saturatingAdd now 4000 })

def request (p : DualSenseUsbProtocol R) (kind : RequestKind) :
    (Reply × Option RawReverseEvent) × DualSenseUsbProtocol R :=
  match kind with
  | .get .feature (some id) => ((.get (feature p.features true id), none), p)
  | .get .input id =>
    match p.lastInput with
    | some report =>
      if id = some 1 then ((.get (.ok report), none), p) else ((.get (.error .unsupported), none), p)
    | none => ((.get (.error .unsupported), none), p)
  | .get _ _ => ((.get (.error .unsupported), none), p)
  | .set report =>
    match accepting p.applies p.retained report with
    | .ok retained => ((.set (.ok ()), some (observe report)), { p with retained })
    | .error e => ((.set (.error e), none), p)

def output (report : Report) : Fallible.Action Error (DualSenseUsbProtocol R) (Option RawReverseEvent) :=
  fun p =>
    if (acceptOutput report).isOk then
      match accepting p.applies p.retained report with
      | .ok retained => (.ok (some (observe report)), { p with retained })
      | .error _ => (.error .invalidState, p)
    else (.ok (some (observe report)), p)

def lifecycle (p : DualSenseUsbProtocol R) (event : Lifecycle) (now : ℕ) : DualSenseUsbProtocol R :=
  match event with
  | .start numberedInput numberedOutput numberedFeature =>
    { p with
      numberingValid := numberedInput && numberedOutput && numberedFeature
      active := true
      nextInput := now }
  | .stop => { p with active := false }
  | .open => p
  | .close => p

end DualSenseUsbProtocol

instance : Protocol (DualSenseUsbProtocol R) DualSenseState RawReverseEvent where
  neutral _ := .default
  validate _ _ := .ok ()
  input := DualSenseUsbProtocol.input
  deadline p := if p.active then some p.nextInput else none
  request p kind _ := p.request kind
  output report _ := DualSenseUsbProtocol.output report
  lifecycle p event now := (some (.hidLifecycle event), p.lifecycle event now)
  delivered p _ _ := p

end DualSense

end Personalities

end SnapshotPersonalities
