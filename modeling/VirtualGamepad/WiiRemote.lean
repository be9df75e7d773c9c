import VirtualGamepad.ControllerContract
import VirtualGamepad.WireBytes

/-! The native state of a Wii Remote, with its accessories and the outputs the host asked for. -/
namespace WiiRemote

open ControllerContract

inductive WiiRemoteRevision where
  | original
  | earlyIntegratedPlus
  | tr
  deriving DecidableEq, Repr

def WiiRemoteRevision.hasIdentityEvidence (r : WiiRemoteRevision) : Bool := r ≠ .earlyIntegratedPlus

structure WiiRemoteCreationOptions where
  motionplusPassthroughIdMirror : Bool
  motionplusPassthroughCalibrationCopy : Bool
  motionplusInactiveIdExternalStyle : Bool
  motionplusActivationReattachStatus : Bool
  deriving DecidableEq, Repr

def WiiRemoteCreationOptions.default : WiiRemoteCreationOptions := ⟨true, true, false, true⟩

structure WiiIrPoint where
  x : UInt16
  y : UInt16
  inRange : x ≤ 1023 ∧ y ≤ 767
  deriving DecidableEq, Repr

def WiiIrPoint.new (x y : UInt16) : Except ControlError WiiIrPoint :=
  if h : x ≤ 1023 ∧ y ≤ 767 then .ok ⟨x, y, h⟩
  else .error (.unsupportedControl "IR point outside the source-backed coordinate domain")

structure WiiNunchukState where
  stick : Vector UInt8 2
  accelerometer : Vector UInt16 3
  c : Bool
  z : Bool
  deriving DecidableEq, Repr

def WiiNunchukState.default : WiiNunchukState :=
  ⟨Vector.replicate 2 128, Vector.replicate 3 0, false, false⟩

structure WiiClassicState where
  left : Vector UInt8 2
  right : Vector UInt8 2
  triggers : Vector UInt8 2
  /-- A, B, X, Y, ZL, ZR, Plus, Minus, Home, Left, Right, Up, Down, L, R. -/
  buttons : Vector Bool 15
  deriving DecidableEq, Repr

def WiiClassicState.default : WiiClassicState :=
  ⟨Vector.replicate 2 32, Vector.replicate 2 16, Vector.replicate 2 0, Vector.replicate 15 false⟩

/-- One downstream accessory, apart from a MotionPlus bridge. -/
inductive WiiExtension where
  | none
  | nunchuk (state : WiiNunchukState)
  | classic (state : WiiClassicState)
  | classicPro (state : WiiClassicState)
  deriving DecidableEq, Repr

structure WiiMotionPlusState where
  attached : Bool
  /-- Pitch, roll, yaw. -/
  gyroscope : Vector UInt16 3
  slow : Vector Bool 3
  deriving DecidableEq, Repr

def WiiMotionPlusState.default : WiiMotionPlusState :=
  ⟨false, Vector.replicate 3 8192, Vector.replicate 3 false⟩

structure WiiRemoteState where
  revision : WiiRemoteRevision
  /-- Left, Right, Up, Down, Plus, Minus, One, Two, A, B, Home. -/
  buttons : Vector Bool 11
  accelerometer : Vector UInt16 3
  ir : Vector (Option WiiIrPoint) 4
  extension : WiiExtension
  motionPlus : WiiMotionPlusState
  battery : UInt8
  deriving DecidableEq, Repr

def WiiRemoteState.new (revision : WiiRemoteRevision) : WiiRemoteState where
  revision
  buttons := Vector.replicate 11 false
  accelerometer := Vector.replicate 3 0
  ir := Vector.replicate 4 none
  extension := .none
  motionPlus :=
    { WiiMotionPlusState.default with
      attached := revision = .tr ∨ revision = .earlyIntegratedPlus }
  battery := 0

def WiiRemoteState.default : WiiRemoteState := .new .original

/-- The camera sees a point. -/
def WiiRemoteState.visible (state : WiiRemoteState) : Bool := state.ir.any Option.isSome

/-- The kind of an extension, without its values. -/
inductive Kind where
  | none
  | nunchuk
  | classic
  | classicPro
  deriving DecidableEq, Repr

def WiiExtension.kind : WiiExtension → Kind
  | .none => .none
  | .nunchuk _ => .nunchuk
  | .classic _ => .classic
  | .classicPro _ => .classicPro

/-- What the host asked for and retains. -/
structure WiiRemoteOutputs where
  revision : ℕ
  leds : Vector Bool 4
  rumble : Bool
  deriving DecidableEq, Repr

def WiiRemoteOutputs.default : WiiRemoteOutputs := ⟨0, Vector.replicate 4 false, false⟩

namespace Extensions

def valid : WiiExtension → Bool
  | .none => true
  | .nunchuk n => n.accelerometer.all (· ≤ 1023)
  | .classic c => c.left.all (· ≤ 63) && c.right.all (· ≤ 31) && c.triggers.all (· ≤ 31)
  | .classicPro _ => false

def validate (extension : WiiExtension) : Except ControlError Unit :=
  if valid extension then .ok ()
  else .error (.unsupportedControl "extension values or revision lack source-backed representation")

end Extensions

def bit (b : Bool) (i : UInt8) : UInt8 := (if b then 1 else 0) <<< i

end WiiRemote
