import Mathlib.Data.Int.Notation
import Mathlib.Tactic.TypeStar

/-! The complete semantic states of the controllers that a USB worker can present. -/
namespace NativeState

structure BatteryLevel where
  percent : UInt8
  inRange : percent ≤ 100
  deriving DecidableEq, Repr

def BatteryLevel.new (percent : UInt8) : Option BatteryLevel :=
  if h : percent ≤ 100 then some ⟨percent, h⟩ else none

structure BatteryState where
  exposed : Bool
  level : BatteryLevel
  deriving DecidableEq, Repr

def BatteryState.default : BatteryState := ⟨false, ⟨100, by decide⟩⟩

/-- A contact on a touch surface with these largest coordinates. -/
structure TouchContact (maxX maxY : UInt16) where
  id : UInt8
  x : UInt16
  y : UInt16
  xInRange : x ≤ maxX
  yInRange : y ≤ maxY
  deriving DecidableEq, Repr

def TouchContact.new {maxX maxY : UInt16} (id : UInt8) (x y : UInt16) :
    Option (TouchContact maxX maxY) :=
  if hx : x ≤ maxX then
    if hy : y ≤ maxY then some ⟨id, x, y, hx, hy⟩ else none
  else none

abbrev DualSenseTouchContact := TouchContact 1919 941

abbrev DualShock4TouchContact := TouchContact 1919 941

structure MotionSample where
  accelerometer : Vector Int16 3
  gyroscope : Vector Int16 3
  deriving DecidableEq, Repr

structure DualSenseState where
  face : Vector Bool 4
  dpad : Vector Bool 4
  left : UInt8 × UInt8
  right : UInt8 × UInt8
  triggers : UInt8 × UInt8
  buttons : Vector Bool 9
  touches : Vector (Option DualSenseTouchContact) 2
  motion : MotionSample
  inputSequence : UInt8
  sensorTimestamp : UInt32
  battery : BatteryState
  deriving DecidableEq, Repr

def DualSenseState.default : DualSenseState where
  face := .replicate 4 false
  dpad := .replicate 4 false
  left := (128, 128)
  right := (128, 128)
  triggers := (0, 0)
  buttons := .replicate 9 false
  touches := #v[none, none]
  motion := ⟨.replicate 3 0, .replicate 3 0⟩
  inputSequence := 1
  sensorTimestamp := 0
  battery := .default

structure DualShock4State where
  face : Vector Bool 4
  dpad : Vector Bool 4
  left : UInt8 × UInt8
  right : UInt8 × UInt8
  triggers : UInt8 × UInt8
  buttons : Vector Bool 8
  touches : Vector (Option DualShock4TouchContact) 2
  touchSequence : UInt8
  motion : MotionSample
  sequence : UInt8
  /-- In the wire's units of 5.33µs. -/
  sensorTimestamp : UInt16
  battery : BatteryState
  deriving DecidableEq, Repr

def DualShock4State.default : DualShock4State where
  face := .replicate 4 false
  dpad := .replicate 4 false
  left := (128, 128)
  right := (128, 128)
  triggers := (0, 0)
  buttons := .replicate 8 false
  touches := #v[none, none]
  touchSequence := 0
  motion := ⟨.replicate 3 0, .replicate 3 0⟩
  sequence := 0
  sensorTimestamp := 0
  battery := .default

structure Xbox360State where
  face : Vector Bool 4
  dpad : Vector Bool 4
  left : Int16 × Int16
  right : Int16 × Int16
  triggers : UInt8 × UInt8
  buttons : Vector Bool 7
  battery : BatteryState
  deriving DecidableEq, Repr

def Xbox360State.default : Xbox360State where
  face := .replicate 4 false
  dpad := .replicate 4 false
  left := (0, 0)
  right := (0, 0)
  triggers := (0, 0)
  buttons := .replicate 7 false
  battery := .default

end NativeState

inductive NativeState where
  | dualSense (state : NativeState.DualSenseState)
  | dualShock4 (state : NativeState.DualShock4State)
  | xbox360 (state : NativeState.Xbox360State)
  deriving DecidableEq, Repr
