import VirtualGamepad.Panicking
import VirtualGamepad.WiiRemote

/-! The data reports of a Wii Remote, in the modes that a host can select. -/
namespace WiiReports

open HidRuntime (Report Framed Error)
open Panicking WiiRemote

/-- Report numbers with their payload sizes. -/
def modes : List (UInt8 × ℕ) :=
  [(0x30, 2), (0x31, 5), (0x32, 10), (0x33, 17), (0x34, 21), (0x35, 21), (0x36, 21), (0x37, 21),
    (0x3d, 21), (0x3e, 21), (0x3f, 21)]

/-- A packet that does not fit a report is a defect of the codec. -/
def input {ε : Type} (id : UInt8) (payload : List UInt8) : Outcome ε Report :=
  match Report.new .input (some id) payload with
  | .ok report => .ok report
  | .error _ => .panicked

def core (state : WiiRemoteState) : List UInt8 :=
  let b := state.buttons
  [bit b[0] 0 ||| bit b[1] 1 ||| bit b[3] 2 ||| bit b[2] 3 ||| bit b[4] 4,
    bit b[7] 0 ||| bit b[6] 1 ||| bit b[9] 2 ||| bit b[8] 3 ||| bit b[5] 4 ||| bit b[10] 7]

def coordinates (point : Option WiiIrPoint) : UInt16 × UInt16 :=
  (point.map fun p => (p.x, p.y)).getD (1023, 1023)

/-- Two points share the byte with their high bits. -/
def irPair (first second : Option WiiIrPoint) : List UInt8 :=
  let (x, y) := coordinates first
  let (x', y') := coordinates second
  let high := (x >>> 8).toUInt8 ||| ((y >>> 8).toUInt8 <<< 2)
  let high' := (x' >>> 8).toUInt8 ||| ((y' >>> 8).toUInt8 <<< 2)
  let middle : UInt8 := (0xff : UInt8) &&& (0x0f : UInt8) ||| high <<< (4 : UInt8)
  [x.toUInt8, y.toUInt8, middle &&& (0xf0 : UInt8) ||| high', x'.toUInt8, y'.toUInt8]

def basicIr (state : WiiRemoteState) : List UInt8 :=
  irPair state.ir[0] state.ir[1] ++ irPair state.ir[2] state.ir[3]

def extensionWindow (mode : UInt8) : Option (ℕ × ℕ) :=
  if mode = 0x32 then some (2, 8)
  else if mode = 0x34 then some (2, 19)
  else if mode = 0x35 then some (5, 16)
  else if mode = 0x36 then some (12, 9)
  else if mode = 0x37 then some (15, 6)
  else if mode = 0x3d then some (0, 21)
  else none

section Data

variable {ε : Type}

def withCore (mode : UInt8) (state : WiiRemoteState) (bytes : List UInt8) :
    Outcome ε (List UInt8) :=
  if mode ≠ 0x3d then copyFromSlice bytes 0 2 (core state) else .ok bytes

def withAcceleration (mode : UInt8) (state : WiiRemoteState) (bytes : List UInt8) :
    Outcome ε (List UInt8) :=
  let x := state.accelerometer[0]
  let y := state.accelerometer[1]
  let z := state.accelerometer[2]
  if mode = 0x31 ∨ mode = 0x33 ∨ mode = 0x35 ∨ mode = 0x37 then do
    let bytes ← update bytes 0 (· ||| ((x &&& 3).toUInt8 <<< 5))
    let bytes ← update bytes 1
      (· ||| (((y >>> 1) &&& 1).toUInt8 <<< 5 ||| ((z >>> 1) &&& 1).toUInt8 <<< 6))
    copyFromSlice bytes 2 5 [(x >>> 2).toUInt8, (y >>> 2).toUInt8, (z >>> 2).toUInt8]
  else if mode = 0x3e then do
    let bytes ← update bytes 0 (· ||| ((z >>> 6) &&& 3).toUInt8 <<< 5)
    let bytes ← update bytes 1 (· ||| ((z >>> 8) &&& 3).toUInt8 <<< 5)
    update bytes 2 fun _ => (x >>> 2).toUInt8
  else if mode = 0x3f then do
    let bytes ← update bytes 0 (· ||| ((z >>> 2) &&& 3).toUInt8 <<< 5)
    let bytes ← update bytes 1 (· ||| ((z >>> 4) &&& 3).toUInt8 <<< 5)
    update bytes 2 fun _ => (y >>> 2).toUInt8
  else .ok bytes

def fill (bytes : List UInt8) (start stop : ℕ) (value : UInt8) : Outcome ε (List UInt8) :=
  copyFromSlice bytes start stop (List.replicate (stop - start) value)

/-- Extended points have no typed size, so visible ones are refused. -/
def withIr (mode : UInt8) (state : WiiRemoteState) (ir : Bool) (bytes : List UInt8) :
    Outcome Error (List UInt8) :=
  if mode = 0x33 then do
    let bytes ← fill bytes 5 17 0xff
    if ir ∧ state.visible then .error .invalidState else .ok bytes
  else if mode = 0x36 ∨ mode = 0x37 then
    let offset := if mode = 0x36 then 2 else 5
    copyFromSlice bytes offset (offset + 10)
      (if ir then basicIr state else List.replicate 10 0xff)
  else if mode = 0x3e ∨ mode = 0x3f then fill bytes 3 bytes.length 0xff
  else .ok bytes

def withWindow (mode : UInt8) (bytes : List UInt8) : Outcome ε (List UInt8) :=
  match extensionWindow mode with
  | some (offset, size) => fill bytes offset (offset + size) 0xff
  | none => .ok bytes

def data (mode : UInt8) (state : WiiRemoteState) (ir : Bool) : Outcome Error Report :=
  match modes.find? (·.1 = mode) with
  | none => .error .invalidState
  | some (_, length) =>
    if (mode = 0x3e ∨ mode = 0x3f) ∧ ir ∧ state.visible then .error .invalidState
    else do
      let bytes ← withCore mode state (List.replicate length 0)
      let bytes ← withAcceleration mode state bytes
      let bytes ← withIr mode state ir bytes
      let bytes ← withWindow mode bytes
      input mode bytes

end Data

end WiiReports
