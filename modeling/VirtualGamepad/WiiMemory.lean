import VirtualGamepad.WiiReports

/-! The memory of a Wii Remote: an EEPROM image and the registers of camera, speaker and
accessories. A host addresses it in writes of up to sixteen bytes and in reads that are answered
in chunks of sixteen. -/
namespace WiiMemory

open ControllerContract Panicking WireBytes WiiRemote
open WiiReports (core)

/-- An array of bytes. -/
structure Bytes (n : ℕ) where
  toList : List UInt8
  length_eq : toList.length = n
  deriving DecidableEq, Repr

def Bytes.zero (n : ℕ) : Bytes n := ⟨List.replicate n 0, List.length_replicate⟩

def Bytes.write {n : ℕ} (b : Bytes n) (start : ℕ) (src : List UInt8)
    (h : start + src.length ≤ n) : Bytes n :=
  ⟨overlay b.toList start src, by rw [length_overlay (by rw [b.length_eq]; exact h), b.length_eq]⟩

/-- Imported calibration blocks. -/
structure WiiExtensionCalibration where
  motionPlus : Option (Bytes 32)
  nunchuk : Option (Bytes 16)
  classic : Option (Bytes 16)
  deriving DecidableEq, Repr

/-- The image of an EEPROM that starts at address zero. -/
structure WiiEepromImage where
  bytes : List UInt8
  calibration : WiiExtensionCalibration
  bounded : bytes.length ≤ 65536
  deriving DecidableEq, Repr

namespace WiiEepromImage

def default : WiiEepromImage := ⟨[], ⟨none, none, none⟩, Nat.zero_le _⟩

def importBytes (bytes : List UInt8) : Except ControlError WiiEepromImage :=
  if h : bytes.length ≤ 65536 then .ok ⟨bytes, ⟨none, none, none⟩, h⟩
  else .error (.unsupportedControl "EEPROM model exceeds its source-backed address window")

def withExtensionCalibration (image : WiiEepromImage) (calibration : WiiExtensionCalibration) :
    WiiEepromImage :=
  { image with calibration }

def write (image : WiiEepromImage) (start : ℕ) (src : List UInt8)
    (h : start + src.length ≤ image.bytes.length) : WiiEepromImage :=
  { image with
    bytes := overlay image.bytes start src
    bounded := by rw [length_overlay h]; exact image.bounded }

end WiiEepromImage

structure Memory where
  options : WiiRemoteCreationOptions
  image : WiiEepromImage
  dirty : Bool
  initialized : Bool × Bool
  mpMode : Option UInt8
  mpInactiveMode : UInt8
  mpInitialized : Bool × Bool
  mpTurn : Bool
  camera : Bytes 52
  speaker : Bytes 10
  deriving DecidableEq

/-- A read in progress. -/
structure Read where
  space : UInt8
  slave : UInt8
  address : UInt16
  remaining : UInt16
  deriving DecidableEq, Repr

def be16 (high low : UInt8) : UInt16 := high.toUInt16 <<< 8 ||| low.toUInt16

def be16Bytes (value : UInt16) : List UInt8 := [(value >>> 8).toUInt8, value.toUInt8]

section Requests

variable {ε : Type}

def Read.new (p : List UInt8) : Outcome ε (Option Read) := do
  let remaining := be16 (← index p 4) (← index p 5)
  if remaining = 0 then return none
  else
    return some {
      space := ((← index p 0) >>> 2) &&& 3
      slave := (← index p 1) >>> 1
      address := be16 (← index p 2) (← index p 3)
      remaining }

end Requests

namespace Memory

def default : Memory where
  options := .default
  image := .default
  dirty := false
  initialized := (false, false)
  mpMode := none
  mpInactiveMode := 0
  mpInitialized := (false, false)
  mpTurn := false
  camera := Bytes.zero 52
  speaker := Bytes.zero 10

def withImage (image : WiiEepromImage) : Memory := { default with image }

def irReady (m : Memory) : Bool :=
  let mode := m.camera.toList.getD 0x33 0
  m.camera.toList.getD 0x30 0 = 8 ∧ (mode = 1 ∨ mode = 3 ∨ mode = 5)

def resetExtension (m : Memory) : Memory :=
  { m with
    initialized := (false, false)
    mpInitialized := (false, false)
    mpMode := none
    mpInactiveMode := 0
    mpTurn := false }

/-- The host sees an accessory. -/
def present (m : Memory) (state : WiiRemoteState) : Bool :=
  state.extension.kind ≠ .none || (state.motionPlus.attached && m.mpMode.isSome)

def deactivateMotionPlus (slave : UInt8) (m : Memory) : Memory :=
  let m := { m with
    mpInactiveMode := m.mpMode.getD m.mpInactiveMode
    mpMode := none
    mpInitialized := (true, false) }
  if slave = 0x52 ∧ m.initialized ≠ (true, true) then { m with initialized := (true, false) } else m

/-- The registers of a MotionPlus answer at one slave while it is active, at another while it is
not. -/
def motionPlusSelected (m : Memory) (state : WiiRemoteState) (slave : UInt8) : Bool :=
  state.motionPlus.attached &&
    ((slave = 0x53 && m.mpMode.isNone) || (slave = 0x52 && m.mpMode.isSome))

section Writes

variable {ε : Type}

open Action

def writeEeprom (address : ℕ) (data : List UInt8) : Action ε Memory UInt8 := fun m =>
  if h : address + data.length ≤ m.image.bytes.length then
    if slice m.image.bytes address data.length ≠ data then
      (.ok 0, { m with image := m.image.write address data h, dirty := true })
    else (.ok 0, m)
  else (.ok 8, m)

def writeSpeaker (address : ℕ) (data : List UInt8) : Action ε Memory UInt8 := fun m =>
  if h : address + data.length ≤ 10 then
    (.ok 0, { m with speaker := m.speaker.write address data h })
  else (.ok 7, m)

def cameraAccepts (offset : UInt8) (length : ℕ) : Bool :=
  (offset = 0x00 && 1 ≤ length && length ≤ 9) || (offset = 0x1a && 1 ≤ length && length ≤ 2) ||
    ((offset = 0x30 || offset = 0x33) && length = 1)

def writeCamera (offset : UInt8) (data : List UInt8) : Action ε Memory UInt8 := fun m =>
  if cameraAccepts offset data.length then
    if h : offset.toNat + data.length ≤ 52 then
      (.ok 0, { m with camera := m.camera.write offset.toNat data h })
    else (.panicked, m)
  else (.ok 7, m)

def writeMotionPlus (slave offset : UInt8) (data : List UInt8) : Action ε Memory UInt8 := fun m =>
  if offset = 0xfe ∧ data.length = 1 then
    if data = [4] ∨ data = [5] ∨ data = [7] then
      (.ok 0, { m with mpMode := data.head?, mpTurn := false })
    else (.ok 0, deactivateMotionPlus slave m)
  else if offset = 0xf0 ∧ data = [0x55] then (.ok 0, deactivateMotionPlus slave m)
  else if offset = 0xfb ∧ data = [0] ∧ m.mpInitialized.1 then
    (.ok 0, { m with mpInitialized := (m.mpInitialized.1, true) })
  else (.ok 7, m)

/-- Only the unencrypted start of an accessory is known. -/
def writeExtension (offset : UInt8) (data : List UInt8) : Action ε Memory UInt8 := fun m =>
  if offset = 0xf0 ∧ data = [0x55] then (.ok 0, { m with initialized := (true, false) })
  else if offset = 0xfb ∧ data = [0] ∧ m.initialized.1 then
    (.ok 0, { m with initialized := (m.initialized.1, true) })
  else (.ok 7, m)

/-- Answers with the error code of the acknowledgement. -/
def write (state : WiiRemoteState) (p : List UInt8) : Action ε Memory UInt8 := do
  let space := ((← lift (index p 0)) >>> 2) &&& 3
  let address := (be16 (← lift (index p 2)) (← lift (index p 3))).toNat
  let data ← lift (range p 5 (5 + (← lift (index p 4)).toNat))
  if space = 0 then writeEeprom address data
  else if ¬(space = 1 ∨ space = 2) then return 6
  else
    let slave := (← lift (index p 1)) >>> 1
    let offset ← lift (index p 3)
    let m ← get
    if slave = 0x50 then return 8
    else if slave = 0x51 then writeSpeaker address data
    else if slave = 0x58 then writeCamera offset data
    else if m.motionPlusSelected state slave then writeMotionPlus slave offset data
    else if slave ≠ 0x52 ∨ state.extension.kind = .none ∨ state.extension.kind = .classicPro then
      return 7
    else writeExtension offset data

end Writes

section Reads

/-- The whole remaining request has to lie in the block before a part of it is returned. -/
def windowRead (block : Option (List UInt8)) (offset base : ℕ) (remaining : UInt16) (count : ℕ) :
    Outcome UInt8 (List UInt8) :=
  match block with
  | none => .error 7
  | some block =>
    let start := offset - base
    if start + remaining.toNat ≤ block.length then range block start (start + count)
    else .error 7

def calibrationRead (block : Option (List UInt8)) (offset : ℕ) (remaining : UInt16) (count : ℕ) :
    Outcome UInt8 (List UInt8) :=
  windowRead block offset 0x20 remaining count

def motionplusIdentity (m : Memory) (state : WiiRemoteState) : List UInt8 :=
  let builtinId := state.revision = .tr ∧ ¬m.options.motionplusInactiveIdExternalStyle
  [0, 0, if m.mpMode.isSome ∨ builtinId then 0xa4 else 0xa6, 0x20, m.mpMode.getD m.mpInactiveMode, 5]

/-- The identity and the calibration of an accessory behind an active MotionPlus. -/
def child (m : Memory) (state : WiiRemoteState) : Option (List UInt8 × Option (Bytes 16)) :=
  match m.mpMode, state.extension with
  | some mode, .nunchuk _ =>
    if mode = 5 then some ([0, 0, 0xa4, 0x20, 0, 0], m.image.calibration.nunchuk) else none
  | some mode, .classic _ =>
    if mode = 7 then some ([0, 0, 0xa4, 0x20, 1, 1], m.image.calibration.classic) else none
  | _, _ => none

def readIdentity (id : List UInt8) (offset count : ℕ) : Outcome UInt8 (List UInt8) :=
  range id (offset - 0xfa) (offset - 0xfa + count)

def readMotionPlus (m : Memory) (state : WiiRemoteState) (offset : ℕ) (remaining : UInt16)
    (count : ℕ) : Outcome UInt8 (List UInt8) :=
  if 0x20 ≤ offset ∧ offset < 0x40 then
    calibrationRead (m.image.calibration.motionPlus.map Bytes.toList) offset remaining count
  else
    let identity :=
      if 0xfa ≤ offset then readIdentity (m.motionplusIdentity state) offset count
      else if offset = 0xfe ∧ count = 1 then .ok [m.mpMode.getD 0]
      else .error 7
    match m.child state with
    | some (id, calibration) =>
      if m.options.motionplusPassthroughIdMirror ∧ 0xf6 ≤ offset ∧ offset < 0xfa then
        windowRead (some [id.getD 4 0, 0x02, id.getD 0 0, id.getD 5 0]) offset 0xf6 remaining count
      else if m.options.motionplusPassthroughCalibrationCopy ∧ 0x40 ≤ offset ∧ offset < 0x50 then
        windowRead (calibration.map Bytes.toList) offset 0x40 remaining count
      else identity
    | none => identity

def readExtension (m : Memory) (state : WiiRemoteState) (offset : ℕ) (remaining : UInt16)
    (count : ℕ) : Outcome UInt8 (List UInt8) :=
  if 0x20 ≤ offset ∧ offset < 0x30 then
    let block :=
      match state.extension with
      | .nunchuk _ => m.image.calibration.nunchuk
      | .classic _ => m.image.calibration.classic
      | _ => none
    calibrationRead (block.map Bytes.toList) offset remaining count
  else
    match state.extension with
    | .nunchuk _ =>
      if 0xfa ≤ offset then readIdentity [0, 0, 0xa4, 0x20, 0, 0] offset count else .error 7
    | .classic _ =>
      if 0xfa ≤ offset then readIdentity [0, 0, 0xa4, 0x20, 1, 1] offset count else .error 7
    | _ => .error 7

def read (m : Memory) (state : WiiRemoteState) (r : Read) (count : ℕ) :
    Outcome UInt8 (List UInt8) :=
  if r.space = 0 then
    let start := r.address.toNat
    if 0x1700 < start + r.remaining.toNat then .error 8
    else if m.image.bytes.length < start + r.remaining.toNat then .error 8
    else range m.image.bytes start (start + count)
  else if ¬(r.space = 1 ∨ r.space = 2) then .error 6
  else if r.slave = 0x50 then .error 8
  else
    let offset := (r.address &&& 0xff).toNat
    if 256 < offset + count then .error 7
    else if m.motionPlusSelected state r.slave then readMotionPlus m state offset r.remaining count
    else if r.slave = 0x52 ∧ m.initialized = (true, true) then
      readExtension m state offset r.remaining count
    else .error 7

/-- The payload of one answer, what is left of the read, and whether it is over. -/
def readChunk {ε : Type} (m : Memory) (state : WiiRemoteState) (r : Read) :
    Outcome ε (List UInt8 × Read × Bool) :=
  let count := min r.remaining.toNat 16
  let head (flag : UInt8) : List UInt8 := core state ++ flag :: be16Bytes r.address
  match m.read state r count with
  | .ok data => do
    if count = 0 then .panicked
    else
      let result ← copyFromSlice (head (UInt8.ofNat (count - 1) <<< 4) ++ List.replicate 16 0) 5
        (5 + count) data
      let rest := { r with
        remaining := r.remaining - UInt16.ofNat count
        address := r.address + UInt16.ofNat count }
      return (result, rest, rest.remaining = 0)
  | .error code => return (head (0xf0 ||| code) ++ List.replicate 16 0, r, true)
  | .panicked => .panicked

end Reads

end Memory

end WiiMemory
