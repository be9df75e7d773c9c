import VirtualGamepad.WiiMemory

/-! The HID personality of a Wii Remote: what a host report changes, what it is answered, and what
one input call sends. -/
namespace WiiProtocol

open HidRuntime (Report ReportType Framed Error ReplyError Lifecycle)
open ControllerContract MachineInt Panicking WiiRemote WiiReports WiiMemory
open Panicking.Action

section Packets

def accessory : WiiExtension → Vector UInt8 6
  | .nunchuk n =>
    let x := n.accelerometer.get 0
    let y := n.accelerometer.get 1
    let z := n.accelerometer.get 2
    #v[n.stick.get 0, n.stick.get 1, (x >>> 2).toUInt8, (y >>> 2).toUInt8, (z >>> 2).toUInt8,
      bit (!n.z) 0 ||| bit (!n.c) 1 ||| (x &&& 3).toUInt8 <<< 2 ||| (y &&& 3).toUInt8 <<< 4 |||
        (z &&& 3).toUInt8 <<< 6]
  | .classic c =>
    let masks : List UInt16 :=
      [0x1000, 0x4000, 0x0800, 0x2000, 0x8000, 0x0400, 0x0004, 0x0010, 0x0008, 0x0200, 0x0080,
        0x0100, 0x0040, 0x0020, 0x0002]
    let pressed : UInt16 :=
      (c.buttons.toList.zip masks).foldl (fun bits (on, mask) => if on then bits ||| mask else bits) 0
    let keys : UInt16 := ~~~pressed
    let rx := c.right.get 0
    let lt := c.triggers.get 0
    #v[c.left.get 0 ||| (rx >>> 3) <<< 6, c.left.get 1 ||| ((rx >>> 1) &&& 3) <<< 6,
      c.right.get 1 ||| (lt >>> 3) <<< 5 ||| (rx &&& 1) <<< 7, c.triggers.get 1 ||| (lt &&& 7) <<< 5,
      keys.toUInt8, (keys >>> 8).toUInt8]
  | _ => Vector.replicate 6 0xff

/-- An accessory packet as an active MotionPlus passes it on. -/
def passthrough (mode : UInt8) (downstream : Bool) (b : Vector UInt8 6) : Vector UInt8 6 :=
  let connected : UInt8 := bit downstream 0
  let fourth : UInt8 := b[4]
  let last : UInt8 := b[5]
  let low : UInt8 := fourth &&& ~~~(1 : UInt8) ||| connected
  if mode = 5 then
    let kept : UInt8 := last &&& 0x20
    let high : UInt8 := (last &&& 0x80) >>> 1
    let moved : UInt8 := kept ||| high ||| (fourth &&& 1) <<< 7 ||| (last &&& 8) <<< 1 |||
      (last &&& 2) <<< 2 ||| (last &&& 1) <<< 2
    #v[b[0], b[1], b[2], b[3], low, moved &&& ~~~(3 : UInt8)]
  else
    let first : UInt8 := b[0] &&& ~~~(1 : UInt8) ||| (last &&& 1)
    let second : UInt8 := b[1] &&& ~~~(1 : UInt8) ||| ((last >>> 1) &&& 1)
    #v[first, second, b[2], b[3], low, last &&& ~~~(3 : UInt8)]

def gyroscope (state : WiiRemoteState) (downstream : Bool) : Vector UInt8 6 :=
  let pitch := state.motionPlus.gyroscope.get 0
  let roll := state.motionPlus.gyroscope.get 1
  let yaw := state.motionPlus.gyroscope.get 2
  let slow := state.motionPlus.slow
  #v[yaw.toUInt8, roll.toUInt8, pitch.toUInt8,
    (yaw >>> 8).toUInt8 <<< 2 ||| bit (slow.get 0) 0 ||| bit (slow.get 2) 1,
    (roll >>> 8).toUInt8 <<< 2 ||| bit downstream 0 ||| bit (slow.get 1) 1,
    (pitch >>> 8).toUInt8 <<< 2 ||| 2]

/-- An active MotionPlus and the accessory behind it take turns. -/
def packet (state : WiiRemoteState) (m : Memory) : Vector UInt8 6 × Memory :=
  match m.mpMode with
  | some mode =>
    let downstream := state.extension.kind ≠ .none
    let passes := (mode = 5 ∧ state.extension.kind = .nunchuk) ∨
      (mode = 7 ∧ state.extension.kind = .classic)
    let m := { m with mpTurn := !m.mpTurn }
    if passes ∧ ¬m.mpTurn then (passthrough mode downstream (accessory state.extension), m)
    else (gyroscope state downstream, m)
  | none =>
    if m.initialized = (true, true) then (accessory state.extension, m)
    else (Vector.replicate 6 0xff, m)

end Packets

/-- The most replies that may be queued. -/
def maxPending : ℕ := 28

inductive Reporting where
  | running
  | awaitingMode
  deriving DecidableEq, Repr

structure SpeakerControl where
  enabled : Bool
  muted : Bool
  deriving DecidableEq, Repr

structure Wii where
  state : WiiRemoteState
  outputs : WiiRemoteOutputs
  mode : UInt8
  reporting : Reporting
  memory : Memory
  read : Option Read
  irEnabled : Bool × Bool
  speaker : SpeakerControl
  pending : List Report
  next : Option ℕ
  active : Bool
  startStatus : Bool
  valid : Bool
  deriving DecidableEq

namespace Wii

def default : Wii where
  state := .default
  outputs := .default
  mode := 0x30
  reporting := .running
  memory := .default
  read := none
  irEnabled := (false, false)
  speaker := ⟨false, false⟩
  pending := []
  next := none
  active := true
  startStatus := false
  valid := true

def withImage (image : WiiEepromImage) : Wii := { default with memory := .withImage image }

def withCreationOptions (image : WiiEepromImage) (options : WiiRemoteCreationOptions) : Wii :=
  let w := withImage image
  { w with memory := { w.memory with options } }

end Wii

section Replies

def ledBits (leds : Vector Bool 4) : UInt8 :=
  bit (leds.get 0) 4 ||| bit (leds.get 1) 5 ||| bit (leds.get 2) 6 ||| bit (leds.get 3) 7

def flags (w : Wii) : UInt8 :=
  bit (w.state.battery < 0x20) 0 ||| bit (w.memory.present w.state) 1 ||| bit w.speaker.enabled 2 |||
    bit w.irEnabled.1 3 ||| ledBits w.outputs.leds

theorem framed_core (state : WiiRemoteState) {id : UInt8} (hid : id ≠ 0) (tail : List UInt8)
    (htail : tail.length ≤ 4) : Framed (some id) (core state ++ tail) := by
  constructor
  · intro h
    exact hid (Option.some.inj h)
  · rw [List.length_append, Option.isSome_some, if_pos rfl]
    have hcore : (core state).length = 2 := rfl
    omega

def statusWith (w : Wii) (flags : UInt8) : Report :=
  ⟨.input, some 0x20, core w.state ++ [flags, 0, 0, w.state.battery],
    framed_core w.state (by decide) _ (by simp)⟩

def status (w : Wii) : Report := statusWith w (flags w)

/-- The status with the accessory taken away. -/
def unplugged (w : Wii) : Report := statusWith w (flags w &&& ~~~2)

def ack (w : Wii) (id code : UInt8) : Report :=
  ⟨.input, some 0x22, core w.state ++ [id, code], framed_core w.state (by decide) _ (by simp)⟩

def push (reply : Wii → Report) (w : Wii) : Wii := { w with pending := w.pending ++ [reply w] }

end Replies

section Attachment

/-- Configuration without a host. -/
def installAttachment (extension : WiiExtension) (motionPlus : Bool) : Action Error Wii Unit := do
  match Extensions.validate extension with
  | .error _ => fail .invalidState
  | .ok () =>
    modify fun w => { w with
      state := { w.state with
        extension, motionPlus := { w.state.motionPlus with attached := motionPlus } }
      memory := w.memory.resetExtension }

/-- Exchanging an accessory that is present shows both edges. While the host is away it only leaves
its configuration. -/
def changeAttachment (extension : WiiExtension) (motionPlus : Bool) (now : ℕ) :
    Action Error Wii Unit := do
  match Extensions.validate extension with
  | .error _ => fail .invalidState
  | .ok () =>
    let w ← get
    let replacement := w.memory.present w.state && extension.kind ≠ .none
    if !w.active then
      installAttachment extension motionPlus
      modify fun w => { w with reporting := .awaitingMode }
    else if maxPending < w.pending.length + (if replacement then 2 else 1) then fail .queueFull
    else
      installAttachment extension motionPlus
      modify fun w => { w with reporting := .awaitingMode }
      if replacement then modify (push unplugged)
      modify (push status)
      modify fun w => { w with next := some now }

end Attachment

section Host

def payloadSize (id : UInt8) : Option ℕ :=
  if id = 0x10 ∨ id = 0x11 ∨ id = 0x13 ∨ id = 0x14 ∨ id = 0x15 ∨ id = 0x19 ∨ id = 0x1a then some 1
  else if id = 0x12 then some 2
  else if id = 0x16 ∨ id = 0x18 then some 21
  else if id = 0x17 then some 6
  else none

/-- A write that takes an active MotionPlus away. -/
def deactivates (w : Wii) (id : UInt8) (p : List UInt8) : Outcome ReplyError Bool :=
  if id = 0x16 ∧ w.memory.mpMode.isSome then do
    let space := ((← index p 0) >>> 2) &&& 3
    let slave := (← index p 1) >>> 1
    let offset ← index p 3
    let size ← index p 4
    let value ← index p 5
    return (space = 1 ∨ space = 2) ∧ slave = 0x52 ∧ size = 1 ∧
      ((offset = 0xf0 ∧ value = 0x55) ∨ (offset = 0xfe ∧ ¬(value = 4 ∨ value = 5 ∨ value = 7)))
  else return false

/-- A write that activates a MotionPlus in front of an accessory, tried on a copy of the memory. -/
def reattaches (w : Wii) (id : UInt8) (p : List UInt8) : Outcome ReplyError Bool :=
  if id = 0x16 ∧ w.memory.mpMode.isNone ∧ w.memory.options.motionplusActivationReattachStatus ∧
      w.memory.present w.state then
    match w.memory.write w.state p with
    | (.ok _, candidate) => .ok (candidate.mpMode.isSome ∧ candidate.mpMode ≠ w.memory.mpMode)
    | (.error e, _) => .error e
    | (.panicked, _) => .panicked
  else return false

def selectMode (p : List UInt8) : Action ReplyError Wii Unit := do
  let mode ← lift (index p 1)
  if ¬modes.any (·.1 = mode) then fail .invalid
  else
    let w ← get
    let _ ← lift ((data mode w.state w.irEnabled.1).mapError fun _ => .invalid)
    modify fun w => { w with mode, reporting := .running }

def onMemory {ε α : Type} (m : Action ε Memory α) : Action ε Wii α :=
  zoom Wii.memory (fun memory w => { w with memory }) m

/-- `both` asks for the two edges of an accessory that changed its mode. -/
def writeMemory (p : List UInt8) (both : Bool) : Action ReplyError Wii Unit := do
  let size ← lift (index p 4)
  if size = 0 ∨ 16 < size then fail .invalid
  else
    let before ← get
    let code ← onMemory (Memory.write before.state p)
    modify (push (ack · 0x16 code))
    let w ← get
    if before.memory.mpMode ≠ w.memory.mpMode then
      modify fun w => { w with reporting := .awaitingMode }
      if both then modify (push unplugged)
      modify (push status)

def startRead (p : List UInt8) : Action ReplyError Wii Unit := do
  let w ← get
  if w.read.isSome then modify (push (ack · 0x17 4))
  else
    let read ← lift (Read.new p)
    modify fun w => { w with read }

def setBit (p : List UInt8) (mask : UInt8) (set : Bool → Wii → Wii) : Action ReplyError Wii Unit := do
  let b ← lift (index p 0)
  modify (set (b &&& mask ≠ 0))

def dispatch (id : UInt8) (p : List UInt8) (both : Bool) : Action ReplyError Wii Unit :=
  if id = 0x11 then do
    let b ← lift (index p 0)
    modify fun w => { w with outputs := { w.outputs with
      leds := #v[b &&& 0x10 ≠ 0, b &&& 0x20 ≠ 0, b &&& 0x40 ≠ 0, b &&& 0x80 ≠ 0] } }
  else if id = 0x12 then selectMode p
  else if id = 0x13 then setBit p 4 fun on w => { w with irEnabled := (on, w.irEnabled.2) }
  else if id = 0x14 then setBit p 4 fun on w => { w with speaker := { w.speaker with enabled := on } }
  else if id = 0x19 then setBit p 4 fun on w => { w with speaker := { w.speaker with muted := on } }
  else if id = 0x1a then setBit p 4 fun on w => { w with irEnabled := (w.irEnabled.1, on) }
  else if id = 0x15 then do
    setBit p 1 fun on w => { w with outputs := { w.outputs with rumble := on } }
    modify (push status)
  else if id = 0x16 then writeMemory p both
  else if id = 0x17 then startRead p
  else return ()

/-- The reports whose acknowledgement a host may ask for. -/
def acknowledges (id : UInt8) : Bool :=
  id = 0x11 || id = 0x12 || id = 0x13 || id = 0x14 || id = 0x19 || id = 0x1a

/-- The candidate has to be encodable before it is accepted. -/
def finish (id : UInt8) (p : List UInt8) (before : WiiRemoteOutputs) (now : ℕ) :
    Action ReplyError Wii Unit := do
  let w ← get
  let _ ← lift ((data w.mode w.state w.irEnabled.1).mapError fun _ => .invalid)
  setBit p 1 fun on w => { w with outputs := { w.outputs with rumble := on } }
  let w ← get
  if w.outputs.leds ≠ before.leds ∨ w.outputs.rumble ≠ before.rumble then
    match checkedAdd before.revision 1 with
    | none => fail .busy
    | some revision => modify fun w => { w with outputs := { w.outputs with revision } }
  let b ← lift (index p 0)
  if acknowledges id ∧ b &&& 2 ≠ 0 then modify (push (ack · id 0))
  modify fun w => { w with next := some now }

def acceptInner (report : Report) (now : ℕ) : Action ReplyError Wii Unit := do
  let w ← get
  if !w.active || !w.valid then fail .unsupported
  else if report.kind ≠ .output then fail .unsupported
  else
    match report.id with
    | none => fail .unsupported
    | some id =>
      match payloadSize id with
      | none => fail .unsupported
      | some size =>
        let p := report.payload
        if p.length ≠ size then fail .invalid
        else
          let deactivating ← lift (deactivates w id p)
          let activationReattach ← lift (reattaches w id p)
          let replies := if deactivating || activationReattach then 3 else if id = 0x16 then 2 else 1
          if maxPending < w.pending.length + replies then fail .busy
          else
            dispatch id p (deactivating || activationReattach)
            finish id p w.outputs now

/-- Works on a copy, which replaces the personality only on success. -/
def accept (report : Report) (now : ℕ) : Action ReplyError Wii Unit := fun w =>
  match acceptInner report now w with
  | (.ok (), next) => (.ok (), next)
  | (.error e, _) => (.error e, w)
  | (.panicked, _) => (.panicked, w)

end Host

section Input

def validate (w : Wii) (state : WiiRemoteState) : Outcome Error Unit :=
  if ¬w.valid ∨ ¬state.revision.hasIdentityEvidence ∨ state.accelerometer.any (1023 < ·) then
    .error .invalidState
  else if ¬Extensions.valid state.extension then .error .invalidState
  else if state.motionPlus.gyroscope.any (16383 < ·) then .error .invalidState
  else do
    let _ ← data w.mode state w.irEnabled.1
    return ()

/-- One chunk of the read in progress. -/
def chunk (state : WiiRemoteState) : Action Error Wii (List Report) := do
  let w ← get
  match w.read with
  | none => return []
  | some r =>
    let (bytes, rest, done) ← lift (w.memory.readChunk state r)
    let report ← lift (WiiReports.input 0x21 bytes)
    modify fun w => { w with read := if done then none else some rest }
    return [report]

/-- The accessory's window of a data report, once the accessory has been initialized. -/
def fillWindow (state : WiiRemoteState) (report : Report) : Action Error Wii Report := do
  let w ← get
  match extensionWindow w.mode with
  | none => return report
  | some (offset, size) =>
    if w.memory.mpMode.isSome ∨ w.memory.initialized = (true, true) then
      let (bytes, memory) := packet state w.memory
      modify fun w => { w with memory }
      let payload ← lift (fill report.payload offset (offset + size) 0)
      let payload ← lift (copyFromSlice payload offset (offset + 6) bytes.toList)
      lift (WiiReports.input w.mode payload)
    else return report

/-- The two interleaved modes alternate. -/
def nextMode (mode : UInt8) : UInt8 :=
  if mode = 0x3e then 0x3f else if mode = 0x3f then 0x3e else mode

def dataReport (state : WiiRemoteState) : Action Error Wii Report := do
  let w ← get
  let report ← lift (data w.mode state (w.irEnabled.1 && w.memory.irReady))
  let report ← fillWindow state report
  modify fun w => { w with mode := nextMode w.mode }
  return report

/-- The queued replies, with the status of a start in front. -/
def takeReplies : Action Error Wii (List Report) := fun w =>
  ((if w.startStatus then .ok (status w :: w.pending) else .ok w.pending),
    { w with startStatus := false, pending := [] })

/-- A read in progress asks for the next call at once. -/
def schedule (now : ℕ) (w : Wii) : Wii := { w with next := w.read.map fun _ => now }

def inputReports (state : WiiRemoteState) (now : ℕ) : Action Error Wii (List Report) := do
  let w ← get
  lift (validate w state)
  modify fun w => { w with state }
  if !w.active then
    modify fun w => { w with next := none }
    return []
  else
    let replies ← takeReplies
    let chunks ← chunk state
    if w.reporting = .awaitingMode then
      modify (schedule now)
      return replies ++ chunks
    else
      let report ← dataReport state
      modify (schedule now)
      return replies ++ chunks ++ [report]

end Input

def lifecycle (event : Lifecycle) (now : ℕ) (w : Wii) : Wii :=
  match event with
  | .start numberedInput numberedOutput numberedFeature =>
    { w with
      valid := numberedInput && numberedOutput && !numberedFeature
      active := true
      startStatus := true
      next := some now }
  | .stop =>
    { w with active := false, startStatus := false, pending := [], read := none, next := none }
  | .open | .close => w

end WiiProtocol
