import VirtualGamepad.ControllerContract
import VirtualGamepad.Panicking
import VirtualGamepad.SteamStreaming

/-! The HID personality of the wired Steam Controller: input frames, haptic outputs, and the feature
exchange in which a host sets a query and then gets its answer. -/
namespace SteamController

open HidRuntime (Report ReportType RequestKind Reply ReplyError Lifecycle Error Framed)
open ControllerContract (RawReverseEvent observe)
open SteamStreaming (StreamPacket StreamOutputs StreamState)
open Panicking WireBytes
open Panicking.Action

section Input

structure SteamTrackpadState where
  position : Int16 × Int16
  pressure : UInt16
  touch : Bool
  click : Bool
  deriving DecidableEq, Repr

structure SteamMotionSample where
  timestampUs : UInt32
  accelerometer : Int16 × Int16 × Int16
  gyroscope : Int16 × Int16 × Int16
  quaternion : Int16 × Int16 × Int16 × Int16
  deriving DecidableEq, Repr

/-- The native inputs; pairs are left and right. -/
structure State where
  buttons : UInt32
  sticks : (Int16 × Int16) × (Int16 × Int16)
  triggers : Int16 × Int16
  pads : SteamTrackpadState × SteamTrackpadState
  stickTouch : Bool × Bool
  gripTouch : Bool × Bool
  motion : SteamMotionSample
  deriving DecidableEq, Repr

def SteamTrackpadState.default : SteamTrackpadState := ⟨(0, 0), 0, false, false⟩

def SteamMotionSample.default : SteamMotionSample := ⟨0, (0, 0, 0), (0, 0, 0), (0, 0, 0, 0)⟩

def State.default : State :=
  ⟨0, ((0, 0), (0, 0)), (0, 0), (.default, .default), (false, false), (false, false), .default⟩

def bit32 (pressed : Bool) (bit : UInt32) : UInt32 := if pressed then (1 : UInt32) <<< bit else 0

def State.buttonBits (state : State) : UInt32 :=
  (state.buttons &&& 0x088fffff) ||| bit32 state.stickTouch.2 20 ||| bit32 state.pads.2.touch 21 |||
    bit32 state.pads.2.click 22 ||| bit32 state.stickTouch.1 24 ||| bit32 state.pads.1.touch 25 |||
    bit32 state.pads.1.click 26 ||| bit32 state.gripTouch.2 28 ||| bit32 state.gripTouch.1 29

def short (value : Int16) : List UInt8 := bytesLe 2 value.toUInt16.toNat

def padBytes (pad : SteamTrackpadState) : List UInt8 :=
  short pad.position.1 ++ short pad.position.2 ++ bytesLe 2 pad.pressure.toNat

def triple (values : Int16 × Int16 × Int16) : List UInt8 :=
  short values.1 ++ short values.2.1 ++ short values.2.2

/-- The primary frame, without its report number. -/
def inputPayload (state : State) (sequence : UInt8) : List UInt8 :=
  sequence :: bytesLe 4 state.buttonBits.toNat ++ short state.triggers.1 ++ short state.triggers.2 ++
    short state.sticks.1.1 ++ short state.sticks.1.2 ++ short state.sticks.2.1 ++
    short state.sticks.2.2 ++ padBytes state.pads.1 ++ padBytes state.pads.2 ++
    bytesLe 4 state.motion.timestampUs.toNat ++ triple state.motion.accelerometer ++
    triple state.motion.gyroscope ++ short state.motion.quaternion.1 ++
    triple state.motion.quaternion.2

def input (state : State) (sequence : UInt8) : Report :=
  ⟨.input, some 0x42, inputPayload state sequence, by
    simp [Framed, inputPayload, padBytes, triple, short]⟩

/-- Both triggers span 0 to 32767. -/
def validateTriggerValues (state : State) : Bool := 0 ≤ state.triggers.1 ∧ 0 ≤ state.triggers.2

end Input

section Haptics

inductive Haptic where
  | stream (packet : StreamPacket)
  | rumble (kind : UInt8) (intensity leftSpeed : UInt16) (leftGain : UInt8) (rightSpeed : UInt16)
      (rightGain : UInt8)
  | pulse (side : UInt8) (onUs offUs count : UInt16)
  | command (side command : UInt8) (gainDb : Int8)
  | lfo (side : UInt8) (gainDb : Int8) (frequency durationMs lfoFrequency : UInt16) (depth : UInt8)
  | sweep (side : UInt8) (gainDb : Int8) (durationMs start stop : UInt16)
  | script (side script : UInt8) (gainDb : Int8)
  deriving DecidableEq, Repr

def le (low high : UInt8) : UInt16 := low.toUInt16 ||| high.toUInt16 <<< 8

def Haptic.decode (report : Report) : Except ReplyError Haptic :=
  if report.kind ≠ .output then .error .unsupported
  else
    let b := report.payload
    -- the Singer client pads its nine bytes with zeros to a whole buffer
    let b := if report.id = some 0x83 ∧ b.length = 63 ∧ (b.drop 9).all (· = 0) then b.take 9 else b
    match report.id, b with
    | some 0x80, [kind, i, i', l, l', leftGain, r, r', rightGain] =>
      .ok (.rumble kind (le i i') (le l l') leftGain (le r r') rightGain)
    | some 0x81, [side, on, on', off, off', count, count'] =>
      .ok (.pulse side (le on on') (le off off') (le count count'))
    | some 0x82, [side, code, gain] => .ok (.command side code gain.toInt8)
    | some 0x83, [side, gain, f, f', d, d', l, l', depth] =>
      .ok (.lfo side gain.toInt8 (le f f') (le d d') (le l l') depth)
    | some 0x84, [side, gain, d, d', start, start', stop, stop'] =>
      .ok (.sweep side gain.toInt8 (le d d') (le start start') (le stop stop'))
    | some 0x85, [side, number, gain] => .ok (.script side number gain.toInt8)
    | some id, _ =>
      if 0x86 ≤ id ∧ id ≤ 0x88 then (StreamPacket.decode report).map .stream
      else if 0x80 ≤ id ∧ id ≤ 0x85 then .error .invalid
      else .error .unsupported
    | none, _ => .error .unsupported

/-- The slot of a haptic report among the six that are retained. -/
def hapticIndex (id : Option UInt8) : Option (Fin 6) :=
  match id with
  | some id =>
    if 0x80 ≤ id then
      if h : (id - 0x80).toNat < 6 then some ⟨(id - 0x80).toNat, h⟩ else none
    else none
  | none => none

end Haptics

section Settings

/-- A map from keys to values, with its keys in order. -/
abbrev SettingMap := List (UInt8 × UInt16)

def SettingMap.insert (key : UInt8) (value : UInt16) : SettingMap → SettingMap
  | [] => [(key, value)]
  | (k, v) :: rest =>
    if key < k then (key, value) :: (k, v) :: rest
    else if key = k then (key, value) :: rest
    else (k, v) :: SettingMap.insert key value rest

def SettingMap.get (key : UInt8) (settings : SettingMap) : Option UInt16 :=
  (settings.find? (·.1 = key)).map Prod.snd

structure Outputs where
  revision : ℕ
  haptics : Fin 6 → Option Haptic
  mappings : Option Bool
  lizard : Option Bool
  watchdog : Option UInt16
  imu : Option UInt16
  rgbw : Option (List UInt8)
  compatSettings : SettingMap
  deriving DecidableEq

def Outputs.default : Outputs := ⟨0, fun _ => none, none, none, none, none, none, []⟩

def steamClientSettingKeys : List UInt8 :=
  [7, 8, 9, 24, 34, 35, 45, 46, 48, 49, 50, 52, 53, 82, 84, 85]

/-- One entry of a settings list. -/
def applySetting (compat : Bool) (key : UInt8) (value : UInt16) (next : Outputs) :
    Except ReplyError Outputs := do
  let next ←
    if key = 9 then
      if value ≤ 1 then Except.ok { next with lizard := some (decide (value ≠ 0)) }
      else .error .invalid
    else if key = 37 ∧ compat then if value ≤ 1 then .ok next else .error .invalid
    else if key = 48 then .ok { next with imu := some value }
    else if key = 71 then .ok { next with watchdog := some value }
    else if compat ∧ key ∈ steamClientSettingKeys then .ok next
    else .error .unsupported
  if compat then .ok { next with compatSettings := next.compatSettings.insert key value }
  else .ok next

/-- A settings list, three bytes an entry. -/
def applySettings (compat : Bool) : List UInt8 → Outputs → Except ReplyError Outputs
  | key :: low :: high :: rest, next => do
    let next ← applySetting compat key (le low high) next
    applySettings compat rest next
  | _, next => .ok next

end Settings

section Queries

def ascii (text : String) : List UInt8 := text.toList.map fun c => UInt8.ofNat c.toNat

inductive NamedRead where
  | transport
  | absentRecord
  deriving DecidableEq, Repr

def NamedRead.parse (body : List UInt8) : Option NamedRead := do
  let length ← body[1]?
  if 2 + length.toNat ≤ body.length then
    let name := (body.drop 2).take length.toNat
    if name = ascii "user/wireless_transport\x00" then some .transport
    else if name = ascii "esb/bond\x00" ∨ name = ascii "esb/bond_2\x00" then some .absentRecord
    else none
  else none

inductive Query where
  | serial
  | attributes
  | named (name : NamedRead)
  | ledColor
  | ledOverride
  | unsupported (command : UInt8)
  deriving DecidableEq, Repr

structure SteamProtocol where
  serial : List UInt8
  steamClientCompat : Bool
  stream : StreamState
  sequence : UInt8
  outputs : Outputs
  query : Option Query
  stopped : Bool
  invalidFraming : Bool
  refresh : Option ℕ

def steamClientAttributes : List UInt8 :=
  [0x01, 0x83, 0x1e, 0x01, 0x02, 0x13, 0x00, 0x00, 0x02, 0x00, 0x00, 0x00, 0x00, 0x0a, 0x2e, 0xf9,
    0xd2, 0x68, 0x04, 0x23, 0xf3, 0xcf, 0x6a, 0x09, 0x48, 0x00, 0x00, 0x00, 0x0b, 0xa0, 0x0f, 0x00,
    0x00, 0x00, 0x00, 0x00, 0x00, 0x00, 0x00, 0x00, 0x00, 0x00, 0x00, 0x00, 0x00, 0x00, 0x00, 0x00,
    0x00, 0x00, 0x00, 0x00, 0x00, 0x00, 0x00, 0x00, 0x00, 0x00, 0x00, 0x00, 0x00, 0x00, 0x00]

/-- The state and result type of the personality's own calls. -/
abbrev Call (α : Type) := Action ReplyError SteamProtocol α

def ask (query : Query) : Call Unit := modify fun p => { p with query := some query }

/-- What one command leaves in the outputs, and the query that it starts. -/
def command (b : List UInt8) : Call Outputs := do
  let p ← get
  let compat := p.steamClientCompat
  let next := p.outputs
  let name ← lift (index b 0)
  let size ← lift (index b 1)
  let third ← lift (index b 2)
  let fourth ← lift (index b 3)
  if name = 0xae ∧ (size = 0x15 ∨ size = 0x16) ∧ third = 1 then do
    ask .serial
    pure next
  else if name = 0x83 ∧ size = 0 then do
    ask .attributes
    pure next
  else if name = 0xdc ∧ compat ∧ [size, third, fourth] = [2, 1, 2] then pure next
  else if name = 0xe2 ∧ compat ∧ [size, third, fourth] = [2, 1, 0x20] then pure next
  else if name = 0xed ∧ compat ∧ (NamedRead.parse b).isSome then do
    modify fun p => { p with query := (NamedRead.parse b).map .named }
    pure next
  else if name = 0xc5 ∧ compat then
    if size ≠ 4 then fail .invalid
    else do
      let rgbw ← lift (range b 2 6)
      pure { next with rgbw := some rgbw }
  else if name = 0xe9 ∧ compat then
    if size ≠ 0 then fail .invalid
    else do
      ask .ledColor
      pure next
  else if name = 0x89 ∧ compat ∧ [size, third] = [1, 37] then do
    ask .ledOverride
    pure next
  else if name = 0x81 ∧ size = 0 then pure { next with mappings := some false }
  else if name = 0x85 ∧ size = 0 then pure { next with mappings := some true }
  else if name = 0x8e ∧ size = 0 then
    pure { next with lizard := none, imu := none, watchdog := none, compatSettings := [] }
  else if name = 0x87 then
    let size := size.toNat
    if size = 0 ∨ size % 3 ≠ 0 ∨ b.length - 2 < size then fail .invalid
    else do
      let settings ← lift (range b 2 (2 + size))
      lift (.lift (applySettings compat settings next))
  else if name ∈ [0xae, 0x83, 0x81, 0x85, 0x8e] then fail .invalid
  else do
    -- a host that still gets an answer is given one that it must refuse
    ask (.unsupported name)
    fail .unsupported

/-- Keeps the outputs of an accepted command; only a change is a new revision. -/
def commit (next : Outputs) : Call Unit := modify fun p =>
  if next ≠ p.outputs then
    { p with outputs := { next with revision := (p.outputs.revision + 1) % 2 ^ 64 } }
  else p

def feature (report : Report) : Call Unit := do
  modify fun p => { p with query := none }
  if report.kind ≠ .feature ∨ report.id ≠ some 1 then fail .unsupported
  else if report.payload.length ≠ 63 then fail .invalid
  else
    let next ← command report.payload
    commit next

/-- A frame that is no feature report is a defect of the codec. -/
def featureReport (wire : List UInt8) : Outcome ReplyError Report :=
  match Report.fromWire .feature true wire with
  | .ok report => .ok report
  | .error _ => .panicked

def getFeature (p : SteamProtocol) : Outcome ReplyError Report :=
  if p.steamClientCompat ∧ p.query = some .attributes then featureReport steamClientAttributes
  else
    let wire : List UInt8 := 1 :: List.replicate 63 0
    match p.query with
    | some (.named name) => do
      let wire ← update wire 1 fun _ => 0xed
      let wire ← update wire 2 fun _ => if name = .transport then 1 else 0
      featureReport (wire.take 63)
    | some .ledColor => do
      let wire ← copyFromSlice wire 1 3 [0xe9, 4]
      featureReport (wire.take 63)
    | some .ledOverride => do
      let enabled := (p.outputs.compatSettings.get 37).getD 0
      let wire ← copyFromSlice wire 1 6 [0x89, 3, 37, if enabled ≠ 0 then 1 else 0, 0]
      featureReport (wire.take 63)
    | some .serial =>
      if 255 < p.serial.length + 1 then .error .invalid
      else do
        let wire ← copyFromSlice wire 1 4 [0xae, UInt8.ofNat (p.serial.length + 1), 1]
        let wire ← copyFromSlice wire 4 (4 + p.serial.length) p.serial
        featureReport wire
    | some .attributes => do
      let wire ← copyFromSlice wire 1 5 [0x83, 2, 0, 0]
      featureReport wire
    | some (.unsupported command) => do
      let wire ← update wire 1 fun _ => command
      let wire ← update wire 2 fun _ => 0xff
      featureReport wire
    | none => .error .unsupported

/-- A call on the haptic stream. -/
def onStream {α : Type} (call : Fallible.Action ReplyError StreamState α) : Call α := fun p =>
  match call p.stream with
  | (.ok a, stream) => (.ok a, { p with stream })
  | (.error e, stream) => (.error e, { p with stream })

def retainHaptic (index : Fin 6) (haptic : Haptic) (p : SteamProtocol) : SteamProtocol :=
  if p.outputs.haptics index ≠ some haptic then
    { p with outputs := { p.outputs with
        haptics := Function.update p.outputs.haptics index (some haptic)
        revision := (p.outputs.revision + 1) % 2 ^ 64 } }
  else p

/-- Streaming reports are those from 0x86 on. -/
def isStreamId (id : Option UInt8) : Bool :=
  id = some 0x86 ∨ id = some 0x87 ∨ id = some 0x88 ∨ id = some 0x89

/-- A report without a slot would be out of range. -/
def slotHaptic (index : Option (Fin 6)) (haptic : Haptic) : Call Unit :=
  match index with
  | none => lift .panicked
  | some index => modify (retainHaptic index haptic)

def takeHaptic (report : Report) (now : ℕ) (haptic : Haptic) : Call Unit :=
  match haptic with
  | .stream packet => onStream (SteamStreaming.accept packet now)
  | _ => slotHaptic (hapticIndex report.id) haptic

def acceptOutput (report : Report) (now : ℕ) : Call Haptic := do
  let p ← get
  if isStreamId report.id ∧ ¬ p.stream.outputs.enabled then fail .unsupported
  else if isStreamId report.id ∧ p.stopped then fail .busy
  else
    let haptic ← lift (.lift (Haptic.decode report))
    takeHaptic report now haptic
    pure haptic

end Queries

section Personality

/-- The answer of a call that may fail, as a value. -/
def attempt {ε ε' σ α : Type} (call : Action ε σ α) : Action ε' σ (Except ε α) := fun s =>
  match call s with
  | (.ok a, t) => (.ok (.ok a), t)
  | (.error e, t) => (.ok (.error e), t)
  | (.panicked, t) => (.panicked, t)

namespace SteamProtocol

def validate (p : SteamProtocol) (state : State) : Except Error Unit :=
  if p.invalidFraming then .error .framing
  else if validateTriggerValues state then .ok ()
  else .error .invalidState

def input (state : State) (now : ℕ) : Action Error SteamProtocol (List Report) := do
  let p ← get
  lift (.lift (p.validate state))
  if p.stopped then pure []
  else
    modify fun p => { p with refresh := none }
    let report := SteamController.input state p.sequence
    modify fun p => { p with sequence := p.sequence + 1 }
    let polled ← attempt (onStream (SteamStreaming.poll now))
    match polled with
    | .ok reports => pure (report :: reports)
    | .error _ => fail .queueFull

def deadline (p : SteamProtocol) : Option ℕ :=
  (p.refresh.toList ++ p.stream.deadline.toList).min?

def request (kind : RequestKind) (now : ℕ) : Action Error SteamProtocol (Reply × Option Haptic) := do
  match kind with
  | .get kind id =>
    let p ← get
    if kind = .feature ∧ id = some 1 then
      match getFeature p with
      | .ok report => pure (.get (.ok report), none)
      | .error e => pure (.get (.error e), none)
      | .panicked => lift .panicked
    else pure (.get (.error .unsupported), none)
  | .set report =>
    if report.kind = .output then
      let result ← attempt (acceptOutput report now)
      match result with
      | .ok haptic => pure (.set (.ok ()), some haptic)
      | .error e => pure (.set (.error e), none)
    else
      let result ← attempt (feature report)
      pure (.set result, none)

def output (report : Report) (now : ℕ) : Action Error SteamProtocol (Option Haptic) := do
  let result ← attempt (acceptOutput report now)
  match result with
  | .ok haptic => pure (some haptic)
  | .error e => fail (if e = .busy then .queueFull else .invalidRequest)

def lifecycle (event : Lifecycle) (now : ℕ) (p : SteamProtocol) : SteamProtocol :=
  match event with
  | .start numberedInput numberedOutput numberedFeature =>
    { p with
      stream := p.stream.reset now
      invalidFraming := !(numberedInput && numberedOutput && numberedFeature)
      stopped := false
      refresh := some now }
  | .stop =>
    { p with stream := p.stream.reset now, stopped := true, refresh := none, query := none }
  | .open => p
  | .close => p

/-- A personality as it is created. -/
def new (serial : List UInt8) (steamClientCompat hapticStreaming : Bool) : SteamProtocol where
  serial
  steamClientCompat
  stream := .new hapticStreaming
  sequence := 0
  outputs := .default
  query := none
  stopped := false
  invalidFraming := false
  refresh := none

end SteamProtocol

end Personality

end SteamController
