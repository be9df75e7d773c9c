import VirtualGamepad.HidRuntime
import VirtualGamepad.PcmQueue

/-! Compiled USB profiles and the control state of one device: standard and UAC2 requests are
answered here, HID report requests are passed on to the personality. -/
namespace UsbipControl

open HidRuntime PcmQueue

def le16 (value : ℕ) : List UInt8 := [UInt8.ofNat value, UInt8.ofNat (value / 2 ^ 8)]

def le32 (value : ℕ) : List UInt8 := le16 value ++ le16 (value / 2 ^ 16)

structure UsbProfileSpec where
  device : List UInt8
  numberedReports : Bool
  report : List UInt8
  productName : String
  playback : List AudioChannel
  microphone : List AudioChannel
  deriving DecidableEq

structure Profile where
  spec : UsbProfileSpec
  device : List UInt8
  configuration : List UInt8
  serial : Option String
  deriving DecidableEq

def channelMask : ℕ → ℕ
  | 4 => 0x33
  | 2 => 3
  | _ => 0

def inputTerminal (id : UInt8) (terminal channels : ℕ) : List UInt8 :=
  [17, 0x24, 2, id] ++ le16 terminal ++ [0, 0x10, UInt8.ofNat channels] ++
    le32 (channelMask channels) ++ [0, 0, 0, 0]

def outputTerminal (id : UInt8) (terminal : ℕ) (source : UInt8) : List UInt8 :=
  [12, 0x24, 3, id] ++ le16 terminal ++ [0, source, 0x10, 0, 0, 0]

def stream (interface terminal : UInt8) (channels : ℕ) (endpoint : UInt8) : List UInt8 :=
  [9, 4, interface, 0, 0, 1, 2, 0x20, 0] ++ [9, 4, interface, 1, 1, 1, 2, 0x20, 0] ++
    [16, 0x24, 1, terminal, 0, 1, 1, 0, 0, 0, UInt8.ofNat channels] ++
    le32 (channelMask channels) ++ [0] ++ [6, 0x24, 2, 1, 2, 16] ++
    [7, 5, endpoint, if endpoint &&& 0x80 = 0 then 9 else 5] ++ le16 (49 * channels * 2) ++ [4] ++
    [8, 0x25, 1, 0, 0, 0, 0, 0]

def configuration (reportLength playback microphone : ℕ) : List UInt8 :=
  let bytes : List UInt8 :=
    [8, 11, 0, 3, 1, 0, 0x20, 0] ++ [9, 4, 0, 0, 0, 1, 1, 0x20, 0] ++
      [9, 0x24, 1, 0, 2, 8, 75, 0, 0] ++ [8, 0x24, 10, 0x10, 1, 5, 0, 0] ++
      inputTerminal 1 0x0101 playback ++ outputTerminal 3 0x0301 1 ++
      inputTerminal 4 0x0201 microphone ++ outputTerminal 6 0x0101 4 ++
      stream 1 1 playback 1 ++ stream 2 6 microphone 0x82 ++ [9, 4, 3, 0, 2, 3, 0, 0, 0] ++
      [9, 0x21, 0x11, 1, 0, 1, 0x22] ++ le16 reportLength ++
      [7, 5, 0x83, 3, 64, 0, 4] ++ [7, 5, 0x04, 3, 64, 0, 4]
  [9, 2] ++ le16 (9 + bytes.length) ++ [4, 1, 0, 0x80, 250] ++ bytes

namespace Profile

def new (spec : UsbProfileSpec) : Profile where
  spec := spec
  device := spec.device
  configuration :=
    UsbipControl.configuration spec.report.length spec.playback.length spec.microphone.length
  serial := none

def playbackChannels (profile : Profile) : ℕ := profile.spec.playback.length

def microphoneChannels (profile : Profile) : ℕ := profile.spec.microphone.length

/-- Channel order matters as well as the count: haptics must never become speakers. -/
def acceptsPlayback (profile : Profile) (format : PcmFormat) : Bool :=
  format.rate = 48000 ∧ format.channels = profile.spec.playback

def acceptsMicrophone (profile : Profile) (format : PcmFormat) : Bool :=
  format.rate = 48000 ∧ format.channels = profile.spec.microphone

def encodeUtf16 (text : String) : List UInt8 :=
  text.toList.flatMap fun c =>
    if c.toNat < 0x10000 then le16 c.toNat
    else le16 (0xd800 + (c.toNat - 0x10000) / 1024) ++ le16 (0xdc00 + (c.toNat - 0x10000) % 1024)

def string (profile : Profile) (index : ℕ) : Option (List UInt8) :=
  if index = 0 then some [4, 3, 9, 4]
  else
    let text := match index with
      | 1 => some "Virtualgamepad"
      | 2 => some profile.spec.productName
      | 3 => profile.serial
      | _ => none
    text.bind fun text =>
      let bytes := encodeUtf16 text
      if bytes.length + 2 < 256 then some (UInt8.ofNat (bytes.length + 2) :: 3 :: bytes) else none

end Profile

inductive Completion where
  | data (bytes : List UInt8)
  | hid (kind : RequestKind)
  | stall
  deriving DecidableEq

structure ControlState where
  configuration : UInt8
  alternate : List UInt8
  deriving DecidableEq

namespace ControlState

def default : ControlState := ⟨0, [0, 0, 0, 0]⟩

def configured (s : ControlState) : Bool := s.configuration = 1

def playbackActive (s : ControlState) : Bool := s.configured && s.alternate.getD 1 0 = 1

def microphoneActive (s : ControlState) : Bool := s.configured && s.alternate.getD 2 0 = 1

end ControlState

def reportType (value : ℕ) : ReportType × Option UInt8 :=
  let kind := match value / 256 with
    | 1 => ReportType.input
    | 2 => .output
    | 3 => .feature
    | code => .other (UInt8.ofNat code)
  (kind, if value % 256 = 0 then none else some (UInt8.ofNat value))

def clock (request value : ℕ) : Option (List UInt8) :=
  match request, value with
  | 1, 0x0100 => some (le32 48000)
  | 1, 0x0200 => some [1]
  | 2, 0x0100 => some ([1, 0] ++ le32 48000 ++ le32 48000 ++ le32 0)
  | _, _ => none

/-- The endpoint descriptors of the other speed get interval 1; at most one turn for each byte. -/
def otherSpeed : ℕ → ℕ → List UInt8 → List UInt8
  | 0, _, bytes => bytes
  | fuel + 1, offset, bytes =>
    if offset < bytes.length then
      let bytes := if bytes.getD (offset + 1) 0 = 5 then bytes.set (offset + 6) 1 else bytes
      otherSpeed fuel (offset + (bytes.getD offset 0).toNat) bytes
    else bytes

def descriptor (profile : Profile) (value language : ℕ) : Option (List UInt8) :=
  let index := value % 256
  match value / 256 with
  | 1 => if index = 0 ∧ language = 0 then some profile.device else none
  | 2 => if index = 0 ∧ language = 0 then some profile.configuration else none
  | 3 => if language = 0 ∨ language = 0x0409 then profile.string index else none
  | 6 => if index = 0 ∧ language = 0 then some [10, 6, 0, 2, 0xef, 2, 1, 64, 1, 0] else none
  | 7 =>
    if index = 0 ∧ language = 0 then
      let bytes := profile.configuration.set 1 7
      some (otherSpeed bytes.length 0 bytes)
    else none
  | _ => none

def setupWord (setup : List UInt8) (i : ℕ) : ℕ :=
  (setup.getD i 0).toNat + 256 * (setup.getD (i + 1) 0).toNat

/-- A report request after its interface and length were checked. -/
def getReport (profile : Profile) (value : ℕ) : Completion :=
  let (kind, id) := reportType value
  if profile.spec.numberedReports ≠ id.isSome then .stall else .hid (.get kind id)

def setReport (profile : Profile) (value : ℕ) (payload : List UInt8) : Completion :=
  let (kind, id) := reportType value
  if profile.spec.numberedReports ≠ id.isSome then .stall
  else
    match Report.fromWire kind profile.spec.numberedReports payload with
    | .error _ => .stall
    | .ok report => if report.id ≠ id then .stall else .hid (.set report)

/-- Data is cut to the length the setup asks for; `none` is a stall. -/
def answer (length : ℕ) (data : Option (List UInt8)) : Completion :=
  data.elim .stall fun bytes => .data (bytes.take length)

/-- One control request, with the whole OUT payload present. -/
def handle (profile : Profile) (setup payload : List UInt8) (s : ControlState) :
    Completion × ControlState :=
  let value := setupWord setup 2
  let index := setupWord setup 4
  let length := setupWord setup 6
  let input := (setup.getD 0 0) &&& 0x80 ≠ 0
  if (input ∧ payload ≠ []) ∨ (¬ input ∧ payload.length ≠ length) then (.stall, s)
  else
    match (setup.getD 0 0).toNat, (setup.getD 1 0).toNat with
    | 0x80, 6 => (answer length (descriptor profile value index), s)
    | 0x81, 6 =>
      if index ≠ 3 then (.stall, s)
      else if value = 0x2200 then (answer length (some profile.spec.report), s)
      else if value = 0x2100 ∧ profile.spec.report.length < 65536 then
        (answer length (some ([9, 0x21, 0x11, 1, 0, 1, 0x22] ++ le16 profile.spec.report.length)),
          s)
      else (.stall, s)
    | 0x80, 8 =>
      if value = 0 ∧ index = 0 ∧ length = 1 then (answer length (some [s.configuration]), s)
      else (.stall, s)
    | 0x00, 9 =>
      if value ≤ 1 ∧ index = 0 ∧ length = 0 then
        (.data [], ⟨UInt8.ofNat value, [0, 0, 0, 0]⟩)
      else (.stall, s)
    | 0x81, 10 =>
      if s.configured ∧ index < 4 ∧ value = 0 ∧ length = 1 then
        (answer length (some [s.alternate.getD index 0]), s)
      else (.stall, s)
    | 0x01, 11 =>
      if s.configured ∧ index < 4 ∧ length = 0 then
        if value = 0 ∨ ((index = 1 ∨ index = 2) ∧ value = 1) then
          (.data [], { s with alternate := s.alternate.set index (UInt8.ofNat value) })
        else (.stall, s)
      else (.stall, s)
    | 0x80, 0 =>
      if value = 0 ∧ index = 0 ∧ length = 2 then (answer length (some [0, 0]), s)
      else (.stall, s)
    | 0x81, 0 =>
      if s.configured ∧ value = 0 ∧ index < 4 ∧ length = 2 then (answer length (some [0, 0]), s)
      else (.stall, s)
    | 0xa1, request =>
      if (request = 1 ∨ request = 2) ∧ s.configured ∧ index = 0x1000 then
        (answer length (clock request value), s)
      else if request = 1 ∧ s.configured ∧ index = 3 ∧ 1 ≤ length ∧ length ≤ 4096 then
        (getReport profile value, s)
      else (.stall, s)
    | 0x21, 9 =>
      if s.configured ∧ index = 3 ∧ 1 ≤ length ∧ length ≤ 4096 then
        (setReport profile value payload, s)
      else (.stall, s)
    | _, _ => (.stall, s)

end UsbipControl
