import VirtualGamepad.SnapshotPersonalities
import VirtualGamepad.SwitchInput

/-! The USB personality of a Switch Pro Controller, which answers the commands of its host with reports
that it queues before the next input report. -/
namespace SwitchPersonality

open BitFields ControllerContract HidRuntime MachineInt Panicking RetainedOutputs SnapshotPersonalities
  SonyInput SwitchInput
open WireBytes (bytesLe ofBytesLe slice)

section Replies

/-- The answer to a USB command. The first one asks for the kind of controller and its address. -/
def switchUsbReply (command : UInt8) : HidInput :=
  ⟨some 0x81, assemble 63 0 (
    if command = 1 then [(0, [command]), (2, [3]), (3, [2, 0, 0, 0, 0, 1])] else [(0, [command])])⟩

def imuCal : List UInt8 :=
  [0, 0, 0, 0, 0, 0, 0, 0x40, 0, 0x40, 0, 0x40, 0, 0, 0, 0, 0, 0, 0x3b, 0x34, 0x3b, 0x34, 0x3b, 0x34]

def stickCal : List UInt8 :=
  [0x08, 0x87, 0x70, 0x00, 0x08, 0x80, 0x08, 0x87, 0x70, 0x00, 0x08, 0x80, 0x08, 0x87, 0x70, 0x08, 0x87,
    0x70]

/-- The flash memory, as far as there is a source for it. -/
def switchSpiByte (address : UInt32) : UInt8 :=
  let address := address.toNat
  if 0x6020 ≤ address ∧ address ≤ 0x6037 then imuCal.getD (address - 0x6020) 0
  else if 0x603d ≤ address ∧ address ≤ 0x604e then stickCal.getD (address - 0x603d) 0
  else 0xff

def switchInputPrefix (state : SwitchProState) : List UInt8 := (switchFrame state).bytes.take 12

/-- What a subcommand is acknowledged with, and the data that it asked for. -/
def subcommandData (subcommand : UInt8) (arguments : List UInt8) : UInt8 × List UInt8 :=
  if subcommand = 0x02 then (0x82, [3, 0x48, 3, 2] ++ [2, 0, 0, 0, 0, 1] ++ [1] ++ [0])
  else if subcommand = 0x10 ∧ 5 ≤ arguments.length then
    let address := UInt32.ofNat (ofBytesLe (arguments.take 4))
    let length := min (arguments.getD 4 0).toNat 44
    (0x90, arguments.take 5 ++
      (List.range length).map fun i => switchSpiByte (address + UInt32.ofNat i))
  else if subcommand = 0x03 ∧ arguments.head? = some 0x30 then (0x80, [])
  else if subcommand = 0x04 then (0x83, [0, 0xcc, 0, 0xee, 0, 0xff])
  else if subcommand = 0x21 then (0xa0, [])
  else (0x80, [])

/-- The reply, and whether it turns on the stream of full reports. -/
def switchSubcommandReply (state : SwitchProState) (subcommand : UInt8) (arguments : List UInt8) :
    HidInput × Bool :=
  let (acknowledgement, data) := subcommandData subcommand arguments
  (⟨some 0x21, assemble 63 0 [
      (0, switchInputPrefix state), (12, [acknowledgement, subcommand]), (14, data)]⟩,
    decide (subcommand = 0x03 ∧ arguments.head? = some 0x30))

end Replies

section Framing

theorem length_switchFrame (s : SwitchProState) : (switchFrame s).bytes.length = 63 := by
  unfold switchFrame
  apply length_assemble
  simp [Placed, pack, length_i16Bytes]

theorem length_switchInputPrefix (s : SwitchProState) : (switchInputPrefix s).length = 12 := by
  unfold switchInputPrefix
  rw [List.length_take, length_switchFrame]
  rfl

theorem length_subcommandData (subcommand : UInt8) (arguments : List UInt8) :
    (subcommandData subcommand arguments).2.length ≤ 49 := by
  unfold subcommandData
  split
  · simp
  · split
    · simp only [List.length_append, List.length_take, List.length_map, List.length_range]
      omega
    · split
      · simp
      · split
        · simp
        · split
          · simp
          · simp

theorem framed_of_length {frame : HidInput} (hid : frame.reportId ≠ some 0) (h : frame.bytes.length = 63) :
    Framed frame.reportId frame.bytes := by
  refine ⟨hid, ?_⟩
  rw [h]
  split
  · omega
  · omega

theorem switch_framed (s : SwitchProState) : Framed (switchFrame s).reportId (switchFrame s).bytes :=
  framed_of_length (by simp [switchFrame]) (length_switchFrame s)

theorem usbReply_framed (command : UInt8) :
    Framed (switchUsbReply command).reportId (switchUsbReply command).bytes := by
  apply framed_of_length
  · simp [switchUsbReply]
  · unfold switchUsbReply
    apply length_assemble
    split
    · simp [Placed]
    · simp [Placed]

theorem subcommandReply_framed (state : SwitchProState) (subcommand : UInt8) (arguments : List UInt8) :
    Framed (switchSubcommandReply state subcommand arguments).1.reportId
      (switchSubcommandReply state subcommand arguments).1.bytes := by
  apply framed_of_length
  · simp [switchSubcommandReply]
  · have hdata := length_subcommandData subcommand arguments
    unfold switchSubcommandReply
    apply length_assemble
    simp [Placed, length_switchInputPrefix]
    omega

end Framing

section Personality

structure SwitchUsbProtocol where
  retained : SwitchProOutputState
  state : SwitchProState
  timer : UInt8
  streamEnabled : Bool
  pending : List Report
  next : Option ℕ
  active : Bool
  valid : Bool

namespace SwitchUsbProtocol

def new : SwitchUsbProtocol where
  retained := OutputState.default
  state := .default
  timer := 0
  streamEnabled := false
  pending := []
  next := some 0
  active := true
  valid := true

def pendingSlots : ℕ := 31

/-- The command of a report goes to the queue of replies. -/
def processInner (p : SwitchUsbProtocol) (report : Report) (now : ℕ) :
    Except ReplyError SwitchUsbProtocol :=
  let bytes := report.payload
  if report.kind ≠ .output then .error .unsupported
  else if 63 < bytes.length then .error .invalid
  else if p.pending.length = pendingSlots then .error .busy
  else if report.id = some 0x80 ∧ bytes ≠ [] then
    let reply := logicalInput (switchUsbReply (bytes.getD 0 0)) (usbReply_framed _)
    .ok { p with pending := p.pending ++ [reply], next := some now }
  else if report.id = some 1 ∧ 10 ≤ bytes.length then
    let answer := switchSubcommandReply p.state (bytes.getD 9 0) (bytes.drop 10)
    let reply := logicalInput answer.1 (subcommandReply_framed _ _ _)
    .ok { p with
      streamEnabled := p.streamEnabled || answer.2
      pending := p.pending ++ [reply]
      next := some now }
  else if report.id = some 0x10 ∧ 9 ≤ bytes.length then .ok { p with next := some now }
  else if report.id = some 0x80 ∨ report.id = some 1 ∨ report.id = some 0x10 then .error .invalid
  else .error .unsupported

/-- What an accepted report does to the queue. Rumble has no reply. -/
inductive Taken (p : SwitchUsbProtocol) (report : Report) (now : ℕ) : SwitchUsbProtocol → Prop where
  | command : report.id = some 0x80 → report.payload ≠ [] →
      Taken p report now { p with
        pending := p.pending ++
          [logicalInput (switchUsbReply (report.payload.getD 0 0)) (usbReply_framed _)]
        next := some now }
  | subcommand : report.id = some 1 → 10 ≤ report.payload.length →
      Taken p report now { p with
        streamEnabled := p.streamEnabled ||
          (switchSubcommandReply p.state (report.payload.getD 9 0) (report.payload.drop 10)).2
        pending := p.pending ++ [logicalInput
          (switchSubcommandReply p.state (report.payload.getD 9 0) (report.payload.drop 10)).1
          (subcommandReply_framed _ _ _)]
        next := some now }
  | rumble : report.id = some 0x10 → 9 ≤ report.payload.length →
      Taken p report now { p with next := some now }

structure Takes (p : SwitchUsbProtocol) (report : Report) (now : ℕ) (next : SwitchUsbProtocol) : Prop where
  kind : report.kind = .output
  length : report.payload.length ≤ 63
  room : p.pending.length ≠ pendingSlots
  taken : Taken p report now next

theorem processInner_takes {p next : SwitchUsbProtocol} {report : Report} {now : ℕ}
    (h : p.processInner report now = .ok next) : Takes p report now next := by
  unfold processInner at h
  dsimp only at h
  by_cases hkind : report.kind ≠ .output
  · rw [if_pos hkind] at h
    cases h
  rw [if_neg hkind] at h
  by_cases hlong : 63 < report.payload.length
  · rw [if_pos hlong] at h
    cases h
  rw [if_neg hlong] at h
  by_cases hfull : p.pending.length = pendingSlots
  · rw [if_pos hfull] at h
    cases h
  rw [if_neg hfull] at h
  refine ⟨not_not.mp hkind, Nat.le_of_not_lt hlong, hfull, ?_⟩
  split at h
  · next hcommand =>
    cases h
    exact .command hcommand.1 hcommand.2
  · split at h
    · next hsubcommand =>
      cases h
      exact .subcommand hsubcommand.1 hsubcommand.2
    · split at h
      · next hrumble =>
        cases h
        exact .rumble hrumble.1 hrumble.2
      · split at h
        · cases h
        · cases h

/-- A report that is accepted is long enough for what is retained of it. -/
theorem processInner_applies {p next : SwitchUsbProtocol} {report : Report} {now : ℕ}
    (h : p.processInner report now = .ok next) (retained : SwitchProOutputState) :
    OutputState.apply retained report ≠ .panicked := by
  have hother {a b : UInt8} (ha : report.id = some a) (hne : a ≠ b) : report.id ≠ some b := by
    rw [ha]
    exact fun heq => hne (Option.some.inj heq)
  apply switchPro_applies
  · intro hid
    cases (processInner_takes h).taken with
    | command hcommand _ => exact absurd hid (hother hcommand (by decide))
    | subcommand _ hlength => exact hlength
    | rumble hrumble _ => exact absurd hid (hother hrumble (by decide))
  · intro hid
    cases (processInner_takes h).taken with
    | command hcommand _ => exact absurd hid (hother hcommand (by decide))
    | subcommand hsubcommand _ => exact absurd hid (hother hsubcommand (by decide))
    | rumble _ hlength => exact hlength

/-- A refused report leaves everything as it was. -/
def process (p : SwitchUsbProtocol) (report : Report) (now : ℕ) : Except ReplyError SwitchUsbProtocol :=
  match h : p.processInner report now with
  | .error e => .error e
  | .ok next =>
    match (OutputState.apply next.retained report).returned (processInner_applies h _) with
    | .error e => .error e
    | .ok retained => .ok { next with retained }

def input (state : SwitchProState) (now : ℕ) : Fallible.Action Error SwitchUsbProtocol (List Report) :=
  fun p =>
    if !p.valid then (.error .framing, p)
    else if !p.active then (.ok [], p)
    else
      let state := { state with timer := p.timer, streamEnabled := p.streamEnabled }
      (.ok (p.pending ++ [logicalInput (switchFrame state) (switch_framed state)]), { p with
        state
        pending := []
        timer := p.timer + 1
        next := if p.streamEnabled then some (saturatingAdd now 4000) else none })

def request (p : SwitchUsbProtocol) (kind : RequestKind) (now : ℕ) :
    (Reply × Option RawReverseEvent) × SwitchUsbProtocol :=
  match kind with
  | .get _ _ => ((.get (.error .unsupported), none), p)
  | .set report =>
    match p.process report now with
    | .ok next => ((.set (.ok ()), some (observe report)), next)
    | .error e => ((.set (.error e), none), p)

/-- Only a full queue is worth an error. -/
def output (report : Report) (now : ℕ) : Fallible.Action Error SwitchUsbProtocol (Option RawReverseEvent) :=
  fun p =>
    match p.process report now with
    | .ok next => (.ok (some (observe report)), next)
    | .error .busy => (.error .transport, p)
    | .error _ => (.ok (some (observe report)), p)

def lifecycle (p : SwitchUsbProtocol) (event : Lifecycle) (now : ℕ) : SwitchUsbProtocol :=
  match event with
  | .start numberedInput numberedOutput numberedFeature =>
    { p with
      valid := numberedInput && numberedOutput && !numberedFeature
      active := true
      next := some now }
  | .stop => { p with active := false, next := none, pending := [] }
  | .open => p
  | .close => p

end SwitchUsbProtocol

instance : Protocol SwitchUsbProtocol SwitchProState RawReverseEvent where
  neutral _ := .default
  validate _ _ := .ok ()
  input := SwitchUsbProtocol.input
  deadline p := p.next
  request p kind now := p.request kind now
  output report now := SwitchUsbProtocol.output report now
  lifecycle p event now := (some (.hidLifecycle event), p.lifecycle event now)
  delivered p _ _ := p

end Personality

end SwitchPersonality
