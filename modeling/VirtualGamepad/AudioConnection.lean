import VirtualGamepad.Admission
import VirtualGamepad.BrokerWire
import VirtualGamepad.Dialogue

/-! One audio connection of the broker and the handshake of its client. Everything outside the
connection is asked through a call, so that other connections may act between any two calls. An
error is its text. `fuel` bounds the passes of the two loops: `none` is a run that was cut. -/
namespace AudioConnection

open Admission BrokerWire ByteReader Dialogue WireBytes

abbrev IoError := String

section Identity

inductive Profile where
  | dualSense
  | dualShock4
  | xbox360
  deriving DecidableEq, Repr

def profiles : List (Profile × Option UInt8) :=
  [(.dualSense, some 1), (.dualShock4, some 2), (.xbox360, some 3)]

def Profile.fromTag (tag : UInt8) : Except IoError Profile :=
  match profiles.find? fun p => p.2 = some tag with
  | some (profile, _) => .ok profile
  | none => .error "unsupported compiled audio profile"

def Profile.tag (profile : Profile) : Except IoError UInt8 :=
  match (profiles.find? fun p => p.1 = profile).bind Prod.snd with
  | some tag => .ok tag
  | none => .error "compiled audio profile has no broker tag"

def utf8 (text : String) : List UInt8 := text.toByteArray.data.toList

def fromUtf8 (bytes : List UInt8) : Option String := String.fromUTF8? ⟨bytes.toArray⟩

def splitOnce (separator : UInt8) : List UInt8 → Option (List UInt8 × List UInt8)
  | [] => none
  | b :: rest =>
    if b = separator then some ([], rest)
    else (splitOnce separator rest).map fun p => (b :: p.1, p.2)

def isAsciiDigit (b : UInt8) : Bool := 48 ≤ b && b ≤ 57

def decimal (digits : List UInt8) : ℕ :=
  digits.foldl (fun value b => 10 * value + (b.toNat - 48)) 0

/-- A nonzero `u16` in decimal digits. -/
def positive (s : List UInt8) : Bool :=
  !s.isEmpty && s.all isAsciiDigit && decimal s ≤ 65535 && decimal s ≠ 0

def validBusId (value : String) : Bool :=
  if 31 < (utf8 value).length then false
  else
    match splitOnce 45 (utf8 value) with
    | none => false
    | some (bus, ports) => positive bus && (ports.splitOn 46).all positive

/-- The three sockets of a session. -/
abbrev Channels := ℕ × ℕ × ℕ

structure Opened where
  generation : UInt64
  device : UInt32
  busId : String
  channels : Channels
  deriving DecidableEq

def Opened.reply (opened : Opened) : List UInt8 := bytesLe 8 opened.generation.toNat

def metadata (opened : Opened) : Except IoError (List UInt8) :=
  if opened.generation = 0 ∨ opened.device = 0 ∨ validBusId opened.busId = false then
    .error "invalid enumerated audio identity"
  else .ok (bytesLe 8 opened.generation.toNat ++ bytesLe 4 opened.device.toNat ++ utf8 opened.busId)

end Identity

section Server

/-- What a connection asks of the socket, the admission, the factory and its attachment. -/
inductive Call where
  | tryClone
  | setWriteTimeout
  | reserve
  | openFactory (profile : Profile) (identity : List UInt8)
  | write (message : Message)
  | sendChannels (channels : Channels)
  | checkAlive
  | waitReadable
  | readFrame
  | closeAttachment
  | dropPermit

abbrev Answer : Call → Type
  | .reserve => Except BrokerError Unit
  | .openFactory _ _ => Except IoError Opened
  | .waitReadable => Except IoError Bool
  | .readFrame => Except IoError Message
  | .dropPermit => Unit
  | _ => Except IoError Unit

inductive Stop where
  | cut
  | failed (error : IoError)

/-- `active` is the session this connection owns. -/
abbrev Serve := Body Call Answer Stop (Option Opened)

def call (c : Call) : Serve (Answer c) := ask c

def failWith {α : Type} (error : IoError) : Serve α := fail (.failed error)

def attempt {α : Type} (result : Except IoError α) : Serve α := lift (result.mapError .failed)

def dropOpened : Serve Unit := do
  let _ ← call .closeAttachment
  return ()

def dropPermit : Serve Unit := do
  let () ← call .dropPermit
  return ()

/-- The fields of a session are dropped in their order. -/
def dropActive : Serve Unit := do
  if (← get).isSome then
    dropOpened
    dropPermit
    set none

/-- The session becomes the connection's own once the client has its channels. -/
def handOver (opened : Opened) : Serve Unit := do
  let response ← attempt (metadata opened)
  attempt (← call (.write ⟨2, 0x80, response⟩))
  attempt (← call (.sendChannels opened.channels))
  set (some opened)

def create (tag : UInt8) (identity : List UInt8) : Serve Unit := do
  let profile ← attempt (Profile.fromTag tag)
  attempt ((← call .reserve).mapError BrokerError.text)
  dropping dropPermit do
    let opened ← attempt (← call (.openFactory profile identity))
    dropping dropOpened (handOver opened)

def close (body : List UInt8) : Serve Unit := do
  match ← get with
  | none => failWith "no audio session on this connection"
  | some opened =>
    if body ≠ opened.reply then failWith "stale or foreign audio generation"
    else
      attempt (← call .closeAttachment)
      dropActive
      attempt (← call (.write ⟨2, 0x80, body⟩))

/-- Whether the connection has served its purpose. -/
def handle (tag : UInt8) (body : List UInt8) : Serve Bool := do
  if tag = 1 ∧ body.length = 7 ∧ (← get).isNone then
    create (body.headD 0) body.tail
    return false
  else if tag = 2 ∧ body.length = 8 then
    close body
    return true
  else failWith "invalid audio broker operation"

def checkActive : Serve Unit := do
  match ← get with
  | none => return ()
  | some _ => attempt (← call .checkAlive)

def watch : ℕ → Serve Unit
  | 0 => fail .cut
  | fuel + 1 => do
    checkActive
    if ← attempt (← call .waitReadable) then return ()
    else watch fuel

def serveFrom : ℕ → UInt8 × List UInt8 → Serve Unit
  | 0, _ => fail .cut
  | fuel + 1, (tag, body) => do
    if ← handle tag body then return ()
    else
      watch fuel
      let message ← attempt (← call .readFrame)
      if message.version ≠ 2 then failWith "broker version changed within connection"
      else serveFrom fuel (message.tag, message.body)

abbrev Program := Prog Call Answer (Option (Except IoError Unit))

/-- Whatever `active` holds at the end is dropped. -/
def serve (fuel : ℕ) (first : UInt8 × List UInt8) : Program :=
  let body : Serve Unit := do
    attempt (← call .setWriteTimeout)
    serveFrom fuel first
  (body none).bind fun
  | (.ok (), active) => (dropActive active).bind fun _ => .ret (some (.ok ()))
  | (.error .cut, _) => .ret none
  | (.error (.failed error), active) =>
    (dropActive active).bind fun _ => .ret (some (.error error))

def isContinuation (b : UInt8) : Bool := b &&& 0xC0 = 0x80

def isCharBoundary (bytes : List UInt8) (i : ℕ) : Bool :=
  i = 0 || i = bytes.length || (bytes[i]?.map isContinuation) = some false

def boundaryBelow (bytes : List UInt8) : ℕ → ℕ
  | 0 => 0
  | i + 1 => if isCharBoundary bytes (i + 1) then i + 1 else boundaryBelow bytes i

/-- A text cut to at most `limit` bytes, between two characters. -/
def textUpTo (limit : ℕ) (text : String) : List UInt8 :=
  (utf8 text).take (boundaryBelow (utf8 text) (min (utf8 text).length limit))

def serveReported (fuel : ℕ) (first : UInt8 × List UInt8) : Program :=
  .ask .tryClone fun
  | (.error error : Except IoError Unit) => .ret (some (.error error))
  | .ok () => (serve fuel first).bind fun
    | some (.error error) =>
      .ask (.write ⟨2, 0x81, textUpTo 256 error⟩) fun _ => .ret (some (.error error))
    | result => .ret result

end Server

section Handshake

structure Client where
  generation : UInt64
  device : UInt32
  busId : String
  closed : Bool
  deriving DecidableEq

/-- `broker` carries the text the broker sent. -/
inductive HandshakeError where
  | io (error : IoError)
  | broker (text : List UInt8)

/-- What a creation reply says of the session. -/
def clientOf (body : List UInt8) : Except IoError Client :=
  let generation := UInt64.ofNat (ofBytesLe (body.take 8))
  let device := UInt32.ofNat (ofBytesLe ((body.drop 8).take 4))
  match fromUtf8 (body.drop 12) with
  | none => .error "invalid utf-8 sequence"
  | some busId =>
    if generation = 0 ∨ device = 0 ∨ validBusId busId = false then
      .error "invalid audio broker identity"
    else .ok ⟨generation, device, busId, false⟩

/-- `reply` are the bytes the broker sends, `receive` takes the sockets handed over beside them. -/
def handshake (profile : Profile) (identity : List UInt8)
    (write : Message → Except IoError Unit) (reply : List UInt8)
    (receive : Except IoError Channels) : Except HandshakeError (Client × Channels) := do
  (write ⟨2, 1, (← profile.tag.mapError .io) :: identity⟩).mapError .io
  let message ← ((readVersionedMessage reply).map Prod.fst).mapError fun _ => .io "broker frame"
  if message.version ≠ 2 then
    throw (.io "installed broker does not support audio protocol version two")
  else if message.tag = 0x81 then throw (.broker message.body)
  else if message.tag ≠ 0x80 ∨ message.body.length < 15 then
    throw (.io "invalid audio broker creation reply")
  else
    let client ← (clientOf message.body).mapError .io
    return (client, ← receive.mapError .io)

end Handshake

end AudioConnection
