import VirtualGamepad.AudioConnection
import VirtualGamepad.VhciPolicy

/-! The factory behind an audio connection: it starts a worker, records in a journal what it is
about to attach, attaches the worker's device to a port of the kernel and waits for it. Every use
of the operating system is a call, so that other connections, administrators and crashes may act
between any two of them. `fuel` bounds the loops. -/
namespace AudioHost

open AudioConnection (Channels Opened Profile)
open Dialogue PlainText WireBytes
open VhciPolicy (PortLease attachedBus)

section Calls

inductive IoError where
  | notConnected
  | invalidInput
  | timedOut (reason : String)
  | other (reason : String)
  | vhci (error : VhciPolicy.IoError)
  | exited (status : Text)
  | attachmentCleanup (primary cleanup : IoError)
  | workerCleanup (primary cleanup : IoError)
  deriving DecidableEq

/-- Inode and device of a file. -/
abbrev Node := ℕ × ℕ

structure Launch where
  instanceName : Text
  profile : Profile
  device : UInt32
  generation : UInt64
  identity : List UInt8
  uid : ℕ
  gid : ℕ

inductive Call where
  | pathMetadata (path : Text)
  | readStatus
  | openAttach
  | attachMetadata
  | writeAttach (request : Text)
  | configuration (bus : Text)
  | interfaceClass (bus : Text) (index : ℕ)
  | reserve (inventory : Text)
  | dropLease (lease : PortLease)
  | openRandom
  | random
  | socketPairs
  | spawn (launch : Launch)
  | startupFrame
  | shutdown
  | tryWait
  | kill
  | lock
  | unlock
  | readDir
  | openDirectory
  | createNew (name : Text)
  | recordMetadata
  | writeRecord (line : Text)
  | syncRecord
  | syncDirectory
  | openRecord (name : Text)
  | removeFile (name : Text)
  | now
  | sleep

/-- `pathMetadata` gives the owner, the mode and whether it is a directory; `socketPairs` the
descriptor of the kernel's socket and the client's channels; `openRecord` whether it is a regular
file, and its node. -/
abbrev Answer : Call → Type
  | .pathMetadata _ => Except IoError (ℕ × ℕ × Bool)
  | .readStatus => Except IoError Text
  | .attachMetadata => Except IoError Bool
  | .writeAttach _ => Except IoError ℕ
  | .configuration _ => Except IoError Text
  | .interfaceClass _ _ => Except IoError Text
  | .reserve _ => Except VhciPolicy.IoError PortLease
  | .dropLease _ => Unit
  | .random => Except IoError (UInt64 × UInt32)
  | .socketPairs => Except IoError (ℕ × Channels)
  | .startupFrame => Except IoError (UInt8 × List UInt8)
  | .tryWait => Except IoError (Option Text)
  | .unlock => Unit
  | .readDir => Except IoError (List (Except IoError (Option Text)))
  | .createNew _ => Except IoError Node
  | .recordMetadata => Except IoError Node
  | .openRecord _ => Except IoError (Bool × Node)
  | .now => ℕ
  | .sleep => Unit
  | _ => Except IoError Unit

inductive Stop where
  | cut
  | failed (error : IoError)

/-- What a session and its record change: `child` is a worker that was not reaped. -/
structure Locals where
  child : Bool
  removed : Bool

abbrev Hosted := Body Call Answer Stop Locals

def call (c : Call) : Hosted (Answer c) := ask c

def failWith {α : Type} (error : IoError) : Hosted α := fail (.failed error)

def attempt {α : Type} (result : Except IoError α) : Hosted α := lift (result.mapError .failed)

/-- An error that the code looks at instead of returning it. -/
def caught {α : Type} (body : Hosted α) : Hosted (Except IoError α) := fun s =>
  (body s).bind fun
  | (.ok a, t) => .ret (.ok (.ok a), t)
  | (.error (.failed error), t) => .ret (.ok (.error error), t)
  | (.error .cut, t) => .ret (.error .cut, t)

end Calls

section Journal

def maxRecords : ℕ := 64

structure Record where
  name : Text
  node : Node
  deriving DecidableEq

def isAsciiHexdigit (c : Char) : Bool :=
  isAsciiDigit c || ('a' ≤ c && c ≤ 'f') || ('A' ≤ c && c ≤ 'F')

def validInstance (name : Text) : Bool :=
  name ≠ [] && byteLength name ≤ 32 &&
    name.all fun c => isAsciiLowercase c || isAsciiDigit c || c = '-'

def recordName (generation : UInt64) : Text :=
  (Nat.toDigits 16 generation.toNat).leftpad 16 '0'

def decimal (n : ℕ) : Text := Nat.toDigits 10 n

def recordLine (generation : UInt64) (device : UInt32) (port : ℕ) : Text :=
  "1 ".toList ++ decimal generation.toNat ++ " ".toList ++ decimal device.toNat ++
    " ".toList ++ decimal port ++ "\n".toList

/-- Only administrators may own a path of the journal or write to it. -/
def trusted (path : Text) (directory : Bool) (uid : ℕ) : Hosted Unit := do
  let (owner, mode, isDir) ← attempt (← call (.pathMetadata path))
  if owner ≠ uid ∨ mode &&& 0o022 ≠ 0 ∨ (directory && !isDir) = true then
    failWith (.other "audio journal must be administrator-owned and not writable by others")
  else return ()

def trustedEach : List Text → Hosted Unit
  | [] => return ()
  | path :: paths => do
    trusted path true 0
    trustedEach paths

def journalPaths (name : Text) : List Text :=
  ["/run/virtualgamepad-state/".toList ++ name ++ ".audio".toList,
    "/run/virtualgamepad-state".toList, "/run".toList, "/".toList]

def journalOpen (name : Text) : Hosted Unit := do
  if validInstance name = false then failWith .invalidInput
  else trustedEach (journalPaths name)

def admitEntries : List (Except IoError (Option Text)) → List Text → Except IoError (List Text)
  | [], records => .ok records
  | entry :: entries, records => do
    if records.length = maxRecords then .error (.other "audio journal capacity exceeded")
    else
      match ← entry with
      | none => .error (.other "invalid audio journal name")
      | some name =>
        if byteLength name ≠ 16 ∨ name.all isAsciiHexdigit = false then
          .error (.other "unknown audio journal entry")
        else admitEntries entries (records ++ [name])

def pending : Hosted (List Text) := do
  let entries ← attempt (← call .readDir)
  attempt (admitEntries entries [])

def unlock : Hosted Unit := do
  let () ← call .unlock
  return ()

/-- What is left behind when this fails is kept as evidence. -/
def recordLocked (generation : UInt64) (device : UInt32) (port : ℕ) : Hosted Record := do
  if generation = 0 ∨ device = 0 then failWith (.other "invalid or exhausted audio journal")
  else
    let records ← pending
    if maxRecords ≤ records.length then failWith (.other "invalid or exhausted audio journal")
    else
      attempt (← call .openDirectory)
      let _ ← attempt (← call (.createNew (recordName generation)))
      let node ← attempt (← call .recordMetadata)
      attempt (← call (.writeRecord (recordLine generation device port)))
      attempt (← call .syncRecord)
      attempt (← call .syncDirectory)
      return ⟨recordName generation, node⟩

def record (generation : UInt64) (device : UInt32) (port : ℕ) : Hosted Record := do
  attempt (← call .lock)
  let record ← dropping unlock (recordLocked generation device port)
  unlock
  return record

/-- The record goes only while its file is the one that was written. -/
def clear (record : Record) : Hosted Unit := do
  if (← get).removed then return ()
  else
    let (regular, node) ← attempt (← call (.openRecord record.name))
    if regular = false ∨ node ≠ record.node then
      failWith (.other "audio ownership record changed; retained")
    else
      attempt (← call (.removeFile record.name))
      attempt (← call .syncDirectory)
      set { ← get with removed := true }

end Journal

section Session

/-- A worker between its spawn and its end. -/
structure Session where
  kernel : ℕ
  lease : PortLease
  deriving DecidableEq

structure Owned where
  session : Session
  record : Record
  deriving DecidableEq

/-- Whether the worker ended before the deadline. -/
def reap : ℕ → ℕ → Hosted Bool
  | 0, _ => fail .cut
  | fuel + 1, deadline => do
    if (← attempt (← call .tryWait)).isSome then
      set { ← get with child := false }
      return true
    else if deadline ≤ (← call .now) then return false
    else
      let () ← call .sleep
      reap fuel deadline

def killed : Hosted Unit := do
  match ← call .kill with
  | .ok () => return ()
  | .error error =>
    if (← attempt (← call .tryWait)).isNone then failWith error
    else return ()

def stopChild (fuel : ℕ) : Hosted Unit := do
  if (← get).child = false then return ()
  else if ← reap fuel ((← call .now) + 250) then return ()
  else
    killed
    if ← reap fuel ((← call .now) + 250) then return ()
    else failWith (.timedOut "audio worker termination timed out")

/-- Closing twice is allowed. -/
def sessionClose (fuel : ℕ) : Hosted Unit := do
  let shutdown ← call .shutdown
  let child ← caught (stopChild fuel)
  match shutdown with
  | .ok () => attempt child
  | .error error =>
    if error = .notConnected then attempt child
    else
      attempt child
      failWith error

def dropSession (fuel : ℕ) : Hosted Unit := do
  let _ ← caught (sessionClose fuel)
  return ()

def checkAlive : Hosted Unit := do
  if (← get).child = false then failWith (.other "audio worker is closed")
  else
    match ← attempt (← call .tryWait) with
    | none => return ()
    | some status =>
      set { ← get with child := false }
      let _ ← call .shutdown
      failWith (.exited status)

def ready (generation : UInt64) : Hosted Unit := do
  let (tag, payload) ← attempt (← call .startupFrame)
  if tag ≠ 0 ∨ payload ≠ 1 :: bytesLe 8 generation.toNat then
    failWith (.other "invalid audio worker readiness acknowledgement")
  else return ()

def spawn (launch : Launch) : Hosted Unit := do
  if launch.uid = 0 ∨ launch.gid = 0 ∨ launch.uid = 2 ^ 32 - 1 ∨ launch.gid = 2 ^ 32 - 1 ∨
      launch.device = 0 ∨ launch.generation = 0 ∨ validInstance launch.instanceName = false then
    failWith (.other "invalid worker launch identity")
  else
    attempt (← call (.spawn launch))
    set { ← get with child := true }

def awaitReady (fuel : ℕ) (generation : UInt64) : Hosted Unit := do
  match ← caught (ready generation) with
  | .ok () => return ()
  | .error error =>
    match ← caught (sessionClose fuel) with
    | .ok () => failWith error
    | .error cleanup => failWith (.workerCleanup error cleanup)

def prepare (fuel : ℕ) (launch : Launch) (lease : PortLease) : Hosted (Session × Channels) := do
  let (kernel, channels) ← attempt (← call .socketPairs)
  spawn launch
  dropping (dropSession fuel) (awaitReady fuel launch.generation)
  return (⟨kernel, lease⟩, channels)

end Session

section Factory

structure HostConfig where
  instanceName : Text
  workerUid : Option ℕ
  workerGid : Option ℕ
  allowedVhciPorts : Finset ℕ

/-- A host starts with an empty journal. -/
def Host.new (name : Text) : Hosted Unit := do
  journalOpen name
  if (← pending) ≠ [] then
    failWith (.other
      "audio ownership records remain; administrator review required, attachments left untouched")
  else return ()

/-- A failed cleanup is told beside its cause. -/
def finishSetup {α : Type} (result : Hosted α) (rollback : Hosted Unit) : Hosted α := do
  match ← caught result with
  | .ok a => return a
  | .error primary =>
    match ← caught rollback with
    | .ok () => failWith primary
    | .error cleanup => failWith (.attachmentCleanup primary cleanup)

def drawIdentities : ℕ → Hosted (UInt64 × UInt32)
  | 0 => fail .cut
  | fuel + 1 => do
    let (generation, device) ← attempt (← call .random)
    if generation ≠ 0 ∧ device ≠ 0 then return (generation, device)
    else drawIdentities fuel

def identities (fuel : ℕ) : Hosted (UInt64 × UInt32) := do
  attempt (← call .openRandom)
  drawIdentities fuel

def interfacesReady (bus : Text) : List (ℕ × Text) → Hosted Bool
  | [] => return true
  | (index, class_) :: rest => do
    match ← call (.interfaceClass bus index) with
    | .error _ => return false
    | .ok value => if trim value = class_ then interfacesReady bus rest else return false

def interfaces : List (ℕ × Text) :=
  [(0, "01".toList), (1, "01".toList), (2, "01".toList), (3, "03".toList)]

def configured (bus : Text) : Hosted Bool := do
  match ← call (.configuration bus) with
  | .error _ => return false
  | .ok value => if trim value = "1".toList then interfacesReady bus interfaces else return false

def revalidate (lease : PortLease) : Hosted Unit := do
  let status ← attempt (← call .readStatus)
  attempt ((lease.revalidate status).mapError .vhci)

/-- One look at the status: the bus of a device that is ready. -/
def enumerated (port : ℕ) (device : UInt32) : Hosted (Option Text) := do
  checkAlive
  let status ← attempt (← call .readStatus)
  match ← attempt ((attachedBus status port device.toNat).mapError .vhci) with
  | none => return none
  | some bus => if ← configured bus then return some bus else return none

def enumerate (port : ℕ) (device : UInt32) : ℕ → ℕ → Hosted Text
  | 0, _ => fail .cut
  | fuel + 1, deadline => do
    match ← enumerated port device with
    | some bus => return bus
    | none =>
      if deadline ≤ (← call .now) then failWith (.timedOut "USB audio enumeration timed out")
      else
        let () ← call .sleep
        enumerate port device fuel deadline

def attachRequest (port kernel : ℕ) (device : UInt32) : Text :=
  decimal port ++ " ".toList ++ decimal kernel ++ " ".toList ++ decimal device.toNat ++ " 3".toList

def attach (fuel : ℕ) (session : Session) (device : UInt32) : Hosted Text := do
  revalidate session.lease
  let request := attachRequest session.lease.port session.kernel device
  if (← attempt (← call (.writeAttach request))) ≠ byteLength request then
    failWith (.other "partial VHCI attachment")
  else enumerate session.lease.port device fuel ((← call .now) + 5000)

def Owned.close (fuel : ℕ) (owned : Owned) : Hosted Unit := do
  sessionClose fuel
  clear owned.record

def dropOwned (fuel : ℕ) (owned : Owned) : Hosted Unit := do
  let _ ← caught (owned.close fuel)
  return ()

def dropLease (lease : PortLease) : Hosted Unit := do
  let () ← call (.dropLease lease)
  return ()

/-- What the connection owns goes in the order of its fields. -/
def Owned.drop (fuel : ℕ) (owned : Owned) : Hosted Unit := do
  dropOwned fuel owned
  dropSession fuel
  dropLease owned.session.lease

/-- The record comes before the attachment. -/
def own (fuel : ℕ) (generation : UInt64) (device : UInt32) (session : Session)
    (channels : Channels) : Hosted (Opened × Owned) := do
  let record ← finishSetup (record generation device session.lease.port) (sessionClose fuel)
  dropping (dropOwned fuel ⟨session, record⟩) do
    let bus ← finishSetup (attach fuel session device) (Owned.close fuel ⟨session, record⟩)
    return (⟨generation, device, String.ofList bus, channels⟩, ⟨session, record⟩)

def launch (fuel : ℕ) (config : HostConfig) (uid gid : ℕ) (profile : Profile)
    (identity : List UInt8) (lease : PortLease) : Hosted (Opened × Owned) := do
  attempt (← call .openAttach)
  if (← attempt (← call .attachMetadata)) = false then failWith (.other "invalid VHCI attach node")
  else
    let (generation, device) ← identities fuel
    revalidate lease
    let (session, channels) ←
      prepare fuel ⟨config.instanceName, profile, device, generation, identity, uid, gid⟩ lease
    dropping (dropSession fuel) (own fuel generation device session channels)

def Host.open (fuel : ℕ) (config : HostConfig) (profile : Profile) (identity : List UInt8) :
    Hosted (Opened × Owned) := do
  match config.workerUid, config.workerGid with
  | none, _ => failWith (.other "audio worker UID not configured")
  | some _, none => failWith (.other "audio worker GID not configured")
  | some uid, some gid =>
    let status ← attempt (← call .readStatus)
    let lease ← attempt ((← call (.reserve status)).mapError .vhci)
    dropping (dropLease lease) (launch fuel config uid gid profile identity lease)

end Factory

end AudioHost
