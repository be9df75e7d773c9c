import VirtualGamepad.Admission
import VirtualGamepad.Fallible
import VirtualGamepad.MachineInt

/-! The broker's sessions: who may open one, who owns it, and the host resource behind it. Each
connection owns a registry; only the admission limits are shared. A call is one step. `log` is a
ghost record of the calls on the factory and on the hosts, which no branch reads. -/
namespace BrokerRegistry

open Admission Fallible MachineInt Tables

section Policy

def linuxDummyHcdUsbHid : String := "linux.dummy_hcd.usb-hid"

/-- The compiled families by identifier. -/
def families : List (String × Option ℕ) :=
  [("virtualgamepad.dualsense", some 64), ("virtualgamepad.dualshock4", some 64),
    ("virtualgamepad.switch-pro", some 64), ("virtualgamepad.xbox360", some 9),
    ("virtualgamepad.wii-remote", none)]

def compiledReportLength (target controller : String) : Option ℕ :=
  if target ≠ linuxDummyHcdUsbHid then none
  else (families.lookup controller).bind id

structure Session where
  peer : Peer
  target : String
  controller : String
  deriving DecidableEq

structure BrokerPolicy where
  allowedPeers : List Peer
  sessions : Table ℕ Session

def BrokerPolicy.open (policy : BrokerPolicy) (peer : Peer) (session : ℕ)
    (target controller : String) : Except BrokerError BrokerPolicy :=
  if peer ∉ policy.allowedPeers then .error (.unauthorized peer)
  else if target ≠ linuxDummyHcdUsbHid then .error (.unsupportedController target controller)
  else if session ∈ policy.sessions then .error .malformedRequest
  else .ok { policy with sessions := policy.sessions.insert session ⟨peer, target, controller⟩ }

def BrokerPolicy.owned (policy : BrokerPolicy) (peer : Peer) (session : ℕ) :
    Except BrokerError Session :=
  match policy.sessions.lookup session with
  | none => .error (.unknownSession session)
  | some owned => if owned.peer ≠ peer then .error (.wrongOwner session) else .ok owned

def BrokerPolicy.sendInput (policy : BrokerPolicy) (peer : Peer) (session : ℕ)
    (bytes : List UInt8) : Except BrokerError Unit := do
  let owned ← policy.owned peer session
  match compiledReportLength owned.target owned.controller with
  | none => .error (.unsupportedController owned.target owned.controller)
  | some expected =>
    if bytes.length ≠ expected then
      .error (.invalidReportLength owned.target bytes.length expected)
    else .ok ()

def BrokerPolicy.diagnostics (policy : BrokerPolicy) (peer : Peer) (session : ℕ) :
    Except BrokerError Unit := (policy.owned peer session).map fun _ => ()

def BrokerPolicy.close (policy : BrokerPolicy) (peer : Peer) (session : ℕ) :
    Except BrokerError Unit × BrokerPolicy :=
  match policy.owned peer session with
  | .error error => (.error error, policy)
  | .ok _ => (.ok (), { policy with sessions := policy.sessions.erase session })

end Policy

section Registry

/-- The host resource of one session. -/
class HostSession (H : Type) where
  sendInput : List UInt8 → Action BrokerError H Unit
  pollReverse : Action BrokerError H (Option (List UInt8))
  diagnostics : H → List UInt8
  close : Action BrokerError H Unit

/-- A host with the position in the log where the factory returned it. -/
structure Host (H : Type) where
  token : ℕ
  state : H

inductive Event where
  | connected
  | factory (registry session : ℕ) (peer : Peer) (opened : Option ℕ)
  | call (token : ℕ)
  | close (token : ℕ)
  deriving DecidableEq

/-- `name` tells registries apart in the log. -/
structure Registry (H : Type) where
  name : ℕ
  policy : BrokerPolicy
  sessions : Table ℕ (Host H)
  next : ℕ
  permits : Table ℕ Peer

def Registry.new (H : Type) (name : ℕ) (allowedPeers : List Peer) : Registry H :=
  ⟨name, ⟨allowedPeers, ∅⟩, ∅, 1, ∅⟩

/-- One registry at work, with what it shares. -/
structure Broker (H : Type) where
  registry : Registry H
  admission : Limits
  log : List Event

variable {H : Type} [HostSession H]

/-- A session leaves the permits, and the permit is dropped. -/
def Broker.dropPermit (b : Broker H) (session : ℕ) : Broker H :=
  match b.registry.permits.lookup session with
  | none => b
  | some peer => { b with
      registry := { b.registry with permits := b.registry.permits.erase session }
      admission := b.admission.release peer }

/-- What `close` does to a host that leaves the registry. -/
def Broker.closeHost (b : Broker H) (session : ℕ) : Except BrokerError Unit × Broker H :=
  match b.registry.sessions.lookup session with
  | none => (.ok (), b)
  | some host =>
    ((HostSession.close host.state).1, { b with
      registry := { b.registry with sessions := b.registry.sessions.erase session }
      log := b.log ++ [.close host.token] })

/-- `opened` is what the factory answers, if it is asked. -/
def openSession (peer : Peer) (target controller : String) (opened : Except BrokerError H) :
    Action BrokerError (Broker H) ℕ := fun b =>
  let session := b.registry.next
  match checkedAdd session 1 with
  | none => (.error .malformedRequest, b)
  | some next =>
    let registry := { b.registry with next }
    match registry.policy.open peer session target controller with
    | .error error => (.error error, { b with registry })
    | .ok policy =>
      match b.admission.reserve peer with
      | .error error =>
        (.error error, { b with
          registry := { registry with policy := (policy.close peer session).2 } })
      | .ok admission =>
        match opened with
        | .ok host =>
          (.ok session, {
            registry := { registry with
              policy
              sessions := registry.sessions.insert session ⟨b.log.length, host⟩
              permits := registry.permits.insert session peer }
            admission
            log := b.log ++ [.factory registry.name session peer (some b.log.length)] })
        | .error error =>
          (.error error, {
            registry := { registry with policy := (policy.close peer session).2 }
            admission := admission.release peer
            log := b.log ++ [.factory registry.name session peer none] })

/-- An error of the host ends the session. Its permit is dropped after the host is closed. -/
def terminalOnHostError {α : Type} (peer : Peer) (session : ℕ) (result : Except BrokerError α) :
    Action BrokerError (Broker H) α := fun b =>
  match result with
  | .ok value => (.ok value, b)
  | .error initiating =>
    let b := { b with registry := { b.registry with
      policy := (b.registry.policy.close peer session).2 } }
    let (closed, b) := b.closeHost session
    let b := b.dropPermit session
    match closed with
    | .ok () => (.error initiating, b)
    | .error cleanup =>
      (.error (.host (initiating.text ++ "; cleanup also failed: " ++ cleanup.text)), b)

/-- One call on the host of a session. -/
def onHost {α : Type} (peer : Peer) (session : ℕ) (call : Action BrokerError H α) :
    Action BrokerError (Broker H) α := fun b =>
  match b.registry.sessions.lookup session with
  | none => (.error (.unknownSession session), b)
  | some host =>
    let (result, state) := call host.state
    terminalOnHostError peer session result { b with
      registry := { b.registry with
        sessions := b.registry.sessions.insert session { host with state } }
      log := b.log ++ [.call host.token] }

def sendInput (peer : Peer) (session : ℕ) (bytes : List UInt8) :
    Action BrokerError (Broker H) Unit := fun b =>
  match b.registry.policy.sendInput peer session bytes with
  | .error error => (.error error, b)
  | .ok () => onHost peer session (HostSession.sendInput bytes) b

def pollReverse (peer : Peer) (session : ℕ) :
    Action BrokerError (Broker H) (Option (List UInt8)) := fun b =>
  match b.registry.policy.diagnostics peer session with
  | .error error => (.error error, b)
  | .ok () => onHost peer session HostSession.pollReverse b

def diagnostics (peer : Peer) (session : ℕ) : Action BrokerError (Broker H) (List UInt8) := fun b =>
  match b.registry.policy.diagnostics peer session with
  | .error error => (.error error, b)
  | .ok () =>
    match b.registry.sessions.lookup session with
    | none => (.error (.unknownSession session), b)
    | some host =>
      (.ok (HostSession.diagnostics host.state), { b with log := b.log ++ [.call host.token] })

def close (peer : Peer) (session : ℕ) : Action BrokerError (Broker H) Unit := fun b =>
  match b.registry.policy.close peer session with
  | (.error error, _) => (.error error, b)
  | (.ok (), policy) =>
    let (closed, b) := Broker.closeHost { b with registry := { b.registry with policy } } session
    (closed, b.dropPermit session)

/-- Every host is closed, then every permit is dropped. -/
def closeAll (b : Broker H) : Broker H where
  registry := { b.registry with
    policy := { b.registry.policy with sessions := ∅ }, sessions := ∅, permits := ∅ }
  admission := (values b.registry.permits).foldl Limits.release b.admission
  log := b.log ++ (values b.registry.sessions).map fun host => .close host.token

end Registry

section System

variable {H : Type} [HostSession H]

/-- All registries of a process. `outside` are the permits its other connections hold. -/
structure System (H : Type) where
  registries : List (Registry H)
  admission : Limits
  outside : List Peer
  log : List Event

def System.new (H : Type) (globalLimit perPeer : ℕ) : System H :=
  ⟨[], .new globalLimit perPeer, [], []⟩

inductive Call (H : Type) where
  | open (peer : Peer) (target controller : String) (opened : Except BrokerError H)
  | sendInput (peer : Peer) (session : ℕ) (bytes : List UInt8)
  | pollReverse (peer : Peer) (session : ℕ)
  | diagnostics (peer : Peer) (session : ℕ)
  | close (peer : Peer) (session : ℕ)
  | closeAll

def Call.run : Call H → Broker H → Broker H
  | .open peer target controller opened, b => (openSession peer target controller opened b).2
  | .sendInput peer session bytes, b => (BrokerRegistry.sendInput peer session bytes b).2
  | .pollReverse peer session, b => (BrokerRegistry.pollReverse peer session b).2
  | .diagnostics peer session, b => (BrokerRegistry.diagnostics peer session b).2
  | .close peer session, b => (BrokerRegistry.close peer session b).2
  | .closeAll, b => BrokerRegistry.closeAll b

/-- Dropping a registry closes everything it has. -/
inductive Step : System H → System H → Prop where
  | connect (s : System H) (allowedPeers : List Peer) : Step s { s with
      registries := s.registries ++ [.new H s.log.length allowedPeers]
      log := s.log ++ [.connected] }
  | call (s : System H) {before after : List (Registry H)} {registry : Registry H} (c : Call H) :
      s.registries = before ++ registry :: after →
      Step s { s with
        registries := before ++ (c.run ⟨registry, s.admission, s.log⟩).registry :: after
        admission := (c.run ⟨registry, s.admission, s.log⟩).admission
        log := (c.run ⟨registry, s.admission, s.log⟩).log }
  | drop (s : System H) {before after : List (Registry H)} {registry : Registry H} :
      s.registries = before ++ registry :: after →
      Step s { s with
        registries := before ++ after
        admission := (closeAll ⟨registry, s.admission, s.log⟩).admission
        log := (closeAll ⟨registry, s.admission, s.log⟩).log }
  | reserve (s : System H) {peer : Peer} {admission : Limits} :
      s.admission.reserve peer = .ok admission →
      Step s { s with admission, outside := peer :: s.outside }
  | release (s : System H) {before after : List Peer} {peer : Peer} :
      s.outside = before ++ peer :: after →
      Step s { s with admission := s.admission.release peer, outside := before ++ after }

inductive Reachable (globalLimit perPeer : ℕ) : System H → Prop where
  | new : Reachable globalLimit perPeer (.new H globalLimit perPeer)
  | step {s t : System H} : Reachable globalLimit perPeer s → Step s t →
      Reachable globalLimit perPeer t

end System

end BrokerRegistry
