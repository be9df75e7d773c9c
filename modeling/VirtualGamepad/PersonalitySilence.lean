import VirtualGamepad.HidSilence
import VirtualGamepad.HostOutputs
import VirtualGamepad.SteamTurns
import VirtualGamepad.WiiSession

/-! A STOP of the host silences every family of controllers. -/
namespace PersonalitySilence

open Fallible HidRuntime HidSilence HostOutputs SnapshotPersonalities SwitchPersonality SteamHid
open RetainedOutputs (OutputState)

section Snapshots

variable {S R : Type} [OutputState R]

theorem snapshot_hushes : Hushes (fun p : SnapshotProtocol S R => p.active = false) := by
  constructor
  · intro p now
    rfl
  · intro p event now hp hevent
    cases event with
    | start _ _ _ => cases hevent
    | stop => rfl
    | «open» => exact hp
    | close => exact hp
  · intro p kind now hp
    change (SnapshotProtocol.request p kind).2.active = false
    cases kind with
    | get kind id =>
      rw [snapshot_get]
      exact hp
    | set report =>
      unfold SnapshotProtocol.request
      dsimp only
      cases accepting p.applies p.retained report with
      | ok retained => exact hp
      | error e => exact hp
  · intro p report now hp
    change (SnapshotProtocol.output report p).2.active = false
    unfold SnapshotProtocol.output
    split
    · cases accepting p.applies p.retained report with
      | ok retained => exact hp
      | error e => exact hp
    · exact hp
  · intro p command outcome hp
    exact hp
  · intro p state now hp
    change Meets (SnapshotProtocol.input state now p) _ _
    unfold SnapshotProtocol.input
    rw [hp]
    split
    · exact trivial
    · exact ⟨rfl, hp⟩

theorem dualSense_hushes : Hushes (fun p : DualSenseUsbProtocol R => p.active = false) := by
  constructor
  · intro p now
    rfl
  · intro p event now hp hevent
    cases event with
    | start _ _ _ => cases hevent
    | stop => rfl
    | «open» => exact hp
    | close => exact hp
  · intro p kind now hp
    change (DualSenseUsbProtocol.request p kind).2.active = false
    cases kind with
    | get kind id =>
      rw [dualSense_get]
      exact hp
    | set report =>
      unfold DualSenseUsbProtocol.request
      dsimp only
      cases accepting p.applies p.retained report with
      | ok retained => exact hp
      | error e => exact hp
  · intro p report now hp
    change (DualSenseUsbProtocol.output report p).2.active = false
    unfold DualSenseUsbProtocol.output
    split
    · cases accepting p.applies p.retained report with
      | ok retained => exact hp
      | error e => exact hp
    · exact hp
  · intro p command outcome hp
    exact hp
  · intro p state now hp
    change Meets (DualSenseUsbProtocol.input state now p) _ _
    unfold DualSenseUsbProtocol.input
    rw [hp]
    split
    · exact trivial
    · exact ⟨rfl, hp⟩

end Snapshots

section Switch

theorem taken_active {p next : SwitchUsbProtocol} {report : Report} {now : ℕ}
    (h : SwitchUsbProtocol.Taken p report now next) : next.active = p.active := by
  cases h with
  | command _ _ => rfl
  | subcommand _ _ => rfl
  | rumble _ _ => rfl

theorem process_active {p next : SwitchUsbProtocol} {report : Report} {now : ℕ}
    (h : p.process report now = .ok next) : next.active = p.active := by
  unfold SwitchUsbProtocol.process at h
  split at h
  · cases h
  · next hinner =>
    have hactive := taken_active (SwitchUsbProtocol.processInner_takes hinner).taken
    split at h
    · cases h
    · cases h
      exact hactive

theorem switch_hushes : Hushes (fun p : SwitchUsbProtocol => p.active = false) := by
  constructor
  · intro p now
    rfl
  · intro p event now hp hevent
    cases event with
    | start _ _ _ => cases hevent
    | stop => rfl
    | «open» => exact hp
    | close => exact hp
  · intro p kind now hp
    change (SwitchUsbProtocol.request p kind now).2.active = false
    cases kind with
    | get kind id => exact hp
    | set report =>
      unfold SwitchUsbProtocol.request
      dsimp only
      cases hprocess : p.process report now with
      | ok next => exact (process_active hprocess).trans hp
      | error e => exact hp
  · intro p report now hp
    change (SwitchUsbProtocol.output report now p).2.active = false
    unfold SwitchUsbProtocol.output
    cases hprocess : p.process report now with
    | ok next => exact (process_active hprocess).trans hp
    | error e =>
      cases e with
      | busy => exact hp
      | unsupported => exact hp
      | invalid => exact hp
  · intro p command outcome hp
    exact hp
  · intro p state now hp
    change Meets (SwitchUsbProtocol.input state now p) _ _
    unfold SwitchUsbProtocol.input
    rw [hp]
    split
    · exact trivial
    · exact ⟨rfl, hp⟩

end Switch

section Wii

open WiiInput WiiProtocol WiiReplies WiiSafety WiiSession

variable {w : Wii} {report : Report} {now : ℕ}

/-- An inactive remote hears nothing. -/
theorem accept_inactive (h : w.active = false) : (accept report now w).2 = w := by
  rcases hrun : accept report now w with ⟨result, w'⟩
  rcases accept_turn hrun with ⟨_, hheard⟩ | ⟨_, rfl⟩
  · obtain ⟨_, _, _, hadmitted, _⟩ := hheard
    rw [hadmitted.hears.1] at h
    cases h
  · rfl

theorem wii_hushes : Hushes (fun w : Wii => w.active = false) := by
  constructor
  · intro w now
    rfl
  · intro w event now hw hevent
    cases event with
    | start _ _ _ => cases hevent
    | stop => rfl
    | «open» => exact hw
    | close => exact hw
  · intro w kind now hw
    cases kind with
    | get kind id => exact hw
    | set report =>
      change (accept report now w).2.active = false
      rw [accept_inactive hw]
      exact hw
  · intro w report now hw
    change (accept report now w).2.active = false
    rw [accept_inactive hw]
    exact hw
  · intro w command outcome hw
    exact hw
  · intro w state now hw
    change Meets (settle (inputReports state now) w) _ _
    have hinactive : (!w.active) = true := by rw [hw]; rfl
    unfold settle inputReports
    rw [Panicking.get_bind_run]
    cases hvalid : WiiProtocol.validate w state with
    | ok _ =>
      rw [Panicking.lift_ok_bind_run, Panicking.modify_bind_run, if_pos hinactive]
      exact ⟨rfl, hw⟩
    | error e => exact trivial
    | panicked => exact trivial

end Wii

section Steam

open Panicking (Action.get)
open SteamController SteamTurns

variable {p p' : SteamProtocol} {report : Report} {haptic : Haptic} {now : ℕ}

theorem heard_stopped (h : Heard p report now haptic p') : p'.stopped = p.stopped := by
  cases h with
  | stream _ => rfl
  | slot _ _ =>
    unfold retainHaptic
    split
    · rfl
    · rfl

theorem request_stopped (p : SteamHidProtocol) (kind : RequestKind) (now : ℕ) :
    (p.request kind now).2.protocol.stopped = p.protocol.stopped := by
  obtain ⟨answer, p', hrun, hturn⟩ := request_turn kind now p.serial
  rw [request_protocol, hrun]
  cases hturn with
  | get => rfl
  | heard _ _ hheard => exact heard_stopped hheard
  | refused _ => rfl
  | feature _ _ => rfl

theorem output_stopped (report : Report) (now : ℕ) (p : SteamHidProtocol) :
    (SteamHidProtocol.output report now p).2.protocol.stopped = p.protocol.stopped := by
  rw [output_protocol]
  rcases output_cases report now p.protocol with ⟨haptic, p', hrun, _, hheard⟩ | ⟨e, hrun⟩
  · rw [hrun]
    exact heard_stopped hheard
  · rw [hrun]

theorem steam_hushes : Hushes (fun p : SteamHidProtocol => p.protocol.stopped = true) := by
  constructor
  · intro p now
    change (p.lifecycle .stop now).protocol.stopped = true
    rw [lifecycle_protocol]
    rfl
  · intro p event now hp hevent
    change (p.lifecycle event now).protocol.stopped = true
    rw [lifecycle_protocol]
    cases event with
    | start _ _ _ => cases hevent
    | stop => rfl
    | «open» => exact hp
    | close => exact hp
  · intro p kind now hp
    exact (request_stopped p kind now).trans hp
  · intro p report now hp
    exact (output_stopped report now p).trans hp
  · intro p command outcome hp
    exact hp
  · intro p state now hp
    change Meets (SteamHidProtocol.input state now p) _ _
    have hprotocol := input_protocol state now p
    have hspec := input_spec state now p.protocol
    rcases hrun : SteamHidProtocol.input state now p with ⟨e | reports, p'⟩
    · exact trivial
    · have hreturned : (SteamProtocol.input state now p.protocol).1 = .ok reports :=
        (Panicking.returned_eq_ok _).mp (congrArg Prod.fst hrun)
      rcases hinner : SteamProtocol.input state now p.protocol with ⟨result, q⟩
      rw [hinner] at hreturned hspec hprotocol
      obtain rfl : result = .ok reports := hreturned
      rw [hrun] at hprotocol
      have hpolled : Polled p.protocol reports q := hspec
      refine ⟨hpolled.silent hp, ?_⟩
      rw [show p'.protocol = q from hprotocol, hpolled.stopped]
      exact hp

end Steam

/-- A STOP of the host silences every family: until the next START no input report is handed over, and
afterwards none that was generated before. -/
theorem families_silenced {S R T : Type} [OutputState R] [Transport T] (transport : T) (session : ℕ)
    (limits : Limits) :
    (∀ (first : SnapshotProtocol S R) (rt : Runtime _ T S _),
      Reachable first transport session limits rt → Silences (fun p => p.active = false) rt) ∧
    (∀ (first : DualSenseUsbProtocol R) (rt : Runtime _ T _ _),
      Reachable first transport session limits rt → Silences (fun p => p.active = false) rt) ∧
    (∀ (first : SwitchUsbProtocol) (rt : Runtime _ T _ _),
      Reachable first transport session limits rt → Silences (fun p => p.active = false) rt) ∧
    (∀ (first : WiiProtocol.Wii) (rt : Runtime _ T _ _),
      Reachable first transport session limits rt → Silences (fun w => w.active = false) rt) ∧
    ∀ (first : SteamHidProtocol) (rt : Runtime _ T _ _),
      Reachable first transport session limits rt → Silences (fun p => p.protocol.stopped = true) rt := by
  refine ⟨?_, ?_, ?_, ?_, ?_⟩
  · intro first rt h
    exact sessions_silenced snapshot_hushes h
  · intro first rt h
    exact sessions_silenced dualSense_hushes h
  · intro first rt h
    exact sessions_silenced switch_hushes h
  · intro first rt h
    exact sessions_silenced wii_hushes h
  · intro first rt h
    exact sessions_silenced steam_hushes h

/-- A DualShock 4 whose host stops it and starts it again. -/
def restarted : Runtime (SnapshotProtocol NativeState.DualShock4State RetainedOutputs.DualShock4OutputState)
    Scripted NativeState.DualShock4State ControllerContract.RawReverseEvent :=
  { ds4Opened with transport := ⟨[.lifecycle .stop, .lifecycle (.start true true true)], []⟩ }

theorem families_silenced_restarted :
    let rt := later [.service 1, .service 20] restarted
    rt.calls[1]?.map Entry.call = some (.lifecycle .stop) ∧ (∃ e r, rt.calls[6]? = some e ∧ submits e r) ∧
      Silences (fun p => p.active = false) rt := by
  have hnew : Runtime.new (dualshock4Protocol (.replicate 6 2)) restarted.transport 7 .default =
      .ok restarted := rfl
  refine ⟨rfl, ⟨_, _, rfl, .submitted, rfl⟩, ?_⟩
  exact (families_silenced restarted.transport 7 .default).1 _ _ (later_reachable (.new hnew) _)

end PersonalitySilence
