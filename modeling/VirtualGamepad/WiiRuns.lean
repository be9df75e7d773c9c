import VirtualGamepad.Runs
import VirtualGamepad.WiiProtocol

/-! Runs of the Wii Remote personality, with the result of each call. -/
namespace WiiRuns

open HidRuntime (Report Error ReplyError Lifecycle)
open Panicking Runs WiiRemote WiiMemory WiiProtocol

/-- A call with its result. Output reports and SET requests are accepted in the same way. -/
inductive Call where
  | accept (report : Report) (now : ℕ) (result : Outcome ReplyError Unit)
  | input (state : WiiRemoteState) (now : ℕ) (result : Outcome Error (List Report))
  | changeAttachment (extension : WiiExtension) (motionPlus : Bool) (now : ℕ)
      (result : Outcome Error Unit)
  | lifecycle (event : Lifecycle) (now : ℕ)

def Step (w : Wii) (call : Call) (w' : Wii) : Prop :=
  match call with
  | .accept report now result => accept report now w = (result, w')
  | .input state now result => inputReports state now w = (result, w')
  | .changeAttachment extension motionPlus now result =>
    changeAttachment extension motionPlus now w = (result, w')
  | .lifecycle event now => w' = lifecycle event now w

/-- The personality of a new controller. -/
def hidProtocol (revision : WiiRemoteRevision) (image : WiiEepromImage)
    (options : WiiRemoteCreationOptions) : Wii :=
  { Wii.withCreationOptions image options with state := .new revision }

def Reachable (w : Wii) : Prop :=
  ∃ revision image options log, revision.hasIdentityEvidence = true ∧
    Run Step (hidProtocol revision image options) log w

theorem Reachable.next {w w' : Wii} {call : Call} (h : Reachable w) (hs : Step w call w') :
    Reachable w' := by
  obtain ⟨revision, image, options, log, hrevision, hrun⟩ := h
  exact ⟨revision, image, options, log ++ [call], hrevision, hrun.snoc hs⟩

/-- What holds of every new personality and is kept by every call holds of every reachable one. -/
theorem Reachable.invariant {I : Wii → Prop} {w : Wii} (h : Reachable w)
    (hnew : ∀ revision image options, I (hidProtocol revision image options))
    (hstep : ∀ w call w', I w → Step w call w' → I w') : I w := by
  obtain ⟨revision, image, options, log, _, hrun⟩ := h
  exact hrun.invariant hstep (hnew revision image options)

end WiiRuns
