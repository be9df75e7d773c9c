import Mathlib.Data.Int.Notation
import VirtualGamepad.HidRuntime

/-! What the application, the controllers and the device providers exchange: refusals, reverse
events and frames. -/
namespace ControllerContract

inductive ControlError where
  | unsupportedControl (control : String)
  | unavailableInRealization
  | closed
  deriving DecidableEq, Repr

structure EvdevEvent where
  eventType : UInt16
  code : UInt16
  value : Int32
  deriving DecidableEq, Repr

structure RumbleEffect where
  id : Int16
  strong : UInt16
  weak : UInt16
  lengthMs : UInt16
  delayMs : UInt16
  triggerButton : UInt16
  triggerIntervalMs : UInt16
  deriving DecidableEq, Repr

inductive ForceFeedbackEffect where
  | rumble (effect : RumbleEffect)
  | unsupported (id : Int16) (kind : UInt16)
  deriving DecidableEq, Repr

/-- Completions of requests, and playback commands for stored effects. -/
inductive ForceFeedbackEvent where
  | uploaded (requestId : UInt32) (effect : ForceFeedbackEffect) (status : Int32)
  | erased (requestId : UInt32) (effectId : UInt32) (status : Int32)
  | playback (effect : RumbleEffect) (repetitions : ℕ)
  deriving DecidableEq, Repr

/-- What comes back from a device, and what a HID personality reports to the application. -/
inductive RawReverseEvent where
  | hidLifecycle (event : HidRuntime.Lifecycle)
  | evdev (events : List EvdevEvent)
  | hidOutput (reportId : Option UInt8) (bytes : List UInt8)
  | hidGetReportRequest (requestId : UInt32) (reportId reportType : UInt8)
  | hidSetReportRequest (requestId : UInt32) (reportId reportType : UInt8) (bytes : List UInt8)
  | forceFeedback (event : ForceFeedbackEvent)
  | forceFeedbackUpload (requestId : UInt32) (effect : ForceFeedbackEffect)
  | forceFeedbackErase (requestId : UInt32) (effectId : UInt32)
  deriving DecidableEq

def observe (report : HidRuntime.Report) : RawReverseEvent :=
  .hidOutput report.id report.payload

inductive ProviderFrame where
  | evdev (events : List EvdevEvent)
  | hidInput (reportId : Option UInt8) (bytes : List UInt8)
  | hidGetReportReply (requestId : UInt32) (status : Int16) (bytes : List UInt8)
  | hidSetReportReply (requestId : UInt32) (status : Int16)
  | forceFeedbackUploadReply (requestId : UInt32) (status : Int32)
  | forceFeedbackEraseReply (requestId : UInt32) (status : Int32)
  | dummyHcdInput (bytes : List UInt8)
  deriving DecidableEq

inductive ProviderError where
  | preflight
  | open (reason : String)
  | write (reason : String)
  | read (reason : String)
  | closed
  | unsupported (reason : String)
  | wouldBlock
  deriving DecidableEq, Repr

end ControllerContract
