import VirtualGamepad.Admission
import VirtualGamepad.AudioBroker
import VirtualGamepad.AudioConnection
import VirtualGamepad.AudioConnectionLifecycle
import VirtualGamepad.AudioWorker
import VirtualGamepad.AudioWorkerAgreement
import VirtualGamepad.AudioWorkerClient
import VirtualGamepad.AudioWorkerLoop
import VirtualGamepad.AudioWorkerPositions
import VirtualGamepad.AudioWorkerSystem
import VirtualGamepad.BatchDelivery
import VirtualGamepad.BitFields
import VirtualGamepad.BrokerRegistry
import VirtualGamepad.BrokerRegistryAccounts
import VirtualGamepad.BrokerRegistryRuns
import VirtualGamepad.BrokerWire
import VirtualGamepad.ByteReader
import VirtualGamepad.CompoundLifecycle
import VirtualGamepad.ControllerContract
import VirtualGamepad.ControllerSession
import VirtualGamepad.ControllerSessionObservations
import VirtualGamepad.Conveyor
import VirtualGamepad.Dialogue
import VirtualGamepad.Eviction
import VirtualGamepad.ForceFeedback
import VirtualGamepad.ForceFeedbackExact
import VirtualGamepad.GroupService
import VirtualGamepad.GroupServiceCycle
import VirtualGamepad.HidRuntime
import VirtualGamepad.HidRuntimeBudget
import VirtualGamepad.HidRuntimeDelivery
import VirtualGamepad.HidRuntimeLedger
import VirtualGamepad.HidRuntimeLifetime
import VirtualGamepad.HidRuntimeObservations
import VirtualGamepad.HidRuntimePersonality
import VirtualGamepad.HidRuntimeReplies
import VirtualGamepad.NativeState
import VirtualGamepad.NativeStateCodec
import VirtualGamepad.Panicking
import VirtualGamepad.PcmChain
import VirtualGamepad.PcmChainDelivery
import VirtualGamepad.PcmChainPositions
import VirtualGamepad.PcmIpc
import VirtualGamepad.PcmIpcDelivery
import VirtualGamepad.PcmIpcFraming
import VirtualGamepad.PcmIpcParsing
import VirtualGamepad.PcmQueue
import VirtualGamepad.PcmQueueDelivery
import VirtualGamepad.PcmQueueLosses
import VirtualGamepad.PipewireCapture
import VirtualGamepad.PipewireCaptureAccounts
import VirtualGamepad.Procession
import VirtualGamepad.ReverseDelivery
import VirtualGamepad.ReverseDeliveryRuns
import VirtualGamepad.SlotTable
import VirtualGamepad.SonyInput
import VirtualGamepad.SteamController
import VirtualGamepad.SteamFeatureExchange
import VirtualGamepad.SteamStreaming
import VirtualGamepad.SteamStreamingAccounts
import VirtualGamepad.SwitchInput
import VirtualGamepad.Tables
import VirtualGamepad.Transactions
import VirtualGamepad.Transducer
import VirtualGamepad.UsbipCompletion
import VirtualGamepad.UsbipCompletionQueue
import VirtualGamepad.UsbipCompletionQueueRuns
import VirtualGamepad.UsbipControl
import VirtualGamepad.UsbipControlRequests
import VirtualGamepad.UsbipFrame
import VirtualGamepad.UsbipPending
import VirtualGamepad.UsbipPendingTickets
import VirtualGamepad.UsbipWorker
import VirtualGamepad.UsbipWorkerAccounts
import VirtualGamepad.UsbipWorkerAnswers
import VirtualGamepad.UsbipWorkerBounds
import VirtualGamepad.UsbipWorkerFraming
import VirtualGamepad.UsbipWorkerLedger
import VirtualGamepad.UsbipWorkerOrder
import VirtualGamepad.UsbipWorkerTrace
import VirtualGamepad.WiiMemory
import VirtualGamepad.WiiProtocol
import VirtualGamepad.WiiRemote
import VirtualGamepad.WiiReports
import VirtualGamepad.MicrophoneCredit
import VirtualGamepad.PlainText
import VirtualGamepad.VhciPolicy
import VirtualGamepad.GraphTiming
import VirtualGamepad.HostAccess
import VirtualGamepad.SonyEvdev
import VirtualGamepad.Coupling
import VirtualGamepad.ClientPcm
import VirtualGamepad.ClientPlayback
import VirtualGamepad.ClientMicrophone
import VirtualGamepad.ClientCounterpart
import VirtualGamepad.WiiSafety
import VirtualGamepad.WiiInput
import VirtualGamepad.WiiReplies
import VirtualGamepad.WiiSession
import VirtualGamepad.WiiStore
import VirtualGamepad.WiiReads
import VirtualGamepad.WiiConversation
import VirtualGamepad.UhidEvents
import VirtualGamepad.UhidSession
import VirtualGamepad.UhidTransport
import VirtualGamepad.HidRuntimeTransport
import VirtualGamepad.HidPersonality
import VirtualGamepad.HidSilence
import VirtualGamepad.RetainedOutputs
import VirtualGamepad.UhidDialogue
import VirtualGamepad.Registers
import VirtualGamepad.SnapshotPersonalities
import VirtualGamepad.SwitchPersonality
import VirtualGamepad.HostOutputs
import VirtualGamepad.PersonalitySilence
import VirtualGamepad.SteamTurns
import VirtualGamepad.ObligingPersonalities
import VirtualGamepad.SteamMirror
import VirtualGamepad.AudioHost
import VirtualGamepad.AudioHostAccounts
import VirtualGamepad.AudioOwnership
