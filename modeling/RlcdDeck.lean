import RlcdDeck.AiSnapshot.Equiv.Attempts
import RlcdDeck.ApplicationUi.Equiv.LocalClock
import RlcdDeck.ApplicationUi.Equiv.PageViewModel
import RlcdDeck.Backup.Equiv.Plan
import RlcdDeck.BoardSupport.Equiv.ButtonInput
import RlcdDeck.CodexAppServer.Equiv.Collector
import RlcdDeck.CodexAppServer.Equiv.LateAnswers
import RlcdDeck.CodexObserver.Equiv.Observer
import RlcdDeck.CompanionFailover.Equiv.Round
import RlcdDeck.CompanionLink.Equiv.Frame
import RlcdDeck.CompanionLink.Equiv.Results
import RlcdDeck.CompanionLink.Equiv.Stream
import RlcdDeck.CompanionLink.Equiv.Tracker
import RlcdDeck.CompanionLink.Equiv.TrustedClock
import RlcdDeck.CompanionProfiles.Equiv.Codec
import RlcdDeck.CompanionProfiles.Equiv.Crash
import RlcdDeck.CompanionProfiles.Equiv.PairingAddress
import RlcdDeck.DeviceLink.Equiv.Hub
import RlcdDeck.Diagnostics.Equiv.Log
import RlcdDeck.Display.Equiv.Service
import RlcdDeck.History.Equiv.Flush
import RlcdDeck.Installation.Equiv.Calls
import RlcdDeck.Installation.Equiv.Programs
import RlcdDeck.OtaFence.Equiv.Safety
import RlcdDeck.OtaTransaction.Equiv.BootSelection
import RlcdDeck.OtaTransfer.Equiv.Transfer
import RlcdDeck.Pairing.Equiv.Sessions
import RlcdDeck.Runtime.Equiv.Controller
import RlcdDeck.Runtime.Equiv.RateLimiter
import RlcdDeck.SerialControl.Equiv.Requests
import RlcdDeck.SerialFrame.Equiv.Codec
import RlcdDeck.SerialLink.Equiv.Sessions
import RlcdDeck.SerialRouter.Equiv.History
import RlcdDeck.SerialRouter.Equiv.UsbBridge
import RlcdDeck.SerialService.Equiv.Exclusive
import RlcdDeck.StructuredProvider.Equiv.Commit
import RlcdDeck.StructuredProvider.Equiv.CurlImport
import RlcdDeck.StructuredProvider.Equiv.Lexing
import RlcdDeck.StructuredProvider.Equiv.Service
import RlcdDeck.WifiSetup.Equiv.Activation
import RlcdDeck.WifiSetup.Equiv.Form
