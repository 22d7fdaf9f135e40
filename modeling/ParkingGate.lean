import ParkingGate.Base.Trace
import ParkingGate.Base.Clock32
import ParkingGate.Base.RingBuffer
import ParkingGate.Base.Collection
import ParkingGate.Base.Prog
import ParkingGate.Base.Hoare
import ParkingGate.Base.Async
import ParkingGate.Base.Paging
import ParkingGate.Base.Batches
import ParkingGate.Base.Progress
import ParkingGate.Base.Prompt
import ParkingGate.Base.RegexEngine
import ParkingGate.Base.JsValue
import ParkingGate.Frontend.SingleFlight
import ParkingGate.Frontend.GatePress
import ParkingGate.Frontend.Phone
import ParkingGate.Firmware.Cooperation
import ParkingGate.Firmware.DedupeWindow
import ParkingGate.Firmware.PulseSpacing
import ParkingGate.Firmware.Reconnects
import ParkingGate.Firmware.DiagnosticIndices
import ParkingGate.Firmware.DiagnosticQueue
import ParkingGate.Firmware.PowerCut
import ParkingGate.Firmware.DiagnosticUpload
import ParkingGate.Firmware.PayloadSize
import ParkingGate.Firmware.CommandContract
import ParkingGate.Firmware.PppEscalation
import ParkingGate.Firmware.Listening
import ParkingGate.Backend.NoHang
import ParkingGate.Backend.RefreshRace
import ParkingGate.Backend.LoginRace
import ParkingGate.Backend.RevocationRace
import ParkingGate.Backend.ForcedLogout
import ParkingGate.Backend.CurrentToken
import ParkingGate.Backend.SessionCopies
import ParkingGate.Backend.BulkApproval
import ParkingGate.Backend.Demotion
import ParkingGate.Backend.ResetTokens
import ParkingGate.Backend.PasswordChange
import ParkingGate.Backend.TerminalGateway
import ParkingGate.Backend.OrphanShell
import ParkingGate.Backend.AuditRecord
import ParkingGate.Backend.OwnTimer
import ParkingGate.Backend.PendingSlot
import ParkingGate.Backend.DeliveredOnce
import ParkingGate.Backend.GateController
import ParkingGate.Backend.ApprovalMail
import ParkingGate.Backend.RefusedUpdate
import ParkingGate.Backend.SearchFilters
import ParkingGate.Backend.Diagnostics
import ParkingGate.System.ReplayWindow
import ParkingGate.System.OnePress
import ParkingGate.System.PhoneNumbers
import ParkingGate.Scripts.CleanupDuplicateEmails
import ParkingGate.Scripts.CleanupResult
import ParkingGate.Backend.Privileges
import ParkingGate.System.AuthorisedPulse
import ParkingGate.System.OutOfBand
import ParkingGate.Firmware.ModemManager
import ParkingGate.Firmware.SelfHealing
import ParkingGate.System.DiagnosticDelivery
