import Esqh.Firmware.Answers
import Esqh.Firmware.BoundedText
import Esqh.Firmware.Bounds
import Esqh.Firmware.Calls
import Esqh.Firmware.Codec
import Esqh.Firmware.CommandedValues
import Esqh.Firmware.Commands
import Esqh.Firmware.Config
import Esqh.Firmware.ConfigContract
import Esqh.Firmware.Controller
import Esqh.Firmware.Crc
import Esqh.Firmware.CrcRemainder
import Esqh.Firmware.DataFlow
import Esqh.Firmware.FaultMemory
import Esqh.Firmware.FaultOrder
import Esqh.Firmware.Fifo
import Esqh.Firmware.Frame
import Esqh.Firmware.Intake
import Esqh.Firmware.MainProgram
import Esqh.Firmware.Message
import Esqh.Firmware.ModeHistory
import Esqh.Firmware.Periods
import Esqh.Firmware.Queue
import Esqh.Firmware.QueueRefinement
import Esqh.Firmware.Reachable
import Esqh.Firmware.ReplyHistory
import Esqh.Firmware.Restart
import Esqh.Firmware.ServiceLife
import Esqh.Firmware.Startup
import Esqh.Firmware.StatusContract
import Esqh.Firmware.Supervisor
import Esqh.Firmware.System
import Esqh.Firmware.Telemetry
import Esqh.Firmware.Transitions
import Esqh.Firmware.Types
import Esqh.Firmware.Watchdog
import Esqh.Firmware.WireFormat
import Esqh.Library.Batch
import Esqh.Library.Collections
import Esqh.Library.LinesAndCells
import Esqh.Library.Machine
import Esqh.Library.Memory
import Esqh.Library.Outcome
import Esqh.Library.PolynomialRemainder
import Esqh.Library.Reading
import Esqh.Library.RingBuffer
import Esqh.Library.RunCost
import Esqh.Library.ScatteredErrors
import Esqh.Library.ShiftRegister
import Esqh.Library.Transfer
import Esqh.Library.Utf8
import Esqh.Qualification.Audit
import Esqh.Qualification.CommandLine
import Esqh.Qualification.DeclaredMethods
import Esqh.Qualification.FailSafe
import Esqh.Qualification.Fields
import Esqh.Qualification.Findings
import Esqh.Qualification.FlatVerdict
import Esqh.Qualification.Gates
import Esqh.Qualification.Gathering
import Esqh.Qualification.Harness
import Esqh.Qualification.InputOrder
import Esqh.Qualification.Json
import Esqh.Qualification.JsonReader
import Esqh.Qualification.LiveRun
import Esqh.Qualification.LoaderContracts
import Esqh.Qualification.Loaders
import Esqh.Qualification.MarkdownStructure
import Esqh.Qualification.Printing
import Esqh.Qualification.Rendering
import Esqh.Qualification.Report
import Esqh.Qualification.ReportText
import Esqh.Qualification.Runner
import Esqh.Qualification.StatedFailures
import Esqh.Qualification.Text
import Esqh.Qualification.Traceability
import Esqh.Qualification.Types
import Esqh.Qualification.Verdict
import Esqh.Qualification.VerifyHost
import Esqh.Qualification.Wording
