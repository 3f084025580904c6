import BenthosDc.SmartParser
import BenthosDc.ProfileCode
import BenthosDc.Profile
import BenthosDc.Lib.Readings
import BenthosDc.Waypoints
import BenthosDc.Lib.Tiling
import BenthosDc.SmartExtract
import BenthosDc.Base64
import BenthosDc.Lib.Hoare
import BenthosDc.Lib.Lifetime
import BenthosDc.Irda
import BenthosDc.Smartid
import BenthosDc.SmartidDevice
import BenthosDc.SmartidCmd
import BenthosDc.SmartidReplies
import BenthosDc.SmartidAnswered
import BenthosDc.SmartidSession
import BenthosDc.Lib.Delivery
import BenthosDc.SmartidServer
import BenthosDc.SmartiSocket
import BenthosDc.Lib.Lines
import BenthosDc.SmartiClient
import BenthosDc.SmartiExchange
import BenthosDc.SmartiCalls
import BenthosDc.SmartiRuns
import BenthosDc.Arglist
import BenthosDc.Lib.Printf
import BenthosDc.OutputFmt
import BenthosDc.OutputCsv
import BenthosDc.Lib.XmlHeap
import BenthosDc.OutputCsvRuns
import BenthosDc.OutputUddf
import BenthosDc.OutputUddfRuns
import BenthosDc.Lib.Checked
import BenthosDc.LibdcFlatten
import BenthosDc.Manifest
import BenthosDc.ManifestForm
import BenthosDc.Registry
import BenthosDc.RegistryLookup
import BenthosDc.SmartidLink
import BenthosDc.SmartidLinkRuns
import BenthosDc.DriverBase
import BenthosDc.SmartDriver
import BenthosDc.SmartiDriver
import BenthosDc.SmartiEnum
import BenthosDc.DriverPick
import BenthosDc.SmartPlugin
import BenthosDc.LibdcDriver
import BenthosDc.TransferApp
import BenthosDc.Ownership
import BenthosDc.SmartOwned
import BenthosDc.SmartPluginOwned
import BenthosDc.SmartiOwned
import BenthosDc.LibdcOwned
import BenthosDc.TransferHandles
import BenthosDc.SmartExtractRuns
import BenthosDc.SmartParserReset
import BenthosDc.ProfileBounds
import BenthosDc.Lib.LinkedList
import BenthosDc.SmartidConnList
import BenthosDc.SmartMessages
import BenthosDc.LibdcCallbacks
import BenthosDc.LibdcTransfers
import BenthosDc.LibdcTokens
import BenthosDc.Lib.Journal
import BenthosDc.TransferTokens
import BenthosDc.TransferResumes
import BenthosDc.SmartAnswers
import BenthosDc.SmartidTransfers
import BenthosDc.SmartiCalm
import BenthosDc.SmartTransfers
import BenthosDc.DeviceCommands
import BenthosDc.DiveTimes
import BenthosDc.BlockTransfers
import BenthosDc.TransferCleanup
import BenthosDc.SmartidRejected
import BenthosDc.Lib.LineScan
import BenthosDc.SmartidLines
import BenthosDc.SmartiFraming
import BenthosDc.TransferMemory
import BenthosDc.Base64Text
import BenthosDc.ArglistBounds
import BenthosDc.SmartiWire
import BenthosDc.ChunkSizes
import BenthosDc.SmartiOutcomes
import BenthosDc.SmartiKernel
import BenthosDc.SmartiStale
import BenthosDc.SmartiConnects
import BenthosDc.SmartiRequests
import BenthosDc.SmartiTrim
import BenthosDc.SmartiErrors
import BenthosDc.SmartiAgrees
import BenthosDc.ArglistQueries
import BenthosDc.LibdcTiling
import BenthosDc.LibdcSamples
import BenthosDc.RegistryAtomic
import BenthosDc.UddfTanks
import BenthosDc.UddfMixes
import BenthosDc.Lib.DecimalFraction
import BenthosDc.UddfFractions
import BenthosDc.CsvColumns
import BenthosDc.Lib.Regex
import BenthosDc.PluginSearch
import BenthosDc.PluginLoad
import BenthosDc.UnpackValues
import BenthosDc.Lib.Frame
import BenthosDc.SmartidFrame
import BenthosDc.SmartidDaemon
import BenthosDc.SmartidDaemonRuns
import BenthosDc.SmartidDaemonAnswers
import BenthosDc.SmartidMain
import BenthosDc.Lib.PrefixCode
import BenthosDc.ProfileFormat
import BenthosDc.TransferOutput
import BenthosDc.TransferLogs
import BenthosDc.Lib.XmlTree
import BenthosDc.UddfDocument
import BenthosDc.UddfTree
import BenthosDc.UddfTreeRuns
import BenthosDc.ProfileTable
import BenthosDc.TransferDocument
import BenthosDc.Lib.Cursor
import BenthosDc.DriverList
import BenthosDc.BenthosXfr
