import Pymod.Errors
import Pymod.Codec
import Pymod.Lib.BitStrings
import Pymod.CodecLaws
import Pymod.Lib.Ranges
import Pymod.Lib.Runs
import Pymod.BatchErrors
import Pymod.DataModel
import Pymod.ReadBack
import Pymod.AduRtu
import Pymod.AduTcp
import Pymod.RtuExchanges
import Pymod.SerialBus
import Pymod.TcpCalls
import Pymod.TcpCleanup
import Pymod.TcpClosed
import Pymod.TcpReplies
import Pymod.PduRoundTrips
import Pymod.RtuFraming
import Pymod.BatchIsolation
import Pymod.BatchMemory
import Pymod.WholeValues
import Pymod.Client
import Pymod.ClientWrites
import Pymod.ServerCallbacks
import Pymod.ServerSessions
import Pymod.ServerStop
import Pymod.Executions
import Pymod.Lib.ShiftRegisters
import Pymod.MinimalReads
import Pymod.Reconnects
import Pymod.RegisterBits
import Pymod.RtuChecksum
import Pymod.SerialTiming
import Pymod.ServerCalls
import Pymod.WriteEchoes
import Pymod.Backoff
import Pymod.Cli
import Pymod.CliExitCodes
import Pymod.Lib.Fallible
import Pymod.ServeConnections
import Pymod.Network
import Pymod.RemoteCalls
import Pymod.SparseReads
import Pymod.TcpRest
import Pymod.RtuRest
import Pymod.SerialRest
import Pymod.TcpTurns
import Pymod.BatchRequests
import Pymod.ResponseSizes
import Pymod.MinimalWrites
import Pymod.CliReports
import Pymod.Lib.Words
import Pymod.NetworkRequests
