import Mpsystemd.Datagram
import Mpsystemd.JournalFields
import Mpsystemd.Descriptors
import Mpsystemd.BarrierSafety
import Mpsystemd.Submission
import Mpsystemd.SignalMask
import Mpsystemd.SignalOpening
import Mpsystemd.SignalRouting
import Mpsystemd.SignalQueue
import Mpsystemd.WatchdogTiming
import Mpsystemd.SignalReopening
import Mpsystemd.SignalClosing
import Mpsystemd.ScmRights
import Mpsystemd.Consumption
import Mpsystemd.ActivationNames
import Mpsystemd.InstallFailure
import Mpsystemd.Listener
import Mpsystemd.JournalHandler
import Mpsystemd.FieldPrecedence
import Mpsystemd.FieldOrder
import Mpsystemd.Names
import Mpsystemd.OutsideSystemd
import Mpsystemd.NotifyEnvironment
import Mpsystemd.SharedWriter
import Mpsystemd.Notifications
import Mpsystemd.Receipt
import Mpsystemd.Testbed
import Mpsystemd.StoreCycle
import Mpsystemd.BackendAgreement
import Mpsystemd.Draining
import Mpsystemd.JournalEntries
import Mpsystemd.WatchdogService
import Mpsystemd.SignalWaiting
import Mpsystemd.LoopWaiting
import Mpsystemd.MessageBuffers
