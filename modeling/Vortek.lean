import Vortek.LineSplit
import Vortek.IncrementalDecoder
import Vortek.ResettingReader
import Vortek.WaitableTimer
import Vortek.CallScript
import Vortek.RecursiveCalls
import Vortek.DecimalText
import Vortek.StringToInteger
import Vortek.ByteText
import Vortek.RespValue
import Vortek.RespParser
import Vortek.RespGrammar
import Vortek.RespConformance
import Vortek.RespStream
import Vortek.KvStore
import Vortek.PubSubBroker
import Vortek.Backend
import Vortek.Command
import Vortek.CommandFrames
import Vortek.StringCommands
import Vortek.GenericCommands
import Vortek.ListCommands
import Vortek.SetCommands
import Vortek.HashCommands
import Vortek.Dispatcher
import Vortek.AofPersistence
import Vortek.AofRecovery
import Vortek.DispatchSafety
import Vortek.TypeErrors
import Vortek.CommandDeadlines
import Vortek.ClockShift
import Vortek.Connection
import Vortek.AofReplay
import Vortek.AofRestart
import Vortek.Pipelining
import Vortek.PipelineExceptions
import Vortek.Segmentation
import Vortek.Backlog
import Vortek.RequestLimit
import Vortek.WriteCommands
import Vortek.FailedCommands
import Vortek.StoredValues
import Vortek.InPlaceUpdates
import Vortek.LapsingMap
import Vortek.LazyExpiry
import Vortek.PlainCollections
import Vortek.CollectionLoops
import Vortek.CollectionViews
import Vortek.CollectionRefinement
import Vortek.Session
import Vortek.FlowControl
import Vortek.Authentication
import Vortek.Multicast
import Vortek.BrokerRelation
import Vortek.PubSubTurns
import Vortek.PubSubHistory
import Vortek.EventLoop
import Vortek.Configuration
import Vortek.ConnectionLifetime
import Vortek.AcceptedOutput
import Vortek.IdleTimer
import Vortek.Delivery
import Vortek.Unsubscribing
import Vortek.Footprint
import Vortek.CheckedInt64
import Vortek.ExactCounters
import Vortek.SetGrammar
import Vortek.DeadlineArithmetic
import Vortek.Batching
import Vortek.ListIndexing
import Vortek.ParserTermination
import Vortek.TurnRecords
import Vortek.EmittingMachine
import Vortek.ServerProcess
import Vortek.ServerLifecycle
import Vortek.SequentialExecution
import Vortek.ServedHistory
import Vortek.CrashRecovery
import Vortek.PlainServer
import Vortek.ServerBounds
import Vortek.Quiescence
import Vortek.Shutdown
import Vortek.EntrywiseCommands
import Vortek.UnseenSweeps
import Vortek.ClientStream
import Vortek.CommandLine
import Vortek.ScheduledRuns
import Vortek.InterleavedCalls
import Vortek.AtomicCommands
import Vortek.FailedRecovery
