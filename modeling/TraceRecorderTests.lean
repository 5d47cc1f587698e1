import TraceRecorderTests.Base.Registers
import TraceRecorderTests.Base.Memory
import TraceRecorderTests.Base.Nesting
import TraceRecorderTests.Base.Search
import TraceRecorderTests.Base.Rounding
import TraceRecorderTests.Base.Iteration
import TraceRecorderTests.Base.FileTree
import TraceRecorderTests.Base.Pass
import TraceRecorderTests.Base.LinkRing
import TraceRecorderTests.Base.Interleaving
import TraceRecorderTests.Base.Glob
import TraceRecorderTests.Base.FlatMemory
import TraceRecorderTests.Base.Refine
import TraceRecorderTests.Cmocka
import TraceRecorderTests.Mock.State
import TraceRecorderTests.Mock.Event
import TraceRecorderTests.Mock.EventSpec
import TraceRecorderTests.Mock.EventOracle
import TraceRecorderTests.Mock.EventSafety
import TraceRecorderTests.Mock.CriticalSection
import TraceRecorderTests.Mock.StreamPort
import TraceRecorderTests.Mock.StreamPortSafety
import TraceRecorderTests.Runner.Main
import TraceRecorderTests.Update.PathString
import TraceRecorderTests.Update.Script
import TraceRecorderTests.Update.Pairing
import TraceRecorderTests.Update.Mapping
import TraceRecorderTests.Update.StepSpec
import TraceRecorderTests.Update.Run
import TraceRecorderTests.Update.Accepted
import TraceRecorderTests.Update.Propagation
import TraceRecorderTests.Update.Consent
import TraceRecorderTests.Update.Completion
import TraceRecorderTests.Update.Sync
import TraceRecorderTests.Update.Convergence
import TraceRecorderTests.Cmocka.ListNode
import TraceRecorderTests.Cmocka.ListSpec
import TraceRecorderTests.Cmocka.SymbolMap
import TraceRecorderTests.Cmocka.SymbolTree
import TraceRecorderTests.Cmocka.SymbolAdd
import TraceRecorderTests.Cmocka.SymbolRemove
import TraceRecorderTests.Cmocka.SymbolGet
import TraceRecorderTests.Cmocka.SymbolSweep
import TraceRecorderTests.Cmocka.CallOrder
import TraceRecorderTests.Cmocka.Expectations
import TraceRecorderTests.Cmocka.Holds
import TraceRecorderTests.Cmocka.Simulation
import TraceRecorderTests.Cmocka.OneTest
import TraceRecorderTests.Cmocka.Queues
import TraceRecorderTests.Cmocka.Channels
import TraceRecorderTests.Cmocka.Replies
import TraceRecorderTests.Cmocka.CallLanguage
import TraceRecorderTests.Cmocka.StrMatch
import TraceRecorderTests.Cmocka.TestAlloc
import TraceRecorderTests.Cmocka.AllocSpec
import TraceRecorderTests.Cmocka.AllocRun
import TraceRecorderTests.Cmocka.GroupTests
import TraceRecorderTests.Cmocka.GroupRefine
import TraceRecorderTests.Cmocka.GroupMemory
import TraceRecorderTests.Cmocka.MockGroups
