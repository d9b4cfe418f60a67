import AgenticStack.Library.Text
import AgenticStack.Library.Json
import AgenticStack.Library.JsonString
import AgenticStack.Library.JsonParse
import AgenticStack.Library.Ledger
import AgenticStack.Library.Position
import AgenticStack.Types.Items
import AgenticStack.Types.Lowering
import AgenticStack.Events.Types
import AgenticStack.Tool.Client
import AgenticStack.Executor.PendingCalls
import AgenticStack.Executor.Compaction
import AgenticStack.Executor.CompactionRuns
import AgenticStack.Executor.Session
import AgenticStack.Executor.Rehydrate
import AgenticStack.Executor.Turns
import AgenticStack.Executor.Translate.Calls
import AgenticStack.Executor.Translate.Custom
import AgenticStack.Executor.Translate.CustomRuns
import AgenticStack.Library.JsonReaders
import AgenticStack.Executor.Translate.Shell
import AgenticStack.Executor.Translate.ShellRuns
import AgenticStack.Executor.Translate.ShellStart
import AgenticStack.Executor.Translate.ShellCalls
import AgenticStack.Events.Normalize
import AgenticStack.Library.AssocList
import AgenticStack.Events.Validate
import AgenticStack.Executor.Accumulator.Completion
import AgenticStack.Executor.Accumulator.Slot
import AgenticStack.Executor.Accumulator.Accumulator
import AgenticStack.Executor.Accumulator.SlotRuns
import AgenticStack.Executor.Accumulator.ReadJson
import AgenticStack.Types.Decode
import AgenticStack.Events.Normalized
import AgenticStack.Executor.Accumulator.Policies
import AgenticStack.Executor.Accumulator.StrictRuns
import AgenticStack.Executor.Continuation
import AgenticStack.Executor.Retained
import AgenticStack.Executor.Leases
import AgenticStack.Executor.Pins
import AgenticStack.Executor.SessionRuns
import AgenticStack.Executor.Error
import AgenticStack.Executor.Stream
import AgenticStack.Executor.Request
import AgenticStack.Tool.Registry
import AgenticStack.Executor.Gateway
import AgenticStack.Executor.Pipeline.Delivery
import AgenticStack.Executor.Engine
import AgenticStack.Executor.Pipeline.DeliveryRuns
import AgenticStack.Executor.EngineSteps
import AgenticStack.Executor.Rounds
import AgenticStack.Executor.RoundDelivery
import AgenticStack.Executor.SentRequests
import AgenticStack.Executor.GatewayLoop
import AgenticStack.Executor.Reasoning
import AgenticStack.Storage.ResponseStore
import AgenticStack.Executor.Recording
import AgenticStack.Executor.Durable
import AgenticStack.Server.Multiplexer
import AgenticStack.Server.MultiplexerRuns
import AgenticStack.Storage.ConversationRuns
import AgenticStack.Server.Auth
import AgenticStack.Server.AuthRuns
import AgenticStack.Library.JsonRoundTrip
import AgenticStack.Executor.StreamEnd
import AgenticStack.Server.Outbound
import AgenticStack.Server.OutboundRuns
import AgenticStack.Tool.Codex
import AgenticStack.Tool.Build
import AgenticStack.Tool.Flattening
import AgenticStack.Tool.Registering
import AgenticStack.Tool.UpstreamNames
import AgenticStack.Messages.Loop
import AgenticStack.Messages.Stream
import AgenticStack.Messages.Splitting
import AgenticStack.Messages.RoundEvents
import AgenticStack.Messages.TurnBlocks
import AgenticStack.Messages.LoopAgreement
import AgenticStack.Messages.LoopRuns
import AgenticStack.Library.JsonOrder
import AgenticStack.Tool.SearchDefinitions
import AgenticStack.Tool.SearchState
import AgenticStack.Tool.SearchRecords
import AgenticStack.Tool.SearchMembers
import AgenticStack.Tool.SearchLoads
import AgenticStack.Tool.SearchStart
import AgenticStack.Library.Naming
import AgenticStack.Tool.McpNames
import AgenticStack.Tool.McpDiscovery
import AgenticStack.Tool.McpExposure
import AgenticStack.Tool.Restoring
import AgenticStack.Tool.Reversible
import AgenticStack.Executor.TurnCommit
import AgenticStack.Messages.Histories
import AgenticStack.Library.Framing
import AgenticStack.Messages.ClientFrames
import AgenticStack.Messages.OneMessage
import AgenticStack.Library.ObjectFields
import AgenticStack.Types.ToolParams
import AgenticStack.Types.Encode
import AgenticStack.Types.InputDecode
import AgenticStack.Types.WrittenMessages
import AgenticStack.Types.WrittenItems
import AgenticStack.Storage.ItemRow
import AgenticStack.Storage.ResponseRows
import AgenticStack.Executor.Commit
import AgenticStack.Executor.CommitCalls
import AgenticStack.Executor.Accumulator.ItemIds
import AgenticStack.Executor.Accumulator.ReasoningParts
import AgenticStack.Executor.Translate.CustomPrefix
import AgenticStack.Executor.ContextEstimate
import AgenticStack.Executor.Inference
import AgenticStack.Executor.PublicIds
import AgenticStack.Executor.Announcements
import AgenticStack.Executor.ListingRuns
import AgenticStack.Executor.Translate.Client
import AgenticStack.Executor.Translate.LateNames
import AgenticStack.Executor.Translate.LateNaming
import AgenticStack.Executor.Scheduler
import AgenticStack.Executor.Translate.LateCalls
import AgenticStack.Tool.SearchAccepted
import AgenticStack.Tool.SearchContinuation
import AgenticStack.Executor.StreamRun
import AgenticStack.Executor.ReadBack
import AgenticStack.Executor.SavedCalls
import AgenticStack.Split.Runs
import AgenticStack.Executor.Translate.SearchesShown
import AgenticStack.Executor.Translate.SearchStreams
