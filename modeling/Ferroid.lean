import Ferroid.Library.BitField
import Ferroid.Library.Chance
import Ferroid.Library.CoherentCell
import Ferroid.Library.Contention
import Ferroid.Library.LockedCell
import Ferroid.Library.OptimisticCell
import Ferroid.Library.Poisoning
import Ferroid.Library.Radix
import Ferroid.Library.Replay
import Ferroid.Library.RoundRobin
import Ferroid.Library.Retry
import Ferroid.Library.SignedInt
import Ferroid.Library.TickCounter
import Ferroid.Library.TickWait
import Ferroid.Library.Total
import Ferroid.Library.Transition
import Ferroid.Id.Snowflake
import Ferroid.Id.Ulid
import Ferroid.Id.Datetime
import Ferroid.Id.Packing
import Ferroid.Generator.Backoff
import Ferroid.Generator.Blocking
import Ferroid.Generator.Capacity
import Ferroid.Generator.DebugBuild
import Ferroid.Generator.Exhaustion
import Ferroid.Generator.Shared
import Ferroid.Generator.Sharing
import Ferroid.Generator.Status
import Ferroid.Generator.Turns
import Ferroid.Generator.Snowflake.Basic
import Ferroid.Generator.Snowflake.Machines
import Ferroid.Generator.Snowflake.Shared
import Ferroid.Generator.Ulid.BasicMono
import Ferroid.Generator.Ulid.Collision
import Ferroid.Generator.Ulid.Shared
import Ferroid.Generator.Ulid.ThreadLocal
import Ferroid.Time.MonotonicClock
import Ferroid.Time.Ticker
import Ferroid.Futures.NextIdAsync
import Ferroid.Base32.Crockford
import Ferroid.Base32.Interface
import Ferroid.Base32.Text
import Ferroid.Base32.Verdict
import Ferroid.Base32.Order
import Ferroid.Base32.Writes
import Ferroid.Pg.Ulid
import Ferroid.Pg.Cast
import Ferroid.Pg.Datetime
import Ferroid.Pg.Generate
import Ferroid.Pg.Transport
import Ferroid.Server.Admission
import Ferroid.Server.Backpressure
import Ferroid.Server.Balance
import Ferroid.Server.CallSteps
import Ferroid.Server.Chunk
import Ferroid.Server.Completion
import Ferroid.Server.Config
import Ferroid.Server.Delivery
import Ferroid.Server.Drain
import Ferroid.Server.Emission
import Ferroid.Server.FeedLog
import Ferroid.Server.Feeding
import Ferroid.Server.Inflight
import Ferroid.Server.Invariant
import Ferroid.Server.Metrics
import Ferroid.Server.Model
import Ferroid.Server.Ownership
import Ferroid.Server.Permits
import Ferroid.Server.Preservation
import Ferroid.Server.Production
import Ferroid.Server.Processor
import Ferroid.Server.Coordinator
import Ferroid.Server.Progress
import Ferroid.Server.Response
import Ferroid.Server.Sharding
import Ferroid.Server.Shutdown
import Ferroid.Server.Status
import Ferroid.Server.Step
import Ferroid.Server.Stranding
import Ferroid.Server.Streaming
import Ferroid.Server.Weight
import Ferroid.Server.Wiring
