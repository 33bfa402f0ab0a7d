import Kvmux.Tally
import Kvmux.Transducer
import Kvmux.Transition
import Kvmux.Splitting
import Kvmux.Coroutine
import Kvmux.Ledger
import Kvmux.CircuitBreaker
import Kvmux.BreakerRuns
import Kvmux.GlobalGate
import Kvmux.GateRuns
import Kvmux.Bytes
import Kvmux.Json
import Kvmux.OpenAi
import Kvmux.Config
import Kvmux.Routing
import Kvmux.Metrics
import Kvmux.SseParser
import Kvmux.SseCodec
import Kvmux.Exchange
import Kvmux.Client
import Kvmux.Gateway
import Kvmux.Fleet
import Kvmux.Holdings
import Kvmux.Capacity
import Kvmux.Settlement
import Kvmux.Streaming
import Kvmux.Attempt
import Kvmux.Handling
import Kvmux.Failover
import Kvmux.Truncation
import Kvmux.Honesty
import Kvmux.Mirror
import Kvmux.GateOrder
import Kvmux.SseBatch
import Kvmux.OpenWindow
import Kvmux.Terminal
import Kvmux.Dropped
import Kvmux.Affinity
import Kvmux.WalkStart
import Kvmux.Recording
import Kvmux.Counting
import Kvmux.Gauges
import Kvmux.Series
import Kvmux.FailureRun
import Kvmux.EventStream
import Kvmux.TextFormat
import Kvmux.Exposition
import Kvmux.Acceptance
import Kvmux.Binary64
import Kvmux.ConfigLoader
import Kvmux.ConfigSchema
import Kvmux.Attempted
import Kvmux.Surfacing
import Kvmux.Unproductive
import Kvmux.Freshness
import Kvmux.AffinityKey
import Kvmux.Balance
import Kvmux.RoundRobin
import Kvmux.Instruments
import Kvmux.Checker
import Kvmux.Connection
import Kvmux.Monitoring
import Kvmux.Atomic
import Kvmux.Limiter
import Kvmux.Wire
import Kvmux.Boot
import Kvmux.Stickiness
import Kvmux.Latency
import Kvmux.Progress
import Kvmux.Relay
