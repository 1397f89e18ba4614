import Taper.MachineInt
import Taper.StockReconcileSound
import Taper.SagaTerminal
import Taper.ReservationRuns
import Taper.AllocationFinal
import Taper.StockRuns
import Taper.HoldReturned
import Taper.ConfirmedOwns
import Taper.SweepExact
import Taper.StockForward
import Taper.HandlerRuns
import Taper.ConfirmedBacked
import Taper.OrderPhases
import Taper.SagaPhases
import Taper.ResumeExact
import Taper.UnitAccounting
import Taper.StockEffects
import Taper.Replay
import Taper.StockReplays
import Taper.StockOutbox
import Taper.Streaming
import Taper.ConsumerCommits
import Taper.ChannelSync
import Taper.Projection
import Taper.Redelivery
import Taper.Fulfillment
import Taper.FulfilledOnce
import Taper.ReserveRetries
import Taper.KeyedService
import Taper.ChargedOnce
import Taper.TrueRepeats
import Taper.TwoPhase
import Taper.StockScripts
import Taper.NoLostUpdate
import Taper.ExactRequests
import Taper.ReconcilePass
import Taper.LockOrder
import Taper.DeadlockFree
import Taper.Utf8
import Taper.Base64
import Taper.DeadLetters
import Taper.Auth
import Taper.UrlPath
import Taper.Gateway
import Taper.OrderAgreement
import Taper.Isolation
import Taper.StockTenants
import Taper.ReservationTenants
import Taper.TenantRuns
import Taper.Shutdown
import Taper.OrderRoutes
import Taper.DriftExact
import Taper.OrderTotals
import Taper.PaymentReference
import Taper.AuthUsers
import Taper.ReadCommitted
import Taper.FulfillRaces
import Taper.FulfillAtMostOnce
import Taper.Json
import Taper.ReservationPayloads
import Taper.Jwt
import Taper.CircuitBreaker
import Taper.BreakerCalls
import Taper.TokenBucket
import Taper.RateLimit
import Taper.Eviction
import Taper.RetryAfter
import Taper.Grouping
import Taper.SweepGroups
import Taper.SumFirst
import Taper.Login
import Taper.EdgeRates
