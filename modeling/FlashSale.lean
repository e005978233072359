import FlashSale.Lib.Text
import FlashSale.Lib.Redis
import FlashSale.Shared.Queue
import FlashSale.Redis.Scripts
import FlashSale.Redis.Conservation
import FlashSale.Redis.Identity
import FlashSale.Shared.SaleState
import FlashSale.Redis.SaleStore
import FlashSale.Lib.Number
import FlashSale.Redis.LedgerCodec
import FlashSale.Lib.Date
import FlashSale.Redis.SaleSeed
import FlashSale.Api.Clock
import FlashSale.Lib.Prog
import FlashSale.Worker.Postgres
import FlashSale.Worker.Locks
import FlashSale.Worker.Rows
import FlashSale.Worker.Jobs
import FlashSale.Worker.Calls
import FlashSale.Worker.OrderRepository
import FlashSale.Worker.RepositoryLogic
import FlashSale.Worker.RepositoryRuns
import FlashSale.Worker.Reconciliation
import FlashSale.Worker.ReconciliationLogic
import FlashSale.Worker.SweepLogic
import FlashSale.Worker.System
import FlashSale.Worker.SystemInvariant
import FlashSale.Worker.SystemSteps
import FlashSale.Worker.SystemRely
import FlashSale.Worker.SystemCalls
import FlashSale.Worker.SystemPrograms
import FlashSale.Worker.SystemRuns
import FlashSale.Worker.Safety
import FlashSale.Worker.Redelivery
import FlashSale.Worker.QueueRepair
import FlashSale.Worker.SessionLock
import FlashSale.Api.Validation
import FlashSale.Api.Responses
import FlashSale.Web.Decoders
import FlashSale.Api.StatusTruth
import FlashSale.Worker.Health
import FlashSale.Lib.EventLoop
import FlashSale.Worker.Lifecycle
import FlashSale.Lib.Erasure
import FlashSale.Worker.Isolation
import FlashSale.Worker.IsolatedPass
import FlashSale.Worker.IsolatedRecovery
import FlashSale.Worker.IsolatedSweep
import FlashSale.Worker.SaleIsolation
import FlashSale.Lib.Rotation
import FlashSale.Worker.SweepTurns
import FlashSale.Worker.DlqRotation
import FlashSale.Api.RateLimit
import FlashSale.Web.StatusPrediction
import FlashSale.Api.ProducerCircuit
import FlashSale.Lib.Machine
import FlashSale.Lib.Monitor
import FlashSale.Lib.Table
import FlashSale.Worker.ConsumerResources
import FlashSale.Worker.ConsumerInvariant
import FlashSale.Worker.ConsumerRuns
import FlashSale.Worker.PassCoalescing
import FlashSale.Worker.PassRuns
import FlashSale.Api.ProducerInvariant
import FlashSale.Api.ProducerHistory
import FlashSale.Api.PurchaseRetry
import FlashSale.Lib.Paging
import FlashSale.Worker.PagedScan
import FlashSale.Lib.NumberText
import FlashSale.Lib.JsonText
import FlashSale.Lib.Collection
import FlashSale.Load.Audit
import FlashSale.Load.Fingerprint
import FlashSale.Load.Convergence
import FlashSale.Load.Publication
import FlashSale.Worker.ColdInvariant
import FlashSale.Worker.ColdRebuild
import FlashSale.Web.OpsPolling
import FlashSale.Web.SalePolling
import FlashSale.Worker.Coverage
import FlashSale.Worker.WholeOrder
import FlashSale.Worker.StaleRemoval
import FlashSale.Lib.Alone
import FlashSale.Worker.PassScans
import FlashSale.Worker.HealthyPass
import FlashSale.Worker.HealthyBuyers
import FlashSale.Worker.HealthySweep
import FlashSale.Worker.PassFixpoint
import FlashSale.Shared.SaleKeys
import FlashSale.Redis.ScriptRunner
import FlashSale.Api.QueueDepthProbe
import FlashSale.Api.ProbeRuns
import FlashSale.Api.ExceptionFilter
import FlashSale.Web.Client
import FlashSale.Web.Console
import FlashSale.Lib.Allotment
import FlashSale.Redis.Allocation
