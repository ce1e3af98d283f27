import OrbiGateway.Library.Runs
import OrbiGateway.Models.Entities
import OrbiGateway.Schemas
import OrbiGateway.Services.Budget
import OrbiGateway.Services.Queue
import OrbiGateway.Services.CircuitBreaker
import OrbiGateway.Library.JsonText
import OrbiGateway.Library.Regex
import OrbiGateway.Library.Urlsafe
import OrbiGateway.Services.ApiKeys
import OrbiGateway.Services.WorkerTokens
import OrbiGateway.Logging
import OrbiGateway.Dependencies
import OrbiGateway.Middleware
import OrbiGateway.Routes.Chat
import OrbiGateway.Library.Sessions
import OrbiGateway.Routes.ChatRoute
import OrbiGateway.Routes.Public
import OrbiGateway.Routes.Registration
import OrbiGateway.Routes.Workers
import OrbiGateway.System.Operations
import OrbiGateway.System.Histories
import OrbiGateway.Invariants.RequestRows
import OrbiGateway.System.Bookings
import OrbiGateway.Invariants.SingleCommit
import OrbiGateway.Invariants.UsageLedger
import OrbiGateway.Invariants.LeaseExclusivity
import OrbiGateway.Invariants.BudgetLedger
import OrbiGateway.Invariants.HardLimit
import OrbiGateway.Invariants.PeriodResets
import OrbiGateway.Invariants.DailyRequests
import OrbiGateway.Invariants.ChatAcceptance
import OrbiGateway.Authentication
import OrbiGateway.Invariants.FailedAuthentication
import OrbiGateway.Invariants.Redaction
import OrbiGateway.Invariants.EventRedaction
import OrbiGateway.Invariants.AttemptFencing
import OrbiGateway.Invariants.BoundedDelivery
import OrbiGateway.Invariants.FinishOrder
import OrbiGateway.Invariants.LeaseRecovery
import OrbiGateway.Library.RowLocks
import OrbiGateway.Library.LockWaits
import OrbiGateway.Library.Linearization
import OrbiGateway.Library.Expiring
import OrbiGateway.Services.RateLimit
import OrbiGateway.Concurrency.BudgetTransactions
import OrbiGateway.Concurrency.ChatTransactions
import OrbiGateway.Concurrency.Claims
import OrbiGateway.Concurrency.IdempotentAcceptance
import OrbiGateway.Concurrency.ChatRefinement
import OrbiGateway.Concurrency.KeyRevocation
import OrbiGateway.Concurrency.LockOrder
import OrbiGateway.Concurrency.WorkerRevocation
import OrbiGateway.Concurrency.Enrollment
import OrbiGateway.Concurrency.TokenRotation
import OrbiGateway.Concurrency.CircuitCalls
import OrbiGateway.Concurrency.LimiterCalls
import OrbiGateway.Concurrency.MandatoryExpiry
import OrbiGateway.Invariants.CircuitStates
import OrbiGateway.Library.Constrained
import OrbiGateway.Models.Columns
import OrbiGateway.Routes.Projects
import OrbiGateway.System.ColumnStore
import OrbiGateway.Invariants.IntegerRanges
import OrbiGateway.Invariants.PayloadBounds
import OrbiGateway.Invariants.ReportOrder
import OrbiGateway.Library.LeastFirst
import OrbiGateway.System.Tenants
import OrbiGateway.Invariants.AcceptedRows
import OrbiGateway.Invariants.TenantIsolation
import OrbiGateway.Invariants.QueueDiscipline
import OrbiGateway.Invariants.RequestLifetime
import OrbiGateway.Routes.Admin
import OrbiGateway.Services.WorkerHealth
import OrbiGateway.WorkerAuthentication
import OrbiGateway.System.Gateway
import OrbiGateway.System.Administration
import OrbiGateway.Invariants.References
import OrbiGateway.Invariants.AdministeredLedgers
import OrbiGateway.System.GatewayCore
import OrbiGateway.Invariants.GatewayLedgers
import OrbiGateway.Invariants.UsageReports
import OrbiGateway.Invariants.StoredGateway
import OrbiGateway.Invariants.ErrorAnswers
import OrbiGateway.Invariants.ChatAnswers
import OrbiGateway.Invariants.IssuedKeys
import OrbiGateway.Invariants.KeyAdmission
import OrbiGateway.System.WorkerRows
import OrbiGateway.Invariants.IssuedTokens
import OrbiGateway.Invariants.WorkerAdmission
import OrbiGateway.Invariants.Enrollments
import OrbiGateway.Invariants.ResultProvenance
import OrbiGateway.Invariants.WorkerReports
