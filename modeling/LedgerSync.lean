import LedgerSync.Lib.Batch
import LedgerSync.Lib.Calendar
import LedgerSync.Lib.Decimal
import LedgerSync.Lib.DoubleEntry
import LedgerSync.Lib.Framing
import LedgerSync.Lib.Lines
import LedgerSync.Lib.LogicalClock
import LedgerSync.Lib.RollingWindow
import LedgerSync.Lib.SingleUse
import LedgerSync.Lib.Table
import LedgerSync.Lib.Transaction
import LedgerSync.Lib.Raising
import LedgerSync.Values
import LedgerSync.Schema
import LedgerSync.Statements
import LedgerSync.Transfers
import LedgerSync.Corrections
import LedgerSync.Funding
import LedgerSync.Holds
import LedgerSync.OpeningImports
import LedgerSync.System
import LedgerSync.Book
import LedgerSync.Journals
import LedgerSync.Idempotency
import LedgerSync.HoldLifecycle
import LedgerSync.Velocity
import LedgerSync.Projector
import LedgerSync.BalanceEvents
import LedgerSync.FundingLifecycle
import LedgerSync.CorrectionControls
import LedgerSync.FundingControls
import LedgerSync.Documents
import LedgerSync.CompensationRequests
import LedgerSync.Scheduler
import LedgerSync.Outbox
import LedgerSync.OutboxFencing
import LedgerSync.LamportClocks
import LedgerSync.StatementSources
import LedgerSync.StatementParsers
import LedgerSync.Reconciliation
import LedgerSync.ReconciliationEffects
import LedgerSync.StatementEvidence
import LedgerSync.ReviewStatus
import LedgerSync.ServiceValues
import LedgerSync.ActorAssertions
import LedgerSync.Money
import LedgerSync.TransferRecovery
import LedgerSync.CommandOutcomes
import LedgerSync.EventViews
import LedgerSync.Retention
import LedgerSync.LiveRoomLifecycle
import LedgerSync.WebhookVerification
import LedgerSync.DeliveryChain
import LedgerSync.ReconciliationRuns
import LedgerSync.ApprovalAgreement
import LedgerSync.MoneyParsing
import LedgerSync.BalancedJournals
import LedgerSync.AccountLifecycle
import LedgerSync.StatementMatcher
import LedgerSync.WorkspaceLifecycle
import LedgerSync.WorkspaceRooms
import LedgerSync.RequestFingerprints
import LedgerSync.CaptureDenials
import LedgerSync.BalanceReconciliation
import LedgerSync.Lib.SortedMap
import LedgerSync.TransferReceipts
import LedgerSync.SpreadsheetCells
import LedgerSync.MoneyCodecs
import LedgerSync.AssertionWindow
import LedgerSync.Exports
import LedgerSync.StatementRenderings
import LedgerSync.InvestigationSearch
import LedgerSync.OutcomeReaders
import LedgerSync.Lib.JsonScanner
import LedgerSync.StreamEncoding
import LedgerSync.StreamPublication
import LedgerSync.Lib.Csv
import LedgerSync.ExportRows
import LedgerSync.Lib.GoTime
import LedgerSync.Lib.GoTimeOrder
import LedgerSync.WebhookSignatures
import LedgerSync.SavedViews
import LedgerSync.SavedViewStore
import LedgerSync.SigningKeyCache
import LedgerSync.TransferEvents
import LedgerSync.TransferExplanations
import LedgerSync.ExplanationHonesty
import LedgerSync.Lib.Base64
import LedgerSync.Lib.NewestWins
import LedgerSync.BalanceCache
import LedgerSync.BalanceProjection
import LedgerSync.ProjectionConvergence
import LedgerSync.Lib.JsonText
import LedgerSync.ConsistencyTokens
import LedgerSync.ReadYourWrites
import LedgerSync.Lib.FixedWindow
import LedgerSync.RateLimits
import LedgerSync.Lib.LivePaging
import LedgerSync.AccountHistory
