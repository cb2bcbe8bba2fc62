import NbeAdvisor.Interleave
import NbeAdvisor.Keyed
import NbeAdvisor.Generators
import NbeAdvisor.RowLocks
import NbeAdvisor.Numerals
import NbeAdvisor.DecimalContext
import NbeAdvisor.Calendar
import NbeAdvisor.Records
import NbeAdvisor.Columns
import NbeAdvisor.Pipeline
import NbeAdvisor.TaskRun
import NbeAdvisor.ChainOutcome
import NbeAdvisor.PollBudget
import NbeAdvisor.Processing
import NbeAdvisor.Ledger
import NbeAdvisor.BankSync
import NbeAdvisor.SyncRace
import NbeAdvisor.LedgerViews
import NbeAdvisor.LedgerKeys
import NbeAdvisor.Replay
import NbeAdvisor.Grouping
import NbeAdvisor.Balances
import NbeAdvisor.ApprovalRace
import NbeAdvisor.Overlap
import NbeAdvisor.BankRows
import NbeAdvisor.BankTasks
import NbeAdvisor.BankMoves
import NbeAdvisor.BankTables
import NbeAdvisor.LinkOutcome
import NbeAdvisor.LinkRace
import NbeAdvisor.LoginSession
import NbeAdvisor.RepeatLogin
import NbeAdvisor.LoginRace
import NbeAdvisor.SyncRouting
import NbeAdvisor.AccountViews
import NbeAdvisor.BankNames
import NbeAdvisor.SyncedAccounts
import NbeAdvisor.AccountResolution
import NbeAdvisor.SyncedReadOnly
import NbeAdvisor.BulkDeletion
import NbeAdvisor.Approvals
import NbeAdvisor.ConsentGate
import NbeAdvisor.Portfolio
import NbeAdvisor.Purchases
import NbeAdvisor.HoldingEdits
import NbeAdvisor.AveragePrice
import NbeAdvisor.PlanPayload
import NbeAdvisor.SavedPlans
import NbeAdvisor.PlanLinks
import NbeAdvisor.PlanTerms
import NbeAdvisor.PlanChecks
import NbeAdvisor.PlanRecalculation
import NbeAdvisor.PlanAcceptance
import NbeAdvisor.PlanExceptions
import NbeAdvisor.JsonValues
import NbeAdvisor.MarketData
import NbeAdvisor.Valuation
import NbeAdvisor.Budgets
import NbeAdvisor.Categories
import NbeAdvisor.CategoryAdmin
import NbeAdvisor.BudgetAmounts
import NbeAdvisor.BudgetLog
import NbeAdvisor.DateArithmetic
import NbeAdvisor.BudgetProgress
import NbeAdvisor.CategorySpending
import NbeAdvisor.SavingsProgress
import NbeAdvisor.BankOauth
import NbeAdvisor.OauthFlow
import NbeAdvisor.OtpThreads
import NbeAdvisor.OtpRace
import NbeAdvisor.AdminTokens
import NbeAdvisor.TokenRotation
import NbeAdvisor.ErrorResponses
import NbeAdvisor.ChatRelay
import NbeAdvisor.ChatLines
import NbeAdvisor.ChatEnvelopes
import NbeAdvisor.Tickets
import NbeAdvisor.EmailLinks
import NbeAdvisor.LinkSafety
import NbeAdvisor.EventStream
import NbeAdvisor.StreamDelivery
import NbeAdvisor.StreamTickets
import NbeAdvisor.Uuids
import NbeAdvisor.ObjectStore
import NbeAdvisor.StatementFiles
import NbeAdvisor.FileSafety
import NbeAdvisor.BankFeed
import NbeAdvisor.FeedConvergence
