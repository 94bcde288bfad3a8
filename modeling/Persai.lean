import Persai.Runs
import Persai.KeyedTable
import Persai.Exhaust
import Persai.WebTurnAttempt.Terminal
import Persai.WebTurnAttempt.Claims
import Persai.WebTurnAttempt.Bubble
import Persai.ChannelBinding.TelegramUpdates
import Persai.Forest
import Persai.Utc
import Persai.JobHandle.ExactlyOnce
import Persai.JobHandle.Narrator
import Persai.JobHandle.ActiveCap
import Persai.JobHandle.Waves
import Persai.JobHandle.Fencing
import Persai.ChatWake.UserPriority
import Persai.ChatAttachments.DeliverOnce
import Persai.TurnRuntime.SessionLease
import Persai.TurnRuntime.Orphans
import Persai.TurnRuntime.Idempotency
import Persai.Admission.Fairness
import Persai.MediaQuota.Period
import Persai.QuotaUsage.Counters
import Persai.MediaQuota.Accounting
import Persai.TurnEvents.Chronology
import Persai.TurnEvents.PendingBuffer
import Persai.TurnStream.LocalDelivery
import Persai.TurnStream.Reattach
import Persai.TelegramAlbum.Collector
import Persai.Hydration.Extraction
import Persai.Hydration.Window
import Persai.ChatTodos.Actions
import Persai.Transaction
import Persai.Billing.Representation
import Persai.Billing.PaidPeriods
import Persai.Billing.WalletLedger
import Persai.Billing.OneCharge
import Persai.Billing.IntentStatus
import Persai.Billing.PackageFrame
import Persai.Billing.PeriodEnd
import Persai.Billing.PackagePurchase
import Persai.ModelCost.Ledger
import Persai.ProviderText.Agreement
import Persai.MediaJobs.Attempts
import Persai.Notifications.AtMostOnce
import Persai.Notifications.Truthful
import Persai.Notifications.Execution
import Persai.Notifications.QuietHours
import Persai.WorkspacePaths.Agreement
import Persai.WorkspacePaths.Purge
import Persai.WorkspaceFiles.Agreement
import Persai.WorkspaceFiles.NoOverwrite
import Persai.AbuseGuard.Blocks
import Persai.AnthropicRequest.Layout
import Persai.AnthropicRequest.Sanitize
import Persai.ScriptBrowser.WrittenWhole
import Persai.ScriptBrowser.Chunking
import Persai.ScriptResult.Framing
import Persai.TelegramHtml.Fit
import Persai.ToolResult.Hiding
import Persai.WorkspaceGc.Complete
import Persai.ToolBudget.Exact
import Persai.WorkspaceFiles.Listing
import Persai.Knowledge.Coverage
import Persai.ChatTodos.Window
import Persai.SharedCompaction.Rereading
import Persai.JsonText
import Persai.ScriptHash.Canonical
import Persai.ToolSpill.Bounded
import Persai.SchedulerLease.Lease
import Persai.WorkspaceGlob.Pattern
import Persai.ChatStreaming.Markdown
import Persai.RowLocks
import Persai.AssistantRoles.Locks
import Persai.AssistantRoles.Transactions
import Persai.AssistantRoles.Safe
