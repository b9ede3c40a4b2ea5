import QueryCraft.AuditTamper
import QueryCraft.AuditTransactions
import QueryCraft.QuotaAdministration
import QueryCraft.QuotaCounter
import QueryCraft.ColumnMasks
import QueryCraft.RowFilterOrder
import QueryCraft.RowFilterCoverage
import QueryCraft.ColumnResolution
import QueryCraft.RowFilterNoninterference
import QueryCraft.ParsedFilters
import QueryCraft.ReadOnlyRule
import QueryCraft.StoredAttempts
import QueryCraft.SubmissionAudit
import QueryCraft.SsoCallbacks
import QueryCraft.SessionRefresh
import QueryCraft.SessionWriters
import QueryCraft.UserDeletion
import QueryCraft.SamlReplay
import QueryCraft.Pagination
import QueryCraft.PromptSchema
import QueryCraft.IdentityBinding
import QueryCraft.SavedFilters
import QueryCraft.DigestRedaction
import QueryCraft.DriverSubstitution
import QueryCraft.AuditPlainPass
import QueryCraft.RetentionWindow
import QueryCraft.QuoteScanners
import QueryCraft.CancelledState
import QueryCraft.ProcessingLock
import QueryCraft.QuotaStatus
import QueryCraft.DetectionText
import QueryCraft.AuditExport
import QueryCraft.HistorySearch
import QueryCraft.SessionRuns
import QueryCraft.RoleIsolation
