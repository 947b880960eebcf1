import NewlifeCore.Txn.Program
import NewlifeCore.Txn.Rely
import NewlifeCore.Txn.Interleaving
import NewlifeCore.Txn.Exec
import NewlifeCore.Txn.Table
import NewlifeCore.Calendar
import NewlifeCore.Facility.Constants
import NewlifeCore.Facility.Schema
import NewlifeCore.Facility.BookingRepository
import NewlifeCore.Facility.Repositories
import NewlifeCore.Facility.Recurring
import NewlifeCore.Facility.Settings
import NewlifeCore.Facility.PriorityOverride
import NewlifeCore.Facility.BookingLines
import NewlifeCore.Facility.Pricing
import NewlifeCore.Facility.OneTimeOverride
import NewlifeCore.Facility.BookingService
import NewlifeCore.Facility.RecurringBookingService
import NewlifeCore.Facility.RoomBlackoutService
import NewlifeCore.Facility.BookingDraftService
import NewlifeCore.Facility.Calls
import NewlifeCore.Facility.Closings
import NewlifeCore.Facility.Reads
import NewlifeCore.Facility.SeriesReads
import NewlifeCore.Facility.Proposals
import NewlifeCore.Facility.Moves
import NewlifeCore.Facility.MoveSpecs
import NewlifeCore.Facility.SettledBookings
import NewlifeCore.Facility.SeriesAgreement
import NewlifeCore.Facility.SlotAgreement
import NewlifeCore.Text
import NewlifeCore.Facility.ReviewTokens
import NewlifeCore.Facility.Serial
import NewlifeCore.Facility.OverrideTargets
import NewlifeCore.Facility.OverrideEffect
import NewlifeCore.Facility.PriorityCreations
import NewlifeCore.Facility.Timetable
import NewlifeCore.Facility.TimetableOccupancy
import NewlifeCore.Facility.TimetableSoundness
import NewlifeCore.Txn.Job
import NewlifeCore.Facility.ExpiryJob
import NewlifeCore.Facility.ExpiryMails
import NewlifeCore.Auth.Schema
import NewlifeCore.Auth.RefreshTokenProvider
import NewlifeCore.Auth.TokenFamilies
import NewlifeCore.Txn.Serving
import NewlifeCore.Auth.SingleUse
import NewlifeCore.Auth.Redis
import NewlifeCore.Auth.Repositories
import NewlifeCore.Auth.SessionRuns
import NewlifeCore.Auth.SessionStatements
import NewlifeCore.Auth.PortalSeparation
import NewlifeCore.Txn.Sequence
import NewlifeCore.Exclusive
import NewlifeCore.Facility.RoomSlotTemplateService
import NewlifeCore.Facility.RulesApart
import NewlifeCore.Auth.Resources
import NewlifeCore.Auth.ResourceForest
import NewlifeCore.Auth.Accounts
import NewlifeCore.Auth.MicrosoftAccounts
import NewlifeCore.Auth.AccountRuns
import NewlifeCore.Auth.Addresses
import NewlifeCore.Auth.Identities
import NewlifeCore.Facility.Amounts
import NewlifeCore.System.Settings
import NewlifeCore.System.SettingCoherence
import NewlifeCore.Content.Files
import NewlifeCore.Content.BatchUpload
import NewlifeCore.Facility.OwnSlots
import NewlifeCore.Rounding
import NewlifeCore.Facility.QuoteSums
import NewlifeCore.Txn.Batch
import NewlifeCore.Auth.SyncIsolation
import NewlifeCore.Database.Session
import NewlifeCore.Coroutine
import NewlifeCore.SharedLock
import NewlifeCore.Database.SessionLock
import NewlifeCore.Database.AfterCommit
import NewlifeCore.Database.Requests
import NewlifeCore.Auth.Roles
import NewlifeCore.Auth.RoleAudit
import NewlifeCore.Content.FileAgreement
import NewlifeCore.Database.Validation
import NewlifeCore.Database.Statements
import NewlifeCore.Database.StoredAsGiven
import NewlifeCore.Cli.MockTables
import NewlifeCore.Cli.RemoveMockData
import NewlifeCore.Cli.MockDataOnly
import NewlifeCore.Cli.MockRemoval
import NewlifeCore.Facility.BlackoutAgreement
import NewlifeCore.Facility.OpenWindows
import NewlifeCore.ZoneTable
import NewlifeCore.Facility.OpeningHours
import NewlifeCore.Facility.DayCells
import NewlifeCore.Facility.WeeklyQuota
import NewlifeCore.Facility.PaymentHold
import NewlifeCore.Years
import NewlifeCore.Facility.SeriesDates
import NewlifeCore.Facility.AvailabilityWindow
import NewlifeCore.Facility.RateOrder
import NewlifeCore.Facility.CancellationScopes
import NewlifeCore.Facility.MailDates
import NewlifeCore.Facility.MyBookings
import NewlifeCore.CodePoints
import NewlifeCore.Facility.TokenGate
import NewlifeCore.Org.PositionTerms
import NewlifeCore.Auth.ResourceTrees
import NewlifeCore.System.LocaleNegotiation
import NewlifeCore.HashStore
import NewlifeCore.System.LocaleCache
import NewlifeCore.System.LocaleSnapshots
import NewlifeCore.Org.Ministries
import NewlifeCore.Org.MinistryApprovals
import NewlifeCore.Org.StewardRosters
import NewlifeCore.Facility.OfferedActions
import NewlifeCore.Facility.RateApplicability
import NewlifeCore.Facility.Disguises
import NewlifeCore.Facility.PersonalViews
import NewlifeCore.Facility.PersonalDisclosure
import NewlifeCore.Facility.OverrideMails
import NewlifeCore.Auth.RoleUpdates
import NewlifeCore.System.SettingTexts
import NewlifeCore.Auth.SyncPreview
import NewlifeCore.Json
import NewlifeCore.Api.LogRoute
import NewlifeCore.Grouping
import NewlifeCore.Auth.TokenScope
import NewlifeCore.Paging
import NewlifeCore.Database.ListPages
import NewlifeCore.Auth.UserPages
import NewlifeCore.Forest
import NewlifeCore.Auth.UserMenus
import NewlifeCore.Txn.ReadThrough
import NewlifeCore.Auth.Permissions
import NewlifeCore.Auth.PermissionLists
import NewlifeCore.Content.SignedUrls
import NewlifeCore.Content.UrlFreshness
import NewlifeCore.Url
import NewlifeCore.Auth.MemberWebApps
import NewlifeCore.Txn.Twins
import NewlifeCore.Auth.RevokedFamilies
import NewlifeCore.Auth.OtherFamilies
import NewlifeCore.Auth.SignOuts
import NewlifeCore.Auth.RouteMatching
import NewlifeCore.Txn.Guarantee
import NewlifeCore.Facility.Occupancy
import NewlifeCore.Facility.CallStatements
import NewlifeCore.Facility.Reworkings
import NewlifeCore.Facility.Insertions
import NewlifeCore.Facility.RoomExclusivity
import NewlifeCore.Facility.BookingHistory
import NewlifeCore.Txn.LockOrder
import NewlifeCore.Facility.RoomLocks
import NewlifeCore.Org.ApprovalWorkflow
import NewlifeCore.Base64
import NewlifeCore.Auth.PasswordProvider
import NewlifeCore.Txn.TimedLine
import NewlifeCore.Auth.PermissionChecker
import NewlifeCore.Auth.Revocation
import NewlifeCore.Txn.Documents
import NewlifeCore.Txn.DocumentRuns
import NewlifeCore.Facility.BookingDrafts
import NewlifeCore.Facility.DraftDocuments
import NewlifeCore.Facility.DraftRuns
