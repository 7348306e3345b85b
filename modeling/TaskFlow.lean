import TaskFlow.LexOrder
import TaskFlow.Rank
import TaskFlow.RankInteger
import TaskFlow.RankBetween
import TaskFlow.StepSystem
import TaskFlow.ReadCommitted
import TaskFlow.Outbox
import TaskFlow.OutboxExclusive
import TaskFlow.WebhookDelivery
import TaskFlow.WebhookFinal
import TaskFlow.WebhookStranded
import TaskFlow.Membership
import TaskFlow.MembershipOwner
import TaskFlow.CardMove
import TaskFlow.CardMoveSafe
import TaskFlow.CardMoveAlone
import TaskFlow.NetString
import TaskFlow.HashChain
import TaskFlow.AuditChain
import TaskFlow.AuditChainBinding
import TaskFlow.AuditLog
import TaskFlow.AuditLogChain
import TaskFlow.CausalLog
import TaskFlow.RichText
import TaskFlow.DomainEvents
import TaskFlow.Outcome
import TaskFlow.AutomationServices
import TaskFlow.AutomationEngine
import TaskFlow.AutomationEnvelopes
import TaskFlow.AutomationWrites
import TaskFlow.NotificationProjection
import TaskFlow.AutomationDepth
import TaskFlow.Nearest
import TaskFlow.Permissions
import TaskFlow.Policy
import TaskFlow.PolicyLaws
import TaskFlow.Tenancy
import TaskFlow.Rooms
import TaskFlow.AutomationAuthority
import TaskFlow.RoomAccess
import TaskFlow.Gateway
import TaskFlow.AccessChanges
import TaskFlow.RevocationReach
import TaskFlow.JoinRace
import TaskFlow.JoinRaceSafe
import TaskFlow.Binary64
import TaskFlow.NumberText
import TaskFlow.FilterAst
import TaskFlow.RelativeDate
import TaskFlow.FilterFields
import TaskFlow.TqlTokenize
import TaskFlow.TqlParse
import TaskFlow.TqlFormat
import TaskFlow.TqlScan
import TaskFlow.TqlRoundTrip
import TaskFlow.FilterEvaluate
import TaskFlow.TqlExponent
import TaskFlow.TqlMeaning
import TaskFlow.TqlTiles
import TaskFlow.TqlReadings
import TaskFlow.TqlJuxtapose
import TaskFlow.TqlVocabulary
import TaskFlow.CivilMonths
import TaskFlow.DateMonotone
import TaskFlow.FilterCompile
import TaskFlow.NumberedTemplate
import TaskFlow.FilterTemplate
import TaskFlow.FilterParametric
import TaskFlow.FilterTotal
import TaskFlow.Script
import TaskFlow.ScriptLogic
import TaskFlow.AutomationBudget
import TaskFlow.ApiTokenQuota
import TaskFlow.CardUpdate
import TaskFlow.CallSession
import TaskFlow.CallSessionSafe
import TaskFlow.CallSessionOperations
import TaskFlow.CallSessionCalls
import TaskFlow.CallSessionCounters
import TaskFlow.CallSessionRinging
import TaskFlow.TurnGate
import TaskFlow.AiSpendGate
import TaskFlow.WebhookHealth
import TaskFlow.WebhookStreak
import TaskFlow.SnapshotLog
import TaskFlow.CollabPage
import TaskFlow.CollabPageReplay
import TaskFlow.PageRestore
import TaskFlow.Billing
import TaskFlow.BillingPlans
import TaskFlow.BillingSweep
import TaskFlow.BillingWebhook
import TaskFlow.PeriodChain
import TaskFlow.UsagePeriods
import TaskFlow.HeldAccount
import TaskFlow.OutboundSpend
import TaskFlow.Markup
import TaskFlow.Twiml
import TaskFlow.TelephonyWebhooks
import TaskFlow.RecordingConsent
import TaskFlow.MenuLoop
import TaskFlow.SmsReplay
import TaskFlow.CallStatus
import TaskFlow.CardNumbers
import TaskFlow.CardCountersSafe
import TaskFlow.ProjectCopyIso
import TaskFlow.PagePaths
import TaskFlow.PageMoves
import TaskFlow.ImportAtomic
import TaskFlow.ReportingLines
import TaskFlow.SignInWays
import TaskFlow.TotpReplay
import TaskFlow.RefreshRotation
import TaskFlow.Invitations
import TaskFlow.LoginLockout
import TaskFlow.EntitlementCache
import TaskFlow.RelayDrain
import TaskFlow.NotificationRows
import TaskFlow.SprintRecord
import TaskFlow.CsvRoundTrip
import TaskFlow.ReadCursor
import TaskFlow.MessageReactions
import TaskFlow.Retention
import TaskFlow.DirectMessages
import TaskFlow.SubscriptionAccess
import TaskFlow.BacklinksDrain
import TaskFlow.BacklinksConverge
import TaskFlow.RemindedOnce
import TaskFlow.SearchConverge
import TaskFlow.ComposeRoundTrip
import TaskFlow.ReadersAgree
import TaskFlow.SuggestionDecision
import TaskFlow.BrowserSession
import TaskFlow.OptimisticRollback
import TaskFlow.BigEndian
import TaskFlow.RankCounting
import TaskFlow.DerSignature
import TaskFlow.ComposeRanges
import TaskFlow.BoardDrop
import TaskFlow.AbortingTransaction
import TaskFlow.NotificationLookups
import TaskFlow.Throwing
import TaskFlow.PdfExport
import TaskFlow.ComposeAccepted
import TaskFlow.SlidingWindow
import TaskFlow.Uuid
