import RedTeaming.ApiError
import RedTeaming.Library.Lookup
import RedTeaming.Library.Transition
import RedTeaming.Library.Locks
import RedTeaming.Library.Records
import RedTeaming.Auth.Permissions
import RedTeaming.Auth.Roles
import RedTeaming.Auth.Users
import RedTeaming.Auth.ObjectRoles
import RedTeaming.Auth.RoleStore
import RedTeaming.Auth.Links
import RedTeaming.Auth.Accounts
import RedTeaming.Auth.AccountEffects
import RedTeaming.Auth.Deactivation
import RedTeaming.Auth.Escalation
import RedTeaming.Auth.OwnerSystem
import RedTeaming.Auth.Ownership
import RedTeaming.Auth.Tokens
import RedTeaming.Auth.SessionSystem
import RedTeaming.Auth.Revocation
import RedTeaming.Auth.AccessLoss
import RedTeaming.Conversations.ContentCrypto
import RedTeaming.Conversations.Messages
import RedTeaming.Conversations.MessageSystem
import RedTeaming.Conversations.MessageStore
import RedTeaming.Conversations.MessageInvariant
import RedTeaming.Conversations.MessageHistory
import RedTeaming.Conversations.Sending
import RedTeaming.Conversations.Idempotence
import RedTeaming.Conversations.Generation
import RedTeaming.Conversations.KeyRotation
import RedTeaming.Conversations.Rewrap
import RedTeaming.Library.Sql
import RedTeaming.Library.Table
import RedTeaming.SoftDelete
import RedTeaming.Evaluations.Access
import RedTeaming.Evaluations.Visibility
import RedTeaming.Evaluations.GroupModels
import RedTeaming.Evaluations.Groups
import RedTeaming.Evaluations.Evaluations
import RedTeaming.Evaluations.Registry
import RedTeaming.Evaluations.System
import RedTeaming.Evaluations.EvaluationSpecs
import RedTeaming.Evaluations.Completeness
import RedTeaming.Evaluations.Organizations
import RedTeaming.Evaluations.EvaluationEffects
import RedTeaming.Evaluations.Subset
import RedTeaming.Evaluations.Growth
import RedTeaming.Auth.ResetSystem
import RedTeaming.Auth.Resets
import RedTeaming.Auth.ResetThrottle
import RedTeaming.Auth.SignupSystem
import RedTeaming.Auth.Signups
import RedTeaming.Auth.InvitationLifecycle
import RedTeaming.Library.Distinct
import RedTeaming.Auth.RequestWrites
import RedTeaming.Membership.System
import RedTeaming.Membership.RoleActivity
import RedTeaming.Membership.Members
import RedTeaming.Membership.RoleDefaults
import RedTeaming.Library.Versions
import RedTeaming.Exports.Jobs
import RedTeaming.Exports.Lifecycle
import RedTeaming.Exports.System
import RedTeaming.Exports.Ownership
import RedTeaming.Exports.Preservation
import RedTeaming.Exports.Guarantees
import RedTeaming.AiGateway.Models
import RedTeaming.AiGateway.Health
import RedTeaming.AiGateway.Findings
import RedTeaming.Evaluations.Scenarios
import RedTeaming.Evaluations.ScenarioOrder
import RedTeaming.Conversations.Rows
import RedTeaming.Conversations.LivenessSystem
import RedTeaming.Conversations.Liveness
import RedTeaming.Conversations.GroupSystem
import RedTeaming.Conversations.GroupMembers
import RedTeaming.Conversations.Services
import RedTeaming.Conversations.GroupInvariant
import RedTeaming.Conversations.DeletedListings
import RedTeaming.Library.Grouping
import RedTeaming.Annotations.Rows
import RedTeaming.Reviews.Rows
import RedTeaming.Analytics.Rows
import RedTeaming.Analytics.Tokens
import RedTeaming.Analytics.Timeline
import RedTeaming.Analytics.Metrics
import RedTeaming.Analytics.Breakdowns
import RedTeaming.Analytics.Agreement
import RedTeaming.Analytics.TokenRange
import RedTeaming.Conversations.LiveMessages
import RedTeaming.Conversations.Replay
import RedTeaming.Conversations.Continuation
import RedTeaming.Membership.MemberRoles
import RedTeaming.Evaluations.MetricsAccess
import RedTeaming.Library.Paths
import RedTeaming.Evaluations.Publication
import RedTeaming.Annotations.Labels
import RedTeaming.Annotations.Annotate
import RedTeaming.Annotations.Wordings
import RedTeaming.AiGateway.Inactivity
import RedTeaming.AiGateway.Episodes
import RedTeaming.AiGateway.InferenceParams
import RedTeaming.Evaluations.ModelViews
import RedTeaming.Analytics.Masking
import RedTeaming.Analytics.Exploits
import RedTeaming.AiGateway.Dispatch
import RedTeaming.AiGateway.WebAccess
import RedTeaming.Conversations.Cascade
import RedTeaming.Conversations.Tags
import RedTeaming.Conversations.TagPolicy
import RedTeaming.Exports.EngagementReport
import RedTeaming.Annotations.Names
import RedTeaming.Annotations.Picker
import RedTeaming.Reviews.Services
import RedTeaming.Reviews.System
import RedTeaming.Reviews.Picker
import RedTeaming.Library.Joins
import RedTeaming.Reviews.Queue
import RedTeaming.Annotations.Flags
import RedTeaming.Analytics.TimelineRange
import RedTeaming.Exports.Paging
import RedTeaming.Media.DataUrlCache
import RedTeaming.Library.Savepoints
import RedTeaming.Bulk
import RedTeaming.Auth.SessionLifetimes
import RedTeaming.Exports.Generation
import RedTeaming.Evaluations.Duplication
import RedTeaming.Annotations.CompletionRollup
import RedTeaming.Licenses.Catalog
import RedTeaming.Licenses.Services
import RedTeaming.Licenses.PlatformSettings
import RedTeaming.Licenses.System
import RedTeaming.Licenses.Curated
import RedTeaming.Licenses.Default
import RedTeaming.Licenses.LastWrite
import RedTeaming.Terms.System
import RedTeaming.Terms.Consent
import RedTeaming.Library.EventStream
import RedTeaming.Library.JsonWriter
import RedTeaming.Conversations.Wire
import RedTeaming.Email.Outbox
import RedTeaming.Email.Rendered
import RedTeaming.Email.Waiting
import RedTeaming.Email.Reported
import RedTeaming.Library.Hex
import RedTeaming.Media.Images
import RedTeaming.Media.System
import RedTeaming.Media.Storage
import RedTeaming.Media.Serving
import RedTeaming.Media.Attachments
