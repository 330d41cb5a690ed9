import Feedbase.Common.AccountBilling
import Feedbase.Billing.Upgrade
import Feedbase.Lib.Pool
import Feedbase.Common.PlanGuard
import Feedbase.Users.Workspaces
import Feedbase.Billing.Mirror
import Feedbase.Billing.PromoSteps
import Feedbase.Billing.PromoConcurrency
import Feedbase.Admin.Offers
import Feedbase.Billing.Checkout
import Feedbase.Admin.OfferConcurrency
import Feedbase.Billing.Downgrade
import Feedbase.Common.Sessions
import Feedbase.Common.SessionConcurrency
import Feedbase.Common.Credentials
import Feedbase.Users.PasswordReset
import Feedbase.Users.Invitations
import Feedbase.Users.Login
import Feedbase.Users.Deactivated
import Feedbase.Users.Passwords
import Feedbase.Users.SharedHash
import Feedbase.Billing.Stripe
import Feedbase.Billing.StripeEvents
import Feedbase.Admin.Accounts
import Feedbase.Billing.StripeComp
import Feedbase.Billing.ReconcilePhases
import Feedbase.Billing.CompConcurrency
import Feedbase.Billing.CheckoutConcurrency
import Feedbase.Billing.WebhookConcurrency
import Feedbase.Lib.Closure
import Feedbase.Schema.Cascade
import Feedbase.Common.AccountDeletion
import Feedbase.Common.AccountPurge
import Feedbase.Users.ActiveDevice
import Feedbase.Billing.CheckoutDiscount
import Feedbase.Users.Ownership
import Feedbase.Admin.PlatformAdmins
import Feedbase.Lib.Turns
import Feedbase.Users.InvitationSteps
import Feedbase.Users.SignUps
import Feedbase.Users.StaleLogins
import Feedbase.Users.Invite
import Feedbase.Users.Seats
import Feedbase.Users.WorkspaceCaps
import Feedbase.Billing.LostLock
import Feedbase.Billing.CancelledChange
import Feedbase.Admin.OfferTerms
import Feedbase.Common.WriteCounters
import Feedbase.Public.GuestWrites
import Feedbase.Roadmap.RoadmapSync
import Feedbase.Support.SupportChat
import Feedbase.Billing.ChangePlan
import Feedbase.Common.AccountWrites
import Feedbase.Common.BurstCaps
import Feedbase.Admin.Promo
import Feedbase.Admin.PromoReset
import Feedbase.Common.FormToken
import Feedbase.Common.SpamScore
import Feedbase.Post.Moderation
import Feedbase.Schema.Prune
import Feedbase.Post.SpamCleanup
import Feedbase.Post.Attachments
import Feedbase.Public.WriteGuard
import Feedbase.Public.Submissions
import Feedbase.Common.CompareText
import Feedbase.Public.Duplicates
import Feedbase.Comment.Comments
import Feedbase.Comment.Threads
import Feedbase.Lib.Chains
import Feedbase.Post.DuplicateMarks
import Feedbase.Post.AttachmentLinks
import Feedbase.Lib.Points
import Feedbase.Users.ResetLinks
import Feedbase.Public.ReplyRoots
import Feedbase.Lib.Words
import Feedbase.Lib.Numbers
import Feedbase.Lib.Values
import Feedbase.Lib.Joins
import Feedbase.Lib.Paging
import Feedbase.Middlewares.PaginationData
import Feedbase.Public.Board
import Feedbase.Public.BoardCards
import Feedbase.Public.BoardPages
import Feedbase.Public.Votes
import Feedbase.Lib.OrderedMap
import Feedbase.Common.Cache
import Feedbase.Public.PortalCache
import Feedbase.Public.StaleRecords
import Feedbase.Billing.PromoForGood
import Feedbase.Billing.CompExpiry
import Feedbase.Post.PostReads
import Feedbase.Public.Visibility
import Feedbase.Public.Quarantine
import Feedbase.Lib.Owned
import Feedbase.Lib.Rely
import Feedbase.Post.PostEdits
import Feedbase.Schema.Tenancy
import Feedbase.Tag.Tags
import Feedbase.Post.WorkspaceWrites
import Feedbase.Post.WorkspaceIds
import Feedbase.Public.Isolation
import Feedbase.Lib.Paths
import Feedbase.Admin.ClearFeedback
import Feedbase.Public.StoredIds
import Feedbase.Common.BootMigrations
import Feedbase.Lib.Waits
import Feedbase.Common.BootWorkers
import Feedbase.Common.BootRuns
