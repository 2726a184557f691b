import SecureShare.Library.Fencing
import SecureShare.Library.Table
import SecureShare.Library.Interleaving
import SecureShare.Auth.ClientRevocation
import SecureShare.Auth.UserUpdates
import SecureShare.Auth.PasswordChange
import SecureShare.Auth.IdleTimeout
import SecureShare.Auth.LoginNames
import SecureShare.Auth.StoreSimulation
import SecureShare.Delivery.RoundTrip
import SecureShare.Delivery.StateMachine
import SecureShare.Delivery.Retention
import SecureShare.Delivery.Exclusion
import SecureShare.Delivery.Revocation
import SecureShare.Delivery.LiveLease
import SecureShare.Delivery.Recovery
import SecureShare.Delivery.StoredPayload
import SecureShare.Delivery.LegacyPlaintext
import SecureShare.Delivery.Lifetime
import SecureShare.Delivery.BruteForce
import SecureShare.Delivery.VaultFailure
import SecureShare.Delivery.DeadLinks
import SecureShare.Delivery.Truthful
import SecureShare.Database.Migrations
import SecureShare.Database.Cleanup
import SecureShare.Email.Rendering
import SecureShare.Http.LinkOwner
import SecureShare.Http.RateLimit
import SecureShare.Email.SettingsCalls
import SecureShare.Handlers.Services
import SecureShare.Handlers.AcceptedRow
import SecureShare.Handlers.AuditTrail
import SecureShare.Handlers.Running
import SecureShare.Http.LoginThrottle
import SecureShare.Http.LinkPassword
import SecureShare.Email.SavedTemplates
import SecureShare.Email.HtmlBody
import SecureShare.Http.Limiter
import SecureShare.Auth.Bootstrap
import SecureShare.Http.ListFilters
import SecureShare.Http.Timeline
import SecureShare.Email.Placeholders
import SecureShare.Browser.SecretForm
