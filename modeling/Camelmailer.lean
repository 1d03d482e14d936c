import Camelmailer.Text.Utf8
import Camelmailer.Text.Str
import Camelmailer.Text.Lines
import Camelmailer.Core.Model
import Camelmailer.Core.SendLimit
import Camelmailer.Core.Message
import Camelmailer.Core.Store
import Camelmailer.Core.TraceHeaders
import Camelmailer.Smtp.Session
import Camelmailer.Machine
import Camelmailer.Requests
import Camelmailer.Smtp.Handle
import Camelmailer.Smtp.Steps
import Camelmailer.Smtp.Tenant
import Camelmailer.Smtp.Responsibility
import Camelmailer.Smtp.Server
import Camelmailer.Smtp.Receiving
import Camelmailer.Smtp.EndOfData
import Camelmailer.Worker.SmtpClient
import Camelmailer.Worker.MessageTables
import Camelmailer.Worker.Process
import Camelmailer.Worker.Writes
import Camelmailer.Worker.Promises
import Camelmailer.Worker.Leases
import Camelmailer.Worker.HeldFlag
import Camelmailer.Worker.Bypass
import Camelmailer.Worker.Bounces
import Camelmailer.Worker.QueueRows
import Camelmailer.Worker.GiveUp
import Camelmailer.Worker.Purged
import Camelmailer.Worker.Dialogue
import Camelmailer.Worker.Domains
import Camelmailer.Smtp.DotStuffing
import Camelmailer.Smtp.Panics
import Camelmailer.Smtp.PlaintextAuth
import Camelmailer.Smtp.Upgrade
import Camelmailer.Smtp.SpfHeader
import Camelmailer.Smtp.HeaderBlock
import Camelmailer.Smtp.FromHeader
import Camelmailer.Db.PgStore
import Camelmailer.Db.Storing
import Camelmailer.Smtp.DurableAcceptance
import Camelmailer.Api.Send
import Camelmailer.Core.MemoryStore
import Camelmailer.Api.Retries
import Camelmailer.Text.Paths
import Camelmailer.Text.Relaxed
import Camelmailer.Text.Lossy
import Camelmailer.Core.Account
import Camelmailer.Api.Admin
import Camelmailer.Api.AdminScope
import Camelmailer.Text.Markup
import Camelmailer.Api.XmlDsig
import Camelmailer.Api.CanonicalForm
import Camelmailer.Api.Saml
import Camelmailer.Api.SamlReading
import Camelmailer.Api.Handler
import Camelmailer.Api.OperatorControl
import Camelmailer.Api.Campaigns
import Camelmailer.Api.CampaignLedger
import Camelmailer.Api.CampaignRuns
import Camelmailer.Api.Suppressions
import Camelmailer.Api.OptOuts
import Camelmailer.Api.LoginStates
import Camelmailer.Api.AuthApi
import Camelmailer.Api.Lockout
import Camelmailer.Api.SecondFactor
import Camelmailer.Db.Keyed
import Camelmailer.Api.SingleUse
import Camelmailer.Api.SingleUseRuns
import Camelmailer.Db.Table
import Camelmailer.Api.Directory
import Camelmailer.Api.Provisioning
import Camelmailer.Api.ProvisioningRules
import Camelmailer.Api.TenantSso
import Camelmailer.Api.EmailAddresses
import Camelmailer.Api.SendLimits
import Camelmailer.Worker.Refusals
import Camelmailer.Worker.Streams
import Camelmailer.Core.SpfVerdict
import Camelmailer.Worker.CommandLines
import Camelmailer.Api.BlindCopies
import Camelmailer.Api.CustomHeaders
import Camelmailer.Smtp.HeldCredentials
import Camelmailer.Core.IpCredentials
import Camelmailer.Api.BatchQuota
import Camelmailer.Smtp.EnvelopeLines
import Camelmailer.Api.EmailDomains
import Camelmailer.Sorting
import Camelmailer.Worker.FairQueue
import Camelmailer.Core.UsageCounts
import Camelmailer.Worker.Dkim
import Camelmailer.Worker.HeaderEnds
import Camelmailer.Worker.DkimLines
import Camelmailer.Worker.DkimForm
import Camelmailer.Worker.DkimWire
import Camelmailer.Core.SenderPolicy
import Camelmailer.Core.SpfTerms
import Camelmailer.Core.SpfConformance
import Camelmailer.Smtp.KeyRemoval
import Camelmailer.Text.Occurrences
import Camelmailer.Core.Template
import Camelmailer.Core.TemplateGrammar
import Camelmailer.Core.TemplateOutput
import Camelmailer.Core.TemplateLayout
import Camelmailer.Core.TemplatePrinting
import Camelmailer.Text.Octets
import Camelmailer.Worker.DeliveryStatus
import Camelmailer.Worker.DeliveryReports
import Camelmailer.Worker.MessageToken
import Camelmailer.Core.SpfForms
import Camelmailer.Core.SpfAdvice
import Camelmailer.Text.Delimiters
import Camelmailer.Core.Retention
import Camelmailer.Worker.Ssrf
import Camelmailer.Core.DmarcTotals
import Camelmailer.Worker.QuotedPrintable
import Camelmailer.Worker.OpenPixel
import Camelmailer.Worker.LinkRewriting
import Camelmailer.Worker.ClickPlaceholders
import Camelmailer.Api.Pagination
import Camelmailer.Api.Base32
import Camelmailer.Core.WebhookSignature
import Camelmailer.Worker.WebhookQueue
import Camelmailer.Worker.HtmlPart
import Camelmailer.Api.Members
