import EncryptionGateway.Foundation.InsertionMap
import EncryptionGateway.Foundation.Numerals
import EncryptionGateway.Foundation.Outcome
import EncryptionGateway.Foundation.Remote
import EncryptionGateway.Foundation.Run
import EncryptionGateway.Foundation.Splitting
import EncryptionGateway.Foundation.Symbolic
import EncryptionGateway.Foundation.FixedWindow
import EncryptionGateway.Foundation.FieldList
import EncryptionGateway.JavaScript.Text
import EncryptionGateway.JavaScript.Json
import EncryptionGateway.JavaScript.JsonPrinter
import EncryptionGateway.JavaScript.Values
import EncryptionGateway.JavaScript.Base64
import EncryptionGateway.JavaScript.Url
import EncryptionGateway.JavaScript.UrlPath
import EncryptionGateway.JavaScript.NetAddress
import EncryptionGateway.JavaScript.Pem
import EncryptionGateway.Common.Config
import EncryptionGateway.Common.Payload
import EncryptionGateway.Common.ReplayProtection
import EncryptionGateway.Common.ReplayWindow
import EncryptionGateway.Common.RateLimit
import EncryptionGateway.Common.RateLimitWindows
import EncryptionGateway.Common.RateLimitBound
import EncryptionGateway.Common.RateLimitQuota
import EncryptionGateway.Common.RateLimitHeaders
import EncryptionGateway.Common.ClientIp
import EncryptionGateway.Common.ClientIdentity
import EncryptionGateway.Common.ReplayReference
import EncryptionGateway.Common.ReplayOrder
import EncryptionGateway.Encryption.EncryptionService
import EncryptionGateway.Encryption.KeyRotation
import EncryptionGateway.Encryption.KeyLoading
import EncryptionGateway.Encryption.PemBlocks
import EncryptionGateway.Encryption.WrittenKeys
import EncryptionGateway.Encryption.Keygen
import EncryptionGateway.Encryption.KeyFiles
import EncryptionGateway.Proxy.HeaderFiltering
import EncryptionGateway.Proxy.HeaderLimits
import EncryptionGateway.Proxy.TargetPolicy
import EncryptionGateway.Proxy.HostEntries
import EncryptionGateway.Proxy.RouteMatching
import EncryptionGateway.Proxy.PathConfinement
import EncryptionGateway.Proxy.RouteEntries
import EncryptionGateway.Proxy.ProxyService
import EncryptionGateway.Proxy.Mediation
import EncryptionGateway.Proxy.LegacyForms
import EncryptionGateway.Proxy.ProxyController
import EncryptionGateway.Proxy.ResponseHeaders
import EncryptionGateway.Client.GatewayClient
import EncryptionGateway.Client.MobileClients
import EncryptionGateway.Client.Provisioning
import EncryptionGateway.Client.OkHttpInterceptor
import EncryptionGateway.Client.GatewayHttpClient
import EncryptionGateway.Channel.Delivery
import EncryptionGateway.Channel.Session
import EncryptionGateway.Channel.Authenticity
import EncryptionGateway.Channel.ResponseModes
import EncryptionGateway.Channel.MobileDelivery
import EncryptionGateway.Channel.AdapterResponses
import EncryptionGateway.Channel.AdapterRequests
import EncryptionGateway.Channel.MobileAuthenticity
import EncryptionGateway.Attestation.InstanceSafety
import EncryptionGateway.Attestation.RedisServer
import EncryptionGateway.Attestation.SharedStore
import EncryptionGateway.Attestation.InstanceGuarantees
import EncryptionGateway.Attestation.KvStore
import EncryptionGateway.Attestation.Registry
import EncryptionGateway.Attestation.AttestationService
import EncryptionGateway.Attestation.ChainOfTrust
import EncryptionGateway.Attestation.Endpoints
import EncryptionGateway.Attestation.History
import EncryptionGateway.Attestation.Enrolment
import EncryptionGateway.Attestation.Rebinding
import EncryptionGateway.Attestation.SharedInstances
import EncryptionGateway.Attestation.SpentChallenges
import EncryptionGateway.Attestation.TrustPath
import EncryptionGateway.Attestation.TtlMap
import EncryptionGateway.Attestation.UpstashKvStore
import EncryptionGateway.Attestation.Acceptance
import EncryptionGateway.Attestation.PolicyConfig
import EncryptionGateway.Attestation.Revocation
import EncryptionGateway.Attestation.FailClosed
import EncryptionGateway.Gateway.Lifecycle
import EncryptionGateway.Gateway.Requests
import EncryptionGateway.Gateway.UpstreamCalls
import EncryptionGateway.Gateway.Startup
import EncryptionGateway.Encryption.PemBlocks
