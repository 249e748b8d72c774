import OidcExchange.Analysis.Redemption
import OidcExchange.Analysis.RevokedToken
import OidcExchange.Analysis.Suspension
import OidcExchange.Analysis.PostgresSweep
import OidcExchange.Analysis.ValkeySweep
import OidcExchange.Analysis.TokenRoundTrip
import OidcExchange.Analysis.SingleUseLiveness
import OidcExchange.Analysis.ReplayMarker
import OidcExchange.Analysis.LostFamilies
import OidcExchange.Analysis.LmdbSweep
import OidcExchange.Analysis.LmdbClaims
import OidcExchange.Analysis.ValkeyCleanupIndex
import OidcExchange.Analysis.DomainAllowlist
import OidcExchange.Analysis.ReuseDisclosure
import OidcExchange.Analysis.ClaimMerge
import OidcExchange.Analysis.ExchangeRecords
import OidcExchange.Analysis.FailedExchange
import OidcExchange.Analysis.StartUp
import OidcExchange.Analysis.MarkerKeys
import OidcExchange.Analysis.FailureBudget
import OidcExchange.Analysis.GuessingBudget
import OidcExchange.Analysis.LifetimePanics
import OidcExchange.Analysis.DynamoIdentity
import OidcExchange.Analysis.DynamoSignOut
import OidcExchange.Analysis.SerialUpdates
import OidcExchange.Analysis.SessionRoundTrip
import OidcExchange.Analysis.AdminRevocation
import OidcExchange.Analysis.PagedListing
import OidcExchange.Analysis.TokenSeparation
import OidcExchange.Analysis.Expiry
import OidcExchange.Analysis.StoreEquivalence
import OidcExchange.Analysis.RequestNormalisation
import OidcExchange.Analysis.ClientAddress
import OidcExchange.Analysis.TemplateGrammar
import OidcExchange.Analysis.IssuerAgreement
import OidcExchange.Analysis.KeyFetches
import OidcExchange.Analysis.KeyHistory
import OidcExchange.Analysis.RotationRecovery
import OidcExchange.Analysis.LeakedCredentials
import OidcExchange.Analysis.PublicLimits
import OidcExchange.Analysis.AdminLockout
import OidcExchange.Analysis.LimiterPoisoning
import OidcExchange.Analysis.RetryAfter
import OidcExchange.Analysis.AssertionLifetime
import OidcExchange.Analysis.AssertionBinding
import OidcExchange.Analysis.ValkeyClaims
import OidcExchange.Analysis.OperatorTotality
import OidcExchange.Analysis.TimestampOrder
import OidcExchange.Texts.Base64Url
import OidcExchange.Texts.JsonWriter
import OidcExchange.Program.Cursors
import OidcExchange.Analysis.CursorCodecs
import OidcExchange.Analysis.BasePathStripping
import OidcExchange.Analysis.PinnedOrigins
import OidcExchange.Analysis.SigningInput
import OidcExchange.Analysis.ConfigLayers
import OidcExchange.Texts.Slices
import OidcExchange.Storage.Bounded
import OidcExchange.Program.Placeholders
import OidcExchange.Analysis.PlaceholderScan
import OidcExchange.Storage.UniqueIndex
import OidcExchange.Program.VerificationKeys
import OidcExchange.Analysis.KeyEligibility
import OidcExchange.Interleaving.Assumption
import OidcExchange.Program.IdTokens
import OidcExchange.Analysis.TokenTotality
import OidcExchange.Texts.Segments
import OidcExchange.Program.Transport
import OidcExchange.Analysis.UpstreamBodies
import OidcExchange.Texts.Runs
import OidcExchange.Analysis.BareAssertions
import OidcExchange.Program.UpstreamSlices
import OidcExchange.Analysis.SlicedRedaction
import OidcExchange.Analysis.RedactedPairs
import OidcExchange.Adapters.LmdbBatches
import OidcExchange.Analysis.SweepProgress
import OidcExchange.Program.Durations
import OidcExchange.Analysis.DurationGrammar
import OidcExchange.Analysis.Provenance
import OidcExchange.Analysis.SessionLedger
import OidcExchange.Analysis.StatsElections
import OidcExchange.Analysis.Deliveries
import OidcExchange.Analysis.StoredClaims
import OidcExchange.Analysis.Attribution
