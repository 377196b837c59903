import XlmNs.Soroban.Machine
import XlmNs.Soroban.Trace
import XlmNs.Soroban.Callbacks
import XlmNs.Soroban.Store
import XlmNs.Soroban.Enumeration
import XlmNs.Soroban.TopTwo
import XlmNs.Soroban.Paging
import XlmNs.Soroban.Lease
import XlmNs.Soroban.U64
import XlmNs.Soroban.Env
import XlmNs.Soroban.Buffers
import XlmNs.Common.Names
import XlmNs.Common.Buffered
import XlmNs.Common.Grammar
import XlmNs.Common.Time
import XlmNs.Common.Types
import XlmNs.Common.Upgrade
import XlmNs.Registry.Contract
import XlmNs.Registry.Steps
import XlmNs.Registry.NftCalls
import XlmNs.Registry.Correctness.OwnerIndex
import XlmNs.Registry.Correctness.Takeover
import XlmNs.Registry.Correctness.Lifecycle
import XlmNs.Registry.Correctness.DisputeLock
import XlmNs.Registrar.Contract
import XlmNs.Registrar.Steps
import XlmNs.Registrar.Correctness.RateLimit
import XlmNs.Registrar.Correctness.Accounting
import XlmNs.Registrar.Correctness.GraceBounds
import XlmNs.Registrar.Correctness.Quotes
import XlmNs.System.RegistrarRegistry
import XlmNs.System.Agreement
import XlmNs.System.PaidTenure
import XlmNs.System.QueryNeutrality
import XlmNs.System.RegistryAccepts
import XlmNs.Resolver.Contract
import XlmNs.Resolver.Steps
import XlmNs.Resolver.Mappings
import XlmNs.Resolver.Forward
import XlmNs.Resolver.Forgetting
import XlmNs.Resolver.Correctness.TextRecords
import XlmNs.Resolver.Resolution
import XlmNs.Resolver.Correctness.PrimaryFrame
import XlmNs.Resolver.Correctness.ReverseAgreement
import XlmNs.Resolver.Correctness.PrimaryAuthority
import XlmNs.System.RegistryResolver
import XlmNs.System.WriteAuthority
import XlmNs.System.ResolutionFreshness
import XlmNs.System.ReverseNeutrality
import XlmNs.Nft.Contract
import XlmNs.Nft.Steps
import XlmNs.Nft.Correctness.Authority
import XlmNs.Nft.Correctness.Enumeration
import XlmNs.Nft.Correctness.Approvals
import XlmNs.System.RegistryNft
import XlmNs.System.TokenAgreement
import XlmNs.System.TokenReadiness
import XlmNs.System.NftPropagation
import XlmNs.Soroban.Token
import XlmNs.Auctions.Contract
import XlmNs.Auctions.Vickrey
import XlmNs.Auctions.Discovery
import XlmNs.Auctions.Reference
import XlmNs.Auctions.Steps
import XlmNs.Auctions.Reentrancy
import XlmNs.Auctions.Correctness.Solvency
import XlmNs.Auctions.Correctness.Phases
import XlmNs.Auctions.Correctness.Reentrancy
import XlmNs.Auctions.Correctness.SecondPrice
import XlmNs.Auctions.Correctness.Paging
import XlmNs.Auctions.Correctness.Discovery
import XlmNs.Subdomain.Contract
import XlmNs.Subdomain.Steps
import XlmNs.Subdomain.Records
import XlmNs.Subdomain.Correctness.Indexes
import XlmNs.Subdomain.Neutrality
import XlmNs.System.RegistrySubdomain
import XlmNs.System.SubdomainAuthority
import XlmNs.System.SubdomainLifetime
import XlmNs.System.Delegation
import XlmNs.System.SubdomainControl
import XlmNs.Json.Grammar
import XlmNs.Json.Rendering
import XlmNs.Bridge.Contract
import XlmNs.Bridge.Correctness.Messages
import XlmNs.System.Upgrades
import XlmNs.Ingestion.Supervisor
import XlmNs.Ingestion.Correctness.Gapless
import XlmNs.Bridge.Correctness.Chains
import XlmNs.Nft.Correctness.ExpiryCopies
import XlmNs.System.ExpiryCopies
import XlmNs.System.GraceExtension
import XlmNs.Registrar.Correctness.Availability
import XlmNs.Resolver.Correctness.Batches
import XlmNs.Resolver.Correctness.Fallback
import XlmNs.Common.Building
import XlmNs.Common.OffChain
import XlmNs.Subdomain.Correctness.CreatedNames
import XlmNs.Resolver.Correctness.StellarWrites
import XlmNs.System.OwnerWrites
import XlmNs.System.OwnershipChanges
import XlmNs.Registrar.Correctness.Manifest
import XlmNs.Resolver.Correctness.ReverseBatches
import XlmNs.Subdomain.Correctness.Revocation
import XlmNs.Subdomain.Buffered
import XlmNs.Bridge.Buffered
import XlmNs.System.FixedBuffers
import XlmNs.Common.NameRecord
import XlmNs.Cli.Dates
import XlmNs.Cli.Statuses
import XlmNs.Cli.Correctness.Statuses
import XlmNs.Ingestion.Correctness.Returns
import XlmNs.Soroban.Commuting
import XlmNs.Registrar.Correctness.Independence
import XlmNs.Registry.Correctness.Independence
import XlmNs.System.IndependentSales
import XlmNs.Soroban.EventLog
import XlmNs.Soroban.Offers
import XlmNs.Soroban.Retry
import XlmNs.Soroban.Framing
import XlmNs.Nft.Events
import XlmNs.Nft.Correctness.EventLog
import XlmNs.Resolver.Events
import XlmNs.Resolver.Correctness.EventLog
import XlmNs.Subdomain.Events
import XlmNs.Subdomain.Correctness.EventLog
import XlmNs.Registrar.Events
import XlmNs.Registrar.Correctness.EventLog
import XlmNs.Registry.Events
import XlmNs.System.EventLogs
import XlmNs.Auctions.Correctness.Accounts
import XlmNs.Auctions.Correctness.Bidding
import XlmNs.System.Stack
import XlmNs.Sdk.Errors
import XlmNs.Sdk.Client
import XlmNs.Sdk.Writes
import XlmNs.Sdk.Correctness.Retry
import XlmNs.Sdk.Correctness.Network
import XlmNs.Sdk.Correctness.Submissions
import XlmNs.Sdk.Correctness.Simulations
import XlmNs.Sdk.Correctness.Fees
import XlmNs.Cli.Portfolio
import XlmNs.Cli.Correctness.Portfolio
import XlmNs.Ingestion.Backend
import XlmNs.Ingestion.Correctness.Frames
import XlmNs.Ingestion.Correctness.Feeding
import XlmNs.Toml.Grammar
import XlmNs.Ingestion.Correctness.Config
