import Artgod.Store.Table
import Artgod.Store.Transaction
import Artgod.Machine.Runs
import Artgod.Machine.Attempts
import Artgod.Flow.TokenBucket
import Artgod.Indexer.Rows
import Artgod.Indexer.SyncResult
import Artgod.Indexer.Fills
import Artgod.Indexer.Persist
import Artgod.Indexer.Balances
import Artgod.Indexer.Storage
import Artgod.Indexer.Rollback
import Artgod.Indexer.Recovery
import Artgod.Indexer.Gaps
import Artgod.Indexer.GapSearch
import Artgod.Indexer.Commit
import Artgod.Indexer.ChainFacts
import Artgod.Indexer.GapDiscovery
import Artgod.Indexer.Resync
import Artgod.Indexer.Canonical
import Artgod.Indexer.Ownership
import Artgod.Indexer.Erc1155
import Artgod.Indexer.Orders
import Artgod.Indexer.OrderBook
import Artgod.Indexer.OrderCancellation
import Artgod.Indexer.Demand
import Artgod.Indexer.DemandRuns
import Artgod.Indexer.MakerRuns
import Artgod.Indexer.MakerCoverage
import Artgod.Js.Value
import Artgod.Trading.BiddingMandate
import Artgod.Trading.PolicyWallet
import Artgod.Bootstrap.Steps
import Artgod.Bootstrap.Dependencies
import Artgod.Bootstrap.Leases
import Artgod.Bootstrap.Backfill
import Artgod.Indexer.QueueOutbox
import Artgod.Graph.Forest
import Artgod.Trading.PriceTiers
import Artgod.Trading.PriceTierRuns
import Artgod.Trading.JobDeclarations
import Artgod.Trading.JobChanges
import Artgod.Trading.JobRuns
import Artgod.Desktop.BotLifecycle
import Artgod.Desktop.BotInvariant
import Artgod.Desktop.BotFencing
import Artgod.Trading.SecretEnvelope
import Artgod.Trading.ParentSecretChannel
import Artgod.Trading.RateLimiter
import Artgod.Store.IndexedHeap
import Artgod.Js.OrderedMap
import Artgod.Js.Joined
import Artgod.Js.Json
import Artgod.Text.Decimal
import Artgod.Trading.ReviewedAuthority
import Artgod.Trading.SuppliedCriteria
import Artgod.Trading.TraitCompetition
import Artgod.Trading.TraitCriteria
import Artgod.Trading.TraitFilters
import Artgod.Trading.TraitKeys
import Artgod.Trading.UnitPrices
import Artgod.Trading.HotRefresh
import Artgod.Trading.HotRefreshLanes
import Artgod.Trading.HotRefreshRuns
import Artgod.Trading.HotRefreshInvariant
import Artgod.Trading.OfferSnapshots
import Artgod.Trading.BidderRefresh
import Artgod.Trading.BidderRefreshInvariant
import Artgod.Trading.BidderRefreshRequests
import Artgod.Trading.BidderRefreshRuns
import Artgod.Trading.BidderShutdown
import Artgod.Trading.BidBookProjection
import Artgod.Trading.BidBookOwnState
import Artgod.Trading.SigningSession
import Artgod.Store.HeapOrder
import Artgod.Store.Retention
import Artgod.Store.SecondaryIndex
import Artgod.Trading.HotRefreshQueues
import Artgod.Trading.HotRefreshRetention
import Artgod.Trading.HotRefreshSignatures
import Artgod.Trading.HotRefreshDelivery
import Artgod.Trading.BidderJobs
import Artgod.Trading.BidderSchedule
import Artgod.Trading.OfferCriteria
import Artgod.Trading.OpenSeaOffers
import Artgod.Store.FirstByKey
import Artgod.Trading.CollectionOfferScans
import Artgod.Trading.JobSource
import Artgod.Trading.OfferRecognition
import Artgod.Trading.BidPricing
import Artgod.Trading.BidExecution
import Artgod.Trading.BidRuns
import Artgod.Trading.CancellationRows
import Artgod.Trading.CommandQueue
import Artgod.Trading.JobApplication
import Artgod.Trading.JobCancellation
import Artgod.Trading.TransactionPolicy
import Artgod.Trading.WethApproval
import Artgod.Indexer.GapRepair
import Artgod.Indexer.ReorgFork
import Artgod.Indexer.RetirementMerge
import Artgod.Indexer.OrderOutcomes
import Artgod.Indexer.SeaportValidation
import Artgod.Indexer.ValidationAdmission
import Artgod.Text.TokenId
import Artgod.Indexer.TokenScope
import Artgod.Flow.Shares
import Artgod.Indexer.FillAllocation
import Artgod.Search.Transversals
import Artgod.Js.Grouping
import Artgod.Indexer.SeaportMatching
import Artgod.Indexer.WyvernCalls
import Artgod.Indexer.WyvernFills
import Artgod.Merkle.Complete
import Artgod.Indexer.SeaportSignature
import Artgod.Merkle.Promoted
import Artgod.Js.Sorting
import Artgod.Indexer.TokenSets
import Artgod.Bits.ByteFields
import Artgod.Evm.CircuitBreaker
import Artgod.Evm.RpcResilience
import Artgod.Evm.WeightedEndpoints
import Artgod.Flow.Credits
import Artgod.ReadModels.BlockspaceCoverage
import Artgod.ReadModels.BlockspaceGrid
import Artgod.ReadModels.TraitCandidates
import Artgod.Trading.PriceTierGraph
