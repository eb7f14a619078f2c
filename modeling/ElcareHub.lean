import ElcareHub.Collections.Frozen
import ElcareHub.Collections.LazyMint1155.Caps
import ElcareHub.Collections.LazyMint721.SingleUse
import ElcareHub.Collections.LazyMint721.SupplyCap
import ElcareHub.Collections.NormalNFT1155.Batch
import ElcareHub.Collections.NormalNFT1155.FreshIds
import ElcareHub.Collections.NormalNFT721.Authority
import ElcareHub.Collections.Succession.Contracts
import ElcareHub.Collections.Upgrade
import ElcareHub.Collections.Vouchers.Reading
import ElcareHub.Indexer.Activity
import ElcareHub.Indexer.Coalescing
import ElcareHub.Indexer.Cursor
import ElcareHub.Indexer.Keeper
import ElcareHub.Indexer.Leases
import ElcareHub.Indexer.Pagination
import ElcareHub.Indexer.Pipeline
import ElcareHub.Indexer.ProviderPool
import ElcareHub.Indexer.Recovery
import ElcareHub.Indexer.Retention
import ElcareHub.Indexer.SafePoint
import ElcareHub.Joint.Release
import ElcareHub.Launchpad.Preflight
import ElcareHub.Marketplace.Refine.Batches
import ElcareHub.Marketplace.Safety.AntiSniping
import ElcareHub.Marketplace.Safety.Authority
import ElcareHub.Marketplace.Safety.BidLadder
import ElcareHub.Marketplace.Safety.Browsing
import ElcareHub.Marketplace.Safety.FeeCap
import ElcareHub.Marketplace.Safety.LosslessMigration
import ElcareHub.Marketplace.Safety.Prices
import ElcareHub.Marketplace.Safety.Revocation
import ElcareHub.Marketplace.Safety.RoleProposals
import ElcareHub.Marketplace.Safety.RoyaltyClaims
import ElcareHub.Marketplace.Safety.Solvency
import ElcareHub.Marketplace.Safety.Totals
import ElcareHub.Marketplace.Safety.TtlSweep
import ElcareHub.Marketplace.Safety.Units
import ElcareHub.Marketplace.Safety.Whitelist
