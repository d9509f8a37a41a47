import ChainFeed.Archive
import ChainFeed.Block.Document
import ChainFeed.Block.Wiring.Passes
import ChainFeed.Enrichment.Document
import ChainFeed.Feed
import ChainFeed.Proofs.Alignment
import ChainFeed.Proofs.Alternatives
import ChainFeed.Proofs.BareResults
import ChainFeed.Proofs.Batching
import ChainFeed.Proofs.BodyForms
import ChainFeed.Proofs.CallTreeOutcomes
import ChainFeed.Proofs.CallTrees
import ChainFeed.Proofs.ChangeEncodings
import ChainFeed.Proofs.Climbing
import ChainFeed.Proofs.Completion
import ChainFeed.Proofs.Consistency
import ChainFeed.Proofs.DemandedKinds
import ChainFeed.Proofs.FieldIndependence
import ChainFeed.Proofs.HeadChain
import ChainFeed.Proofs.HexGrammar
import ChainFeed.Proofs.HiddenProperties
import ChainFeed.Proofs.Interleavings
import ChainFeed.Proofs.ItemLinks
import ChainFeed.Proofs.LogFallback
import ChainFeed.Proofs.Mending
import ChainFeed.Proofs.MergeStages
import ChainFeed.Proofs.Operations
import ChainFeed.Proofs.Projectable
import ChainFeed.Proofs.ReceiptSources
import ChainFeed.Proofs.Reordering
import ChainFeed.Proofs.RequestText
import ChainFeed.Proofs.Reselection
import ChainFeed.Proofs.Rewiring
import ChainFeed.Proofs.Selection
import ChainFeed.Proofs.ShortestNumerals
import ChainFeed.Proofs.SnapshotChanges
import ChainFeed.Proofs.Survivors
import ChainFeed.Proofs.Tables
import ChainFeed.Proofs.WiredBlocks
