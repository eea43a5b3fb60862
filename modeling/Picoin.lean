import Picoin.Lib.Table
import Picoin.Lib.Dict
import Picoin.Lib.FirstFit
import Picoin.Lib.Tiling
import Picoin.Lib.Tally
import Picoin.Lib.Outcome
import Picoin.Lib.Decimal
import Picoin.Lib.Json
import Picoin.Core.Money
import Picoin.Core.Text
import Picoin.Core.Clock
import Picoin.Core.Settings
import Picoin.Core.Transaction
import Picoin.Db.Schema
import Picoin.Services.Wallet
import Picoin.Services.Ledger
import Picoin.Services.Treasury
import Picoin.Services.Science
import Picoin.Services.Rejection
import Picoin.Services.Execution
import Picoin.Services.Mempool
import Picoin.Proofs.AdmissibleSelection
import Picoin.Proofs.Postings
import Picoin.Proofs.Conservation
import Picoin.Services.Signing
import Picoin.Services.LocalNode
import Picoin.Proofs.Replay
import Picoin.Proofs.SignedAmount
import Picoin.Proofs.TreasuryAccounting
import Picoin.Proofs.TreasuryClock
import Picoin.Services.Snapshot.Rows
import Picoin.Services.Snapshot.ChainRows
import Picoin.Services.Snapshot.Document
import Picoin.Services.Snapshot.Export
import Picoin.Services.Snapshot.Restore
import Picoin.Proofs.ReserveGovernance
import Picoin.Lib.JsonText
import Picoin.Lib.MerkleTree
import Picoin.Core.Merkle
import Picoin.Proofs.MerkleSound
import Picoin.Proofs.MerkleComplete
import Picoin.Proofs.SnapshotRestore
import Picoin.Proofs.RestoreDetermined
import Picoin.Services.Validators
import Picoin.Proofs.LocalState
import Picoin.Db.Mining
import Picoin.Services.TaskGossip
import Picoin.Lib.RankedMerge
import Picoin.Proofs.GossipConvergence
import Picoin.Services.ScienceMarket
import Picoin.Proofs.ReserveSolvency
import Picoin.Core.Block
import Picoin.Services.Acceptance
import Picoin.Proofs.TxRoot
import Picoin.Services.Assignment
import Picoin.Services.ChainCheck
import Picoin.Services.CommitReveal
import Picoin.Services.LocalMining
import Picoin.Proofs.CertifiedResult
import Picoin.Proofs.ChainVerifies
import Picoin.Services.Validation
import Picoin.Proofs.Slashing
import Picoin.Proofs.VotePaths
import Picoin.Proofs.NoStranding
import Picoin.Services.JobGossip
import Picoin.Services.BlockRewards
import Picoin.Proofs.SupplySchedule
import Picoin.Proofs.RewardMaturation
import Picoin.Proofs.ValidatorStake
import Picoin.Services.ValidatorClient
import Picoin.Proofs.ApprovedJobs
import Picoin.Proofs.EligibleQuorum
import Picoin.Services.Checkpoints
import Picoin.Proofs.CheckpointsStay
import Picoin.Services.Penalties
import Picoin.Proofs.MinerUndisturbed
import Picoin.Services.BlockImport
import Picoin.Services.BlockReplay
import Picoin.Proofs.CertifiedImports
import Picoin.Pool.Tables
import Picoin.Pool.Work
import Picoin.Proofs.PoolCredit
import Picoin.Pool.Payouts
import Picoin.Proofs.PoolPayouts
import Picoin.Pool.RoundWindows
import Picoin.Proofs.RoundPayouts
import Picoin.Services.Consensus
import Picoin.Proofs.QuorumAgreement
import Picoin.Services.BlockHash
import Picoin.Proofs.QueuedBlocks
import Picoin.Proofs.ImportedSupply
import Picoin.Pool.Settlement
import Picoin.Proofs.WonBlocks
import Picoin.Lib.Rounding
import Picoin.Services.Submission
import Picoin.Proofs.PoisonRows
import Picoin.Forge.AiAccessQueue
import Picoin.Forge.AiRequestRows
import Picoin.Forge.WorkloadQueue
import Picoin.Forge.Claims
import Picoin.Proofs.RequestLifeCycle
import Picoin.Forge.WorkerRegistry
import Picoin.Forge.ChallengeEngine
import Picoin.Proofs.ChallengeAccounts
import Picoin.Forge.Settlement
import Picoin.Proofs.EpochRewards
import Picoin.Forge.EpochEngine
import Picoin.Proofs.EpochsClosed
import Picoin.Proofs.AssigneeDecides
import Picoin.Proofs.ExclusiveClaims
import Picoin.Market.Capacity
import Picoin.Proofs.CapacityCounter
import Picoin.Market.Deposits
import Picoin.Market.DepositCalls
import Picoin.Market.Scanners
import Picoin.Market.BalanceCalls
import Picoin.Market.MarketCalls
import Picoin.Proofs.BalanceCover
import Picoin.Proofs.PaidSettlements
import Picoin.Proofs.NoOverbooking
import Picoin.Proofs.FinalCredits
import Picoin.Proofs.CreditedDeposits
import Picoin.Services.Difficulty
import Picoin.Proofs.RetargetBounds
import Picoin.Lib.Base64
import Picoin.Forge.WorkerRequests
import Picoin.Proofs.SignedRequests
import Picoin.Lib.JsonScan
import Picoin.Forge.Federation
import Picoin.Proofs.FederationBinding
import Picoin.Proofs.RoutedRequests
import Picoin.Proofs.PublishedReceipts
import Picoin.Proofs.PaidJobs
import Picoin.Pool.Chunks
import Picoin.Proofs.ChunkTiling
import Picoin.Proofs.LateRewards
import Picoin.Proofs.LegalRanges
import Picoin.Services.RangeAssignment
import Picoin.Proofs.FaucetLimit
import Picoin.Market.ScannerPolls
import Picoin.Proofs.ScannedBlocks
import Picoin.Proofs.TimestampForms
import Picoin.Proofs.HashedTransactions
import Picoin.Lib.Significant
import Picoin.Lib.Gregory
import Picoin.Core.PiDigits
import Picoin.Proofs.PiSegments
import Picoin.Services.OrphanReorg
import Picoin.Proofs.DoubleEntry
import Picoin.Proofs.BlockRollback
import Picoin.Services.RetroactiveAudit
import Picoin.Proofs.FraudAudits
import Picoin.Services.BlockSync
import Picoin.Proofs.ChainDownload
import Picoin.Proofs.SerializedWrites
import Picoin.Proofs.GenesisSupply
import Picoin.Proofs.ProposalOrder
import Picoin.Proofs.LiveValidators
