import FeiProtocol.Evm.Machine
import FeiProtocol.Evm.History
import FeiProtocol.Evm.Ledger
import FeiProtocol.Evm.Supply
import FeiProtocol.Evm.Allowances
import FeiProtocol.Evm.Nonces
import FeiProtocol.Evm.TypedData
import FeiProtocol.Evm.Loop
import FeiProtocol.Evm.Callbacks
import FeiProtocol.Math.ProRata
import FeiProtocol.Math.MerkleTree
import FeiProtocol.Math.TokenBucket
import FeiProtocol.Math.Vesting
import FeiProtocol.Math.Wrapper
import FeiProtocol.Math.RewardShares
import FeiProtocol.Math.Spacing
import FeiProtocol.Math.Tables
import FeiProtocol.Math.Checkpoints
import FeiProtocol.Math.Tally
import FeiProtocol.Math.Fibres
import FeiProtocol.Math.Exchange
import FeiProtocol.Math.EnumerableSet
import FeiProtocol.Math.Deviation
import FeiProtocol.Math.Listings
import FeiProtocol.Math.Authority
import FeiProtocol.Shutdown.Fuse.RariMerkleRedeemer
import FeiProtocol.Shutdown.Fuse.RedeemerSteps
import FeiProtocol.Shutdown.Fuse.RedeemerAccounting
import FeiProtocol.Shutdown.Fuse.RedeemerBatches
import FeiProtocol.Shutdown.Fuse.RedeemerWriteOnce
import FeiProtocol.Shutdown.Fuse.RedeemerSolvency
import FeiProtocol.Shutdown.CreateMerkleTrees
import FeiProtocol.Shutdown.SnapshotSpelling
import FeiProtocol.Shutdown.DeployMerkleRedeemer
import FeiProtocol.Shutdown.Redeem.TribeRedeemer
import FeiProtocol.Shutdown.Redeem.RedemptionPools
import FeiProtocol.Refs.Constants
import FeiProtocol.Refs.CoreRef
import FeiProtocol.External.Decimal
import FeiProtocol.Refs.OracleRef
import FeiProtocol.Fei.Fei
import FeiProtocol.Fei.FeiToken
import FeiProtocol.Fei.FeiSpending
import FeiProtocol.Peg.SimpleFeiDaiPSM
import FeiProtocol.Peg.NonCustodialPSM
import FeiProtocol.Peg.NonCustodialPSMQuotes
import FeiProtocol.Peg.PegStabilityModule
import FeiProtocol.Peg.PsmQuotes
import FeiProtocol.Peg.PsmBacking
import FeiProtocol.Peg.PsmMinting
import FeiProtocol.Utils.Timed
import FeiProtocol.Utils.RateLimited
import FeiProtocol.Utils.MultiRateLimited
import FeiProtocol.Utils.GlobalRateLimitedMinter
import FeiProtocol.Utils.MintMaxAllowableFei
import FeiProtocol.Utils.RateLimitCaps
import FeiProtocol.Pcv.ERC20Dripper
import FeiProtocol.Pcv.ERC20HoldingPCVDeposit
import FeiProtocol.Pcv.ERC20Splitter
import FeiProtocol.Pcv.NamedStaticPCVDepositWrapper
import FeiProtocol.Pcv.PCVDripController
import FeiProtocol.Pcv.PCVGuardian
import FeiProtocol.Pcv.PCVGuardianAuthority
import FeiProtocol.Timelocks.TokenTimelock
import FeiProtocol.Timelocks.LinearTokenTimelock
import FeiProtocol.Timelocks.TimelockedDelegator
import FeiProtocol.Timelocks.TimelockBooks
import FeiProtocol.Timelocks.Clawback
import FeiProtocol.Timelocks.DelegationAccounting
import FeiProtocol.Timelocks.FullRelease
import FeiProtocol.Timelocks.Captive
import FeiProtocol.Shutdown.Timelocks.FeiLinearTokenTimelockBurner
import FeiProtocol.Shutdown.Timelocks.TribeTimelockedDelegatorBurner
import FeiProtocol.Timelocks.LinearUnlockTimelock
import FeiProtocol.Shutdown.Fuse.MerkleRedeemerDripper
import FeiProtocol.Staking.TribalChief
import FeiProtocol.Staking.TribalChiefSteps
import FeiProtocol.Staking.TribalChiefPrincipal
import FeiProtocol.Staking.TribalChiefVirtualSupply
import FeiProtocol.Staking.TribalChiefPreview
import FeiProtocol.Staking.TribalChiefRewards
import FeiProtocol.Fuse.Rewards.AutoRewardsDistributor
import FeiProtocol.Staking.TribalChiefSyncV2
import FeiProtocol.Staking.TribalChiefRecords
import FeiProtocol.Staking.TribalChiefSyncSchedule
import FeiProtocol.Staking.TribalChiefAllocation
import FeiProtocol.Staking.TribalChiefEmission
import FeiProtocol.Oracle.CollateralizationOracle
import FeiProtocol.Oracle.CollateralizationOracleIndexes
import FeiProtocol.Oracle.CollateralizationOracleStats
import FeiProtocol.Oracle.CollateralizationOracleWrapper
import FeiProtocol.Oracle.CollateralizationOracleGuardian
import FeiProtocol.Sentinel.FuseWithdrawalGuard
import FeiProtocol.Tribe.Tribe
import FeiProtocol.Tribe.TribeSteps
import FeiProtocol.Tribe.TribeSignatures
import FeiProtocol.Tribe.TribeSpending
import FeiProtocol.Tribe.TribePriorVotes
import FeiProtocol.Tribe.TribeVotes
import FeiProtocol.Tribe.TribeMinter
import FeiProtocol.Tribe.TribeReserveStabilizer
import FeiProtocol.Dao.Timelock
import FeiProtocol.Dao.TimelockQueueings
import FeiProtocol.Dao.GovernorAlpha
import FeiProtocol.Dao.GovernorAlphaSteps
import FeiProtocol.Dao.GovernorAlphaBallots
import FeiProtocol.Dao.GovernorAlphaQueueing
import FeiProtocol.Dao.GovernorAlphaSafety
import FeiProtocol.Dao.FeiDAOTimelock
import FeiProtocol.Dao.FeiDAOTimelockSafety
import FeiProtocol.Shutdown.Timelocks.DAOTimelockBurner
import FeiProtocol.Merger.TribeRagequit
import FeiProtocol.Core.Permissions
import FeiProtocol.Core.Core
import FeiProtocol.Core.FeiAuthority
