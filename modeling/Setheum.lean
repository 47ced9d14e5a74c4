import Setheum.ChainBridge.Bridge
import Setheum.ChainBridge.Supply
import Setheum.Currencies.Adapter
import Setheum.Currencies.Erc20
import Setheum.Currencies.Refinement
import Setheum.Democracy.Calls
import Setheum.Democracy.DepositBooks
import Setheum.Democracy.DepositWorth
import Setheum.Democracy.Deposits
import Setheum.Democracy.Effects
import Setheum.Democracy.Electorate
import Setheum.Democracy.Locks
import Setheum.Democracy.Maturity
import Setheum.Democracy.Model
import Setheum.Democracy.Peeks
import Setheum.Democracy.Referenda
import Setheum.Democracy.Tallies
import Setheum.Democracy.Types
import Setheum.Democracy.Voting
import Setheum.Dex.Accounting
import Setheum.Dex.Calls
import Setheum.Dex.Hops
import Setheum.Dex.InitialShares
import Setheum.Dex.Maxima
import Setheum.Dex.Model
import Setheum.Dex.Paths
import Setheum.Dex.Provisioning
import Setheum.Dex.Quotes
import Setheum.Dex.Reserves
import Setheum.Dex.ShareValue
import Setheum.Evm.AccountMapping
import Setheum.Evm.Arguments
import Setheum.Evm.CodeReferences
import Setheum.Evm.Conservation
import Setheum.Evm.Creation
import Setheum.Evm.CurrencyMapping
import Setheum.Evm.Deposits
import Setheum.Evm.DexExecution
import Setheum.Evm.DexPrecompile
import Setheum.Evm.EvmBridge
import Setheum.Evm.Gas
import Setheum.Evm.Handler
import Setheum.Evm.Input
import Setheum.Evm.Operations
import Setheum.Evm.Oracle
import Setheum.Evm.Precompiles
import Setheum.Evm.ScheduleCall
import Setheum.Evm.ScheduledFees
import Setheum.Evm.ScheduledRefunds
import Setheum.Evm.SetCode
import Setheum.Evm.StaticFrames
import Setheum.Evm.StorageMeter
import Setheum.Evm.World
import Setheum.EvmRpc.Estimates
import Setheum.EvmRpc.Model
import Setheum.EvmRpc.Reverts
import Setheum.Incentives.Accumulation
import Setheum.Incentives.Model
import Setheum.Incentives.Stakes
import Setheum.Lib.Abi
import Setheum.Lib.AppendLog
import Setheum.Lib.Auctions
import Setheum.Lib.BigEndian
import Setheum.Lib.BinarySearch
import Setheum.Lib.Checked
import Setheum.Lib.ConstantProduct
import Setheum.Lib.CountedMap
import Setheum.Lib.DelayedQueue
import Setheum.Lib.Dispatch
import Setheum.Lib.FixedPoint
import Setheum.Lib.Halving
import Setheum.Lib.Index
import Setheum.Lib.Interned
import Setheum.Lib.Ledger
import Setheum.Lib.LogSeries
import Setheum.Lib.Loop
import Setheum.Lib.References
import Setheum.Lib.ReplayGuard
import Setheum.Lib.Reserves
import Setheum.Lib.RoundedProducts
import Setheum.Lib.Run
import Setheum.Lib.RunningTotals
import Setheum.Lib.Scale
import Setheum.Lib.Shares
import Setheum.Lib.StorageMap
import Setheum.Nft.Deposits
import Setheum.Nft.Model
import Setheum.Prices.Model
import Setheum.Prices.Units
import Setheum.Primitives.Currency
import Setheum.Primitives.Encoding
import Setheum.RenVm.Bridge
import Setheum.RenVm.Burning
import Setheum.RenVm.Minting
import Setheum.RewardCurve.Accuracy
import Setheum.RewardCurve.Declaration
import Setheum.RewardCurve.IdealCurve
import Setheum.RewardCurve.Logarithm
import Setheum.RewardCurve.Model
import Setheum.RewardCurve.Parameters
import Setheum.RewardCurve.Points
import Setheum.Serp.Auction
import Setheum.Serp.Bidders
import Setheum.Serp.Bids
import Setheum.Serp.Calls
import Setheum.Serp.Contraction
import Setheum.Serp.Creation
import Setheum.Serp.Elasticity
import Setheum.Serp.Expansion
import Setheum.Serp.Model
import Setheum.Serp.Neutrality
import Setheum.Serp.Sales
import Setheum.Serp.Totals
import Setheum.Serp.Treasury
import Setheum.Settmint.Backing
import Setheum.Settmint.Coverage
import Setheum.Settmint.Model
import Setheum.Settmint.Positions
import Setheum.Settmint.Transfers
import Setheum.Staking.Aging
import Setheum.Staking.Books
import Setheum.Staking.ClaimSearch
import Setheum.Staking.Clock
import Setheum.Staking.DeferredSlashes
import Setheum.Staking.Effects
import Setheum.Staking.Eras
import Setheum.Staking.Issuance
import Setheum.Staking.Ledger
import Setheum.Staking.LedgerSlash
import Setheum.Staking.Model
import Setheum.Staking.OffenceEffects
import Setheum.Staking.Offences
import Setheum.Staking.Payouts
import Setheum.Staking.Rewards
import Setheum.Staking.Roles
import Setheum.Staking.SlashEras
import Setheum.Staking.SlashFunds
import Setheum.Staking.Slashing
import Setheum.Staking.SpanEras
import Setheum.Staking.SpanRecords
import Setheum.Staking.SpanTiling
import Setheum.TransactionPayment.Conservation
import Setheum.TransactionPayment.FeeMultiplier
import Setheum.TransactionPayment.Model
