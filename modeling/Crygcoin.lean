import Crygcoin.Codec
import Crygcoin.Varint
import Crygcoin.Transaction
import Crygcoin.TransactionSerialization
import Crygcoin.TransactionRoundTrip
import Crygcoin.Forest
import Crygcoin.Block
import Crygcoin.BlockchainCache
import Crygcoin.BlockchainCacheUpdate
import Crygcoin.FlatChain
import Crygcoin.SegmentTree
import Crygcoin.PushBlockSpec
import Crygcoin.SplitSpec
import Crygcoin.SegmentQueries
import Crygcoin.SegmentSteps
import Crygcoin.SegmentStore
import Crygcoin.SegmentRefinement
import Crygcoin.Core
import Crygcoin.CoreChecks
import Crygcoin.CoreInvariant
import Crygcoin.MainChainStorage
import Crygcoin.CheckDifficulty
import Crygcoin.ValidateSemantic
import Crygcoin.CheckedInt64
import Crygcoin.Difficulty
import Crygcoin.TransactionPool
import Crygcoin.KVBinaryInput
import Crygcoin.SubWallet
import Crygcoin.SubWallets
import Crygcoin.TransactionExtra
import Crygcoin.PaymentId
import Crygcoin.BlockSerialization
import Crygcoin.TransfersContainer
import Crygcoin.IntUtil
import Crygcoin.Reward
import Crygcoin.BinaryTree
import Crygcoin.TreeHash
import Crygcoin.Positional
import Crygcoin.Base58
import Crygcoin.SparseChain
import Crygcoin.Decompose
import Crygcoin.AmountText
import Crygcoin.WordList
import Crygcoin.Mnemonics
import Crygcoin.JsonValue
import Crygcoin.WalletJson
import Crygcoin.TransactionPriority
import Crygcoin.CommonRoot
import Crygcoin.DatabaseCache
import Crygcoin.LegacyDifficulty
import Crygcoin.FisherYates
import Crygcoin.ShuffleGenerator
import Crygcoin.RandomOuts
import Crygcoin.UnitsCache
import Crygcoin.KeyOutputs
import Crygcoin.PoolState
import Crygcoin.BlockTemplate
import Crygcoin.CoreNode
import Crygcoin.PeerList
import Crygcoin.HeaviestChain
import Crygcoin.BlockMatching
import Crygcoin.SynchronizationStatus
import Crygcoin.SyncProtocol
import Crygcoin.ChainRequest
import Crygcoin.NodeRuns
import Crygcoin.KVBinaryOutput
import Crygcoin.KVBinaryRoundTrip
import Crygcoin.WalletSyncData
import Crygcoin.Transfer
