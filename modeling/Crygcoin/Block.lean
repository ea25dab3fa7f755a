import Crygcoin.Transaction

namespace Crygcoin

structure ParentBlock where
  majorVersion : UInt8
  minorVersion : UInt8
  previousBlockHash : Hash
  transactionCount : UInt16
  baseTransactionBranch : List Hash
  baseTransaction : TransactionPrefix
  blockchainBranch : List Hash
deriving DecidableEq, Repr

/-- `BlockTemplate`: a `BlockHeader` with the merge-mining parent block, the miner
transaction and the hashes of the other transactions. -/
structure BlockTemplate where
  majorVersion : UInt8
  minorVersion : UInt8
  nonce : UInt32
  timestamp : UInt64
  previousBlockHash : Hash
  parentBlock : ParentBlock
  baseTransaction : Transaction
  transactionHashes : List Hash
deriving DecidableEq, Repr

/-- `RawBlock`: the serialized block and its serialized transactions. -/
structure RawBlock where
  block : List UInt8
  transactions : List (List UInt8)
deriving DecidableEq, Repr

/-- `CachedTransaction`, with the hash it caches (`getBinaryArrayHash` of its binary form). -/
structure CachedTransaction where
  transaction : Transaction
  transactionHash : Hash
deriving DecidableEq, Repr

/-- `CachedBlock`, with the hashes it caches: the block hash and the hash of the miner
transaction that `pushBlock` wraps in a `CachedTransaction`. -/
structure CachedBlock where
  block : BlockTemplate
  blockHash : Hash
  baseTransactionHash : Hash
deriving DecidableEq, Repr

/-- `CachedBlock::getBlockIndex`: the height in the single `BaseInput` of the miner
transaction, and `0` for any other shape. -/
def CachedBlock.getBlockIndex (cachedBlock : CachedBlock) : Nat :=
  match cachedBlock.block.baseTransaction.inputs with
  | [.baseInput input] => input.blockIndex.toNat
  | _ => 0

/-- The miner transaction as `pushBlock` caches it. -/
def CachedBlock.baseCachedTransaction (cachedBlock : CachedBlock) : CachedTransaction :=
  ⟨cachedBlock.block.baseTransaction, cachedBlock.baseTransactionHash⟩

end Crygcoin
