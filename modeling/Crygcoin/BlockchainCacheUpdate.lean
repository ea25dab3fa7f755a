import Crygcoin.BlockchainCache
import Crygcoin.TransactionSerialization

namespace Crygcoin

/-- `TransactionValidatorState`: the key images spent by the transactions of one block, an
`std::unordered_set`. -/
structure TransactionValidatorState where
  spentKeyImages : List KeyImage
  nodup : spentKeyImages.Nodup

namespace BlockchainCache

/-- `addSpentKeyImage`: the key-image index of `spentKeyImages` is unique, so a key image this
segment already records keeps its first block. -/
def addSpentKeyImage (cache : BlockchainCache) (keyImage : KeyImage) (blockIndex : Nat) :
    BlockchainCache :=
  if cache.spentKeyImages.any (·.keyImage == keyImage) then cache
  else { cache with spentKeyImages := cache.spentKeyImages ++ [⟨blockIndex, keyImage⟩] }

def addSpentKeyImages (cache : BlockchainCache) (keyImages : List KeyImage) (blockIndex : Nat) :
    BlockchainCache :=
  keyImages.foldl (fun cache keyImage => cache.addSpentKeyImage keyImage blockIndex) cache

/-- `insertKeyOutputToGlobalIndex`: appends the output to the entry of its amount and returns
its global index; a new entry starts where the parent's count for the amount ends. -/
def insertKeyOutputToGlobalIndex (parents : List BlockchainCache) (cache : BlockchainCache)
    (amount : UInt64) (output : PackedOutIndex) (blockIndex : Nat) : BlockchainCache × Nat :=
  match cache.findKeyOutputs amount with
  | some indexEntry =>
    let indexEntry := { indexEntry with outputs := indexEntry.outputs ++ [output] }
    ({ cache with
        keyOutputsGlobalIndexes := cache.keyOutputsGlobalIndexes.map fun entry =>
          if entry.1 = amount then (amount, indexEntry) else entry },
      indexEntry.startIndex + indexEntry.outputs.length - 1)
  | none =>
    let startIndex := if parents.isEmpty then 0 else getKeyOutputsCountForAmount parents amount blockIndex
    ({ cache with keyOutputsGlobalIndexes := cache.keyOutputsGlobalIndexes ++ [(amount, ⟨startIndex, [output]⟩)] },
      startIndex + 1 - 1)

/-- The output loop of `pushTransaction`; every target is a `KeyOutput`, so every output gets a
global index. -/
def pushOutputs (parents : List BlockchainCache) (blockIndex transactionIndex : Nat) :
    BlockchainCache → Nat → List TransactionOutput → BlockchainCache × List Nat
  | cache, _, [] => (cache, [])
  | cache, outputIndex, output :: outputs =>
    let (cache, globalIndex) := cache.insertKeyOutputToGlobalIndex parents output.amount
      ⟨blockIndex, transactionIndex, outputIndex⟩ blockIndex
    let (cache, globalIndexes) := pushOutputs parents blockIndex transactionIndex cache (outputIndex + 1) outputs
    (cache, globalIndex :: globalIndexes)

/-- `pushTransaction`. The transaction container is unique on the transaction hash and on the
position in the block, so a second transaction with a known hash is not recorded; its outputs
are indexed all the same. -/
def pushTransaction (parents : List BlockchainCache) (cache : BlockchainCache)
    (cachedTransaction : CachedTransaction) (blockIndex transactionInBlockIndex : Nat) : BlockchainCache :=
  let tx := cachedTransaction.transaction
  let (cache, globalIndexes) := pushOutputs parents blockIndex transactionInBlockIndex cache 0 tx.outputs
  let transactionCacheInfo : CachedTransactionInfo :=
    ⟨blockIndex, transactionInBlockIndex, cachedTransaction.transactionHash, tx.unlockTime,
      tx.outputs.map (·.target), globalIndexes⟩
  if cache.transactions.any fun info => info.transactionHash == transactionCacheInfo.transactionHash ||
      (info.blockIndex == blockIndex && info.transactionIndex == transactionInBlockIndex) then cache
  else { cache with transactions := cache.transactions ++ [transactionCacheInfo] }

def pushTransactions (parents : List BlockchainCache) (blockIndex : Nat) :
    BlockchainCache → Nat → List CachedTransaction → BlockchainCache
  | cache, _, [] => cache
  | cache, transactionIndex, cachedTransaction :: cachedTransactions =>
    pushTransactions parents blockIndex (cache.pushTransaction parents cachedTransaction blockIndex transactionIndex)
      (transactionIndex + 1) cachedTransactions

/-- The running totals `doPushBlock` stores with a block: its cumulative difficulty, the coins
and the transactions generated up to it. An empty segment starts from its parent's values at
the block below. -/
def nextTotals (parents : List BlockchainCache) (cache : BlockchainCache) (blockIndex : Nat)
    (transactionCount : Nat) (generatedCoins blockDifficulty : UInt64) : UInt64 × UInt64 × UInt64 :=
  match cache.blockInfos.getLast? with
  | some lastBlockInfo =>
    (lastBlockInfo.cumulativeDifficulty + blockDifficulty,
      lastBlockInfo.alreadyGeneratedCoins + generatedCoins,
      lastBlockInfo.alreadyGeneratedTransactions + UInt64.ofNat (transactionCount + 1))
  | none =>
    let (cumulativeDifficulty, alreadyGeneratedCoins, alreadyGeneratedTransactions) :=
      match parents with
      | [] => ((0 : UInt64), (0 : UInt64), (0 : UInt64))
      | parent :: _ =>
        (parent.getCurrentCumulativeDifficultyAt (blockIndex - 1),
          getAlreadyGeneratedCoins parents (blockIndex - 1),
          getAlreadyGeneratedTransactions parents (blockIndex - 1))
    (cumulativeDifficulty + blockDifficulty, alreadyGeneratedCoins + generatedCoins,
      alreadyGeneratedTransactions + UInt64.ofNat (transactionCount + 1))

/-- `doPushBlock`, which `pushBlock` calls. `parents` is the chain of ancestors. -/
def doPushBlock (parents : List BlockchainCache) (cache : BlockchainCache) (cachedBlock : CachedBlock)
    (cachedTransactions : List CachedTransaction) (validatorState : TransactionValidatorState)
    (blockSize : Nat) (generatedCoins blockDifficulty : UInt64) (rawBlock : RawBlock) : BlockchainCache :=
  let blockIndex := cachedBlock.getBlockIndex
  let (cumulativeDifficulty, alreadyGeneratedCoins, alreadyGeneratedTransactions) :=
    nextTotals parents cache blockIndex cachedTransactions.length generatedCoins blockDifficulty
  let blockInfo : CachedBlockInfo := ⟨cachedBlock.blockHash, cachedBlock.block.timestamp,
    cumulativeDifficulty, alreadyGeneratedCoins, alreadyGeneratedTransactions, UInt32.ofNat blockSize⟩
  let cache := { cache with blockInfos := cache.blockInfos ++ [blockInfo] }
  let cache := cache.addSpentKeyImages validatorState.spentKeyImages blockIndex
  let cache := cache.pushTransaction parents cachedBlock.baseCachedTransaction blockIndex 0
  let cache := pushTransactions parents blockIndex cache 1 cachedTransactions
  { cache with storage := cache.storage ++ [rawBlock] }

def pushBlock (parents : List BlockchainCache) (cache : BlockchainCache) (cachedBlock : CachedBlock)
    (cachedTransactions : List CachedTransaction) (validatorState : TransactionValidatorState)
    (blockSize : Nat) (generatedCoins blockDifficulty : UInt64) (rawBlock : RawBlock) : BlockchainCache :=
  doPushBlock parents cache cachedBlock cachedTransactions validatorState blockSize generatedCoins
    blockDifficulty rawBlock

/-- `splitGlobalIndexes` with the `lower_bound` of `splitKeyOutputsGlobalIndexes`: the outputs of
each amount from `splitBlockIndex` on move to the upper part, which counts them from where the
lower part ends; an entry left empty on either side is dropped. The outputs of an amount are
sorted by block, so the `lower_bound` is the length of the prefix below the split. -/
def splitGlobalIndexes (splitBlockIndex : Nat) :
    List (UInt64 × OutputGlobalIndexesForAmount) →
      List (UInt64 × OutputGlobalIndexesForAmount) × List (UInt64 × OutputGlobalIndexesForAmount)
  | [] => ([], [])
  | (amount, entry) :: rest =>
    let (source, destination) := splitGlobalIndexes splitBlockIndex rest
    let lowerBound := (entry.outputs.takeWhile (·.blockIndex < splitBlockIndex)).length
    let newCacheOutputsCount := entry.outputs.length - lowerBound
    let indexesForAmount : OutputGlobalIndexesForAmount :=
      ⟨entry.startIndex + entry.outputs.length - newCacheOutputsCount, entry.outputs.drop lowerBound⟩
    let remaining := entry.outputs.take lowerBound
    (if remaining.isEmpty then source else (amount, { entry with outputs := remaining }) :: source,
      if indexesForAmount.outputs.isEmpty then destination else (amount, indexesForAmount) :: destination)

/-- `split(splitBlockIndex)`: the lower part, which keeps the blocks below `splitBlockIndex`
and has the upper part, stored at `upper`, as its only child, and the upper part, whose parent
is the segment itself at `self` and which takes over its children. -/
def split (cache : BlockchainCache) (self upper splitBlockIndex : Nat) : BlockchainCache × BlockchainCache :=
  let bound := splitBlockIndex - cache.startIndex
  let (lowerOutputs, upperOutputs) := splitGlobalIndexes splitBlockIndex cache.keyOutputsGlobalIndexes
  ({ cache with
      transactions := cache.transactions.filter (·.blockIndex < splitBlockIndex)
      spentKeyImages := cache.spentKeyImages.filter (·.blockIndex < splitBlockIndex)
      blockInfos := cache.blockInfos.take bound
      keyOutputsGlobalIndexes := lowerOutputs
      storage := cache.storage.take bound
      children := [upper] },
    { parent := some self
      startIndex := splitBlockIndex
      transactions := cache.transactions.filter (splitBlockIndex ≤ ·.blockIndex)
      spentKeyImages := cache.spentKeyImages.filter (splitBlockIndex ≤ ·.blockIndex)
      blockInfos := cache.blockInfos.drop bound
      keyOutputsGlobalIndexes := upperOutputs
      storage := cache.storage.drop bound
      children := cache.children })

/-- The root constructor, `parent == nullptr`: the currency's genesis block pushed on an empty
segment at index 0, with no other transaction, the sum of its miner outputs as the generated coins
and difficulty 1. `rawBlock` is `toBinaryArray(genesisBlock.getBlock())`. -/
def createRoot (genesisBlock : CachedBlock) (rawBlock : RawBlock) : BlockchainCache :=
  let minerReward := genesisBlock.block.baseTransaction.outputs.foldl (fun reward output => reward + output.amount) 0
  let coinbaseTransactionSize := getObjectBinarySize genesisBlock.block.baseTransaction
  (create none 0).pushBlock [] genesisBlock [] ⟨[], List.nodup_nil⟩ coinbaseTransactionSize minerReward 1 rawBlock

def addChild (cache : BlockchainCache) (child : Nat) : BlockchainCache :=
  { cache with children := cache.children ++ [child] }

end BlockchainCache

end Crygcoin
