import Crygcoin.Block

namespace Crygcoin

/-! `BlockchainCache.h`. Block indexes, transaction and output positions and global output
indexes (`uint32_t`, `uint16_t` in the source) are `Nat`: no chain of the model reaches
`2 ^ 32` blocks. Amounts, timestamps and the cumulative values are `uint64_t` and wrap. -/

structure SpentKeyImage where
  blockIndex : Nat
  keyImage : KeyImage
deriving DecidableEq, Repr

structure CachedTransactionInfo where
  blockIndex : Nat
  transactionIndex : Nat
  transactionHash : Hash
  unlockTime : UInt64
  outputs : List TransactionOutputTarget
  globalIndexes : List Nat
deriving DecidableEq, Repr

structure CachedBlockInfo where
  blockHash : Hash
  timestamp : UInt64
  cumulativeDifficulty : UInt64
  alreadyGeneratedCoins : UInt64
  alreadyGeneratedTransactions : UInt64
  blockSize : UInt32
deriving DecidableEq, Repr

structure PackedOutIndex where
  blockIndex : Nat
  transactionIndex : Nat
  outputIndex : Nat
deriving DecidableEq, Repr

/-- The outputs of one amount held by a segment; the global index of `outputs[i]` is
`startIndex + i`. -/
structure OutputGlobalIndexesForAmount where
  startIndex : Nat
  outputs : List PackedOutIndex
deriving DecidableEq, Repr

/-- One segment of the block tree. `parent` and `children` are positions in
`Core::chainsStorage`. The `boost::multi_index` containers are lists (`spentKeyImages`
keeps at most one record per key image), `keyOutputsGlobalIndexes` is the `std::map` as an
association list with one entry per amount. -/
structure BlockchainCache where
  parent : Option Nat
  startIndex : Nat
  transactions : List CachedTransactionInfo
  spentKeyImages : List SpentKeyImage
  blockInfos : List CachedBlockInfo
  keyOutputsGlobalIndexes : List (UInt64 × OutputGlobalIndexesForAmount)
  storage : List RawBlock
  children : List Nat
deriving DecidableEq, Repr

namespace BlockchainCache

/-- The empty segment `createBlockchainCache(currency, parent, startIndex)` builds. -/
def create (parent : Option Nat) (startIndex : Nat) : BlockchainCache :=
  ⟨parent, startIndex, [], [], [], [], [], []⟩

def getBlockCount (cache : BlockchainCache) : Nat :=
  cache.blockInfos.length

def getTopBlockIndex (cache : BlockchainCache) : Nat :=
  cache.startIndex + cache.blockInfos.length - 1

def getChildCount (cache : BlockchainCache) : Nat :=
  cache.children.length

def hasBlock (cache : BlockchainCache) (blockHash : Hash) : Bool :=
  cache.blockInfos.any (·.blockHash == blockHash)

/-- `getBlockIndex`; `none` where the source throws "no such block". -/
def getBlockIndex (cache : BlockchainCache) (blockHash : Hash) : Option Nat :=
  (cache.blockInfos.findIdx? (·.blockHash == blockHash)).map (· + cache.startIndex)

def getCurrentCumulativeDifficulty (cache : BlockchainCache) : UInt64 :=
  (cache.blockInfos.getLast?.map (·.cumulativeDifficulty)).getD 0

/-- `getCurrentCumulativeDifficulty(blockIndex)` reads this segment only. -/
def getCurrentCumulativeDifficultyAt (cache : BlockchainCache) (blockIndex : Nat) : UInt64 :=
  (cache.blockInfos[blockIndex - cache.startIndex]?.map (·.cumulativeDifficulty)).getD 0

def findSpentKeyImage (cache : BlockchainCache) (keyImage : KeyImage) : Option SpentKeyImage :=
  cache.spentKeyImages.find? (·.keyImage == keyImage)

def findKeyOutputs (cache : BlockchainCache) (amount : UInt64) : Option OutputGlobalIndexesForAmount :=
  cache.keyOutputsGlobalIndexes.lookup amount

end BlockchainCache

/-! Queries that follow the `parent` pointer. They take the segment followed by its
ancestors, so the recursion of the source on `parent` is a recursion on that list and
`parent == nullptr` is the empty tail. -/

def getTopBlockIndex : List BlockchainCache → Nat
  | [] => 0
  | cache :: _ => cache.getTopBlockIndex

/-- The entry for `blockIndex` of a per-block container, read in the segment that holds the
block: the recursion `getBlockHash`, `getAlreadyGeneratedCoins`,
`getAlreadyGeneratedTransactions` and `getBlockByIndex` share. -/
def blockEntry {α : Type} (field : BlockchainCache → List α) : List BlockchainCache → Nat → Option α
  | [], _ => none
  | cache :: parents, blockIndex =>
    if blockIndex < cache.startIndex then blockEntry field parents blockIndex
    else (field cache)[blockIndex - cache.startIndex]?

def getBlockHash (segments : List BlockchainCache) (blockIndex : Nat) : Option Hash :=
  (blockEntry (·.blockInfos) segments blockIndex).map (·.blockHash)

def getBlockHashes : List BlockchainCache → Nat → Nat → List Hash
  | [], _, _ => []
  | cache :: parents, startBlockIndex, maxCount =>
    if startBlockIndex < cache.startIndex then
      let hashes := getBlockHashes parents startBlockIndex maxCount
      let blocksLeft := min (maxCount - hashes.length) cache.blockInfos.length
      hashes ++ (cache.blockInfos.take blocksLeft).map (·.blockHash)
    else
      let start := startBlockIndex - cache.startIndex
      let blocksLeft := min (cache.blockInfos.length - start) maxCount
      ((cache.blockInfos.drop start).take blocksLeft).map (·.blockHash)

/-- `getLastUnits(count, blockIndex, useGenesis, pred)`: only the root skips the genesis
block, and the parent is asked for what this segment lacks. -/
def getLastUnits : List BlockchainCache → Nat → Nat → Bool → (CachedBlockInfo → UInt64) → List UInt64
  | [], _, _, _, _ => []
  | cache :: parents, count, blockIndex, useGenesis, pred =>
    let to_ := if blockIndex < cache.startIndex then 0 else blockIndex - cache.startIndex + 1
    let realCount := min count to_
    let start := to_ - realCount
    let skip := !useGenesis && start == 0 && realCount != 0 && parents.isEmpty
    let start := if skip then start + 1 else start
    let realCount := if skip then realCount - 1 else realCount
    let result :=
      if realCount < count && !parents.isEmpty then
        getLastUnits parents (count - realCount) (min blockIndex (getTopBlockIndex parents)) useGenesis pred
      else []
    result ++ ((cache.blockInfos.drop start).take (to_ - start)).map pred

def getLastTimestamps (segments : List BlockchainCache) (count blockIndex : Nat) (useGenesis : Bool) :
    List UInt64 :=
  getLastUnits segments count blockIndex useGenesis (·.timestamp)

def getLastCumulativeDifficulties (segments : List BlockchainCache) (count blockIndex : Nat)
    (useGenesis : Bool) : List UInt64 :=
  getLastUnits segments count blockIndex useGenesis (·.cumulativeDifficulty)

def getLastBlocksSizes (segments : List BlockchainCache) (count blockIndex : Nat) (useGenesis : Bool) :
    List UInt64 :=
  getLastUnits segments count blockIndex useGenesis (fun info => info.blockSize.toUInt64)

def checkIfSpent : List BlockchainCache → KeyImage → Nat → Bool
  | [], _, _ => false
  | cache :: parents, keyImage, blockIndex =>
    if blockIndex < cache.startIndex then checkIfSpent parents keyImage blockIndex
    else match cache.findSpentKeyImage keyImage with
      | none => checkIfSpent parents keyImage blockIndex
      | some spent => decide (spent.blockIndex ≤ blockIndex)

def getKeyOutputsCountForAmount : List BlockchainCache → UInt64 → Nat → Nat
  | [], _, _ => 0
  | cache :: parents, amount, blockIndex =>
    match cache.findKeyOutputs amount with
    | none => getKeyOutputsCountForAmount parents amount blockIndex
    | some entry => entry.startIndex + (entry.outputs.takeWhile (·.blockIndex < blockIndex)).length

/-- `getAlreadyGeneratedCoins`; `0` where the source's `at` throws. -/
def getAlreadyGeneratedCoins (segments : List BlockchainCache) (blockIndex : Nat) : UInt64 :=
  ((blockEntry (·.blockInfos) segments blockIndex).map (·.alreadyGeneratedCoins)).getD 0

def getAlreadyGeneratedTransactions (segments : List BlockchainCache) (blockIndex : Nat) : UInt64 :=
  ((blockEntry (·.blockInfos) segments blockIndex).map (·.alreadyGeneratedTransactions)).getD 0

def getBlockByIndex (segments : List BlockchainCache) (index : Nat) : Option RawBlock :=
  blockEntry (·.storage) segments index

end Crygcoin
