import Crygcoin.Checks
import Crygcoin.SegmentTree
import Crygcoin.TransactionSerialization

namespace Crygcoin

/-! `Core`: the segments of the block tree with its leaves, the set of segments of the main chain
and the storage of the main chain's raw blocks; and `Core::addBlock`, which validates a block and
puts it on top of a leaf, on a new leaf on the top block of a segment, or on a new leaf inside a
segment after splitting it. Segments are positions in `chainsStorage`, as in `SegmentTree`.

`addBlock` is cut where the source stops checking and starts changing the state: `addBlockChecks`
returns the error of the first check that fails or the arguments of the `pushBlock` to come, and
`addBlockApply` makes the change. The transaction pool and the observers that `addBlock` notifies
are not modelled. -/

inductive AddBlockErrorCode
  | addedToMain
  | addedToAlternative
  | addedToAlternativeAndSwitched
  | alreadyExists
  | rejectedAsOrphaned
  | deserializationFailed
deriving DecidableEq, Repr

inductive BlockValidationError
  | wrongVersion
  | parentBlockSizeTooBig
  | parentBlockWrongVersion
  | timestampTooFarInFuture
  | timestampTooFarInPast
  | cumulativeBlockSizeTooBig
  | difficultyOverhead
  | blockRewardMismatch
  | checkpointBlockHashMismatch
  | proofOfWorkTooWeak
deriving DecidableEq, Repr

inductive TransactionValidationError
  | emptyInputs
  | inputUnknownType
  | inputEmptyOutputUsage
  | inputInvalidDomainKeyimages
  | inputIdenticalKeyimages
  | inputIdenticalOutputIndexes
  | inputKeyimageAlreadySpent
  | inputInvalidGlobalIndex
  | inputSpendLockedOut
  | inputInvalidSignatures
  | inputWrongSignaturesCount
  | inputsAmountOverflow
  | inputWrongCount
  | inputUnexpectedType
  | baseInputWrongBlockIndex
  | outputZeroAmount
  | outputInvalidKey
  | outputInvalidRequiredSignaturesCount
  | outputUnknownType
  | outputsAmountOverflow
  | wrongAmount
  | wrongTransactionUnlockTime
  | invalidMixin
  | extraTooLarge
  | baseInvalidSignaturesCount
  | inputInvalidSignaturesCount
deriving DecidableEq, Repr

/-- The `std::error_code` of `addBlock`, by its category. -/
inductive AddBlockResult
  | addBlock (code : AddBlockErrorCode)
  | blockValidation (error : BlockValidationError)
  | transactionValidation (error : TransactionValidationError)
deriving DecidableEq, Repr

/-- `Checkpoints`: the hash required at each checkpointed index, a `std::map`. -/
structure Checkpoints where
  points : List (Nat × Hash)
  nodup : (points.map (·.1)).Nodup

namespace Checkpoints

/-- `isInCheckpointZone`: at or below the last checkpoint. -/
def isInCheckpointZone (checkpoints : Checkpoints) (index : Nat) : Bool :=
  match (checkpoints.points.map (·.1)).max? with
  | none => false
  | some last => decide (index ≤ last)

def checkBlock (checkpoints : Checkpoints) (index : Nat) (blockHash : Hash) : Bool :=
  match checkpoints.points.lookup index with
  | none => true
  | some expected => expected == blockHash

end Checkpoints

def medianValue (values : List UInt64) : UInt64 :=
  match values with
  | [] => 0
  | [value] => value
  | _ =>
    let n := values.length / 2
    let sorted := values.mergeSort fun a b => decide (a ≤ b)
    if values.length % 2 = 1 then sorted.getD n 0 else (sorted.getD (n - 1) 0 + sorted.getD n 0) / 2

/-- What `Core::addBlock` reads besides the segments: the currency's parameters and rules, the
upgrade managers, the clock, the hash function and the cryptographic checks of inputs and proof of
work. -/
structure CoreEnvironment where
  checkpoints : Checkpoints
  getBinaryArrayHash : List UInt8 → Hash
  maxTxSize : Nat
  maxBlockCumulativeSize : Nat → Nat
  getBlockMajorVersion : Nat → UInt8
  getBlockMajorVersionForHeight : Nat → UInt8
  /-- The size of `getParentBlockBinaryArray(false)`. -/
  parentBlockSize : CachedBlock → Nat
  adjustedTime : UInt64
  blockFutureTimeLimit : Nat → UInt64
  timestampCheckWindow : Nat → Nat
  minedMoneyUnlockWindow : UInt64
  checkKey : PublicKey → Bool
  difficultyBlocksCountByBlockVersion : UInt8 → Nat → Nat
  getNextDifficulty : UInt8 → Nat → List UInt64 → List UInt64 → UInt64
  validateMixins : List CachedTransaction → Nat → Bool
  validateSemantic : Transaction → Nat → Except TransactionValidationError UInt64
  /-- `extractKeyOutputKeys` and the checks of the ring signature of one key input. -/
  checkKeyInput : List BlockchainCache → CachedTransaction → Nat → KeyInput → Nat → Option TransactionValidationError
  rewardBlocksWindow : Nat
  getBlockReward : UInt8 → UInt64 → Nat → UInt64 → UInt64 → Option (UInt64 × Int64)
  checkProofOfWork : CachedBlock → UInt64 → Bool

def CRYPTONOTE_MINED_MONEY_UNLOCK_WINDOW : Nat := 40

def TRANSACTION_SIGNATURE_COUNT_VALIDATION_HEIGHT : Nat := 1400000

def BLOCK_MAJOR_VERSION_1 : UInt8 := 1

def BLOCK_MAJOR_VERSION_2 : UInt8 := 2

/-- `BlockchainCache::getDifficultyForNextBlock(blockIndex)`, on the segment holding the block and
its ancestors; the timestamps and cumulative difficulties skip the genesis block. -/
def getDifficultyForNextBlock (env : CoreEnvironment) (segments : List BlockchainCache) (blockIndex : Nat) :
    UInt64 :=
  let nextBlockMajorVersion := env.getBlockMajorVersionForHeight (blockIndex + 1)
  let count := env.difficultyBlocksCountByBlockVersion nextBlockMajorVersion blockIndex
  env.getNextDifficulty nextBlockMajorVersion blockIndex (getLastTimestamps segments count blockIndex false)
    (getLastCumulativeDifficulties segments count blockIndex false)

/-- `state.spentKeyImages.insert(keyImage)`: `none` where the key image is there already. -/
def TransactionValidatorState.insert (state : TransactionValidatorState) (keyImage : KeyImage) :
    Option TransactionValidatorState :=
  if h : keyImage ∈ state.spentKeyImages then none
  else some ⟨state.spentKeyImages ++ [keyImage], by
    rw [← List.concat_eq_append]
    exact state.nodup.concat h⟩

/-- `findIndexInChain(blockSegment, blockHash)`: the first segment on the walk from `blockSegment`
to the root that holds the block. -/
def findIndexInChain (store : List BlockchainCache) (blockSegment : Nat) (blockHash : Hash) : Option Nat :=
  (chainFrom BlockchainCache.parent store store.length blockSegment).find? fun q =>
    match store[q]? with
    | none => false
    | some cache => cache.hasBlock blockHash

/-- The state of `Core` that `addBlock` changes. -/
structure CoreState where
  chainsStorage : List BlockchainCache
  chainsLeaves : List Nat
  mainChainSet : List Nat
  mainChainStorage : List RawBlock

/-- The arguments `addBlock` passes to `pushBlock` once every check has passed, with the segment
holding the previous block and that block's index. -/
structure AcceptedBlock where
  segment : Nat
  previousBlockIndex : Nat
  block : PushedBlock

namespace Core

/-- `initRootSegment` on an empty database and a main chain storage holding the genesis block. -/
def init (genesisBlock : CachedBlock) (rawBlock : RawBlock) : CoreState :=
  ⟨[BlockchainCache.createRoot genesisBlock rawBlock], [0], [0], [rawBlock]⟩

/-- `findSegmentContainingBlock(blockHash)`: the main chain first, then the other leaves in order. -/
def findSegmentContainingBlock (state : CoreState) (blockHash : Hash) : Option Nat :=
  match state.chainsLeaves with
  | [] => none
  | mainLeaf :: alternatives =>
    (findIndexInChain state.chainsStorage mainLeaf blockHash).orElse fun _ =>
      alternatives.findSome? fun leaf => findIndexInChain state.chainsStorage leaf blockHash

def hasBlock (state : CoreState) (blockHash : Hash) : Bool :=
  (findSegmentContainingBlock state blockHash).isSome

/-- `updateMainChainSet`: the segments from `chainsLeaves[0]` to the root. -/
def updateMainChainSet (store : List BlockchainCache) (chainsLeaves : List Nat) : List Nat :=
  match chainsLeaves with
  | [] => []
  | mainLeaf :: _ => chainFrom BlockchainCache.parent store store.length mainLeaf

/-- `switchMainChainStorage(splitBlockIndex, newChain)`: pop the stored blocks from
`splitBlockIndex` on, then push those of `newChain` from `splitBlockIndex` to its top. -/
def switchMainChainStorage (mainChainStorage : List RawBlock) (splitBlockIndex : Nat)
    (newChain : List BlockchainCache) : List RawBlock :=
  mainChainStorage.take splitBlockIndex ++
    (List.range' splitBlockIndex (getTopBlockIndex newChain + 1 - splitBlockIndex)).filterMap
      (getBlockByIndex newChain)

/-- `extractTransactions`: every raw transaction within `maxTxSize` and deserialized, with the sum
of the sizes; `none` where the source returns `false`. -/
def extractTransactions (env : CoreEnvironment) : List (List UInt8) → Option (List CachedTransaction × Nat)
  | [] => some ([], 0)
  | rawTransaction :: rawTransactions => do
    if rawTransaction.length > env.maxTxSize then none
    let transaction ← fromBinaryArray rawTransaction
    let (transactions, cumulativeSize) ← extractTransactions env rawTransactions
    pure (⟨transaction, env.getBinaryArrayHash rawTransaction⟩ :: transactions, rawTransaction.length + cumulativeSize)

/-- The output loop of `validateBlock`: the sum of the miner transaction's amounts. -/
def minerReward (env : CoreEnvironment) : UInt64 → List TransactionOutput → Except AddBlockResult UInt64
  | reward, [] => pure reward
  | reward, output :: outputs => do
    failIf (output.amount = 0) (.transactionValidation .outputZeroAmount)
    let .keyOutput keyOutput := output.target
    failIf (env.checkKey keyOutput.key = false) (.transactionValidation .outputInvalidKey)
    failIf (UInt64.ofNat (2 ^ 64 - 1) - output.amount < reward) (.transactionValidation .outputsAmountOverflow)
    minerReward env (reward + output.amount) outputs

/-- The one input of a miner transaction, a `BaseInput`. -/
def baseInput (inputs : List TransactionInput) : Except AddBlockResult BaseInput :=
  match inputs with
  | [.baseInput input] => pure input
  | [.keyInput _] => throw (.transactionValidation .inputUnexpectedType)
  | _ => throw (.transactionValidation .inputWrongCount)

/-- `validateBlock`, on the segment holding the previous block; the timestamps of the window count
the genesis block. It returns the miner reward. -/
def validateBlock (env : CoreEnvironment) (segments : List BlockchainCache) (cachedBlock : CachedBlock)
    (previousBlockIndex : Nat) : Except AddBlockResult UInt64 := do
  let block := cachedBlock.block
  failIf (env.getBlockMajorVersion cachedBlock.getBlockIndex ≠ block.majorVersion) (.blockValidation .wrongVersion)
  -- the two checks of the merge-mined parent block, from `BLOCK_MAJOR_VERSION_2` on
  failIf (block.majorVersion ≥ BLOCK_MAJOR_VERSION_2 ∧ block.majorVersion = BLOCK_MAJOR_VERSION_2 ∧
    block.parentBlock.majorVersion > BLOCK_MAJOR_VERSION_1) (.blockValidation .parentBlockWrongVersion)
  failIf (block.majorVersion ≥ BLOCK_MAJOR_VERSION_2 ∧ env.parentBlockSize cachedBlock > 2048)
    (.blockValidation .parentBlockSizeTooBig)
  failIf (block.timestamp > env.adjustedTime + env.blockFutureTimeLimit (previousBlockIndex + 1))
    (.blockValidation .timestampTooFarInFuture)
  let window := env.timestampCheckWindow (previousBlockIndex + 1)
  let timestamps := getLastTimestamps segments window previousBlockIndex true
  failIf (timestamps.length ≥ window ∧ block.timestamp < medianValue timestamps)
    (.blockValidation .timestampTooFarInPast)
  let input ← baseInput block.baseTransaction.inputs
  failIf (input.blockIndex.toNat ≠ previousBlockIndex + 1) (.transactionValidation .baseInputWrongBlockIndex)
  failIf (block.baseTransaction.unlockTime ≠ UInt64.ofNat (previousBlockIndex + 1) + env.minedMoneyUnlockWindow)
    (.transactionValidation .wrongTransactionUnlockTime)
  failIf (cachedBlock.getBlockIndex ≥ TRANSACTION_SIGNATURE_COUNT_VALIDATION_HEIGHT ∧
    block.baseTransaction.signatures ≠ []) (.transactionValidation .baseInvalidSignaturesCount)
  minerReward env 0 block.baseTransaction.outputs

/-- The checks of one key input that `validateTransaction` makes above the checkpoint zone: the key
image is not spent on the chain up to `blockIndex`, and the ring checks out. -/
def checkKeyInputAboveZone (env : CoreEnvironment) (segments : List BlockchainCache)
    (cachedTransaction : CachedTransaction) (blockIndex inputIndex : Nat) (input : KeyInput) :
    Except TransactionValidationError Unit := do
  failIf (checkIfSpent segments input.keyImage blockIndex = true) .inputKeyimageAlreadySpent
  match env.checkKeyInput segments cachedTransaction inputIndex input blockIndex with
  | some error => throw error
  | none => pure ()

/-- The input loop of `validateTransaction`: every key image goes into the block's validator state,
and is checked against the chain outside the checkpoint zone. -/
def validateInputs (env : CoreEnvironment) (segments : List BlockchainCache) (cachedTransaction : CachedTransaction)
    (blockIndex : Nat) : Nat → TransactionValidatorState → List TransactionInput →
      Except TransactionValidationError TransactionValidatorState
  | _, state, [] => pure state
  | inputIndex, state, .keyInput input :: inputs => do
    let some state := state.insert input.keyImage | throw .inputKeyimageAlreadySpent
    (if env.checkpoints.isInCheckpointZone (blockIndex + 1) then pure ()
      else checkKeyInputAboveZone env segments cachedTransaction blockIndex inputIndex input)
    validateInputs env segments cachedTransaction blockIndex (inputIndex + 1) state inputs
  | _, _, .baseInput _ :: _ => throw .inputUnknownType

/-- `validateTransaction`: the semantic checks, which give the fee, then the inputs. -/
def validateTransaction (env : CoreEnvironment) (segments : List BlockchainCache) (state : TransactionValidatorState)
    (cachedTransaction : CachedTransaction) (blockIndex : Nat) :
    Except TransactionValidationError (TransactionValidatorState × UInt64) := do
  let fee ← env.validateSemantic cachedTransaction.transaction blockIndex
  let state ← validateInputs env segments cachedTransaction blockIndex 0 state cachedTransaction.transaction.inputs
  pure (state, fee)

/-- The transaction loop of `addBlock`, with one validator state for the whole block. -/
def validateTransactions (env : CoreEnvironment) (segments : List BlockchainCache) (blockIndex : Nat) :
    TransactionValidatorState → UInt64 → List CachedTransaction →
      Except AddBlockResult (TransactionValidatorState × UInt64)
  | state, cumulativeFee, [] => pure (state, cumulativeFee)
  | state, cumulativeFee, transaction :: transactions => do
    let (state, fee) ← (validateTransaction env segments state transaction blockIndex).mapError .transactionValidation
    validateTransactions env segments blockIndex state (cumulativeFee + fee) transactions

/-- The last check of `addBlock`: the checkpoint's hash inside the checkpoint zone, the proof of
work above it. -/
def checkCheckpointOrProofOfWork (env : CoreEnvironment) (cachedBlock : CachedBlock) (currentDifficulty : UInt64) :
    Except AddBlockResult Unit :=
  if env.checkpoints.isInCheckpointZone cachedBlock.getBlockIndex then
    failIf (env.checkpoints.checkBlock cachedBlock.getBlockIndex cachedBlock.blockHash = false)
      (.blockValidation .checkpointBlockHashMismatch)
  else failIf (env.checkProofOfWork cachedBlock currentDifficulty = false) (.blockValidation .proofOfWorkTooWeak)

/-- The checks of `addBlock`, in the source's order, up to the proof of work. -/
def addBlockChecks (env : CoreEnvironment) (state : CoreState) (cachedBlock : CachedBlock) (rawBlock : RawBlock) :
    Except AddBlockResult AcceptedBlock := do
  failIf (hasBlock state cachedBlock.blockHash = true) (.addBlock .alreadyExists)
  let previousBlockHash := cachedBlock.block.previousBlockHash
  let some p := findSegmentContainingBlock state previousBlockHash | throw (.addBlock .rejectedAsOrphaned)
  let some (transactions, cumulativeSize) := extractTransactions env rawBlock.transactions
    | throw (.addBlock .deserializationFailed)
  let cumulativeBlockSize := getObjectBinarySize cachedBlock.block.baseTransaction + cumulativeSize
  -- the segment found holds the previous block, so neither lookup fails
  let some cache := state.chainsStorage[p]? | throw (.addBlock .rejectedAsOrphaned)
  let some previousBlockIndex := cache.getBlockIndex previousBlockHash | throw (.addBlock .rejectedAsOrphaned)
  let segments := segmentsOf state.chainsStorage p
  failIf (cumulativeBlockSize > env.maxBlockCumulativeSize (previousBlockIndex + 1))
    (.blockValidation .cumulativeBlockSizeTooBig)
  let minerReward ← validateBlock env segments cachedBlock previousBlockIndex
  let currentDifficulty := getDifficultyForNextBlock env segments previousBlockIndex
  failIf (currentDifficulty = 0) (.blockValidation .difficultyOverhead)
  let blockIndex := cachedBlock.getBlockIndex
  let mixinChangeWindow :=
    if blockIndex > CRYPTONOTE_MINED_MONEY_UNLOCK_WINDOW then blockIndex - CRYPTONOTE_MINED_MONEY_UNLOCK_WINDOW
    else blockIndex
  failIf (env.validateMixins transactions blockIndex = false ∧ env.validateMixins transactions mixinChangeWindow = false)
    (.transactionValidation .invalidMixin)
  let (validatorState, cumulativeFee) ←
    validateTransactions env segments previousBlockIndex ⟨[], List.nodup_nil⟩ 0 transactions
  let alreadyGeneratedCoins := getAlreadyGeneratedCoins segments previousBlockIndex
  let blocksSizeMedian := medianValue (getLastBlocksSizes segments env.rewardBlocksWindow previousBlockIndex true)
  let some (reward, emissionChange) := env.getBlockReward cachedBlock.block.majorVersion blocksSizeMedian
      cumulativeBlockSize alreadyGeneratedCoins cumulativeFee
    | throw (.blockValidation .cumulativeBlockSizeTooBig)
  failIf (minerReward ≠ reward) (.blockValidation .blockRewardMismatch)
  checkCheckpointOrProofOfWork env cachedBlock currentDifficulty
  pure ⟨p, previousBlockIndex,
    ⟨cachedBlock, transactions, validatorState, cumulativeBlockSize, emissionChange.toUInt64, currentDifficulty, rawBlock⟩⟩

/-- `cache->pushBlock(...)` on the segment at `p` with the accepted arguments. -/
def pushAccepted (store : List BlockchainCache) (p : Nat) (block : PushedBlock) : List BlockchainCache :=
  pushBlockAt store p block.cachedBlock block.cachedTransactions block.validatorState block.blockSize
    block.generatedCoins block.blockDifficulty block.rawBlock

def cumulativeDifficultyOf (store : List BlockchainCache) (p : Nat) : UInt64 :=
  (store[p]?.map (·.getCurrentCumulativeDifficulty)).getD 0

/-- The changes `addBlock` makes once the block is accepted: on top of the main leaf; on top of
another leaf, switching to it when it is now heavier than the main leaf; on a new leaf on the top
of a segment with children; or on a new leaf after splitting the segment above the previous block. -/
def addBlockApply (state : CoreState) (accepted : AcceptedBlock) : AddBlockErrorCode × CoreState :=
  let store := state.chainsStorage
  let p := accepted.segment
  let block := accepted.block
  match store[p]? with
  | none => (.addedToAlternative, state)
  | some cache =>
    if cache.getTopBlockIndex = accepted.previousBlockIndex then
      if cache.getChildCount = 0 then
        let store := pushAccepted store p block
        if state.chainsLeaves.head? = some p then
          (.addedToMain, { state with
            chainsStorage := store
            mainChainStorage := state.mainChainStorage ++ [block.rawBlock] })
        else
          let mainChainCache := state.chainsLeaves.headD p
          if cumulativeDifficultyOf store p > cumulativeDifficultyOf store mainChainCache then
            let endpointIndex := state.chainsLeaves.idxOf p
            let chainsLeaves := (state.chainsLeaves.set 0 p).set endpointIndex mainChainCache
            let startBlockIndex := (store[p]?.map (·.startIndex)).getD 0
            (.addedToAlternativeAndSwitched,
              ⟨store, chainsLeaves, updateMainChainSet store chainsLeaves,
                switchMainChainStorage state.mainChainStorage startBlockIndex (segmentsOf store p)⟩)
          else (.addedToAlternative, { state with chainsStorage := store })
      else
        -- a second block on the top of a segment that has children: a new leaf
        let newCache := store.length
        let store := pushAccepted (forkSegment store p (accepted.previousBlockIndex + 1)) newCache block
        let chainsLeaves := state.chainsLeaves ++ [newCache]
        (.addedToAlternative, ⟨store, chainsLeaves, updateMainChainSet store chainsLeaves, state.mainChainStorage⟩)
    else
      let splitBlockIndex := accepted.previousBlockIndex + 1
      let upperSegment := store.length
      -- the upper part takes over the segment's place among the leaves when it has no children
      let chainsLeaves :=
        if (cache.split p upperSegment splitBlockIndex).2.getChildCount = 0 then
          state.chainsLeaves.replace p upperSegment
        else state.chainsLeaves
      let newCache := store.length + 1
      let store := pushAccepted (forkSegment (splitSegment store p splitBlockIndex) p splitBlockIndex) newCache block
      let chainsLeaves := chainsLeaves ++ [newCache]
      (.addedToAlternative, ⟨store, chainsLeaves, updateMainChainSet store chainsLeaves, state.mainChainStorage⟩)

def addBlock (env : CoreEnvironment) (state : CoreState) (cachedBlock : CachedBlock) (rawBlock : RawBlock) :
    AddBlockResult × CoreState :=
  match addBlockChecks env state cachedBlock rawBlock with
  | .error error => (error, state)
  | .ok accepted =>
    let (code, state) := addBlockApply state accepted
    (.addBlock code, state)

end Core

end Crygcoin
