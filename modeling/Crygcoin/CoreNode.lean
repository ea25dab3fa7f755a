import Crygcoin.PoolState
import Crygcoin.Reward

namespace Crygcoin

/-! `Core` with its transaction pool and `blockMedianSize`: `addBlock` as the source runs it. Its
checks and its changes to the segments are those of `Core.addBlock`; after a block on the main chain
it recomputes the median and drops the pool transactions the block conflicts with
(`actualizePoolTransactionsLite`), after a switch of the main chain it recomputes the median, offers
every pool transaction again (`actualizePoolTransactions`) and offers the transactions of the old main
chain (`copyTransactionsToPool`), and a new leaf on a segment with children recomputes the median. -/

/-- The environment of a `Core` whose reward rule is `Currency::getBlockReward` of its currency; the
cumulative size, a `size_t`, is passed as the `uint64_t` it is. -/
def CoreEnvironment.withCurrency (env : CoreEnvironment) (currency : Currency) : CoreEnvironment :=
  { env with
    getBlockReward := fun blockMajorVersion medianSize currentBlockSize alreadyGeneratedCoins fee =>
      currency.getBlockReward blockMajorVersion medianSize (UInt64.ofNat currentBlockSize) alreadyGeneratedCoins fee }

/-- The members of `Core` that `addBlock` changes. -/
structure CoreNode where
  state : CoreState
  pool : TransactionPoolCleanWrapper
  blockMedianSize : Nat

namespace Core

/-- `updateBlockMedianSize()`: the median of the last block sizes of the main chain, skipping the
genesis block, and at least the full reward zone of the next block's version. -/
def updateBlockMedianSize (env : CoreEnvironment) (currency : Currency) (state : CoreState) : Nat :=
  let topBlockIndex := getTopBlockIndex (mainChain state)
  let nextBlockGrantedFullRewardZone :=
    currency.blockGrantedFullRewardZoneByBlockVersion (env.getBlockMajorVersion (topBlockIndex + 1))
  max (medianValue (getLastBlocksSizes (mainChain state) env.rewardBlocksWindow topBlockIndex false)).toNat
    nextBlockGrantedFullRewardZone.toNat

/-- `getRawTransactions(getTransactionHashes())` of one segment: the stored bytes of the
transactions of its blocks, the miner transactions skipped. The hash index of the source walks them
in an order it leaves unspecified; this is the order of the segment's records. -/
def rawTransactionsOf (cache : BlockchainCache) : List (List UInt8) :=
  (cache.transactions.filter (·.transactionIndex ≠ 0)).filterMap fun info =>
    (cache.storage[info.blockIndex - cache.startIndex]?).bind fun rawBlock =>
      rawBlock.transactions[info.transactionIndex - 1]?

/-- `addTransactionToPool(transactionBinaryArray)`: the transaction deserialized and cached with the
hash of its binary form. -/
def addRawTransactionToPool (env : CoreEnvironment) (limits : PoolLimits) (state : CoreState) (now : UInt64)
    (wrapper : TransactionPoolCleanWrapper) (rawTransaction : List UInt8) : TransactionPoolCleanWrapper :=
  match fromBinaryArray rawTransaction with
  | none => wrapper
  | some transaction =>
    (addTransactionToPool env limits state wrapper now
      ⟨transaction, env.getBinaryArrayHash ((toBinaryArray transaction).getD [])⟩).2

/-- `copyTransactionsToPool(alt)`: the segments from `alt` towards the root up to the first on the
main chain offer their transactions to the pool. -/
def copyTransactionsToPool (env : CoreEnvironment) (limits : PoolLimits) (state : CoreState) (now : UInt64)
    (alt : Nat) (wrapper : TransactionPoolCleanWrapper) : TransactionPoolCleanWrapper :=
  ((chainFrom BlockchainCache.parent state.chainsStorage state.chainsStorage.length alt).takeWhile
      (· ∉ state.mainChainSet)).foldl
    (fun wrapper q => match state.chainsStorage[q]? with
      | none => wrapper
      | some cache => (rawTransactionsOf cache).foldl (addRawTransactionToPool env limits state now) wrapper)
    wrapper

/-- `addBlock` once its checks have passed: the changes of `addBlockApply` to the segments, then
`blockMedianSize` and the pool in the branches that update them. Where the pool fails to find one of
its own hashes, which an assert of the source rules out, the pool is kept. -/
def applyAcceptedToNode (env : CoreEnvironment) (currency : Currency) (poolCurrency : PoolCurrency) (now : UInt64)
    (node : CoreNode) (accepted : AcceptedBlock) : AddBlockErrorCode × CoreNode :=
  let (code, state) := addBlockApply node.state accepted
  let blockMedianSize := updateBlockMedianSize env currency state
  let limits : PoolLimits := ⟨poolCurrency, blockMedianSize⟩
  -- the branch of a new leaf on the top block of a segment with children updates the median too
  let forked := match node.state.chainsStorage[accepted.segment]? with
    | some cache => decide (cache.getTopBlockIndex = accepted.previousBlockIndex) && decide (cache.getChildCount ≠ 0)
    | none => false
  match code with
  | .addedToMain =>
    let pool := (actualizePoolTransactionsLite (getMaximumTransactionAllowedSize blockMedianSize poolCurrency)
      accepted.block.validatorState node.pool).getD node.pool
    (code, ⟨state, pool, blockMedianSize⟩)
  | .addedToAlternativeAndSwitched =>
    -- after the swap `chainsLeaves[endpointIndex]` is the old main leaf
    let oldMainLeaf := node.state.chainsLeaves.headD accepted.segment
    let pool := (actualizePoolTransactions env limits state now node.pool).getD node.pool
    (code, ⟨state, copyTransactionsToPool env limits state now oldMainLeaf pool, blockMedianSize⟩)
  | _ => (code, ⟨state, node.pool, if forked then blockMedianSize else node.blockMedianSize⟩)

end Core

namespace CoreNode

/-- `Core` once `load()` has found only the genesis block: the root segment, a new pool whose
transactions live `timeout` seconds (`mempoolTxLiveTime()`), and the median `initRootSegment`
computes. -/
def init (env : CoreEnvironment) (currency : Currency) (genesisBlock : CachedBlock) (rawBlock : RawBlock)
    (timeout : UInt64) : CoreNode :=
  ⟨Core.init genesisBlock rawBlock, TransactionPoolCleanWrapper.new timeout,
    Core.updateBlockMedianSize env currency (Core.init genesisBlock rawBlock)⟩

/-- `Core::addTransactionToPool(cachedTransaction)` on the node, the pool reading the clock as `now`. -/
def addTransactionToPool (env : CoreEnvironment) (poolCurrency : PoolCurrency) (now : UInt64) (node : CoreNode)
    (cachedTransaction : CachedTransaction) : Bool × CoreNode :=
  let added := Core.addTransactionToPool env ⟨poolCurrency, node.blockMedianSize⟩ node.state node.pool now
    cachedTransaction
  (added.1, { node with pool := added.2 })

/-- `transactionPool->removeTransaction(hash)`, as `fillBlockTemplate` calls it on a pool transaction
it cannot take. -/
def removeTransaction (node : CoreNode) (hash : Hash) : Bool × CoreNode :=
  let removed := node.pool.removeTransaction hash
  (removed.1, { node with pool := removed.2 })

/-- One round of `transactionPoolCleaningProcedure`: `clean(getTopBlockIndex())` at the time `now`. -/
def cleanTransactionPool (node : CoreNode) (now : UInt64) : Except Hash (List Hash × CoreNode) :=
  (node.pool.clean (getTopBlockIndex (Core.mainChain node.state)) now).map fun (deleted, pool) =>
    (deleted, { node with pool := pool })

/-- `Core::addBlock(cachedBlock, rawBlock)` on the node, rewarding blocks by its currency, the pool
reading the clock as `now`. -/
def addBlock (env : CoreEnvironment) (currency : Currency) (poolCurrency : PoolCurrency) (now : UInt64)
    (node : CoreNode) (cachedBlock : CachedBlock) (rawBlock : RawBlock) : AddBlockResult × CoreNode :=
  match Core.addBlockChecks (env.withCurrency currency) node.state cachedBlock rawBlock with
  | .error error => (error, node)
  | .ok accepted =>
    let (code, node) := Core.applyAcceptedToNode env currency poolCurrency now node accepted
    (.addBlock code, node)

section Frame

variable (env : CoreEnvironment) (currency : Currency) (poolCurrency : PoolCurrency) (now : UInt64)
  (node : CoreNode) (cachedBlock : CachedBlock) (rawBlock : RawBlock)

/-- Whatever the branch, the code and the segments are those of `addBlockApply`; only the pool and
the median differ. -/
theorem applyAcceptedToNode_eq (accepted : AcceptedBlock) :
    ∃ pool blockMedianSize, Core.applyAcceptedToNode env currency poolCurrency now node accepted =
      ((Core.addBlockApply node.state accepted).1, ⟨(Core.addBlockApply node.state accepted).2, pool, blockMedianSize⟩) := by
  unfold Core.applyAcceptedToNode
  generalize Core.addBlockApply node.state accepted = applied
  obtain ⟨code, state⟩ := applied
  cases code <;> exact ⟨_, _, rfl⟩

theorem applyAcceptedToNode_fst (accepted : AcceptedBlock) :
    (Core.applyAcceptedToNode env currency poolCurrency now node accepted).1 = (Core.addBlockApply node.state accepted).1 := by
  obtain ⟨pool, blockMedianSize, happlied⟩ := applyAcceptedToNode_eq env currency poolCurrency now node accepted
  rw [happlied]

theorem applyAcceptedToNode_state (accepted : AcceptedBlock) :
    (Core.applyAcceptedToNode env currency poolCurrency now node accepted).2.state =
      (Core.addBlockApply node.state accepted).2 := by
  obtain ⟨pool, blockMedianSize, happlied⟩ := applyAcceptedToNode_eq env currency poolCurrency now node accepted
  rw [happlied]

/-- The pool after an accepted block, by the code of the block: filtered after a block on the main
chain, actualized and refilled from the old main chain after a switch, and kept otherwise. -/
theorem applyAcceptedToNode_pool (accepted : AcceptedBlock) :
    let applied := Core.addBlockApply node.state accepted
    let limits : PoolLimits := ⟨poolCurrency, Core.updateBlockMedianSize env currency applied.2⟩
    let pool := (Core.applyAcceptedToNode env currency poolCurrency now node accepted).2.pool
    applied.1 = .addedToMain ∧
        pool = (Core.actualizePoolTransactionsLite (getMaximumTransactionAllowedSize limits.blockMedianSize poolCurrency)
          accepted.block.validatorState node.pool).getD node.pool ∨
      applied.1 = .addedToAlternativeAndSwitched ∧
        pool = Core.copyTransactionsToPool env limits applied.2 now (node.state.chainsLeaves.headD accepted.segment)
          ((Core.actualizePoolTransactions env limits applied.2 now node.pool).getD node.pool) ∨
      applied.1 = .addedToAlternative ∧ pool = node.pool := by
  have hcode := Core.addBlockApply_fst node.state accepted
  dsimp only
  unfold Core.applyAcceptedToNode
  generalize Core.addBlockApply node.state accepted = result at hcode ⊢
  obtain ⟨code, state⟩ := result
  rcases hcode with hcode | hcode | hcode <;> subst hcode
  · exact .inl ⟨rfl, rfl⟩
  · exact .inr (.inr ⟨rfl, rfl⟩)
  · exact .inr (.inl ⟨rfl, rfl⟩)

theorem addBlock_fst :
    (addBlock env currency poolCurrency now node cachedBlock rawBlock).1 =
      (Core.addBlock (env.withCurrency currency) node.state cachedBlock rawBlock).1 := by
  unfold addBlock Core.addBlock
  cases Core.addBlockChecks (env.withCurrency currency) node.state cachedBlock rawBlock with
  | error error => rfl
  | ok accepted => exact congrArg AddBlockResult.addBlock (applyAcceptedToNode_fst env currency poolCurrency now node accepted)

theorem addBlock_state :
    (addBlock env currency poolCurrency now node cachedBlock rawBlock).2.state =
      (Core.addBlock (env.withCurrency currency) node.state cachedBlock rawBlock).2 := by
  unfold addBlock Core.addBlock
  cases Core.addBlockChecks (env.withCurrency currency) node.state cachedBlock rawBlock with
  | error error => rfl
  | ok accepted => exact applyAcceptedToNode_state env currency poolCurrency now node accepted

end Frame

/-- Under the currency's reward rule, the coins a block the node accepts generates are the emission
change of `Currency::getBlockReward` at the block's median, size, coins and fee; when that fee is paid
out of coins within the supply and the median fits in 32 bits, they keep the coins generated within
the supply. -/
theorem addBlockChecks_withCurrency_generatedCoins {env : CoreEnvironment} {currency : Currency}
    (hsupply : currency.moneySupply.toNat < 2 ^ 63) (hgenesis : currency.genesisBlockReward ≤ currency.moneySupply)
    {state : CoreState} {cachedBlock : CachedBlock} {rawBlock : RawBlock} {accepted : AcceptedBlock}
    (h : Core.addBlockChecks (env.withCurrency currency) state cachedBlock rawBlock = .ok accepted) :
    let segments := segmentsOf state.chainsStorage accepted.segment
    let medianSize := medianValue (getLastBlocksSizes segments env.rewardBlocksWindow accepted.previousBlockIndex true)
    let coins := getAlreadyGeneratedCoins segments accepted.previousBlockIndex
    ∃ fee reward emissionChange,
      currency.getBlockReward cachedBlock.block.majorVersion medianSize (UInt64.ofNat accepted.block.blockSize) coins
          fee = some (reward, emissionChange) ∧
        accepted.block.generatedCoins = emissionChange.toUInt64 ∧
        (coins ≤ currency.moneySupply → fee ≤ coins →
          (max medianSize (currency.blockGrantedFullRewardZoneByBlockVersion cachedBlock.block.majorVersion)).toNat <
            2 ^ 32 →
          emissionChange.toInt = (reward.toNat : Int) - fee.toNat ∧
            (coins + accepted.block.generatedCoins).toNat ≤ currency.moneySupply.toNat) := by
  intro segments medianSize coins
  obtain ⟨fee, reward, emissionChange, hreward, hgenerated⟩ := (Core.addBlockChecks_eq_ok h).reward
  refine ⟨fee, reward, emissionChange, hreward, hgenerated, fun hcoins hfee hmedian => ?_⟩
  obtain ⟨-, hchange, hlow, hhigh⟩ := Currency.getBlockReward_emission hsupply hgenesis hcoins hfee hmedian hreward
  -- `pushBlock` adds the change as `uint64_t`, which is the exact sum, within the supply
  have hsum := Currency.toNat_add_toUInt64 hlow (by omega)
  refine ⟨hchange, ?_⟩
  rw [hgenerated]
  omega

/-- A block that `addBlock` does not add leaves the whole node as it was: the segments and their
contents, the leaves, the main chain set, the main chain storage, the transaction pool and the
block median size. Every check comes before the first change, and every change ends in one of the
three codes of an added block. -/
theorem addBlock_rejected_leaves_node (env : CoreEnvironment) (currency : Currency) (poolCurrency : PoolCurrency)
    (now : UInt64) (node : CoreNode) (cachedBlock : CachedBlock) (rawBlock : RawBlock)
    (hrejected : (addBlock env currency poolCurrency now node cachedBlock rawBlock).1 ∉
      [.addBlock .addedToMain, .addBlock .addedToAlternative, .addBlock .addedToAlternativeAndSwitched]) :
    (addBlock env currency poolCurrency now node cachedBlock rawBlock).2 = node := by
  unfold addBlock at hrejected ⊢
  cases hok : Core.addBlockChecks (env.withCurrency currency) node.state cachedBlock rawBlock with
  | error error => rfl
  | ok accepted =>
    rw [hok] at hrejected
    have hcode := applyAcceptedToNode_fst env currency poolCurrency now node accepted
    rcases Core.addBlockApply_fst node.state accepted with hadded | hadded | hadded <;>
      · simp only [hcode, hadded] at hrejected
        simp at hrejected

/-- A block on a previous block the node does not have is rejected as orphaned, and the node keeps its
two pool transactions. -/
theorem addBlock_rejected_leaves_node_orphan :
    let node : CoreNode := ⟨Core.init (blockAt 0 100 0) (rawOf 100), offeredPool, 100000⟩
    offeredPool.transactionPool.getTransactionHashes = [hashOf 7, hashOf 8] ∧
      (addBlock (feeEnvironment 10) Currency.default PoolCurrency.default 6 node (blockAt 1 1 77) (rawOf 1)).1 ∉
        [.addBlock .addedToMain, .addBlock .addedToAlternative, .addBlock .addedToAlternativeAndSwitched] ∧
      (addBlock (feeEnvironment 10) Currency.default PoolCurrency.default 6 node (blockAt 1 1 77) (rawOf 1)).2 = node := by
  intro node
  have hrejected : (addBlock (feeEnvironment 10) Currency.default PoolCurrency.default 6 node (blockAt 1 1 77)
      (rawOf 1)).1 ∉ [.addBlock .addedToMain, .addBlock .addedToAlternative, .addBlock .addedToAlternativeAndSwitched] := by
    rw [addBlock_fst]
    decide
  exact ⟨by decide +kernel, hrejected, addBlock_rejected_leaves_node _ _ _ _ _ _ _ hrejected⟩

end CoreNode

end Crygcoin
