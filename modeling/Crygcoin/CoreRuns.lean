import Crygcoin.CoreInvariant

namespace Crygcoin

/-! The runs of `Core`: the states `addBlock` reaches from the root segment, with any blocks from
any peer, and what holds of every one of them. -/

/-- The states reached from `initRootSegment` by calls of `addBlock`. -/
inductive Core.Reachable (env : CoreEnvironment) (genesisBlock : CachedBlock) (rawGenesis : RawBlock) :
    CoreState → Prop
  | init : Core.Reachable env genesisBlock rawGenesis (Core.init genesisBlock rawGenesis)
  | addBlock {state : CoreState} (cachedBlock : CachedBlock) (rawBlock : RawBlock) :
      Core.Reachable env genesisBlock rawGenesis state →
        Core.Reachable env genesisBlock rawGenesis (Core.addBlock env state cachedBlock rawBlock).2

namespace Core

theorem addBlock_snd (env : CoreEnvironment) (state : CoreState) (cachedBlock : CachedBlock) (rawBlock : RawBlock) :
    (addBlock env state cachedBlock rawBlock).2 = state ∨
      ∃ accepted, addBlockChecks env state cachedBlock rawBlock = .ok accepted ∧
        (addBlock env state cachedBlock rawBlock).2 = (addBlockApply state accepted).2 := by
  unfold addBlock
  cases addBlockChecks env state cachedBlock rawBlock with
  | error _ => exact .inl rfl
  | ok accepted => exact .inr ⟨accepted, rfl, rfl⟩

theorem addBlockApply_fst (state : CoreState) (accepted : AcceptedBlock) :
    (addBlockApply state accepted).1 = .addedToMain ∨ (addBlockApply state accepted).1 = .addedToAlternative ∨
      (addBlockApply state accepted).1 = .addedToAlternativeAndSwitched := by
  unfold addBlockApply
  dsimp only
  split
  · exact .inr (.inl rfl)
  · split
    · split
      · split
        · exact .inl rfl
        · split
          · exact .inr (.inr rfl)
          · exact .inr (.inl rfl)
      · exact .inr (.inl rfl)
    · exact .inr (.inl rfl)

/-- The flat chains after `addBlock`: those `applyChains` gives for the accepted block, or the same
chains when the block is rejected. -/
def addBlockChains (env : CoreEnvironment) (state : CoreState) (chains : List (List PushedBlock))
    (cachedBlock : CachedBlock) (rawBlock : RawBlock) : List (List PushedBlock) :=
  match addBlockChecks env state cachedBlock rawBlock with
  | .error _ => chains
  | .ok accepted => applyChains state chains accepted

theorem CoreInvariant.addBlock {env : CoreEnvironment} {state : CoreState} {chains : List (List PushedBlock)}
    (h : CoreInvariant env state chains) (cachedBlock : CachedBlock) (rawBlock : RawBlock) :
    ∃ chains', CoreInvariant env (addBlock env state cachedBlock rawBlock).2 chains' := by
  rcases addBlock_snd env state cachedBlock rawBlock with hsame | ⟨accepted, hok, happly⟩
  · exact ⟨chains, by rw [hsame]; exact h⟩
  · exact ⟨_, by rw [happly]; exact h.addBlockApply (addBlockChecks_eq_ok hok)⟩

end Core

theorem CoreInvariant.addBlockChains {env : CoreEnvironment} {state : CoreState} {chains : List (List PushedBlock)}
    (h : CoreInvariant env state chains) (cachedBlock : CachedBlock) (rawBlock : RawBlock) :
    CoreInvariant env (Core.addBlock env state cachedBlock rawBlock).2
      (Core.addBlockChains env state chains cachedBlock rawBlock) := by
  unfold Core.addBlock Core.addBlockChains
  cases hok : Core.addBlockChecks env state cachedBlock rawBlock with
  | error _ => exact h
  | ok accepted => exact h.addBlockApply (Core.addBlockChecks_eq_ok hok)

theorem Core.Reachable.invariant {env : CoreEnvironment} {genesisBlock : CachedBlock} {rawGenesis : RawBlock}
    (hgenesis : genesisBlock.getBlockIndex = 0) {state : CoreState} (h : Core.Reachable env genesisBlock rawGenesis state) :
    ∃ chains, CoreInvariant env state chains := by
  induction h with
  | init => exact ⟨_, CoreInvariant.init hgenesis⟩
  | addBlock cachedBlock rawBlock _ ih =>
    obtain ⟨chains, hinv⟩ := ih
    exact Core.CoreInvariant.addBlock hinv cachedBlock rawBlock

theorem Core.Reachable.built {env : CoreEnvironment} {genesisBlock : CachedBlock} {rawGenesis : RawBlock}
    (hgenesis : genesisBlock.getBlockIndex = 0) {state : CoreState} (h : Core.Reachable env genesisBlock rawGenesis state) :
    ∃ chains, CoreInvariant env state chains ∧ Built state.chainsStorage chains := by
  induction h with
  | init => exact ⟨_, CoreInvariant.init hgenesis, .genesis hgenesis⟩
  | @addBlock state cachedBlock rawBlock _ ih =>
    obtain ⟨chains, hinv, hbuilt⟩ := ih
    rcases Core.addBlock_snd env state cachedBlock rawBlock with hsame | ⟨accepted, hok, happly⟩
    · exact ⟨chains, by rw [hsame]; exact ⟨hinv, hbuilt⟩⟩
    · have hc := Core.addBlockChecks_eq_ok hok
      exact ⟨_, by rw [happly]; exact ⟨hinv.addBlockApply hc, hbuilt.addBlockApply hinv hc⟩⟩

/-- `addBlock` on each block of a list in turn. -/
def Core.addBlocks (env : CoreEnvironment) (state : CoreState) : List (CachedBlock × RawBlock) → CoreState
  | [] => state
  | (cachedBlock, rawBlock) :: blocks => Core.addBlocks env (Core.addBlock env state cachedBlock rawBlock).2 blocks

/-- The flat chains along `addBlocks`. -/
def Core.addBlocksChains (env : CoreEnvironment) (state : CoreState) (chains : List (List PushedBlock)) :
    List (CachedBlock × RawBlock) → List (List PushedBlock)
  | [] => chains
  | (cachedBlock, rawBlock) :: blocks =>
    Core.addBlocksChains env (Core.addBlock env state cachedBlock rawBlock).2
      (Core.addBlockChains env state chains cachedBlock rawBlock) blocks

theorem CoreInvariant.addBlocks {env : CoreEnvironment} {state : CoreState} {chains : List (List PushedBlock)}
    (h : CoreInvariant env state chains) (blocks : List (CachedBlock × RawBlock)) :
    CoreInvariant env (Core.addBlocks env state blocks) (Core.addBlocksChains env state chains blocks) := by
  induction blocks generalizing state chains with
  | nil => exact h
  | cons block blocks ih => exact ih (h.addBlockChains block.1 block.2)

theorem Core.Reachable.addBlocks {env : CoreEnvironment} {genesisBlock : CachedBlock} {rawGenesis : RawBlock}
    {state : CoreState} (h : Core.Reachable env genesisBlock rawGenesis state) (blocks : List (CachedBlock × RawBlock)) :
    Core.Reachable env genesisBlock rawGenesis (Core.addBlocks env state blocks) := by
  induction blocks generalizing state with
  | nil => exact h
  | cons block blocks ih => exact ih (h.addBlock block.1 block.2)

/-! Concrete runs: an environment in which every block with a well-formed miner transaction passes. -/

/-- The checkpoints given, no size or time limit, every block of difficulty `difficulty`, and
`proofOfWork` as the outcome of every proof of work check. -/
def openEnvironment (checkpoints : Checkpoints) (difficulty : UInt64) (proofOfWork : Bool) : CoreEnvironment where
  checkpoints := checkpoints
  getBinaryArrayHash _ := hashOf 0
  maxTxSize := 0
  maxBlockCumulativeSize _ := 1000
  getBlockMajorVersion _ := 1
  getBlockMajorVersionForHeight _ := 1
  parentBlockSize _ := 0
  adjustedTime := 1000
  blockFutureTimeLimit _ := 0
  timestampCheckWindow _ := 0
  minedMoneyUnlockWindow := 0
  checkKey _ := true
  difficultyBlocksCountByBlockVersion _ _ := 0
  getNextDifficulty _ _ _ _ := difficulty
  validateMixins _ _ := true
  validateSemantic _ _ := .ok 0
  checkKeyInput _ _ _ _ _ := none
  rewardBlocksWindow := 0
  getBlockReward _ _ _ _ _ := some (0, 0)
  checkProofOfWork _ _ := proofOfWork

/-- `openEnvironment` with no checkpoints, that takes transactions of up to 1000 bytes. -/
def spendingEnvironment : CoreEnvironment :=
  { openEnvironment ⟨[], List.nodup_nil⟩ 1 true with maxTxSize := 1000 }

/-- A transaction with hash `hashOf tag`, one key input of amount 1 and image `keyImage`, one output
of amount 1, and `extraSize` bytes of extra. -/
def spendingTransaction (keyImage tag : UInt8) (extraSize : Nat) : CachedTransaction :=
  ⟨⟨⟨1, 0, [.keyInput ⟨1, [0], ⟨Vector.replicate 32 keyImage⟩⟩], [⟨1, .keyOutput ⟨⟨Vector.replicate 32 tag⟩⟩⟩],
    List.replicate extraSize 0⟩, [[⟨Vector.replicate 64 0⟩]]⟩, hashOf tag⟩

/-- A raw block whose one transaction is `spendingTransaction keyImage tag 0`. -/
def rawSpending (tag keyImage : UInt8) : RawBlock :=
  ⟨[tag], [(toBinaryArray (spendingTransaction keyImage tag 0).transaction).getD []]⟩

section Runs

variable {env : CoreEnvironment} {genesisBlock : CachedBlock} {rawGenesis : RawBlock} {state : CoreState}

/-- No key image is spent twice above the checkpoint zone. In every state `addBlock` reaches from the
root segment, every segment, with the segments on its way to the root, holds a flat chain: the
segments model it piece by piece, `checkIfSpent` gives the chain's answer at every index whose next
block lies above the checkpoint zone, and no two blocks of the chain above the zone spend one key
image. -/
theorem no_double_spend_outside_checkpoint_zone (hgenesis : genesisBlock.getBlockIndex = 0)
    (hrun : Core.Reachable env genesisBlock rawGenesis state) :
    ∃ chains : List (List PushedBlock), chains.length = state.chainsStorage.length ∧
      ∀ p chain, chains[p]? = some chain →
        ChainModels (segmentsOf state.chainsStorage p) chain ∧
        (∀ keyImage blockIndex, env.checkpoints.isInCheckpointZone (blockIndex + 1) = false →
          checkIfSpent (segmentsOf state.chainsStorage p) keyImage blockIndex = isSpent chain keyImage blockIndex) ∧
        ∀ keyImage i j bi bj, chain[i]? = some bi → chain[j]? = some bj →
          env.checkpoints.isInCheckpointZone i = false → env.checkpoints.isInCheckpointZone j = false →
          keyImage ∈ bi.validatorState.spentKeyImages → keyImage ∈ bj.validatorState.spentKeyImages → i = j := by
  obtain ⟨chains, h⟩ := hrun.invariant hgenesis
  refine ⟨chains, h.tree.coherent.length, fun p chain hchain => ⟨h.tree.coherent.chainModels hchain,
    fun keyImage blockIndex hout => (h.tree.coherent.chainModels hchain).checkIfSpent
      ((h.tree.checked hchain).freshAbove hout keyImage), ?_⟩⟩
  -- the later of two such blocks checked that no block below it spends the key image
  have hlater : ∀ keyImage i j bi bj, i < j → chain[i]? = some bi → chain[j]? = some bj →
      env.checkpoints.isInCheckpointZone j = false → keyImage ∈ bi.validatorState.spentKeyImages →
      keyImage ∉ bj.validatorState.spentKeyImages := by
    intro keyImage i j bi bj hij hi hj hzone hmi hmj
    have hlength : (chain.take j).length = j := List.length_take_of_le (List.getElem?_eq_some_iff.mp hj).1.le
    have hpassed := (h.tree.checked hchain) j bj hj (by omega)
    rw [PassedChecks, hlength] at hpassed
    have hin : bi ∈ chain.take j := List.mem_iff_getElem?.mpr ⟨i, by rw [List.getElem?_take_of_lt hij, hi]⟩
    exact (hpassed.2 hzone).2 keyImage hmj bi hin hmi
  intro keyImage i j bi bj hi hj hzi hzj hmi hmj
  rcases Nat.lt_trichotomy i j with hij | hij | hij
  · exact absurd hmj (hlater keyImage i j bi bj hij hi hj hzj hmi)
  · exact hij
  · exact absurd hmi (hlater keyImage j i bj bi hij hj hi hzi hmj)

/-- Block 1 spends key image 1; a block 2 on it that spends it again is rejected, and
`checkIfSpent` finds the key image spent. -/
theorem no_double_spend_outside_checkpoint_zone_respent :
    let once := (Core.addBlock spendingEnvironment (Core.init (blockAt 0 100 0) (rawOf 100)) (blockAt 1 1 100)
      (rawSpending 1 1)).2
    let state := (Core.addBlock spendingEnvironment once (blockAt 2 2 1) (rawSpending 2 1)).2
    (Core.addBlock spendingEnvironment once (blockAt 2 2 1) (rawSpending 2 1)).1 =
        .transactionValidation .inputKeyimageAlreadySpent ∧
      checkIfSpent (segmentsOf state.chainsStorage 0) ⟨Vector.replicate 32 1⟩ 2 = true ∧
      ∃ chains : List (List PushedBlock), chains.length = state.chainsStorage.length ∧
        ∀ p chain, chains[p]? = some chain →
          ChainModels (segmentsOf state.chainsStorage p) chain ∧
          (∀ keyImage blockIndex, spendingEnvironment.checkpoints.isInCheckpointZone (blockIndex + 1) = false →
            checkIfSpent (segmentsOf state.chainsStorage p) keyImage blockIndex = isSpent chain keyImage blockIndex) ∧
          ∀ keyImage i j bi bj, chain[i]? = some bi → chain[j]? = some bj →
            spendingEnvironment.checkpoints.isInCheckpointZone i = false →
            spendingEnvironment.checkpoints.isInCheckpointZone j = false →
            keyImage ∈ bi.validatorState.spentKeyImages → keyImage ∈ bj.validatorState.spentKeyImages → i = j := by
  intro once state
  have hrejected : (Core.addBlock spendingEnvironment once (blockAt 2 2 1) (rawSpending 2 1)).1 =
      .transactionValidation .inputKeyimageAlreadySpent := by
    decide +kernel
  have hspent : checkIfSpent (segmentsOf state.chainsStorage 0) ⟨Vector.replicate 32 1⟩ 2 = true := by
    decide +kernel
  exact ⟨hrejected, hspent,
    no_double_spend_outside_checkpoint_zone rfl ((Core.Reachable.init.addBlock _ _).addBlock _ _)⟩

/-- The shape of the segment tree in every reachable state: `chainsLeaves` holds each segment
without children once, every segment but the root starts right above its parent's top block, and
`mainChainSet` is the set of segments on the way from `chainsLeaves[0]` to the root. -/
theorem segment_tree_shape (hgenesis : genesisBlock.getBlockIndex = 0)
    (hrun : Core.Reachable env genesisBlock rawGenesis state) :
    state.chainsLeaves.Nodup ∧
      (∀ q, q ∈ state.chainsLeaves ↔ ∃ cache : BlockchainCache, state.chainsStorage[q]? = some cache ∧ cache.getChildCount = 0) ∧
      (∀ (q r : Nat) (cache : BlockchainCache), state.chainsStorage[q]? = some cache → cache.parent = some r →
        ∃ parentCache, state.chainsStorage[r]? = some parentCache ∧
          cache.startIndex = parentCache.getTopBlockIndex + 1) ∧
      ∀ mainLeaf, state.chainsLeaves.head? = some mainLeaf →
        ∃ ps, IsPath BlockchainCache.parent state.chainsStorage mainLeaf ps ∧ ∀ q, q ∈ state.mainChainSet ↔ q ∈ ps := by
  obtain ⟨chains, h⟩ := hrun.invariant hgenesis
  refine ⟨h.leavesNodup, fun q => ?_, fun q r cache hq hparent => ?_, fun mainLeaf hmain => ?_⟩
  · rw [h.leaves q, IsLeaf]
    simp only [BlockchainCache.getChildCount, List.length_eq_zero_iff]
  · -- the parent holds the chain below the segment's start, and is not empty
    obtain ⟨chain, hchain⟩ := h.tree.coherent.chain_of_cache hq
    obtain ⟨parentCache, hr, -, hrChain⟩ := h.tree.coherent.parent hq hparent hchain
    have hstart := (h.tree.coherent.segment hq hchain).start_le
    have hlength := (h.tree.coherent.segment hr hrChain).length
    have hpos := List.length_pos_iff.mpr (h.tree.nonempty hr)
    rw [List.length_take_of_le hstart] at hlength
    refine ⟨parentCache, hr, ?_⟩
    simp only [BlockchainCache.getTopBlockIndex]
    omega
  · obtain ⟨leaves, hleaves⟩ : ∃ leaves, state.chainsLeaves = mainLeaf :: leaves := by
      cases hl : state.chainsLeaves with
      | nil => rw [hl] at hmain; cases hmain
      | cons x xs => rw [hl, List.head?_cons, Option.some.injEq] at hmain; exact ⟨xs, by rw [hmain]⟩
    have hleaf := (h.leaves mainLeaf).mp (by rw [hleaves]; exact List.mem_cons_self)
    obtain ⟨ps, hps⟩ := h.tree.coherent.rooted mainLeaf hleaf.lt_length
    refine ⟨ps, hps, fun q => ?_⟩
    rw [h.mainChainSet, hleaves, Core.updateMainChainSet, chainFrom_length hps]

/-- The shape after a run that splits the root segment: a second block at index 1 forks below the
top of the main chain, and the main chain then grows. -/
theorem segment_tree_shape_fork :
    let state := Core.addBlocks (openEnvironment ⟨[], List.nodup_nil⟩ 1 true) (Core.init (blockAt 0 100 0) (rawOf 100))
      [(blockAt 1 1 100, rawOf 1), (blockAt 1 2 100, rawOf 2), (blockAt 2 3 1, rawOf 3)]
    state.chainsLeaves.Nodup ∧
      (∀ q, q ∈ state.chainsLeaves ↔ ∃ cache : BlockchainCache, state.chainsStorage[q]? = some cache ∧ cache.getChildCount = 0) ∧
      (∀ (q r : Nat) (cache : BlockchainCache), state.chainsStorage[q]? = some cache → cache.parent = some r →
        ∃ parentCache, state.chainsStorage[r]? = some parentCache ∧
          cache.startIndex = parentCache.getTopBlockIndex + 1) ∧
      ∀ mainLeaf, state.chainsLeaves.head? = some mainLeaf →
        ∃ ps, IsPath BlockchainCache.parent state.chainsStorage mainLeaf ps ∧ ∀ q, q ∈ state.mainChainSet ↔ q ∈ ps :=
  segment_tree_shape rfl (Core.Reachable.init.addBlocks _)

end Runs

end Crygcoin
