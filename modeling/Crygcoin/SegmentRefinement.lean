import Crygcoin.SegmentStore

namespace Crygcoin

/-! The trees of segments that `Core` builds, with the flat chain of each segment as the blocks
pushed on its way from the root, and the answers every segment gives through its parents: those of
its flat chain. -/

/-- The arguments of the root constructor's `doPushBlock`. -/
def genesisPushedBlock (genesisBlock : CachedBlock) (rawBlock : RawBlock) : PushedBlock :=
  ⟨genesisBlock, [], ⟨[], List.nodup_nil⟩, getObjectBinarySize genesisBlock.block.baseTransaction,
    genesisBlock.block.baseTransaction.outputs.foldl (fun reward output => reward + output.amount) 0, 1, rawBlock⟩

theorem createRoot_eq (genesisBlock : CachedBlock) (rawBlock : RawBlock) :
    BlockchainCache.createRoot genesisBlock rawBlock =
      (BlockchainCache.create none 0).pushBlockOf [] (genesisPushedBlock genesisBlock rawBlock) := rfl

theorem Coherent.genesis {genesisBlock : CachedBlock} {rawBlock : RawBlock} (hindex : genesisBlock.getBlockIndex = 0) :
    Coherent [BlockchainCache.createRoot genesisBlock rawBlock] [[genesisPushedBlock genesisBlock rawBlock]] := by
  have hempty : ChainModels [BlockchainCache.create none 0] [] := .root (SegmentModels.create none []) rfl
  have hframe := BlockchainCache.pushBlockOf_frame [] (BlockchainCache.create none 0)
    (genesisPushedBlock genesisBlock rawBlock)
  rw [← createRoot_eq] at hframe
  have hsegment : SegmentModels (BlockchainCache.createRoot genesisBlock rawBlock)
      [genesisPushedBlock genesisBlock rawBlock] := by
    rw [createRoot_eq]
    exact SegmentModels.pushBlockOf hempty hindex
  have hat : ∀ {q : Nat} {cache : BlockchainCache}, [BlockchainCache.createRoot genesisBlock rawBlock][q]? = some cache →
      q = 0 ∧ cache = BlockchainCache.createRoot genesisBlock rawBlock := by
    intro q cache hq
    cases q with
    | zero => exact ⟨rfl, (Option.some.inj hq).symm⟩
    | succ q => cases hq
  refine ⟨rfl, ?_, ?_, ?_, ?_, ?_, ?_⟩
  · intro q hq
    rw [List.length_singleton, Nat.lt_one_iff] at hq
    subst hq
    exact ⟨[0], .root rfl hframe.parent⟩
  · intro q cache chain hq hchain
    obtain ⟨rfl, rfl⟩ := hat hq
    cases hchain
    exact hsegment
  · intro q cache hq _
    obtain ⟨rfl, rfl⟩ := hat hq
    exact hframe.startIndex
  · intro q r cache chain hq hparent _
    obtain ⟨rfl, rfl⟩ := hat hq
    rw [hframe.parent] at hparent
    cases hparent
  · intro q r cache hq hparent
    obtain ⟨rfl, rfl⟩ := hat hq
    rw [hframe.parent] at hparent
    cases hparent
  · intro q r cache hr hmem
    obtain ⟨rfl, rfl⟩ := hat hr
    rw [hframe.children] at hmem
    exact absurd hmem List.not_mem_nil

/-- The trees of segments `Core` builds, each segment with the flat chain of the blocks pushed on its
way from the root: the root constructor, `pushBlock` on a leaf, a new segment on the top block of a
segment and a split inside one. The hypotheses of each step are the asserts of the step itself; the
blocks' key images are not assumed unspent below them, since `Core` does not check that inside the
checkpoint zone. -/
inductive Built : List BlockchainCache → List (List PushedBlock) → Prop
  | genesis {genesisBlock : CachedBlock} {rawBlock : RawBlock} : genesisBlock.getBlockIndex = 0 →
      Built [BlockchainCache.createRoot genesisBlock rawBlock] [[genesisPushedBlock genesisBlock rawBlock]]
  | pushBlock {store : List BlockchainCache} {chains : List (List PushedBlock)} {p : Nat} {cache : BlockchainCache}
      {chain : List PushedBlock} (block : PushedBlock) : Built store chains → store[p]? = some cache →
      chains[p]? = some chain → cache.children = [] →
      block.cachedBlock.getBlockIndex = cache.startIndex + cache.blockInfos.length →
      Built (pushBlockAt store p block.cachedBlock block.cachedTransactions block.validatorState block.blockSize
        block.generatedCoins block.blockDifficulty block.rawBlock) (chains.set p (chain ++ [block]))
  | fork {store : List BlockchainCache} {chains : List (List PushedBlock)} {p : Nat} {cache : BlockchainCache}
      {chain : List PushedBlock} : Built store chains → store[p]? = some cache → chains[p]? = some chain →
      cache.blockInfos ≠ [] → Built (forkSegment store p (cache.getTopBlockIndex + 1)) (chains ++ [chain])
  | split {store : List BlockchainCache} {chains : List (List PushedBlock)} {p : Nat} {cache : BlockchainCache}
      {chain : List PushedBlock} (splitBlockIndex : Nat) : Built store chains → store[p]? = some cache →
      chains[p]? = some chain → cache.startIndex < splitBlockIndex → splitBlockIndex ≤ cache.getTopBlockIndex →
      Built (splitSegment store p splitBlockIndex) ((chains.set p (chain.take splitBlockIndex)) ++ [chain])

theorem Built.coherent {store : List BlockchainCache} {chains : List (List PushedBlock)} (h : Built store chains) :
    Coherent store chains := by
  induction h with
  | genesis hindex => exact Coherent.genesis hindex
  | pushBlock block _ hcache hchain hleaf hindex ih => exact ih.pushBlockAt hcache hchain hleaf hindex
  | fork _ hcache hchain hnonempty ih => exact ih.forkSegment hcache hchain hnonempty
  | split splitBlockIndex _ hcache hchain hk hk' ih => exact ih.splitSegment hcache hchain hk hk'

/-- What the segment at `p` answers through its parents is what the flat chain `chain` says; for
`checkIfSpent`, at an index above which no block spends a key image the chain spent already. -/
structure RefinesFlatChain (store : List BlockchainCache) (p : Nat) (chain : List PushedBlock) : Prop where
  getBlockHash : ∀ blockIndex,
    Crygcoin.getBlockHash (segmentsOf store p) blockIndex = chain[blockIndex]?.map (·.cachedBlock.blockHash)
  getBlockHashes : ∀ startBlockIndex maxCount, startBlockIndex ≤ chain.length →
    Crygcoin.getBlockHashes (segmentsOf store p) startBlockIndex maxCount =
      ((chain.drop startBlockIndex).take maxCount).map (·.cachedBlock.blockHash)
  getLastUnits : ∀ count blockIndex useGenesis pred, blockIndex < chain.length →
    Crygcoin.getLastUnits (segmentsOf store p) count blockIndex useGenesis pred =
      lastUnits (chainInfos chain) count blockIndex useGenesis pred
  checkIfSpent : ∀ keyImage blockIndex, FreshAbove chain keyImage blockIndex →
    Crygcoin.checkIfSpent (segmentsOf store p) keyImage blockIndex = isSpent chain keyImage blockIndex
  getKeyOutputsCountForAmount : ∀ cache, store[p]? = some cache → ∀ amount blockIndex, cache.startIndex ≤ blockIndex →
    Crygcoin.getKeyOutputsCountForAmount (segmentsOf store p) amount blockIndex = keyOutputsBelow chain amount blockIndex
  globalIndexes : ∀ cache, store[p]? = some cache → ∀ amount entry, cache.findKeyOutputs amount = some entry →
    ∀ n, (outputsOfAmount (chainOutputs chain) amount)[entry.startIndex + n]? = entry.outputs[n]?

/-! Concrete trees: blocks that differ only in their index, their hash, their previous block's hash
and the key image they spend. -/

/-- The hash whose 32 bytes are all `tag`. -/
def hashOf (tag : UInt8) : Hash := ⟨Vector.replicate 32 tag⟩

/-- A block of version 1 at `blockIndex` with no transactions, hash `hashOf tag`, on the block with
hash `hashOf previous`. -/
def blockAt (blockIndex : UInt32) (tag previous : UInt8) : CachedBlock :=
  ⟨⟨1, 0, 0, 0, hashOf previous, ⟨1, 0, hashOf 0, 1, [], ⟨1, 0, [], [], []⟩, []⟩,
    ⟨⟨1, blockIndex.toUInt64, [.baseInput ⟨blockIndex⟩], [], []⟩, []⟩, []⟩, hashOf tag, hashOf tag⟩

def rawOf (tag : UInt8) : RawBlock := ⟨[tag], []⟩

/-- The block `blockAt blockIndex tag previous` as `pushBlock` takes it, spending `keyImage` if any. -/
def pushedAt (blockIndex : UInt32) (tag previous : UInt8) (keyImage : Option KeyImage) : PushedBlock :=
  ⟨blockAt blockIndex tag previous, [], ⟨keyImage.toList, by cases keyImage <;> simp⟩, 0, 0, 1, rawOf tag⟩

theorem segmented_cache_refines_flat_chain {store : List BlockchainCache} {chains : List (List PushedBlock)}
    (hbuilt : Built store chains) {p : Nat} {chain : List PushedBlock} (hchain : chains[p]? = some chain) :
    RefinesFlatChain store p chain := by
  have h := hbuilt.coherent
  have hc := h.chainModels hchain
  refine ⟨hc.getBlockHash, fun startBlockIndex maxCount hstart => ?_, fun count blockIndex useGenesis pred hi =>
    hc.getLastUnits useGenesis pred hi, fun _ _ hfresh => hc.checkIfSpent hfresh, ?_, ?_⟩
  · rw [hc.getBlockHashes hstart, List.map_take, List.map_drop, chainInfos_map_blockHash, ← List.map_drop,
      ← List.map_take]
  · intro cache hcache amount blockIndex hi
    refine hc.getKeyOutputsCountForAmount fun cache' hcache' => ?_
    rw [h.segmentsOf_eq_cons hcache, List.head?_cons, Option.mem_some_iff] at hcache'
    rw [← hcache']
    exact hi
  · intro cache hcache amount entry hentry n
    exact (h.segment hcache hchain).findKeyOutputs hentry n

theorem segmented_cache_refines_flat_chain_split_fork :
    let keyImage : KeyImage := ⟨Vector.replicate 32 1⟩
    let g := genesisPushedBlock (blockAt 0 0 0) (rawOf 0)
    let b1 := pushedAt 1 1 0 (some keyImage)
    let b2 := pushedAt 2 2 1 none
    let b2' := pushedAt 2 3 1 (some keyImage)
    ∃ store, Built store [[g, b1], [g, b1, b2], [g, b1, b2']] ∧ RefinesFlatChain store 2 [g, b1, b2'] := by
  intro keyImage g b1 b2 b2'
  -- two pushes on the root, a split at 2, a fork of the lower part and a push on the fork
  have hbuilt : Built _ [[g, b1], [g, b1, b2], [g, b1, b2']] := .pushBlock (p := 2) b2' (.fork (p := 0)
    (.split (p := 0) 2 (.pushBlock (p := 0) b2 (.pushBlock (p := 0) b1 (.genesis rfl) rfl rfl rfl rfl) rfl rfl rfl rfl)
      rfl rfl (by decide) (by decide)) rfl rfl (by decide)) rfl rfl rfl rfl
  exact ⟨_, hbuilt, segmented_cache_refines_flat_chain hbuilt rfl⟩

/-- A key image spent on the root segment is spent again on a fork of it, by a block that
`Core::addBlock` takes inside the checkpoint zone: the fork answers for block 2 from its own record
of the later spend and never asks the root. -/
theorem checkIfSpent_misses_respent_keyImage :
    let keyImage : KeyImage := ⟨Vector.replicate 32 1⟩
    let g := genesisPushedBlock (blockAt 0 0 0) (rawOf 0)
    let b1 := pushedAt 1 1 0 (some keyImage)
    let b2 := pushedAt 2 2 1 none
    let b3 := pushedAt 3 3 2 (some keyImage)
    ∃ store, Built store [[g, b1], [g, b1, b2, b3]] ∧
      checkIfSpent (segmentsOf store 1) keyImage 2 = false ∧ isSpent [g, b1, b2, b3] keyImage 2 = true := by
  intro keyImage g b1 b2 b3
  refine ⟨_, .pushBlock (p := 1) b3 (.pushBlock (p := 1) b2 (.fork (p := 0) (.pushBlock (p := 0) b1 (.genesis rfl)
    rfl rfl rfl rfl) rfl rfl (by decide)) rfl rfl rfl rfl) rfl rfl rfl rfl, ?_, by decide⟩
  decide +kernel

end Crygcoin
