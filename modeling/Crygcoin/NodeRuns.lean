import Crygcoin.CoreNode
import Crygcoin.HeaviestChain

namespace Crygcoin

open scoped List

/-! The runs of `Core` with its pool: `addBlock`, `addTransactionToPool`, the removals of
`fillBlockTemplate` and the rounds of the cleaning procedure, in any order. The pool's key images
stay disjoint along every run. With no checkpoints, no pool transaction spends a key image a block
of the main chain spends: a transaction enters the pool past `validateTransaction` at the top of the
main chain, where `checkIfSpent` reads every block; a block on the main chain drops the pool
transactions it conflicts with; a switch offers every pool transaction again. Inside the checkpoint
zone `validateTransaction` does not read the chain, and the pool takes a spent key image. -/

section MainChain

variable {env : CoreEnvironment} {state : CoreState} {cachedBlock : CachedBlock} {rawBlock : RawBlock}
  {accepted : AcceptedBlock} {chains : List (List PushedBlock)} {mainLeaf : Nat} {mainChain : List PushedBlock}

theorem CoreInvariant.mainChain_exists (h : CoreInvariant env state chains)
    (hhead : state.chainsLeaves.head? = some mainLeaf) : ∃ mainChain, chains[mainLeaf]? = some mainChain := by
  have hlt := ((h.leaves mainLeaf).mp (List.mem_of_mem_head? hhead)).lt_length
  rw [← h.tree.coherent.length] at hlt
  exact ⟨_, List.getElem?_eq_getElem hlt⟩

theorem Core.mainChain_eq (hhead : state.chainsLeaves.head? = some mainLeaf) :
    Core.mainChain state = segmentsOf state.chainsStorage mainLeaf := by
  rw [Core.mainChain, List.headD_eq_head?_getD, hhead]
  rfl

theorem CoreInvariant.mainChainModels (h : CoreInvariant env state chains)
    (hhead : state.chainsLeaves.head? = some mainLeaf) (hmainChain : chains[mainLeaf]? = some mainChain) :
    ChainModels (Core.mainChain state) mainChain := by
  rw [Core.mainChain_eq hhead]
  exact h.tree.coherent.chainModels hmainChain

/-- `addBlock` changes the main chain only by a block on its top or by a switch. A block that
stays off the main chain, on another leaf, on a new leaf or after a split, leaves the main leaf's
chain as it was, though a split of the main leaf moves that chain to the upper part. -/
theorem Core.addBlockApply_mainChain (h : CoreInvariant env state chains)
    (hc : AddBlockChecked env state cachedBlock rawBlock accepted) (hhead : state.chainsLeaves.head? = some mainLeaf)
    (hmainChain : chains[mainLeaf]? = some mainChain) :
    ∃ mainLeaf', (Core.addBlockApply state accepted).2.chainsLeaves.head? = some mainLeaf' ∧
      ((Core.addBlockApply state accepted).1 = .addedToMain →
        (Core.applyChains state chains accepted)[mainLeaf']? = some (mainChain ++ [accepted.block])) ∧
      ((Core.addBlockApply state accepted).1 = .addedToAlternative →
        (Core.applyChains state chains accepted)[mainLeaf']? = some mainChain) := by
  obtain ⟨cache, hcache, -⟩ := hc.previous
  obtain ⟨chain, hchain⟩ := h.tree.coherent.chain_of_cache hcache
  have hgetD : chains[accepted.segment]?.getD [] = chain := by rw [hchain]; rfl
  have hplt : accepted.segment < chains.length := (List.getElem?_eq_some_iff.mp hchain).1
  have hmainLt : mainLeaf < chains.length := (List.getElem?_eq_some_iff.mp hmainChain).1
  unfold Core.addBlockApply Core.applyChains
  simp only [hcache, hgetD]
  split_ifs with htop hleaf hmain hswitch hsplit
  · -- on top of the main leaf: its chain grows by the block
    have hp : mainLeaf = accepted.segment := Option.some.inj (hhead.symm.trans hmain)
    subst hp
    rw [hchain, Option.some.injEq] at hmainChain
    subst hmainChain
    exact ⟨accepted.segment, hhead, fun _ => List.getElem?_set_self hplt, by simp⟩
  · -- a switch: the block's leaf comes first
    exact ⟨accepted.segment, head?_swap hhead fun heq => hmain (heq ▸ hhead), by simp, by simp⟩
  · -- on top of another leaf, not heavier
    have hne : mainLeaf ≠ accepted.segment := fun heq => hmain (heq ▸ hhead)
    exact ⟨mainLeaf, hhead, by simp, fun _ => by rw [List.getElem?_set_ne (Ne.symm hne), hmainChain]⟩
  · -- a new leaf, at the end of the leaves
    refine ⟨mainLeaf, by simp [List.head?_append, hhead], by simp, fun _ => ?_⟩
    rw [List.getElem?_set_ne (by omega), List.getElem?_append_left hmainLt, hmainChain]
  · -- a split above the previous block of a leaf: the upper part, with the whole chain, takes its place
    have hlength := h.tree.coherent.length
    by_cases hmp : mainLeaf = accepted.segment
    · subst hmp
      rw [hchain, Option.some.injEq] at hmainChain
      subst hmainChain
      refine ⟨state.chainsStorage.length, by simp [List.head?_append, List.head?_replace, hhead], by simp, fun _ => ?_⟩
      rw [← hlength, List.getElem?_set_ne (by omega), List.getElem?_append_left (by simp),
        List.getElem?_append_right (by simp), List.length_set, Nat.sub_self]
      rfl
    · refine ⟨mainLeaf, by simp [List.head?_append, List.head?_replace, hhead, Ne.symm hmp], by simp, fun _ => ?_⟩
      rw [List.getElem?_set_ne (by omega), List.getElem?_append_left (by simp; omega),
        List.getElem?_append_left (by simp; omega), List.getElem?_set_ne (Ne.symm hmp), hmainChain]
  · -- a split above the previous block of a segment with children, which is no leaf
    have hmp : mainLeaf ≠ accepted.segment := by
      rintro rfl
      obtain ⟨leafCache, hleafCache, hnil⟩ := (h.leaves _).mp (List.mem_of_mem_head? hhead)
      rw [hcache, Option.some.injEq] at hleafCache
      subst hleafCache
      simp [BlockchainCache.getChildCount, hnil] at hsplit
    refine ⟨mainLeaf, by simp [List.head?_append, hhead], by simp, fun _ => ?_⟩
    rw [List.getElem?_set_ne (by omega), List.getElem?_append_left (by simp; omega),
      List.getElem?_append_left (by simp; omega), List.getElem?_set_ne (Ne.symm hmp), hmainChain]

end MainChain

/-! ### What the top of a chain says -/

theorem freshAbove_top (chain : List PushedBlock) (keyImage : KeyImage) :
    FreshAbove chain keyImage (chain.length - 1) := by
  intro j block hj hblock
  have := (List.getElem?_eq_some_iff.mp hblock).1
  omega

theorem isSpent_top_eq_false_iff {chain : List PushedBlock} {keyImage : KeyImage} :
    isSpent chain keyImage (chain.length - 1) = false ↔ ∀ block ∈ chain, block.spends keyImage = false := by
  rw [isSpent, List.take_of_length_le (by omega), List.any_eq_false]
  simp only [Bool.not_eq_true]

/-- At the top of the chain, `checkIfSpent` reads every block: no block above the top can spend
the key image a second time. -/
theorem ChainModels.checkIfSpent_top_eq_false_iff {segments : List BlockchainCache} {chain : List PushedBlock}
    (hmodels : ChainModels segments chain) {keyImage : KeyImage} :
    Crygcoin.checkIfSpent segments keyImage (Crygcoin.getTopBlockIndex segments) = false ↔
      ∀ block ∈ chain, block.spends keyImage = false := by
  rw [hmodels.getTopBlockIndex, hmodels.checkIfSpent (freshAbove_top chain keyImage), isSpent_top_eq_false_iff]

theorem Checkpoints.isInCheckpointZone_of_points_nil {checkpoints : Checkpoints} (h : checkpoints.points = [])
    (index : Nat) : checkpoints.isInCheckpointZone index = false := by
  simp [Checkpoints.isInCheckpointZone, h]

/-! ### The pool against the main chain -/

/-- No transaction of the pool spends a key image that a block of `chain` spends. -/
def PoolUnspent (chain : List PushedBlock) (wrapper : TransactionPoolCleanWrapper) : Prop :=
  ∀ info ∈ wrapper.transactionPool.transactions, ∀ keyImage ∈ info.cachedTransaction.spentKeyImages,
    ∀ block ∈ chain, block.spends keyImage = false

namespace Core

variable {env : CoreEnvironment} {limits : PoolLimits} {state : CoreState} {now : UInt64}
  {wrapper : TransactionPoolCleanWrapper} {cachedTransaction : CachedTransaction}
  {validatorState : TransactionValidatorState} {chain : List PushedBlock}

theorem isTransactionValidForPool_checkedUnspent
    (h : isTransactionValidForPool env limits state cachedTransaction = some validatorState) :
    ∀ keyImage ∈ cachedTransaction.spentKeyImages,
      CheckedUnspent env (mainChain state) (getTopBlockIndex (mainChain state)) keyImage := by
  obtain ⟨fee, hvalidate⟩ := isTransactionValidForPool_validateTransaction h
  have hstate := extractSpentOutputs_spentKeyImages (extractSpentOutputs_of_validateTransaction hvalidate)
  simp only [validateTransaction, bind_eq_ok, pure_eq_ok] at hvalidate
  obtain ⟨_, -, inputsState, hinputs, hpair⟩ := hvalidate
  cases hpair
  intro keyImage hk
  rw [← hstate] at hk
  rcases validateInputs_checkedUnspent hinputs keyImage hk with hnil | hchecked
  · cases hnil
  · exact hchecked

/-- Without checkpoints, a transaction valid for the pool spends no key image of the main chain. -/
theorem isTransactionValidForPool_unspent (hpoints : env.checkpoints.points = [])
    (hmodels : ChainModels (mainChain state) chain)
    (h : isTransactionValidForPool env limits state cachedTransaction = some validatorState) :
    ∀ keyImage ∈ cachedTransaction.spentKeyImages, ∀ block ∈ chain, block.spends keyImage = false := by
  intro keyImage hk
  have hunspent := isTransactionValidForPool_checkedUnspent h keyImage hk
    (Checkpoints.isInCheckpointZone_of_points_nil hpoints _)
  exact hmodels.checkIfSpent_top_eq_false_iff.mp hunspent

theorem mem_addTransactionToPool {info : PendingTransactionInfo}
    (hinfo : info ∈ (addTransactionToPool env limits state wrapper now cachedTransaction).2.transactionPool.transactions) :
    info ∈ wrapper.transactionPool.transactions ∨
      info.cachedTransaction = cachedTransaction ∧ (isTransactionValidForPool env limits state cachedTransaction).isSome := by
  unfold addTransactionToPool at hinfo
  split at hinfo
  · exact .inl hinfo
  · rename_i validatorState hvalid
    rcases TransactionPoolCleanWrapper.mem_pushTransaction hinfo with rfl | hold
    · exact .inr ⟨rfl, by rw [hvalid]; rfl⟩
    · exact .inl hold

/-- What every `addTransactionToPool` on `state` keeps, `copyTransactionsToPool` keeps. -/
theorem copyTransactionsToPool_invariant (P : TransactionPoolCleanWrapper → Prop)
    (hadd : ∀ {wrapper : TransactionPoolCleanWrapper} (cachedTransaction : CachedTransaction), P wrapper →
      P (addTransactionToPool env limits state wrapper now cachedTransaction).2)
    (alt : Nat) (h : P wrapper) : P (copyTransactionsToPool env limits state now alt wrapper) := by
  unfold copyTransactionsToPool
  -- the segments from the old main leaf down to the main chain, and the raw transactions of each
  refine foldl_invariant P (fun wrapper q hwrapper => ?_) h
  split
  · exact hwrapper
  · refine foldl_invariant P (fun wrapper rawTransaction hwrapper => ?_) hwrapper
    unfold addRawTransactionToPool
    split
    · exact hwrapper
    · exact hadd _ hwrapper

/-- After a block on the main chain, the pool keeps only transactions that spend none of the
block's key images. -/
theorem actualizePoolTransactionsLite_kept (maxTransactionSize : Nat) (validatorState : TransactionValidatorState)
    (h : wrapper.transactionPool.Coherent) :
    ∃ wrapper', actualizePoolTransactionsLite maxTransactionSize validatorState wrapper = some wrapper' ∧
      ∀ info ∈ wrapper'.transactionPool.transactions, info ∈ wrapper.transactionPool.transactions ∧
        ∀ keyImage ∈ info.cachedTransaction.spentKeyImages, keyImage ∉ validatorState.spentKeyImages := by
  obtain ⟨wrapper', hactualize, htransactions, -⟩ :=
    @actualizeLite_loop maxTransactionSize validatorState wrapper.transactionPool.transactions [] wrapper rfl h.extractable
  refine ⟨wrapper', hactualize, fun info hinfo => ?_⟩
  rw [htransactions, List.nil_append, List.mem_filter] at hinfo
  obtain ⟨hmem, hkept⟩ := hinfo
  simp only [keptAfterBlock, Bool.and_eq_true, Bool.not_eq_true', List.any_eq_false, decide_eq_true_eq] at hkept
  exact ⟨hmem, hkept.1⟩

/-- After a switch, every transaction the pool takes back is valid for the pool on the new main
chain. -/
theorem actualizePoolTransactions_valid (env : CoreEnvironment) (limits : PoolLimits) (state : CoreState)
    (now : UInt64) (h : wrapper.transactionPool.Coherent) :
    ∃ wrapper', actualizePoolTransactions env limits state now wrapper = some wrapper' ∧
      ∀ info ∈ wrapper'.transactionPool.transactions,
        (isTransactionValidForPool env limits state info.cachedTransaction).isSome := by
  obtain ⟨wrapper', hactualize, hperm, -⟩ :=
    @actualize_loop env limits state now wrapper wrapper.transactionPool.transactions [] wrapper h (List.Perm.refl _)
      rfl rfl
  refine ⟨wrapper', hactualize, fun info hinfo => ?_⟩
  rw [List.nil_append] at hperm
  obtain ⟨readmitted, hreadmitted, rfl⟩ := List.mem_map.mp (hperm.subset hinfo)
  have hkept := (List.mem_filter.mp hreadmitted).2
  simp only [keptAfterSwitch, Bool.and_eq_true] at hkept
  exact hkept.1

end Core

section Unspent

variable {env : CoreEnvironment} {limits : PoolLimits} {state : CoreState} {now : UInt64}
  {chain : List PushedBlock} {wrapper wrapper' : TransactionPoolCleanWrapper}

theorem PoolUnspent.of_subset (h : PoolUnspent chain wrapper)
    (hsubset : wrapper'.transactionPool.transactions ⊆ wrapper.transactionPool.transactions) :
    PoolUnspent chain wrapper' :=
  fun info hinfo => h info (hsubset hinfo)

theorem PoolUnspent.removeTransaction (h : PoolUnspent chain wrapper) (hash : Hash) :
    PoolUnspent chain (wrapper.removeTransaction hash).2 :=
  h.of_subset (TransactionPool.removeTransaction_subset _ hash)

theorem PoolUnspent.clean {height : Nat} {currentTime : UInt64} {deleted : List Hash} (h : PoolUnspent chain wrapper)
    (hclean : wrapper.clean height currentTime = .ok (deleted, wrapper')) : PoolUnspent chain wrapper' :=
  TransactionPoolCleanWrapper.clean_invariant (PoolUnspent chain)
    (fun hash hunspent => hunspent.of_subset (TransactionPool.removeTransaction_subset _ hash)) id h hclean

theorem PoolUnspent.addTransactionToPool (hpoints : env.checkpoints.points = [])
    (hmodels : ChainModels (Core.mainChain state) chain) (h : PoolUnspent chain wrapper)
    (cachedTransaction : CachedTransaction) :
    PoolUnspent chain (Core.addTransactionToPool env limits state wrapper now cachedTransaction).2 := by
  intro info hinfo
  rcases Core.mem_addTransactionToPool hinfo with hold | ⟨hsame, hvalid⟩
  · exact h info hold
  · obtain ⟨validatorState, hvalid⟩ := Option.isSome_iff_exists.mp hvalid
    rw [hsame]
    exact Core.isTransactionValidForPool_unspent hpoints hmodels hvalid

end Unspent

/-! ### The runs of the node -/

/-- The nodes `Core` reaches from its genesis block by any interleaving of `addBlock`,
`addTransactionToPool`, removals from the pool and rounds of the cleaning procedure. A round whose
`clean` throws ends the procedure; the runs take the rounds that complete. -/
inductive CoreNode.Reachable (env : CoreEnvironment) (currency : Currency) (poolCurrency : PoolCurrency)
    (genesisBlock : CachedBlock) (rawGenesis : RawBlock) (timeout : UInt64) : CoreNode → Prop
  | init : CoreNode.Reachable env currency poolCurrency genesisBlock rawGenesis timeout
      (CoreNode.init env currency genesisBlock rawGenesis timeout)
  | addBlock {node : CoreNode} (now : UInt64) (cachedBlock : CachedBlock) (rawBlock : RawBlock) :
      CoreNode.Reachable env currency poolCurrency genesisBlock rawGenesis timeout node →
      CoreNode.Reachable env currency poolCurrency genesisBlock rawGenesis timeout
        (CoreNode.addBlock env currency poolCurrency now node cachedBlock rawBlock).2
  | addTransactionToPool {node : CoreNode} (now : UInt64) (cachedTransaction : CachedTransaction) :
      CoreNode.Reachable env currency poolCurrency genesisBlock rawGenesis timeout node →
      CoreNode.Reachable env currency poolCurrency genesisBlock rawGenesis timeout
        (node.addTransactionToPool env poolCurrency now cachedTransaction).2
  | removeTransaction {node : CoreNode} (hash : Hash) :
      CoreNode.Reachable env currency poolCurrency genesisBlock rawGenesis timeout node →
      CoreNode.Reachable env currency poolCurrency genesisBlock rawGenesis timeout (node.removeTransaction hash).2
  | clean {node node' : CoreNode} {now : UInt64} {deleted : List Hash} :
      node.cleanTransactionPool now = .ok (deleted, node') →
      CoreNode.Reachable env currency poolCurrency genesisBlock rawGenesis timeout node →
      CoreNode.Reachable env currency poolCurrency genesisBlock rawGenesis timeout node'

namespace CoreNode

theorem cleanTransactionPool_eq_ok {node node' : CoreNode} {now : UInt64} {deleted : List Hash}
    (h : node.cleanTransactionPool now = .ok (deleted, node')) :
    ∃ pool, node.pool.clean (getTopBlockIndex (Core.mainChain node.state)) now = .ok (deleted, pool) ∧
      node' = { node with pool := pool } := by
  unfold cleanTransactionPool at h
  cases hclean : node.pool.clean (getTopBlockIndex (Core.mainChain node.state)) now with
  | error hash => simp [hclean, Except.map] at h
  | ok result =>
    obtain ⟨cleaned, pool⟩ := result
    simp only [hclean, Except.map, Except.ok.injEq, Prod.mk.injEq] at h
    obtain ⟨rfl, rfl⟩ := h
    exact ⟨pool, rfl, rfl⟩

end CoreNode

/-- The invariant of `Core` with its pool: the segments' invariant over their flat chains, a main
leaf, the pool's key-image bookkeeping and, without checkpoints, no pool transaction spending a key
image of the main chain. -/
structure NodeInvariant (env : CoreEnvironment) (currency : Currency) (node : CoreNode)
    (chains : List (List PushedBlock)) : Prop where
  core : CoreInvariant (env.withCurrency currency) node.state chains
  mainLeaf : ∃ mainLeaf, node.state.chainsLeaves.head? = some mainLeaf
  coherent : node.pool.transactionPool.Coherent
  unspent : env.checkpoints.points = [] → ∀ {mainLeaf : Nat} {mainChain : List PushedBlock},
    node.state.chainsLeaves.head? = some mainLeaf → chains[mainLeaf]? = some mainChain → PoolUnspent mainChain node.pool

namespace NodeInvariant

variable {env : CoreEnvironment} {currency : Currency} {poolCurrency : PoolCurrency} {node : CoreNode}
  {chains : List (List PushedBlock)}

theorem init {genesisBlock : CachedBlock} {rawBlock : RawBlock} {timeout : UInt64}
    (hgenesis : genesisBlock.getBlockIndex = 0) :
    NodeInvariant env currency (CoreNode.init env currency genesisBlock rawBlock timeout)
      [[genesisPushedBlock genesisBlock rawBlock]] :=
  ⟨CoreInvariant.init hgenesis, ⟨0, rfl⟩, TransactionPool.new_coherent,
    fun _ _ _ _ _ _ hinfo => absurd hinfo List.not_mem_nil⟩

/-- A step on the pool alone keeps the invariant when it keeps the pool's bookkeeping and what the
pool spends against the main chain. -/
theorem withPool (h : NodeInvariant env currency node chains) {pool : TransactionPoolCleanWrapper}
    (hcoherent : pool.transactionPool.Coherent)
    (hunspent : env.checkpoints.points = [] → ∀ {mainChain : List PushedBlock},
      ChainModels (Core.mainChain node.state) mainChain → PoolUnspent mainChain node.pool → PoolUnspent mainChain pool) :
    NodeInvariant env currency { node with pool := pool } chains :=
  ⟨h.core, h.mainLeaf, hcoherent, fun hpoints _ _ hhead hmainChain =>
    hunspent hpoints (h.core.mainChainModels hhead hmainChain) (h.unspent hpoints hhead hmainChain)⟩

theorem addTransactionToPool (h : NodeInvariant env currency node chains) (now : UInt64)
    (cachedTransaction : CachedTransaction) :
    NodeInvariant env currency (node.addTransactionToPool env poolCurrency now cachedTransaction).2 chains :=
  h.withPool (Core.addTransactionToPool_coherent h.coherent now cachedTransaction)
    fun hpoints _ hmodels hunspent => hunspent.addTransactionToPool hpoints hmodels cachedTransaction

theorem removeTransaction (h : NodeInvariant env currency node chains) (hash : Hash) :
    NodeInvariant env currency (node.removeTransaction hash).2 chains :=
  h.withPool (TransactionPoolCleanWrapper.removeTransaction_coherent h.coherent hash)
    fun _ _ _ hunspent => hunspent.removeTransaction hash

theorem clean (h : NodeInvariant env currency node chains) {node' : CoreNode} {now : UInt64} {deleted : List Hash}
    (hclean : node.cleanTransactionPool now = .ok (deleted, node')) : NodeInvariant env currency node' chains := by
  obtain ⟨pool, hpool, rfl⟩ := CoreNode.cleanTransactionPool_eq_ok hclean
  exact h.withPool (TransactionPoolCleanWrapper.clean_coherent h.coherent hpool)
    fun _ _ _ hunspent => hunspent.clean hpool

/-- An accepted block keeps the invariant, branch by branch of the pool's update: a block on the
main chain filters the pool by the block's key images, a switch validates the pool and the old main
chain's transactions on the new main chain, and any other block leaves both the pool and the main
chain's blocks alone. -/
theorem applyAcceptedToNode (h : NodeInvariant env currency node chains) {now : UInt64} {cachedBlock : CachedBlock}
    {rawBlock : RawBlock} {accepted : AcceptedBlock}
    (hc : AddBlockChecked (env.withCurrency currency) node.state cachedBlock rawBlock accepted) :
    NodeInvariant env currency (Core.applyAcceptedToNode env currency poolCurrency now node accepted).2
      (Core.applyChains node.state chains accepted) := by
  obtain ⟨mainLeaf, hhead⟩ := h.mainLeaf
  obtain ⟨mainChain, hmainChain⟩ := h.core.mainChain_exists hhead
  obtain ⟨mainLeaf', hhead', hmain, halternative⟩ := Core.addBlockApply_mainChain h.core hc hhead hmainChain
  have hstate := CoreNode.applyAcceptedToNode_state env currency poolCurrency now node accepted
  have hcore := h.core.addBlockApply hc
  rw [← hstate] at hcore hhead'
  -- the main chain after the block, read at the new main leaf
  have hmainChain' : ∀ {leaf : Nat} {chain : List PushedBlock},
      (Core.applyAcceptedToNode env currency poolCurrency now node accepted).2.state.chainsLeaves.head? = some leaf →
      (Core.applyChains node.state chains accepted)[leaf]? = some chain →
      leaf = mainLeaf' ∧ (Core.applyChains node.state chains accepted)[mainLeaf']? = some chain := by
    intro leaf chain hleaf hchain
    obtain rfl : leaf = mainLeaf' := Option.some.inj (hleaf.symm.trans hhead')
    exact ⟨rfl, hchain⟩
  rcases CoreNode.applyAcceptedToNode_pool env currency poolCurrency now node accepted with
    ⟨hcode, hpool⟩ | ⟨hcode, hpool⟩ | ⟨hcode, hpool⟩
  · -- a block on the main chain: the pool loses the transactions spending one of its key images
    obtain ⟨lite, hlite, hkept⟩ := Core.actualizePoolTransactionsLite_kept _ accepted.block.validatorState h.coherent
    rw [hlite, Option.getD_some] at hpool
    refine ⟨hcore, ⟨mainLeaf', hhead'⟩, hpool ▸ Core.actualizePoolTransactionsLite_coherent h.coherent hlite, ?_⟩
    intro hpoints leaf chain hleaf hchain
    obtain ⟨rfl, hchain⟩ := hmainChain' hleaf hchain
    rw [hmain hcode, Option.some.injEq] at hchain
    subst hchain
    intro info hinfo keyImage hk block hblock
    rw [hpool] at hinfo
    obtain ⟨hold, hfresh⟩ := hkept info hinfo
    rcases List.mem_append.mp hblock with hblock | hblock
    · exact h.unspent hpoints hhead hmainChain info hold keyImage hk block hblock
    · rw [List.mem_singleton.mp hblock]
      simpa [PushedBlock.spends] using hfresh keyImage hk
  · -- a switch: the pool takes back what is valid on the new main chain, then the old main chain's transactions
    obtain ⟨actualized, hactualized, hvalid⟩ := Core.actualizePoolTransactions_valid env
      ⟨poolCurrency, Core.updateBlockMedianSize env currency (Core.addBlockApply node.state accepted).2⟩
      (Core.addBlockApply node.state accepted).2 now h.coherent
    rw [hactualized, Option.getD_some] at hpool
    refine ⟨hcore, ⟨mainLeaf', hhead'⟩, ?_, ?_⟩
    · rw [hpool]
      exact Core.copyTransactionsToPool_invariant (fun wrapper => wrapper.transactionPool.Coherent)
        (fun cachedTransaction hcoherent => Core.addTransactionToPool_coherent hcoherent now cachedTransaction) _
        (Core.actualizePoolTransactions_coherent h.coherent hactualized)
    · intro hpoints leaf chain hleaf hchain
      have hmodels : ChainModels (Core.mainChain (Core.addBlockApply node.state accepted).2) chain := by
        rw [← hstate]
        exact hcore.mainChainModels hleaf hchain
      rw [hpool]
      refine Core.copyTransactionsToPool_invariant (PoolUnspent chain)
        (fun cachedTransaction hunspent => hunspent.addTransactionToPool hpoints hmodels cachedTransaction) _ ?_
      intro info hinfo keyImage hk
      obtain ⟨validatorState, hvalidatorState⟩ := Option.isSome_iff_exists.mp (hvalid info hinfo)
      exact Core.isTransactionValidForPool_unspent hpoints hmodels hvalidatorState keyImage hk
  · -- any other block: the pool and the main chain's blocks stay
    refine ⟨hcore, ⟨mainLeaf', hhead'⟩, hpool ▸ h.coherent, ?_⟩
    intro hpoints leaf chain hleaf hchain
    obtain ⟨rfl, hchain⟩ := hmainChain' hleaf hchain
    rw [halternative hcode, Option.some.injEq] at hchain
    subst hchain
    rw [hpool]
    exact h.unspent hpoints hhead hmainChain

theorem addBlock (h : NodeInvariant env currency node chains) (now : UInt64) (cachedBlock : CachedBlock)
    (rawBlock : RawBlock) :
    ∃ chains', NodeInvariant env currency (CoreNode.addBlock env currency poolCurrency now node cachedBlock rawBlock).2
      chains' := by
  unfold CoreNode.addBlock
  cases hok : Core.addBlockChecks (env.withCurrency currency) node.state cachedBlock rawBlock with
  | error error => exact ⟨chains, h⟩
  | ok accepted => exact ⟨_, h.applyAcceptedToNode (Core.addBlockChecks_eq_ok hok)⟩

end NodeInvariant

theorem CoreNode.Reachable.invariant {env : CoreEnvironment} {currency : Currency} {poolCurrency : PoolCurrency}
    {genesisBlock : CachedBlock} {rawGenesis : RawBlock} {timeout : UInt64} {node : CoreNode}
    (hgenesis : genesisBlock.getBlockIndex = 0)
    (h : CoreNode.Reachable env currency poolCurrency genesisBlock rawGenesis timeout node) :
    ∃ chains, NodeInvariant env currency node chains := by
  induction h with
  | init => exact ⟨_, NodeInvariant.init hgenesis⟩
  | addBlock now cachedBlock rawBlock _ ih =>
    obtain ⟨chains, hinv⟩ := ih
    exact hinv.addBlock now cachedBlock rawBlock
  | addTransactionToPool now cachedTransaction _ ih =>
    obtain ⟨chains, hinv⟩ := ih
    exact ⟨chains, hinv.addTransactionToPool now cachedTransaction⟩
  | removeTransaction hash _ ih =>
    obtain ⟨chains, hinv⟩ := ih
    exact ⟨chains, hinv.removeTransaction hash⟩
  | clean hclean _ ih =>
    obtain ⟨chains, hinv⟩ := ih
    exact ⟨chains, hinv.clean hclean⟩

section Runs

variable {env : CoreEnvironment} {currency : Currency} {poolCurrency : PoolCurrency} {genesisBlock : CachedBlock}
  {rawGenesis : RawBlock} {timeout : UInt64} {node : CoreNode}

/-- In every state of `Core` with its pool, whatever the interleaving of its operations, the pool's
key images are disjoint, `poolState` holds exactly them and removing any transaction passes the
assertions of `excludeFromState`; and on a node without checkpoints `checkIfSpent` at the top of the
main chain finds none of them spent. -/
theorem pool_never_holds_spent_keyImage (hgenesis : genesisBlock.getBlockIndex = 0)
    (hrun : CoreNode.Reachable env currency poolCurrency genesisBlock rawGenesis timeout node) :
    node.pool.transactionPool.poolState.spentKeyImages ~ node.pool.transactionPool.spentKeyImages ∧
      node.pool.transactionPool.transactions.Pairwise (fun a b =>
        a.cachedTransaction.spentKeyImages.Disjoint b.cachedTransaction.spentKeyImages) ∧
      (∀ info ∈ node.pool.transactionPool.transactions,
        (∀ input ∈ info.cachedTransaction.transaction.inputs, input.keyImage?.isSome) ∧
          info.cachedTransaction.spentKeyImages <+~ node.pool.transactionPool.poolState.spentKeyImages) ∧
      (env.checkpoints.points = [] → ∀ info ∈ node.pool.transactionPool.transactions,
        ∀ keyImage ∈ info.cachedTransaction.spentKeyImages,
          checkIfSpent (Core.mainChain node.state) keyImage (getTopBlockIndex (Core.mainChain node.state)) = false) := by
  obtain ⟨chains, h⟩ := hrun.invariant hgenesis
  refine ⟨h.coherent.spentKeyImages, h.coherent.pairwise_disjoint,
    fun info hinfo => ⟨h.coherent.keyInputs hinfo, h.coherent.subperm hinfo⟩, ?_⟩
  intro hpoints info hinfo keyImage hk
  obtain ⟨mainLeaf, hhead⟩ := h.mainLeaf
  obtain ⟨mainChain, hmainChain⟩ := h.core.mainChain_exists hhead
  exact (h.core.mainChainModels hhead hmainChain).checkIfSpent_top_eq_false_iff.mpr
    (h.unspent hpoints hhead hmainChain info hinfo keyImage hk)

end Runs

/-- A currency with no coins left to emit: its blocks reward only their fees. -/
def spentCurrency : Currency := ⟨0, 25, 0, 100000⟩

/-- The pool rules of `CurrencyBuilder` with no minimum fee. -/
def freePoolCurrency : PoolCurrency := { PoolCurrency.default with minimumFee := 0 }

/-- Transactions 7, on key image 1, and 8, on key image 2, enter the pool at the genesis block;
block 1, which spends key image 1, goes on the main chain and takes transaction 7 out of the pool. -/
theorem pool_never_holds_spent_keyImage_afterBlock :
    let offered := ((CoreNode.init spendingEnvironment spentCurrency (blockAt 0 100 0) (rawOf 100) 86400).addTransactionToPool
      spendingEnvironment freePoolCurrency 5 (spendingTransaction 1 7 0)).2.addTransactionToPool spendingEnvironment
        freePoolCurrency 5 (spendingTransaction 2 8 0)
    let added := CoreNode.addBlock spendingEnvironment spentCurrency freePoolCurrency 6 offered.2 (blockAt 1 1 100)
      (rawSpending 1 1)
    let node := added.2
    offered.2.pool.transactionPool.getTransactionHashes = [hashOf 7, hashOf 8] ∧ added.1 = .addBlock .addedToMain ∧
      node.pool.transactionPool.getTransactionHashes = [hashOf 8] ∧
      node.pool.transactionPool.poolState.spentKeyImages ~ node.pool.transactionPool.spentKeyImages ∧
      node.pool.transactionPool.transactions.Pairwise (fun a b =>
        a.cachedTransaction.spentKeyImages.Disjoint b.cachedTransaction.spentKeyImages) ∧
      (∀ info ∈ node.pool.transactionPool.transactions,
        (∀ input ∈ info.cachedTransaction.transaction.inputs, input.keyImage?.isSome) ∧
          info.cachedTransaction.spentKeyImages <+~ node.pool.transactionPool.poolState.spentKeyImages) ∧
      (spendingEnvironment.checkpoints.points = [] → ∀ info ∈ node.pool.transactionPool.transactions,
        ∀ keyImage ∈ info.cachedTransaction.spentKeyImages,
          checkIfSpent (Core.mainChain node.state) keyImage (getTopBlockIndex (Core.mainChain node.state)) = false) := by
  intro offered added node
  have hoffered : offered.2.pool.transactionPool.getTransactionHashes = [hashOf 7, hashOf 8] := by decide +kernel
  have hadded : added.1 = .addBlock .addedToMain := by decide +kernel
  have hremoved : node.pool.transactionPool.getTransactionHashes = [hashOf 8] := by decide +kernel
  exact ⟨hoffered, hadded, hremoved, pool_never_holds_spent_keyImage rfl
    (((CoreNode.Reachable.init.addTransactionToPool _ _).addTransactionToPool _ _).addBlock _ _ _)⟩

/-- `spendingEnvironment` with a checkpoint at block 5: the blocks up to 5 are in the checkpoint zone. -/
def checkpointedEnvironment : CoreEnvironment :=
  { spendingEnvironment with checkpoints := ⟨[(5, hashOf 5)], List.nodup_singleton _⟩ }

/-- Below its checkpoint a node takes into its pool a transaction on a key image of its main chain:
block 1 spends key image 1, and transaction 7, on key image 1 too, enters the pool at the top block
1, where `validateTransaction` skips `checkIfSpent` because block 2 is in the checkpoint zone. -/
theorem pool_holds_spent_keyImage_in_checkpoint_zone :
    let node := ((CoreNode.addBlock checkpointedEnvironment spentCurrency freePoolCurrency 5
      (CoreNode.init checkpointedEnvironment spentCurrency (blockAt 0 100 0) (rawOf 100) 86400) (blockAt 1 1 100)
        (rawSpending 1 1)).2.addTransactionToPool checkpointedEnvironment freePoolCurrency 6 (spendingTransaction 1 7 0)).2
    CoreNode.Reachable checkpointedEnvironment spentCurrency freePoolCurrency (blockAt 0 100 0) (rawOf 100) 86400 node ∧
      ∃ info ∈ node.pool.transactionPool.transactions, ∃ keyImage ∈ info.cachedTransaction.spentKeyImages,
        checkIfSpent (Core.mainChain node.state) keyImage (getTopBlockIndex (Core.mainChain node.state)) = true :=
  ⟨(CoreNode.Reachable.init.addBlock _ _ _).addTransactionToPool _ _, by decide +kernel⟩

end Crygcoin
