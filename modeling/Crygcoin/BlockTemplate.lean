import Crygcoin.PoolState

namespace Crygcoin

open scoped List

/-! `Core::fillBlockTemplate`, which picks the pool transactions of a new block template. It runs
twice over a copy of the pool's transactions: over the fee-free (fusion) ones from the end of the
pool's order, up to the first that pays a fee, within `fusionTxMaxSize`; then over all of them in
order, within `medianSize` for a fee-free one and `maxTotalSize` for the others. A transaction the
rules of the height no longer allow leaves the pool; the others join the template unless the
`TransactionSpentInputsChecker` both loops share has met one of their key images before.

`size_t` and `uint64_t` are `UInt64`. -/

/-- `TransactionSpentInputsChecker::haveSpentInputs(transaction)` on the checker's
`alreadSpentKeyImages`: whether the image of a key input is there already, and the set after the
call, which keeps the images inserted before the one found. -/
def haveSpentInputs : List KeyImage → List TransactionInput → Bool × List KeyImage
  | alreadSpentKeyImages, [] => (false, alreadSpentKeyImages)
  | alreadSpentKeyImages, .keyInput input :: inputs =>
    if input.keyImage ∈ alreadSpentKeyImages then (true, alreadSpentKeyImages)
    else haveSpentInputs (input.keyImage :: alreadSpentKeyImages) inputs
  | alreadSpentKeyImages, .baseInput _ :: inputs => haveSpentInputs alreadSpentKeyImages inputs

/-- `TransactionPool::getPoolTransactions()`: the transactions in the order of `transactionCostIndex`. -/
def TransactionPool.getPoolTransactions (pool : TransactionPool) : List CachedTransaction :=
  pool.transactions.map (·.cachedTransaction)

/-- `getTransactionBinaryArray().size()`, as `size_t`. -/
def CachedTransaction.blobSize (cachedTransaction : CachedTransaction) : UInt64 :=
  UInt64.ofNat (getObjectBinarySize cachedTransaction.transaction)

/-- What `fillBlockTemplate` reads of `currency`. -/
structure TemplateCurrency where
  fusionTxMaxSize : UInt64
  minerTxBlobReservedSize : UInt64

/-- What the loops of `fillBlockTemplate` change: the pool, `block.transactionHashes`,
`transactionsSize`, `fee` and the checker's set. -/
structure TemplateState where
  wrapper : TransactionPoolCleanWrapper
  transactionHashes : List Hash
  transactionsSize : UInt64
  fee : UInt64
  alreadSpentKeyImages : List KeyImage

namespace Core

/-- `validateBlockTemplateTransaction(cachedTransaction, blockHeight)`: the extra size limit and
the ring size rule of the height. -/
def validateBlockTemplateTransaction (cachedTransaction : CachedTransaction) (blockHeight : Nat) : Bool :=
  decide (cachedTransaction.transaction.extra.length < MAX_EXTRA_SIZE_V2) &&
    Mixins.validate [cachedTransaction] blockHeight

/-- The body of both loops of `fillBlockTemplate` for one transaction, with the size limit it
meets and whether its fee is added: it is skipped when it does not fit, removed from the pool when
the height no longer allows it, and added unless the checker has met one of its key images. -/
def fillStep (height : Nat) (blockSizeLimit : UInt64) (countFee : Bool) (filled : TemplateState)
    (cachedTransaction : CachedTransaction) : TemplateState :=
  let transactionBlobSize := cachedTransaction.blobSize
  if blockSizeLimit < filled.transactionsSize + transactionBlobSize then filled
  else if !validateBlockTemplateTransaction cachedTransaction height then
    { filled with wrapper := (filled.wrapper.removeTransaction cachedTransaction.transactionHash).2 }
  else
    match haveSpentInputs filled.alreadSpentKeyImages cachedTransaction.transaction.inputs with
    | (false, alreadSpentKeyImages) =>
      { filled with
        transactionHashes := filled.transactionHashes ++ [cachedTransaction.transactionHash]
        transactionsSize := filled.transactionsSize + transactionBlobSize
        fee := if countFee then filled.fee + cachedTransaction.getTransactionFee else filled.fee
        alreadSpentKeyImages }
    | (true, alreadSpentKeyImages) => { filled with alreadSpentKeyImages }

/-- A round of the first loop: a fusion transaction, within `fusionTxMaxSize`. -/
def fillFusionStep (currency : TemplateCurrency) (height : Nat) (filled : TemplateState)
    (transaction : CachedTransaction) : TemplateState :=
  fillStep height currency.fusionTxMaxSize false filled transaction

/-- A round of the second loop: within `medianSize` for a fee-free transaction and `maxTotalSize`
for the others. -/
def fillTransactionStep (medianSize maxTotalSize : UInt64) (height : Nat) (filled : TemplateState)
    (cachedTransaction : CachedTransaction) : TemplateState :=
  let blockSizeLimit := if cachedTransaction.getTransactionFee = 0 then medianSize else maxTotalSize
  fillStep height blockSizeLimit true filled cachedTransaction

/-- `fillBlockTemplate(block, medianSize, maxCumulativeSize, height, transactionsSize, fee)`: the
block with the picked hashes, `transactionsSize`, `fee`, and the pool after the removals. -/
def fillBlockTemplate (currency : TemplateCurrency) (wrapper : TransactionPoolCleanWrapper) (block : BlockTemplate)
    (medianSize maxCumulativeSize : UInt64) (height : Nat) :
    BlockTemplate × UInt64 × UInt64 × TransactionPoolCleanWrapper :=
  let maxTotalSize := min (125 * medianSize / 100) maxCumulativeSize - currency.minerTxBlobReservedSize
  let poolTransactions := wrapper.transactionPool.getPoolTransactions
  let fusion := (poolTransactions.reverse.takeWhile (·.getTransactionFee == 0)).foldl
    (fillFusionStep currency height) ⟨wrapper, block.transactionHashes, 0, 0, []⟩
  let filled := poolTransactions.foldl (fillTransactionStep medianSize maxTotalSize height) fusion
  ({ block with transactionHashes := filled.transactionHashes }, filled.transactionsSize, filled.fee, filled.wrapper)

end Core

section Checker

theorem subset_haveSpentInputs : ∀ {alreadSpent : List KeyImage} {inputs : List TransactionInput},
    alreadSpent ⊆ (haveSpentInputs alreadSpent inputs).2
  | _, [] => List.Subset.refl _
  | alreadSpent, .keyInput input :: inputs => by
    simp only [haveSpentInputs]
    split
    · exact List.Subset.refl _
    · exact List.Subset.trans (List.subset_cons_self _ _) subset_haveSpentInputs
  | alreadSpent, .baseInput _ :: inputs => @subset_haveSpentInputs alreadSpent inputs

theorem haveSpentInputs_eq_false :
    ∀ {alreadSpent alreadSpent' : List KeyImage} {inputs : List TransactionInput},
      haveSpentInputs alreadSpent inputs = (false, alreadSpent') →
        (inputs.filterMap TransactionInput.keyImage?).Nodup ∧
        (∀ k ∈ inputs.filterMap TransactionInput.keyImage?, k ∉ alreadSpent) ∧
        alreadSpent' = (inputs.filterMap TransactionInput.keyImage?).reverse ++ alreadSpent
  | _, _, [], h => by
    simp only [haveSpentInputs, Prod.mk.injEq, true_and] at h
    simp [h]
  | alreadSpent, alreadSpent', .keyInput input :: inputs, h => by
    simp only [haveSpentInputs] at h
    split at h
    · simp at h
    · rename_i hfresh
      obtain ⟨hnodup, hnew, hset⟩ := haveSpentInputs_eq_false h
      refine ⟨?_, ?_, ?_⟩
      · -- no later input spends this input's image
        simp only [List.filterMap_cons, TransactionInput.keyImage?, List.nodup_cons]
        exact ⟨fun hmem => hnew _ hmem List.mem_cons_self, hnodup⟩
      · intro k hk
        simp only [List.filterMap_cons, TransactionInput.keyImage?, List.mem_cons] at hk
        rcases hk with rfl | hk
        · exact hfresh
        · exact fun hmem => hnew k hk (List.mem_cons_of_mem _ hmem)
      · simp [hset, TransactionInput.keyImage?]
  | alreadSpent, alreadSpent', .baseInput _ :: inputs, h => by
    rw [List.filterMap_cons_none rfl]
    exact @haveSpentInputs_eq_false alreadSpent alreadSpent' inputs h

end Checker

namespace Core

/-- One call of `removeTransaction` on the pool. -/
def RemoveTransactionStep (wrapper wrapper' : TransactionPoolCleanWrapper) : Prop :=
  ∃ hash, (wrapper.removeTransaction hash).2 = wrapper'

theorem RemoveTransactionStep.poolStep {wrapper wrapper' : TransactionPoolCleanWrapper}
    (h : RemoveTransactionStep wrapper wrapper') : PoolStep wrapper wrapper' := by
  obtain ⟨hash, rfl⟩ := h
  exact PoolStep.removeTransaction hash

/-- What the loops of `fillBlockTemplate` keep: the hashes added to `start` are those of the
transactions picked, which the height allows and whose key images are distinct and all in the
checker's set; `transactionsSize` and `fee` are their sizes and fees summed; the pool has only lost
transactions through `removeTransaction` since `origin`. -/
structure Filled (height : Nat) (origin : TransactionPoolCleanWrapper) (start : List Hash)
    (filled : TemplateState) (picked : List CachedTransaction) : Prop where
  transactionHashes : filled.transactionHashes = start ++ picked.map (·.transactionHash)
  valid : ∀ cachedTransaction ∈ picked, validateBlockTemplateTransaction cachedTransaction height = true
  nodup : (picked.flatMap (·.spentKeyImages)).Nodup
  spent : ∀ k ∈ picked.flatMap (·.spentKeyImages), k ∈ filled.alreadSpentKeyImages
  transactionsSize : filled.transactionsSize = (picked.map (·.blobSize)).sum
  fee : filled.fee = (picked.map (·.getTransactionFee)).sum
  removals : Relation.ReflTransGen RemoveTransactionStep origin filled.wrapper

variable {height : Nat} {origin : TransactionPoolCleanWrapper} {start : List Hash} {filled : TemplateState}
  {picked : List CachedTransaction}

theorem Filled.init : Filled height origin start ⟨origin, start, 0, 0, []⟩ [] :=
  ⟨by simp, by simp, List.nodup_nil, by simp, rfl, rfl, Relation.ReflTransGen.refl⟩

theorem Filled.pick (h : Filled height origin start filled picked) {cachedTransaction : CachedTransaction}
    {countFee : Bool} {alreadSpent : List KeyImage}
    (hfee : countFee = false → cachedTransaction.getTransactionFee = 0)
    (hvalid : validateBlockTemplateTransaction cachedTransaction height = true)
    (hspent : haveSpentInputs filled.alreadSpentKeyImages cachedTransaction.transaction.inputs = (false, alreadSpent)) :
    Filled height origin start
      { filled with
        transactionHashes := filled.transactionHashes ++ [cachedTransaction.transactionHash]
        transactionsSize := filled.transactionsSize + cachedTransaction.blobSize
        fee := if countFee then filled.fee + cachedTransaction.getTransactionFee else filled.fee
        alreadSpentKeyImages := alreadSpent }
      (picked ++ [cachedTransaction]) := by
  obtain ⟨hnodup, hnew, hset⟩ := haveSpentInputs_eq_false hspent
  constructor
  · simp [h.transactionHashes]
  · intro x hx
    rcases List.mem_append.mp hx with hx | hx
    · exact h.valid x hx
    · rw [List.mem_singleton.mp hx]
      exact hvalid
  · -- the new images are none of the picked ones', which are all in the checker's set
    rw [List.flatMap_append, List.flatMap_singleton, List.nodup_append]
    exact ⟨h.nodup, hnodup, fun a ha b hb hab => hnew b hb (hab ▸ h.spent a ha)⟩
  · intro k hk
    rw [hset, List.mem_append, List.mem_reverse]
    rw [List.flatMap_append, List.flatMap_singleton, List.mem_append] at hk
    exact hk.elim (fun hk => .inr (h.spent k hk)) .inl
  · simp [h.transactionsSize]
  · cases countFee with
    | true => simp [h.fee]
    | false => simp [h.fee, hfee rfl]
  · exact h.removals

theorem Filled.step (h : Filled height origin start filled picked) {blockSizeLimit : UInt64} {countFee : Bool}
    {cachedTransaction : CachedTransaction} (hfee : countFee = false → cachedTransaction.getTransactionFee = 0) :
    ∃ added, added <+ [cachedTransaction] ∧
      Filled height origin start (fillStep height blockSizeLimit countFee filled cachedTransaction) (picked ++ added) := by
  unfold Core.fillStep
  dsimp only
  split
  · exact ⟨[], List.nil_sublist _, by simpa using h⟩
  · split
    · -- no longer allowed: it leaves the pool
      refine ⟨[], List.nil_sublist _, ?_⟩
      rw [List.append_nil]
      exact { h with removals := h.removals.tail ⟨_, rfl⟩ }
    · rename_i hvalid
      split
      · rename_i alreadSpent hspent
        exact ⟨[cachedTransaction], List.Sublist.refl _, h.pick hfee (by simpa using hvalid) hspent⟩
      · -- a key image met before: the set grows, nothing is picked
        rename_i alreadSpent hspent
        refine ⟨[], List.nil_sublist _, ?_⟩
        rw [List.append_nil]
        refine { h with spent := fun k hk => ?_ }
        have hsubset := @subset_haveSpentInputs filled.alreadSpentKeyImages cachedTransaction.transaction.inputs
        rw [hspent] at hsubset
        exact hsubset (h.spent k hk)

theorem fillBlockTemplate_filled (currency : TemplateCurrency) (wrapper : TransactionPoolCleanWrapper)
    (block : BlockTemplate) (medianSize maxCumulativeSize : UInt64) (height : Nat) :
    ∃ picked filled, (∀ cachedTransaction ∈ picked, cachedTransaction ∈ wrapper.transactionPool.getPoolTransactions) ∧
      Filled height wrapper block.transactionHashes filled picked ∧
      fillBlockTemplate currency wrapper block medianSize maxCumulativeSize height =
        ({ block with transactionHashes := filled.transactionHashes }, filled.transactionsSize, filled.fee, filled.wrapper) := by
  let poolTransactions := wrapper.transactionPool.getPoolTransactions
  let fusionTransactions := poolTransactions.reverse.takeWhile (·.getTransactionFee == 0)
  -- the first loop meets fee-free transactions only
  obtain ⟨fusionPicked, hfusionPicked, hfusion⟩ := foldl_picks (Filled height wrapper block.transactionHashes)
    (l := fusionTransactions) (f := fillFusionStep currency height)
    (fun filled picked cachedTransaction hmem h =>
      h.step fun _ => by simpa using List.mem_takeWhile_imp hmem)
    (Filled.init : Filled height wrapper block.transactionHashes _ [])
  let maxTotalSize := min (125 * medianSize / 100) maxCumulativeSize - currency.minerTxBlobReservedSize
  obtain ⟨transactionPicked, htransactionPicked, htransaction⟩ := foldl_picks (Filled height wrapper block.transactionHashes)
    (l := poolTransactions) (f := fillTransactionStep medianSize maxTotalSize height)
    (fun filled picked cachedTransaction _ h => h.step nofun) hfusion
  refine ⟨[] ++ fusionPicked ++ transactionPicked, _, ?_, htransaction, rfl⟩
  intro cachedTransaction hmem
  simp only [List.nil_append, List.mem_append] at hmem
  rcases hmem with hmem | hmem
  · exact List.mem_reverse.mp ((List.takeWhile_sublist _).subset (hfusionPicked.subset hmem))
  · exact htransactionPicked.subset hmem

/-- The template never spends a key image twice: `fillBlockTemplate` appends the hashes of pool
transactions the height allows, whose key images are pairwise distinct; `transactionsSize` and `fee`
are their sizes and fees summed as `size_t` and `uint64_t`, and every change to the pool is a call of
`removeTransaction`. -/
theorem fillBlockTemplate_spends_once (currency : TemplateCurrency) (wrapper : TransactionPoolCleanWrapper)
    (block : BlockTemplate) (medianSize maxCumulativeSize : UInt64) (height : Nat) :
    ∃ picked : List CachedTransaction,
      (∀ cachedTransaction ∈ picked, cachedTransaction ∈ wrapper.transactionPool.getPoolTransactions ∧
        validateBlockTemplateTransaction cachedTransaction height = true) ∧
      (fillBlockTemplate currency wrapper block medianSize maxCumulativeSize height).1.transactionHashes =
        block.transactionHashes ++ picked.map (·.transactionHash) ∧
      (picked.flatMap (·.spentKeyImages)).Nodup ∧
      (fillBlockTemplate currency wrapper block medianSize maxCumulativeSize height).2.1 =
        (picked.map (·.blobSize)).sum ∧
      (fillBlockTemplate currency wrapper block medianSize maxCumulativeSize height).2.2.1 =
        (picked.map (·.getTransactionFee)).sum ∧
      Relation.ReflTransGen RemoveTransactionStep wrapper
        (fillBlockTemplate currency wrapper block medianSize maxCumulativeSize height).2.2.2 := by
  obtain ⟨picked, filled, hpool, hfilled, hresult⟩ :=
    fillBlockTemplate_filled currency wrapper block medianSize maxCumulativeSize height
  rw [hresult]
  exact ⟨picked, fun x hx => ⟨hpool x hx, hfilled.valid x hx⟩, hfilled.transactionHashes, hfilled.nodup,
    hfilled.transactionsSize, hfilled.fee, hfilled.removals⟩

/-- No transaction goes into a new template twice, though the second loop meets again the fusion
transactions the first one picked: the checker has their key images, provided each pool transaction
spends one. -/
theorem fillBlockTemplate_picks_once {currency : TemplateCurrency} {wrapper : TransactionPoolCleanWrapper}
    {block : BlockTemplate} {medianSize maxCumulativeSize : UInt64} {height : Nat}
    (hblock : block.transactionHashes = [])
    (hkeys : ∀ cachedTransaction ∈ wrapper.transactionPool.getPoolTransactions, cachedTransaction.spentKeyImages ≠ []) :
    (fillBlockTemplate currency wrapper block medianSize maxCumulativeSize height).1.transactionHashes.Nodup := by
  obtain ⟨picked, filled, hpool, hfilled, hresult⟩ :=
    fillBlockTemplate_filled currency wrapper block medianSize maxCumulativeSize height
  rw [hresult]
  dsimp only
  rw [hfilled.transactionHashes, hblock, List.nil_append]
  have hpicked : picked.Nodup := nodup_of_nodup_flatMap hfilled.nodup fun x hx => hkeys x (hpool x hx)
  -- the pool's hashes are distinct, so distinct pool transactions have distinct hashes
  have hhashes : (wrapper.transactionPool.getPoolTransactions.map (·.transactionHash)).Nodup := by
    rw [TransactionPool.getPoolTransactions, List.map_map]
    exact wrapper.transactionPool.nodup
  exact hpicked.map_on fun x hx y hy hxy => List.inj_on_of_nodup_map hhashes (hpool x hx) (hpool y hy) hxy

/-- A pool of one fee-free transaction with one key input. -/
def oneFusionTransactionPool : TransactionPoolCleanWrapper :=
  ⟨⟨[⟨0, ⟨⟨⟨1, 0, [.keyInput ⟨0, [0], ⟨Vector.replicate 32 1⟩⟩], [], []⟩, [[⟨Vector.replicate 64 0⟩]]⟩, hashOf 7⟩⟩],
    by decide, ⟨[⟨Vector.replicate 32 1⟩], by decide⟩⟩, [], 0⟩

/-- Both loops meet the one fusion transaction and the second finds its key image in the checker:
its hash is in the template once. -/
theorem fillBlockTemplate_picks_once_fusion :
    (blockAt 0 0 0).block.transactionHashes = [] ∧
      (∀ cachedTransaction ∈ oneFusionTransactionPool.transactionPool.getPoolTransactions,
        cachedTransaction.spentKeyImages ≠ []) ∧
      (fillBlockTemplate ⟨1000, 0⟩ oneFusionTransactionPool (blockAt 0 0 0).block 1000 1000 0).1.transactionHashes =
        [hashOf 7] ∧
      (fillBlockTemplate ⟨1000, 0⟩ oneFusionTransactionPool (blockAt 0 0 0).block 1000 1000 0).1.transactionHashes.Nodup :=
  ⟨rfl, by decide, by decide +kernel, fillBlockTemplate_picks_once rfl (by decide)⟩

end Core

theorem PoolReachable.fillBlockTemplate {currency : TemplateCurrency} {wrapper : TransactionPoolCleanWrapper}
    {block : BlockTemplate} {medianSize maxCumulativeSize : UInt64} {height : Nat} (h : PoolReachable wrapper) :
    PoolReachable (Core.fillBlockTemplate currency wrapper block medianSize maxCumulativeSize height).2.2.2 := by
  obtain ⟨picked, filled, -, hfilled, hresult⟩ :=
    Core.fillBlockTemplate_filled currency wrapper block medianSize maxCumulativeSize height
  rw [hresult]
  exact h.of_reflTransGen (Relation.ReflTransGen.mono (fun _ _ hstep => Core.RemoveTransactionStep.poolStep hstep)
    _ _ hfilled.removals)

end Crygcoin
