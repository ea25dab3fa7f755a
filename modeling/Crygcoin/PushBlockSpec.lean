import Crygcoin.FlatChain

namespace Crygcoin

/-! What `doPushBlock` and its helpers do to each field of a segment. -/

namespace BlockchainCache

/-- Two versions of a segment that can differ only in their transactions and output indexes. -/
structure SameBlocks (cache cache' : BlockchainCache) : Prop where
  parent : cache'.parent = cache.parent
  startIndex : cache'.startIndex = cache.startIndex
  blockInfos : cache'.blockInfos = cache.blockInfos
  spentKeyImages : cache'.spentKeyImages = cache.spentKeyImages
  storage : cache'.storage = cache.storage
  children : cache'.children = cache.children

theorem SameBlocks.refl (cache : BlockchainCache) : SameBlocks cache cache :=
  ⟨rfl, rfl, rfl, rfl, rfl, rfl⟩

theorem SameBlocks.trans {cache cache' cache'' : BlockchainCache} (h : SameBlocks cache cache')
    (h' : SameBlocks cache' cache'') : SameBlocks cache cache'' :=
  ⟨h'.parent.trans h.parent, h'.startIndex.trans h.startIndex, h'.blockInfos.trans h.blockInfos,
    h'.spentKeyImages.trans h.spentKeyImages, h'.storage.trans h.storage, h'.children.trans h.children⟩

theorem insertKeyOutputToGlobalIndex_sameBlocks (parents : List BlockchainCache) (cache : BlockchainCache)
    (amount : UInt64) (output : PackedOutIndex) (blockIndex : Nat) :
    SameBlocks cache (cache.insertKeyOutputToGlobalIndex parents amount output blockIndex).1 := by
  unfold insertKeyOutputToGlobalIndex
  split <;> exact ⟨rfl, rfl, rfl, rfl, rfl, rfl⟩

theorem pushOutputs_sameBlocks (parents : List BlockchainCache) (blockIndex transactionIndex : Nat)
    (cache : BlockchainCache) (outputIndex : Nat) (outputs : List TransactionOutput) :
    SameBlocks cache (pushOutputs parents blockIndex transactionIndex cache outputIndex outputs).1 := by
  induction outputs generalizing cache outputIndex with
  | nil => exact SameBlocks.refl _
  | cons output outputs ih =>
    exact (insertKeyOutputToGlobalIndex_sameBlocks _ _ _ _ _).trans (ih _ _)

theorem pushTransaction_sameBlocks (parents : List BlockchainCache) (cache : BlockchainCache)
    (cachedTransaction : CachedTransaction) (blockIndex transactionIndex : Nat) :
    SameBlocks cache (cache.pushTransaction parents cachedTransaction blockIndex transactionIndex) := by
  have h := pushOutputs_sameBlocks parents blockIndex transactionIndex cache 0 cachedTransaction.transaction.outputs
  rcases hp : pushOutputs parents blockIndex transactionIndex cache 0 cachedTransaction.transaction.outputs
    with ⟨pushed, globalIndexes⟩
  rw [hp] at h
  simp only [pushTransaction, hp]
  split
  · exact h
  · exact h.trans ⟨rfl, rfl, rfl, rfl, rfl, rfl⟩

theorem pushTransactions_sameBlocks (parents : List BlockchainCache) (blockIndex : Nat)
    (cache : BlockchainCache) (transactionIndex : Nat) (cachedTransactions : List CachedTransaction) :
    SameBlocks cache (pushTransactions parents blockIndex cache transactionIndex cachedTransactions) := by
  induction cachedTransactions generalizing cache transactionIndex with
  | nil => exact SameBlocks.refl _
  | cons cachedTransaction cachedTransactions ih =>
    exact (pushTransaction_sameBlocks _ _ _ _ _).trans (ih _ _)

/-! Spent key images. -/

theorem addSpentKeyImage_spentKeyImages (cache : BlockchainCache) (keyImage : KeyImage) (blockIndex : Nat) :
    (cache.addSpentKeyImage keyImage blockIndex).spentKeyImages =
      if cache.spentKeyImages.any (·.keyImage == keyImage) then cache.spentKeyImages
      else cache.spentKeyImages ++ [⟨blockIndex, keyImage⟩] := by
  unfold addSpentKeyImage
  split <;> rfl

theorem mem_addSpentKeyImages {cache : BlockchainCache} {keyImages : List KeyImage} {blockIndex : Nat}
    {record : SpentKeyImage} (hnodup : keyImages.Nodup) :
    record ∈ (cache.addSpentKeyImages keyImages blockIndex).spentKeyImages ↔
      record ∈ cache.spentKeyImages ∨ (record.blockIndex = blockIndex ∧ record.keyImage ∈ keyImages ∧
        ∀ old ∈ cache.spentKeyImages, old.keyImage ≠ record.keyImage) := by
  induction keyImages generalizing cache with
  | nil => simp [addSpentKeyImages]
  | cons keyImage keyImages ih =>
    obtain ⟨hnew, hnodup⟩ := List.nodup_cons.mp hnodup
    simp only [addSpentKeyImages, List.foldl_cons] at ih ⊢
    rw [ih hnodup, addSpentKeyImage_spentKeyImages]
    by_cases hany : cache.spentKeyImages.any (·.keyImage == keyImage)
    · -- the key image is already recorded here: nothing is added for it
      obtain ⟨old, hold, heq⟩ := List.any_eq_true.mp hany
      rw [if_pos hany]
      constructor
      · rintro (h | ⟨h1, h2, h3⟩)
        · exact .inl h
        · exact .inr ⟨h1, List.mem_cons_of_mem _ h2, h3⟩
      · rintro (h | ⟨h1, h2, h3⟩)
        · exact .inl h
        · rcases List.mem_cons.mp h2 with h2 | h2
          · exact absurd ((beq_iff_eq.mp heq).trans h2.symm) (h3 old hold)
          · exact .inr ⟨h1, h2, h3⟩
    · rw [if_neg hany]
      have hfresh : ∀ old ∈ cache.spentKeyImages, old.keyImage ≠ keyImage := fun old hold heq =>
        hany (List.any_eq_true.mpr ⟨old, hold, beq_iff_eq.mpr heq⟩)
      constructor
      · rintro (h | ⟨h1, h2, h3⟩)
        · rcases List.mem_append.mp h with h | h
          · exact .inl h
          · rw [List.mem_singleton] at h
            subst h
            exact .inr ⟨rfl, List.mem_cons_self, hfresh⟩
        · exact .inr ⟨h1, List.mem_cons_of_mem _ h2, fun old hold => h3 old (List.mem_append_left _ hold)⟩
      · rintro (h | ⟨h1, h2, h3⟩)
        · exact .inl (List.mem_append_left _ h)
        · rcases List.mem_cons.mp h2 with h2 | h2
          · refine .inl (List.mem_append_right _ (List.mem_singleton.mpr ?_))
            cases record
            simp_all
          · refine .inr ⟨h1, h2, fun old hold => ?_⟩
            rcases List.mem_append.mp hold with hold | hold
            · exact h3 old hold
            · rw [List.mem_singleton] at hold
              subst hold
              intro heq
              have hkey : keyImage = record.keyImage := heq
              exact hnew (hkey ▸ h2)

/-- Two versions of a segment that can differ only in their spent key images. -/
structure SameOutputs (cache cache' : BlockchainCache) : Prop where
  parent : cache'.parent = cache.parent
  startIndex : cache'.startIndex = cache.startIndex
  blockInfos : cache'.blockInfos = cache.blockInfos
  keyOutputsGlobalIndexes : cache'.keyOutputsGlobalIndexes = cache.keyOutputsGlobalIndexes
  storage : cache'.storage = cache.storage
  children : cache'.children = cache.children
  transactions : cache'.transactions = cache.transactions

theorem addSpentKeyImages_sameOutputs (cache : BlockchainCache) (keyImages : List KeyImage) (blockIndex : Nat) :
    SameOutputs cache (cache.addSpentKeyImages keyImages blockIndex) := by
  induction keyImages generalizing cache with
  | nil => exact ⟨rfl, rfl, rfl, rfl, rfl, rfl, rfl⟩
  | cons keyImage keyImages ih =>
    have h : SameOutputs cache (cache.addSpentKeyImage keyImage blockIndex) := by
      unfold addSpentKeyImage
      split <;> exact ⟨rfl, rfl, rfl, rfl, rfl, rfl, rfl⟩
    have h' := ih (cache.addSpentKeyImage keyImage blockIndex)
    exact ⟨h'.parent.trans h.parent, h'.startIndex.trans h.startIndex, h'.blockInfos.trans h.blockInfos,
      h'.keyOutputsGlobalIndexes.trans h.keyOutputsGlobalIndexes, h'.storage.trans h.storage,
      h'.children.trans h.children, h'.transactions.trans h.transactions⟩

/-! Output indexes. -/

theorem lookup_map_update_self (entries : List (UInt64 × OutputGlobalIndexesForAmount)) (amount : UInt64)
    (entry : OutputGlobalIndexesForAmount) :
    (entries.map fun e => if e.1 = amount then (amount, entry) else e).lookup amount =
      (entries.lookup amount).map fun _ => entry := by
  induction entries with
  | nil => rfl
  | cons e entries ih =>
    obtain ⟨k, v⟩ := e
    by_cases hk : k = amount
    · subst hk
      simp
    · have hb : (amount == k) = false := beq_false_of_ne (Ne.symm hk)
      simp [List.lookup_cons, hk, hb, ih]

theorem lookup_map_update_ne (entries : List (UInt64 × OutputGlobalIndexesForAmount)) {amount amount' : UInt64}
    (entry : OutputGlobalIndexesForAmount) (hne : amount' ≠ amount) :
    (entries.map fun e => if e.1 = amount then (amount, entry) else e).lookup amount' = entries.lookup amount' := by
  induction entries with
  | nil => rfl
  | cons e entries ih =>
    obtain ⟨k, v⟩ := e
    by_cases hk : k = amount
    · subst hk
      have hb : (amount' == k) = false := beq_false_of_ne hne
      simp [List.lookup_cons, hb, ih]
    · simp [List.lookup_cons, hk, ih]

theorem map_fst_map_update (entries : List (UInt64 × OutputGlobalIndexesForAmount)) (amount : UInt64)
    (entry : OutputGlobalIndexesForAmount) :
    (entries.map fun e => if e.1 = amount then (amount, entry) else e).map Prod.fst = entries.map Prod.fst := by
  induction entries with
  | nil => rfl
  | cons e entries ih =>
    by_cases hk : e.1 = amount
    · simp [hk, ih]
    · simp [hk, ih]

/-- The entry of `amount` that the outputs `own` of a segment determine, its global indexes
counted from `below amount`. -/
def expectedEntry (below : UInt64 → Nat) (own : List (PackedOutIndex × UInt64)) (amount : UInt64) :
    Option OutputGlobalIndexesForAmount :=
  match outputsOfAmount own amount with
  | [] => none
  | outputs => some ⟨below amount, outputs⟩

/-- The output index of a segment: for each amount with outputs `own` here, one entry that lists
their positions, counted from the `below` outputs of the amount under the segment. -/
structure KeyOutputsModel (cache : BlockchainCache) (below : UInt64 → Nat)
    (own : List (PackedOutIndex × UInt64)) : Prop where
  find : ∀ amount, cache.findKeyOutputs amount = expectedEntry below own amount
  nodup : (cache.keyOutputsGlobalIndexes.map Prod.fst).Nodup

theorem insertKeyOutputToGlobalIndex_model {parents : List BlockchainCache} {cache : BlockchainCache}
    {below : UInt64 → Nat} {own : List (PackedOutIndex × UInt64)} {amount : UInt64} (output : PackedOutIndex)
    {blockIndex : Nat} (h : KeyOutputsModel cache below own)
    (hbelow : (if parents.isEmpty then 0 else getKeyOutputsCountForAmount parents amount blockIndex) = below amount) :
    KeyOutputsModel (cache.insertKeyOutputToGlobalIndex parents amount output blockIndex).1 below
        (own ++ [(output, amount)]) ∧
      (cache.insertKeyOutputToGlobalIndex parents amount output blockIndex).2 =
        below amount + (outputsOfAmount own amount).length := by
  have hfind := h.find amount
  simp only [List.isEmpty_iff] at hbelow
  unfold insertKeyOutputToGlobalIndex
  split
  next indexEntry hentry =>
    -- the amount has outputs here already: the new one goes to the end of its entry
    rw [hentry, expectedEntry] at hfind
    split at hfind
    · cases hfind
    next outputs hne houts =>
      cases hfind
      refine ⟨⟨fun amount' => ?_, ?_⟩, ?_⟩
      · by_cases hamount : amount' = amount
        · subst hamount
          simp only [findKeyOutputs] at hentry ⊢
          rw [lookup_map_update_self, hentry]
          simp [expectedEntry]
        · simp only [findKeyOutputs]
          rw [lookup_map_update_ne _ _ hamount, ← findKeyOutputs, h.find amount']
          simp [expectedEntry, Ne.symm hamount]
      · simpa only [map_fst_map_update] using h.nodup
      · simp
  next hentry =>
    -- a first output of the amount here: a new entry starts where the chain below ends
    rw [hentry, expectedEntry] at hfind
    split at hfind
    next houts =>
      refine ⟨⟨fun amount' => ?_, ?_⟩, ?_⟩
      · simp only [findKeyOutputs, List.lookup_append]
        by_cases hamount : amount' = amount
        · subst hamount
          rw [← findKeyOutputs, hentry]
          simp [expectedEntry, houts, hbelow]
        · have hb : (amount' == amount) = false := beq_false_of_ne hamount
          rw [← findKeyOutputs, h.find amount', List.lookup_cons, hb]
          simp [expectedEntry, Ne.symm hamount]
      · have hnot : amount ∉ cache.keyOutputsGlobalIndexes.map Prod.fst := by
          intro hmem
          obtain ⟨e, he, rfl⟩ := List.mem_map.mp hmem
          have := List.lookup_eq_none_iff.mp hentry e he
          simp at this
        simpa using h.nodup.concat hnot
      · simp [houts, hbelow]
    · cases hfind

theorem pushOutputs_cons (parents : List BlockchainCache) (blockIndex transactionIndex : Nat)
    (cache : BlockchainCache) (outputIndex : Nat) (output : TransactionOutput) (outputs : List TransactionOutput) :
    pushOutputs parents blockIndex transactionIndex cache outputIndex (output :: outputs) =
      let inserted := cache.insertKeyOutputToGlobalIndex parents output.amount
        ⟨blockIndex, transactionIndex, outputIndex⟩ blockIndex
      let rest := pushOutputs parents blockIndex transactionIndex inserted.1 (outputIndex + 1) outputs
      (rest.1, inserted.2 :: rest.2) := rfl

section Outputs

variable {parents : List BlockchainCache} {below : UInt64 → Nat} {blockIndex : Nat}

theorem pushOutputs_model {transactionIndex : Nat}
    (hbelow : ∀ amount, (if parents.isEmpty then 0 else getKeyOutputsCountForAmount parents amount blockIndex) =
      below amount)
    {cache : BlockchainCache} {own : List (PackedOutIndex × UInt64)} {outputIndex : Nat}
    {outputs : List TransactionOutput} (h : KeyOutputsModel cache below own) :
    KeyOutputsModel (pushOutputs parents blockIndex transactionIndex cache outputIndex outputs).1 below
      (own ++ outputPositions blockIndex transactionIndex outputIndex outputs) := by
  induction outputs generalizing cache own outputIndex with
  | nil => simpa [pushOutputs, outputPositions] using h
  | cons output outputs ih =>
    rw [pushOutputs_cons]
    have hstep := (insertKeyOutputToGlobalIndex_model ⟨blockIndex, transactionIndex, outputIndex⟩
      h (hbelow output.amount)).1
    simpa [outputPositions] using ih hstep

theorem pushTransaction_model
    (hbelow : ∀ amount, (if parents.isEmpty then 0 else getKeyOutputsCountForAmount parents amount blockIndex) =
      below amount)
    {cache : BlockchainCache} {own : List (PackedOutIndex × UInt64)} {cachedTransaction : CachedTransaction}
    {transactionIndex : Nat} (h : KeyOutputsModel cache below own) :
    KeyOutputsModel (cache.pushTransaction parents cachedTransaction blockIndex transactionIndex) below
      (own ++ outputPositions blockIndex transactionIndex 0 cachedTransaction.transaction.outputs) := by
  have hpushed : KeyOutputsModel
      (pushOutputs parents blockIndex transactionIndex cache 0 cachedTransaction.transaction.outputs).1 below
      (own ++ outputPositions blockIndex transactionIndex 0 cachedTransaction.transaction.outputs) :=
    pushOutputs_model hbelow h
  rcases hp : pushOutputs parents blockIndex transactionIndex cache 0 cachedTransaction.transaction.outputs
    with ⟨pushed, globalIndexes⟩
  rw [hp] at hpushed
  simp only [pushTransaction, hp]
  split
  · exact hpushed
  · exact ⟨hpushed.find, hpushed.nodup⟩

theorem pushTransactions_model
    (hbelow : ∀ amount, (if parents.isEmpty then 0 else getKeyOutputsCountForAmount parents amount blockIndex) =
      below amount)
    {cache : BlockchainCache} {own : List (PackedOutIndex × UInt64)} {transactionIndex : Nat}
    {cachedTransactions : List CachedTransaction} (h : KeyOutputsModel cache below own) :
    KeyOutputsModel (pushTransactions parents blockIndex cache transactionIndex cachedTransactions) below
      (own ++ transactionsOutputs blockIndex transactionIndex cachedTransactions) := by
  induction cachedTransactions generalizing cache own transactionIndex with
  | nil => simpa [pushTransactions, transactionsOutputs] using h
  | cons cachedTransaction cachedTransactions ih =>
    simpa [pushTransactions, transactionsOutputs] using ih (pushTransaction_model hbelow h)

end Outputs

/-- `pushBlock` with the arguments of one call. -/
def pushBlockOf (parents : List BlockchainCache) (cache : BlockchainCache) (block : PushedBlock) : BlockchainCache :=
  cache.pushBlock parents block.cachedBlock block.cachedTransactions block.validatorState block.blockSize
    block.generatedCoins block.blockDifficulty block.rawBlock

/-- The totals `doPushBlock` adds the block to: those of the segment's top block, else the
parent's at the block below, else zero. -/
def baseTotals (parents : List BlockchainCache) (cache : BlockchainCache) (blockIndex : Nat) : Totals :=
  match cache.blockInfos.getLast? with
  | some lastBlockInfo => Totals.ofInfo lastBlockInfo
  | none =>
    match parents with
    | [] => Totals.zero
    | parent :: _ =>
      ⟨parent.getCurrentCumulativeDifficultyAt (blockIndex - 1), getAlreadyGeneratedCoins parents (blockIndex - 1),
        getAlreadyGeneratedTransactions parents (blockIndex - 1)⟩

section PushBlock

variable (parents : List BlockchainCache) (cache : BlockchainCache) (block : PushedBlock)

theorem nextTotals_eq (blockIndex : Nat) :
    nextTotals parents cache blockIndex block.cachedTransactions.length block.generatedCoins block.blockDifficulty =
      let totals := (baseTotals parents cache blockIndex).next block
      (totals.cumulativeDifficulty, totals.alreadyGeneratedCoins, totals.alreadyGeneratedTransactions) := by
  unfold nextTotals baseTotals
  cases cache.blockInfos.getLast? with
  | some lastBlockInfo => rfl
  | none => cases parents <;> rfl

theorem pushBlockOf_eq : cache.pushBlockOf parents block =
    let blockIndex := block.cachedBlock.getBlockIndex
    let withInfo := { cache with
      blockInfos := cache.blockInfos ++ [blockInfoOf (baseTotals parents cache blockIndex) block] }
    let spent := withInfo.addSpentKeyImages block.validatorState.spentKeyImages blockIndex
    let pushed := pushTransactions parents blockIndex
      (spent.pushTransaction parents block.cachedBlock.baseCachedTransaction blockIndex 0) 1 block.cachedTransactions
    { pushed with storage := pushed.storage ++ [block.rawBlock] } := by
  simp only [pushBlockOf, pushBlock, doPushBlock, nextTotals_eq]
  rfl

/-- What one push leaves as it was and what it appends. -/
structure PushFrame (cache cache' : BlockchainCache) (info : CachedBlockInfo) (rawBlock : RawBlock) : Prop where
  parent : cache'.parent = cache.parent
  startIndex : cache'.startIndex = cache.startIndex
  children : cache'.children = cache.children
  blockInfos : cache'.blockInfos = cache.blockInfos ++ [info]
  storage : cache'.storage = cache.storage ++ [rawBlock]

theorem pushBlockOf_frame :
    PushFrame cache (cache.pushBlockOf parents block)
      (blockInfoOf (baseTotals parents cache block.cachedBlock.getBlockIndex) block) block.rawBlock := by
  rw [pushBlockOf_eq]
  dsimp only
  generalize hspent : BlockchainCache.addSpentKeyImages _ _ _ = spent
  have hs := addSpentKeyImages_sameOutputs
    { cache with blockInfos := cache.blockInfos ++
      [blockInfoOf (baseTotals parents cache block.cachedBlock.getBlockIndex) block] }
    block.validatorState.spentKeyImages block.cachedBlock.getBlockIndex
  rw [hspent] at hs
  have hp := (pushTransaction_sameBlocks parents spent block.cachedBlock.baseCachedTransaction
    block.cachedBlock.getBlockIndex 0).trans
    (pushTransactions_sameBlocks parents block.cachedBlock.getBlockIndex _ 1 block.cachedTransactions)
  exact ⟨hp.parent.trans hs.parent, hp.startIndex.trans hs.startIndex, hp.children.trans hs.children,
    hp.blockInfos.trans hs.blockInfos, congrArg (· ++ [block.rawBlock]) (hp.storage.trans hs.storage)⟩

theorem mem_pushBlockOf_spentKeyImages {record : SpentKeyImage} :
    record ∈ (cache.pushBlockOf parents block).spentKeyImages ↔
      record ∈ cache.spentKeyImages ∨ (record.blockIndex = block.cachedBlock.getBlockIndex ∧
        record.keyImage ∈ block.validatorState.spentKeyImages ∧
        ∀ old ∈ cache.spentKeyImages, old.keyImage ≠ record.keyImage) := by
  rw [pushBlockOf_eq]
  dsimp only
  have hp := (pushTransaction_sameBlocks parents
    (({ cache with blockInfos := cache.blockInfos ++
      [blockInfoOf (baseTotals parents cache block.cachedBlock.getBlockIndex) block] }).addSpentKeyImages
        block.validatorState.spentKeyImages block.cachedBlock.getBlockIndex)
    block.cachedBlock.baseCachedTransaction block.cachedBlock.getBlockIndex 0).trans
    (pushTransactions_sameBlocks parents block.cachedBlock.getBlockIndex _ 1 block.cachedTransactions)
  rw [hp.spentKeyImages, mem_addSpentKeyImages block.validatorState.nodup]

theorem pushBlockOf_model {below : UInt64 → Nat} {own : List (PackedOutIndex × UInt64)}
    (hbelow : ∀ amount, (if parents.isEmpty then 0 else
      getKeyOutputsCountForAmount parents amount block.cachedBlock.getBlockIndex) = below amount)
    (h : KeyOutputsModel cache below own) :
    KeyOutputsModel (cache.pushBlockOf parents block) below
      (own ++ blockOutputs block.cachedBlock.getBlockIndex block) := by
  rw [pushBlockOf_eq]
  dsimp only
  generalize hspent : BlockchainCache.addSpentKeyImages _ _ _ = spent
  have hs := addSpentKeyImages_sameOutputs
    { cache with blockInfos := cache.blockInfos ++
      [blockInfoOf (baseTotals parents cache block.cachedBlock.getBlockIndex) block] }
    block.validatorState.spentKeyImages block.cachedBlock.getBlockIndex
  rw [hspent] at hs
  have hspentModel : KeyOutputsModel spent below own :=
    ⟨fun amount => by rw [findKeyOutputs, hs.keyOutputsGlobalIndexes]; exact h.find amount,
      by rw [hs.keyOutputsGlobalIndexes]; exact h.nodup⟩
  have hbase : KeyOutputsModel
      (spent.pushTransaction parents block.cachedBlock.baseCachedTransaction block.cachedBlock.getBlockIndex 0) below
      (own ++ outputPositions block.cachedBlock.getBlockIndex 0 0
        block.cachedBlock.baseCachedTransaction.transaction.outputs) :=
    pushTransaction_model hbelow hspentModel
  have hpushed : KeyOutputsModel (pushTransactions parents block.cachedBlock.getBlockIndex
      (spent.pushTransaction parents block.cachedBlock.baseCachedTransaction block.cachedBlock.getBlockIndex 0) 1
      block.cachedTransactions) below
      ((own ++ outputPositions block.cachedBlock.getBlockIndex 0 0
        block.cachedBlock.baseCachedTransaction.transaction.outputs) ++
        transactionsOutputs block.cachedBlock.getBlockIndex 1 block.cachedTransactions) :=
    pushTransactions_model hbelow hbase
  refine ⟨fun amount => ?_, hpushed.nodup⟩
  have hfind := hpushed.find amount
  simp only [findKeyOutputs] at hfind ⊢
  rw [hfind]
  simp [blockOutputs, transactionsOutputs]

end PushBlock

end BlockchainCache

end Crygcoin
