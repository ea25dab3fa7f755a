import Crygcoin.BlockchainCacheUpdate

namespace Crygcoin

/-! What a chain of segments stands for: the flat list of the blocks pushed on the way from the
root, each as the arguments of its `pushBlock` call, and the answers a chain of blocks gives to
the queries of `IBlockchainCache`. -/

/-- The arguments of one `pushBlock` call. -/
structure PushedBlock where
  cachedBlock : CachedBlock
  cachedTransactions : List CachedTransaction
  validatorState : TransactionValidatorState
  blockSize : Nat
  generatedCoins : UInt64
  blockDifficulty : UInt64
  rawBlock : RawBlock

/-- The running totals after a block: cumulative difficulty, generated coins and transactions. -/
structure Totals where
  cumulativeDifficulty : UInt64
  alreadyGeneratedCoins : UInt64
  alreadyGeneratedTransactions : UInt64
deriving DecidableEq, Repr

def Totals.next (totals : Totals) (block : PushedBlock) : Totals :=
  ⟨totals.cumulativeDifficulty + block.blockDifficulty, totals.alreadyGeneratedCoins + block.generatedCoins,
    totals.alreadyGeneratedTransactions + UInt64.ofNat (block.cachedTransactions.length + 1)⟩

def Totals.ofInfo (info : CachedBlockInfo) : Totals :=
  ⟨info.cumulativeDifficulty, info.alreadyGeneratedCoins, info.alreadyGeneratedTransactions⟩

def Totals.zero : Totals := ⟨0, 0, 0⟩

/-- The `CachedBlockInfo` of a block pushed on top of `totals`. -/
def blockInfoOf (totals : Totals) (block : PushedBlock) : CachedBlockInfo :=
  let next := totals.next block
  ⟨block.cachedBlock.blockHash, block.cachedBlock.block.timestamp, next.cumulativeDifficulty,
    next.alreadyGeneratedCoins, next.alreadyGeneratedTransactions, UInt32.ofNat block.blockSize⟩

def chainInfosFrom (totals : Totals) : List PushedBlock → List CachedBlockInfo
  | [] => []
  | block :: blocks => blockInfoOf totals block :: chainInfosFrom (totals.next block) blocks

/-- The block infos of a chain: each block with the totals of the chain up to it. -/
def chainInfos (chain : List PushedBlock) : List CachedBlockInfo :=
  chainInfosFrom Totals.zero chain

def chainTotalsFrom (totals : Totals) (chain : List PushedBlock) : Totals :=
  chain.foldl Totals.next totals

/-- The last `count` values of `pred` over the blocks `(useGenesis ? 0 : 1) .. blockIndex`. -/
def lastUnits (infos : List CachedBlockInfo) (count blockIndex : Nat) (useGenesis : Bool)
    (pred : CachedBlockInfo → UInt64) : List UInt64 :=
  let blocks := (infos.take (blockIndex + 1)).drop (if useGenesis then 0 else 1)
  (blocks.drop (blocks.length - count)).map pred

def PushedBlock.spends (block : PushedBlock) (keyImage : KeyImage) : Bool :=
  block.validatorState.spentKeyImages.contains keyImage

/-- A key image is spent at or below `blockIndex`. -/
def isSpent (chain : List PushedBlock) (keyImage : KeyImage) (blockIndex : Nat) : Bool :=
  (chain.take (blockIndex + 1)).any (·.spends keyImage)

/-- The blocks above `blockIndex` that spend the key image are the first blocks of the chain to
spend it. -/
def FreshAbove (chain : List PushedBlock) (keyImage : KeyImage) (blockIndex : Nat) : Prop :=
  ∀ j block, blockIndex < j → chain[j]? = some block → keyImage ∈ block.validatorState.spentKeyImages →
    isSpent chain keyImage (j - 1) = false

/-- Each key image is spent in at most one block of the chain. -/
def SpentOnce (chain : List PushedBlock) : Prop :=
  ∀ keyImage (i j : Nat) (bi bj : PushedBlock), chain[i]? = some bi → chain[j]? = some bj → bi.spends keyImage →
    bj.spends keyImage → i = j

/-- The outputs of a transaction with their positions, in the order `pushTransaction` sees them. -/
def outputPositions (blockIndex transactionIndex : Nat) : Nat → List TransactionOutput →
    List (PackedOutIndex × UInt64)
  | _, [] => []
  | outputIndex, output :: outputs =>
    (⟨blockIndex, transactionIndex, outputIndex⟩, output.amount) ::
      outputPositions blockIndex transactionIndex (outputIndex + 1) outputs

def transactionsOutputs (blockIndex : Nat) : Nat → List CachedTransaction → List (PackedOutIndex × UInt64)
  | _, [] => []
  | transactionIndex, cachedTransaction :: cachedTransactions =>
    outputPositions blockIndex transactionIndex 0 cachedTransaction.transaction.outputs ++
      transactionsOutputs blockIndex (transactionIndex + 1) cachedTransactions

/-- The outputs of a block: the miner transaction's first, then those of the others. -/
def blockOutputs (blockIndex : Nat) (block : PushedBlock) : List (PackedOutIndex × UInt64) :=
  transactionsOutputs blockIndex 0 (block.cachedBlock.baseCachedTransaction :: block.cachedTransactions)

def chainOutputsFrom : Nat → List PushedBlock → List (PackedOutIndex × UInt64)
  | _, [] => []
  | blockIndex, block :: blocks => blockOutputs blockIndex block ++ chainOutputsFrom (blockIndex + 1) blocks

/-- Every output of the chain, in chain order. -/
def chainOutputs (chain : List PushedBlock) : List (PackedOutIndex × UInt64) :=
  chainOutputsFrom 0 chain

/-- The positions of the outputs of one amount: the `g`-th is the output with global index `g`. -/
def outputsOfAmount (outputs : List (PackedOutIndex × UInt64)) (amount : UInt64) : List PackedOutIndex :=
  (outputs.filter (·.2 == amount)).map (·.1)

/-- The number of outputs of `amount` in the blocks below `blockIndex`. -/
def keyOutputsBelow (chain : List PushedBlock) (amount : UInt64) (blockIndex : Nat) : Nat :=
  ((outputsOfAmount (chainOutputs chain) amount).filter (·.blockIndex < blockIndex)).length

@[simp] theorem chainInfosFrom_length (totals : Totals) (chain : List PushedBlock) :
    (chainInfosFrom totals chain).length = chain.length := by
  induction chain generalizing totals with
  | nil => rfl
  | cons block blocks ih => simp [chainInfosFrom, ih]

@[simp] theorem chainInfos_length (chain : List PushedBlock) : (chainInfos chain).length = chain.length :=
  chainInfosFrom_length _ _

theorem chainInfosFrom_append (totals : Totals) (chain rest : List PushedBlock) :
    chainInfosFrom totals (chain ++ rest) =
      chainInfosFrom totals chain ++ chainInfosFrom (chainTotalsFrom totals chain) rest := by
  induction chain generalizing totals with
  | nil => rfl
  | cons block blocks ih => simp [chainInfosFrom, chainTotalsFrom, ih]

theorem chainInfos_append_single (chain : List PushedBlock) (block : PushedBlock) :
    chainInfos (chain ++ [block]) = chainInfos chain ++ [blockInfoOf (chainTotalsFrom Totals.zero chain) block] := by
  simp [chainInfos, chainInfosFrom_append, chainInfosFrom]

theorem chainInfosFrom_take (totals : Totals) (chain : List PushedBlock) (k : Nat) :
    (chainInfosFrom totals chain).take k = chainInfosFrom totals (chain.take k) := by
  induction chain generalizing totals k with
  | nil => simp [chainInfosFrom]
  | cons block blocks ih =>
    cases k with
    | zero => simp [chainInfosFrom]
    | succ k => simp [chainInfosFrom, ih]

theorem chainInfos_take (chain : List PushedBlock) (k : Nat) :
    (chainInfos chain).take k = chainInfos (chain.take k) :=
  chainInfosFrom_take _ _ _

theorem chainInfos_map_blockHash (chain : List PushedBlock) :
    (chainInfos chain).map (·.blockHash) = chain.map (·.cachedBlock.blockHash) := by
  suffices ∀ totals, (chainInfosFrom totals chain).map (·.blockHash) = chain.map (·.cachedBlock.blockHash) from
    this _
  induction chain with
  | nil => intro totals; rfl
  | cons block blocks ih =>
    intro totals
    simp only [chainInfosFrom, List.map_cons, ih]
    rfl

theorem chainInfos_getElem? (chain : List PushedBlock) (i : Nat) :
    (chainInfos chain)[i]?.map (·.blockHash) = chain[i]?.map (·.cachedBlock.blockHash) := by
  suffices ∀ totals, (chainInfosFrom totals chain)[i]?.map (·.blockHash) = chain[i]?.map (·.cachedBlock.blockHash) from
    this _
  induction chain generalizing i with
  | nil => simp [chainInfosFrom]
  | cons block blocks ih =>
    intro totals
    cases i with
    | zero => simp [chainInfosFrom, blockInfoOf]
    | succ i => simpa [chainInfosFrom] using ih i (totals.next block)

@[simp] theorem outputsOfAmount_nil (amount : UInt64) : outputsOfAmount [] amount = [] := rfl

@[simp] theorem outputsOfAmount_append (outputs outputs' : List (PackedOutIndex × UInt64)) (amount : UInt64) :
    outputsOfAmount (outputs ++ outputs') amount = outputsOfAmount outputs amount ++ outputsOfAmount outputs' amount := by
  simp [outputsOfAmount]

@[simp] theorem outputsOfAmount_cons (output : PackedOutIndex) (amount' amount : UInt64)
    (outputs : List (PackedOutIndex × UInt64)) :
    outputsOfAmount ((output, amount') :: outputs) amount =
      if amount' = amount then output :: outputsOfAmount outputs amount else outputsOfAmount outputs amount := by
  by_cases h : amount' = amount <;> simp [outputsOfAmount, h]

theorem take_drop_append_take_drop {α : Type} (l : List α) {a n b m : Nat} (hb : a + n = b) :
    (l.drop a).take n ++ (l.drop b).take m = (l.drop a).take (n + m) := by
  rw [List.take_add, List.drop_drop, hb]

theorem lastUnits_zero (infos : List CachedBlockInfo) (blockIndex : Nat) (useGenesis : Bool)
    (pred : CachedBlockInfo → UInt64) : lastUnits infos 0 blockIndex useGenesis pred = [] := by
  simp only [lastUnits, Nat.sub_zero, List.drop_length, List.map_nil]

theorem lastUnits_eq {infos : List CachedBlockInfo} {count blockIndex : Nat} (useGenesis : Bool)
    (pred : CachedBlockInfo → UInt64) (hi : blockIndex < infos.length) :
    lastUnits infos count blockIndex useGenesis pred =
      ((infos.drop (max (if useGenesis then 0 else 1) (blockIndex + 1 - count))).take
        (blockIndex + 1 - max (if useGenesis then 0 else 1) (blockIndex + 1 - count))).map pred := by
  generalize hgen : (if useGenesis then 0 else 1) = skip
  have hskip : skip ≤ 1 := by rw [← hgen]; split <;> omega
  simp only [lastUnits, hgen, List.length_drop, List.length_take, List.drop_drop, List.drop_take]
  congr 2
  · omega
  · congr 1
    omega

theorem lastUnits_length {infos : List CachedBlockInfo} {count blockIndex : Nat} (useGenesis : Bool)
    (pred : CachedBlockInfo → UInt64) (hi : blockIndex < infos.length) :
    (lastUnits infos count blockIndex useGenesis pred).length =
      min count (blockIndex + 1 - if useGenesis then 0 else 1) := by
  have hskip : (if useGenesis then 0 else 1) ≤ 1 := by split <;> omega
  simp only [lastUnits, List.length_map, List.length_drop, List.length_take]
  omega

theorem lastUnits_take {infos : List CachedBlockInfo} {count blockIndex k : Nat} (useGenesis : Bool)
    (pred : CachedBlockInfo → UInt64) (hk : blockIndex + 1 ≤ k) :
    lastUnits (infos.take k) count blockIndex useGenesis pred = lastUnits infos count blockIndex useGenesis pred := by
  simp only [lastUnits, List.take_take, Nat.min_eq_left hk]

theorem mem_outputsOfAmount {outputs : List (PackedOutIndex × UInt64)} {amount : UInt64} {position : PackedOutIndex}
    (h : position ∈ outputsOfAmount outputs amount) : (position, amount) ∈ outputs := by
  obtain ⟨o, ho, rfl⟩ := List.mem_map.mp h
  obtain ⟨ho, hamount⟩ := List.mem_filter.mp ho
  rw [beq_iff_eq] at hamount
  rw [← hamount]
  exact ho

theorem takeWhile_of_forall_not (bound : Nat) {outputs : List PackedOutIndex}
    (h : ∀ output ∈ outputs, bound ≤ output.blockIndex) : outputs.takeWhile (·.blockIndex < bound) = [] := by
  cases outputs with
  | nil => rfl
  | cons output outputs =>
    have := h output List.mem_cons_self
    simp [show ¬ output.blockIndex < bound by omega]

theorem chainOutputsFrom_append (blockIndex : Nat) (chain rest : List PushedBlock) :
    chainOutputsFrom blockIndex (chain ++ rest) =
      chainOutputsFrom blockIndex chain ++ chainOutputsFrom (blockIndex + chain.length) rest := by
  induction chain generalizing blockIndex with
  | nil => simp [chainOutputsFrom]
  | cons block blocks ih =>
    simp only [List.cons_append, chainOutputsFrom, ih, List.append_assoc, List.length_cons]
    congr 3
    omega

theorem chainOutputs_take_append_drop (chain : List PushedBlock) {k : Nat} (hk : k ≤ chain.length) :
    chainOutputs chain = chainOutputs (chain.take k) ++ chainOutputsFrom k (chain.drop k) := by
  conv_lhs => rw [← List.take_append_drop k chain]
  rw [chainOutputs, chainOutputsFrom_append, List.length_take, Nat.min_eq_left hk, Nat.zero_add]
  rfl

theorem blockIndex_of_mem_outputPositions {blockIndex transactionIndex outputIndex : Nat}
    {outputs : List TransactionOutput} {output : PackedOutIndex × UInt64}
    (h : output ∈ outputPositions blockIndex transactionIndex outputIndex outputs) :
    output.1.blockIndex = blockIndex := by
  induction outputs generalizing outputIndex with
  | nil => simp [outputPositions] at h
  | cons o outputs ih =>
    rcases List.mem_cons.mp h with rfl | h
    · rfl
    · exact ih h

theorem blockIndex_of_mem_transactionsOutputs {blockIndex transactionIndex : Nat}
    {cachedTransactions : List CachedTransaction} {output : PackedOutIndex × UInt64}
    (h : output ∈ transactionsOutputs blockIndex transactionIndex cachedTransactions) :
    output.1.blockIndex = blockIndex := by
  induction cachedTransactions generalizing transactionIndex with
  | nil => simp [transactionsOutputs] at h
  | cons cachedTransaction cachedTransactions ih =>
    rcases List.mem_append.mp h with h | h
    · exact blockIndex_of_mem_outputPositions h
    · exact ih h

theorem blockIndex_of_mem_chainOutputsFrom {blockIndex : Nat} {chain : List PushedBlock}
    {output : PackedOutIndex × UInt64} (h : output ∈ chainOutputsFrom blockIndex chain) :
    blockIndex ≤ output.1.blockIndex ∧ output.1.blockIndex < blockIndex + chain.length := by
  induction chain generalizing blockIndex with
  | nil => simp [chainOutputsFrom] at h
  | cons block blocks ih =>
    rcases List.mem_append.mp h with h | h
    · have := blockIndex_of_mem_transactionsOutputs h
      simp only [List.length_cons]
      omega
    · have := ih h
      simp only [List.length_cons]
      omega

theorem takeWhile_outputsOfAmount_chainOutputsFrom (blockIndex bound : Nat) (chain : List PushedBlock)
    (amount : UInt64) :
    (outputsOfAmount (chainOutputsFrom blockIndex chain) amount).takeWhile (·.blockIndex < bound) =
      (outputsOfAmount (chainOutputsFrom blockIndex chain) amount).filter (·.blockIndex < bound) := by
  induction chain generalizing blockIndex with
  | nil => rfl
  | cons block blocks ih =>
    by_cases hlt : blockIndex < bound
    · -- the block lies below the bound: all of its outputs pass
      have hpass : ∀ position ∈ outputsOfAmount (blockOutputs blockIndex block) amount,
          decide (position.blockIndex < bound) = true := by
        intro position hp
        have hindex : position.blockIndex = blockIndex := blockIndex_of_mem_transactionsOutputs (mem_outputsOfAmount hp)
        simp only [decide_eq_true_eq]
        omega
      rw [chainOutputsFrom, outputsOfAmount_append, List.filter_append, List.takeWhile_append_of_pos hpass,
        List.filter_eq_self.mpr hpass, ih]
    · -- the block and all above it lie at or over the bound: nothing passes
      have hnone : ∀ position ∈ outputsOfAmount (chainOutputsFrom blockIndex (block :: blocks)) amount,
          bound ≤ position.blockIndex := by
        intro position hp
        have hindex : blockIndex ≤ position.blockIndex :=
          (blockIndex_of_mem_chainOutputsFrom (mem_outputsOfAmount hp)).1
        omega
      rw [takeWhile_of_forall_not bound hnone, eq_comm, List.filter_eq_nil_iff]
      intro position hp
      have := hnone position hp
      simp only [decide_eq_true_eq]
      omega

theorem keyOutputsBelow_of_length_le {chain : List PushedBlock} {blockIndex : Nat} (hl : chain.length ≤ blockIndex)
    (amount : UInt64) :
    keyOutputsBelow chain amount blockIndex = (outputsOfAmount (chainOutputs chain) amount).length := by
  rw [keyOutputsBelow, List.filter_eq_self.mpr]
  intro position hp
  have hindex := (blockIndex_of_mem_chainOutputsFrom (mem_outputsOfAmount hp)).2
  simp only [Nat.zero_add] at hindex
  simp only [decide_eq_true_eq]
  omega

theorem isSpent_iff {chain : List PushedBlock} {keyImage : KeyImage} {blockIndex : Nat} :
    isSpent chain keyImage blockIndex = true ↔
      ∃ i block, i ≤ blockIndex ∧ chain[i]? = some block ∧ keyImage ∈ block.validatorState.spentKeyImages := by
  simp only [isSpent, List.any_eq_true, PushedBlock.spends, List.contains_iff_mem, List.mem_iff_getElem?,
    List.getElem?_take]
  constructor
  · rintro ⟨block, ⟨i, hi⟩, hspends⟩
    split at hi
    · exact ⟨i, block, by omega, hi, hspends⟩
    · cases hi
  · rintro ⟨i, block, hi, hblock, hspends⟩
    exact ⟨block, ⟨i, by rw [if_pos (by omega), hblock]⟩, hspends⟩

theorem isSpent_take {chain : List PushedBlock} {keyImage : KeyImage} {blockIndex k : Nat}
    (hk : blockIndex + 1 ≤ k) : isSpent (chain.take k) keyImage blockIndex = isSpent chain keyImage blockIndex := by
  simp only [isSpent, List.take_take, Nat.min_eq_left hk]

theorem SpentOnce.take {chain : List PushedBlock} (h : SpentOnce chain) (k : Nat) : SpentOnce (chain.take k) := by
  intro keyImage i j bi bj hi hj hspi hspj
  rw [List.getElem?_take] at hi hj
  split at hi
  · split at hj
    · exact h keyImage i j bi bj hi hj hspi hspj
    · cases hj
  · cases hi

theorem FreshAbove.take {chain : List PushedBlock} {keyImage : KeyImage} {blockIndex : Nat}
    (h : FreshAbove chain keyImage blockIndex) (k : Nat) : FreshAbove (chain.take k) keyImage blockIndex := by
  intro j block hj hblock hmem
  rw [List.getElem?_take] at hblock
  split at hblock
  next hlt => rw [isSpent_take (by omega)]; exact h j block hj hblock hmem
  · cases hblock

theorem SpentOnce.freshAbove {chain : List PushedBlock} (h : SpentOnce chain) (keyImage : KeyImage)
    (blockIndex : Nat) : FreshAbove chain keyImage blockIndex := by
  intro j block hj hblock hmem
  cases hspent : isSpent chain keyImage (j - 1) with
  | false => rfl
  | true =>
    obtain ⟨i, block', hi, hblock', hmem'⟩ := isSpent_iff.mp hspent
    have hsame := h keyImage i j block' block hblock' hblock (List.contains_iff_mem.mpr hmem')
      (List.contains_iff_mem.mpr hmem)
    omega

theorem chainInfosFrom_getLast? {totals : Totals} {chain : List PushedBlock} {info : CachedBlockInfo}
    (h : (chainInfosFrom totals chain).getLast? = some info) :
    Totals.ofInfo info = chainTotalsFrom totals chain := by
  induction chain generalizing totals with
  | nil => simp [chainInfosFrom] at h
  | cons block blocks ih =>
    cases blocks with
    | nil =>
      simp only [chainInfosFrom, List.getLast?_singleton, Option.some.injEq] at h
      subst h
      rfl
    | cons block' blocks' =>
      rw [chainInfosFrom.eq_2, chainInfosFrom.eq_2, List.getLast?_cons_cons, ← chainInfosFrom.eq_2] at h
      exact ih h

end Crygcoin
