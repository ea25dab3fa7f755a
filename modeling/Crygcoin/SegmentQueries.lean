import Crygcoin.SplitSpec

namespace Crygcoin

/-! The queries that follow the parent pointer answer as the flat chain does, on every chain of
segments that holds the chain's blocks piece by piece. -/

/-- A segment holds the blocks of `chain` from its start index on: their infos and raw blocks,
records of key images spent there, and the output index of its own outputs. -/
structure SegmentModels (cache : BlockchainCache) (chain : List PushedBlock) : Prop where
  start_le : cache.startIndex ≤ chain.length
  blockInfos : cache.blockInfos = (chainInfos chain).drop cache.startIndex
  storage : cache.storage = (chain.map (·.rawBlock)).drop cache.startIndex
  spentSound : ∀ record ∈ cache.spentKeyImages, cache.startIndex ≤ record.blockIndex ∧
    ∃ block, chain[record.blockIndex]? = some block ∧ record.keyImage ∈ block.validatorState.spentKeyImages
  spentComplete : ∀ i block keyImage, cache.startIndex ≤ i → chain[i]? = some block →
    keyImage ∈ block.validatorState.spentKeyImages →
    (∃ record ∈ cache.spentKeyImages, record.keyImage = keyImage ∧ record.blockIndex ≤ i) ∨
      ∃ j block', j < cache.startIndex ∧ chain[j]? = some block' ∧ keyImage ∈ block'.validatorState.spentKeyImages
  keyOutputs : cache.KeyOutputsModel (fun amount => (outputsOfAmount (chainOutputs (chain.take cache.startIndex)) amount).length)
    (chainOutputsFrom cache.startIndex (chain.drop cache.startIndex))

/-- The segments from one segment to the root hold `chain`: the root from block 0, each other
segment on top of its parent's blocks, which are never empty. -/
inductive ChainModels : List BlockchainCache → List PushedBlock → Prop
  | root {cache : BlockchainCache} {chain : List PushedBlock} :
      SegmentModels cache chain → cache.startIndex = 0 → ChainModels [cache] chain
  | cons {cache parent : BlockchainCache} {parents : List BlockchainCache} {chain : List PushedBlock} :
      SegmentModels cache chain → ChainModels (parent :: parents) (chain.take cache.startIndex) →
      parent.startIndex < cache.startIndex → ChainModels (cache :: parent :: parents) chain

theorem SegmentModels.length {cache : BlockchainCache} {chain : List PushedBlock} (h : SegmentModels cache chain) :
    cache.startIndex + cache.blockInfos.length = chain.length := by
  rw [h.blockInfos, List.length_drop, chainInfos_length]
  have := h.start_le
  omega

theorem SegmentModels.getTopBlockIndex {cache : BlockchainCache} {chain : List PushedBlock}
    (h : SegmentModels cache chain) : cache.getTopBlockIndex = chain.length - 1 := by
  have := h.length
  simp only [BlockchainCache.getTopBlockIndex]
  omega

theorem ChainModels.head {segments : List BlockchainCache} {chain : List PushedBlock} (h : ChainModels segments chain) :
    ∃ cache parents, segments = cache :: parents ∧ SegmentModels cache chain := by
  cases h with
  | root hm => exact ⟨_, _, rfl, hm⟩
  | cons hm => exact ⟨_, _, rfl, hm⟩

theorem ChainModels.getTopBlockIndex {segments : List BlockchainCache} {chain : List PushedBlock}
    (h : ChainModels segments chain) : Crygcoin.getTopBlockIndex segments = chain.length - 1 := by
  obtain ⟨cache, parents, rfl, hm⟩ := h.head
  exact hm.getTopBlockIndex

theorem SegmentModels.getElem?_blockInfos {cache : BlockchainCache} {chain : List PushedBlock}
    (h : SegmentModels cache chain) {blockIndex : Nat} (hi : cache.startIndex ≤ blockIndex) :
    cache.blockInfos[blockIndex - cache.startIndex]? = (chainInfos chain)[blockIndex]? := by
  rw [h.blockInfos, List.getElem?_drop]
  congr 1
  omega

section Queries

variable {segments : List BlockchainCache} {chain : List PushedBlock}

theorem ChainModels.blockEntry {α : Type} {field : BlockchainCache → List α}
    {entries : List PushedBlock → List α}
    (htake : ∀ (chain : List PushedBlock) k, entries (chain.take k) = (entries chain).take k)
    (hfield : ∀ cache chain, SegmentModels cache chain → field cache = (entries chain).drop cache.startIndex)
    (h : ChainModels segments chain) (blockIndex : Nat) :
    Crygcoin.blockEntry field segments blockIndex = (entries chain)[blockIndex]? := by
  induction h generalizing blockIndex with
  | @root cache chain hm hstart =>
    rw [Crygcoin.blockEntry, if_neg (by omega), hfield _ _ hm, List.getElem?_drop, hstart, Nat.zero_add,
      Nat.sub_zero]
  | @cons cache parent parents chain hm hparent hlt ih =>
    unfold Crygcoin.blockEntry
    split
    next hi => rw [ih, htake, List.getElem?_take_of_lt hi]
    next hi =>
      rw [hfield _ _ hm, List.getElem?_drop]
      congr 1
      omega

theorem ChainModels.blockEntry_blockInfos (h : ChainModels segments chain) (blockIndex : Nat) :
    Crygcoin.blockEntry (·.blockInfos) segments blockIndex = (chainInfos chain)[blockIndex]? :=
  h.blockEntry (fun chain k => (chainInfos_take chain k).symm) (fun _ _ hm => hm.blockInfos) blockIndex

theorem ChainModels.getBlockHash (h : ChainModels segments chain) (blockIndex : Nat) :
    Crygcoin.getBlockHash segments blockIndex = chain[blockIndex]?.map (·.cachedBlock.blockHash) := by
  rw [Crygcoin.getBlockHash, h.blockEntry_blockInfos, chainInfos_getElem?]

theorem ChainModels.getBlockByIndex (h : ChainModels segments chain) (index : Nat) :
    Crygcoin.getBlockByIndex segments index = chain[index]?.map (·.rawBlock) := by
  rw [Crygcoin.getBlockByIndex, h.blockEntry (fun chain k => List.map_take) (fun _ _ hm => hm.storage),
    List.getElem?_map]

theorem ChainModels.getAlreadyGeneratedCoins (h : ChainModels segments chain) (blockIndex : Nat) :
    Crygcoin.getAlreadyGeneratedCoins segments blockIndex =
      (((chainInfos chain)[blockIndex]?).map (·.alreadyGeneratedCoins)).getD 0 := by
  rw [Crygcoin.getAlreadyGeneratedCoins, h.blockEntry_blockInfos]

theorem ChainModels.getAlreadyGeneratedTransactions (h : ChainModels segments chain) (blockIndex : Nat) :
    Crygcoin.getAlreadyGeneratedTransactions segments blockIndex =
      (((chainInfos chain)[blockIndex]?).map (·.alreadyGeneratedTransactions)).getD 0 := by
  rw [Crygcoin.getAlreadyGeneratedTransactions, h.blockEntry_blockInfos]

theorem ChainModels.getBlockHashes (h : ChainModels segments chain) {startBlockIndex : Nat}
    (hstart : startBlockIndex ≤ chain.length) (maxCount : Nat) :
    Crygcoin.getBlockHashes segments startBlockIndex maxCount =
      (((chainInfos chain).drop startBlockIndex).take maxCount).map (·.blockHash) := by
  induction h generalizing startBlockIndex maxCount with
  | @root cache chain hm hzero =>
    rw [Crygcoin.getBlockHashes, if_neg (by omega)]
    dsimp only
    rw [hm.blockInfos, hzero, List.drop_zero, Nat.sub_zero]
    congr 1
    rw [List.take_eq_take_iff]
    simp only [List.length_drop, chainInfos_length]
    omega
  | @cons cache parent parents chain hm hparent hlt ih =>
    have hle := hm.start_le
    unfold Crygcoin.getBlockHashes
    split
    next hi =>
      -- the parent lists the hashes below this segment, this segment goes on from its start
      dsimp only
      rw [ih (by simp; omega) maxCount, ← chainInfos_take, hm.blockInfos]
      have hsplit : (chainInfos chain).drop startBlockIndex =
          ((chainInfos chain).take cache.startIndex).drop startBlockIndex ++
            (chainInfos chain).drop cache.startIndex := by
        conv_lhs => rw [← List.take_append_drop cache.startIndex (chainInfos chain)]
        rw [List.drop_append_of_le_length (by simp; omega)]
      rw [hsplit, List.take_append, List.map_append]
      congr 2
      rw [List.take_eq_take_iff]
      simp only [List.length_map, List.length_take, List.length_drop, chainInfos_length]
      omega
    next hi =>
      dsimp only
      have hindex : cache.startIndex + (startBlockIndex - cache.startIndex) = startBlockIndex := by omega
      rw [hm.blockInfos, List.drop_drop, hindex]
      congr 1
      rw [List.take_eq_take_iff]
      simp only [List.length_drop, chainInfos_length]
      omega

theorem ChainModels.getLastUnits (h : ChainModels segments chain) {count blockIndex : Nat} (useGenesis : Bool)
    (pred : CachedBlockInfo → UInt64) (hi : blockIndex < chain.length) :
    Crygcoin.getLastUnits segments count blockIndex useGenesis pred =
      lastUnits (chainInfos chain) count blockIndex useGenesis pred := by
  induction h generalizing count blockIndex with
  | @root cache chain hm hzero =>
    -- the root alone: one slice, which skips the genesis block when asked to
    rw [lastUnits_eq useGenesis pred (by simpa using hi)]
    simp only [Crygcoin.getLastUnits, hzero, Nat.not_lt_zero, if_false, Nat.sub_zero, List.isEmpty_nil,
      Bool.and_true, ite_self, List.nil_append, hm.blockInfos, List.drop_zero]
    cases useGenesis with
    | true =>
      have hstart : blockIndex + 1 - min count (blockIndex + 1) = max 0 (blockIndex + 1 - count) := by omega
      simp only [Bool.not_true, Bool.false_and, Bool.false_eq_true, if_false, if_true, hstart]
    | false =>
      simp only [Bool.not_false, Bool.true_and, Bool.false_eq_true, if_false, Bool.and_eq_true, beq_iff_eq,
        bne_iff_ne]
      split_ifs with hskip
      · have hstart : blockIndex + 1 - min count (blockIndex + 1) + 1 = max 1 (blockIndex + 1 - count) := by omega
        rw [hstart]
      · have hstart : blockIndex + 1 - min count (blockIndex + 1) = max 1 (blockIndex + 1 - count) := by omega
        rw [hstart]
  | @cons cache parent parents chain hm hparent hlt ih =>
    have hle := hm.start_le
    have htop : Crygcoin.getTopBlockIndex (parent :: parents) = cache.startIndex - 1 := by
      rw [hparent.getTopBlockIndex, List.length_take, Nat.min_eq_left hle]
    by_cases hlow : blockIndex < cache.startIndex
    · rw [Crygcoin.getLastUnits.eq_2]
      simp only [if_pos hlow, List.isEmpty_cons, htop, Bool.and_false, Bool.not_false, Bool.and_true, Nat.min_zero,
        Nat.zero_sub, List.drop_zero, List.take_zero, List.map_nil, List.append_nil, Bool.false_eq_true, if_false,
        decide_eq_true_eq]
      split
      · rw [Nat.sub_zero, Nat.min_eq_left (by omega : blockIndex ≤ cache.startIndex - 1), ih (by simp; omega),
          ← chainInfos_take, lastUnits_take useGenesis pred (by omega : blockIndex + 1 ≤ cache.startIndex)]
      · rw [show count = 0 by omega, lastUnits_zero]
    · rw [Crygcoin.getLastUnits.eq_2]
      simp only [if_neg hlow, List.isEmpty_cons, htop, Bool.and_false, Bool.not_false, Bool.and_true,
        Bool.false_eq_true, if_false, decide_eq_true_eq]
      have hgen : (if useGenesis then 0 else 1) ≤ 1 := by split <;> omega
      rw [lastUnits_eq useGenesis pred (by simp; omega), hm.blockInfos, List.drop_drop]
      split
      · have hto : min count (blockIndex - cache.startIndex + 1) = blockIndex - cache.startIndex + 1 := by omega
        rw [hto, Nat.min_eq_right (by omega : cache.startIndex - 1 ≤ blockIndex), ih (by simp; omega),
          ← chainInfos_take, lastUnits_eq useGenesis pred (by simp; omega), ← List.map_append, List.drop_take,
          List.take_take, Nat.sub_self, Nat.sub_zero, Nat.add_zero, take_drop_append_take_drop _ (by omega)]
        congr 2
        · omega
        · congr 1
          omega
      · -- this segment alone holds the last count blocks
        rw [List.nil_append]
        congr 2
        · omega
        · congr 1
          omega

theorem SegmentModels.findKeyOutputs {cache : BlockchainCache} (hm : SegmentModels cache chain) {amount : UInt64}
    {entry : OutputGlobalIndexesForAmount} (hentry : cache.findKeyOutputs amount = some entry) (n : Nat) :
    (outputsOfAmount (chainOutputs chain) amount)[entry.startIndex + n]? = entry.outputs[n]? := by
  have hfind := hm.keyOutputs.find amount
  rw [hentry] at hfind
  rw [chainOutputs_take_append_drop chain hm.start_le, outputsOfAmount_append]
  cases hown : outputsOfAmount (chainOutputsFrom cache.startIndex (chain.drop cache.startIndex)) amount with
  | nil => simp [BlockchainCache.expectedEntry, hown] at hfind
  | cons output outputs =>
    simp only [BlockchainCache.expectedEntry, hown, Option.some.injEq] at hfind
    subst hfind
    rw [List.getElem?_append_right (Nat.le_add_right _ _), Nat.add_sub_cancel_left]

theorem SegmentModels.getKeyOutputsCountForAmount {cache : BlockchainCache} {parents : List BlockchainCache}
    (hm : SegmentModels cache chain) {amount : UInt64} {blockIndex : Nat} (hi : cache.startIndex ≤ blockIndex)
    (hparents : Crygcoin.getKeyOutputsCountForAmount parents amount blockIndex =
      (outputsOfAmount (chainOutputs (chain.take cache.startIndex)) amount).length) :
    Crygcoin.getKeyOutputsCountForAmount (cache :: parents) amount blockIndex =
      keyOutputsBelow chain amount blockIndex := by
  have hbelow : keyOutputsBelow chain amount blockIndex =
      (outputsOfAmount (chainOutputs (chain.take cache.startIndex)) amount).length +
        ((outputsOfAmount (chainOutputsFrom cache.startIndex (chain.drop cache.startIndex)) amount).takeWhile
          (·.blockIndex < blockIndex)).length := by
    rw [keyOutputsBelow, chainOutputs_take_append_drop chain hm.start_le, outputsOfAmount_append, List.filter_append,
      List.length_append, takeWhile_outputsOfAmount_chainOutputsFrom, ← keyOutputsBelow,
      keyOutputsBelow_of_length_le (by simp; omega)]
  have hfind := hm.keyOutputs.find amount
  rw [hbelow, Crygcoin.getKeyOutputsCountForAmount, hfind]
  cases hown : outputsOfAmount (chainOutputsFrom cache.startIndex (chain.drop cache.startIndex)) amount with
  | nil =>
    -- no output of the amount here: the parents count all of them
    simp only [BlockchainCache.expectedEntry, hown, hparents, List.takeWhile_nil, List.length_nil, Nat.add_zero]
  | cons output outputs => simp only [BlockchainCache.expectedEntry, hown]

theorem ChainModels.getKeyOutputsCountForAmount (h : ChainModels segments chain) {amount : UInt64} {blockIndex : Nat}
    (hi : ∀ cache ∈ segments.head?, cache.startIndex ≤ blockIndex) :
    Crygcoin.getKeyOutputsCountForAmount segments amount blockIndex = keyOutputsBelow chain amount blockIndex := by
  induction h with
  | @root cache chain hm hzero =>
    refine hm.getKeyOutputsCountForAmount (hi cache rfl) ?_
    rw [hzero, List.take_zero]
    rfl
  | @cons cache parent parents chain hm hparent hlt ih =>
    have hle : cache.startIndex ≤ blockIndex := hi cache rfl
    refine hm.getKeyOutputsCountForAmount hle ?_
    rw [ih fun parent' hp => by cases hp; omega, keyOutputsBelow_of_length_le (by simp; omega)]

theorem SegmentModels.checkIfSpent {cache : BlockchainCache} {parents : List BlockchainCache}
    (hm : SegmentModels cache chain) {keyImage : KeyImage} {blockIndex : Nat}
    (hfresh : FreshAbove chain keyImage blockIndex) (hi : cache.startIndex ≤ blockIndex)
    (hparents : Crygcoin.checkIfSpent parents keyImage blockIndex =
      isSpent (chain.take cache.startIndex) keyImage blockIndex) :
    Crygcoin.checkIfSpent (cache :: parents) keyImage blockIndex = isSpent chain keyImage blockIndex := by
  rw [Crygcoin.checkIfSpent, if_neg (by omega)]
  cases hfind : cache.findSpentKeyImage keyImage with
  | none =>
    -- no record here: a block of this segment spends only what the chain below spent already
    have hnone := List.find?_eq_none.mp hfind
    rw [hparents, Bool.eq_iff_iff, isSpent_iff, isSpent_iff]
    constructor
    · rintro ⟨i, block, hle, hblock, hmem⟩
      rw [List.getElem?_take] at hblock
      split at hblock
      · exact ⟨i, block, hle, hblock, hmem⟩
      · cases hblock
    · rintro ⟨i, block, hle, hblock, hmem⟩
      by_cases hlow : i < cache.startIndex
      · exact ⟨i, block, hle, by rw [List.getElem?_take, if_pos hlow, hblock], hmem⟩
      · rcases hm.spentComplete i block keyImage (by omega) hblock hmem with ⟨record, hrec, hkey, -⟩ |
          ⟨j, block', hj, hblock', hmem'⟩
        · exact absurd (by simp [hkey]) (hnone record hrec)
        · exact ⟨j, block', by omega, by rw [List.getElem?_take, if_pos hj, hblock'], hmem'⟩
  | some record =>
    -- the record is the first block of the segment to spend the key image
    have hkey : record.keyImage = keyImage := by simpa using List.find?_some hfind
    obtain ⟨-, block, hblock, hmem⟩ := hm.spentSound record (List.mem_of_find?_eq_some hfind)
    rw [hkey] at hmem
    rw [Bool.eq_iff_iff, decide_eq_true_iff, isSpent_iff]
    constructor
    · intro hle
      exact ⟨record.blockIndex, block, hle, hblock, hmem⟩
    · rintro ⟨i, block', hle, hblock', hmem'⟩
      by_contra hgt
      have hfirst := hfresh record.blockIndex block (by omega) hblock hmem
      rw [show isSpent chain keyImage (record.blockIndex - 1) = true from
        isSpent_iff.mpr ⟨i, block', by omega, hblock', hmem'⟩] at hfirst
      cases hfirst

theorem ChainModels.checkIfSpent (h : ChainModels segments chain) {keyImage : KeyImage} {blockIndex : Nat}
    (hfresh : FreshAbove chain keyImage blockIndex) :
    Crygcoin.checkIfSpent segments keyImage blockIndex = isSpent chain keyImage blockIndex := by
  induction h with
  | @root cache chain hm hzero =>
    refine hm.checkIfSpent hfresh (by omega) ?_
    rw [hzero, List.take_zero]
    rfl
  | @cons cache parent parents chain hm hparent hlt ih =>
    by_cases hlow : blockIndex < cache.startIndex
    · -- a block below the segment: the parents answer for the prefix
      rw [Crygcoin.checkIfSpent, if_pos hlow, ih (hfresh.take _), isSpent_take (by omega)]
    · exact hm.checkIfSpent hfresh (by omega) (ih (hfresh.take _))

end Queries

end Crygcoin
