import Crygcoin.SegmentQueries

namespace Crygcoin

/-! Each operation on a segment keeps it a model of its flat chain: `pushBlock` appends the block
to the chain, `split` cuts the chain in two, and a new segment holds nothing of its own. -/

section Push

variable {cache : BlockchainCache} {parents : List BlockchainCache} {chain : List PushedBlock}

theorem ChainModels.baseTotals (hc : ChainModels (cache :: parents) chain) :
    BlockchainCache.baseTotals parents cache chain.length = chainTotalsFrom Totals.zero chain := by
  obtain ⟨_, _, hcons, hm⟩ := hc.head
  cases hcons
  unfold BlockchainCache.baseTotals
  cases hlast : cache.blockInfos.getLast? with
  | some info =>
    rw [hm.blockInfos, List.getLast?_drop] at hlast
    split at hlast
    · cases hlast
    · exact chainInfosFrom_getLast? hlast
  | none =>
    -- an empty segment starts right after the chain below it
    have hempty : cache.blockInfos = [] := List.getLast?_eq_none_iff.mp hlast
    have hlen := hm.length
    rw [hempty, List.length_nil, Nat.add_zero] at hlen
    cases hc with
    | root _ hzero =>
      rw [hzero] at hlen
      rw [List.eq_nil_of_length_eq_zero hlen.symm]
      rfl
    | @cons _ parent parents' _ _ hparent hlt =>
      rw [hlen, List.take_length] at hparent
      obtain ⟨_, _, hcons', hpm⟩ := hparent.head
      cases hcons'
      have htop : (chainInfos chain).getLast? = (chainInfos chain)[chain.length - 1]? := by
        rw [List.getLast?_eq_getElem?, chainInfos_length]
      have hinfo : parent.blockInfos[chain.length - 1 - parent.startIndex]? = (chainInfos chain)[chain.length - 1]? :=
        hpm.getElem?_blockInfos (by omega)
      cases hget : (chainInfos chain)[chain.length - 1]? with
      | none =>
        have := (List.getElem?_eq_none_iff.mp hget)
        simp only [chainInfos_length] at this
        omega
      | some info =>
        rw [← chainInfosFrom_getLast? (htop.trans hget)]
        simp only [BlockchainCache.getCurrentCumulativeDifficultyAt, hinfo, hget,
          hparent.getAlreadyGeneratedCoins, hparent.getAlreadyGeneratedTransactions, Option.map_some,
          Option.getD_some]
        rfl

theorem SegmentModels.pushBlockOf {block : PushedBlock} (hc : ChainModels (cache :: parents) chain)
    (hindex : block.cachedBlock.getBlockIndex = chain.length) :
    SegmentModels (cache.pushBlockOf parents block) (chain ++ [block]) := by
  obtain ⟨_, _, hcons, hm⟩ := hc.head
  cases hcons
  have hframe := BlockchainCache.pushBlockOf_frame parents cache block
  rw [hindex, hc.baseTotals] at hframe
  have hle := hm.start_le
  have hold : ∀ i, i < chain.length → (chain ++ [block])[i]? = chain[i]? := fun i hi =>
    List.getElem?_append_left hi
  refine ⟨?_, ?_, ?_, ?_, ?_, ?_⟩
  · rw [hframe.startIndex, List.length_append]
    omega
  · rw [hframe.startIndex, hframe.blockInfos, hm.blockInfos, chainInfos_append_single,
      List.drop_append_of_le_length (by simp; omega)]
  · rw [hframe.startIndex, hframe.storage, hm.storage, List.map_append,
      List.drop_append_of_le_length (by simp; omega), List.map_singleton]
  · -- a new record is the pushed block's, an old one keeps its block
    intro record hrecord
    rw [hframe.startIndex]
    rcases (BlockchainCache.mem_pushBlockOf_spentKeyImages parents cache block).mp hrecord with
      hrecord | ⟨hbi, hmem, -⟩
    · obtain ⟨hstart, b, hb, hmem⟩ := hm.spentSound record hrecord
      have hlt : record.blockIndex < chain.length := (List.getElem?_eq_some_iff.mp hb).1
      exact ⟨hstart, b, by rw [hold _ hlt, hb], hmem⟩
    · rw [hbi, hindex]
      exact ⟨by omega, block, List.getElem?_concat_length, hmem⟩
  · intro i b keyImage hi hb hmem
    rw [hframe.startIndex] at hi
    by_cases hlt : i < chain.length
    · rw [hold _ hlt] at hb
      rcases hm.spentComplete i b keyImage hi hb hmem with ⟨record, hrecord, hkey, hbi⟩ |
        ⟨j, b', hj, hb', hmem'⟩
      · exact Or.inl ⟨record, (BlockchainCache.mem_pushBlockOf_spentKeyImages parents cache block).mpr
          (Or.inl hrecord), hkey, hbi⟩
      · exact Or.inr ⟨j, b', by rw [hframe.startIndex]; exact hj, by rw [hold _ (by omega), hb'], hmem'⟩
    · -- the pushed block: its key image was recorded before, or is recorded now at its index
      have hi' : i = chain.length := by
        have := (List.getElem?_eq_some_iff.mp hb).1
        simp only [List.length_append, List.length_singleton] at this
        omega
      subst hi'
      rw [List.getElem?_concat_length, Option.some.injEq] at hb
      subst hb
      by_cases hknown : ∃ old ∈ cache.spentKeyImages, old.keyImage = keyImage
      · obtain ⟨old, hold', hkey⟩ := hknown
        obtain ⟨-, b', hb', -⟩ := hm.spentSound old hold'
        exact Or.inl ⟨old, (BlockchainCache.mem_pushBlockOf_spentKeyImages parents cache block).mpr (Or.inl hold'),
          hkey, (List.getElem?_eq_some_iff.mp hb').1.le⟩
      · refine Or.inl ⟨⟨chain.length, keyImage⟩,
          (BlockchainCache.mem_pushBlockOf_spentKeyImages parents cache block).mpr
            (Or.inr ⟨hindex.symm, hmem, ?_⟩),
          rfl, le_rfl⟩
        intro old hold' hkey
        exact hknown ⟨old, hold', hkey⟩
  · -- the block's outputs follow the segment's own ones, counted on from the chain below
    have htake : (chain ++ [block]).take cache.startIndex = chain.take cache.startIndex :=
      List.take_append_of_le_length hle
    have hown : chainOutputsFrom cache.startIndex ((chain ++ [block]).drop cache.startIndex) =
        chainOutputsFrom cache.startIndex (chain.drop cache.startIndex) ++ blockOutputs chain.length block := by
      rw [List.drop_append_of_le_length hle, chainOutputsFrom_append, List.length_drop,
        show cache.startIndex + (chain.length - cache.startIndex) = chain.length by omega]
      simp [chainOutputsFrom]
    have hbelow : ∀ amount, (if parents.isEmpty then 0 else
        Crygcoin.getKeyOutputsCountForAmount parents amount block.cachedBlock.getBlockIndex) =
          (outputsOfAmount (chainOutputs (chain.take cache.startIndex)) amount).length := by
      intro amount
      cases hc with
      | root _ hzero =>
        rw [hzero, List.take_zero]
        rfl
      | @cons _ parent parents' _ _ hparent hlt =>
        rw [List.isEmpty_cons, if_neg Bool.false_ne_true, hindex,
          hparent.getKeyOutputsCountForAmount fun c hc' => by cases hc'; omega,
          keyOutputsBelow_of_length_le (by simp)]
    rw [hframe.startIndex, htake, hown, ← hindex]
    exact BlockchainCache.pushBlockOf_model parents cache block hbelow hm.keyOutputs

end Push

section Split

variable {cache : BlockchainCache} {chain : List PushedBlock} {self upper splitBlockIndex : Nat}

theorem BlockchainCache.split_fst_startIndex :
    (cache.split self upper splitBlockIndex).1.startIndex = cache.startIndex := rfl

theorem BlockchainCache.split_snd_startIndex :
    (cache.split self upper splitBlockIndex).2.startIndex = splitBlockIndex := rfl

theorem BlockchainCache.split_fst_keyOutputsGlobalIndexes :
    (cache.split self upper splitBlockIndex).1.keyOutputsGlobalIndexes =
      (BlockchainCache.splitGlobalIndexes splitBlockIndex cache.keyOutputsGlobalIndexes).1 := rfl

theorem BlockchainCache.split_snd_keyOutputsGlobalIndexes :
    (cache.split self upper splitBlockIndex).2.keyOutputsGlobalIndexes =
      (BlockchainCache.splitGlobalIndexes splitBlockIndex cache.keyOutputsGlobalIndexes).2 := rfl

@[simp] theorem BlockchainCache.split_fst_blockInfos :
    (cache.split self upper splitBlockIndex).1.blockInfos = cache.blockInfos.take (splitBlockIndex - cache.startIndex) :=
  rfl

@[simp] theorem BlockchainCache.split_snd_blockInfos :
    (cache.split self upper splitBlockIndex).2.blockInfos = cache.blockInfos.drop (splitBlockIndex - cache.startIndex) :=
  rfl

@[simp] theorem BlockchainCache.split_fst_children : (cache.split self upper splitBlockIndex).1.children = [upper] :=
  rfl

@[simp] theorem BlockchainCache.split_snd_children :
    (cache.split self upper splitBlockIndex).2.children = cache.children := rfl

@[simp] theorem BlockchainCache.split_fst_parent : (cache.split self upper splitBlockIndex).1.parent = cache.parent :=
  rfl

@[simp] theorem BlockchainCache.split_snd_parent : (cache.split self upper splitBlockIndex).2.parent = some self :=
  rfl

theorem chainOutputsFrom_drop_split (hk : cache.startIndex ≤ splitBlockIndex) (hk' : splitBlockIndex ≤ chain.length) :
    chainOutputsFrom cache.startIndex (chain.drop cache.startIndex) =
      chainOutputsFrom cache.startIndex ((chain.take splitBlockIndex).drop cache.startIndex) ++
        chainOutputsFrom splitBlockIndex (chain.drop splitBlockIndex) := by
  have hlength : min (splitBlockIndex - cache.startIndex) (chain.length - cache.startIndex) =
      splitBlockIndex - cache.startIndex := by omega
  have hindex : cache.startIndex + (splitBlockIndex - cache.startIndex) = splitBlockIndex := by omega
  conv_lhs => rw [← List.take_append_drop (splitBlockIndex - cache.startIndex) (chain.drop cache.startIndex)]
  rw [chainOutputsFrom_append, List.drop_take, List.drop_drop, List.length_take, List.length_drop, hlength,
    hindex]

theorem SegmentModels.splitLower (hm : SegmentModels cache chain) (hk : cache.startIndex < splitBlockIndex)
    (hk' : splitBlockIndex ≤ chain.length) :
    SegmentModels (cache.split self upper splitBlockIndex).1 (chain.take splitBlockIndex) := by
  have htake : (chain.take splitBlockIndex).take cache.startIndex = chain.take cache.startIndex := by
    rw [List.take_take, Nat.min_eq_left hk.le]
  refine ⟨?_, ?_, ?_, ?_, ?_, ?_⟩
  · show cache.startIndex ≤ (chain.take splitBlockIndex).length
    rw [List.length_take]
    omega
  · show cache.blockInfos.take (splitBlockIndex - cache.startIndex) = _
    rw [BlockchainCache.split_fst_startIndex, hm.blockInfos, ← chainInfos_take, List.drop_take]
  · show cache.storage.take (splitBlockIndex - cache.startIndex) = _
    rw [BlockchainCache.split_fst_startIndex, hm.storage, List.map_take, List.drop_take]
  · intro record hrecord
    obtain ⟨hrecord, hlt⟩ := List.mem_filter.mp hrecord
    obtain ⟨hstart, block, hblock, hmem⟩ := hm.spentSound record hrecord
    refine ⟨hstart, block, ?_, hmem⟩
    rw [List.getElem?_take, if_pos (of_decide_eq_true hlt), hblock]
  · intro i block keyImage hi hblock hmem
    rw [List.getElem?_take] at hblock
    split at hblock
    next hlt =>
      rcases hm.spentComplete i block keyImage hi hblock hmem with ⟨record, hrecord, hkey, hbi⟩ |
        ⟨j, block', hj, hblock', hmem'⟩
      · exact Or.inl ⟨record, List.mem_filter.mpr ⟨hrecord, decide_eq_true (by omega)⟩, hkey, hbi⟩
      · exact Or.inr ⟨j, block', hj, by rw [List.getElem?_take, if_pos (by omega), hblock'], hmem'⟩
    · cases hblock
  · -- the lower part keeps the entries of the outputs below the split
    have hsplit := BlockchainCache.splitGlobalIndexes_model splitBlockIndex
      ((chainOutputsFrom_drop_split hk.le hk') ▸ hm.keyOutputs)
      (fun output ho => by have := blockIndex_of_mem_chainOutputsFrom ho; simp at this; omega)
      (fun output ho => (blockIndex_of_mem_chainOutputsFrom ho).1)
    refine ⟨fun amount => ?_, ?_⟩
    · rw [BlockchainCache.findKeyOutputs, BlockchainCache.split_fst_keyOutputsGlobalIndexes, (hsplit amount).1,
        BlockchainCache.split_fst_startIndex, htake]
    · rw [BlockchainCache.split_fst_keyOutputsGlobalIndexes]
      exact hm.keyOutputs.nodup.sublist (BlockchainCache.splitGlobalIndexes_keys splitBlockIndex _).1

theorem SegmentModels.splitUpper (hm : SegmentModels cache chain)
    (hk : cache.startIndex ≤ splitBlockIndex) (hk' : splitBlockIndex ≤ chain.length) :
    SegmentModels (cache.split self upper splitBlockIndex).2 chain := by
  have hindex : cache.startIndex + (splitBlockIndex - cache.startIndex) = splitBlockIndex := by omega
  refine ⟨hk', ?_, ?_, ?_, ?_, ?_⟩
  · show cache.blockInfos.drop (splitBlockIndex - cache.startIndex) = _
    rw [BlockchainCache.split_snd_startIndex, hm.blockInfos, List.drop_drop, hindex]
  · show cache.storage.drop (splitBlockIndex - cache.startIndex) = _
    rw [BlockchainCache.split_snd_startIndex, hm.storage, List.drop_drop, hindex]
  · intro record hrecord
    obtain ⟨hrecord, hle⟩ := List.mem_filter.mp hrecord
    exact ⟨of_decide_eq_true hle, (hm.spentSound record hrecord).2⟩
  · -- a record left below the split is a block below the split that spent the key image
    intro i block keyImage hi hblock hmem
    rw [BlockchainCache.split_snd_startIndex] at hi ⊢
    rcases hm.spentComplete i block keyImage (by omega) hblock hmem with ⟨record, hrecord, hkey, hbi⟩ |
      ⟨j, block', hj, hblock', hmem'⟩
    · by_cases hlow : record.blockIndex < splitBlockIndex
      · obtain ⟨-, block', hblock', hmem'⟩ := hm.spentSound record hrecord
        rw [hkey] at hmem'
        exact Or.inr ⟨record.blockIndex, block', hlow, hblock', hmem'⟩
      · exact Or.inl ⟨record, List.mem_filter.mpr ⟨hrecord, decide_eq_true (by omega)⟩, hkey, hbi⟩
    · exact Or.inr ⟨j, block', by omega, hblock', hmem'⟩
  · -- the upper part counts its outputs on from all outputs below the split
    have hsplit := BlockchainCache.splitGlobalIndexes_model splitBlockIndex
      ((chainOutputsFrom_drop_split hk hk') ▸ hm.keyOutputs)
      (fun output ho => by have := blockIndex_of_mem_chainOutputsFrom ho; simp at this; omega)
      (fun output ho => (blockIndex_of_mem_chainOutputsFrom ho).1)
    have hbelow : (fun amount => (outputsOfAmount (chainOutputs (chain.take cache.startIndex)) amount).length +
        (outputsOfAmount (chainOutputsFrom cache.startIndex ((chain.take splitBlockIndex).drop cache.startIndex))
          amount).length) =
        fun amount => (outputsOfAmount (chainOutputs (chain.take splitBlockIndex)) amount).length := by
      funext amount
      rw [chainOutputs_take_append_drop (chain.take splitBlockIndex) (k := cache.startIndex) (by simp; omega),
        List.take_take, Nat.min_eq_left hk, outputsOfAmount_append, List.length_append]
    refine ⟨fun amount => ?_, ?_⟩
    · rw [BlockchainCache.findKeyOutputs, BlockchainCache.split_snd_keyOutputsGlobalIndexes, (hsplit amount).2,
        hbelow]
      rfl
    · rw [BlockchainCache.split_snd_keyOutputsGlobalIndexes]
      exact hm.keyOutputs.nodup.sublist (BlockchainCache.splitGlobalIndexes_keys splitBlockIndex _).2

end Split

theorem SegmentModels.create (parent : Option Nat) (chain : List PushedBlock) :
    SegmentModels (BlockchainCache.create parent chain.length) chain := by
  refine ⟨le_rfl, ?_, ?_, fun _ h => absurd h List.not_mem_nil, ?_, ⟨fun amount => ?_, List.nodup_nil⟩⟩
  · simp [BlockchainCache.create]
  · simp [BlockchainCache.create]
  · intro i block _ hi hblock _
    have := (List.getElem?_eq_some_iff.mp hblock).1
    simp only [BlockchainCache.create] at hi
    omega
  · simp [BlockchainCache.create, BlockchainCache.findKeyOutputs, BlockchainCache.expectedEntry, chainOutputsFrom]

theorem SegmentModels.relink {cache : BlockchainCache} {chain : List PushedBlock} (h : SegmentModels cache chain)
    (parent : Option Nat) (children : List Nat) :
    SegmentModels { cache with parent := parent, children := children } chain :=
  ⟨h.start_le, h.blockInfos, h.storage, h.spentSound, h.spentComplete, ⟨h.keyOutputs.find, h.keyOutputs.nodup⟩⟩

end Crygcoin
