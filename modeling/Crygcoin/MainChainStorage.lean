import Crygcoin.CoreRuns

namespace Crygcoin

/-! `mainChainStorage`, the raw blocks of the main chain by index, as `switchMainChainStorage`
rewrites it when `addBlock` switches to another leaf: it keeps the stored blocks below the new main
leaf's start and reads the rest from the new main chain. -/

theorem filterMap_range'_getElem? {α β : Type} (xs : List α) (f : α → β) :
    ∀ start n, (List.range' start n).filterMap (fun i => xs[i]?.map f) = ((xs.drop start).take n).map f := by
  intro start n
  induction n generalizing start with
  | zero => simp
  | succ n ih =>
    rw [List.range'_succ, List.filterMap_cons, ih (start + 1)]
    by_cases hlt : start < xs.length
    · rw [List.drop_eq_getElem_cons hlt, List.getElem?_eq_getElem hlt]
      simp only [Option.map_some, List.take_succ_cons, List.map_cons]
    · have hnil : xs.drop start = [] := List.drop_eq_nil_of_le (by omega)
      rw [List.getElem?_eq_none (by omega), hnil, List.drop_eq_nil_of_le (by omega)]
      simp

namespace Core

variable {segments : List BlockchainCache} {chain : List PushedBlock}

theorem switchMainChainStorage_eq (h : ChainModels segments chain) (hne : chain ≠ [])
    (mainChainStorage : List RawBlock) (splitBlockIndex : Nat) :
    switchMainChainStorage mainChainStorage splitBlockIndex segments =
      mainChainStorage.take splitBlockIndex ++ (chain.drop splitBlockIndex).map (·.rawBlock) := by
  have hpos := List.length_pos_iff.mpr hne
  have hread : getBlockByIndex segments = fun i => chain[i]?.map (·.rawBlock) := funext h.getBlockByIndex
  rw [switchMainChainStorage, h.getTopBlockIndex, hread, filterMap_range'_getElem?,
    List.take_of_length_le (l := chain.drop splitBlockIndex) (by simp; omega)]

theorem switchMainChainStorage_eq_map_iff (h : ChainModels segments chain) (hne : chain ≠ [])
    {mainChainStorage : List RawBlock} {splitBlockIndex : Nat} :
    switchMainChainStorage mainChainStorage splitBlockIndex segments = chain.map (·.rawBlock) ↔
      mainChainStorage.take splitBlockIndex = (chain.take splitBlockIndex).map (·.rawBlock) := by
  rw [switchMainChainStorage_eq h hne]
  conv => lhs; rhs; rw [← List.take_append_drop splitBlockIndex chain, List.map_append]
  exact List.append_left_inj _

section Switch

variable {env : CoreEnvironment} {state : CoreState} {cachedBlock : CachedBlock} {rawBlock : RawBlock}
  {accepted : AcceptedBlock} {chains : List (List PushedBlock)}

/-- What the switching branch of `addBlockApply` does: the block goes on top of a leaf that is not the
main one, that leaf becomes `chainsLeaves[0]`, and the storage is rewritten from the leaf's start. -/
theorem addBlockApply_switched (hswitch : (addBlockApply state accepted).1 = .addedToAlternativeAndSwitched) :
    ∃ cache, state.chainsStorage[accepted.segment]? = some cache ∧
      cache.getTopBlockIndex = accepted.previousBlockIndex ∧ cache.getChildCount = 0 ∧
      (addBlockApply state accepted).2.chainsStorage = pushAccepted state.chainsStorage accepted.segment accepted.block ∧
      (addBlockApply state accepted).2.chainsLeaves.head? = some accepted.segment ∧
      (addBlockApply state accepted).2.mainChainStorage =
        switchMainChainStorage state.mainChainStorage cache.startIndex
          (segmentsOf (pushAccepted state.chainsStorage accepted.segment accepted.block) accepted.segment) := by
  unfold addBlockApply at hswitch ⊢
  rcases hcache : state.chainsStorage[accepted.segment]? with _ | cache
  · simp only [hcache] at hswitch
    cases hswitch
  simp only [hcache] at hswitch ⊢
  -- the branches that return another code close themselves
  split_ifs at hswitch ⊢ with htop hleaf hmain hheavier
  have hframe := BlockchainCache.pushBlockOf_frame (segmentsOf state.chainsStorage accepted.segment).tail cache
    accepted.block
  have hstart : ((pushAccepted state.chainsStorage accepted.segment accepted.block)[accepted.segment]?.map
      (·.startIndex)).getD 0 = cache.startIndex := by
    rw [pushAccepted, pushBlockAt_eq hcache, List.getElem?_set_self (List.getElem?_eq_some_iff.mp hcache).1]
    exact hframe.startIndex
  -- the main leaf is not the block's leaf, so the swap leaves the block's leaf in front
  have hhead : ((state.chainsLeaves.set 0 accepted.segment).set (state.chainsLeaves.idxOf accepted.segment)
      (state.chainsLeaves.headD accepted.segment)).head? = some accepted.segment := by
    cases hleaves : state.chainsLeaves with
    | nil =>
      -- with no leaves the main leaf defaults to the block's own, which is not heavier than itself
      rw [hleaves, List.headD_nil] at hheavier
      exact absurd hheavier (UInt64.lt_irrefl _)
    | cons mainLeaf rest =>
      rw [hleaves] at hmain
      have hne : mainLeaf ≠ accepted.segment := fun heq => hmain (by rw [heq]; rfl)
      rw [List.idxOf_cons_ne rest hne]
      rfl
  exact ⟨cache, rfl, htop, hleaf, rfl, hhead, by rw [hstart]⟩

/-- After `addBlock` switches to another leaf, the storage holds the blocks of the new main chain exactly
when the stored blocks below the new main leaf's start already were the new main chain's: the switch
never rewrites them. -/
theorem addBlockApply_switch_storage_iff (h : CoreInvariant env state chains)
    (hc : AddBlockChecked env state cachedBlock rawBlock accepted)
    (hswitch : (addBlockApply state accepted).1 = .addedToAlternativeAndSwitched) :
    ∃ cache chain, state.chainsStorage[accepted.segment]? = some cache ∧ chains[accepted.segment]? = some chain ∧
      (addBlockApply state accepted).2.chainsLeaves.head? = some accepted.segment ∧
      ChainModels (segmentsOf (addBlockApply state accepted).2.chainsStorage accepted.segment)
        (chain ++ [accepted.block]) ∧
      ((addBlockApply state accepted).2.mainChainStorage = (chain ++ [accepted.block]).map (·.rawBlock) ↔
        state.mainChainStorage.take cache.startIndex = (chain.take cache.startIndex).map (·.rawBlock)) := by
  obtain ⟨cache, hcache, htop, hleaf, hstore, hhead, hstorage⟩ := addBlockApply_switched hswitch
  obtain ⟨chain, hchain⟩ := h.tree.coherent.chain_of_cache hcache
  -- the flat chain of the block's leaf after the push, from the invariant of the new state
  have hchain' : (applyChains state chains accepted)[accepted.segment]? = some (chain ++ [accepted.block]) := by
    have hlt : accepted.segment < chains.length := (List.getElem?_eq_some_iff.mp hchain).1
    unfold applyChains
    simp only [hcache, htop, hleaf, if_true, hchain, Option.getD_some]
    exact List.getElem?_set_self hlt
  have hmodels := (h.addBlockApply hc).tree.coherent.chainModels hchain'
  have htake : (chain ++ [accepted.block]).take cache.startIndex = chain.take cache.startIndex := by
    have hlt := (h.tree.coherent.segment hcache hchain).start_le
    exact List.take_append_of_le_length hlt
  refine ⟨cache, chain, hcache, hchain, hhead, hmodels, ?_⟩
  rw [hstorage, ← hstore, switchMainChainStorage_eq_map_iff hmodels (List.concat_ne_nil _ _), htake]

end Switch

end Core

/-- A switch to a fork of a fork. The blocks 1, 2, 3 go on the main chain; 12 on block 1 splits the
root segment; 13 on 12 extends that fork; 23 on 12 splits it again; 24 on 23 makes the leaf of 23
the heaviest, and `addBlock` switches to it. The new main chain is 100, 1, 12, 23, 24, but the
switch rewrites the storage from index 3, the start of the leaf of 23, and keeps the block 2 of the
old main chain at index 2. -/
theorem switchMainChainStorage_keeps_stale_block :
    let env : CoreEnvironment := openEnvironment ⟨[], List.nodup_nil⟩ 1 true
    let state := Core.addBlocks env (Core.init (blockAt 0 100 0) (rawOf 100))
      [(blockAt 1 1 100, rawOf 1), (blockAt 2 2 1, rawOf 2), (blockAt 3 3 2, rawOf 3), (blockAt 2 12 1, rawOf 12),
        (blockAt 3 13 12, rawOf 13), (blockAt 3 23 12, rawOf 23)]
    let switched := Core.addBlock env state (blockAt 4 24 23) (rawOf 24)
    switched.1 = .addBlock .addedToAlternativeAndSwitched ∧ switched.2.chainsLeaves.head? = some 4 ∧
      (List.range 5).filterMap (getBlockByIndex (segmentsOf switched.2.chainsStorage 4)) =
        [rawOf 100, rawOf 1, rawOf 12, rawOf 23, rawOf 24] ∧
      switched.2.mainChainStorage = [rawOf 100, rawOf 1, rawOf 2, rawOf 23, rawOf 24] := by
  decide +kernel

end Crygcoin
