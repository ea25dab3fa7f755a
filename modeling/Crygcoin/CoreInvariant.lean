import Crygcoin.CoreChecks
import Crygcoin.SegmentRefinement

namespace Crygcoin

/-! The invariant `Core::addBlock` keeps over every run from the root segment, with the flat chain of
each segment as ghost state: the segments model their chains, no segment is empty, every block but
the genesis block passed the checks of `addBlock`, `chainsLeaves` holds the segments without
children once each, and `mainChainSet` is the walk from `chainsLeaves[0]` to the root. -/

/-- What `addBlock` checked of a block pushed on top of `below`, at index `below.length`: the
checkpoint's hash inside the checkpoint zone; above it a proof of work, and key images that no block
of `below` spends. -/
def PassedChecks (env : CoreEnvironment) (below : List PushedBlock) (block : PushedBlock) : Prop :=
  (env.checkpoints.isInCheckpointZone below.length = true →
    env.checkpoints.checkBlock below.length block.cachedBlock.blockHash = true) ∧
  (env.checkpoints.isInCheckpointZone below.length = false →
    env.checkProofOfWork block.cachedBlock block.blockDifficulty = true ∧
      ∀ keyImage ∈ block.validatorState.spentKeyImages, ∀ earlier ∈ below,
        keyImage ∉ earlier.validatorState.spentKeyImages)

/-- Every block of the chain but the genesis block passed the checks of `addBlock`. -/
def ChainChecked (env : CoreEnvironment) (chain : List PushedBlock) : Prop :=
  ∀ (j : Nat) (block : PushedBlock), chain[j]? = some block → 0 < j → PassedChecks env (chain.take j) block

theorem Checkpoints.isInCheckpointZone_of_le {checkpoints : Checkpoints} {i j : Nat}
    (h : checkpoints.isInCheckpointZone j = true) (hij : i ≤ j) : checkpoints.isInCheckpointZone i = true := by
  unfold Checkpoints.isInCheckpointZone at h ⊢
  split at h
  · cases h
  · rename_i last _
    simp only [decide_eq_true_eq] at h ⊢
    omega

theorem BlockchainCache.getBlockIndex_lt {cache : BlockchainCache} {blockHash : Hash} {blockIndex : Nat}
    (h : cache.getBlockIndex blockHash = some blockIndex) :
    cache.startIndex ≤ blockIndex ∧ blockIndex < cache.startIndex + cache.blockInfos.length := by
  simp only [BlockchainCache.getBlockIndex, Option.map_eq_some_iff, List.findIdx?_eq_some_iff_findIdx_eq] at h
  obtain ⟨i, ⟨hi, -⟩, rfl⟩ := h
  omega

section ChainChecked

variable {env : CoreEnvironment} {chain : List PushedBlock}

theorem ChainChecked.take (h : ChainChecked env chain) (k : Nat) : ChainChecked env (chain.take k) := by
  intro j block hblock hpos
  rw [List.getElem?_take] at hblock
  split at hblock
  · rename_i hjk
    rw [List.take_take, Nat.min_eq_left (Nat.le_of_lt hjk)]
    exact h j block hblock hpos
  · cases hblock

theorem ChainChecked.append_single {block : PushedBlock} (h : ChainChecked env chain)
    (hblock : PassedChecks env chain block) : ChainChecked env (chain ++ [block]) := by
  intro j b hb hpos
  rcases getElem?_concat_eq_some hb with ⟨hj, hb⟩ | ⟨rfl, rfl⟩
  · rw [List.take_append_of_le_length (Nat.le_of_lt hj)]
    exact h j b hb hpos
  · rw [List.take_left]
    exact hblock

theorem ChainChecked.singleton (block : PushedBlock) : ChainChecked env [block] := by
  intro j b hb hpos
  have hj := (List.getElem?_eq_some_iff.mp hb).1
  simp only [List.length_singleton] at hj
  omega

theorem ChainChecked.freshAbove (h : ChainChecked env chain) {blockIndex : Nat}
    (hout : env.checkpoints.isInCheckpointZone (blockIndex + 1) = false) (keyImage : KeyImage) :
    FreshAbove chain keyImage blockIndex := by
  intro j block hj hblock hmem
  have hzone : env.checkpoints.isInCheckpointZone (chain.take j).length = false := by
    rw [List.length_take_of_le (Nat.le_of_lt (List.getElem?_eq_some_iff.mp hblock).1)]
    cases hin : env.checkpoints.isInCheckpointZone j with
    | false => rfl
    | true => rw [Checkpoints.isInCheckpointZone_of_le hin (by omega : blockIndex + 1 ≤ j)] at hout; cases hout
  have hfresh := ((h j block hblock (by omega)).2 hzone).2 keyImage hmem
  cases hspent : isSpent chain keyImage (j - 1) with
  | false => rfl
  | true =>
    obtain ⟨i, earlier, hi, hearlier, hmem'⟩ := isSpent_iff.mp hspent
    have hin : earlier ∈ chain.take j := List.mem_iff_getElem?.mpr ⟨i, by rw [List.getElem?_take_of_lt (by omega), hearlier]⟩
    exact absurd hmem' (hfresh earlier hin)

end ChainChecked

/-- The segments, with the flat chain of each: they model their chains, none is empty, and every
block of every chain passed the checks of `addBlock`. -/
structure TreeInvariant (env : CoreEnvironment) (store : List BlockchainCache) (chains : List (List PushedBlock)) :
    Prop where
  coherent : Coherent store chains
  nonempty : ∀ {q : Nat} {cache : BlockchainCache}, store[q]? = some cache → cache.blockInfos ≠ []
  checked : ∀ {q : Nat} {chain : List PushedBlock}, chains[q]? = some chain → ChainChecked env chain

section Accepted

variable {env : CoreEnvironment} {state : CoreState} {cachedBlock : CachedBlock} {rawBlock : RawBlock}
  {accepted : AcceptedBlock} {chains : List (List PushedBlock)} {chain : List PushedBlock}

theorem AddBlockChecked.previous_lt (hc : AddBlockChecked env state cachedBlock rawBlock accepted)
    (h : TreeInvariant env state.chainsStorage chains) (hchain : chains[accepted.segment]? = some chain) :
    accepted.previousBlockIndex < chain.length := by
  obtain ⟨cache, hcache, hindex⟩ := hc.previous
  have hbound := BlockchainCache.getBlockIndex_lt hindex
  have hlength := (h.coherent.segment hcache hchain).length
  omega

theorem AddBlockChecked.getBlockIndex (hc : AddBlockChecked env state cachedBlock rawBlock accepted) :
    accepted.block.cachedBlock.getBlockIndex = accepted.previousBlockIndex + 1 := by
  rw [hc.pushedCachedBlock, hc.blockIndex]

theorem AddBlockChecked.passedChecks (hc : AddBlockChecked env state cachedBlock rawBlock accepted)
    (h : TreeInvariant env state.chainsStorage chains) (hchain : chains[accepted.segment]? = some chain) :
    PassedChecks env (chain.take (accepted.previousBlockIndex + 1)) accepted.block := by
  have hlt := hc.previous_lt h hchain
  have hlength : (chain.take (accepted.previousBlockIndex + 1)).length = cachedBlock.getBlockIndex := by
    rw [List.length_take_of_le (by omega), hc.blockIndex]
  unfold PassedChecks
  rw [hlength, hc.pushedCachedBlock]
  refine ⟨hc.checkpoint, fun hout => ⟨hc.proofOfWork hout, ?_⟩⟩
  intro keyImage hk earlier hearlier hmem
  -- the segment's answer is the chain's, as the blocks above the previous one spend fresh key images
  have hout' : env.checkpoints.isInCheckpointZone (accepted.previousBlockIndex + 1) = false := by
    rw [← hc.blockIndex]
    exact hout
  have hfresh := (h.checked hchain).freshAbove hout' keyImage
  have hunspent := hc.unspent keyImage hk hout'
  rw [(h.coherent.chainModels hchain).checkIfSpent hfresh] at hunspent
  obtain ⟨i, hi⟩ := List.mem_iff_getElem?.mp hearlier
  have hilt : i < accepted.previousBlockIndex + 1 := by
    have hbound := (List.getElem?_eq_some_iff.mp hi).1
    rw [List.length_take] at hbound
    omega
  rw [List.getElem?_take_of_lt hilt] at hi
  have hspent : isSpent chain keyImage accepted.previousBlockIndex = true :=
    isSpent_iff.mpr ⟨i, earlier, by omega, hi, hmem⟩
  rw [hunspent] at hspent
  cases hspent

end Accepted

namespace Core

theorem pushAccepted_eq {store : List BlockchainCache} {p : Nat} {cache : BlockchainCache} (block : PushedBlock)
    (hcache : store[p]? = some cache) :
    pushAccepted store p block = store.set p (cache.pushBlockOf (segmentsOf store p).tail block) :=
  pushBlockAt_eq hcache

@[simp] theorem pushAccepted_length (store : List BlockchainCache) (p : Nat) (block : PushedBlock) :
    (pushAccepted store p block).length = store.length := by
  simp only [pushAccepted, pushBlockAt]
  split <;> simp

end Core

section Steps

variable {env : CoreEnvironment} {state : CoreState} {cachedBlock : CachedBlock} {rawBlock : RawBlock}
  {accepted : AcceptedBlock} {chains : List (List PushedBlock)} {chain : List PushedBlock} {cache : BlockchainCache}

theorem BlockchainCache.pushBlockOf_ne_nil (parents : List BlockchainCache) (cache : BlockchainCache)
    (block : PushedBlock) : (cache.pushBlockOf parents block).blockInfos ≠ [] := by
  rw [(BlockchainCache.pushBlockOf_frame parents cache block).blockInfos]
  simp

theorem TreeInvariant.length_eq (h : TreeInvariant env state.chainsStorage chains)
    (hcache : state.chainsStorage[accepted.segment]? = some cache) (hchain : chains[accepted.segment]? = some chain)
    (htop : cache.getTopBlockIndex = accepted.previousBlockIndex) : chain.length = accepted.previousBlockIndex + 1 := by
  have hm := h.coherent.segment hcache hchain
  have := List.length_pos_iff.mpr (h.nonempty hcache)
  rw [← hm.length, ← htop, BlockchainCache.getTopBlockIndex]
  omega

theorem TreeInvariant.pushIndex (h : TreeInvariant env state.chainsStorage chains)
    (hc : AddBlockChecked env state cachedBlock rawBlock accepted)
    (hcache : state.chainsStorage[accepted.segment]? = some cache) (hchain : chains[accepted.segment]? = some chain)
    (htop : cache.getTopBlockIndex = accepted.previousBlockIndex) :
    accepted.block.cachedBlock.getBlockIndex = cache.startIndex + cache.blockInfos.length := by
  rw [hc.getBlockIndex, (h.coherent.segment hcache hchain).length, h.length_eq hcache hchain htop]

theorem TreeInvariant.pushLeaf (h : TreeInvariant env state.chainsStorage chains)
    (hc : AddBlockChecked env state cachedBlock rawBlock accepted)
    (hcache : state.chainsStorage[accepted.segment]? = some cache) (hchain : chains[accepted.segment]? = some chain)
    (htop : cache.getTopBlockIndex = accepted.previousBlockIndex) (hleaf : cache.children = []) :
    TreeInvariant env (Core.pushAccepted state.chainsStorage accepted.segment accepted.block)
      (chains.set accepted.segment (chain ++ [accepted.block])) := by
  have hlength := h.length_eq hcache hchain htop
  refine ⟨h.coherent.pushBlockAt hcache hchain hleaf (h.pushIndex hc hcache hchain htop), fun hq => ?_, fun hch => ?_⟩
  · rw [Core.pushAccepted_eq _ hcache] at hq
    rcases getElem?_set_eq_some hq with ⟨-, rfl⟩ | ⟨-, hq⟩
    · exact BlockchainCache.pushBlockOf_ne_nil _ _ _
    · exact h.nonempty hq
  · rcases getElem?_set_eq_some hch with ⟨-, rfl⟩ | ⟨-, hch⟩
    · have hpassed := hc.passedChecks h hchain
      rw [List.take_of_length_le (by omega)] at hpassed
      exact (h.checked hchain).append_single hpassed
    · exact h.checked hch

theorem TreeInvariant.forkPush (h : TreeInvariant env state.chainsStorage chains)
    (hc : AddBlockChecked env state cachedBlock rawBlock accepted)
    (hcache : state.chainsStorage[accepted.segment]? = some cache) (hchain : chains[accepted.segment]? = some chain)
    (htop : cache.getTopBlockIndex = accepted.previousBlockIndex) :
    TreeInvariant env
      (Core.pushAccepted (forkSegment state.chainsStorage accepted.segment (accepted.previousBlockIndex + 1))
        state.chainsStorage.length accepted.block)
      ((chains ++ [chain]).set chains.length (chain ++ [accepted.block])) := by
  have hlength := h.length_eq hcache hchain htop
  have hfork := h.coherent.forkSegment hcache hchain (h.nonempty hcache)
  rw [htop] at hfork
  have hnew := forkSegment_getElem?_length hcache (accepted.previousBlockIndex + 1)
  have hnewChain : (chains ++ [chain])[state.chainsStorage.length]? = some chain := by
    rw [← h.coherent.length, List.getElem?_concat_length]
  have hindex : accepted.block.cachedBlock.getBlockIndex =
      (BlockchainCache.create (some accepted.segment) (accepted.previousBlockIndex + 1)).startIndex +
        (BlockchainCache.create (some accepted.segment) (accepted.previousBlockIndex + 1)).blockInfos.length :=
    hc.getBlockIndex
  have hcoherent := hfork.pushBlockAt hnew hnewChain rfl hindex
  rw [h.coherent.length]
  refine ⟨hcoherent, fun hq => ?_, fun hch => ?_⟩
  · rw [Core.pushAccepted_eq _ hnew] at hq
    rcases getElem?_set_eq_some hq with ⟨-, rfl⟩ | ⟨hqn, hq⟩
    · exact BlockchainCache.pushBlockOf_ne_nil _ _ _
    · rcases forkSegment_getElem?_eq_some hcache hq with ⟨hqn', -⟩ | ⟨-, rfl⟩ | ⟨-, -, hq⟩
      · exact absurd hqn' hqn
      · show cache.blockInfos ≠ []
        exact h.nonempty hcache
      · exact h.nonempty hq
  · rcases getElem?_set_eq_some hch with ⟨-, rfl⟩ | ⟨-, hch⟩
    · have hpassed := hc.passedChecks h hchain
      rw [List.take_of_length_le (by omega)] at hpassed
      exact (h.checked hchain).append_single hpassed
    · rcases getElem?_concat_eq_some hch with ⟨-, hch⟩ | ⟨-, rfl⟩
      · exact h.checked hch
      · exact h.checked hchain

theorem TreeInvariant.splitLower (h : TreeInvariant env state.chainsStorage chains)
    (hc : AddBlockChecked env state cachedBlock rawBlock accepted)
    (hcache : state.chainsStorage[accepted.segment]? = some cache) (hchain : chains[accepted.segment]? = some chain)
    (htop : cache.getTopBlockIndex ≠ accepted.previousBlockIndex) :
    let lower := (cache.split accepted.segment state.chainsStorage.length (accepted.previousBlockIndex + 1)).1
    cache.startIndex < accepted.previousBlockIndex + 1 ∧ accepted.previousBlockIndex + 1 ≤ cache.getTopBlockIndex ∧
      (splitSegment state.chainsStorage accepted.segment (accepted.previousBlockIndex + 1))[accepted.segment]? =
        some lower ∧
      (chains.set accepted.segment (chain.take (accepted.previousBlockIndex + 1)) ++ [chain])[accepted.segment]? =
        some (chain.take (accepted.previousBlockIndex + 1)) ∧
      lower.blockInfos ≠ [] ∧ lower.getTopBlockIndex + 1 = accepted.previousBlockIndex + 1 := by
  intro lower
  obtain ⟨cache', hcache', hindex⟩ := hc.previous
  rw [hcache, Option.some.injEq] at hcache'
  subst hcache'
  have hbound := BlockchainCache.getBlockIndex_lt hindex
  have hne := h.nonempty hcache
  have hk' : accepted.previousBlockIndex + 1 ≤ cache.getTopBlockIndex := by
    simp only [BlockchainCache.getTopBlockIndex] at htop ⊢
    omega
  have hlowerLength : lower.blockInfos.length = accepted.previousBlockIndex + 1 - cache.startIndex := by
    simp only [lower, BlockchainCache.split_fst_blockInfos, List.length_take]
    simp only [BlockchainCache.getTopBlockIndex] at hk'
    omega
  have hlt : accepted.segment < chains.length := (List.getElem?_eq_some_iff.mp hchain).1
  refine ⟨by omega, hk', splitSegment_getElem?_self hcache (h.coherent.not_mem_children hcache), ?_, ?_, ?_⟩
  · rw [List.getElem?_append_left (by rw [List.length_set]; exact hlt), List.getElem?_set_self hlt]
  · rw [← List.length_pos_iff, hlowerLength]
    omega
  · rw [BlockchainCache.getTopBlockIndex, hlowerLength, BlockchainCache.split_fst_startIndex]
    omega

theorem TreeInvariant.splitForkPush (h : TreeInvariant env state.chainsStorage chains)
    (hc : AddBlockChecked env state cachedBlock rawBlock accepted)
    (hcache : state.chainsStorage[accepted.segment]? = some cache) (hchain : chains[accepted.segment]? = some chain)
    (htop : cache.getTopBlockIndex ≠ accepted.previousBlockIndex) :
    TreeInvariant env
      (Core.pushAccepted
        (forkSegment (splitSegment state.chainsStorage accepted.segment (accepted.previousBlockIndex + 1))
          accepted.segment (accepted.previousBlockIndex + 1)) (state.chainsStorage.length + 1) accepted.block)
      (((chains.set accepted.segment (chain.take (accepted.previousBlockIndex + 1)) ++ [chain]) ++
          [chain.take (accepted.previousBlockIndex + 1)]).set (chains.length + 1)
        (chain.take (accepted.previousBlockIndex + 1) ++ [accepted.block])) := by
  obtain ⟨hk, hk', hlower, hlowerChain, hlowerNe, hlowerTop⟩ := h.splitLower hc hcache hchain htop
  have hsplit := h.coherent.splitSegment hcache hchain hk hk'
  have hnotChild := h.coherent.not_mem_children hcache
  have hfork := hsplit.forkSegment hlower hlowerChain hlowerNe
  rw [hlowerTop] at hfork
  have hlen1 : (splitSegment state.chainsStorage accepted.segment (accepted.previousBlockIndex + 1)).length =
      state.chainsStorage.length + 1 := splitSegment_length hcache
  have hnew := forkSegment_getElem?_length hlower (accepted.previousBlockIndex + 1)
  rw [hlen1] at hnew
  have hchainsLength : (chains.set accepted.segment (chain.take (accepted.previousBlockIndex + 1)) ++ [chain]).length =
      state.chainsStorage.length + 1 := by
    simp [h.coherent.length]
  have hnewChain : ((chains.set accepted.segment (chain.take (accepted.previousBlockIndex + 1)) ++ [chain]) ++
      [chain.take (accepted.previousBlockIndex + 1)])[state.chainsStorage.length + 1]? =
        some (chain.take (accepted.previousBlockIndex + 1)) := by
    rw [← hchainsLength, List.getElem?_concat_length]
  have hindex' : accepted.block.cachedBlock.getBlockIndex =
      (BlockchainCache.create (some accepted.segment) (accepted.previousBlockIndex + 1)).startIndex +
        (BlockchainCache.create (some accepted.segment) (accepted.previousBlockIndex + 1)).blockInfos.length :=
    hc.getBlockIndex
  have hcoherent := hfork.pushBlockAt hnew hnewChain rfl hindex'
  rw [h.coherent.length]
  refine ⟨hcoherent, fun hq => ?_, fun hch => ?_⟩
  · -- every segment of the new store holds blocks: the new leaf its first, the split parts theirs
    rw [Core.pushAccepted_eq _ hnew] at hq
    rcases getElem?_set_eq_some hq with ⟨-, rfl⟩ | ⟨hqn, hq⟩
    · exact BlockchainCache.pushBlockOf_ne_nil _ _ _
    rcases forkSegment_getElem?_eq_some hlower hq with ⟨hqn', -⟩ | ⟨-, rfl⟩ | ⟨-, -, hq⟩
    · rw [hlen1] at hqn'
      exact absurd hqn' hqn
    · exact hlowerNe
    rcases splitSegment_getElem?_eq_some hcache hnotChild hq with ⟨-, rfl⟩ | ⟨-, rfl⟩ | ⟨-, -, x, hx, rfl⟩
    · rw [BlockchainCache.split_snd_blockInfos, ← List.length_pos_iff, List.length_drop]
      simp only [BlockchainCache.getTopBlockIndex] at hk'
      omega
    · exact hlowerNe
    · split
      · show x.blockInfos ≠ []
        exact h.nonempty hx
      · exact h.nonempty hx
  · rcases getElem?_set_eq_some hch with ⟨-, rfl⟩ | ⟨-, hch⟩
    · exact ((h.checked hchain).take _).append_single (hc.passedChecks h hchain)
    rcases getElem?_concat_eq_some hch with ⟨-, hch⟩ | ⟨-, rfl⟩
    · rcases getElem?_concat_eq_some hch with ⟨-, hch⟩ | ⟨-, rfl⟩
      · rcases getElem?_set_eq_some hch with ⟨-, rfl⟩ | ⟨-, hch⟩
        · exact (h.checked hchain).take _
        · exact h.checked hch
      · exact h.checked hchain
    · exact (h.checked hchain).take _

/-! The same three steps as steps of `Built`: the trees `Core` keeps are among those the segment
operations build. -/

theorem Built.pushLeaf (hbuilt : Built state.chainsStorage chains) (h : TreeInvariant env state.chainsStorage chains)
    (hc : AddBlockChecked env state cachedBlock rawBlock accepted)
    (hcache : state.chainsStorage[accepted.segment]? = some cache) (hchain : chains[accepted.segment]? = some chain)
    (htop : cache.getTopBlockIndex = accepted.previousBlockIndex) (hleaf : cache.children = []) :
    Built (Core.pushAccepted state.chainsStorage accepted.segment accepted.block)
      (chains.set accepted.segment (chain ++ [accepted.block])) :=
  .pushBlock accepted.block hbuilt hcache hchain hleaf (h.pushIndex hc hcache hchain htop)

theorem Built.forkPush (hbuilt : Built state.chainsStorage chains) (h : TreeInvariant env state.chainsStorage chains)
    (hc : AddBlockChecked env state cachedBlock rawBlock accepted)
    (hcache : state.chainsStorage[accepted.segment]? = some cache) (hchain : chains[accepted.segment]? = some chain)
    (htop : cache.getTopBlockIndex = accepted.previousBlockIndex) :
    Built (Core.pushAccepted (forkSegment state.chainsStorage accepted.segment (accepted.previousBlockIndex + 1))
        state.chainsStorage.length accepted.block)
      ((chains ++ [chain]).set chains.length (chain ++ [accepted.block])) := by
  have hfork := hbuilt.fork hcache hchain (h.nonempty hcache)
  rw [htop] at hfork
  have hnewChain : (chains ++ [chain])[state.chainsStorage.length]? = some chain := by
    rw [← h.coherent.length, List.getElem?_concat_length]
  rw [h.coherent.length]
  exact .pushBlock accepted.block hfork (forkSegment_getElem?_length hcache _) hnewChain rfl hc.getBlockIndex

theorem Built.splitForkPush (hbuilt : Built state.chainsStorage chains) (h : TreeInvariant env state.chainsStorage chains)
    (hc : AddBlockChecked env state cachedBlock rawBlock accepted)
    (hcache : state.chainsStorage[accepted.segment]? = some cache) (hchain : chains[accepted.segment]? = some chain)
    (htop : cache.getTopBlockIndex ≠ accepted.previousBlockIndex) :
    Built
      (Core.pushAccepted
        (forkSegment (splitSegment state.chainsStorage accepted.segment (accepted.previousBlockIndex + 1))
          accepted.segment (accepted.previousBlockIndex + 1)) (state.chainsStorage.length + 1) accepted.block)
      (((chains.set accepted.segment (chain.take (accepted.previousBlockIndex + 1)) ++ [chain]) ++
          [chain.take (accepted.previousBlockIndex + 1)]).set (chains.length + 1)
        (chain.take (accepted.previousBlockIndex + 1) ++ [accepted.block])) := by
  obtain ⟨hk, hk', hlower, hlowerChain, hlowerNe, hlowerTop⟩ := h.splitLower hc hcache hchain htop
  -- the split, then a new leaf on the lower part
  have hfork := (hbuilt.split (accepted.previousBlockIndex + 1) hcache hchain hk hk').fork hlower hlowerChain hlowerNe
  rw [hlowerTop] at hfork
  have hnew := forkSegment_getElem?_length hlower (accepted.previousBlockIndex + 1)
  rw [splitSegment_length hcache] at hnew
  have hnewChain : ((chains.set accepted.segment (chain.take (accepted.previousBlockIndex + 1)) ++ [chain]) ++
      [chain.take (accepted.previousBlockIndex + 1)])[state.chainsStorage.length + 1]? =
        some (chain.take (accepted.previousBlockIndex + 1)) := by
    have hlength : (chains.set accepted.segment (chain.take (accepted.previousBlockIndex + 1)) ++ [chain]).length =
        state.chainsStorage.length + 1 := by
      simp [h.coherent.length]
    rw [← hlength, List.getElem?_concat_length]
  rw [h.coherent.length]
  exact .pushBlock accepted.block hfork hnew hnewChain rfl hc.getBlockIndex

end Steps

/-- A segment without children. -/
def IsLeaf (store : List BlockchainCache) (q : Nat) : Prop :=
  ∃ cache, store[q]? = some cache ∧ cache.children = []

section Leaves

variable {store : List BlockchainCache} {p : Nat} {cache : BlockchainCache}

theorem isLeaf_pushAccepted (hcache : store[p]? = some cache) (block : PushedBlock) (q : Nat) :
    IsLeaf (Core.pushAccepted store p block) q ↔ IsLeaf store q := by
  unfold IsLeaf
  rw [Core.pushAccepted_eq block hcache]
  by_cases hqp : q = p
  · subst hqp
    rw [List.getElem?_set_self (List.getElem?_eq_some_iff.mp hcache).1, hcache]
    simp [(BlockchainCache.pushBlockOf_frame _ cache block).children]
  · rw [List.getElem?_set_ne (Ne.symm hqp)]

theorem parent_pushAccepted (hcache : store[p]? = some cache) (block : PushedBlock) (q : Nat) :
    (Core.pushAccepted store p block)[q]?.map (·.parent) = store[q]?.map (·.parent) := by
  rw [Core.pushAccepted_eq block hcache]
  by_cases hqp : q = p
  · subst hqp
    rw [List.getElem?_set_self (List.getElem?_eq_some_iff.mp hcache).1, hcache, Option.map_some, Option.map_some,
      (BlockchainCache.pushBlockOf_frame _ cache block).parent]
  · rw [List.getElem?_set_ne (Ne.symm hqp)]

theorem updateMainChainSet_pushAccepted (hcache : store[p]? = some cache) (block : PushedBlock) (leaves : List Nat) :
    Core.updateMainChainSet (Core.pushAccepted store p block) leaves = Core.updateMainChainSet store leaves := by
  cases leaves with
  | nil => rfl
  | cons mainLeaf _ =>
    simp only [Core.updateMainChainSet, Core.pushAccepted_length]
    exact chainFrom_congr (parent_pushAccepted hcache block) _ _

theorem isLeaf_forkPush (hcache : store[p]? = some cache) (hchildren : cache.children ≠ []) (startIndex : Nat)
    (block : PushedBlock) (q : Nat) :
    IsLeaf (Core.pushAccepted (forkSegment store p startIndex) store.length block) q ↔ q = store.length ∨ IsLeaf store q := by
  have hnew := forkSegment_getElem?_length hcache startIndex
  have hnewLt : store.length < (forkSegment store p startIndex).length := by
    rw [forkSegment_length hcache]
    omega
  unfold IsLeaf
  rw [Core.pushAccepted_eq block hnew]
  constructor
  · rintro ⟨c, hq, hc⟩
    rcases getElem?_set_eq_some hq with ⟨rfl, -⟩ | ⟨hqn, hq⟩
    · exact .inl rfl
    rcases forkSegment_getElem?_eq_some hcache hq with ⟨rfl, -⟩ | ⟨-, rfl⟩ | ⟨-, -, hq⟩
    · exact absurd rfl hqn
    · simp [BlockchainCache.addChild] at hc
    · exact .inr ⟨c, hq, hc⟩
  · rintro (rfl | ⟨c, hq, hc⟩)
    · refine ⟨_, List.getElem?_set_self hnewLt, ?_⟩
      rw [(BlockchainCache.pushBlockOf_frame _ _ block).children]
      rfl
    · have hqp : q ≠ p := by
        rintro rfl
        rw [hcache, Option.some.injEq] at hq
        subst hq
        exact hchildren hc
      have hqlt := (List.getElem?_eq_some_iff.mp hq).1
      refine ⟨c, ?_, hc⟩
      rw [List.getElem?_set_ne (by omega), forkSegment_getElem?_of_ne hcache startIndex hqp hqlt, hq]

theorem isLeaf_splitForkPush (hcache : store[p]? = some cache) (hnotChild : p ∉ cache.children)
    (splitBlockIndex : Nat) (block : PushedBlock) (q : Nat) :
    IsLeaf (Core.pushAccepted (forkSegment (splitSegment store p splitBlockIndex) p splitBlockIndex)
        (store.length + 1) block) q ↔
      q = store.length + 1 ∨ (q = store.length ∧ cache.children = []) ∨ (q ≠ p ∧ IsLeaf store q) := by
  have hlower : (splitSegment store p splitBlockIndex)[p]? = some (cache.split p store.length splitBlockIndex).1 :=
    splitSegment_getElem?_self hcache hnotChild
  have hlen1 : (splitSegment store p splitBlockIndex).length = store.length + 1 := splitSegment_length hcache
  have hnew := forkSegment_getElem?_length hlower splitBlockIndex
  rw [hlen1] at hnew
  have hnewLt : store.length + 1 < (forkSegment (splitSegment store p splitBlockIndex) p splitBlockIndex).length := by
    rw [forkSegment_length hlower, hlen1]
    omega
  have hplt : p < store.length := (List.getElem?_eq_some_iff.mp hcache).1
  unfold IsLeaf
  rw [Core.pushAccepted_eq block hnew]
  constructor
  · rintro ⟨c, hq, hc⟩
    rcases getElem?_set_eq_some hq with ⟨rfl, -⟩ | ⟨hqn, hq⟩
    · exact .inl rfl
    rcases forkSegment_getElem?_eq_some hlower hq with ⟨hq', -⟩ | ⟨-, rfl⟩ | ⟨hqp, -, hq⟩
    · rw [hlen1] at hq'
      exact absurd hq' hqn
    · simp [BlockchainCache.addChild] at hc
    rcases splitSegment_getElem?_eq_some hcache hnotChild hq with ⟨rfl, rfl⟩ | ⟨hqp', -⟩ | ⟨-, -, x, hx, rfl⟩
    · exact .inr (.inl ⟨rfl, hc⟩)
    · exact absurd hqp' hqp
    · refine .inr (.inr ⟨hqp, x, hx, ?_⟩)
      split at hc <;> exact hc
  · rintro (rfl | ⟨rfl, hleaf⟩ | ⟨hqp, x, hx, hleaf⟩)
    · refine ⟨_, List.getElem?_set_self hnewLt, ?_⟩
      rw [(BlockchainCache.pushBlockOf_frame _ _ block).children]
      rfl
    · refine ⟨(cache.split p store.length splitBlockIndex).2, ?_, hleaf⟩
      rw [List.getElem?_set_ne (by omega),
        forkSegment_getElem?_of_ne hlower splitBlockIndex (by omega) (by rw [hlen1]; omega),
        splitSegment_getElem?_length hcache]
    · have hqlt := (List.getElem?_eq_some_iff.mp hx).1
      refine ⟨if q ∈ cache.children then { x with parent := some store.length } else x, ?_, ?_⟩
      · rw [List.getElem?_set_ne (by omega),
          forkSegment_getElem?_of_ne hlower splitBlockIndex hqp (by rw [hlen1]; omega),
          splitSegment_getElem?_of_ne hcache hqp hx]
      · split <;> exact hleaf

end Leaves

/-- The flat chains after `addBlockApply`, branch by branch: the leaf's chain grows by the block, or
a new leaf holds the chain up to the previous block and the block; a split keeps the whole chain for
the upper part and cuts the lower part's chain at the split. -/
def Core.applyChains (state : CoreState) (chains : List (List PushedBlock)) (accepted : AcceptedBlock) :
    List (List PushedBlock) :=
  let p := accepted.segment
  let chain := chains[p]?.getD []
  match state.chainsStorage[p]? with
  | none => chains
  | some cache =>
    if cache.getTopBlockIndex = accepted.previousBlockIndex then
      if cache.getChildCount = 0 then chains.set p (chain ++ [accepted.block])
      else (chains ++ [chain]).set chains.length (chain ++ [accepted.block])
    else
      let lower := chain.take (accepted.previousBlockIndex + 1)
      ((chains.set p lower ++ [chain]) ++ [lower]).set (chains.length + 1) (lower ++ [accepted.block])

/-- The invariant of `Core` over its runs, with the flat chain of each segment. -/
structure CoreInvariant (env : CoreEnvironment) (state : CoreState) (chains : List (List PushedBlock)) : Prop where
  tree : TreeInvariant env state.chainsStorage chains
  leavesNodup : state.chainsLeaves.Nodup
  leaves : ∀ q, q ∈ state.chainsLeaves ↔ IsLeaf state.chainsStorage q
  mainChainSet : state.mainChainSet = Core.updateMainChainSet state.chainsStorage state.chainsLeaves

section Apply

variable {env : CoreEnvironment} {state : CoreState} {cachedBlock : CachedBlock} {rawBlock : RawBlock}
  {accepted : AcceptedBlock} {chains : List (List PushedBlock)} {chain : List PushedBlock} {cache : BlockchainCache}

theorem IsLeaf.lt_length {store : List BlockchainCache} {q : Nat} (h : IsLeaf store q) : q < store.length := by
  obtain ⟨c, hq, -⟩ := h
  exact (List.getElem?_eq_some_iff.mp hq).1

theorem swap_perm {leaves : List Nat} {p : Nat} (hp : p ∈ leaves) :
    ((leaves.set 0 p).set (leaves.idxOf p) (leaves.headD p)).Perm leaves := by
  have hidx : leaves.idxOf p < leaves.length := List.idxOf_lt_length_of_mem hp
  have hpos : 0 < leaves.length := List.length_pos_of_mem hp
  have hp' : leaves[leaves.idxOf p] = p := List.getElem_idxOf hidx
  have hhead : leaves.headD p = leaves[0] := by
    cases leaves with
    | nil => cases hp
    | cons x xs => rfl
  have hperm := List.set_set_perm hpos hidx
  rw [hp', ← hhead] at hperm
  exact hperm

theorem not_mem_leaves_length (h : CoreInvariant env state chains) {q : Nat} (hq : state.chainsStorage.length ≤ q) :
    q ∉ state.chainsLeaves := fun hmem => by
  have := ((h.leaves q).mp hmem).lt_length
  omega

theorem CoreInvariant.addBlockApply (h : CoreInvariant env state chains)
    (hc : AddBlockChecked env state cachedBlock rawBlock accepted) :
    CoreInvariant env (Core.addBlockApply state accepted).2 (Core.applyChains state chains accepted) := by
  obtain ⟨cache, hcache, -⟩ := hc.previous
  obtain ⟨chain, hchain⟩ := h.tree.coherent.chain_of_cache hcache
  have hgetD : chains[accepted.segment]?.getD [] = chain := by rw [hchain]; rfl
  unfold Core.addBlockApply Core.applyChains
  simp only [hcache, hgetD]
  split_ifs with htop hleaf hmain hswitch hsplit
  · -- on top of the main leaf
    have hleaf' : cache.children = [] := List.length_eq_zero_iff.mp hleaf
    exact ⟨h.tree.pushLeaf hc hcache hchain htop hleaf', h.leavesNodup,
      fun q => (h.leaves q).trans (isLeaf_pushAccepted hcache _ q).symm,
      by rw [updateMainChainSet_pushAccepted hcache]; exact h.mainChainSet⟩
  · -- on top of another leaf, now heavier than the main one: the two leaves swap places
    have hleaf' : cache.children = [] := List.length_eq_zero_iff.mp hleaf
    have hperm := swap_perm ((h.leaves _).mpr ⟨cache, hcache, hleaf'⟩)
    exact ⟨h.tree.pushLeaf hc hcache hchain htop hleaf', hperm.nodup_iff.mpr h.leavesNodup,
      fun q => hperm.mem_iff.trans ((h.leaves q).trans (isLeaf_pushAccepted hcache _ q).symm), rfl⟩
  · -- on top of another leaf, not heavier
    have hleaf' : cache.children = [] := List.length_eq_zero_iff.mp hleaf
    exact ⟨h.tree.pushLeaf hc hcache hchain htop hleaf', h.leavesNodup,
      fun q => (h.leaves q).trans (isLeaf_pushAccepted hcache _ q).symm,
      by rw [updateMainChainSet_pushAccepted hcache]; exact h.mainChainSet⟩
  · -- a new leaf on the top block of a segment with children
    have hchildren : cache.children ≠ [] := fun hnil => hleaf (List.length_eq_zero_iff.mpr hnil)
    have hfresh := not_mem_leaves_length h (le_refl state.chainsStorage.length)
    refine ⟨h.tree.forkPush hc hcache hchain htop, ?_, fun q => ?_, rfl⟩
    · exact List.nodup_append.mpr ⟨h.leavesNodup, List.nodup_singleton _,
        fun a ha b hb => by rw [List.mem_singleton.mp hb]; rintro rfl; exact hfresh ha⟩
    · rw [isLeaf_forkPush hcache hchildren, List.mem_append, List.mem_singleton, h.leaves q, or_comm]
  · -- a split above the previous block of a leaf: the upper part takes the leaf's place
    have hleaf' : cache.children = [] := List.length_eq_zero_iff.mp hsplit
    have hpLeaf : accepted.segment ∈ state.chainsLeaves := (h.leaves _).mpr ⟨cache, hcache, hleaf'⟩
    have hnotChild := h.tree.coherent.not_mem_children hcache
    have hfresh := not_mem_leaves_length h (le_refl state.chainsStorage.length)
    have hfresh' := not_mem_leaves_length h (Nat.le_succ state.chainsStorage.length)
    refine ⟨h.tree.splitForkPush hc hcache hchain htop, ?_, fun q => ?_, rfl⟩
    · refine List.nodup_append.mpr ⟨nodup_replace h.leavesNodup hfresh, List.nodup_singleton _, ?_⟩
      intro a ha b hb
      rw [List.mem_singleton.mp hb]
      rcases mem_of_mem_replace ha with rfl | ha
      · omega
      · rintro rfl
        exact hfresh' ha
    · rw [isLeaf_splitForkPush hcache hnotChild, List.mem_append, List.mem_singleton,
        mem_replace_of_nodup h.leavesNodup hpLeaf, h.leaves q]
      constructor
      · rintro ((rfl | ⟨hq, hqp⟩) | rfl)
        · exact .inr (.inl ⟨rfl, hleaf'⟩)
        · exact .inr (.inr ⟨hqp, hq⟩)
        · exact .inl rfl
      · rintro (rfl | ⟨rfl, -⟩ | ⟨hqp, hq⟩)
        · exact .inr rfl
        · exact .inl (.inl rfl)
        · exact .inl (.inr ⟨hq, hqp⟩)
  · -- a split above the previous block of a segment with children
    have hchildren : cache.children ≠ [] := fun hnil => hsplit (List.length_eq_zero_iff.mpr hnil)
    have hnotChild := h.tree.coherent.not_mem_children hcache
    have hfresh' := not_mem_leaves_length h (Nat.le_succ state.chainsStorage.length)
    refine ⟨h.tree.splitForkPush hc hcache hchain htop, ?_, fun q => ?_, rfl⟩
    · exact List.nodup_append.mpr ⟨h.leavesNodup, List.nodup_singleton _,
        fun a ha b hb => by rw [List.mem_singleton.mp hb]; rintro rfl; exact hfresh' ha⟩
    · rw [isLeaf_splitForkPush hcache hnotChild, List.mem_append, List.mem_singleton, h.leaves q]
      constructor
      · rintro (hq | rfl)
        · have hqp : q ≠ accepted.segment := by
            rintro rfl
            obtain ⟨c, hc, hnil⟩ := hq
            rw [hcache, Option.some.injEq] at hc
            subst hc
            exact hchildren hnil
          exact .inr (.inr ⟨hqp, hq⟩)
        · exact .inl rfl
      · rintro (rfl | ⟨-, hnil⟩ | ⟨-, hq⟩)
        · exact .inr rfl
        · exact absurd hnil hchildren
        · exact .inl hq

theorem Built.addBlockApply (hbuilt : Built state.chainsStorage chains) (h : CoreInvariant env state chains)
    (hc : AddBlockChecked env state cachedBlock rawBlock accepted) :
    Built (Core.addBlockApply state accepted).2.chainsStorage (Core.applyChains state chains accepted) := by
  obtain ⟨cache, hcache, -⟩ := hc.previous
  obtain ⟨chain, hchain⟩ := h.tree.coherent.chain_of_cache hcache
  have hgetD : chains[accepted.segment]?.getD [] = chain := by rw [hchain]; rfl
  unfold Core.addBlockApply Core.applyChains
  simp only [hcache, hgetD]
  split_ifs with htop hleaf
  -- the three pushes on a leaf differ only in the leaves and the main chain, the two splits in the leaves
  · exact hbuilt.pushLeaf h.tree hc hcache hchain htop (List.length_eq_zero_iff.mp hleaf)
  · exact hbuilt.pushLeaf h.tree hc hcache hchain htop (List.length_eq_zero_iff.mp hleaf)
  · exact hbuilt.pushLeaf h.tree hc hcache hchain htop (List.length_eq_zero_iff.mp hleaf)
  · exact hbuilt.forkPush h.tree hc hcache hchain htop
  · exact hbuilt.splitForkPush h.tree hc hcache hchain htop
  · exact hbuilt.splitForkPush h.tree hc hcache hchain htop

theorem CoreInvariant.init {genesisBlock : CachedBlock} {rawBlock : RawBlock} (hindex : genesisBlock.getBlockIndex = 0) :
    CoreInvariant env (Core.init genesisBlock rawBlock) [[genesisPushedBlock genesisBlock rawBlock]] := by
  have hframe := BlockchainCache.pushBlockOf_frame [] (BlockchainCache.create none 0)
    (genesisPushedBlock genesisBlock rawBlock)
  rw [← createRoot_eq] at hframe
  have hat : ∀ {q : Nat} {c : BlockchainCache}, [BlockchainCache.createRoot genesisBlock rawBlock][q]? = some c →
      q = 0 ∧ c = BlockchainCache.createRoot genesisBlock rawBlock := by
    intro q c hq
    cases q with
    | zero => exact ⟨rfl, (Option.some.inj hq).symm⟩
    | succ q => cases hq
  refine ⟨⟨Coherent.genesis hindex, fun hq => ?_, fun hch => ?_⟩, List.nodup_singleton 0, fun q => ?_, ?_⟩
  · obtain ⟨-, rfl⟩ := hat hq
    rw [createRoot_eq]
    exact BlockchainCache.pushBlockOf_ne_nil _ _ _
  · rcases getElem?_concat_eq_some (l := []) hch with ⟨hlt, -⟩ | ⟨-, rfl⟩
    · cases hlt
    · exact ChainChecked.singleton _
  · constructor
    · intro hq
      rw [List.mem_singleton.mp hq]
      exact ⟨_, rfl, by rw [hframe.children]; rfl⟩
    · rintro ⟨c, hq, -⟩
      rw [(hat hq).1]
      exact List.mem_singleton_self 0
  · show [0] = chainFrom BlockchainCache.parent [BlockchainCache.createRoot genesisBlock rawBlock] 1 0
    simp [chainFrom, hframe.parent, BlockchainCache.create]

end Apply

end Crygcoin
