import Crygcoin.CoreRuns

namespace Crygcoin

/-! The main chain is the heaviest. `Core::addBlock` makes a leaf the main leaf when a block on it
lifts the leaf's cumulative difficulty above the main leaf's. A block that opens a new leaf, on the
top of a segment with children or inside a split segment, gets the difficulty of the block it forks
beside, since `getDifficultyForNextBlock` reads only the chain below: it never outweighs that block's
chain.

Cumulative difficulties are `uint64_t` sums and wrap. Over the flat chains the sum as a number, the
work of the chain, is what `Core` compares as long as no sum has wrapped; a state that shows its
cumulative difficulties in order along every chain has wrapped none. -/

/-- The work of a chain: the sum of its blocks' difficulties, unbounded. -/
def chainWork (chain : List PushedBlock) : Nat :=
  (chain.map (·.blockDifficulty.toNat)).sum

@[simp] theorem chainWork_nil : chainWork [] = 0 := rfl

@[simp] theorem chainWork_append (chain rest : List PushedBlock) :
    chainWork (chain ++ rest) = chainWork chain + chainWork rest := by
  simp [chainWork]

@[simp] theorem chainWork_singleton (block : PushedBlock) : chainWork [block] = block.blockDifficulty.toNat := by
  simp [chainWork]

theorem chainWork_le_of_isPrefix {chain chain' : List PushedBlock} (h : chain <+: chain') :
    chainWork chain ≤ chainWork chain' := by
  obtain ⟨rest, rfl⟩ := h
  simp

theorem UInt64.toNat_add_lt_of_le_add {x d : UInt64} (h : x ≤ x + d) : x.toNat + d.toNat < 2 ^ 64 := by
  rw [UInt64.le_iff_toNat_le, UInt64.toNat_add] at h
  have hx := x.toNat_lt
  have hd := d.toNat_lt
  omega

theorem chainTotalsFrom_cumulativeDifficulty (totals : Totals) (chain : List PushedBlock) :
    (chainTotalsFrom totals chain).cumulativeDifficulty.toNat =
      (totals.cumulativeDifficulty.toNat + chainWork chain) % 2 ^ 64 := by
  induction chain generalizing totals with
  | nil => simp [chainTotalsFrom]
  | cons block blocks ih =>
    rw [chainTotalsFrom, List.foldl_cons, ← chainTotalsFrom, ih]
    simp only [Totals.next, UInt64.toNat_add, chainWork, List.map_cons, List.sum_cons]
    omega

theorem chainInfos_getLast?_cumulativeDifficulty {chain : List PushedBlock} (hne : chain ≠ []) :
    ∃ info ∈ chainInfos chain, info.cumulativeDifficulty = (chainTotalsFrom Totals.zero chain).cumulativeDifficulty := by
  have hlength : (chainInfos chain).length ≠ 0 := by simpa using hne
  obtain ⟨info, hlast⟩ := Option.isSome_iff_exists.mp (List.getLast?_isSome.mpr (List.ne_nil_of_length_pos
    (Nat.pos_of_ne_zero hlength)))
  exact ⟨info, List.mem_of_getLast? hlast, congrArg Totals.cumulativeDifficulty (chainInfosFrom_getLast? hlast)⟩

theorem chainWork_lt_of_pairwise {chain : List PushedBlock}
    (h : ((chainInfos chain).map (·.cumulativeDifficulty)).Pairwise (· ≤ ·)) : chainWork chain < 2 ^ 64 := by
  induction chain using List.reverseRecOn with
  | nil => simp
  | append_singleton chain block ih =>
    rw [chainInfos_append_single, List.map_append, List.pairwise_append] at h
    obtain ⟨hchain, -, hlast⟩ := h
    have hwork := ih hchain
    have htotal : (chainTotalsFrom Totals.zero chain).cumulativeDifficulty.toNat = chainWork chain := by
      rw [chainTotalsFrom_cumulativeDifficulty]
      simp only [Totals.zero, UInt64.toNat_zero, Nat.zero_add]
      exact Nat.mod_eq_of_lt hwork
    rw [chainWork_append, chainWork_singleton]
    by_cases hnil : chain = []
    · subst hnil
      simpa using block.blockDifficulty.toNat_lt
    -- the top block's cumulative difficulty is at most the new block's
    obtain ⟨info, hinfo, hcumulative⟩ := chainInfos_getLast?_cumulativeDifficulty hnil
    have hle := hlast _ (List.mem_map_of_mem hinfo) _ List.mem_cons_self
    rw [hcumulative] at hle
    have hsum := UInt64.toNat_add_lt_of_le_add hle
    rw [htotal] at hsum
    exact hsum

/-- `getDifficultyForNextBlock` over the flat chain `below`: the difficulty of a block on top of it. -/
def nextDifficultyOf (env : CoreEnvironment) (below : List PushedBlock) : UInt64 :=
  let blockIndex := below.length - 1
  let nextBlockMajorVersion := env.getBlockMajorVersionForHeight (blockIndex + 1)
  let count := env.difficultyBlocksCountByBlockVersion nextBlockMajorVersion blockIndex
  env.getNextDifficulty nextBlockMajorVersion blockIndex
    (lastUnits (chainInfos below) count blockIndex false (·.timestamp))
    (lastUnits (chainInfos below) count blockIndex false (·.cumulativeDifficulty))

theorem ChainModels.getDifficultyForNextBlock {env : CoreEnvironment} {segments : List BlockchainCache}
    {chain : List PushedBlock} (h : ChainModels segments chain) {blockIndex : Nat} (hi : blockIndex < chain.length) :
    getDifficultyForNextBlock env segments blockIndex = nextDifficultyOf env (chain.take (blockIndex + 1)) := by
  have hlength : (chain.take (blockIndex + 1)).length - 1 = blockIndex := by
    rw [List.length_take]
    omega
  simp only [Crygcoin.getDifficultyForNextBlock, getLastTimestamps, getLastCumulativeDifficulties, nextDifficultyOf,
    hlength, h.getLastUnits _ _ hi, ← chainInfos_take, lastUnits_take _ _ (le_refl _)]

/-- Every block but the genesis block has the difficulty of the next block on the chain below it. -/
def DifficultyChecked (env : CoreEnvironment) (chain : List PushedBlock) : Prop :=
  ∀ (j : Nat) (block : PushedBlock), chain[j]? = some block → 0 < j →
    block.blockDifficulty = nextDifficultyOf env (chain.take j)

section DifficultyChecked

variable {env : CoreEnvironment} {chain : List PushedBlock}

theorem DifficultyChecked.take (h : DifficultyChecked env chain) (k : Nat) : DifficultyChecked env (chain.take k) := by
  intro j block hblock hpos
  rw [List.getElem?_take] at hblock
  split at hblock
  · rename_i hjk
    rw [List.take_take, Nat.min_eq_left (Nat.le_of_lt hjk)]
    exact h j block hblock hpos
  · cases hblock

theorem DifficultyChecked.append_single {block : PushedBlock} (h : DifficultyChecked env chain)
    (hblock : block.blockDifficulty = nextDifficultyOf env chain) : DifficultyChecked env (chain ++ [block]) := by
  intro j b hb hpos
  rcases getElem?_concat_eq_some hb with ⟨hj, hb⟩ | ⟨rfl, rfl⟩
  · rw [List.take_append_of_le_length (Nat.le_of_lt hj)]
    exact h j b hb hpos
  · rw [List.take_left' rfl]
    exact hblock

theorem DifficultyChecked.of_isPrefix {old : List PushedBlock} (h : DifficultyChecked env old) (hgrows : chain <+: old) :
    DifficultyChecked env chain := by
  obtain ⟨rest, rfl⟩ := hgrows
  have htake := h.take chain.length
  rwa [List.take_left' rfl] at htake

theorem DifficultyChecked.singleton (block : PushedBlock) : DifficultyChecked env [block] := by
  intro j b hb hpos
  cases j with
  | zero => omega
  | succ j => simp at hb

theorem DifficultyChecked.chainWork_sibling (h : DifficultyChecked env chain) {k : Nat} (hpos : 0 < k)
    (hk : k < chain.length) {block : PushedBlock} (hblock : block.blockDifficulty = nextDifficultyOf env (chain.take k)) :
    chainWork (chain.take k ++ [block]) ≤ chainWork chain := by
  have hsame : chain[k].blockDifficulty = block.blockDifficulty := by
    rw [hblock]
    exact h k chain[k] (List.getElem?_eq_getElem hk) hpos
  calc chainWork (chain.take k ++ [block])
      = chainWork (chain.take (k + 1)) := by
        rw [List.take_succ_eq_append_getElem hk, chainWork_append, chainWork_append, chainWork_singleton,
          chainWork_singleton, hsame]
    _ ≤ chainWork chain := chainWork_le_of_isPrefix (⟨_, List.take_append_drop _ _⟩)

end DifficultyChecked

theorem TreeInvariant.cumulativeDifficultyOf {env : CoreEnvironment} {store : List BlockchainCache}
    {chains : List (List PushedBlock)} (h : TreeInvariant env store chains) {q : Nat} {chain : List PushedBlock}
    (hq : chains[q]? = some chain) : (Core.cumulativeDifficultyOf store q).toNat = chainWork chain % 2 ^ 64 := by
  obtain ⟨cache, hcache⟩ := h.coherent.cache_of_chain hq
  have hm := h.coherent.segment hcache hq
  obtain ⟨info, hlast⟩ := Option.isSome_iff_exists.mp (List.getLast?_isSome.mpr (h.nonempty hcache))
  -- the segment's top block is the chain's
  have hchainLast : (chainInfos chain).getLast? = some info := by
    have htop := hlast
    rw [hm.blockInfos, List.getLast?_drop] at htop
    split at htop
    · cases htop
    · exact htop
  have htotals := congrArg Totals.cumulativeDifficulty (chainInfosFrom_getLast? hchainLast)
  simp only [Core.cumulativeDifficultyOf, hcache, Option.map_some, Option.getD_some,
    BlockchainCache.getCurrentCumulativeDifficulty, hlast]
  rw [show info.cumulativeDifficulty = (chainTotalsFrom Totals.zero chain).cumulativeDifficulty from htotals,
    chainTotalsFrom_cumulativeDifficulty]
  simp [Totals.zero]

/-- The main leaf's chain weighs at least as much as every segment's. -/
def MainHeaviest (state : CoreState) (chains : List (List PushedBlock)) : Prop :=
  ∃ mainLeaf mainChain, state.chainsLeaves.head? = some mainLeaf ∧ chains[mainLeaf]? = some mainChain ∧
    ∀ (q : Nat) (chain : List PushedBlock), chains[q]? = some chain → chainWork chain ≤ chainWork mainChain

/-- No chain's cumulative difficulty has wrapped. -/
def NoWrap (chains : List (List PushedBlock)) : Prop :=
  ∀ chain ∈ chains, chainWork chain < 2 ^ 64

theorem MainHeaviest.of_step {state' : CoreState} {chains chains' : List (List PushedBlock)}
    {mainChain newChain mainChain' : List PushedBlock} {mainLeaf' : Nat}
    (hheaviest : ∀ (q : Nat) (chain : List PushedBlock), chains[q]? = some chain → chainWork chain ≤ chainWork mainChain)
    (hchains : ∀ (q : Nat) (chain' : List PushedBlock), chains'[q]? = some chain' →
      (∃ (q' : Nat) (old : List PushedBlock), chains[q']? = some old ∧ chain' <+: old) ∨ chain' = newChain)
    (hhead : state'.chainsLeaves.head? = some mainLeaf') (hmain : chains'[mainLeaf']? = some mainChain')
    (hgrow : chainWork mainChain ≤ chainWork mainChain') (hnew : chainWork newChain ≤ chainWork mainChain') :
    MainHeaviest state' chains' := by
  refine ⟨mainLeaf', mainChain', hhead, hmain, fun q chain' hq => ?_⟩
  rcases hchains q chain' hq with ⟨q', old, hold, hgrows⟩ | rfl
  · calc chainWork chain' ≤ chainWork old := chainWork_le_of_isPrefix hgrows
      _ ≤ chainWork mainChain := hheaviest q' old hold
      _ ≤ chainWork mainChain' := hgrow
  · exact hnew

section Step

variable {env : CoreEnvironment} {state : CoreState} {cachedBlock : CachedBlock} {rawBlock : RawBlock}
  {accepted : AcceptedBlock} {chains : List (List PushedBlock)} {chain : List PushedBlock} {cache : BlockchainCache}

theorem applyChains_getElem?_eq_some (h : TreeInvariant env state.chainsStorage chains)
    (hcache : state.chainsStorage[accepted.segment]? = some cache) (hchain : chains[accepted.segment]? = some chain) :
    ∀ (q : Nat) (chain' : List PushedBlock), (Core.applyChains state chains accepted)[q]? = some chain' →
      (∃ (q' : Nat) (old : List PushedBlock), chains[q']? = some old ∧ chain' <+: old) ∨
        chain' = chain.take (accepted.previousBlockIndex + 1) ++ [accepted.block] := by
  intro q chain' hq
  have hgetD : chains[accepted.segment]?.getD [] = chain := by rw [hchain]; rfl
  unfold Core.applyChains at hq
  simp only [hcache, hgetD] at hq
  split_ifs at hq with htop hleaf
  · -- the leaf's chain grows
    rw [List.take_of_length_le (le_of_eq (h.length_eq hcache hchain htop))]
    rcases getElem?_set_eq_some hq with ⟨-, rfl⟩ | ⟨-, hq⟩
    · exact .inr rfl
    · exact .inl ⟨q, chain', hq, List.prefix_refl _⟩
  · -- a new leaf on the segment's top block
    rw [List.take_of_length_le (le_of_eq (h.length_eq hcache hchain htop))]
    rcases getElem?_set_eq_some hq with ⟨-, rfl⟩ | ⟨-, hq⟩
    · exact .inr rfl
    rcases getElem?_concat_eq_some hq with ⟨-, hq⟩ | ⟨-, rfl⟩
    · exact .inl ⟨q, chain', hq, List.prefix_refl _⟩
    · exact .inl ⟨accepted.segment, chain', hchain, List.prefix_refl _⟩
  · -- a split: the lower part is cut from the segment's chain, the upper part keeps it
    rcases getElem?_set_eq_some hq with ⟨-, rfl⟩ | ⟨-, hq⟩
    · exact .inr rfl
    rcases getElem?_concat_eq_some hq with ⟨-, hq⟩ | ⟨-, rfl⟩
    · rcases getElem?_concat_eq_some hq with ⟨-, hq⟩ | ⟨-, rfl⟩
      · rcases getElem?_set_eq_some hq with ⟨-, rfl⟩ | ⟨-, hq⟩
        · exact .inl ⟨accepted.segment, chain, hchain, ⟨_, List.take_append_drop _ _⟩⟩
        · exact .inl ⟨q, chain', hq, List.prefix_refl _⟩
      · exact .inl ⟨accepted.segment, chain', hchain, List.prefix_refl _⟩
    · exact .inl ⟨accepted.segment, chain, hchain, ⟨_, List.take_append_drop _ _⟩⟩

theorem prefix_applyChains (hcache : state.chainsStorage[accepted.segment]? = some cache)
    (hchain : chains[accepted.segment]? = some chain) {q : Nat} {old : List PushedBlock} (hq : chains[q]? = some old) :
    ∃ (q' : Nat) (chain' : List PushedBlock), (Core.applyChains state chains accepted)[q']? = some chain' ∧ old <+: chain' := by
  have hgetD : chains[accepted.segment]?.getD [] = chain := by rw [hchain]; rfl
  have hqlt : q < chains.length := (List.getElem?_eq_some_iff.mp hq).1
  have hplt : accepted.segment < chains.length := (List.getElem?_eq_some_iff.mp hchain).1
  unfold Core.applyChains
  simp only [hcache, hgetD]
  split_ifs with htop hleaf
  · by_cases hqp : q = accepted.segment
    · subst hqp
      rw [hchain, Option.some.injEq] at hq
      subst hq
      exact ⟨accepted.segment, _, List.getElem?_set_self hplt, List.prefix_append _ _⟩
    · exact ⟨q, old, by rw [List.getElem?_set_ne (Ne.symm hqp), hq], List.prefix_refl _⟩
  · refine ⟨q, old, ?_, List.prefix_refl _⟩
    rw [List.getElem?_set_ne (by omega), List.getElem?_append_left hqlt, hq]
  · -- the upper part, at the end of the list, keeps the segment's whole chain
    by_cases hqp : q = accepted.segment
    · subst hqp
      rw [hchain, Option.some.injEq] at hq
      subst hq
      refine ⟨chains.length, chain, ?_, List.prefix_refl _⟩
      rw [List.getElem?_set_ne (by omega), List.getElem?_append_left (by simp),
        List.getElem?_append_right (by simp), List.length_set, Nat.sub_self]
      rfl
    · refine ⟨q, old, ?_, List.prefix_refl _⟩
      rw [List.getElem?_set_ne (by omega), List.getElem?_append_left (by simp; omega),
        List.getElem?_append_left (by simp; omega), List.getElem?_set_ne (Ne.symm hqp), hq]

theorem AddBlockChecked.blockDifficulty_eq (hc : AddBlockChecked env state cachedBlock rawBlock accepted)
    (h : TreeInvariant env state.chainsStorage chains) (hchain : chains[accepted.segment]? = some chain) :
    accepted.block.blockDifficulty = nextDifficultyOf env (chain.take (accepted.previousBlockIndex + 1)) := by
  rw [hc.blockDifficulty, (h.coherent.chainModels hchain).getDifficultyForNextBlock (hc.previous_lt h hchain)]

theorem split_lt (h : TreeInvariant env state.chainsStorage chains)
    (hcache : state.chainsStorage[accepted.segment]? = some cache) (hchain : chains[accepted.segment]? = some chain)
    (htop : ¬cache.getTopBlockIndex = accepted.previousBlockIndex)
    (hc : AddBlockChecked env state cachedBlock rawBlock accepted) :
    accepted.previousBlockIndex + 1 < chain.length := by
  have hlength := (h.coherent.segment hcache hchain).length
  have hne := List.length_pos_iff.mpr (h.nonempty hcache)
  have hlt := hc.previous_lt h hchain
  simp only [BlockchainCache.getTopBlockIndex] at htop
  omega

theorem head?_swap {leaves : List Nat} {mainLeaf p : Nat} (hhead : leaves.head? = some mainLeaf)
    (hne : mainLeaf ≠ p) : ((leaves.set 0 p).set (leaves.idxOf p) (leaves.headD p)).head? = some p := by
  cases leaves with
  | nil => cases hhead
  | cons x rest =>
    cases Option.some.inj hhead
    rw [List.idxOf_cons_ne rest hne]
    simp

/-- A heavier leaf becomes the main leaf, and the main chain only gets heavier; a block that opens a
new leaf weighs as the block beside it and changes nothing. Read over the flat chains, with no
cumulative difficulty wrapped. -/
theorem MainHeaviest.addBlockApply (h : CoreInvariant env state chains)
    (hd : ∀ {q : Nat} {chain : List PushedBlock}, chains[q]? = some chain → DifficultyChecked env chain)
    (hc : AddBlockChecked env state cachedBlock rawBlock accepted) (hmain : MainHeaviest state chains)
    (hnowrap : NoWrap (Core.applyChains state chains accepted)) :
    MainHeaviest (Core.addBlockApply state accepted).2 (Core.applyChains state chains accepted) := by
  obtain ⟨mainLeaf, mainChain, hhead, hmainChain, hheaviest⟩ := hmain
  obtain ⟨cache, hcache, -⟩ := hc.previous
  obtain ⟨chain, hchain⟩ := h.tree.coherent.chain_of_cache hcache
  have hgetD : chains[accepted.segment]?.getD [] = chain := by rw [hchain]; rfl
  have hplt : accepted.segment < chains.length := (List.getElem?_eq_some_iff.mp hchain).1
  have hmainLt : mainLeaf < chains.length := (List.getElem?_eq_some_iff.mp hmainChain).1
  have hheadD : state.chainsLeaves.headD accepted.segment = mainLeaf := by
    rw [List.headD_eq_head?_getD, hhead]
    rfl
  have hdiff := hc.blockDifficulty_eq h.tree hchain
  have hchains := applyChains_getElem?_eq_some h.tree hcache hchain
  unfold Core.applyChains at hchains hnowrap
  unfold Core.addBlockApply Core.applyChains
  simp only [hcache, hgetD] at hchains hnowrap ⊢
  split_ifs at hchains hnowrap ⊢ with htop hleaf hmain hswitch hsplit
  · -- on top of the main leaf: the main chain grows by the block
    have hp : mainLeaf = accepted.segment := Option.some.inj (hhead.symm.trans hmain)
    subst hp
    rw [hchain, Option.some.injEq] at hmainChain
    subst hmainChain
    rw [List.take_of_length_le (le_of_eq (h.tree.length_eq hcache hchain htop))] at hchains
    exact MainHeaviest.of_step hheaviest hchains hmain (List.getElem?_set_self hplt) (by simp) (le_refl _)
  · -- on top of another leaf, now heavier than the main one: it becomes the main leaf
    have hne : mainLeaf ≠ accepted.segment := fun heq => hmain (heq ▸ hhead)
    rw [List.take_of_length_le (le_of_eq (h.tree.length_eq hcache hchain htop))] at hchains
    have htree := h.tree.pushLeaf hc hcache hchain htop (List.length_eq_zero_iff.mp hleaf)
    have hnewChain := List.getElem?_set_self (a := chain ++ [accepted.block]) hplt
    have hmainChain' : (chains.set accepted.segment (chain ++ [accepted.block]))[mainLeaf]? = some mainChain := by
      rw [List.getElem?_set_ne (Ne.symm hne), hmainChain]
    have hcumulative := htree.cumulativeDifficultyOf hnewChain
    have hcumulativeMain := htree.cumulativeDifficultyOf hmainChain'
    rw [Nat.mod_eq_of_lt (hnowrap _ (List.mem_of_getElem? hnewChain))] at hcumulative
    rw [Nat.mod_eq_of_lt (hnowrap _ (List.mem_of_getElem? hmainChain'))] at hcumulativeMain
    rw [hheadD, gt_iff_lt, UInt64.lt_iff_toNat_lt, hcumulative, hcumulativeMain] at hswitch
    exact MainHeaviest.of_step hheaviest hchains (head?_swap hhead hne) hnewChain (le_of_lt hswitch) (le_refl _)
  · -- on top of another leaf, not heavier: the main leaf stays
    have hne : mainLeaf ≠ accepted.segment := fun heq => hmain (heq ▸ hhead)
    rw [List.take_of_length_le (le_of_eq (h.tree.length_eq hcache hchain htop))] at hchains
    have htree := h.tree.pushLeaf hc hcache hchain htop (List.length_eq_zero_iff.mp hleaf)
    have hnewChain := List.getElem?_set_self (a := chain ++ [accepted.block]) hplt
    have hmainChain' : (chains.set accepted.segment (chain ++ [accepted.block]))[mainLeaf]? = some mainChain := by
      rw [List.getElem?_set_ne (Ne.symm hne), hmainChain]
    have hcumulative := htree.cumulativeDifficultyOf hnewChain
    have hcumulativeMain := htree.cumulativeDifficultyOf hmainChain'
    rw [Nat.mod_eq_of_lt (hnowrap _ (List.mem_of_getElem? hnewChain))] at hcumulative
    rw [Nat.mod_eq_of_lt (hnowrap _ (List.mem_of_getElem? hmainChain'))] at hcumulativeMain
    rw [hheadD, gt_iff_lt, UInt64.lt_iff_toNat_lt, hcumulative, hcumulativeMain, not_lt] at hswitch
    exact MainHeaviest.of_step hheaviest hchains hhead hmainChain' (le_refl _) hswitch
  · -- a new leaf on the top block of a segment with children: the block weighs as a child's first block
    rw [List.take_of_length_le (le_of_eq (h.tree.length_eq hcache hchain htop))] at hchains hdiff
    have hchildren : cache.children ≠ [] := fun hnil => hleaf (List.length_eq_zero_iff.mpr hnil)
    obtain ⟨child, hchild⟩ := List.exists_mem_of_ne_nil _ hchildren
    obtain ⟨childCache, hchildCache, hchildParent⟩ := h.tree.coherent.childParent hcache hchild
    obtain ⟨childChain, hchildChain⟩ := h.tree.coherent.chain_of_cache hchildCache
    obtain ⟨parentCache, -, hstart, hparentChain⟩ := h.tree.coherent.parent hchildCache hchildParent hchildChain
    rw [hchain, Option.some.injEq] at hparentChain
    have hchildLength := (h.tree.coherent.segment hchildCache hchildChain).length
    have hchildNe := List.length_pos_iff.mpr (h.tree.nonempty hchildCache)
    have hsibling := (hd hchildChain).chainWork_sibling (k := childCache.startIndex) (by omega) (by omega)
      (by rw [hdiff, hparentChain])
    rw [← hparentChain] at hsibling
    have hmainChain' : ((chains ++ [chain]).set chains.length (chain ++ [accepted.block]))[mainLeaf]? = some mainChain := by
      rw [List.getElem?_set_ne (by omega), List.getElem?_append_left hmainLt, hmainChain]
    exact MainHeaviest.of_step hheaviest hchains (by simp [hhead]) hmainChain' (le_refl _)
      (hsibling.trans (hheaviest _ _ hchildChain))
  · -- a split above the previous block of a leaf: the upper part takes the leaf's place
    have hsibling := (hd hchain).chainWork_sibling (Nat.succ_pos _) (split_lt h.tree hcache hchain htop hc) hdiff
    have hlength := h.tree.coherent.length
    by_cases hmp : mainLeaf = accepted.segment
    · subst hmp
      rw [hchain, Option.some.injEq] at hmainChain
      subst hmainChain
      refine MainHeaviest.of_step hheaviest hchains (?_ : _ = some state.chainsStorage.length) ?_ (le_refl _) hsibling
      · simp [List.head?_append, List.head?_replace, hhead]
      · rw [← hlength, List.getElem?_set_ne (by omega), List.getElem?_append_left (by simp),
          List.getElem?_append_right (by simp), List.length_set, Nat.sub_self]
        rfl
    · refine MainHeaviest.of_step hheaviest hchains (?_ : _ = some mainLeaf) ?_ (le_refl _)
        (hsibling.trans (hheaviest _ _ hchain))
      · simp [List.head?_append, List.head?_replace, hhead, Ne.symm hmp]
      · rw [List.getElem?_set_ne (by omega), List.getElem?_append_left (by simp; omega),
          List.getElem?_append_left (by simp; omega), List.getElem?_set_ne (Ne.symm hmp), hmainChain]
  · -- a split above the previous block of a segment with children, which is not the main leaf
    have hsibling := (hd hchain).chainWork_sibling (Nat.succ_pos _) (split_lt h.tree hcache hchain htop hc) hdiff
    have hmp : mainLeaf ≠ accepted.segment := by
      rintro rfl
      obtain ⟨leafCache, hleafCache, hnil⟩ := (h.leaves _).mp (List.mem_of_mem_head? hhead)
      rw [hcache, Option.some.injEq] at hleafCache
      subst hleafCache
      simp [BlockchainCache.getChildCount, hnil] at hsplit
    refine MainHeaviest.of_step hheaviest hchains (?_ : _ = some mainLeaf) ?_ (le_refl _)
      (hsibling.trans (hheaviest _ _ hchain))
    · simp [List.head?_append, hhead]
    · rw [List.getElem?_set_ne (by omega), List.getElem?_append_left (by simp; omega),
        List.getElem?_append_left (by simp; omega), List.getElem?_set_ne (Ne.symm hmp), hmainChain]

/-- The invariant of `Core` with what the main chain's weight rests on: every block's difficulty is
the one `getDifficultyForNextBlock` gives on the chain below it, and, while no cumulative difficulty
has wrapped, the main leaf's chain is the heaviest. -/
structure HeaviestInvariant (env : CoreEnvironment) (state : CoreState) (chains : List (List PushedBlock)) :
    Prop where
  core : CoreInvariant env state chains
  difficulty : ∀ {q : Nat} {chain : List PushedBlock}, chains[q]? = some chain → DifficultyChecked env chain
  heaviest : NoWrap chains → MainHeaviest state chains

theorem HeaviestInvariant.addBlockApply (h : HeaviestInvariant env state chains)
    (hc : AddBlockChecked env state cachedBlock rawBlock accepted) :
    HeaviestInvariant env (Core.addBlockApply state accepted).2 (Core.applyChains state chains accepted) := by
  obtain ⟨cache, hcache, -⟩ := hc.previous
  obtain ⟨chain, hchain⟩ := h.core.tree.coherent.chain_of_cache hcache
  refine ⟨h.core.addBlockApply hc, fun hq => ?_, fun hnowrap => ?_⟩
  · rcases applyChains_getElem?_eq_some h.core.tree hcache hchain _ _ hq with ⟨q', old, hold, hgrows⟩ | rfl
    · exact (h.difficulty hold).of_isPrefix hgrows
    · exact ((h.difficulty hchain).take _).append_single (hc.blockDifficulty_eq h.core.tree hchain)
  · -- every chain before is a prefix of one after, so none of them wrapped either
    have hnowrapBefore : NoWrap chains := by
      intro old hold
      obtain ⟨q, hq⟩ := List.mem_iff_getElem?.mp hold
      obtain ⟨q', chain', hq', hgrows⟩ := prefix_applyChains hcache hchain hq
      exact lt_of_le_of_lt (chainWork_le_of_isPrefix hgrows) (hnowrap _ (List.mem_of_getElem? hq'))
    exact MainHeaviest.addBlockApply h.core h.difficulty hc (h.heaviest hnowrapBefore) hnowrap

theorem HeaviestInvariant.addBlock (h : HeaviestInvariant env state chains) (cachedBlock : CachedBlock)
    (rawBlock : RawBlock) : ∃ chains', HeaviestInvariant env (Core.addBlock env state cachedBlock rawBlock).2 chains' := by
  rcases Core.addBlock_snd env state cachedBlock rawBlock with hsame | ⟨accepted, hok, happly⟩
  · exact ⟨chains, by rw [hsame]; exact h⟩
  · exact ⟨_, by rw [happly]; exact h.addBlockApply (Core.addBlockChecks_eq_ok hok)⟩

theorem HeaviestInvariant.init {genesisBlock : CachedBlock} {rawBlock : RawBlock} (hindex : genesisBlock.getBlockIndex = 0) :
    HeaviestInvariant env (Core.init genesisBlock rawBlock) [[genesisPushedBlock genesisBlock rawBlock]] := by
  have hgenesis : ∀ {q : Nat} {chain : List PushedBlock}, [[genesisPushedBlock genesisBlock rawBlock]][q]? = some chain →
      chain = [genesisPushedBlock genesisBlock rawBlock] := by
    intro q chain hq
    rcases getElem?_concat_eq_some (l := []) hq with ⟨hlt, -⟩ | ⟨-, rfl⟩
    · cases hlt
    · rfl
  refine ⟨CoreInvariant.init hindex, fun hq => ?_, fun _ => ⟨0, _, rfl, rfl, fun q chain hq => ?_⟩⟩
  · rw [hgenesis hq]
    exact DifficultyChecked.singleton _
  · rw [hgenesis hq]

end Step

theorem Core.Reachable.heaviestInvariant {env : CoreEnvironment} {genesisBlock : CachedBlock} {rawGenesis : RawBlock}
    {state : CoreState} (hgenesis : genesisBlock.getBlockIndex = 0) (h : Core.Reachable env genesisBlock rawGenesis state) :
    ∃ chains, HeaviestInvariant env state chains := by
  induction h with
  | init => exact ⟨_, HeaviestInvariant.init hgenesis⟩
  | addBlock cachedBlock rawBlock _ ih =>
    obtain ⟨chains, hinv⟩ := ih
    exact hinv.addBlock cachedBlock rawBlock

theorem lastUnits_whole (chain : List PushedBlock) (hne : chain ≠ []) (pred : CachedBlockInfo → UInt64) :
    lastUnits (chainInfos chain) (chain.length - 1 + 1) (chain.length - 1) true pred = (chainInfos chain).map pred := by
  have hlength := List.length_pos_iff.mpr hne
  simp [lastUnits, Nat.sub_add_cancel hlength]

section Runs

variable {env : CoreEnvironment} {genesisBlock : CachedBlock} {rawGenesis : RawBlock} {state : CoreState}

/-- The main chain is the heaviest. In every state `addBlock` reaches from the root segment in which
the cumulative difficulties read along each segment's chain, from the genesis block up, are in order
(none has wrapped), no segment's top cumulative difficulty exceeds that of `chainsLeaves[0]`. -/
theorem mainChain_heaviest (hgenesis : genesisBlock.getBlockIndex = 0)
    (hrun : Core.Reachable env genesisBlock rawGenesis state)
    (hordered : ∀ (q : Nat) (cache : BlockchainCache), state.chainsStorage[q]? = some cache →
      (getLastCumulativeDifficulties (segmentsOf state.chainsStorage q) (cache.getTopBlockIndex + 1)
        cache.getTopBlockIndex true).Pairwise (· ≤ ·)) :
    ∃ mainLeaf, state.chainsLeaves.head? = some mainLeaf ∧
      ∀ q, q < state.chainsStorage.length →
        Core.cumulativeDifficultyOf state.chainsStorage q ≤ Core.cumulativeDifficultyOf state.chainsStorage mainLeaf := by
  obtain ⟨chains, h⟩ := hrun.heaviestInvariant hgenesis
  -- each chain reads its cumulative difficulties in order, so none of its sums wrapped
  have hnowrap : NoWrap chains := by
    intro chain hmem
    obtain ⟨q, hq⟩ := List.mem_iff_getElem?.mp hmem
    obtain ⟨cache, hcache⟩ := h.core.tree.coherent.cache_of_chain hq
    have hm := h.core.tree.coherent.segment hcache hq
    have hne : chain ≠ [] := by
      have hlength := hm.length
      have hblocks := List.length_pos_iff.mpr (h.core.tree.nonempty hcache)
      rw [← List.length_pos_iff]
      omega
    have hpos := List.length_pos_iff.mpr hne
    have hread := hordered q cache hcache
    rw [getLastCumulativeDifficulties, hm.getTopBlockIndex,
      (h.core.tree.coherent.chainModels hq).getLastUnits _ _ (by omega), lastUnits_whole chain hne] at hread
    exact chainWork_lt_of_pairwise hread
  obtain ⟨mainLeaf, mainChain, hhead, hmainChain, hheaviest⟩ := h.heaviest hnowrap
  refine ⟨mainLeaf, hhead, fun q hq => ?_⟩
  obtain ⟨chain, hchain⟩ := h.core.tree.coherent.chain_of_cache (List.getElem?_eq_getElem hq)
  rw [UInt64.le_iff_toNat_le, h.core.tree.cumulativeDifficultyOf hchain, h.core.tree.cumulativeDifficultyOf hmainChain,
    Nat.mod_eq_of_lt (hnowrap _ (List.mem_of_getElem? hchain)),
    Nat.mod_eq_of_lt (hnowrap _ (List.mem_of_getElem? hmainChain))]
  exact hheaviest q chain hchain

/-- A run that splits the root segment below its top, then lets the other leaf overtake the main
leaf, which makes it the main leaf. -/
def switchRun : CoreState :=
  Core.addBlocks (openEnvironment ⟨[], List.nodup_nil⟩ 1 true) (Core.init (blockAt 0 100 0) (rawOf 100))
    [(blockAt 1 1 100, rawOf 1), (blockAt 1 2 100, rawOf 2), (blockAt 2 3 1, rawOf 3), (blockAt 2 4 2, rawOf 4),
      (blockAt 3 5 4, rawOf 5)]

example : switchRun.chainsLeaves = [2, 1] := by decide +kernel

theorem switchRun_ordered : ∀ (q : Nat) (cache : BlockchainCache), switchRun.chainsStorage[q]? = some cache →
    (getLastCumulativeDifficulties (segmentsOf switchRun.chainsStorage q) (cache.getTopBlockIndex + 1)
      cache.getTopBlockIndex true).Pairwise (· ≤ ·) := by
  intro q cache hq
  obtain ⟨hlt, rfl⟩ := List.getElem?_eq_some_iff.mp hq
  revert q
  decide +kernel

theorem mainChain_heaviest_switch :
    (∀ (q : Nat) (cache : BlockchainCache), switchRun.chainsStorage[q]? = some cache →
      (getLastCumulativeDifficulties (segmentsOf switchRun.chainsStorage q) (cache.getTopBlockIndex + 1)
        cache.getTopBlockIndex true).Pairwise (· ≤ ·)) ∧
    ∃ mainLeaf, switchRun.chainsLeaves.head? = some mainLeaf ∧
      ∀ q, q < switchRun.chainsStorage.length →
        Core.cumulativeDifficultyOf switchRun.chainsStorage q ≤ Core.cumulativeDifficultyOf switchRun.chainsStorage mainLeaf :=
  ⟨switchRun_ordered, mainChain_heaviest rfl (Core.Reachable.init.addBlocks _) switchRun_ordered⟩

end Runs

end Crygcoin
