import Crygcoin.SparseChain
import Crygcoin.HeaviestChain

namespace Crygcoin

/-! A block hash names one block of the segment tree. `addBlock` refuses a block whose hash
`hasBlock` finds on the way from some leaf to the root, and every segment lies on such a way, so no
hash enters the tree twice. Over the flat chains of the segments this is block matching, as log
matching is for replicated logs: two chains holding a hash hold it at one height, with the same
blocks below it. -/

/-- Block matching over the flat chains of the segments: two chains holding blocks with one hash
hold them at one height, and agree on every block up to it. -/
def BlockMatching (chains : List (List PushedBlock)) : Prop :=
  ∀ {q r i j : Nat} {a b : List PushedBlock} {x y : PushedBlock}, chains[q]? = some a → chains[r]? = some b →
    a[i]? = some x → b[j]? = some y → x.cachedBlock.blockHash = y.cachedBlock.blockHash →
    i = j ∧ a.take (i + 1) = b.take (j + 1)

theorem BlockMatching.nodup {chains : List (List PushedBlock)} (h : BlockMatching chains) {q : Nat}
    {a : List PushedBlock} (hq : chains[q]? = some a) : (blockHashes a).Nodup := by
  rw [List.nodup_iff_getElem?_ne_getElem?]
  intro i j hij hj hsame
  have hj' : j < a.length := by simpa [blockHashes] using hj
  obtain ⟨x, hx⟩ : ∃ x, a[i]? = some x := ⟨a[i], List.getElem?_eq_getElem (by omega)⟩
  obtain ⟨y, hy⟩ : ∃ y, a[j]? = some y := ⟨a[j], List.getElem?_eq_getElem hj'⟩
  have hxy : x.cachedBlock.blockHash = y.cachedBlock.blockHash := by
    simpa [blockHashes, List.getElem?_map, hx, hy] using hsame
  have hij' := (h hq hq hx hy hxy).1
  omega

/-! ### Every segment lies on the way from a leaf -/

section Descent

variable {store : List BlockchainCache} {chains : List (List PushedBlock)}

theorem Coherent.leaf_or_child (h : Coherent store chains) {q : Nat} {cache : BlockchainCache}
    {a : List PushedBlock} (hq : store[q]? = some cache) (ha : chains[q]? = some a) :
    IsLeaf store q ∨ ∃ (c : Nat) (child : BlockchainCache) (b : List PushedBlock), store[c]? = some child ∧
      chains[c]? = some b ∧ cache.startIndex < child.startIndex ∧ a <+: b := by
  cases hchildren : cache.children with
  | nil => exact .inl ⟨cache, hq, hchildren⟩
  | cons c rest =>
    obtain ⟨child, hc, hparent⟩ := h.childParent hq (hchildren ▸ List.mem_cons_self)
    obtain ⟨b, hb⟩ := h.chain_of_cache hc
    obtain ⟨parentCache, hq', hlt, htake⟩ := h.parent hc hparent hb
    rw [hq, Option.some.injEq] at hq'
    subst hq'
    rw [ha, Option.some.injEq] at htake
    exact .inr ⟨c, child, b, hc, hb, hlt, htake ▸ ⟨_, List.take_append_drop _ _⟩⟩

theorem Coherent.startIndex_le_sum (h : Coherent store chains) {q : Nat} {cache : BlockchainCache}
    {a : List PushedBlock} (hq : store[q]? = some cache) (ha : chains[q]? = some a) :
    cache.startIndex ≤ (chains.map List.length).sum :=
  calc cache.startIndex
      _ ≤ a.length := (h.segment hq ha).start_le
      _ ≤ (chains.map List.length).sum := List.le_sum_of_mem (List.mem_map_of_mem (List.mem_of_getElem? ha))

theorem Coherent.exists_leaf (h : Coherent store chains) {q : Nat} {a : List PushedBlock}
    (ha : chains[q]? = some a) : ∃ (l : Nat) (b : List PushedBlock), IsLeaf store l ∧ chains[l]? = some b ∧ a <+: b := by
  obtain ⟨cache, hq⟩ := h.cache_of_chain ha
  -- down the children, on how far the start lies below the sum of the chains' lengths
  suffices hdown : ∀ (n q : Nat) (cache : BlockchainCache) (a : List PushedBlock), store[q]? = some cache →
      chains[q]? = some a → (chains.map List.length).sum - cache.startIndex = n →
      ∃ (l : Nat) (b : List PushedBlock), IsLeaf store l ∧ chains[l]? = some b ∧ a <+: b from
    hdown _ q cache a hq ha rfl
  intro n
  induction n using Nat.strong_induction_on with
  | _ n ih =>
    intro q cache a hq ha hn
    rcases h.leaf_or_child hq ha with hleaf | ⟨c, child, b, hc, hb, hlt, hgrows⟩
    · exact ⟨q, a, hleaf, ha, List.prefix_refl a⟩
    · have hbound := h.startIndex_le_sum hc hb
      obtain ⟨l, b', hleaf, hb', hgrows'⟩ := ih _ (by omega) c child b hc hb rfl
      exact ⟨l, b', hleaf, hb', hgrows.trans hgrows'⟩

end Descent

/-! ### `hasBlock` finds every block of every chain -/

theorem Core.hasBlock_of_leaf {state : CoreState} {l : Nat} {blockHash : Hash} (hl : l ∈ state.chainsLeaves)
    (hfound : (findIndexInChain state.chainsStorage l blockHash).isSome) : Core.hasBlock state blockHash = true := by
  unfold Core.hasBlock Core.findSegmentContainingBlock
  cases hleaves : state.chainsLeaves with
  | nil =>
    rw [hleaves] at hl
    cases hl
  | cons mainLeaf alternatives =>
    rw [hleaves] at hl
    dsimp only
    -- the main leaf is asked first, then the others in order
    cases hmain : findIndexInChain state.chainsStorage mainLeaf blockHash with
    | some q => rfl
    | none =>
      rw [Option.orElse_none]
      rcases List.mem_cons.mp hl with rfl | hl
      · rw [hmain] at hfound
        cases hfound
      · exact List.findSome?_isSome_iff.mpr ⟨l, hl, hfound⟩

theorem Core.exists_findIndexInChain_of_hasBlock {state : CoreState} {blockHash : Hash}
    (hhas : Core.hasBlock state blockHash = true) : ∃ l p, findIndexInChain state.chainsStorage l blockHash = some p := by
  obtain ⟨p, hp⟩ := Option.isSome_iff_exists.mp hhas
  unfold Core.findSegmentContainingBlock at hp
  split at hp
  · cases hp
  · rename_i mainLeaf alternatives _
    cases hmain : findIndexInChain state.chainsStorage mainLeaf blockHash with
    | some q => exact ⟨mainLeaf, q, hmain⟩
    | none =>
      rw [hmain, Option.orElse_none] at hp
      obtain ⟨l, -, hl⟩ := List.exists_of_findSome?_eq_some hp
      exact ⟨l, p, hl⟩

theorem Coherent.findIndexInChain_isSome {store : List BlockchainCache} {chains : List (List PushedBlock)}
    (h : Coherent store chains) {l : Nat} {b : List PushedBlock} (hb : chains[l]? = some b)
    (hnodup : (blockHashes b).Nodup) {blockHash : Hash} (hmem : blockHash ∈ blockHashes b) :
    (findIndexInChain store l blockHash).isSome := by
  have hbind := Core.findIndexInChain_bind_getBlockIndex store l blockHash
  rw [(h.chainModels hb).findSome?_getBlockIndex hnodup] at hbind
  have hsome : ((blockHashes b).findIdx? (· == blockHash)).isSome := by
    rw [List.findIdx?_isSome, List.any_eq_true]
    exact ⟨blockHash, hmem, beq_self_eq_true _⟩
  rw [← hbind] at hsome
  cases hfind : findIndexInChain store l blockHash with
  | none =>
    rw [hfind] at hsome
    cases hsome
  | some q => rfl

section Step

variable {env : CoreEnvironment} {state : CoreState} {cachedBlock : CachedBlock} {rawBlock : RawBlock}
  {accepted : AcceptedBlock} {chains : List (List PushedBlock)} {chain : List PushedBlock} {cache : BlockchainCache}

theorem CoreInvariant.hasBlock_of_mem (h : CoreInvariant env state chains) (hmatch : BlockMatching chains)
    {q : Nat} {a : List PushedBlock} (ha : chains[q]? = some a) {x : PushedBlock} (hx : x ∈ a) :
    Core.hasBlock state x.cachedBlock.blockHash = true := by
  obtain ⟨l, b, hleaf, hb, hgrows⟩ := h.tree.coherent.exists_leaf ha
  have hmem : x.cachedBlock.blockHash ∈ blockHashes b := by
    unfold blockHashes
    exact List.mem_map_of_mem (hgrows.subset hx)
  exact Core.hasBlock_of_leaf ((h.leaves l).mpr hleaf)
    (h.tree.coherent.findIndexInChain_isSome hb (BlockMatching.nodup hmatch hb) hmem)

theorem applyChains_entry (h : TreeInvariant env state.chainsStorage chains)
    (hcache : state.chainsStorage[accepted.segment]? = some cache) (hchain : chains[accepted.segment]? = some chain)
    {q i : Nat} {a : List PushedBlock} {x : PushedBlock} (hq : (Core.applyChains state chains accepted)[q]? = some a)
    (hx : a[i]? = some x) :
    (∃ (q' : Nat) (old : List PushedBlock), chains[q']? = some old ∧ old[i]? = some x ∧
        a.take (i + 1) = old.take (i + 1)) ∨
      x = accepted.block ∧ a = chain.take (accepted.previousBlockIndex + 1) ++ [accepted.block] ∧
        i = (chain.take (accepted.previousBlockIndex + 1)).length := by
  have hi : i < a.length := (List.getElem?_eq_some_iff.mp hx).1
  rcases applyChains_getElem?_eq_some h hcache hchain q a hq with ⟨q', old, hold, ⟨rest, rfl⟩⟩ | rfl
  · -- a prefix of a chain before
    refine .inl ⟨q', _, hold, ?_, ?_⟩
    · rw [List.getElem?_append_left hi, hx]
    · rw [List.take_append_of_le_length (by omega)]
  · -- the chain up to the previous block with the accepted block on top
    by_cases hbelow : i < (chain.take (accepted.previousBlockIndex + 1)).length
    · have hk : i + 1 ≤ accepted.previousBlockIndex + 1 := by
        rw [List.length_take] at hbelow
        omega
      refine .inl ⟨accepted.segment, chain, hchain, ?_, ?_⟩
      · rw [List.getElem?_append_left hbelow, List.getElem?_take_of_lt (by rw [List.length_take] at hbelow; omega)] at hx
        exact hx
      · rw [List.take_append_of_le_length (by omega), List.take_take, Nat.min_eq_left hk]
    · have hat : i = (chain.take (accepted.previousBlockIndex + 1)).length := by
        rw [List.length_append, List.length_singleton] at hi
        omega
      rw [List.getElem?_append_right (by omega), hat, Nat.sub_self, List.getElem?_cons_zero,
        Option.some.injEq] at hx
      exact .inr ⟨hx.symm, rfl, hat⟩

theorem BlockMatching.addBlockApply (hmatch : BlockMatching chains) (h : CoreInvariant env state chains)
    (hc : AddBlockChecked env state cachedBlock rawBlock accepted) :
    BlockMatching (Core.applyChains state chains accepted) := by
  obtain ⟨cache, hcache, -⟩ := hc.previous
  obtain ⟨chain, hchain⟩ := h.tree.coherent.chain_of_cache hcache
  have hfresh : ∀ {q : Nat} {old : List PushedBlock} {z : PushedBlock}, chains[q]? = some old → z ∈ old →
      z.cachedBlock.blockHash ≠ accepted.block.cachedBlock.blockHash := by
    intro q old z hold hz hsame
    have hhas := h.hasBlock_of_mem hmatch hold hz
    rw [hsame, hc.pushedCachedBlock, hc.notExists] at hhas
    cases hhas
  intro q r i j a b x y hq hr hx hy hxy
  rcases applyChains_entry h.tree hcache hchain hq hx with ⟨q', a', ha', hx', hta⟩ | ⟨rfl, rfl, rfl⟩
  · rcases applyChains_entry h.tree hcache hchain hr hy with ⟨r', b', hb', hy', htb⟩ | ⟨rfl, -, -⟩
    · -- two blocks that stood before
      obtain ⟨rfl, htake⟩ := hmatch ha' hb' hx' hy' hxy
      exact ⟨rfl, by rw [hta, htb, htake]⟩
    · exact absurd hxy (hfresh ha' (List.mem_of_getElem? hx'))
  · rcases applyChains_entry h.tree hcache hchain hr hy with ⟨r', b', hb', hy', -⟩ | ⟨-, rfl, rfl⟩
    · exact absurd hxy.symm (hfresh hb' (List.mem_of_getElem? hy'))
    · -- the accepted block, on the one new chain
      exact ⟨rfl, rfl⟩

/-- The invariant of `Core` with block matching over its flat chains. -/
structure MatchingInvariant (env : CoreEnvironment) (state : CoreState) (chains : List (List PushedBlock)) :
    Prop where
  core : CoreInvariant env state chains
  matching : BlockMatching chains

theorem MatchingInvariant.addBlockApply (h : MatchingInvariant env state chains)
    (hc : AddBlockChecked env state cachedBlock rawBlock accepted) :
    MatchingInvariant env (Core.addBlockApply state accepted).2 (Core.applyChains state chains accepted) :=
  ⟨h.core.addBlockApply hc, BlockMatching.addBlockApply h.matching h.core hc⟩

theorem MatchingInvariant.addBlock (h : MatchingInvariant env state chains) (cachedBlock : CachedBlock)
    (rawBlock : RawBlock) :
    ∃ chains', MatchingInvariant env (Core.addBlock env state cachedBlock rawBlock).2 chains' := by
  rcases Core.addBlock_snd env state cachedBlock rawBlock with hsame | ⟨accepted, hok, happly⟩
  · exact ⟨chains, by rw [hsame]; exact h⟩
  · exact ⟨_, by rw [happly]; exact h.addBlockApply (Core.addBlockChecks_eq_ok hok)⟩

theorem MatchingInvariant.exists_mem_of_hasBlock (h : MatchingInvariant env state chains) {blockHash : Hash}
    (hhas : Core.hasBlock state blockHash = true) :
    ∃ (q : Nat) (a : List PushedBlock) (x : PushedBlock), chains[q]? = some a ∧ x ∈ a ∧
      x.cachedBlock.blockHash = blockHash := by
  obtain ⟨l, p, hl⟩ := Core.exists_findIndexInChain_of_hasBlock hhas
  obtain ⟨cache, blockIndex, hcache, hindex⟩ := Core.findIndexInChain_eq_some hl
  obtain ⟨a, ha⟩ := h.core.tree.coherent.chain_of_cache hcache
  rw [(h.core.tree.coherent.segment hcache ha).getBlockIndex] at hindex
  have hany : ((blockHashes a).drop cache.startIndex).any (· == blockHash) := by
    rw [← List.findIdx?_isSome]
    obtain ⟨k, hk, -⟩ := Option.map_eq_some_iff.mp hindex
    rw [hk]
    rfl
  obtain ⟨y, hy, hyhash⟩ := List.any_eq_true.mp hany
  obtain ⟨x, hx, rfl⟩ := List.mem_map.mp (List.mem_of_mem_drop hy)
  exact ⟨p, a, x, ha, hx, beq_iff_eq.mp hyhash⟩

theorem MatchingInvariant.hasBlock_addBlock (h : MatchingInvariant env state chains) (cachedBlock : CachedBlock)
    (rawBlock : RawBlock) {blockHash : Hash}
    (hhas : Core.hasBlock (Core.addBlock env state cachedBlock rawBlock).2 blockHash = true) :
    Core.hasBlock state blockHash = true ∨ blockHash = cachedBlock.blockHash := by
  rcases Core.addBlock_snd env state cachedBlock rawBlock with hsame | ⟨accepted, hok, happly⟩
  · rw [hsame] at hhas
    exact .inl hhas
  · have hc := Core.addBlockChecks_eq_ok hok
    rw [happly] at hhas
    obtain ⟨q, a, x, hq, hx, rfl⟩ := (h.addBlockApply hc).exists_mem_of_hasBlock hhas
    obtain ⟨cache, hcache, -⟩ := hc.previous
    obtain ⟨chain, hchain⟩ := h.core.tree.coherent.chain_of_cache hcache
    obtain ⟨i, hi⟩ := List.mem_iff_getElem?.mp hx
    -- a block of a chain after is a block of a chain before, or the accepted block
    rcases applyChains_entry h.core.tree hcache hchain hq hi with ⟨q', old, hold, hold', -⟩ | ⟨rfl, -, -⟩
    · exact .inl (h.core.hasBlock_of_mem h.matching hold (List.mem_of_getElem? hold'))
    · exact .inr (by rw [hc.pushedCachedBlock])

theorem MatchingInvariant.init {genesisBlock : CachedBlock} {rawBlock : RawBlock} (hindex : genesisBlock.getBlockIndex = 0) :
    MatchingInvariant env (Core.init genesisBlock rawBlock) [[genesisPushedBlock genesisBlock rawBlock]] := by
  refine ⟨CoreInvariant.init hindex, fun hq hr hx hy _ => ?_⟩
  simp only [List.getElem?_singleton] at hq hr
  split_ifs at hq hr
  cases hq
  cases hr
  simp only [List.getElem?_singleton] at hx hy
  split_ifs at hx hy with hi hj
  exact ⟨by rw [hi, hj], by rw [hi, hj]⟩

end Step

theorem Core.Reachable.matchingInvariant {env : CoreEnvironment} {genesisBlock : CachedBlock} {rawGenesis : RawBlock}
    {state : CoreState} (hgenesis : genesisBlock.getBlockIndex = 0) (h : Core.Reachable env genesisBlock rawGenesis state) :
    ∃ chains, MatchingInvariant env state chains := by
  induction h with
  | init => exact ⟨_, MatchingInvariant.init hgenesis⟩
  | addBlock cachedBlock rawBlock _ ih =>
    obtain ⟨chains, hinv⟩ := ih
    exact hinv.addBlock cachedBlock rawBlock

theorem segmentsOf_of_getElem?_eq_none {store : List BlockchainCache} {q : Nat} (hq : store[q]? = none) :
    segmentsOf store q = [] := by
  unfold segmentsOf
  cases store.length with
  | zero => rfl
  | succ n => simp [chainFrom, hq]

section Runs

variable {env : CoreEnvironment} {genesisBlock : CachedBlock} {rawGenesis : RawBlock} {state : CoreState}

theorem MatchingInvariant.getBlockHash_eq_some {chains : List (List PushedBlock)} (h : MatchingInvariant env state chains)
    {q i : Nat} {blockHash : Hash} (hq : getBlockHash (segmentsOf state.chainsStorage q) i = some blockHash) :
    ∃ (a : List PushedBlock) (x : PushedBlock), chains[q]? = some a ∧ a[i]? = some x ∧ x.cachedBlock.blockHash = blockHash ∧
      ∀ k, getBlockHash (segmentsOf state.chainsStorage q) k = a[k]?.map (·.cachedBlock.blockHash) := by
  obtain ⟨cache, hcache⟩ : ∃ cache, state.chainsStorage[q]? = some cache := by
    cases hstored : state.chainsStorage[q]? with
    | none =>
      rw [segmentsOf_of_getElem?_eq_none hstored] at hq
      cases hq
    | some cache => exact ⟨cache, rfl⟩
  obtain ⟨a, ha⟩ := h.core.tree.coherent.chain_of_cache hcache
  have hmodels := (h.core.tree.coherent.chainModels ha).getBlockHash
  rw [hmodels, Option.map_eq_some_iff] at hq
  obtain ⟨x, hx, hhash⟩ := hq
  exact ⟨a, x, ha, hx, hhash, hmodels⟩

/-- In every reachable state a block hash fixes its height and its history: whatever two segments
answer it from their walks to the root, they answer it at one height, and answer the same hash at
every height below it. -/
theorem blockHash_determines_history (hgenesis : genesisBlock.getBlockIndex = 0)
    (hrun : Core.Reachable env genesisBlock rawGenesis state) {q r i j : Nat} {blockHash : Hash}
    (hq : getBlockHash (segmentsOf state.chainsStorage q) i = some blockHash)
    (hr : getBlockHash (segmentsOf state.chainsStorage r) j = some blockHash) :
    i = j ∧ ∀ k, k ≤ i →
      getBlockHash (segmentsOf state.chainsStorage q) k = getBlockHash (segmentsOf state.chainsStorage r) k := by
  obtain ⟨chains, h⟩ := hrun.matchingInvariant hgenesis
  obtain ⟨a, x, ha, hx, hxhash, hqall⟩ := h.getBlockHash_eq_some hq
  obtain ⟨b, y, hb, hy, hyhash, hrall⟩ := h.getBlockHash_eq_some hr
  obtain ⟨rfl, htake⟩ := h.matching ha hb hx hy (hxhash.trans hyhash.symm)
  refine ⟨rfl, fun k hk => ?_⟩
  -- below the shared block the two chains are one
  have hbelow : a[k]? = b[k]? := by
    rw [← List.getElem?_take_of_lt (show k < i + 1 by omega), htake, List.getElem?_take_of_lt (by omega)]
  rw [hqall, hrall, hbelow]

/-- One node takes blocks 1, 2, 3 and 13, then blocks 4, 5 and 6 on block 3: the root segment is
split after block 3, and the walks from both leaves answer the hash of block 3 at height 3. -/
theorem blockHash_determines_history_fork :
    let state := (genesisRun (localForkBlocks ++ remoteForkBlocks.drop 3)).1
    getBlockHash (segmentsOf state.chainsStorage 1) 3 = some (hashOf 3) ∧
      getBlockHash (segmentsOf state.chainsStorage 2) 3 = some (hashOf 3) ∧
      (3 = 3 ∧ ∀ k, k ≤ 3 →
        getBlockHash (segmentsOf state.chainsStorage 1) k = getBlockHash (segmentsOf state.chainsStorage 2) k) := by
  intro state
  have hq : getBlockHash (segmentsOf state.chainsStorage 1) 3 = some (hashOf 3) := by decide +kernel
  have hr : getBlockHash (segmentsOf state.chainsStorage 2) 3 = some (hashOf 3) := by decide +kernel
  exact ⟨hq, hr, blockHash_determines_history rfl (Core.Reachable.init.addBlocks _) hq hr⟩

end Runs

end Crygcoin
