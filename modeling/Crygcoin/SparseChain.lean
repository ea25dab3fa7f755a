import Mathlib
import Crygcoin.CoreRuns
import Crygcoin.BinaryTree

namespace Crygcoin

/-! Synchronisation by sparse chains (`Core::doBuildSparseChain`, `Core::findBlockchainSupplement`).
A node describes its main chain by the hashes of its top block, of the blocks `1, 2, 4, ...` below
it and of the genesis block; a peer answers with the index of the first of them on its own main
chain, and the hashes of its main chain from there. -/

/-- The hashes of the blocks of a chain. -/
def blockHashes (chain : List PushedBlock) : List Hash :=
  chain.map (·.cachedBlock.blockHash)

theorem BlockchainCache.isSome_getBlockIndex (cache : BlockchainCache) (blockHash : Hash) :
    (cache.getBlockIndex blockHash).isSome = cache.hasBlock blockHash := by
  rw [BlockchainCache.getBlockIndex, Option.isSome_map, List.findIdx?_isSome, BlockchainCache.hasBlock]

namespace Core

/-- `findMainChainSegmentContainingBlock(blockHash)`: the walk from `chainsLeaves[0]`. -/
def findMainChainSegmentContainingBlock (state : CoreState) (blockHash : Hash) : Option Nat :=
  match state.chainsLeaves with
  | [] => none
  | mainLeaf :: _ => findIndexInChain state.chainsStorage mainLeaf blockHash

/-- The loop of `findBlockchainSupplement(remoteBlockIds)`: the index of the first remote hash on
a segment of the main chain, read by that segment's `getBlockIndex`. -/
def findBlockchainSupplementLoop (state : CoreState) : List Hash → Except String Nat
  | [] => throw "Genesis block hash was not found."
  | hash :: remoteBlockIds =>
    match findMainChainSegmentContainingBlock state hash with
    | some q =>
      match state.chainsStorage[q]?.bind (·.getBlockIndex hash) with
      | some blockIndex => pure blockIndex
      | none => throw "no such block"
    | none => findBlockchainSupplementLoop state remoteBlockIds

def findBlockchainSupplement (state : CoreState) (remoteBlockIds : List Hash) : Except String Nat :=
  if remoteBlockIds = [] then pure 0 else findBlockchainSupplementLoop state remoteBlockIds

/-- `Core::findBlockchainSupplement(remoteBlockIds, maxCount, totalBlockCount, startBlockIndex)`:
the hashes of the main chain from the start index on, with `totalBlockCount` and
`startBlockIndex`. `maxCount` is a `size_t` cast to `uint32_t`; an empty `chainsLeaves`, which the
source asserts against, throws. -/
def findBlockchainSupplementHashes (state : CoreState) (remoteBlockIds : List Hash) (maxCount : UInt64) :
    Except String (List Hash × UInt32 × Nat) := do
  let mainLeaf :: _ := state.chainsLeaves | throw "no main chain"
  let mainChain := segmentsOf state.chainsStorage mainLeaf
  let totalBlockCount := UInt32.ofNat (getTopBlockIndex mainChain) + 1
  let startBlockIndex ← findBlockchainSupplement state remoteBlockIds
  pure (getBlockHashes mainChain startBlockIndex maxCount.toUInt32.toNat, totalBlockCount, startBlockIndex)

/-- The loop `for (uint32_t i = 1; i < blockIndex; i *= 2)` of `doBuildSparseChain`, run for at
most `fuel` rounds: `none` once they run out, or where `getBlockHash` finds no block. -/
def sparseChainLoop (chain : List BlockchainCache) (blockIndex : UInt32) : Nat → UInt32 → Option (List Hash)
  | 0, i => if i < blockIndex then none else some []
  | fuel + 1, i =>
    if i < blockIndex then do
      let hash ← getBlockHash chain (blockIndex - i).toNat
      let hashes ← sparseChainLoop chain blockIndex fuel (i * 2)
      pure (hash :: hashes)
    else some []

/-- `Core::doBuildSparseChain(blockHash)`, its loop run for at most `fuel` rounds. -/
def doBuildSparseChain (state : CoreState) (fuel : Nat) (blockHash : Hash) : Option (List Hash) := do
  let p ← findSegmentContainingBlock state blockHash
  let cache ← state.chainsStorage[p]?
  let blockIndex ← cache.getBlockIndex blockHash
  let chain := segmentsOf state.chainsStorage p
  let hashes ← sparseChainLoop chain (UInt32.ofNat blockIndex) fuel 1
  let genesisBlockHash ← getBlockHash chain 0
  let sparseChain := blockHash :: hashes
  pure (if blockHash ≠ genesisBlockHash then sparseChain ++ [genesisBlockHash] else sparseChain)

/-! ### Lookups on the main chain -/

/-- The index the loop of `findBlockchainSupplement` reads for a hash: `getBlockIndex` of the
segment of the main chain that holds it. -/
def mainChainBlockIndex (state : CoreState) (blockHash : Hash) : Option Nat :=
  (findMainChainSegmentContainingBlock state blockHash).bind fun q =>
    state.chainsStorage[q]?.bind (·.getBlockIndex blockHash)

theorem findIndexInChain_eq_some {store : List BlockchainCache} {p q : Nat} {blockHash : Hash}
    (h : findIndexInChain store p blockHash = some q) :
    ∃ cache blockIndex, store[q]? = some cache ∧ cache.getBlockIndex blockHash = some blockIndex := by
  have hfound := List.find?_some h
  cases hq : store[q]? with
  | none => simp [hq] at hfound
  | some cache =>
    simp only [hq] at hfound
    rw [← BlockchainCache.isSome_getBlockIndex, Option.isSome_iff_exists] at hfound
    obtain ⟨blockIndex, hindex⟩ := hfound
    exact ⟨cache, blockIndex, rfl, hindex⟩

theorem findIndexInChain_bind_getBlockIndex (store : List BlockchainCache) (p : Nat) (blockHash : Hash) :
    (findIndexInChain store p blockHash).bind (fun q => store[q]?.bind (·.getBlockIndex blockHash)) =
      (segmentsOf store p).findSome? (·.getBlockIndex blockHash) := by
  rw [findIndexInChain, segmentsOf]
  induction chainFrom BlockchainCache.parent store store.length p with
  | nil => rfl
  | cons q qs ih =>
    rw [List.find?_cons]
    cases hq : store[q]? with
    | none => simp only [hq, List.filterMap_cons]; exact ih
    | some cache =>
      simp only [hq, List.filterMap_cons, List.findSome?_cons]
      cases hindex : cache.getBlockIndex blockHash with
      | none =>
        have hnot : cache.hasBlock blockHash = false := by
          rw [← BlockchainCache.isSome_getBlockIndex, hindex, Option.isSome_none]
        simp only [hnot]
        exact ih
      | some blockIndex =>
        have hhas : cache.hasBlock blockHash = true := by
          rw [← BlockchainCache.isSome_getBlockIndex, hindex, Option.isSome_some]
        simp [hhas, hq, hindex]

theorem findBlockchainSupplementLoop_cons (state : CoreState) (blockHash : Hash) (remoteBlockIds : List Hash) :
    findBlockchainSupplementLoop state (blockHash :: remoteBlockIds) =
      match mainChainBlockIndex state blockHash with
      | some blockIndex => pure blockIndex
      | none => findBlockchainSupplementLoop state remoteBlockIds := by
  rw [findBlockchainSupplementLoop, mainChainBlockIndex]
  cases hfind : findMainChainSegmentContainingBlock state blockHash with
  | none => rfl
  | some q =>
    have hsegment : ∃ cache blockIndex, state.chainsStorage[q]? = some cache ∧
        cache.getBlockIndex blockHash = some blockIndex := by
      unfold findMainChainSegmentContainingBlock at hfind
      split at hfind
      · cases hfind
      · exact findIndexInChain_eq_some hfind
    obtain ⟨cache, blockIndex, hq, hindex⟩ := hsegment
    simp [hq, hindex]

theorem findBlockchainSupplementLoop_eq (state : CoreState) (remoteBlockIds : List Hash) :
    findBlockchainSupplementLoop state remoteBlockIds =
      match remoteBlockIds.findSome? (mainChainBlockIndex state) with
      | some blockIndex => pure blockIndex
      | none => throw "Genesis block hash was not found." := by
  induction remoteBlockIds with
  | nil => rfl
  | cons blockHash remoteBlockIds ih =>
    rw [findBlockchainSupplementLoop_cons, List.findSome?_cons]
    cases mainChainBlockIndex state blockHash with
    | none => exact ih
    | some blockIndex => rfl

end Core

theorem blockHashes_take (chain : List PushedBlock) (k : Nat) :
    blockHashes (chain.take k) = (blockHashes chain).take k := by
  rw [blockHashes, blockHashes, List.map_take]

theorem SegmentModels.getBlockIndex {cache : BlockchainCache} {chain : List PushedBlock}
    (h : SegmentModels cache chain) (blockHash : Hash) :
    cache.getBlockIndex blockHash =
      (((blockHashes chain).drop cache.startIndex).findIdx? (· == blockHash)).map (· + cache.startIndex) := by
  rw [BlockchainCache.getBlockIndex, h.blockInfos, blockHashes, ← chainInfos_map_blockHash, ← List.map_drop,
    List.findIdx?_map]
  rfl

theorem ChainModels.findSome?_getBlockIndex {segments : List BlockchainCache} {chain : List PushedBlock}
    (h : ChainModels segments chain) (hnodup : (blockHashes chain).Nodup) (blockHash : Hash) :
    segments.findSome? (·.getBlockIndex blockHash) = (blockHashes chain).findIdx? (· == blockHash) := by
  induction h with
  | @root cache chain hm hstart =>
    rw [List.findSome?_singleton, hm.getBlockIndex, hstart, List.drop_zero]
    simp
  | @cons cache parent parents chain hm hparent hlt ih =>
    rw [List.findSome?_cons, hm.getBlockIndex, ih (by rw [blockHashes_take]; exact hnodup.sublist (List.take_sublist _ _))]
    by_cases hmem : blockHash ∈ blockHashes chain
    · -- the hash stands at one index: in this segment or below it
      obtain ⟨i, hi, hget⟩ := List.getElem_of_mem hmem
      have hat : (blockHashes chain)[i]? = some blockHash := by rw [List.getElem?_eq_getElem hi, hget]
      rw [findIdx?_beq_drop_of_nodup hnodup hat, findIdx?_beq_of_nodup hnodup hat]
      by_cases hstart : cache.startIndex ≤ i
      · rw [if_pos hstart, Option.map_some, Nat.sub_add_cancel hstart]
      · rw [if_neg hstart, Option.map_none, blockHashes_take]
        exact findIdx?_beq_of_nodup (hnodup.sublist (List.take_sublist _ _))
          (by rw [List.getElem?_take_of_lt (by omega), hat])
    · rw [findIdx?_beq_eq_none (fun hdrop => hmem (List.mem_of_mem_drop hdrop)), Option.map_none,
        blockHashes_take, findIdx?_beq_eq_none (fun htake => hmem (List.mem_of_mem_take htake)),
        findIdx?_beq_eq_none hmem]

theorem CoreInvariant.mainChainBlockIndex {env : CoreEnvironment} {state : CoreState}
    {chains : List (List PushedBlock)} (h : CoreInvariant env state chains) {mainLeaf : Nat} {alternatives : List Nat}
    (hleaves : state.chainsLeaves = mainLeaf :: alternatives) {chain : List PushedBlock}
    (hchain : chains[mainLeaf]? = some chain) (hnodup : (blockHashes chain).Nodup) (blockHash : Hash) :
    Core.mainChainBlockIndex state blockHash = (blockHashes chain).findIdx? (· == blockHash) := by
  rw [Core.mainChainBlockIndex, Core.findMainChainSegmentContainingBlock, hleaves]
  dsimp only
  rw [Core.findIndexInChain_bind_getBlockIndex, (h.tree.coherent.chainModels hchain).findSome?_getBlockIndex hnodup]

/-! ### The sparse chain -/

/-- The distances below the top block of the blocks whose hashes `doBuildSparseChain` lists: the
top block, the powers of two below it, and the genesis block unless it is the top block. -/
def sparseOffsets (top : Nat) : List Nat :=
  0 :: (powersBelow top 0 ++ if top = 0 then [] else [top])

theorem lt_of_mem_powersBelow {n k x : Nat} (h : x ∈ powersBelow n k) : x < n := by
  fun_induction powersBelow n k with
  | case1 k hbelow ih =>
    rcases List.mem_cons.mp h with rfl | hrest
    · exact hbelow
    · exact ih hrest
  | case2 k hnot => simp at h

theorem find?_sparseOffsets {top d : Nat} (hd : d ≤ top) :
    ∃ o, (sparseOffsets top).find? (fun o => decide (d ≤ o)) = some o ∧ d ≤ o ∧ o ≤ 2 * d ∧ o ≤ top := by
  rw [sparseOffsets, List.find?_cons]
  by_cases hzero : d = 0
  · subst hzero
    exact ⟨0, rfl, le_rfl, le_rfl, Nat.zero_le _⟩
  · rw [decide_eq_false (by omega), if_neg (by omega)]
    obtain ⟨o, hfind, hlow, hhigh⟩ := find?_powersBelow hd (by rw [Nat.pow_zero]; omega)
    refine ⟨o, hfind, hlow, by omega, ?_⟩
    rcases List.mem_append.mp (List.mem_of_find?_eq_some hfind) with hpower | htop
    · exact Nat.le_of_lt (lt_of_mem_powersBelow hpower)
    · rw [List.mem_singleton.mp htop]

/-! ### Two chains and their fork -/

section Linked

variable {α : Type}

/-- Two lists of block hashes are linked when a hash met in both stands at one index of each,
with the same hashes below it: what distinct block hashes give, since a block names the hash of
the block below it. -/
def ChainsLinked (xs ys : List α) : Prop :=
  ∀ i j a, xs[i]? = some a → ys[j]? = some a → i = j ∧ xs.take i = ys.take j

/-- `f` is the last index at which two lists of hashes agree, with all the hashes below it. -/
def IsForkIndex (xs ys : List α) (f : Nat) : Prop :=
  f < xs.length ∧ f < ys.length ∧ xs.take (f + 1) = ys.take (f + 1) ∧
    ∀ a, xs[f + 1]? = some a → ys[f + 1]? ≠ some a

theorem chainsLinked_self {xs : List α} (h : xs.Nodup) : ChainsLinked xs xs := by
  intro i j a hi hj
  have hij : i = j := (List.getElem?_inj (List.getElem?_eq_some_iff.mp hi).1 h).mp (hi.trans hj.symm)
  exact ⟨hij, by rw [hij]⟩

theorem chainsLinked_iff_getElem {xs ys : List α} :
    ChainsLinked xs ys ↔
      ∀ i (hi : i < xs.length) j (hj : j < ys.length), xs[i] = ys[j] → i = j ∧ xs.take i = ys.take j := by
  constructor
  · intro h i hi j hj hij
    exact h i j xs[i] (List.getElem?_eq_getElem hi) (by rw [List.getElem?_eq_getElem hj, hij])
  · intro h i j a hi hj
    obtain ⟨hi', hxi⟩ := List.getElem?_eq_some_iff.mp hi
    obtain ⟨hj', hyj⟩ := List.getElem?_eq_some_iff.mp hj
    exact h i hi' j hj' (hxi.trans hyj.symm)

theorem exists_mapM_eq_some {β : Type} {f : α → Option β} {xs : List α} (hf : ∀ x ∈ xs, (f x).isSome) :
    ∃ ys, xs.mapM f = some ys := by
  induction xs with
  | nil => exact ⟨[], rfl⟩
  | cons x xs ih =>
    obtain ⟨b, hb⟩ := Option.isSome_iff_exists.mp (hf x List.mem_cons_self)
    obtain ⟨bs, hbs⟩ := ih fun y hy => hf y (List.mem_cons_of_mem x hy)
    exact ⟨b :: bs, by rw [List.mapM_cons, hb, hbs]; rfl⟩

theorem findSome?_of_mapM_eq_some {β γ : Type} {f : α → Option β} {g : β → Option γ} {xs : List α}
    {ys : List β} (h : xs.mapM f = some ys) : ys.findSome? g = xs.findSome? fun x => (f x).bind g := by
  induction xs generalizing ys with
  | nil =>
    cases h
    rfl
  | cons x xs ih =>
    simp only [List.mapM_cons, Option.bind_eq_bind, Option.bind_eq_some_iff, Option.pure_def,
      Option.some.injEq] at h
    obtain ⟨b, hb, bs, hbs, rfl⟩ := h
    rw [List.findSome?_cons, List.findSome?_cons, hb, Option.bind_some, ih hbs]

variable [BEq α] [LawfulBEq α]

theorem findIdx?_of_chainsLinked {xs ys : List α} (hnodup : xs.Nodup) (hlinked : ChainsLinked xs ys)
    {f : Nat} (hfork : IsForkIndex xs ys f) {j : Nat} {a : α} (hj : ys[j]? = some a) :
    xs.findIdx? (· == a) = if j ≤ f then some j else none := by
  obtain ⟨-, -, hagree, hdiffer⟩ := hfork
  by_cases hjf : j ≤ f
  · rw [if_pos hjf]
    apply findIdx?_beq_of_nodup hnodup
    rw [← List.getElem?_take_of_lt (Nat.lt_succ_of_le hjf), hagree,
      List.getElem?_take_of_lt (Nat.lt_succ_of_le hjf), hj]
  · rw [if_neg hjf]
    apply findIdx?_beq_eq_none
    intro hmem
    obtain ⟨i, hi, hget⟩ := List.getElem_of_mem hmem
    obtain ⟨hij, hbelow⟩ := hlinked i j a (by rw [List.getElem?_eq_getElem hi, hget]) hj
    subst hij
    -- the hash would link the two lists at the index right above the fork
    rcases Nat.lt_or_ge (f + 1) i with hlt | hge
    · have hlength := (List.getElem?_eq_some_iff.mp hj).1
      obtain ⟨b, hb⟩ : ∃ b, ys[f + 1]? = some b := ⟨_, List.getElem?_eq_getElem (by omega)⟩
      exact hdiffer b (by rw [← List.getElem?_take_of_lt hlt, hbelow, List.getElem?_take_of_lt hlt, hb]) hb
    · have hat : i = f + 1 := by omega
      subst hat
      exact hdiffer a (by rw [List.getElem?_eq_getElem hi, hget]) hj

theorem findSome?_sparseOffsets {xs ys : List α} (hnodup : xs.Nodup) (hlinked : ChainsLinked xs ys) {f : Nat}
    (hfork : IsForkIndex xs ys f) :
    ∃ r, (sparseOffsets (ys.length - 1)).findSome?
        (fun o => ys[ys.length - 1 - o]?.bind fun a => xs.findIdx? (· == a)) = some r ∧
      r ≤ f ∧ ys.length - 1 - r ≤ 2 * (ys.length - 1 - f) ∧ (f = ys.length - 1 → r = f) := by
  have hfy := hfork.2.1
  have hpoint : (fun o => ys[ys.length - 1 - o]?.bind fun a => xs.findIdx? (· == a)) =
      Option.map (ys.length - 1 - ·) ∘ Option.guard (fun o => decide (ys.length - 1 - f ≤ o)) := by
    funext o
    have hlt : ys.length - 1 - o < ys.length := by omega
    rw [List.getElem?_eq_getElem hlt, Option.bind_some,
      findIdx?_of_chainsLinked hnodup hlinked hfork (List.getElem?_eq_getElem hlt), Function.comp_apply,
      Option.map_guard]
    by_cases ho : ys.length - 1 - f ≤ o
    · rw [if_pos (by omega), if_pos (decide_eq_true ho)]
    · rw [if_neg (by omega), if_neg (by simpa using ho)]
  obtain ⟨o, hfind, hlow, hhigh, -⟩ := find?_sparseOffsets (by omega : ys.length - 1 - f ≤ ys.length - 1)
  refine ⟨ys.length - 1 - o, ?_, by omega, by omega, by omega⟩
  rw [hpoint, ← List.map_findSome?, List.findSome?_guard, hfind, Option.map_some]

end Linked

namespace Core

section SparseLoop

variable (chain : List BlockchainCache) {top : Nat}

theorem toNat_ofNat_two_pow {k : Nat} (hk : k ≤ 31) : (UInt32.ofNat (2 ^ k)).toNat = 2 ^ k :=
  UInt32.toNat_ofNat_of_lt' ((Nat.pow_le_pow_right (by decide : 0 < 2) hk).trans_lt (by decide))

theorem ofNat_two_pow_mul_two {k : Nat} (hk : k < 31) :
    UInt32.ofNat (2 ^ k) * 2 = UInt32.ofNat (2 ^ (k + 1)) := by
  apply UInt32.toNat_inj.mp
  rw [UInt32.toNat_mul, toNat_ofNat_two_pow (by omega), toNat_ofNat_two_pow (by omega), Nat.pow_succ]
  exact Nat.mod_eq_of_lt ((Nat.pow_le_pow_right (by decide : 0 < 2) (by omega : k + 1 ≤ 31)).trans_lt (by decide))

theorem sparseChainLoop_eq (htop : top ≤ 2 ^ 31) :
    ∀ fuel k, k ≤ 31 → 31 ≤ k + fuel →
      sparseChainLoop chain (UInt32.ofNat top) fuel (UInt32.ofNat (2 ^ k)) =
        (powersBelow top k).mapM fun o => getBlockHash chain (top - o) := by
  have htopNat : (UInt32.ofNat top).toNat = top :=
    UInt32.toNat_ofNat_of_lt' (htop.trans_lt (by decide))
  intro fuel
  induction fuel with
  | zero =>
    intro k hk hfuel
    have hstop : ¬ 2 ^ k < top := by
      rw [show k = 31 by omega]
      omega
    rw [sparseChainLoop, if_neg (by rw [UInt32.lt_iff_toNat_lt, toNat_ofNat_two_pow hk, htopNat]; exact hstop),
      powersBelow_eq, if_neg hstop]
    rfl
  | succ fuel ih =>
    intro k hk hfuel
    rw [sparseChainLoop, powersBelow_eq]
    by_cases hbelow : 2 ^ k < top
    · -- a power of two below the top: its hash, then the loop from the next power
      have hk31 : k < 31 := by
        by_contra hge
        have := Nat.pow_le_pow_right (by decide : 0 < 2) (by omega : 31 ≤ k)
        omega
      have hindex : (UInt32.ofNat top - UInt32.ofNat (2 ^ k)).toNat = top - 2 ^ k := by
        rw [UInt32.toNat_sub_of_le _ _ (UInt32.le_iff_toNat_le.mpr (by
          rw [toNat_ofNat_two_pow hk, htopNat]; omega)), toNat_ofNat_two_pow hk, htopNat]
      rw [if_pos (by rw [UInt32.lt_iff_toNat_lt, toNat_ofNat_two_pow hk, htopNat]; exact hbelow), if_pos hbelow,
        hindex, ofNat_two_pow_mul_two hk31, ih (k + 1) (by omega) (by omega), List.mapM_cons]
    · rw [if_neg (by rw [UInt32.lt_iff_toNat_lt, toNat_ofNat_two_pow hk, htopNat]; exact hbelow), if_neg hbelow,
        List.mapM_nil]
      rfl

end SparseLoop

end Core

theorem Core.findIndexInChain_self {store : List BlockchainCache} {p : Nat} {cache : BlockchainCache} {blockHash : Hash}
    (hcache : store[p]? = some cache) (hhas : cache.hasBlock blockHash = true) :
    findIndexInChain store p blockHash = some p := by
  obtain ⟨n, hn⟩ : ∃ n, store.length = n + 1 :=
    ⟨store.length - 1, by have := (List.getElem?_eq_some_iff.mp hcache).1; omega⟩
  rw [findIndexInChain, hn, chainFrom, hcache]
  dsimp only
  split <;> (rw [List.find?_cons, hcache]; simp [hhas])

theorem ChainModels.getBlockHash_eq {segments : List BlockchainCache} {chain : List PushedBlock}
    (h : ChainModels segments chain) (blockIndex : Nat) :
    Crygcoin.getBlockHash segments blockIndex = (blockHashes chain)[blockIndex]? := by
  rw [h.getBlockHash, blockHashes, List.getElem?_map]

theorem getElem?_blockHashes_top {chain : List PushedBlock} {topHash : Hash}
    (htopHash : (blockHashes chain).getLast? = some topHash) :
    (blockHashes chain)[chain.length - 1]? = some topHash := by
  have hlength : (blockHashes chain).length = chain.length := List.length_map _
  rw [← hlength, ← List.getLast?_eq_getElem?, htopHash]

section TopOfMainChain

variable {env : CoreEnvironment} {state : CoreState} {chains : List (List PushedBlock)}
  (h : CoreInvariant env state chains) {mainLeaf : Nat} {alternatives : List Nat}
  (hleaves : state.chainsLeaves = mainLeaf :: alternatives) {chain : List PushedBlock}
  (hchain : chains[mainLeaf]? = some chain) (hnodup : (blockHashes chain).Nodup) {topHash : Hash}
  (htopHash : (blockHashes chain).getLast? = some topHash)
include h hleaves hchain hnodup htopHash

theorem CoreInvariant.doBuildSparseChain_eq_loop (fuel : Nat) :
    Core.doBuildSparseChain state fuel topHash =
      (Core.sparseChainLoop (segmentsOf state.chainsStorage mainLeaf) (UInt32.ofNat (chain.length - 1)) fuel 1).bind
        fun hashes => (blockHashes chain)[0]?.bind fun genesis =>
          pure (if topHash ≠ genesis then topHash :: hashes ++ [genesis] else topHash :: hashes) := by
  obtain ⟨cache, hcache⟩ := h.tree.coherent.cache_of_chain hchain
  have hm := h.tree.coherent.segment hcache hchain
  have hsize := hm.length
  have hne := List.length_pos_iff.mpr (h.tree.nonempty hcache)
  have htopAt := getElem?_blockHashes_top htopHash
  -- the top block is the last block of the main leaf
  have hindex : cache.getBlockIndex topHash = some (chain.length - 1) := by
    rw [hm.getBlockIndex, findIdx?_beq_drop_of_nodup hnodup htopAt, if_pos (by omega), Option.map_some]
    congr 1
    omega
  have hhas : cache.hasBlock topHash = true := by
    rw [← BlockchainCache.isSome_getBlockIndex, hindex, Option.isSome_some]
  have hfind : Core.findSegmentContainingBlock state topHash = some mainLeaf := by
    rw [Core.findSegmentContainingBlock, hleaves]
    dsimp only
    rw [Core.findIndexInChain_self hcache hhas, Option.orElse_some]
  rw [Core.doBuildSparseChain, hfind]
  simp only [Option.bind_eq_bind, Option.bind_some, hcache, hindex,
    (h.tree.coherent.chainModels hchain).getBlockHash_eq]

/-- On a node with the invariant, `doBuildSparseChain` of the top of the main chain lists the
hashes of the main chain at the sparse offsets below the top, once the top index fits in 31 bits
and the loop has its 31 rounds. -/
theorem CoreInvariant.doBuildSparseChain (htop : chain.length - 1 ≤ 2 ^ 31) {fuel : Nat} (hfuel : 31 ≤ fuel) :
    Core.doBuildSparseChain state fuel topHash =
      (sparseOffsets (chain.length - 1)).mapM fun o => (blockHashes chain)[chain.length - 1 - o]? := by
  have htopAt := getElem?_blockHashes_top htopHash
  have hlength : 0 < chain.length := by
    have := (List.getElem?_eq_some_iff.mp htopAt).1
    rw [blockHashes, List.length_map] at this
    omega
  have hloop := Core.sparseChainLoop_eq (segmentsOf state.chainsStorage mainLeaf) htop fuel 0 (by omega) (by omega)
  simp only [(h.tree.coherent.chainModels hchain).getBlockHash_eq] at hloop
  obtain ⟨genesis, hgenesis⟩ : ∃ genesis, (blockHashes chain)[0]? = some genesis :=
    ⟨_, List.getElem?_eq_getElem (by rw [blockHashes, List.length_map]; omega)⟩
  rw [h.doBuildSparseChain_eq_loop hleaves hchain hnodup htopHash,
    show (1 : UInt32) = UInt32.ofNat (2 ^ 0) from rfl, hloop, hgenesis, sparseOffsets, List.mapM_cons,
    Nat.sub_zero, htopAt, List.mapM_append]
  cases hhashes : (powersBelow (chain.length - 1) 0).mapM fun o => (blockHashes chain)[chain.length - 1 - o]?
  case none => rfl
  case some hashes =>
    by_cases htop0 : chain.length - 1 = 0
    -- a chain of the genesis block alone: the top is the genesis block
    · have hsame : topHash = genesis := by
        rw [htop0] at htopAt
        exact Option.some.inj (htopAt.symm.trans hgenesis)
      simp [htop0, hsame]
    · have hdiff : topHash ≠ genesis := by
        rintro rfl
        have := Option.some.inj ((findIdx?_beq_of_nodup hnodup htopAt).symm.trans
          (findIdx?_beq_of_nodup hnodup hgenesis))
        omega
      simp [htop0, hdiff, hgenesis]

end TopOfMainChain

/-! Two nodes on runs from the genesis block `100` whose main chains agree up to block 3: the local
node on blocks 1, 2, 3 and 13, the remote node on blocks 1 to 6. -/

def localForkBlocks : List (CachedBlock × RawBlock) :=
  [(blockAt 1 1 100, rawOf 1), (blockAt 2 2 1, rawOf 2), (blockAt 3 3 2, rawOf 3), (blockAt 4 13 3, rawOf 13)]

def remoteForkBlocks : List (CachedBlock × RawBlock) :=
  [(blockAt 1 1 100, rawOf 1), (blockAt 2 2 1, rawOf 2), (blockAt 3 3 2, rawOf 3), (blockAt 4 4 3, rawOf 4),
    (blockAt 5 5 4, rawOf 5), (blockAt 6 6 5, rawOf 6)]

/-- The state `addBlock` reaches on `blocks` from the genesis block `100`, with its flat chains. -/
def genesisRun (blocks : List (CachedBlock × RawBlock)) : CoreState × List (List PushedBlock) :=
  (Core.addBlocks (openEnvironment ⟨[], List.nodup_nil⟩ 1 true) (Core.init (blockAt 0 100 0) (rawOf 100)) blocks,
    Core.addBlocksChains (openEnvironment ⟨[], List.nodup_nil⟩ 1 true) (Core.init (blockAt 0 100 0) (rawOf 100))
      [[genesisPushedBlock (blockAt 0 100 0) (rawOf 100)]] blocks)

theorem genesisRun_invariant (blocks : List (CachedBlock × RawBlock)) :
    CoreInvariant (openEnvironment ⟨[], List.nodup_nil⟩ 1 true) (genesisRun blocks).1 (genesisRun blocks).2 :=
  (CoreInvariant.init rfl).addBlocks blocks

theorem forkRuns_chains :
    let L := (genesisRun localForkBlocks).2.headD []
    let R := (genesisRun remoteForkBlocks).2.headD []
    (genesisRun localForkBlocks).1.chainsLeaves = [0] ∧ (genesisRun remoteForkBlocks).1.chainsLeaves = [0] ∧
      (genesisRun localForkBlocks).2[0]? = some L ∧ (genesisRun remoteForkBlocks).2[0]? = some R ∧
      blockHashes L = [hashOf 100, hashOf 1, hashOf 2, hashOf 3, hashOf 13] ∧
      blockHashes R = [hashOf 100, hashOf 1, hashOf 2, hashOf 3, hashOf 4, hashOf 5, hashOf 6] := by
  intro L R
  obtain ⟨L', hL'⟩ := List.length_eq_one_iff.mp (by decide +kernel : (genesisRun localForkBlocks).2.length = 1)
  obtain ⟨R', hR'⟩ := List.length_eq_one_iff.mp (by decide +kernel : (genesisRun remoteForkBlocks).2.length = 1)
  refine ⟨by decide +kernel, by decide +kernel, ?_, ?_, by decide +kernel, by decide +kernel⟩
  · simp only [L, hL', List.getElem?_cons_zero, List.headD_cons]
  · simp only [R, hR', List.getElem?_cons_zero, List.headD_cons]

theorem forkRuns_linked :
    ChainsLinked (blockHashes ((genesisRun localForkBlocks).2.headD []))
      (blockHashes ((genesisRun remoteForkBlocks).2.headD [])) := by
  rw [chainsLinked_iff_getElem, forkRuns_chains.2.2.2.2.1, forkRuns_chains.2.2.2.2.2]
  decide +kernel

theorem forkRuns_forkIndex :
    IsForkIndex (blockHashes ((genesisRun localForkBlocks).2.headD []))
      (blockHashes ((genesisRun remoteForkBlocks).2.headD [])) 3 := by
  rw [forkRuns_chains.2.2.2.2.1, forkRuns_chains.2.2.2.2.2]
  exact ⟨by decide, by decide, by decide +kernel, fun a ha hb => absurd (ha.trans hb.symm) (by decide +kernel)⟩

/-- Synchronisation by sparse chains between two nodes with the invariant. The remote node
describes its main chain `R` by the sparse chain of its top hash, once the top index fits in 31
bits; the local node finds in it the first block of its own main chain `L`, at most at the fork
index `f` of the two chains and at most twice as far below the remote top as the fork, and
answers the hashes of `L` from there, as many as `maxCount` truncated to 32 bits. -/
theorem sparse_chain_supplement_near_fork {envL envR : CoreEnvironment} {localState remoteState : CoreState}
    {chainsL chainsR : List (List PushedBlock)} (hL : CoreInvariant envL localState chainsL)
    (hR : CoreInvariant envR remoteState chainsR) {leafL leafR : Nat} {alternativesL alternativesR : List Nat}
    (hleavesL : localState.chainsLeaves = leafL :: alternativesL)
    (hleavesR : remoteState.chainsLeaves = leafR :: alternativesR) {L R : List PushedBlock}
    (hchainL : chainsL[leafL]? = some L) (hchainR : chainsR[leafR]? = some R)
    (hnodupL : (blockHashes L).Nodup) (hnodupR : (blockHashes R).Nodup)
    (hlinked : ChainsLinked (blockHashes L) (blockHashes R)) {f : Nat}
    (hfork : IsForkIndex (blockHashes L) (blockHashes R) f) {topHash : Hash}
    (htopHash : (blockHashes R).getLast? = some topHash) (htop : R.length - 1 ≤ 2 ^ 31) (maxCount : UInt64) :
    ∃ sc, (sparseOffsets (R.length - 1)).mapM (fun o => (blockHashes R)[R.length - 1 - o]?) = some sc ∧
      (∀ fuel, 31 ≤ fuel → Core.doBuildSparseChain remoteState fuel topHash = some sc) ∧
      ∃ r, Core.findBlockchainSupplement localState sc = .ok r ∧ r ≤ f ∧
        R.length - 1 - r ≤ 2 * (R.length - 1 - f) ∧ (f = R.length - 1 → r = f) ∧
        Core.findBlockchainSupplementHashes localState sc maxCount =
          .ok (((blockHashes L).drop r).take (maxCount.toNat % 2 ^ 32), UInt32.ofNat (L.length - 1) + 1, r) := by
  have hlengthR : (blockHashes R).length = R.length := List.length_map _
  have hlengthL : (blockHashes L).length = L.length := List.length_map _
  obtain ⟨sc, hsc⟩ : ∃ sc, (sparseOffsets (R.length - 1)).mapM (fun o => (blockHashes R)[R.length - 1 - o]?) =
      some sc := exists_mapM_eq_some fun o _ => by
      have := hfork.2.1
      rw [List.getElem?_eq_getElem (by omega), Option.isSome_some]
  obtain ⟨r, hfound, hrf, hclose, hequal⟩ := findSome?_sparseOffsets hnodupL hlinked hfork
  rw [hlengthR] at hfound hclose hequal
  -- the local node reads each hash at its index on its main chain
  have hsearch : sc.findSome? (Core.mainChainBlockIndex localState) = some r := by
    rw [funext (hL.mainChainBlockIndex hleavesL hchainL hnodupL), findSome?_of_mapM_eq_some hsc, hfound]
  have hsupplement : Core.findBlockchainSupplement localState sc = .ok r := by
    have hne : sc ≠ [] := by
      rintro rfl
      cases hsearch
    rw [Core.findBlockchainSupplement, if_neg hne, Core.findBlockchainSupplementLoop_eq, hsearch]
    rfl
  refine ⟨sc, hsc, fun fuel hfuel => (hR.doBuildSparseChain hleavesR hchainR hnodupR htopHash htop hfuel).trans hsc,
    r, hsupplement, hrf, hclose, hequal, ?_⟩
  have hsegments := hL.tree.coherent.chainModels hchainL
  have hrL : r ≤ L.length := by
    have := hfork.1
    rw [hlengthL] at this
    omega
  rw [Core.findBlockchainSupplementHashes, hleavesL]
  simp only [show Core.findBlockchainSupplement localState sc = pure r from hsupplement, pure_bind,
    hsegments.getTopBlockIndex, hsegments.getBlockHashes hrL, UInt64.toNat_toUInt32]
  rw [List.map_take, List.map_drop, chainInfos_map_blockHash]
  rfl

/-- The remote sparse chain samples heights 6, 5, 4, 2 and 0, and the local node, which agrees up
to height 3, answers from height 2. -/
theorem sparse_chain_supplement_near_fork_deep :
    let L := (genesisRun localForkBlocks).2.headD []
    let R := (genesisRun remoteForkBlocks).2.headD []
    ∃ sc, (sparseOffsets (R.length - 1)).mapM (fun o => (blockHashes R)[R.length - 1 - o]?) = some sc ∧
      (∀ fuel, 31 ≤ fuel → Core.doBuildSparseChain (genesisRun remoteForkBlocks).1 fuel (hashOf 6) = some sc) ∧
      ∃ r, Core.findBlockchainSupplement (genesisRun localForkBlocks).1 sc = .ok r ∧ r ≤ 3 ∧
        R.length - 1 - r ≤ 2 * (R.length - 1 - 3) ∧ (3 = R.length - 1 → r = 3) ∧
        Core.findBlockchainSupplementHashes (genesisRun localForkBlocks).1 sc 3 =
          .ok (((blockHashes L).drop r).take ((3 : UInt64).toNat % 2 ^ 32), UInt32.ofNat (L.length - 1) + 1, r) := by
  intro L R
  obtain ⟨hleavesL, hleavesR, hchainL, hchainR, hhashesL, hhashesR⟩ := forkRuns_chains
  exact sparse_chain_supplement_near_fork (genesisRun_invariant _) (genesisRun_invariant _) hleavesL hleavesR
    hchainL hchainR (by rw [hhashesL]; decide +kernel) (by rw [hhashesR]; decide +kernel) forkRuns_linked
    forkRuns_forkIndex (by rw [hhashesR]; rfl) (by decide +kernel) 3

/-- A node holding only the genesis block, asked with its own sparse chain for `2 ^ 32` hashes,
answers none: `maxCount` is cast to `uint32_t` first. -/
theorem findBlockchainSupplementHashes_maxCount_wraps :
    let state := Core.init (blockAt 0 100 0) (rawOf 100)
    Core.doBuildSparseChain state 31 (hashOf 100) = some [hashOf 100] ∧
      Core.findBlockchainSupplementHashes state [hashOf 100] (2 ^ 32) = .ok ([], 1, 0) :=
  ⟨rfl, rfl⟩

end Crygcoin
