import Crygcoin.SegmentSteps
import Crygcoin.SegmentTree

namespace Crygcoin

/-! The segments of `Core::chainsStorage` with, for each, the flat chain of blocks from the root
to its top: the invariant that every operation on the tree keeps, and from which each segment's
chain of parents models its flat chain. -/

/-- `chains[p]` is the chain of blocks from the root to the top of the segment at `p`. -/
structure Coherent (store : List BlockchainCache) (chains : List (List PushedBlock)) : Prop where
  length : chains.length = store.length
  rooted : Rooted BlockchainCache.parent store
  segment : ∀ {p : Nat} {cache : BlockchainCache} {chain : List PushedBlock}, store[p]? = some cache → chains[p]? = some chain → SegmentModels cache chain
  root : ∀ {p : Nat} {cache : BlockchainCache}, store[p]? = some cache → cache.parent = none → cache.startIndex = 0
  parent : ∀ {p q : Nat} {cache : BlockchainCache} {chain : List PushedBlock}, store[p]? = some cache → cache.parent = some q → chains[p]? = some chain →
    ∃ parentCache, store[q]? = some parentCache ∧ parentCache.startIndex < cache.startIndex ∧
      chains[q]? = some (chain.take cache.startIndex)
  child : ∀ {p q : Nat} {cache : BlockchainCache}, store[p]? = some cache → cache.parent = some q →
    ∃ parentCache, store[q]? = some parentCache ∧ p ∈ parentCache.children
  childParent : ∀ {p q : Nat} {cache : BlockchainCache}, store[q]? = some cache → p ∈ cache.children →
    ∃ child, store[p]? = some child ∧ child.parent = some q

section Coherent

variable {store : List BlockchainCache} {chains : List (List PushedBlock)}

theorem Coherent.chain_of_cache (h : Coherent store chains) {p : Nat} {cache : BlockchainCache}
    (hcache : store[p]? = some cache) : ∃ chain, chains[p]? = some chain := by
  have hlt : p < chains.length := by
    rw [h.length]
    exact (List.getElem?_eq_some_iff.mp hcache).1
  exact ⟨_, List.getElem?_eq_getElem hlt⟩

theorem Coherent.cache_of_chain (h : Coherent store chains) {p : Nat} {chain : List PushedBlock}
    (hchain : chains[p]? = some chain) : ∃ cache, store[p]? = some cache := by
  have hlt : p < store.length := by
    rw [← h.length]
    exact (List.getElem?_eq_some_iff.mp hchain).1
  exact ⟨_, List.getElem?_eq_getElem hlt⟩

theorem Coherent.chainModels (h : Coherent store chains) {p : Nat} {chain : List PushedBlock}
    (hchain : chains[p]? = some chain) : ChainModels (segmentsOf store p) chain := by
  obtain ⟨cache, hcache⟩ := h.cache_of_chain hchain
  obtain ⟨ps, hps⟩ := h.rooted p (List.getElem?_eq_some_iff.mp hcache).1
  rw [segmentsOf_eq hps]
  clear hcache
  -- induction on the walk to the root, the chain cut at each segment's start on the way
  induction hps generalizing chain with
  | @root p x hx hroot =>
    rw [List.filterMap_cons, hx, List.filterMap_nil]
    exact .root (h.segment hx hchain) (h.root hx hroot)
  | @cons p q x ps hx hq hrest ih =>
    obtain ⟨parentCache, hparent, hlt, hparentChain⟩ := h.parent hx hq hchain
    obtain ⟨rest, rfl⟩ := hrest.head
    have hmodels := ih hparentChain
    rw [List.filterMap_cons, hparent] at hmodels
    rw [List.filterMap_cons, hx, List.filterMap_cons, hparent]
    exact .cons (h.segment hx hchain) hmodels hlt

theorem Coherent.segmentsOf_eq_cons (h : Coherent store chains) {p : Nat} {cache : BlockchainCache}
    (hcache : store[p]? = some cache) : segmentsOf store p = cache :: (segmentsOf store p).tail := by
  obtain ⟨ps, hps⟩ := h.rooted p (List.getElem?_eq_some_iff.mp hcache).1
  obtain ⟨rest, rfl⟩ := hps.head
  rw [segmentsOf_eq hps, List.filterMap_cons, hcache, List.tail_cons]

end Coherent

section Push

variable {store : List BlockchainCache} {chains : List (List PushedBlock)} {p : Nat} {cache : BlockchainCache}
  {chain : List PushedBlock} {block : PushedBlock}

theorem pushBlockAt_eq (hcache : store[p]? = some cache) :
    pushBlockAt store p block.cachedBlock block.cachedTransactions block.validatorState block.blockSize
      block.generatedCoins block.blockDifficulty block.rawBlock =
      store.set p (cache.pushBlockOf (segmentsOf store p).tail block) := by
  simp only [pushBlockAt, hcache]
  rfl

theorem Coherent.pushBlockAt (h : Coherent store chains) (hcache : store[p]? = some cache)
    (hchain : chains[p]? = some chain) (hleaf : cache.children = [])
    (hindex : block.cachedBlock.getBlockIndex = cache.startIndex + cache.blockInfos.length) :
    Coherent (Crygcoin.pushBlockAt store p block.cachedBlock block.cachedTransactions block.validatorState
      block.blockSize block.generatedCoins block.blockDifficulty block.rawBlock)
      (chains.set p (chain ++ [block])) := by
  rw [pushBlockAt_eq hcache]
  have hm := h.segment hcache hchain
  have hc : ChainModels (cache :: (segmentsOf store p).tail) chain :=
    h.segmentsOf_eq_cons hcache ▸ h.chainModels hchain
  have hlength : block.cachedBlock.getBlockIndex = chain.length := by rw [hindex, hm.length]
  have hframe := BlockchainCache.pushBlockOf_frame (segmentsOf store p).tail cache block
  have hlt : p < store.length := (List.getElem?_eq_some_iff.mp hcache).1
  obtain ⟨ps, hps⟩ := h.rooted p hlt
  have hself : cache.parent ≠ some p := hps.parent_ne hcache
  -- no segment has the leaf as its parent
  have hnoChild : ∀ {q : Nat} {c : BlockchainCache}, store[q]? = some c → c.parent ≠ some p := by
    intro q c hq hparent
    obtain ⟨parentCache, hp', hmem⟩ := h.child hq hparent
    rw [hcache, Option.some.injEq] at hp'
    subst hp'
    rw [hleaf] at hmem
    exact List.not_mem_nil hmem
  refine ⟨by rw [List.length_set, List.length_set, h.length], h.rooted.set ?_, ?_, ?_, ?_, ?_, ?_⟩
  · rw [hcache, Option.map_some, hframe.parent]
  · intro q c ch hq hch
    rcases getElem?_set_eq_some hq with ⟨hqp, rfl⟩ | ⟨hqp, hq⟩
    · subst q
      rw [List.getElem?_set_self (by rw [h.length]; exact hlt), Option.some.injEq] at hch
      subst hch
      exact SegmentModels.pushBlockOf hc hlength
    · rw [List.getElem?_set_ne (Ne.symm hqp)] at hch
      exact h.segment hq hch
  · intro q c hq hroot
    rcases getElem?_set_eq_some hq with ⟨hqp, rfl⟩ | ⟨-, hq⟩
    · subst q
      rw [hframe.parent] at hroot
      rw [hframe.startIndex]
      exact h.root hcache hroot
    · exact h.root hq hroot
  · intro q r c ch hq hparent hch
    rcases getElem?_set_eq_some hq with ⟨hqp, rfl⟩ | ⟨hqp, hq⟩
    · -- the leaf itself: its parent and the chain below its start stay
      subst q
      rw [List.getElem?_set_self (by rw [h.length]; exact hlt), Option.some.injEq] at hch
      subst hch
      rw [hframe.parent] at hparent
      obtain ⟨parentCache, hr, hstart, hrChain⟩ := h.parent hcache hparent hchain
      have hrp : r ≠ p := fun hrp => hself (hrp ▸ hparent)
      refine ⟨parentCache, by rw [List.getElem?_set_ne (Ne.symm hrp), hr], by rw [hframe.startIndex]; exact hstart, ?_⟩
      rw [List.getElem?_set_ne (Ne.symm hrp), hrChain, hframe.startIndex,
        List.take_append_of_le_length hm.start_le]
    · rw [List.getElem?_set_ne (Ne.symm hqp)] at hch
      obtain ⟨parentCache, hr, hstart, hrChain⟩ := h.parent hq hparent hch
      have hrp : r ≠ p := fun hrp => hnoChild hq (hrp ▸ hparent)
      exact ⟨parentCache, by rw [List.getElem?_set_ne (Ne.symm hrp), hr], hstart,
        by rw [List.getElem?_set_ne (Ne.symm hrp), hrChain]⟩
  · intro q r c hq hparent
    rcases getElem?_set_eq_some hq with ⟨hqp, rfl⟩ | ⟨-, hq⟩
    · subst q
      rw [hframe.parent] at hparent
      obtain ⟨parentCache, hr, hmem⟩ := h.child hcache hparent
      have hrp : r ≠ p := fun hrp => hself (hrp ▸ hparent)
      exact ⟨parentCache, by rw [List.getElem?_set_ne (Ne.symm hrp), hr], hmem⟩
    · obtain ⟨parentCache, hr, hmem⟩ := h.child hq hparent
      have hrp : r ≠ p := fun hrp => hnoChild hq (hrp ▸ hparent)
      exact ⟨parentCache, by rw [List.getElem?_set_ne (Ne.symm hrp), hr], hmem⟩
  · intro q r c hr hmem
    rcases getElem?_set_eq_some hr with ⟨-, rfl⟩ | ⟨hrp, hr⟩
    · rw [hframe.children, hleaf] at hmem
      exact absurd hmem List.not_mem_nil
    · obtain ⟨child, hq, hparent⟩ := h.childParent hr hmem
      by_cases hqp : q = p
      · subst hqp
        rw [hcache, Option.some.injEq] at hq
        subst hq
        exact ⟨_, List.getElem?_set_self hlt, by rw [hframe.parent, hparent]⟩
      · exact ⟨child, by rw [List.getElem?_set_ne (Ne.symm hqp), hq], hparent⟩

end Push

section Fork

variable {store : List BlockchainCache} {chains : List (List PushedBlock)} {p : Nat} {cache : BlockchainCache}
  {chain : List PushedBlock}

theorem forkSegment_eq (hcache : store[p]? = some cache) (startIndex : Nat) :
    forkSegment store p startIndex =
      store.set p (cache.addChild store.length) ++ [BlockchainCache.create (some p) startIndex] := by
  simp only [forkSegment, hcache]

theorem forkSegment_getElem?_eq_some (hcache : store[p]? = some cache) {startIndex q : Nat} {c : BlockchainCache}
    (hq : (Crygcoin.forkSegment store p startIndex)[q]? = some c) :
    (q = store.length ∧ c = BlockchainCache.create (some p) startIndex) ∨ (q = p ∧ c = cache.addChild store.length) ∨
      (q ≠ p ∧ q < store.length ∧ store[q]? = some c) := by
  rw [forkSegment_eq hcache] at hq
  rcases getElem?_concat_eq_some hq with ⟨hq', hq⟩ | ⟨hqn, rfl⟩
  · rw [List.length_set] at hq'
    rcases getElem?_set_eq_some hq with ⟨hqp, rfl⟩ | ⟨hqp, hq⟩
    · exact .inr (.inl ⟨hqp, rfl⟩)
    · exact .inr (.inr ⟨hqp, hq', hq⟩)
  · rw [List.length_set] at hqn
    exact .inl ⟨hqn, rfl⟩

theorem forkSegment_getElem?_self (hcache : store[p]? = some cache) (startIndex : Nat) :
    (Crygcoin.forkSegment store p startIndex)[p]? = some (cache.addChild store.length) := by
  have hlt : p < store.length := (List.getElem?_eq_some_iff.mp hcache).1
  rw [forkSegment_eq hcache, List.getElem?_append_left (by rw [List.length_set]; exact hlt), List.getElem?_set_self hlt]

theorem forkSegment_getElem?_length (hcache : store[p]? = some cache) (startIndex : Nat) :
    (Crygcoin.forkSegment store p startIndex)[store.length]? = some (BlockchainCache.create (some p) startIndex) := by
  rw [forkSegment_eq hcache, List.getElem?_append_right (by rw [List.length_set]), List.length_set, Nat.sub_self]
  rfl

theorem forkSegment_getElem?_of_ne (hcache : store[p]? = some cache) (startIndex : Nat) {q : Nat} (hqp : q ≠ p)
    (hq : q < store.length) : (Crygcoin.forkSegment store p startIndex)[q]? = store[q]? := by
  rw [forkSegment_eq hcache, List.getElem?_append_left (by rw [List.length_set]; exact hq),
    List.getElem?_set_ne (Ne.symm hqp)]

@[simp] theorem forkSegment_length (hcache : store[p]? = some cache) (startIndex : Nat) :
    (Crygcoin.forkSegment store p startIndex).length = store.length + 1 := by
  simp [forkSegment_eq hcache]

theorem Coherent.forkSegment (h : Coherent store chains) (hcache : store[p]? = some cache)
    (hchain : chains[p]? = some chain) (hnonempty : cache.blockInfos ≠ []) :
    Coherent (Crygcoin.forkSegment store p (cache.getTopBlockIndex + 1)) (chains ++ [chain]) := by
  have hm := h.segment hcache hchain
  have hlength := hm.length
  have hpos : 0 < cache.blockInfos.length := List.length_pos_iff.mpr hnonempty
  have htop : cache.getTopBlockIndex + 1 = chain.length := by
    simp only [BlockchainCache.getTopBlockIndex]
    omega
  rw [forkSegment_eq hcache, htop]
  have hlt : p < store.length := (List.getElem?_eq_some_iff.mp hcache).1
  obtain ⟨ps, hps⟩ := h.rooted p hlt
  have hself : cache.parent ≠ some p := hps.parent_ne hcache
  have hlen : (store.set p (cache.addChild store.length)).length = store.length := List.length_set
  -- what the new store holds at the forked segment, at the new one and elsewhere
  have hatP : (store.set p (cache.addChild store.length) ++ [BlockchainCache.create (some p) chain.length])[p]? =
      some (cache.addChild store.length) := by
    rw [List.getElem?_append_left (by rw [hlen]; exact hlt), List.getElem?_set_self hlt]
  have hatOld : ∀ {r : Nat}, r ≠ p → r < store.length →
      (store.set p (cache.addChild store.length) ++ [BlockchainCache.create (some p) chain.length])[r]? =
        store[r]? := by
    intro r hrp hr
    rw [List.getElem?_append_left (by rw [hlen]; exact hr), List.getElem?_set_ne (Ne.symm hrp)]
  have hchainOld : ∀ {r : Nat}, r < store.length → (chains ++ [chain])[r]? = chains[r]? := by
    intro r hr
    rw [List.getElem?_append_left (by rw [h.length]; exact hr)]
  have hcases : ∀ {q : Nat} {c : BlockchainCache},
      (store.set p (cache.addChild store.length) ++ [BlockchainCache.create (some p) chain.length])[q]? = some c →
        (q = store.length ∧ c = BlockchainCache.create (some p) chain.length) ∨
          (q = p ∧ c = cache.addChild store.length) ∨ (q ≠ p ∧ q < store.length ∧ store[q]? = some c) := by
    intro q c hq
    rcases getElem?_concat_eq_some hq with ⟨hq', hq⟩ | ⟨hqn, rfl⟩
    · rw [hlen] at hq'
      rcases getElem?_set_eq_some hq with ⟨hqp, rfl⟩ | ⟨hqp, hq⟩
      · exact Or.inr (Or.inl ⟨hqp, rfl⟩)
      · exact Or.inr (Or.inr ⟨hqp, hq', hq⟩)
    · rw [hlen] at hqn
      exact Or.inl ⟨hqn, rfl⟩
  refine ⟨by simp [h.length], ?_, ?_, ?_, ?_, ?_, ?_⟩
  · exact (h.rooted.set (by rw [hcache]; rfl)).append rfl (by rw [hlen]; exact hlt)
  · intro q c ch hq hch
    rcases hcases hq with ⟨rfl, rfl⟩ | ⟨rfl, rfl⟩ | ⟨-, hq', hq⟩
    · rw [List.getElem?_append_right (by rw [h.length]), h.length, Nat.sub_self, List.getElem?_singleton,
        if_pos rfl, Option.some.injEq] at hch
      subst hch
      exact SegmentModels.create (some p) chain
    · rw [hchainOld hlt, hchain, Option.some.injEq] at hch
      subst hch
      exact hm.relink cache.parent (cache.children ++ [store.length])
    · rw [hchainOld hq'] at hch
      exact h.segment hq hch
  · intro q c hq hroot
    rcases hcases hq with ⟨-, rfl⟩ | ⟨-, rfl⟩ | ⟨-, -, hq⟩
    · cases hroot
    · have hzero : cache.startIndex = 0 := h.root hcache hroot
      exact hzero
    · exact h.root hq hroot
  · intro q r c ch hq hparent hch
    rcases hcases hq with ⟨rfl, rfl⟩ | ⟨rfl, rfl⟩ | ⟨hqp, hq', hq⟩
    · -- the new leaf starts on top of the whole chain of the segment it forks from
      cases hparent
      rw [List.getElem?_append_right (by rw [h.length]), h.length, Nat.sub_self, List.getElem?_singleton,
        if_pos rfl, Option.some.injEq] at hch
      subst hch
      refine ⟨cache.addChild store.length, hatP, ?_, ?_⟩
      · show cache.startIndex < chain.length
        omega
      · show _ = some (chain.take chain.length)
        rw [hchainOld hlt, hchain, List.take_length]
    · rw [hchainOld hlt, hchain, Option.some.injEq] at hch
      subst hch
      obtain ⟨parentCache, hr, hstart, hrChain⟩ := h.parent hcache hparent hchain
      have hrp : r ≠ q := fun hrp => hself (hrp ▸ hparent)
      have hrlt : r < store.length := (List.getElem?_eq_some_iff.mp hr).1
      exact ⟨parentCache, by rw [hatOld hrp hrlt, hr], hstart, by rw [hchainOld hrlt, hrChain]; rfl⟩
    · rw [hchainOld hq'] at hch
      obtain ⟨parentCache, hr, hstart, hrChain⟩ := h.parent hq hparent hch
      have hrlt : r < store.length := (List.getElem?_eq_some_iff.mp hr).1
      by_cases hrp : r = p
      · subst hrp
        rw [hcache, Option.some.injEq] at hr
        subst hr
        exact ⟨_, hatP, hstart, by rw [hchainOld hrlt, hrChain]⟩
      · exact ⟨parentCache, by rw [hatOld hrp hrlt, hr], hstart, by rw [hchainOld hrlt, hrChain]⟩
  · intro q r c hq hparent
    rcases hcases hq with ⟨rfl, rfl⟩ | ⟨rfl, rfl⟩ | ⟨hqp, hq', hq⟩
    · cases hparent
      exact ⟨_, hatP, List.mem_append_right _ (List.mem_singleton_self _)⟩
    · obtain ⟨parentCache, hr, hmem⟩ := h.child hcache hparent
      have hrp : r ≠ q := fun hrp => hself (hrp ▸ hparent)
      exact ⟨parentCache, by rw [hatOld hrp (List.getElem?_eq_some_iff.mp hr).1, hr], hmem⟩
    · obtain ⟨parentCache, hr, hmem⟩ := h.child hq hparent
      by_cases hrp : r = p
      · subst hrp
        rw [hcache, Option.some.injEq] at hr
        subst hr
        exact ⟨_, hatP, List.mem_append_left _ hmem⟩
      · exact ⟨parentCache, by rw [hatOld hrp (List.getElem?_eq_some_iff.mp hr).1, hr], hmem⟩
  · intro q r c hr hmem
    -- a child named by a segment has that segment as its parent, the new leaf among them
    have hchildParent : ∀ {q : Nat}, q < store.length → ∀ {child : BlockchainCache}, store[q]? = some child →
        child.parent = some r → ∃ child', (store.set p (cache.addChild store.length) ++
          [BlockchainCache.create (some p) chain.length])[q]? = some child' ∧ child'.parent = some r := by
      intro q hq child hchild hparent
      by_cases hqp : q = p
      · subst hqp
        rw [hcache, Option.some.injEq] at hchild
        subst hchild
        exact ⟨_, hatP, hparent⟩
      · exact ⟨child, by rw [hatOld hqp hq, hchild], hparent⟩
    rcases hcases hr with ⟨rfl, rfl⟩ | ⟨rfl, rfl⟩ | ⟨-, -, hr⟩
    · exact absurd hmem List.not_mem_nil
    · rcases List.mem_append.mp hmem with hmem | hmem
      · obtain ⟨child, hq, hparent⟩ := h.childParent hcache hmem
        exact hchildParent (List.getElem?_eq_some_iff.mp hq).1 hq hparent
      · rw [List.mem_singleton.mp hmem]
        exact ⟨_, by rw [List.getElem?_append_right (by rw [hlen]), hlen, Nat.sub_self]; rfl, rfl⟩
    · obtain ⟨child, hq, hparent⟩ := h.childParent hr hmem
      exact hchildParent (List.getElem?_eq_some_iff.mp hq).1 hq hparent

end Fork

section Split

variable {store : List BlockchainCache} {chains : List (List PushedBlock)} {c : Nat} {cache : BlockchainCache}
  {chain : List PushedBlock} {splitBlockIndex : Nat}

theorem splitSegment_getElem? (hcache : store[c]? = some cache) (q : Nat) :
    (splitSegment store c splitBlockIndex)[q]? =
      if q = store.length then some (cache.split c store.length splitBlockIndex).2
      else (store.set c (cache.split c store.length splitBlockIndex).1)[q]?.map fun x =>
        if q ∈ cache.children then { x with parent := some store.length } else x := by
  simp only [splitSegment, hcache]
  by_cases hq : q < store.length
  · rw [if_neg (by omega), List.getElem?_append_left (by simpa using hq), fixChildrenParent_getElem?]
  · by_cases hqn : q = store.length
    · subst hqn
      rw [if_pos rfl, List.getElem?_append_right (by simp), fixChildrenParent_length, List.length_set,
        Nat.sub_self]
      rfl
    · rw [if_neg hqn, List.getElem?_eq_none (by simp; omega), List.getElem?_eq_none (by simp; omega)]
      rfl

@[simp] theorem splitSegment_length (hcache : store[c]? = some cache) :
    (Crygcoin.splitSegment store c splitBlockIndex).length = store.length + 1 := by
  simp [Crygcoin.splitSegment, hcache]

theorem splitSegment_getElem?_length (hcache : store[c]? = some cache) :
    (Crygcoin.splitSegment store c splitBlockIndex)[store.length]? =
      some (cache.split c store.length splitBlockIndex).2 := by
  rw [splitSegment_getElem? hcache, if_pos rfl]

theorem splitSegment_getElem?_self (hcache : store[c]? = some cache) (hnotChild : c ∉ cache.children) :
    (Crygcoin.splitSegment store c splitBlockIndex)[c]? = some (cache.split c store.length splitBlockIndex).1 := by
  have hlt : c < store.length := (List.getElem?_eq_some_iff.mp hcache).1
  rw [splitSegment_getElem? hcache, if_neg (by omega), List.getElem?_set_self hlt, Option.map_some, if_neg hnotChild]

theorem splitSegment_getElem?_of_ne (hcache : store[c]? = some cache) {q : Nat} {x : BlockchainCache} (hqc : q ≠ c)
    (hq : store[q]? = some x) :
    (Crygcoin.splitSegment store c splitBlockIndex)[q]? =
      some (if q ∈ cache.children then { x with parent := some store.length } else x) := by
  have hqlt : q < store.length := (List.getElem?_eq_some_iff.mp hq).1
  rw [splitSegment_getElem? hcache, if_neg (by omega), List.getElem?_set_ne (Ne.symm hqc), hq, Option.map_some]

theorem splitSegment_getElem?_eq_some (hcache : store[c]? = some cache) (hnotChild : c ∉ cache.children)
    {q : Nat} {x' : BlockchainCache} (hq : (Crygcoin.splitSegment store c splitBlockIndex)[q]? = some x') :
    (q = store.length ∧ x' = (cache.split c store.length splitBlockIndex).2) ∨
      (q = c ∧ x' = (cache.split c store.length splitBlockIndex).1) ∨
      (q ≠ c ∧ q < store.length ∧ ∃ x, store[q]? = some x ∧
        x' = if q ∈ cache.children then { x with parent := some store.length } else x) := by
  by_cases hqn : q = store.length
  · subst hqn
    rw [splitSegment_getElem?_length hcache, Option.some.injEq] at hq
    exact .inl ⟨rfl, hq.symm⟩
  by_cases hqc : q = c
  · subst hqc
    rw [splitSegment_getElem?_self hcache hnotChild, Option.some.injEq] at hq
    exact .inr (.inl ⟨rfl, hq.symm⟩)
  have hqlt : q < store.length := by
    have := (List.getElem?_eq_some_iff.mp hq).1
    rw [splitSegment_length hcache] at this
    omega
  rw [splitSegment_getElem?_of_ne hcache hqc (List.getElem?_eq_getElem hqlt), Option.some.injEq] at hq
  exact .inr (.inr ⟨hqc, hqlt, _, List.getElem?_eq_getElem hqlt, hq.symm⟩)

theorem Coherent.not_mem_children (h : Coherent store chains) (hcache : store[c]? = some cache) :
    c ∉ cache.children := by
  have hlt : c < store.length := (List.getElem?_eq_some_iff.mp hcache).1
  obtain ⟨ps, hps⟩ := h.rooted c hlt
  intro hmem
  obtain ⟨child, hq, hparent⟩ := h.childParent hcache hmem
  rw [hcache, Option.some.injEq] at hq
  subst hq
  exact hps.parent_ne hcache hparent

theorem Coherent.splitSegment (h : Coherent store chains) (hcache : store[c]? = some cache)
    (hchain : chains[c]? = some chain) (hk : cache.startIndex < splitBlockIndex)
    (hk' : splitBlockIndex ≤ cache.getTopBlockIndex) :
    Coherent (Crygcoin.splitSegment store c splitBlockIndex)
      ((chains.set c (chain.take splitBlockIndex)) ++ [chain]) := by
  have hm := h.segment hcache hchain
  have hlength := hm.length
  have hklt : splitBlockIndex < chain.length := by
    simp only [BlockchainCache.getTopBlockIndex] at hk'
    omega
  have hlt : c < store.length := (List.getElem?_eq_some_iff.mp hcache).1
  obtain ⟨ps, hps⟩ := h.rooted c hlt
  have hself : cache.parent ≠ some c := hps.parent_ne hcache
  have hnotChild : c ∉ cache.children := by
    intro hmem
    obtain ⟨child, hq, hparent⟩ := h.childParent hcache hmem
    rw [hcache, Option.some.injEq] at hq
    subst hq
    exact hself hparent
  -- the children of the split segment are the segments whose parent it was
  have hchildIff : ∀ {q : Nat} {x : BlockchainCache}, store[q]? = some x → (q ∈ cache.children ↔ x.parent = some c) := by
    intro q x hq
    constructor
    · intro hmem
      obtain ⟨child, hq', hparent⟩ := h.childParent hcache hmem
      rw [hq, Option.some.injEq] at hq'
      rw [hq']
      exact hparent
    · intro hparent
      obtain ⟨parentCache, hc', hmem⟩ := h.child hq hparent
      rw [hcache, Option.some.injEq] at hc'
      rw [hc']
      exact hmem
  have hatN : (Crygcoin.splitSegment store c splitBlockIndex)[store.length]? =
      some (cache.split c store.length splitBlockIndex).2 := by
    rw [splitSegment_getElem? hcache, if_pos rfl]
  have hatC : (Crygcoin.splitSegment store c splitBlockIndex)[c]? =
      some (cache.split c store.length splitBlockIndex).1 := by
    rw [splitSegment_getElem? hcache, if_neg (by omega), List.getElem?_set_self hlt, Option.map_some, if_neg hnotChild]
  have hatOld : ∀ {q : Nat} {x : BlockchainCache}, q ≠ c → store[q]? = some x →
      (Crygcoin.splitSegment store c splitBlockIndex)[q]? =
        some (if q ∈ cache.children then { x with parent := some store.length } else x) := by
    intro q x hqc hq
    have hqlt : q < store.length := (List.getElem?_eq_some_iff.mp hq).1
    rw [splitSegment_getElem? hcache, if_neg (by omega), List.getElem?_set_ne (Ne.symm hqc), hq, Option.map_some]
  have hcases : ∀ {q : Nat} {x' : BlockchainCache}, (Crygcoin.splitSegment store c splitBlockIndex)[q]? = some x' →
      (q = store.length ∧ x' = (cache.split c store.length splitBlockIndex).2) ∨
        (q = c ∧ x' = (cache.split c store.length splitBlockIndex).1) ∨
        (q ≠ c ∧ q < store.length ∧ ∃ x, store[q]? = some x ∧
          x' = if q ∈ cache.children then { x with parent := some store.length } else x) := by
    intro q x' hq
    by_cases hqn : q = store.length
    · subst hqn
      rw [hatN, Option.some.injEq] at hq
      exact Or.inl ⟨rfl, hq.symm⟩
    by_cases hqc : q = c
    · subst hqc
      rw [hatC, Option.some.injEq] at hq
      exact Or.inr (Or.inl ⟨rfl, hq.symm⟩)
    have hqlt : q < store.length := by
      have := (List.getElem?_eq_some_iff.mp hq).1
      simp only [Crygcoin.splitSegment, hcache, List.length_append, fixChildrenParent_length, List.length_set,
        List.length_singleton] at this
      omega
    rw [hatOld hqc (List.getElem?_eq_getElem hqlt), Option.some.injEq] at hq
    exact Or.inr (Or.inr ⟨hqc, hqlt, _, List.getElem?_eq_getElem hqlt, hq.symm⟩)
  -- and what the new chains hold
  have hchainsC : ((chains.set c (chain.take splitBlockIndex)) ++ [chain])[c]? = some (chain.take splitBlockIndex) := by
    rw [List.getElem?_append_left (by rw [List.length_set, h.length]; exact hlt),
      List.getElem?_set_self (by rw [h.length]; exact hlt)]
  have hchainsN : ((chains.set c (chain.take splitBlockIndex)) ++ [chain])[store.length]? = some chain := by
    rw [List.getElem?_append_right (by rw [List.length_set, h.length]), List.length_set, h.length, Nat.sub_self]
    rfl
  have hchainsOld : ∀ {q : Nat}, q ≠ c → q < store.length →
      ((chains.set c (chain.take splitBlockIndex)) ++ [chain])[q]? = chains[q]? := by
    intro q hqc hq
    rw [List.getElem?_append_left (by rw [List.length_set, h.length]; exact hq), List.getElem?_set_ne (Ne.symm hqc)]
  have hlen' : (Crygcoin.splitSegment store c splitBlockIndex).length = store.length + 1 := by
    simp [Crygcoin.splitSegment, hcache]
  refine ⟨by rw [hlen']; simp [h.length], ?_, ?_, ?_, ?_, ?_, ?_⟩
  · -- the upper part goes in between the segment and its children
    refine h.rooted.rerouted hlen' hlt (by rw [hatN]; rfl) fun q hq => ?_
    by_cases hqc : q = c
    · subst hqc
      rw [hatC, hcache, Option.map_some, Option.map_some, if_neg hself]
      rfl
    · rw [hatOld hqc (List.getElem?_eq_getElem hq), List.getElem?_eq_getElem hq, Option.map_some, Option.map_some]
      by_cases hmem : q ∈ cache.children
      · rw [if_pos hmem, if_pos ((hchildIff (List.getElem?_eq_getElem hq)).mp hmem)]
      · rw [if_neg hmem, if_neg (mt (hchildIff (List.getElem?_eq_getElem hq)).mpr hmem)]
  · intro q x' ch hq hch
    rcases hcases hq with ⟨rfl, rfl⟩ | ⟨hqc, rfl⟩ | ⟨hqc, hqlt, x, hx, rfl⟩
    · rw [hchainsN, Option.some.injEq] at hch
      subst hch
      exact hm.splitUpper hk.le hklt.le
    · subst q
      rw [hchainsC, Option.some.injEq] at hch
      subst hch
      exact hm.splitLower hk hklt.le
    · rw [hchainsOld hqc hqlt] at hch
      have hx' := h.segment hx hch
      split
      · exact hx'.relink _ _
      · exact hx'
  · intro q x' hq hroot
    rcases hcases hq with ⟨-, rfl⟩ | ⟨-, rfl⟩ | ⟨-, -, x, hx, rfl⟩
    · cases hroot
    · have hzero : cache.startIndex = 0 := h.root hcache hroot
      exact hzero
    · by_cases hmem : q ∈ cache.children
      · rw [if_pos hmem] at hroot
        cases hroot
      · rw [if_neg hmem] at hroot ⊢
        exact h.root hx hroot
  · intro q r x' ch hq hparent hch
    rcases hcases hq with ⟨rfl, rfl⟩ | ⟨hqc, rfl⟩ | ⟨hqc, hqlt, x, hx, rfl⟩
    · -- the upper part sits on the lower one
      cases hparent
      rw [hchainsN, Option.some.injEq] at hch
      subst hch
      exact ⟨_, hatC, hk, hchainsC⟩
    · -- the lower part keeps its parent and the chain below its start
      subst q
      rw [hchainsC, Option.some.injEq] at hch
      subst hch
      obtain ⟨parentCache, hr, hstart, hrChain⟩ := h.parent hcache hparent hchain
      have hrc : r ≠ c := fun hrc => hself (hrc ▸ hparent)
      have hrlt : r < store.length := (List.getElem?_eq_some_iff.mp hr).1
      refine ⟨_, hatOld hrc hr, by split <;> exact hstart, ?_⟩
      rw [hchainsOld hrc hrlt, hrChain, List.take_take, BlockchainCache.split_fst_startIndex,
        Nat.min_eq_left hk.le]
    · rw [hchainsOld hqc hqlt] at hch
      by_cases hmem : q ∈ cache.children
      · -- a former child of the segment now sits on the upper part
        rw [if_pos hmem] at hparent ⊢
        cases hparent
        obtain ⟨parentCache, hr, hstart, hrChain⟩ := h.parent hx ((hchildIff hx).mp hmem) hch
        rw [hcache, Option.some.injEq] at hr
        subst hr
        rw [hchain, Option.some.injEq] at hrChain
        have hbound : splitBlockIndex < x.startIndex := by
          have := congrArg List.length hrChain
          rw [List.length_take] at this
          omega
        exact ⟨_, hatN, hbound, by rw [hchainsN, hrChain]⟩
      · rw [if_neg hmem] at hparent ⊢
        obtain ⟨parentCache, hr, hstart, hrChain⟩ := h.parent hx hparent hch
        have hrc : r ≠ c := fun hrc => hmem ((hchildIff hx).mpr (hrc ▸ hparent))
        have hrlt : r < store.length := (List.getElem?_eq_some_iff.mp hr).1
        exact ⟨_, hatOld hrc hr, by split <;> exact hstart, by rw [hchainsOld hrc hrlt, hrChain]⟩
  · intro q r x' hq hparent
    rcases hcases hq with ⟨rfl, rfl⟩ | ⟨hqc, rfl⟩ | ⟨hqc, hqlt, x, hx, rfl⟩
    · cases hparent
      exact ⟨_, hatC, List.mem_singleton_self _⟩
    · subst q
      obtain ⟨parentCache, hr, hmem⟩ := h.child hcache hparent
      have hrc : r ≠ c := fun hrc => hself (hrc ▸ hparent)
      exact ⟨_, hatOld hrc hr, by split <;> exact hmem⟩
    · by_cases hmem : q ∈ cache.children
      · rw [if_pos hmem] at hparent
        cases hparent
        exact ⟨_, hatN, hmem⟩
      · rw [if_neg hmem] at hparent
        obtain ⟨parentCache, hr, hmem'⟩ := h.child hx hparent
        have hrc : r ≠ c := fun hrc => hmem ((hchildIff hx).mpr (hrc ▸ hparent))
        exact ⟨_, hatOld hrc hr, by split <;> exact hmem'⟩
  · intro q r x' hr hmem
    rcases hcases hr with ⟨rfl, rfl⟩ | ⟨hrc, rfl⟩ | ⟨hrc, hrlt, x, hx, rfl⟩
    · -- the children of the upper part are the segment's former children
      have hmem : q ∈ cache.children := hmem
      obtain ⟨child, hq, hparent⟩ := h.childParent hcache hmem
      have hqc : q ≠ c := fun hqc => hnotChild (hqc ▸ hmem)
      exact ⟨_, hatOld hqc hq, by rw [if_pos hmem]⟩
    · subst r
      rw [List.mem_singleton.mp hmem]
      exact ⟨_, hatN, rfl⟩
    · have hmem' : q ∈ x.children := by
        split at hmem <;> exact hmem
      obtain ⟨child, hq, hparent⟩ := h.childParent hx hmem'
      by_cases hqc : q = c
      · subst hqc
        rw [hcache, Option.some.injEq] at hq
        subst hq
        exact ⟨_, hatC, hparent⟩
      · have hnot : q ∉ cache.children := fun hq' => hrc (Option.some.inj (((hchildIff hq).mp hq').symm.trans hparent)).symm
        exact ⟨_, hatOld hqc hq, by rw [if_neg hnot]; exact hparent⟩

end Split

end Crygcoin
