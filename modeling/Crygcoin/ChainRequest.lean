import Crygcoin.SyncProtocol
import Crygcoin.SynchronizationStatus

namespace Crygcoin

/-! The chain request between two nodes. The node that synchronises posts `NOTIFY_REQUEST_CHAIN`
with the sparse chain of its main chain (`Core::buildSparseChain`); its peer checks that the list
ends with its own genesis block and answers `NOTIFY_RESPONSE_CHAIN_ENTRY` with the hashes of its
main chain from the first block of the list it holds (`handle_request_chain`); the first node then
queues what it lacks (`handle_response_chain_entry`). Between two nodes whose main chains share the
genesis block, neither side drops the connection in this exchange. -/

/-- `BLOCKS_IDS_SYNCHRONIZING_DEFAULT_COUNT`: the ids one chain entry gives. -/
def BLOCKS_IDS_SYNCHRONIZING_DEFAULT_COUNT : Nat := 10000

/-- `BlockchainCache::getTopBlockHash`; the source asserts that the segment holds a block. -/
def BlockchainCache.getTopBlockHash (cache : BlockchainCache) : Option Hash :=
  cache.blockInfos.getLast?.map (·.blockHash)

namespace Core

/-- `Core::getBlockHashByIndex`, on the main leaf; the asserts fail as `none`. -/
def getBlockHashByIndex (state : CoreState) (blockIndex : Nat) : Option Hash :=
  match state.chainsLeaves with
  | [] => none
  | mainLeaf :: _ => getBlockHash (segmentsOf state.chainsStorage mainLeaf) blockIndex

/-- `Core::buildSparseChain`: the sparse chain of the top block of the main leaf. -/
def buildSparseChain (state : CoreState) (fuel : Nat) : Option (List Hash) :=
  match state.chainsLeaves with
  | [] => none
  | mainLeaf :: _ =>
    (state.chainsStorage[mainLeaf]?.bind BlockchainCache.getTopBlockHash).bind (doBuildSparseChain state fuel)

end Core

/-- `handle_request_chain`: an empty list, or one that does not end with the genesis block, shuts
the connection down; otherwise the answer to post. The exceptions of `findBlockchainSupplement`
are the errors. -/
def handleRequestChain (state : CoreState) (context : CryptoNoteConnectionContext) (blockIds : List Hash) :
    Except String (CryptoNoteConnectionContext × Option ResponseChainEntry) :=
  match blockIds.getLast? with
  | none => pure ({ context with state := .shutdown }, none)
  | some last =>
    if some last ≠ Core.getBlockHashByIndex state 0 then pure ({ context with state := .shutdown }, none)
    else do
      let supplement ← Core.findBlockchainSupplementHashes state blockIds
        (UInt64.ofNat BLOCKS_IDS_SYNCHRONIZING_DEFAULT_COUNT)
      pure (context, some ⟨UInt32.ofNat supplement.2.2, supplement.2.1, supplement.1⟩)

/-! ### The requester's side -/

section Requester

variable {hasBlock : Hash → Bool} {context : CryptoNoteConnectionContext}

theorem requestMissingObjects_state (checkHavingBlocks : Bool) :
    (requestMissingObjects hasBlock context checkHavingBlocks).2.1.state = context.state ∨
      (requestMissingObjects hasBlock context checkHavingBlocks).2.1.state = .normal := by
  unfold requestMissingObjects
  split_ifs
  · exact .inl rfl
  · exact .inl rfl
  · -- synchronised, with or without the pool request
    exact .inr rfl
  · exact .inr rfl
  · exact .inl rfl

theorem handleResponseChainEntry_state {arg : ResponseChainEntry} {first : Hash} {rest : List Hash}
    (hids : arg.blockIds = first :: rest) (hknown : hasBlock first = true)
    (hheight : ¬(arg.startHeight + UInt32.ofNat arg.blockIds.length - 1 > arg.totalHeight)) :
    (handleResponseChainEntry hasBlock context arg).1.state = context.state ∨
      (handleResponseChainEntry hasBlock context arg).1.state = .normal := by
  unfold handleResponseChainEntry
  rw [hids]
  dsimp only
  rw [hids] at hheight
  rw [if_neg (by simp [hknown]), if_neg hheight]
  exact requestMissingObjects_state false

end Requester

/-! ### The sparse chain and the genesis block -/

theorem getLast?_sparseOffsets (top : Nat) : (sparseOffsets top).getLast? = some top := by
  rw [sparseOffsets]
  by_cases htop : top = 0
  · -- the genesis block is the top block, and no power of two lies below it
    subst htop
    rw [powersBelow, if_neg (by decide)]
    rfl
  · rw [if_neg htop, ← List.cons_append, List.getLast?_append, List.getLast?_singleton]
    rfl

theorem getLast?_of_mapM_eq_some {α β : Type} {f : α → Option β} {xs : List α} {ys : List β}
    (h : xs.mapM f = some ys) : ys.getLast? = xs.getLast?.bind f := by
  rcases List.eq_nil_or_concat xs with rfl | ⟨init, last, rfl⟩
  · cases h
    rfl
  · rw [List.concat_eq_append, List.mapM_append] at h
    simp only [List.mapM_cons, List.mapM_nil, Option.bind_eq_bind, Option.bind_eq_some_iff,
      Option.pure_def, Option.some.injEq] at h
    obtain ⟨as, -, bs, ⟨b, hb, rest, hrest, rfl⟩, rfl⟩ := h
    cases hrest
    rw [List.concat_eq_append, List.getLast?_append, List.getLast?_singleton, List.getLast?_append,
      List.getLast?_singleton]
    exact hb.symm

section Invariant

variable {env : CoreEnvironment} {state : CoreState} {chains : List (List PushedBlock)}
  (h : CoreInvariant env state chains) {p : Nat} {chain : List PushedBlock} (hchain : chains[p]? = some chain)
include h hchain

theorem CoreInvariant.getTopBlockHash :
    state.chainsStorage[p]?.bind BlockchainCache.getTopBlockHash = (blockHashes chain).getLast? := by
  obtain ⟨cache, hcache⟩ := h.tree.coherent.cache_of_chain hchain
  have hm := h.tree.coherent.segment hcache hchain
  have hlength := hm.length
  have hpos := List.length_pos_iff.mpr (h.tree.nonempty hcache)
  rw [hcache, Option.bind_some, BlockchainCache.getTopBlockHash, ← List.getLast?_map, hm.blockInfos,
    List.map_drop, chainInfos_map_blockHash, List.getLast?_drop, if_neg (by simp only [List.length_map]; omega)]
  rfl

end Invariant

section MainChain

variable {env : CoreEnvironment} {state : CoreState} {chains : List (List PushedBlock)}
  (h : CoreInvariant env state chains) {mainLeaf : Nat} {alternatives : List Nat}
  (hleaves : state.chainsLeaves = mainLeaf :: alternatives) {chain : List PushedBlock}
  (hchain : chains[mainLeaf]? = some chain)
include h hleaves hchain

theorem CoreInvariant.getBlockHashByIndex (blockIndex : Nat) :
    Core.getBlockHashByIndex state blockIndex = (blockHashes chain)[blockIndex]? := by
  rw [Core.getBlockHashByIndex, hleaves]
  exact (h.tree.coherent.chainModels hchain).getBlockHash_eq blockIndex

theorem CoreInvariant.buildSparseChain (hnodup : (blockHashes chain).Nodup) (htop : chain.length - 1 ≤ 2 ^ 31)
    {fuel : Nat} (hfuel : 31 ≤ fuel) :
    Core.buildSparseChain state fuel =
      (sparseOffsets (chain.length - 1)).mapM fun o => (blockHashes chain)[chain.length - 1 - o]? := by
  rw [Core.buildSparseChain, hleaves]
  dsimp only
  rw [h.getTopBlockHash hchain]
  cases htopHash : (blockHashes chain).getLast? with
  | none =>
    -- no top block: the chain is empty, and so is its genesis block
    have hempty : chain = [] := List.map_eq_nil_iff.mp (List.getLast?_eq_none_iff.mp htopHash)
    subst hempty
    rw [sparseOffsets, List.mapM_cons]
    rfl
  | some topHash => exact h.doBuildSparseChain hleaves hchain hnodup htopHash htop hfuel

theorem CoreInvariant.findBlockchainSupplementHashes_of_findSome? (hnodup : (blockHashes chain).Nodup)
    {remoteBlockIds : List Hash} {r : Nat}
    (hfound : remoteBlockIds.findSome? (fun blockHash => (blockHashes chain).findIdx? (· == blockHash)) = some r)
    (maxCount : UInt64) :
    Core.findBlockchainSupplementHashes state remoteBlockIds maxCount =
      .ok (((blockHashes chain).drop r).take (maxCount.toNat % 2 ^ 32), UInt32.ofNat (chain.length - 1) + 1, r) := by
  have hsupplement := h.findBlockchainSupplement_of_findSome? hleaves hchain hnodup hfound
  have hsegments := h.tree.coherent.chainModels hchain
  have hr : r ≤ chain.length := by
    obtain ⟨blockHash, -, hindex⟩ := List.exists_of_findSome?_eq_some hfound
    obtain ⟨hlt, -⟩ := List.findIdx?_eq_some_iff_getElem.mp hindex
    rw [blockHashes, List.length_map] at hlt
    omega
  rw [Core.findBlockchainSupplementHashes, hleaves]
  simp only [show Core.findBlockchainSupplement state remoteBlockIds = pure r from hsupplement, pure_bind,
    hsegments.getTopBlockIndex, hsegments.getBlockHashes hr, UInt64.toNat_toUInt32]
  rw [List.map_take, List.map_drop, chainInfos_map_blockHash]
  rfl

theorem CoreInvariant.handleRequestChain (hnodup : (blockHashes chain).Nodup) {blockIds : List Hash} {genesis : Hash}
    (hgenesis : (blockHashes chain)[0]? = some genesis) (hlast : blockIds.getLast? = some genesis) {r : Nat}
    (hfound : blockIds.findSome? (fun blockHash => (blockHashes chain).findIdx? (· == blockHash)) = some r)
    (context : CryptoNoteConnectionContext) :
    handleRequestChain state context blockIds =
      .ok (context, some ⟨UInt32.ofNat r, UInt32.ofNat (chain.length - 1) + 1,
        ((blockHashes chain).drop r).take BLOCKS_IDS_SYNCHRONIZING_DEFAULT_COUNT⟩) := by
  rw [Crygcoin.handleRequestChain, hlast]
  dsimp only
  rw [if_neg (by rw [h.getBlockHashByIndex hleaves hchain, hgenesis]; exact not_not_intro rfl),
    h.findBlockchainSupplementHashes_of_findSome? hleaves hchain hnodup hfound]
  rfl

end MainChain

/-! ### The exchange -/

theorem lastResponseHeight_le {r n total : Nat} (hn : 1 ≤ n) (hrn : r + n ≤ total) (htotal : total < 2 ^ 32) :
    ¬(UInt32.ofNat r + UInt32.ofNat n - 1 > UInt32.ofNat (total - 1) + 1) := by
  have hr : (UInt32.ofNat r).toNat = r := UInt32.toNat_ofNat_of_lt' (by change _ < 2 ^ 32; omega)
  have hn' : (UInt32.ofNat n).toNat = n := UInt32.toNat_ofNat_of_lt' (by change _ < 2 ^ 32; omega)
  have htotal' : (UInt32.ofNat (total - 1)).toNat = total - 1 := UInt32.toNat_ofNat_of_lt' (by change _ < 2 ^ 32; omega)
  rw [gt_iff_lt, UInt32.lt_iff_toNat_lt, not_lt]
  simp only [UInt32.toNat_add, UInt32.toNat_sub, hr, hn', htotal', UInt32.toNat_one]
  omega

/-- Two nodes with the invariant whose main chains `L` and `R` are linked and part at `f`: the node
of `R` asks with its sparse chain, and the node of `L` neither refuses the request nor answers
anything but the hashes of `L` from a height at most `f`, which the node of `R` takes without
dropping the connection. -/
theorem chainRequest_keeps_connection {envL envR : CoreEnvironment} {localState remoteState : CoreState}
    {chainsL chainsR : List (List PushedBlock)} (hL : CoreInvariant envL localState chainsL)
    (hR : CoreInvariant envR remoteState chainsR) {leafL leafR : Nat} {alternativesL alternativesR : List Nat}
    (hleavesL : localState.chainsLeaves = leafL :: alternativesL)
    (hleavesR : remoteState.chainsLeaves = leafR :: alternativesR) {L R : List PushedBlock}
    (hchainL : chainsL[leafL]? = some L) (hchainR : chainsR[leafR]? = some R)
    (hnodupL : (blockHashes L).Nodup) (hnodupR : (blockHashes R).Nodup)
    (hlinked : ChainsLinked (blockHashes L) (blockHashes R)) {f : Nat}
    (hfork : IsForkIndex (blockHashes L) (blockHashes R) f) (htop : R.length - 1 ≤ 2 ^ 31) (hsize : L.length < 2 ^ 32)
    {fuel : Nat} (hfuel : 31 ≤ fuel) (contextL contextR : CryptoNoteConnectionContext) :
    ∃ sparseChain entry, Core.buildSparseChain remoteState fuel = some sparseChain ∧
      handleRequestChain localState contextL sparseChain = .ok (contextL, some entry) ∧
      (∃ r ≤ f, entry = ⟨UInt32.ofNat r, UInt32.ofNat (L.length - 1) + 1,
        ((blockHashes L).drop r).take BLOCKS_IDS_SYNCHRONIZING_DEFAULT_COUNT⟩) ∧
      ((handleResponseChainEntry (Core.hasBlock remoteState) contextR entry).1.state = contextR.state ∨
        (handleResponseChainEntry (Core.hasBlock remoteState) contextR entry).1.state = .normal) := by
  have hlengthR : (blockHashes R).length = R.length := List.length_map _
  have hlengthL : (blockHashes L).length = L.length := List.length_map _
  have hfL := hfork.1
  have hagree := hfork.2.2.1
  -- the sparse chain of the node of `R`
  obtain ⟨sc, hsc⟩ : ∃ sc, (sparseOffsets (R.length - 1)).mapM (fun o => (blockHashes R)[R.length - 1 - o]?) =
      some sc := exists_mapM_eq_some fun o _ => by
    have hfR := hfork.2.1
    rw [List.getElem?_eq_getElem (by omega), Option.isSome_some]
  have hbuild := (hR.buildSparseChain hleavesR hchainR hnodupR htop hfuel).trans hsc
  -- it ends with the genesis block, which the two chains share
  have hagreeAt : ∀ i ≤ f, (blockHashes R)[i]? = (blockHashes L)[i]? := fun i hi => by
    rw [← List.getElem?_take_of_lt (Nat.lt_succ_of_le hi), ← hagree, List.getElem?_take_of_lt (Nat.lt_succ_of_le hi)]
  obtain ⟨genesis, hgenesis⟩ : ∃ genesis, (blockHashes L)[0]? = some genesis :=
    ⟨_, List.getElem?_eq_getElem (by omega)⟩
  have hlast : sc.getLast? = some genesis := by
    rw [getLast?_of_mapM_eq_some hsc, getLast?_sparseOffsets, Option.bind_some, Nat.sub_self,
      hagreeAt 0 (Nat.zero_le f), hgenesis]
  -- the node of `L` finds in it a block of its main chain, at most at the fork
  obtain ⟨r, hfound, hrf, -, -⟩ := findSome?_sparseOffsets hnodupL hlinked hfork
  rw [hlengthR] at hfound
  have hsearch : sc.findSome? (fun blockHash => (blockHashes L).findIdx? (· == blockHash)) = some r := by
    rw [findSome?_of_mapM_eq_some hsc, hfound]
  refine ⟨sc, ⟨UInt32.ofNat r, UInt32.ofNat (L.length - 1) + 1,
    ((blockHashes L).drop r).take BLOCKS_IDS_SYNCHRONIZING_DEFAULT_COUNT⟩, hbuild,
    hL.handleRequestChain hleavesL hchainL hnodupL hgenesis hlast hsearch contextL, ⟨r, hrf, rfl⟩, ?_⟩
  -- the answer starts with a block the node of `R` holds
  have hrL : r < (blockHashes L).length := by omega
  have hids : ((blockHashes L).drop r).take BLOCKS_IDS_SYNCHRONIZING_DEFAULT_COUNT =
      (blockHashes L)[r] :: ((blockHashes L).drop (r + 1)).take (BLOCKS_IDS_SYNCHRONIZING_DEFAULT_COUNT - 1) := by
    rw [List.drop_eq_getElem_cons hrL]
    rfl
  have hknown : Core.hasBlock remoteState (blockHashes L)[r] = true := by
    have hat : (blockHashes R)[r]? = some (blockHashes L)[r] := by
      rw [hagreeAt r hrf, List.getElem?_eq_getElem hrL]
    exact Core.hasBlock_of_leaf (by rw [hleavesR]; exact List.mem_cons_self)
      (hR.tree.coherent.findIndexInChain_isSome hchainR hnodupR (List.mem_of_getElem? hat))
  apply handleResponseChainEntry_state hids hknown
  -- and claims no height above the total
  have hcount : ((blockHashes L).drop r).take BLOCKS_IDS_SYNCHRONIZING_DEFAULT_COUNT ≠ [] := by
    rw [hids]
    exact List.cons_ne_nil _ _
  apply lastResponseHeight_le (List.length_pos_iff.mpr hcount) _ hsize
  rw [List.length_take, List.length_drop]
  omega

/-- The node on blocks 1 to 6 sends the sparse chain of its top to the node on blocks 1, 2, 3 and
13, which answers its chain from height 2, below the fork after height 3. -/
theorem chainRequest_keeps_connection_fork :
    let L := (genesisRun localForkBlocks).2.headD []
    let context : CryptoNoteConnectionContext := ⟨1, .synchronizing, [], ∅, 0, 0⟩
    ∃ sparseChain entry, Core.buildSparseChain (genesisRun remoteForkBlocks).1 31 = some sparseChain ∧
      handleRequestChain (genesisRun localForkBlocks).1 context sparseChain = .ok (context, some entry) ∧
      (∃ r ≤ 3, entry = ⟨UInt32.ofNat r, UInt32.ofNat (L.length - 1) + 1,
        ((blockHashes L).drop r).take BLOCKS_IDS_SYNCHRONIZING_DEFAULT_COUNT⟩) ∧
      ((handleResponseChainEntry (Core.hasBlock (genesisRun remoteForkBlocks).1) context entry).1.state =
          context.state ∨
        (handleResponseChainEntry (Core.hasBlock (genesisRun remoteForkBlocks).1) context entry).1.state = .normal) := by
  intro L context
  obtain ⟨hleavesL, hleavesR, hchainL, hchainR, hhashesL, hhashesR⟩ := forkRuns_chains
  exact chainRequest_keeps_connection (genesisRun_invariant _) (genesisRun_invariant _) hleavesL hleavesR
    hchainL hchainR (by rw [hhashesL]; decide +kernel) (by rw [hhashesR]; decide +kernel) forkRuns_linked
    forkRuns_forkIndex (by decide +kernel) (by decide +kernel) (le_refl 31) context context

end Crygcoin
