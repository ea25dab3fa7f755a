import Crygcoin.BlockMatching

namespace Crygcoin

/-! `SynchronizationStatus` of the wallet backend: the hashes of the blocks the wallet has scanned,
the last 100 and one every 5000 heights, newest first. The wallet sends them to the daemon, whose
`findBlockchainSupplement` answers the height of the first one on its main chain; the wallet
then resumes from there. When the daemon's main chain forked away from the wallet's blocks, the
answer is the fork itself while the fork is less than 100 blocks deep, and the checkpoint at or
below it otherwise. -/

def LAST_KNOWN_BLOCK_HASHES_SIZE : Nat := 100

def BLOCK_HASH_CHECKPOINTS_INTERVAL : UInt32 := 5000

/-- `SynchronizationStatus`, its three members; the two `std::deque`s are lists, newest first. -/
structure SynchronizationStatus where
  blockHashCheckpoints : List Hash
  lastKnownBlockHashes : List Hash
  lastKnownBlockHeight : UInt64
deriving DecidableEq, Repr

namespace SynchronizationStatus

/-- A status before any block, as the class is default constructed. -/
def empty : SynchronizationStatus := ⟨[], [], 0⟩

def getHeight (status : SynchronizationStatus) : UInt64 :=
  status.lastKnownBlockHeight

/-- `storeBlockHash(hash, height)`. A height above the last one must follow it, unless the last one
is `0`; a height at or below it is a fork, which only rewinds the height. -/
def storeBlockHash (status : SynchronizationStatus) (hash : Hash) (height : UInt64) :
    Except String SynchronizationStatus :=
  if height > status.lastKnownBlockHeight ∧ status.lastKnownBlockHeight ≠ 0 ∧
      height ≠ status.lastKnownBlockHeight + 1 then
    throw ("Blocks were missed in syncing process! Expected: " ++ toString (status.lastKnownBlockHeight + 1) ++
      ", Received: " ++ toString height ++ ".\nPossibly malicious daemon. Terminating.")
  else
    let lastKnownBlockHashes := hash :: status.lastKnownBlockHashes
    pure
      { blockHashCheckpoints :=
          if height % BLOCK_HASH_CHECKPOINTS_INTERVAL.toUInt64 = 0 then hash :: status.blockHashCheckpoints
          else status.blockHashCheckpoints
        lastKnownBlockHashes :=
          -- over capacity the oldest hash goes
          if lastKnownBlockHashes.length > LAST_KNOWN_BLOCK_HASHES_SIZE then lastKnownBlockHashes.dropLast
          else lastKnownBlockHashes
        lastKnownBlockHeight := height }

/-- `getBlockHashCheckpoints`: the last hashes, then the checkpoints. -/
def getBlockHashCheckpoints (status : SynchronizationStatus) : List Hash :=
  status.lastKnownBlockHashes ++ status.blockHashCheckpoints

/-- What `processBlock` does to the status for each block the daemon sends, in order: the first
that throws stops the run. -/
def sync (status : SynchronizationStatus) (blocks : List (Hash × UInt64)) : Except String SynchronizationStatus :=
  blocks.foldlM (fun status block => status.storeBlockHash block.1 block.2) status

/-- The blocks of a chain of hashes, each at its height from the genesis block. -/
def blocksFromGenesis (hashes : List Hash) : List (Hash × UInt64) :=
  hashes.zipIdx.map fun block => (block.1, UInt64.ofNat block.2)

/-- The checkpoints of a chain of hashes: those at the heights the interval divides, newest first. -/
def checkpointsOf (hashes : List Hash) : List Hash :=
  ((hashes.zipIdx.filter fun block => block.2 % BLOCK_HASH_CHECKPOINTS_INTERVAL.toNat = 0).map (·.1)).reverse

theorem checkpointsOf_append_singleton (hashes : List Hash) (hash : Hash) :
    checkpointsOf (hashes ++ [hash]) =
      if hashes.length % BLOCK_HASH_CHECKPOINTS_INTERVAL.toNat = 0 then hash :: checkpointsOf hashes
      else checkpointsOf hashes := by
  unfold checkpointsOf
  rw [List.zipIdx_append, List.filter_append]
  split_ifs with hdivides <;> simp [hdivides]

theorem blocksFromGenesis_append_singleton (hashes : List Hash) (hash : Hash) :
    blocksFromGenesis (hashes ++ [hash]) = blocksFromGenesis hashes ++ [(hash, UInt64.ofNat hashes.length)] := by
  simp [blocksFromGenesis, List.zipIdx_append]

theorem dropLast_cons_take {α : Type} (a : α) (l : List α) (n : Nat) (hn : 0 < n) :
    (if (a :: l.take n).length > n then (a :: l.take n).dropLast else a :: l.take n) = (a :: l).take n := by
  split_ifs with hover
  · -- the list was full: its oldest entry goes
    have hlong : n ≤ l.length := by
      simp only [List.length_cons, List.length_take] at hover
      omega
    obtain ⟨m, rfl⟩ : ∃ m, n = m + 1 := ⟨n - 1, by omega⟩
    have hfull : (a :: l.take (m + 1)).length - 1 = m + 1 := by
      simp only [List.length_cons, List.length_take]
      omega
    rw [List.dropLast_eq_take, hfull, List.take_succ_cons, List.take_succ_cons, List.take_take,
      Nat.min_eq_left (Nat.le_succ m)]
  · have hshort : l.length < n := by
      simp only [List.length_cons, List.length_take, gt_iff_lt, not_lt] at hover
      omega
    rw [List.take_of_length_le (by omega), List.take_of_length_le (by simp; omega)]

theorem storeBlockHash_next (status : SynchronizationStatus) (hash : Hash) {height : Nat}
    (hheight : height < 2 ^ 64) (hlast : status.lastKnownBlockHeight.toNat = height - 1) :
    status.storeBlockHash hash (UInt64.ofNat height) =
      .ok { blockHashCheckpoints :=
              if height % BLOCK_HASH_CHECKPOINTS_INTERVAL.toNat = 0 then hash :: status.blockHashCheckpoints
              else status.blockHashCheckpoints
            lastKnownBlockHashes :=
              if (hash :: status.lastKnownBlockHashes).length > LAST_KNOWN_BLOCK_HASHES_SIZE then
                (hash :: status.lastKnownBlockHashes).dropLast
              else hash :: status.lastKnownBlockHashes
            lastKnownBlockHeight := UInt64.ofNat height } := by
  have htoNat : (UInt64.ofNat height).toNat = height := UInt64.toNat_ofNat_of_lt' hheight
  -- the height follows the last one, so nothing is missed
  have hfollows : ¬(UInt64.ofNat height > status.lastKnownBlockHeight ∧ status.lastKnownBlockHeight ≠ 0 ∧
      UInt64.ofNat height ≠ status.lastKnownBlockHeight + 1) := by
    rintro ⟨-, hnonzero, hgap⟩
    apply hgap
    apply UInt64.toNat_inj.mp
    have hpos : status.lastKnownBlockHeight.toNat ≠ 0 := fun hzero => hnonzero (UInt64.toNat_inj.mp hzero)
    rw [UInt64.toNat_add, htoNat, hlast, UInt64.toNat_one, Nat.mod_eq_of_lt (by omega)]
    omega
  have hinterval : (UInt64.ofNat height % BLOCK_HASH_CHECKPOINTS_INTERVAL.toUInt64 = 0) ↔
      height % BLOCK_HASH_CHECKPOINTS_INTERVAL.toNat = 0 := by
    rw [← UInt64.toNat_inj, UInt64.toNat_mod, htoNat]
    rfl
  rw [storeBlockHash, if_neg hfollows, if_congr hinterval rfl rfl]
  rfl

theorem sync_blocksFromGenesis {hashes : List Hash} (hsize : hashes.length ≤ 2 ^ 64) :
    empty.sync (blocksFromGenesis hashes) =
      .ok ⟨checkpointsOf hashes, hashes.reverse.take LAST_KNOWN_BLOCK_HASHES_SIZE, UInt64.ofNat (hashes.length - 1)⟩ := by
  -- induction on the chain from its top: each block is one `storeBlockHash` at the next height
  induction hashes using List.reverseRecOn with
  | nil => rfl
  | append_singleton hashes hash ih =>
    simp only [List.length_append, List.length_singleton] at hsize
    rw [blocksFromGenesis_append_singleton, sync, List.foldlM_append, ← sync, ih (by omega)]
    simp only [List.foldlM_cons, List.foldlM_nil, bind, Except.bind]
    rw [storeBlockHash_next _ hash (by omega) (UInt64.toNat_ofNat_of_lt' (by change _ < 2 ^ 64; omega))]
    simp only [pure, Except.pure, Except.ok.injEq, SynchronizationStatus.mk.injEq]
    refine ⟨(checkpointsOf_append_singleton hashes hash).symm, ?_, by simp⟩
    rw [List.reverse_append, List.reverse_singleton, List.singleton_append]
    exact dropLast_cons_take hash hashes.reverse LAST_KNOWN_BLOCK_HASHES_SIZE (by decide)

end SynchronizationStatus

/-! ### The daemon's answer -/

/-- The hashes of the main chain from the genesis block to the top, as `getBlockHashes(0, top + 1)`
on `chainsLeaves[0]` reads them. -/
def Core.mainChainHashes (state : CoreState) : List Hash :=
  match state.chainsLeaves with
  | [] => []
  | mainLeaf :: _ =>
    let mainChain := segmentsOf state.chainsStorage mainLeaf
    getBlockHashes mainChain 0 (getTopBlockIndex mainChain + 1)

section Daemon

variable {env : CoreEnvironment} {state : CoreState} {chains : List (List PushedBlock)} {mainLeaf : Nat}
  {alternatives : List Nat} {chain : List PushedBlock}

theorem CoreInvariant.mainChainHashes (h : CoreInvariant env state chains)
    (hleaves : state.chainsLeaves = mainLeaf :: alternatives) (hchain : chains[mainLeaf]? = some chain) :
    Core.mainChainHashes state = blockHashes chain := by
  have hmodels := h.tree.coherent.chainModels hchain
  rw [Core.mainChainHashes, hleaves]
  dsimp only
  rw [hmodels.getBlockHashes (Nat.zero_le _), hmodels.getTopBlockIndex, List.drop_zero, List.map_take,
    chainInfos_map_blockHash, List.take_of_length_le (by simp; omega)]
  rfl

theorem CoreInvariant.findBlockchainSupplement_of_findSome? (h : CoreInvariant env state chains)
    (hleaves : state.chainsLeaves = mainLeaf :: alternatives) (hchain : chains[mainLeaf]? = some chain)
    (hnodup : (blockHashes chain).Nodup) {remoteBlockIds : List Hash} {r : Nat}
    (hfound : remoteBlockIds.findSome? (fun blockHash => (blockHashes chain).findIdx? (· == blockHash)) = some r) :
    Core.findBlockchainSupplement state remoteBlockIds = .ok r := by
  have hsearch : remoteBlockIds.findSome? (Core.mainChainBlockIndex state) = some r := by
    rw [funext (h.mainChainBlockIndex hleaves hchain hnodup), hfound]
  have hne : remoteBlockIds ≠ [] := by
    rintro rfl
    cases hsearch
  rw [Core.findBlockchainSupplement, if_neg hne, Core.findBlockchainSupplementLoop_eq, hsearch]
  rfl

end Daemon

/-! ### Where the wallet resumes -/

section Resume

variable {α : Type} {g : α → Option Nat} {f : Nat}

theorem findSome?_reverse_take {ys : List α} (hfind : ∀ k a, ys[k]? = some a → g a = if k ≤ f then some k else none)
    (hf : f < ys.length) (n : Nat) :
    (ys.reverse.take n).findSome? g = if ys.length - 1 - f < n then some f else none := by
  induction ys using List.reverseRecOn generalizing n with
  | nil => cases hf
  | append_singleton ys a ih =>
    rw [List.length_append, List.length_singleton] at hf
    have htop : g a = if ys.length ≤ f then some ys.length else none :=
      hfind ys.length a (by rw [List.getElem?_append_right (le_refl _), Nat.sub_self]; rfl)
    rw [List.reverse_append, List.reverse_singleton, List.singleton_append, List.length_append, List.length_singleton]
    cases n with
    | zero => simp
    | succ n =>
      rw [List.take_succ_cons, List.findSome?_cons, htop]
      by_cases hatTop : ys.length ≤ f
      · -- the top of the chain is the fork
        rw [if_pos hatTop, if_pos (by omega), show f = ys.length by omega]
      · have hbelow : ∀ k b, ys[k]? = some b → g b = if k ≤ f then some k else none := fun k b hb =>
          hfind k b (by rw [List.getElem?_append_left (List.getElem?_eq_some_iff.mp hb).1]; exact hb)
        rw [if_neg hatTop, ih hbelow (by omega) n]
        exact if_congr (by omega) rfl rfl

theorem findSome?_checkpointsOf {ys : List Hash} {g : Hash → Option Nat}
    (hfind : ∀ k a, ys[k]? = some a → g a = if k ≤ f then some k else none) (hne : ys ≠ []) :
    (SynchronizationStatus.checkpointsOf ys).findSome? g =
      some (min f (ys.length - 1) - min f (ys.length - 1) % BLOCK_HASH_CHECKPOINTS_INTERVAL.toNat) := by
  have hinterval : BLOCK_HASH_CHECKPOINTS_INTERVAL.toNat = 5000 := rfl
  induction ys using List.reverseRecOn with
  | nil => exact absurd rfl hne
  | append_singleton ys a ih =>
    have htop : g a = if ys.length ≤ f then some ys.length else none :=
      hfind ys.length a (by rw [List.getElem?_append_right (le_refl _), Nat.sub_self]; rfl)
    have hbelow : ∀ k b, ys[k]? = some b → g b = if k ≤ f then some k else none := fun k b hb =>
      hfind k b (by rw [List.getElem?_append_left (List.getElem?_eq_some_iff.mp hb).1]; exact hb)
    rw [SynchronizationStatus.checkpointsOf_append_singleton, List.length_append, List.length_singleton,
      Nat.add_sub_cancel]
    by_cases hatTop : ys.length ≤ f
    · split_ifs with hdivides
      · -- the top is a checkpoint at or below the fork
        rw [List.findSome?_cons, htop, if_pos hatTop, Nat.min_eq_right hatTop, hdivides, Nat.sub_zero]
      · -- the top is no checkpoint: the last one lies below it, as height 0 is one
        have hys : ys ≠ [] := by
          rintro rfl
          exact hdivides rfl
        have hlength := List.length_pos_iff.mpr hys
        rw [ih hbelow hys, Nat.min_eq_right (by omega), Nat.min_eq_right hatTop, hinterval]
        rw [hinterval] at hdivides
        congr 1
        omega
    · -- the fork lies below the top, which is not found
      have hys : ys ≠ [] := by
        rintro rfl
        exact hatTop (Nat.zero_le f)
      have hlength := List.length_pos_iff.mpr hys
      have hrest := ih hbelow hys
      rw [Nat.min_eq_left (by omega)] at hrest
      rw [Nat.min_eq_left (by omega)]
      split_ifs
      · rw [List.findSome?_cons, htop, if_neg hatTop]
        exact hrest
      · exact hrest

theorem chainsLinked_of_getElem? {xs ys : List α}
    (h : ∀ i, i < xs.length → ∀ j, j < ys.length → xs[i]? = ys[j]? → i = j ∧ xs.take i = ys.take j) :
    ChainsLinked xs ys := by
  intro i j a hi hj
  exact h i (List.getElem?_eq_some_iff.mp hi).1 j (List.getElem?_eq_some_iff.mp hj).1 (hi.trans hj.symm)

end Resume

section Runs

variable {env : CoreEnvironment} {genesisBlock : CachedBlock} {rawGenesis : RawBlock} {state : CoreState}

/-- A wallet that scanned a chain of hashes from the genesis block, asking the daemon of any
reachable state where to resume, is told the fork between that chain and the daemon's main chain
when the fork is less than `LAST_KNOWN_BLOCK_HASHES_SIZE` blocks below the wallet's top, and the
last checkpoint at or below the fork otherwise. The scan itself never throws. -/
theorem getBlockHashCheckpoints_resumes_at_fork (hgenesis : genesisBlock.getBlockIndex = 0)
    (hrun : Core.Reachable env genesisBlock rawGenesis state) {walletHashes : List Hash}
    (hlinked : ChainsLinked (Core.mainChainHashes state) walletHashes) {f : Nat}
    (hfork : IsForkIndex (Core.mainChainHashes state) walletHashes f) (hsize : walletHashes.length ≤ 2 ^ 64) :
    ∃ status, SynchronizationStatus.empty.sync (SynchronizationStatus.blocksFromGenesis walletHashes) = .ok status ∧
      Core.findBlockchainSupplement state status.getBlockHashCheckpoints =
        .ok (if walletHashes.length - 1 - f < LAST_KNOWN_BLOCK_HASHES_SIZE then f
          else f - f % BLOCK_HASH_CHECKPOINTS_INTERVAL.toNat) := by
  obtain ⟨chains, h⟩ := hrun.matchingInvariant hgenesis
  -- the daemon has a main leaf, as its main chain holds the fork
  obtain ⟨mainLeaf, alternatives, hleaves⟩ : ∃ mainLeaf alternatives, state.chainsLeaves = mainLeaf :: alternatives := by
    cases hl : state.chainsLeaves with
    | nil =>
      have hlength := hfork.1
      rw [Core.mainChainHashes, hl] at hlength
      exact absurd hlength (Nat.not_lt_zero f)
    | cons mainLeaf alternatives => exact ⟨mainLeaf, alternatives, rfl⟩
  obtain ⟨cache, hcache, -⟩ := (h.core.leaves mainLeaf).mp (by rw [hleaves]; exact List.mem_cons_self)
  obtain ⟨chain, hchain⟩ := h.core.tree.coherent.chain_of_cache hcache
  have hnodup := BlockMatching.nodup h.matching hchain
  rw [h.core.mainChainHashes hleaves hchain] at hlinked hfork
  refine ⟨_, SynchronizationStatus.sync_blocksFromGenesis hsize,
    h.core.findBlockchainSupplement_of_findSome? hleaves hchain hnodup ?_⟩
  -- a hash the wallet sends is found exactly when it stands at or below the fork
  have hfind := fun k a (hk : walletHashes[k]? = some a) => findIdx?_of_chainsLinked hnodup hlinked hfork hk
  have hf := hfork.2.1
  rw [SynchronizationStatus.getBlockHashCheckpoints, List.findSome?_append, findSome?_reverse_take hfind hf,
    findSome?_checkpointsOf hfind (List.ne_nil_of_length_pos (by omega)), Nat.min_eq_left (by omega)]
  split_ifs
  · rfl
  · rfl

/-- A wallet that followed the branch of the run that loses the main chain resumes at the genesis
block, where the two branches part. -/
theorem getBlockHashCheckpoints_resumes_at_fork_switch :
    let walletHashes := [hashOf 100, hashOf 1, hashOf 3]
    ChainsLinked (Core.mainChainHashes switchRun) walletHashes ∧ IsForkIndex (Core.mainChainHashes switchRun) walletHashes 0 ∧
      walletHashes.length ≤ 2 ^ 64 ∧
      ∃ status, SynchronizationStatus.empty.sync (SynchronizationStatus.blocksFromGenesis walletHashes) = .ok status ∧
        Core.findBlockchainSupplement switchRun status.getBlockHashCheckpoints =
          .ok (if walletHashes.length - 1 - 0 < LAST_KNOWN_BLOCK_HASHES_SIZE then 0
            else 0 - 0 % BLOCK_HASH_CHECKPOINTS_INTERVAL.toNat) :=
  have hmain : Core.mainChainHashes switchRun = [hashOf 100, hashOf 2, hashOf 4, hashOf 5] := by decide +kernel
  have hlinked : ChainsLinked (Core.mainChainHashes switchRun) [hashOf 100, hashOf 1, hashOf 3] := by
    rw [hmain]
    exact chainsLinked_of_getElem? (by decide)
  have hfork : IsForkIndex (Core.mainChainHashes switchRun) [hashOf 100, hashOf 1, hashOf 3] 0 := by
    rw [hmain]
    refine ⟨by decide, by decide, rfl, fun a ha => ?_⟩
    cases ha
    decide
  have hsize : [hashOf 100, hashOf 1, hashOf 3].length ≤ 2 ^ 64 := by decide
  ⟨hlinked, hfork, hsize, getBlockHashCheckpoints_resumes_at_fork rfl (Core.Reachable.init.addBlocks _) hlinked hfork hsize⟩

end Runs

end Crygcoin
