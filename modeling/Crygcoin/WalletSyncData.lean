import Crygcoin.SparseChain
import Crygcoin.DatabaseCache
import Crygcoin.SyncProtocol

namespace Crygcoin

/-! `Core::getWalletSyncData`: the blocks a wallet downloads, from the block after the last hash it
knows, from a height, or from a timestamp. A timestamp becomes a height through
`getBlockHeightForTimestamp` of the main chain: an in-memory segment answers from its own block
infos or asks its parent, and the root, kept in the database, answers from the table of the first
block of each day. -/

/-- `DatabaseBlockchainCache::getBlockHeightForTimestamp`: the entry of the table of the first
block of each day under the midnight of `timestamp`; a day without one answers `(false, 0)`. -/
def DatabaseBlockchainCache.getBlockHeightForTimestamp (db : Database) (timestamp : UInt64) :
    Except String (Bool × UInt64) := do
  let midnight ← roundToMidnight timestamp
  let closest := requestClosestBlockIndexByTimestamp midnight db
  if !closest.2 then throw "Couldn't get closest to timestamp block index"
  match closest.1 with
  | none => pure (false, 0)
  | some blockHeight => pure (true, blockHeight.toUInt64)

/-- `BlockchainCache::getBlockHeightForTimestamp` on a segment followed by its ancestors, the last
of which is the root in the database. The `lower_bound` over the infos, sorted by timestamp, is the
length of their prefix older than `timestamp`. The segments of a chain are never empty; an empty
one, whose `front()` is undefined, answers `(false, 0)`, as does a segment without parent. -/
def getBlockHeightForTimestamp (db : Database) : List BlockchainCache → UInt64 → Except String (Bool × UInt64)
  | [], _ => pure (false, 0)
  | [_], timestamp => DatabaseBlockchainCache.getBlockHeightForTimestamp db timestamp
  | cache :: parent :: parents, timestamp =>
    match cache.blockInfos.head?, cache.blockInfos.getLast? with
    | some front, some back =>
      if back.timestamp < timestamp then pure (false, 0)
      else if front.timestamp ≥ timestamp then
        pure (true, UInt64.ofNat (cache.startIndex + (cache.blockInfos.takeWhile (·.timestamp < timestamp)).length))
      else getBlockHeightForTimestamp db (parent :: parents) timestamp
    | _, _ => pure (false, 0)

/-- `getBlocksByHeight(startHeight, endHeight)` on a segment followed by its ancestors: the raw
blocks of the heights from `startHeight` below `endHeight` that the segments hold, the parent's
first. The root in the database reads the same range; no caller asks it past its top block. -/
def getBlocksByHeight : List BlockchainCache → Nat → Nat → List RawBlock
  | [], _, _ => []
  | cache :: parents, startHeight, endHeight =>
    if endHeight < cache.startIndex then getBlocksByHeight parents startHeight endHeight
    else
      let blocks := if startHeight < cache.startIndex then
        getBlocksByHeight parents startHeight cache.startIndex else []
      let startOffset := max startHeight cache.startIndex
      -- the storage bounds the range: the block might not exist yet
      let endHeight := min endHeight (cache.startIndex + cache.storage.length)
      blocks ++ (cache.storage.drop (startOffset - cache.startIndex)).take (endHeight - startOffset)

/-- `WalletTypes::WalletBlockInfo`: the height `getWalletSyncData` gives a block, with the raw block
its hash, timestamp and transactions are decoded from. -/
structure WalletBlockInfo where
  rawBlock : RawBlock
  blockHeight : UInt64
deriving DecidableEq, Repr

/-- The loop over the raw blocks, each taking the height `startIndex++`. -/
def walletBlocksFrom : UInt64 → List RawBlock → List WalletBlockInfo
  | _, [] => []
  | startIndex, rawBlock :: rawBlocks => ⟨rawBlock, startIndex⟩ :: walletBlocksFrom (startIndex + 1) rawBlocks

/-- `actualBlockCount`: at most the default count, and the default for `0`. -/
def actualBlockCount (blockCount : UInt64) : UInt64 :=
  let actualBlockCount := min (UInt64.ofNat BLOCKS_SYNCHRONIZING_DEFAULT_COUNT) blockCount
  if actualBlockCount = 0 then UInt64.ofNat BLOCKS_SYNCHRONIZING_DEFAULT_COUNT else actualBlockCount

namespace Core

/-- The `try` block of `Core::getWalletSyncData`: the wallet blocks, or the message of what threw.
An empty `chainsLeaves`, which the source indexes anyway, throws. -/
def walletSyncBlocks (db : Database) (state : CoreState) (knownBlockHashes : List Hash)
    (startHeight startTimestamp blockCount : UInt64) : Except String (List WalletBlockInfo) := do
  let mainLeaf :: _ := state.chainsLeaves | throw "no main chain"
  let mainChain := segmentsOf state.chainsStorage mainLeaf
  let currentIndex := UInt64.ofNat (getTopBlockIndex mainChain)
  let timestampHeight ← getBlockHeightForTimestamp db mainChain startTimestamp
  let timestampBlockHeight := if startTimestamp = 0 then 0 else timestampHeight.2
  -- the node is taken to be behind the timestamp: no blocks until it has synced
  if startTimestamp ≠ 0 ∧ !timestampHeight.1 then
    pure []
  else
    let firstBlockHeight := if startHeight = 0 then timestampBlockHeight else startHeight
    let lastKnownBlockHashHeight := UInt64.ofNat (← findBlockchainSupplement state knownBlockHashes)
    let startIndex :=
      max (if lastKnownBlockHashHeight = 0 then 0 else lastKnownBlockHashHeight + 1) firstBlockHeight
    let blockDifference := currentIndex - startIndex
    let endIndex := min (actualBlockCount blockCount) (blockDifference + 1) + startIndex
    if currentIndex < startIndex then
      pure []
    else
      pure (walletBlocksFrom startIndex (getBlocksByHeight mainChain startIndex.toNat endIndex.toNat))

/-- `Core::getWalletSyncData`: `true` with the wallet blocks, or `false` once something threw. -/
def getWalletSyncData (db : Database) (state : CoreState) (knownBlockHashes : List Hash)
    (startHeight startTimestamp blockCount : UInt64) : Bool × List WalletBlockInfo :=
  match walletSyncBlocks db state knownBlockHashes startHeight startTimestamp blockCount with
  | .ok walletBlocks => (true, walletBlocks)
  | .error _ => (false, [])

end Core

/-- The table of the first block of each day that `DatabaseBlockchainCache::pushBlock` fills: a
block whose day has no entry yet enters its index under the day's midnight. -/
def firstBlockOfDay (infos : List CachedBlockInfo) (midnight : UInt64) : Option UInt32 :=
  (infos.findIdx? fun info => info.timestamp / ONE_DAY_SECONDS * ONE_DAY_SECONDS == midnight).map UInt32.ofNat

theorem firstBlockOfDay_eq_none {infos : List CachedBlockInfo} {midnight : UInt64} :
    firstBlockOfDay infos midnight = none ↔
      ∀ info ∈ infos, info.timestamp / ONE_DAY_SECONDS * ONE_DAY_SECONDS ≠ midnight := by
  simp [firstBlockOfDay, List.findIdx?_eq_none_iff]

/-! ### The height of a timestamp -/

section Timestamp

variable {db : Database} {timestamp : UInt64}

theorem DatabaseBlockchainCache.getBlockHeightForTimestamp_of_none (hsize : timestamp.toNat ≤ 2 ^ 63 - 1)
    (hnone : db.closestTimestampBlockIndex (timestamp / ONE_DAY_SECONDS * ONE_DAY_SECONDS) = .ok none) :
    DatabaseBlockchainCache.getBlockHeightForTimestamp db timestamp = .ok (false, 0) := by
  rw [DatabaseBlockchainCache.getBlockHeightForTimestamp, roundToMidnight_of_le hsize, ok_bind]
  simp [requestClosestBlockIndexByTimestamp, hnone]

/-- On a database whose table is that of the blocks `infos`, a timestamp on a day of none of them
finds no height. -/
theorem DatabaseBlockchainCache.getBlockHeightForTimestamp_of_day_without_block {infos : List CachedBlockInfo}
    (hdb : ∀ midnight, db.closestTimestampBlockIndex midnight = .ok (firstBlockOfDay infos midnight))
    (hday : ∀ info ∈ infos,
      info.timestamp / ONE_DAY_SECONDS * ONE_DAY_SECONDS ≠ timestamp / ONE_DAY_SECONDS * ONE_DAY_SECONDS)
    (hsize : timestamp.toNat ≤ 2 ^ 63 - 1) :
    DatabaseBlockchainCache.getBlockHeightForTimestamp db timestamp = .ok (false, 0) :=
  getBlockHeightForTimestamp_of_none hsize ((hdb _).trans (congrArg Except.ok (firstBlockOfDay_eq_none.mpr hday)))

/-- A timestamp after the first block of a segment and not after its last is looked up in the
parent, which holds older blocks only. -/
theorem getBlockHeightForTimestamp_inside {cache parent : BlockchainCache} {parents : List BlockchainCache}
    {front back : CachedBlockInfo} (hfront : cache.blockInfos.head? = some front)
    (hback : cache.blockInfos.getLast? = some back) (hafter : front.timestamp < timestamp)
    (hbefore : timestamp ≤ back.timestamp) :
    getBlockHeightForTimestamp db (cache :: parent :: parents) timestamp =
      getBlockHeightForTimestamp db (parent :: parents) timestamp := by
  rw [getBlockHeightForTimestamp, hfront, hback]
  simp only [if_neg (UInt64.not_lt.mpr hbefore), ge_iff_le, if_neg (UInt64.not_le.mpr hafter)]

end Timestamp

/-! ### The blocks of a range of heights -/

theorem drop_take_append {α : Type} (l : List α) {s m e : Nat} (hsm : s ≤ m) (hme : m ≤ e) :
    (l.drop s).take (m - s) ++ (l.drop m).take (e - m) = (l.drop s).take (e - s) := by
  have hsplit : e - s = (m - s) + (e - m) := by omega
  rw [hsplit, List.take_add, List.drop_drop]
  congr 3
  omega

/-- `getBlocksByHeight` reads the raw blocks of the chain the segments hold, from `startHeight`
below `endHeight` and the chain's length. -/
theorem ChainModels.getBlocksByHeight {segments : List BlockchainCache} {chain : List PushedBlock}
    (h : ChainModels segments chain) (startHeight endHeight : Nat) :
    Crygcoin.getBlocksByHeight segments startHeight endHeight =
      ((chain.drop startHeight).take (min endHeight chain.length - startHeight)).map (·.rawBlock) := by
  induction h generalizing startHeight endHeight with
  | @root cache chain hm hstart =>
    have hlength := hm.length
    rw [Crygcoin.getBlocksByHeight, if_neg (by omega), if_neg (by omega), hm.storage, hstart]
    simp only [List.drop_zero, List.length_map, Nat.zero_add, Nat.max_zero, Nat.sub_zero, List.nil_append,
      ← List.map_drop, ← List.map_take]
  | @cons cache parent parents chain hm hparent hlt ih =>
    have hlength := hm.length
    have hstart := hm.start_le
    rw [Crygcoin.getBlocksByHeight]
    split
    next hend =>
      -- the whole range lies below the segment
      rw [ih, List.length_take_of_le hstart, List.drop_take, List.take_take]
      congr 3
      omega
    next hend =>
      have hstorage : cache.storage = (chain.drop cache.startIndex).map (·.rawBlock) := by
        rw [hm.storage, List.map_drop]
      have hend' : min endHeight (cache.startIndex + cache.storage.length) = min endHeight chain.length := by
        rw [hstorage, List.length_map, List.length_drop]
        omega
      simp only [hend']
      split
      next hbelow =>
        -- the parent reads the heights below the segment, the segment the rest
        have hparentBlocks : Crygcoin.getBlocksByHeight (parent :: parents) startHeight cache.startIndex =
            ((chain.drop startHeight).take (cache.startIndex - startHeight)).map (·.rawBlock) := by
          rw [ih, List.length_take_of_le hstart, List.drop_take, List.take_take]
          congr 2
          omega
        rw [hparentBlocks, Nat.max_eq_right hbelow.le, Nat.sub_self, List.drop_zero, hstorage,
          ← List.map_take, ← List.map_append, drop_take_append chain hbelow.le (by omega)]
      next habove =>
        rw [Nat.max_eq_left (by omega), List.nil_append, hstorage, ← List.map_drop, List.drop_drop,
          ← List.map_take]
        congr 3
        omega

/-! ### What the wallet receives -/

namespace Core

section Sync

variable {db : Database} {state : CoreState} {knownBlockHashes : List Hash}
  {startHeight startTimestamp blockCount : UInt64} {mainLeaf : Nat} {alternatives : List Nat}

theorem walletSyncBlocks_cases (hleaves : state.chainsLeaves = mainLeaf :: alternatives)
    {walletBlocks : List WalletBlockInfo}
    (hsync : walletSyncBlocks db state knownBlockHashes startHeight startTimestamp blockCount = .ok walletBlocks) :
    walletBlocks = [] ∨ ∃ startIndex : UInt64,
      let mainChain := segmentsOf state.chainsStorage mainLeaf
      let currentIndex := UInt64.ofNat (getTopBlockIndex mainChain)
      startIndex ≤ currentIndex ∧ walletBlocks = walletBlocksFrom startIndex (getBlocksByHeight mainChain
        startIndex.toNat (min (actualBlockCount blockCount) (currentIndex - startIndex + 1) + startIndex).toNat) := by
  simp only [walletSyncBlocks, hleaves, bind_eq_ok] at hsync
  obtain ⟨timestampHeight, -, hsync⟩ := hsync
  split at hsync
  next => exact .inl (pure_eq_ok.mp hsync).symm
  next =>
    obtain ⟨lastKnown, -, hsync⟩ := bind_eq_ok.mp hsync
    generalize max (if UInt64.ofNat lastKnown = 0 then 0 else UInt64.ofNat lastKnown + 1) _ = startIndex at hsync
    split at hsync
    next => exact .inl (pure_eq_ok.mp hsync).symm
    next hle => exact .inr ⟨_, UInt64.not_lt.mp hle, (pure_eq_ok.mp hsync).symm⟩

/-- The blocks a wallet receives are consecutive blocks of the main chain, each under its own
height: from some start on, as many as the count asked for allows, up to the top block. -/
theorem getWalletSyncData_consecutive {env : CoreEnvironment} {chains : List (List PushedBlock)}
    (h : CoreInvariant env state chains) (hleaves : state.chainsLeaves = mainLeaf :: alternatives)
    {chain : List PushedBlock} (hchain : chains[mainLeaf]? = some chain) (hlength : chain.length < 2 ^ 64)
    {walletBlocks : List WalletBlockInfo}
    (hsync : getWalletSyncData db state knownBlockHashes startHeight startTimestamp blockCount = (true, walletBlocks)) :
    ∃ start : UInt64, walletBlocks = walletBlocksFrom start
      (((chain.drop start.toNat).take (min (actualBlockCount blockCount).toNat (chain.length - start.toNat))).map
        (·.rawBlock)) := by
  have hmodels := h.tree.coherent.chainModels hchain
  have hok : walletSyncBlocks db state knownBlockHashes startHeight startTimestamp blockCount = .ok walletBlocks := by
    unfold getWalletSyncData at hsync
    split at hsync
    next hok => rw [hok, (Prod.mk.inj hsync).2]
    next => cases hsync
  rcases walletSyncBlocks_cases hleaves hok with hnil | ⟨startIndex, hle, hblocks⟩
  · -- nothing is sent: the chain holds nothing from its length on
    refine ⟨UInt64.ofNat chain.length, ?_⟩
    rw [hnil, UInt64.toNat_ofNat_of_lt' hlength, List.drop_length, List.take_nil, List.map_nil, walletBlocksFrom]
  · refine ⟨startIndex, ?_⟩
    have htop : (UInt64.ofNat (getTopBlockIndex (segmentsOf state.chainsStorage mainLeaf))).toNat =
        chain.length - 1 := by
      rw [hmodels.getTopBlockIndex, UInt64.toNat_ofNat_of_lt' (lt_of_le_of_lt (Nat.sub_le _ _) hlength)]
    have hstart : startIndex.toNat ≤ chain.length - 1 := htop ▸ UInt64.le_iff_toNat_le.mp hle
    -- neither the difference nor the sums of the end index wrap around
    have hend : (min (actualBlockCount blockCount)
        (UInt64.ofNat (getTopBlockIndex (segmentsOf state.chainsStorage mainLeaf)) - startIndex + 1) +
          startIndex).toNat =
        min (actualBlockCount blockCount).toNat (chain.length - 1 - startIndex.toNat + 1) + startIndex.toNat := by
      rw [UInt64.toNat_add, UInt64.toNat_min, UInt64.toNat_add, UInt64.toNat_sub_of_le _ _ hle, htop,
        UInt64.toNat_one, Nat.mod_eq_of_lt (by omega), Nat.mod_eq_of_lt (by omega)]
    rw [hblocks, hmodels.getBlocksByHeight, hend]
    congr 4
    omega

/-- A timestamp for which the main chain finds no height sends nothing, whatever else the wallet
asks: the node takes itself to be behind the timestamp. -/
theorem getWalletSyncData_of_no_height {height : UInt64} (hleaves : state.chainsLeaves = mainLeaf :: alternatives)
    (hnonzero : startTimestamp ≠ 0)
    (hlookup : getBlockHeightForTimestamp db (segmentsOf state.chainsStorage mainLeaf) startTimestamp =
      .ok (false, height)) :
    getWalletSyncData db state knownBlockHashes startHeight startTimestamp blockCount = (true, []) := by
  have hsync : walletSyncBlocks db state knownBlockHashes startHeight startTimestamp blockCount = .ok [] := by
    simp [walletSyncBlocks, hleaves, hlookup, hnonzero, ok_bind]
  rw [getWalletSyncData, hsync]

/-- After a reorganisation the main chain's top segment is in memory, over the root in the
database. A timestamp after that segment's first block, on a day of which the root holds no block,
finds no height: whatever the wallet knows and asks for, it receives no block, although the segment
holds blocks at or after the timestamp. -/
theorem getWalletSyncData_stalls_inside_memory_segment {cache root : BlockchainCache}
    (hleaves : state.chainsLeaves = mainLeaf :: alternatives)
    (hmain : segmentsOf state.chainsStorage mainLeaf = [cache, root]) (hnonempty : cache.blockInfos ≠ [])
    (hafter : (cache.blockInfos.head hnonempty).timestamp < startTimestamp)
    (hbefore : startTimestamp ≤ (cache.blockInfos.getLast hnonempty).timestamp)
    (hdb : ∀ midnight, db.closestTimestampBlockIndex midnight = .ok (firstBlockOfDay root.blockInfos midnight))
    (hday : ∀ info ∈ root.blockInfos,
      info.timestamp / ONE_DAY_SECONDS * ONE_DAY_SECONDS ≠ startTimestamp / ONE_DAY_SECONDS * ONE_DAY_SECONDS)
    (hsize : startTimestamp.toNat ≤ 2 ^ 63 - 1) :
    getWalletSyncData db state knownBlockHashes startHeight startTimestamp blockCount = (true, []) := by
  have hnonzero : startTimestamp ≠ 0 := by
    rintro rfl
    exact UInt64.not_lt_zero hafter
  apply getWalletSyncData_of_no_height hleaves hnonzero
  -- the segment hands the timestamp to the root, whose table has no entry for its day
  rw [hmain, getBlockHeightForTimestamp_inside (List.head?_eq_some_head hnonempty)
    (List.getLast?_eq_some_getLast hnonempty) hafter hbefore]
  exact DatabaseBlockchainCache.getBlockHeightForTimestamp_of_day_without_block hdb hday hsize

/-- Without a reorganisation the main chain is the root alone, and a timestamp on a day without
any block finds no height either, although later blocks exist. -/
theorem getWalletSyncData_stalls_on_day_without_block {root : BlockchainCache}
    (hleaves : state.chainsLeaves = mainLeaf :: alternatives)
    (hmain : segmentsOf state.chainsStorage mainLeaf = [root])
    (hdb : ∀ midnight, db.closestTimestampBlockIndex midnight = .ok (firstBlockOfDay root.blockInfos midnight))
    (hday : ∀ info ∈ root.blockInfos,
      info.timestamp / ONE_DAY_SECONDS * ONE_DAY_SECONDS ≠ startTimestamp / ONE_DAY_SECONDS * ONE_DAY_SECONDS)
    (hsize : startTimestamp.toNat ≤ 2 ^ 63 - 1) (hnonzero : startTimestamp ≠ 0) :
    getWalletSyncData db state knownBlockHashes startHeight startTimestamp blockCount = (true, []) := by
  apply getWalletSyncData_of_no_height hleaves hnonzero
  rw [hmain]
  exact DatabaseBlockchainCache.getBlockHeightForTimestamp_of_day_without_block hdb hday hsize

end Sync

end Core

/-- The block `blockAt blockIndex tag previous` mined at `timestamp`. -/
def blockMinedAt (blockIndex : UInt32) (tag previous : UInt8) (timestamp : UInt64) : CachedBlock :=
  { blockAt blockIndex tag previous with
    block := { (blockAt blockIndex tag previous).block with timestamp := timestamp } }

/-- A node that took block 1 on day 0, then a longer branch of blocks 1 and 2 mined on days 2 and
3: the root keeps the genesis block, and the main chain's top segment, in memory, the branch. -/
def reorganisedNode : CoreState :=
  Core.addBlocks { openEnvironment ⟨[], List.nodup_nil⟩ 1 true with adjustedTime := 4 * 86400 }
    (Core.init (blockAt 0 100 0) (rawOf 100))
    [(blockAt 1 1 100, rawOf 1), (blockMinedAt 1 2 100 (2 * 86400), rawOf 2),
      (blockMinedAt 2 3 2 (3 * 86400), rawOf 3)]

/-- A database whose table of the first block of each day is the one `pushBlock` filled for the
block infos `infos`; its other reads, which `getWalletSyncData` does not make, find nothing. -/
def dayTableDatabase (infos : List CachedBlockInfo) : Database where
  lastBlockIndex := .ok none
  transactionsCount := .ok none
  cachedBlock _ := .ok none
  keyOutputGlobalIndexesCountForAmount _ := .ok none
  keyOutputAmountsCount := .ok 0
  transactionCountByPaymentId _ := .ok none
  blockHashesByTimestamp _ := .ok none
  closestTimestampBlockIndex midnight := .ok (firstBlockOfDay infos midnight)
  write _ := none

/-- The top block of the reorganised node's main chain, at index 2, is mined after the timestamp
`2 * 86400 + 1`; a wallet that starts from that timestamp receives no block. -/
theorem getWalletSyncData_stalls_after_reorganisation :
    getTopBlockIndex (segmentsOf reorganisedNode.chainsStorage 2) = 2 ∧
      (blockEntry (·.blockInfos) (segmentsOf reorganisedNode.chainsStorage 2) 2).map (·.timestamp) =
        some (3 * 86400) ∧
      Core.getWalletSyncData
          (dayTableDatabase (reorganisedNode.chainsStorage.getD 0 (BlockchainCache.create none 0)).blockInfos)
          reorganisedNode [] 0 (2 * 86400 + 1) 0 = (true, []) := by
  have hleaves : reorganisedNode.chainsLeaves = [2, 1] := by decide +kernel
  have hmain : segmentsOf reorganisedNode.chainsStorage 2 =
      [reorganisedNode.chainsStorage.getD 2 (BlockchainCache.create none 0),
        reorganisedNode.chainsStorage.getD 0 (BlockchainCache.create none 0)] := by
    decide +kernel
  exact ⟨by decide +kernel, by decide +kernel,
    Core.getWalletSyncData_stalls_inside_memory_segment hleaves hmain (by decide +kernel)
      (by decide +kernel) (by decide +kernel) (fun _ => rfl) (by decide +kernel) (by decide)⟩

end Crygcoin
