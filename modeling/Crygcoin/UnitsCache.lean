import Crygcoin.DatabaseCache

namespace Crygcoin

open scoped List

/-! The block-info reads of `DatabaseBlockchainCache`. `unitsCache` is a deque of the last at
most `unitsCacheSize` block infos: `addGenesisBlock` starts it, `pushBlock` pushes to its back and
pops its front past the size (`pushUnit`), and `split` cuts its tail (`cutTail`).
`getLastUnits` takes what it can from the deque (`getLastCachedUnits`) and reads the rest from the
database in batches of 200 (`getLastDbUnits`).

The database's block infos are `blockInfos`, index `i` at position `i`. `uint32_t` arithmetic is
`Nat` modulo `2 ^ 32`, and a failing `assert` is `none`. What the reads compute is compared with
the plain reading `lastUnitsSpec`: the last `count` infos of the indexes `useGenesis ? 0 : 1` to
`blockIndex`. -/

namespace DatabaseBlockchainCache

/-- `getTopBlockIndex()` of a database holding `blockInfos`: the last index, or `0` when the
database holds no block (the missing last index reads as `0`). -/
def topOf (blockInfos : List CachedBlockInfo) : Nat := blockInfos.length - 1

/-- `cutTail(cache, count)`: the cache without its last `count` entries. -/
def cutTail (cache : List CachedBlockInfo) (count : Nat) : List CachedBlockInfo :=
  if count ≥ cache.length then [] else cache.take (cache.length - count)

def getLastCachedUnits (blockInfos unitsCache : List CachedBlockInfo) (blockIndex count : Nat)
    (useGenesis : Bool) : Option (List CachedBlockInfo) := do
  guard (blockIndex ≤ topOf blockInfos)
  let cacheStartIndex := ((topOf blockInfos + 1) % 2 ^ 32 + 2 ^ 32 - unitsCache.length % 2 ^ 32) % 2 ^ 32
  let count := min unitsCache.length count
  if cacheStartIndex > blockIndex || count == 0 then
    return []
  let count := min ((blockIndex + 2 ^ 32 - cacheStartIndex + 1) % 2 ^ 32) (count % 2 ^ 32)
  -- `static_cast<uint32_t>(blockIndex + 1 - count) - cacheStartIndex`
  let offset := ((blockIndex + 1 + 2 ^ 32 - count) % 2 ^ 32 + 2 ^ 32 - cacheStartIndex) % 2 ^ 32
  guard (offset < unitsCache.length)
  let (offset, count) :=
    if !useGenesis && cacheStartIndex == 0 && offset == 0 then (offset + 1, count - 1) else (offset, count)
  if offset ≥ unitsCache.length || count == 0 then
    return []
  return (unitsCache.drop offset).take count

/-- The loop of `getLastDbUnits`: at most `200` indexes from `readFrom` at a time, each batch's
infos in index order (its `std::map`). -/
def readUnitBatches (blockInfos : List CachedBlockInfo) (readFrom toRead : Nat) : List CachedBlockInfo :=
  if toRead = 0 then [] else
    let next := min toRead 200
    ((List.range' readFrom ((readFrom + next) % 2 ^ 32 - readFrom)).filterMap fun id => blockInfos[id]?) ++
      readUnitBatches blockInfos ((readFrom + next) % 2 ^ 32) (toRead - next)
termination_by toRead
decreasing_by omega

def getLastDbUnits (blockInfos : List CachedBlockInfo) (blockIndex count : Nat) (useGenesis : Bool) :
    List CachedBlockInfo :=
  let readFrom := (blockIndex + 1) % 2 ^ 32 - min ((blockIndex + 1) % 2 ^ 32) (count % 2 ^ 32)
  let readFrom := if readFrom == 0 && !useGenesis then readFrom + 1 else readFrom
  let toRead := (blockIndex + 2 ^ 32 - readFrom + 1) % 2 ^ 32
  readUnitBatches blockInfos readFrom toRead

def getLastUnits (blockInfos unitsCache : List CachedBlockInfo) (count blockIndex : Nat) (useGenesis : Bool)
    (pred : CachedBlockInfo → UInt64) : Option (List UInt64) := do
  guard (count ≤ 2 ^ 32 - 1)
  let cachedUnits ← getLastCachedUnits blockInfos unitsCache blockIndex count useGenesis
  let availableUnits := if useGenesis then (blockIndex + 1) % 2 ^ 32 else blockIndex
  guard (availableUnits ≥ cachedUnits.length)
  if availableUnits - cachedUnits.length == 0 then
    return cachedUnits.map pred
  guard ((blockIndex + 1) % 2 ^ 32 ≥ cachedUnits.length)
  let dbIndex := (blockIndex + 2 ^ 32 - cachedUnits.length % 2 ^ 32) % 2 ^ 32
  guard (count ≥ cachedUnits.length)
  let dbUnits := getLastDbUnits blockInfos dbIndex (count - cachedUnits.length) useGenesis
  return dbUnits.map pred ++ cachedUnits.map pred

/-- The plain reading of the last units: the last `count` infos among the indexes
`useGenesis ? 0 : 1` to `blockIndex`, in index order. -/
def lastUnitsSpec (blockInfos : List CachedBlockInfo) (count blockIndex : Nat) (useGenesis : Bool) :
    List CachedBlockInfo :=
  let infos := (blockInfos.take (blockIndex + 1)).drop (if useGenesis then 0 else 1)
  infos.drop (infos.length - count)

end DatabaseBlockchainCache

/-- What the unit reads see of a `DatabaseBlockchainCache`: the block infos of its database and
its `unitsCache`. -/
structure UnitsState where
  blockInfos : List CachedBlockInfo
  unitsCache : List CachedBlockInfo

namespace UnitsState

open DatabaseBlockchainCache

/-- The constructor: a database whose top index reads `0` is given the genesis block by
`addGenesisBlock`, which also starts `unitsCache`; any other database starts with an empty
`unitsCache`. -/
def create (genesisInfo : CachedBlockInfo) (blockInfos : List CachedBlockInfo) : UnitsState :=
  if topOf blockInfos = 0 then ⟨[genesisInfo], [genesisInfo]⟩ else ⟨blockInfos, []⟩

/-- `pushBlock` once its write went through: the new info is stored at `top + 1`. -/
def pushBlock (s : UnitsState) (blockInfo : CachedBlockInfo) : UnitsState :=
  ⟨s.blockInfos ++ [blockInfo], pushUnit s.unitsCache blockInfo⟩

/-- `split(splitBlockIndex)` once its write went through: the blocks from `splitBlockIndex` on
leave the database, and `currentTop + 1 - splitBlockIndex` (`uint32_t`) entries the cache. -/
def split (s : UnitsState) (splitBlockIndex : Nat) : UnitsState :=
  ⟨s.blockInfos.take splitBlockIndex,
    cutTail s.unitsCache ((topOf s.blockInfos + 1 + 2 ^ 32 - splitBlockIndex) % 2 ^ 32)⟩

/-- The states the constructor, `pushBlock` and `split` reach while the database holds fewer than
`2 ^ 32` blocks. A push needs a top block (on an empty database `getCachedBlockInfo` throws
first), and `split` asserts its index is at most the top. -/
inductive Reachable (genesisInfo : CachedBlockInfo) : UnitsState → Prop
  | create (blockInfos : List CachedBlockInfo) :
    blockInfos.length < 2 ^ 32 → Reachable genesisInfo (create genesisInfo blockInfos)
  | pushBlock {s : UnitsState} (blockInfo : CachedBlockInfo) :
    Reachable genesisInfo s → s.blockInfos ≠ [] → s.blockInfos.length + 1 < 2 ^ 32 →
      Reachable genesisInfo (s.pushBlock blockInfo)
  | split {s : UnitsState} (splitBlockIndex : Nat) :
    Reachable genesisInfo s → splitBlockIndex ≤ topOf s.blockInfos →
      Reachable genesisInfo (s.split splitBlockIndex)

/-- The cache holds the database's last infos, at most `unitsCacheSize` of them, and the
database fewer than `2 ^ 32` blocks. -/
structure Coherent (s : UnitsState) : Prop where
  suffix : s.unitsCache <:+ s.blockInfos
  size_le : s.unitsCache.length ≤ unitsCacheSize
  bound : s.blockInfos.length < 2 ^ 32

end UnitsState

namespace DatabaseBlockchainCache

theorem filterMap_getElem?_range' (blockInfos : List CachedBlockInfo) :
    ∀ a n, (List.range' a n).filterMap (fun id => blockInfos[id]?) = (blockInfos.drop a).take n
  | a, 0 => by simp
  | a, n + 1 => by
    rw [List.range'_succ, List.filterMap_cons, filterMap_getElem?_range' blockInfos (a + 1) n]
    by_cases ha : a < blockInfos.length
    · simp only [List.getElem?_eq_getElem ha]
      rw [List.drop_eq_getElem_cons ha, List.take_succ_cons]
    · have hnil : blockInfos.drop a = [] := List.drop_eq_nil_of_le (by omega)
      have hnil' : blockInfos.drop (a + 1) = [] := List.drop_eq_nil_of_le (by omega)
      rw [List.getElem?_eq_none (by omega), hnil, hnil']
      simp

theorem readUnitBatches_eq (blockInfos : List CachedBlockInfo) :
    ∀ toRead readFrom, readFrom + toRead < 2 ^ 32 →
      readUnitBatches blockInfos readFrom toRead = (blockInfos.drop readFrom).take toRead := by
  intro toRead
  induction toRead using Nat.strong_induction_on with
  | _ toRead ih =>
    intro readFrom hbound
    rw [readUnitBatches]
    by_cases hzero : toRead = 0
    · simp [hzero]
    · -- one batch of `min toRead 200` indexes, then the rest after it
      have hwrap : (readFrom + min toRead 200) % 2 ^ 32 = readFrom + min toRead 200 :=
        Nat.mod_eq_of_lt (by omega)
      rw [if_neg hzero]
      dsimp only
      rw [hwrap, Nat.add_sub_cancel_left, filterMap_getElem?_range',
        ih (toRead - min toRead 200) (by omega) (readFrom + min toRead 200) (by omega), ← List.drop_drop,
        ← List.take_add]
      congr 1
      omega

theorem getLastDbUnits_eq (blockInfos : List CachedBlockInfo) {blockIndex count : Nat}
    (hindex : blockIndex + 1 < 2 ^ 32) (hcount : count < 2 ^ 32) (useGenesis : Bool) :
    getLastDbUnits blockInfos blockIndex count useGenesis =
      let lo := max (if useGenesis then 0 else 1) (blockIndex + 1 - count)
      (blockInfos.drop lo).take (blockIndex + 1 - lo) := by
  have hnext : (blockIndex + 1) % 2 ^ 32 = blockIndex + 1 := Nat.mod_eq_of_lt hindex
  have hcount' : count % 2 ^ 32 = count := Nat.mod_eq_of_lt hcount
  simp only [getLastDbUnits, hnext, hcount']
  -- the first index read, after the genesis skip
  have hreadFrom : (if (blockIndex + 1 - min (blockIndex + 1) count == 0 && !useGenesis) = true then
      blockIndex + 1 - min (blockIndex + 1) count + 1 else blockIndex + 1 - min (blockIndex + 1) count) =
      max (if useGenesis then 0 else 1) (blockIndex + 1 - count) := by
    cases useGenesis with
    | false =>
      simp only [Bool.not_false, Bool.and_true, beq_iff_eq, Bool.false_eq_true, if_false]
      split <;> omega
    | true =>
      simp only [Bool.not_true, Bool.and_false, Bool.false_eq_true, if_false, if_true]
      omega
  rw [hreadFrom, readUnitBatches_eq blockInfos _ _ (by split <;> omega)]
  congr 1
  split <;> omega

theorem sub_mod_two_pow_32 {a b : Nat} (hb : b ≤ a) (ha : a < 2 ^ 32) : (a + 2 ^ 32 - b) % 2 ^ 32 = a - b := by
  omega

/-- What `getLastCachedUnits` returns when the cache holds the database's last infos: the infos of
some range `[lo, blockIndex]`, starting after the genesis block unless it is asked for, and no
longer than `count`. -/
theorem getLastCachedUnits_eq {blockInfos unitsCache : List CachedBlockInfo} {blockIndex count : Nat}
    (hsuffix : unitsCache <:+ blockInfos) (hbound : blockInfos.length < 2 ^ 32)
    (hindex : blockIndex ≤ topOf blockInfos) (hcount : count < 2 ^ 32) (useGenesis : Bool) :
    ∃ lo, getLastCachedUnits blockInfos unitsCache blockIndex count useGenesis =
        some ((blockInfos.drop lo).take (blockIndex + 1 - lo)) ∧
      (if useGenesis then 0 else 1) ≤ lo ∧ lo ≤ blockIndex + 1 ∧ blockIndex + 1 - lo ≤ count ∧
      (blockIndex < blockInfos.length ∨ lo = blockIndex + 1) := by
  have hlen : unitsCache.length ≤ blockInfos.length := hsuffix.length_le
  have hcache := List.suffix_iff_eq_drop.mp hsuffix
  have htop : topOf blockInfos = blockInfos.length - 1 := rfl
  simp only [getLastCachedUnits, guard, if_pos hindex, pure_bind]
  generalize hstart : ((topOf blockInfos + 1) % 2 ^ 32 + 2 ^ 32 - unitsCache.length % 2 ^ 32) % 2 ^ 32 = start
  split
  · -- nothing of the range is in the cache
    exact ⟨blockIndex + 1, by simp, by split <;> omega, le_refl _, by omega, .inr rfl⟩
  · rename_i hcached
    have hcached' : start ≤ blockIndex ∧ 0 < min unitsCache.length count := by
      simp only [Bool.or_eq_true, decide_eq_true_eq, beq_iff_eq, not_or] at hcached
      omega
    -- the cache holds the indexes from `start` on
    have hstartEq : start = blockInfos.length - unitsCache.length := by rw [htop] at hstart; omega
    clear hstart hcached
    rw [htop] at hindex
    have hfirst : (blockIndex + 2 ^ 32 - start + 1) % 2 ^ 32 = blockIndex + 1 - start := by
      rw [show blockIndex + 2 ^ 32 - start + 1 = blockIndex + 1 + 2 ^ 32 - start by omega]
      exact sub_mod_two_pow_32 (by omega) (by omega)
    have hmin : min unitsCache.length count % 2 ^ 32 = min unitsCache.length count := Nat.mod_eq_of_lt (by omega)
    rw [hfirst, hmin]
    generalize hk : min (blockIndex + 1 - start) (min unitsCache.length count) = k
    have hkBounds : 0 < k ∧ k ≤ blockIndex + 1 - start ∧ k ≤ count := by omega
    have hoffsetEq : ((blockIndex + 1 + 2 ^ 32 - k) % 2 ^ 32 + 2 ^ 32 - start) % 2 ^ 32 =
        blockIndex + 1 - k - start := by
      rw [sub_mod_two_pow_32 (by omega) (by omega), sub_mod_two_pow_32 (by omega) (by omega)]
    rw [hoffsetEq]
    generalize hoffset : blockIndex + 1 - k - start = offset
    have hoffsetLt : offset < unitsCache.length := by omega
    have hdrop : ∀ n, unitsCache.drop n = blockInfos.drop (start + n) := by
      intro n
      rw [hcache, List.drop_drop, hstartEq]
    simp only [if_pos hoffsetLt, pure_bind]
    by_cases hskip : (!useGenesis && start == 0 && offset == 0) = true
    · -- the genesis block at the front of the cached range is left out
      have hfacts : useGenesis = false ∧ start = 0 ∧ offset = 0 := by simpa [and_assoc] using hskip
      refine ⟨1, ?_, by simp [hfacts.1], by omega, by omega, .inl (by omega)⟩
      rw [if_pos hskip]
      split
      · rename_i hnone
        have hgenesis : blockIndex = 0 := by
          simp only [Bool.or_eq_true, decide_eq_true_eq, beq_iff_eq] at hnone
          omega
        simp [hgenesis]
      · rw [hdrop, hfacts.2.1, hfacts.2.2]
        dsimp only
        have hk1 : k - 1 = blockIndex + 1 - 1 := by omega
        rw [hk1]
        rfl
    · refine ⟨start + offset, ?_, ?_, by omega, by omega, .inl (by omega)⟩
      · have hkeep : ¬((decide (offset ≥ unitsCache.length) || k == 0) = true) := by
          simp only [Bool.or_eq_true, decide_eq_true_eq, beq_iff_eq, not_or]
          omega
        rw [if_neg hskip, if_neg hkeep, hdrop]
        congr 2
        omega
      · cases useGenesis with
        | true => simp
        | false =>
          simp only [Bool.not_false, Bool.true_and, Bool.and_eq_true, beq_iff_eq, not_and] at hskip
          simp only [Bool.false_eq_true, if_false]
          omega

theorem take_drop_append_take_drop (blockInfos : List CachedBlockInfo) {lo mid hi : Nat} (hlo : lo ≤ mid)
    (hmid : mid ≤ hi) :
    (blockInfos.drop lo).take (mid - lo) ++ (blockInfos.drop mid).take (hi - mid) =
      (blockInfos.drop lo).take (hi - lo) := by
  rw [show hi - lo = (mid - lo) + (hi - mid) by omega, List.take_add, List.drop_drop]
  congr 3
  omega

theorem lastUnitsSpec_eq {blockInfos : List CachedBlockInfo} {count blockIndex : Nat} (useGenesis : Bool)
    (hindex : blockIndex < blockInfos.length ∨ blockInfos = []) :
    lastUnitsSpec blockInfos count blockIndex useGenesis =
      let lo := max (if useGenesis then 0 else 1) (blockIndex + 1 - count)
      (blockInfos.drop lo).take (blockIndex + 1 - lo) := by
  rcases hindex with hindex | rfl
  · simp only [lastUnitsSpec, List.drop_take, List.length_take, List.length_drop, List.drop_drop]
    generalize hf : (if useGenesis then 0 else 1) = first
    have hfirst : first ≤ 1 := by rw [← hf]; split <;> omega
    -- the range holds `blockIndex + 1 - first` infos, of which the last `count` are kept
    have hlo : first + (min (blockIndex + 1 - first) (blockInfos.length - first) - count) =
        max first (blockIndex + 1 - count) := by omega
    have hn : blockIndex + 1 - first - (min (blockIndex + 1 - first) (blockInfos.length - first) - count) =
        blockIndex + 1 - max first (blockIndex + 1 - count) := by omega
    rw [hlo, hn]
  · simp [lastUnitsSpec]

theorem getLastUnits_eq {blockInfos unitsCache : List CachedBlockInfo} {count blockIndex : Nat}
    (hsuffix : unitsCache <:+ blockInfos) (hbound : blockInfos.length < 2 ^ 32)
    (hindex : blockIndex ≤ topOf blockInfos) (hcount : count < 2 ^ 32) (useGenesis : Bool)
    (pred : CachedBlockInfo → UInt64) :
    getLastUnits blockInfos unitsCache count blockIndex useGenesis pred =
      some ((lastUnitsSpec blockInfos count blockIndex useGenesis).map pred) := by
  obtain ⟨lo, hcached, hfirst, hlo, hlen, hrange⟩ := getLastCachedUnits_eq hsuffix hbound hindex hcount useGenesis
  have htop : topOf blockInfos = blockInfos.length - 1 := rfl
  have hnext : (blockIndex + 1) % 2 ^ 32 = blockIndex + 1 := Nat.mod_eq_of_lt (by omega)
  have hspec := @lastUnitsSpec_eq blockInfos count blockIndex useGenesis (by
    rcases Nat.eq_zero_or_pos blockInfos.length with h | h
    · exact .inr (List.eq_nil_of_length_eq_zero h)
    · exact .inl (by omega))
  have hcachedLen : ((blockInfos.drop lo).take (blockIndex + 1 - lo)).length = blockIndex + 1 - lo := by
    rcases hrange with h | h
    · simp only [List.length_take, List.length_drop]
      omega
    · simp [h]
  have havailable : (if useGenesis = true then blockIndex + 1 else blockIndex) =
      blockIndex + 1 - (if useGenesis then 0 else 1) := by
    split <;> omega
  set first := (if useGenesis then 0 else 1) with hf
  simp only [getLastUnits, guard, if_pos (show count ≤ 2 ^ 32 - 1 by omega), pure_bind, hcached,
    Option.bind_eq_bind, Option.bind_some, hnext, havailable, hcachedLen, hspec]
  rw [if_pos (by omega), Option.pure_def, Option.bind_some]
  by_cases hfull : lo = first
  · -- the cache had the whole range
    have hall : max first (blockIndex + 1 - count) = lo := by omega
    rw [if_pos (by simp; omega), hall]
    rfl
  · -- the cache had its end; the database gives the rest, up to `lo - 1`
    have hdbIndex : (blockIndex + 2 ^ 32 - (blockIndex + 1 - lo) % 2 ^ 32) % 2 ^ 32 = lo - 1 := by
      have hin : (blockIndex + 1 - lo) % 2 ^ 32 = blockIndex + 1 - lo := Nat.mod_eq_of_lt (by omega)
      rw [hin, sub_mod_two_pow_32 (by omega) (by omega)]
      omega
    have hdb : getLastDbUnits blockInfos (lo - 1) (count - (blockIndex + 1 - lo)) useGenesis =
        (blockInfos.drop (max first (blockIndex + 1 - count))).take (lo - max first (blockIndex + 1 - count)) := by
      rw [getLastDbUnits_eq blockInfos (by omega) (by omega) useGenesis]
      have hstep : lo - 1 + 1 = lo := by omega
      have hreadFrom : max first (lo - (count - (blockIndex + 1 - lo))) = max first (blockIndex + 1 - count) := by
        omega
      simp only [hstep, ← hf, hreadFrom]
    rw [if_neg (by simp; omega), if_pos (by omega), Option.pure_def, Option.bind_some, if_pos (by omega)]
    simp only [Option.bind_some, hdbIndex, hdb, ← List.map_append]
    rw [take_drop_append_take_drop blockInfos (by omega) hlo]

end DatabaseBlockchainCache

namespace UnitsState

open DatabaseBlockchainCache

variable {genesisInfo : CachedBlockInfo}

theorem create_coherent {blockInfos : List CachedBlockInfo} (hbound : blockInfos.length < 2 ^ 32) :
    (create genesisInfo blockInfos).Coherent := by
  unfold create
  split
  · exact ⟨List.suffix_refl _, by simp [unitsCacheSize], by simp⟩
  · exact ⟨List.nil_suffix, by simp, hbound⟩

theorem pushBlock_coherent {s : UnitsState} (hs : s.Coherent) (blockInfo : CachedBlockInfo)
    (hbound : s.blockInfos.length + 1 < 2 ^ 32) : (s.pushBlock blockInfo).Coherent := by
  have hpushed : s.unitsCache ++ [blockInfo] <:+ s.blockInfos ++ [blockInfo] :=
    List.suffix_append_self_iff.mpr hs.suffix
  have hsize := hs.size_le
  refine ⟨?_, ?_, by simpa [pushBlock] using hbound⟩
  · simp only [pushBlock, pushUnit]
    split
    · exact (List.tail_suffix _).trans hpushed
    · exact hpushed
  · simp only [pushBlock, pushUnit]
    split
    · simp only [List.length_tail, List.length_append, List.length_cons, List.length_nil]
      omega
    · omega

theorem suffix_cutTail {unitsCache blockInfos : List CachedBlockInfo} (hsuffix : unitsCache <:+ blockInfos)
    {splitBlockIndex : Nat} (hsplit : splitBlockIndex ≤ blockInfos.length) :
    cutTail unitsCache (blockInfos.length - splitBlockIndex) <:+ blockInfos.take splitBlockIndex := by
  have hlen : unitsCache.length ≤ blockInfos.length := hsuffix.length_le
  rw [List.suffix_iff_eq_drop.mp hsuffix, cutTail]
  split
  · exact List.nil_suffix
  · -- the kept front of the cache is the window of the cut database that ends at its end
    rename_i hkeep
    simp only [List.length_drop] at hkeep ⊢
    have hstart : blockInfos.length - unitsCache.length +
        (blockInfos.length - (blockInfos.length - unitsCache.length) - (blockInfos.length - splitBlockIndex)) =
        splitBlockIndex := by omega
    rw [List.take_drop, hstart]
    exact List.drop_suffix _ _

theorem split_coherent {s : UnitsState} (hs : s.Coherent) {splitBlockIndex : Nat}
    (hsplit : splitBlockIndex ≤ topOf s.blockInfos) : (s.split splitBlockIndex).Coherent := by
  have hcut : cutTail s.unitsCache ((topOf s.blockInfos + 1 + 2 ^ 32 - splitBlockIndex) % 2 ^ 32) <:+
      s.blockInfos.take splitBlockIndex := by
    rcases List.eq_nil_or_concat' s.blockInfos with hnil | ⟨front, last, hlast⟩
    · -- an empty database has an empty cache
      have hempty : s.unitsCache = [] := List.eq_nil_of_length_eq_zero (by simpa [hnil] using hs.suffix.length_le)
      simp [hempty, cutTail]
    · have hbound := hs.bound
      have htop : topOf s.blockInfos = s.blockInfos.length - 1 := rfl
      have hpos : 0 < s.blockInfos.length := by simp [hlast]
      have hcount : (topOf s.blockInfos + 1 + 2 ^ 32 - splitBlockIndex) % 2 ^ 32 =
          s.blockInfos.length - splitBlockIndex := by
        rw [htop, show s.blockInfos.length - 1 + 1 = s.blockInfos.length by omega]
        exact sub_mod_two_pow_32 (by omega) hbound
      rw [hcount]
      exact suffix_cutTail hs.suffix (by omega)
  have hsize : (cutTail s.unitsCache ((topOf s.blockInfos + 1 + 2 ^ 32 - splitBlockIndex) % 2 ^ 32)).length ≤
      s.unitsCache.length := by
    unfold cutTail
    split <;> simp
  refine ⟨hcut, hsize.trans hs.size_le, ?_⟩
  have hbound := hs.bound
  simp only [split, List.length_take]
  omega

theorem Reachable.coherent {s : UnitsState} (h : Reachable genesisInfo s) : s.Coherent := by
  induction h with
  | create blockInfos hbound => exact create_coherent hbound
  | pushBlock blockInfo _ _ hbound ih => exact pushBlock_coherent ih blockInfo hbound
  | split splitBlockIndex _ hsplit ih => exact split_coherent ih hsplit

/-- In every state reachable while the database holds fewer than `2 ^ 32` blocks, `unitsCache` is
the database's last `unitsCache.size()` infos, at most `unitsCacheSize` of them, and for every
`count` the assert lets through, every `blockIndex` up to the top and either `useGenesis`,
`getLastUnits` returns `pred` of the last `count` infos of the indexes `useGenesis ? 0 : 1` to
`blockIndex`, in index order. -/
theorem getLastUnits_of_reachable {s : UnitsState} (hs : Reachable genesisInfo s) (count blockIndex : Nat)
    (hindex : blockIndex ≤ topOf s.blockInfos) (hcount : count < 2 ^ 32) (useGenesis : Bool)
    (pred : CachedBlockInfo → UInt64) :
    (s.unitsCache = s.blockInfos.drop (s.blockInfos.length - s.unitsCache.length) ∧
        s.unitsCache.length ≤ unitsCacheSize) ∧
      DatabaseBlockchainCache.getLastUnits s.blockInfos s.unitsCache count blockIndex useGenesis pred =
        some ((lastUnitsSpec s.blockInfos count blockIndex useGenesis).map pred) := by
  have hc := hs.coherent
  exact ⟨⟨List.suffix_iff_eq_drop.mp hc.suffix, hc.size_le⟩,
    getLastUnits_eq hc.suffix hc.bound hindex hcount useGenesis pred⟩

/-- A database of five blocks split at index 3, then a block pushed: the cache holds only the
pushed block, so the last three units of index 3 come from the database for two and from the cache
for one. -/
theorem getLastUnits_after_split_push :
    let info : UInt8 → CachedBlockInfo := fun tag => ⟨⟨Vector.replicate 32 tag⟩, 60 * tag.toUInt64, 1, 0, 1, 0⟩
    let s := ((create (info 0) [info 0, info 1, info 2, info 3, info 4]).split 3).pushBlock (info 9)
    Reachable (info 0) s ∧ 3 ≤ topOf s.blockInfos ∧ 3 < 2 ^ 32 ∧ s.unitsCache = [info 9] ∧
      ((s.unitsCache = s.blockInfos.drop (s.blockInfos.length - s.unitsCache.length) ∧
          s.unitsCache.length ≤ unitsCacheSize) ∧
        DatabaseBlockchainCache.getLastUnits s.blockInfos s.unitsCache 3 3 false CachedBlockInfo.timestamp =
          some ((lastUnitsSpec s.blockInfos 3 3 false).map CachedBlockInfo.timestamp)) ∧
      (lastUnitsSpec s.blockInfos 3 3 false).map CachedBlockInfo.timestamp = [60, 120, 540] := by
  intro info s
  have hs : Reachable (info 0) s := .pushBlock _ (.split 3 (.create _ (by decide)) (by decide)) (by decide) (by decide)
  have hindex : 3 ≤ topOf s.blockInfos := by decide
  exact ⟨hs, hindex, by decide, by decide, getLastUnits_of_reachable hs 3 3 hindex (by decide) false _, by decide⟩

/-- A database of `2 ^ 32` blocks, the most `uint32_t` indexes can name: the constructor leaves
`unitsCache` empty, and the last unit at the top index reads as nothing, since
`availableUnits = blockIndex + 1` wraps to `0` and `getLastUnits` returns the empty cached part. -/
theorem getLastUnits_wraps_at_full_database (genesisInfo blockInfo : CachedBlockInfo) (pred : CachedBlockInfo → UInt64) :
    let s := create genesisInfo (List.replicate (2 ^ 32) blockInfo)
    topOf s.blockInfos = 2 ^ 32 - 1 ∧ DatabaseBlockchainCache.getLastUnits s.blockInfos s.unitsCache 1 (2 ^ 32 - 1) true pred = some [] ∧
      lastUnitsSpec s.blockInfos 1 (2 ^ 32 - 1) true = [blockInfo] := by
  intro s
  have hs : s = ⟨List.replicate (2 ^ 32) blockInfo, []⟩ := by
    show create genesisInfo (List.replicate (2 ^ 32) blockInfo) = _
    rw [create, if_neg]
    simp only [topOf, List.length_replicate]
    norm_num
  have htop : topOf (List.replicate (2 ^ 32) blockInfo) = 2 ^ 32 - 1 := by
    simp only [topOf, List.length_replicate]
  -- the cache is empty, so its part of the read is empty
  have hcached : getLastCachedUnits (List.replicate (2 ^ 32) blockInfo) [] (2 ^ 32 - 1) 1 true = some [] := by
    simp only [getLastCachedUnits, htop, guard, if_pos (le_refl (2 ^ 32 - 1)), pure_bind, List.length_nil,
      Nat.zero_min]
    rfl
  -- `availableUnits` wraps to `0`, so nothing seems left for the database to give
  have hwrap : (2 ^ 32 - 1 + 1) % 2 ^ 32 = 0 := by norm_num
  rw [hs]
  refine ⟨htop, ?_, ?_⟩
  · simp only [DatabaseBlockchainCache.getLastUnits, guard, if_pos (show 1 ≤ 2 ^ 32 - 1 by norm_num), pure_bind,
      hcached, Option.bind_eq_bind, Option.bind_some, hwrap, if_true, List.length_nil]
    rfl
  · simp only [lastUnitsSpec, List.take_replicate, List.drop_replicate, List.length_replicate]
    norm_num

theorem getLastUnits_full_database :
    let genesisInfo : CachedBlockInfo := ⟨⟨Vector.replicate 32 0⟩, 0, 1, 0, 1, 0⟩
    let blockInfo : CachedBlockInfo := ⟨⟨Vector.replicate 32 1⟩, 60, 2, 50, 2, 100⟩
    let s := create genesisInfo (List.replicate (2 ^ 32) blockInfo)
    topOf s.blockInfos = 2 ^ 32 - 1 ∧
      DatabaseBlockchainCache.getLastUnits s.blockInfos s.unitsCache 1 (2 ^ 32 - 1) true CachedBlockInfo.timestamp =
        some [] ∧
      lastUnitsSpec s.blockInfos 1 (2 ^ 32 - 1) true = [blockInfo] :=
  getLastUnits_wraps_at_full_database _ _ _

end UnitsState

end Crygcoin
