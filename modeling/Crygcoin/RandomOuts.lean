import Crygcoin.BlockchainCache
import Crygcoin.ShuffleGenerator

namespace Crygcoin

open scoped List

/-! The decoy draw of the in-memory segments, `BlockchainCache::getRandomOutsByAmount`. A
segment that holds outputs of the amount finds, from the back, the last one old enough, cuts the
range to `count`, and draws that many offsets with a `ShuffleGenerator`; a drawn output whose
transaction is still locked is dropped, not replaced. The parent is asked for what is missing.

`Random::randomValue` is the environment: its answers come as a stream, a value above the range
asked for standing for the range's top (the distribution never leaves the range, and every
answer in it is reachable). `time(nullptr)` of the unlock check is the parameter `now`. -/

/-- The parameters of `Currency` the unlock checks read. -/
structure UnlockCurrency where
  minedMoneyUnlockWindow : Nat
  maxBlockHeight : Nat
  lockedTxAllowedDeltaBlocks : UInt64
  lockedTxAllowedDeltaSeconds : UInt64

/-- `CRYPTONOTE_MINED_MONEY_UNLOCK_WINDOW`, `CRYPTONOTE_MAX_BLOCK_NUMBER`,
`CRYPTONOTE_LOCKED_TX_ALLOWED_DELTA_BLOCKS` and `..._SECONDS` (`DIFFICULTY_TARGET` times it). -/
def UnlockCurrency.default : UnlockCurrency := ⟨40, 500000000, 1, 30⟩

/-- `BlockchainCache::isTransactionSpendTimeUnlocked(unlockTime, blockIndex)`: a small unlock
time is a block index, a large one a time compared with the clock. -/
def isTransactionSpendTimeUnlocked (currency : UnlockCurrency) (now unlockTime : UInt64) (blockIndex : Nat) :
    Bool :=
  if unlockTime.toNat < currency.maxBlockHeight then
    decide (unlockTime.toNat ≤ blockIndex + currency.lockedTxAllowedDeltaBlocks.toNat)
  else
    decide (unlockTime ≤ now + currency.lockedTxAllowedDeltaSeconds)

/-- `Random::randomValue<T>(0, max)` answered by the next value of the stream. -/
def randomValue (max raw : Nat) : Nat := min raw max

namespace BlockchainCache

variable (currency : UnlockCurrency) (now : UInt64)

/-- `dist` calls of `generator()` in the loop `while (dist--)`: the offsets drawn, and the stream
left for the parent. -/
def drawOffsets : Nat → ShuffleGenerator → List Nat → List Nat × List Nat
  | 0, _, randomValues => ([], randomValues)
  | dist + 1, generator, randomValues =>
    match (ShuffleGenerator.call (randomValue (generator.count - 1) (randomValues.headD 0))).run generator with
    | .ok offset generator' =>
      let (offsets, rest) := drawOffsets dist generator' randomValues.tail
      (offset :: offsets, rest)
    | .error _ _ => ([], randomValues.tail)

/-- What the loop keeps of a drawn offset: its global index, when the transaction holding the
output is unlocked at `blockIndex`. A transaction the segment does not hold (the source would
dereference the end of the index) keeps nothing. -/
def keptOutput (cache : BlockchainCache) (entry : OutputGlobalIndexesForAmount) (blockIndex offset : Nat) :
    Option Nat := do
  let outIndex ← entry.outputs[offset]?
  let transaction ← cache.transactions.find? fun transaction =>
    transaction.blockIndex == outIndex.blockIndex && transaction.transactionIndex == outIndex.transactionIndex
  if isTransactionSpendTimeUnlocked currency now transaction.unlockTime blockIndex then
    some (entry.startIndex + offset)
  else none

/-- `std::find_if(outs.rbegin(), outs.rend(), ...).base()` as a distance from the front: one past
the last output in a block at most `blockIndex - minedMoneyUnlockWindow()` (`uint32_t`). -/
def unlockedEnd (entry : OutputGlobalIndexesForAmount) (blockIndex : Nat) : Nat :=
  let upperBlockIndex := (blockIndex + 2 ^ 32 - currency.minedMoneyUnlockWindow) % 2 ^ 32
  (entry.outputs.reverse.dropWhile fun index => !decide (index.blockIndex ≤ upperBlockIndex)).length

end BlockchainCache

/-- `BlockchainCache::getRandomOutsByAmount(amount, count, blockIndex)` on a segment followed by
its ancestors, with `randomValues` answering the generators' draws in turn. -/
def getRandomOutsByAmount (currency : UnlockCurrency) (now : UInt64) :
    List BlockchainCache → UInt64 → Nat → Nat → List Nat → List Nat
  | [], _, _, _, _ => []
  | cache :: parents, amount, count, blockIndex, randomValues =>
    match cache.findKeyOutputs amount with
    | none => getRandomOutsByAmount currency now parents amount count blockIndex randomValues
    | some entry =>
      -- the shuffle runs over the first `dist` outputs only
      let dist := min (count % 2 ^ 32) (BlockchainCache.unlockedEnd currency entry blockIndex)
      let (offsets, rest) := BlockchainCache.drawOffsets dist (ShuffleGenerator.new dist) randomValues
      let outputs := offsets.filterMap (BlockchainCache.keptOutput currency now cache entry blockIndex)
      if outputs.length < count && !parents.isEmpty then
        outputs ++ getRandomOutsByAmount currency now parents amount (count - outputs.length) blockIndex rest
      else outputs

/-- The outputs a decoy may be drawn from, on one segment: the global indexes of the amount's
outputs in blocks at most `blockIndex - minedMoneyUnlockWindow` whose transaction is unlocked at
`blockIndex`. -/
def unlockedOutputs (currency : UnlockCurrency) (now : UInt64) (cache : BlockchainCache) (amount : UInt64)
    (blockIndex : Nat) : List Nat :=
  match cache.findKeyOutputs amount with
  | none => []
  | some entry =>
    (List.range entry.outputs.length).filterMap fun offset =>
      if (entry.outputs[offset]?).any (·.blockIndex + currency.minedMoneyUnlockWindow ≤ blockIndex) then
        BlockchainCache.keptOutput currency now cache entry blockIndex offset
      else none

namespace BlockchainCache

variable {currency : UnlockCurrency} {now : UInt64}

theorem drawOffsets_perm_append :
    ∀ {dist : Nat} {generator : ShuffleGenerator} (randomValues : List Nat), dist ≤ generator.count →
      ∃ left, (drawOffsets dist generator randomValues).1 ++ left ~ generator.pending ∧
        (drawOffsets dist generator randomValues).1.length = dist
  | 0, generator, _, _ => ⟨generator.pending, List.Perm.refl _, rfl⟩
  | dist + 1, generator, randomValues, hdist => by
    -- the answer lies in the generator's range, so the call succeeds with one `swapRemove`
    set value := randomValue (generator.count - 1) (randomValues.headD 0) with hvalue
    have hlt : value < generator.count := by rw [hvalue, randomValue]; omega
    have hcall : (ShuffleGenerator.call value).run generator =
        .ok (generator.slot value) (generator.swapOut value) := by
      rw [ShuffleGenerator.call_run, if_neg (by omega)]
    obtain ⟨left, hleft, hlen⟩ :=
      @drawOffsets_perm_append dist (generator.swapOut value) randomValues.tail (by simp; omega)
    have hdraw : drawOffsets (dist + 1) generator randomValues =
        (generator.slot value :: (drawOffsets dist (generator.swapOut value) randomValues.tail).1,
          (drawOffsets dist (generator.swapOut value) randomValues.tail).2) := by
      simp only [drawOffsets, ← hvalue, hcall]
    rw [hdraw]
    refine ⟨left, ?_, by simp [hlen]⟩
    have hpending : value < generator.pending.length := by simpa using hlt
    have hslot : generator.pending[value] = generator.slot value := ShuffleGenerator.getElem_pending _ _
    rw [ShuffleGenerator.pending_swapOut hlt] at hleft
    calc generator.slot value :: (drawOffsets dist (generator.swapOut value) randomValues.tail).1 ++ left
        ~ generator.pending[value] :: swapRemove generator.pending value := by rw [hslot]; exact hleft.cons _
      _ ~ generator.pending := perm_swapRemove hpending

theorem drawOffsets_new (dist : Nat) (randomValues : List Nat) :
    (drawOffsets dist (ShuffleGenerator.new dist) randomValues).1 ~ List.range dist := by
  obtain ⟨left, hperm, hlen⟩ :=
    @drawOffsets_perm_append dist (ShuffleGenerator.new dist) randomValues (le_refl _)
  rw [ShuffleGenerator.pending_new] at hperm
  have hleft : left = [] := by
    have := hperm.length_eq
    simp only [List.length_append, hlen, List.length_range] at this
    exact List.eq_nil_of_length_eq_zero (by omega)
  simpa [hleft] using hperm

theorem keptOutput_eq_some {cache : BlockchainCache} {entry : OutputGlobalIndexesForAmount}
    {blockIndex offset index : Nat} (h : keptOutput currency now cache entry blockIndex offset = some index) :
    index = entry.startIndex + offset := by
  simp only [keptOutput, Option.bind_eq_bind] at h
  obtain ⟨outIndex, -, h⟩ := Option.bind_eq_some_iff.mp h
  obtain ⟨transaction, -, h⟩ := Option.bind_eq_some_iff.mp h
  split at h
  · exact (Option.some.inj h).symm
  · cases h

end BlockchainCache

/-- A segment holding outputs of the amount answers first with distinct outputs of its own, all
among its first `count` outputs of that amount, whatever the random answers; the parent only
adds to them. So the shuffle never reaches an output past the first `count`, and a drawn output
that is still locked is dropped without a replacement from the segment. -/
theorem getRandomOutsByAmount_draws_first_outputs {cache : BlockchainCache} {amount : UInt64}
    {entry : OutputGlobalIndexesForAmount} (hentry : cache.findKeyOutputs amount = some entry)
    (currency : UnlockCurrency) (now : UInt64) (parents : List BlockchainCache) (count blockIndex : Nat)
    (randomValues : List Nat) :
    ∃ own fromParents, getRandomOutsByAmount currency now (cache :: parents) amount count blockIndex randomValues =
        own ++ fromParents ∧ own.Nodup ∧ (∀ index ∈ own, entry.startIndex ≤ index ∧ index < entry.startIndex + count) ∧
        (parents = [] → fromParents = []) := by
  set dist := min (count % 2 ^ 32) (BlockchainCache.unlockedEnd currency entry blockIndex) with hdist
  set drawn := BlockchainCache.drawOffsets dist (ShuffleGenerator.new dist) randomValues with hdrawn
  set own := drawn.1.filterMap (BlockchainCache.keptOutput currency now cache entry blockIndex) with hown
  have hperm : drawn.1 ~ List.range dist := BlockchainCache.drawOffsets_new dist randomValues
  -- a kept index is the segment's start plus a drawn offset, and the offsets are distinct
  have hkept : ∀ index ∈ own, ∃ offset ∈ drawn.1, index = entry.startIndex + offset := by
    intro index hindex
    obtain ⟨offset, hoffset, hsome⟩ := List.mem_filterMap.mp hindex
    exact ⟨offset, hoffset, BlockchainCache.keptOutput_eq_some hsome⟩
  have hnodup : own.Nodup := by
    refine List.Nodup.filterMap (fun offset offset' index hindex hindex' => ?_) (hperm.nodup_iff.mpr List.nodup_range)
    have := BlockchainCache.keptOutput_eq_some hindex
    have := BlockchainCache.keptOutput_eq_some hindex'
    omega
  have hbounds : ∀ index ∈ own, entry.startIndex ≤ index ∧ index < entry.startIndex + count := by
    intro index hindex
    obtain ⟨offset, hoffset, rfl⟩ := hkept index hindex
    have hlt : offset < dist := List.mem_range.mp (hperm.subset hoffset)
    have : dist ≤ count := by simp only [hdist]; exact le_trans (min_le_left _ _) (Nat.mod_le _ _)
    omega
  have hrun : getRandomOutsByAmount currency now (cache :: parents) amount count blockIndex randomValues =
      if own.length < count && !parents.isEmpty then
        own ++ getRandomOutsByAmount currency now parents amount (count - own.length) blockIndex drawn.2
      else own := by
    simp only [getRandomOutsByAmount, hentry]
    rfl
  by_cases hparent : own.length < count && !parents.isEmpty
  · refine ⟨own, _, by rw [hrun, if_pos hparent], hnodup, hbounds, fun hnil => ?_⟩
    simp [hnil] at hparent
  · exact ⟨own, [], by rw [hrun, if_neg hparent, List.append_nil], hnodup, hbounds, fun _ => rfl⟩

/-- A root segment whose first output of amount 5 is locked until block 1000 and whose two others
are spendable, asked at block 100 for one decoy: two outputs qualify, but the shuffle of
`min(1, 3) = 1` offset always draws the locked one, drops it, and has no parent to ask, so
the answer is empty for every random answer. -/
theorem getRandomOutsByAmount_drops_locked_decoy :
    let transaction := fun (transactionIndex : Nat) (unlockTime : UInt64) =>
      ({ blockIndex := 0, transactionIndex := transactionIndex, transactionHash := ⟨Vector.replicate 32 0⟩,
         unlockTime := unlockTime, outputs := [], globalIndexes := [] } : CachedTransactionInfo)
    let cache : BlockchainCache :=
      { BlockchainCache.create none 0 with
        transactions := [transaction 0 1000, transaction 1 0, transaction 2 0],
        keyOutputsGlobalIndexes := [(5, ⟨0, [⟨0, 0, 0⟩, ⟨0, 1, 0⟩, ⟨0, 2, 0⟩]⟩)] }
    (∃ own fromParents, getRandomOutsByAmount UnlockCurrency.default 0 [cache] 5 1 100 [] = own ++ fromParents ∧
        own.Nodup ∧ (∀ index ∈ own, 0 ≤ index ∧ index < 0 + 1) ∧ ([] = ([] : List BlockchainCache) → fromParents = [])) ∧
      unlockedOutputs UnlockCurrency.default 0 cache 5 100 = [1, 2] ∧
      ∀ randomValues, getRandomOutsByAmount UnlockCurrency.default 0 [cache] 5 1 100 randomValues = [] := by
  intro transaction cache
  have hentry : cache.findKeyOutputs 5 = some ⟨0, [⟨0, 0, 0⟩, ⟨0, 1, 0⟩, ⟨0, 2, 0⟩]⟩ := rfl
  refine ⟨getRandomOutsByAmount_draws_first_outputs hentry UnlockCurrency.default 0 [] 1 100 [], rfl, ?_⟩
  intro randomValues
  -- the one draw of `ShuffleGenerator(1)` is offset `0`, whatever the stream says
  have hdraw : BlockchainCache.drawOffsets 1 (ShuffleGenerator.new 1) randomValues = ([0], randomValues.tail) := by
    simp [BlockchainCache.drawOffsets, randomValue, ShuffleGenerator.call_run, ShuffleGenerator.new,
      ShuffleGenerator.slot]
  simp only [getRandomOutsByAmount, hentry]
  rw [show min (1 % 2 ^ 32) (BlockchainCache.unlockedEnd UnlockCurrency.default ⟨0, [⟨0, 0, 0⟩, ⟨0, 1, 0⟩, ⟨0, 2, 0⟩]⟩ 100) = 1
    from rfl, hdraw]
  rfl

end Crygcoin
