import Crygcoin.RandomOuts
import Crygcoin.DatabaseCache

namespace Crygcoin

open scoped List

/-! The ring-member reads `extractKeyOutputKeys(amount, blockIndex, globalIndexes, publicKeys)` of
both `IBlockchainCache` implementations, with the callback that checks the lock and pushes the key.

`BlockchainCache::extractKeyOutputs` splits the sorted indexes with `lower_bound` at the segment's
first global index for the amount, asks the parent for the lower part, and reads its own part from
`keyOutputsGlobalIndexes`; an index past the segment's outputs is `INVALID_GLOBAL_INDEX`.
`DatabaseBlockchainCache::extractKeyOutputs` asks one read batch for every index and walks what the
read returns: `deserializeValues` erases every key the database does not hold, so a missing index
is dropped, not reported.

The result is the code returned and the keys pushed to `publicKeys` before the return; a failing
`assert` is `none`. -/

/-- `ExtractOutputKeysResult`. -/
inductive ExtractOutputKeysResult
  | success
  | invalidGlobalIndex
  | outputLocked
deriving DecidableEq, Repr

section Extract

variable (currency : UnlockCurrency) (now : UInt64)

/-- One index of the loop of `BlockchainCache::extractKeyOutputs`, passed to the callback of
`extractKeyOutputKeys`: the key it pushes, or the code the loop returns. -/
def ownKeyOutputKey (cache : BlockchainCache) (entry : OutputGlobalIndexesForAmount) (blockIndex globalIndex : Nat) :
    Option (Except ExtractOutputKeysResult PublicKey) := do
  let some outputIndex := entry.outputs[globalIndex - entry.startIndex]? | return .error .invalidGlobalIndex
  guard (cache.startIndex ≤ outputIndex.blockIndex ∧ outputIndex.blockIndex ≤ blockIndex)
  let some info := cache.transactions.find? (fun transaction =>
      transaction.blockIndex == outputIndex.blockIndex && transaction.transactionIndex == outputIndex.transactionIndex)
    | return .error .invalidGlobalIndex
  if !isTransactionSpendTimeUnlocked currency now info.unlockTime blockIndex then
    return .error .outputLocked
  let .keyOutput output ← info.outputs[outputIndex.outputIndex]?
  return .ok output.key

/-- The loop of `BlockchainCache::extractKeyOutputs` over the indexes the segment holds. -/
def extractOwnKeyOutputKeys (cache : BlockchainCache) (entry : OutputGlobalIndexesForAmount) (blockIndex : Nat) :
    List Nat → Option (ExtractOutputKeysResult × List PublicKey)
  | [] => some (.success, [])
  | globalIndex :: globalIndexes => do
    match ← ownKeyOutputKey currency now cache entry blockIndex globalIndex with
    | .error result => return (result, [])
    | .ok key =>
      let (result, keys) ← extractOwnKeyOutputKeys cache entry blockIndex globalIndexes
      return (result, key :: keys)

/-- `BlockchainCache::extractKeyOutputKeys` on a segment followed by its ancestors; the empty list
is a call through a null `parent`. -/
def extractKeyOutputKeys :
    List BlockchainCache → UInt64 → Nat → List Nat → Option (ExtractOutputKeysResult × List PublicKey)
  | [], _, _, _ => none
  | cache :: parents, amount, blockIndex, globalIndexes => do
    -- not empty, sorted and unique
    guard (globalIndexes ≠ [] ∧ globalIndexes.Pairwise (· < ·))
    let fromParent : Option (ExtractOutputKeysResult × List PublicKey) :=
      if parents.isEmpty then some (.invalidGlobalIndex, [])
      else extractKeyOutputKeys parents amount blockIndex globalIndexes
    match cache.findKeyOutputs amount with
    | none => fromParent
    | some entry =>
      if blockIndex < cache.startIndex then fromParent else
      -- `lower_bound(globalIndexes, startGlobalIndex)` on the sorted indexes
      let below := globalIndexes.takeWhile (· < entry.startIndex)
      let (result, keys) ←
        if below.isEmpty then some (.success, []) else extractKeyOutputKeys parents amount blockIndex below
      if result ≠ .success then return (result, keys)
      guard (entry.outputs ≠ [])
      let (result, ownKeys) ←
        extractOwnKeyOutputKeys currency now cache entry blockIndex (globalIndexes.dropWhile (· < entry.startIndex))
      return (result, keys ++ ownKeys)

namespace DatabaseBlockchainCache

/-- The callback of `extractKeyOutputKeys` over the records the read returned, in key order. -/
def pushUnlockedKeys (blockIndex : Nat) : List KeyOutputInfo → ExtractOutputKeysResult × List PublicKey
  | [] => (.success, [])
  | info :: infos =>
    if isTransactionSpendTimeUnlocked currency now info.unlockTime blockIndex then
      let (result, keys) := pushUnlockedKeys blockIndex infos
      (result, info.publicKey :: keys)
    else (.outputLocked, [])

/-- `DatabaseBlockchainCache::extractKeyOutputKeys`. `keyOutputInfo amount globalIndex` is the
database's record, `none` where it holds none. The batch is an `unordered_map` of the requested
keys, the read erases those without a record, and the `std::map` walks the rest in key order. -/
def extractKeyOutputKeys (keyOutputInfo : UInt64 → Nat → Option KeyOutputInfo) (amount : UInt64)
    (blockIndex : Nat) (globalIndexes : List Nat) : ExtractOutputKeysResult × List PublicKey :=
  pushUnlockedKeys currency now blockIndex (globalIndexes.dedup.mergeSort.filterMap (keyOutputInfo amount))

end DatabaseBlockchainCache

end Extract

section Lemmas

variable {currency : UnlockCurrency} {now : UInt64}

theorem ownKeyOutputKey_ne_success (cache : BlockchainCache) (entry : OutputGlobalIndexesForAmount)
    (blockIndex globalIndex : Nat) :
    ownKeyOutputKey currency now cache entry blockIndex globalIndex ≠ some (.error .success) := by
  intro h
  simp only [ownKeyOutputKey, guard, Option.pure_def, Option.bind_eq_bind] at h
  -- each exit is a failure code or a key
  split at h
  · split at h
    · simp only [Option.bind_some] at h
      split at h
      · split at h
        · simp at h
        · obtain ⟨_, -, h⟩ := Option.bind_eq_some_iff.mp h
          simp at h
      · simp at h
    · simp at h
  · simp at h

theorem length_of_extractOwnKeyOutputKeys {cache : BlockchainCache} {entry : OutputGlobalIndexesForAmount}
    {blockIndex : Nat} :
    ∀ {globalIndexes : List Nat} {keys : List PublicKey},
      extractOwnKeyOutputKeys currency now cache entry blockIndex globalIndexes = some (.success, keys) →
        keys.length = globalIndexes.length
  | [], keys, h => by
    simp only [extractOwnKeyOutputKeys, Option.some.injEq, Prod.mk.injEq] at h
    simp [← h.2]
  | globalIndex :: globalIndexes, keys, h => by
    -- a failure code stops the loop with no key; a key is pushed before the rest
    cases hstep : ownKeyOutputKey currency now cache entry blockIndex globalIndex with
    | none => simp [extractOwnKeyOutputKeys, hstep] at h
    | some step =>
      cases step with
      | error result =>
        simp only [extractOwnKeyOutputKeys, hstep, Option.bind_eq_bind, Option.bind_some, Option.pure_def,
          Option.some.injEq, Prod.mk.injEq] at h
        rw [h.1] at hstep
        exact absurd hstep (ownKeyOutputKey_ne_success cache entry blockIndex globalIndex)
      | ok key =>
        cases hrest : extractOwnKeyOutputKeys currency now cache entry blockIndex globalIndexes with
        | none => simp [extractOwnKeyOutputKeys, hstep, hrest] at h
        | some pair =>
          obtain ⟨result, rest⟩ := pair
          simp only [extractOwnKeyOutputKeys, hstep, hrest, Option.bind_eq_bind, Option.bind_some,
            Option.pure_def, Option.some.injEq, Prod.mk.injEq] at h
          obtain ⟨rfl, rfl⟩ := h
          simp [length_of_extractOwnKeyOutputKeys hrest]

theorem length_of_extractKeyOutputKeys :
    ∀ {segments : List BlockchainCache} {amount : UInt64} {blockIndex : Nat} {globalIndexes : List Nat}
      {keys : List PublicKey},
      extractKeyOutputKeys currency now segments amount blockIndex globalIndexes = some (.success, keys) →
        keys.length = globalIndexes.length
  | [], _, _, _, _, h => by simp [extractKeyOutputKeys] at h
  | cache :: parents, amount, blockIndex, globalIndexes, keys, h => by
    -- the parent asked for all the indexes
    have hparent : ∀ {keys}, (if parents.isEmpty then some (ExtractOutputKeysResult.invalidGlobalIndex, [])
        else extractKeyOutputKeys currency now parents amount blockIndex globalIndexes) = some (.success, keys) →
        keys.length = globalIndexes.length := by
      intro keys hfrom
      split at hfrom
      · simp at hfrom
      · exact length_of_extractKeyOutputKeys hfrom
    by_cases hguard : globalIndexes ≠ [] ∧ globalIndexes.Pairwise (· < ·)
    · simp only [extractKeyOutputKeys, guard, if_pos hguard, Option.pure_def, Option.bind_eq_bind,
        Option.bind_some] at h
      cases hfind : cache.findKeyOutputs amount with
      | none =>
        simp only [hfind] at h
        exact hparent h
      | some entry =>
        simp only [hfind] at h
        by_cases hstart : blockIndex < cache.startIndex
        · rw [if_pos hstart] at h
          exact hparent h
        · -- the parent's part below the segment's first index, then the segment's own part
          rw [if_neg hstart] at h
          have hown : ∀ {pushed keys : List PublicKey},
              ((if entry.outputs ≠ [] then some () else failure).bind fun _ =>
                (extractOwnKeyOutputKeys currency now cache entry blockIndex
                  (globalIndexes.dropWhile (· < entry.startIndex))).bind fun own => some (own.1, pushed ++ own.2)) =
                some (.success, keys) →
              keys.length = pushed.length + (globalIndexes.dropWhile (· < entry.startIndex)).length := by
            intro pushed keys hrest
            by_cases hnonempty : entry.outputs ≠ []
            · rw [if_pos hnonempty, Option.bind_some] at hrest
              obtain ⟨⟨result, own⟩, hown, hrest⟩ := Option.bind_eq_some_iff.mp hrest
              simp only [Option.some.injEq, Prod.mk.injEq] at hrest
              obtain ⟨rfl, rfl⟩ := hrest
              rw [List.length_append, length_of_extractOwnKeyOutputKeys hown]
            · simp [hnonempty] at hrest
          have hsplit := @List.takeWhile_append_dropWhile _ (· < entry.startIndex) globalIndexes
          by_cases hempty : (globalIndexes.takeWhile (· < entry.startIndex)).isEmpty
          · rw [if_pos hempty] at h
            simp only [ne_eq, not_true_eq_false, if_false] at h
            rw [List.isEmpty_iff.mp hempty, List.nil_append] at hsplit
            rw [hown h, hsplit, List.length_nil, Nat.zero_add]
          · rw [if_neg hempty] at h
            obtain ⟨⟨result, below⟩, hbelow, h⟩ := Option.bind_eq_some_iff.mp h
            have hresult : result = .success := by
              by_contra hne
              simp [hne] at h
            subst hresult
            simp only [ne_eq, not_true_eq_false, if_false] at h
            rw [hown h, length_of_extractKeyOutputKeys hbelow, ← List.length_append, hsplit]
    · simp [extractKeyOutputKeys, guard, hguard] at h

namespace DatabaseBlockchainCache

theorem pushUnlockedKeys_eq_success {blockIndex : Nat} :
    ∀ {infos : List KeyOutputInfo} {keys : List PublicKey},
      pushUnlockedKeys currency now blockIndex infos = (.success, keys) ↔
        (∀ info ∈ infos, isTransactionSpendTimeUnlocked currency now info.unlockTime blockIndex = true) ∧
          keys = infos.map (·.publicKey)
  | [], keys => by
    simp only [pushUnlockedKeys, Prod.mk.injEq, true_and, List.not_mem_nil, false_implies, implies_true,
      List.map_nil]
    exact eq_comm
  | info :: infos, keys => by
    unfold pushUnlockedKeys
    split
    · rename_i hunlocked
      have ih := @pushUnlockedKeys_eq_success blockIndex infos
      constructor
      · intro h
        simp only [Prod.mk.injEq] at h
        obtain ⟨hall, hkeys⟩ := (@ih (pushUnlockedKeys currency now blockIndex infos).2).mp
          (Prod.ext h.1 rfl)
        refine ⟨?_, by rw [← h.2, hkeys, List.map_cons]⟩
        intro info' hmem
        rcases List.mem_cons.mp hmem with rfl | hmem
        · exact hunlocked
        · exact hall info' hmem
      · rintro ⟨hall, rfl⟩
        have hrest := (@ih (infos.map (·.publicKey))).mpr
          ⟨fun info' hmem => hall info' (List.mem_cons_of_mem _ hmem), rfl⟩
        rw [hrest, List.map_cons]
    · rename_i hlocked
      simp only [Prod.mk.injEq, reduceCtorEq, false_and, false_iff, not_and]
      intro hall
      exact absurd (hall info List.mem_cons_self) hlocked

theorem extractKeyOutputKeys_eq (keyOutputInfo : UInt64 → Nat → Option KeyOutputInfo) (amount : UInt64)
    (blockIndex : Nat) {globalIndexes : List Nat} (hsorted : globalIndexes.Pairwise (· < ·)) :
    extractKeyOutputKeys currency now keyOutputInfo amount blockIndex globalIndexes =
      pushUnlockedKeys currency now blockIndex (globalIndexes.filterMap (keyOutputInfo amount)) := by
  have hnodup : globalIndexes.Nodup := hsorted.imp (fun h => Nat.ne_of_lt h)
  have hle : globalIndexes.Pairwise (fun a b => decide (a ≤ b) = true) :=
    hsorted.imp (fun h => by simpa using Nat.le_of_lt h)
  rw [extractKeyOutputKeys, hnodup.dedup, List.mergeSort_of_pairwise hle]

/-- The two implementations disagree on a ring with an index past the amount's outputs. A chain
whose only output of amount `5` has global index `0`, held by a segment or by the database, is
asked for the indexes `[0, 1]`: the segment answers `INVALID_GLOBAL_INDEX`, while the database's
read drops index `1` and answers `SUCCESS` with one key for two indexes. -/
theorem extractKeyOutputKeys_database_drops_missing_index :
    let key : PublicKey := ⟨Vector.replicate 32 7⟩
    let transaction : CachedTransactionInfo := ⟨0, 0, ⟨Vector.replicate 32 1⟩, 0, [.keyOutput ⟨key⟩], [0]⟩
    let cache : BlockchainCache :=
      { BlockchainCache.create none 0 with
        transactions := [transaction], keyOutputsGlobalIndexes := [(5, ⟨0, [⟨0, 0, 0⟩]⟩)] }
    let keyOutputInfo : UInt64 → Nat → Option KeyOutputInfo := fun amount globalIndex =>
      if amount = 5 ∧ globalIndex = 0 then some ⟨key, transaction.transactionHash, 0, 0⟩ else none
    Crygcoin.extractKeyOutputKeys UnlockCurrency.default 0 [cache] 5 0 [0, 1] = some (.invalidGlobalIndex, [key]) ∧
      extractKeyOutputKeys UnlockCurrency.default 0 keyOutputInfo 5 0 [0, 1] = (.success, [key]) := by
  intro key transaction cache keyOutputInfo
  refine ⟨by decide +kernel, ?_⟩
  -- the read keeps index `0` only
  rw [extractKeyOutputKeys_eq keyOutputInfo 5 0 (by decide)]
  decide +kernel

end DatabaseBlockchainCache

end Lemmas

end Crygcoin
