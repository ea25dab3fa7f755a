import Mathlib
import Crygcoin.BlockchainCacheUpdate
import Crygcoin.TransactionExtra

namespace Crygcoin

/-! `DatabaseBlockchainCache.cpp`: the root segment of the block tree kept in the database. The
cache holds in memory only what it reads lazily from the database (the top block, the
transaction count and the per-amount output counts) and the last block infos. `pushBlock` fills a
`BlockchainWriteBatch` and writes it at the end. A member function that throws is a computation of
`EStateM String DatabaseBlockchainCache`: as in C++, the mutable members it changed before the
throw keep their new values. -/

/-- `KeyOutputInfo` of `DatabaseCacheData.h`. -/
structure KeyOutputInfo where
  publicKey : PublicKey
  transactionHash : Hash
  unlockTime : UInt64
  outputIndex : UInt16
deriving DecidableEq, Repr

/-- `ExtendedTransactionInfo`: the cached record of a transaction with the global indexes its
key outputs got, per amount. -/
structure ExtendedTransactionInfo extends CachedTransactionInfo where
  amountToKeyIndexes : List (UInt64 × List Nat)
deriving DecidableEq, Repr

/-- One insertion of a `BlockchainWriteBatch`; the batch is the list of them in call order. -/
inductive WriteRecord
  | spentKeyImages (blockIndex : UInt32) (spentKeyImages : List KeyImage)
  | cachedTransaction (transaction : ExtendedTransactionInfo) (totalTxsCount : UInt64)
  | paymentId (transactionHash paymentId : Hash) (totalTxsCountForPaymentId : UInt32)
  | cachedBlock (block : CachedBlockInfo) (blockIndex : UInt32) (blockTxs : List Hash)
  | keyOutputGlobalIndexes (amount : UInt64) (outputs : List PackedOutIndex) (totalOutputsCountForAmount : UInt32)
  | rawBlock (blockIndex : UInt32) (block : RawBlock)
  | closestTimestampBlockIndex (timestamp : UInt64) (blockIndex : UInt32)
  | keyOutputAmounts (amounts : List UInt64) (totalKeyOutputAmountsCount : UInt32)
  | timestamp (timestamp : UInt64) (blockHashes : List Hash)
  | keyOutputInfo (amount : UInt64) (globalIndex : UInt32) (outputInfo : KeyOutputInfo)
deriving DecidableEq, Repr

/-- `IDataBase` as the cache sees it during one `pushBlock`. Nothing is written before the batch,
so each key reads the same every time. A read is `.error` with the message of its error code,
or the value the read batch extracts, `none` where the key is absent; `write` answers the error
of `database.write(batch)`, `none` when it succeeded. -/
structure Database where
  lastBlockIndex : Except String (Option UInt32)
  transactionsCount : Except String (Option UInt64)
  cachedBlock : UInt32 → Except String (Option CachedBlockInfo)
  keyOutputGlobalIndexesCountForAmount : UInt64 → Except String (Option UInt32)
  keyOutputAmountsCount : Except String UInt32
  transactionCountByPaymentId : Hash → Except String (Option UInt32)
  blockHashesByTimestamp : UInt64 → Except String (Option (List Hash))
  closestTimestampBlockIndex : UInt64 → Except String (Option UInt32)
  write : List WriteRecord → Option String

/-- The members of `DatabaseBlockchainCache` that `pushBlock` reads or changes. The `mutable`
optionals are `none` until first read; `keyOutputCountsForAmounts` is the `std::unordered_map`
as an association list with one entry per amount. -/
structure DatabaseBlockchainCache where
  topBlockIndex : Option UInt32
  topBlockHash : Option Hash
  transactionsCount : Option UInt64
  keyOutputAmountsCount : Option UInt32
  keyOutputCountsForAmounts : List (UInt64 × Int32)
  unitsCache : List CachedBlockInfo
deriving DecidableEq, Repr

/-- A member function of `DatabaseBlockchainCache` that may throw. -/
abbrev DatabaseM := EStateM String DatabaseBlockchainCache

def unitsCacheSize : Nat := 1000

def ONE_DAY_SECONDS : UInt64 := 86400

namespace DatabaseBlockchainCache

variable (db : Database)

/-- `readDatabase`: a failed read throws its error's message. -/
def readDatabase {α : Type} : Except String α → DatabaseM α
  | .ok value => pure value
  | .error message => throw message

/-- `getTopBlockIndex`: a missing index reads as the pair's default `0`. -/
def getTopBlockIndex : DatabaseM UInt32 := do
  match (← get).topBlockIndex with
  | some index => pure index
  | none =>
    let lastBlockIndex ← readDatabase (db.lastBlockIndex)
    let index := lastBlockIndex.getD 0
    modify fun cache => { cache with topBlockIndex := some index }
    pure index

def getCachedTransactionsCount : DatabaseM UInt64 := do
  match (← get).transactionsCount with
  | some count => pure count
  | none =>
    let stored ← readDatabase (db.transactionsCount)
    let count := stored.getD 0
    modify fun cache => { cache with transactionsCount := some count }
    pure count

/-- `getCachedBlockInfo`: `std::unordered_map::at` throws on a block the database lacks. -/
def getCachedBlockInfo (index : UInt32) : DatabaseM CachedBlockInfo := do
  match ← readDatabase (db.cachedBlock index) with
  | some info => pure info
  | none => throw "_Map_base::at"

/-- `it->second += diff` on the entry of `amount`. -/
def addCount (counts : List (UInt64 × Int32)) (amount : UInt64) (diff : Int32) : List (UInt64 × Int32) :=
  counts.map fun entry => if entry.1 = amount then (entry.1, entry.2 + diff) else entry

/-- `keyOutputAmountsCount` once it is loaded. -/
def loadKeyOutputAmountsCount : DatabaseM UInt32 := do
  match (← get).keyOutputAmountsCount with
  | some count => pure count
  | none => readDatabase (db.keyOutputAmountsCount)

/-- `updateKeyOutputCount`: the count of `amount` is read from the database on first use, and
an amount the database has no output of is counted as a new one in `keyOutputAmountsCount`. -/
def updateKeyOutputCount (amount : UInt64) (diff : Int32) : DatabaseM UInt32 := do
  let count ← match (← get).keyOutputCountsForAmounts.lookup amount with
    | none => do
      let stored ← readDatabase (db.keyOutputGlobalIndexesCountForAmount amount)
      let val := stored.getD 0
      modify fun cache =>
        { cache with keyOutputCountsForAmounts := cache.keyOutputCountsForAmounts ++ [(amount, val.toInt32)] }
      if val = 0 then
        let amountsCount ← loadKeyOutputAmountsCount db
        modify fun cache => { cache with keyOutputAmountsCount := some (amountsCount + 1) }
      pure val.toInt32
    | some count => do
      if (← get).keyOutputAmountsCount.isNone then
        let amountsCount ← readDatabase (db.keyOutputAmountsCount)
        modify fun cache => { cache with keyOutputAmountsCount := some amountsCount }
      pure count
  modify fun cache => { cache with keyOutputCountsForAmounts := addCount cache.keyOutputCountsForAmounts amount diff }
  pure (count + diff).toUInt32

end DatabaseBlockchainCache

/-- `map[key].push_back(value)` on an association list. -/
def pushBackAt {κ ν : Type} [BEq κ] (entries : List (κ × List ν)) (key : κ) (value : ν) : List (κ × List ν) :=
  if entries.any (·.1 == key) then
    entries.map fun entry => if entry.1 == key then (entry.1, entry.2 ++ [value]) else entry
  else entries ++ [(key, [value])]

/-- What the loop over the outputs of `pushTransaction` builds: the transaction's record,
`keyIndexes`, `newKeyAmounts` (a `std::set`, kept sorted) and the batch. -/
structure PushedOutputs where
  info : ExtendedTransactionInfo
  keyIndexes : List (UInt64 × List PackedOutIndex)
  newKeyAmounts : List UInt64
  batch : List WriteRecord

namespace DatabaseBlockchainCache

variable (db : Database)

/-- One round of the loop over the outputs of `pushTransaction`. -/
def pushOutput (outputIndex : UInt16) (output : TransactionOutput) (pushed : PushedOutputs) :
    DatabaseM PushedOutputs := do
  let poi : PackedOutIndex := ⟨pushed.info.blockIndex, pushed.info.transactionIndex, outputIndex.toNat⟩
  match output.target with
  | .keyOutput keyOutput =>
    let outputCountForAmount ← updateKeyOutputCount db output.amount 1
    let newKeyAmounts := if outputCountForAmount = 1 ∧ output.amount ∉ pushed.newKeyAmounts then
      pushed.newKeyAmounts.orderedInsert (· ≤ ·) output.amount else pushed.newKeyAmounts
    let globalIndex := outputCountForAmount - 1
    let outputInfo : KeyOutputInfo :=
      ⟨keyOutput.key, pushed.info.transactionHash, pushed.info.unlockTime, outputIndex⟩
    pure
      { info :=
          { pushed.info with
            outputs := pushed.info.outputs ++ [output.target]
            globalIndexes := pushed.info.globalIndexes ++ [globalIndex.toNat]
            amountToKeyIndexes := pushBackAt pushed.info.amountToKeyIndexes output.amount globalIndex.toNat }
        keyIndexes := pushBackAt pushed.keyIndexes output.amount poi
        newKeyAmounts
        batch := pushed.batch ++ [.keyOutputInfo output.amount globalIndex outputInfo] }

/-- The loop over the outputs of `pushTransaction`, `outputCount` counting them. -/
def pushOutputs : UInt16 → List TransactionOutput → PushedOutputs → DatabaseM PushedOutputs
  | _, [], pushed => pure pushed
  | outputCount, output :: outputs, pushed => do
    let pushed ← pushOutput db outputCount output pushed
    pushOutputs (outputCount + 1) outputs pushed

/-- The loop over `keyIndexes`: each amount's positions with its count, which the first loop
has already raised (`updateKeyOutputCount(amount, 0)`). -/
def insertKeyOutputGlobalIndexes :
    List (UInt64 × List PackedOutIndex) → List WriteRecord → DatabaseM (List WriteRecord)
  | [], batch => pure batch
  | (amount, outputs) :: keyIndexes, batch => do
    let count ← updateKeyOutputCount db amount 0
    insertKeyOutputGlobalIndexes keyIndexes (batch ++ [.keyOutputGlobalIndexes amount outputs count])

def insertPaymentId (transactionHash paymentId : Hash) (batch : List WriteRecord) :
    DatabaseM (List WriteRecord) := do
  let stored ← readDatabase (db.transactionCountByPaymentId paymentId)
  pure (batch ++ [.paymentId transactionHash paymentId (stored.getD 0 + 1)])

/-- The record `pushTransaction` starts from, before the loop over the outputs. -/
def transactionCacheInfo (cachedTransaction : CachedTransaction) (blockIndex : UInt32)
    (transactionBlockIndex : UInt16) : ExtendedTransactionInfo :=
  { blockIndex := blockIndex.toNat
    transactionIndex := transactionBlockIndex.toNat
    transactionHash := cachedTransaction.transactionHash
    unlockTime := cachedTransaction.transaction.unlockTime
    outputs := []
    globalIndexes := []
    amountToKeyIndexes := [] }

/-- `if (!newKeyAmounts.empty())`, the amounts new to the database with the count of them all.
`updateKeyOutputCount` has loaded `keyOutputAmountsCount`, so its `assert` holds. -/
def insertKeyOutputAmounts (newKeyAmounts : List UInt64) (batch : List WriteRecord) :
    DatabaseM (List WriteRecord) := do
  if newKeyAmounts.isEmpty then pure batch
  else
    let amountsCount := (← get).keyOutputAmountsCount.getD 0
    pure (batch ++ [.keyOutputAmounts newKeyAmounts amountsCount])

def insertTransactionPaymentId (cachedTransaction : CachedTransaction) (batch : List WriteRecord) :
    DatabaseM (List WriteRecord) :=
  match getPaymentIdFromTxExtra cachedTransaction.transaction.extra with
  | some paymentId => insertPaymentId db cachedTransaction.transactionHash paymentId batch
  | none => pure batch

/-- `pushTransaction`. Every output target is a `KeyOutput`, the one type of the variant. -/
def pushTransaction (cachedTransaction : CachedTransaction) (blockIndex : UInt32)
    (transactionBlockIndex : UInt16) (batch : List WriteRecord) : DatabaseM (List WriteRecord) := do
  let pushed ← pushOutputs db 0 cachedTransaction.transaction.outputs
    ⟨transactionCacheInfo cachedTransaction blockIndex transactionBlockIndex, [], [], batch⟩
  let batch ← insertKeyOutputGlobalIndexes db pushed.keyIndexes pushed.batch
  let batch ← insertKeyOutputAmounts pushed.newKeyAmounts batch
  let batch ← insertTransactionPaymentId db cachedTransaction batch
  let count ← getCachedTransactionsCount db
  modify fun cache => { cache with transactionsCount := some (count + 1) }
  pure (batch ++ [.cachedTransaction pushed.info (count + 1)])

/-- The loop of `pushBlock` over the block's other transactions, `transactionIndex` counting
from the miner transaction's `0`. -/
def pushTransactions (blockIndex : UInt32) :
    UInt16 → List CachedTransaction → List WriteRecord → DatabaseM (List WriteRecord)
  | _, [], batch => pure batch
  | transactionIndex, transaction :: transactions, batch => do
    let batch ← pushTransaction db transaction blockIndex transactionIndex batch
    pushTransactions blockIndex (transactionIndex + 1) transactions batch

end DatabaseBlockchainCache

/-- `roundToMidnight`, with `time_t` 64 bits wide. -/
def roundToMidnight (timestamp : UInt64) : Except String UInt64 :=
  if timestamp.toNat > 2 ^ 63 - 1 then .error "Timestamp is too big"
  else .ok (timestamp / ONE_DAY_SECONDS * ONE_DAY_SECONDS)

/-- `requestClosestBlockIndexByTimestamp`: the index, and whether the read succeeded. -/
def requestClosestBlockIndexByTimestamp (timestamp : UInt64) (db : Database) : Option UInt32 × Bool :=
  match db.closestTimestampBlockIndex timestamp with
  | .ok index => (index, true)
  | .error _ => (none, false)

namespace DatabaseBlockchainCache

variable (db : Database)

def insertBlockTimestamp (timestamp : UInt64) (blockHash : Hash) (batch : List WriteRecord) :
    DatabaseM (List WriteRecord) := do
  let blockHashes ← readDatabase (db.blockHashesByTimestamp timestamp)
  pure (batch ++ [.timestamp timestamp (blockHashes.getD [] ++ [blockHash])])

/-- `unitsCache.push_back(blockInfo)`, then `pop_front` past `unitsCacheSize`. -/
def pushUnit (unitsCache : List CachedBlockInfo) (blockInfo : CachedBlockInfo) : List CachedBlockInfo :=
  let unitsCache := unitsCache ++ [blockInfo]
  if unitsCache.length > unitsCacheSize then unitsCache.tail else unitsCache

/-- `DatabaseBlockchainCache::pushBlock`. The source calls `getTopBlockIndex()` at each use; after
the first it answers the loaded value, here `top`. The in-memory top moves only after the write. -/
def pushBlock (cachedBlock : CachedBlock) (cachedTransactions : List CachedTransaction)
    (validatorState : TransactionValidatorState) (blockSize : Nat) (generatedCoins blockDifficulty : UInt64)
    (rawBlock : RawBlock) : DatabaseM Unit := do
  let top ← getTopBlockIndex db
  let lastBlockInfo ← getCachedBlockInfo db top
  let blockInfo : CachedBlockInfo :=
    { blockHash := cachedBlock.blockHash
      timestamp := cachedBlock.block.timestamp
      cumulativeDifficulty := lastBlockInfo.cumulativeDifficulty + blockDifficulty
      alreadyGeneratedCoins := lastBlockInfo.alreadyGeneratedCoins + generatedCoins
      alreadyGeneratedTransactions :=
        lastBlockInfo.alreadyGeneratedTransactions + UInt64.ofNat cachedTransactions.length + 1
      blockSize := UInt32.ofNat blockSize }
  -- the miner transaction's hash is always the first of the block's
  let txHashes := cachedBlock.baseTransactionHash :: cachedBlock.block.transactionHashes
  let batch := [.spentKeyImages (top + 1) validatorState.spentKeyImages, .cachedBlock blockInfo (top + 1) txHashes,
    .rawBlock (top + 1) rawBlock]
  let batch ← pushTransaction db cachedBlock.baseCachedTransaction (top + 1) 0 batch
  let batch ← pushTransactions db (top + 1) 1 cachedTransactions batch
  let midnight ← readDatabase (roundToMidnight cachedBlock.block.timestamp)
  let closestBlockIndexDb := requestClosestBlockIndexByTimestamp midnight db
  if !closestBlockIndexDb.2 then throw "Couldn't get closest to timestamp block index"
  let batch := if closestBlockIndexDb.1.isNone then
    batch ++ [.closestTimestampBlockIndex midnight (top + 1)] else batch
  let batch ← insertBlockTimestamp db cachedBlock.block.timestamp cachedBlock.blockHash batch
  match db.write batch with
  | some message => throw message
  | none =>
    modify fun cache =>
      { cache with
        topBlockIndex := some (top + 1)
        topBlockHash := some cachedBlock.blockHash
        unitsCache := pushUnit cache.unitsCache blockInfo }

end DatabaseBlockchainCache

namespace DatabaseBlockchainCache

/-! What `pushBlock` leaves in memory. The lazily loaded members are read through what they
stand for: the cached value, else what the database answers. -/

/-- The top block index `getTopBlockIndex` answers. -/
def cachedTopBlockIndex (db : Database) (cache : DatabaseBlockchainCache) : UInt32 :=
  cache.topBlockIndex.getD (match db.lastBlockIndex with
    | .ok lastBlockIndex => lastBlockIndex.getD 0
    | .error _ => 0)

/-- The transaction count `getCachedTransactionsCount` answers. -/
def cachedTransactionsCount (db : Database) (cache : DatabaseBlockchainCache) : UInt64 :=
  cache.transactionsCount.getD (match db.transactionsCount with
    | .ok stored => stored.getD 0
    | .error _ => 0)

/-- The count of `amount` that `updateKeyOutputCount` starts from. -/
def keyOutputCount (db : Database) (cache : DatabaseBlockchainCache) (amount : UInt64) : Int32 :=
  match cache.keyOutputCountsForAmounts.lookup amount with
  | some count => count
  | none =>
    match db.keyOutputGlobalIndexesCountForAmount amount with
    | .ok stored => (stored.getD 0).toInt32
    | .error _ => 0

/-- `after` is `cache` with `transactions` more transactions and `outputs amount` more outputs of
each amount counted, and the top block and the units cache as they were. -/
structure Raised (db : Database) (cache after : DatabaseBlockchainCache) (transactions : UInt64)
    (outputs : UInt64 → Int32) : Prop where
  topBlockIndex : after.cachedTopBlockIndex db = cache.cachedTopBlockIndex db
  topBlockHash : after.topBlockHash = cache.topBlockHash
  unitsCache : after.unitsCache = cache.unitsCache
  transactionsCount : after.cachedTransactionsCount db = cache.cachedTransactionsCount db + transactions
  keyOutputCount : ∀ amount, after.keyOutputCount db amount = cache.keyOutputCount db amount + outputs amount

/-- Every read of `pushBlock` succeeds. -/
structure ReadsSucceed (db : Database) : Prop where
  lastBlockIndex : ∃ index, db.lastBlockIndex = .ok index
  transactionsCount : ∃ count, db.transactionsCount = .ok count
  keyOutputGlobalIndexesCountForAmount : ∀ amount, ∃ count, db.keyOutputGlobalIndexesCountForAmount amount = .ok count
  keyOutputAmountsCount : ∃ count, db.keyOutputAmountsCount = .ok count
  transactionCountByPaymentId : ∀ paymentId, ∃ count, db.transactionCountByPaymentId paymentId = .ok count
  blockHashesByTimestamp : ∀ timestamp, ∃ blockHashes, db.blockHashesByTimestamp timestamp = .ok blockHashes
  closestTimestampBlockIndex : ∀ timestamp, ∃ index, db.closestTimestampBlockIndex timestamp = .ok index

section Raised

variable {db : Database} {cache middle after : DatabaseBlockchainCache}

theorem Raised.refl : Raised db cache cache 0 0 :=
  ⟨rfl, rfl, rfl, (UInt64.add_zero _).symm, fun _ => (Int32.add_zero _).symm⟩

theorem Raised.trans {transactions transactions' : UInt64} {outputs outputs' : UInt64 → Int32}
    (h : Raised db cache middle transactions outputs) (h' : Raised db middle after transactions' outputs') :
    Raised db cache after (transactions + transactions') (outputs + outputs') where
  topBlockIndex := h'.topBlockIndex.trans h.topBlockIndex
  topBlockHash := h'.topBlockHash.trans h.topBlockHash
  unitsCache := h'.unitsCache.trans h.unitsCache
  transactionsCount := by rw [h'.transactionsCount, h.transactionsCount, UInt64.add_assoc]
  keyOutputCount amount := by rw [h'.keyOutputCount, h.keyOutputCount, Pi.add_apply, Int32.add_assoc]

theorem Raised.zero_trans {transactions : UInt64} {outputs : UInt64 → Int32}
    (h : Raised db cache middle 0 0) (h' : Raised db middle after transactions outputs) :
    Raised db cache after transactions outputs where
  topBlockIndex := h'.topBlockIndex.trans h.topBlockIndex
  topBlockHash := h'.topBlockHash.trans h.topBlockHash
  unitsCache := h'.unitsCache.trans h.unitsCache
  transactionsCount := by rw [h'.transactionsCount, h.transactionsCount, UInt64.add_zero]
  keyOutputCount amount := by rw [h'.keyOutputCount, h.keyOutputCount, Pi.zero_apply, Int32.add_zero]

end Raised

section UpdateKeyOutputCount

variable {db : Database}

@[simp] theorem run_readDatabase_ok {α : Type} (value : α) (cache : DatabaseBlockchainCache) :
    (readDatabase (.ok value)).run cache = .ok value cache := rfl

theorem lookup_cons_of_eq {κ ν : Type} [BEq κ] [LawfulBEq κ] {key key' : κ} (value : ν) (entries : List (κ × ν))
    (hkey : key' = key) : ((key, value) :: entries).lookup key' = some value := by
  simp [hkey]

theorem lookup_cons_of_ne {κ ν : Type} [BEq κ] [LawfulBEq κ] {key key' : κ} (value : ν) (entries : List (κ × ν))
    (hkey : key' ≠ key) : ((key, value) :: entries).lookup key' = entries.lookup key' := by
  simp [List.lookup_cons, beq_eq_false_iff_ne.mpr hkey]

theorem lookup_addCount (counts : List (UInt64 × Int32)) (amount amount' : UInt64) (diff : Int32) :
    (addCount counts amount diff).lookup amount' =
      if amount' = amount then (counts.lookup amount').map (· + diff) else counts.lookup amount' := by
  induction counts with
  | nil => simp [addCount]
  | cons entry counts ih =>
    obtain ⟨key, count⟩ := entry
    have hstep : addCount ((key, count) :: counts) amount diff =
        (if key = amount then (key, count + diff) else (key, count)) :: addCount counts amount diff := rfl
    -- the head entry is raised exactly when its key is the amount
    by_cases hkey : key = amount
    · rw [hstep, if_pos hkey]
      by_cases hkey' : amount' = key
      · rw [lookup_cons_of_eq _ _ hkey', lookup_cons_of_eq _ _ hkey', if_pos (hkey'.trans hkey)]
        rfl
      · have hne : amount' ≠ amount := fun h => hkey' (h.trans hkey.symm)
        rw [lookup_cons_of_ne _ _ hkey', lookup_cons_of_ne _ _ hkey', ih, if_neg hne]
    · rw [hstep, if_neg hkey]
      by_cases hkey' : amount' = key
      · have hne : amount' ≠ amount := fun h => hkey (hkey'.symm.trans h)
        rw [lookup_cons_of_eq _ _ hkey', lookup_cons_of_eq _ _ hkey', if_neg hne]
      · rw [lookup_cons_of_ne _ _ hkey', lookup_cons_of_ne _ _ hkey', ih]

theorem loadKeyOutputAmountsCount_run (hreads : ReadsSucceed db) (cache : DatabaseBlockchainCache) :
    ∃ count, (loadKeyOutputAmountsCount db).run cache = .ok count cache := by
  obtain ⟨stored, hstored⟩ := hreads.keyOutputAmountsCount
  cases hcount : cache.keyOutputAmountsCount with
  | none => exact ⟨stored, by simp [loadKeyOutputAmountsCount, EStateM.run_bind, hcount, hstored]⟩
  | some count => exact ⟨count, by simp [loadKeyOutputAmountsCount, EStateM.run_bind, hcount]⟩

theorem Raised.loadKeyOutputAmountsCount {cache : DatabaseBlockchainCache} (amountsCount : Option UInt32) :
    Raised db cache { cache with keyOutputAmountsCount := amountsCount } 0 0 :=
  ⟨rfl, rfl, rfl, (UInt64.add_zero _).symm, fun _ => (Int32.add_zero _).symm⟩

theorem Raised.loadCount {cache : DatabaseBlockchainCache} {amount : UInt64} {stored : Option UInt32}
    (hlookup : cache.keyOutputCountsForAmounts.lookup amount = none)
    (hstored : db.keyOutputGlobalIndexesCountForAmount amount = .ok stored) :
    Raised db cache { cache with
      keyOutputCountsForAmounts := cache.keyOutputCountsForAmounts ++ [(amount, (stored.getD 0).toInt32)] } 0 0 := by
  refine ⟨rfl, rfl, rfl, (UInt64.add_zero _).symm, fun amount' => ?_⟩
  by_cases hsame : amount' = amount
  · subst hsame
    simp [DatabaseBlockchainCache.keyOutputCount, List.lookup_append, hlookup, hstored]
  · simp [DatabaseBlockchainCache.keyOutputCount, List.lookup_append, lookup_cons_of_ne _ _ hsame]

theorem Raised.addCount {cache : DatabaseBlockchainCache} {amount : UInt64} {count : Int32}
    (hcount : cache.keyOutputCountsForAmounts.lookup amount = some count) (diff : Int32) :
    Raised db cache { cache with keyOutputCountsForAmounts := addCount cache.keyOutputCountsForAmounts amount diff } 0
      (fun amount' => if amount' = amount then diff else 0) := by
  refine ⟨rfl, rfl, rfl, (UInt64.add_zero _).symm, fun amount' => ?_⟩
  by_cases hsame : amount' = amount
  · subst hsame
    simp [DatabaseBlockchainCache.keyOutputCount, lookup_addCount, hcount]
  · simp [DatabaseBlockchainCache.keyOutputCount, lookup_addCount, hsame]

theorem updateKeyOutputCount_run (hreads : ReadsSucceed db) (cache : DatabaseBlockchainCache)
    (amount : UInt64) (diff : Int32) :
    ∃ after, (updateKeyOutputCount db amount diff).run cache =
        .ok (keyOutputCount db cache amount + diff).toUInt32 after ∧
      Raised db cache after 0 (fun amount' => if amount' = amount then diff else 0) := by
  cases hlookup : cache.keyOutputCountsForAmounts.lookup amount with
  | none =>
    obtain ⟨stored, hstored⟩ := hreads.keyOutputGlobalIndexesCountForAmount amount
    have hcount : keyOutputCount db cache amount = (stored.getD 0).toInt32 := by
      simp [keyOutputCount, hlookup, hstored]
    simp only [updateKeyOutputCount, EStateM.run_bind, EStateM.run_get, hlookup, hstored, run_readDatabase_ok,
      EStateM.run_modify]
    have hloaded := Raised.loadCount hlookup hstored
    have hsome : (cache.keyOutputCountsForAmounts ++ [(amount, (stored.getD 0).toInt32)]).lookup amount =
        some (stored.getD 0).toInt32 := by
      simp [List.lookup_append, hlookup]
    rw [hcount]
    by_cases hzero : stored.getD 0 = 0
    · -- a new amount: `keyOutputAmountsCount` is loaded and raised
      obtain ⟨amountsCount, hload⟩ := loadKeyOutputAmountsCount_run hreads
        { cache with keyOutputCountsForAmounts := cache.keyOutputCountsForAmounts ++ [(amount, (stored.getD 0).toInt32)] }
      simp only [if_pos hzero, EStateM.run_bind, hload, EStateM.run_modify, EStateM.run_pure]
      exact ⟨_, rfl, hloaded.zero_trans ((Raised.loadKeyOutputAmountsCount _).zero_trans (Raised.addCount hsome diff))⟩
    · simp only [if_neg hzero, EStateM.run_bind, EStateM.run_modify, EStateM.run_pure]
      exact ⟨_, rfl, hloaded.zero_trans (Raised.addCount hsome diff)⟩
  | some count =>
    have hcount : keyOutputCount db cache amount = count := by simp [keyOutputCount, hlookup]
    simp only [updateKeyOutputCount, EStateM.run_bind, EStateM.run_get, hlookup]
    rw [hcount]
    by_cases hnone : cache.keyOutputAmountsCount.isNone = true
    · -- the first count of this cache's life: `keyOutputAmountsCount` is loaded
      obtain ⟨amountsCount, hamounts⟩ := hreads.keyOutputAmountsCount
      simp only [if_pos hnone, EStateM.run_bind, hamounts, run_readDatabase_ok, EStateM.run_modify, EStateM.run_pure]
      have hloaded : List.lookup amount
          ({ cache with keyOutputAmountsCount := some amountsCount } : DatabaseBlockchainCache).keyOutputCountsForAmounts =
            some count := hlookup
      exact ⟨_, rfl, (Raised.loadKeyOutputAmountsCount _).zero_trans (Raised.addCount hloaded diff)⟩
    · simp only [if_neg hnone, EStateM.run_bind, EStateM.run_modify, EStateM.run_pure]
      exact ⟨_, rfl, Raised.addCount hlookup diff⟩

end UpdateKeyOutputCount

section Push

variable {db : Database}

/-- How many of `outputs` have `amount`. -/
def outputsOfAmount (outputs : List TransactionOutput) (amount : UInt64) : Int32 :=
  Int32.ofNat (outputs.countP (·.amount == amount))

theorem outputsOfAmount_nil : outputsOfAmount [] = 0 := rfl

theorem outputsOfAmount_cons (output : TransactionOutput) (outputs : List TransactionOutput) (amount : UInt64) :
    outputsOfAmount (output :: outputs) amount =
      (if amount = output.amount then 1 else 0) + outputsOfAmount outputs amount := by
  by_cases hamount : amount = output.amount
  · simp [outputsOfAmount, hamount, Int32.ofNat_add, Int32.add_comm]
  · simp [outputsOfAmount, hamount, Ne.symm hamount]

theorem Raised.congr {cache after : DatabaseBlockchainCache} {transactions transactions' : UInt64}
    {outputs outputs' : UInt64 → Int32} (h : Raised db cache after transactions outputs)
    (htransactions : transactions = transactions') (houtputs : ∀ amount, outputs amount = outputs' amount) :
    Raised db cache after transactions' outputs' := by
  subst htransactions
  obtain rfl : outputs = outputs' := funext houtputs
  exact h

theorem pushOutput_run (hreads : ReadsSucceed db) (outputIndex : UInt16) (output : TransactionOutput)
    (pushed : PushedOutputs) (cache : DatabaseBlockchainCache) :
    ∃ pushed' after, (pushOutput db outputIndex output pushed).run cache = .ok pushed' after ∧
      Raised db cache after 0 (fun amount => if amount = output.amount then 1 else 0) := by
  obtain ⟨amount, ⟨keyOutput⟩⟩ := output
  obtain ⟨after, hrun, hraised⟩ := updateKeyOutputCount_run hreads cache amount 1
  simp only [pushOutput, EStateM.run_bind, hrun, EStateM.run_pure]
  exact ⟨_, after, rfl, hraised⟩

theorem pushOutputs_run (hreads : ReadsSucceed db) (outputs : List TransactionOutput) :
    ∀ (outputCount : UInt16) (pushed : PushedOutputs) (cache : DatabaseBlockchainCache),
      ∃ pushed' after, (pushOutputs db outputCount outputs pushed).run cache = .ok pushed' after ∧
        Raised db cache after 0 (outputsOfAmount outputs) := by
  induction outputs with
  | nil => exact fun _ pushed cache => ⟨pushed, cache, rfl, Raised.refl⟩
  | cons output outputs ih =>
    intro outputCount pushed cache
    obtain ⟨middlePushed, middle, hrun, hraised⟩ := pushOutput_run hreads outputCount output pushed cache
    obtain ⟨pushed', after, hrun', hraised'⟩ := ih (outputCount + 1) middlePushed middle
    refine ⟨pushed', after, ?_, (hraised.trans hraised').congr (UInt64.add_zero 0) fun amount => ?_⟩
    · simp only [pushOutputs, EStateM.run_bind, hrun, hrun']
    · rw [Pi.add_apply, outputsOfAmount_cons]

theorem insertKeyOutputGlobalIndexes_run (hreads : ReadsSucceed db) (keyIndexes : List (UInt64 × List PackedOutIndex)) :
    ∀ (batch : List WriteRecord) (cache : DatabaseBlockchainCache),
      ∃ batch' after, (insertKeyOutputGlobalIndexes db keyIndexes batch).run cache = .ok batch' after ∧
        Raised db cache after 0 0 := by
  induction keyIndexes with
  | nil => exact fun batch cache => ⟨batch, cache, rfl, Raised.refl⟩
  | cons entry keyIndexes ih =>
    intro batch cache
    obtain ⟨amount, outputs⟩ := entry
    obtain ⟨middle, hrun, hraised⟩ := updateKeyOutputCount_run hreads cache amount 0
    obtain ⟨batch', after, hrun', hraised'⟩ := ih
      (batch ++ [.keyOutputGlobalIndexes amount outputs (keyOutputCount db cache amount + 0).toUInt32]) middle
    -- `updateKeyOutputCount(amount, 0)` only loads what it reads
    have hzero : Raised db cache middle 0 0 := hraised.congr rfl fun amount' => by split <;> rfl
    refine ⟨batch', after, ?_, hzero.zero_trans hraised'⟩
    simp only [insertKeyOutputGlobalIndexes, EStateM.run_bind, hrun, hrun']

theorem insertKeyOutputAmounts_run (newKeyAmounts : List UInt64) (batch : List WriteRecord)
    (cache : DatabaseBlockchainCache) :
    ∃ batch', (insertKeyOutputAmounts newKeyAmounts batch).run cache = .ok batch' cache := by
  by_cases hempty : newKeyAmounts.isEmpty = true
  · exact ⟨batch, by simp [insertKeyOutputAmounts, hempty]⟩
  · exact ⟨batch ++ [.keyOutputAmounts newKeyAmounts (cache.keyOutputAmountsCount.getD 0)],
      by simp [insertKeyOutputAmounts, hempty]⟩

theorem insertTransactionPaymentId_run (hreads : ReadsSucceed db) (cachedTransaction : CachedTransaction)
    (batch : List WriteRecord) (cache : DatabaseBlockchainCache) :
    ∃ batch', (insertTransactionPaymentId db cachedTransaction batch).run cache = .ok batch' cache := by
  cases hpaymentId : getPaymentIdFromTxExtra cachedTransaction.transaction.extra with
  | none => exact ⟨batch, by simp [insertTransactionPaymentId, hpaymentId]⟩
  | some paymentId =>
    obtain ⟨stored, hstored⟩ := hreads.transactionCountByPaymentId paymentId
    exact ⟨batch ++ [.paymentId cachedTransaction.transactionHash paymentId (stored.getD 0 + 1)],
      by simp [insertTransactionPaymentId, hpaymentId, insertPaymentId, hstored]⟩

theorem getCachedTransactionsCount_run (hreads : ReadsSucceed db) (cache : DatabaseBlockchainCache) :
    ∃ after, (getCachedTransactionsCount db).run cache = .ok (cachedTransactionsCount db cache) after ∧
      ∀ count, { after with transactionsCount := some count } = { cache with transactionsCount := some count } := by
  cases hcount : cache.transactionsCount with
  | none =>
    obtain ⟨stored, hstored⟩ := hreads.transactionsCount
    refine ⟨{ cache with transactionsCount := some (stored.getD 0) }, ?_, fun _ => rfl⟩
    simp [getCachedTransactionsCount, cachedTransactionsCount, EStateM.run_bind, hcount, hstored]
  | some count =>
    refine ⟨cache, ?_, fun _ => rfl⟩
    simp [getCachedTransactionsCount, cachedTransactionsCount, EStateM.run_bind, hcount]

theorem Raised.countTransaction (cache : DatabaseBlockchainCache) :
    Raised db cache { cache with transactionsCount := some (cachedTransactionsCount db cache + 1) } 1 0 :=
  ⟨rfl, rfl, rfl, rfl, fun _ => (Int32.add_zero _).symm⟩

theorem pushTransaction_run (hreads : ReadsSucceed db) (cachedTransaction : CachedTransaction)
    (blockIndex : UInt32) (transactionBlockIndex : UInt16) (batch : List WriteRecord)
    (cache : DatabaseBlockchainCache) :
    ∃ batch' after,
      (pushTransaction db cachedTransaction blockIndex transactionBlockIndex batch).run cache = .ok batch' after ∧
        Raised db cache after 1 (outputsOfAmount cachedTransaction.transaction.outputs) := by
  obtain ⟨pushed, cache₁, hpushed, hraised₁⟩ := pushOutputs_run hreads cachedTransaction.transaction.outputs 0
    ⟨transactionCacheInfo cachedTransaction blockIndex transactionBlockIndex, [], [], batch⟩ cache
  obtain ⟨batch₂, cache₂, hindexes, hraised₂⟩ :=
    insertKeyOutputGlobalIndexes_run hreads pushed.keyIndexes pushed.batch cache₁
  obtain ⟨batch₃, hamounts⟩ := insertKeyOutputAmounts_run pushed.newKeyAmounts batch₂ cache₂
  obtain ⟨batch₄, hpaymentId⟩ := insertTransactionPaymentId_run hreads cachedTransaction batch₃ cache₂
  obtain ⟨cache₃, hcount, hloaded⟩ := getCachedTransactionsCount_run hreads cache₂
  refine ⟨batch₄ ++ [.cachedTransaction pushed.info (cachedTransactionsCount db cache₂ + 1)], _, ?_,
    ((hraised₁.trans hraised₂).trans (Raised.countTransaction cache₂)).congr rfl fun amount => ?_⟩
  · simp only [pushTransaction, EStateM.run_bind, hpushed, hindexes, hamounts, hpaymentId, hcount,
      EStateM.run_modify, EStateM.run_pure, hloaded]
  · simp [Pi.add_apply, Int32.add_zero]

theorem outputsOfAmount_append (outputs outputs' : List TransactionOutput) (amount : UInt64) :
    outputsOfAmount (outputs ++ outputs') amount = outputsOfAmount outputs amount + outputsOfAmount outputs' amount := by
  simp [outputsOfAmount, List.countP_append, Int32.ofNat_add]

theorem pushTransactions_run (hreads : ReadsSucceed db) (blockIndex : UInt32) (transactions : List CachedTransaction) :
    ∀ (transactionIndex : UInt16) (batch : List WriteRecord) (cache : DatabaseBlockchainCache),
      ∃ batch' after, (pushTransactions db blockIndex transactionIndex transactions batch).run cache = .ok batch' after ∧
        Raised db cache after (UInt64.ofNat transactions.length)
          (outputsOfAmount (transactions.flatMap (·.transaction.outputs))) := by
  induction transactions with
  | nil => exact fun _ batch cache => ⟨batch, cache, rfl, Raised.refl⟩
  | cons transaction transactions ih =>
    intro transactionIndex batch cache
    obtain ⟨batch₁, middle, hrun, hraised⟩ := pushTransaction_run hreads transaction blockIndex transactionIndex batch cache
    obtain ⟨batch', after, hrun', hraised'⟩ := ih (transactionIndex + 1) batch₁ middle
    refine ⟨batch', after, ?_, (hraised.trans hraised').congr ?_ fun amount => ?_⟩
    · simp only [pushTransactions, EStateM.run_bind, hrun, hrun']
    · rw [List.length_cons, UInt64.ofNat_add, UInt64.add_comm, UInt64.ofNat_one]
    · rw [List.flatMap_cons, outputsOfAmount_append, Pi.add_apply]

end Push

section PushBlock

variable {db : Database}

theorem getTopBlockIndex_run (hreads : ReadsSucceed db) (cache : DatabaseBlockchainCache) :
    ∃ after, (getTopBlockIndex db).run cache = .ok (cachedTopBlockIndex db cache) after ∧ Raised db cache after 0 0 := by
  cases htop : cache.topBlockIndex with
  | none =>
    obtain ⟨lastBlockIndex, hlast⟩ := hreads.lastBlockIndex
    refine ⟨{ cache with topBlockIndex := some (lastBlockIndex.getD 0) }, ?_, ?_⟩
    · simp [getTopBlockIndex, cachedTopBlockIndex, EStateM.run_bind, htop, hlast]
    · refine ⟨?_, rfl, rfl, (UInt64.add_zero _).symm, fun _ => (Int32.add_zero _).symm⟩
      simp [cachedTopBlockIndex, htop, hlast]
  | some index =>
    refine ⟨cache, ?_, Raised.refl⟩
    simp [getTopBlockIndex, cachedTopBlockIndex, EStateM.run_bind, htop]

theorem getCachedBlockInfo_run {index : UInt32} {info : CachedBlockInfo} (hblock : db.cachedBlock index = .ok (some info))
    (cache : DatabaseBlockchainCache) :
    (getCachedBlockInfo db index).run cache = .ok info cache := by
  simp [getCachedBlockInfo, EStateM.run_bind, hblock]

theorem insertBlockTimestamp_run (hreads : ReadsSucceed db) (timestamp : UInt64) (blockHash : Hash)
    (batch : List WriteRecord) (cache : DatabaseBlockchainCache) :
    ∃ batch', (insertBlockTimestamp db timestamp blockHash batch).run cache = .ok batch' cache := by
  obtain ⟨blockHashes, hblockHashes⟩ := hreads.blockHashesByTimestamp timestamp
  exact ⟨batch ++ [.timestamp timestamp (blockHashes.getD [] ++ [blockHash])],
    by simp [insertBlockTimestamp, hblockHashes]⟩

theorem roundToMidnight_of_le {timestamp : UInt64} (htimestamp : timestamp.toNat ≤ 2 ^ 63 - 1) :
    roundToMidnight timestamp = .ok (timestamp / ONE_DAY_SECONDS * ONE_DAY_SECONDS) := by
  rw [roundToMidnight, if_neg (Nat.not_lt.mpr htimestamp)]

/-- A `pushBlock` whose batch the database refuses throws the write's message, but leaves the
cache counting the block's transactions and the outputs of each amount: the counters are raised
while the batch is built, and nothing lowers them when the write fails. -/
theorem pushBlock_write_failure_keeps_counts (hreads : ReadsSucceed db) {cache : DatabaseBlockchainCache}
    {lastBlockInfo : CachedBlockInfo} (htop : db.cachedBlock (cachedTopBlockIndex db cache) = .ok (some lastBlockInfo))
    {cachedBlock : CachedBlock} (htimestamp : cachedBlock.block.timestamp.toNat ≤ 2 ^ 63 - 1)
    {message : String} (hwrite : ∀ batch, db.write batch = some message)
    (cachedTransactions : List CachedTransaction) (validatorState : TransactionValidatorState) (blockSize : Nat)
    (generatedCoins blockDifficulty : UInt64) (rawBlock : RawBlock) :
    ∃ after,
      (pushBlock db cachedBlock cachedTransactions validatorState blockSize generatedCoins blockDifficulty rawBlock).run
          cache = .error message after ∧
        Raised db cache after (UInt64.ofNat (cachedTransactions.length + 1))
          (outputsOfAmount ((cachedBlock.baseCachedTransaction :: cachedTransactions).flatMap (·.transaction.outputs))) := by
  obtain ⟨cache₁, htopRun, hraised₁⟩ := getTopBlockIndex_run hreads cache
  have hinfo := getCachedBlockInfo_run htop cache₁
  -- each later step succeeds from any batch and cache; name what it leaves
  choose baseBatch baseCache hbase using
    pushTransaction_run hreads cachedBlock.baseCachedTransaction (cachedTopBlockIndex db cache + 1) 0
  choose restBatch restCache hrest using
    pushTransactions_run hreads (cachedTopBlockIndex db cache + 1) cachedTransactions 1
  choose timestampBatch htimestampRun using
    insertBlockTimestamp_run hreads cachedBlock.block.timestamp cachedBlock.blockHash
  obtain ⟨index, hclosest⟩ :=
    hreads.closestTimestampBlockIndex (cachedBlock.block.timestamp / ONE_DAY_SECONDS * ONE_DAY_SECONDS)
  have hbaseRun := fun batch cache => (hbase batch cache).1
  have hrestRun := fun batch cache => (hrest batch cache).1
  refine ⟨?after, ?run, ?raised⟩
  case run =>
    simp only [pushBlock, EStateM.run_bind, htopRun, hinfo, hbaseRun, hrestRun, roundToMidnight_of_le htimestamp,
      run_readDatabase_ok, requestClosestBlockIndexByTimestamp, hclosest, Bool.not_true, Bool.false_eq_true,
      if_false, htimestampRun, hwrite, EStateM.run_throw]
    rfl
  case raised =>
    refine (hraised₁.zero_trans ((hbase _ _).2.trans (hrest _ _).2)).congr ?_ fun amount => ?_
    · rw [UInt64.ofNat_add, UInt64.add_comm, UInt64.ofNat_one]
    · rw [List.flatMap_cons, outputsOfAmount_append, Pi.add_apply]

theorem pushBlock_write_failure_keeps_counts_disk_full :
    let zero : Hash := ⟨Vector.replicate 32 0⟩
    let genesisInfo : CachedBlockInfo := ⟨zero, 0, 1, 0, 1, 0⟩
    let db : Database :=
      ⟨.ok (some 0), .ok (some 1), fun _ => .ok (some genesisInfo), fun _ => .ok none, .ok 0, fun _ => .ok none,
        fun _ => .ok none, fun _ => .ok none, fun _ => some "IO error"⟩
    let cache : DatabaseBlockchainCache := ⟨none, none, none, none, [], []⟩
    let minerTransaction : Transaction :=
      ⟨⟨1, 10, [.baseInput ⟨1⟩], [⟨5, .keyOutput ⟨⟨Vector.replicate 32 7⟩⟩⟩], []⟩, []⟩
    let block : CachedBlock :=
      ⟨⟨1, 0, 0, 86400, zero, ⟨1, 0, zero, 1, [], ⟨1, 0, [], [], []⟩, []⟩, minerTransaction, []⟩, zero, zero⟩
    ∃ after,
      (pushBlock db block [] ⟨[], List.nodup_nil⟩ 100 5 1 ⟨[], []⟩).run cache = .error "IO error" after ∧
        Raised db cache after 1 (outputsOfAmount minerTransaction.outputs) ∧
        keyOutputCount db cache 5 = 0 ∧ keyOutputCount db after 5 = 1 ∧
        (updateKeyOutputCount db 5 1).run cache = .ok 1 ⟨none, none, none, some 1, [(5, 1)], []⟩ ∧
        ∃ retried, (updateKeyOutputCount db 5 1).run after = .ok 2 retried := by
  intro zero genesisInfo db cache minerTransaction block
  have hreads : ReadsSucceed db :=
    ⟨⟨_, rfl⟩, ⟨_, rfl⟩, fun _ => ⟨_, rfl⟩, ⟨_, rfl⟩, fun _ => ⟨_, rfl⟩, fun _ => ⟨_, rfl⟩, fun _ => ⟨_, rfl⟩⟩
  obtain ⟨after, hrun, hraised⟩ := pushBlock_write_failure_keeps_counts hreads
    (show db.cachedBlock (cachedTopBlockIndex db cache) = .ok (some genesisInfo) from rfl)
    (show block.block.timestamp.toNat ≤ 2 ^ 63 - 1 by decide) (fun _ => rfl) [] ⟨[], List.nodup_nil⟩ 100 5 1 ⟨[], []⟩
  have hcount : keyOutputCount db after 5 = 1 := by rw [hraised.keyOutputCount]; rfl
  obtain ⟨retried, hretried, -⟩ := updateKeyOutputCount_run hreads after 5 1
  refine ⟨after, hrun, hraised.congr rfl fun _ => rfl, rfl, hcount, rfl, retried, ?_⟩
  rw [hretried, hcount]
  rfl

end PushBlock

end DatabaseBlockchainCache

end Crygcoin
