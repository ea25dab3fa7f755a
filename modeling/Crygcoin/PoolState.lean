import Crygcoin.TransactionPriority
import Crygcoin.CoreRuns
import Crygcoin.ValidateSemantic
import Crygcoin.Decompose

namespace Crygcoin

open scoped List

/-! The key-image bookkeeping of the transaction pool. `TransactionPool::pushTransaction` merges the
validator state of a new transaction into `poolState` when it shares no key image with it, and
`removeTransaction` takes the transaction's key images out again (`excludeFromState`, which asserts
each one is there). `Core` reaches the pool only through its `TransactionPoolCleanWrapper`: it adds
a transaction after `isTransactionValidForPool` (`addTransactionToPool`), and on a new main-chain
block it drops the transactions the block conflicts with (`actualizePoolTransactionsLite`) or, on a
chain switch, takes every transaction out and offers it again (`actualizePoolTransactions`).

`std::unordered_set` of key images is a duplicate-free list, its order meaningless; `time(nullptr)`
is a parameter of the call that reads it. A failing `assert` is `none`. -/

/-- The key image a transaction input spends. -/
def TransactionInput.keyImage? : TransactionInput → Option KeyImage
  | .keyInput input => some input.keyImage
  | .baseInput _ => none

/-- The key images the transaction's inputs spend, in input order. -/
def CachedTransaction.spentKeyImages (cachedTransaction : CachedTransaction) : List KeyImage :=
  cachedTransaction.transaction.inputs.filterMap TransactionInput.keyImage?

/-- One input of `extractSpentOutputs`: its key image goes into the set. -/
def insertSpentOutput (state : TransactionValidatorState) : TransactionInput → Option TransactionValidatorState
  | .keyInput input => state.insert input.keyImage
  | .baseInput _ => none

/-- `extractSpentOutputs(transaction)`: the key images of the inputs as a validator state; the
source asserts every input is a key input and no key image comes twice. -/
def extractSpentOutputs (cachedTransaction : CachedTransaction) : Option TransactionValidatorState :=
  cachedTransaction.transaction.inputs.foldlM insertSpentOutput ⟨[], List.nodup_nil⟩

/-- `mergeStates(destination, source)`: `unordered_set::insert` of every key image of `source`. -/
def mergeStates (destination source : TransactionValidatorState) : TransactionValidatorState :=
  ⟨destination.spentKeyImages ++ source.spentKeyImages.filter (· ∉ destination.spentKeyImages), by
    refine List.nodup_append.mpr ⟨destination.nodup, source.nodup.filter _, ?_⟩
    intro a ha b hb hab
    subst hab
    simp only [List.mem_filter, decide_eq_true_eq] at hb
    exact hb.2 ha⟩

/-- `hasIntersections(destination, source)`: some key image of `source` is in `destination`. -/
def hasIntersections (destination source : TransactionValidatorState) : Bool :=
  source.spentKeyImages.any (· ∈ destination.spentKeyImages)

namespace TransactionPool

/-- The constructor `TransactionPool(logger)`. -/
def new : TransactionPool := ⟨[], List.nodup_nil, ⟨[], List.nodup_nil⟩⟩

/-- `pushTransaction(transaction, transactionState)` at the time `receiveTime`: refused when the hash
is in the pool or a key image is already spent by a pool transaction; otherwise the state is merged
and the transaction goes to its place in `transactionCostIndex`. -/
def pushTransaction (pool : TransactionPool) (receiveTime : UInt64) (cachedTransaction : CachedTransaction)
    (transactionState : TransactionValidatorState) : Bool × TransactionPool :=
  let pendingTx : PendingTransactionInfo := ⟨receiveTime, cachedTransaction⟩
  if hpresent : pendingTx.getTransactionHash ∈ pool.getTransactionHashes then (false, pool)
  else if hasIntersections pool.poolState transactionState then (false, pool)
  else
    (true,
      ⟨pool.transactions.orderedInsert (fun lhs rhs => transactionPriorityComparator lhs rhs = true) pendingTx,
        ((List.perm_orderedInsert _ pendingTx pool.transactions).map _).nodup_iff.mpr
          (List.nodup_cons.mpr ⟨hpresent, pool.nodup⟩),
        mergeStates pool.poolState transactionState⟩)

end TransactionPool

namespace TransactionPoolCleanWrapper

/-- `isTransactionRecentlyDeleted(hash)`: the source compares the time of the deletion, not its age,
with `timeout`. -/
def isTransactionRecentlyDeleted (wrapper : TransactionPoolCleanWrapper) (hash : Hash) : Bool :=
  match wrapper.recentlyDeletedTransactions.lookup hash with
  | some deletedTime => deletedTime ≥ wrapper.timeout
  | none => false

def pushTransaction (wrapper : TransactionPoolCleanWrapper) (receiveTime : UInt64)
    (cachedTransaction : CachedTransaction) (transactionState : TransactionValidatorState) :
    Bool × TransactionPoolCleanWrapper :=
  if wrapper.isTransactionRecentlyDeleted cachedTransaction.transactionHash then (false, wrapper)
  else
    let (pushed, pool) := wrapper.transactionPool.pushTransaction receiveTime cachedTransaction transactionState
    (pushed, { wrapper with transactionPool := pool })

def removeTransaction (wrapper : TransactionPoolCleanWrapper) (hash : Hash) : Bool × TransactionPoolCleanWrapper :=
  let (removed, pool) := wrapper.transactionPool.removeTransaction hash
  (removed, { wrapper with transactionPool := pool })

/-- The constructor `TransactionPoolCleanWrapper(transactionPool, timeProvider, logger, timeout)` over
a new pool, as `Core` builds it. -/
def new (timeout : UInt64) : TransactionPoolCleanWrapper :=
  ⟨TransactionPool.new, [], timeout⟩

end TransactionPoolCleanWrapper

/-- What the pool rules read of `currency`: `minerTxBlobReservedSize()`, `minimumFee()`, the fusion
limits and the dust threshold `defaultFusionDustThreshold` falls back to below
`FUSION_DUST_THRESHOLD_HEIGHT_V2`. -/
structure PoolCurrency where
  minerTxBlobReservedSize : Nat
  minimumFee : UInt64
  fusionTxMaxSize : Nat
  fusionTxMinInputCount : Nat
  fusionTxMinInOutCountRatio : Nat
  defaultDustThreshold : UInt64

/-- The currency `CurrencyBuilder` makes: `CRYPTONOTE_COINBASE_BLOB_RESERVED_SIZE`, `MINIMUM_FEE`,
`FUSION_TX_MAX_SIZE`, `FUSION_TX_MIN_INPUT_COUNT`, `FUSION_TX_MIN_IN_OUT_COUNT_RATIO` and
`DEFAULT_DUST_THRESHOLD`. -/
def PoolCurrency.default : PoolCurrency :=
  ⟨600, 10, 100000 * 30 / 100, 12, 4, 10⟩

def DEFAULT_DUST_THRESHOLD_V2 : UInt64 := 0

def FUSION_DUST_THRESHOLD_HEIGHT_V2 : Nat := 800000

/-- `getMaximumTransactionAllowedSize(blockSizeMedian, currency)`, whose assert keeps the double
median above the reserved size. -/
def getMaximumTransactionAllowedSize (blockSizeMedian : Nat) (currency : PoolCurrency) : Nat :=
  blockSizeMedian * 2 - currency.minerTxBlobReservedSize

/-- `getInputsAmounts`: the amounts of the key inputs. -/
def getInputsAmounts (transaction : Transaction) : List UInt64 :=
  transaction.inputs.filterMap fun
    | .keyInput input => some input.amount
    | .baseInput _ => none

namespace PoolCurrency

def defaultFusionDustThreshold (currency : PoolCurrency) (height : Nat) : UInt64 :=
  if FUSION_DUST_THRESHOLD_HEIGHT_V2 ≤ height then DEFAULT_DUST_THRESHOLD_V2 else currency.defaultDustThreshold

/-- `Currency::isFusionTransaction(transaction, size, height)`: a small transaction with enough
inputs, none of them dust, whose outputs are, sorted, the decomposition of the sum of its inputs
(a `uint64_t` sum). -/
def isFusionTransaction (currency : PoolCurrency) (transaction : Transaction) (size height : Nat) : Bool :=
  let inputsAmounts := getInputsAmounts transaction
  let outputsAmounts := transaction.outputs.map (·.amount)
  let dustThreshold := currency.defaultFusionDustThreshold height
  decide (size ≤ currency.fusionTxMaxSize) && decide (currency.fusionTxMinInputCount ≤ inputsAmounts.length) &&
    decide (outputsAmounts.length * currency.fusionTxMinInOutCountRatio ≤ inputsAmounts.length) &&
    inputsAmounts.all (fun amount => decide (dustThreshold ≤ amount)) &&
    (decomposeAmount (inputsAmounts.foldl (· + ·) 0) dustThreshold).mergeSort (fun x y => decide (x ≤ y)) ==
      outputsAmounts

end PoolCurrency

/-- What `isTransactionValidForPool` reads besides the chain: the currency and `blockMedianSize`. -/
structure PoolLimits where
  currency : PoolCurrency
  blockMedianSize : Nat

namespace Core

/-- The segments of the main chain, from `chainsLeaves[0]` to the root. -/
def mainChain (state : CoreState) : List BlockchainCache :=
  segmentsOf state.chainsStorage (state.chainsLeaves.headD 0)

/-- `isTransactionValidForPool(cachedTransaction, validatorState)`: the validator state the
transaction fills, when it passes the ring size rule, the extra size limit, `validateTransaction`
on the main chain at its top, the size limit and the fee rule. -/
def isTransactionValidForPool (env : CoreEnvironment) (limits : PoolLimits) (state : CoreState)
    (cachedTransaction : CachedTransaction) : Option TransactionValidatorState := do
  let topBlockIndex := getTopBlockIndex (mainChain state)
  guard (Mixins.validate [cachedTransaction] topBlockIndex)
  guard (cachedTransaction.transaction.extra.length < MAX_EXTRA_SIZE_V2)
  let .ok (validatorState, fee) :=
      validateTransaction env (mainChain state) ⟨[], List.nodup_nil⟩ cachedTransaction topBlockIndex
    | none
  let size := getObjectBinarySize cachedTransaction.transaction
  guard (size ≤ getMaximumTransactionAllowedSize limits.blockMedianSize limits.currency)
  let isFusion := fee == 0 && limits.currency.isFusionTransaction cachedTransaction.transaction size topBlockIndex
  guard (isFusion || fee ≥ limits.currency.minimumFee)
  return validatorState

/-- `addTransactionToPool(cachedTransaction)`, the pool reading the clock as `now`. -/
def addTransactionToPool (env : CoreEnvironment) (limits : PoolLimits) (state : CoreState)
    (wrapper : TransactionPoolCleanWrapper) (now : UInt64) (cachedTransaction : CachedTransaction) :
    Bool × TransactionPoolCleanWrapper :=
  match isTransactionValidForPool env limits state cachedTransaction with
  | none => (false, wrapper)
  | some validatorState => wrapper.pushTransaction now cachedTransaction validatorState

/-- One round of the loop of `actualizePoolTransactionsLite`, for the pool transaction `hash`. -/
def actualizeLiteRound (maxTransactionSize : Nat) (validatorState : TransactionValidatorState)
    (wrapper : TransactionPoolCleanWrapper) (hash : Hash) : Option TransactionPoolCleanWrapper := do
  let transaction ← wrapper.transactionPool.getTransaction hash
  let txState ← extractSpentOutputs transaction
  if hasIntersections validatorState txState ||
      decide (getObjectBinarySize transaction.transaction > maxTransactionSize) then
    return (wrapper.removeTransaction hash).2
  else return wrapper

/-- `actualizePoolTransactionsLite(validatorState)`: after a block on the main chain, the pool
transactions that spend a key image the block spends, or have grown too big for the new median, go. -/
def actualizePoolTransactionsLite (maxTransactionSize : Nat) (validatorState : TransactionValidatorState)
    (wrapper : TransactionPoolCleanWrapper) : Option TransactionPoolCleanWrapper :=
  wrapper.transactionPool.getTransactionHashes.foldlM (actualizeLiteRound maxTransactionSize validatorState) wrapper

/-- One round of the loop of `actualizePoolTransactions`, for the pool transaction `hash`. -/
def actualizeRound (env : CoreEnvironment) (limits : PoolLimits) (state : CoreState) (now : UInt64)
    (wrapper : TransactionPoolCleanWrapper) (hash : Hash) : Option TransactionPoolCleanWrapper := do
  let transaction ← wrapper.transactionPool.getTransaction hash
  let wrapper := (wrapper.removeTransaction hash).2
  return (addTransactionToPool env limits state wrapper now transaction).2

/-- `actualizePoolTransactions()`: after a chain switch, each pool transaction is taken out and
offered again to `addTransactionToPool` on the new main chain. -/
def actualizePoolTransactions (env : CoreEnvironment) (limits : PoolLimits) (state : CoreState) (now : UInt64)
    (wrapper : TransactionPoolCleanWrapper) : Option TransactionPoolCleanWrapper :=
  wrapper.transactionPool.getTransactionHashes.foldlM (actualizeRound env limits state now) wrapper

end Core

section KeyImages

theorem foldlM_insertSpentOutput :
    ∀ {inputs : List TransactionInput} {state state' : TransactionValidatorState},
      inputs.foldlM insertSpentOutput state = some state' →
        state'.spentKeyImages = state.spentKeyImages ++ inputs.filterMap TransactionInput.keyImage?
  | [], state, state', h => by
    simp only [List.foldlM_nil, Option.pure_def, Option.some.injEq] at h
    simp [h]
  | input :: inputs, state, state', h => by
    obtain ⟨inserted, hinsert, hrest⟩ := foldlM_option_cons_eq_some.mp h
    rw [foldlM_insertSpentOutput hrest]
    cases input with
    | baseInput _ => simp [insertSpentOutput] at hinsert
    | keyInput input =>
      rw [TransactionValidatorState.insert_eq_some hinsert]
      simp [TransactionInput.keyImage?]

theorem keyImage?_isSome_of_foldlM_insertSpentOutput :
    ∀ {inputs : List TransactionInput} {state state' : TransactionValidatorState},
      inputs.foldlM insertSpentOutput state = some state' → ∀ input ∈ inputs, input.keyImage?.isSome
  | [], _, _, _ => by simp
  | input :: inputs, state, state', h => by
    obtain ⟨inserted, hinsert, hrest⟩ := foldlM_option_cons_eq_some.mp h
    intro x hx
    rcases List.mem_cons.mp hx with rfl | hx
    · cases x with
      | baseInput _ => simp [insertSpentOutput] at hinsert
      | keyInput _ => rfl
    · exact keyImage?_isSome_of_foldlM_insertSpentOutput hrest x hx

theorem extractSpentOutputs_spentKeyImages {cachedTransaction : CachedTransaction}
    {state : TransactionValidatorState} (h : extractSpentOutputs cachedTransaction = some state) :
    state.spentKeyImages = cachedTransaction.spentKeyImages := by
  rw [foldlM_insertSpentOutput h]
  rfl

theorem foldlM_insertSpentOutput_of_validateInputs {env : CoreEnvironment} {segments : List BlockchainCache}
    {cachedTransaction : CachedTransaction} {blockIndex : Nat} :
    ∀ {inputIndex : Nat} {state state' : TransactionValidatorState} {inputs : List TransactionInput},
      Core.validateInputs env segments cachedTransaction blockIndex inputIndex state inputs = .ok state' →
        inputs.foldlM insertSpentOutput state = some state'
  | _, state, state', [], h => by
    simp only [Core.validateInputs, pure_eq_ok] at h
    simp [h]
  | _, state, state', .baseInput _ :: _, h => by simp [Core.validateInputs] at h
  | inputIndex, state, state', .keyInput input :: inputs, h => by
    simp only [Core.validateInputs] at h
    cases hinsert : state.insert input.keyImage with
    | none => simp [hinsert] at h
    | some inserted =>
      simp only [hinsert, bind_eq_ok] at h
      obtain ⟨_, -, hrest⟩ := h
      rw [List.foldlM_cons]
      simp only [insertSpentOutput, hinsert, Option.bind_eq_bind, Option.bind_some]
      exact foldlM_insertSpentOutput_of_validateInputs hrest

theorem extractSpentOutputs_of_validateTransaction {env : CoreEnvironment} {segments : List BlockchainCache}
    {cachedTransaction : CachedTransaction} {blockIndex : Nat} {state : TransactionValidatorState} {fee : UInt64}
    (h : Core.validateTransaction env segments ⟨[], List.nodup_nil⟩ cachedTransaction blockIndex = .ok (state, fee)) :
    extractSpentOutputs cachedTransaction = some state := by
  simp only [Core.validateTransaction, bind_eq_ok, pure_eq_ok] at h
  obtain ⟨_, -, inputsState, hinputs, hpair⟩ := h
  cases hpair
  exact foldlM_insertSpentOutput_of_validateInputs hinputs

theorem mergeStates_spentKeyImages {destination source : TransactionValidatorState}
    (h : hasIntersections destination source = false) :
    (mergeStates destination source).spentKeyImages = destination.spentKeyImages ++ source.spentKeyImages := by
  simp only [hasIntersections, List.any_eq_false, decide_eq_true_eq] at h
  simp only [mergeStates, List.append_cancel_left_eq]
  exact List.filter_eq_self.mpr fun k hk => by simpa using h k hk

theorem excludeFromState_spentKeyImages (state : TransactionValidatorState) (cachedTransaction : CachedTransaction) :
    (excludeFromState state cachedTransaction).spentKeyImages =
      state.spentKeyImages.diff cachedTransaction.spentKeyImages := by
  unfold excludeFromState CachedTransaction.spentKeyImages
  generalize cachedTransaction.transaction.inputs = inputs
  induction inputs generalizing state with
  | nil => rfl
  | cons input inputs ih =>
    cases input with
    | baseInput _ =>
      rw [List.foldl_cons, ih]
      rfl
    | keyInput input =>
      rw [List.foldl_cons, ih]
      simp [TransactionInput.keyImage?, List.diff_cons]

end KeyImages

namespace TransactionPool

theorem removeTransaction_cases (pool : TransactionPool) (hash : Hash) :
    (pool.removeTransaction hash).2 = pool ∨
      ∃ kept info rest, pool.transactions = kept ++ info :: rest ∧ info.getTransactionHash = hash ∧
        (pool.removeTransaction hash).2.transactions = kept ++ rest ∧
        (pool.removeTransaction hash).2.poolState = excludeFromState pool.poolState info.cachedTransaction := by
  cases hfind : pool.find hash with
  | none =>
    left
    simp [removeTransaction, hfind]
  | some info =>
    right
    obtain ⟨hhash, kept, rest, hsplit, -⟩ := List.find?_eq_some_iff_append.mp hfind
    have hinfo : info.getTransactionHash = hash := by simpa using hhash
    refine ⟨kept, info, rest, hsplit, hinfo, ?_, by simp [removeTransaction, hfind]⟩
    rw [← hinfo]
    exact removeTransaction_transactions hsplit

/-- The key images of the pool's transactions, one list after the other. -/
def spentKeyImages (pool : TransactionPool) : List KeyImage :=
  pool.transactions.flatMap (·.cachedTransaction.spentKeyImages)

/-- What `poolState` stands for: exactly the key images of the pool's transactions, and every pool
transaction is one `extractSpentOutputs` accepts. -/
structure Coherent (pool : TransactionPool) : Prop where
  spentKeyImages : pool.poolState.spentKeyImages ~ pool.spentKeyImages
  extractable : ∀ info ∈ pool.transactions, (extractSpentOutputs info.cachedTransaction).isSome

theorem new_coherent : TransactionPool.new.Coherent :=
  ⟨List.Perm.refl _, fun _ h => absurd h List.not_mem_nil⟩

theorem removeTransaction_subset (pool : TransactionPool) (hash : Hash) :
    (pool.removeTransaction hash).2.transactions ⊆ pool.transactions := by
  rcases removeTransaction_cases pool hash with hsame | ⟨kept, info, rest, hsplit, -, htransactions, -⟩
  · rw [hsame]
    exact List.Subset.refl _
  · intro x hx
    rw [htransactions, List.mem_append] at hx
    rw [hsplit, List.mem_append]
    exact hx.imp id (List.mem_cons_of_mem _)

theorem removeTransaction_coherent {pool : TransactionPool} (h : pool.Coherent) (hash : Hash) :
    (pool.removeTransaction hash).2.Coherent := by
  rcases removeTransaction_cases pool hash with hsame | ⟨kept, info, rest, hsplit, -, htransactions, hstate⟩
  · rw [hsame]
    exact h
  · constructor
    · -- as multisets: the state loses the transaction's key images, the flattened list its block
      have hperm := h.spentKeyImages
      rw [spentKeyImages, hsplit] at hperm
      rw [hstate, excludeFromState_spentKeyImages, spentKeyImages, htransactions, ← Multiset.coe_eq_coe,
        ← Multiset.coe_sub, Multiset.coe_eq_coe.mpr hperm]
      simp only [List.flatMap_append, List.flatMap_cons, ← Multiset.coe_add]
      rw [add_left_comm, add_tsub_cancel_left]
    · intro x hx
      exact h.extractable x (removeTransaction_subset pool hash hx)

theorem mem_pushTransaction {pool : TransactionPool} {receiveTime : UInt64} {cachedTransaction : CachedTransaction}
    {transactionState : TransactionValidatorState} {info : PendingTransactionInfo}
    (hinfo : info ∈ (pool.pushTransaction receiveTime cachedTransaction transactionState).2.transactions) :
    info = ⟨receiveTime, cachedTransaction⟩ ∨ info ∈ pool.transactions := by
  unfold pushTransaction at hinfo
  dsimp only at hinfo
  split at hinfo
  · exact .inr hinfo
  · split at hinfo
    · exact .inr hinfo
    · exact List.mem_cons.mp ((List.perm_orderedInsert _ _ _).subset hinfo)

theorem pushTransaction_coherent {pool : TransactionPool} (h : pool.Coherent) (receiveTime : UInt64)
    {cachedTransaction : CachedTransaction} {transactionState : TransactionValidatorState}
    (hstate : extractSpentOutputs cachedTransaction = some transactionState) :
    (pool.pushTransaction receiveTime cachedTransaction transactionState).2.Coherent := by
  unfold pushTransaction
  dsimp only
  split
  · exact h
  · split
    · exact h
    · rename_i hintersections
      -- the transaction joins the list at its place, its key images join the state at the end
      have hinsert := List.perm_orderedInsert (fun lhs rhs => transactionPriorityComparator lhs rhs = true)
        ⟨receiveTime, cachedTransaction⟩ pool.transactions
      constructor
      · rw [mergeStates_spentKeyImages (by simpa using hintersections), extractSpentOutputs_spentKeyImages hstate]
        calc pool.poolState.spentKeyImages ++ cachedTransaction.spentKeyImages
            ~ pool.spentKeyImages ++ cachedTransaction.spentKeyImages := h.spentKeyImages.append_right _
          _ ~ cachedTransaction.spentKeyImages ++ pool.spentKeyImages := List.perm_append_comm
          _ ~ _ := by
            have hflat := hinsert.flatMap_right fun info : PendingTransactionInfo =>
              info.cachedTransaction.spentKeyImages
            rw [List.flatMap_cons] at hflat
            exact hflat.symm
      · intro x hx
        rcases List.mem_cons.mp (hinsert.subset hx) with rfl | hx
        · simp [hstate]
        · exact h.extractable x hx

end TransactionPool

namespace TransactionPoolCleanWrapper

variable {wrapper : TransactionPoolCleanWrapper}

theorem pushTransaction_coherent (h : wrapper.transactionPool.Coherent) (receiveTime : UInt64)
    {cachedTransaction : CachedTransaction} {transactionState : TransactionValidatorState}
    (hstate : extractSpentOutputs cachedTransaction = some transactionState) :
    (wrapper.pushTransaction receiveTime cachedTransaction transactionState).2.transactionPool.Coherent := by
  unfold pushTransaction
  split
  · exact h
  · exact TransactionPool.pushTransaction_coherent h receiveTime hstate

theorem mem_pushTransaction {receiveTime : UInt64} {cachedTransaction : CachedTransaction}
    {transactionState : TransactionValidatorState} {info : PendingTransactionInfo}
    (hinfo : info ∈ (wrapper.pushTransaction receiveTime cachedTransaction transactionState).2.transactionPool.transactions) :
    info = ⟨receiveTime, cachedTransaction⟩ ∨ info ∈ wrapper.transactionPool.transactions := by
  unfold pushTransaction at hinfo
  split at hinfo
  · exact .inr hinfo
  · exact TransactionPool.mem_pushTransaction hinfo

theorem removeTransaction_coherent (h : wrapper.transactionPool.Coherent) (hash : Hash) :
    (wrapper.removeTransaction hash).2.transactionPool.Coherent :=
  TransactionPool.removeTransaction_coherent h hash

theorem deleteTransaction_coherent (h : wrapper.transactionPool.Coherent) (hash : Hash) (currentTime : UInt64) :
    (wrapper.deleteTransaction hash currentTime).transactionPool.Coherent :=
  TransactionPool.removeTransaction_coherent h hash

/-- What every deletion keeps, a run of the cleaning loop that completes keeps. -/
theorem cleanLoop_invariant {height : Nat} {currentTime : UInt64} (P : TransactionPoolCleanWrapper → Prop)
    (hdelete : ∀ {wrapper : TransactionPoolCleanWrapper} (hash : Hash), P wrapper → P (wrapper.deleteTransaction hash currentTime)) :
    ∀ {hashes deleted deleted' : List Hash} {wrapper wrapper' : TransactionPoolCleanWrapper},
      P wrapper → cleanLoop height currentTime wrapper deleted hashes = .ok (wrapper', deleted') → P wrapper'
  | [], _, _, wrapper, wrapper', h, hloop => by
    simp only [cleanLoop, pure_eq_ok, Prod.mk.injEq] at hloop
    exact hloop.1 ▸ h
  | hash :: hashes, deleted, deleted', wrapper, wrapper', h, hloop => by
    simp only [cleanLoop] at hloop
    cases hreceive : wrapper.transactionPool.getTransactionReceiveTime hash with
    | none => simp [hreceive] at hloop
    | some receiveTime =>
      simp only [hreceive] at hloop
      -- the age check may delete the transaction, then the ring size check may delete it
      have haged : P (if currentTime - receiveTime ≥ wrapper.timeout then
          (wrapper.deleteTransaction hash currentTime, deleted ++ [hash]) else (wrapper, deleted)).1 := by
        split
        · exact hdelete hash h
        · exact h
      generalize (if currentTime - receiveTime ≥ wrapper.timeout then
          (wrapper.deleteTransaction hash currentTime, deleted ++ [hash]) else (wrapper, deleted)) = aged at haged hloop
      obtain ⟨aged, agedDeleted⟩ := aged
      cases htransaction : aged.transactionPool.getTransaction hash with
      | none => simp [htransaction] at hloop
      | some transaction =>
        simp only [htransaction] at hloop
        have hchecked : P (if Mixins.validate [transaction] height = true then (aged, agedDeleted)
            else (aged.deleteTransaction hash currentTime, agedDeleted ++ [hash])).1 := by
          split
          · exact haged
          · exact hdelete hash haged
        exact cleanLoop_invariant P hdelete hchecked hloop

/-- What every deletion keeps and forgetting old deletions keeps, a `clean` that completes keeps. -/
theorem clean_invariant {height : Nat} {currentTime : UInt64} {deleted : List Hash}
    {wrapper' : TransactionPoolCleanWrapper} (P : TransactionPoolCleanWrapper → Prop)
    (hdelete : ∀ {wrapper : TransactionPoolCleanWrapper} (hash : Hash), P wrapper → P (wrapper.deleteTransaction hash currentTime))
    (hforget : ∀ {wrapper : TransactionPoolCleanWrapper}, P wrapper → P (wrapper.cleanRecentlyDeletedTransactions currentTime))
    (h : P wrapper) (hclean : wrapper.clean height currentTime = .ok (deleted, wrapper')) : P wrapper' := by
  unfold clean at hclean
  cases hloop : cleanLoop height currentTime wrapper [] wrapper.transactionPool.getTransactionHashes with
  | error hash => simp [hloop, Except.map] at hclean
  | ok result =>
    obtain ⟨cleaned, deletedTransactions⟩ := result
    simp only [hloop, Except.map, Except.ok.injEq, Prod.mk.injEq] at hclean
    rw [← hclean.2]
    exact hforget (cleanLoop_invariant P hdelete h hloop)

theorem clean_coherent {height : Nat} {currentTime : UInt64} {deleted : List Hash}
    {wrapper' : TransactionPoolCleanWrapper} (h : wrapper.transactionPool.Coherent)
    (hclean : wrapper.clean height currentTime = .ok (deleted, wrapper')) : wrapper'.transactionPool.Coherent :=
  -- forgetting old deletions leaves the pool alone
  clean_invariant (fun wrapper => wrapper.transactionPool.Coherent)
    (fun hash hcoherent => deleteTransaction_coherent hcoherent hash currentTime) id h hclean

end TransactionPoolCleanWrapper

namespace Core

variable {env : CoreEnvironment} {limits : PoolLimits} {state : CoreState} {wrapper : TransactionPoolCleanWrapper}

theorem isTransactionValidForPool_validateTransaction {cachedTransaction : CachedTransaction}
    {validatorState : TransactionValidatorState}
    (h : isTransactionValidForPool env limits state cachedTransaction = some validatorState) :
    ∃ fee, validateTransaction env (mainChain state) ⟨[], List.nodup_nil⟩ cachedTransaction
      (getTopBlockIndex (mainChain state)) = .ok (validatorState, fee) := by
  simp only [isTransactionValidForPool, guard, Option.pure_def, Option.bind_eq_bind] at h
  split at h
  · simp only [Option.bind_some] at h
    split at h
    · simp only [Option.bind_some] at h
      split at h
      · rename_i validated fee hvalidate
        -- the size and fee checks only decide whether the state comes back
        have hsame : validated = validatorState := by
          obtain ⟨_, -, h⟩ := Option.bind_eq_some_iff.mp h
          obtain ⟨_, -, h⟩ := Option.bind_eq_some_iff.mp h
          exact Option.some.inj h
        rw [← hsame]
        exact ⟨fee, hvalidate⟩
      · simp at h
    · simp at h
  · simp at h

theorem extractSpentOutputs_of_isTransactionValidForPool {cachedTransaction : CachedTransaction}
    {validatorState : TransactionValidatorState}
    (h : isTransactionValidForPool env limits state cachedTransaction = some validatorState) :
    extractSpentOutputs cachedTransaction = some validatorState := by
  obtain ⟨fee, hvalidate⟩ := isTransactionValidForPool_validateTransaction h
  exact extractSpentOutputs_of_validateTransaction hvalidate

theorem addTransactionToPool_coherent (h : wrapper.transactionPool.Coherent) (now : UInt64)
    (cachedTransaction : CachedTransaction) :
    (addTransactionToPool env limits state wrapper now cachedTransaction).2.transactionPool.Coherent := by
  unfold addTransactionToPool
  split
  · exact h
  · rename_i validatorState hvalid
    exact wrapper.pushTransaction_coherent h now (extractSpentOutputs_of_isTransactionValidForPool hvalid)

theorem actualizeLiteRound_coherent {maxTransactionSize : Nat} {validatorState : TransactionValidatorState}
    {hash : Hash} {wrapper' : TransactionPoolCleanWrapper} (h : wrapper.transactionPool.Coherent)
    (hround : actualizeLiteRound maxTransactionSize validatorState wrapper hash = some wrapper') :
    wrapper'.transactionPool.Coherent := by
  obtain ⟨transaction, -, hround⟩ := Option.bind_eq_some_iff.mp hround
  obtain ⟨txState, -, hround⟩ := Option.bind_eq_some_iff.mp hround
  -- the round removes the transaction or keeps the pool
  split at hround
  · rw [← Option.some.inj hround]
    exact TransactionPoolCleanWrapper.removeTransaction_coherent h hash
  · rw [← Option.some.inj hround]
    exact h

theorem actualizeRound_coherent {now : UInt64} {hash : Hash} {wrapper' : TransactionPoolCleanWrapper}
    (h : wrapper.transactionPool.Coherent) (hround : actualizeRound env limits state now wrapper hash = some wrapper') :
    wrapper'.transactionPool.Coherent := by
  obtain ⟨transaction, -, hround⟩ := Option.bind_eq_some_iff.mp hround
  rw [← Option.some.inj hround]
  exact addTransactionToPool_coherent (TransactionPoolCleanWrapper.removeTransaction_coherent h hash) now transaction

theorem actualizePoolTransactionsLite_coherent {maxTransactionSize : Nat} {validatorState : TransactionValidatorState}
    {wrapper' : TransactionPoolCleanWrapper} (h : wrapper.transactionPool.Coherent)
    (hactualize : actualizePoolTransactionsLite maxTransactionSize validatorState wrapper = some wrapper') :
    wrapper'.transactionPool.Coherent :=
  foldlM_option_invariant (fun wrapper : TransactionPoolCleanWrapper => wrapper.transactionPool.Coherent)
    (fun _ _ _ => actualizeLiteRound_coherent) h hactualize

theorem actualizePoolTransactions_coherent {now : UInt64} {wrapper' : TransactionPoolCleanWrapper}
    (h : wrapper.transactionPool.Coherent)
    (hactualize : actualizePoolTransactions env limits state now wrapper = some wrapper') :
    wrapper'.transactionPool.Coherent :=
  foldlM_option_invariant (fun wrapper : TransactionPoolCleanWrapper => wrapper.transactionPool.Coherent)
    (fun _ _ _ => actualizeRound_coherent) h hactualize

end Core

/-! ## The pool over every run of `Core` -/

/-- What `Core` does to its pool, whatever its chain, environment and clock: add a transaction, remove
one (as `fillBlockTemplate` does with a transaction no longer valid), clean the pool, or actualize it
after a block on the main chain or a switch of the main chain. -/
inductive PoolStep : TransactionPoolCleanWrapper → TransactionPoolCleanWrapper → Prop
  | addTransaction (env : CoreEnvironment) (limits : PoolLimits) (state : CoreState) (now : UInt64)
      (cachedTransaction : CachedTransaction) {wrapper : TransactionPoolCleanWrapper} :
      PoolStep wrapper (Core.addTransactionToPool env limits state wrapper now cachedTransaction).2
  | removeTransaction (hash : Hash) {wrapper : TransactionPoolCleanWrapper} :
      PoolStep wrapper (wrapper.removeTransaction hash).2
  | clean {wrapper wrapper' : TransactionPoolCleanWrapper} {height : Nat} {currentTime : UInt64}
      {deleted : List Hash} :
      wrapper.clean height currentTime = .ok (deleted, wrapper') → PoolStep wrapper wrapper'
  | actualizeLite {wrapper wrapper' : TransactionPoolCleanWrapper} {maxTransactionSize : Nat}
      {validatorState : TransactionValidatorState} :
      Core.actualizePoolTransactionsLite maxTransactionSize validatorState wrapper = some wrapper' →
      PoolStep wrapper wrapper'
  | actualize {wrapper wrapper' : TransactionPoolCleanWrapper} {env : CoreEnvironment} {limits : PoolLimits}
      {state : CoreState} {now : UInt64} :
      Core.actualizePoolTransactions env limits state now wrapper = some wrapper' → PoolStep wrapper wrapper'

/-- The pools `Core` reaches from a new one by any sequence of its pool operations. -/
inductive PoolReachable : TransactionPoolCleanWrapper → Prop
  | new (timeout : UInt64) : PoolReachable (TransactionPoolCleanWrapper.new timeout)
  | step {wrapper wrapper' : TransactionPoolCleanWrapper} :
      PoolReachable wrapper → PoolStep wrapper wrapper' → PoolReachable wrapper'

theorem PoolStep.coherent {wrapper wrapper' : TransactionPoolCleanWrapper} (hstep : PoolStep wrapper wrapper')
    (h : wrapper.transactionPool.Coherent) : wrapper'.transactionPool.Coherent := by
  cases hstep with
  | addTransaction env limits state now cachedTransaction => exact Core.addTransactionToPool_coherent h now cachedTransaction
  | removeTransaction hash => exact TransactionPoolCleanWrapper.removeTransaction_coherent h hash
  | clean hclean => exact TransactionPoolCleanWrapper.clean_coherent h hclean
  | actualizeLite hactualize => exact Core.actualizePoolTransactionsLite_coherent h hactualize
  | actualize hactualize => exact Core.actualizePoolTransactions_coherent h hactualize

theorem PoolReachable.of_reflTransGen {wrapper wrapper' : TransactionPoolCleanWrapper} (h : PoolReachable wrapper)
    (hsteps : Relation.ReflTransGen PoolStep wrapper wrapper') : PoolReachable wrapper' := by
  induction hsteps with
  | refl => exact h
  | tail _ hstep ih => exact ih.step hstep

theorem PoolReachable.coherent {wrapper : TransactionPoolCleanWrapper} (h : PoolReachable wrapper) :
    wrapper.transactionPool.Coherent := by
  induction h with
  | new timeout => exact TransactionPool.new_coherent
  | step _ hstep ih => exact hstep.coherent ih

theorem PoolReachable.addTransactions {wrapper : TransactionPoolCleanWrapper} (h : PoolReachable wrapper)
    (env : CoreEnvironment) (limits : PoolLimits) (state : CoreState) (now : UInt64)
    (transactions : List CachedTransaction) :
    PoolReachable (transactions.foldl
      (fun wrapper cachedTransaction => (Core.addTransactionToPool env limits state wrapper now cachedTransaction).2) wrapper) := by
  induction transactions generalizing wrapper with
  | nil => exact h
  | cons cachedTransaction transactions ih => exact ih (h.step (.addTransaction env limits state now cachedTransaction))

namespace TransactionPool

variable {pool : TransactionPool} {kept rest : List PendingTransactionInfo} {info : PendingTransactionInfo}

theorem Coherent.nodup (h : pool.Coherent) : pool.spentKeyImages.Nodup :=
  h.spentKeyImages.nodup_iff.mp pool.poolState.nodup

theorem Coherent.pairwise_disjoint (h : pool.Coherent) :
    pool.transactions.Pairwise fun a b =>
      a.cachedTransaction.spentKeyImages.Disjoint b.cachedTransaction.spentKeyImages :=
  (List.nodup_flatMap.mp h.nodup).2

theorem Coherent.subperm (h : pool.Coherent) (hinfo : info ∈ pool.transactions) :
    info.cachedTransaction.spentKeyImages <+~ pool.poolState.spentKeyImages := by
  have hsublist : info.cachedTransaction.spentKeyImages <+ pool.spentKeyImages := by
    rw [TransactionPool.spentKeyImages, List.flatMap_def]
    exact List.sublist_flatten_of_mem (List.mem_map_of_mem hinfo)
  exact hsublist.subperm.trans h.spentKeyImages.symm.subperm

theorem Coherent.keyInputs (h : pool.Coherent) (hinfo : info ∈ pool.transactions) :
    ∀ input ∈ info.cachedTransaction.transaction.inputs, input.keyImage?.isSome := by
  obtain ⟨state, hstate⟩ := Option.isSome_iff_exists.mp (h.extractable info hinfo)
  exact keyImage?_isSome_of_foldlM_insertSpentOutput hstate

theorem Coherent.disjoint_of_split (h : pool.Coherent) (hsplit : pool.transactions = kept ++ info :: rest) :
    info.cachedTransaction.spentKeyImages.Disjoint ((kept ++ rest).flatMap (·.cachedTransaction.spentKeyImages)) := by
  have hnodup := h.nodup
  rw [TransactionPool.spentKeyImages, hsplit] at hnodup
  have hperm : (kept ++ info :: rest).flatMap (·.cachedTransaction.spentKeyImages) ~
      info.cachedTransaction.spentKeyImages ++ (kept ++ rest).flatMap (·.cachedTransaction.spentKeyImages) := by
    have hmiddle := (List.perm_middle : kept ++ info :: rest ~ info :: (kept ++ rest)).flatMap_right
      fun info : PendingTransactionInfo => info.cachedTransaction.spentKeyImages
    rwa [List.flatMap_cons] at hmiddle
  exact List.disjoint_of_nodup_append (hperm.nodup_iff.mp hnodup)

theorem Coherent.hasIntersections_eq_false {transactionState : TransactionValidatorState} (h : pool.Coherent)
    (hdisjoint : transactionState.spentKeyImages.Disjoint pool.spentKeyImages) :
    hasIntersections pool.poolState transactionState = false := by
  rw [hasIntersections, List.any_eq_false]
  intro k hk hmem
  exact hdisjoint hk (h.spentKeyImages.subset (of_decide_eq_true hmem))

theorem pushTransaction_perm {receiveTime : UInt64} {cachedTransaction : CachedTransaction}
    {transactionState : TransactionValidatorState}
    (hhash : cachedTransaction.transactionHash ∉ pool.getTransactionHashes)
    (hfresh : hasIntersections pool.poolState transactionState = false) :
    (pool.pushTransaction receiveTime cachedTransaction transactionState).2.transactions ~
      ⟨receiveTime, cachedTransaction⟩ :: pool.transactions := by
  have hnew : (⟨receiveTime, cachedTransaction⟩ : PendingTransactionInfo).getTransactionHash ∉
      pool.getTransactionHashes := hhash
  unfold pushTransaction
  dsimp only
  rw [dif_neg hnew, if_neg (by simp [hfresh])]
  exact List.perm_orderedInsert _ _ _

end TransactionPool

namespace TransactionPoolCleanWrapper

variable {wrapper : TransactionPoolCleanWrapper}

@[simp] theorem removeTransaction_recentlyDeletedTransactions {hash : Hash} :
    (wrapper.removeTransaction hash).2.recentlyDeletedTransactions = wrapper.recentlyDeletedTransactions := rfl

@[simp] theorem removeTransaction_timeout {hash : Hash} :
    (wrapper.removeTransaction hash).2.timeout = wrapper.timeout := rfl

@[simp] theorem pushTransaction_recentlyDeletedTransactions {receiveTime : UInt64}
    {cachedTransaction : CachedTransaction} {transactionState : TransactionValidatorState} :
    (wrapper.pushTransaction receiveTime cachedTransaction transactionState).2.recentlyDeletedTransactions =
      wrapper.recentlyDeletedTransactions := by
  unfold pushTransaction
  split <;> rfl

@[simp] theorem pushTransaction_timeout {receiveTime : UInt64} {cachedTransaction : CachedTransaction}
    {transactionState : TransactionValidatorState} :
    (wrapper.pushTransaction receiveTime cachedTransaction transactionState).2.timeout = wrapper.timeout := by
  unfold pushTransaction
  split <;> rfl

end TransactionPoolCleanWrapper

/-! A pool of the node at its genesis block, in the open environment where every transaction pays
the minimum fee. -/

def feeEnvironment (fee : UInt64) : CoreEnvironment :=
  { openEnvironment ⟨[], List.nodup_nil⟩ 1 true with validateSemantic := fun _ _ => .ok fee }

/-- Three transactions offered to a new pool at the genesis state: transaction 7 on key image 1,
transaction 8 on key image 2 with 100 bytes of extra, and transaction 9 on key image 1 again, which
the pool refuses. -/
def offeredPool : TransactionPoolCleanWrapper :=
  [spendingTransaction 1 7 0, spendingTransaction 2 8 100, spendingTransaction 1 9 0].foldl
    (fun wrapper cachedTransaction => (Core.addTransactionToPool (feeEnvironment 10) ⟨PoolCurrency.default, 100000⟩
      (Core.init (blockAt 0 100 0) (rawOf 100)) wrapper 5 cachedTransaction).2)
    (TransactionPoolCleanWrapper.new 0)

theorem offeredPool_reachable : PoolReachable offeredPool :=
  (PoolReachable.new 0).addTransactions _ _ _ _ _

namespace Core

variable {env : CoreEnvironment} {limits : PoolLimits} {state : CoreState} {wrapper : TransactionPoolCleanWrapper}
  {kept rest : List PendingTransactionInfo} {info : PendingTransactionInfo}

@[simp] theorem addTransactionToPool_recentlyDeletedTransactions {now : UInt64} {cachedTransaction : CachedTransaction} :
    (addTransactionToPool env limits state wrapper now cachedTransaction).2.recentlyDeletedTransactions =
      wrapper.recentlyDeletedTransactions := by
  unfold addTransactionToPool
  split <;> simp

@[simp] theorem addTransactionToPool_timeout {now : UInt64} {cachedTransaction : CachedTransaction} :
    (addTransactionToPool env limits state wrapper now cachedTransaction).2.timeout = wrapper.timeout := by
  unfold addTransactionToPool
  split <;> simp

/-! ### `actualizePoolTransactionsLite` -/

/-- Whether `actualizePoolTransactionsLite` keeps a pool transaction: it spends no key image the
block spends and is not bigger than the new limit. -/
def keptAfterBlock (maxTransactionSize : Nat) (validatorState : TransactionValidatorState)
    (info : PendingTransactionInfo) : Bool :=
  !info.cachedTransaction.spentKeyImages.any (· ∈ validatorState.spentKeyImages) &&
    decide (getObjectBinarySize info.cachedTransaction.transaction ≤ maxTransactionSize)

theorem actualizeLiteRound_eq {maxTransactionSize : Nat} {validatorState : TransactionValidatorState}
    (hsplit : wrapper.transactionPool.transactions = kept ++ info :: rest)
    (hextract : (extractSpentOutputs info.cachedTransaction).isSome) :
    actualizeLiteRound maxTransactionSize validatorState wrapper info.getTransactionHash =
      some (if keptAfterBlock maxTransactionSize validatorState info then wrapper
        else (wrapper.removeTransaction info.getTransactionHash).2) := by
  obtain ⟨txState, htxState⟩ := Option.isSome_iff_exists.mp hextract
  have hintersections : hasIntersections validatorState txState =
      info.cachedTransaction.spentKeyImages.any (· ∈ validatorState.spentKeyImages) := by
    rw [hasIntersections, extractSpentOutputs_spentKeyImages htxState]
  simp only [actualizeLiteRound, TransactionPool.getTransaction, TransactionPool.find_eq_some hsplit,
    Option.map_some, Option.bind_eq_bind, Option.bind_some, htxState, hintersections, keptAfterBlock]
  by_cases hany : info.cachedTransaction.spentKeyImages.any (· ∈ validatorState.spentKeyImages) <;>
    by_cases hsize : getObjectBinarySize info.cachedTransaction.transaction ≤ maxTransactionSize <;>
    simp [hany, hsize]

theorem actualizeLite_loop {maxTransactionSize : Nat} {validatorState : TransactionValidatorState} :
    ∀ (rest kept : List PendingTransactionInfo) (wrapper : TransactionPoolCleanWrapper),
      wrapper.transactionPool.transactions = kept ++ rest →
      (∀ info ∈ rest, (extractSpentOutputs info.cachedTransaction).isSome) →
      ∃ wrapper', (rest.map (·.getTransactionHash)).foldlM (actualizeLiteRound maxTransactionSize validatorState)
          wrapper = some wrapper' ∧
        wrapper'.transactionPool.transactions = kept ++ rest.filter (keptAfterBlock maxTransactionSize validatorState) ∧
        wrapper'.recentlyDeletedTransactions = wrapper.recentlyDeletedTransactions
  | [], kept, wrapper, hsplit, _ => ⟨wrapper, rfl, by simpa using hsplit, rfl⟩
  | info :: rest, kept, wrapper, hsplit, hextract => by
    have hrest : ∀ x ∈ rest, (extractSpentOutputs x.cachedTransaction).isSome :=
      fun x hx => hextract x (List.mem_cons_of_mem _ hx)
    rw [List.map_cons, List.foldlM_cons, actualizeLiteRound_eq hsplit (hextract info List.mem_cons_self),
      Option.bind_eq_bind, Option.bind_some]
    by_cases hkeep : keptAfterBlock maxTransactionSize validatorState info
    · -- kept: it joins the transactions before the rest
      rw [if_pos hkeep]
      obtain ⟨wrapper', hloop, htransactions, hdeleted⟩ :=
        actualizeLite_loop rest (kept ++ [info]) wrapper (by simp [hsplit]) hrest
      exact ⟨wrapper', hloop, by simp [htransactions, hkeep], hdeleted⟩
    · rw [if_neg hkeep]
      obtain ⟨wrapper', hloop, htransactions, hdeleted⟩ :=
        actualizeLite_loop rest kept (wrapper.removeTransaction info.getTransactionHash).2
          (TransactionPool.removeTransaction_transactions hsplit) hrest
      exact ⟨wrapper', hloop, by simp [htransactions, hkeep], hdeleted⟩

theorem actualizePoolTransactionsLite_filter {maxTransactionSize : Nat} {validatorState : TransactionValidatorState}
    (h : wrapper.transactionPool.Coherent) :
    ∃ wrapper', actualizePoolTransactionsLite maxTransactionSize validatorState wrapper = some wrapper' ∧
      wrapper'.transactionPool.transactions =
        wrapper.transactionPool.transactions.filter (keptAfterBlock maxTransactionSize validatorState) ∧
      wrapper'.recentlyDeletedTransactions = wrapper.recentlyDeletedTransactions :=
  actualizeLite_loop _ [] wrapper rfl h.extractable

/-- A block spending key image 1 takes transaction 7 out of the offered pool and keeps transaction 8. -/
theorem actualizePoolTransactionsLite_filter_offered :
    let blockState : TransactionValidatorState := ⟨[⟨Vector.replicate 32 1⟩], List.nodup_singleton _⟩
    offeredPool.transactionPool.Coherent ∧
      (offeredPool.transactionPool.transactions.filter (keptAfterBlock 1000 blockState)).map (·.getTransactionHash) =
        [hashOf 8] ∧
      ∃ wrapper', actualizePoolTransactionsLite 1000 blockState offeredPool = some wrapper' ∧
        wrapper'.transactionPool.transactions =
          offeredPool.transactionPool.transactions.filter (keptAfterBlock 1000 blockState) ∧
        wrapper'.recentlyDeletedTransactions = offeredPool.recentlyDeletedTransactions :=
  ⟨offeredPool_reachable.coherent, by decide +kernel, actualizePoolTransactionsLite_filter offeredPool_reachable.coherent⟩

/-! ### `actualizePoolTransactions` -/

/-- Whether `actualizePoolTransactions` takes a pool transaction back: it is valid for the pool on
the new main chain and not recently deleted. -/
def keptAfterSwitch (env : CoreEnvironment) (limits : PoolLimits) (state : CoreState)
    (wrapper : TransactionPoolCleanWrapper) (info : PendingTransactionInfo) : Bool :=
  (isTransactionValidForPool env limits state info.cachedTransaction).isSome &&
    !wrapper.isTransactionRecentlyDeleted info.getTransactionHash

theorem keptAfterSwitch_congr {wrapper' : TransactionPoolCleanWrapper}
    (hdeleted : wrapper'.recentlyDeletedTransactions = wrapper.recentlyDeletedTransactions)
    (htimeout : wrapper'.timeout = wrapper.timeout) :
    keptAfterSwitch env limits state wrapper' = keptAfterSwitch env limits state wrapper := by
  unfold keptAfterSwitch TransactionPoolCleanWrapper.isTransactionRecentlyDeleted
  rw [hdeleted, htimeout]

theorem addTransactionToPool_perm {now : UInt64} {cachedTransaction : CachedTransaction}
    (h : wrapper.transactionPool.Coherent)
    (hhash : cachedTransaction.transactionHash ∉ wrapper.transactionPool.getTransactionHashes)
    (hdisjoint : cachedTransaction.spentKeyImages.Disjoint wrapper.transactionPool.spentKeyImages) :
    (addTransactionToPool env limits state wrapper now cachedTransaction).2.transactionPool.transactions ~
      (if keptAfterSwitch env limits state wrapper ⟨now, cachedTransaction⟩ then [⟨now, cachedTransaction⟩] else []) ++
        wrapper.transactionPool.transactions := by
  unfold addTransactionToPool keptAfterSwitch
  cases hvalid : isTransactionValidForPool env limits state cachedTransaction with
  | none => simp
  | some validatorState =>
    have hstate := extractSpentOutputs_spentKeyImages (extractSpentOutputs_of_isTransactionValidForPool hvalid)
    unfold TransactionPoolCleanWrapper.pushTransaction
    by_cases hrecent : wrapper.isTransactionRecentlyDeleted cachedTransaction.transactionHash
    · simp [PendingTransactionInfo.getTransactionHash, hrecent]
    · -- neither the hash check nor the key image check of the pool refuses it
      have hfresh := h.hasIntersections_eq_false (hstate ▸ hdisjoint)
      simp only [PendingTransactionInfo.getTransactionHash, hrecent, Option.isSome_some, Bool.not_false,
        Bool.and_self, if_true, List.singleton_append, Bool.false_eq_true, if_false]
      exact TransactionPool.pushTransaction_perm hhash hfresh

/-- A round of `actualizePoolTransactions` on a coherent pool takes the transaction out and puts it
back, received now, exactly when it is kept after a switch: no other pool transaction has its hash
or one of its key images. -/
theorem actualizeRound_perm (now : UInt64) (h : wrapper.transactionPool.Coherent)
    (hsplit : wrapper.transactionPool.transactions = kept ++ info :: rest) :
    ∃ wrapper', actualizeRound env limits state now wrapper info.getTransactionHash = some wrapper' ∧
      wrapper'.transactionPool.transactions ~
        (if keptAfterSwitch env limits state wrapper info then [{ info with receiveTime := now }] else []) ++
          (kept ++ rest) ∧
      wrapper'.transactionPool.Coherent ∧
      wrapper'.recentlyDeletedTransactions = wrapper.recentlyDeletedTransactions ∧ wrapper'.timeout = wrapper.timeout := by
  let removed := (wrapper.removeTransaction info.getTransactionHash).2
  have hremoved : removed.transactionPool.transactions = kept ++ rest :=
    TransactionPool.removeTransaction_transactions hsplit
  have hcoherent : removed.transactionPool.Coherent :=
    TransactionPoolCleanWrapper.removeTransaction_coherent h info.getTransactionHash
  have hhash : info.cachedTransaction.transactionHash ∉ removed.transactionPool.getTransactionHashes := by
    rw [TransactionPool.getTransactionHashes, hremoved, List.mem_map]
    rintro ⟨x, hx, hsame⟩
    exact TransactionPool.hash_not_mem hsplit x hx hsame
  have hdisjoint : info.cachedTransaction.spentKeyImages.Disjoint removed.transactionPool.spentKeyImages := by
    rw [TransactionPool.spentKeyImages, hremoved]
    exact h.disjoint_of_split hsplit
  refine ⟨(addTransactionToPool env limits state removed now info.cachedTransaction).2, ?_, ?_,
    addTransactionToPool_coherent hcoherent now info.cachedTransaction, by simp [removed], by simp [removed]⟩
  · simp [actualizeRound, TransactionPool.getTransaction, TransactionPool.find_eq_some hsplit, removed]
  · rw [← hremoved]
    exact addTransactionToPool_perm hcoherent hhash hdisjoint

theorem actualize_loop {now : UInt64} (original : TransactionPoolCleanWrapper) :
    ∀ (rest kept : List PendingTransactionInfo) (wrapper : TransactionPoolCleanWrapper),
      wrapper.transactionPool.Coherent → wrapper.transactionPool.transactions ~ kept ++ rest →
      wrapper.recentlyDeletedTransactions = original.recentlyDeletedTransactions →
      wrapper.timeout = original.timeout →
      ∃ wrapper', (rest.map (·.getTransactionHash)).foldlM (actualizeRound env limits state now) wrapper = some wrapper' ∧
        wrapper'.transactionPool.transactions ~
          kept ++ (rest.filter (keptAfterSwitch env limits state original)).map ({ · with receiveTime := now }) ∧
        wrapper'.recentlyDeletedTransactions = original.recentlyDeletedTransactions
  | [], kept, wrapper, _, hperm, hdeleted, _ => ⟨wrapper, rfl, by simpa using hperm, hdeleted⟩
  | info :: rest, kept, wrapper, h, hperm, hdeleted, htimeout => by
    -- the transaction is somewhere in the pool, the others around it
    obtain ⟨before, after, hsplit⟩ := List.append_of_mem (hperm.symm.subset (List.mem_append_right kept List.mem_cons_self))
    have hothers : before ++ after ~ kept ++ rest := by
      have hmiddle := (List.perm_middle.symm.trans (hsplit ▸ hperm)).trans List.perm_middle
      exact hmiddle.cons_inv
    obtain ⟨wrapper', hround, hperm', hcoherent', hdeleted', htimeout'⟩ := actualizeRound_perm now h hsplit
    rw [keptAfterSwitch_congr hdeleted htimeout] at hperm'
    obtain ⟨wrapper'', hloop, hperm'', hdeleted''⟩ := actualize_loop original rest
      ((if keptAfterSwitch env limits state original info then [{ info with receiveTime := now }] else []) ++ kept)
      wrapper' hcoherent' (hperm'.trans (by rw [List.append_assoc]; exact hothers.append_left _))
      (hdeleted'.trans hdeleted) (htimeout'.trans htimeout)
    refine ⟨wrapper'', by rw [List.map_cons, List.foldlM_cons, hround, Option.bind_eq_bind, Option.bind_some]; exact hloop,
      hperm''.trans ?_, hdeleted''⟩
    by_cases hkeep : keptAfterSwitch env limits state original info
    · simp only [hkeep, if_true, List.filter_cons_of_pos, List.map_cons, List.cons_append]
      exact List.perm_middle.symm
    · simp [hkeep]

theorem actualizePoolTransactions_readmits {now : UInt64} (h : wrapper.transactionPool.Coherent) :
    ∃ wrapper', actualizePoolTransactions env limits state now wrapper = some wrapper' ∧
      wrapper'.transactionPool.transactions ~
        (wrapper.transactionPool.transactions.filter (keptAfterSwitch env limits state wrapper)).map
          ({ · with receiveTime := now }) ∧
      wrapper'.recentlyDeletedTransactions = wrapper.recentlyDeletedTransactions :=
  actualize_loop wrapper _ [] wrapper h (List.Perm.refl _) rfl rfl

/-- After a switch on the genesis chain with a block median of 400, the limit of 200 bytes takes
back transaction 7 and drops transaction 8, of 239 bytes. -/
theorem actualizePoolTransactions_readmits_offered :
    let limits : PoolLimits := ⟨PoolCurrency.default, 400⟩
    let state := Core.init (blockAt 0 100 0) (rawOf 100)
    offeredPool.transactionPool.Coherent ∧
      (offeredPool.transactionPool.transactions.filter
        (keptAfterSwitch (feeEnvironment 10) limits state offeredPool)).map (·.getTransactionHash) = [hashOf 7] ∧
      ∃ wrapper', actualizePoolTransactions (feeEnvironment 10) limits state 6 offeredPool = some wrapper' ∧
        wrapper'.transactionPool.transactions ~
          (offeredPool.transactionPool.transactions.filter
            (keptAfterSwitch (feeEnvironment 10) limits state offeredPool)).map ({ · with receiveTime := 6 }) ∧
        wrapper'.recentlyDeletedTransactions = offeredPool.recentlyDeletedTransactions :=
  ⟨offeredPool_reachable.coherent, by decide +kernel, actualizePoolTransactions_readmits offeredPool_reachable.coherent⟩

end Core

/-- In every pool `Core` reaches, `poolState` holds exactly the key images of the pool's
transactions, no two transactions spend one key image, and removing any transaction passes both
assertions of `excludeFromState`: each input is a key input whose image is still in the state. -/
theorem poolReachable_keyImages {wrapper : TransactionPoolCleanWrapper} (h : PoolReachable wrapper) :
    wrapper.transactionPool.poolState.spentKeyImages ~ wrapper.transactionPool.spentKeyImages ∧
      wrapper.transactionPool.transactions.Pairwise (fun a b =>
        a.cachedTransaction.spentKeyImages.Disjoint b.cachedTransaction.spentKeyImages) ∧
      ∀ info ∈ wrapper.transactionPool.transactions,
        (∀ input ∈ info.cachedTransaction.transaction.inputs, input.keyImage?.isSome) ∧
          info.cachedTransaction.spentKeyImages <+~ wrapper.transactionPool.poolState.spentKeyImages := by
  have hcoherent := h.coherent
  exact ⟨hcoherent.spentKeyImages, hcoherent.pairwise_disjoint,
    fun info hinfo => ⟨hcoherent.keyInputs hinfo, hcoherent.subperm hinfo⟩⟩

/-- The offered pool holds transactions 7 and 8; transaction 9, on the key image of 7, stayed out. -/
theorem poolReachable_keyImages_offered :
    PoolReachable offeredPool ∧ offeredPool.transactionPool.getTransactionHashes = [hashOf 7, hashOf 8] ∧
      offeredPool.transactionPool.poolState.spentKeyImages ~ offeredPool.transactionPool.spentKeyImages ∧
      offeredPool.transactionPool.transactions.Pairwise (fun a b =>
        a.cachedTransaction.spentKeyImages.Disjoint b.cachedTransaction.spentKeyImages) ∧
      ∀ info ∈ offeredPool.transactionPool.transactions,
        (∀ input ∈ info.cachedTransaction.transaction.inputs, input.keyImage?.isSome) ∧
          info.cachedTransaction.spentKeyImages <+~ offeredPool.transactionPool.poolState.spentKeyImages :=
  ⟨offeredPool_reachable, by decide +kernel, poolReachable_keyImages offeredPool_reachable⟩

end Crygcoin
