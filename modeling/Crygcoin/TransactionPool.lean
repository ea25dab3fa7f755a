import Crygcoin.Core

namespace Crygcoin

/-! The transaction pool: its transactions with their receive times, one per hash, and the key
images they spend; `Mixins::validate`, the ring size rule of a height; and
`TransactionPoolCleanWrapper::clean`, which removes the transactions that are too old or whose ring
size the height no longer allows. -/

/-- `PendingTransactionInfo`, without the payment id that `clean` does not read. -/
structure PendingTransactionInfo where
  receiveTime : UInt64
  cachedTransaction : CachedTransaction

def PendingTransactionInfo.getTransactionHash (info : PendingTransactionInfo) : Hash :=
  info.cachedTransaction.transactionHash

/-- `TransactionPool`: the transactions in the order of `transactionCostIndex`, at most one per
hash as `transactionHashIndex` keeps them, and `poolState`. -/
structure TransactionPool where
  transactions : List PendingTransactionInfo
  nodup : (transactions.map (·.getTransactionHash)).Nodup
  poolState : TransactionValidatorState

/-- `excludeFromState`: the key images of the transaction's key inputs leave the state. -/
def excludeFromState (state : TransactionValidatorState) (cachedTransaction : CachedTransaction) :
    TransactionValidatorState :=
  cachedTransaction.transaction.inputs.foldl
    (fun state input =>
      match input with
      | .keyInput input => ⟨state.spentKeyImages.erase input.keyImage, state.nodup.erase _⟩
      | .baseInput _ => state)
    state

namespace TransactionPool

def find (pool : TransactionPool) (hash : Hash) : Option PendingTransactionInfo :=
  pool.transactions.find? (·.getTransactionHash == hash)

def getTransactionHashes (pool : TransactionPool) : List Hash :=
  pool.transactions.map (·.getTransactionHash)

/-- `getTransaction`: `none` where the hash is not in the pool, and the source's assertion fails. -/
def getTransaction (pool : TransactionPool) (hash : Hash) : Option CachedTransaction :=
  (pool.find hash).map (·.cachedTransaction)

def getTransactionReceiveTime (pool : TransactionPool) (hash : Hash) : Option UInt64 :=
  (pool.find hash).map (·.receiveTime)

def removeTransaction (pool : TransactionPool) (hash : Hash) : Bool × TransactionPool :=
  match pool.find hash with
  | none => (false, pool)
  | some info =>
    (true, ⟨pool.transactions.eraseP (·.getTransactionHash == hash),
      pool.nodup.sublist (List.Sublist.map _ (List.eraseP_sublist)),
      excludeFromState pool.poolState info.cachedTransaction⟩)

variable {pool : TransactionPool} {kept rest : List PendingTransactionInfo} {info : PendingTransactionInfo}

theorem find_eq_some (h : pool.transactions = kept ++ info :: rest) : pool.find info.getTransactionHash = some info := by
  have hnodup := pool.nodup
  rw [h, List.map_append, List.map_cons, List.nodup_append] at hnodup
  have hnot : ∀ x ∈ kept, ¬(x.getTransactionHash == info.getTransactionHash) = true := by
    intro x hx heq
    exact hnodup.2.2 _ (List.mem_map_of_mem hx) _ List.mem_cons_self (beq_iff_eq.mp heq)
  rw [find, h, List.find?_append, List.find?_eq_none.mpr hnot, Option.none_or, List.find?_cons_of_pos (by simp)]

theorem find_eq_none {hash : Hash} (h : ∀ x ∈ pool.transactions, x.getTransactionHash ≠ hash) : pool.find hash = none := by
  rw [find, List.find?_eq_none]
  intro x hx heq
  exact h x hx (beq_iff_eq.mp heq)

theorem removeTransaction_transactions (h : pool.transactions = kept ++ info :: rest) :
    (pool.removeTransaction info.getTransactionHash).2.transactions = kept ++ rest := by
  have hnodup := pool.nodup
  rw [h, List.map_append, List.map_cons, List.nodup_append] at hnodup
  have hnot : ∀ x ∈ kept, ¬(x.getTransactionHash == info.getTransactionHash) = true := by
    intro x hx heq
    exact hnodup.2.2 _ (List.mem_map_of_mem hx) _ List.mem_cons_self (beq_iff_eq.mp heq)
  rw [removeTransaction, find_eq_some h]
  dsimp only
  rw [h, List.eraseP_append_right _ hnot, List.eraseP_cons_of_pos (by simp)]

theorem hash_not_mem (h : pool.transactions = kept ++ info :: rest) :
    ∀ x ∈ kept ++ rest, x.getTransactionHash ≠ info.getTransactionHash := by
  have hnodup := pool.nodup
  rw [h, List.map_append, List.map_cons, List.nodup_append, List.nodup_cons] at hnodup
  intro x hx heq
  rcases List.mem_append.mp hx with hx | hx
  · exact hnodup.2.2 _ (List.mem_map_of_mem hx) _ List.mem_cons_self heq
  · exact hnodup.2.1.1 (heq ▸ List.mem_map_of_mem hx)

end TransactionPool

/-- `Mixins::getMixinAllowableRange`: the least and the largest mixin a height allows. -/
def getMixinAllowableRange (height : Nat) : Nat × Nat :=
  -- from `MIXIN_LIMITS_V3_HEIGHT`, `MIXIN_LIMITS_V2_HEIGHT` and `MIXIN_LIMITS_V1_HEIGHT` on
  if height ≥ 800000 then (3, 3)
  else if height ≥ 620000 then (7, 7)
  else if height ≥ 440000 then (0, 100)
  else (0, 2 ^ 64 - 1)

/-- `Mixins::validate(transaction, minMixin, maxMixin)`: the ring size is the largest of the key
inputs', and at least 1. -/
def Mixins.validateTransaction (cachedTransaction : CachedTransaction) (minMixin maxMixin : Nat) : Bool :=
  let ringSize := cachedTransaction.transaction.inputs.foldl
    (fun ringSize input =>
      match input with
      | .keyInput input => max ringSize input.outputIndexes.length
      | .baseInput _ => ringSize)
    1
  let mixin := ringSize - 1
  !(mixin > maxMixin) && !(mixin < minMixin)

def Mixins.validate (transactions : List CachedTransaction) (height : Nat) : Bool :=
  let (minMixin, maxMixin) := getMixinAllowableRange height
  transactions.all fun transaction => Mixins.validateTransaction transaction minMixin maxMixin

/-- `TransactionPoolCleanWrapper`: the pool, the hashes removed lately with the time of removal,
and the time a transaction may stay in the pool. -/
structure TransactionPoolCleanWrapper where
  transactionPool : TransactionPool
  recentlyDeletedTransactions : List (Hash × UInt64)
  timeout : UInt64

namespace TransactionPoolCleanWrapper

/-- `recentlyDeletedTransactions.emplace(hash, currentTime)` and `removeTransaction(hash)`. -/
def deleteTransaction (wrapper : TransactionPoolCleanWrapper) (hash : Hash) (currentTime : UInt64) :
    TransactionPoolCleanWrapper :=
  { wrapper with
    recentlyDeletedTransactions :=
      if wrapper.recentlyDeletedTransactions.any (·.1 == hash) then wrapper.recentlyDeletedTransactions
      else wrapper.recentlyDeletedTransactions ++ [(hash, currentTime)]
    transactionPool := (wrapper.transactionPool.removeTransaction hash).2 }

def cleanRecentlyDeletedTransactions (wrapper : TransactionPoolCleanWrapper) (currentTime : UInt64) :
    TransactionPoolCleanWrapper :=
  { wrapper with
    recentlyDeletedTransactions :=
      wrapper.recentlyDeletedTransactions.filter fun (_, deletedTime) => !(currentTime - deletedTime ≥ wrapper.timeout) }

/-- The loop of `clean` over the hashes, with the hashes deleted so far; it fails with the hash
it reads from the pool when the pool no longer holds it. A transaction too old is removed, and then
read again for the ring size check. -/
def cleanLoop (height : Nat) (currentTime : UInt64) :
    TransactionPoolCleanWrapper → List Hash → List Hash → Except Hash (TransactionPoolCleanWrapper × List Hash)
  | wrapper, deletedTransactions, [] => pure (wrapper, deletedTransactions)
  | wrapper, deletedTransactions, hash :: hashes => do
    let some receiveTime := wrapper.transactionPool.getTransactionReceiveTime hash | throw hash
    let transactionAge := currentTime - receiveTime
    let (wrapper, deletedTransactions) :=
      if transactionAge ≥ wrapper.timeout then (wrapper.deleteTransaction hash currentTime, deletedTransactions ++ [hash])
      else (wrapper, deletedTransactions)
    let some transaction := wrapper.transactionPool.getTransaction hash | throw hash
    let (wrapper, deletedTransactions) :=
      if Mixins.validate [transaction] height then (wrapper, deletedTransactions)
      else (wrapper.deleteTransaction hash currentTime, deletedTransactions ++ [hash])
    cleanLoop height currentTime wrapper deletedTransactions hashes

section Loop

variable {height : Nat} {currentTime : UInt64} {wrapper : TransactionPoolCleanWrapper}
  {kept rest : List PendingTransactionInfo} {info : PendingTransactionInfo}

/-- Whether `clean` at `currentTime` finds the transaction too old. -/
def Expired (wrapper : TransactionPoolCleanWrapper) (currentTime : UInt64) (info : PendingTransactionInfo) : Prop :=
  currentTime - info.receiveTime ≥ wrapper.timeout

instance (currentTime : UInt64) (info : PendingTransactionInfo) : Decidable (wrapper.Expired currentTime info) :=
  inferInstanceAs (Decidable (_ ≥ _))

theorem not_expired_iff : ¬wrapper.Expired currentTime info ↔ currentTime - info.receiveTime < wrapper.timeout := by
  rw [Expired, ge_iff_le, UInt64.not_le]

theorem deleteTransaction_transactions (h : wrapper.transactionPool.transactions = kept ++ info :: rest) :
    (wrapper.deleteTransaction info.getTransactionHash currentTime).transactionPool.transactions = kept ++ rest :=
  TransactionPool.removeTransaction_transactions h

@[simp] theorem deleteTransaction_timeout {hash : Hash} :
    (wrapper.deleteTransaction hash currentTime).timeout = wrapper.timeout := rfl

@[simp] theorem deleteTransaction_expired {hash : Hash} :
    (wrapper.deleteTransaction hash currentTime).Expired = wrapper.Expired := rfl

theorem cleanLoop_cons (h : wrapper.transactionPool.transactions = kept ++ info :: rest)
    (deletedTransactions hashes : List Hash) :
    cleanLoop height currentTime wrapper deletedTransactions (info.getTransactionHash :: hashes) =
      if wrapper.Expired currentTime info then .error info.getTransactionHash
      else if Mixins.validate [info.cachedTransaction] height then
        cleanLoop height currentTime wrapper deletedTransactions hashes
      else
        cleanLoop height currentTime (wrapper.deleteTransaction info.getTransactionHash currentTime)
          (deletedTransactions ++ [info.getTransactionHash]) hashes := by
  have hfound := TransactionPool.find_eq_some h
  rw [cleanLoop, TransactionPool.getTransactionReceiveTime, hfound]
  dsimp only [Option.map_some]
  by_cases hexpired : wrapper.Expired currentTime info
  · have hage : currentTime - info.receiveTime ≥ wrapper.timeout := hexpired
    -- the pool no longer holds the hash when the ring size check reads it
    have hgone : (wrapper.deleteTransaction info.getTransactionHash currentTime).transactionPool.getTransaction
        info.getTransactionHash = none := by
      rw [TransactionPool.getTransaction, TransactionPool.find_eq_none, Option.map_none]
      rw [deleteTransaction_transactions h]
      exact TransactionPool.hash_not_mem h
    rw [if_pos hage, if_pos hexpired]
    dsimp only
    rw [hgone]
    rfl
  · have hage : ¬currentTime - info.receiveTime ≥ wrapper.timeout := hexpired
    rw [if_neg hage, if_neg hexpired]
    dsimp only
    rw [TransactionPool.getTransaction, hfound]
    dsimp only [Option.map_some]
    split <;> rfl

theorem cleanLoop_error {after : List PendingTransactionInfo} (hexpired : wrapper.Expired currentTime info) :
    ∀ (before kept : List PendingTransactionInfo) (wrapper' : TransactionPoolCleanWrapper) (deletedTransactions : List Hash),
      wrapper'.Expired = wrapper.Expired → wrapper'.transactionPool.transactions = kept ++ before ++ info :: after →
      (∀ x ∈ before, ¬wrapper.Expired currentTime x) →
      cleanLoop height currentTime wrapper' deletedTransactions ((before ++ info :: after).map (·.getTransactionHash)) =
        .error info.getTransactionHash := by
  intro before
  induction before with
  | nil =>
    intro kept wrapper' deletedTransactions hsame h _
    rw [List.append_nil] at h
    rw [List.nil_append, List.map_cons, cleanLoop_cons h, if_pos (hsame ▸ hexpired)]
  | cons x before ih =>
    intro kept wrapper' deletedTransactions hsame h hbefore
    have hx : ¬wrapper'.Expired currentTime x := hsame ▸ hbefore x List.mem_cons_self
    have hrest : ∀ y ∈ before, ¬wrapper.Expired currentTime y := fun y hy => hbefore y (List.mem_cons_of_mem _ hy)
    rw [List.append_assoc, List.cons_append] at h
    rw [List.cons_append, List.map_cons, cleanLoop_cons h, if_neg hx]
    split
    · -- kept: it joins the transactions before the rest
      exact ih (kept ++ [x]) wrapper' deletedTransactions hsame (by rw [h]; simp) hrest
    · -- removed for its ring size
      exact ih kept _ _ (by rw [deleteTransaction_expired, hsame]) (by rw [deleteTransaction_transactions h, List.append_assoc]) hrest

theorem cleanLoop_ok : ∀ (rest kept : List PendingTransactionInfo) (wrapper : TransactionPoolCleanWrapper)
      (deletedTransactions : List Hash),
    wrapper.transactionPool.transactions = kept ++ rest → (∀ x ∈ rest, ¬wrapper.Expired currentTime x) →
    ∃ wrapper', cleanLoop height currentTime wrapper deletedTransactions (rest.map (·.getTransactionHash)) =
        .ok (wrapper', deletedTransactions ++
          (rest.filter fun x => !Mixins.validate [x.cachedTransaction] height).map (·.getTransactionHash)) ∧
      wrapper'.transactionPool.transactions =
        kept ++ rest.filter fun x => Mixins.validate [x.cachedTransaction] height := by
  intro rest
  induction rest with
  | nil =>
    intro kept wrapper deletedTransactions h _
    exact ⟨wrapper, by simp [cleanLoop, pure, Except.pure], by simpa using h⟩
  | cons x rest ih =>
    intro kept wrapper deletedTransactions h hfresh
    have hx := hfresh x List.mem_cons_self
    have hrest : ∀ y ∈ rest, ¬wrapper.Expired currentTime y := fun y hy => hfresh y (List.mem_cons_of_mem _ hy)
    rw [List.map_cons, cleanLoop_cons h, if_neg hx]
    cases hvalid : Mixins.validate [x.cachedTransaction] height with
    | true =>
      obtain ⟨wrapper', hrun, hpool⟩ := ih (kept ++ [x]) wrapper deletedTransactions (by rw [h]; simp) hrest
      refine ⟨wrapper', ?_, ?_⟩
      · simp only [if_true, hrun, List.filter_cons, hvalid, Bool.not_true, Bool.false_eq_true, if_false]
      · simp only [hpool, List.filter_cons, hvalid, if_true, List.append_assoc, List.singleton_append]
    | false =>
      obtain ⟨wrapper', hrun, hpool⟩ := ih kept (wrapper.deleteTransaction x.getTransactionHash currentTime)
        (deletedTransactions ++ [x.getTransactionHash]) (deleteTransaction_transactions h) (by simpa using hrest)
      refine ⟨wrapper', ?_, ?_⟩
      · simp only [Bool.false_eq_true, if_false, hrun, List.filter_cons, hvalid, Bool.not_false, if_true,
          List.map_cons, List.append_assoc, List.singleton_append]
      · simp only [hpool, List.filter_cons, hvalid, Bool.false_eq_true, if_false]

end Loop

/-- `clean(height)` at the time `currentTime`: the hashes deleted and the wrapper after. -/
def clean (wrapper : TransactionPoolCleanWrapper) (height : Nat) (currentTime : UInt64) :
    Except Hash (List Hash × TransactionPoolCleanWrapper) :=
  (cleanLoop height currentTime wrapper [] wrapper.transactionPool.getTransactionHashes).map
    fun (wrapper, deletedTransactions) => (deletedTransactions, wrapper.cleanRecentlyDeletedTransactions currentTime)

section Clean

variable {wrapper : TransactionPoolCleanWrapper} {height : Nat} {currentTime : UInt64}

/-- `clean` reads a transaction that it has just removed: with a transaction too old in the pool,
it removes the first one and then fails on reading it back for the ring size check. -/
theorem clean_reads_removed_transaction {before after : List PendingTransactionInfo} {info : PendingTransactionInfo}
    (h : wrapper.transactionPool.transactions = before ++ info :: after)
    (hbefore : ∀ x ∈ before, currentTime - x.receiveTime < wrapper.timeout)
    (hexpired : currentTime - info.receiveTime ≥ wrapper.timeout) :
    wrapper.clean height currentTime = .error info.getTransactionHash := by
  have hrun : cleanLoop height currentTime wrapper [] ((before ++ info :: after).map (·.getTransactionHash)) =
      .error info.getTransactionHash :=
    cleanLoop_error hexpired before [] wrapper [] rfl (by rw [h, List.nil_append])
      (fun x hx => not_expired_iff.mpr (hbefore x hx))
  rw [clean, TransactionPool.getTransactionHashes, h, hrun]
  rfl

/-- One transaction received at time 0, cleaned a day later with the one-day timeout of
`CRYPTONOTE_MEMPOOL_TX_LIVETIME`. -/
theorem clean_reads_removed_transaction_day_old :
    let info : PendingTransactionInfo := ⟨0, ⟨⟨⟨1, 0, [], [], []⟩, []⟩, ⟨Vector.replicate 32 1⟩⟩⟩
    let wrapper : TransactionPoolCleanWrapper := ⟨⟨[info], List.nodup_singleton _, ⟨[], List.nodup_nil⟩⟩, [], 86400⟩
    (wrapper.transactionPool.transactions = [] ++ info :: [] ∧
      (∀ x ∈ ([] : List PendingTransactionInfo), 86400 - x.receiveTime < wrapper.timeout) ∧
      86400 - info.receiveTime ≥ wrapper.timeout) ∧
    wrapper.clean 800000 86400 = .error info.getTransactionHash :=
  ⟨⟨rfl, by simp, by decide⟩,
    clean_reads_removed_transaction (show _ = ([] : List PendingTransactionInfo) ++ _ :: [] from rfl) (by simp)
      (by decide)⟩

theorem clean_eq_ok (h : ∀ x ∈ wrapper.transactionPool.transactions, currentTime - x.receiveTime < wrapper.timeout) :
    ∃ wrapper', wrapper.clean height currentTime =
        .ok ((wrapper.transactionPool.transactions.filter fun x => !Mixins.validate [x.cachedTransaction] height).map
          (·.getTransactionHash), wrapper') ∧
      wrapper'.transactionPool.transactions =
        wrapper.transactionPool.transactions.filter fun x => Mixins.validate [x.cachedTransaction] height := by
  obtain ⟨wrapper', hrun, hpool⟩ := @cleanLoop_ok height currentTime wrapper.transactionPool.transactions [] wrapper []
    rfl (fun x hx => not_expired_iff.mpr (h x hx))
  refine ⟨wrapper'.cleanRecentlyDeletedTransactions currentTime, ?_, ?_⟩
  · rw [clean, TransactionPool.getTransactionHashes, hrun]
    rfl
  · rw [cleanRecentlyDeletedTransactions]
    simpa using hpool

end Clean

end TransactionPoolCleanWrapper

end Crygcoin
