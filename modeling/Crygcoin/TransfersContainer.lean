import Crygcoin.Transaction

namespace Crygcoin

/-! The legacy wallet's store of its own outputs, `TransfersContainer` of `TransfersContainer.cpp`.
It keeps the transactions that touch the wallet and three collections of transfers: the outputs
of unconfirmed transactions, the available (confirmed, unspent) outputs, and the spent ones. The
boost multi-index containers are lists in insertion order; an equal range of a hashed index is
the filter of the list by its key. A method that throws is a computation of
`EStateM String TransfersContainer`: as in C++, what it changed before the throw stays, and a
handler sees the container as the throw left it. -/

/-- `WALLET_UNCONFIRMED_TRANSACTION_HEIGHT`, the height of a transaction of the pool. -/
def WALLET_UNCONFIRMED_TRANSACTION_HEIGHT : UInt32 := 4294967295

def UNCONFIRMED_TRANSACTION_GLOBAL_OUTPUT_INDEX : UInt32 := 4294967295

def NULL_HASH : Hash := ⟨Vector.replicate 32 0⟩

/-- `TransactionTypes::OutputType`. -/
inductive OutputType
  | Invalid
  | Key
  | Multisignature
deriving DecidableEq, Repr

/-- `TransactionBlockInfo`: where a transaction was met. -/
structure TransactionBlockInfo where
  height : UInt32
  timestamp : UInt64
  transactionIndex : UInt32
deriving DecidableEq, Repr

/-- `TransactionOutputInformationIn`: an output of the wallet as the consumer hands it over. -/
structure TransactionOutputInformationIn where
  type : OutputType
  amount : UInt64
  globalOutputIndex : UInt32
  outputInTransaction : UInt32
  transactionHash : Hash
  transactionPublicKey : PublicKey
  outputKey : PublicKey
  keyImage : KeyImage
deriving DecidableEq, Repr

/-- `TransactionOutputInformationEx`: an output as the container stores it. -/
structure TransactionOutputInformationEx extends TransactionOutputInformationIn where
  unlockTime : UInt64
  blockHeight : UInt32
  transactionIndex : UInt32
  visible : Bool
deriving DecidableEq, Repr

/-- `SpentTransactionOutput`: a stored output with the input that spends it. -/
structure SpentTransactionOutput extends TransactionOutputInformationEx where
  spendingBlock : TransactionBlockInfo
  spendingTransactionHash : Hash
  inputInTransaction : UInt32
deriving DecidableEq, Repr

/-- `TransactionInformation`. -/
structure TransactionInformation where
  transactionHash : Hash
  publicKey : PublicKey
  blockHeight : UInt32
  timestamp : UInt64
  unlockTime : UInt64
  totalAmountIn : UInt64
  totalAmountOut : UInt64
  extra : List UInt8
  paymentId : Hash
deriving DecidableEq, Repr

/-- What the container reads of a transaction through `ITransactionReader`; `paymentId` is
`none` where `getPaymentId` fails. -/
structure TransactionReader where
  transactionHash : Hash
  unlockTime : UInt64
  transactionPublicKey : PublicKey
  inputTotalAmount : UInt64
  outputTotalAmount : UInt64
  extra : List UInt8
  paymentId : Option Hash
  inputs : List TransactionInput

structure TransfersContainer where
  transactions : List TransactionInformation
  unconfirmedTransfers : List TransactionOutputInformationEx
  availableTransfers : List TransactionOutputInformationEx
  spentTransfers : List SpentTransactionOutput
  currentHeight : UInt32
deriving DecidableEq, Repr

/-- The container a wallet starts from: the constructor sets `m_currentHeight(0)`. -/
def TransfersContainer.empty : TransfersContainer :=
  ⟨[], [], [], [], 0⟩

/-- A container method that may throw. -/
abbrev TransfersM := EStateM String TransfersContainer

/-- `SpentOutputDescriptor(&keyImage) == transfer.getSpentOutputDescriptor()`: only a key
output compares equal, since `operator==` of the other types asserts and answers false. -/
def TransactionOutputInformationIn.hasKeyImage (keyImage : KeyImage)
    (transfer : TransactionOutputInformationIn) : Bool :=
  transfer.type == .Key && transfer.keyImage == keyImage

/-- `updateVisibility` over the equal range of a key image. -/
def updateVisibility (keyImage : KeyImage) (visible : Bool) (transfers : List TransactionOutputInformationEx) :
    List TransactionOutputInformationEx :=
  transfers.map fun transfer => if transfer.hasKeyImage keyImage then { transfer with visible } else transfer

/-- `lessTIterator`: earlier block, then earlier place in the block. -/
def lessTIterator (first second : TransactionOutputInformationEx) : Bool :=
  first.blockHeight < second.blockHeight ||
    (first.blockHeight == second.blockHeight && first.transactionIndex < second.transactionIndex)

/-- `TransferIteratorList::minElement`, that is `std::min_element`: the first of the least. -/
def minElement : List TransactionOutputInformationEx → Option TransactionOutputInformationEx
  | [] => none
  | first :: rest => some (rest.foldl (fun least transfer => if lessTIterator transfer least then transfer else least) first)

/-- `TransferIteratorList::sort`; the order among transfers of one place, which `std::sort`
leaves open, is the order of the list. -/
def sortTransfers (transfers : List TransactionOutputInformationEx) : List TransactionOutputInformationEx :=
  transfers.mergeSort fun first second => !lessTIterator second first

/-- The record of `transactionHash` after `m_transactions.replace(it, f(*it))`, for the first
record of that hash, the one `find` returns. -/
def modifyTransaction (transactionHash : Hash) (f : TransactionInformation → TransactionInformation) :
    List TransactionInformation → List TransactionInformation
  | [] => []
  | transaction :: rest =>
    if transaction.transactionHash == transactionHash then f transaction :: rest
    else transaction :: modifyTransaction transactionHash f rest

namespace TransfersContainer

/-- `updateTransfersVisibility`: of the transfers carrying a key image, the spent one is visible
if there is one, otherwise the earliest available one, otherwise an unconfirmed one if it is the
only one. -/
def updateTransfersVisibility (keyImage : KeyImage) (container : TransfersContainer) : TransfersContainer :=
  let unconfirmedCount := (container.unconfirmedTransfers.filter (·.hasKeyImage keyImage)).length
  let availableCount := (container.availableTransfers.filter (·.hasKeyImage keyImage)).length
  let spentCount := (container.spentTransfers.filter (·.hasKeyImage keyImage)).length
  if 0 < spentCount then
    { container with
      unconfirmedTransfers := updateVisibility keyImage false container.unconfirmedTransfers
      availableTransfers := updateVisibility keyImage false container.availableTransfers
      spentTransfers := container.spentTransfers.map fun transfer =>
        if transfer.hasKeyImage keyImage then { transfer with visible := true } else transfer }
  else if 0 < availableCount then
    let hidden := updateVisibility keyImage false container.availableTransfers
    let unconfirmedTransfers := updateVisibility keyImage false container.unconfirmedTransfers
    match minElement (hidden.filter (·.hasKeyImage keyImage)) with
    | some earliest =>
      { container with
        unconfirmedTransfers
        availableTransfers := hidden.replace earliest { earliest with visible := true } }
    | none => { container with unconfirmedTransfers, availableTransfers := hidden }
  else
    { container with
      unconfirmedTransfers := updateVisibility keyImage (unconfirmedCount == 1) container.unconfirmedTransfers }

/-- Recompute the visibility of a key output's key image after it moved; other outputs have
none. -/
def updateVisibilityOf (transfer : TransactionOutputInformationIn) (container : TransfersContainer) :
    TransfersContainer :=
  if transfer.type == .Key then container.updateTransfersVisibility transfer.keyImage else container

/-- `copyToSpent`. The spent collection is unique by key image: the insert of a second spent
transfer of one key image does nothing (the code asserts that it succeeds). -/
def copyToSpent (block : TransactionBlockInfo) (tx : TransactionReader) (inputIndex : Nat)
    (output : TransactionOutputInformationEx) (container : TransfersContainer) : TransfersContainer :=
  let spentOutput : SpentTransactionOutput :=
    { output with
      spendingBlock := block
      spendingTransactionHash := tx.transactionHash
      inputInTransaction := UInt32.ofNat inputIndex }
  if output.type == .Key && container.spentTransfers.any (·.hasKeyImage output.keyImage) then container
  else { container with spentTransfers := container.spentTransfers ++ [spentOutput] }

/-- The first loop of `deleteTransactionTransfers`: a transfer the transaction spent goes back
to the available ones. -/
def unspendTransfer (transfer : SpentTransactionOutput) (container : TransfersContainer) : TransfersContainer :=
  updateVisibilityOf transfer.toTransactionOutputInformationIn
    { container with
      availableTransfers := container.availableTransfers ++ [transfer.toTransactionOutputInformationEx]
      spentTransfers := container.spentTransfers.erase transfer }

/-- The second loop of `deleteTransactionTransfers`. -/
def eraseUnconfirmedTransfer (transfer : TransactionOutputInformationEx) (container : TransfersContainer) :
    TransfersContainer :=
  updateVisibilityOf transfer.toTransactionOutputInformationIn
    { container with unconfirmedTransfers := container.unconfirmedTransfers.erase transfer }

/-- The third loop of `deleteTransactionTransfers`. -/
def eraseAvailableTransfer (transfer : TransactionOutputInformationEx) (container : TransfersContainer) :
    TransfersContainer :=
  updateVisibilityOf transfer.toTransactionOutputInformationIn
    { container with availableTransfers := container.availableTransfers.erase transfer }

/-- `deleteTransactionTransfers`: what the transaction spent becomes available again, and its
own outputs go, in the order of the three loops of the source. -/
def deleteTransactionTransfers (transactionHash : Hash) (container : TransfersContainer) : TransfersContainer :=
  let container := (container.spentTransfers.filter (·.spendingTransactionHash == transactionHash)).foldl
    (fun container transfer => container.unspendTransfer transfer) container
  let container := (container.unconfirmedTransfers.filter (·.transactionHash == transactionHash)).foldl
    (fun container transfer => container.eraseUnconfirmedTransfer transfer) container
  (container.availableTransfers.filter (·.transactionHash == transactionHash)).foldl
    (fun container transfer => container.eraseAvailableTransfer transfer) container

/-- `m_transactions.erase(it)` for the record of a hash. -/
def eraseTransaction (transactionHash : Hash) (container : TransfersContainer) : TransfersContainer :=
  match container.transactions.find? (·.transactionHash == transactionHash) with
  | some transaction => { container with transactions := container.transactions.erase transaction }
  | none => container

/-- The private `addTransaction`: the record of the transaction, inserted into an index unique
by hash. -/
def insertTransaction (block : TransactionBlockInfo) (tx : TransactionReader) (container : TransfersContainer) :
    TransfersContainer :=
  let txInfo : TransactionInformation :=
    { transactionHash := tx.transactionHash
      publicKey := tx.transactionPublicKey
      blockHeight := block.height
      timestamp := block.timestamp
      unlockTime := tx.unlockTime
      totalAmountIn := tx.inputTotalAmount
      totalAmountOut := tx.outputTotalAmount
      extra := tx.extra
      paymentId := tx.paymentId.getD NULL_HASH }
  if container.transactions.any (·.transactionHash == tx.transactionHash) then container
  else { container with transactions := container.transactions ++ [txInfo] }

/-- One pass of the loop of `addTransactionOutputs`. -/
def addTransactionOutput (block : TransactionBlockInfo) (tx : TransactionReader)
    (transfer : TransactionOutputInformationIn) : TransfersM Unit := do
  let transactionIsUnconfimed := block.height == WALLET_UNCONFIRMED_TRANSACTION_HEIGHT
  let transferIsUnconfirmed := transfer.globalOutputIndex == UNCONFIRMED_TRANSACTION_GLOBAL_OUTPUT_INDEX
  if transactionIsUnconfimed != transferIsUnconfirmed then
    throw "Failed to add transaction output: globalOutputIndex is invalid"
  let info : TransactionOutputInformationEx :=
    { toTransactionOutputInformationIn := { transfer with transactionHash := tx.transactionHash }
      unlockTime := tx.unlockTime
      blockHeight := block.height
      transactionIndex := block.transactionIndex
      visible := true }
  if transferIsUnconfirmed then
    modify fun container => { container with unconfirmedTransfers := container.unconfirmedTransfers ++ [info] }
  else
    if info.type == .Key then
      let container ← get
      -- the same output of the same transaction, available or spent
      let sameOutput (other : TransactionOutputInformationIn) : Bool :=
        other.hasKeyImage info.keyImage && other.transactionHash == info.transactionHash &&
          other.outputInTransaction == info.outputInTransaction
      let duplicate := container.availableTransfers.any (sameOutput ·.toTransactionOutputInformationIn) ||
        container.spentTransfers.any (sameOutput ·.toTransactionOutputInformationIn)
      if duplicate then
        throw "Failed to add transaction output: key output already exists"
    modify fun container => { container with availableTransfers := container.availableTransfers ++ [info] }
  modify (updateVisibilityOf info.toTransactionOutputInformationIn)

/-- `addTransactionOutputs`: it reports whether there was any output to add. -/
def addTransactionOutputs (block : TransactionBlockInfo) (tx : TransactionReader)
    (transfers : List TransactionOutputInformationIn) : TransfersM Bool :=
  transfers.foldlM (fun _ transfer => do addTransactionOutput block tx transfer; pure true) false

/-- One pass of the loop of `addTransactionInputs`: a key input spends the earliest available
transfer of its key image with its amount. -/
def addTransactionInput (block : TransactionBlockInfo) (tx : TransactionReader) (inputIndex : Nat) :
    TransactionInput → TransfersM Bool
  | .baseInput _ => pure false
  | .keyInput input => do
    let container ← get
    if container.spentTransfers.any (·.hasKeyImage input.keyImage) then
      throw "Failed add key input: key image already spent"
    let available := container.availableTransfers.filter (·.hasKeyImage input.keyImage)
    let unconfirmedCount := (container.unconfirmedTransfers.filter (·.hasKeyImage input.keyImage)).length
    if available.length == 0 then
      if 0 < unconfirmedCount then
        throw "Failed to add key input: spend output of unconfirmed transaction"
      else
        -- this input does not spend any transfer of this container
        return false
    match (sortTransfers available).find? (·.amount == input.amount) with
    | none => throw "Failed to add key input: invalid amount"
    | some spendingTransfer =>
      modify (copyToSpent block tx inputIndex spendingTransfer)
      modify fun container =>
        { container with availableTransfers := container.availableTransfers.erase spendingTransfer }
      modify (updateTransfersVisibility input.keyImage)
      return true

/-- `addTransactionInputs`; every input is looked at, also after one that spends. -/
def addTransactionInputs (block : TransactionBlockInfo) (tx : TransactionReader) : TransfersM Bool :=
  tx.inputs.zipIdx.foldlM
    (fun inputsAdded (input, inputIndex) => do
      let added ← addTransactionInput block tx inputIndex input
      pure (inputsAdded || added))
    false

/-- The body of the public `addTransaction`, up to its handler. -/
def addTransactionBody (block : TransactionBlockInfo) (tx : TransactionReader)
    (transfers : List TransactionOutputInformationIn) : TransfersM Bool := do
  let container ← get
  if block.height < container.currentHeight then
    throw "Failed to add transaction: block index < m_currentHeight"
  if container.transactions.any (·.transactionHash == tx.transactionHash) then
    throw "Transaction is already added"
  -- `added |= ...` evaluates both sides
  let outputsAdded ← addTransactionOutputs block tx transfers
  let inputsAdded ← addTransactionInputs block tx
  let added := outputsAdded || inputsAdded
  if added then
    modify (insertTransaction block tx)
  if block.height != WALLET_UNCONFIRMED_TRANSACTION_HEIGHT then
    modify fun container => { container with currentHeight := block.height }
  return added

/-- The handler of `addTransaction`: a transaction that did not get its record loses the
transfers it had added, then the exception goes on. -/
def addTransactionRollback (tx : TransactionReader) (message : String) : TransfersM Bool := do
  let container ← get
  if !container.transactions.any (·.transactionHash == tx.transactionHash) then
    modify (deleteTransactionTransfers tx.transactionHash)
  throw message

def addTransaction (block : TransactionBlockInfo) (tx : TransactionReader)
    (transfers : List TransactionOutputInformationIn) : TransfersM Bool :=
  tryCatch (addTransactionBody block tx transfers) (addTransactionRollback tx)

def deleteUnconfirmedTransaction (transactionHash : Hash) (container : TransfersContainer) :
    Bool × TransfersContainer :=
  match container.transactions.find? (·.transactionHash == transactionHash) with
  | none => (false, container)
  | some transaction =>
    if transaction.blockHeight != WALLET_UNCONFIRMED_TRANSACTION_HEIGHT then (false, container)
    else (true, (container.deleteTransactionTransfers transactionHash).eraseTransaction transactionHash)

/-- One pass of the first loop of `markTransactionConfirmed`: an output of the transaction
becomes available with its place in the block and its global index. -/
def confirmTransfer (block : TransactionBlockInfo) (globalIndices : List UInt32)
    (transfer : TransactionOutputInformationEx) : TransfersM Unit := do
  if h : transfer.outputInTransaction.toNat < globalIndices.length then
    let confirmed : TransactionOutputInformationEx :=
      { transfer with
        blockHeight := block.height
        transactionIndex := block.transactionIndex
        globalOutputIndex := globalIndices[transfer.outputInTransaction.toNat] }
    modify fun container =>
      { container with
        availableTransfers := container.availableTransfers ++ [confirmed]
        unconfirmedTransfers := container.unconfirmedTransfers.erase transfer }
    modify (updateVisibilityOf confirmed.toTransactionOutputInformationIn)
  else
    throw "Failed to confirm transaction: not enough elements in globalIndices"

/-- The record as the body of `markTransactionConfirmed` writes it. -/
def confirmRecord (block : TransactionBlockInfo) (txInfo : TransactionInformation) : TransactionInformation :=
  { txInfo with blockHeight := block.height, timestamp := block.timestamp }

/-- The record as the handler of `markTransactionConfirmed` writes it back: the timestamp is
0, not the one the record had. -/
def unconfirmRecord (txInfo : TransactionInformation) : TransactionInformation :=
  { txInfo with blockHeight := WALLET_UNCONFIRMED_TRANSACTION_HEIGHT, timestamp := 0 }

/-- The second loop of `markTransactionConfirmed`, and of its handler: the block of the inputs
of the transaction. -/
def setSpendingBlock (transactionHash : Hash) (f : TransactionBlockInfo → TransactionBlockInfo)
    (container : TransfersContainer) : TransfersContainer :=
  { container with
    spentTransfers := container.spentTransfers.map fun transfer =>
      if transfer.spendingTransactionHash == transactionHash then { transfer with spendingBlock := f transfer.spendingBlock }
      else transfer }

/-- One pass of the loop of the handler of `markTransactionConfirmed`: an available output of
the transaction goes back to the unconfirmed ones. -/
def unconfirmTransfer (transfer : TransactionOutputInformationEx) (container : TransfersContainer) :
    TransfersContainer :=
  let unconfirmedTransfer : TransactionOutputInformationEx :=
    { transfer with
      blockHeight := WALLET_UNCONFIRMED_TRANSACTION_HEIGHT
      transactionIndex := 0
      globalOutputIndex := UNCONFIRMED_TRANSACTION_GLOBAL_OUTPUT_INDEX }
  updateVisibilityOf unconfirmedTransfer.toTransactionOutputInformationIn
    { container with
      unconfirmedTransfers := container.unconfirmedTransfers ++ [unconfirmedTransfer]
      availableTransfers := container.availableTransfers.erase transfer }

/-- The handler of `markTransactionConfirmed`: it writes the unconfirmed height with the fixed
timestamp and place 0, not the ones the transaction had. -/
def markTransactionConfirmedRollback (transactionHash : Hash) (container : TransfersContainer) :
    TransfersContainer :=
  let container := { container with transactions := modifyTransaction transactionHash unconfirmRecord container.transactions }
  let container := (container.availableTransfers.filter (·.transactionHash == transactionHash)).foldl
    (fun container transfer => container.unconfirmTransfer transfer) container
  container.setSpendingBlock transactionHash
    fun spendingBlock => { spendingBlock with height := WALLET_UNCONFIRMED_TRANSACTION_HEIGHT, timestamp := 0, transactionIndex := 0 }

/-- The body of the `try` of `markTransactionConfirmed`. -/
def markTransactionConfirmedBody (block : TransactionBlockInfo) (transactionHash : Hash)
    (globalIndices : List UInt32) : TransfersM Unit := do
  modify fun container =>
    { container with transactions := modifyTransaction transactionHash (confirmRecord block) container.transactions }
  let container ← get
  (container.unconfirmedTransfers.filter (·.transactionHash == transactionHash)).forM (confirmTransfer block globalIndices)
  modify (setSpendingBlock transactionHash fun _ => block)

def markTransactionConfirmed (block : TransactionBlockInfo) (transactionHash : Hash)
    (globalIndices : List UInt32) : TransfersM Bool := do
  if block.height == WALLET_UNCONFIRMED_TRANSACTION_HEIGHT then
    throw "Failed to confirm transaction: block height is unconfirmed"
  let container ← get
  match container.transactions.find? (·.transactionHash == transactionHash) with
  | none => return false
  | some transaction =>
    if transaction.blockHeight != WALLET_UNCONFIRMED_TRANSACTION_HEIGHT then
      return false
    tryCatch (markTransactionConfirmedBody block transactionHash globalIndices)
      fun message => do
        modify (markTransactionConfirmedRollback transactionHash)
        throw message
    return true

/-- The walk of `detach` down the height index, from the top: a transaction of the pool goes if
it spends an output of the detached blocks, a confirmed one if it is in them, and the walk stops
at the first confirmed transaction below them. -/
def detachWalk (height : UInt32) :
    List TransactionInformation → List Hash → TransfersContainer → List Hash × TransfersContainer
  | [], deletedTransactions, container => (deletedTransactions, container)
  | transaction :: rest, deletedTransactions, container =>
    let delete := fun (container : TransfersContainer) =>
      ((container.deleteTransactionTransfers transaction.transactionHash).eraseTransaction transaction.transactionHash)
    if transaction.blockHeight == WALLET_UNCONFIRMED_TRANSACTION_HEIGHT then
      let doDelete := container.spentTransfers.any fun transfer =>
        transfer.spendingTransactionHash == transaction.transactionHash && height ≤ transfer.blockHeight
      if doDelete then detachWalk height rest (deletedTransactions ++ [transaction.transactionHash]) (delete container)
      else detachWalk height rest deletedTransactions container
    else if height ≤ transaction.blockHeight then
      detachWalk height rest (deletedTransactions ++ [transaction.transactionHash]) (delete container)
    else (deletedTransactions, container)

/-- `detach`: the height index walked backwards is the records sorted by height, the later
inserted first among equal heights. -/
def detach (height : UInt32) (container : TransfersContainer) : List Hash × TransfersContainer :=
  let byHeight := (container.transactions.mergeSort fun first second => first.blockHeight ≤ second.blockHeight).reverse
  let (deletedTransactions, container) := detachWalk height byHeight [] container
  (deletedTransactions, { container with currentHeight := if height == 0 then 0 else height - 1 })

def advanceHeight (height : UInt32) (container : TransfersContainer) : Bool × TransfersContainer :=
  if container.currentHeight ≤ height then (true, { container with currentHeight := height })
  else (false, container)

/-! ## Running a method -/

section Run

variable {α : Type}

@[simp] theorem run_throw (message : String) (container : TransfersContainer) :
    (throw message : TransfersM α).run container = .error message container := rfl

theorem run_tryCatch (body : TransfersM α) (handler : String → TransfersM α) (container : TransfersContainer) :
    (tryCatch body handler : TransfersM α).run container =
      match body.run container with
      | .ok value after => .ok value after
      | .error message after => (handler message).run after := by
  simp only [tryCatch, tryCatchThe, MonadExceptOf.tryCatch, EStateM.tryCatch, EStateM.run,
    EStateM.Backtrackable.restore, EStateM.dummyRestore]
  cases body container <;> rfl

end Run

/-! ## What the moves of transfers leave alone -/

section Frame

theorem foldl_keeps {β γ : Type} (part : TransfersContainer → γ) {step : TransfersContainer → β → TransfersContainer}
    (hstep : ∀ container x, part (step container x) = part container) (xs : List β) (container : TransfersContainer) :
    part (xs.foldl step container) = part container := by
  induction xs generalizing container with
  | nil => rfl
  | cons x xs ih => rw [List.foldl_cons, ih, hstep]

@[simp] theorem updateTransfersVisibility_transactions (keyImage : KeyImage) (container : TransfersContainer) :
    (container.updateTransfersVisibility keyImage).transactions = container.transactions := by
  unfold updateTransfersVisibility
  dsimp only
  split
  · rfl
  · split
    · split <;> rfl
    · rfl

@[simp] theorem updateVisibilityOf_transactions (transfer : TransactionOutputInformationIn)
    (container : TransfersContainer) : (updateVisibilityOf transfer container).transactions = container.transactions := by
  unfold updateVisibilityOf
  split <;> simp

@[simp] theorem unconfirmTransfer_transactions (transfer : TransactionOutputInformationEx)
    (container : TransfersContainer) : (container.unconfirmTransfer transfer).transactions = container.transactions := by
  simp [unconfirmTransfer]

@[simp] theorem setSpendingBlock_transactions (transactionHash : Hash) (f : TransactionBlockInfo → TransactionBlockInfo)
    (container : TransfersContainer) : (container.setSpendingBlock transactionHash f).transactions = container.transactions :=
  rfl

end Frame

/-! ## The record of a transaction -/

section Record

variable {transactionHash : Hash}

theorem modifyTransaction_modifyTransaction (f g : TransactionInformation → TransactionInformation)
    (hf : ∀ txInfo, (f txInfo).transactionHash = txInfo.transactionHash) (transactions : List TransactionInformation) :
    modifyTransaction transactionHash g (modifyTransaction transactionHash f transactions) =
      modifyTransaction transactionHash (g ∘ f) transactions := by
  induction transactions with
  | nil => rfl
  | cons transaction rest ih =>
    by_cases hhash : (transaction.transactionHash == transactionHash) = true
    · have hfhash : ((f transaction).transactionHash == transactionHash) = true := by rwa [hf]
      simp only [modifyTransaction, hhash, if_true, hfhash, Function.comp_apply]
    · simp only [modifyTransaction, hhash, if_false, Bool.false_eq_true, ih]

theorem find?_modifyTransaction (f : TransactionInformation → TransactionInformation)
    (hf : ∀ txInfo, (f txInfo).transactionHash = txInfo.transactionHash) (transactions : List TransactionInformation) :
    (modifyTransaction transactionHash f transactions).find? (·.transactionHash == transactionHash) =
      (transactions.find? (·.transactionHash == transactionHash)).map f := by
  induction transactions with
  | nil => rfl
  | cons transaction rest ih =>
    by_cases hhash : (transaction.transactionHash == transactionHash) = true
    · have hfhash : ((f transaction).transactionHash == transactionHash) = true := by rwa [hf]
      simp only [modifyTransaction, hhash, if_true, List.find?_cons, hfhash, Option.map_some]
    · simp only [modifyTransaction, hhash, if_false, Bool.false_eq_true, List.find?_cons, ih]

end Record

/-! ## A confirmation that fails -/

section Confirm

variable {block : TransactionBlockInfo} {transactionHash : Hash} {globalIndices : List UInt32}

theorem markTransactionConfirmedRollback_transactions (container : TransfersContainer) :
    (markTransactionConfirmedRollback transactionHash container).transactions =
      modifyTransaction transactionHash unconfirmRecord container.transactions := by
  unfold markTransactionConfirmedRollback
  rw [setSpendingBlock_transactions,
    foldl_keeps TransfersContainer.transactions fun container transfer => unconfirmTransfer_transactions transfer container]

theorem markTransactionConfirmedBody_run_of_short {container : TransfersContainer}
    {first : TransactionOutputInformationEx} {rest : List TransactionOutputInformationEx}
    (hrange : container.unconfirmedTransfers.filter (·.transactionHash == transactionHash) = first :: rest)
    (hshort : globalIndices.length ≤ first.outputInTransaction.toNat) :
    (markTransactionConfirmedBody block transactionHash globalIndices).run container =
      .error "Failed to confirm transaction: not enough elements in globalIndices"
        { container with transactions := modifyTransaction transactionHash (confirmRecord block) container.transactions } := by
  have hfirst : (confirmTransfer block globalIndices first).run
      { container with transactions := modifyTransaction transactionHash (confirmRecord block) container.transactions } =
      .error "Failed to confirm transaction: not enough elements in globalIndices"
        { container with transactions := modifyTransaction transactionHash (confirmRecord block) container.transactions } := by
    rw [confirmTransfer, dif_neg (Nat.not_lt.mpr hshort)]
    rfl
  simp only [markTransactionConfirmedBody, EStateM.run_bind, EStateM.run_modify, EStateM.run_get, hrange,
    List.forM_eq_forM, List.forM_cons, hfirst]

theorem unconfirmRecord_confirmRecord {transaction : TransactionInformation}
    (hpool : transaction.blockHeight = WALLET_UNCONFIRMED_TRANSACTION_HEIGHT) :
    unconfirmRecord (confirmRecord block transaction) = { transaction with timestamp := 0 } := by
  cases transaction
  simp only [unconfirmRecord, confirmRecord] at hpool ⊢
  rw [hpool]

/-- `markTransactionConfirmed` throws when the global indices are too few for an output of the
transaction, and its handler writes the unconfirmed height back with timestamp 0: a failed call
on a pool transaction with another timestamp leaves the container changed. -/
theorem markTransactionConfirmed_failure_changes_record {container : TransfersContainer}
    {transaction : TransactionInformation} {transfer : TransactionOutputInformationEx}
    (hblock : block.height ≠ WALLET_UNCONFIRMED_TRANSACTION_HEIGHT)
    (hfind : container.transactions.find? (·.transactionHash == transactionHash) = some transaction)
    (hpool : transaction.blockHeight = WALLET_UNCONFIRMED_TRANSACTION_HEIGHT)
    (htransfer : transfer ∈ container.unconfirmedTransfers) (hhash : transfer.transactionHash = transactionHash)
    (hshort : ∀ other ∈ container.unconfirmedTransfers, other.transactionHash = transactionHash →
      globalIndices.length ≤ other.outputInTransaction.toNat)
    (htimestamp : transaction.timestamp ≠ 0) :
    ∃ after, (markTransactionConfirmed block transactionHash globalIndices).run container =
        .error "Failed to confirm transaction: not enough elements in globalIndices" after ∧
      after.transactions.find? (·.transactionHash == transactionHash) = some { transaction with timestamp := 0 } ∧
      after ≠ container := by
  -- the loop meets some output of the transaction first, and every one has too few indices
  have hmem : transfer ∈ container.unconfirmedTransfers.filter (·.transactionHash == transactionHash) :=
    List.mem_filter.mpr ⟨htransfer, beq_iff_eq.mpr hhash⟩
  obtain ⟨first, rest, hrange⟩ := List.exists_cons_of_ne_nil (List.ne_nil_of_mem hmem)
  have hfirst : first ∈ container.unconfirmedTransfers.filter (·.transactionHash == transactionHash) := by
    rw [hrange]
    exact List.mem_cons_self
  rw [List.mem_filter] at hfirst
  have hbody : (markTransactionConfirmedBody block transactionHash globalIndices).run container = _ :=
    markTransactionConfirmedBody_run_of_short hrange (hshort first hfirst.1 (beq_iff_eq.mp hfirst.2))
  let confirmed := { container with
    transactions := modifyTransaction transactionHash (confirmRecord block) container.transactions }
  have hrun : (markTransactionConfirmed block transactionHash globalIndices).run container =
      .error "Failed to confirm transaction: not enough elements in globalIndices"
        (markTransactionConfirmedRollback transactionHash confirmed) := by
    have hpool' : (transaction.blockHeight != WALLET_UNCONFIRMED_TRANSACTION_HEIGHT) = false := by
      simp [hpool]
    simp only [markTransactionConfirmed, EStateM.run_bind, EStateM.run_get, beq_eq_false_iff_ne.mpr hblock,
      Bool.false_eq_true, if_false, hfind, hpool', run_tryCatch, hbody]
    rfl
  have hrecord : (markTransactionConfirmedRollback transactionHash confirmed).transactions.find?
      (·.transactionHash == transactionHash) = some { transaction with timestamp := 0 } := by
    rw [markTransactionConfirmedRollback_transactions,
      modifyTransaction_modifyTransaction (confirmRecord block) unconfirmRecord (fun _ => rfl),
      find?_modifyTransaction (unconfirmRecord ∘ confirmRecord block) (fun _ => rfl), hfind, Option.map_some, Function.comp_apply,
      unconfirmRecord_confirmRecord hpool]
  refine ⟨_, hrun, hrecord, fun hsame => htimestamp ?_⟩
  rw [hsame, hfind, Option.some.injEq] at hrecord
  exact congrArg TransactionInformation.timestamp hrecord

end Confirm

end TransfersContainer

end Crygcoin
