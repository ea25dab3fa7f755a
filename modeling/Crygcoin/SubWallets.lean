import Crygcoin.SubWallet

namespace Crygcoin

/-! The subwallets of a wallet, as `SubWallets` of `SubWallets.cpp` keeps them, and the bookkeeping
`sendTransactionAdvanced` of `Transfer.cpp` does once the daemon has relayed a transaction: the sent
transaction is stored as locked, the outputs it pays back to the wallet are stored as unconfirmed
amounts, and its inputs are locked. `removeCancelledTransactions` is to undo a send that never
reached a block. -/

namespace WalletTypes

/-- `WalletTypes::Transaction`, with the fields the container reads. -/
structure Transaction where
  /-- what each of the wallet's spend keys gained or lost -/
  transfers : List (PublicKey × Int)
  hash : Hash
  fee : UInt64
  blockHeight : UInt64
deriving DecidableEq, Repr

/-- `WalletTypes::TxInputAndOwner`: an input chosen for a send and the spend key of its subwallet. -/
structure TxInputAndOwner where
  input : WalletTypes.TransactionInput
  publicSpendKey : PublicKey
deriving DecidableEq, Repr

/-- `WalletTypes::KeyOutput`: an output of the transaction being sent. -/
structure KeyOutput where
  key : PublicKey
  amount : UInt64
deriving DecidableEq, Repr

end WalletTypes

open WalletTypes

/-- `SubWallets`: the subwallets by public spend key, the keys in the order they were added, the
transactions found in blocks and the sent ones not in a block yet. The keys of the map and the
list of keys are the same keys, each once. -/
structure SubWallets where
  subWallets : List (PublicKey × SubWallet)
  publicSpendKeys : List PublicKey
  transactions : List WalletTypes.Transaction
  lockedTransactions : List WalletTypes.Transaction
  isViewWallet : Bool
  keys_perm : publicSpendKeys.Perm (subWallets.map Prod.fst)
  keys_nodup : publicSpendKeys.Nodup
deriving DecidableEq

/-- The `what()` of the `std::out_of_range` that `std::map::at` throws for a missing key. -/
def mapAtOutOfRange : String := "map::at"

/-- `Common::podToHex`: two lower-case hexadecimal digits a byte, as `operator<<` prints a hash. -/
def podToHex (bytes : List UInt8) : String :=
  String.ofList (bytes.flatMap fun byte => [Nat.digitChar (byte.toNat / 16), Nat.digitChar (byte.toNat % 16)])

namespace SubWallets

/-- Every subwallet changed by `f`, as the loops `for (auto &[publicKey, subWallet] : m_subWallets)`
do; the keys stay. -/
def mapSubWallets (wallets : SubWallets) (f : PublicKey → SubWallet → SubWallet) : SubWallets :=
  { wallets with
    subWallets := wallets.subWallets.map fun entry => (entry.1, f entry.1 entry.2)
    keys_perm := by rw [List.map_map]; exact wallets.keys_perm }

/-- The subwallet of one key changed by `f`. -/
def modifySubWallet (wallets : SubWallets) (publicKey : PublicKey) (f : SubWallet → SubWallet) : SubWallets :=
  wallets.mapSubWallets fun key subWallet => if key = publicKey then f subWallet else subWallet

def subWalletAt (wallets : SubWallets) (publicKey : PublicKey) : Except String SubWallet :=
  match wallets.subWallets.lookup publicKey with
  | some subWallet => pure subWallet
  | none => throw mapAtOutOfRange

def throwIfViewWallet (wallets : SubWallets) : Except String Unit :=
  if wallets.isViewWallet then throw "Wallet is a view wallet, but this function cannot be called in a view wallet"
  else pure ()

/-- `getBalance`: the unlocked and the locked balance summed over the subwallets to take from, or
over all of them. A key with no subwallet throws. -/
def getBalance (wallets : SubWallets) (subWalletsToTakeFrom : List PublicKey) (takeFromAll : Bool)
    (currentHeight now : UInt64) : Except String (UInt64 × UInt64) :=
  let keys := if takeFromAll then wallets.publicSpendKeys else subWalletsToTakeFrom
  keys.foldlM (fun (unlockedBalance, lockedBalance) pubKey => do
      let subWallet ← wallets.subWalletAt pubKey
      let (unlocked, locked) := subWallet.getBalance currentHeight now
      pure (unlockedBalance + unlocked, lockedBalance + locked))
    (0, 0)

def markInputAsLocked (wallets : SubWallets) (keyImage : KeyImage) (publicKey : PublicKey) :
    Except String SubWallets := do
  wallets.throwIfViewWallet
  let subWallet ← wallets.subWalletAt publicKey
  let subWallet ← subWallet.markInputAsLocked keyImage
  pure (wallets.modifySubWallet publicKey fun _ => subWallet)

/-- `storeUnconfirmedIncomingInput`: nothing happens for a key with no subwallet. -/
def storeUnconfirmedIncomingInput (wallets : SubWallets) (input : UnconfirmedInput) (publicSpendKey : PublicKey) :
    SubWallets :=
  wallets.modifySubWallet publicSpendKey fun subWallet => subWallet.storeUnconfirmedIncomingInput input

/-- `addUnconfirmedTransaction`: a hash already among the locked transactions throws. -/
def addUnconfirmedTransaction (wallets : SubWallets) (tx : WalletTypes.Transaction) : Except String SubWallets :=
  if wallets.lockedTransactions.any (·.hash == tx.hash) then
    throw ("Unconfirmed transaction " ++ podToHex tx.hash.data.toList ++
      " was added to the wallet twice! Terminating.")
  else pure { wallets with lockedTransactions := wallets.lockedTransactions ++ [tx] }

/-- `removeForkedTransactions`: the transactions at or above the fork go, and every subwallet
rolls its inputs back. -/
def removeForkedTransactions (wallets : SubWallets) (forkHeight : UInt64) : SubWallets :=
  { wallets.mapSubWallets (fun _ subWallet => subWallet.removeForkedInputs forkHeight) with
    transactions := wallets.transactions.filter (·.blockHeight < forkHeight) }

/-- `removeCancelledTransactions`: the cancelled sends leave the locked transactions, and every
subwallet returns the inputs and drops the amounts of the cancelled transactions. -/
def removeCancelledTransactions (wallets : SubWallets) (cancelledTransactions : List Hash) :
    Except String SubWallets := do
  wallets.throwIfViewWallet
  pure { wallets.mapSubWallets (fun _ subWallet => subWallet.removeCancelledTransactions cancelledTransactions) with
    lockedTransactions := wallets.lockedTransactions.filter (·.hash ∉ cancelledTransactions) }

/-- `transfers[key] += delta` on the `std::unordered_map` of `storeSentTransaction`, a key not
there yet starting from 0. -/
def addTransfer (transfers : List (PublicKey × Int)) (key : PublicKey) (delta : Int) : List (PublicKey × Int) :=
  match transfers.lookup key with
  | some amount => transfers.map fun entry => if entry.1 = key then (key, amount + delta) else entry
  | none => transfers ++ [(key, delta)]

/-- `storeSentTransaction`: the send as a transaction not in a block yet, each input taken from its
subwallet and the change given to the change key. -/
def storeSentTransaction (wallets : SubWallets) (hash : Hash) (fee : UInt64) (ourInputs : List WalletTypes.TxInputAndOwner)
    (changeSpendKey : PublicKey) (changeRequired : UInt64) : Except String SubWallets :=
  let transfers := ourInputs.foldl (fun transfers input =>
    addTransfer transfers input.publicSpendKey (-(input.input.amount.toNat : Int))) []
  let transfers := if changeRequired ≠ 0 then addTransfer transfers changeSpendKey changeRequired.toNat else transfers
  -- timestamp, block height and unlock time are 0 until the transaction is in a block
  wallets.addUnconfirmedTransaction ⟨transfers, hash, fee, 0⟩

/-- `storeUnconfirmedIncomingInputs`: each output whose key underives, at its index, to one of the
wallet's spend keys is an amount coming back to that subwallet. -/
def storeUnconfirmedIncomingInputs (wallets : SubWallets) (keyOutputs : List WalletTypes.KeyOutput)
    (underive : Nat → PublicKey → PublicKey) (txHash : Hash) : SubWallets :=
  keyOutputs.zipIdx.foldl (fun wallets (output, outputIndex) =>
      let spendKey := underive outputIndex output.key
      if spendKey ∈ wallets.publicSpendKeys then
        wallets.storeUnconfirmedIncomingInput ⟨output.amount, output.key, txHash⟩ spendKey
      else wallets)
    wallets

/-- The end of `sendTransactionAdvanced`, once `relayTransaction` succeeded: the sent transaction is
stored, the outputs coming back are stored as unconfirmed, and every input is locked. -/
def storeRelayedTransaction (wallets : SubWallets) (txHash : Hash) (fee : UInt64) (ourInputs : List WalletTypes.TxInputAndOwner)
    (changeSpendKey : PublicKey) (changeRequired : UInt64) (keyOutputs : List WalletTypes.KeyOutput)
    (underive : Nat → PublicKey → PublicKey) : Except String SubWallets := do
  let wallets ← wallets.storeSentTransaction txHash fee ourInputs changeSpendKey changeRequired
  let wallets := wallets.storeUnconfirmedIncomingInputs keyOutputs underive txHash
  ourInputs.foldlM (fun wallets input => wallets.markInputAsLocked input.input.keyImage input.publicSpendKey)
    wallets

section Maps

variable (wallets : SubWallets) (f g : PublicKey → SubWallet → SubWallet)

@[simp] theorem mapSubWallets_subWallets :
    (wallets.mapSubWallets f).subWallets = wallets.subWallets.map fun entry => (entry.1, f entry.1 entry.2) := rfl

@[simp] theorem mapSubWallets_publicSpendKeys : (wallets.mapSubWallets f).publicSpendKeys = wallets.publicSpendKeys :=
  rfl

@[simp] theorem mapSubWallets_lockedTransactions :
    (wallets.mapSubWallets f).lockedTransactions = wallets.lockedTransactions := rfl

@[simp] theorem mapSubWallets_isViewWallet : (wallets.mapSubWallets f).isViewWallet = wallets.isViewWallet := rfl

theorem mapSubWallets_id : wallets.mapSubWallets (fun _ subWallet => subWallet) = wallets := by
  cases wallets
  simp [mapSubWallets]

theorem mapSubWallets_mapSubWallets :
    (wallets.mapSubWallets f).mapSubWallets g = wallets.mapSubWallets fun key subWallet => g key (f key subWallet) := by
  cases wallets
  simp [mapSubWallets, Function.comp_def]

end Maps

/-- The subwallets with `added key` appended to the amounts coming back to the subwallet of `key`. -/
def appendUnconfirmed (wallets : SubWallets) (added : PublicKey → List UnconfirmedInput) : SubWallets :=
  wallets.mapSubWallets fun key subWallet =>
    { subWallet with unconfirmedIncomingAmounts := subWallet.unconfirmedIncomingAmounts ++ added key }

theorem storeUnconfirmedIncomingInputs_eq (wallets : SubWallets) (keyOutputs : List WalletTypes.KeyOutput)
    (underive : Nat → PublicKey → PublicKey) (txHash : Hash) :
    ∃ added : PublicKey → List UnconfirmedInput, (∀ key, ∀ x ∈ added key, x.parentTransactionHash = txHash) ∧
      wallets.storeUnconfirmedIncomingInputs keyOutputs underive txHash = wallets.appendUnconfirmed added := by
  -- the loop keeps the shape `appendUnconfirmed added` of what it started from, one output at a time
  suffices h : ∀ (outputs : List (WalletTypes.KeyOutput × Nat)) (added : PublicKey → List UnconfirmedInput),
      (∀ key, ∀ x ∈ added key, x.parentTransactionHash = txHash) →
      ∃ added' : PublicKey → List UnconfirmedInput, (∀ key, ∀ x ∈ added' key, x.parentTransactionHash = txHash) ∧
        outputs.foldl (fun wallets (output, outputIndex) =>
            let spendKey := underive outputIndex output.key
            if spendKey ∈ wallets.publicSpendKeys then
              wallets.storeUnconfirmedIncomingInput ⟨output.amount, output.key, txHash⟩ spendKey
            else wallets)
          (wallets.appendUnconfirmed added) = wallets.appendUnconfirmed added' by
    obtain ⟨added, hadded, heq⟩ := h keyOutputs.zipIdx (fun _ => []) (fun _ x hx => absurd hx List.not_mem_nil)
    refine ⟨added, hadded, ?_⟩
    have hstart : wallets.appendUnconfirmed (fun _ => []) = wallets := by
      simpa [appendUnconfirmed] using mapSubWallets_id wallets
    rw [← heq, hstart, storeUnconfirmedIncomingInputs]
  intro outputs
  induction outputs with
  | nil => exact fun added hadded => ⟨added, hadded, rfl⟩
  | cons entry outputs ih =>
    intro added hadded
    obtain ⟨output, outputIndex⟩ := entry
    rw [List.foldl_cons]
    dsimp only
    split
    · -- the output comes back to the subwallet of `spendKey`
      let key := underive outputIndex output.key
      let input : UnconfirmedInput := ⟨output.amount, output.key, txHash⟩
      have hstep : (wallets.appendUnconfirmed added).storeUnconfirmedIncomingInput input key =
          wallets.appendUnconfirmed fun k => if k = key then added k ++ [input] else added k := by
        rw [storeUnconfirmedIncomingInput, modifySubWallet, appendUnconfirmed, appendUnconfirmed,
          mapSubWallets_mapSubWallets]
        congr 1
        funext k subWallet
        by_cases hk : k = key <;> simp [hk, SubWallet.storeUnconfirmedIncomingInput]
      rw [hstep]
      refine ih _ fun k x hx => ?_
      by_cases hk : k = key
      · rw [if_pos hk] at hx
        rcases List.mem_append.mp hx with hx | hx
        · exact hadded k x hx
        · rw [List.mem_singleton.mp hx]
      · rw [if_neg hk] at hx
        exact hadded k x hx
    · exact ih added hadded

/-- The sum of the unlocked and the locked balance over every subwallet: what a send takes from the
wallet, and what cancelling it should give back. -/
def totalBalance (wallets : SubWallets) (currentHeight now : UInt64) : Except String UInt64 :=
  (wallets.getBalance [] true currentHeight now).map fun (unlocked, locked) => unlocked + locked

section Steps

variable {wallets : SubWallets} {publicKey : PublicKey} {subWallet : SubWallet}

theorem subWalletAt_of_lookup (hat : wallets.subWallets.lookup publicKey = some subWallet) :
    wallets.subWalletAt publicKey = .ok subWallet := by
  rw [subWalletAt, hat]
  rfl

theorem throwIfViewWallet_of_not (hview : wallets.isViewWallet = false) : wallets.throwIfViewWallet = .ok () := by
  rw [throwIfViewWallet, hview]
  rfl

theorem markInputAsLocked_eq {keyImage : KeyImage} {locked : SubWallet} (hview : wallets.isViewWallet = false)
    (hat : wallets.subWallets.lookup publicKey = some subWallet)
    (hlock : subWallet.markInputAsLocked keyImage = .ok locked) :
    wallets.markInputAsLocked keyImage publicKey = .ok (wallets.modifySubWallet publicKey fun _ => locked) := by
  rw [markInputAsLocked, throwIfViewWallet_of_not hview, subWalletAt_of_lookup hat]
  simp only [bind, Except.bind, hlock]
  rfl

theorem storeSentTransaction_eq {txHash : Hash} (fee : UInt64) (ourInputs : List WalletTypes.TxInputAndOwner)
    (changeSpendKey : PublicKey) (changeRequired : UInt64) (hfresh : ∀ tx ∈ wallets.lockedTransactions, tx.hash ≠ txHash) :
    ∃ transfers, wallets.storeSentTransaction txHash fee ourInputs changeSpendKey changeRequired =
      .ok { wallets with lockedTransactions := wallets.lockedTransactions ++ [⟨transfers, txHash, fee, 0⟩] } := by
  have hnew : ∀ transfers, wallets.lockedTransactions.any (·.hash == (⟨transfers, txHash, fee, 0⟩ :
      WalletTypes.Transaction).hash) = false :=
    fun _ => List.any_eq_false.mpr fun tx htx => by simpa using hfresh tx htx
  exact ⟨_, by rw [storeSentTransaction, addUnconfirmedTransaction, hnew]; rfl⟩

theorem removeCancelledTransactions_eq {cancelledTransactions : List Hash} (hview : wallets.isViewWallet = false) :
    wallets.removeCancelledTransactions cancelledTransactions =
      .ok { wallets.mapSubWallets (fun _ subWallet => subWallet.removeCancelledTransactions cancelledTransactions) with
        lockedTransactions := wallets.lockedTransactions.filter (·.hash ∉ cancelledTransactions) } := by
  rw [removeCancelledTransactions, throwIfViewWallet_of_not hview]
  rfl

theorem totalBalance_single (hsingle : wallets.subWallets = [(publicKey, subWallet)]) (currentHeight now : UInt64) :
    wallets.totalBalance currentHeight now =
      .ok ((subWallet.unspentInputs.map (·.amount)).sum + (subWallet.unconfirmedIncomingAmounts.map (·.amount)).sum) := by
  have hkeys : wallets.publicSpendKeys = [publicKey] := by
    simpa [hsingle] using wallets.keys_perm
  rw [totalBalance, getBalance, if_pos rfl, hkeys, List.foldlM_cons,
    subWalletAt_of_lookup (show wallets.subWallets.lookup publicKey = some subWallet by rw [hsingle]; simp)]
  simp only [bind, Except.bind, List.foldlM_nil, pure, Except.pure, Except.map, zero_add]
  rw [SubWallet.getBalance_add]

end Steps

/-- Cancelling a send does not give its inputs back. The subwallets return the locked inputs whose
parent transaction is cancelled, but the parent of an input is the transaction that paid it to the
wallet, not the send that spends it. A send of one input from a wallet of one subwallet, once
cancelled, leaves the input locked and the balance short of its amount, though the locked
transaction and the amounts the send would have paid back are gone. -/
theorem removeCancelledTransactions_keeps_sent_inputs_locked {wallets : SubWallets} {publicSpendKey : PublicKey}
    {subWallet : SubWallet} {input : WalletTypes.TransactionInput} {rest : List WalletTypes.TransactionInput}
    {txHash : Hash} (hview : wallets.isViewWallet = false)
    (hsingle : wallets.subWallets = [(publicSpendKey, subWallet)])
    (hunspent : subWallet.unspentInputs = input :: rest) (hparent : input.parentTransactionHash ≠ txHash)
    (hlocked : ∀ x ∈ subWallet.lockedInputs, x.parentTransactionHash ≠ txHash)
    (hunconfirmed : ∀ x ∈ subWallet.unconfirmedIncomingAmounts, x.parentTransactionHash ≠ txHash)
    (hfresh : ∀ tx ∈ wallets.lockedTransactions, tx.hash ≠ txHash)
    (fee : UInt64) (changeSpendKey : PublicKey) (changeRequired : UInt64) (keyOutputs : List WalletTypes.KeyOutput)
    (underive : Nat → PublicKey → PublicKey) (currentHeight now : UInt64) :
    ∃ sent, wallets.storeRelayedTransaction txHash fee [⟨input, publicSpendKey⟩] changeSpendKey changeRequired
        keyOutputs underive = .ok sent ∧
      ∃ cancelled, sent.removeCancelledTransactions [txHash] = .ok cancelled ∧
        cancelled.lockedTransactions = wallets.lockedTransactions ∧
        cancelled.subWallets =
          [(publicSpendKey, { subWallet with unspentInputs := rest, lockedInputs := subWallet.lockedInputs ++ [input] })] ∧
        ∃ balance, wallets.totalBalance currentHeight now = .ok balance ∧
          cancelled.totalBalance currentHeight now = .ok (balance - input.amount) := by
  -- the send is stored, then the amounts coming back, then the input is locked
  obtain ⟨transfers, hstored⟩ :=
    storeSentTransaction_eq fee [⟨input, publicSpendKey⟩] changeSpendKey changeRequired hfresh
  let stored : SubWallets :=
    { wallets with lockedTransactions := wallets.lockedTransactions ++ [⟨transfers, txHash, fee, 0⟩] }
  obtain ⟨added, hadded, hcoming⟩ := storeUnconfirmedIncomingInputs_eq stored keyOutputs underive txHash
  let returned : SubWallet := { subWallet with unspentInputs := rest, lockedInputs := subWallet.lockedInputs ++ [input] }
  let pending : SubWallet :=
    { subWallet with unconfirmedIncomingAmounts := subWallet.unconfirmedIncomingAmounts ++ added publicSpendKey }
  let locked : SubWallet :=
    { returned with unconfirmedIncomingAmounts := returned.unconfirmedIncomingAmounts ++ added publicSpendKey }
  have hat : (stored.appendUnconfirmed added).subWallets.lookup publicSpendKey = some pending := by
    simp [stored, appendUnconfirmed, hsingle, pending]
  have hlock : pending.markInputAsLocked input.keyImage = .ok locked :=
    SubWallet.markInputAsLocked_head (show pending.unspentInputs = input :: rest from hunspent) rfl
  have hsent := markInputAsLocked_eq (show (stored.appendUnconfirmed added).isViewWallet = false from hview) hat hlock
  -- cancelling forgets the amounts coming back, and returns nothing: the input's parent is not the send
  have hcancel : locked.removeCancelledTransactions [txHash] = returned := by
    rw [SubWallet.removeCancelledTransactions_append_unconfirmed
      (fun x hx => List.mem_singleton.mpr (hadded publicSpendKey x hx))]
    apply SubWallet.removeCancelledTransactions_of_not_mem
    · intro x hx
      rcases List.mem_append.mp hx with hx | hx
      · exact mt List.mem_singleton.mp (hlocked x hx)
      · rw [List.mem_singleton.mp hx]
        exact mt List.mem_singleton.mp hparent
    · exact fun x hx => mt List.mem_singleton.mp (hunconfirmed x hx)
  let sent := (stored.appendUnconfirmed added).modifySubWallet publicSpendKey fun _ => locked
  let cancelled : SubWallets :=
    { sent.mapSubWallets (fun _ subWallet => subWallet.removeCancelledTransactions [txHash]) with
      lockedTransactions := sent.lockedTransactions.filter (·.hash ∉ [txHash]) }
  have hsubWallets : cancelled.subWallets = [(publicSpendKey, returned)] := by
    simp [cancelled, sent, modifySubWallet, appendUnconfirmed, stored, hsingle, hcancel]
  refine ⟨sent, ?_, cancelled, removeCancelledTransactions_eq hview, ?_, hsubWallets, ?_⟩
  · rw [storeRelayedTransaction, hstored]
    simp only [bind, Except.bind]
    rw [hcoming, List.foldlM_cons, hsent]
    rfl
  · -- the locked transaction goes, and only it
    simpa [cancelled, sent, modifySubWallet, appendUnconfirmed, stored] using hfresh
  · -- the balance is the subwallet's before and after, short of the input
    refine ⟨_, totalBalance_single hsingle currentHeight now, ?_⟩
    rw [totalBalance_single hsubWallets, hunspent, List.map_cons, List.sum_cons, add_assoc, add_sub_cancel_left]

/-- One input of 100 paid by a transaction other than the send, sent whole with a fee of 10 and no
change, then cancelled: the balance stays at 0 instead of 100. -/
theorem removeCancelledTransactions_keeps_sent_inputs_locked_one_input :
    let publicSpendKey : PublicKey := ⟨Vector.replicate 32 7⟩
    let input : WalletTypes.TransactionInput :=
      ⟨⟨Vector.replicate 32 1⟩, 100, 5, ⟨Vector.replicate 32 2⟩, 0, 0, ⟨Vector.replicate 32 3⟩⟩
    let subWallet : SubWallet := ⟨[input], [], [], []⟩
    let wallets : SubWallets :=
      ⟨[(publicSpendKey, subWallet)], [publicSpendKey], [], [], false, List.Perm.refl _, List.nodup_singleton _⟩
    let txHash : Hash := ⟨Vector.replicate 32 9⟩
    wallets.isViewWallet = false ∧ wallets.subWallets = [(publicSpendKey, subWallet)] ∧
    subWallet.unspentInputs = input :: [] ∧ input.parentTransactionHash ≠ txHash ∧
    (∀ x ∈ subWallet.lockedInputs, x.parentTransactionHash ≠ txHash) ∧
    (∀ x ∈ subWallet.unconfirmedIncomingAmounts, x.parentTransactionHash ≠ txHash) ∧
    (∀ tx ∈ wallets.lockedTransactions, tx.hash ≠ txHash) ∧
    ∃ sent, wallets.storeRelayedTransaction txHash 10 [⟨input, publicSpendKey⟩] publicSpendKey 0 [] (fun _ key => key) =
        .ok sent ∧
      ∃ cancelled, sent.removeCancelledTransactions [txHash] = .ok cancelled ∧
        cancelled.lockedTransactions = wallets.lockedTransactions ∧
        cancelled.subWallets =
          [(publicSpendKey, { subWallet with unspentInputs := [], lockedInputs := subWallet.lockedInputs ++ [input] })] ∧
        ∃ balance, wallets.totalBalance 0 0 = .ok balance ∧ cancelled.totalBalance 0 0 = .ok (balance - input.amount) :=
  have hnone {α : Type} {p : α → Prop} : ∀ x ∈ ([] : List α), p x := fun _ hx => absurd hx List.not_mem_nil
  ⟨rfl, rfl, rfl, by decide, hnone, hnone, hnone,
    removeCancelledTransactions_keeps_sent_inputs_locked rfl rfl rfl (by decide) hnone hnone hnone 10 _ 0 []
      (fun _ key => key) 0 0⟩

end SubWallets

end Crygcoin
