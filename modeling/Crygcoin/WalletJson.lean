import Mathlib
import Crygcoin.SubWallets
import Crygcoin.TransactionExtra
import Crygcoin.Checks

namespace Crygcoin

/-! The wallet file, as `toJSON` and `fromJSON` of `SubWallets.cpp`, `SubWallet.cpp` and
`WalletTypes.h` write and read it. The model works on the `rapidjson` document the text is parsed
into, read with the getters of `JsonHelper.h`. `toJSON` writes the confirmed and the locked
transactions under two names; `fromJSON` reads both into `m_transactions`. -/

/-- A value of the `rapidjson` document (`JSONValue` of `JsonHelper.h`). A number is the integer
it stands for, a string its bytes, an object its members in the order they were written. -/
inductive JSONValue
  | null
  | bool (value : Bool)
  | number (value : Int)
  | string (value : List UInt8)
  | array (elements : List JSONValue)
  | object (members : List (String × JSONValue))
deriving Repr

namespace JSONValue

def typeName : JSONValue → String
  | .null => "Null"
  | .bool false => "False"
  | .bool true => "True"
  | .object _ => "Object"
  | .array _ => "Array"
  | .string _ => "String"
  | .number _ => "Number"

/-- The members `FindMember` searches; a value that is no object has none. -/
def members : JSONValue → List (String × JSONValue)
  | .object members => members
  | _ => []

/-- `IsUint64` and `GetUint64`. -/
def getUint64? : JSONValue → Option UInt64
  | .number value => if 0 ≤ value ∧ value < 2 ^ 64 then some (UInt64.ofNat value.toNat) else none
  | _ => none

/-- `IsInt64` and `GetInt64`, as the `uint64_t` that `getInt64FromJSON` returns. -/
def getInt64? : JSONValue → Option UInt64
  | .number value => if -2 ^ 63 ≤ value ∧ value < 2 ^ 63 then some (Int64.ofInt value).toUInt64 else none
  | _ => none

def getString? : JSONValue → Option (List UInt8)
  | .string value => some value
  | _ => none

def getArray? : JSONValue → Option (List JSONValue)
  | .array elements => some elements
  | _ => none

def getBool? : JSONValue → Option Bool
  | .bool value => some value
  | _ => none

end JSONValue

/-- `getJsonValue`: the first member named `key`. -/
def getJsonValue (j : JSONValue) (key : String) : Except String JSONValue :=
  match j.members.lookup key with
  | some val => pure val
  | none => throw ("Missing JSON parameter: '" ++ key ++ "'")

/-- The getters of `JsonHelper.h`: the member named `key`, where it has the type `read` takes. -/
def getFromJSON {α : Type} (expected : String) (read : JSONValue → Option α) (j : JSONValue) (key : String) :
    Except String α := do
  let val ← getJsonValue j key
  match read val with
  | some value => pure value
  | none => throw ("JSON parameter is wrong type. Expected " ++ expected ++ ", got " ++ val.typeName)

def getUint64FromJSON (j : JSONValue) (key : String) : Except String UInt64 :=
  getFromJSON "uint64_t" JSONValue.getUint64? j key

def getInt64FromJSON (j : JSONValue) (key : String) : Except String UInt64 :=
  getFromJSON "int64_t" JSONValue.getInt64? j key

def getStringFromJSON (j : JSONValue) (key : String) : Except String (List UInt8) :=
  getFromJSON "String" JSONValue.getString? j key

def getArrayFromJSON (j : JSONValue) (key : String) : Except String (List JSONValue) :=
  getFromJSON "Array" JSONValue.getArray? j key

def getBoolFromJSON (j : JSONValue) (key : String) : Except String Bool :=
  getFromJSON "Bool" JSONValue.getBool? j key

/-- `getStringFromJSONString`: a string that is an element of an array. -/
def getStringFromJSONString (j : JSONValue) : Except String (List UInt8) :=
  match j.getString? with
  | some value => pure value
  | none => throw ("JSON parameter is wrong type. Expected String, got " ++ j.typeName)

/-- `toJSON` of `Crypto::Hash`, `Crypto::PublicKey` and `Crypto::KeyImage`: `podToHex` of the
bytes. -/
def podToJSON (data : Vector UInt8 32) : JSONValue :=
  .string (toHex data.toList)

/-- `fromString` of the 32-byte types of `CryptoTypes.h`: `podFromHex`, or the error naming the
type. -/
def podFromString {α : Type} (typeName : String) (mk : Vector UInt8 32 → α) (s : List UInt8) : Except String α :=
  match podFromHex s with
  | some pod => pure (mk pod.data)
  | none => throw ("Error parsing JSON " ++ typeName ++ ", wrong length or not hex")

def Hash.fromString (s : List UInt8) : Except String Hash :=
  podFromString "Hash" Hash.mk s

def PublicKey.fromString (s : List UInt8) : Except String PublicKey :=
  podFromString "PublicKey" PublicKey.mk s

def KeyImage.fromString (s : List UInt8) : Except String KeyImage :=
  podFromString "keyimage" KeyImage.mk s

/-- `map[key] = value` on a `std::map` or `std::unordered_map` kept as the list of its entries: the
entry of `key` takes the value, or a new entry goes last. -/
def assign {κ ν : Type} [DecidableEq κ] : List (κ × ν) → κ → ν → List (κ × ν)
  | [], key, value => [(key, value)]
  | (k, v) :: entries, key, value => if k = key then (key, value) :: entries else (k, v) :: assign entries key value

section Assign

variable {κ ν β ε : Type} [DecidableEq κ]

theorem assign_of_not_mem {entries : List (κ × ν)} {key : κ} (hkey : key ∉ entries.map Prod.fst) (value : ν) :
    assign entries key value = entries ++ [(key, value)] := by
  induction entries with
  | nil => rfl
  | cons entry entries ih =>
    obtain ⟨k, v⟩ := entry
    rw [List.map_cons, List.mem_cons, not_or] at hkey
    rw [assign, if_neg (Ne.symm hkey.1), ih hkey.2]
    rfl

theorem foldlM_assign {step : List (κ × ν) → β → Except ε (List (κ × ν))} {g : κ × ν → β}
    {entries : List (κ × ν)}
    (hstep : ∀ acc, ∀ entry ∈ entries, step acc (g entry) = .ok (assign acc entry.1 entry.2))
    (acc : List (κ × ν)) (hnodup : ((acc ++ entries).map Prod.fst).Nodup) :
    (entries.map g).foldlM step acc = .ok (acc ++ entries) := by
  induction entries generalizing acc with
  | nil => rw [List.append_nil]; rfl
  | cons entry entries ih =>
    have hfresh : entry.1 ∉ acc.map Prod.fst := by
      rw [List.map_append, List.nodup_append] at hnodup
      exact fun hmem => hnodup.2.2 entry.1 hmem entry.1 (List.mem_map_of_mem List.mem_cons_self) rfl
    have hrest := ih (fun acc' entry' hmem => hstep acc' entry' (List.mem_cons_of_mem entry hmem))
      (acc ++ [entry]) (by rwa [List.append_assoc, List.singleton_append])
    rw [List.map_cons, List.foldlM_cons, hstep acc entry List.mem_cons_self, assign_of_not_mem hfresh]
    rw [List.append_assoc, List.singleton_append] at hrest
    exact hrest

end Assign

theorem mapM_map_of_ok {α β ε : Type} {f : β → Except ε α} {g : α → β} {xs : List α}
    (hread : ∀ x ∈ xs, f (g x) = .ok x) : (xs.map g).mapM f = .ok xs := by
  induction xs with
  | nil => rfl
  | cons x xs ih =>
    rw [List.map_cons, List.mapM_cons, hread x List.mem_cons_self, ih fun y hy => hread y (List.mem_cons_of_mem x hy)]
    rfl

section Getters

@[simp] theorem getJsonValue_cons (name key : String) (val : JSONValue) (members : List (String × JSONValue)) :
    getJsonValue (.object ((name, val) :: members)) key =
      if key = name then pure val else getJsonValue (.object members) key := by
  unfold getJsonValue JSONValue.members
  by_cases hkey : key = name
  · simp only [List.lookup, beq_iff_eq.mpr hkey, if_pos hkey]
  · simp only [List.lookup, beq_eq_false_iff_ne.mpr hkey, if_neg hkey]

@[simp] theorem getUint64?_number (value : UInt64) : JSONValue.getUint64? (.number value.toNat) = some value := by
  have hlt := value.toNat_lt
  simp only [JSONValue.getUint64?, Int.toNat_natCast, UInt64.ofNat_toNat]
  rw [if_pos ⟨by omega, by omega⟩]

theorem getInt64?_number {value : Int} (hlow : -2 ^ 63 ≤ value) (hhigh : value < 2 ^ 63) :
    (JSONValue.getInt64? (.number value)).map (fun amount => amount.toInt64.toInt) = some value := by
  rw [JSONValue.getInt64?, if_pos ⟨hlow, hhigh⟩, Option.map_some, Int64.toInt64_toUInt64,
    Int64.toInt_ofInt_of_le hlow hhigh]

@[simp] theorem podFromString_toHex {α : Type} (typeName : String) (mk : Vector UInt8 32 → α) (data : Vector UInt8 32) :
    podFromString typeName mk (toHex data.toList) = pure (mk data) := by
  have hpod : podFromHex (toHex data.toList) = some ⟨data⟩ := parsePaymentId_toHex ⟨data⟩
  rw [podFromString, hpod]

end Getters

namespace WalletTypes

def TransactionInput.toJSON (input : TransactionInput) : JSONValue :=
  .object [("keyImage", podToJSON input.keyImage.data), ("amount", .number input.amount.toNat),
    ("blockHeight", .number input.blockHeight.toNat), ("key", podToJSON input.key.data),
    ("spendHeight", .number input.spendHeight.toNat), ("unlockTime", .number input.unlockTime.toNat),
    ("parentTransactionHash", podToJSON input.parentTransactionHash.data)]

def TransactionInput.fromJSON (j : JSONValue) : Except String TransactionInput := do
  let keyImage ← KeyImage.fromString (← getStringFromJSON j "keyImage")
  let amount ← getUint64FromJSON j "amount"
  let blockHeight ← getUint64FromJSON j "blockHeight"
  let key ← PublicKey.fromString (← getStringFromJSON j "key")
  let spendHeight ← getUint64FromJSON j "spendHeight"
  let unlockTime ← getUint64FromJSON j "unlockTime"
  let parentTransactionHash ← Hash.fromString (← getStringFromJSON j "parentTransactionHash")
  pure ⟨keyImage, amount, blockHeight, key, spendHeight, unlockTime, parentTransactionHash⟩

def UnconfirmedInput.toJSON (input : UnconfirmedInput) : JSONValue :=
  .object [("amount", .number input.amount.toNat), ("key", podToJSON input.key.data),
    ("parentTransactionHash", podToJSON input.parentTransactionHash.data)]

def UnconfirmedInput.fromJSON (j : JSONValue) : Except String UnconfirmedInput := do
  let amount ← getUint64FromJSON j "amount"
  let key ← PublicKey.fromString (← getStringFromJSON j "key")
  let parentTransactionHash ← Hash.fromString (← getStringFromJSON j "parentTransactionHash")
  pure ⟨amount, key, parentTransactionHash⟩

/-- One member of `"transfers"`, as `Transaction::toJSON` writes it. -/
def transferToJSON (transfer : PublicKey × Int) : JSONValue :=
  .object [("publicKey", podToJSON transfer.1.data), ("amount", .number transfer.2)]

def Transaction.toJSON (tx : Transaction) : JSONValue :=
  .object [("transfers", .array (tx.transfers.map transferToJSON)), ("hash", podToJSON tx.hash.data),
    ("fee", .number tx.fee.toNat), ("blockHeight", .number tx.blockHeight.toNat)]

/-- One round of the loop over `"transfers"` of `Transaction::fromJSON`:
`transfers[publicKey] = getInt64FromJSON(x, "amount")`, whose `uint64_t` goes back to the `int64_t`
of the map. -/
def readTransfer (transfers : List (PublicKey × Int)) (x : JSONValue) : Except String (List (PublicKey × Int)) := do
  let publicKey ← PublicKey.fromString (← getStringFromJSON x "publicKey")
  let amount ← getInt64FromJSON x "amount"
  pure (assign transfers publicKey amount.toInt64.toInt)

def Transaction.fromJSON (j : JSONValue) : Except String Transaction := do
  let transfers ← (← getArrayFromJSON j "transfers").foldlM readTransfer []
  let hash ← Hash.fromString (← getStringFromJSON j "hash")
  let fee ← getUint64FromJSON j "fee"
  let blockHeight ← getUint64FromJSON j "blockHeight"
  pure ⟨transfers, hash, fee, blockHeight⟩

/-- The transfers of a transaction as the `std::unordered_map<PublicKey, int64_t>` of the source
holds them: each key once, and each amount an `int64_t`. -/
def Transaction.Storable (tx : Transaction) : Prop :=
  (tx.transfers.map Prod.fst).Nodup ∧ ∀ transfer ∈ tx.transfers, -2 ^ 63 ≤ transfer.2 ∧ transfer.2 < 2 ^ 63

instance : DecidablePred Transaction.Storable :=
  fun tx => inferInstanceAs (Decidable ((tx.transfers.map Prod.fst).Nodup ∧ _))

section RoundTrip

theorem TransactionInput.fromJSON_toJSON (input : TransactionInput) : TransactionInput.fromJSON input.toJSON = .ok input := by
  simp [TransactionInput.fromJSON, TransactionInput.toJSON, getStringFromJSON, getUint64FromJSON, getFromJSON,
    podToJSON, JSONValue.getString?, KeyImage.fromString, PublicKey.fromString, Hash.fromString]

theorem UnconfirmedInput.fromJSON_toJSON (input : UnconfirmedInput) :
    UnconfirmedInput.fromJSON input.toJSON = .ok input := by
  simp [UnconfirmedInput.fromJSON, UnconfirmedInput.toJSON, getStringFromJSON, getUint64FromJSON, getFromJSON,
    podToJSON, JSONValue.getString?, PublicKey.fromString, Hash.fromString]

theorem readTransfer_transferToJSON (transfers : List (PublicKey × Int)) {transfer : PublicKey × Int}
    (hlow : -2 ^ 63 ≤ transfer.2) (hhigh : transfer.2 < 2 ^ 63) :
    readTransfer transfers (transferToJSON transfer) = .ok (assign transfers transfer.1 transfer.2) := by
  obtain ⟨amount, hget, hback⟩ := Option.map_eq_some_iff.mp (getInt64?_number hlow hhigh)
  simp [readTransfer, transferToJSON, getStringFromJSON, getInt64FromJSON, getFromJSON, podToJSON,
    JSONValue.getString?, PublicKey.fromString, hget, hback]

theorem Transaction.fromJSON_toJSON {tx : Transaction} (hstorable : tx.Storable) :
    Transaction.fromJSON tx.toJSON = .ok tx := by
  obtain ⟨hnodup, hrange⟩ := hstorable
  have htransfers : (tx.transfers.map transferToJSON).foldlM readTransfer [] = .ok tx.transfers := by
    have hfold := foldlM_assign
      (fun acc transfer hmem => readTransfer_transferToJSON acc (hrange transfer hmem).1 (hrange transfer hmem).2)
      [] (by rwa [List.nil_append])
    rwa [List.nil_append] at hfold
  simp [Transaction.fromJSON, Transaction.toJSON, getArrayFromJSON, getStringFromJSON, getUint64FromJSON,
    getFromJSON, JSONValue.getArray?, htransfers, podToJSON, JSONValue.getString?, Hash.fromString]

end RoundTrip

end WalletTypes

open WalletTypes

namespace SubWallet

/-- `SubWallet::toJSON`, with the public spend key of its entry in `m_subWallets`. -/
def toJSON (publicSpendKey : PublicKey) (wallet : SubWallet) : JSONValue :=
  .object [("publicSpendKey", podToJSON publicSpendKey.data),
    ("unspentInputs", .array (wallet.unspentInputs.map TransactionInput.toJSON)),
    ("lockedInputs", .array (wallet.lockedInputs.map TransactionInput.toJSON)),
    ("spentInputs", .array (wallet.spentInputs.map TransactionInput.toJSON)),
    ("unconfirmedIncomingAmounts", .array (wallet.unconfirmedIncomingAmounts.map UnconfirmedInput.toJSON))]

/-- `SubWallet::fromJSON`: the public spend key it read and the subwallet. -/
def fromJSON (j : JSONValue) : Except String (PublicKey × SubWallet) := do
  let publicSpendKey ← PublicKey.fromString (← getStringFromJSON j "publicSpendKey")
  let unspentInputs ← (← getArrayFromJSON j "unspentInputs").mapM TransactionInput.fromJSON
  let lockedInputs ← (← getArrayFromJSON j "lockedInputs").mapM TransactionInput.fromJSON
  let spentInputs ← (← getArrayFromJSON j "spentInputs").mapM TransactionInput.fromJSON
  let unconfirmedIncomingAmounts ← (← getArrayFromJSON j "unconfirmedIncomingAmounts").mapM UnconfirmedInput.fromJSON
  pure (publicSpendKey, ⟨unspentInputs, lockedInputs, spentInputs, unconfirmedIncomingAmounts⟩)

theorem fromJSON_toJSON (publicSpendKey : PublicKey) (wallet : SubWallet) :
    fromJSON (wallet.toJSON publicSpendKey) = .ok (publicSpendKey, wallet) := by
  have hinputs (inputs : List WalletTypes.TransactionInput) :
      (inputs.map TransactionInput.toJSON).mapM TransactionInput.fromJSON = .ok inputs :=
    mapM_map_of_ok fun input _ => TransactionInput.fromJSON_toJSON input
  have hamounts : (wallet.unconfirmedIncomingAmounts.map UnconfirmedInput.toJSON).mapM UnconfirmedInput.fromJSON =
      .ok wallet.unconfirmedIncomingAmounts :=
    mapM_map_of_ok fun input _ => UnconfirmedInput.fromJSON_toJSON input
  simp [fromJSON, toJSON, getArrayFromJSON, getStringFromJSON, getFromJSON, JSONValue.getArray?, hinputs, hamounts,
    podToJSON, JSONValue.getString?, PublicKey.fromString]

end SubWallet

namespace SubWallets

/-- The members of `SubWallets` that `fromJSON` sets, without the tie between the keys and the
subwallets, which `fromJSON` does not check. -/
structure Fields where
  publicSpendKeys : List PublicKey
  subWallets : List (PublicKey × SubWallet)
  transactions : List WalletTypes.Transaction
  lockedTransactions : List WalletTypes.Transaction
  isViewWallet : Bool
deriving DecidableEq, Repr

def fields (wallets : SubWallets) : Fields :=
  ⟨wallets.publicSpendKeys, wallets.subWallets, wallets.transactions, wallets.lockedTransactions, wallets.isViewWallet⟩

def toJSON (wallets : SubWallets) : JSONValue :=
  .object [("publicSpendKeys", .array (wallets.publicSpendKeys.map fun key => podToJSON key.data)),
    ("subWallet", .array (wallets.subWallets.map fun (publicKey, subWallet) => subWallet.toJSON publicKey)),
    ("transactions", .array (wallets.transactions.map WalletTypes.Transaction.toJSON)),
    ("lockedTransactions", .array (wallets.lockedTransactions.map WalletTypes.Transaction.toJSON)),
    ("isViewWallet", .bool wallets.isViewWallet)]

/-- One round of the loop over `"subWallet"`: `m_subWallets[s.publicSpendKey()] = s`. -/
def readSubWallet (subWallets : List (PublicKey × SubWallet)) (x : JSONValue) :
    Except String (List (PublicKey × SubWallet)) := do
  let (publicSpendKey, subWallet) ← SubWallet.fromJSON x
  pure (assign subWallets publicSpendKey subWallet)

/-- `SubWallets::fromJSON`, on the new `SubWallets` that `WalletBackend::fromJSON` makes. -/
def fromJSON (j : JSONValue) : Except String Fields := do
  let publicSpendKeys ← (← getArrayFromJSON j "publicSpendKeys").mapM fun x => do
    PublicKey.fromString (← getStringFromJSONString x)
  let subWallets ← (← getArrayFromJSON j "subWallet").foldlM readSubWallet []
  let transactions ← (← getArrayFromJSON j "transactions").mapM WalletTypes.Transaction.fromJSON
  let lockedTransactions ← (← getArrayFromJSON j "lockedTransactions").mapM WalletTypes.Transaction.fromJSON
  let isViewWallet ← getBoolFromJSON j "isViewWallet"
  -- the loop over "lockedTransactions" pushes onto m_transactions, as the loop before it does
  pure ⟨publicSpendKeys, subWallets, transactions ++ lockedTransactions, [], isViewWallet⟩

section RoundTrip

variable {wallets : SubWallets}

theorem readSubWallet_toJSON (subWallets : List (PublicKey × SubWallet)) (publicSpendKey : PublicKey)
    (subWallet : SubWallet) :
    readSubWallet subWallets (subWallet.toJSON publicSpendKey) = .ok (assign subWallets publicSpendKey subWallet) := by
  rw [readSubWallet, SubWallet.fromJSON_toJSON]
  rfl

theorem fromJSON_toJSON (hstorable : ∀ tx ∈ wallets.transactions ++ wallets.lockedTransactions, tx.Storable) :
    fromJSON wallets.toJSON = .ok ⟨wallets.publicSpendKeys, wallets.subWallets,
      wallets.transactions ++ wallets.lockedTransactions, [], wallets.isViewWallet⟩ := by
  have hkeys : (wallets.publicSpendKeys.map fun key => podToJSON key.data).mapM
      (fun x => do PublicKey.fromString (← getStringFromJSONString x)) = .ok wallets.publicSpendKeys :=
    mapM_map_of_ok fun key _ => podFromString_toHex "PublicKey" PublicKey.mk key.data
  have hsubWallets : (wallets.subWallets.map fun (publicKey, subWallet) => subWallet.toJSON publicKey).foldlM
      readSubWallet [] = .ok wallets.subWallets := by
    have hfold := foldlM_assign (g := fun (publicKey, subWallet) => subWallet.toJSON publicKey)
      (fun acc entry _ => readSubWallet_toJSON acc entry.1 entry.2)
      [] (by rw [List.nil_append]; exact wallets.keys_perm.nodup_iff.mp wallets.keys_nodup)
    rwa [List.nil_append] at hfold
  have htransactions (txs : List WalletTypes.Transaction) (hstored : ∀ tx ∈ txs, tx.Storable) :
      (txs.map WalletTypes.Transaction.toJSON).mapM WalletTypes.Transaction.fromJSON = .ok txs :=
    mapM_map_of_ok fun tx htx => Transaction.fromJSON_toJSON (hstored tx htx)
  rw [List.forall_mem_append] at hstorable
  simp [fromJSON, toJSON, getArrayFromJSON, getBoolFromJSON, getFromJSON, JSONValue.getArray?, JSONValue.getBool?,
    hkeys, hsubWallets, htransactions _ hstorable.1, htransactions _ hstorable.2]

end RoundTrip

/-- Saving a wallet and loading it back confirms its sent transactions: the locked transactions
come back after the confirmed ones and none stays locked, while every other member reads back as it
was. The file reads back as the wallet exactly when no sent transaction is waiting for a block. -/
theorem fromJSON_toJSON_confirms_locked_transactions (wallets : SubWallets)
    (hstorable : ∀ tx ∈ wallets.transactions ++ wallets.lockedTransactions, tx.Storable) :
    fromJSON wallets.toJSON =
        .ok { wallets.fields with
          transactions := wallets.transactions ++ wallets.lockedTransactions, lockedTransactions := [] } ∧
      (fromJSON wallets.toJSON = .ok wallets.fields ↔ wallets.lockedTransactions = []) := by
  rw [fromJSON_toJSON hstorable]
  refine ⟨rfl, fun hsame => ?_, fun hnone => ?_⟩
  · have hlocked := congrArg Fields.lockedTransactions (Except.ok.inj hsame)
    exact hlocked.symm
  · rw [fields, hnone, List.append_nil]

/-- A wallet with one sent transaction waiting for a block loads back with it confirmed. -/
theorem fromJSON_toJSON_confirms_locked_transactions_one_sent :
    let sent : WalletTypes.Transaction := ⟨[], ⟨Vector.replicate 32 9⟩, 10, 0⟩
    let wallets : SubWallets := ⟨[], [], [], [sent], false, List.Perm.nil, List.nodup_nil⟩
    (∀ tx ∈ wallets.transactions ++ wallets.lockedTransactions, tx.Storable) ∧
      (fromJSON wallets.toJSON =
          .ok { wallets.fields with
            transactions := wallets.transactions ++ wallets.lockedTransactions, lockedTransactions := [] } ∧
        (fromJSON wallets.toJSON = .ok wallets.fields ↔ wallets.lockedTransactions = [])) ∧
      fromJSON wallets.toJSON ≠ .ok wallets.fields :=
  have hstorable : ∀ tx ∈ ([] ++ [⟨[], ⟨Vector.replicate 32 9⟩, 10, 0⟩] : List WalletTypes.Transaction),
      tx.Storable := by decide
  have hloaded := fromJSON_toJSON_confirms_locked_transactions
    ⟨[], [], [], [⟨[], ⟨Vector.replicate 32 9⟩, 10, 0⟩], false, List.Perm.nil, List.nodup_nil⟩ hstorable
  ⟨hstorable, hloaded, fun hsame => List.cons_ne_nil _ _ (hloaded.2.mp hsame)⟩

end SubWallets

end Crygcoin
