import Crygcoin.SubWallets
import Crygcoin.PaymentId
import Crygcoin.Mnemonics
import Crygcoin.ValidateSemantic

namespace Crygcoin

/-! `Transfer.cpp` of the wallet backend: how the inputs of a send become a signed transaction.
`getRingParticipants` asks the daemon for `mixin + 1` random outputs of each input's amount,
`prepareRingParticipants` hides each input among `mixin` of them, `setupInputs` turns each ring into
a key input with its key image and output offsets relative to each other, `setupOutputs` derives a
one-time key for each destination, and `makeTransaction` assembles and signs the whole. The curve
operations are the functions of a `WalletCrypto`; the daemon is any function from a request to an
answer, as a remote node may answer anything. -/

/-- `Crypto::KeyDerivation`. -/
structure KeyDerivation where
  data : Vector UInt8 32
deriving DecidableEq, Repr

/-- `CryptoNote::KeyPair`. -/
structure KeyPair where
  publicKey : PublicKey
  secretKey : SecretKey
deriving DecidableEq, Repr

/-- The primitives of `crypto.h` the builder calls: `generate_key_derivation`, `derive_public_key`
and `derive_secret_key`, whose return codes it does not read, `generate_key_image`, the hash of the
transaction prefix, and `generateRingSignatures` and `checkRingSignature`. -/
structure WalletCrypto where
  generateKeyDerivation : PublicKey → SecretKey → KeyDerivation
  derivePublicKey : KeyDerivation → UInt64 → PublicKey → PublicKey
  deriveSecretKey : KeyDerivation → UInt64 → SecretKey → SecretKey
  generateKeyImage : PublicKey → SecretKey → KeyImage
  prefixHash : TransactionPrefix → Hash
  generateRingSignatures : Hash → KeyImage → List PublicKey → SecretKey → UInt64 → Bool × List Signature
  checkRingSignature : Hash → KeyImage → List PublicKey → List Signature → Bool

/-- `OutputEntry` of the daemon's answer: a random output of one amount. -/
structure OutputEntry where
  globalAmountIndex : UInt32
  outKey : PublicKey
deriving DecidableEq, Repr

/-- `RandomOuts`: the daemon's random outputs of one amount. -/
structure RandomOuts where
  amount : UInt64
  outs : List OutputEntry
deriving DecidableEq, Repr

namespace WalletTypes

/-- `TxInputAndOwner` with what the ring builder reads besides what the subwallets keep: the
public key and output index of the transaction that paid the input, its global output index once
the daemon gave it, and the owner's private spend key. -/
structure RingSource extends TxInputAndOwner where
  transactionPublicKey : PublicKey
  transactionIndex : UInt64
  globalOutputIndex : Option UInt64
  privateSpendKey : SecretKey
deriving DecidableEq, Repr

/-- `WalletTypes::GlobalIndexKey`. -/
structure GlobalIndexKey where
  index : UInt64
  key : PublicKey
deriving DecidableEq, Repr

/-- `WalletTypes::ObscuredInput`: an input among the outputs of its ring, `realOutput` its place. -/
structure ObscuredInput where
  outputs : List GlobalIndexKey
  realOutput : UInt64
  realTransactionPublicKey : PublicKey
  realOutputTransactionIndex : UInt64
  amount : UInt64
  ownerPublicSpendKey : PublicKey
  ownerPrivateSpendKey : SecretKey
deriving DecidableEq, Repr

/-- `WalletTypes::TransactionDestination`. -/
structure TransactionDestination where
  receiverPublicSpendKey : PublicKey
  receiverPublicViewKey : PublicKey
  amount : UInt64
deriving DecidableEq, Repr

end WalletTypes

open WalletTypes

namespace Utilities

/-- `WalletConfig::numDecimalPlaces`, `CRYPTONOTE_DISPLAY_DECIMAL_POINT`. -/
def numDecimalPlaces : Nat := 2

/-- `WalletConfig::ticker`. -/
def ticker : String := "CRYG"

/-- `getDivisor`: ten to the number of decimal places. -/
def getDivisor : UInt64 := 10 ^ numDecimalPlaces

/-- A comma after every third digit of the reversed digits but the last. -/
def commaGroups : List Char → List Char
  | a :: b :: c :: d :: digits => a :: b :: c :: ',' :: commaGroups (d :: digits)
  | digits => digits

/-- `formatDollars`: the digits, grouped by three with commas. -/
def formatDollars (amount : UInt64) : String :=
  String.ofList (commaGroups (Nat.toDigits 10 amount.toNat).reverse).reverse

/-- `formatCents`: zeros in front up to the number of decimal places. -/
def formatCents (amount : UInt64) : String :=
  let digits := Nat.toDigits 10 amount.toNat
  String.ofList (List.replicate (numDecimalPlaces - digits.length) '0' ++ digits)

/-- `Utilities::formatAmount`. -/
def formatAmount (amount : UInt64) : String :=
  formatDollars (amount / getDivisor) ++ "." ++ formatCents (amount % getDivisor) ++ " " ++ ticker

end Utilities

namespace SendTransaction

/-- The codes of `Errors.h` that the transaction builder returns. -/
inductive ErrorCode
  | SUCCESS
  | FAILED_TO_CREATE_RING_SIGNATURE
  | NOT_ENOUGH_FAKE_OUTPUTS
  | INVALID_GENERATED_KEYIMAGE
  | DAEMON_OFFLINE
deriving DecidableEq, Repr

/-- `Error` of `Errors.h`: a code, and a message that stands in for the code's own where it is not
empty. -/
structure Error where
  errorCode : ErrorCode
  customMessage : String
deriving DecidableEq, Repr

def Error.ofCode (code : ErrorCode) : Error :=
  ⟨code, ""⟩

/-- The end of the messages about missing outputs. -/
def explanation : String :=
  ". Further explanation here: https://gist.github.com/zpalmtree/80b3e80463225bcfb8f8432043cb594c"

/-- The message of an amount the daemon gave no outputs of. -/
def noMatchingOutputsMessage (amount : UInt64) : String :=
  "Failed to get any matching outputs for amount " ++ toString amount ++ " (" ++ Utilities.formatAmount amount ++
    ")" ++ explanation

/-- The message of an amount with `found` outputs where `requested` were asked for. -/
def notEnoughOutputsMessage (amount requested : UInt64) (found : Nat) : String :=
  "Failed to get enough matching outputs for amount " ++ toString amount ++ " (" ++ Utilities.formatAmount amount ++
    "). Requested outputs: " ++ toString requested ++ ", found outputs: " ++ toString found ++ explanation

/-- The check of each amount asked for in `getRingParticipants`: the first answer of that amount
must exist and hold `mixin` outputs. -/
def checkAmounts (mixin requestedOuts : UInt64) (fakeOuts : List RandomOuts) : List UInt64 → Option Error
  | [] => none
  | amount :: amounts =>
    match fakeOuts.find? (·.amount == amount) with
    | none => some ⟨.NOT_ENOUGH_FAKE_OUTPUTS, noMatchingOutputsMessage amount⟩
    | some fakeOut =>
      if fakeOut.outs.length < mixin.toNat then
        some ⟨.NOT_ENOUGH_FAKE_OUTPUTS, notEnoughOutputsMessage amount requestedOuts fakeOut.outs.length⟩
      else checkAmounts mixin requestedOuts fakeOuts amounts

/-- `getRingParticipants(mixin, daemon, sources)`: the daemon's answer for the sources' amounts,
checked. The source sorts a copy of each answer's outputs, so the answer goes back as it came. -/
def getRingParticipants (mixin : UInt64) (daemon : List UInt64 → UInt64 → Bool × List RandomOuts)
    (sources : List RingSource) : Error × List RandomOuts :=
  let requestedOuts := mixin + 1
  if mixin = 0 then (.ofCode .SUCCESS, [])
  else
    let amounts := sources.map (·.input.amount)
    let answer := daemon amounts requestedOuts
    let fakeOuts := answer.2
    if !answer.1 then (.ofCode .DAEMON_OFFLINE, fakeOuts)
    else
      match checkAmounts mixin requestedOuts fakeOuts amounts with
      | some error => (error, fakeOuts)
      | none =>
        if fakeOuts.length ≠ amounts.length then (.ofCode .NOT_ENOUGH_FAKE_OUTPUTS, fakeOuts)
        else
          match fakeOuts.find? (fun fakeOut => fakeOut.outs.length < mixin.toNat) with
          | some fakeOut =>
            (⟨.NOT_ENOUGH_FAKE_OUTPUTS, notEnoughOutputsMessage fakeOut.amount requestedOuts fakeOut.outs.length⟩,
              fakeOuts)
          | none => (.ofCode .SUCCESS, fakeOuts)

/-- The fakes of one ring: the daemon's outputs in the order it gave them, the input's own output
skipped, until there are `mixin`. -/
def takeFakes (globalOutputIndex : Option UInt64) (mixin : UInt64) :
    List OutputEntry → List GlobalIndexKey → List GlobalIndexKey
  | [], outputs => outputs
  | fakeOut :: outs, outputs =>
    if globalOutputIndex = some fakeOut.globalAmountIndex.toUInt64 then
      takeFakes globalOutputIndex mixin outs outputs
    else
      let outputs := outputs ++ [⟨fakeOut.globalAmountIndex.toUInt64, fakeOut.outKey⟩]
      if outputs.length ≥ mixin.toNat then outputs else takeFakes globalOutputIndex mixin outs outputs

/-- Where the input's own output goes: before the first fake whose index is not below its own,
`output.index >= walletAmount.input.globalOutputIndex`, which holds of every index for an input
without one. -/
def insertPosition (globalOutputIndex : Option UInt64) (outputs : List GlobalIndexKey) : Nat :=
  outputs.findIdx fun output =>
    match globalOutputIndex with
    | some index => decide (index ≤ output.index)
    | none => true

/-- The loop of `prepareRingParticipants` over the sources, the `i`-th answer of the daemon at the
head of `fakeOuts`. The source reads the global output index of an input without one as
`*globalOutputIndex`, which is undefined; the model reads `0`. -/
def prepareLoop (mixin : UInt64) : List RingSource → List RandomOuts → List ObscuredInput → Error × List ObscuredInput
  | [], _, result => (.ofCode .SUCCESS, result)
  | walletAmount :: sources, fakeOuts, result =>
    let outs := if mixin ≠ 0 then ((fakeOuts.head?).map (·.outs)).getD [] else []
    let fakes := takeFakes walletAmount.globalOutputIndex mixin outs []
    if fakes.length < mixin.toNat then
      (⟨.NOT_ENOUGH_FAKE_OUTPUTS, notEnoughOutputsMessage walletAmount.input.amount mixin fakes.length⟩, result)
    else
      let realOutput : GlobalIndexKey := ⟨walletAmount.globalOutputIndex.getD 0, walletAmount.input.key⟩
      let position := insertPosition walletAmount.globalOutputIndex fakes
      let obscuredInput : ObscuredInput :=
        { outputs := fakes.insertIdx position realOutput
          realOutput := UInt64.ofNat position
          realTransactionPublicKey := walletAmount.transactionPublicKey
          realOutputTransactionIndex := walletAmount.transactionIndex
          amount := walletAmount.input.amount
          ownerPublicSpendKey := walletAmount.publicSpendKey
          ownerPrivateSpendKey := walletAmount.privateSpendKey }
      prepareLoop mixin sources fakeOuts.tail (result ++ [obscuredInput])

/-- `prepareRingParticipants(sources, mixin, daemon)`: the sources sorted by amount, to line up
with the daemon's answers, each among its fakes. `std::sort` leaves the order of inputs of one
amount unspecified; the model keeps the order they came in. -/
def prepareRingParticipants (sources : List RingSource) (mixin : UInt64)
    (daemon : List UInt64 → UInt64 → Bool × List RandomOuts) : Error × List ObscuredInput :=
  let sources := sources.mergeSort fun lhs rhs => lhs.input.amount ≤ rhs.input.amount
  let participants := getRingParticipants mixin daemon sources
  if participants.1.errorCode ≠ .SUCCESS then (participants.1, [])
  else prepareLoop mixin sources participants.2 []

/-- `genKeyImage`: the one-time key pair of the input's output and its key image. -/
def genKeyImage (crypto : WalletCrypto) (input : ObscuredInput) (privateViewKey : SecretKey) : KeyPair × KeyImage :=
  let derivation := crypto.generateKeyDerivation input.realTransactionPublicKey privateViewKey
  let publicKey := crypto.derivePublicKey derivation input.realOutputTransactionIndex input.ownerPublicSpendKey
  let secretKey := crypto.deriveSecretKey derivation input.realOutputTransactionIndex input.ownerPrivateSpendKey
  (⟨publicKey, secretKey⟩, crypto.generateKeyImage publicKey secretKey)

end SendTransaction

/-- `absolute_output_offsets_to_relative`: the first index, then each index less the one before, in
`uint32_t`. -/
def absoluteOutputOffsetsToRelative : List UInt32 → List UInt32
  | [] => []
  | first :: rest => first :: List.zipWith (· - ·) rest (first :: rest)

namespace SendTransaction

/-- The key input of a ring: its amount, key image and the offsets of its outputs. -/
def keyInputOf (input : ObscuredInput) (keyImage : KeyImage) : KeyInput :=
  ⟨input.amount, absoluteOutputOffsetsToRelative (input.outputs.map fun output => output.index.toUInt32), keyImage⟩

/-- `setupInputs`: a key input per ring and the one-time secret key that signs it; an input whose
derived key is not its own output's stops the loop. -/
def setupInputs (crypto : WalletCrypto) (privateViewKey : SecretKey) :
    List ObscuredInput → List KeyInput → List SecretKey → Error × List KeyInput × List SecretKey
  | [], inputs, tmpSecretKeys => (.ofCode .SUCCESS, inputs, tmpSecretKeys)
  | input :: inputsAndFakes, inputs, tmpSecretKeys =>
    let generated := genKeyImage crypto input privateViewKey
    if (input.outputs[input.realOutput.toNat]?).map (·.key) ≠ some generated.1.publicKey then
      (.ofCode .INVALID_GENERATED_KEYIMAGE, inputs, tmpSecretKeys)
    else
      setupInputs crypto privateViewKey inputsAndFakes (inputs ++ [keyInputOf input generated.2])
        (tmpSecretKeys ++ [generated.1.secretKey])

/-- `setupOutputs`: the destinations sorted by amount, each output's key derived from the random
transaction key and its index. The order of destinations of one amount is kept. -/
def setupOutputs (crypto : WalletCrypto) (randomTxKey : KeyPair) (destinations : List TransactionDestination) :
    List WalletTypes.KeyOutput × KeyPair :=
  let destinations := destinations.mergeSort fun lhs rhs => lhs.amount ≤ rhs.amount
  let outputs := destinations.mapIdx fun outputIndex destination =>
    let derivation := crypto.generateKeyDerivation destination.receiverPublicViewKey randomTxKey.secretKey
    (⟨crypto.derivePublicKey derivation (UInt64.ofNat outputIndex) destination.receiverPublicSpendKey,
      destination.amount⟩ : WalletTypes.KeyOutput)
  (outputs, randomTxKey)

def keyOutputToTransactionOutput (keyOutputs : List WalletTypes.KeyOutput) : List TransactionOutput :=
  keyOutputs.map fun output => ⟨output.amount, .keyOutput ⟨output.key⟩⟩

def keyInputToTransactionInput (keyInputs : List KeyInput) : List TransactionInput :=
  keyInputs.map .keyInput

/-- The first loop of `generateRingSignatures`: each input's ring signature, the ring's keys in
order, pushed onto the transaction until one fails. `boost::get<KeyInput>` reads the key image; the
transactions `makeTransaction` signs have key inputs only, one per ring. -/
def signInputs (crypto : WalletCrypto) (txPrefixHash : Hash) (tx : Transaction) :
    List ObscuredInput → List TransactionInput → List SecretKey → Error × Transaction
  | input :: inputsAndFakes, .keyInput keyInput :: txInputs, tmpSecretKey :: tmpSecretKeys =>
    let signed := crypto.generateRingSignatures txPrefixHash keyInput.keyImage (input.outputs.map (·.key))
      tmpSecretKey input.realOutput
    if !signed.1 then (.ofCode .FAILED_TO_CREATE_RING_SIGNATURE, tx)
    else signInputs crypto txPrefixHash { tx with signatures := tx.signatures ++ [signed.2] } inputsAndFakes txInputs
      tmpSecretKeys
  | _, _, _ => (.ofCode .SUCCESS, tx)

/-- The second loop of `generateRingSignatures`: every signature checks. -/
def checkSignatures (crypto : WalletCrypto) (txPrefixHash : Hash) :
    List ObscuredInput → List TransactionInput → List (List Signature) → Bool
  | input :: inputsAndFakes, .keyInput keyInput :: txInputs, signatures :: moreSignatures =>
    crypto.checkRingSignature txPrefixHash keyInput.keyImage (input.outputs.map (·.key)) signatures &&
      checkSignatures crypto txPrefixHash inputsAndFakes txInputs moreSignatures
  | _, _, _ => true

/-- `generateRingSignatures(tx, inputsAndFakes, tmpSecretKeys)`. -/
def generateRingSignatures (crypto : WalletCrypto) (tx : Transaction) (inputsAndFakes : List ObscuredInput)
    (tmpSecretKeys : List SecretKey) : Error × Transaction :=
  let txPrefixHash := crypto.prefixHash tx.toTransactionPrefix
  let signed := signInputs crypto txPrefixHash tx inputsAndFakes tx.inputs tmpSecretKeys
  if signed.1.errorCode ≠ .SUCCESS then signed
  else if checkSignatures crypto txPrefixHash inputsAndFakes signed.2.inputs signed.2.signatures then signed
  else (.ofCode .FAILED_TO_CREATE_RING_SIGNATURE, signed.2)

/-- `TransactionResult`. -/
structure TransactionResult where
  error : Error
  transaction : Transaction
  outputs : List WalletTypes.KeyOutput
  txKeyPair : KeyPair
deriving DecidableEq, Repr

/-- A default-constructed `TransactionResult` with its error set: what the callers read of it after
an error is the error. -/
def TransactionResult.ofError (error : Error) : TransactionResult :=
  ⟨error, ⟨⟨0, 0, [], [], []⟩, []⟩, [], ⟨⟨Vector.replicate 32 0⟩, ⟨Vector.replicate 32 0⟩⟩⟩

/-- `makeTransaction(mixin, daemon, ourInputs, paymentID, destinations, subWallets, unlockTime)`,
with the wallet's private view key, and the random key pair `generateKeyPair` draws. -/
def makeTransaction (crypto : WalletCrypto) (mixin : UInt64) (daemon : List UInt64 → UInt64 → Bool × List RandomOuts)
    (ourInputs : List RingSource) (paymentID : List UInt8) (destinations : List TransactionDestination)
    (privateViewKey : SecretKey) (unlockTime : UInt64) (randomTxKey : KeyPair) : TransactionResult :=
  let prepared := prepareRingParticipants ourInputs mixin daemon
  if prepared.1.errorCode ≠ .SUCCESS then .ofError prepared.1
  else
    let setup := setupInputs crypto privateViewKey prepared.2 [] []
    if setup.1.errorCode ≠ .SUCCESS then .ofError setup.1
    else
      let outputs := setupOutputs crypto randomTxKey destinations
      let setupTX : Transaction :=
        ⟨⟨CURRENT_TRANSACTION_VERSION, unlockTime, keyInputToTransactionInput setup.2.1,
          keyOutputToTransactionOutput outputs.1, makeTransactionExtra paymentID outputs.2.publicKey⟩, []⟩
      let signed := generateRingSignatures crypto setupTX prepared.2 setup.2.2
      ⟨signed.1, signed.2, outputs.1, outputs.2⟩

end SendTransaction

end Crygcoin
