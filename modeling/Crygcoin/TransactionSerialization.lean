import Crygcoin.Transaction

namespace Crygcoin

/-! Output direction: `serialize(..., ISerializer&)` driven by a `BinaryOutputStreamSerializer`. -/

/-- `serializeContainer` on output: the element count as a varint, then the elements. -/
def writeContainer {α : Type} (write : α → List UInt8) (xs : List α) : List UInt8 :=
  writeVarint xs.length ++ xs.flatMap write

/-- `BinaryOutputStreamSerializer::operator()(std::string&)`: length varint, then the bytes. -/
def writeString (bytes : List UInt8) : List UInt8 :=
  writeVarint bytes.length ++ bytes

def writeKeyInput (input : KeyInput) : List UInt8 :=
  writeVarint input.amount.toNat ++ writeContainer (fun i => writeVarint i.toNat) input.outputIndexes ++
    input.keyImage.data.toList

/-- The variant tag (`BinaryVariantTagGetter`) followed by the alternative. -/
def writeTransactionInput : TransactionInput → List UInt8
  | .baseInput input => 0xff :: writeVarint input.blockIndex.toNat
  | .keyInput input => 0x2 :: writeKeyInput input

def writeTransactionOutputTarget : TransactionOutputTarget → List UInt8
  | .keyOutput output => 0x2 :: output.key.data.toList

def writeTransactionOutput (output : TransactionOutput) : List UInt8 :=
  writeVarint output.amount.toNat ++ writeTransactionOutputTarget output.target

def writeTransactionPrefix (prefix_ : TransactionPrefix) : List UInt8 :=
  writeVarint prefix_.version.toNat ++ writeVarint prefix_.unlockTime.toNat ++
    writeContainer writeTransactionInput prefix_.inputs ++
    writeContainer writeTransactionOutput prefix_.outputs ++ writeString prefix_.extra

/-- The loop over the inputs once signatures are expected; `none` where it throws
"unexpected signatures size". -/
def writeSignatureEntries : List TransactionInput → List (List Signature) → Option (List UInt8)
  | [], _ => some []
  | input :: inputs, sigs :: rest =>
    if getSignaturesCount input ≠ sigs.length then none
    else (sigs.flatMap (fun sig => sig.data.toList) ++ ·) <$> writeSignatureEntries inputs rest
  | _ :: _, [] => none

/-- The signature part of `serialize(Transaction&, ISerializer&)` on output. -/
def writeTransactionSignatures (inputs : List TransactionInput) (signatures : List (List Signature)) :
    Option (List UInt8) :=
  let signaturesNotExpected := signatures.isEmpty
  if !signaturesNotExpected && inputs.length != signatures.length then none
  else if signaturesNotExpected then
    if inputs.all (fun input => getSignaturesCount input == 0) then some [] else none
  else writeSignatureEntries inputs signatures

/-- `toBinaryArray<Transaction>`; `none` where serialization throws. -/
def toBinaryArray (tx : Transaction) : Option (List UInt8) :=
  (writeTransactionPrefix tx.toTransactionPrefix ++ ·) <$> writeTransactionSignatures tx.inputs tx.signatures

/-- `getObjectBinarySize`: the length of the binary form, `size_t` max where it cannot be built. -/
def getObjectBinarySize (tx : Transaction) : Nat :=
  match toBinaryArray tx with
  | some bytes => bytes.length
  | none => 2 ^ 64 - 1

/-! Input direction: the same functions driven by a `BinaryInputStreamSerializer`. -/

def readVarintUInt8 (input : List UInt8) : Option (UInt8 × List UInt8) :=
  (readVarint 8 input).map fun (v, rest) => (UInt8.ofNat v, rest)

def readVarintUInt32 (input : List UInt8) : Option (UInt32 × List UInt8) :=
  (readVarint 32 input).map fun (v, rest) => (UInt32.ofNat v, rest)

def readVarintUInt64 (input : List UInt8) : Option (UInt64 × List UInt8) :=
  (readVarint 64 input).map fun (v, rest) => (UInt64.ofNat v, rest)

/-- `serializeContainer` on input: `beginArray` reads the count as a `uint64_t` varint. -/
def readContainer {α : Type} (read : List UInt8 → Option (α × List UInt8)) (input : List UInt8) :
    Option (List α × List UInt8) := do
  let (size, input) ← readVarint 64 input
  readCount read size input

/-- `BinaryInputStreamSerializer::operator()(std::string&)` for a field other than `mm_tag`. -/
def readString (input : List UInt8) : Option (List UInt8 × List UInt8) := do
  let (size, input) ← readVarint 64 input
  readFixed size input

def readKeyInput (input : List UInt8) : Option (KeyInput × List UInt8) := do
  let (amount, input) ← readVarintUInt64 input
  let (outputIndexes, input) ← readContainer readVarintUInt32 input
  let (keyImage, input) ← readVector 32 input
  pure (⟨amount, outputIndexes, ⟨keyImage⟩⟩, input)

/-- `serialize(TransactionInput&, ISerializer&)` on input, with `getVariantValue`. -/
def readTransactionInput : List UInt8 → Option (TransactionInput × List UInt8)
  | [] => none
  | tag :: input =>
    if tag = 0xff then (readVarintUInt32 input).map fun (blockIndex, rest) => (.baseInput ⟨blockIndex⟩, rest)
    else if tag = 0x2 then (readKeyInput input).map fun (keyInput, rest) => (.keyInput keyInput, rest)
    else none

def readTransactionOutputTarget : List UInt8 → Option (TransactionOutputTarget × List UInt8)
  | [] => none
  | tag :: input =>
    if tag = 0x2 then (readVector 32 input).map fun (key, rest) => (.keyOutput ⟨⟨key⟩⟩, rest)
    else none

def readTransactionOutput (input : List UInt8) : Option (TransactionOutput × List UInt8) := do
  let (amount, input) ← readVarintUInt64 input
  let (target, input) ← readTransactionOutputTarget input
  pure (⟨amount, target⟩, input)

/-- `serialize(TransactionPrefix&, ISerializer&)` on input; a version above
`CURRENT_TRANSACTION_VERSION` throws "Wrong transaction version". -/
def readTransactionPrefix (input : List UInt8) : Option (TransactionPrefix × List UInt8) := do
  let (version, input) ← readVarintUInt8 input
  if CURRENT_TRANSACTION_VERSION < version then none
  else
    let (unlockTime, input) ← readVarintUInt64 input
    let (inputs, input) ← readContainer readTransactionInput input
    let (outputs, input) ← readContainer readTransactionOutput input
    let (extra, input) ← readString input
    pure (⟨version, unlockTime, inputs, outputs, extra⟩, input)

def readSignature (input : List UInt8) : Option (Signature × List UInt8) :=
  (readVector 64 input).map fun (data, rest) => (⟨data⟩, rest)

/-- The loop over the inputs once signatures are expected: `getSignaturesCount` signatures
for each input. -/
def readSignatureEntries : List TransactionInput → List UInt8 → Option (List (List Signature) × List UInt8)
  | [], input => some ([], input)
  | txInput :: inputs, input => do
    let (sigs, input) ← readCount readSignature (getSignaturesCount txInput) input
    let (rest, input) ← readSignatureEntries inputs input
    pure (sigs :: rest, input)

/-- The signature part of `serialize(Transaction&, ISerializer&)` on input: the signatures
are resized to one entry per input unless the transaction has a single `BaseInput`. -/
def readTransactionSignatures (inputs : List TransactionInput) (input : List UInt8) :
    Option (List (List Signature) × List UInt8) :=
  let signatures : List (List Signature) :=
    if isBaseInputOnly inputs then [] else List.replicate inputs.length []
  let signaturesNotExpected := signatures.isEmpty
  if signaturesNotExpected then
    if inputs.all (fun txInput => getSignaturesCount txInput == 0) then some (signatures, input) else none
  else readSignatureEntries inputs input

def readTransaction (input : List UInt8) : Option (Transaction × List UInt8) := do
  let (prefix_, input) ← readTransactionPrefix input
  let (signatures, input) ← readTransactionSignatures prefix_.inputs input
  pure (⟨prefix_, signatures⟩, input)

/-- `fromBinaryArray<Transaction>`: the whole array must be consumed. -/
def fromBinaryArray (bytes : List UInt8) : Option Transaction :=
  match readTransaction bytes with
  | some (tx, []) => some tx
  | _ => none

end Crygcoin
