import Crygcoin.Varint

namespace Crygcoin

/-- `Crypto::Hash`. -/
structure Hash where
  data : Vector UInt8 32
deriving DecidableEq, Repr

/-- `Crypto::PublicKey`. -/
structure PublicKey where
  data : Vector UInt8 32
deriving DecidableEq, Repr

/-- `Crypto::KeyImage`. -/
structure KeyImage where
  data : Vector UInt8 32
deriving DecidableEq, Repr

/-- `Crypto::Signature`. -/
structure Signature where
  data : Vector UInt8 64
deriving DecidableEq, Repr

structure BaseInput where
  blockIndex : UInt32
deriving DecidableEq, Repr

structure KeyInput where
  amount : UInt64
  outputIndexes : List UInt32
  keyImage : KeyImage
deriving DecidableEq, Repr

/-- `boost::variant<BaseInput, KeyInput>`. -/
inductive TransactionInput where
  | baseInput (input : BaseInput)
  | keyInput (input : KeyInput)
deriving DecidableEq, Repr

structure KeyOutput where
  key : PublicKey
deriving DecidableEq, Repr

/-- `boost::variant<KeyOutput>`. -/
inductive TransactionOutputTarget where
  | keyOutput (output : KeyOutput)
deriving DecidableEq, Repr

structure TransactionOutput where
  amount : UInt64
  target : TransactionOutputTarget
deriving DecidableEq, Repr

structure TransactionPrefix where
  version : UInt8
  unlockTime : UInt64
  inputs : List TransactionInput
  outputs : List TransactionOutput
  extra : List UInt8
deriving DecidableEq, Repr

structure Transaction extends TransactionPrefix where
  signatures : List (List Signature)
deriving DecidableEq, Repr

/-- `TRANSACTION_VERSION_1`, the `CURRENT_TRANSACTION_VERSION` of `CryptoNoteConfig.h`. -/
def CURRENT_TRANSACTION_VERSION : UInt8 := 1

/-- `getSignaturesCount`: a key input is signed once per ring member, a base input never. -/
def getSignaturesCount : TransactionInput → Nat
  | .baseInput _ => 0
  | .keyInput input => input.outputIndexes.length

/-- The inputs of a miner transaction: exactly one `BaseInput`. -/
def isBaseInputOnly : List TransactionInput → Bool
  | [.baseInput _] => true
  | _ => false

/-- Every `std::vector` of the prefix has a `size_t` size, fewer than `2 ^ 64` elements. -/
def TransactionPrefix.SizesFit (prefix_ : TransactionPrefix) : Prop :=
  prefix_.inputs.length < 2 ^ 64 ∧ prefix_.outputs.length < 2 ^ 64 ∧ prefix_.extra.length < 2 ^ 64 ∧
    ∀ input ∈ prefix_.inputs, ∀ keyInput, input = .keyInput keyInput → keyInput.outputIndexes.length < 2 ^ 64

/-- Signatures in the shape the binary codec reads back: none for a miner transaction,
otherwise one entry per input holding `getSignaturesCount` signatures. -/
def SignaturesNormal (tx : Transaction) : Prop :=
  if isBaseInputOnly tx.inputs then tx.signatures = []
  else List.Forall₂ (fun input sigs => sigs.length = getSignaturesCount input) tx.inputs tx.signatures

end Crygcoin
