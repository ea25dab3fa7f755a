import Crygcoin.TransactionExtra

namespace Crygcoin

/-! The payment ID of a send. `validatePaymentID` of `ValidateParameters.cpp` checks the string the
user gives, and `makeTransaction` of `Transfer.cpp` puts it in the extra of the transaction with
`createTxExtraWithPaymentId`, whose result it does not look at, before the transaction public
key. -/

/-- The codes of `Errors.h` that `validatePaymentID` returns. -/
inductive ErrorCode
  | SUCCESS
  | PAYMENT_ID_WRONG_LENGTH
  | PAYMENT_ID_INVALID
deriving DecidableEq, Repr

/-- A character of the class `[a-zA-Z0-9]` of `hexRegex`. -/
def inHexRegexClass (character : UInt8) : Bool :=
  (97 ≤ character && character ≤ 122) || (65 ≤ character && character ≤ 90) || (48 ≤ character && character ≤ 57)

/-- `std::regex_match(text, hexRegex)` for `hexRegex("[a-zA-Z0-9]{64}")`. -/
def hexRegexMatch (text : List UInt8) : Bool :=
  text.length == 64 && text.all inHexRegexClass

def validatePaymentID (paymentID : List UInt8) : ErrorCode :=
  if paymentID.isEmpty then .SUCCESS
  else if paymentID.length ≠ 64 then .PAYMENT_ID_WRONG_LENGTH
  else if !hexRegexMatch paymentID then .PAYMENT_ID_INVALID
  else .SUCCESS

/-- The extra `makeTransaction` builds: the nonce with the payment ID where
`createTxExtraWithPaymentId` succeeds, nothing where it fails, then the transaction public key. -/
def makeTransactionExtra (paymentID : List UInt8) (txPublicKey : PublicKey) : List UInt8 :=
  let extra : List UInt8 := if paymentID ≠ [] then (createTxExtraWithPaymentId paymentID []).getD [] else []
  addTransactionPublicKeyToExtra extra txPublicKey

theorem getPaymentIdFromTxExtra_makeTransactionExtra {paymentID : List UInt8} {paymentId : Hash}
    (hparse : parsePaymentId paymentID = some paymentId) (txPublicKey : PublicKey) :
    getPaymentIdFromTxExtra (makeTransactionExtra paymentID txPublicKey) = some paymentId := by
  have hnonempty : paymentID ≠ [] := by
    rintro rfl
    cases hparse
  rw [makeTransactionExtra, if_pos hnonempty, createTxExtraWithPaymentId_eq_some hparse, Option.getD_some,
    List.nil_append, getPaymentIdFromTxExtra_nonce_publicKey]

/-- `validatePaymentID` takes letters from all of the alphabet, but `podFromHex` only hexadecimal
digits: a payment ID of 64 letters and digits with one letter past `f` passes the check, the
conversion fails, `makeTransaction` goes on without it, and the transaction's extra holds no
payment ID. -/
theorem validatePaymentID_accepts_payment_ids_the_transaction_drops {paymentID : List UInt8}
    (hmatch : hexRegexMatch paymentID = true) (hbad : ∃ character ∈ paymentID, fromHexCharacter character = none)
    (txPublicKey : PublicKey) :
    validatePaymentID paymentID = .SUCCESS ∧ createTxExtraWithPaymentId paymentID [] = none ∧
      getPaymentIdFromTxExtra (makeTransactionExtra paymentID txPublicKey) = none := by
  have hlength : paymentID.length = 64 := by
    simp only [hexRegexMatch, Bool.and_eq_true, beq_iff_eq] at hmatch
    exact hmatch.1
  have hnonempty : paymentID ≠ [] := by
    rintro rfl
    cases hlength
  have hcreate := createTxExtraWithPaymentId_eq_none (parsePaymentId_eq_none hlength hbad) []
  refine ⟨?_, hcreate, ?_⟩
  · rw [validatePaymentID, if_neg (by simpa using hnonempty), if_neg (not_not.mpr hlength), hmatch]
    rfl
  · rw [makeTransactionExtra, if_pos hnonempty, hcreate, Option.getD_none]
    exact getPaymentIdFromTxExtra_publicKey txPublicKey

/-- The payment ID of 64 times the letter `g`. -/
theorem validatePaymentID_accepts_payment_ids_the_transaction_drops_all_g :
    hexRegexMatch (List.replicate 64 103) = true ∧
    (∃ character ∈ List.replicate 64 103, fromHexCharacter character = none) ∧
    validatePaymentID (List.replicate 64 103) = .SUCCESS ∧ createTxExtraWithPaymentId (List.replicate 64 103) [] = none ∧
      getPaymentIdFromTxExtra (makeTransactionExtra (List.replicate 64 103) ⟨Vector.replicate 32 5⟩) = none :=
  have hmatch : hexRegexMatch (List.replicate 64 103) = true := by decide
  have hbad : ∃ character ∈ List.replicate 64 103, fromHexCharacter character = none :=
    ⟨103, List.mem_replicate.mpr ⟨by decide, rfl⟩, by decide⟩
  ⟨hmatch, hbad, validatePaymentID_accepts_payment_ids_the_transaction_drops hmatch hbad _⟩

end Crygcoin
