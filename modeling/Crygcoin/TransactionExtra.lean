import Crygcoin.TransactionRoundTrip

namespace Crygcoin

/-! The extra of a transaction, as `TransactionExtra.cpp` reads and writes it: a run of tagged
fields, of which `parseTransactionExtra` knows four. The block codec finds the merge-mining tag of
a parent block there, and the wallet writes the transaction public key and a payment ID in the
extra nonce and reads the payment ID back. -/

def TX_EXTRA_PADDING_MAX_COUNT : Nat := 255

def TX_EXTRA_NONCE_MAX_COUNT : Nat := 255

def TX_EXTRA_TAG_PADDING : UInt8 := 0x00

def TX_EXTRA_TAG_PUBKEY : UInt8 := 0x01

def TX_EXTRA_NONCE : UInt8 := 0x02

def TX_EXTRA_MERGE_MINING_TAG : UInt8 := 0x03

def TX_EXTRA_NONCE_PAYMENT_ID : UInt8 := 0x00

def MAX_EXTRA_SIZE : Nat := 140000

structure TransactionExtraMergeMiningTag where
  depth : UInt64
  merkleRoot : Hash
deriving DecidableEq, Repr

/-- `TransactionExtraField`, the `boost::variant` of the four fields. -/
inductive TransactionExtraField
  | padding (size : Nat)
  | publicKey (publicKey : PublicKey)
  | nonce (nonce : List UInt8)
  | mergeMiningTag (tag : TransactionExtraMergeMiningTag)
deriving DecidableEq, Repr

/-- The zero bytes after a padding tag. `size` counts the tag, and reading stops at the end of the
extra or once `size` passes `TX_EXTRA_PADDING_MAX_COUNT`; a byte that is not zero fails. -/
def readPadding (size : Nat) : List UInt8 → Option (Nat × List UInt8)
  | [] => some (size, [])
  | byte :: input =>
    if size ≤ TX_EXTRA_PADDING_MAX_COUNT then
      if byte ≠ 0 then none else readPadding (size + 1) input
    else some (size, byte :: input)

/-- `BinaryInputStreamSerializer::operator()(std::string&)` for the field named `mm_tag`: a string
longer than `MAX_EXTRA_SIZE` is read past and comes out empty. -/
def readMergeMiningTagField (input : List UInt8) : Option (List UInt8 × List UInt8) := do
  let (size, input) ← readVarint 64 input
  let (field, input) ← readFixed size input
  pure (if size > MAX_EXTRA_SIZE then [] else field, input)

/-- `serialize(TransactionExtraMergeMiningTag&)` on input: the `mm_tag` string, then
`doSerialize` over its bytes, the depth as a varint and the merkle root. What follows them in the
string is not read. -/
def readMergeMiningTag (input : List UInt8) : Option (TransactionExtraMergeMiningTag × List UInt8) := do
  let (field, input) ← readMergeMiningTagField input
  let (depth, field) ← readVarintUInt64 field
  let (merkleRoot, _) ← readVector 32 field
  pure (⟨depth, ⟨merkleRoot⟩⟩, input)

theorem readPadding_length {size n : Nat} {input rest : List UInt8} (h : readPadding size input = some (n, rest)) :
    rest.length ≤ input.length := by
  induction input generalizing size with
  | nil =>
    cases h
    exact le_rfl
  | cons byte input ih =>
    rw [readPadding] at h
    split at h
    · split at h
      · cases h
      · exact Nat.le_succ_of_le (ih h)
    · cases h
      exact le_rfl

theorem readVector_length {n : Nat} {input rest : List UInt8} {v : Vector UInt8 n}
    (h : readVector n input = some (v, rest)) : rest.length ≤ input.length := by
  rw [readVector_exact h, List.length_append]
  exact Nat.le_add_left _ _

theorem readFixed_length {n : Nat} {input bytes rest : List UInt8} (h : readFixed n input = some (bytes, rest)) :
    rest.length ≤ input.length := by
  rw [(readFixed_exact h).2, List.length_append]
  exact Nat.le_add_left _ _

theorem readMergeMiningTagField_length {input field rest : List UInt8}
    (h : readMergeMiningTagField input = some (field, rest)) : rest.length ≤ input.length := by
  simp only [readMergeMiningTagField, bind, Option.bind_eq_some_iff] at h
  obtain ⟨⟨size, afterSize⟩, hsize, ⟨bytes, afterBytes⟩, hbytes, h⟩ := h
  simp only [pure, Option.some.injEq, Prod.mk.injEq] at h
  rw [← h.2]
  calc afterBytes.length ≤ afterSize.length := readFixed_length hbytes
    _ ≤ input.length := by
      rw [(readVarint_exact (by decide) hsize).2, List.length_append]
      exact Nat.le_add_left _ _

theorem readMergeMiningTag_length {input rest : List UInt8} {tag : TransactionExtraMergeMiningTag}
    (h : readMergeMiningTag input = some (tag, rest)) : rest.length ≤ input.length := by
  simp only [readMergeMiningTag, bind, Option.bind_eq_some_iff] at h
  obtain ⟨⟨field, afterField⟩, hfield, _, _, _, _, h⟩ := h
  simp only [pure, Option.some.injEq, Prod.mk.injEq] at h
  rw [← h.2]
  exact readMergeMiningTagField_length hfield

/-- The nonce after its tag: its size as one byte, then its bytes. -/
def readNonce : List UInt8 → Option (List UInt8 × List UInt8)
  | [] => none
  | size :: input => readFixed size.toNat input

theorem readNonce_length {input nonce rest : List UInt8} (h : readNonce input = some (nonce, rest)) :
    rest.length ≤ input.length := by
  cases input with
  | nil => cases h
  | cons size input => exact Nat.le_succ_of_le (readFixed_length h)

/-- The fields `parseTransactionExtra` has read one of. -/
structure ExtraSeen where
  padding : Bool
  pubkey : Bool
  nonce : Bool
  mergeMiningTag : Bool
deriving DecidableEq, Repr

/-- The `while (!iss.endOfStream())` loop of `parseTransactionExtra`: whether it succeeded, and
the fields read up to where it stopped, which the callers use whatever it returned. A second
padding, public key or nonce ends the loop with success; a second merge-mining tag is skipped, and
so is a byte that is no tag. -/
def parseExtraFields (seen : ExtraSeen) (fields : List TransactionExtraField) :
    List UInt8 → Bool × List TransactionExtraField
  | [] => (true, fields)
  | c :: input =>
    if c = TX_EXTRA_TAG_PADDING then
      if seen.padding then (true, fields)
      else
        match h : readPadding 1 input with
        | none => (false, fields)
        | some (size, rest) =>
          have := readPadding_length h
          if size > TX_EXTRA_PADDING_MAX_COUNT then (false, fields)
          else parseExtraFields { seen with padding := true } (fields ++ [.padding size]) rest
    else if c = TX_EXTRA_TAG_PUBKEY then
      if seen.pubkey then (true, fields)
      else
        match h : readVector 32 input with
        | none => (false, fields)
        | some (key, rest) =>
          have := readVector_length h
          parseExtraFields { seen with pubkey := true } (fields ++ [.publicKey ⟨key⟩]) rest
    else if c = TX_EXTRA_NONCE then
      if seen.nonce then (true, fields)
      else
        match h : readNonce input with
        | none => (false, fields)
        | some (nonce, rest) =>
          have := readNonce_length h
          parseExtraFields { seen with nonce := true } (fields ++ [.nonce nonce]) rest
    else if c = TX_EXTRA_MERGE_MINING_TAG then
      if seen.mergeMiningTag then parseExtraFields seen fields input
      else
        match h : readMergeMiningTag input with
        | none => (false, fields)
        | some (tag, rest) =>
          have := readMergeMiningTag_length h
          parseExtraFields { seen with mergeMiningTag := true } (fields ++ [.mergeMiningTag tag]) rest
    else parseExtraFields seen fields input
termination_by input => input.length

def parseTransactionExtra (transactionExtra : List UInt8) : Bool × List TransactionExtraField :=
  parseExtraFields ⟨false, false, false, false⟩ [] transactionExtra

def TransactionExtraField.asPublicKey : TransactionExtraField → Option PublicKey
  | .publicKey key => some key
  | _ => none

def TransactionExtraField.asNonce : TransactionExtraField → Option (List UInt8)
  | .nonce extraNonce => some extraNonce
  | _ => none

def TransactionExtraField.asMergeMiningTag : TransactionExtraField → Option TransactionExtraMergeMiningTag
  | .mergeMiningTag tag => some tag
  | _ => none

/-- `findTransactionExtraFieldByType<T>`: the first field of the type `select` picks out. -/
def findTransactionExtraFieldByType {α : Type} (select : TransactionExtraField → Option α)
    (fields : List TransactionExtraField) : Option α :=
  fields.findSome? select

/-- `getMergeMiningTagFromExtra`: whether parsing succeeded is not looked at. -/
def getMergeMiningTagFromExtra (extra : List UInt8) : Option TransactionExtraMergeMiningTag :=
  findTransactionExtraFieldByType TransactionExtraField.asMergeMiningTag (parseTransactionExtra extra).2

/-- `toBinaryArray<TransactionExtraMergeMiningTag>`: on output `serialize` writes the bytes of
`doSerialize`, the depth as a varint and the merkle root, as one string. -/
def writeMergeMiningTag (mmTag : TransactionExtraMergeMiningTag) : List UInt8 :=
  writeString (writeVarint mmTag.depth.toNat ++ mmTag.merkleRoot.data.toList)

def appendMergeMiningTagToExtra (extra : List UInt8) (mmTag : TransactionExtraMergeMiningTag) : List UInt8 :=
  extra ++ TX_EXTRA_MERGE_MINING_TAG :: writeMergeMiningTag mmTag

def addTransactionPublicKeyToExtra (extra : List UInt8) (txPublicKey : PublicKey) : List UInt8 :=
  extra ++ TX_EXTRA_TAG_PUBKEY :: txPublicKey.data.toList

/-- `addExtraNonceToTransactionExtra`: the tag, the size as one byte, the nonce; a nonce longer than
`TX_EXTRA_NONCE_MAX_COUNT` fails and leaves the extra as it is. -/
def addExtraNonceToTransactionExtra (extra extraNonce : List UInt8) : Option (List UInt8) :=
  if extraNonce.length > TX_EXTRA_NONCE_MAX_COUNT then none
  else some (extra ++ TX_EXTRA_NONCE :: UInt8.ofNat extraNonce.length :: extraNonce)

def setPaymentIdToTransactionExtraNonce (paymentId : Hash) : List UInt8 :=
  TX_EXTRA_NONCE_PAYMENT_ID :: paymentId.data.toList

/-- `getPaymentIdFromTransactionExtraNonce`: the 32 bytes after the payment ID tag, in a nonce of
exactly that size. -/
def getPaymentIdFromTransactionExtraNonce (extraNonce : List UInt8) : Option Hash :=
  if extraNonce.length ≠ 32 + 1 then none
  else if extraNonce.head? ≠ some TX_EXTRA_NONCE_PAYMENT_ID then none
  else (readVector 32 extraNonce.tail).map fun (data, _) => ⟨data⟩

/-- `characterValues` of `StringTools.cpp`: the value of a hexadecimal digit, `0xff` for any other
character. -/
def characterValue (character : UInt8) : UInt8 :=
  if 48 ≤ character ∧ character ≤ 57 then character - 48
  else if 65 ≤ character ∧ character ≤ 70 then character - 55
  else if 97 ≤ character ∧ character ≤ 102 then character - 87
  else 0xff

def fromHexCharacter (character : UInt8) : Option UInt8 :=
  if characterValue character > 0x0f then none else some (characterValue character)

/-- The loop of `fromHex(text, data, bufferSize, size)`: one byte for each two characters. -/
def fromHexPairs : List UInt8 → Option (List UInt8)
  | first :: second :: text => do
    let value1 ← fromHexCharacter first
    let value2 ← fromHexCharacter second
    let bytes ← fromHexPairs text
    pure ((value1 <<< 4 ||| value2) :: bytes)
  | _ => some []

/-- `fromHex(text, data, bufferSize, size)`: the bytes written, or `none` where it returns false. -/
def fromHex (text : List UInt8) (bufferSize : Nat) : Option (List UInt8) :=
  if text.length % 2 ≠ 0 then none
  else if text.length / 2 > bufferSize then none
  else fromHexPairs text

/-- `podFromHex<Crypto::Hash>`: exactly the 32 bytes of a hash. -/
def podFromHex (text : List UInt8) : Option Hash :=
  match fromHex text 32 with
  | some bytes => if h : bytes.length = 32 then some ⟨⟨bytes.toArray, by simpa using h⟩⟩ else none
  | none => none

def parsePaymentId (paymentIdString : List UInt8) : Option Hash :=
  podFromHex paymentIdString

/-- `createTxExtraWithPaymentId`: the extra with the payment ID in a nonce, or `none` where it
returns false, leaving the extra as it was. -/
def createTxExtraWithPaymentId (paymentIdString extra : List UInt8) : Option (List UInt8) := do
  let paymentIdBin ← parsePaymentId paymentIdString
  addExtraNonceToTransactionExtra extra (setPaymentIdToTransactionExtraNonce paymentIdBin)

/-- `getPaymentIdFromTxExtra`: the payment ID in the first nonce, if the extra parses. -/
def getPaymentIdFromTxExtra (extra : List UInt8) : Option Hash :=
  let (parsed, fields) := parseTransactionExtra extra
  if !parsed then none
  else
    match findTransactionExtraFieldByType TransactionExtraField.asNonce fields with
    | some extraNonce => getPaymentIdFromTransactionExtraNonce extraNonce
    | none => none

section Parse

variable {seen : ExtraSeen} {fields : List TransactionExtraField}

theorem parseExtraFields_nil : parseExtraFields seen fields [] = (true, fields) := by
  rw [parseExtraFields]

theorem parseExtraFields_publicKey (hseen : seen.pubkey = false) (key : PublicKey) (rest : List UInt8) :
    parseExtraFields seen fields (TX_EXTRA_TAG_PUBKEY :: (key.data.toList ++ rest)) =
      parseExtraFields { seen with pubkey := true } (fields ++ [.publicKey key]) rest := by
  rw [parseExtraFields, if_neg (by decide), if_pos rfl, hseen, if_neg Bool.false_ne_true]
  split
  · rename_i hread
    rw [readVector_append] at hread
    cases hread
  · rename_i key' rest' hread
    rw [readVector_append] at hread
    cases hread
    rfl

theorem parseExtraFields_nonce (hseen : seen.nonce = false) {extraNonce : List UInt8}
    (hsize : extraNonce.length < 256) (rest : List UInt8) :
    parseExtraFields seen fields (TX_EXTRA_NONCE :: UInt8.ofNat extraNonce.length :: (extraNonce ++ rest)) =
      parseExtraFields { seen with nonce := true } (fields ++ [.nonce extraNonce]) rest := by
  have hlength : (UInt8.ofNat extraNonce.length).toNat = extraNonce.length := by
    rw [UInt8.toNat_ofNat', Nat.mod_eq_of_lt hsize]
  rw [parseExtraFields, if_neg (by decide), if_neg (by decide), if_pos rfl, hseen, if_neg Bool.false_ne_true]
  split
  · rename_i hread
    rw [readNonce, hlength, readFixed_append rfl] at hread
    cases hread
  · rename_i extraNonce' rest' hread
    rw [readNonce, hlength, readFixed_append rfl] at hread
    cases hread
    rfl

end Parse

section MergeMiningTag

theorem length_writeVarint_le {k : Nat} : ∀ {value : Nat}, value < 128 ^ (k + 1) → (writeVarint value).length ≤ k + 1 := by
  induction k with
  | zero =>
    intro value hvalue
    rw [writeVarint_small (by simpa using hvalue)]
    exact le_rfl
  | succ k ih =>
    intro value hvalue
    by_cases hsmall : value < 128
    · rw [writeVarint_small hsmall]
      exact Nat.succ_le_succ (Nat.zero_le _)
    · have hhigh : value / 128 < 128 ^ (k + 1) := by
        rw [Nat.div_lt_iff_lt_mul (by decide), ← pow_succ]
        exact hvalue
      rw [writeVarint_large (by omega), List.length_cons]
      exact Nat.succ_le_succ (ih hhigh)

theorem readMergeMiningTagField_writeString {field : List UInt8} (hshort : field.length ≤ MAX_EXTRA_SIZE)
    (rest : List UInt8) : readMergeMiningTagField (writeString field ++ rest) = some (field, rest) := by
  have hfit : field.length < 2 ^ 64 := lt_of_le_of_lt hshort (by decide)
  rw [readMergeMiningTagField, writeString, List.append_assoc]
  simp only [readVarint_writeVarint hfit, readFixed_append rfl, bind, Option.bind_some,
    if_neg (Nat.not_lt.mpr hshort)]
  rfl

theorem readMergeMiningTag_write (mmTag : TransactionExtraMergeMiningTag) (rest : List UInt8) :
    readMergeMiningTag (writeMergeMiningTag mmTag ++ rest) = some (mmTag, rest) := by
  -- the depth takes at most ten bytes, so the field is short enough to be read
  have hdepth : (writeVarint mmTag.depth.toNat).length ≤ 10 :=
    length_writeVarint_le (lt_of_lt_of_le mmTag.depth.toNat_lt (by decide))
  have hshort : (writeVarint mmTag.depth.toNat ++ mmTag.merkleRoot.data.toList).length ≤ MAX_EXTRA_SIZE := by
    simp only [List.length_append, Vector.length_toList, MAX_EXTRA_SIZE]
    omega
  have hroot : readVector 32 mmTag.merkleRoot.data.toList = some (mmTag.merkleRoot.data, []) := by
    rw [← List.append_nil mmTag.merkleRoot.data.toList, readVector_append]
  simp only [readMergeMiningTag, writeMergeMiningTag, readMergeMiningTagField_writeString hshort, bind,
    Option.bind_some, readVarintUInt64_write, hroot]
  rfl

theorem parseExtraFields_mergeMiningTag {seen : ExtraSeen} {fields : List TransactionExtraField}
    (hseen : seen.mergeMiningTag = false) (mmTag : TransactionExtraMergeMiningTag) (rest : List UInt8) :
    parseExtraFields seen fields (TX_EXTRA_MERGE_MINING_TAG :: (writeMergeMiningTag mmTag ++ rest)) =
      parseExtraFields { seen with mergeMiningTag := true } (fields ++ [.mergeMiningTag mmTag]) rest := by
  rw [parseExtraFields, if_neg (by decide), if_neg (by decide), if_neg (by decide), if_pos rfl, hseen,
    if_neg Bool.false_ne_true]
  split
  · rename_i hread
    rw [readMergeMiningTag_write] at hread
    cases hread
  · rename_i mmTag' rest' hread
    rw [readMergeMiningTag_write] at hread
    cases hread
    rfl

theorem getMergeMiningTagFromExtra_appendMergeMiningTagToExtra (mmTag : TransactionExtraMergeMiningTag) :
    getMergeMiningTagFromExtra (appendMergeMiningTagToExtra [] mmTag) = some mmTag := by
  rw [getMergeMiningTagFromExtra, parseTransactionExtra, appendMergeMiningTagToExtra, List.nil_append,
    ← List.append_nil (writeMergeMiningTag mmTag), parseExtraFields_mergeMiningTag rfl, parseExtraFields_nil]
  rfl

end MergeMiningTag

section PaymentId

theorem fromHexCharacter_eq_none_iff (character : UInt8) :
    fromHexCharacter character = none ↔ characterValue character > 0x0f := by
  unfold fromHexCharacter
  split <;> simp_all

theorem fromHexPairs_eq_none {text : List UInt8} (heven : text.length % 2 = 0)
    (hbad : ∃ character ∈ text, fromHexCharacter character = none) : fromHexPairs text = none := by
  fun_induction fromHexPairs text with
  | case1 first second text ih =>
    obtain ⟨character, hmem, hnone⟩ := hbad
    simp only [bind, Option.bind_eq_none_iff]
    rcases List.mem_cons.mp hmem with rfl | hmem
    · exact fun value1 hvalue1 => absurd (hnone.symm.trans hvalue1) (by simp)
    rcases List.mem_cons.mp hmem with rfl | hmem
    · exact fun _ _ value2 hvalue2 => absurd (hnone.symm.trans hvalue2) (by simp)
    · have hrest : fromHexPairs text = none :=
        ih (by simp only [List.length_cons] at heven; omega) ⟨character, hmem, hnone⟩
      exact fun _ _ _ _ bytes hbytes => absurd (hrest.symm.trans hbytes) (by simp)
  | case2 text hshort =>
    -- fewer than two characters: none at all, as one alone is an odd count
    obtain ⟨character, hmem, -⟩ := hbad
    rcases text with _ | ⟨first, _ | ⟨second, text⟩⟩
    · cases hmem
    · simp at heven
    · exact (hshort first second text rfl).elim

theorem parsePaymentId_eq_none {paymentIdString : List UInt8} (hlength : paymentIdString.length = 64)
    (hbad : ∃ character ∈ paymentIdString, fromHexCharacter character = none) :
    parsePaymentId paymentIdString = none := by
  have hhex : fromHex paymentIdString 32 = none := by
    rw [fromHex, hlength, if_neg (by decide), if_neg (by decide)]
    exact fromHexPairs_eq_none (by rw [hlength]) hbad
  rw [parsePaymentId, podFromHex, hhex]

theorem createTxExtraWithPaymentId_eq_none {paymentIdString : List UInt8} (h : parsePaymentId paymentIdString = none)
    (extra : List UInt8) : createTxExtraWithPaymentId paymentIdString extra = none := by
  rw [createTxExtraWithPaymentId, h]
  rfl

theorem getPaymentIdFromTxExtra_publicKey (key : PublicKey) :
    getPaymentIdFromTxExtra (addTransactionPublicKeyToExtra [] key) = none := by
  have hparse : parseTransactionExtra (addTransactionPublicKeyToExtra [] key) = (true, [.publicKey key]) := by
    have hbytes : addTransactionPublicKeyToExtra [] key = TX_EXTRA_TAG_PUBKEY :: (key.data.toList ++ []) := by
      rw [addTransactionPublicKeyToExtra, List.nil_append, List.append_nil]
    rw [parseTransactionExtra, hbytes, parseExtraFields_publicKey rfl, parseExtraFields_nil]
    rfl
  rw [getPaymentIdFromTxExtra, hparse]
  rfl

theorem setPaymentIdToTransactionExtraNonce_length (paymentId : Hash) :
    (setPaymentIdToTransactionExtraNonce paymentId).length = 33 := by
  simp [setPaymentIdToTransactionExtraNonce]

theorem createTxExtraWithPaymentId_eq_some {paymentIdString : List UInt8} {paymentId : Hash}
    (h : parsePaymentId paymentIdString = some paymentId) (extra : List UInt8) :
    createTxExtraWithPaymentId paymentIdString extra =
      some (extra ++ TX_EXTRA_NONCE :: 33 :: setPaymentIdToTransactionExtraNonce paymentId) := by
  rw [createTxExtraWithPaymentId, h]
  simp only [bind, Option.bind_some, addExtraNonceToTransactionExtra, setPaymentIdToTransactionExtraNonce_length]
  rfl

theorem getPaymentIdFromTransactionExtraNonce_set (paymentId : Hash) :
    getPaymentIdFromTransactionExtraNonce (setPaymentIdToTransactionExtraNonce paymentId) = some paymentId := by
  have hhead : (setPaymentIdToTransactionExtraNonce paymentId).head? = some TX_EXTRA_NONCE_PAYMENT_ID := rfl
  have htail : (setPaymentIdToTransactionExtraNonce paymentId).tail = paymentId.data.toList ++ [] := by
    rw [List.append_nil]
    rfl
  rw [getPaymentIdFromTransactionExtraNonce, setPaymentIdToTransactionExtraNonce_length, if_neg (by decide),
    if_neg (not_not.mpr hhead), htail, readVector_append]
  rfl

theorem getPaymentIdFromTxExtra_nonce_publicKey (paymentId : Hash) (key : PublicKey) :
    getPaymentIdFromTxExtra
      (addTransactionPublicKeyToExtra (TX_EXTRA_NONCE :: 33 :: setPaymentIdToTransactionExtraNonce paymentId) key) =
      some paymentId := by
  let extraNonce := setPaymentIdToTransactionExtraNonce paymentId
  have hsize : extraNonce.length = 33 := setPaymentIdToTransactionExtraNonce_length paymentId
  have hbyte : (33 : UInt8) = UInt8.ofNat extraNonce.length := by rw [hsize]; rfl
  have hparse : parseTransactionExtra
      (addTransactionPublicKeyToExtra (TX_EXTRA_NONCE :: 33 :: extraNonce) key) =
        (true, [.nonce extraNonce, .publicKey key]) := by
    rw [parseTransactionExtra, addTransactionPublicKeyToExtra, List.cons_append, List.cons_append, hbyte,
      parseExtraFields_nonce rfl (by rw [hsize]; decide), ← List.append_nil key.data.toList,
      parseExtraFields_publicKey rfl, parseExtraFields_nil]
    rfl
  rw [getPaymentIdFromTxExtra, hparse]
  exact getPaymentIdFromTransactionExtraNonce_set paymentId

end PaymentId

/-! ### Writing the extra -/

/-- `ExtraSerializerVisitor`: the extra with a field appended, or `none` where the visitor returns
false. A padding of `size` is `size` zero bytes, its tag among them. -/
def writeExtraField (extra : List UInt8) : TransactionExtraField → Option (List UInt8)
  | .padding size => if size > TX_EXTRA_PADDING_MAX_COUNT then none else some (extra ++ List.replicate size 0)
  | .publicKey key => some (addTransactionPublicKeyToExtra extra key)
  | .nonce nonce => addExtraNonceToTransactionExtra extra nonce
  | .mergeMiningTag tag => some (appendMergeMiningTagToExtra extra tag)

/-- `writeTransactionExtra(tx_extra, tx_extra_fields)`: whether every field was written, and the
extra with the fields before the first that failed. -/
def writeTransactionExtra (txExtra : List UInt8) : List TransactionExtraField → Bool × List UInt8
  | [] => (true, txExtra)
  | field :: fields =>
    match writeExtraField txExtra field with
    | none => (false, txExtra)
    | some txExtra => writeTransactionExtra txExtra fields

/-- `"0123456789abcdef"` in ASCII. -/
def hexAlphabet : List UInt8 :=
  [0x30, 0x31, 0x32, 0x33, 0x34, 0x35, 0x36, 0x37, 0x38, 0x39, 0x61, 0x62, 0x63, 0x64, 0x65, 0x66]

/-- `Common::toHex`: two lowercase hexadecimal digits for each byte, the high one first. -/
def toHex (data : List UInt8) : List UInt8 :=
  data.flatMap fun (byte : UInt8) => [hexAlphabet.getD (byte >>> 4).toNat 0, hexAlphabet.getD (byte &&& 15).toNat 0]

def TransactionExtraField.tag : TransactionExtraField → UInt8
  | .padding _ => TX_EXTRA_TAG_PADDING
  | .publicKey _ => TX_EXTRA_TAG_PUBKEY
  | .nonce _ => TX_EXTRA_NONCE
  | .mergeMiningTag _ => TX_EXTRA_MERGE_MINING_TAG

/-- A padding of 1 to `TX_EXTRA_PADDING_MAX_COUNT` bytes, a nonce of at most
`TX_EXTRA_NONCE_MAX_COUNT`, or another field. -/
def ExtraFieldWritable : TransactionExtraField → Prop
  | .padding size => 1 ≤ size ∧ size ≤ TX_EXTRA_PADDING_MAX_COUNT
  | .nonce nonce => nonce.length ≤ TX_EXTRA_NONCE_MAX_COUNT
  | _ => True

/-- At most one field of each kind, each writable, and a padding last. -/
structure WellFormedExtra (fields : List TransactionExtraField) : Prop where
  tags_nodup : (fields.map TransactionExtraField.tag).Nodup
  writable : ∀ field ∈ fields, ExtraFieldWritable field
  padding_last : ∀ size, TransactionExtraField.padding size ∈ fields → fields.getLast? = some (.padding size)

/-- The bytes a writable field is written as. -/
def extraFieldBytes : TransactionExtraField → List UInt8
  | .padding size => List.replicate size 0
  | .publicKey key => TX_EXTRA_TAG_PUBKEY :: key.data.toList
  | .nonce nonce => TX_EXTRA_NONCE :: UInt8.ofNat nonce.length :: nonce
  | .mergeMiningTag tag => TX_EXTRA_MERGE_MINING_TAG :: writeMergeMiningTag tag

def ExtraSeen.has (seen : ExtraSeen) : TransactionExtraField → Bool
  | .padding _ => seen.padding
  | .publicKey _ => seen.pubkey
  | .nonce _ => seen.nonce
  | .mergeMiningTag _ => seen.mergeMiningTag

def ExtraSeen.mark (seen : ExtraSeen) : TransactionExtraField → ExtraSeen
  | .padding _ => { seen with padding := true }
  | .publicKey _ => { seen with pubkey := true }
  | .nonce _ => { seen with nonce := true }
  | .mergeMiningTag _ => { seen with mergeMiningTag := true }

section Write

variable {seen : ExtraSeen} {fields : List TransactionExtraField}

theorem writeExtraField_eq {field : TransactionExtraField} (h : ExtraFieldWritable field) (extra : List UInt8) :
    writeExtraField extra field = some (extra ++ extraFieldBytes field) := by
  cases field with
  | padding size => rw [writeExtraField, if_neg (by simp only [ExtraFieldWritable] at h; omega), extraFieldBytes]
  | publicKey key => rfl
  | nonce nonce =>
    rw [writeExtraField, addExtraNonceToTransactionExtra, if_neg (by simpa [ExtraFieldWritable] using h)]
    rfl
  | mergeMiningTag tag => rfl

theorem writeTransactionExtra_eq (extra : List UInt8) (h : ∀ field ∈ fields, ExtraFieldWritable field) :
    writeTransactionExtra extra fields = (true, extra ++ fields.flatMap extraFieldBytes) := by
  induction fields generalizing extra with
  | nil => simp [writeTransactionExtra]
  | cons field fields ih =>
    rw [writeTransactionExtra, writeExtraField_eq (h field List.mem_cons_self)]
    dsimp only
    rw [ih _ fun field' hmem => h field' (List.mem_cons_of_mem _ hmem), List.flatMap_cons, List.append_assoc]

theorem readPadding_replicate : ∀ (m size : Nat), size + m ≤ TX_EXTRA_PADDING_MAX_COUNT + 1 →
    readPadding size (List.replicate m 0) = some (size + m, [])
  | 0, size, _ => rfl
  | m + 1, size, h => by
    rw [List.replicate_succ, readPadding, if_pos (by omega), if_neg (by decide),
      readPadding_replicate m (size + 1) (by omega), Nat.add_right_comm, Nat.add_assoc]

theorem parseExtraFields_padding (hseen : seen.padding = false) {size : Nat} (hpositive : 1 ≤ size)
    (hbound : size ≤ TX_EXTRA_PADDING_MAX_COUNT) :
    parseExtraFields seen fields (List.replicate size 0) = (true, fields ++ [.padding size]) := by
  obtain ⟨m, rfl⟩ : ∃ m, size = m + 1 := ⟨size - 1, by omega⟩
  have htag : (0 : UInt8) = TX_EXTRA_TAG_PADDING := rfl
  rw [List.replicate_succ, parseExtraFields, if_pos htag, hseen, if_neg Bool.false_ne_true]
  split
  · next hread =>
    rw [readPadding_replicate m 1 (by omega)] at hread
    cases hread
  · next size' rest hread =>
    rw [readPadding_replicate m 1 (by omega)] at hread
    cases hread
    rw [if_neg (by omega), parseExtraFields_nil, Nat.add_comm]

theorem ExtraSeen.has_mark {field field' : TransactionExtraField} (h : field'.tag ≠ field.tag) :
    (seen.mark field).has field' = seen.has field' := by
  cases field <;> cases field' <;> first | rfl | exact absurd rfl h

theorem parseExtraFields_extraFieldBytes {field : TransactionExtraField} (hseen : seen.has field = false)
    (hwritable : ExtraFieldWritable field) {rest : List UInt8} (hend : field.tag = TX_EXTRA_TAG_PADDING → rest = []) :
    parseExtraFields seen fields (extraFieldBytes field ++ rest) =
      parseExtraFields (seen.mark field) (fields ++ [field]) rest := by
  cases field with
  | padding size =>
    rw [hend rfl, List.append_nil, extraFieldBytes, parseExtraFields_padding hseen hwritable.1 hwritable.2,
      parseExtraFields_nil]
  | publicKey key => exact parseExtraFields_publicKey hseen key rest
  | nonce nonce =>
    exact parseExtraFields_nonce hseen (Nat.lt_succ_of_le hwritable) rest
  | mergeMiningTag tag => exact parseExtraFields_mergeMiningTag hseen tag rest

theorem parseExtraFields_flatMap (written : List TransactionExtraField) (hformed : WellFormedExtra written)
    (hfresh : ∀ field ∈ written, seen.has field = false) :
    parseExtraFields seen fields (written.flatMap extraFieldBytes) = (true, fields ++ written) := by
  induction written generalizing seen fields with
  | nil => rw [List.flatMap_nil, parseExtraFields_nil, List.append_nil]
  | cons field written ih =>
    have hnodup := List.nodup_cons.mp (List.map_cons ▸ hformed.tags_nodup)
    have hother : ∀ field' ∈ written, field'.tag ≠ field.tag := fun field' hmem htag =>
      hnodup.1 (htag ▸ List.mem_map_of_mem hmem)
    -- a padding is last, so nothing is written after it
    have hend : field.tag = TX_EXTRA_TAG_PADDING → written = [] := by
      intro htag
      cases field with
      | padding size =>
        cases written with
        | nil => rfl
        | cons next more =>
          have hlast := hformed.padding_last size List.mem_cons_self
          rw [List.getLast?_cons_cons] at hlast
          exact absurd rfl (hother _ (List.mem_of_getLast? hlast))
      | _ => cases htag
    have hrest : WellFormedExtra written :=
      ⟨hnodup.2, fun field' hmem => hformed.writable field' (List.mem_cons_of_mem _ hmem),
        fun size hmem => by
          have hlast := hformed.padding_last size (List.mem_cons_of_mem _ hmem)
          cases written with
          | nil => cases hmem
          | cons next more => rwa [List.getLast?_cons_cons] at hlast⟩
    rw [List.flatMap_cons, parseExtraFields_extraFieldBytes (hfresh field List.mem_cons_self)
      (hformed.writable field List.mem_cons_self) (fun htag => by rw [hend htag, List.flatMap_nil]),
      ih hrest fun field' hmem => by
        rw [ExtraSeen.has_mark (hother field' hmem)]
        exact hfresh field' (List.mem_cons_of_mem _ hmem), List.append_assoc, List.singleton_append]

theorem toHex_byte : ∀ i : Fin 256,
    fromHexCharacter (hexAlphabet.getD (UInt8.ofNat i.val >>> 4).toNat 0) = some (UInt8.ofNat i.val >>> 4) ∧
      fromHexCharacter (hexAlphabet.getD (UInt8.ofNat i.val &&& 15).toNat 0) = some (UInt8.ofNat i.val &&& 15) ∧
      (UInt8.ofNat i.val >>> 4) <<< 4 ||| (UInt8.ofNat i.val &&& 15) = UInt8.ofNat i.val := by
  decide +kernel

theorem fromHexPairs_toHex (data : List UInt8) : fromHexPairs (toHex data) = some data := by
  induction data with
  | nil => rfl
  | cons byte data ih =>
    obtain ⟨hhigh, hlow, hbyte⟩ := toHex_byte ⟨byte.toNat, byte.toNat_lt⟩
    simp only [UInt8.ofNat_toNat] at hhigh hlow hbyte
    rw [toHex, List.flatMap_cons, ← toHex, List.cons_append, List.cons_append, List.nil_append]
    simp only [fromHexPairs, hhigh, hlow, ih, hbyte, bind, Option.bind_some]
    rfl

theorem length_toHex (data : List UInt8) : (toHex data).length = 2 * data.length := by
  induction data with
  | nil => rfl
  | cons byte data ih =>
    rw [toHex, List.flatMap_cons, ← toHex, List.length_append, ih, List.length_cons]
    simp only [List.length_cons, List.length_nil]
    omega

theorem parsePaymentId_toHex (paymentId : Hash) : parsePaymentId (toHex paymentId.data.toList) = some paymentId := by
  have hlength : (toHex paymentId.data.toList).length = 64 := by
    rw [length_toHex, Vector.length_toList]
  rw [parsePaymentId, podFromHex, fromHex, hlength, if_neg (by decide), if_neg (by decide), fromHexPairs_toHex]
  dsimp only
  rw [dif_pos Vector.length_toList]
  rfl

end Write

/-- A list of fields with at most one of each kind, a padding (if any) last and within
`TX_EXTRA_PADDING_MAX_COUNT`, and a nonce within `TX_EXTRA_NONCE_MAX_COUNT`, is written and parsed
back exactly; and the payment ID written from its hexadecimal text reads back. -/
theorem transaction_extra_roundtrip :
    (∀ fields : List TransactionExtraField, WellFormedExtra fields →
      ∃ extra, writeTransactionExtra [] fields = (true, extra) ∧ parseTransactionExtra extra = (true, fields)) ∧
    ∀ paymentId : Hash, ∃ extra, createTxExtraWithPaymentId (toHex paymentId.data.toList) [] = some extra ∧
      getPaymentIdFromTxExtra extra = some paymentId := by
  refine ⟨fun fields hformed => ⟨_, writeTransactionExtra_eq [] hformed.writable, ?_⟩, fun paymentId => ?_⟩
  · rw [List.nil_append, parseTransactionExtra, parseExtraFields_flatMap fields hformed fun field _ => by
      cases field <;> rfl, List.nil_append]
  · refine ⟨_, createTxExtraWithPaymentId_eq_some (parsePaymentId_toHex paymentId) [], ?_⟩
    -- the extra is the one nonce field
    let extraNonce := setPaymentIdToTransactionExtraNonce paymentId
    have hsize : extraNonce.length = 33 := setPaymentIdToTransactionExtraNonce_length paymentId
    have hformed : WellFormedExtra [.nonce extraNonce] :=
      ⟨List.nodup_singleton _, fun field hmem => by
        rw [List.mem_singleton.mp hmem, ExtraFieldWritable, hsize]
        decide, fun size hmem => by cases List.mem_singleton.mp hmem⟩
    have hbytes : [] ++ TX_EXTRA_NONCE :: 33 :: extraNonce = [TransactionExtraField.nonce extraNonce].flatMap extraFieldBytes := by
      rw [List.flatMap_singleton, extraFieldBytes, hsize, List.nil_append]
      rfl
    rw [getPaymentIdFromTxExtra, hbytes, parseTransactionExtra,
      parseExtraFields_flatMap _ hformed fun field hmem => by rw [List.mem_singleton.mp hmem]; rfl]
    exact getPaymentIdFromTransactionExtraNonce_set paymentId

theorem transaction_extra_roundtrip_keyAndNonce :
    let fields : List TransactionExtraField := [.publicKey ⟨Vector.replicate 32 5⟩, .nonce [1, 2, 3]]
    WellFormedExtra fields ∧
      ∃ extra, writeTransactionExtra [] fields = (true, extra) ∧ parseTransactionExtra extra = (true, fields) := by
  intro fields
  have hformed : WellFormedExtra fields := by
    refine ⟨by decide, ?_, by simp [fields]⟩
    intro field hfield
    simp [fields] at hfield
    rcases hfield with rfl | rfl
    · trivial
    · exact (by decide : [1, 2, 3].length ≤ TX_EXTRA_NONCE_MAX_COUNT)
  exact ⟨hformed, transaction_extra_roundtrip.1 fields hformed⟩

end Crygcoin
