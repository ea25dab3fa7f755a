import Crygcoin.Core
import Crygcoin.KVBinaryInput
import Crygcoin.TransactionExtra
import Crygcoin.TreeHash

namespace Crygcoin

/-! The binary form of a block, `serialize(BlockTemplate&, ISerializer&)` of
`CryptoNoteSerialization.cpp`. The header is written first; from `BLOCK_MAJOR_VERSION_2` on the
merge-mined parent block follows, carrying the block's timestamp and nonce, with two branches of
hashes whose lengths are not written: the reader computes one from the transaction count with
`tree_depth` and finds the other in the merge-mining tag of the parent's miner transaction. -/

def BLOCK_MAJOR_VERSION_5 : UInt8 := 5

def writeHash (hash : Hash) : List UInt8 :=
  hash.data.toList

def readHash (input : List UInt8) : Option (Hash × List UInt8) :=
  (readVector 32 input).map fun (data, rest) => (⟨data⟩, rest)

/-- `serializer.binary(&nonce, sizeof(nonce))`: the four bytes of the `uint32_t` in memory. -/
def writeNonce (nonce : UInt32) : List UInt8 :=
  KVBinary.leBytes nonce.toNat 4

def readNonce32 (input : List UInt8) : Option (UInt32 × List UInt8) :=
  (readFixed 4 input).map fun (bytes, rest) => (UInt32.ofNat (littleEndian bytes), rest)

def TRANSACTION_VERSION_2 : UInt8 := 2

/-! Output direction; `none` where serialization throws. -/

/-- `serialize(BaseTransaction&, ISerializer&)` on output: the fields of the prefix, then from
`TRANSACTION_VERSION_2` on the varint `ignored`, which is 0. -/
def writeBaseTransaction (tx : TransactionPrefix) : List UInt8 :=
  writeTransactionPrefix tx ++ if TRANSACTION_VERSION_2 ≤ tx.version then writeVarint 0 else []

/-- `serializeBlockHeader` on output: a version above 5 or 0 throws "Wrong major version"; version 1
has its timestamp and nonce here. -/
def writeBlockHeader (block : BlockTemplate) : Option (List UInt8) :=
  if block.majorVersion > BLOCK_MAJOR_VERSION_5 then none
  else if block.majorVersion = BLOCK_MAJOR_VERSION_1 then
    some (writeVarint block.majorVersion.toNat ++ writeVarint block.minorVersion.toNat ++
      writeVarint block.timestamp.toNat ++ writeHash block.previousBlockHash ++ writeNonce block.nonce)
  else if block.majorVersion ≥ BLOCK_MAJOR_VERSION_2 then
    some (writeVarint block.majorVersion.toNat ++ writeVarint block.minorVersion.toNat ++
      writeHash block.previousBlockHash)
  else none

/-- The fields of the parent block before its transaction count, with the block's timestamp and
nonce. -/
def writeParentBlockHead (parentBlock : ParentBlock) (timestamp : UInt64) (nonce : UInt32) : List UInt8 :=
  writeVarint parentBlock.majorVersion.toNat ++ writeVarint parentBlock.minorVersion.toNat ++
    writeVarint timestamp.toNat ++ writeHash parentBlock.previousBlockHash ++ writeNonce nonce

/-- What follows the transaction count: the branch of the miner transaction, the miner transaction,
the branch of the blockchain. -/
def writeParentBlockTail (parentBlock : ParentBlock) : List UInt8 :=
  parentBlock.baseTransactionBranch.flatMap writeHash ++ writeBaseTransaction parentBlock.baseTransaction ++
    parentBlock.blockchainBranch.flatMap writeHash

/-- `serialize(ParentBlockSerializer&)` on output, neither for hashing nor header only. It throws
"Wrong transactions number" for a count of 0, "Wrong miner transaction branch size", "Can't get
extra merge mining tag", "Wrong merge mining tag depth" for a depth above `8 * sizeof(Hash)`, and
when the blockchain branch is not as long as the depth. -/
def writeParentBlock (parentBlock : ParentBlock) (timestamp : UInt64) (nonce : UInt32) : Option (List UInt8) := do
  if parentBlock.transactionCount < 1 then none
  else if parentBlock.baseTransactionBranch.length ≠ treeDepth parentBlock.transactionCount.toNat then none
  else
    let mmTag ← getMergeMiningTagFromExtra parentBlock.baseTransaction.extra
    if mmTag.depth > 8 * 32 then none
    else if mmTag.depth.toNat ≠ parentBlock.blockchainBranch.length then none
    else
      pure (writeParentBlockHead parentBlock timestamp nonce ++
        writeVarint parentBlock.transactionCount.toNat ++ writeParentBlockTail parentBlock)

def BlockTemplate.toBinaryArray (block : BlockTemplate) : Option (List UInt8) := do
  let header ← writeBlockHeader block
  let parentBlock ←
    if block.majorVersion ≥ BLOCK_MAJOR_VERSION_2 then writeParentBlock block.parentBlock block.timestamp block.nonce
    else pure []
  let baseTransaction ← Crygcoin.toBinaryArray block.baseTransaction
  pure (header ++ parentBlock ++ baseTransaction ++ writeContainer writeHash block.transactionHashes)

/-! Input direction. -/

/-- The last field of `serialize(BaseTransaction&, ISerializer&)` on input: from
`TRANSACTION_VERSION_2` on, the `uint64_t` `ignored`, read and dropped. -/
def readIgnored (version : UInt8) (input : List UInt8) : Option (List UInt8) :=
  if TRANSACTION_VERSION_2 ≤ version then (·.2) <$> readVarintUInt64 input else some input

/-- `serialize(BaseTransaction&, ISerializer&)` on input. Unlike the prefix of a transaction it
does not check the version. -/
def readBaseTransaction (input : List UInt8) : Option (TransactionPrefix × List UInt8) := do
  let (version, input) ← readVarintUInt8 input
  let (unlockTime, input) ← readVarintUInt64 input
  let (inputs, input) ← readContainer readTransactionInput input
  let (outputs, input) ← readContainer readTransactionOutput input
  let (extra, input) ← readString input
  let input ← readIgnored version input
  pure (⟨version, unlockTime, inputs, outputs, extra⟩, input)

/-- `serializeBlockHeader` on input, into the header of `block`. -/
def readBlockHeader (block : BlockTemplate) (input : List UInt8) : Option (BlockTemplate × List UInt8) := do
  let (majorVersion, input) ← readVarintUInt8 input
  if majorVersion > BLOCK_MAJOR_VERSION_5 then none
  else
    let (minorVersion, input) ← readVarintUInt8 input
    if majorVersion = BLOCK_MAJOR_VERSION_1 then
      let (timestamp, input) ← readVarintUInt64 input
      let (previousBlockHash, input) ← readHash input
      let (nonce, input) ← readNonce32 input
      pure ({ block with majorVersion, minorVersion, timestamp, previousBlockHash, nonce }, input)
    else if majorVersion ≥ BLOCK_MAJOR_VERSION_2 then
      let (previousBlockHash, input) ← readHash input
      pure ({ block with majorVersion, minorVersion, previousBlockHash }, input)
    else none

/-- `serialize(ParentBlockSerializer&)` on input: the parent block, and the timestamp and nonce of the
block. The count is read as a `uint64_t` and kept as the `uint16_t` it is cast to; the branches are
resized to `tree_depth` of the count and to the depth of the merge-mining tag, then read. -/
def readParentBlock (input : List UInt8) : Option ((ParentBlock × UInt64 × UInt32) × List UInt8) := do
  let (majorVersion, input) ← readVarintUInt8 input
  let (minorVersion, input) ← readVarintUInt8 input
  let (timestamp, input) ← readVarintUInt64 input
  let (previousBlockHash, input) ← readHash input
  let (nonce, input) ← readNonce32 input
  let (txNum, input) ← readVarintUInt64 input
  let transactionCount := txNum.toUInt16
  if transactionCount < 1 then none
  else
    let (baseTransactionBranch, input) ← readCount readHash (treeDepth transactionCount.toNat) input
    let (baseTransaction, input) ← readBaseTransaction input
    let mmTag ← getMergeMiningTagFromExtra baseTransaction.extra
    if mmTag.depth > 8 * 32 then none
    else
      let (blockchainBranch, input) ← readCount readHash mmTag.depth.toNat input
      pure ((⟨majorVersion, minorVersion, previousBlockHash, transactionCount, baseTransactionBranch, baseTransaction,
        blockchainBranch⟩, timestamp, nonce), input)

/-- `serialize(BlockTemplate&, ISerializer&)` on input, into `block`: a block of version 1 leaves
the parent block of `block` as it was. -/
def readBlockTemplate (block : BlockTemplate) (input : List UInt8) : Option (BlockTemplate × List UInt8) := do
  let (block, input) ← readBlockHeader block input
  let (block, input) ←
    if block.majorVersion ≥ BLOCK_MAJOR_VERSION_2 then do
      let ((parentBlock, timestamp, nonce), input) ← readParentBlock input
      pure ({ block with parentBlock, timestamp, nonce }, input)
    else pure (block, input)
  let (baseTransaction, input) ← readTransaction input
  let (transactionHashes, input) ← readContainer readHash input
  pure ({ block with baseTransaction, transactionHashes }, input)

/-- `fromBinaryArray<BlockTemplate>`, which reads into `T object;`: `object` stands for the value the
default-initialized object has, whose scalar fields C++ leaves indeterminate. The whole array must
be read. -/
def BlockTemplate.fromBinaryArray (object : BlockTemplate) (bytes : List UInt8) : Option BlockTemplate :=
  match readBlockTemplate object bytes with
  | some (block, []) => some block
  | _ => none

/-- A parent block its serializer writes and reads back: a positive count, a miner transaction branch
of `tree_depth` of it, a merge-mining tag whose depth is at most `8 * sizeof(Hash)` and the length of
the blockchain branch, and a miner transaction whose lists and extra have sizes a `uint64_t` holds. -/
structure ParentBlock.WellFormed (parentBlock : ParentBlock) : Prop where
  count_pos : 1 ≤ parentBlock.transactionCount
  branch_length : parentBlock.baseTransactionBranch.length = treeDepth parentBlock.transactionCount.toNat
  mergeMiningTag : ∃ mmTag, getMergeMiningTagFromExtra parentBlock.baseTransaction.extra = some mmTag ∧
    mmTag.depth ≤ 8 * 32 ∧ mmTag.depth.toNat = parentBlock.blockchainBranch.length
  sizesFit : parentBlock.baseTransaction.SizesFit

/-- A transaction in the normal form of the transaction codec. -/
structure Transaction.CodecNormal (tx : Transaction) : Prop where
  version_le : tx.version ≤ CURRENT_TRANSACTION_VERSION
  sizesFit : tx.SizesFit
  signaturesNormal : SignaturesNormal tx

section Fields

@[simp] theorem readHash_write (hash : Hash) (rest : List UInt8) :
    readHash (writeHash hash ++ rest) = some (hash, rest) := by
  simp [readHash, writeHash]

theorem readHash_inverts : Inverts (fun _ => True) writeHash readHash :=
  fun hash _ rest => readHash_write hash rest

theorem readCount_readHash {hashes : List Hash} {n : Nat} (hlength : hashes.length = n) (rest : List UInt8) :
    readCount readHash n (hashes.flatMap writeHash ++ rest) = some (hashes, rest) := by
  rw [← hlength]
  exact readCount_inverts readHash_inverts hashes (fun _ _ => trivial) rest

@[simp] theorem readNonce32_write (nonce : UInt32) (rest : List UInt8) :
    readNonce32 (writeNonce nonce ++ rest) = some (nonce, rest) := by
  have hvalue : littleEndian (writeNonce nonce) = nonce.toNat := by
    rw [writeNonce, KVBinary.littleEndian_leBytes]
    exact Nat.mod_eq_of_lt nonce.toNat_lt
  rw [readNonce32, readFixed_append (show (writeNonce nonce).length = 4 from KVBinary.length_leBytes _ _)]
  simp [hvalue]

theorem toBinaryArray_codecNormal {tx : Transaction} (h : tx.CodecNormal) :
    toBinaryArray tx = some (writeTransactionPrefix tx.toTransactionPrefix ++ signatureBytes tx.signatures) := by
  simp [toBinaryArray, writeTransactionSignatures_normal h.signaturesNormal]

theorem readIgnored_write (version : UInt8) (rest : List UInt8) :
    readIgnored version ((if TRANSACTION_VERSION_2 ≤ version then writeVarint 0 else []) ++ rest) = some rest := by
  unfold readIgnored
  split_ifs
  · rw [show writeVarint 0 = writeVarint (0 : UInt64).toNat from rfl, readVarintUInt64_write]
    rfl
  · rfl

theorem readBaseTransaction_write {tx : TransactionPrefix} (hf : tx.SizesFit) (rest : List UInt8) :
    readBaseTransaction (writeBaseTransaction tx ++ rest) = some (tx, rest) := by
  obtain ⟨hi, ho, he, hk⟩ := hf
  have hignored := readIgnored_write tx.version rest
  unfold writeBaseTransaction
  generalize (if TRANSACTION_VERSION_2 ≤ tx.version then writeVarint 0 else []) = ignored at hignored ⊢
  have hextra := readString_write he (ignored ++ rest)
  have houtputs := readContainer_write (p := fun _ => True)
    (fun x _ rest => readTransactionOutput_write x rest) ho (by simp) (writeString tx.extra ++ ignored ++ rest)
  have hinputs := readContainer_write (fun x hx rest => readTransactionInput_write hx rest) hi hk
    (writeContainer writeTransactionOutput tx.outputs ++ writeString tx.extra ++ ignored ++ rest)
  simp only [List.append_assoc] at hinputs houtputs
  simp only [readBaseTransaction, writeTransactionPrefix, List.append_assoc, readVarintUInt8_write,
    readVarintUInt64_write, hinputs, houtputs, hextra, hignored, bind, Option.bind_some]
  rfl

theorem readTransaction_write {tx : Transaction} (h : tx.CodecNormal) (rest : List UInt8) :
    readTransaction (writeTransactionPrefix tx.toTransactionPrefix ++ signatureBytes tx.signatures ++ rest) =
      some (tx, rest) := by
  have hprefix := readTransactionPrefix_write h.version_le h.sizesFit (signatureBytes tx.signatures ++ rest)
  have hsignatures := readTransactionSignatures_normal h.signaturesNormal rest
  rw [List.append_assoc]
  simp [readTransaction, hprefix, hsignatures]

end Fields

section Header

variable {block : BlockTemplate} {header : List UInt8}

theorem writeBlockHeader_one (hversion : block.majorVersion = BLOCK_MAJOR_VERSION_1) :
    writeBlockHeader block = some (writeVarint block.majorVersion.toNat ++ writeVarint block.minorVersion.toNat ++
      writeVarint block.timestamp.toNat ++ writeHash block.previousBlockHash ++ writeNonce block.nonce) := by
  have hnew : ¬block.majorVersion > BLOCK_MAJOR_VERSION_5 := by rw [hversion]; decide
  rw [writeBlockHeader, if_neg hnew, if_pos hversion]

theorem writeBlockHeader_two (hfrom : BLOCK_MAJOR_VERSION_2 ≤ block.majorVersion)
    (hto : block.majorVersion ≤ BLOCK_MAJOR_VERSION_5) :
    writeBlockHeader block = some (writeVarint block.majorVersion.toNat ++ writeVarint block.minorVersion.toNat ++
      writeHash block.previousBlockHash) := by
  have hone : block.majorVersion ≠ BLOCK_MAJOR_VERSION_1 := by
    intro hone
    rw [hone] at hfrom
    exact absurd hfrom (by decide)
  rw [writeBlockHeader, if_neg (UInt8.not_lt.mpr hto), if_neg hone, if_pos hfrom]

theorem readBlockHeader_one (hversion : block.majorVersion = BLOCK_MAJOR_VERSION_1)
    (hheader : writeBlockHeader block = some header) (object : BlockTemplate) (rest : List UInt8) :
    readBlockHeader object (header ++ rest) =
      some ({ object with
        majorVersion := block.majorVersion, minorVersion := block.minorVersion, timestamp := block.timestamp,
        previousBlockHash := block.previousBlockHash, nonce := block.nonce }, rest) := by
  rw [writeBlockHeader_one hversion] at hheader
  cases hheader
  have hnew : ¬block.majorVersion > BLOCK_MAJOR_VERSION_5 := by rw [hversion]; decide
  simp only [readBlockHeader, List.append_assoc, readVarintUInt8_write, readVarintUInt64_write, readHash_write,
    readNonce32_write, bind, Option.bind_some, if_neg hnew, if_pos hversion]
  rfl

theorem readBlockHeader_two (hfrom : BLOCK_MAJOR_VERSION_2 ≤ block.majorVersion)
    (hto : block.majorVersion ≤ BLOCK_MAJOR_VERSION_5) (hheader : writeBlockHeader block = some header)
    (object : BlockTemplate) (rest : List UInt8) :
    readBlockHeader object (header ++ rest) =
      some ({ object with
        majorVersion := block.majorVersion, minorVersion := block.minorVersion,
        previousBlockHash := block.previousBlockHash }, rest) := by
  rw [writeBlockHeader_two hfrom hto] at hheader
  cases hheader
  have hone : block.majorVersion ≠ BLOCK_MAJOR_VERSION_1 := by
    intro hone
    rw [hone] at hfrom
    exact absurd hfrom (by decide)
  simp only [readBlockHeader, List.append_assoc, readVarintUInt8_write, readHash_write, bind, Option.bind_some,
    if_neg (UInt8.not_lt.mpr hto), if_neg hone, if_pos hfrom]
  rfl

end Header

section Parent

variable {parentBlock : ParentBlock}

theorem writeParentBlock_wellFormed (hwell : parentBlock.WellFormed) (timestamp : UInt64) (nonce : UInt32) :
    writeParentBlock parentBlock timestamp nonce =
      some (writeParentBlockHead parentBlock timestamp nonce ++ writeVarint parentBlock.transactionCount.toNat ++
        writeParentBlockTail parentBlock) := by
  obtain ⟨mmTag, htag, hdepth, hlength⟩ := hwell.mergeMiningTag
  rw [writeParentBlock, if_neg (UInt16.not_lt.mpr hwell.count_pos), if_neg (not_not.mpr hwell.branch_length)]
  simp only [htag, bind, Option.bind_some, if_neg (UInt64.not_lt.mpr hdepth), if_neg (not_not.mpr hlength)]
  rfl

theorem readParentBlock_write (hwell : parentBlock.WellFormed) (timestamp : UInt64) (nonce : UInt32)
    {txNum : UInt64} (htxNum : txNum.toUInt16 = parentBlock.transactionCount) (rest : List UInt8) :
    readParentBlock (writeParentBlockHead parentBlock timestamp nonce ++ writeVarint txNum.toNat ++
      writeParentBlockTail parentBlock ++ rest) = some ((parentBlock, timestamp, nonce), rest) := by
  obtain ⟨mmTag, htag, hdepth, hlength⟩ := hwell.mergeMiningTag
  have hbranch := readCount_readHash hwell.branch_length
    (writeBaseTransaction parentBlock.baseTransaction ++ parentBlock.blockchainBranch.flatMap writeHash ++ rest)
  have hprefix := readBaseTransaction_write hwell.sizesFit (parentBlock.blockchainBranch.flatMap writeHash ++ rest)
  have hchain := readCount_readHash hlength.symm rest
  simp only [List.append_assoc] at hbranch hprefix
  simp only [readParentBlock, writeParentBlockHead, writeParentBlockTail, List.append_assoc, readVarintUInt8_write,
    readVarintUInt64_write, readHash_write, readNonce32_write, bind, Option.bind_some, htxNum,
    if_neg (UInt16.not_lt.mpr hwell.count_pos), hbranch, hprefix, htag, if_neg (UInt64.not_lt.mpr hdepth), hchain]
  rfl

end Parent

section Block

variable {block : BlockTemplate}

theorem readContainer_readHash {hashes : List Hash} (hlength : hashes.length < 2 ^ 64) (rest : List UInt8) :
    readContainer readHash (writeContainer writeHash hashes ++ rest) = some (hashes, rest) :=
  readContainer_write readHash_inverts hlength (fun _ _ => trivial) rest

theorem fromBinaryArray_toBinaryArray_one (hversion : block.majorVersion = BLOCK_MAJOR_VERSION_1)
    (hbase : block.baseTransaction.CodecNormal) (hhashes : block.transactionHashes.length < 2 ^ 64) :
    ∃ bytes, block.toBinaryArray = some bytes ∧
      ∀ object, BlockTemplate.fromBinaryArray object bytes = some { block with parentBlock := object.parentBlock } := by
  obtain ⟨header, hheader⟩ : ∃ header, writeBlockHeader block = some header := ⟨_, writeBlockHeader_one hversion⟩
  have hnoParent : ¬BLOCK_MAJOR_VERSION_2 ≤ block.majorVersion := by rw [hversion]; decide
  let transaction := writeTransactionPrefix block.baseTransaction.toTransactionPrefix ++
    signatureBytes block.baseTransaction.signatures
  let hashes := writeContainer writeHash block.transactionHashes
  refine ⟨header ++ [] ++ transaction ++ hashes, ?_, fun object => ?_⟩
  · simp only [BlockTemplate.toBinaryArray, hheader, if_neg hnoParent, toBinaryArray_codecNormal hbase, bind,
      Option.bind_some, pure, transaction, hashes]
  · have hread : readBlockTemplate object (header ++ (transaction ++ (hashes ++ []))) =
        some ({ block with parentBlock := object.parentBlock }, []) := by
      simp only [readBlockTemplate, readBlockHeader_one hversion hheader, bind, Option.bind_some]
      rw [if_neg hnoParent]
      simp only [pure, Option.bind_some, transaction, readTransaction_write hbase, hashes,
        readContainer_readHash hhashes]
    rw [BlockTemplate.fromBinaryArray, List.append_nil, List.append_assoc, ← List.append_nil hashes,
      hread]

/-- From version 2 on a well-formed block reads back, and so does every blob that differs from its
binary form only in the transaction count, written as any `uint64_t` whose low sixteen bits are the
count. -/
theorem fromBinaryArray_toBinaryArray_two (hfrom : BLOCK_MAJOR_VERSION_2 ≤ block.majorVersion)
    (hto : block.majorVersion ≤ BLOCK_MAJOR_VERSION_5) (hparent : block.parentBlock.WellFormed)
    (hbase : block.baseTransaction.CodecNormal) (hhashes : block.transactionHashes.length < 2 ^ 64) :
    ∃ pre post, block.toBinaryArray = some (pre ++ writeVarint block.parentBlock.transactionCount.toNat ++ post) ∧
      ∀ txNum : UInt64, txNum.toUInt16 = block.parentBlock.transactionCount →
        ∀ object, BlockTemplate.fromBinaryArray object (pre ++ writeVarint txNum.toNat ++ post) = some block := by
  obtain ⟨header, hheader⟩ : ∃ header, writeBlockHeader block = some header := ⟨_, writeBlockHeader_two hfrom hto⟩
  let head := writeParentBlockHead block.parentBlock block.timestamp block.nonce
  let tail := writeParentBlockTail block.parentBlock
  let transaction := writeTransactionPrefix block.baseTransaction.toTransactionPrefix ++
    signatureBytes block.baseTransaction.signatures
  let hashes := writeContainer writeHash block.transactionHashes
  refine ⟨header ++ head, tail ++ transaction ++ hashes, ?_, fun txNum htxNum object => ?_⟩
  · simp only [BlockTemplate.toBinaryArray, hheader, if_pos hfrom, writeParentBlock_wellFormed hparent,
      toBinaryArray_codecNormal hbase, bind, Option.bind_some, pure, List.append_assoc, head, tail, transaction,
      hashes]
  · -- the header, the parent block with its count read as `txNum`, the miner transaction, the hashes
    have hread : readBlockTemplate object
        (header ++ (head ++ writeVarint txNum.toNat ++ tail ++ (transaction ++ (hashes ++ [])))) = some (block, []) := by
      simp only [readBlockTemplate, readBlockHeader_two hfrom hto hheader, bind, Option.bind_some]
      rw [if_pos hfrom]
      simp only [head, tail, readParentBlock_write hparent block.timestamp block.nonce htxNum, pure,
        Option.bind_some, transaction, readTransaction_write hbase, hashes, readContainer_readHash hhashes]
    have hbytes : header ++ head ++ writeVarint txNum.toNat ++ (tail ++ transaction ++ hashes) =
        header ++ (head ++ writeVarint txNum.toNat ++ tail ++ (transaction ++ (hashes ++ []))) := by
      simp only [List.append_assoc, List.append_nil]
    rw [BlockTemplate.fromBinaryArray, hbytes, hread]

theorem append_writeVarint_ne {pre post : List UInt8} {a b : Nat} (ha : a < 2 ^ 64) (hb : b < 2 ^ 64)
    (hne : a ≠ b) : pre ++ writeVarint a ++ post ≠ pre ++ writeVarint b ++ post := by
  intro h
  rw [List.append_assoc, List.append_assoc, List.append_cancel_left_eq] at h
  have hread := readVarint_writeVarint ha post
  rw [h, readVarint_writeVarint hb] at hread
  exact hne (Prod.mk.inj (Option.some.inj hread)).1.symm

end Block

/-- The binary form of a block is not a bijection. A block of version 1 is written without its parent
block and reads back with the parent block of the object it is read into. From version 2 on, the
transaction count of the parent block is read as a `uint64_t` and cut to sixteen bits, so every blob
that writes a count with the same low sixteen bits reads back as the same block, and those blobs are
different. -/
theorem blockTemplate_binary_not_bijective :
    (∀ block : BlockTemplate, block.majorVersion = BLOCK_MAJOR_VERSION_1 → block.baseTransaction.CodecNormal →
      block.transactionHashes.length < 2 ^ 64 →
      ∃ bytes, block.toBinaryArray = some bytes ∧
        ∀ object, BlockTemplate.fromBinaryArray object bytes = some { block with parentBlock := object.parentBlock }) ∧
    (∀ block : BlockTemplate, BLOCK_MAJOR_VERSION_2 ≤ block.majorVersion → block.majorVersion ≤ BLOCK_MAJOR_VERSION_5 →
      block.parentBlock.WellFormed → block.baseTransaction.CodecNormal → block.transactionHashes.length < 2 ^ 64 →
      ∃ pre post, block.toBinaryArray = some (pre ++ writeVarint block.parentBlock.transactionCount.toNat ++ post) ∧
        ∀ txNum : UInt64, txNum.toUInt16 = block.parentBlock.transactionCount →
          (∀ object, BlockTemplate.fromBinaryArray object (pre ++ writeVarint txNum.toNat ++ post) = some block) ∧
          (txNum.toNat ≠ block.parentBlock.transactionCount.toNat →
            pre ++ writeVarint txNum.toNat ++ post ≠ pre ++ writeVarint block.parentBlock.transactionCount.toNat ++ post)) := by
  refine ⟨fun block hversion hbase hhashes => fromBinaryArray_toBinaryArray_one hversion hbase hhashes, ?_⟩
  intro block hfrom hto hparent hbase hhashes
  obtain ⟨pre, post, hwrite, hread⟩ := fromBinaryArray_toBinaryArray_two hfrom hto hparent hbase hhashes
  refine ⟨pre, post, hwrite, fun txNum htxNum => ⟨hread txNum htxNum, fun hne => ?_⟩⟩
  have hcount : block.parentBlock.transactionCount.toNat < 2 ^ 64 :=
    lt_trans block.parentBlock.transactionCount.toNat_lt (by decide)
  exact append_writeVarint_ne txNum.toNat_lt hcount hne

/-- A block of version 2 whose parent block counts one transaction, with a miner transaction of
version 2 and so the `ignored` varint: the blob with the count written as 65537 reads back as the
same block. -/
theorem blockTemplate_binary_not_bijective_count_65537 :
    let parentBlock : ParentBlock :=
      ⟨2, 0, ⟨Vector.replicate 32 1⟩, 1, [], ⟨2, 0, [], [], appendMergeMiningTagToExtra [] ⟨0, ⟨Vector.replicate 32 0⟩⟩⟩, []⟩
    let block : BlockTemplate :=
      ⟨2, 0, 7, 1000, ⟨Vector.replicate 32 2⟩, parentBlock, ⟨⟨1, 10, [.baseInput ⟨1⟩], [], []⟩, []⟩, []⟩
    BLOCK_MAJOR_VERSION_2 ≤ block.majorVersion ∧ block.majorVersion ≤ BLOCK_MAJOR_VERSION_5 ∧
    block.parentBlock.WellFormed ∧ block.baseTransaction.CodecNormal ∧ block.transactionHashes.length < 2 ^ 64 ∧
    ∃ pre post, block.toBinaryArray = some (pre ++ writeVarint 1 ++ post) ∧
      (∀ object, BlockTemplate.fromBinaryArray object (pre ++ writeVarint 65537 ++ post) = some block) ∧
      pre ++ writeVarint 65537 ++ post ≠ pre ++ writeVarint 1 ++ post :=
  have hextra : (appendMergeMiningTagToExtra [] ⟨0, ⟨Vector.replicate 32 0⟩⟩).length < 2 ^ 64 := by
    simp [appendMergeMiningTagToExtra, writeMergeMiningTag, writeString, writeVarint_small]
  have hwell : ParentBlock.WellFormed
      ⟨2, 0, ⟨Vector.replicate 32 1⟩, 1, [], ⟨2, 0, [], [], appendMergeMiningTagToExtra [] ⟨0, ⟨Vector.replicate 32 0⟩⟩⟩, []⟩ :=
    ⟨by decide, by decide, ⟨_, getMergeMiningTagFromExtra_appendMergeMiningTagToExtra _, by decide, rfl⟩,
      ⟨by decide, by decide, hextra, nofun⟩⟩
  have hbase : Transaction.CodecNormal ⟨⟨1, 10, [.baseInput ⟨1⟩], [], []⟩, []⟩ :=
    ⟨by decide, ⟨by decide, by decide, by decide, by simp⟩, by simp [SignaturesNormal, isBaseInputOnly]⟩
  have hfrom : BLOCK_MAJOR_VERSION_2 ≤ 2 := by decide
  have hto : (2 : UInt8) ≤ BLOCK_MAJOR_VERSION_5 := by decide
  have hhashes : ([] : List Hash).length < 2 ^ 64 := by decide
  match blockTemplate_binary_not_bijective.2 _ hfrom hto hwell hbase hhashes with
  | ⟨pre, post, hwrite, hread⟩ =>
    ⟨hfrom, hto, hwell, hbase, hhashes, pre, post, hwrite, (hread 65537 (by decide)).1,
      (hread 65537 (by decide)).2 (by decide)⟩

end Crygcoin
