import Crygcoin.Positional
import Crygcoin.IntUtil
import Crygcoin.Varint
import Crygcoin.Transaction

namespace Crygcoin

/-! `Common/Base58.cpp`: the block Base58 of CryptoNote addresses. Data is cut into blocks of eight
bytes and a shorter last block; each block's big-endian value is written in base 58 with a fixed
number of digits, `encoded_block_sizes[size]`, padded with the digit `1`. A string is a list of
bytes; a write or read out of bounds, which the C code would make silently, makes the model answer
`none`. -/

namespace Base58

def alphabet : List UInt8 :=
  ['1', '2', '3', '4', '5', '6', '7', '8', '9', 'A', 'B', 'C', 'D', 'E', 'F', 'G', 'H', 'J', 'K', 'L',
    'M', 'N', 'P', 'Q', 'R', 'S', 'T', 'U', 'V', 'W', 'X', 'Y', 'Z', 'a', 'b', 'c', 'd', 'e', 'f', 'g',
    'h', 'i', 'j', 'k', 'm', 'n', 'o', 'p', 'q', 'r', 's', 't', 'u', 'v', 'w', 'x', 'y', 'z'].map
    Char.toUInt8

def alphabetSize : Nat := 58

def encodedBlockSizes : List Nat := [0, 2, 3, 5, 6, 7, 9, 10, 11]

def fullBlockSize : Nat := 8

def fullEncodedBlockSize : Nat := 11

def addrChecksumSize : Nat := 4

/-- `reverse_alphabet`'s table: `-1` from `alphabet[0]` to `alphabet[alphabet_size - 1]`, then the
position of each letter of the alphabet. -/
def reverseAlphabetTable : List Int :=
  (List.range alphabetSize).foldl
    (fun table i => table.set ((alphabet.getD i 0).toNat - (alphabet.getD 0 0).toNat) (i : Int))
    (List.replicate ((alphabet.getD (alphabetSize - 1) 0).toNat - (alphabet.getD 0 0).toNat + 1) (-1))

/-- `reverse_alphabet::operator()`: the digit of a letter, `-1` for a letter outside the alphabet.
`letter - alphabet[0]` as `uint64_t` is past the table for every byte below `1`, and for every
byte from `0x80` on whether `char` is signed or not. -/
def reverseAlphabet (letter : UInt8) : Int :=
  let idx := letter.toUInt64 - (alphabet.getD 0 0).toUInt64
  if idx.toNat < reverseAlphabetTable.length then reverseAlphabetTable.getD idx.toNat (-1) else -1

/-- `decoded_block_sizes`'s table: `-1` but at each encoded block size. -/
def decodedBlockSizesTable : List Int :=
  (List.range (fullBlockSize + 1)).foldl (fun table i => table.set (encodedBlockSizes.getD i 0) (i : Int))
    (List.replicate (fullEncodedBlockSize + 1) (-1))

def decodedBlockSizes (encodedBlockSize : Nat) : Int :=
  decodedBlockSizesTable.getD encodedBlockSize (-1)

/-- Reading `size` bytes from a pointer into a string. -/
def readBytes (block : List UInt8) (size : Nat) : Option (List UInt8) :=
  if size ≤ block.length then some (block.take size) else none

def writeByte (res : List UInt8) (pos : Int) (letter : UInt8) : Option (List UInt8) :=
  if 0 ≤ pos ∧ pos < res.length then some (res.set pos.toNat letter) else none

def copyBytes (data : List UInt8) (offset : Nat) (bytes : List UInt8) : Option (List UInt8) :=
  if offset + bytes.length ≤ data.length then
    some (data.take offset ++ bytes ++ data.drop (offset + bytes.length))
  else none

/-- `uint_8be_to_64`: the bytes read big-endian; the fallthrough of the `switch` shifts in one
byte after the other. -/
def uint8beTo64 (bytes : List UInt8) : UInt64 :=
  bytes.foldl (fun res byte => (res <<< 8) ||| byte.toUInt64) 0

/-- `uint_64_to_8be`: the last `size` bytes of `SWAP64BE(num)`, the low `size` bytes of `num`
most significant first. -/
def uint64To8be (num : UInt64) : Nat → List UInt8
  | 0 => []
  | size + 1 => uint64To8be (num >>> 8) size ++ [num.toUInt8]

/-- The loop `while (0 < num)` of `encode_block`: the digit `num % alphabet_size` at `res[i]`, in
the string at `offset + i`, then `num /= alphabet_size` and `--i`. -/
def encodeBlockLoop (num : UInt64) (i : Int) (res : List UInt8) (offset : Nat) : Option (List UInt8) :=
  if 0 < num then do
    let remainder := num % alphabetSize.toUInt64
    -- `remainder < alphabet_size`
    let res ← writeByte res (offset + i) (alphabet.getD remainder.toNat 0)
    encodeBlockLoop (num / alphabetSize.toUInt64) (i - 1) res offset
  else some res
termination_by num.toNat
decreasing_by
  rename_i hpos
  rw [UInt64.toNat_div]
  have := UInt64.lt_iff_toNat_lt.mp hpos
  simp only [UInt64.toNat_zero, alphabetSize] at this ⊢
  exact Nat.div_lt_self this (by decide)

/-- `encode_block(block, size, res)`, with `res` at `offset` in the string. -/
def encodeBlock (block : List UInt8) (size : Nat) (res : List UInt8) (offset : Nat) : Option (List UInt8) := do
  let bytes ← readBytes block size
  let num := uint8beTo64 bytes
  encodeBlockLoop num ((encodedBlockSizes.getD size 0 : Int) - 1) res offset

/-- The loop `for (i = size - 1; i < size; --i)` of `decode_block` over the letters, last letter
first: `res_num += order * digit` unless the letter is not in the alphabet or the product or the
sum overflows, then `order *= alphabet_size`. -/
def decodeBlockLoop : List UInt8 → UInt64 → UInt64 → Option UInt64
  | [], resNum, _ => some resNum
  | letter :: letters, resNum, order =>
    let digit := reverseAlphabet letter
    if digit < 0 then none
    else
      let product := mul128 order (UInt64.ofNat digit.toNat)
      let tmp := resNum + product.1
      if tmp < resNum ∨ product.2 ≠ 0 then none
      else decodeBlockLoop letters tmp (order * alphabetSize.toUInt64)

/-- `decode_block(block, size, res)`, with `res` at `offset` in `data`. -/
def decodeBlock (block : List UInt8) (size : Nat) (data : List UInt8) (offset : Nat) : Option (List UInt8) :=
  let resSize := decodedBlockSizes size
  if resSize ≤ 0 then none
  else do
    let letters ← readBytes block size
    let resNum ← decodeBlockLoop letters.reverse 0 1
    if resSize.toNat < fullBlockSize ∧ (1 : UInt64) <<< (8 * resSize.toNat).toUInt64 ≤ resNum then none
    else copyBytes data offset (uint64To8be resNum resSize.toNat)

def encode (data : List UInt8) : Option (List UInt8) :=
  if data = [] then some []
  else do
    let fullBlockCount := data.length / fullBlockSize
    let lastBlockSize := data.length % fullBlockSize
    let resSize := fullBlockCount * fullEncodedBlockSize + encodedBlockSizes.getD lastBlockSize 0
    let res := List.replicate resSize (alphabet.getD 0 0)
    let res ← (List.range fullBlockCount).foldlM (fun res i =>
      encodeBlock (data.drop (i * fullBlockSize)) fullBlockSize res (i * fullEncodedBlockSize)) res
    if 0 < lastBlockSize then
      encodeBlock (data.drop (fullBlockCount * fullBlockSize)) lastBlockSize res
        (fullBlockCount * fullEncodedBlockSize)
    else some res

/-- `decode(enc, data)`: the data it leaves where it returns `true`, `none` where it returns
`false`. `data` comes in with any content; it is resized, then every byte of it is written. -/
def decode (enc data : List UInt8) : Option (List UInt8) :=
  if enc = [] then some []
  else
    let fullBlockCount := enc.length / fullEncodedBlockSize
    let lastBlockSize := enc.length % fullEncodedBlockSize
    let lastBlockDecodedSize := decodedBlockSizes lastBlockSize
    if lastBlockDecodedSize < 0 then none
    else do
      let dataSize := fullBlockCount * fullBlockSize + lastBlockDecodedSize.toNat
      let data := data.take dataSize ++ List.replicate (dataSize - data.length) 0
      let data ← (List.range fullBlockCount).foldlM (fun data i =>
        decodeBlock (enc.drop (i * fullEncodedBlockSize)) fullEncodedBlockSize data (i * fullBlockSize)) data
      if 0 < lastBlockSize then
        decodeBlock (enc.drop (fullBlockCount * fullEncodedBlockSize)) lastBlockSize data
          (fullBlockCount * fullBlockSize)
      else some data

/-- `encode_addr`: the tag as a varint, the data, the first four bytes of their `cn_fast_hash`. -/
def encodeAddr (cnFastHash : List UInt8 → Hash) (tag : UInt64) (data : List UInt8) : Option (List UInt8) :=
  let buf := Tools.getVarintData tag.toNat ++ data
  encode (buf ++ (cnFastHash buf).data.toList.take addrChecksumSize)

/-- `decode_addr`: the tag and the data where it returns `true`. -/
def decodeAddr (cnFastHash : List UInt8 → Hash) (addr : List UInt8) : Option (UInt64 × List UInt8) := do
  let addrData ← decode addr []
  if addrData.length ≤ addrChecksumSize then none
  else
    let checksum := addrData.drop (addrData.length - addrChecksumSize)
    let addrData := addrData.take (addrData.length - addrChecksumSize)
    let expectedChecksum := (cnFastHash addrData).data.toList.take addrChecksumSize
    if expectedChecksum ≠ checksum then none
    else
      let (read, tag) := Tools.readVarint 64 addrData
      if read ≤ 0 then none
      else some (UInt64.ofNat tag, addrData.drop read.toNat)

/-! ### The tables -/

/-- The digit `d` of the alphabet. -/
def alphabetAt (d : Nat) : UInt8 :=
  alphabet.getD d 0

theorem reverseAlphabet_alphabetAt : ∀ d : Fin 58, reverseAlphabet (alphabetAt d) = d := by
  decide

theorem alphabetAt_reverseAlphabet (letter : UInt8) (h : 0 ≤ reverseAlphabet letter) :
    reverseAlphabet letter < 58 ∧ alphabetAt (reverseAlphabet letter).toNat = letter := by
  have htable : ∀ x : Fin 256, 0 ≤ reverseAlphabet (UInt8.ofNat x) →
      reverseAlphabet (UInt8.ofNat x) < 58 ∧ alphabetAt (reverseAlphabet (UInt8.ofNat x)).toNat = UInt8.ofNat x := by
    decide +kernel
  have hletter : UInt8.ofNat letter.toNat = letter := UInt8.ofNat_toNat
  rw [← hletter] at h ⊢
  exact htable ⟨letter.toNat, letter.toNat_lt⟩ h

theorem decodedBlockSizes_encodedBlockSizes : ∀ r : Fin 9, decodedBlockSizes (encodedBlockSizes.getD r 0) = r := by
  decide

theorem encodedBlockSizes_decodedBlockSizes : ∀ l : Fin 12, 0 ≤ decodedBlockSizes l →
    decodedBlockSizes l ≤ 8 ∧ encodedBlockSizes.getD (decodedBlockSizes l).toNat 0 = l := by
  decide

theorem two_pow_le_encodedBlockSizes : ∀ r : Fin 9, 256 ^ r.val ≤ 58 ^ encodedBlockSizes.getD r 0 := by
  decide

theorem encodedBlockSizes_le : ∀ r : Fin 9, encodedBlockSizes.getD r 0 ≤ 11 := by
  decide

/-! ### Bytes and numbers -/

/-- The value of bytes read big-endian. -/
def bigEndianValue (bytes : List UInt8) : Nat :=
  Nat.ofDigits 256 (bytes.reverse.map UInt8.toNat)

theorem bigEndianValue_lt (bytes : List UInt8) : bigEndianValue bytes < 256 ^ bytes.length := by
  have h := Nat.ofDigits_lt_base_pow_length (b := 256) (l := bytes.reverse.map UInt8.toNat) (by decide) (by
    intro x hx
    obtain ⟨byte, -, rfl⟩ := List.mem_map.mp hx
    exact byte.toNat_lt)
  simpa [bigEndianValue] using h

theorem bigEndianValue_append_singleton (bytes : List UInt8) (byte : UInt8) :
    bigEndianValue (bytes ++ [byte]) = byte.toNat + 256 * bigEndianValue bytes := by
  simp only [bigEndianValue, List.reverse_append, List.reverse_singleton, List.singleton_append, List.map_cons,
    Nat.ofDigits_cons]

theorem toNat_uint8beTo64 (bytes : List UInt8) (h : bytes.length ≤ 8) :
    (uint8beTo64 bytes).toNat = bigEndianValue bytes := by
  induction bytes using List.reverseRecOn with
  | nil => rfl
  | append_singleton bytes byte ih =>
    simp only [List.length_append, List.length_singleton] at h
    have hvalue := ih (by omega)
    have hlt := bigEndianValue_lt bytes
    have hroom : 256 ^ bytes.length ≤ 2 ^ 56 :=
      (Nat.pow_le_pow_right (by decide) (by omega : bytes.length ≤ 7)).trans (by decide)
    rw [uint8beTo64, List.foldl_append, ← uint8beTo64] at *
    simp only [List.foldl_cons, List.foldl_nil]
    rw [bigEndianValue_append_singleton, UInt64.toNat_or, UInt64.toNat_shiftLeft, hvalue]
    simp only [UInt64.reduceToNat, Nat.reduceMod, UInt8.toNat_toUInt64, Nat.shiftLeft_eq]
    rw [Nat.mod_eq_of_lt (by omega), Nat.mul_comm, ← Nat.two_pow_add_eq_or_of_lt byte.toNat_lt]
    omega

theorem map_toNat_uint64To8be : ∀ (size : Nat) (num : UInt64),
    (uint64To8be num size).map UInt8.toNat = (lowDigits 256 size num.toNat).reverse
  | 0, _ => rfl
  | size + 1, num => by
    rw [uint64To8be, List.map_append, map_toNat_uint64To8be size, lowDigits_succ, List.reverse_cons]
    have hshift : (num >>> 8).toNat = num.toNat / 256 := by
      rw [UInt64.toNat_shiftRight, Nat.shiftRight_eq_div_pow]
      rfl
    rw [hshift]
    simp [UInt64.toNat_toUInt8]

/-! ### Blocks -/

/-- The letters `encode_block` writes for a block: the value of the block in base 58, with as
many digits as `encoded_block_sizes` gives for its size, most significant first. -/
def blockLetters (bytes : List UInt8) : List UInt8 :=
  (lowDigits 58 (encodedBlockSizes.getD bytes.length 0) (bigEndianValue bytes)).reverse.map alphabetAt

theorem set_replicate_last {α : Type} (pre post : List α) (a d : α) (j : Nat) :
    (pre ++ List.replicate (j + 1) a ++ post).set (pre.length + j) d = pre ++ List.replicate j a ++ d :: post := by
  rw [List.replicate_succ', List.append_assoc, List.append_assoc, List.set_append_right _ _ (by omega),
    Nat.add_sub_cancel_left, List.append_assoc, List.set_append_right _ _ (by simp), List.length_replicate,
    Nat.sub_self, List.singleton_append, List.set_cons_zero]

theorem encodeBlockLoop_zero (i : Int) (res : List UInt8) (offset : Nat) :
    encodeBlockLoop 0 i res offset = some res := by
  rw [encodeBlockLoop, if_neg (by decide)]

theorem toNat_div_alphabetSize (num : UInt64) : (num / alphabetSize.toUInt64).toNat = num.toNat / 58 := by
  rw [UInt64.toNat_div]
  rfl

theorem toNat_mod_alphabetSize (num : UInt64) : (num % alphabetSize.toUInt64).toNat = num.toNat % 58 := by
  rw [UInt64.toNat_mod]
  rfl

theorem encodeBlockLoop_step (pre post : List UInt8) (j : Nat) {num : UInt64} (hpos : 0 < num) :
    encodeBlockLoop num (j : Int) (pre ++ List.replicate (j + 1) (alphabetAt 0) ++ post) pre.length =
      encodeBlockLoop (num / alphabetSize.toUInt64) ((j : Int) - 1)
        (pre ++ List.replicate j (alphabetAt 0) ++ alphabetAt (num.toNat % 58) :: post) pre.length := by
  have hwrite : writeByte (pre ++ List.replicate (j + 1) (alphabetAt 0) ++ post) ((pre.length : Int) + j)
      (alphabet.getD (num % alphabetSize.toUInt64).toNat 0) =
      some (pre ++ List.replicate j (alphabetAt 0) ++ alphabetAt (num.toNat % 58) :: post) := by
    rw [writeByte, if_pos (by simp; omega), toNat_mod_alphabetSize]
    rw [show ((pre.length : Int) + j).toNat = pre.length + j by omega, set_replicate_last]
    rfl
  rw [encodeBlockLoop, if_pos hpos]
  simp only [hwrite, Option.bind_eq_bind, Option.bind_some]

theorem map_reverse_lowDigits_zero (k : Nat) :
    (lowDigits 58 k 0).reverse.map alphabetAt = List.replicate k (alphabetAt 0) := by
  rw [lowDigits_zero, List.reverse_replicate, List.map_replicate]

theorem encodeBlockLoop_eq (pre : List UInt8) : ∀ (j : Nat) (num : UInt64) (post : List UInt8),
    num.toNat < 58 ^ (j + 1) →
    encodeBlockLoop num (j : Int) (pre ++ List.replicate (j + 1) (alphabetAt 0) ++ post) pre.length =
      some (pre ++ (lowDigits 58 (j + 1) num.toNat).reverse.map alphabetAt ++ post) := by
  intro j
  -- induction on the position of the last digit still to write; the digits already written
  -- join the suffix
  induction j with
  | zero =>
    intro num post hnum
    rcases Nat.eq_zero_or_pos num.toNat with hzero | hpos
    · rw [UInt64.toNat_inj.mp (hzero.trans UInt64.toNat_zero.symm), encodeBlockLoop_zero, UInt64.toNat_zero,
        map_reverse_lowDigits_zero]
    · have hquotient : num / alphabetSize.toUInt64 = 0 := by
        apply UInt64.toNat_inj.mp
        rw [toNat_div_alphabetSize, UInt64.toNat_zero]
        omega
      rw [encodeBlockLoop_step pre post 0 (UInt64.lt_iff_toNat_lt.mpr hpos), hquotient, encodeBlockLoop_zero]
      simp [lowDigits_succ]
  | succ j ih =>
    intro num post hnum
    rcases Nat.eq_zero_or_pos num.toNat with hzero | hpos
    · rw [UInt64.toNat_inj.mp (hzero.trans UInt64.toNat_zero.symm), encodeBlockLoop_zero, UInt64.toNat_zero,
        map_reverse_lowDigits_zero]
    · have hquotient : (num / alphabetSize.toUInt64).toNat < 58 ^ (j + 1) := by
        rw [toNat_div_alphabetSize]
        exact Nat.div_lt_of_lt_mul (by rw [← Nat.pow_succ']; exact hnum)
      rw [encodeBlockLoop_step pre post (j + 1) (UInt64.lt_iff_toNat_lt.mpr hpos),
        show ((j + 1 : Nat) : Int) - 1 = (j : Int) by omega, ih _ _ hquotient, toNat_div_alphabetSize,
        lowDigits_succ 58 (j + 1)]
      simp

/-- The digit of a letter, as the loop of `decode_block` reads it. -/
def digitOf (letter : UInt8) : Option Nat :=
  let digit := reverseAlphabet letter
  if digit < 0 then none else some digit.toNat

/-- A number as a `uint64_t`, if it fits. -/
def boundedValue (n : Nat) : Option UInt64 :=
  if n < 2 ^ 64 then some (UInt64.ofNat n) else none

theorem decodeBlockLoop_cons {letter : UInt8} {d : Nat} (hdigit : digitOf letter = some d)
    (letters : List UInt8) (resNum order : UInt64) :
    decodeBlockLoop (letter :: letters) resNum order =
      if resNum.toNat + order.toNat * d < 2 ^ 64 then
        decodeBlockLoop letters (UInt64.ofNat (resNum.toNat + order.toNat * d)) (order * alphabetSize.toUInt64)
      else none := by
  have hnonneg : ¬ reverseAlphabet letter < 0 := by
    intro hneg
    simp [digitOf, hneg] at hdigit
  have hd : (reverseAlphabet letter).toNat = d := by
    simpa [digitOf, hnonneg] using hdigit
  have hd58 : d < 58 := by
    have := (alphabetAt_reverseAlphabet letter (by omega)).1
    omega
  have hproduct := mul128_toNat order (UInt64.ofNat d)
  have hofNat : (UInt64.ofNat d).toNat = d := by
    rw [UInt64.toNat_ofNat']
    omega
  rw [hofNat] at hproduct
  have := resNum.toNat_lt
  have := (mul128 order (UInt64.ofNat d)).1.toNat_lt
  rw [decodeBlockLoop]
  simp only [if_neg hnonneg, hd]
  by_cases hfit : resNum.toNat + order.toNat * d < 2 ^ 64
  · have hhigh : (mul128 order (UInt64.ofNat d)).2 = 0 := by
      apply UInt64.toNat_inj.mp
      rw [UInt64.toNat_zero]
      omega
    rw [hhigh, UInt64.toNat_zero] at hproduct
    have hsum : resNum + (mul128 order (UInt64.ofNat d)).1 = UInt64.ofNat (resNum.toNat + order.toNat * d) := by
      apply UInt64.toNat_inj.mp
      rw [UInt64.toNat_add, UInt64.toNat_ofNat', Nat.mod_eq_of_lt hfit]
      omega
    have hnowrap : ¬ (resNum + (mul128 order (UInt64.ofNat d)).1 < resNum ∨ (mul128 order (UInt64.ofNat d)).2 ≠ 0) := by
      rw [hsum, hhigh, UInt64.lt_iff_toNat_lt, UInt64.toNat_ofNat', Nat.mod_eq_of_lt hfit, ne_eq]
      simp
    rw [if_neg hnowrap, if_pos hfit, hsum]
  · have hwrap : resNum + (mul128 order (UInt64.ofNat d)).1 < resNum ∨ (mul128 order (UInt64.ofNat d)).2 ≠ 0 := by
      by_cases hhigh : (mul128 order (UInt64.ofNat d)).2 = 0
      · left
        rw [UInt64.lt_iff_toNat_lt, UInt64.toNat_add]
        rw [hhigh, UInt64.toNat_zero] at hproduct
        omega
      · exact Or.inr hhigh
    rw [if_pos hwrap, if_neg hfit]

theorem digitOf_eq_none {letter : UInt8} (h : digitOf letter = none) (letters : List UInt8) (resNum order : UInt64) :
    decodeBlockLoop (letter :: letters) resNum order = none := by
  have hneg : reverseAlphabet letter < 0 := by
    by_contra hnonneg
    simp [digitOf, hnonneg] at h
  rw [decodeBlockLoop]
  simp only [if_pos hneg]

theorem toNat_mul_alphabetSize {order : UInt64} {j : Nat} (horder : order.toNat = 58 ^ j) :
    (order * alphabetSize.toUInt64).toNat = 58 ^ (j + 1) % 2 ^ 64 := by
  rw [UInt64.toNat_mul, horder, Nat.pow_succ]
  rfl

/-- The loop of `decode_block` reads the letters, least significant first, as base-58 digits:
it fails on a letter outside the alphabet and on a value of 64 bits or more. `order` is
`58 ^ j` for the `j` letters read before, and at most eleven letters are read in all. -/
theorem decodeBlockLoop_eq : ∀ (letters : List UInt8) (j : Nat) (resNum order : UInt64),
    j + letters.length ≤ 11 → order.toNat = 58 ^ j % 2 ^ 64 →
    decodeBlockLoop letters resNum order =
      (letters.mapM digitOf).bind fun ds => boundedValue (resNum.toNat + 58 ^ j * Nat.ofDigits 58 ds) := by
  intro letters
  induction letters with
  | nil =>
    intro j resNum order _ _
    simp [decodeBlockLoop, boundedValue, resNum.toNat_lt]
  | cons letter letters ih =>
    intro j resNum order hlength horder
    simp only [List.length_cons] at hlength
    have hsmall : 58 ^ j < 2 ^ 64 :=
      (Nat.pow_le_pow_right (by decide) (by omega : j ≤ 10)).trans_lt (by decide)
    rw [Nat.mod_eq_of_lt hsmall] at horder
    cases hdigit : digitOf letter with
    | none => simp [digitOf_eq_none hdigit, List.mapM_cons, hdigit]
    | some d =>
      rw [decodeBlockLoop_cons hdigit, horder]
      simp only [List.mapM_cons, hdigit, Option.pure_def, Option.bind_eq_bind, Option.bind_some,
        Option.bind_assoc, Nat.ofDigits_cons]
      by_cases hfit : resNum.toNat + 58 ^ j * d < 2 ^ 64
      · -- the digit fits: the rest of the letters is read at the next order
        rw [if_pos hfit, ih (j + 1) _ _ (by omega) (toNat_mul_alphabetSize horder), UInt64.toNat_ofNat',
          Nat.mod_eq_of_lt hfit]
        congr 1
        funext ds
        rw [Nat.pow_succ]
        ring_nf
      · -- every value with this digit overflows
        rw [if_neg hfit]
        cases letters.mapM digitOf with
        | none => rfl
        | some ds =>
          have : 2 ^ 64 ≤ resNum.toNat + 58 ^ j * (d + 58 * Nat.ofDigits 58 ds) := by
            rw [Nat.mul_add]
            omega
          rw [Option.bind_some, boundedValue, if_neg (Nat.not_lt.mpr this)]

theorem digitOf_alphabetAt {d : Nat} (hd : d < 58) : digitOf (alphabetAt d) = some d := by
  have hdigit := reverseAlphabet_alphabetAt ⟨d, hd⟩
  simp only at hdigit
  simp [digitOf, hdigit]

theorem alphabetAt_of_digitOf {letter : UInt8} {d : Nat} (h : digitOf letter = some d) :
    d < 58 ∧ alphabetAt d = letter := by
  have hnonneg : ¬ reverseAlphabet letter < 0 := by
    intro hneg
    simp [digitOf, hneg] at h
  have hd : (reverseAlphabet letter).toNat = d := by
    simpa [digitOf, hnonneg] using h
  obtain ⟨hlt, hletter⟩ := alphabetAt_reverseAlphabet letter (by omega)
  rw [hd] at hletter
  exact ⟨by omega, hletter⟩

theorem mapM_digitOf_map : ∀ ds : List Nat, (∀ d ∈ ds, d < 58) → (ds.map alphabetAt).mapM digitOf = some ds
  | [], _ => rfl
  | d :: ds, h => by
    rw [List.map_cons, List.mapM_cons, digitOf_alphabetAt (h d List.mem_cons_self),
      mapM_digitOf_map ds (fun x hx => h x (List.mem_cons_of_mem _ hx))]
    rfl

theorem map_alphabetAt_of_mapM_digitOf : ∀ {letters : List UInt8} {ds : List Nat},
    letters.mapM digitOf = some ds → (∀ d ∈ ds, d < 58) ∧ letters = ds.map alphabetAt
  | [], ds, h => by
    simp only [List.mapM_nil, Option.pure_def, Option.some.injEq] at h
    simp [← h]
  | letter :: letters, ds, h => by
    simp only [List.mapM_cons, Option.pure_def, Option.bind_eq_bind] at h
    cases hdigit : digitOf letter with
    | none => simp [hdigit] at h
    | some d =>
      cases hrest : letters.mapM digitOf with
      | none => simp [hdigit, hrest] at h
      | some rest =>
        simp only [hdigit, hrest, Option.bind_some, Option.some.injEq] at h
        obtain ⟨hd, hletter⟩ := alphabetAt_of_digitOf hdigit
        obtain ⟨hrestDigits, hletters⟩ := map_alphabetAt_of_mapM_digitOf hrest
        subst h
        refine ⟨?_, by rw [List.map_cons, hletter, hletters]⟩
        intro x hx
        rcases List.mem_cons.mp hx with rfl | hx
        · exact hd
        · exact hrestDigits x hx

@[simp] theorem length_uint64To8be (num : UInt64) : ∀ size : Nat, (uint64To8be num size).length = size
  | 0 => rfl
  | size + 1 => by rw [uint64To8be, List.length_append, length_uint64To8be (num >>> 8) size]; rfl

theorem bigEndianValue_uint64To8be (num : UInt64) (size : Nat) :
    bigEndianValue (uint64To8be num size) = num.toNat % 256 ^ size := by
  rw [bigEndianValue, List.map_reverse, map_toNat_uint64To8be, List.reverse_reverse, ofDigits_lowDigits]

theorem bigEndianValue_lt_two_pow_64 {bytes : List UInt8} (h : bytes.length ≤ 8) : bigEndianValue bytes < 2 ^ 64 :=
  (bigEndianValue_lt bytes).trans_le ((Nat.pow_le_pow_right (by decide) h).trans (by decide))

theorem uint64To8be_bigEndianValue {bytes : List UInt8} (h : bytes.length ≤ 8) :
    uint64To8be (UInt64.ofNat (bigEndianValue bytes)) bytes.length = bytes := by
  have hdigits : ∀ x ∈ bytes.reverse.map UInt8.toNat, x < 256 := by
    intro x hx
    obtain ⟨byte, -, rfl⟩ := List.mem_map.mp hx
    exact byte.toNat_lt
  apply List.map_injective_iff.mpr (fun _ _ h => UInt8.toNat_inj.mp h)
  rw [map_toNat_uint64To8be, UInt64.toNat_ofNat', Nat.mod_eq_of_lt (bigEndianValue_lt_two_pow_64 h)]
  have hlength : bytes.length = (bytes.reverse.map UInt8.toNat).length := by simp
  rw [hlength, bigEndianValue, lowDigits_ofDigits 256 _ hdigits, List.map_reverse, List.reverse_reverse]

theorem decodedBlockSizes_pos {size : Nat} (h : 0 < decodedBlockSizes size) :
    ∃ r : Nat, 0 < r ∧ r ≤ 8 ∧ decodedBlockSizes size = r ∧ encodedBlockSizes.getD r 0 = size := by
  by_cases hsize : size < 12
  · obtain ⟨hle, henc⟩ := encodedBlockSizes_decodedBlockSizes ⟨size, hsize⟩ h.le
    dsimp only at hle henc
    exact ⟨(decodedBlockSizes size).toNat, by omega, by omega, by omega, henc⟩
  · have hnone : decodedBlockSizes size = -1 :=
      List.getD_eq_default _ _ (by rw [show decodedBlockSizesTable.length = 12 by decide]; omega)
    omega

@[simp] theorem length_blockLetters (bytes : List UInt8) :
    (blockLetters bytes).length = encodedBlockSizes.getD bytes.length 0 := by
  simp [blockLetters]

theorem toNat_one_shiftLeft {k : Nat} (h : k < 64) : ((1 : UInt64) <<< k.toUInt64).toNat = 2 ^ k := by
  rw [UInt64.toNat_shiftLeft, UInt64.toNat_ofNat', Nat.mod_eq_of_lt (by omega : k % 2 ^ 64 < 64),
    Nat.mod_eq_of_lt (by omega : k < 2 ^ 64), UInt64.toNat_one, Nat.one_shiftLeft,
    Nat.mod_eq_of_lt (Nat.pow_lt_pow_right (by decide) h)]

theorem decodeBlockLoop_blockLetters {bytes : List UInt8} (h : bytes.length ≤ 8) :
    decodeBlockLoop (blockLetters bytes).reverse 0 1 = some (UInt64.ofNat (bigEndianValue bytes)) := by
  have hvalue : bigEndianValue bytes < 58 ^ encodedBlockSizes.getD bytes.length 0 :=
    (bigEndianValue_lt bytes).trans_le (two_pow_le_encodedBlockSizes ⟨bytes.length, by omega⟩)
  have hwidth : encodedBlockSizes.getD bytes.length 0 ≤ 11 := encodedBlockSizes_le ⟨bytes.length, by omega⟩
  rw [decodeBlockLoop_eq _ 0 0 1 (by simpa using hwidth) rfl, blockLetters, ← List.map_reverse,
    List.reverse_reverse, mapM_digitOf_map _ (lowDigits_lt 58 (by decide) _ _), Option.bind_some,
    ofDigits_lowDigits, Nat.mod_eq_of_lt hvalue, boundedValue, UInt64.toNat_zero, Nat.pow_zero, Nat.zero_add,
    Nat.one_mul, if_pos (bigEndianValue_lt_two_pow_64 h)]

theorem decodeBlock_blockLetters {bytes : List UInt8} (hpos : 0 < bytes.length) (hlen : bytes.length ≤ 8)
    (rest data : List UInt8) (offset : Nat) :
    decodeBlock (blockLetters bytes ++ rest) (encodedBlockSizes.getD bytes.length 0) data offset =
      copyBytes data offset bytes := by
  have hsize : decodedBlockSizes (encodedBlockSizes.getD bytes.length 0) = bytes.length :=
    decodedBlockSizes_encodedBlockSizes ⟨bytes.length, by omega⟩
  have hread : readBytes (blockLetters bytes ++ rest) (encodedBlockSizes.getD bytes.length 0) =
      some (blockLetters bytes) := by
    rw [readBytes, if_pos (by simp), List.take_left' (length_blockLetters bytes)]
  -- the value of a block of fewer than eight bytes is below the bound `decode_block` checks
  have hcheck : ¬ (bytes.length < fullBlockSize ∧
      (1 : UInt64) <<< (8 * bytes.length).toUInt64 ≤ UInt64.ofNat (bigEndianValue bytes)) := by
    rintro ⟨hshort, hbound⟩
    have hvalue := bigEndianValue_lt bytes
    rw [UInt64.le_iff_toNat_le, toNat_one_shiftLeft (by simp only [fullBlockSize] at hshort; omega),
      UInt64.toNat_ofNat', Nat.mod_eq_of_lt (bigEndianValue_lt_two_pow_64 hlen), Nat.pow_mul,
      show (2 : Nat) ^ 8 = 256 from rfl] at hbound
    omega
  simp only [decodeBlock, hsize, Int.toNat_natCast]
  rw [if_neg (by omega)]
  simp only [hread, decodeBlockLoop_blockLetters hlen, Option.bind_eq_bind, Option.bind_some]
  rw [if_neg hcheck, uint64To8be_bigEndianValue hlen]

theorem decodeBlockLoop_eq_some {letters : List UInt8} {resNum : UInt64} (hlength : letters.length ≤ 11)
    (h : decodeBlockLoop letters 0 1 = some resNum) :
    ∃ ds : List Nat, (∀ d ∈ ds, d < 58) ∧ letters = ds.map alphabetAt ∧ resNum.toNat = Nat.ofDigits 58 ds := by
  rw [decodeBlockLoop_eq letters 0 0 1 (by omega) rfl] at h
  cases hdigits : letters.mapM digitOf with
  | none => simp [hdigits] at h
  | some ds =>
    rw [hdigits, Option.bind_some, UInt64.toNat_zero, Nat.pow_zero, Nat.zero_add, Nat.one_mul, boundedValue] at h
    split at h
    · rename_i hfit
      obtain ⟨hds, hletters⟩ := map_alphabetAt_of_mapM_digitOf hdigits
      refine ⟨ds, hds, hletters, ?_⟩
      rw [← Option.some.inj h, UInt64.toNat_ofNat', Nat.mod_eq_of_lt hfit]
    · simp at h

theorem decodeBlock_eq_some {block : List UInt8} {size : Nat} {data : List UInt8} {offset : Nat}
    {out : List UInt8} (h : decodeBlock block size data offset = some out) :
    ∃ bytes : List UInt8, 0 < bytes.length ∧ bytes.length ≤ 8 ∧ encodedBlockSizes.getD bytes.length 0 = size ∧
      blockLetters bytes <+: block ∧ copyBytes data offset bytes = some out := by
  simp only [decodeBlock] at h
  split at h
  · simp at h
  rename_i hpos
  obtain ⟨r, hr, hr8, hsize, henc⟩ := decodedBlockSizes_pos (by omega : 0 < decodedBlockSizes size)
  simp only [hsize, Int.toNat_natCast, Option.bind_eq_bind] at h
  obtain ⟨letters, hread, h⟩ := Option.bind_eq_some_iff.mp h
  have hletters : letters = block.take size ∧ size ≤ block.length := by
    rw [readBytes] at hread
    split at hread
    · exact ⟨(Option.some.inj hread).symm, by assumption⟩
    · simp at hread
  obtain ⟨resNum, hloop, h⟩ := Option.bind_eq_some_iff.mp h
  split at h
  · simp at h
  rename_i hcheck
  have hwidth : size ≤ 11 := henc ▸ encodedBlockSizes_le ⟨r, by omega⟩
  obtain ⟨ds, hds, hreverse, hvalue⟩ :=
    decodeBlockLoop_eq_some (by simp [hletters.1]; omega) hloop
  -- the check on the last block keeps the value below `256 ^ r`
  have hbelow : resNum.toNat < 256 ^ r := by
    by_cases hshort : r < 8
    · have : ¬ (1 : UInt64) <<< (8 * r).toUInt64 ≤ resNum := fun hle => hcheck ⟨hshort, hle⟩
      rw [UInt64.le_iff_toNat_le, toNat_one_shiftLeft (by omega), Nat.pow_mul,
        show (2 : Nat) ^ 8 = 256 from rfl] at this
      omega
    · rw [show r = 8 by omega]
      exact resNum.toNat_lt
  have hlength : ds.length = size := by
    rw [← List.length_map (f := alphabetAt), ← hreverse, List.length_reverse, hletters.1, List.length_take]
    omega
  refine ⟨uint64To8be resNum r, by simpa using hr, by simpa using hr8, by simpa using henc, ?_, h⟩
  have hblock : blockLetters (uint64To8be resNum r) = letters := by
    rw [blockLetters, length_uint64To8be, henc, bigEndianValue_uint64To8be, Nat.mod_eq_of_lt hbelow, hvalue,
      ← hlength, lowDigits_ofDigits 58 ds hds, List.map_reverse, ← hreverse, List.reverse_reverse]
  rw [hblock, hletters.1]
  exact List.take_prefix size block

theorem encodeBlock_eq {block : List UInt8} {size : Nat} (hsize : size ≤ 8) (hblock : size ≤ block.length)
    (pre post : List UInt8) :
    encodeBlock block size (pre ++ List.replicate (encodedBlockSizes.getD size 0) (alphabetAt 0) ++ post)
      pre.length = some (pre ++ blockLetters (block.take size) ++ post) := by
  have hlength : (block.take size).length = size := by simp [hblock]
  have hvalue : (uint8beTo64 (block.take size)).toNat = bigEndianValue (block.take size) :=
    toNat_uint8beTo64 _ (by omega)
  have hbound : bigEndianValue (block.take size) < 58 ^ encodedBlockSizes.getD size 0 :=
    calc bigEndianValue (block.take size) < 256 ^ (block.take size).length := bigEndianValue_lt _
      _ = 256 ^ size := by rw [hlength]
      _ ≤ 58 ^ encodedBlockSizes.getD size 0 := two_pow_le_encodedBlockSizes ⟨size, by omega⟩
  simp only [encodeBlock, readBytes, if_pos hblock, Option.bind_eq_bind, Option.bind_some, blockLetters, hlength]
  cases henc : encodedBlockSizes.getD size 0 with
  | zero =>
    -- an empty block: its value is `0` and the loop writes nothing
    rw [henc, Nat.pow_zero] at hbound
    have hzero : uint8beTo64 (block.take size) = 0 := UInt64.toNat_inj.mp (by rw [hvalue]; simp; omega)
    rw [hzero, encodeBlockLoop_zero]
    simp
  | succ j =>
    rw [henc] at hbound
    rw [show ((j + 1 : Nat) : Int) - 1 = (j : Int) by omega, encodeBlockLoop_eq pre j _ post (by rw [hvalue]; exact hbound),
      hvalue]

/-! ### Strings -/

/-- The letters of a string: those of each block of eight bytes, then those of the shorter last
block. -/
def encodedLetters (data : List UInt8) : List UInt8 :=
  (chunks fullBlockSize (data.length / fullBlockSize) data).flatMap blockLetters ++
    blockLetters (data.drop (data.length / fullBlockSize * fullBlockSize))

theorem length_flatMap_blockLetters {blocks : List (List UInt8)} (h : ∀ b ∈ blocks, b.length = fullBlockSize) :
    (blocks.flatMap blockLetters).length = blocks.length * fullEncodedBlockSize := by
  induction blocks with
  | nil => rfl
  | cons b blocks ih =>
    rw [List.flatMap_cons, List.length_append, length_blockLetters, h b List.mem_cons_self,
      ih (fun c hc => h c (List.mem_cons_of_mem _ hc)), List.length_cons, Nat.succ_mul, Nat.add_comm]
    rfl

theorem encodeLoop_eq (data : List UInt8) (tail : Nat) : ∀ i, i ≤ data.length / fullBlockSize →
    (List.range i).foldlM (fun res i =>
      encodeBlock (data.drop (i * fullBlockSize)) fullBlockSize res (i * fullEncodedBlockSize))
      (List.replicate (data.length / fullBlockSize * fullEncodedBlockSize + tail) (alphabet.getD 0 0)) =
    some ((chunks fullBlockSize i data).flatMap blockLetters ++
      List.replicate ((data.length / fullBlockSize - i) * fullEncodedBlockSize + tail) (alphabetAt 0)) := by
  intro i
  induction i with
  | zero => intro _; simp [chunks, alphabetAt]
  | succ i ih =>
    intro hi
    have hfull : (i + 1) * fullBlockSize ≤ data.length :=
      (Nat.mul_le_mul_right _ hi).trans (Nat.div_mul_le_self _ _)
    have hblocks := length_of_mem_chunks fullBlockSize (n := i) (l := data) (by rw [Nat.succ_mul] at hfull; omega)
    have hpre := length_flatMap_blockLetters hblocks
    rw [length_chunks] at hpre
    have hrun : (data.length / fullBlockSize - i) * fullEncodedBlockSize + tail =
        encodedBlockSizes.getD fullBlockSize 0 + ((data.length / fullBlockSize - (i + 1)) * fullEncodedBlockSize + tail) := by
      simp only [fullEncodedBlockSize, fullBlockSize, show encodedBlockSizes.getD 8 0 = 11 from rfl] at *
      rw [show data.length / 8 - i = data.length / 8 - (i + 1) + 1 by omega, Nat.succ_mul]
      omega
    rw [List.range_succ, List.foldlM_append, ih (by omega), Option.bind_eq_bind, Option.bind_some]
    simp only [List.foldlM_cons, List.foldlM_nil, bind_pure]
    rw [hrun, List.replicate_add, ← List.append_assoc, ← hpre,
      encodeBlock_eq (by decide) (by rw [List.length_drop]; rw [Nat.succ_mul] at hfull; omega)]
    simp [chunks_succ]

theorem encode_eq (data : List UInt8) : encode data = some (encodedLetters data) := by
  by_cases hempty : data = []
  · subst hempty
    rfl
  have hlast : (data.drop (data.length / fullBlockSize * fullBlockSize)).length = data.length % fullBlockSize := by
    rw [List.length_drop]
    have := Nat.div_add_mod' data.length fullBlockSize
    omega
  simp only [encode, if_neg hempty]
  rw [encodeLoop_eq data _ _ le_rfl, Option.bind_eq_bind, Option.bind_some, Nat.sub_self, Nat.zero_mul,
    Nat.zero_add]
  split
  · -- the last block is written over the run left at the end
    rename_i hpos
    have hsize : data.length % fullBlockSize ≤ 8 := Nat.le_of_lt (Nat.mod_lt _ (by decide))
    have hblock := encodeBlock_eq hsize hlast.ge
      ((chunks fullBlockSize (data.length / fullBlockSize) data).flatMap blockLetters) []
    rw [List.append_nil, List.append_nil, length_flatMap_blockLetters (length_of_mem_chunks _ (Nat.div_mul_le_self _ _)),
      length_chunks, List.take_of_length_le hlast.le] at hblock
    rw [hblock, encodedLetters]
  · -- no last block: nothing is left of the run
    rename_i hzero
    have hnil : data.drop (data.length / fullBlockSize * fullBlockSize) = [] :=
      List.eq_nil_of_length_eq_zero (by omega)
    rw [encodedLetters, hnil, show data.length % fullBlockSize = 0 by omega]
    rfl

theorem copyBytes_append (pre rest bytes : List UInt8) (h : bytes.length ≤ rest.length) :
    copyBytes (pre ++ rest) pre.length bytes = some (pre ++ bytes ++ rest.drop bytes.length) := by
  rw [copyBytes, if_pos (by simp; omega), List.take_left, List.drop_append, List.drop_eq_nil_of_le (by omega),
    List.nil_append, Nat.add_sub_cancel_left]

theorem eq_eight_of_encodedBlockSizes_eq_eleven : ∀ r : Fin 9, encodedBlockSizes.getD r 0 = 11 → r.val = 8 := by
  decide

theorem decodeBlock_full_iff (block data : List UInt8) (offset : Nat) (out : List UInt8) :
    decodeBlock block fullEncodedBlockSize data offset = some out ↔
      ∃ bytes : List UInt8, bytes.length = fullBlockSize ∧ blockLetters bytes <+: block ∧
        copyBytes data offset bytes = some out := by
  constructor
  · intro h
    obtain ⟨bytes, hpos, hlen, henc, hleading, hcopy⟩ := decodeBlock_eq_some h
    exact ⟨bytes, eq_eight_of_encodedBlockSizes_eq_eleven ⟨bytes.length, by omega⟩ henc, hleading, hcopy⟩
  · rintro ⟨bytes, hlen, ⟨rest, rfl⟩, hcopy⟩
    have hsize : encodedBlockSizes.getD bytes.length 0 = fullEncodedBlockSize := by rw [hlen]; rfl
    rw [← hsize, decodeBlock_blockLetters (by rw [hlen]; decide) (by rw [hlen]; decide), hcopy]

theorem eq_flatMap_blockLetters_append_drop {blocks : List (List UInt8)} {enc : List UInt8}
    (hblocks : ∀ b ∈ blocks, b.length = fullBlockSize) (hleading : blocks.flatMap blockLetters <+: enc) :
    enc = blocks.flatMap blockLetters ++ enc.drop (blocks.length * fullEncodedBlockSize) := by
  obtain ⟨rest, rfl⟩ := hleading
  rw [← length_flatMap_blockLetters hblocks, List.drop_left]

theorem decodeLoop_eq_some_iff (enc data : List UInt8) : ∀ i, i * fullBlockSize ≤ data.length → ∀ out,
    (List.range i).foldlM (fun data i =>
      decodeBlock (enc.drop (i * fullEncodedBlockSize)) fullEncodedBlockSize data (i * fullBlockSize)) data =
      some out ↔
    ∃ blocks : List (List UInt8), blocks.length = i ∧ (∀ b ∈ blocks, b.length = fullBlockSize) ∧
      blocks.flatMap blockLetters <+: enc ∧ out = blocks.flatten ++ data.drop (i * fullBlockSize) := by
  intro i
  induction i with
  | zero =>
    intro _ out
    simp only [List.range_zero, List.foldlM_nil, Option.pure_def, Option.some.injEq, Nat.zero_mul, List.drop_zero]
    constructor
    · rintro rfl
      exact ⟨[], rfl, by simp, List.nil_prefix, rfl⟩
    · rintro ⟨blocks, hlen, -, -, rfl⟩
      rw [List.length_eq_zero_iff.mp hlen]
      rfl
  | succ i ih =>
    intro hi out
    have hroom : i * fullBlockSize + fullBlockSize ≤ data.length := by rwa [Nat.succ_mul] at hi
    rw [List.range_succ, List.foldlM_append]
    simp only [List.foldlM_cons, List.foldlM_nil, bind_pure, Option.bind_eq_bind]
    rw [Option.bind_eq_some_iff]
    constructor
    · rintro ⟨mid, hmid, hblock⟩
      obtain ⟨blocks, hlen, hblocks, hleading, rfl⟩ := (ih (by omega) mid).mp hmid
      obtain ⟨bytes, hbytes, hletters, hcopy⟩ := (decodeBlock_full_iff _ _ _ _).mp hblock
      have hflat : blocks.flatten.length = i * fullBlockSize := by
        rw [length_flatten_of_forall_length _ hblocks, hlen]
      rw [← hflat, copyBytes_append _ _ _ (by rw [List.length_drop, hbytes]; omega)] at hcopy
      refine ⟨blocks ++ [bytes], by simp [hlen], ?_, ?_, ?_⟩
      · intro b hb
        rcases List.mem_append.mp hb with hb | hb
        · exact hblocks b hb
        · rw [List.mem_singleton.mp hb, hbytes]
      · rw [eq_flatMap_blockLetters_append_drop hblocks hleading, List.flatMap_append, List.flatMap_singleton, hlen]
        exact (List.prefix_append_right_inj _).mpr hletters
      · rw [← Option.some.inj hcopy, List.flatten_append, List.flatten_singleton, List.drop_drop, hbytes, hflat,
          Nat.succ_mul, Nat.add_comm]
    · rintro ⟨blocks', hlen, hblocks', hleading, rfl⟩
      obtain ⟨blocks, bytes, rfl⟩ : ∃ blocks bytes, blocks' = blocks ++ [bytes] :=
        ⟨blocks'.dropLast, blocks'.getLast (List.ne_nil_of_length_eq_add_one hlen),
          (List.dropLast_append_getLast _).symm⟩
      have hlen' : blocks.length = i := by simpa using hlen
      have hblocks : ∀ b ∈ blocks, b.length = fullBlockSize := fun b hb => hblocks' b (by simp [hb])
      have hbytes : bytes.length = fullBlockSize := hblocks' bytes (by simp)
      have hflat : blocks.flatten.length = i * fullBlockSize := by
        rw [length_flatten_of_forall_length _ hblocks, hlen']
      rw [List.flatMap_append, List.flatMap_singleton] at hleading
      have hfront : blocks.flatMap blockLetters <+: enc := (List.prefix_append _ _).trans hleading
      refine ⟨blocks.flatten ++ data.drop (i * fullBlockSize), (ih (by omega) _).mpr ⟨blocks, hlen', hblocks, hfront, rfl⟩, ?_⟩
      -- the next block's letters follow those of the blocks before
      have hletters : blockLetters bytes <+: enc.drop (i * fullEncodedBlockSize) := by
        rw [eq_flatMap_blockLetters_append_drop hblocks hfront, hlen'] at hleading
        exact (List.prefix_append_right_inj _).mp hleading
      refine (decodeBlock_full_iff _ _ _ _).mpr ⟨bytes, hbytes, hletters, ?_⟩
      rw [← hflat, copyBytes_append _ _ _ (by rw [List.length_drop, hbytes]; omega), List.flatten_append,
        List.flatten_singleton, List.drop_drop, hbytes, hflat, Nat.succ_mul, Nat.add_comm, List.append_assoc]

theorem encodedLetters_flatten_append {blocks : List (List UInt8)} {last : List UInt8}
    (hblocks : ∀ b ∈ blocks, b.length = fullBlockSize) (hlast : last.length < fullBlockSize) :
    encodedLetters (blocks.flatten ++ last) = blocks.flatMap blockLetters ++ blockLetters last := by
  have hflat := length_flatten_of_forall_length _ hblocks
  have hcount : (blocks.flatten ++ last).length / fullBlockSize = blocks.length := by
    rw [List.length_append, hflat, Nat.add_comm, Nat.add_mul_div_right _ _ (by decide),
      Nat.div_eq_of_lt hlast, Nat.zero_add]
  rw [encodedLetters, hcount, chunks_flatten_append _ _ _ hblocks, ← hflat, List.drop_left]

theorem length_resize (data : List UInt8) (size : Nat) :
    (data.take size ++ List.replicate (size - data.length) 0).length = size := by
  simp only [List.length_append, List.length_take, List.length_replicate]
  omega

theorem encodedBlockSizes_lt_eleven : ∀ r : Fin 8, encodedBlockSizes.getD r 0 < 11 := by
  decide

theorem decode_eq_some {enc data out : List UInt8} (h : decode enc data = some out) :
    enc = encodedLetters out := by
  simp only [decode] at h
  split at h
  · rename_i hempty
    rw [hempty, ← Option.some.inj h]
    rfl
  split at h
  · simp at h
  rename_i hempty hdecoded
  simp only [Option.bind_eq_bind] at h
  obtain ⟨mid, hloop, h⟩ := Option.bind_eq_some_iff.mp h
  set buffer := data.take (enc.length / fullEncodedBlockSize * fullBlockSize +
    (decodedBlockSizes (enc.length % fullEncodedBlockSize)).toNat) ++ List.replicate
    (enc.length / fullEncodedBlockSize * fullBlockSize +
      (decodedBlockSizes (enc.length % fullEncodedBlockSize)).toNat - data.length) 0 with hbuffer
  have hsize := length_resize data (enc.length / fullEncodedBlockSize * fullBlockSize +
    (decodedBlockSizes (enc.length % fullEncodedBlockSize)).toNat)
  rw [← hbuffer] at hsize
  obtain ⟨blocks, hlen, hblocks, hleading, rfl⟩ := (decodeLoop_eq_some_iff enc buffer _ (by omega) mid).mp hloop
  have henc := eq_flatMap_blockLetters_append_drop hblocks hleading
  have hrest : (enc.drop (blocks.length * fullEncodedBlockSize)).length = enc.length % fullEncodedBlockSize := by
    rw [List.length_drop, hlen]
    have := Nat.div_add_mod' enc.length fullEncodedBlockSize
    omega
  have hflat := length_flatten_of_forall_length _ hblocks
  split at h
  · -- the last block: its letters are all that is left of the string
    rename_i hpos
    obtain ⟨bytes, hpos', hlen8, hsizes, hletters, hcopy⟩ := decodeBlock_eq_some h
    have hshort : bytes.length < fullBlockSize := by
      have hmod := Nat.mod_lt enc.length (by decide : 0 < fullEncodedBlockSize)
      have hne : bytes.length ≠ 8 := by
        intro h8
        rw [h8] at hsizes
        rw [← hsizes] at hmod
        exact absurd hmod (by decide)
      simp only [fullBlockSize]
      omega
    have hlast : blockLetters bytes = enc.drop (blocks.length * fullEncodedBlockSize) := by
      rw [hlen]
      exact hletters.eq_of_length (by rw [length_blockLetters, hsizes, ← hlen, hrest])
    have hdecodedSize : (decodedBlockSizes (enc.length % fullEncodedBlockSize)).toNat = bytes.length := by
      rw [← hsizes, decodedBlockSizes_encodedBlockSizes ⟨bytes.length, by omega⟩]
      rfl
    have htail : (buffer.drop (blocks.length * fullBlockSize)).length = bytes.length := by
      rw [List.length_drop, hsize, hdecodedSize, hlen]
      omega
    have hwrite := copyBytes_append blocks.flatten (buffer.drop (blocks.length * fullBlockSize)) bytes htail.ge
    rw [hflat, ← htail, List.drop_length, List.append_nil] at hwrite
    rw [← hlen, hwrite] at hcopy
    rw [← Option.some.inj hcopy, encodedLetters_flatten_append hblocks hshort, hlast]
    exact henc
  · -- no last block: the full blocks are the whole string and fill the whole data
    rename_i hzero
    have hnil : enc.drop (blocks.length * fullEncodedBlockSize) = [] :=
      List.eq_nil_of_length_eq_zero (by omega)
    have hdecodedSize : (decodedBlockSizes (enc.length % fullEncodedBlockSize)).toNat = 0 := by
      rw [show enc.length % fullEncodedBlockSize = 0 by omega]
      rfl
    have hfilled : buffer.drop (blocks.length * fullBlockSize) = [] :=
      List.eq_nil_of_length_eq_zero (by rw [List.length_drop, hsize, hdecodedSize, hlen]; omega)
    rw [← hlen, hfilled] at h
    rw [← Option.some.inj h, encodedLetters_flatten_append hblocks (by decide)]
    rw [henc, hnil]
    rfl

theorem eq_zero_of_encodedBlockSizes_eq_zero : ∀ r : Fin 9, encodedBlockSizes.getD r 0 = 0 → r.val = 0 := by
  decide

theorem decode_encodedLetters (data buffer : List UInt8) : decode (encodedLetters data) buffer = some data := by
  have hblocks := length_of_mem_chunks fullBlockSize (n := data.length / fullBlockSize) (l := data)
    (Nat.div_mul_le_self _ _)
  have hdata := flatten_chunks_append_drop fullBlockSize _ data (Nat.div_mul_le_self _ _)
  have hlastLen : (data.drop (data.length / fullBlockSize * fullBlockSize)).length = data.length % fullBlockSize := by
    rw [List.length_drop]
    have := Nat.div_add_mod' data.length fullBlockSize
    omega
  have hr : data.length % fullBlockSize < fullBlockSize := Nat.mod_lt _ (by decide)
  have hflat := length_flatten_of_forall_length _ hblocks
  rw [length_chunks] at hflat
  have hencr : encodedBlockSizes.getD (data.length % fullBlockSize) 0 < fullEncodedBlockSize :=
    encodedBlockSizes_lt_eleven ⟨_, hr⟩
  have hlength : (encodedLetters data).length =
      data.length / fullBlockSize * fullEncodedBlockSize + encodedBlockSizes.getD (data.length % fullBlockSize) 0 := by
    rw [encodedLetters, List.length_append, length_flatMap_blockLetters hblocks, length_chunks, length_blockLetters,
      hlastLen]
  have hcount : (encodedLetters data).length / fullEncodedBlockSize = data.length / fullBlockSize := by
    rw [hlength, Nat.add_comm, Nat.add_mul_div_right _ _ (by decide), Nat.div_eq_of_lt hencr, Nat.zero_add]
  have hlast : (encodedLetters data).length % fullEncodedBlockSize = encodedBlockSizes.getD (data.length % fullBlockSize) 0 := by
    rw [hlength, Nat.add_comm, Nat.add_mul_mod_self_right, Nat.mod_eq_of_lt hencr]
  have hdecodedSize : decodedBlockSizes (encodedBlockSizes.getD (data.length % fullBlockSize) 0) =
      ((data.length % fullBlockSize : Nat) : Int) :=
    decodedBlockSizes_encodedBlockSizes ⟨_, Nat.lt_succ_of_lt hr⟩
  have hlastLetters : (encodedLetters data).drop (data.length / fullBlockSize * fullEncodedBlockSize) =
      blockLetters (data.drop (data.length / fullBlockSize * fullBlockSize)) := by
    have hpre := length_flatMap_blockLetters hblocks
    rw [length_chunks] at hpre
    rw [encodedLetters, ← hpre, List.drop_left]
  by_cases hempty : encodedLetters data = []
  · -- only the empty string has no letters
    rw [hempty, List.length_nil] at hlength
    have hr0 : data.length % fullBlockSize = 0 :=
      eq_zero_of_encodedBlockSizes_eq_zero ⟨_, Nat.lt_succ_of_lt hr⟩
        (show encodedBlockSizes.getD (data.length % fullBlockSize) 0 = 0 by omega)
    have hfull : data.length / fullBlockSize = 0 := by
      simp only [fullEncodedBlockSize] at hlength
      omega
    have hsplit := Nat.div_add_mod' data.length fullBlockSize
    rw [hfull, hr0, Nat.zero_mul] at hsplit
    have hnil : data = [] := List.eq_nil_of_length_eq_zero hsplit.symm
    rw [hempty, hnil]
    rfl
  simp only [decode, if_neg hempty]
  rw [hlast, hcount, hdecodedSize, if_neg (by omega), Int.toNat_natCast]
  set resized := buffer.take (data.length / fullBlockSize * fullBlockSize + data.length % fullBlockSize) ++
    List.replicate (data.length / fullBlockSize * fullBlockSize + data.length % fullBlockSize - buffer.length) 0
    with hresized
  have hsize := length_resize buffer (data.length / fullBlockSize * fullBlockSize + data.length % fullBlockSize)
  rw [← hresized] at hsize
  -- the full blocks decode to the blocks of the data
  have hloop := (decodeLoop_eq_some_iff (encodedLetters data) resized (data.length / fullBlockSize) (by omega) _).mpr
    ⟨_, length_chunks _ _ _, hblocks, List.prefix_append _ _, rfl⟩
  have htail : (resized.drop (data.length / fullBlockSize * fullBlockSize)).length = data.length % fullBlockSize := by
    rw [List.length_drop, hsize]
    omega
  rw [hloop, Option.bind_eq_bind, Option.bind_some]
  split
  · -- the last block decodes to the rest of the data
    rename_i hpos
    have hlastPos : 0 < (data.drop (data.length / fullBlockSize * fullBlockSize)).length := by
      rw [hlastLen]
      refine Nat.pos_of_ne_zero fun hzero => ?_
      rw [hzero] at hpos
      exact absurd hpos (by decide)
    have hlastLe : (data.drop (data.length / fullBlockSize * fullBlockSize)).length ≤ 8 := by
      rw [hlastLen]
      exact Nat.le_of_lt hr
    have hblock := decodeBlock_blockLetters hlastPos hlastLe []
      ((chunks fullBlockSize (data.length / fullBlockSize) data).flatten ++
        resized.drop (data.length / fullBlockSize * fullBlockSize)) (data.length / fullBlockSize * fullBlockSize)
    have hwrite := copyBytes_append (chunks fullBlockSize (data.length / fullBlockSize) data).flatten
      (resized.drop (data.length / fullBlockSize * fullBlockSize)) (data.drop (data.length / fullBlockSize * fullBlockSize))
      (by rw [htail, hlastLen])
    rw [hflat, hlastLen.trans htail.symm, List.drop_length, List.append_nil, hdata] at hwrite
    rw [List.append_nil, hlastLen, hwrite] at hblock
    rw [hlastLetters, hblock]
  · -- no last block: the full blocks are all the data
    rename_i hzero
    have hr0 : data.length % fullBlockSize = 0 :=
      eq_zero_of_encodedBlockSizes_eq_zero ⟨_, Nat.lt_succ_of_lt hr⟩
        (show encodedBlockSizes.getD (data.length % fullBlockSize) 0 = 0 by omega)
    rw [List.eq_nil_of_length_eq_zero (hlastLen.trans hr0), List.append_nil] at hdata
    rw [List.eq_nil_of_length_eq_zero (htail.trans hr0), List.append_nil, hdata]

/-! ### Addresses -/

theorem decodeAddr_encodeAddr_eq (cnFastHash : List UInt8 → Hash) (tag : UInt64) (data : List UInt8) :
    ∃ addr, encodeAddr cnFastHash tag data = some addr ∧ decodeAddr cnFastHash addr = some (tag, data) := by
  have hvarint : Tools.getVarintData tag.toNat = writeVarint tag.toNat := Tools.writeVarint_eq_writeVarint _
  set buf := Tools.getVarintData tag.toNat ++ data with hbuf
  set checksum := (cnFastHash buf).data.toList.take addrChecksumSize with hchecksum
  have hlength : checksum.length = addrChecksumSize := by simp [checksum, addrChecksumSize]
  have hbufPos : 0 < buf.length := by
    rw [hbuf, hvarint, List.length_append]
    have := List.length_pos_of_ne_nil (writeVarint_ne_nil tag.toNat)
    omega
  refine ⟨encodedLetters (buf ++ checksum), encode_eq _, ?_⟩
  have hsplit : (buf ++ checksum).length - addrChecksumSize = buf.length := by
    rw [List.length_append, hlength, Nat.add_sub_cancel]
  have hread : Tools.readVarint 64 buf = (((writeVarint tag.toNat).length : Int), tag.toNat) := by
    rw [hbuf, hvarint]
    exact Tools.readVarint_writeVarint tag.toNat_lt data
  have hcount : 0 < (writeVarint tag.toNat).length := List.length_pos_of_ne_nil (writeVarint_ne_nil tag.toNat)
  simp only [decodeAddr, decode_encodedLetters, Option.bind_eq_bind, Option.bind_some]
  rw [if_neg (by rw [List.length_append, hlength]; omega), hsplit, List.drop_left, List.take_left, ← hchecksum,
    if_neg (not_not.mpr rfl), hread]
  simp only
  rw [if_neg (by omega), Int.toNat_natCast, UInt64.ofNat_toNat, hbuf, hvarint, List.drop_left]

/-- Base58 is a bijection between strings and their encodings, and addresses come back whole. -/
theorem encode_decode_bijection :
    (∀ d : List UInt8, ∃ s, encode d = some s ∧ ∀ data, decode s data = some d) ∧
    (∀ s data d : List UInt8, decode s data = some d → encode d = some s) ∧
    (∀ (cnFastHash : List UInt8 → Hash) (tag : UInt64) (data : List UInt8),
      ∃ addr, encodeAddr cnFastHash tag data = some addr ∧ decodeAddr cnFastHash addr = some (tag, data)) := by
  refine ⟨fun d => ⟨encodedLetters d, encode_eq d, decode_encodedLetters d⟩, ?_, decodeAddr_encodeAddr_eq⟩
  intro s data d h
  rw [encode_eq, ← decode_eq_some h]

theorem encode_decode_bijection_twoBytes :
    encode [1, 2] = some [49, 53, 84] ∧ decode [49, 53, 84] [7, 7, 7] = some [1, 2] ∧
      ∃ addr, encodeAddr (fun _ => ⟨Vector.replicate 32 0⟩) 3 [1, 2] = some addr ∧
        decodeAddr (fun _ => ⟨Vector.replicate 32 0⟩) addr = some (3, [1, 2]) := by
  have hdecode : decode [49, 53, 84] [7, 7, 7] = some [1, 2] := by decide
  exact ⟨encode_decode_bijection.2.1 _ _ _ hdecode, hdecode, encode_decode_bijection.2.2 _ 3 [1, 2]⟩

end Base58

end Crygcoin
