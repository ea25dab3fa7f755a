import Crygcoin.KVBinaryInput
import Crygcoin.AmountText
import Crygcoin.Positional
import Crygcoin.WordList

namespace Crygcoin

/-! Mnemonic seeds (`Mnemonics.cpp`). A secret key of 32 bytes is cut into eight little-endian
`uint32_t` values; each gives three words of the 1626 of `WordList::English`, its digits in base
1626 stored as differences modulo 1626 from the previous word's index. A checksum word, picked by
the CRC-32 of the first three letters of the 24 words, comes last. Reading a seed checks the
number of words, that each word lower-cased is in the list, the checksum word, and that every
three indexes give back a value whose remainder is the first index. -/

/-- `Crypto::SecretKey`. -/
structure SecretKey where
  data : Vector UInt8 32
deriving DecidableEq, Repr

namespace CRC32

/-- `table` of `CRC32.h`. -/
def table : List UInt64 := [
  0, 1996959894, 3993919788, 2567524794, 124634137, 1886057615, 3915621685, 2657392035, 249268274, 2044508324,
  3772115230, 2547177864, 162941995, 2125561021, 3887607047, 2428444049, 498536548, 1789927666, 4089016648,
  2227061214, 450548861, 1843258603, 4107580753, 2211677639, 325883990, 1684777152, 4251122042, 2321926636,
  335633487, 1661365465, 4195302755, 2366115317, 997073096, 1281953886, 3579855332, 2724688242, 1006888145,
  1258607687, 3524101629, 2768942443, 901097722, 1119000684, 3686517206, 2898065728, 853044451, 1172266101,
  3705015759, 2882616665, 651767980, 1373503546, 3369554304, 3218104598, 565507253, 1454621731, 3485111705,
  3099436303, 671266974, 1594198024, 3322730930, 2970347812, 795835527, 1483230225, 3244367275, 3060149565,
  1994146192, 31158534, 2563907772, 4023717930, 1907459465, 112637215, 2680153253, 3904427059, 2013776290,
  251722036, 2517215374, 3775830040, 2137656763, 141376813, 2439277719, 3865271297, 1802195444, 476864866,
  2238001368, 4066508878, 1812370925, 453092731, 2181625025, 4111451223, 1706088902, 314042704, 2344532202,
  4240017532, 1658658271, 366619977, 2362670323, 4224994405, 1303535960, 984961486, 2747007092, 3569037538,
  1256170817, 1037604311, 2765210733, 3554079995, 1131014506, 879679996, 2909243462, 3663771856, 1141124467,
  855842277, 2852801631, 3708648649, 1342533948, 654459306, 3188396048, 3373015174, 1466479909, 544179635,
  3110523913, 3462522015, 1591671054, 702138776, 2966460450, 3352799412, 1504918807, 783551873, 3082640443,
  3233442989, 3988292384, 2596254646, 62317068, 1957810842, 3939845945, 2647816111, 81470997, 1943803523,
  3814918930, 2489596804, 225274430, 2053790376, 3826175755, 2466906013, 167816743, 2097651377, 4027552580,
  2265490386, 503444072, 1762050814, 4150417245, 2154129355, 426522225, 1852507879, 4275313526, 2312317920,
  282753626, 1742555852, 4189708143, 2394877945, 397917763, 1622183637, 3604390888, 2714866558, 953729732,
  1340076626, 3518719985, 2797360999, 1068828381, 1219638859, 3624741850, 2936675148, 906185462, 1090812512,
  3747672003, 2825379669, 829329135, 1181335161, 3412177804, 3160834842, 628085408, 1382605366, 3423369109,
  3138078467, 570562233, 1426400815, 3317316542, 2998733608, 733239954, 1555261956, 3268935591, 3050360625,
  752459403, 1541320221, 2607071920, 3965973030, 1969922972, 40735498, 2617837225, 3943577151, 1913087877,
  83908371, 2512341634, 3803740692, 2075208622, 213261112, 2463272603, 3855990285, 2094854071, 198958881,
  2262029012, 4057260610, 1759359992, 534414190, 2176718541, 4139329115, 1873836001, 414664567, 2282248934,
  4279200368, 1711684554, 285281116, 2405801727, 4167216745, 1634467795, 376229701, 2685067896, 3608007406,
  1308918612, 956543938, 2808555105, 3495958263, 1231636301, 1047427035, 2932959818, 3654703836, 1088359270,
  936918000, 2847714899, 3736837829, 1202900863, 817233897, 3183342108, 3401237130, 1404277552, 615818150,
  3134207493, 3453421203, 1423857449, 601450431, 3009837614, 3294710456, 1567103746, 711928724, 3020668471,
  3272380065, 1510334235, 755167117]

/-- `CRC32::crc32`. The source xors the character, a sign-extended `char`, into the 64-bit state,
but keeps only the low byte of the result, which is the character's byte xored into the state's. -/
def crc32 (input : List Char) : UInt64 :=
  let crc := input.foldl (fun (crc : UInt64) c =>
    let byteIndex := (c.toUInt8.toUInt64 ^^^ crc) &&& 0xff
    (crc >>> 8) ^^^ table.getD byteIndex.toNat 0) 0xFFFFFFFF
  crc ^^^ 0xFFFFFFFF

end CRC32

namespace Mnemonics

open WordList

/-- The codes of `Errors.h` that the mnemonic functions return. -/
inductive ErrorCode
  | SUCCESS
  | INVALID_MNEMONIC
  | MNEMONIC_INVALID_WORD
  | MNEMONIC_WRONG_LENGTH
  | MNEMONIC_INVALID_CHECKSUM
deriving DecidableEq, Repr

/-- `Error` of `Errors.h`: a code, and a message that stands in for the code's own where it is not
empty. -/
structure Error where
  errorCode : ErrorCode
  customMessage : String
deriving DecidableEq, Repr

def Error.ofCode (code : ErrorCode) : Error :=
  ⟨code, ""⟩

def toLowerWord (word : List Char) : List Char :=
  word.map Char.toLower

/-- `GetChecksumWord`: the word at the CRC of the first three letters of each word, modulo the
number of words. -/
def getChecksumWord (words : List (List Char)) : List Char :=
  let trimmed := words.flatMap fun word => word.take 3
  let hash := CRC32.crc32 trimmed
  words.getD (hash.toNat % words.length) []

/-- `HasValidChecksum`: the last word against the checksum word of the others. -/
def hasValidChecksum (words : List (List Char)) : Bool :=
  words.getLastD [] == getChecksumWord words.dropLast

/-- `GetWordIndexes`: where `std::find` finds each word in the list, the length of the list for a
word it does not hold. -/
def getWordIndexes (words : List (List Char)) : List Nat :=
  words.map fun word => English.idxOf word

/-- The `uint32_t` `val` of the loop of `MnemonicToPrivateKey` for three word indexes: computed in
`size_t`, where nothing overflows, then cast. -/
def wordIndexesValue (indexes : List Nat) : Nat :=
  let w1 := indexes.getD 0 0
  let w2 := indexes.getD 1 0
  let w3 := indexes.getD 2 0
  let wlLen := English.length
  (w1 + wlLen * ((wlLen - w1 + w2) % wlLen) + wlLen * wlLen * ((wlLen - w2 + w3) % wlLen)) % 2 ^ 32

/-- One round of the loop of `MnemonicToPrivateKey`: the four bytes of `val` in memory, if its
remainder is the first index. -/
def decodeWordIndexes (indexes : List Nat) : Option (List UInt8) :=
  let val := wordIndexesValue indexes
  if val % English.length = indexes.getD 0 0 then some (KVBinary.leBytes val 4) else none

/-- `MnemonicToPrivateKey(const std::vector<std::string>)`. The key returned with an error is not
initialized; it is `none` here. -/
def mnemonicToPrivateKey (words : List (List Char)) : Error × Option SecretKey :=
  let len := words.length
  if len ≠ 25 then
    let wordPlural := if len = 1 then "word" else "words"
    (⟨.MNEMONIC_WRONG_LENGTH, "The mnemonic seed given is the wrong length. It should be " ++
      "25 words long, but it is " ++ toString len ++ " " ++ wordPlural ++ " long."⟩, none)
  else
    match words.find? fun word => !English.contains (toLowerWord word) with
    | some word =>
      (⟨.MNEMONIC_INVALID_WORD, "The mnemonic seed given has a word that is not present " ++
        "in the english word list (" ++ String.ofList (toLowerWord word) ++ ")."⟩, none)
    | none =>
      if !hasValidChecksum words then (Error.ofCode .MNEMONIC_INVALID_CHECKSUM, none)
      else
        -- with 25 words the loop reads the indexes 0 to 23, three at a time
        match (chunks 3 8 (getWordIndexes words)).mapM decodeWordIndexes with
        | none => (Error.ofCode .INVALID_MNEMONIC, none)
        | some data => (Error.ofCode .SUCCESS, some ⟨Vector.ofFn fun i => data.flatten.getD i 0⟩)

/-- The words that the loop `for (std::string word; stream >> word;)` reads from a string; `word`
holds the characters read since the last space. -/
def readWords (word : List Char) : List Char → List (List Char)
  | [] => if word = [] then [] else [word]
  | c :: rest =>
    if isSpace c then
      if word = [] then readWords [] rest else word :: readWords [] rest
    else readWords (word ++ [c]) rest

def mnemonicToPrivateKeyOfString (words : List Char) : Error × Option SecretKey :=
  mnemonicToPrivateKey (readWords [] words)

/-- The indexes `w1`, `w2`, `w3` of one round of the loop of `PrivateKeyToMnemonic`, for the
`uint32_t` read from four bytes of the key. -/
def valIndexes (val : Nat) : List Nat :=
  let wlLen := English.length
  let w1 := val % wlLen
  let w2 := (val / wlLen + w1) % wlLen
  let w3 := (val / wlLen / wlLen + w2) % wlLen
  [w1, w2, w3]

/-- The three words of one round of the loop of `PrivateKeyToMnemonic`. -/
def encodeVal (val : Nat) : List (List Char) :=
  (valIndexes val).map fun w => English.getD w []

/-- The words of the loop of `PrivateKeyToMnemonic`: three for each four bytes of the key. -/
def keyWords (privateKey : SecretKey) : List (List Char) :=
  (chunks 4 8 privateKey.data.toList).flatMap fun bytes => encodeVal (littleEndian bytes)

/-- The words of `PrivateKeyToMnemonic`, the checksum word last. -/
def mnemonicWords (privateKey : SecretKey) : List (List Char) :=
  keyWords privateKey ++ [getChecksumWord (keyWords privateKey)]

/-- `PrivateKeyToMnemonic`: the words joined by single spaces. -/
def privateKeyToMnemonic (privateKey : SecretKey) : List Char :=
  [' '].intercalate (mnemonicWords privateKey)

end Mnemonics

section MapM

variable {α β : Type}

theorem mapM_guard_eq_some_iff {p : α → Prop} [DecidablePred p] {g : α → β} {xs : List α}
    {ys : List β} :
    xs.mapM (fun x => if p x then some (g x) else none) = some ys ↔ (∀ x ∈ xs, p x) ∧ ys = xs.map g := by
  induction xs generalizing ys with
  | nil => simp [eq_comm]
  | cons x xs ih =>
    by_cases hx : p x
    · simp only [List.mapM_cons, hx, if_true, List.forall_mem_cons, List.map_cons, true_and]
      simp [Option.bind_eq_some_iff, ih]
      exact fun _ => eq_comm
    · simp [hx]

theorem mapM_eq_some_map {f : α → Option β} {g : α → β} {xs : List α} (h : ∀ x ∈ xs, f x = some (g x)) :
    xs.mapM f = some (xs.map g) := by
  induction xs with
  | nil => rfl
  | cons x xs ih =>
    rw [List.mapM_cons, h x List.mem_cons_self, ih fun y hy => h y (List.mem_cons_of_mem x hy)]
    rfl

end MapM

namespace Mnemonics

open WordList

section Words

theorem toLower_of_isLower {c : Char} (h : c.isLower = true) : c.toLower = c := by
  have hlow : 97 ≤ c.val.toNat := by
    have hrange : (c.val ≥ 'a'.val && c.val ≤ 'z'.val) = true := h
    simp only [Bool.and_eq_true, decide_eq_true_eq, UInt32.le_iff_toNat_le] at hrange
    exact hrange.1
  unfold Char.toLower
  rw [dif_neg]
  rintro ⟨-, hupper⟩
  rw [UInt32.le_iff_toNat_le] at hupper
  have hZ : 'Z'.val.toNat = 90 := rfl
  omega

theorem isSpace_of_isLower {c : Char} (h : c.isLower = true) : isSpace c = false := by
  cases hspace : isSpace c with
  | false => rfl
  | true =>
    simp only [isSpace, Bool.or_eq_true, beq_iff_eq] at hspace
    rcases hspace with ((((rfl | rfl) | rfl) | rfl) | rfl) | rfl <;> cases h

theorem isWord_iff {word : List Char} : isWord word = true ↔ word ≠ [] ∧ ∀ c ∈ word, c.isLower = true := by
  simp [isWord]

theorem ne_nil_of_mem_English {word : List Char} (h : word ∈ English) : word ≠ [] :=
  (isWord_iff.mp (isWord_of_mem_English word h)).1

theorem toLowerWord_of_mem_English {word : List Char} (h : word ∈ English) : toLowerWord word = word := by
  have hlower := (isWord_iff.mp (isWord_of_mem_English word h)).2
  rw [toLowerWord, List.map_congr_left fun c hc => toLower_of_isLower (hlower c hc), List.map_id']

theorem isSpace_of_mem_English {word : List Char} (h : word ∈ English) : ∀ c ∈ word, isSpace c = false :=
  fun c hc => isSpace_of_isLower ((isWord_iff.mp (isWord_of_mem_English word h)).2 c hc)

theorem readWords_append {w : List Char} (hw : ∀ c ∈ w, isSpace c = false) (word rest : List Char) :
    readWords word (w ++ rest) = readWords (word ++ w) rest := by
  induction w generalizing word with
  | nil => rw [List.nil_append, List.append_nil]
  | cons c w ih =>
    rw [List.cons_append, readWords, if_neg (by simp [hw c List.mem_cons_self]),
      ih (fun d hd => hw d (List.mem_cons_of_mem c hd)), List.append_assoc, List.singleton_append]

theorem readWords_intercalate {words : List (List Char)} (hne : ∀ w ∈ words, w ≠ [])
    (hspace : ∀ w ∈ words, ∀ c ∈ w, isSpace c = false) : readWords [] ([' '].intercalate words) = words := by
  induction words with
  | nil => rfl
  | cons w words ih =>
    have hw := hspace w List.mem_cons_self
    cases words with
    | nil =>
      rw [List.intercalate_singleton, ← List.append_nil w, readWords_append hw, List.nil_append]
      simp [readWords, hne w List.mem_cons_self]
    | cons w' words =>
      have hrest := ih (fun v hv => hne v (List.mem_cons_of_mem w hv)) (fun v hv => hspace v (List.mem_cons_of_mem w hv))
      rw [List.intercalate_cons_cons, List.append_assoc, readWords_append hw, List.nil_append,
        List.singleton_append, readWords, if_pos (show isSpace ' ' = true from rfl), if_neg (hne w List.mem_cons_self), hrest]

end Words

section Digits

variable {n x : Nat}

theorem sub_add_add_mod (hx : x ≤ n) (y : Nat) : (n - x + (y + x) % n) % n = y % n := by
  rw [Nat.add_mod_mod, show n - x + (y + x) = y + n by omega, Nat.add_mod_right]

theorem mod_sub_add_add (hx : x ≤ n) (y : Nat) : ((n - x + y) % n + x) % n = y % n := by
  rw [Nat.mod_add_mod, show n - x + y + x = y + n by omega, Nat.add_mod_right]

theorem mod_add_mul_mod_add_mul_div (x n : Nat) : x % n + n * (x / n % n) + n * n * (x / n / n) = x := by
  have hlow := Nat.mod_add_div x n
  have hhigh := Nat.mod_add_div (x / n) n
  calc x % n + n * (x / n % n) + n * n * (x / n / n) = x % n + n * (x / n % n + n * (x / n / n)) := by ring
    _ = x := by rw [hhigh, hlow]

theorem lt_two_pow_of_mod_eq {v : Nat} (hv : v < 1626 ^ 3) (hmod : v % 2 ^ 32 % 1626 = v % 1626) : v < 2 ^ 32 := by
  omega

end Digits

section Codec

theorem length_pos_English : 0 < English.length := by
  rw [length_English]
  decide

theorem lt_of_mem_valIndexes {val w : Nat} (h : w ∈ valIndexes val) : w < English.length := by
  simp only [valIndexes, List.mem_cons, List.not_mem_nil, or_false] at h
  rcases h with rfl | rfl | rfl <;> exact Nat.mod_lt _ length_pos_English

theorem getWordIndexes_encodeVal (val : Nat) : getWordIndexes (encodeVal val) = valIndexes val := by
  rw [getWordIndexes, encodeVal, List.map_map]
  conv_rhs => rw [← List.map_id (valIndexes val)]
  apply List.map_congr_left
  intro w hw
  have hlt := lt_of_mem_valIndexes hw
  rw [Function.comp_apply, List.getD_eq_getElem _ _ hlt, nodup_English.idxOf_getElem w hlt, id]

theorem mem_English_of_mem_encodeVal {val : Nat} {word : List Char} (h : word ∈ encodeVal val) :
    word ∈ English := by
  obtain ⟨w, hw, rfl⟩ := List.mem_map.mp h
  rw [List.getD_eq_getElem _ _ (lt_of_mem_valIndexes hw)]
  exact List.getElem_mem _

theorem length_encodeVal (val : Nat) : (encodeVal val).length = 3 := rfl

theorem wordIndexesValue_valIndexes {val : Nat} (hval : val < 2 ^ 32) : wordIndexesValue (valIndexes val) = val := by
  have hn := length_English
  have hpos := length_pos_English
  simp only [wordIndexesValue, valIndexes, List.getD_cons_zero, List.getD_cons_succ]
  rw [sub_add_add_mod (Nat.mod_lt _ hpos).le, sub_add_add_mod (Nat.mod_lt _ hpos).le]
  -- below 2 ^ 32 < 1626 ^ 3 the third digit needs no reduction
  have hhigh : val / English.length / English.length < English.length := by
    rw [Nat.div_div_eq_div_mul]
    exact Nat.div_lt_of_lt_mul (by rw [hn]; omega)
  rw [Nat.mod_eq_of_lt hhigh, mod_add_mul_mod_add_mul_div, Nat.mod_eq_of_lt hval]

theorem decodeWordIndexes_eq (indexes : List Nat) :
    decodeWordIndexes indexes = if wordIndexesValue indexes % English.length = indexes.getD 0 0 then
      some (KVBinary.leBytes (wordIndexesValue indexes) 4) else none := rfl

theorem decodeWordIndexes_valIndexes {val : Nat} (hval : val < 2 ^ 32) :
    decodeWordIndexes (valIndexes val) = some (KVBinary.leBytes val 4) := by
  have hfirst : (valIndexes val).getD 0 0 = val % English.length := rfl
  rw [decodeWordIndexes_eq, wordIndexesValue_valIndexes hval, hfirst, if_pos rfl]

theorem valIndexes_wordIndexesValue {w1 w2 w3 : Nat} (h1 : w1 < English.length) (h2 : w2 < English.length)
    (h3 : w3 < English.length) (hcheck : wordIndexesValue [w1, w2, w3] % English.length = w1) :
    valIndexes (wordIndexesValue [w1, w2, w3]) = [w1, w2, w3] := by
  have hn := length_English
  simp only [valIndexes, wordIndexesValue, List.getD_cons_zero, List.getD_cons_succ] at hcheck ⊢
  generalize English.length = n at hn h1 h2 h3 hcheck ⊢
  generalize hA : (n - w1 + w2) % n = A at hcheck ⊢
  generalize hB : (n - w2 + w3) % n = B at hcheck ⊢
  have hpos : 0 < n := by omega
  have hAlt : A < n := hA ▸ Nat.mod_lt _ hpos
  have hBlt : B < n := hB ▸ Nat.mod_lt _ hpos
  rw [show w1 + n * A + n * n * B = w1 + n * (A + n * B) by ring] at hcheck ⊢
  have hmod : (w1 + n * (A + n * B)) % n = w1 := by rw [Nat.add_mul_mod_self_left, Nat.mod_eq_of_lt h1]
  have hdiv : (w1 + n * (A + n * B)) / n = A + n * B := by
    rw [Nat.add_mul_div_left _ _ hpos, Nat.div_eq_of_lt h1, Nat.zero_add]
  have hdiv2 : (A + n * B) / n = B := by rw [Nat.add_mul_div_left _ _ hpos, Nat.div_eq_of_lt hAlt, Nat.zero_add]
  -- the check rejects the values of 32 bits or more
  have hfit : w1 + n * (A + n * B) < 2 ^ 32 := by
    subst hn
    exact lt_two_pow_of_mod_eq (by omega) (by rw [hcheck, hmod])
  have hw2 : (A + n * B + w1) % n = w2 := by
    rw [Nat.add_right_comm, Nat.add_mul_mod_self_left, ← hA, mod_sub_add_add h1.le, Nat.mod_eq_of_lt h2]
  have hw3 : (B + w2) % n = w3 := by
    rw [← hB, mod_sub_add_add h2.le, Nat.mod_eq_of_lt h3]
  rw [Nat.mod_eq_of_lt hfit, hmod, hdiv, hdiv2, hw2, hw3]

theorem getWordIndexes_keyWords (privateKey : SecretKey) :
    getWordIndexes (keyWords privateKey) =
      ((chunks 4 8 privateKey.data.toList).map fun bytes => valIndexes (littleEndian bytes)).flatten := by
  rw [keyWords, getWordIndexes, List.map_flatMap, List.flatMap_def]
  congr 1
  apply List.map_congr_left
  intro bytes _
  exact getWordIndexes_encodeVal _

theorem length_keyWords (privateKey : SecretKey) : (keyWords privateKey).length = 24 := by
  simp [keyWords, List.length_flatMap, length_encodeVal]

theorem mem_English_of_mem_keyWords {privateKey : SecretKey} {word : List Char} (h : word ∈ keyWords privateKey) :
    word ∈ English := by
  obtain ⟨bytes, -, hword⟩ := List.mem_flatMap.mp h
  exact mem_English_of_mem_encodeVal hword

theorem mapM_decodeWordIndexes_keyWords (privateKey : SecretKey) :
    ((chunks 4 8 privateKey.data.toList).map fun bytes => valIndexes (littleEndian bytes)).mapM decodeWordIndexes =
      some (chunks 4 8 privateKey.data.toList) := by
  have hlen := length_of_mem_chunks 4 (n := 8) (l := privateKey.data.toList) (by simp)
  have hblock : ∀ bytes ∈ chunks 4 8 privateKey.data.toList,
      (decodeWordIndexes ∘ fun bytes => valIndexes (littleEndian bytes)) bytes = some (id bytes) := by
    intro bytes hb
    have h4 := hlen bytes hb
    have hval : littleEndian bytes < 2 ^ 32 := by simpa [h4] using littleEndian_lt bytes
    rw [Function.comp_apply, decodeWordIndexes_valIndexes hval, ← h4, KVBinary.leBytes_littleEndian, id]
  rw [List.mapM_map, mapM_eq_some_map hblock, List.map_id]

theorem flatten_chunks_key (privateKey : SecretKey) :
    (chunks 4 8 privateKey.data.toList).flatten = privateKey.data.toList := by
  have h := flatten_chunks_append_drop 4 8 privateKey.data.toList (by simp)
  rwa [List.drop_of_length_le (by simp), List.append_nil] at h

theorem toList_ofFn_getD {data : List UInt8} (h : data.length = 32) :
    (Vector.ofFn fun i : Fin 32 => data.getD i 0).toList = data := by
  apply List.ext_getElem
  · simp [h]
  · intro i _ hi
    simp [List.getD_eq_getElem?_getD, List.getElem?_eq_getElem hi]

theorem ofFn_getD_toList (data : Vector UInt8 32) : (Vector.ofFn fun i : Fin 32 => data.toList.getD i 0) = data :=
  Vector.toList_inj.mp (toList_ofFn_getD (by simp))

end Codec

section Seeds

theorem getChecksumWord_mem {words : List (List Char)} (hne : words ≠ []) : getChecksumWord words ∈ words := by
  have hpos : 0 < words.length := List.length_pos_iff.mpr hne
  simp only [getChecksumWord]
  rw [List.getD_eq_getElem _ _ (Nat.mod_lt _ hpos)]
  exact List.getElem_mem _

theorem hasValidChecksum_append (words : List (List Char)) :
    hasValidChecksum (words ++ [getChecksumWord words]) = true := by
  rw [hasValidChecksum, List.getLastD_concat, List.dropLast_concat, beq_self_eq_true]

theorem mem_English_of_mem_mnemonicWords {privateKey : SecretKey} {word : List Char}
    (h : word ∈ mnemonicWords privateKey) : word ∈ English := by
  rcases List.mem_append.mp h with h | h
  · exact mem_English_of_mem_keyWords h
  · rw [List.mem_singleton.mp h]
    have hne : keyWords privateKey ≠ [] := List.ne_nil_of_length_pos (by rw [length_keyWords]; decide)
    exact mem_English_of_mem_keyWords (getChecksumWord_mem hne)

theorem length_mnemonicWords (privateKey : SecretKey) : (mnemonicWords privateKey).length = 25 := by
  rw [mnemonicWords, List.length_append, length_keyWords, List.length_singleton]

theorem readWords_privateKeyToMnemonic (privateKey : SecretKey) :
    readWords [] (privateKeyToMnemonic privateKey) = mnemonicWords privateKey :=
  readWords_intercalate (fun _ h => ne_nil_of_mem_English (mem_English_of_mem_mnemonicWords h))
    (fun _ h => isSpace_of_mem_English (mem_English_of_mem_mnemonicWords h))

theorem find?_eq_none_iff {words : List (List Char)} :
    words.find? (fun word => !English.contains (toLowerWord word)) = none ↔
      ∀ word ∈ words, toLowerWord word ∈ English := by
  simp

theorem mnemonicToPrivateKey_of_invalid_checksum {words : List (List Char)} (hlen : words.length = 25)
    (hwords : ∀ word ∈ words, toLowerWord word ∈ English) (hcheck : hasValidChecksum words = false) :
    mnemonicToPrivateKey words = (Error.ofCode .MNEMONIC_INVALID_CHECKSUM, none) := by
  unfold mnemonicToPrivateKey
  dsimp only
  rw [if_neg (not_not.mpr hlen), find?_eq_none_iff.mpr hwords]
  simp only [hcheck, Bool.not_false, ↓reduceIte]

theorem mnemonicToPrivateKey_of_mapM {words : List (List Char)} {data : List (List UInt8)}
    (hlen : words.length = 25) (hwords : ∀ word ∈ words, toLowerWord word ∈ English)
    (hcheck : hasValidChecksum words = true)
    (hdata : (chunks 3 8 (getWordIndexes words)).mapM decodeWordIndexes = some data) :
    mnemonicToPrivateKey words = (Error.ofCode .SUCCESS, some ⟨Vector.ofFn fun i => data.flatten.getD i 0⟩) := by
  unfold mnemonicToPrivateKey
  dsimp only
  rw [if_neg (not_not.mpr hlen), find?_eq_none_iff.mpr hwords]
  simp only [hcheck, Bool.not_true, Bool.false_eq_true, ↓reduceIte, hdata]

theorem mnemonicToPrivateKey_eq_some {words : List (List Char)} {error : Error} {privateKey : SecretKey}
    (h : mnemonicToPrivateKey words = (error, some privateKey)) :
    words.length = 25 ∧ (∀ word ∈ words, toLowerWord word ∈ English) ∧ hasValidChecksum words = true ∧
      ∃ data, (chunks 3 8 (getWordIndexes words)).mapM decodeWordIndexes = some data ∧
        error = Error.ofCode .SUCCESS ∧ privateKey = ⟨Vector.ofFn fun i => data.flatten.getD i 0⟩ := by
  unfold mnemonicToPrivateKey at h
  dsimp only at h
  -- every branch but the last returns no key
  split at h
  · simp only [Prod.mk.injEq, reduceCtorEq, and_false] at h
  rename_i hlen
  split at h
  · simp only [Prod.mk.injEq, reduceCtorEq, and_false] at h
  rename_i hfind
  split at h
  · simp only [Prod.mk.injEq, reduceCtorEq, and_false] at h
  rename_i hcheck
  split at h
  · simp only [Prod.mk.injEq, reduceCtorEq, and_false] at h
  rename_i data hdata
  obtain ⟨herror, hkey⟩ := Prod.mk.inj h
  exact ⟨not_not.mp hlen, find?_eq_none_iff.mp hfind, by simpa using hcheck, data, hdata, herror.symm,
    (Option.some.inj hkey).symm⟩

theorem mnemonicToPrivateKey_mnemonicWords (privateKey : SecretKey) :
    mnemonicToPrivateKey (mnemonicWords privateKey) = (Error.ofCode .SUCCESS, some privateKey) := by
  have hwords : ∀ word ∈ mnemonicWords privateKey, toLowerWord word ∈ English := fun word h => by
    rw [toLowerWord_of_mem_English (mem_English_of_mem_mnemonicWords h)]
    exact mem_English_of_mem_mnemonicWords h
  have hblocks : chunks 3 8 (getWordIndexes (mnemonicWords privateKey)) =
      (chunks 4 8 privateKey.data.toList).map fun bytes => valIndexes (littleEndian bytes) := by
    have h := chunks_flatten_append 3 ((chunks 4 8 privateKey.data.toList).map fun bytes => valIndexes (littleEndian bytes))
      [English.idxOf (getChecksumWord (keyWords privateKey))] (by simp [valIndexes])
    rw [List.length_map, length_chunks] at h
    rw [← h, mnemonicWords, getWordIndexes, List.map_append, ← getWordIndexes, getWordIndexes_keyWords]
    rfl
  have hdata := mapM_decodeWordIndexes_keyWords privateKey
  rw [← hblocks] at hdata
  rw [mnemonicToPrivateKey_of_mapM (length_mnemonicWords privateKey) hwords
    (hasValidChecksum_append (keyWords privateKey)) hdata, flatten_chunks_key, ofFn_getD_toList]

theorem getD_idxOf_English {word : List Char} (h : word ∈ English) : English.getD (English.idxOf word) [] = word := by
  rw [List.getD_eq_getElem _ _ (List.idxOf_lt_length_iff.mpr h), List.getElem_idxOf]

theorem encodeVal_wordIndexesValue {block : List (List Char)} (hlen : block.length = 3)
    (hmem : ∀ word ∈ block, word ∈ English)
    (hcheck : wordIndexesValue (getWordIndexes block) % English.length = (getWordIndexes block).getD 0 0) :
    encodeVal (wordIndexesValue (getWordIndexes block)) = block := by
  obtain ⟨x1, x2, x3, rfl⟩ := List.length_eq_three.mp hlen
  have h1 := hmem x1 (by simp)
  have h2 := hmem x2 (by simp)
  have h3 := hmem x3 (by simp)
  simp only [getWordIndexes, List.map_cons, List.map_nil, List.getD_cons_zero] at hcheck ⊢
  rw [encodeVal, valIndexes_wordIndexesValue (List.idxOf_lt_length_iff.mpr h1) (List.idxOf_lt_length_iff.mpr h2)
    (List.idxOf_lt_length_iff.mpr h3) hcheck]
  simp only [List.map_cons, List.map_nil, getD_idxOf_English h1, getD_idxOf_English h2, getD_idxOf_English h3]

theorem mnemonicWords_of_mnemonicToPrivateKey {words : List (List Char)} {privateKey : SecretKey}
    (hwords : ∀ word ∈ words, word ∈ English)
    (h : mnemonicToPrivateKey words = (Error.ofCode .SUCCESS, some privateKey)) :
    mnemonicWords privateKey = words := by
  obtain ⟨hlen, -, hcheck, data, hdata, -, rfl⟩ := mnemonicToPrivateKey_eq_some h
  -- the seed is eight blocks of three words, then the checksum word
  obtain ⟨last, hsplit⟩ : ∃ last, words = (chunks 3 8 words).flatten ++ [last] := by
    have hrest := flatten_chunks_append_drop 3 8 words (by omega)
    obtain ⟨last, hlast⟩ := List.length_eq_one_iff.mp (show (words.drop (8 * 3)).length = 1 by simp [hlen])
    exact ⟨last, by rw [← hlast, hrest]⟩
  have hblockLen := length_of_mem_chunks 3 (n := 8) (l := words) (by omega)
  have hblockMem : ∀ block ∈ chunks 3 8 words, ∀ word ∈ block, word ∈ English := by
    intro block hblock word hword
    obtain ⟨i, -, rfl⟩ := List.mem_map.mp hblock
    exact hwords word (List.mem_of_mem_drop (List.mem_of_mem_take hword))
  -- every block passes the check, and the data are the bytes of the blocks' values
  rw [getWordIndexes, chunks_map] at hdata
  obtain ⟨hchecks, rfl⟩ := (mapM_guard_eq_some_iff
    (p := fun indexes => wordIndexesValue indexes % English.length = indexes.getD 0 0)
    (g := fun indexes => KVBinary.leBytes (wordIndexesValue indexes) 4)).mp hdata
  have hbytes : ∀ bytes ∈ ((chunks 3 8 words).map (List.map fun word => English.idxOf word)).map
      (fun indexes => KVBinary.leBytes (wordIndexesValue indexes) 4), bytes.length = 4 := by
    intro bytes hb
    obtain ⟨indexes, -, rfl⟩ := List.mem_map.mp hb
    exact KVBinary.length_leBytes _ _
  have hcount : (((chunks 3 8 words).map (List.map fun word => English.idxOf word)).map
      (fun indexes => KVBinary.leBytes (wordIndexesValue indexes) 4)).length = 8 := by simp
  have hkey := chunks_flatten_append 4 _ [] hbytes
  rw [hcount, List.append_nil] at hkey
  -- the words of each block come back from the bytes of its value
  have hwordsOf : ∀ block ∈ chunks 3 8 words,
      encodeVal (littleEndian (KVBinary.leBytes (wordIndexesValue (getWordIndexes block)) 4)) = block := by
    intro block hblock
    have hval : wordIndexesValue (getWordIndexes block) < 2 ^ 32 := Nat.mod_lt _ (by decide)
    rw [KVBinary.littleEndian_leBytes, show (256 : Nat) ^ 4 = 2 ^ 32 by decide, Nat.mod_eq_of_lt hval]
    exact encodeVal_wordIndexesValue (hblockLen block hblock) (hblockMem block hblock)
      (hchecks _ (List.mem_map_of_mem hblock))
  have hkeyWords : keyWords ⟨Vector.ofFn fun i => (((chunks 3 8 words).map (List.map fun word => English.idxOf word)).map
      (fun indexes => KVBinary.leBytes (wordIndexesValue indexes) 4)).flatten.getD i 0⟩ = (chunks 3 8 words).flatten := by
    rw [keyWords, toList_ofFn_getD (by rw [length_flatten_of_forall_length 4 hbytes, hcount]), hkey, List.flatMap_def,
      List.map_map, List.map_map]
    refine congrArg List.flatten ?_
    conv_rhs => rw [← List.map_id (chunks 3 8 words)]
    apply List.map_congr_left
    intro block hblock
    rw [Function.comp_apply, Function.comp_apply, id]
    exact hwordsOf block hblock
  have hlast : last = getChecksumWord (chunks 3 8 words).flatten := by
    rw [hsplit, hasValidChecksum, List.getLastD_concat, List.dropLast_concat, beq_iff_eq] at hcheck
    exact hcheck
  rw [mnemonicWords, hkeyWords, ← hlast]
  exact hsplit.symm

/-- `PrivateKeyToMnemonic` and `MnemonicToPrivateKey` are inverse: every key is read back from the
text of its seed, and a seed of words written as the list writes them that is accepted is the seed
of the key it gives. -/
theorem mnemonic_seed_bijection :
    (∀ privateKey : SecretKey,
      mnemonicToPrivateKeyOfString (privateKeyToMnemonic privateKey) = (Error.ofCode .SUCCESS, some privateKey)) ∧
    ∀ (words : List (List Char)) (privateKey : SecretKey), (∀ word ∈ words, word ∈ English) →
      mnemonicToPrivateKey words = (Error.ofCode .SUCCESS, some privateKey) →
        privateKeyToMnemonic privateKey = [' '].intercalate words := by
  refine ⟨fun privateKey => ?_, fun words privateKey hwords h => ?_⟩
  · rw [mnemonicToPrivateKeyOfString, readWords_privateKeyToMnemonic, mnemonicToPrivateKey_mnemonicWords]
  · rw [privateKeyToMnemonic, mnemonicWords_of_mnemonicToPrivateKey hwords h]

theorem mnemonic_seed_bijection_abbey :
    (∀ word ∈ List.replicate 25 ['a', 'b', 'b', 'e', 'y'], word ∈ WordList.English) ∧
      mnemonicToPrivateKey (List.replicate 25 ['a', 'b', 'b', 'e', 'y']) =
        (Error.ofCode .SUCCESS, some ⟨Vector.replicate 32 0⟩) ∧
      privateKeyToMnemonic ⟨Vector.replicate 32 0⟩ = [' '].intercalate (List.replicate 25 ['a', 'b', 'b', 'e', 'y']) := by
  have hwords : ∀ word ∈ List.replicate 25 ['a', 'b', 'b', 'e', 'y'], word ∈ WordList.English := by
    intro word hword
    rw [List.eq_of_mem_replicate hword]
    decide
  have hkey : mnemonicToPrivateKey (List.replicate 25 ['a', 'b', 'b', 'e', 'y']) =
      (Error.ofCode .SUCCESS, some ⟨Vector.replicate 32 0⟩) := by
    decide +kernel
  exact ⟨hwords, hkey, mnemonic_seed_bijection.2 _ _ hwords hkey⟩

/-- A word the list does not hold as written has the index 1626, and in the second place of a block
it reads as `abbey`: "abbey Abbey abbey ... abbey" passes the checks (its checksum index is 4) and
gives the key of zeros, whose seed is "abbey" 25 times. -/
theorem mnemonicToPrivateKey_accepts_capitalized_word :
    mnemonicToPrivateKey (['a', 'b', 'b', 'e', 'y'] :: ['A', 'b', 'b', 'e', 'y'] ::
        List.replicate 23 ['a', 'b', 'b', 'e', 'y']) = (Error.ofCode .SUCCESS, some ⟨Vector.replicate 32 0⟩) ∧
      privateKeyToMnemonic ⟨Vector.replicate 32 0⟩ ≠ [' '].intercalate (['a', 'b', 'b', 'e', 'y'] ::
        ['A', 'b', 'b', 'e', 'y'] :: List.replicate 23 ['a', 'b', 'b', 'e', 'y']) := by
  decide +kernel

theorem map_toLowerWord_keyWords (privateKey : SecretKey) :
    (keyWords privateKey).map toLowerWord = keyWords privateKey := by
  conv_rhs => rw [← List.map_id (keyWords privateKey)]
  exact List.map_congr_left fun word h => toLowerWord_of_mem_English (mem_English_of_mem_keyWords h)

/-- The membership test lower-cases each word, the checksum test does not: the seed of any key with
its checksum word written in other letter case is rejected, while the same seed lower-cased gives
the key. -/
theorem mnemonicToPrivateKey_checksum_word_case {privateKey : SecretKey} {checksumWord : List Char}
    (hlower : toLowerWord checksumWord = getChecksumWord (keyWords privateKey))
    (hcase : checksumWord ≠ getChecksumWord (keyWords privateKey)) :
    mnemonicToPrivateKey (keyWords privateKey ++ [checksumWord]) =
        (Error.ofCode .MNEMONIC_INVALID_CHECKSUM, none) ∧
      mnemonicToPrivateKey ((keyWords privateKey ++ [checksumWord]).map toLowerWord) =
        (Error.ofCode .SUCCESS, some privateKey) := by
  have hlowered : (keyWords privateKey ++ [checksumWord]).map toLowerWord = mnemonicWords privateKey := by
    rw [List.map_append, map_toLowerWord_keyWords, List.map_singleton, hlower, mnemonicWords]
  have hlen : (keyWords privateKey ++ [checksumWord]).length = 25 := by
    rw [List.length_append, length_keyWords, List.length_singleton]
  have hwords : ∀ word ∈ keyWords privateKey ++ [checksumWord], toLowerWord word ∈ English := by
    intro word hword
    have hmem : toLowerWord word ∈ mnemonicWords privateKey := hlowered ▸ List.mem_map_of_mem hword
    exact mem_English_of_mem_mnemonicWords hmem
  have hcheck : hasValidChecksum (keyWords privateKey ++ [checksumWord]) = false := by
    rw [hasValidChecksum, List.getLastD_concat, List.dropLast_concat, beq_eq_false_iff_ne]
    exact hcase
  exact ⟨mnemonicToPrivateKey_of_invalid_checksum hlen hwords hcheck,
    hlowered ▸ mnemonicToPrivateKey_mnemonicWords privateKey⟩

/-- The key of zeros, whose checksum word is `abbey`, with the checksum word written `Abbey`. -/
theorem mnemonicToPrivateKey_checksum_word_case_abbey :
    toLowerWord ['A', 'b', 'b', 'e', 'y'] = getChecksumWord (keyWords ⟨Vector.replicate 32 0⟩) ∧
      ['A', 'b', 'b', 'e', 'y'] ≠ getChecksumWord (keyWords ⟨Vector.replicate 32 0⟩) ∧
      mnemonicToPrivateKey (keyWords ⟨Vector.replicate 32 0⟩ ++ [['A', 'b', 'b', 'e', 'y']]) =
        (Error.ofCode .MNEMONIC_INVALID_CHECKSUM, none) ∧
      mnemonicToPrivateKey ((keyWords ⟨Vector.replicate 32 0⟩ ++ [['A', 'b', 'b', 'e', 'y']]).map toLowerWord) =
        (Error.ofCode .SUCCESS, some ⟨Vector.replicate 32 0⟩) :=
  have hlower : toLowerWord ['A', 'b', 'b', 'e', 'y'] = getChecksumWord (keyWords ⟨Vector.replicate 32 0⟩) := by
    decide +kernel
  have hcase : ['A', 'b', 'b', 'e', 'y'] ≠ getChecksumWord (keyWords ⟨Vector.replicate 32 0⟩) := by
    decide +kernel
  ⟨hlower, hcase, mnemonicToPrivateKey_checksum_word_case hlower hcase⟩

end Seeds

end Mnemonics

end Crygcoin
