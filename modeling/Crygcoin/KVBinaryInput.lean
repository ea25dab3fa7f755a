import Crygcoin.CheckDifficulty

namespace Crygcoin

namespace KVBinary

/-! The binary portable-storage parser of `KVBinaryInputStreamSerializer.cpp`, which
`LevinProtocol::decode` runs over every P2P payload. The four loaders `loadSection`, `loadEntry`,
`loadArray` and `loadValue` call each other on element types read from the input, and every count
and size is a varint of up to 62 bits.

Each loader takes the number of loader frames already on the stack and records the most there have
been, and `readString` and `readName` record the sizes `std::string::resize` is asked for before the
bytes are read. An exception keeps what was recorded up to it. Every loader reads at least one byte
before it calls another on the same input, so what is left after a read is a `Rest` of the input,
shorter than it, and the loaders terminate by the length of the input. -/

def PORTABLE_STORAGE_SIGNATUREA : UInt32 := 0x01011101

def PORTABLE_STORAGE_SIGNATUREB : UInt32 := 0x01020101

def PORTABLE_STORAGE_FORMAT_VER : UInt8 := 1

def PORTABLE_RAW_SIZE_MARK_MASK : UInt8 := 0x03

def PORTABLE_RAW_SIZE_MARK_BYTE : UInt8 := 0

def PORTABLE_RAW_SIZE_MARK_WORD : UInt8 := 1

def PORTABLE_RAW_SIZE_MARK_DWORD : UInt8 := 2

def PORTABLE_RAW_SIZE_MARK_INT64 : UInt8 := 3

def BIN_KV_SERIALIZE_FLAG_ARRAY : UInt8 := 0x80

/-- The element types of `KVBinaryCommon.h`. -/
inductive SerializeType
  | int64 | int32 | int16 | int8 | uint64 | uint32 | uint16 | uint8 | double | string | bool | object | array
deriving DecidableEq, Repr

/-- `BIN_KV_SERIALIZE_TYPE_INT64 = 1` to `BIN_KV_SERIALIZE_TYPE_ARRAY = 13`. -/
def SerializeType.code : SerializeType → UInt8
  | .int64 => 1
  | .int32 => 2
  | .int16 => 3
  | .int8 => 4
  | .uint64 => 5
  | .uint32 => 6
  | .uint16 => 7
  | .uint8 => 8
  | .double => 9
  | .string => 10
  | .bool => 11
  | .object => 12
  | .array => 13

/-- The case of the `switch` of `loadValue` that a type byte selects, if any. -/
def SerializeType.ofByte (type : UInt8) : Option SerializeType :=
  [.int64, .int32, .int16, .int8, .uint64, .uint32, .uint16, .uint8, .double, .string, .bool, .object,
    .array].find? fun t => t.code == type

/-- The `JsonValue` the parser builds: integers of every width as `int64_t`, a double by its bits,
an object by its members in the order they were inserted. -/
inductive JsonValue
  | integer (value : Int)
  | real (bits : UInt64)
  | bool (value : Bool)
  | string (value : List UInt8)
  | array (items : List JsonValue)
  | object (members : List (List UInt8 × JsonValue))

/-- `JsonValue::insert`, an `emplace` into the `std::map` of members: a name already there keeps
its value. -/
def insertMember (members : List (List UInt8 × JsonValue)) (name : List UInt8) (value : JsonValue) :
    List (List UInt8 × JsonValue) :=
  if members.any (·.1 == name) then members else members ++ [(name, value)]

/-- What parsing has used besides the input: the most loader frames on the stack at once, and the
bytes `std::string::resize` was asked for. -/
structure Usage where
  frames : Nat
  reserved : Nat
deriving DecidableEq, Repr

/-- A loader called with `depth` frames below it. -/
def Usage.enter (usage : Usage) (depth : Nat) : Usage :=
  { usage with frames := max usage.frames (depth + 1) }

def Usage.reserve (usage : Usage) (size : Nat) : Usage :=
  { usage with reserved := usage.reserved + size }

@[simp] theorem Usage.enter_frames (usage : Usage) (depth : Nat) :
    (usage.enter depth).frames = max usage.frames (depth + 1) := rfl

@[simp] theorem Usage.enter_reserved (usage : Usage) (depth : Nat) :
    (usage.enter depth).reserved = usage.reserved := rfl

@[simp] theorem Usage.reserve_frames (usage : Usage) (size : Nat) :
    (usage.reserve size).frames = usage.frames := rfl

@[simp] theorem Usage.reserve_reserved (usage : Usage) (size : Nat) :
    (usage.reserve size).reserved = usage.reserved + size := rfl

/-- What is left of `input` after a read that took at least one byte. -/
structure Rest (input : List UInt8) where
  bytes : List UInt8
  shorter : bytes.length < input.length

/-- What is left after a read from what was left of `input`. -/
def Rest.trans {input : List UInt8} (rest : Rest input) (after : Rest rest.bytes) : Rest input :=
  ⟨after.bytes, Nat.lt_trans after.shorter rest.shorter⟩

@[simp] theorem Rest.trans_bytes {input : List UInt8} (rest : Rest input) (after : Rest rest.bytes) :
    (rest.trans after).bytes = after.bytes := rfl

def failedToRead : String := "Failed to read from IInputStream"

/-- `read<uint8_t>`: one byte. -/
def readByte : (input : List UInt8) → Except String (UInt8 × Rest input)
  | [] => throw failedToRead
  | byte :: rest => pure (byte, ⟨rest, Nat.lt_succ_self _⟩)

/-- `readPod<T>`: the `size` bytes of a `T`, or an exception if fewer are left. -/
def readPod (input : List UInt8) (size : Nat) (hsize : 0 < size) : Except String (List UInt8 × Rest input) :=
  if h : size ≤ input.length then
    pure (input.take size, ⟨input.drop size, by rw [List.length_drop]; omega⟩)
  else throw failedToRead

/-- `Common::read(s, data, size)` from what is left of `input`: `size` bytes, or an exception if
fewer are left. Reading 0 bytes reads nothing, as the `if (size)` around the calls does. -/
def Rest.read {input : List UInt8} (rest : Rest input) (size : Nat) : Except String (List UInt8 × Rest input) :=
  if size ≤ rest.bytes.length then
    pure (rest.bytes.take size, ⟨rest.bytes.drop size, by have := rest.shorter; rw [List.length_drop]; omega⟩)
  else throw failedToRead

/-- The loop `value |= n << (i * 8)` of `readVarint`, over the bytes after the first from `i` on. -/
def orBytes (value : UInt64) (i : Nat) : List UInt8 → UInt64
  | [] => value
  | n :: more => orBytes (value ||| n.toUInt64 <<< (i * 8).toUInt64) (i + 1) more

/-- The `switch (size_mask)` of `readVarint`: how many bytes follow the first. -/
def bytesLeft (sizeMask : UInt8) : Nat :=
  if sizeMask = PORTABLE_RAW_SIZE_MARK_BYTE then 0
  else if sizeMask = PORTABLE_RAW_SIZE_MARK_WORD then 1
  else if sizeMask = PORTABLE_RAW_SIZE_MARK_DWORD then 3
  else if sizeMask = PORTABLE_RAW_SIZE_MARK_INT64 then 7
  else 0

/-- `readVarint`: the low two bits of the first byte say how many bytes follow (0, 1, 3 or 7); the
bytes are read little-endian and the two bits shifted out. -/
def readVarint (input : List UInt8) : Except String (UInt64 × Rest input) := do
  let (b, rest) ← readByte input
  let (more, rest) ← rest.read (bytesLeft (b &&& PORTABLE_RAW_SIZE_MARK_MASK))
  return (orBytes b.toUInt64 1 more >>> 2, rest)

/-- The `size` bytes of `v` in memory, least significant first. -/
def leBytes (v : Nat) : Nat → List UInt8
  | 0 => []
  | size + 1 => UInt8.ofNat v :: leBytes (v / 256) size

/-- `packVarint<T>` of `KVBinaryOutputStreamSerializer.cpp`: `pv << 2` cast to the `width` bytes
of a `T`, with the size mark in the low two bits. -/
def packVarint (width : Nat) (typeOr : UInt8) (pv : UInt64) : List UInt8 :=
  leBytes ((pv <<< 2).toNat % 2 ^ (8 * width) ||| typeOr.toNat) width

/-- `writeArraySize` of `KVBinaryOutputStreamSerializer.cpp`: 1, 2, 4 or 8 bytes, the fewest that
hold the value; a value above `2^62 - 1` throws. -/
def writeArraySize (val : UInt64) : Except String (List UInt8) :=
  if val ≤ 63 then pure (packVarint 1 PORTABLE_RAW_SIZE_MARK_BYTE val)
  else if val ≤ 16383 then pure (packVarint 2 PORTABLE_RAW_SIZE_MARK_WORD val)
  else if val ≤ 1073741823 then pure (packVarint 4 PORTABLE_RAW_SIZE_MARK_DWORD val)
  else if val > 4611686018427387903 then throw "failed to pack varint - too big amount"
  else pure (packVarint 8 PORTABLE_RAW_SIZE_MARK_INT64 val)

/-- What a loader gives back: the value and what is left of its input, or the exception it threw,
with the usage up to its end. -/
structure Loaded (input : List UInt8) (α : Type) where
  result : Except String (α × Rest input)
  usage : Usage

/-- The value and the bytes left, without the proof that they are fewer. -/
def Loaded.outcome {input : List UInt8} {α : Type} (loaded : Loaded input α) : Except String (α × List UInt8) :=
  loaded.result.map fun (value, rest) => (value, rest.bytes)

/-- A load from what was left of `input`, seen from `input`. -/
def Loaded.lift {input : List UInt8} {α : Type} (rest : Rest input) (loaded : Loaded rest.bytes α) :
    Loaded input α :=
  ⟨loaded.result.map fun (value, after) => (value, rest.trans after), loaded.usage⟩

/-- `readString`: the size, then `str.resize(size)`, which reserves the bytes before `read` finds
out whether they are there. -/
def readString (input : List UInt8) (usage : Usage) : Loaded input (List UInt8) :=
  match readVarint input with
  | .error e => ⟨.error e, usage⟩
  | .ok (size, rest) => ⟨rest.read size.toNat, usage.reserve size.toNat⟩

/-- `readName`: a length byte, then that many bytes into `name`; a length of 0 leaves `name` as the
previous entry of the section left it. -/
def readName (input : List UInt8) (name : List UInt8) (usage : Usage) : Loaded input (List UInt8) :=
  match readByte input with
  | .error e => ⟨.error e, usage⟩
  | .ok (len, rest) =>
    if len ≠ 0 then ⟨rest.read len.toNat, usage.reserve len.toNat⟩ else ⟨.ok (name, rest), usage⟩

/-- The `int64_t` that `readIntegerJson<T>` makes of the bytes of a `T`: signed types in two's
complement, and a `uint64_t` above `INT64_MAX` wraps. -/
def podInteger (bytes : List UInt8) (signed : Bool) : Int :=
  let value := littleEndian bytes
  if (signed || bytes.length = 8) && 2 ^ (8 * bytes.length - 1) ≤ value then value - 2 ^ (8 * bytes.length)
  else value

/-- `readIntegerJson<T>` for a `T` of `size` bytes. -/
def readInteger (input : List UInt8) (size : Nat) (hsize : 0 < size) (signed : Bool) :
    Except String (JsonValue × Rest input) :=
  (readPod input size hsize).map fun (bytes, rest) => (.integer (podInteger bytes signed), rest)

mutual

/-- `loadSection`: a count, then that many entries, each a name and a value. -/
def loadSection (input : List UInt8) (depth : Nat) (usage : Usage) : Loaded input JsonValue :=
  let usage := usage.enter depth
  match readVarint input with
  | .error e => ⟨.error e, usage⟩
  | .ok (count, rest) =>
    have := rest.shorter
    loadSectionLoop input rest.bytes rest.shorter (depth + 1) count.toNat [] [] usage
termination_by (input.length, 0)

/-- The loop `while (count--)` of `loadSection`, from `rest` on; `name` is the buffer the previous
entry's name was read into. -/
def loadSectionLoop (input rest : List UInt8) (hrest : rest.length < input.length) (depth count : Nat)
    (name : List UInt8) (members : List (List UInt8 × JsonValue)) (usage : Usage) : Loaded input JsonValue :=
  match count with
  | 0 => ⟨.ok (.object members, ⟨rest, hrest⟩), usage⟩
  | count + 1 =>
    let named := readName rest name usage
    match named.result with
    | .error e => ⟨.error e, named.usage⟩
    | .ok (name, afterName) =>
      have := afterName.shorter
      let entry := loadEntry afterName.bytes depth named.usage
      match entry.result with
      | .error e => ⟨.error e, entry.usage⟩
      | .ok (value, afterEntry) =>
        have := afterEntry.shorter
        loadSectionLoop input afterEntry.bytes (by omega) depth count name (insertMember members name value)
          entry.usage
termination_by (rest.length, 2)

/-- `loadEntry`: a type byte; with `BIN_KV_SERIALIZE_FLAG_ARRAY` an array of that type, otherwise
one value. -/
def loadEntry (input : List UInt8) (depth : Nat) (usage : Usage) : Loaded input JsonValue :=
  let usage := usage.enter depth
  match readByte input with
  | .error e => ⟨.error e, usage⟩
  | .ok (type, rest) =>
    have := rest.shorter
    if type &&& BIN_KV_SERIALIZE_FLAG_ARRAY ≠ 0 then
      Loaded.lift rest (loadArray rest.bytes (type &&& ~~~BIN_KV_SERIALIZE_FLAG_ARRAY) (depth + 1) usage)
    else Loaded.lift rest (loadValue rest.bytes type (depth + 1) usage)
termination_by (input.length, 0)

/-- `loadArray`: a count, then that many values of `itemType`. -/
def loadArray (input : List UInt8) (itemType : UInt8) (depth : Nat) (usage : Usage) : Loaded input JsonValue :=
  let usage := usage.enter depth
  match readVarint input with
  | .error e => ⟨.error e, usage⟩
  | .ok (count, rest) =>
    have := rest.shorter
    loadArrayLoop input rest.bytes rest.shorter itemType (depth + 1) count.toNat [] usage
termination_by (input.length, 0)

/-- The loop `while (count--)` of `loadArray`, from `rest` on. -/
def loadArrayLoop (input rest : List UInt8) (hrest : rest.length < input.length) (itemType : UInt8)
    (depth count : Nat) (items : List JsonValue) (usage : Usage) : Loaded input JsonValue :=
  match count with
  | 0 => ⟨.ok (.array items, ⟨rest, hrest⟩), usage⟩
  | count + 1 =>
    let loaded := loadValue rest itemType depth usage
    match loaded.result with
    | .error e => ⟨.error e, loaded.usage⟩
    | .ok (value, after) =>
      have := after.shorter
      loadArrayLoop input after.bytes (by omega) itemType depth count (items ++ [value]) loaded.usage
termination_by (rest.length, 2)

/-- `loadValue`: one value of the type the byte names. An array item of type
`BIN_KV_SERIALIZE_TYPE_ARRAY` is itself an array of that type. -/
def loadValue (input : List UInt8) (type : UInt8) (depth : Nat) (usage : Usage) : Loaded input JsonValue :=
  let usage := usage.enter depth
  match SerializeType.ofByte type with
  | some .int64 => ⟨readInteger input 8 (by decide) true, usage⟩
  | some .int32 => ⟨readInteger input 4 (by decide) true, usage⟩
  | some .int16 => ⟨readInteger input 2 (by decide) true, usage⟩
  | some .int8 => ⟨readInteger input 1 (by decide) true, usage⟩
  | some .uint64 => ⟨readInteger input 8 (by decide) false, usage⟩
  | some .uint32 => ⟨readInteger input 4 (by decide) false, usage⟩
  | some .uint16 => ⟨readInteger input 2 (by decide) false, usage⟩
  | some .uint8 => ⟨readInteger input 1 (by decide) false, usage⟩
  | some .double =>
    ⟨(readPod input 8 (by decide)).map fun (bytes, rest) => (.real (UInt64.ofNat (littleEndian bytes)), rest), usage⟩
  | some .bool => ⟨(readByte input).map fun (b, rest) => (.bool (b != 0), rest), usage⟩
  | some .string =>
    let loaded := readString input usage
    ⟨loaded.result.map fun (str, rest) => (.string str, rest), loaded.usage⟩
  | some .object => loadSection input (depth + 1) usage
  | some .array => loadArray input type (depth + 1) usage
  | none => ⟨throw "Unknown data type", usage⟩
termination_by (input.length, 1)

end

/-- `parseBinary`: the 9 bytes of `KVBinaryStorageBlockHeader` (two signatures and a version), then
the root section. -/
def parseBinary (input : List UInt8) : Loaded input JsonValue :=
  match readPod input 9 (by decide) with
  | .error e => ⟨.error e, ⟨0, 0⟩⟩
  | .ok (header, rest) =>
    if UInt32.ofNat (littleEndian (header.take 4)) ≠ PORTABLE_STORAGE_SIGNATUREA ∨
        UInt32.ofNat (littleEndian ((header.drop 4).take 4)) ≠ PORTABLE_STORAGE_SIGNATUREB then
      ⟨.error "Invalid binary storage signature", ⟨0, 0⟩⟩
    else if header.getD 8 0 ≠ PORTABLE_STORAGE_FORMAT_VER then
      ⟨.error "Unknown binary storage format version", ⟨0, 0⟩⟩
    else Loaded.lift rest (loadSection rest.bytes 0 ⟨0, 0⟩)

/-- The 9 bytes of `KVBinaryStorageBlockHeader` that `KVBinaryOutputStreamSerializer::dump` writes:
the two signatures, then the version. -/
def storageBlockHeader : List UInt8 :=
  leBytes PORTABLE_STORAGE_SIGNATUREA.toNat 4 ++ leBytes PORTABLE_STORAGE_SIGNATUREB.toNat 4 ++
    [PORTABLE_STORAGE_FORMAT_VER]

theorem Usage.enter_enter {usage : Usage} {depth depth' : Nat} (h : depth ≤ depth') :
    (usage.enter depth).enter depth' = usage.enter depth' := by
  cases usage
  simp only [Usage.enter, Usage.mk.injEq, and_true]
  omega

theorem Loaded.outcome_eq_ok {input : List UInt8} {α : Type} {loaded : Loaded input α} {value : α}
    {rest : List UInt8} : loaded.outcome = .ok (value, rest) ↔ ∃ h, loaded.result = .ok (value, ⟨rest, h⟩) := by
  rw [Loaded.outcome]
  rcases loaded.result with e | ⟨v, ⟨r, h⟩⟩
  · simp [Except.map]
  · simp only [Except.map, Except.ok.injEq, Prod.mk.injEq, Rest.mk.injEq]
    constructor
    · rintro ⟨rfl, rfl⟩
      exact ⟨h, rfl, rfl⟩
    · rintro ⟨-, rfl, rfl⟩
      exact ⟨rfl, rfl⟩

theorem readVarint_cons_of_mark_byte {b : UInt8} {rest : List UInt8} (hb : b &&& PORTABLE_RAW_SIZE_MARK_MASK = 0) :
    readVarint (b :: rest) = .ok (b.toUInt64 >>> 2, ⟨rest, Nat.lt_succ_self _⟩) := by
  simp only [readVarint, readByte, bind, Except.bind, pure, Except.pure, hb, bytesLeft, PORTABLE_RAW_SIZE_MARK_BYTE,
    if_true, Rest.read, Nat.zero_le, List.take_zero, List.drop_zero, orBytes]

theorem littleEndian_leBytes (v size : Nat) : littleEndian (leBytes v size) = v % 256 ^ size := by
  induction size generalizing v with
  | zero => simp [leBytes, littleEndian, Nat.mod_one]
  | succ size ih =>
    rw [leBytes, littleEndian, ih, UInt8.toNat_ofNat', pow_succ' 256 size, Nat.mod_mul]

theorem length_leBytes (v size : Nat) : (leBytes v size).length = size := by
  induction size generalizing v with
  | zero => rfl
  | succ size ih => rw [leBytes, List.length_cons, ih]

theorem leBytes_littleEndian (bytes : List UInt8) : leBytes (littleEndian bytes) bytes.length = bytes := by
  induction bytes with
  | nil => rfl
  | cons byte bytes ih =>
    have hbyte := byte.toNat_lt
    have hlow : UInt8.ofNat (byte.toNat + 256 * littleEndian bytes) = byte := by
      apply UInt8.toNat_inj.mp
      rw [UInt8.toNat_ofNat']
      omega
    have hhigh : (byte.toNat + 256 * littleEndian bytes) / 256 = littleEndian bytes := by omega
    rw [littleEndian, List.length_cons, leBytes, hlow, hhigh, ih]

theorem orBytes_toNat (more : List UInt8) : ∀ (value : UInt64) (i : Nat), value.toNat < 2 ^ (8 * i) →
    i + more.length ≤ 8 → (orBytes value i more).toNat = value.toNat + 2 ^ (8 * i) * littleEndian more := by
  induction more with
  | nil =>
    intro value i _ _
    simp [orBytes, littleEndian]
  | cons n more ih =>
    intro value i hvalue hlength
    rw [List.length_cons] at hlength
    have hn : n.toNat < 256 := n.toNat_lt
    have hpow : 2 ^ (8 * i) * 256 = 2 ^ (8 * (i + 1)) := by
      rw [show 8 * (i + 1) = 8 * i + 8 by ring, pow_add]
      rfl
    have hroom : 2 ^ (8 * (i + 1)) ≤ 2 ^ 64 := Nat.pow_le_pow_right (by decide) (by omega)
    have hbyte : 2 ^ (8 * i) * n.toNat ≤ 2 ^ (8 * i) * 255 := Nat.mul_le_mul_left _ (by omega)
    -- the byte shifted by `8 * i` stays within 64 bits
    have hshift : (n.toUInt64 <<< (i * 8).toUInt64).toNat = 2 ^ (8 * i) * n.toNat := by
      have hamount : (i * 8).toUInt64.toNat % 64 = 8 * i := by
        rw [Nat.toUInt64_eq, UInt64.toNat_ofNat', Nat.mod_eq_of_lt (by omega), Nat.mod_eq_of_lt (by omega)]
        omega
      rw [UInt64.toNat_shiftLeft, UInt8.toNat_toUInt64, hamount, Nat.shiftLeft_eq, Nat.mul_comm,
        Nat.mod_eq_of_lt (by omega)]
    have hnext : (value ||| n.toUInt64 <<< (i * 8).toUInt64).toNat = value.toNat + 2 ^ (8 * i) * n.toNat := by
      have hor := or_shift_eq_add (x := n.toNat) hvalue
      rw [Nat.shiftLeft_eq, Nat.mul_comm] at hor
      rw [UInt64.toNat_or, hshift, hor]
    rw [orBytes, ih _ (i + 1) (by omega) (by omega), hnext, littleEndian, ← hpow]
    ring

theorem readVarint_leBytes {v n : Nat} (rest : List UInt8) (hv : v < 2 ^ (8 * (n + 1))) (hn : n ≤ 7)
    (hleft : bytesLeft (UInt8.ofNat v &&& PORTABLE_RAW_SIZE_MARK_MASK) = n) :
    ∃ h, readVarint (leBytes v (n + 1) ++ rest) = .ok (UInt64.ofNat v >>> 2, ⟨rest, h⟩) := by
  have hmore := length_leBytes (v / 256) n
  have h64 : v < 2 ^ 64 := Nat.lt_of_lt_of_le hv (Nat.pow_le_pow_right (by decide) (by omega))
  -- the first byte and the `n` after it make up the value
  have hvalue : orBytes (UInt8.ofNat v).toUInt64 1 (leBytes (v / 256) n) = UInt64.ofNat v := by
    have hfirst : (UInt8.ofNat v).toUInt64.toNat < 2 ^ (8 * 1) := by
      rw [UInt8.toNat_toUInt64]
      exact UInt8.toNat_lt _
    apply UInt64.toNat_inj.mp
    rw [orBytes_toNat _ _ 1 hfirst (by omega), littleEndian_leBytes, UInt8.toNat_toUInt64, UInt8.toNat_ofNat',
      UInt64.toNat_ofNat', Nat.mod_eq_of_lt h64]
    have hsplit : v % (256 * 256 ^ n) = v % 256 + 256 * (v / 256 % 256 ^ n) := Nat.mod_mul
    rw [← pow_succ', Nat.mod_eq_of_lt (by rw [show 256 ^ (n + 1) = 2 ^ (8 * (n + 1)) by rw [pow_mul]; rfl]; exact hv)]
      at hsplit
    rw [show 2 ^ (8 * 1) = 256 from rfl]
    exact hsplit.symm
  rw [show leBytes v (n + 1) ++ rest = UInt8.ofNat v :: (leBytes (v / 256) n ++ rest) from rfl]
  refine ⟨by rw [List.length_cons, List.length_append, hmore]; omega, ?_⟩
  simp only [readVarint, readByte, bind, Except.bind, pure, Except.pure, hleft, Rest.read]
  rw [if_pos (by simp [hmore])]
  simp only [List.take_left' hmore, List.drop_left' hmore, hvalue]

theorem readVarint_packVarint {width : Nat} {mark : UInt8} {pv : UInt64} (rest : List UInt8)
    (hmark : (width, mark) ∈ [(1, PORTABLE_RAW_SIZE_MARK_BYTE), (2, PORTABLE_RAW_SIZE_MARK_WORD),
      (4, PORTABLE_RAW_SIZE_MARK_DWORD), (8, PORTABLE_RAW_SIZE_MARK_INT64)])
    (hpv : pv.toNat * 4 < 2 ^ (8 * width)) :
    ∃ h, readVarint (packVarint width mark pv ++ rest) = .ok (pv, ⟨rest, h⟩) := by
  have hcase : mark.toNat < 4 ∧ 0 < width ∧ width ≤ 8 ∧ bytesLeft mark = width - 1 := by
    simp only [List.mem_cons, Prod.mk.injEq, List.not_mem_nil, or_false] at hmark
    rcases hmark with ⟨rfl, rfl⟩ | ⟨rfl, rfl⟩ | ⟨rfl, rfl⟩ | ⟨rfl, rfl⟩ <;> decide
  obtain ⟨hsmall, hpos, hwidth, hleft⟩ := hcase
  have h64 : 2 ^ (8 * width) ≤ 2 ^ 64 := Nat.pow_le_pow_right (by decide) (by omega)
  have hquarter : 2 ^ (8 * width) = 4 * 2 ^ (8 * width - 2) := by
    rw [show (4 : Nat) = 2 ^ 2 from rfl, ← pow_add]
    congr 1
    omega
  -- the value written: `pv` shifted past the mark
  have hshift : (pv <<< 2).toNat % 2 ^ (8 * width) = pv.toNat * 4 := by
    have hfour : pv.toNat * 4 < 2 ^ 64 := by omega
    rw [UInt64.toNat_shiftLeft, show (2 : UInt64).toNat % 64 = 2 from rfl, Nat.shiftLeft_eq,
      show pv.toNat * 2 ^ 2 = pv.toNat * 4 from rfl, Nat.mod_eq_of_lt hfour, Nat.mod_eq_of_lt hpv]
  have hv : (pv <<< 2).toNat % 2 ^ (8 * width) ||| mark.toNat = mark.toNat + 4 * pv.toNat := by
    rw [hshift, Nat.lor_comm, show pv.toNat * 4 = pv.toNat <<< 2 by rw [Nat.shiftLeft_eq]]
    exact or_shift_eq_add hsmall
  have hmask : UInt8.ofNat (mark.toNat + 4 * pv.toNat) &&& PORTABLE_RAW_SIZE_MARK_MASK = mark := by
    apply UInt8.toNat_inj.mp
    rw [UInt8.toNat_and, UInt8.toNat_ofNat', show PORTABLE_RAW_SIZE_MARK_MASK.toNat = 2 ^ 2 - 1 from rfl,
      Nat.and_two_pow_sub_one_eq_mod]
    omega
  obtain ⟨n, rfl⟩ : ∃ n, width = n + 1 := ⟨width - 1, by omega⟩
  have hread : UInt64.ofNat (mark.toNat + 4 * pv.toNat) >>> 2 = pv := by
    apply UInt64.toNat_inj.mp
    rw [UInt64.toNat_shiftRight, UInt64.toNat_ofNat', Nat.mod_eq_of_lt (by omega),
      show (2 : UInt64).toNat % 64 = 2 from rfl, Nat.shiftRight_eq_div_pow]
    omega
  obtain ⟨h, hvarint⟩ := readVarint_leBytes rest (v := mark.toNat + 4 * pv.toNat) (n := n) (by omega) (by omega)
    (by rw [hmask, hleft]; rfl)
  rw [hread] at hvarint
  rw [packVarint, hv]
  exact ⟨h, hvarint⟩

theorem readVarint_writeArraySize {val : UInt64} {bytes : List UInt8} (hwrite : writeArraySize val = .ok bytes)
    (rest : List UInt8) : ∃ h, readVarint (bytes ++ rest) = .ok (val, ⟨rest, h⟩) := by
  have hval := val.toNat_lt
  unfold writeArraySize at hwrite
  split_ifs at hwrite with h1 h2 h3 h4 <;> cases hwrite
  · exact readVarint_packVarint rest (by decide) (by rw [UInt64.le_iff_toNat_le] at h1; simp at h1 ⊢; omega)
  · exact readVarint_packVarint rest (by decide) (by rw [UInt64.le_iff_toNat_le] at h2; simp at h2 ⊢; omega)
  · exact readVarint_packVarint rest (by decide) (by rw [UInt64.le_iff_toNat_le] at h3; simp at h3 ⊢; omega)
  · exact readVarint_packVarint rest (by decide)
      (by rw [UInt64.not_lt, UInt64.le_iff_toNat_le] at h4; simp at h4 ⊢; omega)

theorem loadValue_array {input : List UInt8} {depth : Nat} {usage : Usage} :
    loadValue input 13 depth usage = loadArray input 13 (depth + 1) (usage.enter depth) := by
  rw [loadValue, show SerializeType.ofByte 13 = some .array from rfl]

@[simp] theorem Loaded.lift_outcome {input : List UInt8} {α : Type} (rest : Rest input) (loaded : Loaded rest.bytes α) :
    (Loaded.lift rest loaded).outcome = loaded.outcome := by
  rw [Loaded.lift, Loaded.outcome, Loaded.outcome]
  rcases loaded.result with e | ⟨value, after⟩ <;> rfl

@[simp] theorem Loaded.lift_usage {input : List UInt8} {α : Type} (rest : Rest input) (loaded : Loaded rest.bytes α) :
    (Loaded.lift rest loaded).usage = loaded.usage := rfl

theorem parseBinary_storageBlockHeader (rest : List UInt8) :
    (parseBinary (storageBlockHeader ++ rest)).outcome = (loadSection rest 0 ⟨0, 0⟩).outcome ∧
      (parseBinary (storageBlockHeader ++ rest)).usage = (loadSection rest 0 ⟨0, 0⟩).usage := by
  have hlength : storageBlockHeader.length = 9 := rfl
  have hsignature : ¬(UInt32.ofNat (littleEndian (storageBlockHeader.take 4)) ≠ PORTABLE_STORAGE_SIGNATUREA ∨
      UInt32.ofNat (littleEndian ((storageBlockHeader.drop 4).take 4)) ≠ PORTABLE_STORAGE_SIGNATUREB) := by
    decide
  have hversion : ¬storageBlockHeader.getD 8 0 ≠ PORTABLE_STORAGE_FORMAT_VER := by decide
  rw [parseBinary]
  simp only [readPod, dif_pos (show 9 ≤ (storageBlockHeader ++ rest).length by simp [hlength]),
    List.take_left' hlength, List.drop_left' hlength, pure, Except.pure, if_neg hsignature, if_neg hversion]
  exact ⟨Loaded.lift_outcome _ _, rfl⟩

theorem readName_zero {rest name : List UInt8} {usage : Usage} :
    readName (0 :: rest) name usage = ⟨.ok (name, ⟨rest, Nat.lt_succ_self _⟩), usage⟩ := by
  simp only [readName, readByte, pure, Except.pure, ne_eq, not_true_eq_false, if_false]

theorem loadSection_single {rest : List UInt8} {depth : Nat} {usage : Usage} :
    (loadSection (4 :: 0 :: rest) depth usage).outcome =
        (loadEntry rest (depth + 1) (usage.enter depth)).outcome.map
          (fun (value, after) => (JsonValue.object [([], value)], after)) ∧
      (loadSection (4 :: 0 :: rest) depth usage).usage = (loadEntry rest (depth + 1) (usage.enter depth)).usage := by
  rw [loadSection, readVarint_cons_of_mark_byte (by decide)]
  dsimp only
  rw [show ((4 : UInt8).toUInt64 >>> 2).toNat = 1 from rfl, loadSectionLoop, readName_zero]
  dsimp only
  rw [Loaded.outcome, Loaded.outcome]
  rcases (loadEntry rest (depth + 1) (usage.enter depth)).result with e | ⟨value, after⟩
  · exact ⟨rfl, rfl⟩
  · dsimp only
    rw [loadSectionLoop]
    exact ⟨rfl, rfl⟩

theorem loadEntry_value {type : UInt8} {rest : List UInt8} {depth : Nat} {usage : Usage}
    (htype : type &&& BIN_KV_SERIALIZE_FLAG_ARRAY = 0) :
    (loadEntry (type :: rest) depth usage).outcome = (loadValue rest type (depth + 1) (usage.enter depth)).outcome ∧
      (loadEntry (type :: rest) depth usage).usage = (loadValue rest type (depth + 1) (usage.enter depth)).usage := by
  rw [loadEntry]
  simp only [readByte, pure, Except.pure, htype, ne_eq, not_true_eq_false, if_false]
  exact ⟨Loaded.lift_outcome _ _, rfl⟩

theorem loadValue_string {input : List UInt8} {depth : Nat} {usage : Usage} :
    (loadValue input 10 depth usage).outcome =
        (readString input (usage.enter depth)).outcome.map (fun (str, rest) => (.string str, rest)) ∧
      (loadValue input 10 depth usage).usage = (readString input (usage.enter depth)).usage := by
  rw [loadValue, show SerializeType.ofByte 10 = some .string from rfl]
  dsimp only
  rw [Loaded.outcome, Loaded.outcome]
  rcases (readString input (usage.enter depth)).result with e | ⟨str, rest⟩ <;> exact ⟨rfl, rfl⟩

theorem writeArraySize_length {val : UInt64} {bytes : List UInt8} (hwrite : writeArraySize val = .ok bytes) :
    bytes.length ≤ 8 := by
  unfold writeArraySize at hwrite
  split_ifs at hwrite <;> cases hwrite <;> simp [packVarint, length_leBytes]

theorem readString_writeArraySize {size : UInt64} {bytes : List UInt8} (hwrite : writeArraySize size = .ok bytes)
    (rest : List UInt8) (usage : Usage) :
    (readString (bytes ++ rest) usage).outcome =
        (if size.toNat ≤ rest.length then .ok (rest.take size.toNat, rest.drop size.toNat) else .error failedToRead) ∧
      (readString (bytes ++ rest) usage).usage = usage.reserve size.toNat := by
  obtain ⟨h, hread⟩ := readVarint_writeArraySize hwrite rest
  rw [readString, hread]
  dsimp only
  refine ⟨?_, rfl⟩
  rw [Loaded.outcome, Rest.read]
  split <;> rfl

def nestedArray : Nat → JsonValue
  | 0 => .array []
  | k + 1 => .array [nestedArray k]

theorem loadArray_nested (k : Nat) : ∀ (depth : Nat) (usage : Usage) (rest : List UInt8),
    (loadArray (List.replicate k 4 ++ 0 :: rest) 13 depth usage).outcome = .ok (nestedArray k, rest) ∧
    (loadArray (List.replicate k 4 ++ 0 :: rest) 13 depth usage).usage = usage.enter (depth + 2 * k) := by
  induction k with
  | zero =>
    intro depth usage rest
    rw [List.replicate_zero, List.nil_append, loadArray]
    rw [readVarint_cons_of_mark_byte (by decide)]
    dsimp only
    rw [show ((0 : UInt8).toUInt64 >>> 2).toNat = 0 from rfl, loadArrayLoop]
    exact ⟨rfl, rfl⟩
  | succ k ih =>
    intro depth usage rest
    obtain ⟨hinner, husage⟩ := ih (depth + 2) ((usage.enter depth).enter (depth + 1)) rest
    obtain ⟨hshorter, hresult⟩ := Loaded.outcome_eq_ok.mp hinner
    rw [List.replicate_succ, List.cons_append, loadArray]
    rw [readVarint_cons_of_mark_byte (by decide)]
    dsimp only
    rw [show ((4 : UInt8).toUInt64 >>> 2).toNat = 1 from rfl, loadArrayLoop]
    dsimp only
    rw [loadValue_array, hresult]
    dsimp only
    rw [loadArrayLoop]
    refine ⟨rfl, ?_⟩
    -- the frames only grow on the way in
    rw [husage, Usage.enter_enter, Usage.enter_enter]
    · rw [show depth + 1 + 1 + 2 * k = depth + 2 * (k + 1) by omega]
    · omega
    · omega
/-- Neither the nesting of the loaders nor what `resize` reserves is bounded by the input: `k`
arrays of arrays in `k + 13` bytes put `2 * k + 4` loaders on the stack, and a string whose size
field says `size` reserves `size` bytes in an input of at most 20. -/
theorem parseBinary_nesting_and_reservation_unbounded :
    (∀ k, (storageBlockHeader ++ [4, 0, 13] ++ List.replicate k 4 ++ [0]).length = k + 13 ∧
      (parseBinary (storageBlockHeader ++ [4, 0, 13] ++ List.replicate k 4 ++ [0])).outcome =
        .ok (.object [([], nestedArray k)], []) ∧
      (parseBinary (storageBlockHeader ++ [4, 0, 13] ++ List.replicate k 4 ++ [0])).usage.frames = 2 * k + 4) ∧
    ∀ size bytes, writeArraySize size = .ok bytes → 0 < size.toNat →
      (storageBlockHeader ++ [4, 0, 10] ++ bytes).length ≤ 20 ∧
      (parseBinary (storageBlockHeader ++ [4, 0, 10] ++ bytes)).outcome = .error failedToRead ∧
      (parseBinary (storageBlockHeader ++ [4, 0, 10] ++ bytes)).usage.reserved = size.toNat := by
  have hheader : storageBlockHeader.length = 9 := rfl
  refine ⟨fun k => ?_, fun size bytes hwrite hsize => ?_⟩
  · -- one entry, of type `BIN_KV_SERIALIZE_TYPE_ARRAY`, whose items are arrays
    have harray : (13 : UInt8) &&& BIN_KV_SERIALIZE_FLAG_ARRAY = 0 := by decide
    have hinput : storageBlockHeader ++ [4, 0, 13] ++ List.replicate k 4 ++ [0] =
        storageBlockHeader ++ 4 :: 0 :: 13 :: (List.replicate k 4 ++ 0 :: []) := by simp
    obtain ⟨hnested, hnestedUsage⟩ := loadArray_nested k (0 + 1 + 1 + 1)
      (((Usage.mk 0 0).enter 0).enter (0 + 1) |>.enter (0 + 1 + 1)) []
    refine ⟨by simp [hheader]; omega, ?_, ?_⟩
    · rw [hinput, (parseBinary_storageBlockHeader _).1, loadSection_single.1, (loadEntry_value harray).1,
        loadValue_array, hnested]
      rfl
    · rw [hinput, (parseBinary_storageBlockHeader _).2, loadSection_single.2, (loadEntry_value harray).2,
        loadValue_array, hnestedUsage]
      simp only [Usage.enter_frames]
      omega
  · -- one entry, of type `BIN_KV_SERIALIZE_TYPE_STRING`, with nothing after its size
    have hstring : (10 : UInt8) &&& BIN_KV_SERIALIZE_FLAG_ARRAY = 0 := by decide
    have hinput : storageBlockHeader ++ [4, 0, 10] ++ bytes = storageBlockHeader ++ 4 :: 0 :: 10 :: (bytes ++ []) := by
      simp
    obtain ⟨hread, hreadUsage⟩ := readString_writeArraySize hwrite [] (((Usage.mk 0 0).enter 0).enter (0 + 1) |>.enter (0 + 1 + 1))
    have hlength := writeArraySize_length hwrite
    refine ⟨by simp [hheader]; omega, ?_, ?_⟩
    · rw [hinput, (parseBinary_storageBlockHeader _).1, loadSection_single.1, (loadEntry_value hstring).1,
        loadValue_string.1, hread, if_neg (by simp; omega)]
      rfl
    · rw [hinput, (parseBinary_storageBlockHeader _).2, loadSection_single.2, (loadEntry_value hstring).2,
        loadValue_string.2, hreadUsage]
      simp

/-- A string entry whose four-byte size field says `2^30 - 1`, in 16 bytes. -/
theorem parseBinary_nesting_and_reservation_unbounded_gigabyte :
    writeArraySize 1073741823 = .ok [254, 255, 255, 255] ∧ 0 < (1073741823 : UInt64).toNat ∧
      (storageBlockHeader ++ [4, 0, 10] ++ [254, 255, 255, 255]).length ≤ 20 ∧
      (parseBinary (storageBlockHeader ++ [4, 0, 10] ++ [254, 255, 255, 255])).outcome = .error failedToRead ∧
      (parseBinary (storageBlockHeader ++ [4, 0, 10] ++ [254, 255, 255, 255])).usage.reserved = 1073741823 :=
  ⟨rfl, by decide, parseBinary_nesting_and_reservation_unbounded.2 1073741823 [254, 255, 255, 255] rfl (by decide)⟩

end KVBinary

end Crygcoin
