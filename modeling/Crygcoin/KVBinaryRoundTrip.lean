import Crygcoin.KVBinaryOutput

namespace Crygcoin

namespace KVBinary

/-! What `parseBinary` reads back from the bytes the writer of `KVBinaryOutput` wrote. A leaf comes
back as the `JsonValue` the loaders make of its bytes, every integer as an `int64_t`; an object with
its entries in the order they were written, which is the order of its members when the names are
distinct; an array with its items.

The proof follows the value: each loader, started on the bytes `encodeEntry` or `encodeItem` gave
followed by anything at all, reads the value back and stops where those bytes end. -/

/-- The `JsonValue` a leaf is read back as: integers of every width as `int64_t`, so a `uint64_t`
above `INT64_MAX` as its reinterpretation. -/
def Leaf.toJson : Leaf → JsonValue
  | .int64 value => .integer value.toInt
  | .int32 value => .integer value.toInt
  | .int16 value => .integer value.toInt
  | .uint64 value => .integer value.toInt64.toInt
  | .uint32 value => .integer value.toNat
  | .uint16 value => .integer value.toNat
  | .uint8 value => .integer value.toNat
  | .double bits => .real bits
  | .bool value => .bool value
  | .string value => .string value

mutual

/-- The `JsonValue` image of a value: the same tree, the members of an object in order. -/
def Value.toJson : Value → JsonValue
  | .leaf value => value.toJson
  | .object fields => .object (fieldsToJson fields)
  | .array first rest => .array (first.toJson :: itemsToJson rest)

def fieldsToJson : List (List UInt8 × Value) → List (List UInt8 × JsonValue)
  | [] => []
  | (name, value) :: fields => (name, value.toJson) :: fieldsToJson fields

def itemsToJson : List Value → List JsonValue
  | [] => []
  | item :: items => item.toJson :: itemsToJson items

end

/-- A string whose size `writeArraySize` takes. -/
def Leaf.portable : Leaf → Bool
  | .string value => value.length < 2 ^ 62
  | _ => true

mutual

/-- The values that come back whole: the members of an object have distinct names of 1 to 255
bytes, the items of an array are leaves of one type or objects, and every size is below `2^62`. -/
def Value.portable : Value → Bool
  | .leaf value => value.portable
  | .object fields => fields.length < 2 ^ 62 && (fields.map Prod.fst).Nodup && fieldsPortable fields
  | .array first rest =>
    rest.length + 1 < 2 ^ 62 && first.type != SerializeType.array.code && first.portable &&
      itemsPortable first.type rest

def fieldsPortable : List (List UInt8 × Value) → Bool
  | [] => true
  | (name, value) :: fields => name != [] && name.length ≤ 255 && value.portable && fieldsPortable fields

def itemsPortable (type : UInt8) : List Value → Bool
  | [] => true
  | item :: items => item.type == type && item.portable && itemsPortable type items

end

theorem Value.portable_object {fields : List (List UInt8 × Value)} :
    (Value.object fields).portable ↔
      (fields.length < 2 ^ 62 ∧ (fields.map Prod.fst).Nodup) ∧ fieldsPortable fields := by
  simp only [Value.portable, Bool.and_eq_true, decide_eq_true_eq]

mutual

theorem Value.writable_of_portable : ∀ (v : Value), v.portable → v.writable
  | .leaf _, _ => rfl
  | .object fields, hv => by
    simpa [Value.writable] using fieldsWritable_of_portable fields (Value.portable_object.mp hv).2
  | .array first rest, hv => by
    simp only [Value.portable, Bool.and_eq_true, bne_iff_ne, ne_eq, decide_eq_true_eq] at hv
    obtain ⟨⟨⟨-, htype⟩, hfirst⟩, hrest⟩ := hv
    simp [Value.writable, htype, first.writable_of_portable hfirst, itemsWritable_of_portable rest htype hrest]

theorem fieldsWritable_of_portable : ∀ (fields : List (List UInt8 × Value)), fieldsPortable fields →
    fieldsWritable fields
  | [], _ => rfl
  | (_, value) :: fields, hfields => by
    simp only [fieldsPortable, Bool.and_eq_true] at hfields
    simp [fieldsWritable, value.writable_of_portable hfields.1.2, fieldsWritable_of_portable fields hfields.2]

theorem itemsWritable_of_portable : ∀ (items : List Value) {type : UInt8}, type ≠ SerializeType.array.code →
    itemsPortable type items → itemsWritable items
  | [], _, _, _ => rfl
  | item :: items, type, htype, hitems => by
    simp only [itemsPortable, Bool.and_eq_true, beq_iff_eq] at hitems
    obtain ⟨⟨hitemType, hitem⟩, hmore⟩ := hitems
    simp [itemsWritable, hitemType, htype, item.writable_of_portable hitem,
      itemsWritable_of_portable items htype hmore]

end

/-! The writer's pieces, as the reader takes them. -/

theorem writeArraySize_ok {n : Nat} (hn : n < 2 ^ 62) : ∃ bytes, writeArraySize (UInt64.ofNat n) = .ok bytes := by
  unfold writeArraySize
  split_ifs with h1 h2 h3 h4
  · exact ⟨_, rfl⟩
  · exact ⟨_, rfl⟩
  · exact ⟨_, rfl⟩
  · exfalso
    simp only [gt_iff_lt, UInt64.lt_iff_toNat_lt, UInt64.toNat_ofNat'] at h4
    have hbig : (4611686018427387903 : UInt64).toNat = 2 ^ 62 - 1 := rfl
    have hmod : n % 2 ^ 64 = n := Nat.mod_eq_of_lt (by omega)
    omega
  · exact ⟨_, rfl⟩

theorem toNat_ofNat_of_lt_two_pow {n : Nat} (hn : n < 2 ^ 62) : (UInt64.ofNat n).toNat = n := by
  rw [UInt64.toNat_ofNat', Nat.mod_eq_of_lt (by omega)]

theorem writeElementName_of_le {name : List UInt8} (hlength : name.length ≤ 255) :
    writeElementName name = .ok (UInt8.ofNat name.length :: name) := by
  simp [writeElementName, hlength, pure, Except.pure]

theorem elementPrefix_of_ne {name : List UInt8} (type : UInt8) (hname : name ≠ []) (hlength : name.length ≤ 255) :
    elementPrefix type name = .ok ((UInt8.ofNat name.length :: name) ++ [type]) := by
  simp [elementPrefix, hname, writeElementName_of_le hlength, pure, Except.pure, bind, Except.bind]

theorem arrayPreamble_of_le {name sizeBytes : List UInt8} {size : UInt64} (type : UInt8)
    (hlength : name.length ≤ 255) (hsize : writeArraySize size = .ok sizeBytes) :
    arrayPreamble name size type =
      .ok ((UInt8.ofNat name.length :: name) ++ [BIN_KV_SERIALIZE_FLAG_ARRAY ||| type] ++ sizeBytes) := by
  simp [arrayPreamble, writeElementName_of_le hlength, hsize, pure, Except.pure, bind, Except.bind]

theorem SerializeType.ofByte_code (type : SerializeType) : SerializeType.ofByte type.code = some type := by
  cases type <;> rfl

/-- A type byte has no `BIN_KV_SERIALIZE_FLAG_ARRAY`, and the flag added to it comes off again. -/
theorem SerializeType.code_flag (type : SerializeType) :
    type.code &&& BIN_KV_SERIALIZE_FLAG_ARRAY = 0 ∧
      (BIN_KV_SERIALIZE_FLAG_ARRAY ||| type.code) &&& BIN_KV_SERIALIZE_FLAG_ARRAY ≠ 0 ∧
      (BIN_KV_SERIALIZE_FLAG_ARRAY ||| type.code) &&& ~~~BIN_KV_SERIALIZE_FLAG_ARRAY = type.code := by
  cases type <;> decide

theorem Value.type_flag (v : Value) :
    v.type &&& BIN_KV_SERIALIZE_FLAG_ARRAY = 0 ∧
      (BIN_KV_SERIALIZE_FLAG_ARRAY ||| v.type) &&& BIN_KV_SERIALIZE_FLAG_ARRAY ≠ 0 ∧
      (BIN_KV_SERIALIZE_FLAG_ARRAY ||| v.type) &&& ~~~BIN_KV_SERIALIZE_FLAG_ARRAY = v.type := by
  cases v <;> exact SerializeType.code_flag _

/-- `readIntegerJson` of the bytes of a signed value, or of a `uint64_t`, is its two's complement. -/
theorem podInteger_leBytes_toInt {size : Nat} (x : BitVec (8 * size)) (hsize : 0 < size) {signed : Bool}
    (hsigned : signed = true ∨ size = 8) : podInteger (leBytes x.toNat size) signed = x.toInt := by
  have hx : x.toNat < 2 ^ (8 * size) := x.isLt
  have hpow : 256 ^ size = 2 ^ (8 * size) := by rw [pow_mul]; rfl
  have hhalf : 2 ^ (8 * size) = 2 * 2 ^ (8 * size - 1) := by
    rw [← pow_succ']
    congr 1
    omega
  have hcond : (signed || size = 8) = true := by
    rcases hsigned with rfl | rfl <;> simp
  rw [podInteger, littleEndian_leBytes, length_leBytes, hpow, Nat.mod_eq_of_lt hx, BitVec.toInt_eq_toNat_cond]
  simp only [hcond, Bool.true_and, decide_eq_true_eq]
  split_ifs <;> push_cast <;> omega

theorem podInteger_leBytes_unsigned {n size : Nat} (hn : n < 2 ^ (8 * size)) (hsize : size ≠ 8) :
    podInteger (leBytes n size) false = n := by
  have hpow : 256 ^ size = 2 ^ (8 * size) := by rw [pow_mul]; rfl
  rw [podInteger, littleEndian_leBytes, hpow, Nat.mod_eq_of_lt hn]
  simp [length_leBytes, hsize]

theorem readInteger_leBytes (n : Nat) {size : Nat} (hsize : 0 < size) (signed : Bool) (rest : List UInt8)
    (usage : Usage) :
    (⟨readInteger (leBytes n size ++ rest) size hsize signed, usage⟩ : Loaded _ JsonValue).outcome =
      .ok (.integer (podInteger (leBytes n size) signed), rest) := by
  simp [Loaded.outcome, readInteger, readPod, length_leBytes, Except.map, pure, Except.pure]

/-- `loadValue` with the leaf's type reads its payload back as `Leaf.toJson`. -/
theorem Leaf.loadValue_payload (leaf : Leaf) (hleaf : leaf.portable) :
    ∃ bytes, leaf.payload = .ok bytes ∧ ∀ rest depth usage,
      (loadValue (bytes ++ rest) leaf.type.code depth usage).outcome = .ok (leaf.toJson, rest) := by
  cases leaf with
  | int64 value =>
    refine ⟨_, rfl, fun rest depth usage => ?_⟩
    rw [loadValue, SerializeType.ofByte_code]
    dsimp only [Leaf.type]
    rw [readInteger_leBytes, show value.toUInt64.toNat = value.toBitVec.toNat from rfl,
      @podInteger_leBytes_toInt 8 value.toBitVec (by decide) true (Or.inl rfl), Int64.toInt_toBitVec]
    rfl
  | int32 value =>
    refine ⟨_, rfl, fun rest depth usage => ?_⟩
    rw [loadValue, SerializeType.ofByte_code]
    dsimp only [Leaf.type]
    rw [readInteger_leBytes, show value.toUInt32.toNat = value.toBitVec.toNat from rfl,
      @podInteger_leBytes_toInt 4 value.toBitVec (by decide) true (Or.inl rfl), Int32.toInt_toBitVec]
    rfl
  | int16 value =>
    refine ⟨_, rfl, fun rest depth usage => ?_⟩
    rw [loadValue, SerializeType.ofByte_code]
    dsimp only [Leaf.type]
    rw [readInteger_leBytes, show value.toUInt16.toNat = value.toBitVec.toNat from rfl,
      @podInteger_leBytes_toInt 2 value.toBitVec (by decide) true (Or.inl rfl), Int16.toInt_toBitVec]
    rfl
  | uint64 value =>
    refine ⟨_, rfl, fun rest depth usage => ?_⟩
    rw [loadValue, SerializeType.ofByte_code]
    dsimp only [Leaf.type]
    -- eight bytes read as `int64_t` whatever their type
    rw [readInteger_leBytes, show value.toNat = value.toBitVec.toNat from rfl,
      @podInteger_leBytes_toInt 8 value.toBitVec (by decide) false (Or.inr rfl), Leaf.toJson, ← Int64.toInt_toBitVec,
      UInt64.toBitVec_toInt64]
  | uint32 value | uint16 value | uint8 value =>
    -- the narrower unsigned widths read back without a sign
    refine ⟨_, rfl, fun rest depth usage => ?_⟩
    rw [loadValue, SerializeType.ofByte_code]
    dsimp only [Leaf.type]
    rw [readInteger_leBytes, podInteger_leBytes_unsigned (by simpa using value.toNat_lt) (by decide)]
    rfl
  | double bits =>
    refine ⟨_, rfl, fun rest depth usage => ?_⟩
    rw [loadValue, SerializeType.ofByte_code]
    dsimp only [Leaf.type]
    have hbits : UInt64.ofNat (littleEndian (leBytes bits.toNat 8)) = bits := by
      rw [littleEndian_leBytes, Nat.mod_eq_of_lt (by simpa using bits.toNat_lt), UInt64.ofNat_toNat]
    simp [Loaded.outcome, readPod, length_leBytes, Except.map, pure, Except.pure, hbits, Leaf.toJson]
  | bool value =>
    refine ⟨_, rfl, fun rest depth usage => ?_⟩
    rw [loadValue, SerializeType.ofByte_code]
    cases value <;> rfl
  | string value =>
    have hsize : value.length < 2 ^ 62 := by simpa [Leaf.portable] using hleaf
    obtain ⟨sizeBytes, hwrite⟩ := writeArraySize_ok hsize
    refine ⟨sizeBytes ++ value, by simp [Leaf.payload, hwrite], fun rest depth usage => ?_⟩
    rw [List.append_assoc, show (Leaf.string value).type.code = 10 from rfl, loadValue_string.1,
      (readString_writeArraySize hwrite _ _).1, toNat_ofNat_of_lt_two_pow hsize]
    simp [Except.map, Leaf.toJson]

theorem readName_name {name : List UInt8} (hname : name ≠ []) (hlength : name.length ≤ 255)
    (rest previous : List UInt8) (usage : Usage) :
    (readName ((UInt8.ofNat name.length :: name) ++ rest) previous usage).outcome = .ok (name, rest) := by
  have hpos : 0 < name.length := List.length_pos_iff.mpr hname
  have hbyte : (UInt8.ofNat name.length).toNat = name.length := by
    rw [UInt8.toNat_ofNat', Nat.mod_eq_of_lt (by omega)]
  have hne : UInt8.ofNat name.length ≠ 0 := fun h => by
    rw [h] at hbyte
    simp at hbyte
    omega
  simp [readName, readByte, hne, Rest.read, hbyte, Loaded.outcome, Except.map, pure, Except.pure]

theorem loadEntry_array {type : UInt8} {rest : List UInt8} {depth : Nat} {usage : Usage}
    (htype : type &&& BIN_KV_SERIALIZE_FLAG_ARRAY ≠ 0) :
    (loadEntry (type :: rest) depth usage).outcome =
      (loadArray rest (type &&& ~~~BIN_KV_SERIALIZE_FLAG_ARRAY) (depth + 1) (usage.enter depth)).outcome := by
  rw [loadEntry]
  simp only [readByte, pure, Except.pure, htype, ne_eq, not_false_eq_true, if_true]
  exact Loaded.lift_outcome _ _

theorem loadSection_writeArraySize {n : Nat} {count : List UInt8} (hcount : writeArraySize (UInt64.ofNat n) = .ok count)
    (hn : n < 2 ^ 62) (body : List UInt8) (depth : Nat) (usage : Usage) :
    ∃ h, (loadSection (count ++ body) depth usage).outcome =
      (loadSectionLoop (count ++ body) body h (depth + 1) n [] [] (usage.enter depth)).outcome := by
  obtain ⟨h, hread⟩ := readVarint_writeArraySize hcount body
  refine ⟨h, ?_⟩
  rw [loadSection, hread]
  dsimp only
  rw [toNat_ofNat_of_lt_two_pow hn]

theorem loadArray_writeArraySize {n : Nat} {size : List UInt8} (hsize : writeArraySize (UInt64.ofNat n) = .ok size)
    (hn : n < 2 ^ 62) (items : List UInt8) (type : UInt8) (depth : Nat) (usage : Usage) :
    ∃ h, (loadArray (size ++ items) type depth usage).outcome =
      (loadArrayLoop (size ++ items) items h type (depth + 1) n [] (usage.enter depth)).outcome := by
  obtain ⟨h, hread⟩ := readVarint_writeArraySize hsize items
  refine ⟨h, ?_⟩
  rw [loadArray, hread]
  dsimp only
  rw [toNat_ofNat_of_lt_two_pow hn]

/-- One round of the loop of `loadSection`: a name, then an entry. -/
theorem loadSectionLoop_succ (members : List (List UInt8 × JsonValue)) {input bytes afterName more name name' : List UInt8}
    {h : bytes.length < input.length} {depth n : Nat} {usage : Usage} {value : JsonValue}
    (hname : (readName bytes name usage).outcome = .ok (name', afterName))
    (hentry : ∀ usage, (loadEntry afterName depth usage).outcome = .ok (value, more)) :
    ∃ h' usage', (loadSectionLoop input bytes h depth (n + 1) name members usage).outcome =
      (loadSectionLoop input more h' depth n name' (insertMember members name' value) usage').outcome := by
  obtain ⟨hafter, hnamed⟩ := Loaded.outcome_eq_ok.mp hname
  obtain ⟨hmore, hloaded⟩ := Loaded.outcome_eq_ok.mp (hentry (readName bytes name usage).usage)
  refine ⟨by omega, (loadEntry afterName depth (readName bytes name usage).usage).usage, ?_⟩
  rw [loadSectionLoop]
  dsimp only
  rw [hnamed]
  dsimp only
  rw [hloaded]

/-- One round of the loop of `loadArray`: a value of the array's type. -/
theorem loadArrayLoop_succ (items : List JsonValue) {input bytes more : List UInt8} {h : bytes.length < input.length}
    {type : UInt8} {depth n : Nat} {usage : Usage} {value : JsonValue}
    (hvalue : ∀ usage, (loadValue bytes type depth usage).outcome = .ok (value, more)) :
    ∃ h' usage', (loadArrayLoop input bytes h type depth (n + 1) items usage).outcome =
      (loadArrayLoop input more h' type depth n (items ++ [value]) usage').outcome := by
  obtain ⟨hmore, hloaded⟩ := Loaded.outcome_eq_ok.mp (hvalue usage)
  refine ⟨by omega, (loadValue bytes type depth usage).usage, ?_⟩
  rw [loadArrayLoop]
  dsimp only
  rw [hloaded]

theorem insertMember_of_not_mem {members : List (List UInt8 × JsonValue)} {name : List UInt8} (value : JsonValue)
    (hname : name ∉ members.map Prod.fst) : insertMember members name value = members ++ [(name, value)] := by
  rw [insertMember, if_neg]
  simpa [List.any_eq_true] using hname

/-- An object whose entries the loop of `loadSection` reads back is read back by `loadValue` as
`BIN_KV_SERIALIZE_TYPE_OBJECT`, after its count: the part of an object's round trip that does not
recurse. -/
theorem loadValue_object_encoded {fields : List (List UInt8 × Value)} (hv : (Value.object fields).portable)
    {body : List UInt8} (hloop : ∀ input rest h depth name members usage,
      (members.map Prod.fst ++ fields.map Prod.fst).Nodup →
      (loadSectionLoop input (body ++ rest) h depth fields.length name members usage).outcome =
        .ok (.object (members ++ fieldsToJson fields), rest)) :
    ∃ count, writeArraySize (UInt64.ofNat fields.length) = .ok count ∧ ∀ rest depth usage,
      (loadValue (count ++ body ++ rest) SerializeType.object.code depth usage).outcome =
        .ok ((Value.object fields).toJson, rest) := by
  obtain ⟨⟨hcount, hnodup⟩, -⟩ := Value.portable_object.mp hv
  obtain ⟨count, hcountBytes⟩ := writeArraySize_ok hcount
  refine ⟨count, hcountBytes, fun rest depth usage => ?_⟩
  rw [loadValue, SerializeType.ofByte_code]
  dsimp only
  rw [List.append_assoc]
  obtain ⟨h, hsection⟩ := loadSection_writeArraySize hcountBytes hcount (body ++ rest) (depth + 1) (usage.enter depth)
  rw [hsection, hloop _ rest h _ [] [] _ (by simpa using hnodup)]
  rfl

/-! The loaders read back what `encodeEntry` and `encodeItem` wrote: an entry, an item, the entries
of an object after those already read (whose names the new ones avoid), and the items of an array. -/

mutual

theorem loadEntry_encodeEntry : ∀ (v : Value) {name : List UInt8}, name ≠ [] → name.length ≤ 255 → v.portable →
    ∃ body, encodeEntry name v = .ok ((UInt8.ofNat name.length :: name) ++ body) ∧
      ∀ rest depth usage, (loadEntry (body ++ rest) depth usage).outcome = .ok (v.toJson, rest)
  | .leaf leaf, name, hname, hlength, hv => by
    obtain ⟨payload, hpayload, hload⟩ := leaf.loadValue_payload hv
    refine ⟨leaf.type.code :: payload, ?_, fun rest depth usage => ?_⟩
    · simp [encodeEntry, elementPrefix_of_ne _ hname hlength, hpayload, bind, Except.bind, pure, Except.pure]
    · rw [List.cons_append, (loadEntry_value (SerializeType.code_flag _).1).1, hload]
      rfl
  | .object fields, name, hname, hlength, hv => by
    obtain ⟨body, hbody, hloop⟩ := loadSectionLoop_encodeEntries fields (Value.portable_object.mp hv).2
    obtain ⟨count, hcount, hload⟩ := loadValue_object_encoded hv hloop
    refine ⟨SerializeType.object.code :: (count ++ body), ?_, fun rest depth usage => ?_⟩
    · rw [encodeEntry, hbody, elementPrefix_of_ne _ hname hlength, hcount]
      simp [bind, Except.bind, pure, Except.pure]
    · rw [List.cons_append, (loadEntry_value (SerializeType.code_flag _).1).1]
      exact hload rest _ _
  | .array first rest, name, hname, hlength, hv => by
    simp only [Value.portable, Bool.and_eq_true, bne_iff_ne, ne_eq, decide_eq_true_eq] at hv
    obtain ⟨⟨⟨hsize, htype⟩, hfirst⟩, hrest⟩ := hv
    obtain ⟨item, hitem, hloadItem⟩ := loadValue_encodeItem first htype hfirst
    obtain ⟨items, hitems, hloop⟩ := loadArrayLoop_encodeItems rest htype hrest
    obtain ⟨sizeBytes, hsizeBytes⟩ := writeArraySize_ok hsize
    refine ⟨(BIN_KV_SERIALIZE_FLAG_ARRAY ||| first.type) :: (sizeBytes ++ item ++ items), ?_,
      fun more depth usage => ?_⟩
    · rw [encodeEntry, arrayPreamble_of_le _ hlength hsizeBytes, hitem, hitems]
      simp [bind, Except.bind, pure, Except.pure]
    -- the flagged type byte sends `loadEntry` to `loadArray` with the items' type
    obtain ⟨-, hflag, hunflag⟩ := first.type_flag
    rw [List.cons_append, loadEntry_array hflag, hunflag,
      show sizeBytes ++ item ++ items ++ more = sizeBytes ++ (item ++ (items ++ more)) by simp only [List.append_assoc]]
    obtain ⟨h, harray⟩ := loadArray_writeArraySize hsizeBytes hsize (item ++ (items ++ more)) first.type (depth + 1)
      (usage.enter depth)
    have hvalue : ∀ usage, (loadValue (item ++ (items ++ more)) first.type (depth + 1 + 1) usage).outcome =
        .ok (first.toJson, items ++ more) := hloadItem (items ++ more) _
    obtain ⟨h', usage', hstep⟩ := loadArrayLoop_succ [] (n := rest.length) (h := h) hvalue
    rw [harray, hstep, hloop]
    rfl

theorem loadValue_encodeItem : ∀ (v : Value), v.type ≠ SerializeType.array.code → v.portable →
    ∃ bytes, encodeItem v = .ok bytes ∧
      ∀ rest depth usage, (loadValue (bytes ++ rest) v.type depth usage).outcome = .ok (v.toJson, rest)
  | .leaf leaf, _, hv => leaf.loadValue_payload hv
  | .object fields, _, hv => by
    obtain ⟨body, hbody, hloop⟩ := loadSectionLoop_encodeEntries fields (Value.portable_object.mp hv).2
    obtain ⟨count, hcount, hload⟩ := loadValue_object_encoded hv hloop
    exact ⟨count ++ body, by simp [encodeItem, hbody, hcount, bind, Except.bind, pure, Except.pure], hload⟩
  | .array _ _, htype, _ => absurd rfl htype

theorem loadSectionLoop_encodeEntries : ∀ (fields : List (List UInt8 × Value)), fieldsPortable fields →
    ∃ body, encodeEntries fields = .ok body ∧ ∀ input rest h depth name members usage,
      (members.map Prod.fst ++ fields.map Prod.fst).Nodup →
      (loadSectionLoop input (body ++ rest) h depth fields.length name members usage).outcome =
        .ok (.object (members ++ fieldsToJson fields), rest)
  | [], _ => ⟨[], rfl, fun input rest h depth name members usage _ => by
      rw [List.length_nil, loadSectionLoop]
      simp [Loaded.outcome, Except.map, fieldsToJson]⟩
  | (name, value) :: fields, hfields => by
    simp only [fieldsPortable, Bool.and_eq_true, bne_iff_ne, ne_eq, decide_eq_true_eq] at hfields
    obtain ⟨⟨⟨hname, hlength⟩, hvalue⟩, hmore⟩ := hfields
    obtain ⟨entry, hentry, hload⟩ := loadEntry_encodeEntry value hname hlength hvalue
    obtain ⟨body, hbody, hloop⟩ := loadSectionLoop_encodeEntries fields hmore
    refine ⟨(UInt8.ofNat name.length :: name) ++ entry ++ body, ?_, ?_⟩
    · simp [encodeEntries, hentry, hbody, bind, Except.bind, pure, Except.pure]
    intro input rest h depth previous members usage hnodup
    -- the name is new, so `insertMember` appends the entry
    have hfresh : name ∉ members.map Prod.fst := by
      simp only [List.map_cons, List.nodup_append, List.mem_cons] at hnodup
      exact fun hmem => hnodup.2.2 _ hmem _ (Or.inl rfl) rfl
    have hname' : (readName ((UInt8.ofNat name.length :: name) ++ entry ++ body ++ rest) previous usage).outcome =
        .ok (name, entry ++ (body ++ rest)) := by
      rw [show (UInt8.ofNat name.length :: name) ++ entry ++ body ++ rest =
        (UInt8.ofNat name.length :: name) ++ (entry ++ (body ++ rest)) by simp only [List.append_assoc]]
      exact readName_name hname hlength (entry ++ (body ++ rest)) previous usage
    obtain ⟨h', usage', hstep⟩ := loadSectionLoop_succ members (n := fields.length) (h := h) hname'
      (fun usage => hload (body ++ rest) depth usage)
    rw [List.length_cons, hstep, insertMember_of_not_mem _ hfresh,
      hloop input rest h' depth name _ usage' (by simpa using hnodup)]
    simp [fieldsToJson]

theorem loadArrayLoop_encodeItems : ∀ (items : List Value) {type : UInt8}, type ≠ SerializeType.array.code →
    itemsPortable type items →
    ∃ bytes, encodeItems items = .ok bytes ∧ ∀ input rest h depth acc usage,
      (loadArrayLoop input (bytes ++ rest) h type depth items.length acc usage).outcome =
        .ok (.array (acc ++ itemsToJson items), rest)
  | [], _, _, _ => ⟨[], rfl, fun input rest h depth acc usage => by
      rw [List.length_nil, loadArrayLoop]
      simp [Loaded.outcome, Except.map, itemsToJson]⟩
  | item :: items, type, htype, hitems => by
    simp only [itemsPortable, Bool.and_eq_true, beq_iff_eq] at hitems
    obtain ⟨⟨hitemType, hitem⟩, hmore⟩ := hitems
    subst hitemType
    obtain ⟨bytes, hbytes, hload⟩ := loadValue_encodeItem item htype hitem
    obtain ⟨more, hmoreBytes, hloop⟩ := loadArrayLoop_encodeItems items htype hmore
    refine ⟨bytes ++ more, ?_, fun input rest h depth acc usage => ?_⟩
    · simp [encodeItems, hbytes, hmoreBytes, bind, Except.bind, pure, Except.pure]
    have hvalue : ∀ usage, (loadValue (bytes ++ more ++ rest) item.type depth usage).outcome =
        .ok (item.toJson, more ++ rest) := fun usage => by
      rw [List.append_assoc]
      exact hload (more ++ rest) depth usage
    obtain ⟨h', usage', hstep⟩ := loadArrayLoop_succ acc (n := items.length) (h := h) hvalue
    rw [List.length_cons, hstep, hloop]
    simp [itemsToJson]

end

/-- Writing a value with `storeToBinaryKeyValue` and reading the bytes with `parseBinary` gives back
its `JsonValue` image, with nothing left over; and every size below `2^62` that `writeArraySize`
writes, `readVarint` reads back. -/
theorem storeToBinaryKeyValue_parseBinary (fields : List (List UInt8 × Value)) (hfields : (Value.object fields).portable)
    (size : UInt64) (hsize : size.toNat < 2 ^ 62) :
    (∃ bytes, storeToBinaryKeyValue fields = .ok bytes ∧
      (parseBinary bytes).outcome = .ok ((Value.object fields).toJson, [])) ∧
    ∃ sizeBytes, writeArraySize size = .ok sizeBytes ∧
      ∀ rest, ∃ h, readVarint (sizeBytes ++ rest) = .ok (size, ⟨rest, h⟩) := by
  obtain ⟨⟨hcount, hnodup⟩, hportable⟩ := Value.portable_object.mp hfields
  obtain ⟨body, hbody, hloop⟩ := loadSectionLoop_encodeEntries fields hportable
  obtain ⟨count, hcountBytes⟩ := writeArraySize_ok hcount
  obtain ⟨sizeBytes, hsizeBytes⟩ := writeArraySize_ok hsize
  rw [UInt64.ofNat_toNat] at hsizeBytes
  refine ⟨⟨storageBlockHeader ++ count ++ body, ?_, ?_⟩, sizeBytes, hsizeBytes,
    fun rest => readVarint_writeArraySize hsizeBytes rest⟩
  · rw [storeToBinaryKeyValue_eq fields (fieldsWritable_of_portable fields hportable), hbody, hcountBytes]
    rfl
  · -- the root is read as a section whose entries end the input
    rw [show storageBlockHeader ++ count ++ body = storageBlockHeader ++ (count ++ (body ++ [])) by simp,
      (parseBinary_storageBlockHeader _).1]
    obtain ⟨h, hsection⟩ := loadSection_writeArraySize hcountBytes hcount (body ++ []) 0 ⟨0, 0⟩
    rw [hsection, hloop _ [] h _ [] [] _ (by simpa using hnodup)]
    rfl

/-- An object with a `uint64_t` above `INT64_MAX`, a nested object, an array of `int16_t` and an
array of objects, one of them empty. -/
def sampleFields : List (List UInt8 × Value) :=
  [([97], .leaf (.uint64 0xFFFFFFFFFFFFFFFF)), ([98], .object [([99], .leaf (.bool true))]),
    ([100], .array (.leaf (.int16 (-2))) [.leaf (.int16 3)]),
    ([101], .array (.object [([102], .leaf (.string [1, 2]))]) [.object []])]

theorem storeToBinaryKeyValue_parseBinary_sample :
    (Value.object sampleFields).portable ∧ (16383 : UInt64).toNat < 2 ^ 62 ∧
      (∃ bytes, storeToBinaryKeyValue sampleFields = .ok bytes ∧
        (parseBinary bytes).outcome = .ok ((Value.object sampleFields).toJson, [])) ∧
      ∃ sizeBytes, writeArraySize 16383 = .ok sizeBytes ∧
        ∀ rest, ∃ h, readVarint (sizeBytes ++ rest) = .ok (16383, ⟨rest, h⟩) :=
  ⟨by decide, by decide, storeToBinaryKeyValue_parseBinary sampleFields (by decide) 16383 (by decide)⟩

end KVBinary

end Crygcoin
