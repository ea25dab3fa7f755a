import Crygcoin.KVBinaryInput

namespace Crygcoin

namespace KVBinary

/-! The writer of the portable storage, `KVBinaryOutputStreamSerializer.cpp`, which
`LevinProtocol::encode` and `storeToBinaryKeyValue` run over every value they send or store.

The serializer keeps a stack of levels, one per open object or array, and a stack of buffers, one per
open object. The entries of an object go to its own buffer, which `endObject` copies to the buffer
below after the object's name, type and count. An array has no buffer: its first item writes the
array's name, item type and size (`checkArrayPreamble`), and the items follow without names.

`encodeEntry` and `encodeItem` say in one recursion over the value what comes out, with the
exceptions in the order the writer meets them; `Writer.serializeFields_eq` shows that the serializer,
from any state whose innermost level is an object, appends exactly that to the object's buffer. -/

/-- `KVBinaryOutputStreamSerializer::State`; no level is ever made in `Root`. -/
inductive State
  | root | object | arrayPrefix | array
deriving DecidableEq, Repr

/-- `Level`: an object's level counts its entries; an array's holds the size `beginArray` was given
and stays in `arrayPrefix` until its first item has written the preamble. -/
structure Level where
  state : State
  name : List UInt8
  count : UInt64
deriving DecidableEq, Repr

/-- The serializer's `m_objectsStack` and `m_stack`, the back of each vector first. -/
structure Writer where
  objectsStack : List (List UInt8)
  stack : List Level
deriving DecidableEq, Repr

/-- `KVBinaryOutputStreamSerializer()`: `beginObject` of the root, with an empty name, on empty
stacks. -/
def Writer.new : Writer := ⟨[[]], [⟨.object, [], 0⟩]⟩

/-- A write to `stream()`, the buffer of the innermost open object; the source asserts there is one. -/
def Writer.write (w : Writer) (bytes : List UInt8) : Writer :=
  match w.objectsStack with
  | [] => w
  | stream :: streams => { w with objectsStack := (stream ++ bytes) :: streams }

/-- `writeElementName`: the length in one byte, then the name. -/
def writeElementName (name : List UInt8) : Except String (List UInt8) :=
  if name.length > 255 then throw "Element name is too long"
  else pure (UInt8.ofNat name.length :: name)

/-- What `checkArrayPreamble` writes for the first item of an array: the array's name, the item's
type with `BIN_KV_SERIALIZE_FLAG_ARRAY`, then the size. -/
def arrayPreamble (name : List UInt8) (size : UInt64) (type : UInt8) : Except String (List UInt8) := do
  let nameBytes ← writeElementName name
  let sizeBytes ← writeArraySize size
  pure (nameBytes ++ [BIN_KV_SERIALIZE_FLAG_ARRAY ||| type] ++ sizeBytes)

def Writer.checkArrayPreamble (w : Writer) (type : UInt8) : Except String Writer :=
  match w.stack with
  | [] => pure w
  | level :: levels =>
    if level.state = .arrayPrefix then do
      let preamble ← arrayPreamble level.name level.count type
      pure { w.write preamble with stack := { level with state := .array } :: levels }
    else pure w

/-- What `writeElementPrefix` writes for an entry of an object: its name and type, or nothing for an
empty name. -/
def elementPrefix (type : UInt8) (name : List UInt8) : Except String (List UInt8) :=
  if name.isEmpty then pure [] else do
    let nameBytes ← writeElementName name
    pure (nameBytes ++ [type])

/-- `writeElementPrefix`: an entry of an object writes its prefix and is counted; an item of an array
writes the array's preamble if it is the first, and nothing of its own. -/
def Writer.writeElementPrefix (w : Writer) (type : UInt8) (name : List UInt8) : Except String Writer := do
  let w ← w.checkArrayPreamble type
  match w.stack with
  | [] => pure w
  | level :: levels =>
    if level.state = .array then pure w
    else do
      let prefixBytes ← elementPrefix type name
      pure { w.write prefixBytes with stack := { level with count := level.count + 1 } :: levels }

/-- A value the serializer's `operator()` overloads write; a `double` by its bits. -/
inductive Leaf
  | int64 (value : Int64)
  | int32 (value : Int32)
  | int16 (value : Int16)
  | uint64 (value : UInt64)
  | uint32 (value : UInt32)
  | uint16 (value : UInt16)
  | uint8 (value : UInt8)
  | double (bits : UInt64)
  | bool (value : Bool)
  | string (value : List UInt8)
deriving DecidableEq, Repr

/-- The `BIN_KV_SERIALIZE_TYPE_*` each overload passes to `writeElementPrefix`. -/
def Leaf.type : Leaf → SerializeType
  | .int64 _ => .int64
  | .int32 _ => .int32
  | .int16 _ => .int16
  | .uint64 _ => .uint64
  | .uint32 _ => .uint32
  | .uint16 _ => .uint16
  | .uint8 _ => .uint8
  | .double _ => .double
  | .bool _ => .bool
  | .string _ => .string

/-- What an overload writes after the prefix: `writePod`, the value's bytes in memory, least
significant first; for a string, `writeArraySize` of its size, then its bytes. -/
def Leaf.payload : Leaf → Except String (List UInt8)
  | .int64 value => pure (leBytes value.toUInt64.toNat 8)
  | .int32 value => pure (leBytes value.toUInt32.toNat 4)
  | .int16 value => pure (leBytes value.toUInt16.toNat 2)
  | .uint64 value => pure (leBytes value.toNat 8)
  | .uint32 value => pure (leBytes value.toNat 4)
  | .uint16 value => pure (leBytes value.toNat 2)
  | .uint8 value => pure (leBytes value.toNat 1)
  | .double bits => pure (leBytes bits.toNat 8)
  | .bool value => pure [if value then 1 else 0]
  | .string value => do
    let size ← writeArraySize (UInt64.ofNat value.length)
    pure (size ++ value)

/-- The `operator()(value, name)` overloads: the prefix, then the payload. -/
def Writer.writeLeaf (w : Writer) (leaf : Leaf) (name : List UInt8) : Except String Writer := do
  let w ← w.writeElementPrefix leaf.type.code name
  let payload ← leaf.payload
  pure (w.write payload)

/-- `beginObject`: the preamble if the object is the first item of an array, then a level and a
buffer of its own. -/
def Writer.beginObject (w : Writer) (name : List UInt8) : Except String Writer := do
  let w ← w.checkArrayPreamble SerializeType.object.code
  pure ⟨[] :: w.objectsStack, ⟨.object, name, 0⟩ :: w.stack⟩

/-- `endObject`: the object's level and buffer go, and its entry goes to the buffer below: its
prefix, the count of its entries, then its buffer. -/
def Writer.endObject (w : Writer) : Except String Writer :=
  match w.stack, w.objectsStack with
  | level :: levels, objStream :: streams => do
    let w ← Writer.writeElementPrefix ⟨streams, levels⟩ SerializeType.object.code level.name
    let count ← writeArraySize level.count
    pure (w.write (count ++ objStream))
  | _, _ => pure w

/-- `beginArray`: a level holding the size, in `arrayPrefix`. -/
def Writer.beginArray (w : Writer) (size : UInt64) (name : List UInt8) : Writer :=
  { w with stack := ⟨.arrayPrefix, name, size⟩ :: w.stack }

/-- `endArray`: an array whose items wrote its preamble is one more entry of the object around it;
one without items leaves nothing behind. -/
def Writer.endArray (w : Writer) : Writer :=
  match w.stack with
  | level :: parent :: levels =>
    if parent.state = .object ∧ level.state = .array then
      { w with stack := { parent with count := parent.count + 1 } :: levels }
    else { w with stack := parent :: levels }
  | levels => { w with stack := levels.drop 1 }

/-- `dump`: the header, the count of the root (the front of `m_stack`) and the innermost buffer; the
source asserts that only the root is open. -/
def Writer.dump (w : Writer) : Except String (List UInt8) := do
  let count ← writeArraySize ((w.stack.getLast?.map Level.count).getD 0)
  pure (storageBlockHeader ++ count ++ w.objectsStack.headD [])

/-- A value as the `serialize` functions of `SerializationOverloads.h` hand it to the serializer: a
leaf, an object of named entries, or an array with at least one item. -/
inductive Value
  | leaf (leaf : Leaf)
  | object (fields : List (List UInt8 × Value))
  | array (first : Value) (rest : List Value)

mutual

/-- `s(value, name)`: a leaf by its `operator()`; an object by `serialize(T&, name, s)`, which is
`beginObject`, its members and `endObject`; an array by `serializeContainer`, which is `beginArray`
with its size, each item under the empty name, and `endArray`. -/
def Writer.serializeValue (w : Writer) (name : List UInt8) : Value → Except String Writer
  | .leaf leaf => w.writeLeaf leaf name
  | .object fields => do
    let w ← w.beginObject name
    let w ← w.serializeFields fields
    w.endObject
  | .array first rest => do
    let w ← (w.beginArray (UInt64.ofNat (rest.length + 1)) name).serializeValue [] first
    let w ← w.serializeItems rest
    pure w.endArray

def Writer.serializeFields (w : Writer) : List (List UInt8 × Value) → Except String Writer
  | [] => pure w
  | (name, value) :: fields => do
    let w ← w.serializeValue name value
    w.serializeFields fields

def Writer.serializeItems (w : Writer) : List Value → Except String Writer
  | [] => pure w
  | item :: items => do
    let w ← w.serializeValue [] item
    w.serializeItems items

end

/-- `storeToBinaryKeyValue` and `LevinProtocol::encode`: a fresh serializer, the value's members
written at the root, then `dump`. -/
def storeToBinaryKeyValue (fields : List (List UInt8 × Value)) : Except String (List UInt8) := do
  let w ← Writer.new.serializeFields fields
  w.dump

/-- The type byte the items of an array are written with. -/
def Value.type : Value → UInt8
  | .leaf value => value.type.code
  | .object _ => SerializeType.object.code
  | .array _ _ => SerializeType.array.code

mutual

/-- The bytes of an entry of an object: the prefix and the leaf's payload; the entries, prefix and
count of an object; or the preamble and items of an array. The entries of an object are written
before its prefix, so their exceptions come first. -/
def encodeEntry (name : List UInt8) : Value → Except String (List UInt8)
  | .leaf leaf => do
    let prefixBytes ← elementPrefix leaf.type.code name
    let payload ← leaf.payload
    pure (prefixBytes ++ payload)
  | .object fields => do
    let body ← encodeEntries fields
    let prefixBytes ← elementPrefix SerializeType.object.code name
    let count ← writeArraySize (UInt64.ofNat fields.length)
    pure (prefixBytes ++ count ++ body)
  | .array first rest => do
    let preamble ← arrayPreamble name (UInt64.ofNat (rest.length + 1)) first.type
    let item ← encodeItem first
    let items ← encodeItems rest
    pure (preamble ++ item ++ items)

/-- The bytes of an item of an array after the preamble: a leaf's payload, or an object's count and
entries. An item that is an array is its size and items, as `loadValue` reads an item of type
`BIN_KV_SERIALIZE_TYPE_ARRAY`. -/
def encodeItem : Value → Except String (List UInt8)
  | .leaf leaf => leaf.payload
  | .object fields => do
    let body ← encodeEntries fields
    let count ← writeArraySize (UInt64.ofNat fields.length)
    pure (count ++ body)
  | .array first rest => do
    let size ← writeArraySize (UInt64.ofNat (rest.length + 1))
    let item ← encodeItem first
    let items ← encodeItems rest
    pure (size ++ item ++ items)

def encodeEntries : List (List UInt8 × Value) → Except String (List UInt8)
  | [] => pure []
  | (name, value) :: fields => do
    let entry ← encodeEntry name value
    let more ← encodeEntries fields
    pure (entry ++ more)

def encodeItems : List Value → Except String (List UInt8)
  | [] => pure []
  | item :: items => do
    let bytes ← encodeItem item
    let more ← encodeItems items
    pure (bytes ++ more)

end

mutual

/-- No array has an array among its items: `beginArray` does not call `checkArrayPreamble`, so the
writer never writes the preamble of an array of arrays. -/
def Value.writable : Value → Bool
  | .leaf _ => true
  | .object fields => fieldsWritable fields
  | .array first rest => first.type != SerializeType.array.code && first.writable && itemsWritable rest

def fieldsWritable : List (List UInt8 × Value) → Bool
  | [] => true
  | (_, value) :: fields => value.writable && fieldsWritable fields

def itemsWritable : List Value → Bool
  | [] => true
  | item :: items => item.type != SerializeType.array.code && item.writable && itemsWritable items

end

/-- The bytes `checkArrayPreamble` writes at a level: the preamble in `arrayPrefix`, nothing
otherwise. -/
def Level.preamble (level : Level) (type : UInt8) : Except String (List UInt8) :=
  if level.state = .arrayPrefix then arrayPreamble level.name level.count type else pure []

section Frame

variable {s : List UInt8} {streams : List (List UInt8)} {level : Level} {levels : List Level}

@[simp] theorem Writer.write_cons :
    (⟨s :: streams, levels⟩ : Writer).write = fun bytes => ⟨(s ++ bytes) :: streams, levels⟩ := rfl

theorem Writer.checkArrayPreamble_eq (type : UInt8) :
    (⟨s :: streams, level :: levels⟩ : Writer).checkArrayPreamble type =
      (fun preamble => ⟨(s ++ preamble) :: streams,
        (if level.state = .arrayPrefix then { level with state := .array } else level) :: levels⟩) <$>
        level.preamble type := by
  by_cases h : level.state = .arrayPrefix
  · simp [Writer.checkArrayPreamble, Level.preamble, h, bind_pure_comp]
  · simp [Writer.checkArrayPreamble, Level.preamble, h]

theorem Level.preamble_array (type : UInt8) (h : level.state = .array) : level.preamble type = pure [] := by
  simp [Level.preamble, h]

theorem Level.with_array (h : level.state = .array) : { level with state := .array } = level := by
  obtain ⟨state, name, count⟩ := level
  simp only at h
  subst h
  rfl

theorem Writer.writeElementPrefix_object (type : UInt8) (name : List UInt8) (h : level.state = .object) :
    (⟨s :: streams, level :: levels⟩ : Writer).writeElementPrefix type name =
      (fun bytes => ⟨(s ++ bytes) :: streams, { level with count := level.count + 1 } :: levels⟩) <$>
        elementPrefix type name := by
  simp [Writer.writeElementPrefix, Writer.checkArrayPreamble_eq, Level.preamble, h, bind_pure_comp]

theorem Writer.writeElementPrefix_item (type : UInt8) (name : List UInt8)
    (h : level.state = .arrayPrefix ∨ level.state = .array) :
    (⟨s :: streams, level :: levels⟩ : Writer).writeElementPrefix type name =
      (fun bytes => ⟨(s ++ bytes) :: streams, { level with state := .array } :: levels⟩) <$>
        level.preamble type := by
  rcases h with h | h
  · simp [Writer.writeElementPrefix, Writer.checkArrayPreamble_eq, h, bind_pure_comp]
  · simp [Writer.writeElementPrefix, Writer.checkArrayPreamble_eq, Level.preamble_array _ h, Level.with_array h, h]

theorem Writer.beginObject_object (name : List UInt8) (h : level.state = .object) :
    (⟨s :: streams, level :: levels⟩ : Writer).beginObject name =
      pure ⟨[] :: s :: streams, ⟨.object, name, 0⟩ :: level :: levels⟩ := by
  simp [Writer.beginObject, Writer.checkArrayPreamble_eq, Level.preamble, h]

theorem Writer.beginObject_item (name : List UInt8) (h : level.state = .arrayPrefix ∨ level.state = .array) :
    (⟨s :: streams, level :: levels⟩ : Writer).beginObject name =
      (fun preamble => ⟨[] :: (s ++ preamble) :: streams,
        ⟨.object, name, 0⟩ :: { level with state := .array } :: levels⟩) <$>
        level.preamble SerializeType.object.code := by
  rcases h with h | h
  · simp [Writer.beginObject, Writer.checkArrayPreamble_eq, h, bind_pure_comp]
  · simp [Writer.beginObject, Writer.checkArrayPreamble_eq, Level.preamble_array _ h, Level.with_array h, h]

theorem Writer.endArray_object {parent : Level} {name : List UInt8} {size : UInt64} (h : parent.state = .object) :
    (⟨streams, ⟨.array, name, size⟩ :: parent :: levels⟩ : Writer).endArray =
      ⟨streams, { parent with count := parent.count + 1 } :: levels⟩ := by
  simp [Writer.endArray, h]

end Frame

theorem count_add_succ (count : UInt64) (n : Nat) :
    count + 1 + UInt64.ofNat n = count + UInt64.ofNat (n + 1) := by
  rw [UInt64.ofNat_add, UInt64.ofNat_one, UInt64.add_assoc, UInt64.add_comm 1]

/-! The serializer refines `encodeEntry`: one lemma for a value written as an entry of an object, one
for a value written as an item of an array, and one for each loop over the entries and items. The
recursion follows the value. -/

mutual

theorem Writer.serializeValue_entry : ∀ (v : Value) {name s : List UInt8} {streams : List (List UInt8)}
    {level : Level} {levels : List Level}, level.state = .object → v.writable →
    (⟨s :: streams, level :: levels⟩ : Writer).serializeValue name v =
      (fun bytes => ⟨(s ++ bytes) :: streams, { level with count := level.count + 1 } :: levels⟩) <$>
        encodeEntry name v
  | .leaf leaf, name, s, streams, level, levels, h, _ => by
    simp [Writer.serializeValue, Writer.writeLeaf, Writer.writeElementPrefix_object _ _ h, encodeEntry, map_bind]
  | .object fields, name, s, streams, level, levels, h, hw => by
    have hfields : fieldsWritable fields := by simpa [Value.writable] using hw
    simp only [Writer.serializeValue, Writer.beginObject_object _ h, pure_bind]
    simp [Writer.serializeFields_eq fields, hfields, Writer.endObject, Writer.writeElementPrefix_object _ _ h,
      encodeEntry, map_bind]
  | .array first rest, name, s, streams, level, levels, h, hw => by
    simp only [Value.writable, Bool.and_eq_true, bne_iff_ne, ne_eq] at hw
    obtain ⟨⟨htype, hfirst⟩, hrest⟩ := hw
    simp only [Writer.serializeValue, Writer.beginArray]
    -- the first item writes the preamble and turns the array's level to `array`
    rw [@Writer.serializeValue_item first _ _ ⟨.arrayPrefix, name, _⟩ _ (Or.inl rfl) htype hfirst]
    simp [Writer.serializeItems_eq rest, hrest, Writer.endArray_object h, encodeEntry, Level.preamble, map_bind]

theorem Writer.serializeValue_item : ∀ (v : Value) {s : List UInt8} {streams : List (List UInt8)} {level : Level}
    {levels : List Level}, (level.state = .arrayPrefix ∨ level.state = .array) →
    v.type ≠ SerializeType.array.code → v.writable →
    (⟨s :: streams, level :: levels⟩ : Writer).serializeValue [] v =
      (fun bytes => ⟨(s ++ bytes) :: streams, { level with state := .array } :: levels⟩) <$>
        (do let preamble ← level.preamble v.type; let payload ← encodeItem v; pure (preamble ++ payload))
  | .leaf leaf, s, streams, level, levels, h, _, _ => by
    simp [Writer.serializeValue, Writer.writeLeaf, Writer.writeElementPrefix_item _ _ h, encodeItem, Value.type,
      map_bind]
  | .object fields, s, streams, level, levels, h, _, hw => by
    have hfields : fieldsWritable fields := by simpa [Value.writable] using hw
    simp only [Writer.serializeValue, Writer.beginObject_item _ h, bind_map_left]
    simp [Writer.serializeFields_eq fields, hfields, Writer.endObject, Writer.writeElementPrefix_item,
      Level.preamble_array, encodeItem, Value.type, map_bind]
  | .array _ _, _, _, _, _, _, htype, _ => absurd rfl htype

theorem Writer.serializeFields_eq : ∀ (fields : List (List UInt8 × Value)) {s : List UInt8}
    {streams : List (List UInt8)} {level : Level} {levels : List Level}, level.state = .object →
    fieldsWritable fields →
    (⟨s :: streams, level :: levels⟩ : Writer).serializeFields fields =
      (fun body => ⟨(s ++ body) :: streams,
        { level with count := level.count + UInt64.ofNat fields.length } :: levels⟩) <$> encodeEntries fields
  | [], s, streams, level, levels, _, _ => by
    simp [Writer.serializeFields, encodeEntries]
  | (name, value) :: fields, s, streams, level, levels, h, hw => by
    simp only [fieldsWritable, Bool.and_eq_true] at hw
    obtain ⟨hvalue, hfields⟩ := hw
    simp only [Writer.serializeFields, Writer.serializeValue_entry value h hvalue, bind_map_left]
    simp [Writer.serializeFields_eq fields, h, hfields, encodeEntries, map_bind, count_add_succ]

theorem Writer.serializeItems_eq : ∀ (items : List Value) {s : List UInt8} {streams : List (List UInt8)}
    {level : Level} {levels : List Level}, level.state = .array → itemsWritable items →
    (⟨s :: streams, level :: levels⟩ : Writer).serializeItems items =
      (fun bytes => ⟨(s ++ bytes) :: streams, level :: levels⟩) <$> encodeItems items
  | [], s, streams, level, levels, _, _ => by
    simp [Writer.serializeItems, encodeItems]
  | item :: items, s, streams, level, levels, h, hw => by
    simp only [itemsWritable, Bool.and_eq_true, bne_iff_ne, ne_eq] at hw
    obtain ⟨⟨htype, hitem⟩, hitems⟩ := hw
    -- after the first item the level is `array`, and an item writes no preamble there
    simp only [Writer.serializeItems, Writer.serializeValue_item item (Or.inr h) htype hitem, Level.preamble_array _ h,
      Level.with_array h, bind_map_left, pure_bind]
    simp [Writer.serializeItems_eq items h hitems, encodeItems, map_bind]

end

/-- What `storeToBinaryKeyValue` writes: the header, the count of the members and their entries. -/
theorem storeToBinaryKeyValue_eq (fields : List (List UInt8 × Value)) (hfields : fieldsWritable fields) :
    storeToBinaryKeyValue fields = (do
      let body ← encodeEntries fields
      let count ← writeArraySize (UInt64.ofNat fields.length)
      pure (storageBlockHeader ++ count ++ body)) := by
  simp [storeToBinaryKeyValue, Writer.new, Writer.serializeFields_eq fields, hfields, Writer.dump]

end KVBinary

end Crygcoin
