import Mathlib
import Crygcoin.AmountText

namespace Crygcoin

namespace Common

/-! `Common::JsonValue` as text (`JsonValue.cpp`). `operator<<` writes arrays, objects, literals
and integers as JSON does, but writes strings and object keys as they are between quotes, with no
escaping. `operator>>` reads a character at a time with `in >> c`, which skips spaces also inside
strings, and keeps a backslash and the character after it as they are. A character of a string
stands for a byte of the `std::string`. -/

/-- `Common::JsonValue` without `REAL` values. An object is its `std::map` as the list of its
members in the order of their keys. -/
inductive JsonValue
  | array (elements : List JsonValue)
  | bool (value : Bool)
  | integer (value : Int64)
  | null
  | object (members : List (List Char × JsonValue))
  | string (value : List Char)
deriving Repr

namespace JsonValue

/-- `out << valueInteger` for an `int64_t`. -/
def writeInteger (value : Int64) : List Char :=
  if value.toInt < 0 then '-' :: Nat.toDigits 10 value.toInt.natAbs else Nat.toDigits 10 value.toInt.natAbs

mutual

def write : JsonValue → List Char
  | .array elements => '[' :: writeElements elements ++ [']']
  | .bool value => if value then ['t', 'r', 'u', 'e'] else ['f', 'a', 'l', 's', 'e']
  | .integer value => writeInteger value
  | .null => ['n', 'u', 'l', 'l']
  | .object members => '{' :: writeMembers members ++ ['}']
  | .string value => '"' :: value ++ ['"']

/-- The elements of an array, with a comma before each but the first. -/
def writeElements : List JsonValue → List Char
  | [] => []
  | [element] => write element
  | element :: elements => write element ++ ',' :: writeElements elements

/-- The members of an object: the key between quotes, a colon and the value, with a comma before
each but the first. -/
def writeMembers : List (List Char × JsonValue) → List Char
  | [] => []
  | [(key, value)] => '"' :: key ++ '"' :: ':' :: write value
  | (key, value) :: members => '"' :: key ++ '"' :: ':' :: write value ++ ',' :: writeMembers members

end

def toString (value : JsonValue) : List Char :=
  write value

/-- `readChar`: `in >> c` skips spaces and takes one character. -/
def readChar : List Char → Except String (Char × List Char)
  | [] => .error "Unable to parse: unexpected end of stream"
  | c :: rest => if isSpace c then readChar rest else .ok (c, rest)

/-- `readNonWsChar`. Its loop stops after the first round, as `readChar` returns no space. -/
def readNonWsChar (input : List Char) : Except String (Char × List Char) :=
  readChar input

/-- `readStringToken`, up to and without the closing quote; `escaped` is set after a backslash,
whose next character is taken as it is. Each character is read with `readChar`. -/
def readStringToken (escaped : Bool) : List Char → Except String (List Char × List Char)
  | [] => .error "Unable to parse: unexpected end of stream"
  | c :: rest =>
    if isSpace c then readStringToken escaped rest
    else if escaped then (readStringToken false rest).map fun (value, rest) => (c :: value, rest)
    else if c = '"' then .ok ([], rest)
    else if c = '\\' then (readStringToken true rest).map fun (value, rest) => (c :: value, rest)
    else (readStringToken false rest).map fun (value, rest) => (c :: value, rest)

/-- A character `readNumber` takes with `in.peek()`, which does not skip spaces. -/
def isNumberChar (c : Char) : Bool :=
  c.isDigit || c == '.'

/-- `std::istringstream(text) >> value` for an `int64_t` on a sign and digits: the value, the bound
where it does not fit, and 0 where no digit follows the sign. -/
def parseInteger : List Char → Int64
  | '-' :: digits =>
    if digits = [] then 0 else Int64.ofInt (max (-(Nat.ofDigitChars 10 digits 0 : Int)) Int64.minValue.toInt)
  | digits => Int64.ofInt (min (Nat.ofDigitChars 10 digits 0 : Int) Int64.maxValue.toInt)

/-- What the model gives for the `REAL` branch of `readNumber`, which it leaves out. -/
def realNotModelled : String :=
  "REAL"

/-- `JsonValue::readNumber` after its first character `c`. -/
def readNumber (c : Char) (input : List Char) : Except String (JsonValue × List Char) :=
  let text := c :: input.takeWhile isNumberChar
  let rest := input.dropWhile isNumberChar
  let dots := text.count '.'
  if dots > 0 then
    if dots > 1 then .error "Unable to parse" else .error realNotModelled
  else if text.length > 1 ∧ (text.head? = some '0' ∨ (text.head? = some '-' ∧ text[1]? = some '0')) then
    .error "Unable to parse"
  else .ok (.integer (parseInteger text), rest)

/-- `in.read(data, n)` of `readTrue`, `readFalse` and `readNull`, compared with the letters the
literal has after its first. -/
def readLiteral (letters : List Char) (value : JsonValue) (input : List Char) : Except String (JsonValue × List Char) :=
  if input.take letters.length = letters then .ok (value, input.drop letters.length) else .error "Unable to parse"

def readTrue (input : List Char) : Except String (JsonValue × List Char) :=
  readLiteral ['r', 'u', 'e'] (.bool true) input

def readFalse (input : List Char) : Except String (JsonValue × List Char) :=
  readLiteral ['a', 'l', 's', 'e'] (.bool false) input

def readNull (input : List Char) : Except String (JsonValue × List Char) :=
  readLiteral ['u', 'l', 'l'] .null input

/-- `value[name]` of `readObject` followed by the read of the value into it: the member is added,
or replaces the one of the same key, in the order of the keys. -/
def insertMember (name : List Char) (value : JsonValue) : List (List Char × JsonValue) → List (List Char × JsonValue)
  | [] => [(name, value)]
  | (key, old) :: members =>
    if name = key then (name, value) :: members
    else if name < key then (name, value) :: (key, old) :: members
    else (key, old) :: insertMember name value members

/-- What the model gives once its fuel runs out. -/
def outOfFuel : String :=
  "out of fuel"

mutual

/-- `operator>>(std::istream&, JsonValue&)`; `fuel` bounds the calls of the reader. -/
def readValue : Nat → List Char → Except String (JsonValue × List Char)
  | 0, _ => .error outOfFuel
  | fuel + 1, input => do
    let (c, rest) ← readNonWsChar input
    if c = '[' then
      -- `readArray`: the character after `[` is put back unless it closes the array
      let (c', rest') ← readNonWsChar rest
      if c' = ']' then pure (.array [], rest')
      else (readElements fuel [] rest).map fun (elements, rest) => (.array elements, rest)
    else if c = 't' then readTrue rest
    else if c = 'f' then readFalse rest
    else if c = '-' ∨ ('0' ≤ c ∧ c ≤ '9') then readNumber c rest
    else if c = 'n' then readNull rest
    else if c = '{' then
      -- `readObject`
      let (c', rest') ← readNonWsChar rest
      if c' = '}' then pure (.object [], rest')
      else (readMembers fuel [] c' rest').map fun (members, rest) => (.object members, rest)
    else if c = '"' then (readStringToken false rest).map fun (value, rest) => (.string value, rest)
    else .error "Unable to parse"

/-- The loop of `readArray`: an element, then `]`, or a comma and the next element. -/
def readElements : Nat → List JsonValue → List Char → Except String (List JsonValue × List Char)
  | 0, _, _ => .error outOfFuel
  | fuel + 1, elements, input => do
    let (element, rest) ← readValue fuel input
    let (c, rest) ← readNonWsChar rest
    if c = ']' then pure (elements ++ [element], rest)
    else if c ≠ ',' then .error "Unable to parse"
    else readElements fuel (elements ++ [element]) rest

/-- The loop of `readObject`, from the character `c` read before the next name. -/
def readMembers : Nat → List (List Char × JsonValue) → Char → List Char →
    Except String (List (List Char × JsonValue) × List Char)
  | 0, _, _, _ => .error outOfFuel
  | fuel + 1, members, c, input => do
    if c ≠ '"' then .error "Unable to parse"
    else
      let (name, rest) ← readStringToken false input
      let (c, rest) ← readNonWsChar rest
      if c ≠ ':' then .error "Unable to parse"
      else
        let (value, rest) ← readValue fuel rest
        let members := insertMember name value members
        let (c, rest) ← readNonWsChar rest
        if c = '}' then pure (members, rest)
        else if c ≠ ',' then .error "Unable to parse"
        else
          let (c, rest) ← readNonWsChar rest
          readMembers fuel members c rest

end

/-- `JsonValue::fromString`: `operator>>` on the whole text. Every call of the reader takes a
character before the next but one, so twice the length of the text is fuel enough. -/
def fromString (source : List Char) : Except String JsonValue :=
  (readValue (2 * source.length + 1) source).map Prod.fst

section Tokens

/-- The texts `readStringToken` reads back whole before a closing quote: no spaces, and every quote
or backslash the second character of a pair that a backslash starts. -/
def isTokenText (escaped : Bool) : List Char → Bool
  | [] => !escaped
  | c :: rest => !isSpace c && if escaped then isTokenText false rest else c != '"' && isTokenText (c == '\\') rest

theorem readChar_cons {c : Char} (hc : isSpace c = false) (rest : List Char) : readChar (c :: rest) = .ok (c, rest) := by
  rw [readChar, hc, if_neg Bool.false_ne_true]

theorem readStringToken_append {escaped : Bool} {text : List Char} (htext : isTokenText escaped text = true)
    (rest : List Char) : readStringToken escaped (text ++ '"' :: rest) = .ok (text, rest) := by
  induction text generalizing escaped with
  | nil =>
    have hescaped : escaped = false := by simpa [isTokenText] using htext
    subst hescaped
    rfl
  | cons c text ih =>
    simp only [isTokenText, Bool.and_eq_true, Bool.not_eq_true'] at htext
    obtain ⟨hspace, htext⟩ := htext
    rw [List.cons_append, readStringToken, hspace, if_neg Bool.false_ne_true]
    cases escaped with
    | true =>
      rw [if_pos rfl, ih htext]
      rfl
    | false =>
      simp only [Bool.false_eq_true, ↓reduceIte, Bool.and_eq_true, bne_iff_ne, ne_eq] at htext ⊢
      obtain ⟨hquote, htext⟩ := htext
      rw [if_neg hquote]
      by_cases hslash : c = '\\'
      · rw [beq_iff_eq.mpr hslash] at htext
        rw [if_pos hslash, ih htext]
        rfl
      · rw [beq_eq_false_iff_ne.mpr hslash] at htext
        rw [if_neg hslash, ih htext]
        rfl

end Tokens

section Integers

/-- What may follow a value in the text: nothing, or a character `readNumber` does not take. -/
def NumberEnd (rest : List Char) : Prop :=
  ∀ c tail, rest = c :: tail → isNumberChar c = false

theorem numberEnd_nil : NumberEnd [] := by
  intro c tail h
  cases h

theorem numberEnd_cons {c : Char} (hc : isNumberChar c = false) (tail : List Char) : NumberEnd (c :: tail) := by
  intro d rest h
  rw [(List.cons.inj h).1.symm]
  exact hc

theorem head?_toDigits_ne_zero {n : Nat} (hn : 0 < n) : (Nat.toDigits 10 n).head? ≠ some '0' := by
  induction n using Nat.strong_induction_on with
  | _ n ih =>
    rw [Nat.toDigits_eq_if (by decide)]
    split
    · rename_i hlt
      rw [List.head?_cons, ne_eq, Option.some.injEq]
      interval_cases n <;> decide
    · rename_i hge
      rw [List.head?_append_of_ne_nil _ Nat.toDigits_ne_nil]
      exact ih (n / 10) (by omega) (by omega)

theorem isDigit_of_mem_toDigits {n : Nat} {c : Char} (hc : c ∈ Nat.toDigits 10 n) : c.isDigit = true :=
  Nat.isDigit_of_mem_toDigits (by decide) (by decide) hc

theorem isSpace_of_isDigit {c : Char} (hc : c.isDigit = true) : isSpace c = false :=
  isSpace_eq_false hc

theorem takeWhile_dropWhile_digits {digits rest : List Char} (hdigits : ∀ c ∈ digits, c.isDigit = true)
    (hrest : NumberEnd rest) :
    (digits ++ rest).takeWhile isNumberChar = digits ∧ (digits ++ rest).dropWhile isNumberChar = rest := by
  have hnumber : ∀ c ∈ digits, isNumberChar c = true := fun c hc => by simp [isNumberChar, hdigits c hc]
  rw [List.takeWhile_append_of_pos hnumber, List.dropWhile_append_of_pos hnumber]
  cases rest with
  | nil => exact ⟨List.append_nil _, rfl⟩
  | cons c tail =>
    have hc := hrest c tail rfl
    rw [List.takeWhile_cons, List.dropWhile_cons, hc]
    exact ⟨List.append_nil _, rfl⟩

theorem readNumber_digits {c : Char} {digits rest : List Char} (hc : c = '-' ∨ c.isDigit = true)
    (hdigits : ∀ d ∈ digits, d.isDigit = true) (hrest : NumberEnd rest)
    (hzero : (c :: digits).length > 1 → (c :: digits).head? ≠ some '0' ∧ (c = '-' → digits.head? ≠ some '0')) :
    readNumber c (digits ++ rest) = .ok (.integer (parseInteger (c :: digits)), rest) := by
  obtain ⟨htake, hdrop⟩ := takeWhile_dropWhile_digits hdigits hrest
  have hdots : (c :: digits).count '.' = 0 := by
    rw [List.count_eq_zero]
    intro hmem
    rcases List.mem_cons.mp hmem with hpoint | hpoint
    · rcases hc with rfl | hc
      · exact absurd hpoint (by decide)
      · rw [← hpoint] at hc
        exact absurd hc (by decide)
    · exact absurd (hdigits '.' hpoint) (by decide)
  have hcheck : ¬((c :: digits).length > 1 ∧
      ((c :: digits).head? = some '0' ∨ ((c :: digits).head? = some '-' ∧ (c :: digits)[1]? = some '0'))) := by
    rintro ⟨hlong, hlead⟩
    obtain ⟨hhead, hminus⟩ := hzero hlong
    rcases hlead with hlead | ⟨hsign, hsecond⟩
    · exact hhead hlead
    · have hsign' : c = '-' := by simpa using hsign
      apply hminus hsign'
      cases digits with
      | nil => simp at hsecond
      | cons d ds => simpa using hsecond
  rw [readNumber, htake, hdrop, hdots, if_neg (Nat.lt_irrefl 0), if_neg hcheck]

theorem parseInteger_negative (n : Nat) :
    parseInteger ('-' :: Nat.toDigits 10 n) = Int64.ofInt (max (-(n : Int)) Int64.minValue.toInt) := by
  rw [parseInteger, if_neg Nat.toDigits_ne_nil, Nat.ofDigitChars_ten_toDigits]

theorem parseInteger_digits {n : Nat} : parseInteger (Nat.toDigits 10 n) = Int64.ofInt (min (n : Int) Int64.maxValue.toInt) := by
  obtain ⟨d, ds, hds⟩ := List.exists_cons_of_ne_nil (Nat.toDigits_ne_nil (n := n) (b := 10))
  have hd : d ≠ '-' := by
    rintro rfl
    exact absurd (isDigit_of_mem_toDigits (hds ▸ List.mem_cons_self)) (by decide)
  rw [hds, parseInteger.eq_2 _ (by rintro digits ⟨⟩; exact hd rfl), ← hds, Nat.ofDigitChars_ten_toDigits]

theorem readNumber_writeInteger (value : Int64) {rest : List Char} (hrest : NumberEnd rest) :
    ∃ c digits, writeInteger value = c :: digits ∧ (c = '-' ∨ c.isDigit = true) ∧
      readNumber c (digits ++ rest) = .ok (.integer value, rest) := by
  by_cases hneg : value.toInt < 0
  · have hpos : 0 < value.toInt.natAbs := by omega
    refine ⟨'-', Nat.toDigits 10 value.toInt.natAbs, by rw [writeInteger, if_pos hneg], Or.inl rfl, ?_⟩
    rw [readNumber_digits (Or.inl rfl) (fun d hd => isDigit_of_mem_toDigits hd) hrest
      (fun _ => ⟨by simp, fun _ => head?_toDigits_ne_zero hpos⟩), parseInteger_negative]
    have hvalue : -(value.toInt.natAbs : Int) = value.toInt := by omega
    rw [hvalue, max_eq_left (Int64.minValue_le_toInt value), Int64.ofInt_toInt]
  · obtain ⟨d, ds, hds⟩ := List.exists_cons_of_ne_nil (Nat.toDigits_ne_nil (n := value.toInt.natAbs) (b := 10))
    have hd : d.isDigit = true := isDigit_of_mem_toDigits (hds ▸ List.mem_cons_self)
    refine ⟨d, ds, by rw [writeInteger, if_neg hneg, hds], Or.inr hd, ?_⟩
    have hzero : (d :: ds).length > 1 → (d :: ds).head? ≠ some '0' ∧ (d = '-' → ds.head? ≠ some '0') := by
      intro hlong
      refine ⟨?_, fun hminus => absurd (hminus ▸ hd) (by decide)⟩
      have hpos : 0 < value.toInt.natAbs := by
        apply Nat.pos_of_ne_zero
        intro hzero
        rw [hzero, Nat.toDigits_zero] at hds
        rw [← hds] at hlong
        exact absurd hlong (by decide)
      rw [← hds]
      exact head?_toDigits_ne_zero hpos
    rw [readNumber_digits (Or.inr hd) (fun e he => isDigit_of_mem_toDigits (hds ▸ List.mem_cons_of_mem d he)) hrest hzero,
      ← hds, parseInteger_digits]
    have hvalue : (value.toInt.natAbs : Int) = value.toInt := by omega
    rw [hvalue, min_eq_left (Int64.toInt_le value), Int64.ofInt_toInt]

end Integers

section Reader

variable {fuel : Nat}

theorem readValue_array_nil (rest : List Char) : readValue (fuel + 1) ('[' :: ']' :: rest) = .ok (.array [], rest) :=
  rfl

theorem readValue_object_nil (rest : List Char) : readValue (fuel + 1) ('{' :: '}' :: rest) = .ok (.object [], rest) :=
  rfl

theorem readValue_array {c : Char} (hc : isSpace c = false) (hclose : c ≠ ']') (input : List Char) :
    readValue (fuel + 1) ('[' :: c :: input) =
      (readElements fuel [] (c :: input)).map fun (elements, rest) => (.array elements, rest) := by
  rw [readValue, readNonWsChar, readChar_cons (by decide)]
  simp only [bind, Except.bind, if_pos, readNonWsChar, readChar_cons hc, if_neg hclose]

theorem readElements_cons {elements : List JsonValue} {input rest : List Char} {element : JsonValue} {c : Char}
    (hvalue : readValue fuel input = .ok (element, c :: rest)) (hc : isSpace c = false) :
    readElements (fuel + 1) elements input =
      if c = ']' then .ok (elements ++ [element], rest)
      else if c ≠ ',' then .error "Unable to parse" else readElements fuel (elements ++ [element]) rest := by
  rw [readElements, hvalue]
  simp only [bind, Except.bind, pure, Except.pure, readNonWsChar, readChar_cons hc]

theorem readMembers_cons {members : List (List Char × JsonValue)} {input afterKey rest key : List Char}
    {value : JsonValue} {c : Char} (hkey : readStringToken false input = .ok (key, ':' :: afterKey))
    (hvalue : readValue fuel afterKey = .ok (value, c :: rest)) (hc : isSpace c = false) :
    readMembers (fuel + 1) members '"' input =
      if c = '}' then .ok (insertMember key value members, rest)
      else if c ≠ ',' then .error "Unable to parse"
      else (readNonWsChar rest).bind fun (c, rest) => readMembers fuel (insertMember key value members) c rest := by
  rw [readMembers, if_neg (not_not.mpr rfl), hkey]
  simp only [bind, Except.bind, pure, Except.pure, readNonWsChar,
    readChar_cons (show isSpace ':' = false from rfl), ne_eq, not_true_eq_false, if_false, hvalue, readChar_cons hc]

theorem readValue_object {input : List Char} :
    readValue (fuel + 1) ('{' :: '"' :: input) =
      (readMembers fuel [] '"' input).map fun (members, rest) => (.object members, rest) :=
  rfl

theorem readValue_string (input : List Char) :
    readValue (fuel + 1) ('"' :: input) = (readStringToken false input).map fun (value, rest) => (.string value, rest) :=
  rfl

theorem readValue_literal (value : Bool) (rest : List Char) :
    readValue (fuel + 1) (write (.bool value) ++ rest) = .ok (.bool value, rest) := by
  cases value <;> rfl

theorem readValue_null (rest : List Char) : readValue (fuel + 1) (write .null ++ rest) = .ok (.null, rest) :=
  rfl

theorem readValue_number {c : Char} (hc : c = '-' ∨ c.isDigit = true) (input : List Char) :
    readValue (fuel + 1) (c :: input) = readNumber c input := by
  rcases hc with rfl | hdigit
  · rfl
  · have hspace := isSpace_of_isDigit hdigit
    have hrange : '0' ≤ c ∧ c ≤ '9' := by
      simpa [Char.isDigit, Char.le_def] using hdigit
    have hne : ∀ d : Char, d.isDigit = false → c ≠ d := by
      rintro d hd rfl
      rw [hdigit] at hd
      cases hd
    rw [readValue, readNonWsChar, readChar_cons hspace]
    simp only [bind, Except.bind, if_neg (hne '[' rfl), if_neg (hne 't' rfl), if_neg (hne 'f' rfl),
      if_pos (Or.inr hrange)]

theorem readValue_integer (value : Int64) {rest : List Char} (hrest : NumberEnd rest) :
    readValue (fuel + 1) (write (.integer value) ++ rest) = .ok (.integer value, rest) := by
  obtain ⟨c, digits, hwrite, hc, hread⟩ := readNumber_writeInteger value hrest
  rw [write, hwrite, List.cons_append, readValue_number hc, hread]

end Reader

section RoundTrip

mutual

/-- A bound on the calls of the reader that the text of a value takes. -/
def size : JsonValue → Nat
  | .array elements => sizeElements elements + 1
  | .object members => sizeMembers members + 1
  | _ => 1

def sizeElements : List JsonValue → Nat
  | [] => 0
  | element :: elements => size element + sizeElements elements + 1

def sizeMembers : List (List Char × JsonValue) → Nat
  | [] => 0
  | (_, value) :: members => size value + sizeMembers members + 1

end

mutual

/-- The values whose text reads back: every string and key a token text, and the keys of every
object in increasing order, as the keys of a `std::map` are. -/
def wellFormed : JsonValue → Bool
  | .array elements => elementsWellFormed elements
  | .object members => decide ((members.map Prod.fst).Pairwise (· < ·)) && membersWellFormed members
  | .string value => isTokenText false value
  | _ => true

def elementsWellFormed : List JsonValue → Bool
  | [] => true
  | element :: elements => wellFormed element && elementsWellFormed elements

def membersWellFormed : List (List Char × JsonValue) → Bool
  | [] => true
  | (key, value) :: members => isTokenText false key && wellFormed value && membersWellFormed members

end

theorem size_pos (value : JsonValue) : 0 < size value := by
  cases value <;> simp [size]

theorem write_array_append (elements : List JsonValue) (rest : List Char) :
    write (.array elements) ++ rest = '[' :: (writeElements elements ++ ']' :: rest) := by
  simp [write]

theorem write_object_append (members : List (List Char × JsonValue)) (rest : List Char) :
    write (.object members) ++ rest = '{' :: (writeMembers members ++ '}' :: rest) := by
  simp [write]

theorem writeElements_cons_cons (element element' : JsonValue) (elements : List JsonValue) :
    writeElements (element :: element' :: elements) = write element ++ ',' :: writeElements (element' :: elements) :=
  rfl

theorem writeMembers_cons_cons (key : List Char) (value : JsonValue) (member : List Char × JsonValue)
    (members : List (List Char × JsonValue)) :
    writeMembers ((key, value) :: member :: members) =
      '"' :: key ++ '"' :: ':' :: write value ++ ',' :: writeMembers (member :: members) :=
  rfl

theorem writeMembers_cons (member : List Char × JsonValue) (members : List (List Char × JsonValue)) :
    ∃ tail, writeMembers (member :: members) = '"' :: tail := by
  obtain ⟨key, value⟩ := member
  cases members <;> exact ⟨_, rfl⟩

theorem write_eq_cons (value : JsonValue) : ∃ c tail, write value = c :: tail ∧ isSpace c = false ∧ c ≠ ']' := by
  cases value with
  | integer value =>
    obtain ⟨c, digits, hwrite, hc, -⟩ := readNumber_writeInteger value numberEnd_nil
    refine ⟨c, digits, hwrite, ?_, ?_⟩
    · rcases hc with rfl | hc
      · rfl
      · exact isSpace_of_isDigit hc
    · rintro rfl
      rcases hc with hc | hc <;> cases hc
  | bool value => cases value <;> exact ⟨_, _, rfl, rfl, by decide⟩
  | array => exact ⟨_, _, rfl, rfl, by decide⟩
  | null => exact ⟨_, _, rfl, rfl, by decide⟩
  | object => exact ⟨_, _, rfl, rfl, by decide⟩
  | string => exact ⟨_, _, rfl, rfl, by decide⟩

theorem writeElements_eq_cons (element : JsonValue) (elements : List JsonValue) :
    ∃ c tail, writeElements (element :: elements) = c :: tail ∧ isSpace c = false ∧ c ≠ ']' := by
  obtain ⟨c, tail, hwrite, hspace, hclose⟩ := write_eq_cons element
  cases elements with
  | nil => exact ⟨c, tail, hwrite, hspace, hclose⟩
  | cons element' elements =>
    rw [writeElements_cons_cons, hwrite]
    exact ⟨c, _, rfl, hspace, hclose⟩

theorem insertMember_of_lt {name : List Char} {members : List (List Char × JsonValue)}
    (hlt : ∀ key ∈ members.map Prod.fst, key < name) (value : JsonValue) :
    insertMember name value members = members ++ [(name, value)] := by
  induction members with
  | nil => rfl
  | cons member members ih =>
    obtain ⟨key, old⟩ := member
    have hkey : key < name := hlt key List.mem_cons_self
    have hne : name ≠ key := fun h => List.lt_irrefl key (h ▸ hkey)
    rw [insertMember, if_neg hne, if_neg (List.lt_asymm hkey), ih fun k hk => hlt k (List.mem_cons_of_mem key hk)]
    rfl

theorem lt_of_pairwise_append {acc members : List (List Char × JsonValue)} {name : List Char} {value : JsonValue}
    (hsorted : ((acc ++ (name, value) :: members).map Prod.fst).Pairwise (· < ·)) :
    ∀ key ∈ acc.map Prod.fst, key < name := by
  rw [List.map_append, List.pairwise_append] at hsorted
  intro key hkey
  exact hsorted.2.2 key hkey name List.mem_cons_self

section
variable {fuel : Nat}

mutual

theorem readValue_write : ∀ (value : JsonValue) (fuel : Nat) (rest : List Char),
    wellFormed value = true → size value ≤ fuel → NumberEnd rest →
      readValue fuel (write value ++ rest) = .ok (value, rest)
  | .array [], fuel + 1, rest, _, _, _ => by
    rw [write_array_append]
    exact readValue_array_nil rest
  | .array (element :: elements), fuel + 1, rest, hwf, hsize, _ => by
    obtain ⟨c, tail, hwrite, hspace, hclose⟩ := writeElements_eq_cons element elements
    have hread := readElements_write (element :: elements) fuel [] rest (List.cons_ne_nil _ _) hwf
      (by simp only [size] at hsize; omega)
    rw [hwrite, List.cons_append] at hread
    rw [write_array_append, hwrite, List.cons_append, readValue_array hspace hclose, hread]
    rfl
  | .bool value, fuel + 1, rest, _, _, _ => readValue_literal value rest
  | .integer value, fuel + 1, rest, _, _, hrest => readValue_integer value hrest
  | .null, fuel + 1, rest, _, _, _ => readValue_null rest
  | .object [], fuel + 1, rest, _, _, _ => by
    rw [write_object_append]
    exact readValue_object_nil rest
  | .object ((key, value) :: members), fuel + 1, rest, hwf, hsize, _ => by
    simp only [wellFormed, Bool.and_eq_true, decide_eq_true_eq] at hwf
    obtain ⟨tail, hwrite⟩ := writeMembers_cons (key, value) members
    have hread := readMembers_write ((key, value) :: members) fuel [] rest (List.cons_ne_nil _ _) hwf.2
      (by rw [List.nil_append]; exact hwf.1) (by simp only [size] at hsize; omega)
    rw [hwrite, List.tail_cons] at hread
    rw [write_object_append, hwrite, List.cons_append, readValue_object, hread]
    rfl
  | .string value, fuel + 1, rest, hwf, _, _ => by
    have htoken : isTokenText false value = true := hwf
    simp only [write, List.cons_append, List.append_assoc]
    rw [readValue_string, readStringToken_append htoken]
    rfl
  | value, 0, _, _, hsize, _ => absurd hsize (Nat.not_le.mpr (size_pos value))

theorem readElements_write : ∀ (elements : List JsonValue) (fuel : Nat) (acc : List JsonValue) (rest : List Char),
    elements ≠ [] → elementsWellFormed elements = true → sizeElements elements ≤ fuel →
      readElements fuel acc (writeElements elements ++ ']' :: rest) = .ok (acc ++ elements, rest)
  | [element], fuel + 1, acc, rest, _, hwf, hsize => by
    simp only [elementsWellFormed, Bool.and_eq_true] at hwf
    have hvalue := readValue_write element fuel (']' :: rest) hwf.1 (by simp only [sizeElements] at hsize; omega)
      (numberEnd_cons (by decide) rest)
    rw [writeElements, readElements_cons hvalue rfl, if_pos rfl]
  | element :: element' :: elements, fuel + 1, acc, rest, _, hwf, hsize => by
    simp only [elementsWellFormed, Bool.and_eq_true] at hwf
    simp only [sizeElements] at hsize
    have hvalue := readValue_write element fuel (',' :: (writeElements (element' :: elements) ++ ']' :: rest)) hwf.1
      (by omega) (numberEnd_cons (by decide) _)
    have hnext := readElements_write (element' :: elements) fuel (acc ++ [element]) rest (List.cons_ne_nil _ _)
      (by simp only [elementsWellFormed, Bool.and_eq_true]; exact hwf.2) (by simp only [sizeElements]; omega)
    rw [writeElements_cons_cons, List.append_assoc, List.cons_append, readElements_cons hvalue rfl,
      if_neg (by decide), if_neg (by decide), hnext, List.append_assoc, List.singleton_append]
  | [], _, _, _, hne, _, _ => absurd rfl hne
  | _ :: _, 0, _, _, _, _, hsize => absurd hsize (by simp [sizeElements])

theorem readMembers_write : ∀ (members : List (List Char × JsonValue)) (fuel : Nat)
    (acc : List (List Char × JsonValue)) (rest : List Char),
    members ≠ [] → membersWellFormed members = true → ((acc ++ members).map Prod.fst).Pairwise (· < ·) →
      sizeMembers members ≤ fuel →
      readMembers fuel acc '"' ((writeMembers members).tail ++ '}' :: rest) = .ok (acc ++ members, rest)
  | [(key, value)], fuel + 1, acc, rest, _, hwf, hsorted, hsize => by
    rw [membersWellFormed, Bool.and_eq_true, Bool.and_eq_true] at hwf
    obtain ⟨⟨hkey, hvalue⟩, -⟩ := hwf
    have hread := readValue_write value fuel ('}' :: rest) hvalue (by simp only [sizeMembers] at hsize; omega)
      (numberEnd_cons (by decide) rest)
    have hname := readStringToken_append hkey (':' :: (write value ++ '}' :: rest))
    rw [writeMembers]
    simp only [List.cons_append, List.append_assoc, List.tail_cons]
    rw [readMembers_cons hname hread rfl, if_pos rfl, insertMember_of_lt (lt_of_pairwise_append hsorted)]
  | (key, value) :: member :: members, fuel + 1, acc, rest, _, hwf, hsorted, hsize => by
    rw [membersWellFormed, Bool.and_eq_true, Bool.and_eq_true] at hwf
    obtain ⟨⟨hkey, hvalue⟩, hmembers⟩ := hwf
    rw [sizeMembers] at hsize
    obtain ⟨tail, htail⟩ := writeMembers_cons member members
    have hread := readValue_write value fuel (',' :: (writeMembers (member :: members) ++ '}' :: rest)) hvalue
      (by omega) (numberEnd_cons (by decide) _)
    have hname := readStringToken_append hkey
      (':' :: (write value ++ ',' :: (writeMembers (member :: members) ++ '}' :: rest)))
    have hnext := readMembers_write (member :: members) fuel (acc ++ [(key, value)]) rest (List.cons_ne_nil _ _)
      hmembers (by rw [List.append_assoc, List.singleton_append]; exact hsorted)
      (by omega)
    rw [htail, List.tail_cons] at hnext
    rw [writeMembers_cons_cons]
    simp only [List.cons_append, List.append_assoc, List.tail_cons]
    rw [readMembers_cons hname hread rfl, if_neg (by decide), if_neg (by decide), htail, List.cons_append,
      readNonWsChar, readChar_cons rfl, Except.bind, insertMember_of_lt (lt_of_pairwise_append hsorted)]
    exact hnext.trans (by rw [List.append_assoc, List.singleton_append])
  | [], _, _, _, hne, _, _, _ => absurd rfl hne
  | _ :: _, 0, _, _, _, _, _, hsize => absurd hsize (by simp [sizeMembers])

end

end

mutual

theorem size_le_length : ∀ value : JsonValue, size value ≤ (write value).length
  | .array elements => by
    have helements := sizeElements_le_length elements
    simp only [size, write, List.length_append, List.length_cons]
    omega
  | .object members => by
    have hmembers := sizeMembers_le_length members
    simp only [size, write, List.length_append, List.length_cons]
    omega
  | .bool value => by cases value <;> decide
  | .integer value => by
    obtain ⟨c, tail, hwrite, -, -⟩ := write_eq_cons (.integer value)
    simp [size, hwrite]
  | .null => by decide
  | .string value => by simp [size, write]

theorem sizeElements_le_length : ∀ elements : List JsonValue, sizeElements elements ≤ (writeElements elements).length + 1
  | [] => by simp [sizeElements]
  | [element] => by
    have helement := size_le_length element
    simp only [sizeElements, writeElements]
    omega
  | element :: element' :: elements => by
    have helement := size_le_length element
    have helements := sizeElements_le_length (element' :: elements)
    rw [sizeElements, writeElements_cons_cons, List.length_append, List.length_cons]
    omega

theorem sizeMembers_le_length :
    ∀ members : List (List Char × JsonValue), sizeMembers members ≤ (writeMembers members).length + 1
  | [] => by simp [sizeMembers]
  | [(key, value)] => by
    have hvalue := size_le_length value
    simp only [sizeMembers, writeMembers, List.length_append, List.length_cons]
    omega
  | (key, value) :: member :: members => by
    have hvalue := size_le_length value
    have hmembers := sizeMembers_le_length (member :: members)
    rw [sizeMembers, writeMembers_cons_cons]
    simp only [List.length_append, List.length_cons]
    omega

end

/-- `fromString` reads back the text `toString` writes of every well-formed value. -/
theorem fromString_toString (value : JsonValue) (hvalue : wellFormed value = true) :
    fromString (toString value) = .ok value := by
  have hsize := size_le_length value
  have hread := readValue_write value (2 * (write value).length + 1) [] hvalue (by omega) numberEnd_nil
  rw [List.append_nil] at hread
  rw [fromString, toString, hread]
  rfl

theorem fromString_toString_array : wellFormed (.array [.integer (-7), .string ['a', 'b']]) = true ∧
    fromString (toString (.array [.integer (-7), .string ['a', 'b']])) = .ok (.array [.integer (-7), .string ['a', 'b']]) :=
  ⟨by decide, fromString_toString _ (by decide)⟩

/-- A space in a string is lost: \x60readStringToken\x60 reads its characters with \x60in >> c\x60. -/
theorem fromString_toString_space :
    fromString (toString (.string ['a', ' ', 'b'])) = .ok (.string ['a', 'b']) :=
  rfl

end RoundTrip

end JsonValue

end Common

end Crygcoin
