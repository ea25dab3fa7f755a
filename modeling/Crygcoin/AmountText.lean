import Mathlib

namespace Crygcoin

/-! Amounts as text (`Currency::formatAmount`, `Currency::parseAmount`). An amount is written as
its decimal digits, padded with zeros to more than `numberOfDecimalPlaces` digits, with a point
before the last `numberOfDecimalPlaces`. Text is read back after trimming spaces: trailing zeros
beyond the decimal places are dropped, the point is removed, the fraction is padded with zeros and
the digits are read as a `uint64_t`. -/

/-- `::isspace` in the "C" locale, which `boost::algorithm::trim` uses. -/
def isSpace (c : Char) : Bool :=
  c == ' ' || c == '\t' || c == '\n' || c == '\x0b' || c == '\x0c' || c == '\r'

/-- `boost::algorithm::trim`: spaces dropped at both ends. -/
def trim (s : List Char) : List Char :=
  ((s.dropWhile isSpace).reverse.dropWhile isSpace).reverse

/-- `Currency::formatAmount(uint64_t)`: `std::to_string`, zeros in front up to
`numberOfDecimalPlaces + 1` digits, and the point inserted before the last
`numberOfDecimalPlaces`. -/
def formatAmount (numberOfDecimalPlaces : Nat) (amount : UInt64) : List Char :=
  let s := Nat.toDigits 10 amount.toNat
  let s := if s.length < numberOfDecimalPlaces + 1 then
      List.replicate (numberOfDecimalPlaces + 1 - s.length) '0' ++ s
    else s
  s.take (s.length - numberOfDecimalPlaces) ++ '.' :: s.drop (s.length - numberOfDecimalPlaces)

/-- The loop `while (m_numberOfDecimalPlaces < fractionSize && '0' == strAmount.back())` of
`parseAmount`, which drops trailing zeros beyond the decimal places. -/
def stripTrailingZeros (numberOfDecimalPlaces : Nat) : List Char → Nat → List Char × Nat
  | strAmount, 0 => (strAmount, 0)
  | strAmount, fractionSize + 1 =>
    if numberOfDecimalPlaces < fractionSize + 1 ∧ strAmount.getLast? = some '0' then
      stripTrailingZeros numberOfDecimalPlaces strAmount.dropLast fractionSize
    else (strAmount, fractionSize + 1)

/-- `Common::fromString<uint64_t>` on a nonempty text of decimal digits: the stream reads them all,
and fails when the value does not fit in 64 bits. -/
def fromStringUInt64 (text : List Char) : Option UInt64 :=
  let value := Nat.ofDigitChars 10 text 0
  if value < 2 ^ 64 then some (UInt64.ofNat value) else none

/-- The end of `parseAmount`, once the point is removed: the text must be a nonempty run of
digits, which is padded to `numberOfDecimalPlaces` fractional digits and read. -/
def parseDigits (numberOfDecimalPlaces : Nat) (strAmount : List Char) (fractionSize : Nat) : Option UInt64 :=
  if strAmount = [] then none
  else if !strAmount.all Char.isDigit then none
  else
    let strAmount := if fractionSize < numberOfDecimalPlaces then
        strAmount ++ List.replicate (numberOfDecimalPlaces - fractionSize) '0'
      else strAmount
    fromStringUInt64 strAmount

/-- `Currency::parseAmount` after `boost::algorithm::trim`: the fraction after the first point, if
any, is stripped of zeros beyond the decimal places, and the point is erased. -/
def parseTrimmed (numberOfDecimalPlaces : Nat) (strAmount : List Char) : Option UInt64 :=
  match strAmount.findIdx? (· == '.') with
  | some pointIndex =>
    let (strAmount, fractionSize) :=
      stripTrailingZeros numberOfDecimalPlaces strAmount (strAmount.length - pointIndex - 1)
    if numberOfDecimalPlaces < fractionSize then none
    else parseDigits numberOfDecimalPlaces (strAmount.eraseIdx pointIndex) fractionSize
  | none => parseDigits numberOfDecimalPlaces strAmount 0

/-- `Currency::parseAmount(str, amount)`: `some amount` where it returns true. -/
def parseAmount (numberOfDecimalPlaces : Nat) (str : List Char) : Option UInt64 :=
  parseTrimmed numberOfDecimalPlaces (trim str)

example : formatAmount 2 5 = "0.05".toList := by decide

example : parseAmount 2 " 12.3400\n".toList = some 1234 := by decide

/-! ### The texts `parseAmount` accepts -/

/-- The texts `parseAmount` accepts, with their value: digits with an optional point and more
digits, no significant fractional digit beyond the decimal places, at least one digit kept once
the zeros beyond the decimal places are dropped, and the value of the kept digits padded to the
decimal places. -/
def AmountText (numberOfDecimalPlaces : Nat) (text : List Char) (amount : UInt64) : Prop :=
  ∃ ip fp : List Char, ((text = ip ∧ fp = []) ∨ text = ip ++ '.' :: fp) ∧
    (∀ c ∈ ip ++ fp, c.isDigit) ∧ (∀ c ∈ fp.drop numberOfDecimalPlaces, c = '0') ∧
    ip ++ fp.take numberOfDecimalPlaces ≠ [] ∧
    Nat.ofDigitChars 10 (ip ++ fp.take numberOfDecimalPlaces ++
      List.replicate (numberOfDecimalPlaces - fp.length) '0') 0 = amount.toNat

theorem isSpace_eq_false {c : Char} (h : c.isDigit) : isSpace c = false := by
  cases hspace : isSpace c with
  | false => rfl
  | true =>
    simp only [isSpace, Bool.or_eq_true, beq_iff_eq] at hspace
    rcases hspace with (((((rfl | rfl) | rfl) | rfl) | rfl) | rfl) <;> cases h

theorem ne_point_of_isDigit {c : Char} (h : c.isDigit) : c ≠ '.' := by
  rintro rfl
  cases h

theorem trim_eq_self {s : List Char} (h : ∀ c ∈ s, isSpace c = false) : trim s = s := by
  have hdrop : ∀ l : List Char, (∀ c ∈ l, isSpace c = false) → l.dropWhile isSpace = l := by
    intro l hl
    cases l with
    | nil => rfl
    | cons c l => rw [List.dropWhile_cons, if_neg (by simp [hl c List.mem_cons_self])]
  rw [trim, hdrop s h, hdrop s.reverse (fun c hc => h c (List.mem_reverse.mp hc)), List.reverse_reverse]

theorem fromStringUInt64_eq_some_iff {text : List Char} {amount : UInt64} :
    fromStringUInt64 text = some amount ↔ Nat.ofDigitChars 10 text 0 = amount.toNat := by
  rw [fromStringUInt64]
  constructor
  · intro h
    split at h
    · next hlt =>
      cases h
      exact (UInt64.toNat_ofNat_of_lt' hlt).symm
    · cases h
  · intro h
    rw [h, if_pos amount.toNat_lt, UInt64.ofNat_toNat]

theorem parseDigits_eq_some_iff {numberOfDecimalPlaces fractionSize : Nat} {text : List Char} {amount : UInt64} :
    parseDigits numberOfDecimalPlaces text fractionSize = some amount ↔
      text ≠ [] ∧ (∀ c ∈ text, c.isDigit) ∧
        Nat.ofDigitChars 10 (text ++ List.replicate (numberOfDecimalPlaces - fractionSize) '0') 0 = amount.toNat := by
  -- the padding is empty when the fraction is long enough already
  have hpad : (if fractionSize < numberOfDecimalPlaces then
      text ++ List.replicate (numberOfDecimalPlaces - fractionSize) '0' else text) =
      text ++ List.replicate (numberOfDecimalPlaces - fractionSize) '0' := by
    split
    · rfl
    · rw [Nat.sub_eq_zero_of_le (by omega), List.replicate_zero, List.append_nil]
  rw [parseDigits]
  by_cases hnil : text = []
  · simp [hnil]
  · by_cases hdigits : text.all Char.isDigit
    · rw [if_neg hnil, if_neg (by simp [hdigits]), hpad, fromStringUInt64_eq_some_iff]
      simp only [List.all_eq_true] at hdigits
      exact ⟨fun h => ⟨hnil, hdigits, h⟩, fun h => h.2.2⟩
    · rw [if_neg hnil, if_pos (by simp [hdigits])]
      simp only [List.all_eq_true] at hdigits
      exact ⟨fun h => (by cases h), fun h => absurd h.2.1 hdigits⟩

theorem stripTrailingZeros_of_zeros (numberOfDecimalPlaces : Nat) (pre fp : List Char)
    (hzeros : ∀ c ∈ fp.drop numberOfDecimalPlaces, c = '0') :
    stripTrailingZeros numberOfDecimalPlaces (pre ++ fp) fp.length =
      (pre ++ fp.take numberOfDecimalPlaces, min fp.length numberOfDecimalPlaces) := by
  induction fp using List.reverseRecOn with
  | nil => simp [stripTrailingZeros]
  | append_singleton init c ih =>
    rw [List.length_append, List.length_singleton, stripTrailingZeros]
    by_cases hlong : numberOfDecimalPlaces < init.length + 1
    · -- the last digit lies beyond the decimal places: a zero, dropped
      have hdrop : (init ++ [c]).drop numberOfDecimalPlaces = init.drop numberOfDecimalPlaces ++ [c] :=
        List.drop_append_of_le_length (Nat.le_of_lt_succ hlong)
      have hc : c = '0' := hzeros c (by rw [hdrop]; simp)
      rw [if_pos ⟨hlong, by simp [hc]⟩, ← List.append_assoc, List.dropLast_concat,
        ih (fun c' hc' => hzeros c' (by rw [hdrop]; exact List.mem_append_left _ hc')),
        List.take_append_of_le_length (Nat.le_of_lt_succ hlong)]
      congr 1
      omega
    · rw [if_neg (fun h => hlong h.1), List.take_of_length_le (by simp; omega), Nat.min_eq_left (by omega)]

theorem stripTrailingZeros_of_digit (numberOfDecimalPlaces : Nat) (pre fp : List Char)
    (hdigit : ∃ c ∈ fp.drop numberOfDecimalPlaces, c ≠ '0') :
    numberOfDecimalPlaces < (stripTrailingZeros numberOfDecimalPlaces (pre ++ fp) fp.length).2 := by
  induction fp using List.reverseRecOn with
  | nil => simp at hdigit
  | append_singleton init c ih =>
    obtain ⟨c', hc', hne⟩ := hdigit
    have hlong : numberOfDecimalPlaces < init.length + 1 := by
      by_contra hshort
      rw [List.drop_eq_nil_of_le (by simp; omega)] at hc'
      cases hc'
    rw [List.length_append, List.length_singleton, stripTrailingZeros]
    by_cases hc : c = '0'
    · rw [if_pos ⟨hlong, by simp [hc]⟩, ← List.append_assoc, List.dropLast_concat]
      apply ih
      -- the significant digit is not the last one, a zero
      rw [List.drop_append_of_le_length (Nat.le_of_lt_succ hlong), List.mem_append] at hc'
      rcases hc' with hc' | hc'
      · exact ⟨c', hc', hne⟩
      · rw [List.mem_singleton] at hc'
        exact absurd (hc'.trans hc) hne
    · rw [if_neg (fun h => hc (by simpa using h.2))]
      exact hlong

theorem findIdx?_point {ip fp : List Char} (hip : ∀ c ∈ ip, c ≠ '.') :
    (ip ++ '.' :: fp).findIdx? (· == '.') = some ip.length := by
  rw [List.findIdx?_append, List.findIdx?_eq_none_iff.mpr (fun c hc => by simpa using hip c hc)]
  simp [List.findIdx?_cons]

theorem eq_of_findIdx?_point {t : List Char} {p : Nat} (h : t.findIdx? (· == '.') = some p) :
    t = t.take p ++ '.' :: t.drop (p + 1) ∧ ∀ c ∈ t.take p, c ≠ '.' := by
  obtain ⟨hlt, hpoint, hbefore⟩ := List.findIdx?_eq_some_iff_getElem.mp h
  refine ⟨?_, fun c hc => ?_⟩
  · rw [← beq_iff_eq.mp hpoint, ← List.drop_eq_getElem_cons hlt, List.take_append_drop]
  · obtain ⟨j, hj, rfl⟩ := List.getElem_of_mem hc
    rw [List.length_take] at hj
    rw [List.getElem_take]
    simpa using hbefore j (by omega)

theorem parseTrimmed_of_point {ip fp : List Char} (numberOfDecimalPlaces : Nat) (hip : ∀ c ∈ ip, c ≠ '.') :
    parseTrimmed numberOfDecimalPlaces (ip ++ '.' :: fp) =
      if ∀ c ∈ fp.drop numberOfDecimalPlaces, c = '0' then
        parseDigits numberOfDecimalPlaces (ip ++ fp.take numberOfDecimalPlaces) (min fp.length numberOfDecimalPlaces)
      else none := by
  have hsize : (ip ++ '.' :: fp).length - ip.length - 1 = fp.length := by simp
  have htext : ip ++ '.' :: fp = (ip ++ ['.']) ++ fp := by simp
  rw [parseTrimmed, findIdx?_point hip]
  dsimp only
  rw [hsize, htext]
  by_cases hzeros : ∀ c ∈ fp.drop numberOfDecimalPlaces, c = '0'
  · rw [if_pos hzeros, stripTrailingZeros_of_zeros _ _ _ hzeros]
    dsimp only
    rw [if_neg (by omega), List.append_assoc, List.singleton_append,
      List.eraseIdx_append_of_length_le (Nat.le_refl _), Nat.sub_self, List.eraseIdx_cons_zero]
  · have hdigit : ∃ c ∈ fp.drop numberOfDecimalPlaces, c ≠ '0' := by simpa using hzeros
    rw [if_neg hzeros]
    have hlong := stripTrailingZeros_of_digit _ (ip ++ ['.']) _ hdigit
    split
    · rfl
    · next hshort => exact absurd hlong hshort

theorem parseTrimmed_of_no_point {t : List Char} (numberOfDecimalPlaces : Nat) (h : ∀ c ∈ t, c ≠ '.') :
    parseTrimmed numberOfDecimalPlaces t = parseDigits numberOfDecimalPlaces t 0 := by
  rw [parseTrimmed, List.findIdx?_eq_none_iff.mpr (fun c hc => by simpa using h c hc)]

theorem parseTrimmed_eq_some_iff (numberOfDecimalPlaces : Nat) (t : List Char) (amount : UInt64) :
    parseTrimmed numberOfDecimalPlaces t = some amount ↔ AmountText numberOfDecimalPlaces t amount := by
  constructor
  · intro h
    cases hfind : t.findIdx? (· == '.') with
    | none =>
      have hno : ∀ c ∈ t, c ≠ '.' := fun c hc => by simpa using List.findIdx?_eq_none_iff.mp hfind c hc
      rw [parseTrimmed_of_no_point _ hno, parseDigits_eq_some_iff] at h
      obtain ⟨hne, hdigits, hvalue⟩ := h
      exact ⟨t, [], .inl ⟨rfl, rfl⟩, by simpa using hdigits, by simp, by simpa using hne, by simpa using hvalue⟩
    | some p =>
      obtain ⟨hsplit, hbefore⟩ := eq_of_findIdx?_point hfind
      rw [hsplit, parseTrimmed_of_point _ hbefore] at h
      split at h
      · next hzeros =>
        rw [parseDigits_eq_some_iff] at h
        obtain ⟨hne, hdigits, hvalue⟩ := h
        have hpad : numberOfDecimalPlaces - min (t.drop (p + 1)).length numberOfDecimalPlaces =
            numberOfDecimalPlaces - (t.drop (p + 1)).length := by omega
        refine ⟨t.take p, t.drop (p + 1), .inr hsplit, fun c hc => ?_, hzeros, hne, by rw [← hvalue, hpad]⟩
        -- the kept digits, and zeros beyond the decimal places
        rcases List.mem_append.mp hc with hc | hc
        · exact hdigits c (List.mem_append_left _ hc)
        · rw [← List.take_append_drop numberOfDecimalPlaces (t.drop (p + 1)), List.mem_append] at hc
          rcases hc with hc | hc
          · exact hdigits c (List.mem_append_right _ hc)
          · rw [hzeros c hc]
            rfl
      · cases h
  · rintro ⟨ip, fp, hform, hdigits, hzeros, hne, hvalue⟩
    have hno : ∀ c ∈ ip, c ≠ '.' := fun c hc => ne_point_of_isDigit (hdigits c (List.mem_append_left _ hc))
    rcases hform with ⟨rfl, rfl⟩ | rfl
    · rw [parseTrimmed_of_no_point _ hno, parseDigits_eq_some_iff]
      simp only [List.take_nil, List.append_nil, List.length_nil, Nat.sub_zero] at hne hdigits hvalue
      exact ⟨hne, hdigits, hvalue⟩
    · have hpad : numberOfDecimalPlaces - min fp.length numberOfDecimalPlaces = numberOfDecimalPlaces - fp.length := by
        omega
      rw [parseTrimmed_of_point _ hno, if_pos hzeros, parseDigits_eq_some_iff, hpad]
      refine ⟨hne, fun c hc => ?_, hvalue⟩
      rcases List.mem_append.mp hc with hc | hc
      · exact hdigits c (List.mem_append_left _ hc)
      · exact hdigits c (List.mem_append_right _ (List.mem_of_mem_take hc))

theorem formatAmount_eq (numberOfDecimalPlaces : Nat) (amount : UInt64) :
    ∃ s : List Char, formatAmount numberOfDecimalPlaces amount =
        s.take (s.length - numberOfDecimalPlaces) ++ '.' :: s.drop (s.length - numberOfDecimalPlaces) ∧
      numberOfDecimalPlaces + 1 ≤ s.length ∧ (∀ c ∈ s, c.isDigit) ∧ Nat.ofDigitChars 10 s 0 = amount.toNat := by
  have hdigits : ∀ c ∈ Nat.toDigits 10 amount.toNat, c.isDigit := fun c hc =>
    Nat.isDigit_of_mem_toDigits (by decide) (by decide) hc
  refine ⟨_, rfl, ?_, ?_, ?_⟩
  · split
    · simp only [List.length_append, List.length_replicate]
      omega
    · omega
  · split
    · intro c hc
      rcases List.mem_append.mp hc with hc | hc
      · rw [List.eq_of_mem_replicate hc]
        rfl
      · exact hdigits c hc
    · exact hdigits
  · split
    · rw [Nat.ofDigitChars_append, Nat.ofDigitChars_replicate_zero, Nat.mul_zero, Nat.ofDigitChars_ten_toDigits]
    · exact Nat.ofDigitChars_ten_toDigits

theorem parseAmount_formatAmount (numberOfDecimalPlaces : Nat) (amount : UInt64) :
    parseAmount numberOfDecimalPlaces (formatAmount numberOfDecimalPlaces amount) = some amount := by
  obtain ⟨s, hformat, hlength, hdigits, hvalue⟩ := formatAmount_eq numberOfDecimalPlaces amount
  have hfraction : (s.drop (s.length - numberOfDecimalPlaces)).length = numberOfDecimalPlaces := by
    rw [List.length_drop]
    omega
  have hspaces : ∀ c ∈ formatAmount numberOfDecimalPlaces amount, isSpace c = false := by
    rw [hformat]
    intro c hc
    rcases List.mem_append.mp hc with hc | hc
    · exact isSpace_eq_false (hdigits c (List.mem_of_mem_take hc))
    · rcases List.mem_cons.mp hc with rfl | hc
      · rfl
      · exact isSpace_eq_false (hdigits c (List.mem_of_mem_drop hc))
  have hkeep : (s.drop (s.length - numberOfDecimalPlaces)).take numberOfDecimalPlaces =
      s.drop (s.length - numberOfDecimalPlaces) := List.take_of_length_le (by omega)
  rw [parseAmount, trim_eq_self hspaces, parseTrimmed_eq_some_iff, hformat]
  refine ⟨_, _, .inr rfl, by rw [List.take_append_drop]; exact hdigits, fun c hc => ?_, ?_, ?_⟩
  · rw [List.drop_eq_nil_of_le (by omega)] at hc
    cases hc
  · rw [hkeep, List.take_append_drop]
    exact List.ne_nil_of_length_pos (by omega)
  · rw [hkeep, List.take_append_drop, hfraction, Nat.sub_self, List.replicate_zero, List.append_nil, hvalue]

/-- Every amount reads back from its text, which is also all that is left to show for an amount
read from any text; and `parseAmount` accepts exactly the trimmed amount texts. -/
theorem parseAmount_formatAmount_roundtrip :
    (∀ (numberOfDecimalPlaces : Nat) (amount : UInt64),
      parseAmount numberOfDecimalPlaces (formatAmount numberOfDecimalPlaces amount) = some amount) ∧
    (∀ (numberOfDecimalPlaces : Nat) (str : List Char) (amount : UInt64),
      parseAmount numberOfDecimalPlaces str = some amount →
        parseAmount numberOfDecimalPlaces (formatAmount numberOfDecimalPlaces amount) = some amount) ∧
    ∀ (numberOfDecimalPlaces : Nat) (str : List Char) (amount : UInt64),
      parseAmount numberOfDecimalPlaces str = some amount ↔ AmountText numberOfDecimalPlaces (trim str) amount :=
  ⟨parseAmount_formatAmount, fun numberOfDecimalPlaces _ amount _ => parseAmount_formatAmount numberOfDecimalPlaces amount,
    fun numberOfDecimalPlaces str amount => parseTrimmed_eq_some_iff numberOfDecimalPlaces (trim str) amount⟩

theorem parseAmount_formatAmount_roundtrip_padded :
    parseAmount 2 " 12.3400\n".toList = some 1234 ∧ formatAmount 2 1234 = "12.34".toList ∧
      parseAmount 2 "12.34".toList = some 1234 ∧ AmountText 2 (trim " 12.3400\n".toList) 1234 := by
  have hparse : parseAmount 2 " 12.3400\n".toList = some 1234 := by decide
  have hformat : formatAmount 2 1234 = "12.34".toList := by decide
  refine ⟨hparse, hformat, ?_, (parseAmount_formatAmount_roundtrip.2.2 2 _ 1234).mp hparse⟩
  rw [← hformat]
  exact parseAmount_formatAmount_roundtrip.2.1 2 _ 1234 hparse

/-- With no decimal places, a text whose only digits are zeros after the point keeps no digit and
is rejected, though `0.0` is read as `0`. -/
theorem parseAmount_rejects_fraction_only :
    parseAmount 0 ['.', '0'] = none ∧ parseAmount 0 ['0', '.', '0'] = some 0 := by
  decide

end Crygcoin
