import Crygcoin.Codec
import Mathlib.Data.Nat.Bitwise
import Mathlib.Tactic.Ring
import Mathlib.Tactic.Positivity

namespace Crygcoin

/-- `Common::writeVarint(IOutputStream&, uint64_t)`: seven bits per byte, low bits first,
`0x80` on every byte but the last. -/
def writeVarint (value : Nat) : List UInt8 :=
  if 0x80 ≤ value then UInt8.ofNat (value ||| 0x80) :: writeVarint (value >>> 7)
  else [UInt8.ofNat value]
termination_by value
decreasing_by
  rw [Nat.shiftRight_eq_div_pow]
  omega

/-- The loop of `Common::readVarint` for an unsigned type of `w` bits, at bit `shift` with
the bits read so far in `temp`. The `uint64_t` intermediate never overflows before the
truncation to `w` bits, so one `% 2 ^ w` models both casts. -/
def readVarintGo (w : Nat) (shift temp : Nat) : List UInt8 → Option (Nat × List UInt8)
  | [] => none
  | piece :: input =>
    if w - 7 ≤ shift ∧ 1 <<< (w - shift) ≤ piece.toNat then none
    else
      let temp := (temp ||| (piece.toNat &&& 0x7f) <<< shift) % 2 ^ w
      if piece.toNat &&& 0x80 = 0 then
        if piece.toNat = 0 ∧ shift ≠ 0 then none else some (temp, input)
      else readVarintGo w (shift + 7) temp input

/-- `Common::readVarint(IInputStream&, T&)` for `T` of `w` bits (`uint8_t`, `uint16_t`,
`uint32_t`, `uint64_t`); `none` where the source throws. -/
def readVarint (w : Nat) (input : List UInt8) : Option (Nat × List UInt8) :=
  readVarintGo w 0 0 input

theorem byte_or_0x80 {x : Nat} (hx : x < 256) : x ||| 0x80 = x % 128 + 128 := by
  have h := (by decide +kernel : ∀ i : Fin 256, i.val ||| 0x80 = i.val % 128 + 128)
  exact h ⟨x, hx⟩

theorem byte_and_0x7f {x : Nat} (hx : x < 256) : x &&& 0x7f = x % 128 := by
  have h := (by decide +kernel : ∀ i : Fin 256, i.val &&& 0x7f = i.val % 128)
  exact h ⟨x, hx⟩

theorem byte_and_0x80 {x : Nat} (hx : x < 256) : x &&& 0x80 = 0 ↔ x < 128 := by
  have h := (by decide +kernel : ∀ i : Fin 256, (i.val &&& 0x80 = 0) = (i.val < 128))
  exact Eq.to_iff (h ⟨x, hx⟩)

theorem or_shift_eq_add {t x s : Nat} (ht : t < 2 ^ s) : t ||| x <<< s = t + 2 ^ s * x := by
  rw [Nat.shiftLeft_eq, Nat.mul_comm, Nat.or_comm, ← Nat.two_pow_add_eq_or_of_lt ht]
  omega

theorem writeVarint_eq (value : Nat) :
    writeVarint value = if 128 ≤ value then UInt8.ofNat (value % 128 + 128) :: writeVarint (value / 128)
      else [UInt8.ofNat value] := by
  rw [writeVarint]
  by_cases h : 128 ≤ value
  · have hb : UInt8.ofNat (value ||| 0x80) = UInt8.ofNat (value % 128 + 128) := by
      apply UInt8.toNat_inj.mp
      rw [UInt8.toNat_ofNat', UInt8.toNat_ofNat', Nat.or_mod_two_pow,
        byte_or_0x80 (Nat.mod_lt _ (by decide))]
      omega
    simp only [show 0x80 ≤ value from h, if_true, hb, Nat.shiftRight_eq_div_pow]
  · simp only [show ¬0x80 ≤ value from h, if_false]

theorem writeVarint_small {value : Nat} (h : value < 128) : writeVarint value = [UInt8.ofNat value] := by
  rw [writeVarint_eq, if_neg (by omega)]

theorem writeVarint_large {value : Nat} (h : 128 ≤ value) :
    writeVarint value = UInt8.ofNat (value % 128 + 128) :: writeVarint (value / 128) := by
  rw [writeVarint_eq, if_pos h]

theorem writeVarint_ne_nil (value : Nat) : writeVarint value ≠ [] := by
  rw [writeVarint_eq]
  split <;> simp

theorem readVarintGo_writeVarint {w : Nat} :
    ∀ (u s t : Nat) (rest : List UInt8), t < 2 ^ s → t + 2 ^ s * u < 2 ^ w → (s ≠ 0 → u ≠ 0) →
      readVarintGo w s t (writeVarint u ++ rest) = some (t + 2 ^ s * u, rest) := by
  intro u
  induction u using Nat.strong_induction_on with
  | _ u ih =>
  intro s t rest ht hw hu
  have hs : s ≤ w := by
    by_contra hs
    have : 2 ^ w < 2 ^ s := Nat.pow_lt_pow_right (by decide) (by omega)
    have : 2 ^ s * 1 ≤ 2 ^ s * u := Nat.mul_le_mul_left _ (by omega)
    omega
  have hpow : 2 ^ s * 2 ^ (w - s) = 2 ^ w := by rw [← Nat.pow_add]; congr 1; omega
  have hu_lt : u < 2 ^ (w - s) := by
    by_contra hc
    have := Nat.mul_le_mul_left (2 ^ s) (Nat.le_of_not_lt hc)
    omega
  by_cases hsmall : u < 128
  · rw [writeVarint_small hsmall]
    have hp : (UInt8.ofNat u).toNat = u := by rw [UInt8.toNat_ofNat']; omega
    simp only [List.cons_append, List.nil_append, readVarintGo, hp]
    have hov : ¬(w - 7 ≤ s ∧ 1 <<< (w - s) ≤ u) := by
      rw [Nat.one_shiftLeft]
      omega
    rw [if_neg hov, byte_and_0x7f (by omega), Nat.mod_eq_of_lt hsmall, or_shift_eq_add ht,
      Nat.mod_eq_of_lt hw, if_pos ((byte_and_0x80 (by omega)).mpr hsmall), if_neg (by omega)]
  · have hlarge : 128 ≤ u := by omega
    rw [writeVarint_large hlarge]
    have hp : (UInt8.ofNat (u % 128 + 128)).toNat = u % 128 + 128 := by
      rw [UInt8.toNat_ofNat']; omega
    simp only [List.cons_append, readVarintGo, hp]
    have hw7 : s + 7 ≤ w := by
      by_contra hc
      have : 2 ^ (w - s) ≤ 2 ^ 7 := Nat.pow_le_pow_right (by decide) (by omega)
      omega
    have hov : ¬(w - 7 ≤ s ∧ 1 <<< (w - s) ≤ u % 128 + 128) := by omega
    have hmask : (u % 128 + 128) &&& 0x7f = u % 128 := by
      rw [byte_and_0x7f (by omega)]
      omega
    have hdiv := Nat.div_add_mod u 128
    have hnext : t + 2 ^ s * (u % 128) < 2 ^ (s + 7) := by
      rw [Nat.pow_add]
      have : 2 ^ s * (u % 128) ≤ 2 ^ s * 127 := Nat.mul_le_mul_left _ (by omega)
      omega
    have hsum : t + 2 ^ s * (u % 128) + 2 ^ (s + 7) * (u / 128) = t + 2 ^ s * u := by
      rw [Nat.pow_add]
      conv => rhs; rw [← hdiv]
      ring
    have hfit : t + 2 ^ s * (u % 128) < 2 ^ w := by
      have : 2 ^ s * (u % 128) ≤ 2 ^ s * u := Nat.mul_le_mul_left _ (Nat.mod_le _ _)
      omega
    have hcont : ¬((u % 128 + 128) &&& 0x80 = 0) := by
      rw [byte_and_0x80 (by omega)]
      omega
    rw [if_neg hov, hmask, or_shift_eq_add ht, Nat.mod_eq_of_lt hfit, if_neg hcont,
      ih (u / 128) (by omega) (s + 7) _ rest hnext (by omega) (by omega), hsum]

theorem readVarint_writeVarint {w value : Nat} (h : value < 2 ^ w) (rest : List UInt8) :
    readVarint w (writeVarint value ++ rest) = some (value, rest) := by
  have := readVarintGo_writeVarint (w := w) value 0 0 rest (by simp) (by simpa using h) (by simp)
  simpa [readVarint] using this

theorem readVarintGo_exact {w : Nat} :
    ∀ (input : List UInt8) (s t v : Nat) (rest : List UInt8), t < 2 ^ s → s < w →
      readVarintGo w s t input = some (v, rest) →
      v < 2 ^ w ∧ ∃ u, (s ≠ 0 → u ≠ 0) ∧ v = t + 2 ^ s * u ∧ input = writeVarint u ++ rest := by
  intro input
  induction input with
  | nil => intro s t v rest _ _ h; simp [readVarintGo] at h
  | cons piece input ih =>
    intro s t v rest ht hs h
    have hp := piece.toNat_lt
    simp only [readVarintGo] at h
    split at h
    · simp at h
    next hov =>
      rw [byte_and_0x7f hp, or_shift_eq_add ht] at h
      split at h
      next hlow =>
        have hlow' := (byte_and_0x80 hp).mp hlow
        split at h
        · simp at h
        next hz =>
          obtain ⟨rfl, rfl⟩ := Prod.mk.inj (Option.some.inj h)
          have hfit : t + 2 ^ s * (piece.toNat % 128) < 2 ^ w := by
            rw [Nat.mod_eq_of_lt hlow']
            by_cases hw : w - 7 ≤ s
            · have hb : piece.toNat < 2 ^ (w - s) := by rw [Nat.one_shiftLeft] at hov; omega
              have hpow : 2 ^ s * 2 ^ (w - s) = 2 ^ w := by rw [← Nat.pow_add]; congr 1; omega
              have := Nat.mul_le_mul_left (2 ^ s) (show piece.toNat + 1 ≤ 2 ^ (w - s) by omega)
              rw [Nat.mul_add] at this
              omega
            · have : 2 ^ (s + 7) ≤ 2 ^ w := Nat.pow_le_pow_right (by decide) (by omega)
              rw [Nat.pow_add] at this
              have := Nat.mul_le_mul_left (2 ^ s) (show piece.toNat + 1 ≤ 128 by omega)
              rw [Nat.mul_add] at this
              omega
          refine ⟨Nat.mod_lt _ (by positivity), piece.toNat, by omega, ?_, ?_⟩
          · rw [Nat.mod_eq_of_lt hfit, Nat.mod_eq_of_lt hlow']
          · rw [writeVarint_small hlow', UInt8.ofNat_toNat]
            rfl
      next hhigh =>
        have hhigh' : 128 ≤ piece.toNat := by
          by_contra hc
          exact hhigh ((byte_and_0x80 hp).mpr (by omega))
        have hs7 : s + 7 < w := by
          by_contra hc
          have : 2 ^ (w - s) ≤ 2 ^ 7 := Nat.pow_le_pow_right (by decide) (by omega)
          rw [Nat.one_shiftLeft] at hov
          omega
        have hnext : t + 2 ^ s * (piece.toNat % 128) < 2 ^ (s + 7) := by
          rw [Nat.pow_add]
          have : 2 ^ s * (piece.toNat % 128) ≤ 2 ^ s * 127 := Nat.mul_le_mul_left _ (by omega)
          omega
        have hfit : t + 2 ^ s * (piece.toNat % 128) < 2 ^ w :=
          lt_of_lt_of_le hnext (Nat.pow_le_pow_right (by decide) (by omega))
        rw [Nat.mod_eq_of_lt hfit] at h
        obtain ⟨hv, u, hu, rfl, rfl⟩ := ih (s + 7) _ v rest hnext hs7 h
        have hu0 : u ≠ 0 := hu (by omega)
        refine ⟨hv, piece.toNat % 128 + 128 * u, by omega, ?_, ?_⟩
        · rw [Nat.pow_add]
          ring
        · have hdecomp : piece = UInt8.ofNat (piece.toNat % 128 + 128) := by
            apply UInt8.toNat_inj.mp
            rw [UInt8.toNat_ofNat']
            omega
          rw [writeVarint_large (show 128 ≤ piece.toNat % 128 + 128 * u by omega)]
          have hm : (piece.toNat % 128 + 128 * u) % 128 = piece.toNat % 128 := by omega
          have hd : (piece.toNat % 128 + 128 * u) / 128 = u := by omega
          rw [hm, hd, ← hdecomp]
          rfl

theorem readVarint_exact {w : Nat} (hw : 0 < w) {input : List UInt8} {v : Nat} {rest : List UInt8}
    (h : readVarint w input = some (v, rest)) : v < 2 ^ w ∧ input = writeVarint v ++ rest := by
  obtain ⟨hv, u, _, hu, hi⟩ := readVarintGo_exact input 0 0 v rest (by simp) hw h
  simp only [pow_zero, one_mul, zero_add] at hu
  subst hu
  exact ⟨hv, hi⟩

/-- `Common::readVarint` of each of the four unsigned types reads back `writeVarint` of every
value of its width whatever follows, and accepts nothing else: overlong, zero-terminated, too wide
and truncated inputs all throw. -/
theorem readVarint_canonical {w : Nat} (hw : w ∈ [8, 16, 32, 64]) :
    (∀ value < 2 ^ w, ∀ rest, readVarint w (writeVarint value ++ rest) = some (value, rest)) ∧
    (∀ input value rest, readVarint w input = some (value, rest) → input = writeVarint value ++ rest) := by
  have hpos : 0 < w := by
    simp only [List.mem_cons, List.not_mem_nil, or_false] at hw
    omega
  exact ⟨fun _ hvalue rest => readVarint_writeVarint hvalue rest, fun _ _ _ h => (readVarint_exact hpos h).2⟩

/-- The `uint8_t` reader. -/
theorem readVarint_canonical_uint8 :
    8 ∈ [8, 16, 32, 64] ∧
    (∀ value < 2 ^ 8, ∀ rest, readVarint 8 (writeVarint value ++ rest) = some (value, rest)) ∧
    (∀ input value rest, readVarint 8 input = some (value, rest) → input = writeVarint value ++ rest) :=
  ⟨by decide, readVarint_canonical (by decide)⟩

theorem readVarintGo_suffix {w : Nat} :
    ∀ {input : List UInt8} {shift temp value : Nat} {rest : List UInt8},
      readVarintGo w shift temp input = some (value, rest) → rest <:+ input := by
  intro input
  induction input with
  | nil => intro shift temp value rest h; simp [readVarintGo] at h
  | cons piece input ih =>
    intro shift temp value rest h
    simp only [readVarintGo] at h
    split at h
    · simp at h
    · split at h
      · split at h
        · simp at h
        · obtain ⟨-, rfl⟩ := Prod.mk.inj (Option.some.inj h)
          exact List.suffix_cons piece _
      · exact (ih h).trans (List.suffix_cons piece input)

theorem readVarintGo_continuation {w : Nat} :
    ∀ (input : List UInt8) (shift temp : Nat), (∀ byte ∈ input, 128 ≤ byte.toNat) →
      readVarintGo w shift temp input = none := by
  intro input
  induction input with
  | nil => intro shift temp _; rfl
  | cons piece input ih =>
    intro shift temp hcont
    have hmore : ¬(piece.toNat &&& 0x80 = 0) := by
      rw [byte_and_0x80 piece.toNat_lt]
      exact Nat.not_lt.mpr (hcont piece List.mem_cons_self)
    simp only [readVarintGo, if_neg hmore]
    split
    · rfl
    · exact ih (shift + 7) _ fun byte hbyte => hcont byte (List.mem_cons_of_mem piece hbyte)

namespace Tools

/-- The loop of `Tools::read_varint<bits>`, at bit `shift` with `read` bytes read and the bits
so far in `value`. It answers the count of bytes read with the value, `-1` on overflow and `-2` on
a zero byte after the first; at the end of the input it answers the count read so far. -/
def readVarintGo (bits : Nat) (shift read value : Nat) : List UInt8 → Int × Nat
  | [] => (read, value)
  | byte :: input =>
    if bits ≤ shift + 7 ∧ 1 <<< (bits - shift) ≤ byte.toNat then (-1, value)
    else if byte.toNat = 0 ∧ shift ≠ 0 then (-2, value)
    else
      let value := (value ||| (byte.toNat &&& 0x7f) <<< shift) % 2 ^ bits
      if byte.toNat &&& 0x80 = 0 then (read + 1, value)
      else readVarintGo bits (shift + 7) (read + 1) value input

/-- `Tools::read_varint` for an unsigned type of `bits` bits. -/
def readVarint (bits : Nat) (input : List UInt8) : Int × Nat :=
  readVarintGo bits 0 0 0 input

theorem readVarintGo_of_readVarintGo {w : Nat} :
    ∀ (input : List UInt8) (shift temp read value : Nat) (rest : List UInt8),
      Crygcoin.readVarintGo w shift temp input = some (value, rest) →
      readVarintGo w shift read temp input = (((read + (input.length - rest.length) : Nat) : Int), value) := by
  intro input
  induction input with
  | nil => intro shift temp read value rest h; simp [Crygcoin.readVarintGo] at h
  | cons piece input ih =>
    intro shift temp read value rest h
    simp only [Crygcoin.readVarintGo] at h
    have hov : (w - 7 ≤ shift ∧ 1 <<< (w - shift) ≤ piece.toNat) ↔
        (w ≤ shift + 7 ∧ 1 <<< (w - shift) ≤ piece.toNat) := by omega
    split at h
    · simp at h
    next hfits =>
      simp only [readVarintGo, if_neg (hov.not.mp hfits)]
      split at h
      next hlast =>
        split at h
        · simp at h
        next hcanonical =>
          obtain ⟨rfl, rfl⟩ := Prod.mk.inj (Option.some.inj h)
          simp only [if_neg hcanonical, if_pos hlast, List.length_cons, Prod.mk.injEq, and_true]
          omega
      next hmore =>
        have hzero : ¬(piece.toNat = 0 ∧ shift ≠ 0) := by
          rintro ⟨hp, -⟩
          exact hmore (by rw [hp]; rfl)
        have hsuffix := (Crygcoin.readVarintGo_suffix h).length_le
        rw [if_neg hzero, if_neg hmore, ih (shift + 7) _ (read + 1) value rest h, List.length_cons]
        congr 2
        omega

theorem readVarint_writeVarint {bits value : Nat} (h : value < 2 ^ bits) (rest : List UInt8) :
    readVarint bits (writeVarint value ++ rest) = (((writeVarint value).length : Int), value) := by
  rw [readVarint, readVarintGo_of_readVarintGo _ 0 0 0 value rest (Crygcoin.readVarint_writeVarint h rest),
    List.length_append, Nat.add_sub_cancel, Nat.zero_add]

theorem readVarintGo_continuation {bits : Nat} :
    ∀ (input : List UInt8) (shift read value : Nat), (∀ byte ∈ input, 128 ≤ byte.toNat) →
      shift + 7 * input.length < bits → (readVarintGo bits shift read value input).1 = read + input.length := by
  intro input
  induction input with
  | nil => intro shift read value _ _; rfl
  | cons piece input ih =>
    intro shift read value hcont hfit
    have hpiece := hcont piece List.mem_cons_self
    have hmore : ¬(piece.toNat &&& 0x80 = 0) := by
      rw [byte_and_0x80 piece.toNat_lt]
      exact Nat.not_lt.mpr hpiece
    simp only [List.length_cons] at hfit
    have hfits : ¬(bits ≤ shift + 7 ∧ 1 <<< (bits - shift) ≤ piece.toNat) := by omega
    have hnonzero : ¬(piece.toNat = 0 ∧ shift ≠ 0) := by omega
    simp only [readVarintGo, if_neg hfits, if_neg hnonzero, if_neg hmore, List.length_cons]
    rw [ih (shift + 7) (read + 1) _ (fun byte hbyte => hcont byte (List.mem_cons_of_mem piece hbyte)) (by omega)]
    push_cast
    ring

/-- `Tools::read_varint` answers the count of the bytes it read when the input ends inside a
varint: on every nonempty input of continuation bytes that the width holds, a truncated encoding,
it answers a positive count, where `Common::readVarint` throws. -/
theorem readVarint_accepts_truncated {bits : Nat} {input : List UInt8} (hne : input ≠ [])
    (hcont : ∀ byte ∈ input, 128 ≤ byte.toNat) (hfit : 7 * input.length < bits) :
    (readVarint bits input).1 = input.length ∧ 0 < (readVarint bits input).1 ∧
      Crygcoin.readVarint bits input = none := by
  have hcount : (readVarint bits input).1 = input.length := by
    rw [readVarint, readVarintGo_continuation input 0 0 0 hcont (by omega), Nat.cast_zero, zero_add]
  refine ⟨hcount, ?_, Crygcoin.readVarintGo_continuation input 0 0 hcont⟩
  rw [hcount]
  exact_mod_cast List.length_pos_of_ne_nil hne

/-- The single byte `0x80` for `uint64_t`: `Tools::read_varint` answers 1, `Common::readVarint`
throws. -/
theorem readVarint_accepts_truncated_0x80 :
    [(0x80 : UInt8)] ≠ [] ∧ (∀ byte ∈ [(0x80 : UInt8)], 128 ≤ byte.toNat) ∧ 7 * [(0x80 : UInt8)].length < 64 ∧
    (readVarint 64 [0x80]).1 = [(0x80 : UInt8)].length ∧ 0 < (readVarint 64 [0x80]).1 ∧
      Crygcoin.readVarint 64 [0x80] = none :=
  have hne : [(0x80 : UInt8)] ≠ [] := List.cons_ne_nil _ _
  have hcont : ∀ byte ∈ [(0x80 : UInt8)], 128 ≤ byte.toNat := by
    intro byte hbyte
    rw [List.mem_singleton.mp hbyte]
    decide
  have hfit : 7 * [(0x80 : UInt8)].length < 64 := by decide
  ⟨hne, hcont, hfit, readVarint_accepts_truncated hne hcont hfit⟩

/-- `Tools::write_varint`: while `i >= 0x80` the byte `(static_cast<char>(i) & 0x7f) | 0x80` and
`i >>= 7`, then `static_cast<char>(i)`. -/
def writeVarint (i : Nat) : List UInt8 :=
  if 0x80 ≤ i then ((UInt8.ofNat i &&& 0x7f) ||| 0x80) :: writeVarint (i >>> 7)
  else [UInt8.ofNat i]
termination_by i
decreasing_by
  rw [Nat.shiftRight_eq_div_pow]
  omega

theorem writeVarint_eq_writeVarint (i : Nat) : writeVarint i = Crygcoin.writeVarint i := by
  induction i using Nat.strong_induction_on with
  | _ i ih =>
    rw [writeVarint, Crygcoin.writeVarint]
    split
    next hlarge =>
      have hbyte : (UInt8.ofNat i &&& 0x7f) ||| 0x80 = UInt8.ofNat (i ||| 0x80) := by
        have hmask := (by decide +kernel : ∀ x : Fin 256, (x.val &&& 0x7f) ||| 0x80 = x.val ||| 0x80)
        apply UInt8.toNat_inj.mp
        rw [UInt8.toNat_or, UInt8.toNat_and, UInt8.toNat_ofNat', UInt8.toNat_ofNat', Nat.or_mod_two_pow]
        exact hmask ⟨i % 2 ^ 8, Nat.mod_lt _ (by decide)⟩
      rw [hbyte, ih (i >>> 7) (by rw [Nat.shiftRight_eq_div_pow]; omega)]
    next => rfl

/-- `Tools::get_varint_data`: the bytes `write_varint` writes. -/
def getVarintData (v : Nat) : List UInt8 :=
  writeVarint v

end Tools

end Crygcoin
