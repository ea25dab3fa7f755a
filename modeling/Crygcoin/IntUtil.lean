import Mathlib

namespace Crygcoin

/-! The 128-bit helpers of `int-util.h`: `mul128` multiplies two 64-bit words into a high and a
low word from four products of 32-bit halves, and `div128_32` divides a 128-bit number by a 32-bit
divisor by long division in base `2^32`. Each has one lemma saying what it computes as a natural
number, and callers use only that. -/

def hiDword (val : UInt64) : UInt64 := val >>> 32

def loDword (val : UInt64) : UInt64 := val &&& 0xFFFFFFFF

/-- `mul128(multiplier, multiplicand, &product_hi)`: the product from four 32-bit partial products,
as `(product_lo, product_hi)`. -/
def mul128 (multiplier multiplicand : UInt64) : UInt64 × UInt64 :=
  let a := hiDword multiplier
  let b := loDword multiplier
  let c := hiDword multiplicand
  let d := loDword multiplicand
  let ac := a * c
  let ad := a * d
  let bc := b * c
  let bd := b * d
  let adbc := ad + bc
  let adbcCarry : UInt64 := if adbc < ad then 1 else 0
  let productLo := bd + (adbc <<< 32)
  let productLoCarry : UInt64 := if productLo < bd then 1 else 0
  (productLo, ac + (adbc >>> 32) + (adbcCarry <<< 32) + productLoCarry)

/-- `div_with_reminder`: one digit of the long division, with the remainder carried in and out. -/
def divWithReminder (dividend : UInt64) (divisor remainder : UInt32) : UInt64 × UInt32 :=
  let dividend := dividend ||| (remainder.toUInt64 <<< 32)
  (dividend / divisor.toUInt64, (dividend % divisor.toUInt64).toUInt32)

/-- `div128_32`: the remainder, which the source returns, and the quotient's high and low words. -/
def div128_32 (dividendHi dividendLo : UInt64) (divisor : UInt32) : UInt32 × UInt64 × UInt64 :=
  let (quotient3, remainder) := divWithReminder (hiDword dividendHi) divisor 0
  let (quotient2, remainder) := divWithReminder (loDword dividendHi) divisor remainder
  let (quotient1, remainder) := divWithReminder (hiDword dividendLo) divisor remainder
  let (quotient0, remainder) := divWithReminder (loDword dividendLo) divisor remainder
  (remainder, (quotient3 <<< 32) ||| quotient2, (quotient1 <<< 32) ||| quotient0)

theorem hiDword_toNat (val : UInt64) : (hiDword val).toNat = val.toNat / 2 ^ 32 := by
  simp [hiDword, Nat.shiftRight_eq_div_pow]

theorem loDword_toNat (val : UInt64) : (loDword val).toNat = val.toNat % 2 ^ 32 := by
  rw [loDword, UInt64.toNat_and]
  exact Nat.and_two_pow_sub_one_eq_mod _ 32

theorem carryFlag_toNat (y z : UInt64) :
    (if y + z < y then (1 : UInt64) else 0).toNat = (y.toNat + z.toNat) / 2 ^ 64 := by
  have hy := y.toNat_lt
  have hz := z.toNat_lt
  split
  · rename_i h
    rw [UInt64.lt_iff_toNat_lt, UInt64.toNat_add] at h
    simp only [UInt64.toNat_one]
    omega
  · rename_i h
    rw [UInt64.lt_iff_toNat_lt, UInt64.toNat_add] at h
    simp only [UInt64.toNat_zero]
    omega

theorem mul128_toNat (multiplier multiplicand : UInt64) :
    (mul128 multiplier multiplicand).1.toNat + 2 ^ 64 * (mul128 multiplier multiplicand).2.toNat =
      multiplier.toNat * multiplicand.toNat := by
  obtain ⟨a, b, c, d, ha, hb, hc, hd, hm, hn⟩ : ∃ a b c d, a < 2 ^ 32 ∧ b < 2 ^ 32 ∧ c < 2 ^ 32 ∧ d < 2 ^ 32 ∧
      multiplier.toNat = a * 2 ^ 32 + b ∧ multiplicand.toNat = c * 2 ^ 32 + d := by
    have := multiplier.toNat_lt
    have := multiplicand.toNat_lt
    exact ⟨multiplier.toNat / 2 ^ 32, multiplier.toNat % 2 ^ 32, multiplicand.toNat / 2 ^ 32,
      multiplicand.toNat % 2 ^ 32, by omega, by omega, by omega, by omega, by omega, by omega⟩
  have hac : a * c < 2 ^ 64 := by simpa using Nat.mul_lt_mul'' ha hc
  have had : a * d < 2 ^ 64 := by simpa using Nat.mul_lt_mul'' ha hd
  have hbc : b * c < 2 ^ 64 := by simpa using Nat.mul_lt_mul'' hb hc
  have hbd : b * d < 2 ^ 64 := by simpa using Nat.mul_lt_mul'' hb hd
  have hproduct : multiplier.toNat * multiplicand.toNat = a * c * 2 ^ 64 + (a * d + b * c) * 2 ^ 32 + b * d := by
    rw [hm, hn]
    ring
  have hwords : (hiDword multiplier).toNat = a ∧ (loDword multiplier).toNat = b ∧
      (hiDword multiplicand).toNat = c ∧ (loDword multiplicand).toNat = d := by
    rw [hiDword_toNat, loDword_toNat, hiDword_toNat, loDword_toNat, hm, hn]
    omega
  obtain ⟨ha', hb', hc', hd'⟩ := hwords
  have hshift : (32 : UInt64).toNat % 64 = 32 := rfl
  simp only [mul128, hshift, UInt64.toNat_add, UInt64.toNat_mul, carryFlag_toNat, UInt64.toNat_shiftLeft,
    UInt64.toNat_shiftRight, Nat.shiftLeft_eq, Nat.shiftRight_eq_div_pow, ha', hb', hc', hd',
    Nat.mod_eq_of_lt hac, Nat.mod_eq_of_lt had, Nat.mod_eq_of_lt hbc, Nat.mod_eq_of_lt hbd]
  have hbound : multiplier.toNat * multiplicand.toNat < 2 ^ 64 * 2 ^ 64 :=
    Nat.mul_lt_mul'' multiplier.toNat_lt multiplicand.toNat_lt
  rw [hproduct] at hbound ⊢
  -- the middle sum and the two outer products, as numbers
  generalize a * d + b * c = middle at *
  generalize a * c = high at *
  generalize b * d = low at *
  simp only [Nat.reducePow] at *
  omega

theorem toNat_shiftLeft_or {high low : UInt64} (hhigh : high.toNat < 2 ^ 32) (hlow : low.toNat < 2 ^ 32) :
    ((high <<< 32) ||| low).toNat = high.toNat * 2 ^ 32 + low.toNat := by
  rw [UInt64.toNat_or, UInt64.toNat_shiftLeft, Nat.shiftLeft_eq]
  simp only [UInt64.reduceToNat, Nat.reduceMod]
  have hfits : high.toNat * 2 ^ 32 < 2 ^ 64 := by
    calc high.toNat * 2 ^ 32 < 2 ^ 32 * 2 ^ 32 := Nat.mul_lt_mul_of_pos_right hhigh (by norm_num)
      _ = 2 ^ 64 := by norm_num
  rw [Nat.mod_eq_of_lt hfits, Nat.mul_comm, ← Nat.two_pow_add_eq_or_of_lt hlow]

theorem divWithReminder_spec {dividend : UInt64} {divisor remainder : UInt32} (hdividend : dividend.toNat < 2 ^ 32)
    (hremainder : remainder.toNat < divisor.toNat) :
    (divWithReminder dividend divisor remainder).1.toNat = (remainder.toNat * 2 ^ 32 + dividend.toNat) / divisor.toNat ∧
    (divWithReminder dividend divisor remainder).2.toNat = (remainder.toNat * 2 ^ 32 + dividend.toNat) % divisor.toNat ∧
    (divWithReminder dividend divisor remainder).1.toNat < 2 ^ 32 := by
  have hjoin : (dividend ||| (remainder.toUInt64 <<< 32)).toNat = remainder.toNat * 2 ^ 32 + dividend.toNat := by
    rw [UInt64.or_comm, toNat_shiftLeft_or (by simpa using remainder.toNat_lt) hdividend, UInt32.toNat_toUInt64]
  have hdivisor : divisor.toNat < 2 ^ 32 := divisor.toNat_lt
  have hdigit : (remainder.toNat * 2 ^ 32 + dividend.toNat) / divisor.toNat < 2 ^ 32 := by
    apply Nat.div_lt_of_lt_mul
    have := Nat.mul_le_mul_right (2 ^ 32) (show remainder.toNat + 1 ≤ divisor.toNat by omega)
    rw [Nat.add_mul, Nat.one_mul] at this
    omega
  have hquotient : (divWithReminder dividend divisor remainder).1.toNat =
      (remainder.toNat * 2 ^ 32 + dividend.toNat) / divisor.toNat := by
    simp only [divWithReminder, UInt64.toNat_div, hjoin, UInt32.toNat_toUInt64]
  refine ⟨hquotient, ?_, hquotient ▸ hdigit⟩
  simp only [divWithReminder, UInt64.toNat_toUInt32, UInt64.toNat_mod, hjoin, UInt32.toNat_toUInt64]
  exact Nat.mod_eq_of_lt (lt_of_lt_of_le (Nat.mod_lt _ (by omega)) hdivisor.le)

theorem div128_32_spec (dividendHi dividendLo : UInt64) {divisor : UInt32} (hdivisor : 0 < divisor.toNat) :
    (div128_32 dividendHi dividendLo divisor).2.1.toNat * 2 ^ 64 + (div128_32 dividendHi dividendLo divisor).2.2.toNat =
      (dividendHi.toNat * 2 ^ 64 + dividendLo.toNat) / divisor.toNat ∧
    (div128_32 dividendHi dividendLo divisor).1.toNat = (dividendHi.toNat * 2 ^ 64 + dividendLo.toNat) % divisor.toNat := by
  have hhi (val : UInt64) : (hiDword val).toNat < 2 ^ 32 := by
    rw [hiDword_toNat]
    exact Nat.div_lt_of_lt_mul (by simpa using val.toNat_lt)
  have hlo (val : UInt64) : (loDword val).toNat < 2 ^ 32 := by
    rw [loDword_toNat]
    exact Nat.mod_lt _ (by norm_num)
  unfold div128_32
  -- the four digits, most significant first, each with the remainder it leaves
  obtain ⟨hq3, hr3, hb3⟩ := divWithReminder_spec (hhi dividendHi) (show (0 : UInt32).toNat < divisor.toNat from hdivisor)
  generalize divWithReminder (hiDword dividendHi) divisor 0 = step3 at hq3 hr3 hb3 ⊢
  obtain ⟨quotient3, remainder3⟩ := step3
  dsimp only
  have hr3' : remainder3.toNat < divisor.toNat := by rw [hr3]; exact Nat.mod_lt _ hdivisor
  obtain ⟨hq2, hr2, hb2⟩ := divWithReminder_spec (hlo dividendHi) hr3'
  generalize divWithReminder (loDword dividendHi) divisor remainder3 = step2 at hq2 hr2 hb2 ⊢
  obtain ⟨quotient2, remainder2⟩ := step2
  dsimp only
  have hr2' : remainder2.toNat < divisor.toNat := by rw [hr2]; exact Nat.mod_lt _ hdivisor
  obtain ⟨hq1, hr1, hb1⟩ := divWithReminder_spec (hhi dividendLo) hr2'
  generalize divWithReminder (hiDword dividendLo) divisor remainder2 = step1 at hq1 hr1 hb1 ⊢
  obtain ⟨quotient1, remainder1⟩ := step1
  dsimp only
  have hr1' : remainder1.toNat < divisor.toNat := by rw [hr1]; exact Nat.mod_lt _ hdivisor
  obtain ⟨hq0, hr0, hb0⟩ := divWithReminder_spec (hlo dividendLo) hr1'
  generalize divWithReminder (loDword dividendLo) divisor remainder1 = step0 at hq0 hr0 hb0 ⊢
  obtain ⟨quotient0, remainder0⟩ := step0
  dsimp only at hq3 hr3 hb3 hq2 hr2 hb2 hq1 hr1 hb1 hq0 hr0 hb0 ⊢
  rw [toNat_shiftLeft_or hb3 hb2, toNat_shiftLeft_or hb1 hb0]
  simp only [hiDword_toNat, loDword_toNat, UInt32.reduceToNat, Nat.zero_mul, Nat.zero_add] at hq3 hr3 hq2 hr2 hq1 hr1 hq0 hr0
  -- each digit: what it divided is the divisor times the digit plus the remainder
  have h3 := Nat.div_add_mod (dividendHi.toNat / 2 ^ 32) divisor.toNat
  have h2 := Nat.div_add_mod (remainder3.toNat * 2 ^ 32 + dividendHi.toNat % 2 ^ 32) divisor.toNat
  have h1 := Nat.div_add_mod (remainder2.toNat * 2 ^ 32 + dividendLo.toNat / 2 ^ 32) divisor.toNat
  have h0 := Nat.div_add_mod (remainder1.toNat * 2 ^ 32 + dividendLo.toNat % 2 ^ 32) divisor.toNat
  rw [← hq3, ← hr3] at h3
  rw [← hq2, ← hr2] at h2
  rw [← hq1, ← hr1] at h1
  rw [← hq0, ← hr0] at h0
  have hr0' : remainder0.toNat < divisor.toNat := by rw [hr0]; exact Nat.mod_lt _ hdivisor
  have hsum : divisor.toNat * ((quotient3.toNat * 2 ^ 32 + quotient2.toNat) * 2 ^ 64 +
      (quotient1.toNat * 2 ^ 32 + quotient0.toNat)) =
      divisor.toNat * quotient3.toNat * 2 ^ 96 + divisor.toNat * quotient2.toNat * 2 ^ 64 +
        divisor.toNat * quotient1.toNat * 2 ^ 32 + divisor.toNat * quotient0.toNat := by ring
  have hvalue : remainder0.toNat + divisor.toNat * ((quotient3.toNat * 2 ^ 32 + quotient2.toNat) * 2 ^ 64 +
      (quotient1.toNat * 2 ^ 32 + quotient0.toNat)) = dividendHi.toNat * 2 ^ 64 + dividendLo.toNat := by
    rw [hsum]
    omega
  exact ((Nat.div_mod_unique hdivisor).mpr ⟨hvalue, hr0'⟩).imp Eq.symm Eq.symm

/-- Both helpers are exact: `mul128` gives the whole product of two words, and `div128_32` a
quotient and a remainder below the divisor that make up the dividend. -/
theorem mul128_div128_32_exact :
    (∀ multiplier multiplicand : UInt64,
      (mul128 multiplier multiplicand).2.toNat * 2 ^ 64 + (mul128 multiplier multiplicand).1.toNat =
        multiplier.toNat * multiplicand.toNat) ∧
    ∀ (dividendHi dividendLo : UInt64) (divisor : UInt32), 0 < divisor.toNat →
      (div128_32 dividendHi dividendLo divisor).1.toNat < divisor.toNat ∧
      ((div128_32 dividendHi dividendLo divisor).2.1.toNat * 2 ^ 64 +
          (div128_32 dividendHi dividendLo divisor).2.2.toNat) * divisor.toNat +
        (div128_32 dividendHi dividendLo divisor).1.toNat = dividendHi.toNat * 2 ^ 64 + dividendLo.toNat := by
  refine ⟨fun multiplier multiplicand => ?_, fun dividendHi dividendLo divisor hdivisor => ?_⟩
  · rw [Nat.add_comm, Nat.mul_comm]
    exact mul128_toNat multiplier multiplicand
  · obtain ⟨hquotient, hremainder⟩ := div128_32_spec dividendHi dividendLo hdivisor
    rw [hquotient, hremainder]
    exact ⟨Nat.mod_lt _ hdivisor, Nat.div_add_mod' _ _⟩

/-- The largest dividend by the divisor 7. -/
theorem mul128_div128_32_exact_max :
    0 < (7 : UInt32).toNat ∧
      (div128_32 (2 ^ 64 - 1) (2 ^ 64 - 1) 7).1.toNat < (7 : UInt32).toNat ∧
      ((div128_32 (2 ^ 64 - 1) (2 ^ 64 - 1) 7).2.1.toNat * 2 ^ 64 + (div128_32 (2 ^ 64 - 1) (2 ^ 64 - 1) 7).2.2.toNat) *
          (7 : UInt32).toNat + (div128_32 (2 ^ 64 - 1) (2 ^ 64 - 1) 7).1.toNat =
        (2 ^ 64 - 1 : UInt64).toNat * 2 ^ 64 + (2 ^ 64 - 1 : UInt64).toNat :=
  ⟨by decide, mul128_div128_32_exact.2 (2 ^ 64 - 1) (2 ^ 64 - 1) 7 (by decide)⟩

end Crygcoin
