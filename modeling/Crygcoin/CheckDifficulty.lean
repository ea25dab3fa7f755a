import Crygcoin.Transaction
import Crygcoin.IntUtil

namespace Crygcoin

/-! `check_hash`, the proof of work check: the hash, read as a 256-bit little-endian number, times
the difficulty must stay below `2^256`. It multiplies word by word and adds the partial products
with a chain of carries, after an early exit on the top word. `mul` has two builds: with
`unsigned __int128`, and with `mul128` of `int-util.h`, which both give the full product. -/

/-- The number a list of bytes stands for, least significant byte first. -/
def littleEndian : List UInt8 → Nat
  | [] => 0
  | byte :: bytes => byte.toNat + 256 * littleEndian bytes

theorem littleEndian_append (xs ys : List UInt8) :
    littleEndian (xs ++ ys) = littleEndian xs + 256 ^ xs.length * littleEndian ys := by
  induction xs with
  | nil => simp [littleEndian]
  | cons x xs ih =>
    rw [List.cons_append, littleEndian, littleEndian, ih, List.length_cons, pow_succ]
    ring

theorem littleEndian_lt (xs : List UInt8) : littleEndian xs < 256 ^ xs.length := by
  induction xs with
  | nil => simp [littleEndian]
  | cons x xs ih =>
    have hx := x.toNat_lt
    rw [littleEndian, List.length_cons, pow_succ]
    omega

/-- `swap64le(((const uint64_t *) &hash)[i])`: the `i`-th eight bytes of the hash, little-endian. -/
def hashWord (hash : Hash) (i : Nat) : UInt64 :=
  UInt64.ofNat (littleEndian ((hash.data.toList.drop (8 * i)).take 8))

/-- The hash as the 256-bit number its four words make, least significant word first. -/
def hashValue (hash : Hash) : Nat :=
  littleEndian hash.data.toList

/-- `mul(a, b, low, high)` with `unsigned __int128`: the low and the high word of the product. -/
def mul (a b : UInt64) : UInt64 × UInt64 :=
  (UInt64.ofNat (a.toNat * b.toNat), UInt64.ofNat (a.toNat * b.toNat / 2 ^ 64))

def cadd (a b : UInt64) : Bool := a + b < a

def cadc (a b : UInt64) (c : Bool) : Bool := a + b < a || (c && a + b == UInt64.ofNat (2 ^ 64 - 1))

theorem littleEndian_take_drop (xs : List UInt8) (h : 8 ≤ xs.length) :
    littleEndian xs = littleEndian (xs.take 8) + 2 ^ 64 * littleEndian (xs.drop 8) := by
  conv => lhs; rw [← List.take_append_drop 8 xs]
  rw [littleEndian_append, List.length_take_of_le h]
  norm_num

theorem hashWord_toNat (hash : Hash) (i : Nat) :
    (hashWord hash i).toNat = littleEndian ((hash.data.toList.drop (8 * i)).take 8) := by
  have hlt := littleEndian_lt ((hash.data.toList.drop (8 * i)).take 8)
  have hlen : ((hash.data.toList.drop (8 * i)).take 8).length ≤ 8 := List.length_take_le _ _
  have hpow : 256 ^ ((hash.data.toList.drop (8 * i)).take 8).length ≤ 2 ^ 64 :=
    calc 256 ^ ((hash.data.toList.drop (8 * i)).take 8).length ≤ 256 ^ 8 := Nat.pow_le_pow_right (by norm_num) hlen
      _ = 2 ^ 64 := by norm_num
  rw [hashWord, UInt64.toNat_ofNat', Nat.mod_eq_of_lt (by omega)]

theorem hashValue_eq_words (hash : Hash) :
    hashValue hash = (hashWord hash 0).toNat + 2 ^ 64 * (hashWord hash 1).toNat +
      2 ^ 128 * (hashWord hash 2).toNat + 2 ^ 192 * (hashWord hash 3).toNat := by
  have hlen : hash.data.toList.length = 32 := by simp
  have hlast : (hash.data.toList.drop 24).take 8 = hash.data.toList.drop 24 :=
    List.take_of_length_le (by simp)
  rw [hashValue, littleEndian_take_drop hash.data.toList (by omega),
    littleEndian_take_drop (hash.data.toList.drop 8) (by simp), List.drop_drop,
    littleEndian_take_drop (hash.data.toList.drop 16) (by simp), List.drop_drop]
  simp only [hashWord_toNat, List.drop_zero, Nat.mul_zero, hlast]
  ring

theorem mul_toNat (a b : UInt64) : (mul a b).1.toNat + 2 ^ 64 * (mul a b).2.toNat = a.toNat * b.toNat := by
  have hab : a.toNat * b.toNat < 2 ^ 64 * 2 ^ 64 := Nat.mul_lt_mul'' a.toNat_lt b.toNat_lt
  have hhigh : a.toNat * b.toNat / 2 ^ 64 < 2 ^ 64 := by omega
  simp only [mul, UInt64.toNat_ofNat']
  rw [Nat.mod_eq_of_lt hhigh]
  exact Nat.mod_add_div _ _

theorem cadc_toNat (a b : UInt64) (c : Bool) : (cadc a b c).toNat = (a.toNat + b.toNat + c.toNat) / 2 ^ 64 := by
  have ha := a.toNat_lt
  have hb := b.toNat_lt
  have hwrap : decide (a + b < a) = decide (2 ^ 64 ≤ a.toNat + b.toNat) := by
    rw [decide_eq_decide, UInt64.lt_iff_toNat_lt, UInt64.toNat_add]
    omega
  have hmax : (a + b == UInt64.ofNat (2 ^ 64 - 1)) = decide (a.toNat + b.toNat = 2 ^ 64 - 1) := by
    rw [Bool.eq_iff_iff, beq_iff_eq, decide_eq_true_iff, ← UInt64.toNat_inj, UInt64.toNat_add,
      UInt64.toNat_ofNat']
    omega
  rw [cadc, hwrap, hmax]
  -- the carry comes from the wrap, from the incoming carry onto `2^64 - 1`, or from neither
  by_cases hw : 2 ^ 64 ≤ a.toNat + b.toNat
  · rw [decide_eq_true hw, Bool.true_or, Bool.toNat_true]
    cases c <;> simp only [Bool.toNat_false, Bool.toNat_true] <;> omega
  · rw [decide_eq_false hw, Bool.false_or]
    by_cases hm : a.toNat + b.toNat = 2 ^ 64 - 1
    · rw [decide_eq_true hm, Bool.and_true]
      cases c <;> simp only [Bool.toNat_false, Bool.toNat_true] <;> omega
    · rw [decide_eq_false hm, Bool.and_false, Bool.toNat_false]
      cases c <;> simp only [Bool.toNat_false, Bool.toNat_true] <;> omega

theorem cadd_eq_cadc (a b : UInt64) : cadd a b = cadc a b false := by
  simp [cadd, cadc]

theorem cadd_toNat (a b : UInt64) : (cadd a b).toNat = (a.toNat + b.toNat) / 2 ^ 64 := by
  rw [cadd_eq_cadc, cadc_toNat, Bool.toNat_false, Nat.add_zero]

/-- `check_hash`, for a given build of `mul`. -/
def checkHashWith (mul : UInt64 → UInt64 → UInt64 × UInt64) (hash : Hash) (difficulty : UInt64) : Bool :=
  -- the highest word first: a random hash most likely fails here
  let (top, high) := mul (hashWord hash 3) difficulty
  if high ≠ 0 then false
  else
    let (_, cur) := mul (hashWord hash 0) difficulty
    let (low, high) := mul (hashWord hash 1) difficulty
    let carry := cadd cur low
    let cur := high
    let (low, high) := mul (hashWord hash 2) difficulty
    let carry := cadc cur low carry
    let carry := cadc high top carry
    !carry

/-- `check_hash` as built where `unsigned __int128` exists. -/
def checkHash (hash : Hash) (difficulty : UInt64) : Bool :=
  checkHashWith mul hash difficulty

section Build

variable {mul : UInt64 → UInt64 → UInt64 × UInt64}

theorem checkHashWith_eq_true_iff (hmul : ∀ a b, (mul a b).1.toNat + 2 ^ 64 * (mul a b).2.toNat = a.toNat * b.toNat)
    (hash : Hash) (difficulty : UInt64) :
    checkHashWith mul hash difficulty = true ↔ hashValue hash * difficulty.toNat < 2 ^ 256 := by
  -- the product by words: the partial products are atoms for omega
  have hproduct : hashValue hash * difficulty.toNat = (hashWord hash 0).toNat * difficulty.toNat +
      2 ^ 64 * ((hashWord hash 1).toNat * difficulty.toNat) + 2 ^ 128 * ((hashWord hash 2).toNat * difficulty.toNat) +
      2 ^ 192 * ((hashWord hash 3).toNat * difficulty.toNat) := by
    rw [hashValue_eq_words]
    ring
  have h0 := hmul (hashWord hash 0) difficulty
  have h1 := hmul (hashWord hash 1) difficulty
  have h2 := hmul (hashWord hash 2) difficulty
  have h3 := hmul (hashWord hash 3) difficulty
  unfold checkHashWith
  rw [hproduct]
  generalize mul (hashWord hash 0) difficulty = p0 at h0 ⊢
  generalize mul (hashWord hash 1) difficulty = p1 at h1 ⊢
  generalize mul (hashWord hash 2) difficulty = p2 at h2 ⊢
  generalize mul (hashWord hash 3) difficulty = p3 at h3 ⊢
  obtain ⟨low0, high0⟩ := p0
  obtain ⟨low1, high1⟩ := p1
  obtain ⟨low2, high2⟩ := p2
  obtain ⟨top, high3⟩ := p3
  dsimp only at h0 h1 h2 h3 ⊢
  have := low0.toNat_lt
  have := low1.toNat_lt
  have := low2.toNat_lt
  have := top.toNat_lt
  have := high0.toNat_lt
  have := high1.toNat_lt
  have := high2.toNat_lt
  by_cases hhigh : high3 = 0
  · -- the product is the four sums of the carry chain, and stays below `2^256` when the last carries nothing
    rw [if_neg (not_not.mpr hhigh), Bool.not_eq_true', ← Bool.toNat_eq_zero, cadc_toNat, cadc_toNat, cadd_toNat]
    rw [hhigh, UInt64.toNat_zero] at h3
    omega
  · -- the top word alone reaches `2^256`
    have hpos : 0 < high3.toNat := Nat.pos_of_ne_zero (fun h => hhigh (UInt64.toNat_inj.mp h))
    rw [if_pos hhigh]
    simp only [Bool.false_eq_true, false_iff, not_lt]
    omega

end Build

/-- The proof of work check is exact: `check_hash` accepts a hash exactly when the hash, as a
256-bit little-endian number, times the difficulty is below `2^256`. -/
theorem check_hash_exact (hash : Hash) (difficulty : UInt64) :
    checkHash hash difficulty = true ↔ hashValue hash * difficulty.toNat < 2 ^ 256 :=
  checkHashWith_eq_true_iff mul_toNat hash difficulty

end Crygcoin
