import Mathlib

namespace Crygcoin

/-! Signed 64-bit arithmetic as C++ gives it: a result outside the range of `int64_t` is undefined
behaviour, and so are a division by zero and a read past the end of a vector; a step that would do
one of these fails here with what it did. Conversions from `uint64_t` wrap, as the compilers the
source is built with do. -/

inductive Undefined
  | overflow
  | divisionByZero
  | outOfRange
deriving DecidableEq, Repr

namespace Int64Arith

/-- The value as `int64_t`, or undefined behaviour. -/
def checked (x : Int) : Except Undefined Int :=
  if -2 ^ 63 ≤ x ∧ x < 2 ^ 63 then pure x else throw .overflow

def add (a b : Int) : Except Undefined Int := checked (a + b)

def sub (a b : Int) : Except Undefined Int := checked (a - b)

def mul (a b : Int) : Except Undefined Int := checked (a * b)

/-- `a / b`, rounded toward zero. -/
def div (a b : Int) : Except Undefined Int :=
  if b = 0 then throw .divisionByZero else checked (a.tdiv b)

/-- `static_cast<int64_t>(v)` of a `uint64_t`: the same 64 bits, read in two's complement. -/
def ofUInt64 (v : UInt64) : Int :=
  if v.toNat < 2 ^ 63 then v.toNat else v.toNat - 2 ^ 64

/-- `static_cast<uint64_t>(x)`: `x` modulo `2^64`. -/
def toUInt64 (x : Int) : UInt64 :=
  UInt64.ofNat (x % 2 ^ 64).toNat

section

variable {a b x y : Int}

theorem checked_eq_ok : checked x = .ok y ↔ (-2 ^ 63 ≤ x ∧ x < 2 ^ 63) ∧ x = y := by
  unfold checked
  by_cases h : -2 ^ 63 ≤ x ∧ x < 2 ^ 63
  · rw [if_pos h]
    constructor
    · intro heq
      exact ⟨h, Except.ok.inj heq⟩
    · rintro ⟨-, rfl⟩
      rfl
  · rw [if_neg h]
    constructor
    · intro heq
      cases heq
    · rintro ⟨hrange, -⟩
      exact absurd hrange h

theorem checked_of_range (h : -2 ^ 63 ≤ x ∧ x < 2 ^ 63) : checked x = .ok x :=
  checked_eq_ok.mpr ⟨h, rfl⟩

theorem checked_overflow (h : ¬(-2 ^ 63 ≤ x ∧ x < 2 ^ 63)) : checked x = .error .overflow := by
  rw [checked, if_neg h]
  rfl

@[simp] theorem checked_zero : checked 0 = .ok 0 :=
  checked_of_range (by omega)

@[simp] theorem sub_self (a : Int) : sub a a = .ok 0 := by
  rw [sub, Int.sub_self, checked_zero]

@[simp] theorem zero_mul (b : Int) : mul 0 b = .ok 0 := by
  rw [mul, Int.zero_mul, checked_zero]

@[simp] theorem mul_zero (a : Int) : mul a 0 = .ok 0 := by
  rw [mul, Int.mul_zero, checked_zero]

@[simp] theorem add_zero_zero : add 0 0 = .ok 0 := by
  rw [add, Int.add_zero, checked_zero]

theorem mul_of_range (h : -2 ^ 63 ≤ a * b ∧ a * b < 2 ^ 63) : mul a b = .ok (a * b) :=
  checked_of_range h

theorem div_zero (a : Int) : div a 0 = .error .divisionByZero := by
  simp [div, throw, throwThe, MonadExceptOf.throw]

theorem ofUInt64_range (v : UInt64) : -2 ^ 63 ≤ ofUInt64 v ∧ ofUInt64 v < 2 ^ 63 := by
  have := v.toNat_lt
  unfold ofUInt64
  split <;> omega

end

end Int64Arith

end Crygcoin
