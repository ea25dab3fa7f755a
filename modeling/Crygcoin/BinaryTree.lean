import Mathlib.Logic.Function.Iterate
import Mathlib.Data.List.Basic
import Mathlib.Tactic.Ring

namespace Crygcoin

/-! Binary hash trees over a list of leaves. A level of the tree is the level below it hashed in
adjacent pairs; the root of a perfect tree is its first leaf hashed up with the sibling of each
node on its path. The second part collects the facts about powers of two that size such trees:
smearing the highest bit of a number to the right, reading off `Nat.log2` a shift at a time, and
sampling a range by the powers of two below its end. -/

section Levels

variable {α : Type} (f : α → α → α)

/-- Adjacent elements hashed in pairs; an odd last element is dropped. -/
def pairUp : List α → List α
  | a :: b :: rest => f a b :: pairUp rest
  | _ => []

@[simp] theorem pairUp_nil : pairUp f [] = [] := rfl

@[simp] theorem pairUp_singleton (a : α) : pairUp f [a] = [] := rfl

@[simp] theorem pairUp_cons_cons (a b : α) (rest : List α) :
    pairUp f (a :: b :: rest) = f a b :: pairUp f rest := rfl

theorem length_pairUp : ∀ xs : List α, (pairUp f xs).length = xs.length / 2
  | [] => by simp
  | [_] => by simp
  | _ :: _ :: rest => by
    simp only [pairUp_cons_cons, List.length_cons, length_pairUp rest]
    omega

theorem drop_pairUp : ∀ (n : Nat) (xs : List α), (pairUp f xs).drop n = pairUp f (xs.drop (2 * n))
  | 0, _ => rfl
  | _ + 1, [] => rfl
  | _ + 1, [_] => rfl
  | n + 1, _ :: _ :: rest => by
    rw [pairUp_cons_cons, List.drop_succ_cons, drop_pairUp n rest, show 2 * (n + 1) = 2 * n + 2 by omega]
    rfl

theorem take_drop_eq_cons_cons {xs : List α} {i n : Nat} (h : i + 2 * (n + 1) ≤ xs.length) :
    (xs.drop i).take (2 * (n + 1)) =
      xs[i] :: xs[i + 1] :: (xs.drop (i + 2)).take (2 * n) := by
  rw [List.drop_eq_getElem_cons (by omega), List.drop_eq_getElem_cons (by omega),
    show 2 * (n + 1) = 2 * n + 1 + 1 by omega, List.take_succ_cons, List.take_succ_cons]

/-- The siblings on the path of the first leaf of a perfect tree of depth `d` over the level `r`,
the root's children first. -/
def firstBranch : Nat → List α → List α
  | 0, _ => []
  | d + 1, r => firstBranch d (pairUp f r) ++ (r.drop 1).take 1

/-- A node hashed up with a list of siblings, the last sibling first, each time as the left half. -/
def hashUp (leaf : α) (branch : List α) : α :=
  branch.foldr (fun sibling node => f node sibling) leaf

@[simp] theorem hashUp_nil (leaf : α) : hashUp f leaf [] = leaf := rfl

theorem hashUp_append_singleton (leaf sibling : α) (branch : List α) :
    hashUp f leaf (branch ++ [sibling]) = hashUp f (f leaf sibling) branch := by
  simp only [hashUp, List.foldr_append, List.foldr_cons, List.foldr_nil]

theorem length_iterate_pairUp (d j : Nat) : ∀ r : List α, r.length = 2 ^ (d + j) →
    ((pairUp f)^[j] r).length = 2 ^ d := by
  induction j with
  | zero => intro r hr; exact hr
  | succ j ih =>
    intro r hr
    rw [Function.iterate_succ_apply]
    apply ih
    rw [length_pairUp, hr, ← Nat.add_assoc, Nat.pow_succ, Nat.mul_div_cancel _ Nat.two_pos]

theorem length_firstBranch (d : Nat) : ∀ r : List α, r.length = 2 ^ d → (firstBranch f d r).length = d := by
  induction d with
  | zero => intro _ _; rfl
  | succ d ih =>
    intro r hr
    have hpair : (pairUp f r).length = 2 ^ d := by
      rw [length_pairUp, hr, Nat.pow_succ, Nat.mul_div_cancel _ Nat.two_pos]
    have htwo : 2 ≤ r.length := by
      rw [hr, Nat.pow_succ]
      have := Nat.one_le_two_pow (n := d)
      omega
    simp only [firstBranch, List.length_append, ih _ hpair, List.length_take, List.length_drop]
    omega

theorem head?_iterate_pairUp (d : Nat) : ∀ (r : List α) (leaf : α), r.length = 2 ^ d → r.head? = some leaf →
    ((pairUp f)^[d] r).head? = some (hashUp f leaf (firstBranch f d r)) := by
  induction d with
  | zero => intro r leaf _ hleaf; exact hleaf
  | succ d ih =>
    intro r leaf hr hleaf
    -- a level of `2^(d+1)` nodes starts with the leaf and its sibling
    obtain ⟨a, b, rest, rfl⟩ : ∃ a b rest, r = a :: b :: rest := by
      match r, hr with
      | a :: b :: rest, _ => exact ⟨a, b, rest, rfl⟩
      | [], hr => exact absurd hr (Nat.ne_of_lt (Nat.two_pow_pos _))
      | [_], hr =>
        have := Nat.one_le_two_pow (n := d)
        simp [Nat.pow_succ] at hr
        omega
    obtain rfl : a = leaf := Option.some.inj hleaf
    have hpair : (pairUp f (a :: b :: rest)).length = 2 ^ d := by
      rw [length_pairUp, hr, Nat.pow_succ, Nat.mul_div_cancel _ Nat.two_pos]
    rw [Function.iterate_succ_apply, ih _ (f a b) hpair rfl]
    simp only [firstBranch, List.drop_succ_cons, List.drop_zero, List.take_succ_cons, List.take_zero,
      hashUp_append_singleton]

end Levels

section PowersOfTwo

/-- `c |= c >> i` for each shift `i` in turn. -/
def smearRight (x : Nat) (shifts : List Nat) : Nat :=
  shifts.foldl (fun c i => c ||| c >>> i) x

theorem testBit_smearRight (x : Nat) (k : Nat) : ∀ t,
    (smearRight x ((List.range k).map (2 ^ ·))).testBit t = true ↔
      ∃ j, t ≤ j ∧ j < t + 2 ^ k ∧ x.testBit j = true := by
  induction k with
  | zero =>
    intro t
    simp only [smearRight, List.range_zero, List.map_nil, List.foldl_nil, Nat.pow_zero]
    constructor
    · intro h; exact ⟨t, Nat.le_refl t, by omega, h⟩
    · rintro ⟨j, hlow, hhigh, hj⟩
      obtain rfl : j = t := by omega
      exact hj
  | succ k ih =>
    intro t
    have hstep : smearRight x ((List.range (k + 1)).map (2 ^ ·)) =
        smearRight x ((List.range k).map (2 ^ ·)) ||| smearRight x ((List.range k).map (2 ^ ·)) >>> 2 ^ k := by
      simp only [smearRight, List.range_succ, List.map_append, List.foldl_append, List.map_cons, List.map_nil,
        List.foldl_cons, List.foldl_nil]
    rw [hstep, Nat.testBit_or, Bool.or_eq_true, Nat.testBit_shiftRight, ih, ih]
    constructor
    · rintro (⟨j, hlow, hhigh, hj⟩ | ⟨j, hlow, hhigh, hj⟩)
      · exact ⟨j, hlow, by rw [Nat.pow_succ]; omega, hj⟩
      · exact ⟨j, by omega, by rw [Nat.pow_succ]; omega, hj⟩
    · rintro ⟨j, hlow, hhigh, hj⟩
      by_cases hnear : j < t + 2 ^ k
      · exact Or.inl ⟨j, hlow, hnear, hj⟩
      · exact Or.inr ⟨j, by omega, by rw [Nat.pow_succ] at hhigh; omega, hj⟩

theorem smearRight_eq_two_pow_sub_one {x k : Nat} (hx : x ≠ 0) (hlog : x.log2 < 2 ^ k) :
    smearRight x ((List.range k).map (2 ^ ·)) = 2 ^ (x.log2 + 1) - 1 := by
  apply Nat.eq_of_testBit_eq
  intro t
  rw [Nat.testBit_two_pow_sub_one, Bool.eq_iff_iff, testBit_smearRight, decide_eq_true_iff]
  constructor
  · rintro ⟨j, hlow, -, hj⟩
    have := (Nat.le_log2 hx).mpr (Nat.ge_two_pow_of_testBit hj)
    omega
  · intro ht
    exact ⟨x.log2, by omega, by omega, Nat.testBit_log2 hx⟩

theorem testBit_two_pow_sub_two_pow {L w : Nat} (hL : L ≤ w) (t : Nat) :
    (2 ^ w - 2 ^ L).testBit t = decide (L ≤ t ∧ t < w) := by
  have hshift : 2 ^ w - 2 ^ L = (2 ^ (w - L) - 1) <<< L := by
    rw [Nat.shiftLeft_eq, Nat.sub_mul, Nat.one_mul, ← Nat.pow_add, Nat.sub_add_cancel hL]
  rw [hshift, Nat.testBit_shiftLeft, Nat.testBit_two_pow_sub_one]
  by_cases ht : L ≤ t
  · simp only [ge_iff_le, ht, decide_true, Bool.true_and, true_and, decide_eq_decide]
    omega
  · simp [ht]

theorem two_pow_sub_one_and_not_shiftRight {L w : Nat} (hL : L < w) :
    (2 ^ (L + 1) - 1) &&& (2 ^ w - 1 - (2 ^ (L + 1) - 1) >>> 1) = 2 ^ L := by
  have hhalf : (2 ^ (L + 1) - 1) >>> 1 = 2 ^ L - 1 := by
    rw [Nat.shiftRight_eq_div_pow, Nat.pow_succ]
    have := Nat.one_le_two_pow (n := L)
    omega
  have hcomplement : 2 ^ w - 1 - (2 ^ L - 1) = 2 ^ w - 2 ^ L := by
    have := Nat.one_le_two_pow (n := L)
    have := Nat.pow_le_pow_right (n := 2) Nat.two_pos (Nat.le_of_lt hL)
    omega
  rw [hhalf, hcomplement]
  apply Nat.eq_of_testBit_eq
  intro t
  rw [Nat.testBit_and, Nat.testBit_two_pow_sub_one, testBit_two_pow_sub_two_pow (Nat.le_of_lt hL), Nat.testBit_two_pow,
    ← Bool.decide_and]
  exact decide_eq_decide.mpr (by omega)

theorem log2_shiftRight_add {c s : Nat} (h : c >>> s ≠ 0) : (c >>> s).log2 + s = c.log2 := by
  have hc : c ≠ 0 := by
    rintro rfl
    simp at h
  rw [Nat.shiftRight_eq_div_pow] at h ⊢
  symm
  rw [Nat.log2_eq_iff hc]
  have hlow := Nat.log2_self_le h
  have hhigh := Nat.lt_log2_self (n := c / 2 ^ s)
  rw [Nat.le_div_iff_mul_le (Nat.two_pow_pos s)] at hlow
  rw [Nat.div_lt_iff_lt_mul (Nat.two_pow_pos s)] at hhigh
  rw [Nat.pow_add, show (c / 2 ^ s).log2 + s + 1 = (c / 2 ^ s).log2 + 1 + s by omega, Nat.pow_add]
  exact ⟨hlow, hhigh⟩

theorem log2_eq_of_two_pow_le {c e : Nat} (hlow : 2 ^ e ≤ c) (hhigh : c < 2 ^ (e + 1)) : c.log2 = e :=
  (Nat.log2_eq_iff (by have := Nat.one_le_two_pow (n := e); omega)).mpr ⟨hlow, hhigh⟩

/-- The powers of two from `2 ^ k` on that are below `n`. -/
def powersBelow (n k : Nat) : List Nat :=
  if 2 ^ k < n then 2 ^ k :: powersBelow n (k + 1) else []
termination_by n - k
decreasing_by
  rename_i hbelow
  have := Nat.lt_two_pow_self (n := k)
  omega

theorem powersBelow_eq (n k : Nat) :
    powersBelow n k = if 2 ^ k < n then 2 ^ k :: powersBelow n (k + 1) else [] := by
  rw [powersBelow]

theorem find?_powersBelow {n d k : Nat} (hd : d ≤ n) (hk : 2 ^ k < 2 * d) :
    ∃ x, (powersBelow n k ++ [n]).find? (fun x => decide (d ≤ x)) = some x ∧ d ≤ x ∧ x < 2 * d := by
  fun_induction powersBelow n k with
  | case1 k hbelow ih =>
    rw [List.cons_append, List.find?_cons]
    by_cases hreach : d ≤ 2 ^ k
    · exact ⟨2 ^ k, by simp [hreach], hreach, hk⟩
    · -- `2 ^ k` falls short of `d`, so the next power is still below `2 * d`
      rw [decide_eq_false hreach]
      exact ih (by rw [Nat.pow_succ]; omega)
  | case2 k hnot =>
    exact ⟨n, by simp [hd], hd, by omega⟩

end PowersOfTwo

end Crygcoin
