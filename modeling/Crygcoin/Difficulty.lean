import Crygcoin.CheckedInt64
import Crygcoin.Core

namespace Crygcoin

open Int64Arith

/-! The LWMA-2 difficulty algorithms of `Difficulty.cpp`, `nextDifficultyV3` to `nextDifficultyV5`,
in `int64_t` arithmetic: a weighted sum `L` of the clamped solve times of the window, the work of
the window divided by `L`, kept within bounds set by the last block's difficulty. The three versions
differ only in the clamp of a solve time, the bounds and the rule after three fast blocks, so they
are one definition, `lwma2`, applied to the rules of each. -/

/-- `DIFFICULTY_TARGET`, in seconds. -/
def DIFFICULTY_TARGET : Int := 30

def DIFFICULTY_WINDOW_V3 : Nat := 51103

def CRYPTONOTE_BLOCK_FUTURE_TIME_LIMIT_V3 : Int := 3 * DIFFICULTY_TARGET

/-- The `clamp` template of `Difficulty.h`: `std::max(lower, std::min(n, upper))`. -/
def clamp (n lower upper : Int) : Int := max lower (min n upper)

/-- What the versions of LWMA-2 differ in. -/
structure Lwma2Rules where
  /-- The difficulty while the chain is shorter than the window. -/
  startupDifficulty : UInt64
  clampSolveTime : Int → Int
  /-- `next_D` is kept between `prev_D * lowerPercent / 100` and `prev_D * upperPercent / 100`. -/
  lowerPercent : Int
  upperPercent : Int
  /-- After three fast blocks `prev_D * fastPercent / 100` is a floor for `next_D`, or, where
  `fastIsFloor` is false, its value. -/
  fastPercent : Int
  fastIsFloor : Bool

/-- The loop `for (i = 1; i <= N; i++)` from `i` on, `fuel` passes left: `L`, the solve times
weighted by their place, and `sum_3_ST`, the last three solve times. -/
def lwma2Loop (rules : Lwma2Rules) (timestamps : List UInt64) (N : Nat) :
    Nat → Nat → Int → Int → Except Undefined (Int × Int)
  | 0, _, L, sum_3_ST => pure (L, sum_3_ST)
  | fuel + 1, i, L, sum_3_ST => do
    let ST ← Int64Arith.sub (ofUInt64 (timestamps.getD i 0)) (ofUInt64 (timestamps.getD (i - 1) 0))
    let ST := rules.clampSolveTime ST
    let weighted ← Int64Arith.mul ST i
    let L ← Int64Arith.add L weighted
    let sum_3_ST ← if i > N - 3 then Int64Arith.add sum_3_ST ST else pure sum_3_ST
    lwma2Loop rules timestamps N fuel (i + 1) L sum_3_ST

/-- The LWMA-2 difficulty of the next block from the timestamps and cumulative difficulties of the
last `N + 1` blocks. -/
def lwma2 (rules : Lwma2Rules) (timestamps cumulativeDifficulties : List UInt64) : Except Undefined UInt64 := do
  let T := DIFFICULTY_TARGET
  let N := DIFFICULTY_WINDOW_V3
  if timestamps.length < N + 1 then return rules.startupDifficulty
  let (L, sum_3_ST) ← lwma2Loop rules timestamps N N 1 0 0
  -- the source reads the cumulative difficulties without checking their number
  let some last := cumulativeDifficulties[N]? | throw .outOfRange
  let some first := cumulativeDifficulties[0]? | throw .outOfRange
  let some beforeLast := cumulativeDifficulties[N - 1]? | throw .outOfRange
  let work ← Int64Arith.mul (ofUInt64 (last - first)) T
  let work ← Int64Arith.mul work (N + 1)
  let work ← Int64Arith.mul work 99
  let weight ← Int64Arith.mul (100 * 2) L
  let next_D ← Int64Arith.div work weight
  let prev_D := ofUInt64 (last - beforeLast)
  let lower ← Int64Arith.mul prev_D rules.lowerPercent
  let upper ← Int64Arith.mul prev_D rules.upperPercent
  let next_D := max (lower.tdiv 100) (min next_D (upper.tdiv 100))
  let next_D ←
    if sum_3_ST < (8 * T).tdiv 10 then do
      let fast ← Int64Arith.mul prev_D rules.fastPercent
      pure (if rules.fastIsFloor then max next_D (fast.tdiv 100) else fast.tdiv 100)
    else pure next_D
  pure (toUInt64 next_D)

def nextDifficultyV5 (timestamps cumulativeDifficulties : List UInt64) : Except Undefined UInt64 :=
  lwma2 ⟨10000, fun ST => max (-4 * DIFFICULTY_TARGET) (min ST (6 * DIFFICULTY_TARGET)), 67, 150, 108, true⟩
    timestamps cumulativeDifficulties

/-- `nextDifficultyV4`: its `clamp` takes the solve time as the lower bound, so a solve time is
only bounded below. -/
def nextDifficultyV4 (timestamps cumulativeDifficulties : List UInt64) : Except Undefined UInt64 :=
  lwma2 ⟨1000, fun ST => clamp (-6 * DIFFICULTY_TARGET) ST (6 * DIFFICULTY_TARGET), 67, 150, 110, true⟩
    timestamps cumulativeDifficulties

/-- `nextDifficultyV3`: after three fast blocks it sets the difficulty instead of raising it. -/
def nextDifficultyV3 (timestamps cumulativeDifficulties : List UInt64) : Except Undefined UInt64 :=
  lwma2 ⟨1000, fun ST => max (-CRYPTONOTE_BLOCK_FUTURE_TIME_LIMIT_V3) (min ST (6 * DIFFICULTY_TARGET)), 70, 107, 110,
      false⟩
    timestamps cumulativeDifficulties

section EqualTimestamps

variable {rules : Lwma2Rules} {timestamps cumulativeDifficulties : List UInt64} {c : UInt64}

theorem lwma2Loop_equal_timestamps (hclamp : rules.clampSolveTime 0 = 0) {N : Nat}
    (hwindow : ∀ j ≤ N, timestamps.getD j 0 = c) :
    ∀ fuel i, 1 ≤ i → i + fuel ≤ N + 1 → lwma2Loop rules timestamps N fuel i 0 0 = .ok (0, 0) := by
  intro fuel
  induction fuel with
  | zero => intro i _ _; rfl
  | succ fuel ih =>
    intro i hi hbound
    have hcurrent := hwindow i (by omega)
    have hprevious := hwindow (i - 1) (by omega)
    have hrest := ih (i + 1) (by omega) (by omega)
    simp only [lwma2Loop, hcurrent, hprevious, sub_self, hclamp, zero_mul, add_zero_zero, bind, Except.bind]
    split <;> exact hrest

theorem lwma2_divides_by_zero (hclamp : rules.clampSolveTime 0 = 0)
    (hlength : DIFFICULTY_WINDOW_V3 + 1 ≤ timestamps.length) (hwindow : ∀ j ≤ DIFFICULTY_WINDOW_V3, timestamps.getD j 0 = c)
    (hcount : DIFFICULTY_WINDOW_V3 < cumulativeDifficulties.length)
    (hwork : (cumulativeDifficulties.getD DIFFICULTY_WINDOW_V3 0 - cumulativeDifficulties.getD 0 0).toNat *
      (30 * 51104 * 99) < 2 ^ 63) :
    lwma2 rules timestamps cumulativeDifficulties = .error .divisionByZero := by
  have hloop := lwma2Loop_equal_timestamps hclamp hwindow DIFFICULTY_WINDOW_V3 1 le_rfl (by omega)
  -- the three cumulative difficulties the source reads are there
  have hlast : cumulativeDifficulties[DIFFICULTY_WINDOW_V3]? =
      some (cumulativeDifficulties.getD DIFFICULTY_WINDOW_V3 0) := by
    rw [List.getD_eq_getElem?_getD, List.getElem?_eq_getElem hcount]
    rfl
  have hfirst : cumulativeDifficulties[0]? = some (cumulativeDifficulties.getD 0 0) := by
    rw [List.getD_eq_getElem?_getD, List.getElem?_eq_getElem (by omega)]
    rfl
  obtain ⟨beforeLast, hbeforeLast⟩ : ∃ beforeLast, cumulativeDifficulties[DIFFICULTY_WINDOW_V3 - 1]? = some beforeLast :=
    ⟨_, List.getElem?_eq_getElem (by omega)⟩
  rw [lwma2]
  dsimp only
  rw [if_neg (by omega), hloop, ok_bind]
  dsimp only
  rw [hlast, hfirst, hbeforeLast]
  dsimp only
  -- the work of the window times `T * (N + 1) * 99` stays in `int64_t`, and the weight is 0
  generalize cumulativeDifficulties.getD DIFFICULTY_WINDOW_V3 0 - cumulativeDifficulties.getD 0 0 = work at hwork ⊢
  have hx : ofUInt64 work = work.toNat := by
    rw [ofUInt64, if_pos (by omega)]
  have hpos : (0 : Int) ≤ work.toNat := Int.natCast_nonneg _
  have hN : ((DIFFICULTY_WINDOW_V3 : Int) + 1) = 51104 := by
    rw [DIFFICULTY_WINDOW_V3]
    rfl
  have h1 : Int64Arith.mul (work.toNat : Int) 30 = .ok (work.toNat * 30) := mul_of_range (by omega)
  have h2 : Int64Arith.mul ((work.toNat : Int) * 30) 51104 = .ok (work.toNat * 30 * 51104) := mul_of_range (by omega)
  have h3 : Int64Arith.mul ((work.toNat : Int) * 30 * 51104) 99 = .ok (work.toNat * 30 * 51104 * 99) :=
    mul_of_range (by omega)
  rw [hx, show DIFFICULTY_TARGET = 30 from rfl, h1, ok_bind, hN, h2, ok_bind, h3, ok_bind, mul_zero, ok_bind,
    div_zero, error_bind]

end EqualTimestamps

theorem medianValue_replicate_le (n : Nat) (c : UInt64) : medianValue (List.replicate n c) ≤ c := by
  have hsorted : (List.replicate n c).mergeSort (fun a b => decide (a ≤ b)) = List.replicate n c :=
    List.perm_replicate.mp (List.mergeSort_perm _ _)
  unfold medianValue
  split
  · exact UInt64.zero_le
  · rename_i value hvalue
    have hmem : value ∈ List.replicate n c := by rw [hvalue]; exact List.mem_singleton_self value
    rw [(List.mem_replicate.mp hmem).2]
    exact UInt64.le_refl c
  · rename_i hnil hsingle
    -- at least two timestamps, all equal
    have htwo : 2 ≤ n := by
      rcases n with _ | _ | n
      · exact absurd rfl hnil
      · exact absurd rfl (hsingle c)
      · omega
    simp only [hsorted, List.length_replicate]
    rw [List.getD_replicate _ (by omega)]
    split
    · exact UInt64.le_refl c
    · rw [List.getD_replicate _ (by omega), UInt64.le_iff_toNat_le, UInt64.toNat_div, UInt64.toNat_add]
      have := c.toNat_lt
      have htwo : (2 : UInt64).toNat = 2 := rfl
      rw [htwo]
      omega

/-- LWMA-2 divides by zero on a chain that `validateBlock` admits: every block of a window of
`N + 1` equal timestamps passes the median rule, the solve times and `L` are 0, and
`nextDifficultyV5`, `nextDifficultyV4` and `nextDifficultyV3` all divide by `100 * 2 * L`, once the
work of the window fits in `int64_t`. -/
theorem nextDifficulty_divides_by_zero_on_equal_timestamps {timestamps cumulativeDifficulties : List UInt64}
    {c : UInt64} (hlength : DIFFICULTY_WINDOW_V3 + 1 ≤ timestamps.length)
    (hwindow : ∀ j ≤ DIFFICULTY_WINDOW_V3, timestamps.getD j 0 = c)
    (hcount : DIFFICULTY_WINDOW_V3 < cumulativeDifficulties.length)
    (hwork : (cumulativeDifficulties.getD DIFFICULTY_WINDOW_V3 0 - cumulativeDifficulties.getD 0 0).toNat *
      (30 * 51104 * 99) < 2 ^ 63) :
    (∀ window, ¬c < medianValue (List.replicate window c)) ∧
      nextDifficultyV5 timestamps cumulativeDifficulties = .error .divisionByZero ∧
      nextDifficultyV4 timestamps cumulativeDifficulties = .error .divisionByZero ∧
      nextDifficultyV3 timestamps cumulativeDifficulties = .error .divisionByZero := by
  refine ⟨fun window hlt => absurd (medianValue_replicate_le window c) (UInt64.not_le.mpr hlt), ?_, ?_, ?_⟩
  · exact lwma2_divides_by_zero (by decide) hlength hwindow hcount hwork
  · exact lwma2_divides_by_zero (by decide) hlength hwindow hcount hwork
  · exact lwma2_divides_by_zero (by decide) hlength hwindow hcount hwork

/-- `N + 1` blocks mined at one second, each of difficulty 1. -/
theorem nextDifficulty_divides_by_zero_on_equal_timestamps_flat :
    (∀ window, ¬(1000 : UInt64) < medianValue (List.replicate window 1000)) ∧
      nextDifficultyV5 (List.replicate 51104 1000) ((List.range 51104).map UInt64.ofNat) = .error .divisionByZero ∧
      nextDifficultyV4 (List.replicate 51104 1000) ((List.range 51104).map UInt64.ofNat) = .error .divisionByZero ∧
      nextDifficultyV3 (List.replicate 51104 1000) ((List.range 51104).map UInt64.ofNat) = .error .divisionByZero := by
  have hwindow : ∀ j ≤ DIFFICULTY_WINDOW_V3, (List.replicate 51104 (1000 : UInt64)).getD j 0 = 1000 := by
    intro j hj
    rw [DIFFICULTY_WINDOW_V3] at hj
    exact List.getD_replicate _ (by omega)
  have hwork : (((List.range 51104).map UInt64.ofNat).getD DIFFICULTY_WINDOW_V3 0 -
      ((List.range 51104).map UInt64.ofNat).getD 0 0).toNat * (30 * 51104 * 99) < 2 ^ 63 := by
    rw [DIFFICULTY_WINDOW_V3, List.getD_eq_getElem?_getD, List.getElem?_map, List.getElem?_range (by omega),
      List.getD_eq_getElem?_getD, List.getElem?_map, List.getElem?_range (by omega)]
    decide
  have hlength : DIFFICULTY_WINDOW_V3 + 1 ≤ (List.replicate 51104 (1000 : UInt64)).length := by
    rw [List.length_replicate, DIFFICULTY_WINDOW_V3]
  have hcount : DIFFICULTY_WINDOW_V3 < ((List.range 51104).map UInt64.ofNat).length := by
    rw [List.length_map, List.length_range, DIFFICULTY_WINDOW_V3]
    decide
  exact nextDifficulty_divides_by_zero_on_equal_timestamps hlength hwindow hcount hwork

end Crygcoin
