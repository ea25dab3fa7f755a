import Mathlib
import Crygcoin.Reward

namespace Crygcoin

/-! `Currency::nextDifficulty` of `Currency.cpp`, the difficulty of the blocks below
`LWMA_2_DIFFICULTY_BLOCK_INDEX`. It sorts the timestamps of a window of blocks, cuts the same
number of outliers at both ends, and divides the work done between the cut positions, times the
target, by their time span. Two later rules replace the rounding: from a block version on, the
quotient is rounded down; from a block height on, it is computed again over the last 17 blocks
with no cut, rounded down and kept at least 100. -/

def DIFFICULTY_WINDOW_V1 : Nat := 2880

def DIFFICULTY_WINDOW_V2 : Nat := 2880

def DIFFICULTY_CUT_V1 : Nat := 60

def DIFFICULTY_CUT_V2 : Nat := 60

def UINT64_MAX : UInt64 := 18446744073709551615

/-- The members of `Currency` that `nextDifficulty` reads. -/
structure DifficultyCurrency where
  difficultyTarget : UInt64
  difficultyWindow : Nat
  difficultyCut : Nat
  zawyDifficultyBlockIndex : UInt32
  zawyDifficultyV2 : Bool
  zawyDifficultyBlockVersion : UInt8

/-- What `CurrencyBuilder` sets from `CryptoNoteConfig.h`: `DIFFICULTY_TARGET`,
`DIFFICULTY_WINDOW`, `DIFFICULTY_CUT`, `ZAWY_DIFFICULTY_BLOCK_INDEX`, `ZAWY_DIFFICULTY_V2` and
`ZAWY_DIFFICULTY_DIFFICULTY_BLOCK_VERSION`. -/
def DifficultyCurrency.default : DifficultyCurrency :=
  ⟨30, 17, 0, 187000, false, 3⟩

/-- `std::vector::resize`: cut to `n` values, or filled with zeros up to `n`. -/
def resize (values : List UInt64) (n : Nat) : List UInt64 :=
  values.take n ++ List.replicate (n - values.length) 0

/-- The cut of `nextDifficulty`: the positions of the sorted window it measures between. -/
def cutIndexes (window cut length : Nat) : Nat × Nat :=
  if length ≤ window - 2 * cut then (0, length)
  else
    let cutBegin := (length - (window - 2 * cut) + 1) / 2
    (cutBegin, cutBegin + (window - 2 * cut))

/-- The part of `nextDifficulty` its two windows share: the timestamps sorted, the cut, and the
time span and the work between the cut positions, each `assert` as `none`. The positions read are
in range once the assert on the cut holds. -/
def windowWork (window cut : Nat) (timestamps cumulativeDifficulties : List UInt64) :
    Option (UInt64 × UInt64) := do
  let timestamps := timestamps.mergeSort fun a b => decide (a ≤ b)
  guard (2 * cut ≤ window - 2)
  let (cutBegin, cutEnd) := cutIndexes window cut timestamps.length
  guard (cutBegin + 2 ≤ cutEnd ∧ cutEnd ≤ timestamps.length)
  let timeSpan := timestamps.getD (cutEnd - 1) 0 - timestamps.getD cutBegin 0
  let timeSpan := if timeSpan = 0 then 1 else timeSpan
  let totalWork := cumulativeDifficulties.getD (cutEnd - 1) 0 - cumulativeDifficulties.getD cutBegin 0
  guard (0 < totalWork)
  pure (timeSpan, totalWork)

/-! What `nextDifficulty` computes, in ℕ. -/

/-- The time span, at least 1, and the work between the cut positions of a window. -/
def windowMeasure (window cut : Nat) (timestamps cumulativeDifficulties : List UInt64) : Nat × Nat :=
  let sorted := timestamps.mergeSort fun a b => decide (a ≤ b)
  let (cutBegin, cutEnd) := cutIndexes window cut timestamps.length
  (max 1 ((sorted.getD (cutEnd - 1) 0).toNat - (sorted.getD cutBegin 0).toNat),
    (cumulativeDifficulties.getD (cutEnd - 1) 0).toNat - (cumulativeDifficulties.getD cutBegin 0).toNat)

section Window

variable {window cut : Nat} {timestamps cumulativeDifficulties : List UInt64}

theorem cutIndexes_bounds {length : Nat} (hwindow : 2 ≤ window) (hcut : 2 * cut ≤ window - 2)
    (hlength : 2 ≤ length) :
    (cutIndexes window cut length).1 + 2 ≤ (cutIndexes window cut length).2 ∧
      (cutIndexes window cut length).2 ≤ length := by
  unfold cutIndexes
  split
  · exact ⟨hlength, le_rfl⟩
  · constructor <;> dsimp only <;> omega

theorem getD_mergeSort_le (values : List UInt64) {i j : Nat} (hij : i ≤ j)
    (hj : j < values.length) :
    (values.mergeSort fun a b => decide (a ≤ b)).getD i 0 ≤ (values.mergeSort fun a b => decide (a ≤ b)).getD j 0 := by
  have hsorted := @List.pairwise_mergeSort _ (fun a b : UInt64 => decide (a ≤ b))
    (fun _ _ _ hab hbc => decide_eq_true (UInt64.le_trans (of_decide_eq_true hab) (of_decide_eq_true hbc)))
    (fun a b => by simpa using UInt64.le_total a b) values
  have hlength := @List.length_mergeSort _ (fun a b : UInt64 => decide (a ≤ b)) values
  rw [List.getD_eq_getElem _ _ (by omega), List.getD_eq_getElem _ _ (by omega)]
  rcases Nat.lt_or_eq_of_le hij with hlt | rfl
  · exact of_decide_eq_true (List.pairwise_iff_getElem.mp hsorted i j (by omega) (by omega) hlt)
  · exact UInt64.le_refl _

theorem getD_lt_of_pairwise {values : List UInt64} (hincreasing : values.Pairwise (· < ·)) {i j : Nat}
    (hij : i < j) (hj : j < values.length) : values.getD i 0 < values.getD j 0 := by
  rw [List.getD_eq_getElem _ _ (by omega), List.getD_eq_getElem _ _ hj]
  exact List.pairwise_iff_getElem.mp hincreasing i j (by omega) hj hij

theorem windowWork_eq (hwindow : 2 ≤ window) (hcut : 2 * cut ≤ window - 2)
    (hlength : timestamps.length = cumulativeDifficulties.length)
    (htwo : 2 ≤ timestamps.length) (hincreasing : cumulativeDifficulties.Pairwise (· < ·)) :
    ∃ timeSpan totalWork, windowWork window cut timestamps cumulativeDifficulties = some (timeSpan, totalWork) ∧
      timeSpan.toNat = (windowMeasure window cut timestamps cumulativeDifficulties).1 ∧
      totalWork.toNat = (windowMeasure window cut timestamps cumulativeDifficulties).2 ∧
      0 < totalWork.toNat := by
  have hbounds := cutIndexes_bounds hwindow hcut htwo
  rcases hcutIndexes : cutIndexes window cut timestamps.length with ⟨cutBegin, cutEnd⟩
  rw [hcutIndexes] at hbounds
  obtain ⟨hbegin, hend⟩ := hbounds
  set sorted := timestamps.mergeSort fun a b => decide (a ≤ b) with hsorted
  have hsortedLength : sorted.length = timestamps.length := List.length_mergeSort _
  -- the sorted timestamps do not decrease across the cut, the cumulative difficulties increase
  have hspan : sorted.getD cutBegin 0 ≤ sorted.getD (cutEnd - 1) 0 :=
    getD_mergeSort_le timestamps (by omega) (by omega)
  have hwork : cumulativeDifficulties.getD cutBegin 0 < cumulativeDifficulties.getD (cutEnd - 1) 0 :=
    getD_lt_of_pairwise hincreasing (by omega) (by omega)
  have hspanNat := UInt64.toNat_sub_of_le _ _ hspan
  have hworkNat := UInt64.toNat_sub_of_le _ _ (UInt64.le_of_lt hwork)
  have hworkPos : 0 < cumulativeDifficulties.getD (cutEnd - 1) 0 - cumulativeDifficulties.getD cutBegin 0 := by
    rw [UInt64.lt_iff_toNat_lt, hworkNat, UInt64.toNat_zero]
    exact Nat.sub_pos_of_lt (UInt64.lt_iff_toNat_lt.mp hwork)
  refine ⟨if sorted.getD (cutEnd - 1) 0 - sorted.getD cutBegin 0 = 0 then 1
      else sorted.getD (cutEnd - 1) 0 - sorted.getD cutBegin 0,
    cumulativeDifficulties.getD (cutEnd - 1) 0 - cumulativeDifficulties.getD cutBegin 0, ?_, ?_, ?_, ?_⟩
  · simp only [windowWork, ← hsorted, hsortedLength, hcutIndexes, hcut, hbegin, hend, hworkPos]
    rfl
  · simp only [windowMeasure, ← hsorted, hcutIndexes]
    rw [← hspanNat]
    -- a span of zero seconds counts as one
    split_ifs with hzero
    · rw [hzero]
      rfl
    · have hpos : (sorted.getD (cutEnd - 1) 0 - sorted.getD cutBegin 0).toNat ≠ 0 :=
        fun h => hzero (UInt64.toNat_inj.mp (h.trans UInt64.toNat_zero.symm))
      omega
  · simp only [windowMeasure, hcutIndexes]
    exact hworkNat
  · exact UInt64.lt_iff_toNat_lt.mp hworkPos

end Window

section Product

variable {totalWork target timeSpan : UInt64}

theorem overflowCheck_iff (hspan : 0 < timeSpan.toNat) :
    ((mul128 totalWork target).2 ≠ 0 ∨ UINT64_MAX - (mul128 totalWork target).1 < timeSpan - 1) ↔
      2 ^ 64 ≤ totalWork.toNat * target.toNat + timeSpan.toNat - 1 := by
  have hproduct := mul128_toNat totalWork target
  have hlow := (mul128 totalWork target).1.toNat_lt
  have hmaxNat : UINT64_MAX.toNat = 2 ^ 64 - 1 := rfl
  have hmax : (UINT64_MAX - (mul128 totalWork target).1).toNat = 2 ^ 64 - 1 - (mul128 totalWork target).1.toNat := by
    rw [UInt64.toNat_sub_of_le _ _ (UInt64.le_iff_toNat_le.mpr (by omega)), hmaxNat]
  have hone : (timeSpan - 1).toNat = timeSpan.toNat - 1 := by
    rw [UInt64.toNat_sub_of_le _ _ (UInt64.le_iff_toNat_le.mpr (by rw [UInt64.toNat_one]; omega)), UInt64.toNat_one]
  have hhigh : (mul128 totalWork target).2 ≠ 0 ↔ (mul128 totalWork target).2.toNat ≠ 0 := by
    rw [Ne, Ne, ← UInt64.toNat_inj, UInt64.toNat_zero]
  rw [hhigh, UInt64.lt_iff_toNat_lt, hmax, hone]
  omega

theorem toNat_add_sub_one {low : UInt64} (hspan : 0 < timeSpan.toNat)
    (hfits : low.toNat + timeSpan.toNat - 1 < 2 ^ 64) :
    (low + timeSpan - 1).toNat = low.toNat + timeSpan.toNat - 1 := by
  have hassoc : low + timeSpan - 1 = low + (timeSpan - 1) := by grind
  have hone : (timeSpan - 1).toNat = timeSpan.toNat - 1 := by
    rw [UInt64.toNat_sub_of_le _ _ (UInt64.le_iff_toNat_le.mpr (by rw [UInt64.toNat_one]; omega)), UInt64.toNat_one]
  rw [hassoc, UInt64.toNat_add, hone, Nat.mod_eq_of_lt (by omega)]
  omega

theorem mul128_low_of_fits (hspan : 0 < timeSpan.toNat) (hfits : ¬2 ^ 64 ≤ totalWork.toNat * target.toNat + timeSpan.toNat - 1) :
    (mul128 totalWork target).1.toNat = totalWork.toNat * target.toNat := by
  have hproduct := mul128_toNat totalWork target
  have hlow := (mul128 totalWork target).1.toNat_lt
  omega

end Product

namespace DifficultyCurrency

def difficultyWindowByBlockVersion (currency : DifficultyCurrency) (blockMajorVersion : UInt8) : Nat :=
  if BLOCK_MAJOR_VERSION_3 ≤ blockMajorVersion then currency.difficultyWindow
  else if blockMajorVersion = BLOCK_MAJOR_VERSION_2 then DIFFICULTY_WINDOW_V2
  else DIFFICULTY_WINDOW_V1

def difficultyCutByBlockVersion (currency : DifficultyCurrency) (blockMajorVersion : UInt8) : Nat :=
  if BLOCK_MAJOR_VERSION_3 ≤ blockMajorVersion then currency.difficultyCut
  else if blockMajorVersion = BLOCK_MAJOR_VERSION_2 then DIFFICULTY_CUT_V2
  else DIFFICULTY_CUT_V1

/-- `c_zawyDifficultyBlockVersion`: version 2 where `m_zawyDifficultyV2` is set. -/
def zawyBlockVersion (currency : DifficultyCurrency) : UInt8 :=
  if currency.zawyDifficultyV2 then 2 else currency.zawyDifficultyBlockVersion

/-- `Currency::nextDifficulty`; `none` where an `assert` fails or an iterator leaves its vector. -/
def nextDifficulty (currency : DifficultyCurrency) (version : UInt8) (blockIndex : UInt32)
    (timestamps cumulativeDifficulties : List UInt64) : Option UInt64 := do
  -- `timestamps_o` and `cumulativeDifficulties_o`, the vectors as given
  let originalTimestamps := timestamps
  let originalCumulativeDifficulties := cumulativeDifficulties
  let c_difficultyWindow := currency.difficultyWindowByBlockVersion version
  let c_difficultyCut := currency.difficultyCutByBlockVersion version
  guard (2 ≤ c_difficultyWindow)
  let (timestamps, cumulativeDifficulties) :=
    if timestamps.length > c_difficultyWindow then
      (resize timestamps c_difficultyWindow, resize cumulativeDifficulties c_difficultyWindow)
    else (timestamps, cumulativeDifficulties)
  let length := timestamps.length
  guard (length = cumulativeDifficulties.length ∧ length ≤ c_difficultyWindow)
  if length ≤ 1 then return 1
  let (timeSpan, totalWork) ← windowWork c_difficultyWindow c_difficultyCut timestamps cumulativeDifficulties
  let (low, high) := mul128 totalWork currency.difficultyTarget
  if high ≠ 0 ∨ UINT64_MAX - low < timeSpan - 1 then return 0
  if currency.zawyBlockVersion ≤ version ∧ currency.zawyBlockVersion ≠ 0 then
    -- the source checks `high != 0` again, which the check above excludes
    return low / timeSpan
  if currency.zawyDifficultyBlockIndex ≠ 0 ∧ currency.zawyDifficultyBlockIndex ≤ blockIndex then
    -- the last 17 of the vectors as given, with no cut
    let t_difficultyWindow := min 17 timestamps.length
    guard (t_difficultyWindow ≤ originalTimestamps.length ∧
      t_difficultyWindow ≤ originalCumulativeDifficulties.length)
    let timestamps_tmp := originalTimestamps.drop (originalTimestamps.length - t_difficultyWindow)
    let cumulativeDifficulties_tmp :=
      originalCumulativeDifficulties.drop (originalCumulativeDifficulties.length - t_difficultyWindow)
    let length := timestamps_tmp.length
    guard (length = cumulativeDifficulties_tmp.length ∧ length ≤ 17)
    if length ≤ 1 then return 1
    let (timeSpan, totalWork) ← windowWork 17 0 timestamps_tmp cumulativeDifficulties_tmp
    let (low, high) := mul128 totalWork currency.difficultyTarget
    if high ≠ 0 ∨ UINT64_MAX - low < timeSpan - 1 then return 0
    let nextDiffZ := low / timeSpan
    return if nextDiffZ ≤ 100 then 100 else nextDiffZ
  return (low + timeSpan - 1) / timeSpan

/-- What `nextDifficulty` answers, in ℕ, for vectors whose asserts hold: zero where the product of
the window's work and the target does not fit, the rounded-down quotient from the Zawy block
version on, from the Zawy height on the quotient over the last 17 blocks rounded down and at least
100 (zero where that product does not fit), and the rounded-up quotient before either. -/
def legacyDifficulty (currency : DifficultyCurrency) (version : UInt8) (blockIndex : UInt32)
    (timestamps cumulativeDifficulties : List UInt64) : Nat :=
  let window := currency.difficultyWindowByBlockVersion version
  let (timeSpan, totalWork) := windowMeasure window (currency.difficultyCutByBlockVersion version)
    (timestamps.take window) (cumulativeDifficulties.take window)
  let target := currency.difficultyTarget.toNat
  if 2 ^ 64 ≤ totalWork * target + timeSpan - 1 then 0
  else if currency.zawyBlockVersion ≤ version ∧ currency.zawyBlockVersion ≠ 0 then totalWork * target / timeSpan
  else if currency.zawyDifficultyBlockIndex ≠ 0 ∧ currency.zawyDifficultyBlockIndex ≤ blockIndex then
    let tail := min 17 (timestamps.take window).length
    let (timeSpan17, totalWork17) := windowMeasure 17 0 (timestamps.drop (timestamps.length - tail))
      (cumulativeDifficulties.drop (cumulativeDifficulties.length - tail))
    if 2 ^ 64 ≤ totalWork17 * target + timeSpan17 - 1 then 0 else max (totalWork17 * target / timeSpan17) 100
  else (totalWork * target + timeSpan - 1) / timeSpan

theorem truncate_eq {window : Nat} {timestamps cumulativeDifficulties : List UInt64}
    (hlength : timestamps.length = cumulativeDifficulties.length) :
    (if timestamps.length > window then (resize timestamps window, resize cumulativeDifficulties window)
      else (timestamps, cumulativeDifficulties)) = (timestamps.take window, cumulativeDifficulties.take window) := by
  split
  · simp only [resize, show window - timestamps.length = 0 by omega,
      show window - cumulativeDifficulties.length = 0 by omega, List.replicate_zero, List.append_nil]
  · rw [List.take_of_length_le (by omega), List.take_of_length_le (by omega)]

theorem nextDifficulty_eq (currency : DifficultyCurrency) (version : UInt8) (blockIndex : UInt32)
    {timestamps cumulativeDifficulties : List UInt64}
    (hwindow : 2 ≤ currency.difficultyWindowByBlockVersion version)
    (hcut : 2 * currency.difficultyCutByBlockVersion version ≤ currency.difficultyWindowByBlockVersion version - 2)
    (hlength : timestamps.length = cumulativeDifficulties.length) (htwo : 2 ≤ timestamps.length)
    (hincreasing : cumulativeDifficulties.Pairwise (· < ·)) :
    ∃ difficulty, currency.nextDifficulty version blockIndex timestamps cumulativeDifficulties = some difficulty ∧
      difficulty.toNat = currency.legacyDifficulty version blockIndex timestamps cumulativeDifficulties := by
  set window := currency.difficultyWindowByBlockVersion version with hwindowDef
  set cut := currency.difficultyCutByBlockVersion version with hcutDef
  -- the window of `nextDifficulty`: the first `window` values
  have hlengthTake : (timestamps.take window).length = (cumulativeDifficulties.take window).length := by
    simp [hlength]
  have htwoTake : 2 ≤ (timestamps.take window).length := by rw [List.length_take]; omega
  obtain ⟨timeSpan, totalWork, hwork, htimeSpan, htotalWork, -⟩ := windowWork_eq hwindow hcut hlengthTake htwoTake
    (hincreasing.sublist (List.take_sublist _ _))
  have hspanPos : 0 < timeSpan.toNat := by
    rw [htimeSpan]
    exact Nat.lt_of_lt_of_le Nat.one_pos (le_max_left _ _)
  simp only [nextDifficulty, truncate_eq hlength, ← hwindowDef, ← hcutDef, guard, if_pos hwindow,
    if_pos (And.intro hlengthTake (List.length_take_le _ _)), if_neg (show ¬(timestamps.take window).length ≤ 1 by omega),
    hwork, pure_bind, Option.bind_eq_bind, Option.bind_some, overflowCheck_iff hspanPos]
  simp only [legacyDifficulty, ← hwindowDef, ← hcutDef, ← htimeSpan, ← htotalWork]
  by_cases hfits : 2 ^ 64 ≤ totalWork.toNat * currency.difficultyTarget.toNat + timeSpan.toNat - 1
  · simp only [if_pos hfits]
    exact ⟨0, rfl, rfl⟩
  have hlow := mul128_low_of_fits hspanPos hfits
  simp only [if_neg hfits]
  by_cases hversion : currency.zawyBlockVersion ≤ version ∧ currency.zawyBlockVersion ≠ 0
  · -- from the Zawy block version on: rounded down
    simp only [if_pos hversion]
    exact ⟨_, rfl, by rw [UInt64.toNat_div, hlow]⟩
  simp only [if_neg hversion]
  by_cases hheight : currency.zawyDifficultyBlockIndex ≠ 0 ∧ currency.zawyDifficultyBlockIndex ≤ blockIndex
  swap
  · -- before either: rounded up
    simp only [if_neg hheight]
    exact ⟨_, rfl, by rw [UInt64.toNat_div, toNat_add_sub_one hspanPos (by omega), hlow]⟩
  -- from the Zawy height on: the last 17 blocks of the vectors as given
  simp only [if_pos hheight]
  set tail := min 17 (timestamps.take window).length with htail
  have htailTwo : 2 ≤ tail := by omega
  have htailLength : tail ≤ timestamps.length := by rw [htail, List.length_take]; omega
  have htimestampsTail : (timestamps.drop (timestamps.length - tail)).length = tail := by
    rw [List.length_drop]; omega
  have hcumulativeTail : (cumulativeDifficulties.drop (cumulativeDifficulties.length - tail)).length = tail := by
    rw [List.length_drop]; omega
  obtain ⟨timeSpan17, totalWork17, hwork17, htimeSpan17, htotalWork17, -⟩ :=
    windowWork_eq (show 2 ≤ 17 by norm_num) (show 2 * 0 ≤ 17 - 2 by norm_num)
      (htimestampsTail.trans hcumulativeTail.symm) (by omega) (hincreasing.sublist (List.drop_sublist _ _))
  have hspanPos17 : 0 < timeSpan17.toNat := by
    rw [htimeSpan17]
    exact Nat.lt_of_lt_of_le Nat.one_pos (le_max_left _ _)
  simp only [if_pos (And.intro htailLength (hlength ▸ htailLength)),
    if_pos (And.intro (htimestampsTail.trans hcumulativeTail.symm) (show (timestamps.drop (timestamps.length - tail)).length ≤ 17 by omega)),
    if_neg (show ¬(timestamps.drop (timestamps.length - tail)).length ≤ 1 by omega), hwork17, Option.bind_some, overflowCheck_iff hspanPos17, ← htimeSpan17, ← htotalWork17,
    Option.pure_def]
  by_cases hfits17 : 2 ^ 64 ≤ totalWork17.toNat * currency.difficultyTarget.toNat + timeSpan17.toNat - 1
  · simp only [if_pos hfits17]
    exact ⟨0, rfl, rfl⟩
  have hlow17 := mul128_low_of_fits hspanPos17 hfits17
  simp only [if_neg hfits17]
  refine ⟨_, rfl, ?_⟩
  -- `nextDiffZ <= 100` gives 100: the maximum of the quotient and 100
  have hquotient : ((mul128 totalWork17 currency.difficultyTarget).1 / timeSpan17).toNat =
      totalWork17.toNat * currency.difficultyTarget.toNat / timeSpan17.toNat := by
    rw [UInt64.toNat_div, hlow17]
  split_ifs with hsmall
  · rw [UInt64.le_iff_toNat_le, hquotient] at hsmall
    have hhundred : (100 : UInt64).toNat = 100 := rfl
    omega
  · rw [UInt64.le_iff_toNat_le, hquotient] at hsmall
    have hhundred : (100 : UInt64).toNat = 100 := rfl
    omega

/-- For a window and cut `CurrencyBuilder` accepts and vectors of one length of at least two
whose cumulative difficulties increase, every assert of `nextDifficulty` holds, in the window and
in the last 17 blocks: the cut positions are two apart and within the window, the tail slice stays
in the vectors, the work is above zero, and the answer is `legacyDifficulty`. -/
theorem nextDifficulty_window_arithmetic (currency : DifficultyCurrency) (version : UInt8) (blockIndex : UInt32)
    {timestamps cumulativeDifficulties : List UInt64}
    (hwindow : 2 ≤ currency.difficultyWindowByBlockVersion version)
    (hcut : 2 * currency.difficultyCutByBlockVersion version ≤ currency.difficultyWindowByBlockVersion version - 2)
    (hlength : timestamps.length = cumulativeDifficulties.length) (htwo : 2 ≤ timestamps.length)
    (hincreasing : cumulativeDifficulties.Pairwise (· < ·)) :
    let window := currency.difficultyWindowByBlockVersion version
    let cut := currency.difficultyCutByBlockVersion version
    let length := (timestamps.take window).length
    let tail := min 17 length
    ((cutIndexes window cut length).1 + 2 ≤ (cutIndexes window cut length).2 ∧
        (cutIndexes window cut length).2 ≤ length) ∧
      0 < (windowMeasure window cut (timestamps.take window) (cumulativeDifficulties.take window)).2 ∧
      (tail ≤ timestamps.length ∧ (cutIndexes 17 0 tail).1 + 2 ≤ (cutIndexes 17 0 tail).2 ∧
        (cutIndexes 17 0 tail).2 ≤ tail) ∧
      0 < (windowMeasure 17 0 (timestamps.drop (timestamps.length - tail))
        (cumulativeDifficulties.drop (cumulativeDifficulties.length - tail))).2 ∧
      ∃ difficulty, currency.nextDifficulty version blockIndex timestamps cumulativeDifficulties = some difficulty ∧
        difficulty.toNat = currency.legacyDifficulty version blockIndex timestamps cumulativeDifficulties := by
  intro window cut length tail
  have htwoTake : 2 ≤ length := by simp only [length, List.length_take]; omega
  have hlengthTake : (timestamps.take window).length = (cumulativeDifficulties.take window).length := by
    simp [hlength]
  obtain ⟨_, _, -, -, htotalWork, hworkPos⟩ := windowWork_eq hwindow hcut hlengthTake htwoTake
    (hincreasing.sublist (List.take_sublist _ _))
  have htailLength : tail ≤ timestamps.length := by simp only [tail, length, List.length_take]; omega
  have htimestampsTail : (timestamps.drop (timestamps.length - tail)).length = tail := by
    rw [List.length_drop]; omega
  have hcumulativeTail : (cumulativeDifficulties.drop (cumulativeDifficulties.length - tail)).length = tail := by
    rw [List.length_drop]; omega
  obtain ⟨_, _, -, -, htotalWork17, hworkPos17⟩ :=
    windowWork_eq (show 2 ≤ 17 by norm_num) (show 2 * 0 ≤ 17 - 2 by norm_num)
      (htimestampsTail.trans hcumulativeTail.symm) (by omega) (hincreasing.sublist (List.drop_sublist _ _))
  exact ⟨cutIndexes_bounds hwindow hcut htwoTake, htotalWork ▸ hworkPos,
    ⟨htailLength, cutIndexes_bounds (by norm_num) (by norm_num) (by omega)⟩, htotalWork17 ▸ hworkPos17,
    nextDifficulty_eq currency version blockIndex hwindow hcut hlength htwo hincreasing⟩

/-- A window of 6 blocks with a cut of 1, which `CurrencyBuilder` accepts, over 6 blocks: the
sorted window loses one timestamp at each end, and the work is measured between positions 1 and 4. -/
theorem nextDifficulty_window_arithmetic_cut :
    let currency : DifficultyCurrency := ⟨30, 6, 1, 187000, false, 3⟩
    let window := currency.difficultyWindowByBlockVersion 3
    let cut := currency.difficultyCutByBlockVersion 3
    let timestamps : List UInt64 := [0, 50, 20, 40, 30, 100]
    let cumulativeDifficulties : List UInt64 := [1, 2, 3, 4, 5, 6]
    let length := (timestamps.take window).length
    let tail := min 17 length
    (2 ≤ window ∧ 2 * cut ≤ window - 2 ∧ timestamps.length = cumulativeDifficulties.length ∧
      2 ≤ timestamps.length ∧ cumulativeDifficulties.Pairwise (· < ·)) ∧
    cutIndexes window cut length = (1, 5) ∧
    ((cutIndexes window cut length).1 + 2 ≤ (cutIndexes window cut length).2 ∧
        (cutIndexes window cut length).2 ≤ length) ∧
      0 < (windowMeasure window cut (timestamps.take window) (cumulativeDifficulties.take window)).2 ∧
      (tail ≤ timestamps.length ∧ (cutIndexes 17 0 tail).1 + 2 ≤ (cutIndexes 17 0 tail).2 ∧
        (cutIndexes 17 0 tail).2 ≤ tail) ∧
      0 < (windowMeasure 17 0 (timestamps.drop (timestamps.length - tail))
        (cumulativeDifficulties.drop (cumulativeDifficulties.length - tail))).2 ∧
      ∃ difficulty, currency.nextDifficulty 3 0 timestamps cumulativeDifficulties = some difficulty ∧
        difficulty.toNat = currency.legacyDifficulty 3 0 timestamps cumulativeDifficulties := by
  intro currency window cut timestamps cumulativeDifficulties length tail
  have hwindow : 2 ≤ window := by decide
  have hcut : 2 * cut ≤ window - 2 := by decide
  have htwo : 2 ≤ timestamps.length := by decide
  have hincreasing : cumulativeDifficulties.Pairwise (· < ·) := by decide
  exact ⟨⟨hwindow, hcut, rfl, htwo, hincreasing⟩, by decide,
    nextDifficulty_window_arithmetic currency 3 0 hwindow hcut rfl htwo hincreasing⟩

/-- From the Zawy block version on, the quotient is rounded down and has no minimum: one unit of
work over 7 seconds at the target of 30 seconds gives 4, where rounding up gives 5 and the rule of
the Zawy height gives 100. -/
theorem nextDifficulty_zawy_version_rounds_down :
    DifficultyCurrency.default.nextDifficulty 3 0 [0, 7] [0, 1] = some 4 ∧
      (1 * 30 + 7 - 1) / 7 = 5 ∧ max (1 * 30 / 7) 100 = 100 := by
  -- `mergeSort` is well-founded recursion, which `decide` does not unfold
  have hsorted : ([0, 7] : List UInt64).mergeSort (fun a b => decide (a ≤ b)) = [0, 7] :=
    List.mergeSort_of_pairwise (by decide)
  have hwindow : DifficultyCurrency.default.difficultyWindowByBlockVersion 3 = 17 := rfl
  have hcut : DifficultyCurrency.default.difficultyCutByBlockVersion 3 = 0 := rfl
  refine ⟨?_, by decide, by decide⟩
  simp [nextDifficulty, windowWork, hwindow, hcut, hsorted, cutIndexes, guard]
  decide

end DifficultyCurrency

end Crygcoin
