import Crygcoin.IntUtil
import Crygcoin.Core
import Mathlib.Tactic.Linarith

namespace Crygcoin

/-! The block reward: `getPenalizedAmount` of `CryptoNoteBasicImpl.cpp` scales an amount down by
the square law of a block larger than the median, and `Currency::getBlockReward` applies it to
the base reward and the fees. `size_t` is 64 bits, and the release build compiles the asserts
away, so nothing stops a median of 32 bits or more from reaching the 32-bit divisor. -/

/-- The two divisions of `getPenalizedAmount` by the median size: the quotient of the product
of the amount by `currentBlockSize * (2 * medianSize - currentBlockSize)`, high word and low word. -/
def penalizedQuotient (amount medianSize currentBlockSize : UInt64) : UInt64 × UInt64 :=
  let product := mul128 amount (currentBlockSize * (2 * medianSize - currentBlockSize))
  let penalizedAmount := div128_32 product.2 product.1 medianSize.toUInt32
  let penalizedAmount := div128_32 penalizedAmount.2.1 penalizedAmount.2.2 medianSize.toUInt32
  penalizedAmount.2

def getPenalizedAmount (amount medianSize currentBlockSize : UInt64) : UInt64 :=
  if amount = 0 then 0
  else if currentBlockSize ≤ medianSize then amount
  else (penalizedQuotient amount medianSize currentBlockSize).2

theorem penalty_factor_le {median size : Nat} (hsize : size ≤ 2 * median) :
    size * (2 * median - size) ≤ median * median := by
  obtain ⟨rest, hrest⟩ := Nat.exists_eq_add_of_le hsize
  have hsub : 2 * median - size = rest := by omega
  rw [hsub]
  nlinarith [sq_nonneg ((size : Int) - rest)]

theorem penalty_factor_lt {median size : Nat} (hsize : size ≤ 2 * median) (hne : size ≠ median) :
    size * (2 * median - size) < median * median := by
  obtain ⟨rest, hrest⟩ := Nat.exists_eq_add_of_le hsize
  have hsub : 2 * median - size = rest := by omega
  have hdiff : (size : Int) - rest ≠ 0 := by omega
  rw [hsub]
  have := pow_pos (abs_pos.mpr hdiff) 2
  rw [sq_abs] at this
  nlinarith

theorem penalizedQuotient_spec (amount : UInt64) {medianSize currentBlockSize : UInt64} (hmedian : 0 < medianSize.toNat)
    (hmedian32 : medianSize.toNat < 2 ^ 32) (hsize : currentBlockSize.toNat ≤ 2 * medianSize.toNat) :
    (penalizedQuotient amount medianSize currentBlockSize).1.toNat * 2 ^ 64 +
      (penalizedQuotient amount medianSize currentBlockSize).2.toNat =
      amount.toNat * (currentBlockSize.toNat * (2 * medianSize.toNat - currentBlockSize.toNat)) /
        medianSize.toNat ^ 2 := by
  -- the factor is computed without wrapping
  have htwice : (2 * medianSize).toNat = 2 * medianSize.toNat := by
    rw [UInt64.toNat_mul]
    exact Nat.mod_eq_of_lt (by simp only [UInt64.reduceToNat]; omega)
  have hdiff : (2 * medianSize - currentBlockSize).toNat = 2 * medianSize.toNat - currentBlockSize.toNat := by
    rw [UInt64.toNat_sub_of_le _ _ (UInt64.le_iff_toNat_le.mpr (by omega)), htwice]
  have hfactor : (currentBlockSize * (2 * medianSize - currentBlockSize)).toNat =
      currentBlockSize.toNat * (2 * medianSize.toNat - currentBlockSize.toNat) := by
    rw [UInt64.toNat_mul, hdiff]
    apply Nat.mod_eq_of_lt
    calc currentBlockSize.toNat * (2 * medianSize.toNat - currentBlockSize.toNat)
        ≤ medianSize.toNat * medianSize.toNat := penalty_factor_le hsize
      _ < 2 ^ 32 * 2 ^ 32 := Nat.mul_lt_mul'' hmedian32 hmedian32
      _ = 2 ^ 64 := by norm_num
  have hdivisor : medianSize.toUInt32.toNat = medianSize.toNat := by
    rw [UInt64.toNat_toUInt32]
    exact Nat.mod_eq_of_lt hmedian32
  have hpositive : 0 < medianSize.toUInt32.toNat := by rw [hdivisor]; exact hmedian
  have hproduct : (mul128 amount (currentBlockSize * (2 * medianSize - currentBlockSize))).2.toNat * 2 ^ 64 +
      (mul128 amount (currentBlockSize * (2 * medianSize - currentBlockSize))).1.toNat =
      amount.toNat * (currentBlockSize * (2 * medianSize - currentBlockSize)).toNat := by
    have := mul128_toNat amount (currentBlockSize * (2 * medianSize - currentBlockSize))
    omega
  rw [hfactor] at hproduct
  obtain ⟨hfirst, -⟩ := div128_32_spec (mul128 amount (currentBlockSize * (2 * medianSize - currentBlockSize))).2
    (mul128 amount (currentBlockSize * (2 * medianSize - currentBlockSize))).1 hpositive
  rw [hproduct, hdivisor] at hfirst
  obtain ⟨hsecond, -⟩ := div128_32_spec
    (div128_32 (mul128 amount (currentBlockSize * (2 * medianSize - currentBlockSize))).2
      (mul128 amount (currentBlockSize * (2 * medianSize - currentBlockSize))).1 medianSize.toUInt32).2.1
    (div128_32 (mul128 amount (currentBlockSize * (2 * medianSize - currentBlockSize))).2
      (mul128 amount (currentBlockSize * (2 * medianSize - currentBlockSize))).1 medianSize.toUInt32).2.2 hpositive
  rw [hfirst, hdivisor, Nat.div_div_eq_div_mul, ← sq] at hsecond
  exact hsecond

section Penalty

variable {amount medianSize currentBlockSize : UInt64}

theorem getPenalizedAmount_of_within (hwithin : currentBlockSize ≤ medianSize ∨ amount = 0) :
    getPenalizedAmount amount medianSize currentBlockSize = amount := by
  unfold getPenalizedAmount
  rcases hwithin with hwithin | rfl
  · by_cases hamount : amount = 0
    · rw [if_pos hamount, hamount]
    · rw [if_neg hamount, if_pos hwithin]
  · rw [if_pos rfl]

theorem getPenalizedAmount_of_larger (hsize : currentBlockSize.toNat ≤ 2 * medianSize.toNat)
    (hmedian32 : medianSize.toNat < 2 ^ 32) (hlarger : medianSize < currentBlockSize) (hamount : amount ≠ 0) :
    (getPenalizedAmount amount medianSize currentBlockSize).toNat =
      amount.toNat * (currentBlockSize.toNat * (2 * medianSize.toNat - currentBlockSize.toNat)) /
        medianSize.toNat ^ 2 ∧
    (getPenalizedAmount amount medianSize currentBlockSize).toNat < amount.toNat ∧
    (penalizedQuotient amount medianSize currentBlockSize).1 = 0 := by
  have hlarger' : medianSize.toNat < currentBlockSize.toNat := UInt64.lt_iff_toNat_lt.mp hlarger
  have hamount' : 0 < amount.toNat := by
    have : amount.toNat ≠ 0 := fun h => hamount (UInt64.toNat_inj.mp (by simpa using h))
    omega
  have hspec := penalizedQuotient_spec amount (by omega) hmedian32 hsize
  -- the penalized amount is below the amount, so the high word is zero
  have hbelow : amount.toNat * (currentBlockSize.toNat * (2 * medianSize.toNat - currentBlockSize.toNat)) /
      medianSize.toNat ^ 2 < amount.toNat := by
    apply Nat.div_lt_of_lt_mul
    rw [sq, Nat.mul_comm (medianSize.toNat * medianSize.toNat)]
    exact Nat.mul_lt_mul_of_pos_left (penalty_factor_lt hsize (by omega)) hamount'
  have hhigh : (penalizedQuotient amount medianSize currentBlockSize).1.toNat = 0 := by
    have := amount.toNat_lt
    by_contra hne
    have : 2 ^ 64 ≤ (penalizedQuotient amount medianSize currentBlockSize).1.toNat * 2 ^ 64 :=
      Nat.le_mul_of_pos_left _ (by omega)
    omega
  have hvalue : (getPenalizedAmount amount medianSize currentBlockSize).toNat =
      amount.toNat * (currentBlockSize.toNat * (2 * medianSize.toNat - currentBlockSize.toNat)) /
        medianSize.toNat ^ 2 := by
    rw [getPenalizedAmount, if_neg hamount, if_neg (UInt64.not_le.mpr hlarger), ← hspec, hhigh, Nat.zero_mul,
      Nat.zero_add]
  exact ⟨hvalue, hvalue ▸ hbelow, UInt64.toNat_inj.mp (by rw [hhigh]; rfl)⟩

theorem getPenalizedAmount_le (hsize : currentBlockSize.toNat ≤ 2 * medianSize.toNat)
    (hmedian32 : medianSize.toNat < 2 ^ 32) :
    (getPenalizedAmount amount medianSize currentBlockSize).toNat ≤ amount.toNat := by
  by_cases hwithin : currentBlockSize ≤ medianSize ∨ amount = 0
  · rw [getPenalizedAmount_of_within hwithin]
  · rw [not_or, UInt64.not_le] at hwithin
    exact (getPenalizedAmount_of_larger hsize hmedian32 hwithin.1 hwithin.2).2.1.le

end Penalty

/-- `getPenalizedAmount` on a median of 32 bits and a block at most twice as large:
the amount itself for a block within the median or a zero amount, otherwise the amount scaled by
`s * (2m - s) / m^2` and rounded down, which is less than the amount, with a quotient whose high
word is zero, as the two asserts of the source require. -/
theorem getPenalizedAmount_exact (amount medianSize currentBlockSize : UInt64) (hmedian : 0 < medianSize.toNat)
    (hsize : currentBlockSize.toNat ≤ 2 * medianSize.toNat) (hmedian32 : medianSize.toNat ≤ 2 ^ 32 - 1) :
    ((currentBlockSize ≤ medianSize ∨ amount = 0) → getPenalizedAmount amount medianSize currentBlockSize = amount) ∧
    (medianSize < currentBlockSize → amount ≠ 0 →
      (getPenalizedAmount amount medianSize currentBlockSize).toNat =
        amount.toNat * currentBlockSize.toNat * (2 * medianSize.toNat - currentBlockSize.toNat) /
          medianSize.toNat ^ 2 ∧
      getPenalizedAmount amount medianSize currentBlockSize < amount ∧
      (penalizedQuotient amount medianSize currentBlockSize).1 = 0) := by
  refine ⟨getPenalizedAmount_of_within, fun hlarger hamount => ?_⟩
  obtain ⟨hvalue, hbelow, hhigh⟩ := getPenalizedAmount_of_larger hsize (by omega) hlarger hamount
  exact ⟨by rw [hvalue, Nat.mul_assoc], UInt64.lt_iff_toNat_lt.mpr hbelow, hhigh⟩

/-- A block half again as large as a median of 10 bytes keeps three quarters of 100. -/
theorem getPenalizedAmount_exact_fifteen_of_ten :
    0 < (10 : UInt64).toNat ∧ (15 : UInt64).toNat ≤ 2 * (10 : UInt64).toNat ∧ (10 : UInt64).toNat ≤ 2 ^ 32 - 1 ∧
    (((15 : UInt64) ≤ 10 ∨ (100 : UInt64) = 0) → getPenalizedAmount 100 10 15 = 100) ∧
    ((10 : UInt64) < 15 → (100 : UInt64) ≠ 0 →
      (getPenalizedAmount 100 10 15).toNat =
        (100 : UInt64).toNat * (15 : UInt64).toNat * (2 * (10 : UInt64).toNat - (15 : UInt64).toNat) /
          (10 : UInt64).toNat ^ 2 ∧
      getPenalizedAmount 100 10 15 < 100 ∧ (penalizedQuotient 100 10 15).1 = 0) :=
  have hmedian : 0 < (10 : UInt64).toNat := by decide
  have hsize : (15 : UInt64).toNat ≤ 2 * (10 : UInt64).toNat := by decide
  have hmedian32 : (10 : UInt64).toNat ≤ 2 ^ 32 - 1 := by decide
  ⟨hmedian, hsize, hmedian32, getPenalizedAmount_exact 100 10 15 hmedian hsize hmedian32⟩

example : getPenalizedAmount 100 10 15 = 75 := by decide

def BLOCK_MAJOR_VERSION_3 : UInt8 := 3

def CRYPTONOTE_BLOCK_GRANTED_FULL_REWARD_ZONE_V1 : UInt64 := 10000

def CRYPTONOTE_BLOCK_GRANTED_FULL_REWARD_ZONE_V2 : UInt64 := 20000

/-- The parameters of `Currency` that `getBlockReward` reads. -/
structure Currency where
  moneySupply : UInt64
  emissionSpeedFactor : Nat
  genesisBlockReward : UInt64
  blockGrantedFullRewardZone : UInt64

/-- The currency `CurrencyBuilder` makes from `CryptoNoteConfig.h`: `MONEY_SUPPLY`,
`EMISSION_SPEED_FACTOR`, `GENESIS_BLOCK_REWARD` and `CRYPTONOTE_BLOCK_GRANTED_FULL_REWARD_ZONE`. -/
def Currency.default : Currency :=
  ⟨100000000000, 25, 15000000000, 100000⟩

namespace Currency

def blockGrantedFullRewardZoneByBlockVersion (currency : Currency) (blockMajorVersion : UInt8) : UInt64 :=
  if BLOCK_MAJOR_VERSION_3 ≤ blockMajorVersion then currency.blockGrantedFullRewardZone
  else if blockMajorVersion = BLOCK_MAJOR_VERSION_2 then CRYPTONOTE_BLOCK_GRANTED_FULL_REWARD_ZONE_V2
  else CRYPTONOTE_BLOCK_GRANTED_FULL_REWARD_ZONE_V1

/-- The base reward of `getBlockReward`: the coins still to be generated shifted right by the
emission speed factor (the builder keeps the factor in `1..64`; a shift by 64 is the zero a shift
of the value means), or the genesis reward for the first block. -/
def baseReward (currency : Currency) (alreadyGeneratedCoins : UInt64) : UInt64 :=
  if alreadyGeneratedCoins = 0 ∧ currency.genesisBlockReward ≠ 0 then currency.genesisBlockReward
  else UInt64.ofNat ((currency.moneySupply - alreadyGeneratedCoins).toNat >>> currency.emissionSpeedFactor)

/-- `Currency::getBlockReward`: the reward and the emission change, `none` where the block is
more than twice the median. The emission change is computed in `uint64_t` and converted to
`int64_t`. -/
def getBlockReward (currency : Currency) (blockMajorVersion : UInt8)
    (medianSize currentBlockSize alreadyGeneratedCoins fee : UInt64) : Option (UInt64 × Int64) :=
  let baseReward := currency.baseReward alreadyGeneratedCoins
  let medianSize := max medianSize (currency.blockGrantedFullRewardZoneByBlockVersion blockMajorVersion)
  if 2 * medianSize < currentBlockSize then none
  else
    let penalizedBaseReward := getPenalizedAmount baseReward medianSize currentBlockSize
    let penalizedFee :=
      if BLOCK_MAJOR_VERSION_2 ≤ blockMajorVersion then getPenalizedAmount fee medianSize currentBlockSize else fee
    some (penalizedBaseReward + penalizedFee, (penalizedBaseReward - (fee - penalizedFee)).toInt64)

/-- The coins generated after a run of blocks, each rewarded with the coins generated before it;
`pushBlock` adds the emission change as `uint64_t`. `none` where a block's reward is refused. -/
def generatedCoinsAfter (currency : Currency) :
    UInt64 → List (UInt8 × UInt64 × UInt64 × UInt64) → Option UInt64
  | alreadyGeneratedCoins, [] => some alreadyGeneratedCoins
  | alreadyGeneratedCoins, (blockMajorVersion, medianSize, currentBlockSize, fee) :: blocks =>
    match currency.getBlockReward blockMajorVersion medianSize currentBlockSize alreadyGeneratedCoins fee with
    | none => none
    | some (_, emissionChange) =>
      currency.generatedCoinsAfter (alreadyGeneratedCoins + emissionChange.toUInt64) blocks

/-- The fees of a run of blocks are each paid out of coins generated before the block. -/
def FeesCovered (currency : Currency) : UInt64 → List (UInt8 × UInt64 × UInt64 × UInt64) → Prop
  | _, [] => True
  | alreadyGeneratedCoins, (blockMajorVersion, medianSize, currentBlockSize, fee) :: blocks =>
    fee ≤ alreadyGeneratedCoins ∧
    match currency.getBlockReward blockMajorVersion medianSize currentBlockSize alreadyGeneratedCoins fee with
    | none => True
    | some (_, emissionChange) => currency.FeesCovered (alreadyGeneratedCoins + emissionChange.toUInt64) blocks

/-! ### What the emission change adds up to -/

theorem toInt_toInt64_sub {a b : UInt64} (ha : a.toNat < 2 ^ 63) (hb : b.toNat < 2 ^ 63) :
    (a - b).toInt64.toInt = (a.toNat : Int) - b.toNat := by
  have h : (a - b).toInt64.toInt = ((a - b).toNat : Int).bmod (2 ^ 64) :=
    BitVec.toInt_eq_toNat_bmod (a - b).toBitVec
  rw [h, Int.bmod_eq_emod, UInt64.toNat_sub]
  push_cast
  split <;> omega

theorem toNat_add_toUInt64 {coins : UInt64} {change : Int64} (hlow : 0 ≤ (coins.toNat : Int) + change.toInt)
    (hhigh : (coins.toNat : Int) + change.toInt < 2 ^ 64) :
    ((coins + change.toUInt64).toNat : Int) = coins.toNat + change.toInt := by
  have h : change.toInt = (change.toUInt64.toNat : Int).bmod (2 ^ 64) :=
    BitVec.toInt_eq_toNat_bmod change.toBitVec
  have hlt := change.toUInt64.toNat_lt
  rw [h, Int.bmod_eq_emod] at hlow hhigh ⊢
  rw [UInt64.toNat_add]
  push_cast
  split_ifs at hlow hhigh ⊢ <;> omega

section Emission

variable {currency : Currency} {blockMajorVersion : UInt8}
  {medianSize currentBlockSize alreadyGeneratedCoins fee reward : UInt64} {emissionChange : Int64}

theorem baseReward_add_le (hgenesis : currency.genesisBlockReward ≤ currency.moneySupply)
    (hcoins : alreadyGeneratedCoins ≤ currency.moneySupply) :
    (currency.baseReward alreadyGeneratedCoins).toNat + alreadyGeneratedCoins.toNat ≤ currency.moneySupply.toNat := by
  have hcoins' := UInt64.le_iff_toNat_le.mp hcoins
  unfold baseReward
  split
  next hfirst =>
    rw [hfirst.1]
    simpa using UInt64.le_iff_toNat_le.mp hgenesis
  next =>
    have hshift := Nat.shiftRight_le (currency.moneySupply - alreadyGeneratedCoins).toNat currency.emissionSpeedFactor
    rw [UInt64.toNat_sub_of_le _ _ hcoins] at hshift
    rw [UInt64.toNat_ofNat', UInt64.toNat_sub_of_le _ _ hcoins]
    have := Nat.mod_le ((currency.moneySupply.toNat - alreadyGeneratedCoins.toNat) >>> currency.emissionSpeedFactor)
      (2 ^ 64)
    omega

/-- One block's reward on a median of 32 bits: at most the base reward and the fee, an emission
change equal to the reward less the fee, and the coins generated stay between zero and the money
supply when the fee is paid out of coins that exist. -/
theorem getBlockReward_emission (hsupply : currency.moneySupply.toNat < 2 ^ 63)
    (hgenesis : currency.genesisBlockReward ≤ currency.moneySupply)
    (hcoins : alreadyGeneratedCoins ≤ currency.moneySupply) (hfee : fee ≤ alreadyGeneratedCoins)
    (hmedian : (max medianSize (currency.blockGrantedFullRewardZoneByBlockVersion blockMajorVersion)).toNat < 2 ^ 32)
    (hreward : currency.getBlockReward blockMajorVersion medianSize currentBlockSize alreadyGeneratedCoins fee =
      some (reward, emissionChange)) :
    reward.toNat ≤ (currency.baseReward alreadyGeneratedCoins).toNat + fee.toNat ∧
    emissionChange.toInt = (reward.toNat : Int) - fee.toNat ∧
    0 ≤ (alreadyGeneratedCoins.toNat : Int) + emissionChange.toInt ∧
    (alreadyGeneratedCoins.toNat : Int) + emissionChange.toInt ≤ currency.moneySupply.toNat := by
  unfold getBlockReward at hreward
  generalize max medianSize (currency.blockGrantedFullRewardZoneByBlockVersion blockMajorVersion) = median
    at hmedian hreward
  dsimp only at hreward
  by_cases hfits : 2 * median < currentBlockSize
  · rw [if_pos hfits] at hreward
    cases hreward
  · rw [if_neg hfits] at hreward
    obtain ⟨rfl, rfl⟩ := Prod.mk.inj (Option.some.inj hreward)
    -- the block is at most twice the median, which does not wrap
    have hsize : currentBlockSize.toNat ≤ 2 * median.toNat := by
      have htwice : (2 * median).toNat = 2 * median.toNat := by
        rw [UInt64.toNat_mul]
        exact Nat.mod_eq_of_lt (by simp only [UInt64.reduceToNat]; omega)
      rw [← htwice]
      exact UInt64.le_iff_toNat_le.mp (UInt64.not_lt.mp hfits)
    have hbase := baseReward_add_le hgenesis hcoins
    have hpenalized : (getPenalizedAmount (currency.baseReward alreadyGeneratedCoins) median currentBlockSize).toNat ≤
        (currency.baseReward alreadyGeneratedCoins).toNat :=
      getPenalizedAmount_le hsize hmedian
    have hpenalizedFee : (if BLOCK_MAJOR_VERSION_2 ≤ blockMajorVersion then getPenalizedAmount fee median currentBlockSize
        else fee).toNat ≤ fee.toNat := by
      split
      · exact getPenalizedAmount_le hsize hmedian
      · exact le_rfl
    generalize getPenalizedAmount (currency.baseReward alreadyGeneratedCoins) median currentBlockSize = penalizedBaseReward
      at hpenalized ⊢
    generalize (if BLOCK_MAJOR_VERSION_2 ≤ blockMajorVersion then getPenalizedAmount fee median currentBlockSize
      else fee) = penalizedFee at hpenalizedFee ⊢
    have hcoins' := UInt64.le_iff_toNat_le.mp hcoins
    have hfee' := UInt64.le_iff_toNat_le.mp hfee
    -- the reward and the fee's penalty are computed without wrapping
    have hreward' : (penalizedBaseReward + penalizedFee).toNat = penalizedBaseReward.toNat + penalizedFee.toNat := by
      rw [UInt64.toNat_add]
      exact Nat.mod_eq_of_lt (by omega)
    have hpenalty : (fee - penalizedFee).toNat = fee.toNat - penalizedFee.toNat :=
      UInt64.toNat_sub_of_le _ _ (UInt64.le_iff_toNat_le.mpr hpenalizedFee)
    have hchange : (penalizedBaseReward - (fee - penalizedFee)).toInt64.toInt =
        (penalizedBaseReward.toNat : Int) - (fee.toNat - penalizedFee.toNat : Nat) := by
      rw [toInt_toInt64_sub (by omega) (by omega), hpenalty]
    rw [hreward', hchange]
    omega

theorem generatedCoinsAfter_le (hsupply : currency.moneySupply.toNat < 2 ^ 63)
    (hgenesis : currency.genesisBlockReward ≤ currency.moneySupply) :
    ∀ (blocks : List (UInt8 × UInt64 × UInt64 × UInt64)) (alreadyGeneratedCoins final : UInt64),
      alreadyGeneratedCoins ≤ currency.moneySupply →
      (∀ block ∈ blocks, (max block.2.1 (currency.blockGrantedFullRewardZoneByBlockVersion block.1)).toNat < 2 ^ 32) →
      currency.FeesCovered alreadyGeneratedCoins blocks →
      currency.generatedCoinsAfter alreadyGeneratedCoins blocks = some final → final ≤ currency.moneySupply := by
  intro blocks
  induction blocks with
  | nil =>
    intro alreadyGeneratedCoins final hcoins _ _ hrun
    cases hrun
    exact hcoins
  | cons block blocks ih =>
    obtain ⟨blockMajorVersion, medianSize, currentBlockSize, fee⟩ := block
    intro alreadyGeneratedCoins final hcoins hmedians hcovered hrun
    simp only [FeesCovered] at hcovered
    simp only [generatedCoinsAfter] at hrun
    split at hrun
    · cases hrun
    next reward emissionChange hreward =>
      rw [hreward] at hcovered
      -- one block keeps the coins within the supply, and the sum in `uint64_t` is exact
      obtain ⟨-, -, hlow, hhigh⟩ := getBlockReward_emission hsupply hgenesis hcoins hcovered.1
        (hmedians _ List.mem_cons_self) hreward
      have hnext : alreadyGeneratedCoins + emissionChange.toUInt64 ≤ currency.moneySupply := by
        apply UInt64.le_iff_toNat_le.mpr
        have := toNat_add_toUInt64 hlow (by omega)
        omega
      exact ih _ final hnext (fun block hblock => hmedians block (List.mem_cons_of_mem _ hblock)) hcovered.2 hrun

end Emission

/-- Emission within the money supply, for medians of 32 bits: each reward is at most the base reward
and the fee, its emission change is the reward less the fee as an integer and keeps the coins
generated between zero and the supply, and a run of blocks paying their fees out of existing coins
never generates more than the supply. -/
theorem getBlockReward_within_supply (currency : Currency) (hsupply : currency.moneySupply.toNat < 2 ^ 63)
    (hgenesis : currency.genesisBlockReward ≤ currency.moneySupply) :
    (∀ (blockMajorVersion : UInt8) (medianSize currentBlockSize alreadyGeneratedCoins fee reward : UInt64)
        (emissionChange : Int64),
      alreadyGeneratedCoins ≤ currency.moneySupply → fee ≤ alreadyGeneratedCoins →
      (max medianSize (currency.blockGrantedFullRewardZoneByBlockVersion blockMajorVersion)).toNat < 2 ^ 32 →
      currency.getBlockReward blockMajorVersion medianSize currentBlockSize alreadyGeneratedCoins fee =
        some (reward, emissionChange) →
      reward.toNat ≤ (currency.baseReward alreadyGeneratedCoins).toNat + fee.toNat ∧
      emissionChange.toInt = (reward.toNat : Int) - fee.toNat ∧
      0 ≤ (alreadyGeneratedCoins.toNat : Int) + emissionChange.toInt ∧
      (alreadyGeneratedCoins.toNat : Int) + emissionChange.toInt ≤ currency.moneySupply.toNat) ∧
    ∀ (blocks : List (UInt8 × UInt64 × UInt64 × UInt64)) (alreadyGeneratedCoins final : UInt64),
      alreadyGeneratedCoins ≤ currency.moneySupply →
      (∀ block ∈ blocks, (max block.2.1 (currency.blockGrantedFullRewardZoneByBlockVersion block.1)).toNat < 2 ^ 32) →
      currency.FeesCovered alreadyGeneratedCoins blocks →
      currency.generatedCoinsAfter alreadyGeneratedCoins blocks = some final → final ≤ currency.moneySupply :=
  ⟨fun _ _ _ _ _ _ _ hcoins hfee hmedian hreward => getBlockReward_emission hsupply hgenesis hcoins hfee hmedian hreward,
    generatedCoinsAfter_le hsupply hgenesis⟩

/-- The configured currency over three blocks: the genesis reward, a block above the median whose
reward and fee are penalized, and one whose fee's penalty exceeds the penalized base reward, so
that the `uint64_t` emission change wraps and converts to a negative `int64_t`. -/
theorem getBlockReward_within_supply_penalized :
    Currency.default.moneySupply.toNat < 2 ^ 63 ∧ Currency.default.genesisBlockReward ≤ Currency.default.moneySupply ∧
    (∃ reward emissionChange,
      Currency.default.getBlockReward 2 20000 25000 15000002311 1000000 = some (reward, emissionChange) ∧
      reward.toNat ≤ (Currency.default.baseReward 15000002311).toNat + (1000000 : UInt64).toNat ∧
      emissionChange.toInt = (reward.toNat : Int) - (1000000 : UInt64).toNat ∧
      0 ≤ ((15000002311 : UInt64).toNat : Int) + emissionChange.toInt ∧
      ((15000002311 : UInt64).toNat : Int) + emissionChange.toInt ≤ Currency.default.moneySupply.toNat) ∧
    ∃ final, Currency.default.generatedCoinsAfter 0 [(1, 0, 100, 0), (2, 20000, 25000, 1000), (2, 20000, 25000, 1000000)] =
      some final ∧ final ≤ Currency.default.moneySupply :=
  have hsupply := getBlockReward_within_supply Currency.default (by decide) (by decide)
  have hcovered : Currency.default.FeesCovered 0 [(1, 0, 100, 0), (2, 20000, 25000, 1000), (2, 20000, 25000, 1000000)] :=
    show (0 : UInt64) ≤ 0 ∧ ((1000 : UInt64) ≤ 15000000000 ∧ ((1000000 : UInt64) ≤ 15000002311 ∧ True)) from
      ⟨by decide, by decide, by decide, trivial⟩
  have hmedian : (max (20000 : UInt64) (Currency.default.blockGrantedFullRewardZoneByBlockVersion 2)).toNat < 2 ^ 32 := by
    simp [blockGrantedFullRewardZoneByBlockVersion]
    decide
  have hmedians : ∀ block ∈ [((1 : UInt8), (0 : UInt64), (100 : UInt64), (0 : UInt64)), (2, 20000, 25000, 1000),
      (2, 20000, 25000, 1000000)],
      (max block.2.1 (Currency.default.blockGrantedFullRewardZoneByBlockVersion block.1)).toNat < 2 ^ 32 := by
    simp [blockGrantedFullRewardZoneByBlockVersion]
    decide
  ⟨by decide, by decide, ⟨_, _, rfl, hsupply.1 2 20000 25000 15000002311 1000000 _ _ (by decide) (by decide) hmedian rfl⟩,
    ⟨_, rfl, hsupply.2 _ 0 _ (by decide) hmedians hcovered rfl⟩⟩

/-- In the release build `getPenalizedAmount` divides by the median cut to 32 bits: on a median
of `2^32 + 1` the divisor is 1, the reward far exceeds the base reward, and one block takes the
coins generated past the money supply. -/
theorem getBlockReward_median_beyond_32_bits :
    ∃ reward emissionChange,
      Currency.default.getBlockReward 1 4294967297 4294967298 1 0 = some (reward, emissionChange) ∧
      (Currency.default.baseReward 1).toNat + 0 < reward.toNat ∧
      (Currency.default.moneySupply.toNat : Int) < 1 + emissionChange.toInt :=
  ⟨_, _, rfl, by decide, by decide⟩

end Currency

end Crygcoin
