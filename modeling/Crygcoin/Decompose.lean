import Mathlib.Data.List.Sort
import Mathlib.Tactic.Ring
import Crygcoin.Forest

namespace Crygcoin

/-! Amount decomposition (`CryptoNoteFormatUtils.h`, `CryptoNoteTools.cpp`, `Currency.cpp`).
`decompose_amount_into_digits` splits an amount into its decimal digits times their orders, low
digits first, and gathers the low digits into one dust amount while their sum stays within the
dust threshold. `decomposeAmount` and `Currency::constructMinerTx` push both kinds of piece to one
vector. -/

/-- What `decompose_amount_into_digits` hands to its two handlers, in the order it calls them. -/
inductive AmountPiece
  | chunk (amount : UInt64)
  | dust (amount : UInt64)
  deriving DecidableEq, Repr

def AmountPiece.amount : AmountPiece → UInt64
  | .chunk amount => amount
  | .dust amount => amount

/-- The end of `decompose_amount_into_digits`: the dust, unless handed out already or zero. -/
def decomposeFinish (dust : UInt64) (isDustHandled : Bool) (pieces : List AmountPiece) : List AmountPiece :=
  if !isDustHandled && dust ≠ 0 then pieces ++ [.dust dust] else pieces

/-- The pieces handed out in a round whose chunk does not fit in the dust: the dust first, unless
handed out already or zero, then the chunk unless it is zero. -/
def handOut (dust chunk : UInt64) (isDustHandled : Bool) (pieces : List AmountPiece) : List AmountPiece :=
  let pieces := if !isDustHandled && dust ≠ 0 then pieces ++ [.dust dust] else pieces
  if chunk ≠ 0 then pieces ++ [.chunk chunk] else pieces

/-- The loop `while (0 != amount)` of `decompose_amount_into_digits` from `amount`, `order`, `dust`
and `is_dust_handled`, after the pieces handed out so far, for at most `fuel` rounds. -/
def decomposeLoop (dustThreshold : UInt64) :
    Nat → UInt64 → UInt64 → UInt64 → Bool → List AmountPiece → List AmountPiece
  | 0, _, _, dust, isDustHandled, pieces => decomposeFinish dust isDustHandled pieces
  | fuel + 1, amount, order, dust, isDustHandled, pieces =>
    if amount = 0 then decomposeFinish dust isDustHandled pieces
    else
      let chunk := (amount % 10) * order
      if dust + chunk ≤ dustThreshold then
        decomposeLoop dustThreshold fuel (amount / 10) (order * 10) (dust + chunk) isDustHandled pieces
      else
        decomposeLoop dustThreshold fuel (amount / 10) (order * 10) dust
          (isDustHandled || (!isDustHandled && dust ≠ 0)) (handOut dust chunk isDustHandled pieces)

/-- `decompose_amount_into_digits(amount, dust_threshold, chunk_handler, dust_handler)`, with the
calls to the handlers in order. Each round divides `amount` by ten, so twenty rounds end the loop
for every `uint64_t`. -/
def decomposeAmountIntoDigits (amount dustThreshold : UInt64) : List AmountPiece :=
  if amount = 0 then [] else decomposeLoop dustThreshold 20 amount 1 0 false []

/-- `decomposeAmount`: both handlers push to one vector. -/
def decomposeAmount (amount dustThreshold : UInt64) : List UInt64 :=
  (decomposeAmountIntoDigits amount dustThreshold).map AmountPiece.amount

/-- The loop of `Currency::constructMinerTx` that merges outputs while there are more than
`maxOuts`: the last amount is added to the one before it, and dropped. -/
def mergeOutAmounts (maxOuts : Nat) (outAmounts : List UInt64) : List UInt64 :=
  if maxOuts < outAmounts.length then
    mergeOutAmounts maxOuts ((outAmounts.modify (outAmounts.length - 2) (· + outAmounts.getLastD 0)).dropLast)
  else outAmounts
termination_by outAmounts.length
decreasing_by
  rw [List.length_dropLast, List.length_modify]
  omega

/-- The output amounts of `Currency::constructMinerTx` for a block reward: the decomposition
with the dust threshold of the height, merged down to `maxOuts`, and the check that they add up
to the reward. The keys of the outputs are left out. -/
def constructMinerTxOutAmounts (blockReward dustThreshold : UInt64) (maxOuts : Nat) : Except String (List UInt64) := do
  let outAmounts := decomposeAmount blockReward dustThreshold
  if ¬1 ≤ maxOuts then throw "max_out must be non-zero"
  let outAmounts := mergeOutAmounts maxOuts outAmounts
  let summaryAmounts := outAmounts.foldl (· + ·) 0
  if ¬summaryAmounts = blockReward then
    throw s!"Failed to construct miner tx, summaryAmounts = {summaryAmounts} not equal blockReward = {blockReward}"
  pure outAmounts

/-! ### What the loop hands out -/

/-- A decimal digit `1..9` times a power of ten. -/
def IsDigitChunk (x : Nat) : Prop :=
  ∃ d k, 1 ≤ d ∧ d ≤ 9 ∧ x = d * 10 ^ k

/-- A chunk is a digit chunk; the dust is handed out first, within the threshold. -/
def PieceShape (dustThreshold : UInt64) (i : Nat) : AmountPiece → Prop
  | .chunk c => IsDigitChunk c.toNat
  | .dust d => i = 0 ∧ d ≤ dustThreshold

/-- The values of pieces, as numbers. -/
def pieceValues (pieces : List AmountPiece) : List Nat :=
  pieces.map (·.amount.toNat)

@[simp] theorem pieceValues_nil : pieceValues [] = [] := rfl

@[simp] theorem pieceValues_append (pieces more : List AmountPiece) :
    pieceValues (pieces ++ more) = pieceValues pieces ++ pieceValues more :=
  List.map_append

@[simp] theorem pieceValues_cons (p : AmountPiece) (pieces : List AmountPiece) :
    pieceValues (p :: pieces) = p.amount.toNat :: pieceValues pieces := rfl

@[simp] theorem AmountPiece.amount_chunk (c : UInt64) : (AmountPiece.chunk c).amount = c := rfl

@[simp] theorem AmountPiece.amount_dust (d : UInt64) : (AmountPiece.dust d).amount = d := rfl

/-- Pieces that decompose `a`: they sum to it, increase strictly, and each has its shape. -/
structure Decomposes (a : Nat) (dustThreshold : UInt64) (pieces : List AmountPiece) : Prop where
  sum : (pieceValues pieces).sum = a
  increasing : (pieceValues pieces).Pairwise (· < ·)
  shape : ∀ i p, pieces[i]? = some p → PieceShape dustThreshold i p

/-- The state of the loop after `k` rounds on the amount `a`: what is handed out, the pending
dust and the digits still to come add up to `a`; the pieces are below the current order; once a
piece is out, no further nonzero chunk fits in the dust. -/
structure DecomposeInvariant (a : Nat) (dustThreshold : UInt64) (k : Nat) (amount order dust : UInt64)
    (isDustHandled : Bool) (pieces : List AmountPiece) : Prop where
  bound : a < 2 ^ 64
  sum : (pieceValues pieces).sum + (if isDustHandled then 0 else dust.toNat) + amount.toNat * 10 ^ k = a
  order : amount ≠ 0 → order.toNat = 10 ^ k
  dust_lt : dust.toNat < 10 ^ k
  dust_le : dust ≤ dustThreshold
  increasing : (pieceValues pieces).Pairwise (· < ·)
  lt_order : ∀ x ∈ pieceValues pieces, x < 10 ^ k
  shape : ∀ i p, pieces[i]? = some p → PieceShape dustThreshold i p
  exceeded : pieces ≠ [] → dustThreshold.toNat < dust.toNat + 10 ^ k
  pending : isDustHandled = false → pieces ≠ [] → dust = 0
  handled : isDustHandled = true → pieces ≠ [] ∧ dust.toNat ≤ (pieceValues pieces).sum

theorem mul_pow_ten_succ (n k : Nat) : n * 10 ^ k = n / 10 * 10 ^ (k + 1) + n % 10 * 10 ^ k := by
  calc n * 10 ^ k = (10 * (n / 10) + n % 10) * 10 ^ k := by rw [Nat.div_add_mod]
    _ = n / 10 * 10 ^ (k + 1) + n % 10 * 10 ^ k := by ring

namespace DecomposeInvariant

variable {a : Nat} {dustThreshold : UInt64} {k : Nat} {amount order dust : UInt64} {isDustHandled : Bool}
  {pieces : List AmountPiece}

theorem start {amount : UInt64} (dustThreshold : UInt64) :
    DecomposeInvariant amount.toNat dustThreshold 0 amount 1 0 false [] where
  bound := amount.toNat_lt
  sum := by simp [pieceValues]
  order _ := rfl
  dust_lt := by decide
  dust_le := UInt64.zero_le
  increasing := List.Pairwise.nil
  lt_order _ hx := by cases hx
  shape _ _ hp := by cases hp
  exceeded hne := absurd rfl hne
  pending _ _ := rfl
  handled htrue := by cases htrue

theorem amount_mul_le (h : DecomposeInvariant a dustThreshold k amount order dust isDustHandled pieces) :
    amount.toNat * 10 ^ k ≤ a := by
  have := h.sum
  omega

theorem dust_add_le (h : DecomposeInvariant a dustThreshold k amount order dust isDustHandled pieces) :
    dust.toNat + amount.toNat * 10 ^ k ≤ a := by
  have hsum := h.sum
  cases hhandled : isDustHandled
  · rw [hhandled, if_neg Bool.false_ne_true] at hsum
    omega
  · rw [hhandled, if_pos rfl] at hsum
    have := (h.handled hhandled).2
    omega

section Round

variable (h : DecomposeInvariant a dustThreshold k amount order dust isDustHandled pieces) (hne : amount ≠ 0)
include h hne

theorem chunk_toNat : ((amount % 10) * order).toNat = amount.toNat % 10 * 10 ^ k := by
  have hsplit := mul_pow_ten_succ amount.toNat k
  have hle := h.amount_mul_le
  have hbound := h.bound
  rw [UInt64.toNat_mul, UInt64.toNat_mod, h.order hne, show (10 : UInt64).toNat = 10 from rfl]
  apply Nat.mod_eq_of_lt
  omega

theorem order_mul_ten (hnext : amount / 10 ≠ 0) : (order * 10).toNat = 10 ^ (k + 1) := by
  have hsplit := mul_pow_ten_succ amount.toNat k
  have hle := h.amount_mul_le
  have hbound := h.bound
  have hdiv : 1 ≤ amount.toNat / 10 := by
    have : (amount / 10).toNat ≠ 0 := fun hz => hnext (UInt64.toNat_inj.mp hz)
    rw [UInt64.toNat_div, show (10 : UInt64).toNat = 10 from rfl] at this
    omega
  have hpow : 10 ^ (k + 1) ≤ amount.toNat / 10 * 10 ^ (k + 1) := Nat.le_mul_of_pos_left _ hdiv
  rw [UInt64.toNat_mul, h.order hne, show (10 : UInt64).toNat = 10 from rfl, ← Nat.pow_succ]
  apply Nat.mod_eq_of_lt
  omega

theorem dust_add_chunk_toNat :
    (dust + (amount % 10) * order).toNat = dust.toNat + amount.toNat % 10 * 10 ^ k := by
  have hsplit := mul_pow_ten_succ amount.toNat k
  have hle := h.dust_add_le
  have hbound := h.bound
  rw [UInt64.toNat_add, h.chunk_toNat hne]
  apply Nat.mod_eq_of_lt
  omega

theorem absorb (hle : dust + (amount % 10) * order ≤ dustThreshold) :
    DecomposeInvariant a dustThreshold (k + 1) (amount / 10) (order * 10) (dust + (amount % 10) * order)
      isDustHandled pieces := by
  have hsplit := mul_pow_ten_succ amount.toNat k
  have hdust := h.dust_add_chunk_toNat hne
  have hdigit : amount.toNat % 10 * 10 ^ k ≤ 9 * 10 ^ k := Nat.mul_le_mul_right _ (by omega)
  have hpow : 10 ^ (k + 1) = 10 * 10 ^ k := by rw [Nat.pow_succ, Nat.mul_comm]
  have hfit : dust.toNat + amount.toNat % 10 * 10 ^ k ≤ dustThreshold.toNat := by
    rw [← hdust]
    exact UInt64.le_iff_toNat_le.mp hle
  -- past the first piece a nonzero chunk is at least the order, too much for the dust
  have hzero : pieces ≠ [] → amount.toNat % 10 * 10 ^ k = 0 := by
    intro hpieces
    have hexceeded := h.exceeded hpieces
    by_contra hne0
    have : 10 ^ k ≤ amount.toNat % 10 * 10 ^ k := Nat.le_mul_of_pos_left _ (Nat.pos_of_mul_pos_right (Nat.pos_of_ne_zero hne0))
    omega
  have hdivmod : amount.toNat / 10 * 10 ^ (k + 1) = (amount / 10).toNat * 10 ^ (k + 1) := by
    rw [UInt64.toNat_div, show (10 : UInt64).toNat = 10 from rfl]
  refine ⟨h.bound, ?sum, h.order_mul_ten hne, ?dust_lt, hle, h.increasing, ?lt_order, h.shape, ?exceeded,
    ?pending, ?handled⟩
  case sum =>
    have hsum := h.sum
    rw [← hdivmod]
    cases hhandled : isDustHandled
    · rw [hhandled, if_neg Bool.false_ne_true] at hsum
      rw [if_neg Bool.false_ne_true, hdust]
      omega
    · rw [hhandled, if_pos rfl] at hsum
      rw [if_pos rfl]
      have := hzero (h.handled hhandled).1
      omega
  case dust_lt =>
    have := h.dust_lt
    omega
  case lt_order =>
    intro x hx
    have := h.lt_order x hx
    omega
  case exceeded =>
    intro hpieces
    have := h.exceeded hpieces
    omega
  case pending =>
    intro hhandled hpieces
    apply UInt64.toNat_inj.mp
    rw [hdust, h.pending hhandled hpieces, hzero hpieces]
    rfl
  case handled =>
    intro hhandled
    obtain ⟨hpieces, hle⟩ := h.handled hhandled
    have := hzero hpieces
    exact ⟨hpieces, by omega⟩

theorem isDigitChunk_chunk (hdigit : amount.toNat % 10 ≠ 0) : IsDigitChunk ((amount % 10) * order).toNat :=
  ⟨amount.toNat % 10, k, by omega, by omega, h.chunk_toNat hne⟩

theorem emit (hgt : ¬dust + (amount % 10) * order ≤ dustThreshold) :
    DecomposeInvariant a dustThreshold (k + 1) (amount / 10) (order * 10) dust
      (isDustHandled || (!isDustHandled && dust ≠ 0)) (handOut dust ((amount % 10) * order) isDustHandled pieces) := by
  have hsplit := mul_pow_ten_succ amount.toNat k
  have hdust := h.dust_add_chunk_toNat hne
  have hchunkNat := h.chunk_toNat hne
  have hdigit : amount.toNat % 10 * 10 ^ k ≤ 9 * 10 ^ k := Nat.mul_le_mul_right _ (by omega)
  have hpow : 10 ^ (k + 1) = 10 * 10 ^ k := by rw [Nat.pow_succ, Nat.mul_comm]
  have hdivmod : amount.toNat / 10 * 10 ^ (k + 1) = (amount / 10).toNat * 10 ^ (k + 1) := by
    rw [UInt64.toNat_div, show (10 : UInt64).toNat = 10 from rfl]
  have hover : dustThreshold.toNat < dust.toNat + amount.toNat % 10 * 10 ^ k := by
    rw [← hdust]
    exact UInt64.lt_iff_toNat_lt.mp (UInt64.not_le.mp hgt)
  have hwithin := UInt64.le_iff_toNat_le.mp h.dust_le
  -- the dust fits, so the chunk is what does not: a nonzero digit
  have hpos : 0 < amount.toNat % 10 * 10 ^ k := by omega
  have hdigitNe : amount.toNat % 10 ≠ 0 := Nat.pos_iff_ne_zero.mp (Nat.pos_of_mul_pos_right hpos)
  have hlarge : 10 ^ k ≤ amount.toNat % 10 * 10 ^ k := Nat.le_mul_of_pos_left _ (Nat.pos_of_ne_zero hdigitNe)
  have hchunk : (amount % 10) * order ≠ 0 := by
    intro hz
    have := congrArg UInt64.toNat hz
    rw [hchunkNat, UInt64.toNat_zero] at this
    omega
  have hshape := h.isDigitChunk_chunk hne hdigitNe
  have hdustLt := h.dust_lt
  rw [handOut, if_pos hchunk]
  by_cases hnew : isDustHandled = false ∧ dust ≠ 0
  · -- the pending dust goes out first, and no piece is out before it
    obtain ⟨hhandled, hdust0⟩ := hnew
    have hnil : pieces = [] := by
      by_contra hpieces
      exact hdust0 (h.pending hhandled hpieces)
    have hsum := h.sum
    subst hhandled hnil
    have hcond : (!false && decide (dust ≠ 0)) = true := by simp [hdust0]
    simp only [pieceValues_nil, List.sum_nil, Bool.false_eq_true, if_false, Nat.zero_add] at hsum
    rw [hcond, if_pos rfl, Bool.false_or, List.nil_append, List.singleton_append]
    have hvalues : pieceValues [.dust dust, .chunk ((amount % 10) * order)] =
        [dust.toNat, amount.toNat % 10 * 10 ^ k] := by
      rw [pieceValues_cons, pieceValues_cons, pieceValues_nil, AmountPiece.amount_dust, AmountPiece.amount_chunk,
        hchunkNat]
    refine ⟨h.bound, ?_, h.order_mul_ten hne, by omega, h.dust_le, ?_, ?_, ?_, fun _ => by omega,
      fun hfalse => (by cases hfalse), fun _ => ⟨List.cons_ne_nil _ _, ?_⟩⟩
    · rw [hvalues, if_pos rfl, List.sum_cons, List.sum_cons, List.sum_nil]
      omega
    · rw [hvalues, List.pairwise_pair]
      omega
    · intro x hx
      rw [hvalues, List.mem_pair] at hx
      omega
    · intro i p hp
      match i, hp with
      | 0, hp =>
        cases hp
        exact ⟨rfl, h.dust_le⟩
      | 1, hp =>
        cases hp
        exact hshape
    · rw [hvalues, List.sum_cons, List.sum_cons, List.sum_nil]
      omega
  · -- the dust stays as it is: handed out already, or zero
    have hzero : isDustHandled = false → dust = 0 := fun hhandled => by
      by_contra hdust0
      exact hnew ⟨hhandled, hdust0⟩
    have hcond : (!isDustHandled && decide (dust ≠ 0)) = false := by
      cases isDustHandled with
      | true => rfl
      | false => simp [hzero rfl]
    rw [hcond, Bool.or_false, if_neg Bool.false_ne_true]
    refine ⟨h.bound, ?sum, h.order_mul_ten hne, by omega, h.dust_le, ?increasing, ?lt_order, ?shape,
      fun _ => by omega, ?pending, ?handled⟩
    case sum =>
      have hsum := h.sum
      simp only [pieceValues_append, pieceValues_cons, AmountPiece.amount_chunk, pieceValues_nil, List.sum_append,
        List.sum_cons, List.sum_nil]
      omega
    case increasing =>
      rw [pieceValues_append, List.pairwise_append]
      refine ⟨h.increasing, List.pairwise_singleton _ _, fun x hx y hy => ?_⟩
      have := h.lt_order x hx
      simp only [pieceValues_cons, AmountPiece.amount_chunk, pieceValues_nil, List.mem_singleton] at hy
      omega
    case lt_order =>
      intro x hx
      rw [pieceValues_append, List.mem_append] at hx
      rcases hx with hx | hx
      · have := h.lt_order x hx
        omega
      · simp only [pieceValues_cons, AmountPiece.amount_chunk, pieceValues_nil, List.mem_singleton] at hx
        omega
    case shape =>
      intro i p hp
      rcases getElem?_concat_eq_some hp with ⟨-, hp⟩ | ⟨-, rfl⟩
      · exact h.shape i p hp
      · exact hshape
    case pending => exact fun hhandled _ => hzero hhandled
    case handled =>
      intro hhandled
      obtain ⟨-, hle⟩ := h.handled hhandled
      refine ⟨List.append_ne_nil_of_right_ne_nil _ (List.cons_ne_nil _ _), ?_⟩
      simp only [pieceValues_append, pieceValues_cons, AmountPiece.amount_chunk, pieceValues_nil, List.sum_append,
        List.sum_cons, List.sum_nil]
      omega

end Round

theorem finish (h : DecomposeInvariant a dustThreshold k amount order dust isDustHandled pieces) (hzero : amount = 0) :
    Decomposes a dustThreshold (decomposeFinish dust isDustHandled pieces) := by
  have hsum := h.sum
  rw [hzero, UInt64.toNat_zero, Nat.zero_mul, Nat.add_zero] at hsum
  rw [decomposeFinish]
  by_cases hnew : isDustHandled = false ∧ dust ≠ 0
  · obtain ⟨hhandled, hdust0⟩ := hnew
    have hnil : pieces = [] := by
      by_contra hpieces
      exact hdust0 (h.pending hhandled hpieces)
    subst hhandled hnil
    rw [if_pos (by simp [hdust0]), List.nil_append]
    simp only [pieceValues_nil, List.sum_nil, Bool.false_eq_true, if_false, Nat.zero_add] at hsum
    refine ⟨by simpa using hsum, List.pairwise_singleton _ _, fun i p hp => ?_⟩
    match i, hp with
    | 0, hp =>
      cases hp
      exact ⟨rfl, h.dust_le⟩
  · have hpending : (if isDustHandled then 0 else dust.toNat) = 0 := by
      cases hhandled : isDustHandled with
      | true => rfl
      | false =>
        have : dust = 0 := by
          by_contra hdust0
          exact hnew ⟨hhandled, hdust0⟩
        rw [this, if_neg Bool.false_ne_true, UInt64.toNat_zero]
    rw [if_neg (by simpa using hnew)]
    exact ⟨by omega, h.increasing, h.shape⟩

end DecomposeInvariant

theorem decomposeLoop_decomposes {a : Nat} {dustThreshold : UInt64} (fuel : Nat) :
    ∀ {k : Nat} {amount order dust : UInt64} {isDustHandled : Bool} {pieces : List AmountPiece},
      DecomposeInvariant a dustThreshold k amount order dust isDustHandled pieces → amount.toNat < 10 ^ fuel →
      Decomposes a dustThreshold (decomposeLoop dustThreshold fuel amount order dust isDustHandled pieces) := by
  induction fuel with
  | zero =>
    intro k amount order dust isDustHandled pieces h hfuel
    have hzero : amount = 0 := UInt64.toNat_inj.mp (by rw [UInt64.toNat_zero]; simp at hfuel; omega)
    exact h.finish hzero
  | succ fuel ih =>
    intro k amount order dust isDustHandled pieces h hfuel
    rw [decomposeLoop]
    by_cases hzero : amount = 0
    · rw [if_pos hzero]
      exact h.finish hzero
    · have hnext : (amount / 10).toNat < 10 ^ fuel := by
        rw [UInt64.toNat_div, show (10 : UInt64).toNat = 10 from rfl]
        rw [Nat.pow_succ] at hfuel
        omega
      rw [if_neg hzero]
      dsimp only
      split
      · next hle => exact ih (h.absorb hzero hle) hnext
      · next hgt => exact ih (h.emit hzero hgt) hnext

theorem decomposeAmountIntoDigits_decomposes (amount dustThreshold : UInt64) :
    Decomposes amount.toNat dustThreshold (decomposeAmountIntoDigits amount dustThreshold) := by
  rw [decomposeAmountIntoDigits]
  split
  · next hzero =>
    subst hzero
    exact ⟨rfl, List.Pairwise.nil, fun _ _ hp => by cases hp⟩
  · exact decomposeLoop_decomposes 20 (DecomposeInvariant.start dustThreshold)
      (amount.toNat_lt.trans (by decide))

example : decomposeAmount 62387455827 500000 = [455827, 7000000, 80000000, 300000000, 2000000000, 60000000000] := by
  decide

/-! ### The outputs of the miner transaction -/

theorem mergeOutAmounts_step (init : List UInt64) (x y : UInt64) :
    ((init ++ [x, y]).modify ((init ++ [x, y]).length - 2) (· + (init ++ [x, y]).getLastD 0)).dropLast =
      init ++ [x + y] := by
  simp [List.modify_eq_set]

theorem mergeOutAmounts_sum {maxOuts : Nat} (hmax : 1 ≤ maxOuts) (l : List UInt64)
    (hbound : (l.map UInt64.toNat).sum < 2 ^ 64) :
    ((mergeOutAmounts maxOuts l).map UInt64.toNat).sum = (l.map UInt64.toNat).sum ∧
      (mergeOutAmounts maxOuts l).length = min l.length maxOuts := by
  fun_induction mergeOutAmounts maxOuts l with
  | case1 l hmore ih =>
    -- at least two amounts: the last two are merged
    obtain ⟨rest, y, rfl⟩ := (List.eq_nil_or_concat l).resolve_left (by rintro rfl; simp at hmore)
    obtain ⟨init, x, rfl⟩ := (List.eq_nil_or_concat rest).resolve_left (by rintro rfl; simp at hmore; omega)
    simp only [List.concat_eq_append, List.append_assoc, List.singleton_append] at hbound hmore ih ⊢
    rw [mergeOutAmounts_step] at ih ⊢
    simp only [List.map_append, List.map_cons, List.map_nil, List.sum_append, List.sum_cons, List.sum_nil] at hbound ih ⊢
    have hxy : (x + y).toNat = x.toNat + y.toNat := by
      rw [UInt64.toNat_add]
      exact Nat.mod_eq_of_lt (by omega)
    obtain ⟨hsum, hlength⟩ := ih (by omega)
    simp only [List.length_append, List.length_cons, List.length_nil] at hmore hlength ⊢
    exact ⟨by omega, by omega⟩
  | case2 l hfew => exact ⟨rfl, by omega⟩

theorem foldl_add_toNat (l : List UInt64) (acc : UInt64) :
    (l.foldl (· + ·) acc).toNat = (acc.toNat + (l.map UInt64.toNat).sum) % 2 ^ 64 := by
  induction l generalizing acc with
  | nil => simp [Nat.mod_eq_of_lt acc.toNat_lt]
  | cons x l ih =>
    rw [List.foldl_cons, ih, UInt64.toNat_add, List.map_cons, List.sum_cons]
    omega

theorem map_toNat_decomposeAmount (amount dustThreshold : UInt64) :
    (decomposeAmount amount dustThreshold).map UInt64.toNat = pieceValues (decomposeAmountIntoDigits amount dustThreshold) := by
  rw [decomposeAmount, List.map_map]
  rfl

theorem constructMinerTxOutAmounts_ok (blockReward dustThreshold : UInt64) {maxOuts : Nat} (hmax : 1 ≤ maxOuts) :
    constructMinerTxOutAmounts blockReward dustThreshold maxOuts =
        .ok (mergeOutAmounts maxOuts (decomposeAmount blockReward dustThreshold)) ∧
      ((mergeOutAmounts maxOuts (decomposeAmount blockReward dustThreshold)).map UInt64.toNat).sum = blockReward.toNat ∧
      (mergeOutAmounts maxOuts (decomposeAmount blockReward dustThreshold)).length ≤ maxOuts := by
  have hvalues := map_toNat_decomposeAmount blockReward dustThreshold
  have hdecomposed := (decomposeAmountIntoDigits_decomposes blockReward dustThreshold).sum
  obtain ⟨hsum, hlength⟩ := mergeOutAmounts_sum hmax (decomposeAmount blockReward dustThreshold)
    (by rw [hvalues, hdecomposed]; exact blockReward.toNat_lt)
  rw [hvalues, hdecomposed] at hsum
  have hfold : (mergeOutAmounts maxOuts (decomposeAmount blockReward dustThreshold)).foldl (· + ·) 0 = blockReward := by
    apply UInt64.toNat_inj.mp
    rw [foldl_add_toNat, hsum, UInt64.toNat_zero, Nat.zero_add]
    exact Nat.mod_eq_of_lt blockReward.toNat_lt
  refine ⟨?_, hsum, by omega⟩
  simp only [constructMinerTxOutAmounts, hmax, not_true_eq_false, if_false, hfold]
  rfl

theorem mergeSort_decomposeAmount (amount dustThreshold : UInt64) :
    (decomposeAmount amount dustThreshold).mergeSort (fun x y => decide (x ≤ y)) = decomposeAmount amount dustThreshold := by
  have hincreasing := (decomposeAmountIntoDigits_decomposes amount dustThreshold).increasing
  rw [← map_toNat_decomposeAmount, List.pairwise_map] at hincreasing
  exact List.mergeSort_of_pairwise (hincreasing.imp fun hlt => decide_eq_true (UInt64.le_iff_toNat_le.mpr hlt.le))

/-- `decompose_amount_into_digits` hands out a strictly increasing sequence of pieces that add up to
the amount, each a digit `1..9` times a power of ten except a first dust within the threshold; the
miner transaction's outputs, merged down to any `maxOuts ≥ 1`, keep the sum of the block reward;
and the decomposition `isFusionTransaction` sorts is sorted already. -/
theorem decompose_amount_into_digits_exact :
    (∀ amount dustThreshold : UInt64,
      Decomposes amount.toNat dustThreshold (decomposeAmountIntoDigits amount dustThreshold)) ∧
    (∀ (blockReward dustThreshold : UInt64) (maxOuts : Nat), 1 ≤ maxOuts →
      ∃ outAmounts, constructMinerTxOutAmounts blockReward dustThreshold maxOuts = .ok outAmounts ∧
        (outAmounts.map UInt64.toNat).sum = blockReward.toNat ∧ outAmounts.length ≤ maxOuts) ∧
    ∀ amount dustThreshold : UInt64,
      (decomposeAmount amount dustThreshold).mergeSort (fun x y => decide (x ≤ y)) = decomposeAmount amount dustThreshold := by
  refine ⟨decomposeAmountIntoDigits_decomposes, fun blockReward dustThreshold maxOuts hmax => ?_,
    mergeSort_decomposeAmount⟩
  obtain ⟨hok, hsum, hlength⟩ := constructMinerTxOutAmounts_ok blockReward dustThreshold hmax
  exact ⟨_, hok, hsum, hlength⟩

theorem decompose_amount_into_digits_exact_fourOuts :
    Decomposes 62387455827 500000 (decomposeAmountIntoDigits 62387455827 500000) ∧
      ∃ outAmounts, constructMinerTxOutAmounts 62387455827 500000 4 = .ok outAmounts ∧
        (outAmounts.map UInt64.toNat).sum = 62387455827 ∧ outAmounts.length ≤ 4 :=
  ⟨decompose_amount_into_digits_exact.1 62387455827 500000,
    decompose_amount_into_digits_exact.2.1 62387455827 500000 4 (by decide)⟩

end Crygcoin
