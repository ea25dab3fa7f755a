import Mathlib
import Crygcoin.TransactionPool
import Crygcoin.IntUtil

namespace Crygcoin

/-! The order of the pool's `transactionCostIndex`. `TransactionPriorityComparator` of
`TransactionPool.cpp` puts a transaction first when it pays more per byte, comparing the cross
products of fee and size as 128-bit numbers from `mul128`; then the smaller one, then the one
received first. On transactions with non-empty blobs this is the order of a key (the fee per byte,
highest first, then the size, then the receive time), so it is a strict weak order, as the ordered
index of the container needs. -/

/-- `CachedTransaction::getTransactionFee`: the amounts of the key inputs less those of the
outputs, as `uint64_t`; 0 for a transaction with a base input. -/
def CachedTransaction.getTransactionFee (cachedTransaction : CachedTransaction) : UInt64 :=
  let summaryOutputAmount := cachedTransaction.transaction.outputs.foldl (fun sum out => sum + out.amount) 0
  -- a base input returns 0 from inside the loop over the inputs
  let summaryInputAmount := cachedTransaction.transaction.inputs.foldlM (fun (sum : UInt64) input =>
    match input with
    | .keyInput input => some (sum + input.amount)
    | .baseInput _ => none) 0
  match summaryInputAmount with
  | some summaryInputAmount => summaryInputAmount - summaryOutputAmount
  | none => 0

namespace PendingTransactionInfo

def fee (info : PendingTransactionInfo) : UInt64 :=
  info.cachedTransaction.getTransactionFee

/-- `getTransactionBinaryArray().size()`, the `size_t` that goes to `mul128`. -/
def blobSize (info : PendingTransactionInfo) : UInt64 :=
  UInt64.ofNat (getObjectBinarySize info.cachedTransaction.transaction)

/-- The price the comparator means, as a rational number. -/
def feePerByte (info : PendingTransactionInfo) : ℚ :=
  (info.fee.toNat : ℚ) / info.blobSize.toNat

end PendingTransactionInfo

open PendingTransactionInfo

/-- `TransactionPriorityComparator::operator()`: whether `lhs` goes before `rhs`. -/
def transactionPriorityComparator (lhs rhs : PendingTransactionInfo) : Bool :=
  let (lhsLo, lhsHi) := mul128 lhs.fee rhs.blobSize
  let (rhsLo, rhsHi) := mul128 rhs.fee lhs.blobSize
  -- prefer more profitable transactions
  lhsHi > rhsHi || (lhsHi == rhsHi && lhsLo > rhsLo) ||
  -- prefer smaller
  (lhsHi == rhsHi && lhsLo == rhsLo && lhs.blobSize < rhs.blobSize) ||
  -- prefer older
  (lhsHi == rhsHi && lhsLo == rhsLo && lhs.blobSize == rhs.blobSize && lhs.receiveTime < rhs.receiveTime)

section Order

variable {lhs rhs : PendingTransactionInfo}

theorem transactionPriorityComparator_eq_true_iff :
    transactionPriorityComparator lhs rhs = true ↔
      rhs.fee.toNat * lhs.blobSize.toNat < lhs.fee.toNat * rhs.blobSize.toNat ∨
      lhs.fee.toNat * rhs.blobSize.toNat = rhs.fee.toNat * lhs.blobSize.toNat ∧
        (lhs.blobSize.toNat < rhs.blobSize.toNat ∨
          lhs.blobSize.toNat = rhs.blobSize.toNat ∧ lhs.receiveTime.toNat < rhs.receiveTime.toNat) := by
  have hlhs := mul128_toNat lhs.fee rhs.blobSize
  have hrhs := mul128_toNat rhs.fee lhs.blobSize
  unfold transactionPriorityComparator
  generalize mul128 lhs.fee rhs.blobSize = lhsProduct at hlhs
  generalize mul128 rhs.fee lhs.blobSize = rhsProduct at hrhs
  obtain ⟨lhsLo, lhsHi⟩ := lhsProduct
  obtain ⟨rhsLo, rhsHi⟩ := rhsProduct
  have hlo := lhsLo.toNat_lt
  have hlo' := rhsLo.toNat_lt
  simp only [Bool.or_eq_true, Bool.and_eq_true, decide_eq_true_eq, beq_iff_eq, UInt64.lt_iff_toNat_lt,
    ← UInt64.toNat_inj] at hlhs hrhs ⊢
  -- the products are atoms for omega; the words are bounded
  generalize lhs.fee.toNat * rhs.blobSize.toNat = lhsValue at *
  generalize rhs.fee.toNat * lhs.blobSize.toNat = rhsValue at *
  omega

theorem transactionPriorityComparator_eq_true_iff_feePerByte (hlhs : 0 < lhs.blobSize.toNat)
    (hrhs : 0 < rhs.blobSize.toNat) :
    transactionPriorityComparator lhs rhs = true ↔
      rhs.feePerByte < lhs.feePerByte ∨ lhs.feePerByte = rhs.feePerByte ∧
        (lhs.blobSize.toNat < rhs.blobSize.toNat ∨
          lhs.blobSize.toNat = rhs.blobSize.toNat ∧ lhs.receiveTime.toNat < rhs.receiveTime.toNat) := by
  have hlhs' : (0 : ℚ) < lhs.blobSize.toNat := by exact_mod_cast hlhs
  have hrhs' : (0 : ℚ) < rhs.blobSize.toNat := by exact_mod_cast hrhs
  have hlt : rhs.feePerByte < lhs.feePerByte ↔ rhs.fee.toNat * lhs.blobSize.toNat < lhs.fee.toNat * rhs.blobSize.toNat := by
    rw [feePerByte, feePerByte, div_lt_div_iff₀ hrhs' hlhs']
    exact_mod_cast Iff.rfl
  have heq : lhs.feePerByte = rhs.feePerByte ↔ lhs.fee.toNat * rhs.blobSize.toNat = rhs.fee.toNat * lhs.blobSize.toNat := by
    rw [feePerByte, feePerByte, div_eq_div_iff hlhs'.ne' hrhs'.ne']
    exact_mod_cast Iff.rfl
  rw [transactionPriorityComparator_eq_true_iff, hlt, heq]

theorem incomparable_iff (hlhs : 0 < lhs.blobSize.toNat) (hrhs : 0 < rhs.blobSize.toNat) :
    (transactionPriorityComparator lhs rhs = false ∧ transactionPriorityComparator rhs lhs = false) ↔
      lhs.feePerByte = rhs.feePerByte ∧ lhs.blobSize.toNat = rhs.blobSize.toNat ∧
        lhs.receiveTime.toNat = rhs.receiveTime.toNat := by
  rw [← Bool.not_eq_true, ← Bool.not_eq_true, transactionPriorityComparator_eq_true_iff_feePerByte hlhs hrhs,
    transactionPriorityComparator_eq_true_iff_feePerByte hrhs hlhs]
  constructor
  · rintro ⟨hnot, hnot'⟩
    have hprice : lhs.feePerByte = rhs.feePerByte := by
      rcases lt_trichotomy lhs.feePerByte rhs.feePerByte with hless | hsame | hmore
      · exact absurd (Or.inl hless) hnot'
      · exact hsame
      · exact absurd (Or.inl hmore) hnot
    refine ⟨hprice, ?_⟩
    have hkey : ¬(lhs.blobSize.toNat < rhs.blobSize.toNat ∨
        lhs.blobSize.toNat = rhs.blobSize.toNat ∧ lhs.receiveTime.toNat < rhs.receiveTime.toNat) :=
      fun h => hnot (Or.inr ⟨hprice, h⟩)
    have hkey' : ¬(rhs.blobSize.toNat < lhs.blobSize.toNat ∨
        rhs.blobSize.toNat = lhs.blobSize.toNat ∧ rhs.receiveTime.toNat < lhs.receiveTime.toNat) :=
      fun h => hnot' (Or.inr ⟨hprice.symm, h⟩)
    omega
  · rintro ⟨hprice, hsize, htime⟩
    refine ⟨?_, ?_⟩ <;> rintro (hless | ⟨-, hkey⟩)
    · exact (lt_irrefl _ (hprice ▸ hless))
    · omega
    · exact (lt_irrefl _ (hprice ▸ hless))
    · omega

end Order

/-- A pool entry with a non-empty blob. -/
def NonEmptyPending : Type :=
  {info : PendingTransactionInfo // 0 < info.blobSize.toNat}

/-- On non-empty blobs the pool's comparator puts first the higher fee per byte as a rational
number, then the smaller blob, then the earlier receive time; so it is a strict weak order. -/
theorem transactionPriorityComparator_strict_weak_order :
    (∀ lhs rhs : PendingTransactionInfo, 0 < lhs.blobSize.toNat → 0 < rhs.blobSize.toNat →
      (transactionPriorityComparator lhs rhs = true ↔
        rhs.feePerByte < lhs.feePerByte ∨ lhs.feePerByte = rhs.feePerByte ∧
          (lhs.blobSize.toNat < rhs.blobSize.toNat ∨
            lhs.blobSize.toNat = rhs.blobSize.toNat ∧ lhs.receiveTime.toNat < rhs.receiveTime.toNat))) ∧
    IsStrictWeakOrder NonEmptyPending fun lhs rhs => transactionPriorityComparator lhs.1 rhs.1 = true := by
  refine ⟨fun lhs rhs hlhs hrhs => transactionPriorityComparator_eq_true_iff_feePerByte hlhs hrhs, ?_⟩
  have hiff (x y : NonEmptyPending) := transactionPriorityComparator_eq_true_iff_feePerByte x.2 y.2
  have hirrefl : Std.Irrefl fun x y : NonEmptyPending => transactionPriorityComparator x.1 y.1 = true := by
    constructor
    intro x hx
    rw [hiff] at hx
    rcases hx with hless | ⟨-, hkey⟩
    · exact lt_irrefl _ hless
    · omega
  have htrans : IsTrans NonEmptyPending fun x y => transactionPriorityComparator x.1 y.1 = true := by
    constructor
    intro x y z hxy hyz
    rw [hiff] at hxy hyz ⊢
    rcases hxy with hxy | ⟨hxy, hkey⟩ <;> rcases hyz with hyz | ⟨hyz, hkey'⟩
    · exact Or.inl (hyz.trans hxy)
    · exact Or.inl (hyz ▸ hxy)
    · exact Or.inl (hxy ▸ hyz)
    · exact Or.inr ⟨hxy.trans hyz, by omega⟩
  refine @IsStrictWeakOrder.mk _ _ (@IsStrictOrder.mk _ _ hirrefl htrans) ?_
  intro x y z hxy hyz
  simp only [Bool.not_eq_true] at hxy hyz ⊢
  rw [incomparable_iff x.2 y.2] at hxy
  rw [incomparable_iff y.2 z.2] at hyz
  rw [incomparable_iff x.2 z.2]
  exact ⟨hxy.1.trans hyz.1, hxy.2.1.trans hyz.2.1, hxy.2.2.trans hyz.2.2⟩

/-- Two copies of the empty version 1 transaction, received at 1 and at 2. -/
theorem transactionPriorityComparator_strict_weak_order_empty :
    let info : UInt64 → PendingTransactionInfo := fun receiveTime =>
      ⟨receiveTime, ⟨⟨⟨1, 0, [], [], []⟩, []⟩, ⟨Vector.replicate 32 0⟩⟩⟩
    0 < (info 1).blobSize.toNat ∧ 0 < (info 2).blobSize.toNat ∧
      (transactionPriorityComparator (info 1) (info 2) = true ↔
        (info 2).feePerByte < (info 1).feePerByte ∨ (info 1).feePerByte = (info 2).feePerByte ∧
          ((info 1).blobSize.toNat < (info 2).blobSize.toNat ∨
            (info 1).blobSize.toNat = (info 2).blobSize.toNat ∧ (info 1).receiveTime.toNat < (info 2).receiveTime.toNat)) :=
  have hsize : 0 < (UInt64.ofNat (getObjectBinarySize ⟨⟨1, 0, [], [], []⟩, []⟩)).toNat := by decide +kernel
  ⟨hsize, hsize, transactionPriorityComparator_strict_weak_order.1 _ _ hsize hsize⟩

end Crygcoin
