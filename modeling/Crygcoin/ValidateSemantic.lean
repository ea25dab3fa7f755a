import Crygcoin.Core

namespace Crygcoin

/-! `Core::validateSemantic`, the checks of a transaction that read no chain, and
`relativeOutputOffsetsToAbsolute`, the sums that turn the output offsets of a key input into the
global indexes of its ring members. `validateTransaction` runs the same loop before
`extractKeyOutputKeys`, which requires the indexes sorted and unique. -/

def MAX_EXTRA_SIZE_V2 : Nat := 1024

def MAX_EXTRA_SIZE_V2_HEIGHT : Nat := 1300000

/-- The checks on curve points that `validateSemantic` calls. -/
structure SemanticChecks where
  checkKey : PublicKey → Bool
  /-- `scalarmultKey(keyImage, L) == I`: the key image lies in the prime-order subgroup. -/
  inKeyImageDomain : KeyImage → Bool

namespace Core

variable (checks : SemanticChecks)

/-- The output loop of `validateSemantic`: the sum of the amounts. -/
def sumOutputs : UInt64 → List TransactionOutput → Except TransactionValidationError UInt64
  | summaryOutputAmount, [] => pure summaryOutputAmount
  | summaryOutputAmount, output :: outputs => do
    failIf (output.amount = 0) .outputZeroAmount
    let .keyOutput keyOutput := output.target
    failIf (checks.checkKey keyOutput.key = false) .outputInvalidKey
    failIf (UInt64.ofNat (2 ^ 64 - 1) - output.amount < summaryOutputAmount) .outputsAmountOverflow
    sumOutputs (summaryOutputAmount + output.amount) outputs

/-- The checks of one key input, with the key images of the inputs before it: the offsets after
the first must not be zero, the first may. -/
def checkKeyInputSemantic (keyImages : List KeyImage) (input : KeyInput) : Except TransactionValidationError Unit := do
  failIf (input.keyImage ∈ keyImages) .inputIdenticalKeyimages
  failIf (input.outputIndexes = []) .inputEmptyOutputUsage
  failIf (checks.inKeyImageDomain input.keyImage = false) .inputInvalidDomainKeyimages
  failIf (0 ∈ input.outputIndexes.tail) .inputIdenticalOutputIndexes

/-- The input loop of `validateSemantic`: the sum of the amounts, with the set `ki` of the key
images seen. -/
def sumInputs : List KeyImage → UInt64 → List TransactionInput → Except TransactionValidationError UInt64
  | _, summaryInputAmount, [] => pure summaryInputAmount
  | keyImages, summaryInputAmount, .keyInput input :: inputs => do
    checkKeyInputSemantic checks keyImages input
    failIf (UInt64.ofNat (2 ^ 64 - 1) - input.amount < summaryInputAmount) .inputsAmountOverflow
    sumInputs (keyImages ++ [input.keyImage]) (summaryInputAmount + input.amount) inputs
  | _, _, .baseInput _ :: _ => throw .inputUnknownType

/-- `validateSemantic`: it returns the fee. -/
def validateSemantic (transaction : Transaction) (blockIndex : Nat) : Except TransactionValidationError UInt64 := do
  failIf (transaction.inputs = []) .emptyInputs
  failIf (blockIndex ≥ MAX_EXTRA_SIZE_V2_HEIGHT + CRYPTONOTE_MINED_MONEY_UNLOCK_WINDOW ∧
    transaction.extra.length ≥ MAX_EXTRA_SIZE_V2) .extraTooLarge
  let summaryOutputAmount ← sumOutputs checks 0 transaction.outputs
  let summaryInputAmount ← sumInputs checks [] 0 transaction.inputs
  failIf (summaryOutputAmount > summaryInputAmount) .wrongAmount
  pure (summaryInputAmount - summaryOutputAmount)

theorem checkKeyInputSemantic_eq_ok {keyImages : List KeyImage} {input : KeyInput} {u : Unit}
    (h : checkKeyInputSemantic checks keyImages input = .ok u) :
    input.outputIndexes ≠ [] ∧ 0 ∉ input.outputIndexes.tail := by
  simp only [checkKeyInputSemantic, bind_eq_ok, failIf_eq_ok] at h
  obtain ⟨_, -, _, hne, _, -, hzero⟩ := h
  exact ⟨hne, hzero⟩

theorem sumInputs_keyInput {input : KeyInput} :
    ∀ {keyImages : List KeyImage} {summaryInputAmount total : UInt64} {inputs : List TransactionInput},
      sumInputs checks keyImages summaryInputAmount inputs = .ok total → .keyInput input ∈ inputs →
        input.outputIndexes ≠ [] ∧ 0 ∉ input.outputIndexes.tail := by
  intro keyImages summaryInputAmount total inputs h hin
  induction inputs generalizing keyImages summaryInputAmount with
  | nil => cases hin
  | cons first inputs ih =>
    cases first with
    | baseInput _ => simp [sumInputs] at h
    | keyInput first =>
      simp only [sumInputs, bind_eq_ok, failIf_eq_ok] at h
      obtain ⟨_, hfirst, _, -, hrest⟩ := h
      rcases List.mem_cons.mp hin with heq | hin
      · cases heq
        exact checkKeyInputSemantic_eq_ok checks hfirst
      · exact ih hrest hin

theorem validateSemantic_keyInput {transaction : Transaction} {blockIndex : Nat} {fee : UInt64} {input : KeyInput}
    (h : validateSemantic checks transaction blockIndex = .ok fee) (hin : .keyInput input ∈ transaction.inputs) :
    input.outputIndexes ≠ [] ∧ 0 ∉ input.outputIndexes.tail := by
  simp only [validateSemantic, bind_eq_ok, failIf_eq_ok] at h
  obtain ⟨_, -, _, -, _, -, _, hinputs, -⟩ := h
  exact sumInputs_keyInput checks hinputs hin

end Core

/-- The indexes after `previous`: each offset added to the index before it, in `uint32_t`. -/
def absoluteFrom (previous : UInt32) : List UInt32 → List UInt32
  | [] => []
  | offset :: offsets => (previous + offset) :: absoluteFrom (previous + offset) offsets

/-- `relativeOutputOffsetsToAbsolute`, and the loop of `validateTransaction` that fills
`globalIndexes`: the first offset as it is, then `res[i] += res[i - 1]`. -/
def relativeOutputOffsetsToAbsolute : List UInt32 → List UInt32
  | [] => []
  | first :: offsets => first :: absoluteFrom first offsets

theorem lt_add_iff_no_wrap {previous offset : UInt32} (h : offset ≠ 0) :
    previous < previous + offset ↔ previous.toNat + offset.toNat < 2 ^ 32 := by
  have hoffset : offset.toNat ≠ 0 := fun h0 => h (UInt32.toNat_inj.mp h0)
  have := previous.toNat_lt
  have := offset.toNat_lt
  rw [UInt32.lt_iff_toNat_lt, UInt32.toNat_add]
  omega

theorem absoluteFrom_isChain_iff {previous : UInt32} {offsets : List UInt32} (h : ∀ offset ∈ offsets, offset ≠ 0) :
    (previous :: absoluteFrom previous offsets).IsChain (· < ·) ↔
      previous.toNat + (offsets.map UInt32.toNat).sum < 2 ^ 32 := by
  induction offsets generalizing previous with
  | nil => simp [absoluteFrom, previous.toNat_lt]
  | cons offset offsets ih =>
    have hoffset := h offset List.mem_cons_self
    rw [absoluteFrom, List.isChain_cons_cons, ih (fun o ho => h o (List.mem_cons_of_mem _ ho)),
      lt_add_iff_no_wrap hoffset, List.map_cons, List.sum_cons]
    by_cases hwrap : previous.toNat + offset.toNat < 2 ^ 32
    · rw [UInt32.toNat_add, Nat.mod_eq_of_lt hwrap]
      omega
    · constructor
      · rintro ⟨hlt, -⟩
        exact absurd hlt hwrap
      · intro hsum
        omega

theorem relativeOutputOffsetsToAbsolute_pairwise_iff {offsets : List UInt32} (hne : offsets ≠ [])
    (hzero : 0 ∉ offsets.tail) :
    (relativeOutputOffsetsToAbsolute offsets).Pairwise (· < ·) ↔ (offsets.map UInt32.toNat).sum < 2 ^ 32 := by
  obtain ⟨first, offsets, rfl⟩ := List.exists_cons_of_ne_nil hne
  have hnonzero : ∀ offset ∈ offsets, offset ≠ 0 := fun offset ho heq => hzero (heq ▸ ho)
  rw [relativeOutputOffsetsToAbsolute, ← List.isChain_iff_pairwise, absoluteFrom_isChain_iff hnonzero,
    List.map_cons, List.sum_cons]

/-- The ring members of a key input that `validateSemantic` accepts are sorted and unique exactly
when its offsets add up to less than `2^32`: the check that no offset after the first is zero
gives strict increase only while the `uint32_t` sums do not wrap. -/
theorem validateSemantic_ring_members_increasing_iff (checks : SemanticChecks) {transaction : Transaction}
    {blockIndex : Nat} {fee : UInt64} {input : KeyInput}
    (h : Core.validateSemantic checks transaction blockIndex = .ok fee) (hin : .keyInput input ∈ transaction.inputs) :
    (relativeOutputOffsetsToAbsolute input.outputIndexes).Pairwise (· < ·) ↔
      (input.outputIndexes.map UInt32.toNat).sum < 2 ^ 32 := by
  obtain ⟨hne, hzero⟩ := Core.validateSemantic_keyInput checks h hin
  exact relativeOutputOffsetsToAbsolute_pairwise_iff hne hzero

end Crygcoin
