import Crygcoin.Core

namespace Crygcoin

/-! What a block that passes the checks of `addBlock` carries: the index after the previous block's,
a difficulty computed from the chain below it, key images unspent below it outside the checkpoint
zone, and the checkpoint's hash or a proof of work. -/

/-- A key image `validateTransaction` lets through at `blockIndex`: above the checkpoint zone it
is not spent on the chain up to `blockIndex`. -/
def CheckedUnspent (env : CoreEnvironment) (segments : List BlockchainCache) (blockIndex : Nat)
    (keyImage : KeyImage) : Prop :=
  env.checkpoints.isInCheckpointZone (blockIndex + 1) = false → checkIfSpent segments keyImage blockIndex = false

theorem TransactionValidatorState.insert_eq_some {state state' : TransactionValidatorState} {keyImage : KeyImage}
    (h : state.insert keyImage = some state') : state'.spentKeyImages = state.spentKeyImages ++ [keyImage] := by
  unfold TransactionValidatorState.insert at h
  split at h
  · cases h
  · cases h
    rfl

namespace Core

variable {env : CoreEnvironment} {segments : List BlockchainCache}

theorem baseInput_eq_ok {inputs : List TransactionInput} {input : BaseInput} :
    baseInput inputs = .ok input ↔ inputs = [.baseInput input] := by
  unfold baseInput
  split
  · simp
  · simp
  · rename_i hbase _
    simpa using fun heq => hbase input heq

theorem validateBlock_getBlockIndex {cachedBlock : CachedBlock} {previousBlockIndex : Nat} {reward : UInt64}
    (h : validateBlock env segments cachedBlock previousBlockIndex = .ok reward) :
    cachedBlock.getBlockIndex = previousBlockIndex + 1 := by
  simp only [validateBlock, bind_eq_ok, failIf_eq_ok, baseInput_eq_ok] at h
  obtain ⟨-, -, -, -, -, -, -, -, -, -, input, hinput, -, hindex, -⟩ := h
  rw [CachedBlock.getBlockIndex, hinput]
  exact not_not.mp hindex

theorem checkKeyInputAboveZone_eq_ok {cachedTransaction : CachedTransaction} {blockIndex inputIndex : Nat}
    {input : KeyInput} {u : Unit} (h : checkKeyInputAboveZone env segments cachedTransaction blockIndex inputIndex input = .ok u) :
    checkIfSpent segments input.keyImage blockIndex = false := by
  simp only [checkKeyInputAboveZone, bind_eq_ok, failIf_eq_ok] at h
  obtain ⟨-, hspent, -⟩ := h
  simpa using hspent

theorem validateInputs_checkedUnspent {cachedTransaction : CachedTransaction} {blockIndex : Nat} :
    ∀ {inputIndex : Nat} {state state' : TransactionValidatorState} {inputs : List TransactionInput},
      validateInputs env segments cachedTransaction blockIndex inputIndex state inputs = .ok state' →
      ∀ keyImage ∈ state'.spentKeyImages,
        keyImage ∈ state.spentKeyImages ∨ CheckedUnspent env segments blockIndex keyImage := by
  intro inputIndex state state' inputs h
  induction inputs generalizing inputIndex state with
  | nil =>
    simp only [validateInputs, pure_eq_ok] at h
    subst h
    exact fun keyImage hk => .inl hk
  | cons input inputs ih =>
    cases input with
    | baseInput _ => simp [validateInputs] at h
    | keyInput input =>
      simp only [validateInputs] at h
      cases hinsert : state.insert input.keyImage with
      | none => simp [hinsert] at h
      | some inserted =>
        simp only [hinsert, bind_eq_ok] at h
        obtain ⟨_, hzone, hrest⟩ := h
        intro keyImage hk
        rcases ih hrest keyImage hk with hk | hfresh
        · rw [TransactionValidatorState.insert_eq_some hinsert, List.mem_append, List.mem_singleton] at hk
          rcases hk with hk | rfl
          · exact .inl hk
          · -- the new key image: outside the zone the check above ran on it
            refine .inr fun hout => ?_
            rw [hout] at hzone
            exact checkKeyInputAboveZone_eq_ok hzone
        · exact .inr hfresh

theorem validateTransactions_checkedUnspent {blockIndex : Nat} :
    ∀ {state state' : TransactionValidatorState} {cumulativeFee fee : UInt64} {transactions : List CachedTransaction},
      validateTransactions env segments blockIndex state cumulativeFee transactions = .ok (state', fee) →
      ∀ keyImage ∈ state'.spentKeyImages,
        keyImage ∈ state.spentKeyImages ∨ CheckedUnspent env segments blockIndex keyImage := by
  intro state state' cumulativeFee fee transactions h
  induction transactions generalizing state cumulativeFee with
  | nil =>
    simp only [validateTransactions, pure_eq_ok, Prod.mk.injEq] at h
    obtain ⟨rfl, -⟩ := h
    exact fun keyImage hk => .inl hk
  | cons transaction transactions ih =>
    simp only [validateTransactions, bind_eq_ok, mapError_eq_ok] at h
    obtain ⟨⟨validated, transactionFee⟩, htransaction, hrest⟩ := h
    simp only [validateTransaction, bind_eq_ok, pure_eq_ok] at htransaction
    obtain ⟨_, -, inputsState, hinputs, hpair⟩ := htransaction
    cases hpair
    intro keyImage hk
    rcases ih hrest keyImage hk with hk | hfresh
    · exact validateInputs_checkedUnspent hinputs keyImage hk
    · exact .inr hfresh

theorem checkCheckpointOrProofOfWork_eq_ok {cachedBlock : CachedBlock} {currentDifficulty : UInt64} {u : Unit}
    (h : checkCheckpointOrProofOfWork env cachedBlock currentDifficulty = .ok u) :
    (env.checkpoints.isInCheckpointZone cachedBlock.getBlockIndex = true →
      env.checkpoints.checkBlock cachedBlock.getBlockIndex cachedBlock.blockHash = true) ∧
    (env.checkpoints.isInCheckpointZone cachedBlock.getBlockIndex = false →
      env.checkProofOfWork cachedBlock currentDifficulty = true) := by
  unfold checkCheckpointOrProofOfWork at h
  split at h
  · rename_i hzone
    rw [failIf_eq_ok, Bool.not_eq_false] at h
    exact ⟨fun _ => h, fun hout => absurd hzone (by simp [hout])⟩
  · rename_i hzone
    rw [failIf_eq_ok, Bool.not_eq_false] at h
    exact ⟨fun hin => absurd hin hzone, fun _ => h⟩

end Core

/-- What `addBlockChecks` established of a block it accepts: the segment holding the previous
block, the arguments of the push to come, and the outcome of each check the invariants of `Core`
depend on. -/
structure AddBlockChecked (env : CoreEnvironment) (state : CoreState) (cachedBlock : CachedBlock)
    (rawBlock : RawBlock) (accepted : AcceptedBlock) : Prop where
  notExists : Core.hasBlock state cachedBlock.blockHash = false
  found : Core.findSegmentContainingBlock state cachedBlock.block.previousBlockHash = some accepted.segment
  previous : ∃ cache, state.chainsStorage[accepted.segment]? = some cache ∧
    cache.getBlockIndex cachedBlock.block.previousBlockHash = some accepted.previousBlockIndex
  pushedCachedBlock : accepted.block.cachedBlock = cachedBlock
  pushedRawBlock : accepted.block.rawBlock = rawBlock
  blockIndex : cachedBlock.getBlockIndex = accepted.previousBlockIndex + 1
  blockDifficulty : accepted.block.blockDifficulty =
    getDifficultyForNextBlock env (segmentsOf state.chainsStorage accepted.segment) accepted.previousBlockIndex
  unspent : ∀ keyImage ∈ accepted.block.validatorState.spentKeyImages,
    CheckedUnspent env (segmentsOf state.chainsStorage accepted.segment) accepted.previousBlockIndex keyImage
  checkpoint : env.checkpoints.isInCheckpointZone cachedBlock.getBlockIndex = true →
    env.checkpoints.checkBlock cachedBlock.getBlockIndex cachedBlock.blockHash = true
  proofOfWork : env.checkpoints.isInCheckpointZone cachedBlock.getBlockIndex = false →
    env.checkProofOfWork cachedBlock accepted.block.blockDifficulty = true
  reward : ∃ fee reward emissionChange,
    env.getBlockReward cachedBlock.block.majorVersion
        (medianValue (getLastBlocksSizes (segmentsOf state.chainsStorage accepted.segment) env.rewardBlocksWindow
          accepted.previousBlockIndex true))
        accepted.block.blockSize
        (getAlreadyGeneratedCoins (segmentsOf state.chainsStorage accepted.segment) accepted.previousBlockIndex) fee =
      some (reward, emissionChange) ∧
    accepted.block.generatedCoins = emissionChange.toUInt64

namespace Core

theorem addBlockChecks_eq_ok {env : CoreEnvironment} {state : CoreState} {cachedBlock : CachedBlock}
    {rawBlock : RawBlock} {accepted : AcceptedBlock} (h : addBlockChecks env state cachedBlock rawBlock = .ok accepted) :
    AddBlockChecked env state cachedBlock rawBlock accepted := by
  simp only [addBlockChecks, bind_eq_ok, failIf_eq_ok] at h
  obtain ⟨_, hnew, h⟩ := h
  -- the lookups and the deserialization, each of which returns early on failure
  rcases hfound : findSegmentContainingBlock state cachedBlock.block.previousBlockHash with _ | p
  · simp [hfound] at h
  rcases hextract : extractTransactions env rawBlock.transactions with _ | ⟨transactions, cumulativeSize⟩
  · simp [hfound, hextract] at h
  rcases hcache : state.chainsStorage[p]? with _ | cache
  · simp [hfound, hextract, hcache] at h
  rcases hindex : cache.getBlockIndex cachedBlock.block.previousBlockHash with _ | previousBlockIndex
  · simp [hfound, hextract, hcache, hindex] at h
  simp only [hfound, hextract, hcache, hindex, bind_eq_ok, failIf_eq_ok] at h
  obtain ⟨_, -, reward, hvalid, _, hdifficulty, _, -, ⟨validatorState, fee⟩, htransactions, h⟩ := h
  rcases hreward : env.getBlockReward cachedBlock.block.majorVersion
      (medianValue (getLastBlocksSizes (segmentsOf state.chainsStorage p) env.rewardBlocksWindow previousBlockIndex true))
      (getObjectBinarySize cachedBlock.block.baseTransaction + cumulativeSize)
      (getAlreadyGeneratedCoins (segmentsOf state.chainsStorage p) previousBlockIndex) fee with _ | ⟨blockReward, emissionChange⟩
  · simp [hreward] at h
  simp only [hreward, bind_eq_ok, failIf_eq_ok, pure_eq_ok] at h
  obtain ⟨_, -, _, hcheck, rfl⟩ := h
  have hfinal := checkCheckpointOrProofOfWork_eq_ok hcheck
  exact ⟨by simpa using hnew, hfound, ⟨cache, hcache, hindex⟩, rfl, rfl, validateBlock_getBlockIndex hvalid, rfl,
    fun keyImage hk => (validateTransactions_checkedUnspent htransactions keyImage hk).resolve_left List.not_mem_nil,
    hfinal.1, hfinal.2, ⟨fee, blockReward, emissionChange, hreward, rfl⟩⟩

end Core

end Crygcoin
