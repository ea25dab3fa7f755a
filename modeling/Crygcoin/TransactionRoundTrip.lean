import Crygcoin.TransactionSerialization

namespace Crygcoin

@[simp] theorem readVarintUInt8_write (x : UInt8) (rest : List UInt8) :
    readVarintUInt8 (writeVarint x.toNat ++ rest) = some (x, rest) := by
  simp [readVarintUInt8, readVarint_writeVarint x.toNat_lt]

@[simp] theorem readVarintUInt32_write (x : UInt32) (rest : List UInt8) :
    readVarintUInt32 (writeVarint x.toNat ++ rest) = some (x, rest) := by
  simp [readVarintUInt32, readVarint_writeVarint x.toNat_lt]

@[simp] theorem readVarintUInt64_write (x : UInt64) (rest : List UInt8) :
    readVarintUInt64 (writeVarint x.toNat ++ rest) = some (x, rest) := by
  simp [readVarintUInt64, readVarint_writeVarint x.toNat_lt]

theorem readVarintUInt8_exact : Exact (fun x : UInt8 => writeVarint x.toNat) readVarintUInt8 := by
  intro input x rest h
  obtain ⟨⟨v, rest'⟩, hv, he⟩ := Option.map_eq_some_iff.mp h
  obtain ⟨rfl, rfl⟩ := Prod.mk.inj he
  obtain ⟨hlt, rfl⟩ := readVarint_exact (by decide) hv
  simp only [UInt8.toNat_ofNat_of_lt' hlt]

theorem readVarintUInt32_exact : Exact (fun x : UInt32 => writeVarint x.toNat) readVarintUInt32 := by
  intro input x rest h
  obtain ⟨⟨v, rest'⟩, hv, he⟩ := Option.map_eq_some_iff.mp h
  obtain ⟨rfl, rfl⟩ := Prod.mk.inj he
  obtain ⟨hlt, rfl⟩ := readVarint_exact (by decide) hv
  simp only [UInt32.toNat_ofNat_of_lt' hlt]

theorem readVarintUInt64_exact : Exact (fun x : UInt64 => writeVarint x.toNat) readVarintUInt64 := by
  intro input x rest h
  obtain ⟨⟨v, rest'⟩, hv, he⟩ := Option.map_eq_some_iff.mp h
  obtain ⟨rfl, rfl⟩ := Prod.mk.inj he
  obtain ⟨hlt, rfl⟩ := readVarint_exact (by decide) hv
  simp only [UInt64.toNat_ofNat_of_lt' hlt]

section Containers

variable {α : Type} {write : α → List UInt8} {read : List UInt8 → Option (α × List UInt8)}

theorem readContainer_write {p : α → Prop} (h : Inverts p write read) {xs : List α}
    (hl : xs.length < 2 ^ 64) (hp : ∀ x ∈ xs, p x) (rest : List UInt8) :
    readContainer read (writeContainer write xs ++ rest) = some (xs, rest) := by
  simp only [readContainer, writeContainer, List.append_assoc, readVarint_writeVarint hl,
    Option.bind_eq_bind, Option.bind_some]
  exact readCount_inverts h xs hp rest

theorem readContainer_exact (h : Exact write read) {input rest : List UInt8} {xs : List α}
    (hr : readContainer read input = some (xs, rest)) :
    xs.length < 2 ^ 64 ∧ input = writeContainer write xs ++ rest := by
  simp only [readContainer, Option.bind_eq_bind, Option.bind_eq_some_iff] at hr
  obtain ⟨⟨size, mid⟩, hs, hc⟩ := hr
  obtain ⟨hlt, rfl⟩ := readVarint_exact (by decide) hs
  obtain ⟨hl, rfl⟩ := readCount_exact h size hc
  subst hl
  exact ⟨hlt, by simp [writeContainer]⟩

end Containers

theorem readString_write {bytes : List UInt8} (hl : bytes.length < 2 ^ 64) (rest : List UInt8) :
    readString (writeString bytes ++ rest) = some (bytes, rest) := by
  simp [readString, writeString, List.append_assoc, readVarint_writeVarint hl]

theorem readString_exact {input bytes rest : List UInt8} (h : readString input = some (bytes, rest)) :
    bytes.length < 2 ^ 64 ∧ input = writeString bytes ++ rest := by
  simp only [readString, Option.bind_eq_bind, Option.bind_eq_some_iff] at h
  obtain ⟨⟨size, mid⟩, hs, hf⟩ := h
  obtain ⟨hlt, rfl⟩ := readVarint_exact (by decide) hs
  obtain ⟨hl, rfl⟩ := readFixed_exact hf
  subst hl
  exact ⟨hlt, by simp [writeString]⟩

theorem readKeyInput_write {input : KeyInput} (hl : input.outputIndexes.length < 2 ^ 64)
    (rest : List UInt8) : readKeyInput (writeKeyInput input ++ rest) = some (input, rest) := by
  have hidx := readContainer_write (p := fun _ => True) (fun x _ rest => readVarintUInt32_write x rest)
    hl (by simp)
    (input.keyImage.data.toList ++ rest)
  simp [readKeyInput, writeKeyInput, List.append_assoc, hidx]

theorem readKeyInput_exact {input rest : List UInt8} {keyInput : KeyInput}
    (h : readKeyInput input = some (keyInput, rest)) :
    keyInput.outputIndexes.length < 2 ^ 64 ∧ input = writeKeyInput keyInput ++ rest := by
  simp only [readKeyInput, Option.bind_eq_bind, Option.bind_eq_some_iff] at h
  obtain ⟨⟨amount, mid₁⟩, ha, ⟨outputIndexes, mid₂⟩, hi, ⟨keyImage, mid₃⟩, hk, he⟩ := h
  dsimp only at hi hk
  simp only [pure, Option.some.injEq, Prod.mk.injEq] at he
  obtain ⟨rfl, rfl⟩ := he
  obtain ⟨hl, hmid⟩ := readContainer_exact readVarintUInt32_exact hi
  refine ⟨hl, ?_⟩
  rw [readVarintUInt64_exact ha, hmid, readVector_exact hk]
  simp [writeKeyInput]

theorem readTransactionInput_write {txInput : TransactionInput}
    (hl : ∀ keyInput, txInput = .keyInput keyInput → keyInput.outputIndexes.length < 2 ^ 64)
    (rest : List UInt8) :
    readTransactionInput (writeTransactionInput txInput ++ rest) = some (txInput, rest) := by
  cases txInput with
  | baseInput input => simp [readTransactionInput, writeTransactionInput]
  | keyInput input =>
    simp [readTransactionInput, writeTransactionInput, readKeyInput_write (hl input rfl)]

theorem readTransactionInput_exact {input rest : List UInt8} {txInput : TransactionInput}
    (h : readTransactionInput input = some (txInput, rest)) :
    (∀ keyInput, txInput = .keyInput keyInput → keyInput.outputIndexes.length < 2 ^ 64) ∧
      input = writeTransactionInput txInput ++ rest := by
  cases input with
  | nil => simp [readTransactionInput] at h
  | cons tag input =>
    simp only [readTransactionInput] at h
    split at h
    next hb =>
      obtain ⟨⟨blockIndex, mid⟩, hr, he⟩ := Option.map_eq_some_iff.mp h
      obtain ⟨rfl, rfl⟩ := Prod.mk.inj he
      refine ⟨by simp, ?_⟩
      rw [hb, readVarintUInt32_exact hr]
      simp [writeTransactionInput]
    next =>
      split at h
      next hk =>
        obtain ⟨⟨keyInput, mid⟩, hr, he⟩ := Option.map_eq_some_iff.mp h
        obtain ⟨rfl, rfl⟩ := Prod.mk.inj he
        obtain ⟨hl, hi⟩ := readKeyInput_exact hr
        refine ⟨by simpa using hl, ?_⟩
        rw [hk, hi]
        simp [writeTransactionInput]
      next => simp at h

theorem readTransactionOutput_write (output : TransactionOutput) (rest : List UInt8) :
    readTransactionOutput (writeTransactionOutput output ++ rest) = some (output, rest) := by
  obtain ⟨amount, ⟨⟨key⟩⟩⟩ := output
  simp [readTransactionOutput, writeTransactionOutput, writeTransactionOutputTarget,
    readTransactionOutputTarget, List.append_assoc]

theorem readTransactionOutput_exact : Exact writeTransactionOutput readTransactionOutput := by
  intro input output rest h
  simp only [readTransactionOutput, Option.bind_eq_bind, Option.bind_eq_some_iff] at h
  obtain ⟨⟨amount, mid₁⟩, ha, ⟨target, mid₂⟩, ht, he⟩ := h
  dsimp only at ht
  simp only [pure, Option.some.injEq, Prod.mk.injEq] at he
  obtain ⟨rfl, rfl⟩ := he
  rw [readVarintUInt64_exact ha]
  cases mid₁ with
  | nil => simp [readTransactionOutputTarget] at ht
  | cons tag mid =>
    simp only [readTransactionOutputTarget] at ht
    split at ht
    next htag =>
      obtain ⟨⟨key, rest'⟩, hr, he⟩ := Option.map_eq_some_iff.mp ht
      obtain ⟨rfl, rfl⟩ := Prod.mk.inj he
      rw [htag, readVector_exact hr]
      simp [writeTransactionOutput, writeTransactionOutputTarget]
    next => simp at ht

theorem readTransactionPrefix_write {prefix_ : TransactionPrefix}
    (hv : prefix_.version ≤ CURRENT_TRANSACTION_VERSION) (hf : prefix_.SizesFit) (rest : List UInt8) :
    readTransactionPrefix (writeTransactionPrefix prefix_ ++ rest) = some (prefix_, rest) := by
  obtain ⟨hi, ho, he, hk⟩ := hf
  have hextra := readString_write he rest
  have houtputs := readContainer_write (p := fun _ => True)
    (fun x _ rest => readTransactionOutput_write x rest) ho (by simp) (writeString prefix_.extra ++ rest)
  have hinputs := readContainer_write (fun x hx rest => readTransactionInput_write hx rest) hi hk
    (writeContainer writeTransactionOutput prefix_.outputs ++ writeString prefix_.extra ++ rest)
  simp only [readTransactionPrefix, writeTransactionPrefix, List.append_assoc] at hinputs ⊢
  simp [hv, UInt8.not_lt, hinputs, houtputs, hextra]

theorem readTransactionPrefix_exact {input rest : List UInt8} {prefix_ : TransactionPrefix}
    (h : readTransactionPrefix input = some (prefix_, rest)) :
    input = writeTransactionPrefix prefix_ ++ rest := by
  simp only [readTransactionPrefix, Option.bind_eq_bind, Option.bind_eq_some_iff] at h
  obtain ⟨⟨version, mid₁⟩, hv, h⟩ := h
  dsimp only at h
  split at h
  · simp at h
  next =>
    simp only [Option.bind_eq_some_iff] at h
    obtain ⟨⟨unlockTime, mid₂⟩, hu, ⟨inputs, mid₃⟩, hi, ⟨outputs, mid₄⟩, ho, ⟨extra, mid₅⟩, he, hp⟩ := h
    dsimp only at hi ho he
    simp only [pure, Option.some.injEq, Prod.mk.injEq] at hp
    obtain ⟨rfl, rfl⟩ := hp
    have hinputs := (readContainer_exact (fun h => (readTransactionInput_exact h).2) hi).2
    rw [readVarintUInt8_exact hv, readVarintUInt64_exact hu, hinputs,
      (readContainer_exact readTransactionOutput_exact ho).2, (readString_exact he).2]
    simp [writeTransactionPrefix]

/-- The bytes of a signature section: every signature of every entry, in order. -/
def signatureBytes (signatures : List (List Signature)) : List UInt8 :=
  signatures.flatMap fun sigs => sigs.flatMap fun sig => sig.data.toList

theorem readSignature_write (sig : Signature) (rest : List UInt8) :
    readSignature (sig.data.toList ++ rest) = some (sig, rest) := by
  simp [readSignature]

theorem readSignature_exact : Exact (fun sig : Signature => sig.data.toList) readSignature := by
  intro input sig rest h
  obtain ⟨⟨data, rest'⟩, hr, he⟩ := Option.map_eq_some_iff.mp h
  obtain ⟨rfl, rfl⟩ := Prod.mk.inj he
  exact readVector_exact hr

theorem writeSignatureEntries_eq {inputs : List TransactionInput} {signatures : List (List Signature)}
    (h : List.Forall₂ (fun input sigs => sigs.length = getSignaturesCount input) inputs signatures) :
    writeSignatureEntries inputs signatures = some (signatureBytes signatures) := by
  induction h with
  | nil => rfl
  | @cons input sigs inputs signatures hl _ ih =>
    simp [writeSignatureEntries, hl, ih, signatureBytes]

theorem readSignatureEntries_write {inputs : List TransactionInput} {signatures : List (List Signature)}
    (h : List.Forall₂ (fun input sigs => sigs.length = getSignaturesCount input) inputs signatures)
    (rest : List UInt8) :
    readSignatureEntries inputs (signatureBytes signatures ++ rest) = some (signatures, rest) := by
  induction h with
  | nil => rfl
  | @cons input sigs inputs signatures hl _ ih =>
    have hsigs := readCount_inverts (p := fun _ => True) (fun x _ rest => readSignature_write x rest) sigs
      (by simp) (signatureBytes signatures ++ rest)
    rw [hl] at hsigs
    simp only [signatureBytes, List.flatMap_cons, List.append_assoc] at hsigs ih ⊢
    simp [readSignatureEntries, hsigs, ih]

theorem readSignatureEntries_exact :
    ∀ {inputs : List TransactionInput} {input rest : List UInt8} {signatures : List (List Signature)},
      readSignatureEntries inputs input = some (signatures, rest) →
      List.Forall₂ (fun input sigs => sigs.length = getSignaturesCount input) inputs signatures ∧
        input = signatureBytes signatures ++ rest := by
  intro inputs
  induction inputs with
  | nil =>
    intro input rest signatures h
    cases Option.some.inj h
    exact ⟨List.Forall₂.nil, rfl⟩
  | cons txInput inputs ih =>
    intro input rest signatures h
    simp only [readSignatureEntries, Option.bind_eq_bind, Option.bind_eq_some_iff] at h
    obtain ⟨⟨sigs, mid⟩, hs, ⟨tail, mid'⟩, ht, he⟩ := h
    dsimp only at ht
    simp only [pure, Option.some.injEq, Prod.mk.injEq] at he
    obtain ⟨rfl, rfl⟩ := he
    obtain ⟨hl, hmid⟩ := readCount_exact readSignature_exact _ hs
    obtain ⟨hf, htail⟩ := ih ht
    refine ⟨List.Forall₂.cons hl hf, ?_⟩
    rw [hmid, htail]
    simp [signatureBytes]

theorem isBaseInputOnly_count {inputs : List TransactionInput} (h : isBaseInputOnly inputs = true) :
    inputs.all (fun txInput => getSignaturesCount txInput == 0) = true := by
  match inputs, h with
  | [.baseInput _], _ => rfl

theorem writeTransactionSignatures_normal {tx : Transaction} (h : SignaturesNormal tx) :
    writeTransactionSignatures tx.inputs tx.signatures = some (signatureBytes tx.signatures) := by
  unfold SignaturesNormal at h
  split at h
  next hb =>
    rw [h]
    simp [writeTransactionSignatures, isBaseInputOnly_count hb, signatureBytes]
  next =>
    have hl := h.length_eq
    have he := writeSignatureEntries_eq h
    cases hs : tx.signatures with
    | nil =>
      rw [hs] at h
      rw [List.forall₂_nil_right_iff.mp h]
      rfl
    | cons sigs rest =>
      rw [hs] at he hl
      simp [writeTransactionSignatures, hl, he]

theorem readTransactionSignatures_normal {tx : Transaction} (h : SignaturesNormal tx) (rest : List UInt8) :
    readTransactionSignatures tx.inputs (signatureBytes tx.signatures ++ rest) = some (tx.signatures, rest) := by
  unfold SignaturesNormal at h
  split at h
  next hb =>
    rw [h]
    simp [readTransactionSignatures, hb, isBaseInputOnly_count hb, signatureBytes]
  next hb =>
    have hr := readSignatureEntries_write h rest
    cases hi : tx.inputs with
    | nil =>
      rw [hi] at h
      rw [List.forall₂_nil_left_iff.mp h]
      rfl
    | cons txInput inputs =>
      rw [hi] at hr hb
      simp [readTransactionSignatures, hb, hr]

theorem readTransactionSignatures_exact {inputs : List TransactionInput} {input rest : List UInt8}
    {signatures : List (List Signature)}
    (h : readTransactionSignatures inputs input = some (signatures, rest)) :
    writeTransactionSignatures inputs signatures = some (signatureBytes signatures) ∧
      input = signatureBytes signatures ++ rest := by
  unfold readTransactionSignatures at h
  by_cases hb : isBaseInputOnly inputs = true
  · simp only [hb, if_true, List.isEmpty_nil, isBaseInputOnly_count hb] at h
    obtain ⟨rfl, rfl⟩ := Prod.mk.inj (Option.some.inj h)
    simp [writeTransactionSignatures, isBaseInputOnly_count hb, signatureBytes]
  · cases inputs with
    | nil =>
      obtain ⟨rfl, rfl⟩ := Prod.mk.inj (Option.some.inj h)
      exact ⟨rfl, rfl⟩
    | cons txInput inputs =>
      simp only [hb, Bool.false_eq_true, if_false, List.length_cons, List.replicate_succ,
        List.isEmpty_cons] at h
      obtain ⟨hf, hi⟩ := readSignatureEntries_exact h
      refine ⟨?_, hi⟩
      have hl := hf.length_eq
      cases signatures with
      | nil => simp at hl
      | cons sigs tail =>
        simp only [List.length_cons, Nat.add_right_cancel_iff] at hl
        simp [writeTransactionSignatures, hl, writeSignatureEntries_eq hf]

theorem transaction_binary_roundtrip :
    (∀ tx : Transaction, tx.version ≤ CURRENT_TRANSACTION_VERSION → tx.SizesFit → SignaturesNormal tx →
      ∃ bytes, toBinaryArray tx = some bytes ∧ fromBinaryArray bytes = some tx) ∧
    (∀ bytes tx, fromBinaryArray bytes = some tx → toBinaryArray tx = some bytes) := by
  constructor
  · intro tx hv hf hs
    refine ⟨writeTransactionPrefix tx.toTransactionPrefix ++ signatureBytes tx.signatures, ?_, ?_⟩
    · simp [toBinaryArray, writeTransactionSignatures_normal hs]
    · have hp := readTransactionPrefix_write hv hf (signatureBytes tx.signatures)
      have hsig := readTransactionSignatures_normal hs []
      rw [List.append_nil] at hsig
      simp [fromBinaryArray, readTransaction, hp, hsig]
  · intro bytes tx h
    unfold fromBinaryArray at h
    split at h
    next tx' hr =>
      cases Option.some.inj h
      simp only [readTransaction, Option.bind_eq_bind, Option.bind_eq_some_iff] at hr
      obtain ⟨⟨prefix_, mid⟩, hp, ⟨signatures, rest⟩, hs, he⟩ := hr
      dsimp only at hs
      simp only [pure, Option.some.injEq, Prod.mk.injEq] at he
      obtain ⟨rfl, rfl⟩ := he
      obtain ⟨hw, hmid⟩ := readTransactionSignatures_exact hs
      simp [toBinaryArray, hw, readTransactionPrefix_exact hp, hmid]
    next => simp at h

theorem transaction_binary_roundtrip_keyInput :
    ∃ bytes, toBinaryArray ⟨⟨1, 0, [.keyInput ⟨100, [3, 1], ⟨Vector.replicate 32 7⟩⟩],
        [⟨90, .keyOutput ⟨⟨Vector.replicate 32 9⟩⟩⟩], [1, 2]⟩,
        [[⟨Vector.replicate 64 1⟩, ⟨Vector.replicate 64 2⟩]]⟩ = some bytes ∧
      fromBinaryArray bytes = some ⟨⟨1, 0, [.keyInput ⟨100, [3, 1], ⟨Vector.replicate 32 7⟩⟩],
        [⟨90, .keyOutput ⟨⟨Vector.replicate 32 9⟩⟩⟩], [1, 2]⟩,
        [[⟨Vector.replicate 64 1⟩, ⟨Vector.replicate 64 2⟩]]⟩ :=
  transaction_binary_roundtrip.1 _ (by decide)
    ⟨by decide, by decide, by decide, by simp⟩ (by simp [SignaturesNormal, isBaseInputOnly, getSignaturesCount])

end Crygcoin
