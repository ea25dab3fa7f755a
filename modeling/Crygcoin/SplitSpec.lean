import Crygcoin.PushBlockSpec

namespace Crygcoin

namespace BlockchainCache

/-! What `split` does to the output index: `splitGlobalIndexes` cuts each amount's entry at the
first output of a block at or above the split. -/

section SplitGlobalIndexes

variable (splitBlockIndex : Nat)

theorem take_length_takeWhile (outputs : List PackedOutIndex) :
    outputs.take (outputs.takeWhile (·.blockIndex < splitBlockIndex)).length =
      outputs.takeWhile (·.blockIndex < splitBlockIndex) := by
  induction outputs with
  | nil => rfl
  | cons output outputs ih =>
    by_cases hlt : output.blockIndex < splitBlockIndex <;> simp [hlt, ih]

/-- The part of an entry kept by the lower segment. -/
def lowerEntry (entry : OutputGlobalIndexesForAmount) : Option OutputGlobalIndexesForAmount :=
  match entry.outputs.takeWhile (·.blockIndex < splitBlockIndex) with
  | [] => none
  | outputs => some { entry with outputs := outputs }

/-- The part of an entry moved to the upper segment, counted on from the lower part. -/
def upperEntry (entry : OutputGlobalIndexesForAmount) : Option OutputGlobalIndexesForAmount :=
  let lowerBound := (entry.outputs.takeWhile (·.blockIndex < splitBlockIndex)).length
  match entry.outputs.drop lowerBound with
  | [] => none
  | outputs => some ⟨entry.startIndex + lowerBound, outputs⟩

theorem splitGlobalIndexes_cons (amount : UInt64) (entry : OutputGlobalIndexesForAmount)
    (rest : List (UInt64 × OutputGlobalIndexesForAmount)) :
    splitGlobalIndexes splitBlockIndex ((amount, entry) :: rest) =
      ((match lowerEntry splitBlockIndex entry with
        | none => (splitGlobalIndexes splitBlockIndex rest).1
        | some lower => (amount, lower) :: (splitGlobalIndexes splitBlockIndex rest).1),
       (match upperEntry splitBlockIndex entry with
        | none => (splitGlobalIndexes splitBlockIndex rest).2
        | some upper => (amount, upper) :: (splitGlobalIndexes splitBlockIndex rest).2)) := by
  have hle : (entry.outputs.takeWhile (·.blockIndex < splitBlockIndex)).length ≤ entry.outputs.length :=
    (List.takeWhile_sublist _).length_le
  simp only [splitGlobalIndexes, lowerEntry, upperEntry, take_length_takeWhile]
  congr 1
  · cases entry.outputs.takeWhile (·.blockIndex < splitBlockIndex) <;> rfl
  · have hstart : entry.startIndex + entry.outputs.length -
        (entry.outputs.length - (entry.outputs.takeWhile (·.blockIndex < splitBlockIndex)).length) =
        entry.startIndex + (entry.outputs.takeWhile (·.blockIndex < splitBlockIndex)).length := by
      omega
    rw [hstart]
    cases entry.outputs.drop (entry.outputs.takeWhile (·.blockIndex < splitBlockIndex)).length <;> rfl

theorem lookup_splitGlobalIndexes {entries : List (UInt64 × OutputGlobalIndexesForAmount)}
    (hnodup : (entries.map Prod.fst).Nodup) (amount : UInt64) :
    (splitGlobalIndexes splitBlockIndex entries).1.lookup amount = (entries.lookup amount).bind (lowerEntry splitBlockIndex) ∧
      (splitGlobalIndexes splitBlockIndex entries).2.lookup amount =
        (entries.lookup amount).bind (upperEntry splitBlockIndex) := by
  induction entries with
  | nil => exact ⟨rfl, rfl⟩
  | cons e rest ih =>
    obtain ⟨key, entry⟩ := e
    obtain ⟨hkey, hrest⟩ := List.nodup_cons.mp hnodup
    obtain ⟨ih1, ih2⟩ := ih hrest
    rw [splitGlobalIndexes_cons]
    by_cases hamount : amount = key
    · subst hamount
      -- the amount has no other entry, so the parts of this one are all there is
      have hnone : rest.lookup amount = none := by
        refine List.lookup_eq_none_iff.mpr fun p hp => ?_
        have hne : p.1 ≠ amount := fun h => hkey (h ▸ List.mem_map.mpr ⟨p, hp, rfl⟩)
        simpa only [bne_iff_ne, ne_eq] using Ne.symm hne
      simp only [hnone, Option.bind_none] at ih1 ih2
      constructor
      · cases hl : lowerEntry splitBlockIndex entry <;> simp [ih1, hl]
      · cases hu : upperEntry splitBlockIndex entry <;> simp [ih2, hu]
    · have hb : (amount == key) = false := beq_false_of_ne hamount
      constructor
      · cases hl : lowerEntry splitBlockIndex entry <;> simp [List.lookup_cons, hb, ih1]
      · cases hu : upperEntry splitBlockIndex entry <;> simp [List.lookup_cons, hb, ih2]

theorem splitGlobalIndexes_keys (entries : List (UInt64 × OutputGlobalIndexesForAmount)) :
    ((splitGlobalIndexes splitBlockIndex entries).1.map Prod.fst).Sublist (entries.map Prod.fst) ∧
      ((splitGlobalIndexes splitBlockIndex entries).2.map Prod.fst).Sublist (entries.map Prod.fst) := by
  induction entries with
  | nil => exact ⟨List.Sublist.refl _, List.Sublist.refl _⟩
  | cons e rest ih =>
    obtain ⟨key, entry⟩ := e
    rw [splitGlobalIndexes_cons]
    constructor
    · cases lowerEntry splitBlockIndex entry with
      | none => exact ih.1.cons _
      | some lower => exact ih.1.cons_cons _
    · cases upperEntry splitBlockIndex entry with
      | none => exact ih.2.cons _
      | some upper => exact ih.2.cons_cons _

theorem splitGlobalIndexes_model {cache : BlockchainCache} {below : UInt64 → Nat}
    {ownLow ownHigh : List (PackedOutIndex × UInt64)} (h : KeyOutputsModel cache below (ownLow ++ ownHigh))
    (hlow : ∀ output ∈ ownLow, output.1.blockIndex < splitBlockIndex)
    (hhigh : ∀ output ∈ ownHigh, splitBlockIndex ≤ output.1.blockIndex) (amount : UInt64) :
    (splitGlobalIndexes splitBlockIndex cache.keyOutputsGlobalIndexes).1.lookup amount =
        expectedEntry below ownLow amount ∧
      (splitGlobalIndexes splitBlockIndex cache.keyOutputsGlobalIndexes).2.lookup amount =
        expectedEntry (fun amount => below amount + (outputsOfAmount ownLow amount).length) ownHigh amount := by
  obtain ⟨h1, h2⟩ := lookup_splitGlobalIndexes splitBlockIndex h.nodup amount
  have hfind := h.find amount
  rw [findKeyOutputs] at hfind
  rw [h1, h2, hfind]
  have htake : (outputsOfAmount ownLow amount ++ outputsOfAmount ownHigh amount).takeWhile
      (·.blockIndex < splitBlockIndex) = outputsOfAmount ownLow amount := by
    rw [List.takeWhile_append_of_pos, takeWhile_of_forall_not, List.append_nil]
    · intro output ho
      exact hhigh _ (mem_outputsOfAmount ho)
    · intro output ho
      simpa using hlow _ (mem_outputsOfAmount ho)
  have hlowEntry : lowerEntry splitBlockIndex
      ⟨below amount, outputsOfAmount ownLow amount ++ outputsOfAmount ownHigh amount⟩ =
      expectedEntry below ownLow amount := by
    rw [lowerEntry]
    dsimp only
    rw [htake]
    unfold expectedEntry
    cases outputsOfAmount ownLow amount <;> rfl
  have hupEntry : upperEntry splitBlockIndex
      ⟨below amount, outputsOfAmount ownLow amount ++ outputsOfAmount ownHigh amount⟩ =
      expectedEntry (fun amount => below amount + (outputsOfAmount ownLow amount).length) ownHigh amount := by
    rw [upperEntry]
    dsimp only
    rw [htake, List.drop_left]
    unfold expectedEntry
    cases outputsOfAmount ownHigh amount <;> rfl
  cases hboth : outputsOfAmount (ownLow ++ ownHigh) amount with
  | nil =>
    -- no output of the amount here at all: no entry on either side
    rw [outputsOfAmount_append, List.append_eq_nil_iff] at hboth
    simp [expectedEntry, hboth]
  | cons p ps =>
    have hentry : expectedEntry below (ownLow ++ ownHigh) amount =
        some ⟨below amount, outputsOfAmount ownLow amount ++ outputsOfAmount ownHigh amount⟩ := by
      have hparts : outputsOfAmount ownLow amount ++ outputsOfAmount ownHigh amount = p :: ps := by
        rw [← outputsOfAmount_append, hboth]
      rw [hparts]
      simp only [expectedEntry, hboth]
    rw [hentry, Option.bind_some, Option.bind_some, hlowEntry, hupEntry]
    exact ⟨rfl, rfl⟩

end SplitGlobalIndexes

end BlockchainCache

end Crygcoin
