import Mathlib
import Crygcoin.BlockchainCache

namespace Crygcoin

/-! `findCommonRoot` of `Core.cpp`: the last block index at which the main chain storage and the
root segment hold the same block, found by a binary search whose midpoint leans up. Between
rounds, the two chains agree at `left` and disagree at every index above `right`; each round
halves the interval, and where the chains agree on a prefix the search ends at its top. -/

/-- The loop of `findCommonRoot` on `sameAt i`, whether the two chains hold the same block at `i`.
The `assert(right >= left)` of a round fails as `none`; `fuel` bounds the rounds, and running out
of it is `none` too. -/
def findCommonRootLoop (sameAt : Nat → Bool) : Nat → Nat → Nat → Option Nat
  | 0, _, _ => none
  | fuel + 1, left, right =>
    if left = right then some left
    else if right < left then none
    else
      let checkElement := left + (right - left) / 2 + 1
      if sameAt checkElement then findCommonRootLoop sameAt fuel checkElement right
      else findCommonRootLoop sameAt fuel left (checkElement - 1)

/-- `findCommonRoot(storage, rootSegment)`, with `getBlockHash` the hash of a stored block. Its four
asserts fail as `none`. The loop gets `right + 1` rounds of fuel, more than it can use. -/
def findCommonRoot (getBlockHash : RawBlock → Hash) (storage : List RawBlock) (rootSegment : BlockchainCache) :
    Option Nat :=
  let storageHash := fun i => storage[i]?.map getBlockHash
  let segmentHash := fun i => rootSegment.blockInfos[i]?.map (·.blockHash)
  if storage.length = 0 ∨ rootSegment.getBlockCount = 0 ∨ rootSegment.startIndex ≠ 0 ∨
      storageHash 0 ≠ segmentHash 0 then none
  else
    let right := min (storage.length - 1) (rootSegment.getBlockCount - 1)
    findCommonRootLoop (fun i => storageHash i == segmentHash i) (right + 1) 0 right

/-- The two chains hold a block at `i`, and the same one. -/
def SameBlockAt (getBlockHash : RawBlock → Hash) (storage : List RawBlock) (rootSegment : BlockchainCache)
    (i : Nat) : Prop :=
  ∃ block info, storage[i]? = some block ∧ rootSegment.blockInfos[i]? = some info ∧ getBlockHash block = info.blockHash

section Search

variable {sameAt : Nat → Bool} {top : Nat}

/-- What holds between two rounds: the chains agree at `left` and at no index above `right`. -/
structure SearchInvariant (sameAt : Nat → Bool) (top left right : Nat) : Prop where
  left_le : left ≤ right
  right_le : right ≤ top
  same_left : sameAt left = true
  above_right : ∀ i, right < i → i ≤ top → sameAt i = false

theorem SearchInvariant.step (hdownward : ∀ i j, j < i → i ≤ top → sameAt i = true → sameAt j = true)
    {left right checkElement : Nat} (h : SearchInvariant sameAt top left right) (hne : left ≠ right)
    (hcheck : checkElement = left + (right - left) / 2 + 1) :
    (sameAt checkElement = true → SearchInvariant sameAt top checkElement right ∧ right - checkElement < right - left) ∧
    (sameAt checkElement = false →
      SearchInvariant sameAt top left (checkElement - 1) ∧ checkElement - 1 - left < right - left) := by
  have hlt : left < right := Nat.lt_of_le_of_ne h.left_le hne
  have htop := h.right_le
  have hmid : left < checkElement ∧ checkElement ≤ right := by omega
  refine ⟨fun hsame => ⟨⟨hmid.2, h.right_le, hsame, h.above_right⟩, by omega⟩, fun hdiffer => ⟨⟨by omega, by omega,
    h.same_left, fun i hi hitop => ?_⟩, by omega⟩⟩
  -- an index at or above the midpoint that agreed would make the midpoint agree
  by_cases hiright : i ≤ right
  · cases hi' : sameAt i with
    | false => rfl
    | true =>
      rcases Nat.lt_or_eq_of_le (show checkElement ≤ i by omega) with hless | heq
      · rw [hdownward i checkElement hless hitop hi'] at hdiffer
        cases hdiffer
      · rw [heq, hi'] at hdiffer
        cases hdiffer
  · exact h.above_right i (by omega) hitop

theorem findCommonRootLoop_spec (hdownward : ∀ i j, j < i → i ≤ top → sameAt i = true → sameAt j = true) :
    ∀ fuel left right, SearchInvariant sameAt top left right → right - left < fuel →
      ∃ result, findCommonRootLoop sameAt fuel left right = some result ∧ SearchInvariant sameAt top result result
  | 0, _, _, _, hfuel => absurd hfuel (Nat.not_lt_zero _)
  | fuel + 1, left, right, h, hfuel => by
    by_cases heq : left = right
    · subst heq
      exact ⟨left, by rw [findCommonRootLoop, if_pos rfl], h⟩
    · have hstep := h.step hdownward heq rfl
      have hnot : ¬right < left := Nat.not_lt.mpr h.left_le
      rw [findCommonRootLoop, if_neg heq, if_neg hnot]
      dsimp only
      split
      · rename_i hsame
        obtain ⟨hnext, hshrink⟩ := hstep.1 hsame
        exact findCommonRootLoop_spec hdownward fuel _ right hnext (by omega)
      · rename_i hdiffer
        obtain ⟨hnext, hshrink⟩ := hstep.2 (Bool.eq_false_iff.mpr hdiffer)
        exact findCommonRootLoop_spec hdownward fuel left _ hnext (by omega)

end Search

section Chains

variable {getBlockHash : RawBlock → Hash} {storage : List RawBlock} {rootSegment : BlockchainCache}

theorem sameAt_iff {i : Nat} (hstorage : i < storage.length) (hsegment : i < rootSegment.blockInfos.length) :
    (storage[i]?.map getBlockHash == rootSegment.blockInfos[i]?.map (·.blockHash)) = true ↔
      SameBlockAt getBlockHash storage rootSegment i := by
  unfold SameBlockAt
  rw [List.getElem?_eq_getElem hstorage, List.getElem?_eq_getElem hsegment]
  simp

theorem SameBlockAt.lt_length {i : Nat} (h : SameBlockAt getBlockHash storage rootSegment i) :
    i < storage.length ∧ i < rootSegment.blockInfos.length := by
  obtain ⟨block, info, hblock, hinfo, -⟩ := h
  exact ⟨(List.getElem?_eq_some_iff.mp hblock).1, (List.getElem?_eq_some_iff.mp hinfo).1⟩

/-- On a main chain storage and a root segment that hold the same genesis block, and agree below
every index they agree at, `findCommonRoot` passes its asserts, ends, and returns the last index
both hold a block at where they agree. -/
theorem findCommonRoot_largest_common_index (hroot : rootSegment.startIndex = 0)
    (hgenesis : SameBlockAt getBlockHash storage rootSegment 0)
    (hdownward : ∀ i j, j < i → SameBlockAt getBlockHash storage rootSegment i → SameBlockAt getBlockHash storage rootSegment j) :
    ∃ i, findCommonRoot getBlockHash storage rootSegment = some i ∧
      i ≤ min storage.length rootSegment.getBlockCount - 1 ∧ SameBlockAt getBlockHash storage rootSegment i ∧
      ∀ k, i < k → k ≤ min storage.length rootSegment.getBlockCount - 1 →
        ¬SameBlockAt getBlockHash storage rootSegment k := by
  obtain ⟨hstorage, hsegment⟩ := hgenesis.lt_length
  have hcount : rootSegment.getBlockCount = rootSegment.blockInfos.length := rfl
  -- below the top both chains hold a block, so the loop's comparison is `SameBlockAt`
  have hsame : ∀ i, i ≤ min (storage.length - 1) (rootSegment.getBlockCount - 1) →
      ((storage[i]?.map getBlockHash == rootSegment.blockInfos[i]?.map (·.blockHash)) = true ↔
        SameBlockAt getBlockHash storage rootSegment i) := fun i hi => sameAt_iff (by omega) (by omega)
  have hasserts : ¬(storage.length = 0 ∨ rootSegment.getBlockCount = 0 ∨ rootSegment.startIndex ≠ 0 ∨
      storage[0]?.map getBlockHash ≠ rootSegment.blockInfos[0]?.map (·.blockHash)) := by
    have hzero := (hsame 0 (Nat.zero_le _)).mpr hgenesis
    rw [beq_iff_eq] at hzero
    simp only [not_or, ne_eq, not_not]
    exact ⟨by omega, by omega, hroot, hzero⟩
  have hinit : SearchInvariant (fun i => storage[i]?.map getBlockHash == rootSegment.blockInfos[i]?.map (·.blockHash))
      (min (storage.length - 1) (rootSegment.getBlockCount - 1)) 0 (min (storage.length - 1) (rootSegment.getBlockCount - 1)) :=
    ⟨Nat.zero_le _, le_refl _, (hsame 0 (Nat.zero_le _)).mpr hgenesis, fun _ hi hitop => absurd hi (Nat.not_lt.mpr hitop)⟩
  have hdownward' : ∀ i j, j < i → i ≤ min (storage.length - 1) (rootSegment.getBlockCount - 1) →
      (storage[i]?.map getBlockHash == rootSegment.blockInfos[i]?.map (·.blockHash)) = true →
      (storage[j]?.map getBlockHash == rootSegment.blockInfos[j]?.map (·.blockHash)) = true :=
    fun i j hji hitop hi => (hsame j (by omega)).mpr (hdownward i j hji ((hsame i hitop).mp hi))
  obtain ⟨result, hrun, hend⟩ := findCommonRootLoop_spec hdownward'
    (min (storage.length - 1) (rootSegment.getBlockCount - 1) + 1) 0 _ hinit (by omega)
  refine ⟨result, ?_, by have := hend.right_le; omega, (hsame result hend.right_le).mp hend.same_left,
    fun k hk hktop hk' => ?_⟩
  · rw [findCommonRoot]
    dsimp only
    rw [if_neg hasserts]
    exact hrun
  · have hfalse := hend.above_right k hk (by omega)
    rw [(hsame k (by omega)).mpr hk'] at hfalse
    cases hfalse

end Chains

/-- A stored chain of two blocks and a root segment that holds the same genesis block but another
block above it: the common root is the genesis block. -/
theorem findCommonRoot_largest_common_index_fork :
    let getBlockHash : RawBlock → Hash := fun raw => ⟨Vector.replicate 32 (raw.block.headD 0)⟩
    let storage : List RawBlock := [⟨[0], []⟩, ⟨[1], []⟩]
    let rootSegment : BlockchainCache :=
      ⟨none, 0, [], [], [⟨⟨Vector.replicate 32 0⟩, 0, 0, 0, 0, 0⟩, ⟨⟨Vector.replicate 32 2⟩, 0, 0, 0, 0, 0⟩], [], [], []⟩
    rootSegment.startIndex = 0 ∧ SameBlockAt getBlockHash storage rootSegment 0 ∧
      (∀ i j, j < i → SameBlockAt getBlockHash storage rootSegment i → SameBlockAt getBlockHash storage rootSegment j) ∧
      ∃ i, findCommonRoot getBlockHash storage rootSegment = some i ∧
        i ≤ min storage.length rootSegment.getBlockCount - 1 ∧ SameBlockAt getBlockHash storage rootSegment i ∧
        ∀ k, i < k → k ≤ min storage.length rootSegment.getBlockCount - 1 →
          ¬SameBlockAt getBlockHash storage rootSegment k := by
  intro getBlockHash storage rootSegment
  have hgenesis : SameBlockAt getBlockHash storage rootSegment 0 := ⟨_, _, rfl, rfl, rfl⟩
  -- the chains agree at the genesis block only
  have hdownward : ∀ i j, j < i → SameBlockAt getBlockHash storage rootSegment i →
      SameBlockAt getBlockHash storage rootSegment j := by
    rintro (_ | _ | i) j hji ⟨block, info, hblock, hinfo, hhash⟩
    · exact absurd hji (Nat.not_lt_zero j)
    · simp only [storage, rootSegment, List.getElem?_cons_succ, List.getElem?_cons_zero, Option.some.injEq] at hblock hinfo
      subst hblock hinfo
      exact absurd hhash (by decide)
    · simp [storage] at hblock
  exact ⟨rfl, hgenesis, hdownward, findCommonRoot_largest_common_index rfl hgenesis hdownward⟩

end Crygcoin
