import Crygcoin.BinaryTree

namespace Crygcoin

/-! The Merkle tree of `crypto/tree-hash.c`: `tree_hash`, `tree_depth`, `tree_branch` and
`tree_hash_from_branch`. `cn_fast_hash` over the `2 * HASH_SIZE` bytes of two adjacent hashes is an
arbitrary `f : α → α → α`. `size_t` is `UInt64`. A buffer of hashes is a list of slots, `none` where
nothing was written yet; every read and write is checked, so a model that returns `some` made only
accesses in bounds and read only slots it had written. -/

section Model

variable {α : Type} (f : α → α → α)

/-- Reading a written slot. -/
def readSlot (slots : List (Option α)) (k : Nat) : Option α :=
  slots[k]?.join

/-- Writing a slot in bounds. -/
def writeSlot (slots : List (Option α)) (k : Nat) (v : α) : Option (List (Option α)) :=
  if k < slots.length then some (slots.set k (some v)) else none

def copySlots (slots : List (Option α)) (src : List α) (offset count : Nat) : Option (List (Option α)) :=
  if offset + count ≤ src.length ∧ count ≤ slots.length then
    some (((src.drop offset).take count).map some ++ slots.drop count)
  else none

/-- The loop `for (; j < stop; i += 2, ++j) cn_fast_hash(src[i], 2 * HASH_SIZE, ints[j])`, run for
its `stop - j` iterations: each hashes the two hashes from `i` on into `ints[j]`. `read` reads the
source, the input hashes or `ints` itself where the loop works in place. -/
def hashPairs (read : List (Option α) → Nat → Option α) :
    Nat → List (Option α) → Nat → Nat → Option (List (Option α))
  | 0, ints, _, _ => some ints
  | n + 1, ints, i, j => do
    let left ← read ints i
    let right ← read ints (i + 1)
    let ints ← writeSlot ints j (f left right)
    hashPairs read n ints (i + 2) (j + 1)

/-- The shifts of `for (i = 1; i < 8 * sizeof(size_t); i <<= 1)`. -/
def smearShifts : List UInt64 := [1, 2, 4, 8, 16, 32]

/-- The shifts of `for (i = sizeof(size_t) << 2; i > 0; i >>= 1)`. -/
def searchShifts : List UInt64 := [32, 16, 8, 4, 2, 1]

/-- `tree_hash`'s width of the first level: `count - 1` smeared right, then
`cnt &= ~(cnt >> 1)`. -/
def treeHashWidth (count : UInt64) : UInt64 :=
  let cnt := smearShifts.foldl (fun cnt i => cnt ||| cnt >>> i) (count - 1)
  cnt &&& ~~~(cnt >>> 1)

/-- The loop `while (cnt > 2) { cnt >>= 1; for (i = 0, j = 0; j < cnt; i += 2, ++j) ... }` of
`tree_hash`, hashing the level in `ints` in place. -/
def treeHashLevels (cnt : UInt64) (ints : List (Option α)) : Option (List (Option α)) :=
  if 2 < cnt then do
    let ints ← hashPairs f readSlot (cnt >>> 1).toNat ints 0 0
    treeHashLevels (cnt >>> 1) ints
  else some ints
termination_by cnt.toNat
decreasing_by
  rename_i hmore
  rw [UInt64.toNat_shiftRight]
  have := UInt64.lt_iff_toNat_lt.mp hmore
  simp only [UInt64.reduceToNat, Nat.reduceMod, Nat.shiftRight_eq_div_pow, Nat.pow_one] at this ⊢
  omega

/-- `tree_hash`: the root of the tree over the first `count` hashes. -/
def treeHash (hashes : List α) (count : UInt64) : Option α :=
  if count = 1 then hashes[0]?
  else if count = 2 then do
    let left ← hashes[0]?
    let right ← hashes[1]?
    some (f left right)
  else do
    let cnt := treeHashWidth count
    let start := (2 * cnt - count).toNat
    let ints ← copySlots (List.replicate cnt.toNat none) hashes 0 start
    let ints ← hashPairs f (fun _ k => hashes[k]?) (cnt.toNat - start) ints start start
    let ints ← treeHashLevels f cnt ints
    let left ← readSlot ints 0
    let right ← readSlot ints 1
    some (f left right)

/-- `tree_depth` of `tree-hash.c`, on a 64-bit `size_t`: the halvings `count >>= i` for
`i = 32, 16, 8, 4, 2, 1`, summed; the floor of the binary logarithm of a positive count. -/
def treeDepth (count : Nat) : Nat :=
  ([32, 16, 8, 4, 2, 1].foldl (fun (count, depth) i => if count >>> i > 0 then (count >>> i, depth + i) else (count, depth))
    (count, 0)).2

/-- `tree_branch`'s search for `cnt`, the largest power of two up to `count`, and its `depth`. -/
def treeBranchWidth (count : UInt64) : UInt64 × UInt64 :=
  searchShifts.foldl (fun (state : UInt64 × UInt64) i =>
    if state.1 <<< i ≤ count then (state.1 <<< i, state.2 + i) else state) (1, 0)

/-- The loop `while (depth > 0)` of `tree_branch`: the sibling `ints[0]` goes to `branch[depth]`,
then the level is hashed in place one level up, without its first node. -/
def treeBranchLevels : UInt64 → Nat → List (Option α) → List (Option α) → Option (List (Option α))
  | _, 0, _, branch => some branch
  | cnt, depth + 1, ints, branch => do
    let cnt := cnt >>> 1
    let sibling ← readSlot ints 0
    let branch ← writeSlot branch depth sibling
    let ints ← hashPairs f readSlot (cnt - 1).toNat ints 1 0
    treeBranchLevels cnt depth ints branch

/-- `tree_branch`: the siblings on the path of the first hash, written to `branch`. -/
def treeBranch (hashes : List α) (count : UInt64) (branch : List (Option α)) : Option (List (Option α)) := do
  let (cnt, depth) := treeBranchWidth count
  let start := (2 * cnt - count - 1).toNat
  let ints ← copySlots (List.replicate (cnt - 1).toNat none) hashes 1 start
  let ints ← hashPairs f (fun _ k => hashes[k]?) ((cnt - 1).toNat - start) ints (2 * cnt - count).toNat start
  treeBranchLevels f cnt depth.toNat ints branch

/-- Bit `depth` of `path`: `((const char *) path)[depth >> 3] & (1 << (depth & 7))`. -/
def pathBit (path : List UInt8) (depth : Nat) : Option Bool := do
  let byte ← path[depth >>> 3]?
  some (byte &&& (1 <<< (depth &&& 7).toUInt8) != 0)

/-- The loop `while (depth > 0)` of `tree_hash_from_branch` over `buffer[2]`: the hash so far
(the leaf first) goes to the side the path names and `branch[depth]` to the other. -/
def treeHashFromBranchLevels (branch : List α) (leaf : α) (path : Option (List UInt8)) :
    Nat → Bool → Option (α × α) → Option (α × α)
  | 0, _, buffer => buffer
  | depth + 1, fromLeaf, buffer => do
    let right ← match path with
      | none => some false
      | some path => pathBit path depth
    let node ← if fromLeaf then some leaf else buffer.map (fun buffer => f buffer.1 buffer.2)
    let sibling ← branch[depth]?
    let buffer := if right then (sibling, node) else (node, sibling)
    treeHashFromBranchLevels branch leaf path depth false (some buffer)

/-- `tree_hash_from_branch`: the root rebuilt from a leaf and its siblings; `path = none` is
`NULL`. -/
def treeHashFromBranch (branch : List α) (depth : Nat) (leaf : α) (path : Option (List UInt8)) :
    Option α :=
  if depth = 0 then some leaf
  else do
    let buffer ← treeHashFromBranchLevels f branch leaf path depth true none
    some (f buffer.1 buffer.2)

end Model

/-! ### The tree the functions compute -/

section Spec

variable {α : Type} (f : α → α → α)

/-- The level of `width` nodes over `hashes`, for `width ≤ n ≤ 2 * width`: the first
`2 * width - n` hashes stand alone and the others are hashed in pairs. -/
def levelAt (width : Nat) (hashes : List α) : List α :=
  hashes.take (2 * width - hashes.length) ++ pairUp f (hashes.drop (2 * width - hashes.length))

/-- The root of the tree over `hashes`: its widest full level, of `2^⌊log2 n⌋` nodes, hashed up in
pairs. -/
def treeRoot (hashes : List α) : Option α :=
  ((pairUp f)^[hashes.length.log2] (levelAt f (2 ^ hashes.length.log2) hashes)).head?

variable {hashes : List α} {width : Nat}

theorem length_levelAt (hlow : width ≤ hashes.length) (hhigh : hashes.length ≤ 2 * width) :
    (levelAt f width hashes).length = width := by
  simp only [levelAt, List.length_append, List.length_take, List.length_drop, length_pairUp]
  omega

theorem head?_levelAt (h : hashes.length < 2 * width) : (levelAt f width hashes).head? = hashes.head? := by
  obtain ⟨k, hk⟩ : ∃ k, 2 * width - hashes.length = k + 1 := ⟨2 * width - hashes.length - 1, by omega⟩
  cases hashes with
  | nil => simp [levelAt]
  | cons a rest => simp only [levelAt, hk, List.take_succ_cons, List.cons_append, List.head?_cons]

theorem levelAt_length : levelAt f hashes.length hashes = hashes := by
  simp only [levelAt, show 2 * hashes.length - hashes.length = hashes.length by omega, List.take_length,
    List.drop_length, pairUp_nil, List.append_nil]

theorem levelAt_of_length_eq_two_mul (h : hashes.length = 2 * width) : levelAt f width hashes = pairUp f hashes := by
  simp only [levelAt, h, Nat.sub_self, List.take_zero, List.drop_zero, List.nil_append]

theorem treeRoot_eq_hashUp {leaf : α} (hleaf : hashes.head? = some leaf) :
    treeRoot f hashes =
      some (hashUp f leaf (firstBranch f hashes.length.log2 (levelAt f (2 ^ hashes.length.log2) hashes))) := by
  have hne : hashes.length ≠ 0 := by
    intro h
    rw [List.length_eq_zero_iff.mp h] at hleaf
    cases hleaf
  have hlow := Nat.log2_self_le hne
  have hhigh := Nat.lt_log2_self (n := hashes.length)
  rw [Nat.pow_succ] at hhigh
  apply head?_iterate_pairUp
  · exact length_levelAt f hlow (by omega)
  · rw [head?_levelAt f (by omega), hleaf]

end Spec

/-! ### Buffers and the pair loop -/

section Loops

variable {α : Type} (f : α → α → α)

theorem drop_set_self {slots : List (Option α)} {d : Nat} (x : Option α) (h : d < slots.length) :
    (slots.set d x).drop d = x :: slots.drop (d + 1) := by
  rw [List.drop_eq_getElem_cons (by simpa using h), List.getElem_set_self,
    List.drop_set_of_lt (Nat.lt_succ_self d)]

theorem writeSlot_append_drop {written rest : List (Option α)} (v : α) (h : written.length < rest.length) :
    writeSlot (written ++ rest.drop written.length) written.length v =
      some ((written ++ [some v]) ++ rest.drop (written.length + 1)) := by
  rw [writeSlot, if_pos (by simp; omega), List.set_append_right _ _ (Nat.le_refl _), Nat.sub_self,
    List.drop_eq_getElem_cons h]
  simp only [List.set_cons_zero, List.append_assoc, List.singleton_append]

theorem readSlot_append_drop {vals : List α} {junk written : List (Option α)} {k : Nat} (hk : k < vals.length)
    (hw : written.length ≤ k) :
    readSlot (written ++ (vals.map some ++ junk).drop written.length) k = some vals[k] := by
  rw [readSlot, List.getElem?_append_right hw, List.getElem?_drop, Nat.add_sub_cancel' hw,
    List.getElem?_append_left (by simpa using hk)]
  simp only [List.getElem?_map, List.getElem?_eq_getElem hk, Option.map_some, Option.join_some]

theorem hashPairs_eq {read : List (Option α) → Nat → Option α} {vals : List α} {rest : List (Option α)}
    (hread : ∀ (written : List (Option α)) (k : Nat) (hk : k < vals.length), written.length ≤ k →
      read (written ++ rest.drop written.length) k = some vals[k]) (n : Nat) :
    ∀ (i : Nat) (written : List (Option α)), written.length ≤ i → i + 2 * n ≤ vals.length →
      written.length + n ≤ rest.length →
      hashPairs f read n (written ++ rest.drop written.length) i written.length =
        some (written ++ (pairUp f ((vals.drop i).take (2 * n))).map some ++ rest.drop (written.length + n)) := by
  induction n with
  | zero => intro i written _ _ _; simp [hashPairs]
  | succ n ih =>
    intro i written hi hvals hrest
    have hleft := hread written i (by omega) hi
    have hright := hread written (i + 1) (by omega) (by omega)
    -- the pair is written just past the prefix, which the next iteration extends by one slot
    have hnext := ih (i + 2) (written ++ [some (f vals[i] vals[i + 1])]) (by simp; omega) (by omega)
      (by simp; omega)
    simp only [List.length_append, List.length_singleton] at hnext
    simp only [hashPairs, hleft, hright, Option.bind_eq_bind, Option.bind_some,
      writeSlot_append_drop _ (show written.length < rest.length by omega), hnext,
      take_drop_eq_cons_cons hvals, pairUp_cons_cons, List.map_cons, Option.some.injEq]
    simp only [List.append_assoc, List.cons_append, List.nil_append,
      show written.length + 1 + n = written.length + (n + 1) by omega]

theorem hashPairs_hashes {hashes : List α} {rest written : List (Option α)} {n i : Nat} (hi : written.length ≤ i)
    (hvals : i + 2 * n ≤ hashes.length) (hrest : written.length + n ≤ rest.length) :
    hashPairs f (fun _ k => hashes[k]?) n (written ++ rest.drop written.length) i written.length =
      some (written ++ (pairUp f ((hashes.drop i).take (2 * n))).map some ++ rest.drop (written.length + n)) :=
  hashPairs_eq f (fun _ _ hk _ => List.getElem?_eq_getElem hk) n i written hi hvals hrest

theorem hashPairs_readSlot {vals : List α} {junk : List (Option α)} {n i : Nat}
    (hvals : i + 2 * n ≤ vals.length) :
    hashPairs f readSlot n (vals.map some ++ junk) i 0 =
      some ((pairUp f ((vals.drop i).take (2 * n))).map some ++ (vals.map some ++ junk).drop n) := by
  have h := @hashPairs_eq α f readSlot vals (vals.map some ++ junk) (fun _ _ hk hw => readSlot_append_drop hk hw) n i []
    (Nat.zero_le _) hvals (by simp; omega)
  simpa using h

end Loops

/-! ### The widths and depths in `size_t` -/

section Widths

theorem toNat_foldl_or_shiftRight : ∀ (shifts : List UInt64) (x : UInt64), (∀ i ∈ shifts, i.toNat < 64) →
    (shifts.foldl (fun cnt i => cnt ||| cnt >>> i) x).toNat = smearRight x.toNat (shifts.map UInt64.toNat)
  | [], _, _ => rfl
  | i :: shifts, x, h => by
    rw [List.foldl_cons, toNat_foldl_or_shiftRight shifts _ (fun j hj => h j (List.mem_cons_of_mem _ hj)),
      UInt64.toNat_or, UInt64.toNat_shiftRight, Nat.mod_eq_of_lt (h i List.mem_cons_self)]
    rfl

theorem toNat_treeHashWidth {count : UInt64} (h : 2 ≤ count.toNat) :
    (treeHashWidth count).toNat = 2 ^ (count.toNat - 1).log2 := by
  have hsub : (count - 1).toNat = count.toNat - 1 := UInt64.toNat_sub_of_le _ _ (UInt64.le_iff_toNat_le.mpr (by
    simp only [UInt64.reduceToNat]; omega))
  have hbound := count.toNat_lt
  have hlog : (count.toNat - 1).log2 < 64 := (Nat.log2_lt (by omega)).mpr (by omega)
  have hsmear : (smearShifts.foldl (fun cnt i => cnt ||| cnt >>> i) (count - 1)).toNat =
      2 ^ ((count.toNat - 1).log2 + 1) - 1 := by
    rw [toNat_foldl_or_shiftRight _ _ (by simp [smearShifts]), hsub,
      show smearShifts.map UInt64.toNat = (List.range 6).map (2 ^ ·) by decide]
    exact smearRight_eq_two_pow_sub_one (Nat.sub_ne_zero_of_lt h) (by rw [show (2 : Nat) ^ 6 = 64 from rfl]; exact hlog)
  simp only [treeHashWidth, UInt64.toNat_and, UInt64.toNat_not, UInt64.toNat_shiftRight, hsmear,
    UInt64.reduceToNat, Nat.reduceMod, show UInt64.size = 2 ^ 64 from rfl]
  exact two_pow_sub_one_and_not_shiftRight hlog

theorem searchShifts_eq : searchShifts = (List.range 6).reverse.map (fun e => UInt64.ofNat (2 ^ e)) := by
  decide

theorem range_succ_reverse (k : Nat) : (List.range (k + 1)).reverse = k :: (List.range k).reverse := by
  rw [List.range_succ, List.reverse_append, List.reverse_singleton, List.singleton_append]

theorem toNat_ofNat_two_pow {e : Nat} (h : e < 6) : (UInt64.ofNat (2 ^ e)).toNat = 2 ^ e := by
  rw [UInt64.toNat_ofNat']
  exact Nat.mod_eq_of_lt (Nat.pow_lt_pow_right (by decide) (by omega))

theorem treeDepth_foldl (k : Nat) : ∀ (c d : Nat), c ≠ 0 → c < 2 ^ 2 ^ k →
    (((List.range k).reverse.map (2 ^ ·)).foldl (fun (count, depth) i =>
      if count >>> i > 0 then (count >>> i, depth + i) else (count, depth)) (c, d)).2 = d + c.log2 := by
  induction k with
  | zero =>
    intro c d hc hlt
    simp only [List.range_zero, List.reverse_nil, List.map_nil, List.foldl_nil]
    rw [log2_eq_of_two_pow_le (e := 0) (by omega) (by simpa using hlt)]
    rfl
  | succ k ih =>
    intro c d hc hlt
    have hpow : 2 ^ 2 ^ (k + 1) = 2 ^ 2 ^ k * 2 ^ 2 ^ k := by rw [Nat.pow_succ, Nat.pow_mul, Nat.pow_two]
    rw [range_succ_reverse, List.map_cons, List.foldl_cons]
    dsimp only
    split
    next hpos =>
      -- something is left above the shift: it counts towards the depth
      have hleft : c >>> 2 ^ k ≠ 0 := Nat.ne_of_gt hpos
      rw [ih _ _ hleft (by
          rw [Nat.shiftRight_eq_div_pow]
          exact (Nat.div_lt_iff_lt_mul (Nat.two_pow_pos _)).mpr (hpow ▸ hlt)),
        ← log2_shiftRight_add hleft]
      omega
    next hzero =>
      -- nothing is left: the count is already below `2^(2^k)`
      have hbelow : c < 2 ^ 2 ^ k := by
        have := Nat.eq_zero_of_not_pos hzero
        rw [Nat.shiftRight_eq_div_pow, Nat.div_eq_zero_iff] at this
        have := Nat.two_pow_pos (2 ^ k)
        omega
      exact ih _ _ hc hbelow

theorem treeDepth_eq_log2 {count : Nat} (hpos : 0 < count) (hlt : count < 2 ^ 64) : treeDepth count = count.log2 := by
  have := treeDepth_foldl 6 count 0 (by omega) (by simpa using hlt)
  rw [show (List.range 6).reverse.map (2 ^ ·) = [32, 16, 8, 4, 2, 1] by decide] at this
  rw [treeDepth, this, Nat.zero_add]

theorem treeBranchWidth_foldl (count : UInt64) (k : Nat) (hk : k ≤ 6) : ∀ (cnt depth : UInt64) (e : Nat),
    cnt.toNat = 2 ^ e → depth.toNat = e → e + 2 ^ k ≤ 64 → 2 ^ e ≤ count.toNat → count.toNat < 2 ^ (e + 2 ^ k) →
    let result := ((List.range k).reverse.map fun e => UInt64.ofNat (2 ^ e)).foldl
      (fun (state : UInt64 × UInt64) i => if state.1 <<< i ≤ count then (state.1 <<< i, state.2 + i) else state)
      (cnt, depth)
    result.1.toNat = 2 ^ count.toNat.log2 ∧ result.2.toNat = count.toNat.log2 := by
  induction k with
  | zero =>
    intro cnt depth e hcnt hdepth _ hlow hhigh
    simp only [List.range_zero, List.reverse_nil, List.map_nil, List.foldl_nil]
    rw [log2_eq_of_two_pow_le hlow (by simpa using hhigh)]
    exact ⟨hcnt, hdepth⟩
  | succ k ih =>
    intro cnt depth e hcnt hdepth he hlow hhigh
    have hshift := toNat_ofNat_two_pow (e := k) (by omega)
    have hroom : e + 2 ^ k < 64 := by
      have := Nat.one_le_two_pow (n := k)
      rw [Nat.pow_succ] at he
      omega
    have hwider : (cnt <<< UInt64.ofNat (2 ^ k)).toNat = 2 ^ (e + 2 ^ k) := by
      rw [UInt64.toNat_shiftLeft, hshift, hcnt, Nat.mod_eq_of_lt (show 2 ^ k < 64 by omega), Nat.shiftLeft_eq,
        ← Nat.pow_add]
      exact Nat.mod_eq_of_lt (Nat.pow_lt_pow_right (by decide) hroom)
    rw [range_succ_reverse, List.map_cons, List.foldl_cons]
    split
    next hfits =>
      -- the doubled width still fits in the count
      have hdeeper : (depth + UInt64.ofNat (2 ^ k)).toNat = e + 2 ^ k := by
        rw [UInt64.toNat_add, hshift, hdepth]
        exact Nat.mod_eq_of_lt (by omega)
      exact ih (by omega) _ _ (e + 2 ^ k) hwider hdeeper (by rw [Nat.pow_succ] at he; omega)
        (hwider ▸ UInt64.le_iff_toNat_le.mp hfits) (by rw [Nat.pow_succ] at hhigh; rwa [Nat.add_assoc, ← Nat.two_mul, Nat.mul_comm])
    next hshort =>
      have hbelow : count.toNat < 2 ^ (e + 2 ^ k) := by
        rw [← hwider]
        exact UInt64.lt_iff_toNat_lt.mp (UInt64.not_le.mp hshort)
      exact ih (by omega) _ _ e hcnt hdepth (by rw [Nat.pow_succ] at he; omega) hlow hbelow

theorem toNat_treeBranchWidth {count : UInt64} (h : 0 < count.toNat) :
    (treeBranchWidth count).1.toNat = 2 ^ count.toNat.log2 ∧ (treeBranchWidth count).2.toNat = count.toNat.log2 := by
  have := treeBranchWidth_foldl count 6 (Nat.le_refl 6) 1 0 0 rfl rfl (by decide) (by rw [Nat.pow_zero]; omega)
    (by simpa using count.toNat_lt)
  rw [treeBranchWidth, searchShifts_eq]
  exact this

end Widths

/-! ### The levels above the first -/

section Levels

variable {α : Type} (f : α → α → α)

theorem length_pairUp_two_pow {vals : List α} {k : Nat} (h : vals.length = 2 ^ (k + 1)) :
    (pairUp f vals).length = 2 ^ k := by
  rw [length_pairUp, h, Nat.pow_succ, Nat.mul_div_cancel _ Nat.two_pos]

omit f in
theorem toNat_shiftRight_one {cnt : UInt64} {k : Nat} (h : cnt.toNat = 2 ^ (k + 1)) : (cnt >>> 1).toNat = 2 ^ k := by
  rw [UInt64.toNat_shiftRight, h]
  simp only [UInt64.reduceToNat, Nat.reduceMod, Nat.shiftRight_eq_div_pow, Nat.pow_one]
  rw [Nat.pow_succ, Nat.mul_div_cancel _ Nat.two_pos]

theorem treeHashLevels_eq (k : Nat) : ∀ (cnt : UInt64) (vals : List α) (junk : List (Option α)),
    cnt.toNat = 2 ^ (k + 1) → vals.length = 2 ^ (k + 1) →
    ∃ rest, treeHashLevels f cnt (vals.map some ++ junk) = some (((pairUp f)^[k] vals).map some ++ rest) := by
  induction k with
  | zero =>
    intro cnt vals junk hcnt _
    refine ⟨junk, ?_⟩
    rw [treeHashLevels, if_neg (by rw [UInt64.lt_iff_toNat_lt, hcnt]; decide)]
    rfl
  | succ k ih =>
    intro cnt vals junk hcnt hvals
    have hhalf := toNat_shiftRight_one hcnt
    -- one level up, hashed in place over the first half of the slots
    have hpairs := @hashPairs_readSlot α f vals junk (2 ^ (k + 1)) 0 (by rw [hvals, Nat.pow_succ 2 (k + 1)]; omega)
    rw [List.drop_zero, List.take_of_length_le (by rw [hvals, Nat.pow_succ 2 (k + 1)]; omega)] at hpairs
    obtain ⟨rest, hrest⟩ := ih (cnt >>> 1) (pairUp f vals) ((vals.map some ++ junk).drop (2 ^ (k + 1))) hhalf
      (length_pairUp_two_pow f hvals)
    refine ⟨rest, ?_⟩
    have hmore : 2 < cnt := by
      rw [UInt64.lt_iff_toNat_lt, hcnt]
      have := Nat.one_le_two_pow (n := k)
      simp only [UInt64.reduceToNat, Nat.pow_succ]
      omega
    rw [treeHashLevels, if_pos hmore]
    simp only [hhalf, hpairs, Option.bind_eq_bind, Option.bind_some, hrest, Function.iterate_succ_apply]

theorem treeBranchLevels_eq (d : Nat) : ∀ (cnt : UInt64) (row : List α) (junk branch : List (Option α)),
    cnt.toNat = 2 ^ d → row.length = 2 ^ d → d ≤ branch.length →
    treeBranchLevels f cnt d (row.tail.map some ++ junk) branch =
      some ((firstBranch f d row).map some ++ branch.drop d) := by
  induction d with
  | zero => intro _ _ _ _ _ _ _; rfl
  | succ d ih =>
    intro cnt row junk branch hcnt hrow hbranch
    obtain ⟨a, b, rest, rfl⟩ : ∃ a b rest, row = a :: b :: rest := by
      match row, hrow with
      | a :: b :: rest, _ => exact ⟨a, b, rest, rfl⟩
      | [], hrow => exact absurd hrow (Nat.ne_of_lt (Nat.two_pow_pos _))
      | [_], hrow =>
        have := Nat.one_le_two_pow (n := d)
        simp [Nat.pow_succ] at hrow
        omega
    have hhalf : (cnt >>> 1 - 1).toNat = 2 ^ d - 1 := by
      rw [UInt64.toNat_sub_of_le _ _ (UInt64.le_iff_toNat_le.mpr (by
        rw [toNat_shiftRight_one hcnt]; simpa using Nat.one_le_two_pow)), toNat_shiftRight_one hcnt]
      rfl
    have hrest : rest.length = 2 * (2 ^ d - 1) := by
      simp only [List.length_cons, Nat.pow_succ] at hrow
      have := Nat.one_le_two_pow (n := d)
      omega
    -- the rest of the level is hashed in place, one level up and again without its first node
    have hpairs := @hashPairs_readSlot α f (b :: rest) junk (2 ^ d - 1) 1 (by simp only [List.length_cons]; omega)
    rw [List.drop_succ_cons, List.drop_zero, List.take_of_length_le (by omega)] at hpairs
    have hnext := ih (cnt >>> 1) (pairUp f (a :: b :: rest)) ((some b :: rest.map some ++ junk).drop (2 ^ d - 1))
      (branch.set d (some b)) (toNat_shiftRight_one hcnt) (length_pairUp_two_pow f hrow) (by simp; omega)
    simp only [pairUp_cons_cons, List.tail_cons] at hnext
    simp only [List.map_cons, List.cons_append] at hpairs hnext
    simp only [treeBranchLevels, List.tail_cons, List.map_cons, List.cons_append, readSlot, List.getElem?_cons_zero,
      Option.join_some, writeSlot, if_pos (show d < branch.length by omega), Option.bind_eq_bind, Option.bind_some,
      hhalf, hpairs, hnext]
    rw [drop_set_self _ (show d < branch.length by omega)]
    simp only [firstBranch, pairUp_cons_cons, List.drop_succ_cons, List.drop_zero, List.take_succ_cons,
      List.take_zero, List.map_append, List.map_cons, List.map_nil, List.append_assoc, List.singleton_append]

theorem treeHashFromBranchLevels_none (branch : List α) (leaf : α) (d : Nat) : ∀ (node sibling : α),
    d ≤ branch.length →
    (treeHashFromBranchLevels f branch leaf none d false (some (node, sibling))).map
        (fun buffer => f buffer.1 buffer.2) = some (hashUp f (f node sibling) (branch.take d)) := by
  induction d with
  | zero => intro _ _ _; rfl
  | succ d ih =>
    intro node sibling hd
    rw [List.take_succ_eq_append_getElem (by omega), hashUp_append_singleton, ← ih _ _ (by omega)]
    simp only [treeHashFromBranchLevels, List.getElem?_eq_getElem (show d < branch.length by omega),
      Option.bind_eq_bind, Option.bind_some, Option.map_some, Bool.false_eq_true, if_false]

theorem treeHashFromBranch_none {branch : List α} (leaf : α) :
    treeHashFromBranch f branch branch.length leaf none = some (hashUp f leaf branch) := by
  rw [treeHashFromBranch]
  split
  next hzero =>
    rw [List.length_eq_zero_iff.mp hzero]
    rfl
  next hpos =>
    obtain ⟨d, hd⟩ : ∃ d, branch.length = d + 1 := ⟨branch.length - 1, by omega⟩
    have hfirst := treeHashFromBranchLevels_none f branch leaf d leaf branch[d] (by omega)
    rw [← hashUp_append_singleton, ← List.take_succ_eq_append_getElem (by omega),
      List.take_of_length_le (by omega)] at hfirst
    rw [hd, ← hfirst]
    simp only [treeHashFromBranchLevels, List.getElem?_eq_getElem (show d < branch.length by omega),
      Option.bind_eq_bind, Option.bind_some, if_true, Bool.false_eq_true, if_false]
    cases treeHashFromBranchLevels f branch leaf none d false (some (leaf, branch[d])) <;> rfl

end Levels

/-! ### The root and the branch -/

section Root

variable {α : Type} (f : α → α → α) {hashes : List α}

theorem copySlots_replicate {offset count width : Nat} (hsrc : offset + count ≤ hashes.length)
    (hwidth : count ≤ width) :
    copySlots (List.replicate width none) hashes offset count =
      some (((hashes.drop offset).take count).map some ++ List.replicate (width - count) none) := by
  rw [copySlots, if_pos ⟨hsrc, by simpa using hwidth⟩, List.drop_replicate]

theorem hashPairs_replicate {written : List (Option α)} {m i j : Nat} (hj : written.length = j) (hi : j ≤ i)
    (hvals : i + 2 * m ≤ hashes.length) :
    hashPairs f (fun _ k => hashes[k]?) m (written ++ List.replicate m none) i j =
      some (written ++ (pairUp f ((hashes.drop i).take (2 * m))).map some) := by
  subst hj
  have h := @hashPairs_hashes α f hashes (written ++ List.replicate m none) written m i hi hvals (by simp)
  have hnil : (written ++ List.replicate m none).drop (written.length + m) = [] :=
    List.drop_of_length_le (by simp)
  rwa [List.drop_left, hnil, List.append_nil] at h

theorem treeRoot_eq_iterate (hlen : 2 ≤ hashes.length) :
    treeRoot f hashes = ((pairUp f)^[(hashes.length - 1).log2]
      (levelAt f (2 ^ (hashes.length - 1).log2) hashes)).head? := by
  set L := (hashes.length - 1).log2 with hL
  have hlow : 2 ^ L ≤ hashes.length - 1 := Nat.log2_self_le (by omega)
  have hhigh : hashes.length - 1 < 2 ^ (L + 1) := Nat.lt_log2_self
  rw [treeRoot]
  by_cases hpow : hashes.length = 2 ^ (L + 1)
  · -- a power of two: its widest full level is the hashes themselves, one level below
    have hD : hashes.length.log2 = L + 1 := by rw [hpow, Nat.log2_two_pow]
    rw [hD, ← hpow, levelAt_length, Function.iterate_succ_apply,
      levelAt_of_length_eq_two_mul f (by rw [hpow, Nat.pow_succ]; omega)]
  · -- otherwise both choose the same width
    have hD : hashes.length.log2 = L :=
      log2_eq_of_two_pow_le (by omega) (by omega)
    rw [hD]

theorem treeHash_of_three_le {count : UInt64} (hcount : 3 ≤ count.toNat) (hlen : hashes.length = count.toNat) :
    treeHash f hashes count = ((pairUp f)^[(count.toNat - 1).log2]
      (levelAt f (2 ^ (count.toNat - 1).log2) hashes)).head? := by
  set L := (count.toNat - 1).log2 with hL
  have hlow : 2 ^ L ≤ count.toNat - 1 := Nat.log2_self_le (by omega)
  have hhigh : count.toNat - 1 < 2 ^ (L + 1) := Nat.lt_log2_self
  have hdeep : 1 ≤ L := (Nat.le_log2 (by omega)).mpr (by omega)
  rw [Nat.pow_succ] at hhigh
  have hwidth : (treeHashWidth count).toNat = 2 ^ L := toNat_treeHashWidth (show 2 ≤ count.toNat by omega)
  have hstart : (2 * treeHashWidth count - count).toNat = 2 * 2 ^ L - count.toNat := by
    have hbelow := (treeHashWidth count).toNat_lt
    rw [hwidth] at hbelow
    rw [UInt64.toNat_sub, UInt64.toNat_mul, hwidth]
    simp only [UInt64.reduceToNat, Nat.reducePow]
    have hcount64 := count.toNat_lt
    generalize 2 ^ L = width at hbelow hlow hhigh ⊢
    omega
  -- the first level: the copied hashes, then the pairs
  have hlevel : (levelAt f (2 ^ L) hashes).length = 2 ^ (L - 1 + 1) := by
    rw [Nat.sub_add_cancel hdeep]
    exact length_levelAt f (by omega) (by omega)
  have hfirst : levelAt f (2 ^ L) hashes =
      (hashes.drop 0).take (2 * 2 ^ L - count.toNat) ++
        pairUp f ((hashes.drop (2 * 2 ^ L - count.toNat)).take (2 * (2 ^ L - (2 * 2 ^ L - count.toNat)))) := by
    have htake : (hashes.drop (2 * 2 ^ L - count.toNat)).take (2 * (2 ^ L - (2 * 2 ^ L - count.toNat))) =
        hashes.drop (2 * 2 ^ L - count.toNat) :=
      List.take_of_length_le (by simp only [List.length_drop]; omega)
    rw [levelAt, List.drop_zero, hlen, htake]
  obtain ⟨rest, hrest⟩ := treeHashLevels_eq f (L - 1) (treeHashWidth count) (levelAt f (2 ^ L) hashes) []
    (by rw [Nat.sub_add_cancel hdeep]; exact hwidth) hlevel
  -- the two nodes left at the top
  obtain ⟨x, y, htop⟩ := List.length_eq_two.mp
    (length_iterate_pairUp f 1 (L - 1) (levelAt f (2 ^ L) hashes) (by rw [hlevel, Nat.add_comm]))
  have hroot : (pairUp f)^[L] (levelAt f (2 ^ L) hashes) = [f x y] := by
    rw [← Nat.sub_add_cancel hdeep, Function.iterate_succ_apply', Nat.sub_add_cancel hdeep, htop]
    rfl
  rw [List.append_nil, hfirst, List.map_append] at hrest
  rw [hfirst] at htop
  have hwritten : (List.map some (List.take (2 * 2 ^ L - count.toNat) (List.drop 0 hashes))).length =
      2 * 2 ^ L - count.toNat := by
    simp only [List.length_map, List.length_take, List.length_drop]
    omega
  rw [treeHash, if_neg (by intro h; subst h; simp at hcount), if_neg (by intro h; subst h; simp at hcount)]
  simp only [hwidth, hstart, copySlots_replicate (show 0 + (2 * 2 ^ L - count.toNat) ≤ hashes.length by omega)
      (show 2 * 2 ^ L - count.toNat ≤ 2 ^ L by omega), Option.bind_eq_bind, Option.bind_some,
    hashPairs_replicate f hwritten (Nat.le_refl _)
      (show 2 * 2 ^ L - count.toNat + 2 * (2 ^ L - (2 * 2 ^ L - count.toNat)) ≤ hashes.length by omega),
    hrest, htop, hroot]
  rfl

omit f in
theorem log2_one : Nat.log2 1 = 0 := log2_eq_of_two_pow_le (by decide) (by decide)

theorem treeHash_eq_treeRoot {count : UInt64} (hcount : 0 < count.toNat) (hlen : hashes.length = count.toNat) :
    treeHash f hashes count = treeRoot f hashes := by
  by_cases hone : count = 1
  · -- one hash is its own root
    subst hone
    obtain ⟨a, rfl⟩ := List.length_eq_one_iff.mp hlen
    rw [@treeRoot_eq_hashUp α f [a] a rfl]
    simp only [List.length_singleton, log2_one]
    rfl
  by_cases htwo : count = 2
  · -- two hashes are hashed together
    subst htwo
    obtain ⟨a, b, rfl⟩ := List.length_eq_two.mp hlen
    rw [treeRoot_eq_iterate f (by simp)]
    simp only [List.length_cons, List.length_nil]
    rfl
  have hthree : 3 ≤ count.toNat := by
    have h1 : count.toNat ≠ 1 := fun h => hone (UInt64.toNat_inj.mp (by simpa using h))
    have h2 : count.toNat ≠ 2 := fun h => htwo (UInt64.toNat_inj.mp (by simpa using h))
    omega
  rw [treeHash_of_three_le f hthree hlen, treeRoot_eq_iterate f (by omega), hlen]

theorem treeBranch_eq {count : UInt64} (hcount : 0 < count.toNat) (hlen : hashes.length = count.toNat)
    (branch : List (Option α)) (hbranch : count.toNat.log2 ≤ branch.length) :
    treeBranch f hashes count branch =
      some ((firstBranch f count.toNat.log2 (levelAt f (2 ^ count.toNat.log2) hashes)).map some ++
        branch.drop count.toNat.log2) := by
  set D := count.toNat.log2 with hD
  have hlow : 2 ^ D ≤ count.toNat := Nat.log2_self_le (by omega)
  have hhigh : count.toNat < 2 ^ D * 2 := by
    have := Nat.lt_log2_self (n := count.toNat)
    rwa [Nat.pow_succ] at this
  obtain ⟨hwidth, hdepth⟩ := toNat_treeBranchWidth hcount
  rcases hsearch : treeBranchWidth count with ⟨cnt, depth⟩
  rw [hsearch] at hwidth hdepth
  simp only at hwidth hdepth
  have hcount64 := count.toNat_lt
  have hcnt64 := cnt.toNat_lt
  rw [hwidth] at hcnt64
  have hslots : (cnt - 1).toNat = 2 ^ D - 1 := by
    rw [UInt64.toNat_sub_of_le _ _ (UInt64.le_iff_toNat_le.mpr (by
      rw [hwidth]; simpa using Nat.one_le_two_pow)), hwidth]
    rfl
  have hfirst : (2 * cnt - count).toNat = 2 * 2 ^ D - count.toNat := by
    rw [UInt64.toNat_sub, UInt64.toNat_mul, hwidth]
    simp only [UInt64.reduceToNat, Nat.reducePow]
    generalize 2 ^ D = width at hcnt64 hlow hhigh ⊢
    omega
  have hstart : (2 * cnt - count - 1).toNat = 2 * 2 ^ D - count.toNat - 1 := by
    rw [UInt64.toNat_sub_of_le _ _ (UInt64.le_iff_toNat_le.mpr (by
      rw [hfirst]; simp only [UInt64.reduceToNat]; omega)), hfirst]
    rfl
  -- the first level without its first node: the copied hashes from the second on, then the pairs
  have hlevel : (levelAt f (2 ^ D) hashes).tail =
      ((hashes.drop 1).take (2 * 2 ^ D - count.toNat - 1) ++
        pairUp f ((hashes.drop (2 * 2 ^ D - count.toNat)).take (2 * (2 ^ D - 1 - (2 * 2 ^ D - count.toNat - 1))))) := by
    have htake : (hashes.drop (2 * 2 ^ D - count.toNat)).take (2 * (2 ^ D - 1 - (2 * 2 ^ D - count.toNat - 1))) =
        hashes.drop (2 * 2 ^ D - count.toNat) :=
      List.take_of_length_le (by simp only [List.length_drop]; omega)
    obtain ⟨k, hk⟩ : ∃ k, 2 * 2 ^ D - count.toNat = k + 1 := ⟨2 * 2 ^ D - count.toNat - 1, by omega⟩
    rw [levelAt, hlen, htake, hk, Nat.add_sub_cancel]
    cases hashes with
    | nil => simp at hlen; omega
    | cons a rest => simp
  have hwritten : (List.map some (List.take (2 * 2 ^ D - count.toNat - 1) (List.drop 1 hashes))).length =
      2 * 2 ^ D - count.toNat - 1 := by
    simp only [List.length_map, List.length_take, List.length_drop]
    omega
  have hlevels := treeBranchLevels_eq f D cnt (levelAt f (2 ^ D) hashes) [] branch hwidth
    (length_levelAt f (by omega) (by omega)) hbranch
  rw [List.append_nil, hlevel, List.map_append] at hlevels
  rw [treeBranch, hsearch]
  simp only [hslots, hstart, hfirst, hdepth,
    copySlots_replicate (show 1 + (2 * 2 ^ D - count.toNat - 1) ≤ hashes.length by omega)
      (show 2 * 2 ^ D - count.toNat - 1 ≤ 2 ^ D - 1 by omega), Option.bind_eq_bind, Option.bind_some,
    hashPairs_replicate f hwritten (show 2 * 2 ^ D - count.toNat - 1 ≤ 2 * 2 ^ D - count.toNat by omega)
      (show 2 * 2 ^ D - count.toNat + 2 * (2 ^ D - 1 - (2 * 2 ^ D - count.toNat - 1)) ≤ hashes.length by omega)]
  exact hlevels

/-- The Merkle branch agrees with the tree: for `count ≥ 1` hashes, `tree_depth` is `⌊log2 count⌋`,
`tree_branch` writes all of a branch of that many entries with every access in bounds, and
`tree_hash_from_branch` rebuilds from it and the first hash the root `tree_hash` computes. -/
theorem treeBranch_treeHashFromBranch (hashes : List α) (count : UInt64) (hcount : 0 < count.toNat)
    (hlen : hashes.length = count.toNat) :
    treeDepth count.toNat = count.toNat.log2 ∧
    ∃ branch : List α, branch.length = treeDepth count.toNat ∧
      treeBranch f hashes count (List.replicate (treeDepth count.toNat) none) = some (branch.map some) ∧
      ∃ root, treeHash f hashes count = some root ∧
        treeHashFromBranch f branch (treeDepth count.toNat) hashes[0] none = some root := by
  have hdepth := treeDepth_eq_log2 hcount count.toNat_lt
  have hlow : 2 ^ count.toNat.log2 ≤ hashes.length := hlen ▸ Nat.log2_self_le (by omega)
  have hhigh : hashes.length < 2 * 2 ^ count.toNat.log2 := by
    have := Nat.lt_log2_self (n := count.toNat)
    rw [Nat.pow_succ] at this
    omega
  have hbranch := length_firstBranch f count.toNat.log2 _ (length_levelAt f hlow (Nat.le_of_lt hhigh))
  refine ⟨hdepth, firstBranch f count.toNat.log2 (levelAt f (2 ^ count.toNat.log2) hashes), hbranch.trans hdepth.symm,
    ?_, hashUp f hashes[0] (firstBranch f count.toNat.log2 (levelAt f (2 ^ count.toNat.log2) hashes)), ?_, ?_⟩
  · rw [treeBranch_eq f hcount hlen _ (by simp [hdepth]), hdepth, List.drop_replicate, Nat.sub_self,
      List.replicate_zero, List.append_nil]
  · have hleaf : hashes.head? = some hashes[0] := by
      rw [List.head?_eq_getElem?]
      exact List.getElem?_eq_getElem _
    rw [treeHash_eq_treeRoot f hcount hlen, treeRoot_eq_hashUp f hleaf]
    simp only [hlen]
  · have hfrom := @treeHashFromBranch_none α f
      (firstBranch f count.toNat.log2 (levelAt f (2 ^ count.toNat.log2) hashes)) hashes[0]
    rw [hbranch] at hfrom
    rw [hdepth]
    exact hfrom

/-- The branch of three hashes under a hash that is not symmetric. -/
theorem treeBranch_treeHashFromBranch_three :
    treeDepth (3 : UInt64).toNat = (3 : UInt64).toNat.log2 ∧
    ∃ branch : List Nat, branch.length = treeDepth (3 : UInt64).toNat ∧
      treeBranch (fun a b => 2 * a + b) [5, 6, 7] 3 (List.replicate (treeDepth (3 : UInt64).toNat) none) =
        some (branch.map some) ∧
      ∃ root, treeHash (fun a b => 2 * a + b) [5, 6, 7] 3 = some root ∧
        treeHashFromBranch (fun a b => 2 * a + b) branch (treeDepth (3 : UInt64).toNat) 5 none = some root :=
  treeBranch_treeHashFromBranch (fun a b => 2 * a + b) [5, 6, 7] 3 (by decide) (by decide)

end Root

end Crygcoin
