import Crygcoin.Forest
import Crygcoin.FlatChain

namespace Crygcoin

/-! The segments of `Core::chainsStorage` as one list: a segment's `parent` and `children` are
positions in it, and a segment's queries recurse through the segments from it to the root. -/

/-- The segment at `p` followed by its ancestors, as `p`'s queries walk them. -/
def segmentsOf (store : List BlockchainCache) (p : Nat) : List BlockchainCache :=
  (chainFrom BlockchainCache.parent store store.length p).filterMap (store[·]?)

/-- `pushBlock` on the segment at `p`. -/
def pushBlockAt (store : List BlockchainCache) (p : Nat) (cachedBlock : CachedBlock)
    (cachedTransactions : List CachedTransaction) (validatorState : TransactionValidatorState)
    (blockSize : Nat) (generatedCoins blockDifficulty : UInt64) (rawBlock : RawBlock) : List BlockchainCache :=
  match store[p]? with
  | none => store
  | some cache =>
    store.set p (cache.pushBlock (segmentsOf store p).tail cachedBlock cachedTransactions validatorState
      blockSize generatedCoins blockDifficulty rawBlock)

/-- `createBlockchainCache(currency, cache, startIndex)` for the segment at `p`, then
`cache->addChild` and `chainsStorage.emplace_back`. -/
def forkSegment (store : List BlockchainCache) (p startIndex : Nat) : List BlockchainCache :=
  match store[p]? with
  | none => store
  | some cache => store.set p (cache.addChild store.length) ++ [BlockchainCache.create (some p) startIndex]

/-- `fixChildrenParent`: the given children now name `newParent`. -/
def fixChildrenParent (children : List Nat) (newParent : Nat) (store : List BlockchainCache) :
    List BlockchainCache :=
  children.foldl (fun store child => store.modify child fun cache => { cache with parent := some newParent })
    store

/-- `cache->split(splitBlockIndex)` on the segment at `p`, with the upper part stored at the end
of the list as `chainsStorage.emplace_back` does. -/
def splitSegment (store : List BlockchainCache) (p splitBlockIndex : Nat) : List BlockchainCache :=
  match store[p]? with
  | none => store
  | some cache =>
    let (lower, upper) := cache.split p store.length splitBlockIndex
    fixChildrenParent cache.children store.length (store.set p lower) ++ [upper]

theorem segmentsOf_eq {store : List BlockchainCache} {p : Nat} {ps : List Nat}
    (h : IsPath BlockchainCache.parent store p ps) : segmentsOf store p = ps.filterMap (store[·]?) := by
  rw [segmentsOf, chainFrom_length h]

theorem IsPath.parent_ne {store : List BlockchainCache} {p : Nat} {ps : List Nat} {cache : BlockchainCache}
    (h : IsPath BlockchainCache.parent store p ps) (hc : store[p]? = some cache) : cache.parent ≠ some p := by
  intro hp
  cases h with
  | root hx hroot =>
    rw [hc, Option.some.injEq] at hx
    subst hx
    simp [hroot] at hp
  | cons hx hq hrest =>
    rw [hc, Option.some.injEq] at hx
    subst hx
    rw [hp, Option.some.injEq] at hq
    subst hq
    exact (List.nodup_cons.mp (IsPath.cons hc hp hrest).nodup).1 (hrest.head.choose_spec ▸ List.mem_cons_self)

@[simp] theorem fixChildrenParent_length (children : List Nat) (newParent : Nat) (store : List BlockchainCache) :
    (fixChildrenParent children newParent store).length = store.length := by
  induction children generalizing store with
  | nil => rfl
  | cons child children ih =>
    simp only [fixChildrenParent, List.foldl_cons] at ih ⊢
    rw [ih, List.length_modify]

theorem fixChildrenParent_getElem? (children : List Nat) (newParent : Nat) (store : List BlockchainCache)
    (q : Nat) : (fixChildrenParent children newParent store)[q]? =
      store[q]?.map fun cache => if q ∈ children then { cache with parent := some newParent } else cache := by
  induction children generalizing store with
  | nil => simp [fixChildrenParent]
  | cons child children ih =>
    simp only [fixChildrenParent, List.foldl_cons] at ih ⊢
    rw [ih, List.getElem?_modify]
    by_cases hq : child = q
    · subst hq
      cases store[child]? <;> simp
    · cases store[q]? <;> simp [hq, Ne.symm hq]

end Crygcoin
