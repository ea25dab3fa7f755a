import Mathlib
import Crygcoin.BlockSerialization
import Crygcoin.BlockMatching

namespace Crygcoin

/-! The block synchronisation of `CryptoNoteProtocolHandler`, on one connection. The peer answers
`NOTIFY_REQUEST_CHAIN` with the ids of its chain (`handle_response_chain_entry`), the node queues
those it lacks and asks for them in batches (`request_missing_objects`), and the peer answers with
the blocks (`handle_response_get_objects`), which go to `Core::addBlock` (`processObjects`) only
when they are exactly the blocks asked for. -/

/-- `BLOCKS_SYNCHRONIZING_DEFAULT_COUNT`: the blocks asked for in one request. -/
def BLOCKS_SYNCHRONIZING_DEFAULT_COUNT : Nat := 100

/-- `CryptoNoteConnectionContext::state`. -/
inductive ConnectionState
  | beforHandshake
  | synchronizing
  | idle
  | normal
  | syncRequired
  | poolSyncRequired
  | shutdown
deriving DecidableEq, Repr

/-- `CryptoNoteConnectionContext`, with the members the synchronisation reads; the
`std::unordered_set` of requested hashes is a finite set. -/
structure CryptoNoteConnectionContext where
  version : UInt8
  state : ConnectionState
  neededObjects : List Hash
  requestedObjects : Finset Hash
  remoteBlockchainHeight : UInt32
  lastResponseHeight : UInt32
deriving DecidableEq

/-- A notification the synchronisation posts to the peer. The ids of `NOTIFY_REQUEST_CHAIN` are the
core's sparse chain and the hashes of `NOTIFY_REQUEST_TX_POOL` the pool's; neither changes the
connection. -/
inductive Notify
  | requestGetObjects (blocks : List Hash)
  | requestChain
  | requestTxPool
deriving DecidableEq, Repr

/-- `NOTIFY_RESPONSE_CHAIN_ENTRY::request`. -/
structure ResponseChainEntry where
  startHeight : UInt32
  totalHeight : UInt32
  blockIds : List Hash
deriving DecidableEq, Repr

/-- `RawBlockLegacy`. -/
structure RawBlockLegacy where
  blockTemplate : List UInt8
  transactions : List (List UInt8)
deriving DecidableEq, Repr

/-- `NOTIFY_RESPONSE_GET_OBJECTS::request`, the members the handler reads. -/
structure ResponseGetObjects where
  blocks : List RawBlockLegacy
  currentBlockchainHeight : UInt32
deriving DecidableEq, Repr

def convertRawBlocksLegacyToRawBlocks (legacy : List RawBlockLegacy) : List RawBlock :=
  legacy.map fun legacyBlock => ⟨legacyBlock.blockTemplate, legacyBlock.transactions⟩

/-! ### Asking for blocks -/

/-- The loop of `request_missing_objects` over `m_needed_objects`, with `count` blocks requested so
far: each hash it looks at leaves the list, and is requested unless `skip` says the core has it;
it stops once `BLOCKS_SYNCHRONIZING_DEFAULT_COUNT` are requested. The hashes requested, in order,
and what is left of the list. -/
def requestLoop (skip : Hash → Bool) : List Hash → Nat → List Hash × List Hash
  | [], _ => ([], [])
  | hash :: rest, count =>
    if count < BLOCKS_SYNCHRONIZING_DEFAULT_COUNT then
      if skip hash then requestLoop skip rest count
      else
        let request := requestLoop skip rest (count + 1)
        (hash :: request.1, request.2)
    else ([], hash :: rest)

/-- `request_missing_objects(context, check_having_blocks)`: ask for the next needed blocks, else
for more ids while the peer's chain goes on, else end the synchronisation, which fails unless
nothing is needed or requested any more. `m_remote_blockchain_height - 1` wraps as `uint32_t`. -/
def requestMissingObjects (hasBlock : Hash → Bool) (context : CryptoNoteConnectionContext)
    (checkHavingBlocks : Bool) : Bool × CryptoNoteConnectionContext × List Notify :=
  if context.neededObjects ≠ [] then
    let request := requestLoop (fun hash => checkHavingBlocks && hasBlock hash) context.neededObjects 0
    (true, { context with neededObjects := request.2, requestedObjects := context.requestedObjects ∪ request.1.toFinset },
      [.requestGetObjects request.1])
  else if context.lastResponseHeight < context.remoteBlockchainHeight - 1 then
    (true, context, [.requestChain])
  else if ¬(context.lastResponseHeight = context.remoteBlockchainHeight - 1 ∧ context.neededObjects = [] ∧
      context.requestedObjects = ∅) then
    (false, context, [])
  else
    -- synchronised: `requestMissingPoolTransactions` asks for the pool from version 1 on
    (true, { context with state := .normal }, if context.version < 1 then [] else [.requestTxPool])

/-- The loop of `handle_response_chain_entry` that queues ids: none while every id so far is
known, every id from the first unknown one on. -/
def queueUnknown (hasBlock : Hash → Bool) : Bool → List Hash → List Hash
  | _, [] => []
  | allBlocksKnown, id :: ids =>
    if allBlocksKnown then
      if !hasBlock id then id :: queueUnknown hasBlock false ids else queueUnknown hasBlock true ids
    else id :: queueUnknown hasBlock false ids

/-- `handle_response_chain_entry`. A chain entry claiming more ids than the total height marks the
connection for shutdown, and still queues and requests them, as the source does not return. -/
def handleResponseChainEntry (hasBlock : Hash → Bool) (context : CryptoNoteConnectionContext)
    (arg : ResponseChainEntry) : CryptoNoteConnectionContext × List Notify :=
  match arg.blockIds with
  | [] => ({ context with state := .shutdown }, [])
  | first :: _ =>
    if !hasBlock first then ({ context with state := .shutdown }, [])
    else
      let lastResponseHeight := arg.startHeight + UInt32.ofNat arg.blockIds.length - 1
      let context := { context with remoteBlockchainHeight := arg.totalHeight, lastResponseHeight }
      let context := if lastResponseHeight > arg.totalHeight then { context with state := .shutdown } else context
      let context := { context with neededObjects := context.neededObjects ++ queueUnknown hasBlock true arg.blockIds }
      let request := requestMissingObjects hasBlock context false
      (request.2.1, request.2.2)

/-! ### Receiving blocks -/

/-- How the loop of `handle_response_get_objects` over the blocks of a response ends: a block
that does not parse, was not requested or carries the wrong number of transactions shuts the
connection down, with the requested hashes erased so far; a second block the core has makes it
idle; otherwise the cached blocks and the requested hashes left. -/
inductive ResponseCheck
  | shutdown (requested : Finset Hash)
  | idle
  | passed (cachedBlocks : List CachedBlock) (requested : Finset Hash)
deriving DecidableEq

/-- The loop of `handle_response_get_objects`, from the block at `index` on. `object` is the
`BlockTemplate` that `resize` default-constructs and `fromBinaryArray` reads into; `cache` is the
`CachedBlock` constructor, with its hashes. -/
def checkResponseBlocks (hasBlock : Hash → Bool) (object : BlockTemplate) (cache : BlockTemplate → CachedBlock) :
    Nat → List RawBlock → Finset Hash → ResponseCheck
  | _, [], requested => .passed [] requested
  | index, rawBlock :: rawBlocks, requested =>
    match BlockTemplate.fromBinaryArray object rawBlock.block with
    | none => .shutdown requested
    | some blockTemplate =>
      let cachedBlock := cache blockTemplate
      if index = 1 ∧ hasBlock cachedBlock.blockHash = true then .idle
      else if cachedBlock.blockHash ∉ requested then .shutdown requested
      else if cachedBlock.block.transactionHashes.length ≠ rawBlock.transactions.length then .shutdown requested
      else
        match checkResponseBlocks hasBlock object cache (index + 1) rawBlocks (requested.erase cachedBlock.blockHash) with
        | .passed cachedBlocks left => .passed (cachedBlock :: cachedBlocks) left
        | outcome => outcome

/-- `AddBlockErrorCondition`. -/
inductive AddBlockErrorCondition
  | blockAdded
  | blockRejected
  | blockValidationFailed
  | transactionValidationFailed
  | deserializationFailed
deriving DecidableEq, Repr

/-- The condition `AddBlockErrorConditionCategory::equivalent` gives each result of `addBlock`. -/
def AddBlockResult.condition : AddBlockResult → AddBlockErrorCondition
  | .addBlock .rejectedAsOrphaned => .blockRejected
  | .addBlock .deserializationFailed => .deserializationFailed
  | .addBlock _ => .blockAdded
  | .blockValidation _ => .blockValidationFailed
  | .transactionValidation _ => .transactionValidationFailed

/-- `processObjects`: the blocks go to `Core::addBlock` in order until `m_stop`; a block that fails
validation or is orphaned shuts the connection down, one the core has makes it idle. `true` where
the source returns `1`. -/
def processObjects (env : CoreEnvironment) (stop : Bool) :
    CoreState → CryptoNoteConnectionContext → List (CachedBlock × RawBlock) →
      CoreState × CryptoNoteConnectionContext × Bool
  | state, context, [] => (state, context, false)
  | state, context, (cachedBlock, rawBlock) :: blocks =>
    if stop then (state, context, false)
    else
      let added := Core.addBlock env state cachedBlock rawBlock
      match added.1.condition with
      | .blockValidationFailed | .transactionValidationFailed | .deserializationFailed =>
        (added.2, { context with state := .shutdown }, true)
      | .blockRejected => (added.2, { context with state := .shutdown }, true)
      | .blockAdded =>
        if added.1 = .addBlock .alreadyExists then
          (added.2, { context with state := .idle, neededObjects := [], requestedObjects := ∅ }, true)
        else processObjects env stop added.2 context blocks

/-- `handle_response_get_objects`, with `m_stop` as `stop`. -/
def handleResponseGetObjects (env : CoreEnvironment) (object : BlockTemplate) (cache : BlockTemplate → CachedBlock)
    (stop : Bool) (state : CoreState) (context : CryptoNoteConnectionContext) (arg : ResponseGetObjects) :
    CoreState × CryptoNoteConnectionContext × List Notify :=
  if context.lastResponseHeight > arg.currentBlockchainHeight then (state, { context with state := .shutdown }, [])
  else
    let context := { context with remoteBlockchainHeight := arg.currentBlockchainHeight }
    let rawBlocks := convertRawBlocksLegacyToRawBlocks arg.blocks
    match checkResponseBlocks (Core.hasBlock state) object cache 0 rawBlocks context.requestedObjects with
    | .shutdown requested => (state, { context with state := .shutdown, requestedObjects := requested }, [])
    | .idle => (state, { context with state := .idle, neededObjects := [], requestedObjects := ∅ }, [])
    | .passed cachedBlocks requested =>
      if requested ≠ ∅ then (state, { context with state := .shutdown, requestedObjects := requested }, [])
      else
        let processed := processObjects env stop state { context with requestedObjects := ∅ } (cachedBlocks.zip rawBlocks)
        if processed.2.2 then (processed.1, processed.2.1, [])
        else if !stop && processed.2.1.state = .synchronizing then
          let request := requestMissingObjects (Core.hasBlock processed.1) processed.2.1 true
          (processed.1, request.2.1, request.2.2)
        else (processed.1, processed.2.1, [])

/-! ### What a response must hold -/

section Check

variable {hasBlock : Hash → Bool} {object : BlockTemplate} {cache : BlockTemplate → CachedBlock}

theorem checkResponseBlocks_cons {index : Nat} {rawBlock : RawBlock} {rawBlocks : List RawBlock}
    {requested : Finset Hash} :
    checkResponseBlocks hasBlock object cache index (rawBlock :: rawBlocks) requested = .shutdown requested ∨
      checkResponseBlocks hasBlock object cache index (rawBlock :: rawBlocks) requested = .idle ∨
      ∃ blockTemplate, BlockTemplate.fromBinaryArray object rawBlock.block = some blockTemplate ∧
        (cache blockTemplate).blockHash ∈ requested ∧
        (cache blockTemplate).block.transactionHashes.length = rawBlock.transactions.length ∧
        checkResponseBlocks hasBlock object cache index (rawBlock :: rawBlocks) requested =
          match checkResponseBlocks hasBlock object cache (index + 1) rawBlocks
              (requested.erase (cache blockTemplate).blockHash) with
          | .passed cachedBlocks left => .passed (cache blockTemplate :: cachedBlocks) left
          | outcome => outcome := by
  cases hparse : BlockTemplate.fromBinaryArray object rawBlock.block with
  | none => exact .inl (by simp [checkResponseBlocks, hparse])
  | some blockTemplate =>
    by_cases hidle : index = 1 ∧ hasBlock (cache blockTemplate).blockHash = true
    · exact .inr (.inl (by simp [checkResponseBlocks, hparse, hidle]))
    by_cases hrequested : (cache blockTemplate).blockHash ∈ requested
    · by_cases htransactions : (cache blockTemplate).block.transactionHashes.length = rawBlock.transactions.length
      · exact .inr (.inr ⟨blockTemplate, rfl, hrequested, htransactions,
          by simp [checkResponseBlocks, hparse, hidle, hrequested, htransactions]⟩)
      · exact .inl (by simp [checkResponseBlocks, hparse, hidle, hrequested, htransactions])
    · exact .inl (by simp [checkResponseBlocks, hparse, hidle, hrequested])

theorem checkResponseBlocks_shutdown : ∀ {index : Nat} {rawBlocks : List RawBlock} {requested left : Finset Hash},
    checkResponseBlocks hasBlock object cache index rawBlocks requested = .shutdown left → left ⊆ requested := by
  intro index rawBlocks
  induction rawBlocks generalizing index with
  | nil =>
    intro requested left h
    cases h
  | cons rawBlock rawBlocks ih =>
    intro requested left h
    rcases @checkResponseBlocks_cons hasBlock object cache index rawBlock rawBlocks requested with
      hend | hend | ⟨blockTemplate, -, -, -, hstep⟩
    · rw [hend] at h
      cases h
      exact subset_refl _
    · rw [hend] at h
      cases h
    · -- the loop went on without the block's hash
      rw [hstep] at h
      split at h
      · cases h
      · exact (ih h).trans (Finset.erase_subset _ _)

/-- A response whose loop runs to its end carries blocks with distinct requested hashes, as many as
it has raw blocks and each with as many transactions as its raw block; what is left requested is
what it did not carry. -/
theorem checkResponseBlocks_passed : ∀ {index : Nat} {rawBlocks : List RawBlock} {requested left : Finset Hash}
    {cachedBlocks : List CachedBlock},
    checkResponseBlocks hasBlock object cache index rawBlocks requested = .passed cachedBlocks left →
      (cachedBlocks.map (·.blockHash)).Nodup ∧ (∀ cachedBlock ∈ cachedBlocks, cachedBlock.blockHash ∈ requested) ∧
        left = requested \ (cachedBlocks.map (·.blockHash)).toFinset ∧
        List.Forall₂ (fun cachedBlock rawBlock => cachedBlock.block.transactionHashes.length = rawBlock.transactions.length)
          cachedBlocks rawBlocks := by
  intro index rawBlocks
  induction rawBlocks generalizing index with
  | nil =>
    intro requested left cachedBlocks h
    cases h
    simp
  | cons rawBlock rawBlocks ih =>
    intro requested left cachedBlocks h
    rcases @checkResponseBlocks_cons hasBlock object cache index rawBlock rawBlocks requested with
      hend | hend | ⟨blockTemplate, -, hrequested, htransactions, hstep⟩
    · rw [hend] at h
      cases h
    · rw [hend] at h
      cases h
    rw [hstep] at h
    split at h
    · rename_i cachedBlocks' left' hrest
      cases h
      obtain ⟨hnodup, hmem, hleft, hcounts⟩ := ih hrest
      refine ⟨?_, ?_, ?_, List.Forall₂.cons htransactions hcounts⟩
      · -- the rest was checked against the set without this hash
        refine List.nodup_cons.mpr ⟨fun hin => ?_, hnodup⟩
        obtain ⟨other, hother, hsame⟩ := List.mem_map.mp hin
        have hother' := hmem other hother
        rw [hsame] at hother'
        exact Finset.notMem_erase _ _ hother'
      · intro cachedBlock hin
        rcases List.mem_cons.mp hin with rfl | hin
        · exact hrequested
        · exact Finset.mem_of_mem_erase (hmem cachedBlock hin)
      · rw [hleft, List.map_cons, List.toFinset_cons, Finset.sdiff_insert, Finset.erase_sdiff_comm]
    · rename_i hnot
      exact absurd h (hnot _ _)

/-- A response that `handle_response_get_objects` hands to `processObjects`, its loop run to the
end and nothing left requested, holds every requested block once and no other, each with as many
transactions as its raw block. -/
theorem checkResponseBlocks_exactly_requested {rawBlocks : List RawBlock} {requested : Finset Hash}
    {cachedBlocks : List CachedBlock}
    (h : checkResponseBlocks hasBlock object cache 0 rawBlocks requested = .passed cachedBlocks ∅) :
    (cachedBlocks.map (·.blockHash)).Nodup ∧ (cachedBlocks.map (·.blockHash)).toFinset = requested ∧
      List.Forall₂ (fun cachedBlock rawBlock => cachedBlock.block.transactionHashes.length = rawBlock.transactions.length)
        cachedBlocks rawBlocks := by
  obtain ⟨hnodup, hmem, hleft, hcounts⟩ := checkResponseBlocks_passed h
  refine ⟨hnodup, Finset.Subset.antisymm (fun blockHash hin => ?_) (Finset.sdiff_eq_empty_iff_subset.mp hleft.symm),
    hcounts⟩
  obtain ⟨cachedBlock, hcached, rfl⟩ := List.mem_map.mp (List.mem_toFinset.mp hin)
  exact hmem cachedBlock hcached

/-- The bytes of block `1` of the runs of `CoreRuns`. -/
def blockOneBytes : List UInt8 :=
  ((blockAt 1 1 100).block.toBinaryArray).getD []

/-- A `CachedBlock` constructor that gives block `1` its hashes. -/
def cacheBlockOne (blockTemplate : BlockTemplate) : CachedBlock :=
  if blockTemplate = (blockAt 1 1 100).block then blockAt 1 1 100 else ⟨blockTemplate, hashOf 0, hashOf 0⟩

/-- Block 2 of the runs of `CoreRuns`, on block 1, with the hash of one transaction. -/
def blockTwoTemplate : BlockTemplate :=
  { (blockAt 2 2 1).block with transactionHashes := [hashOf 7] }

/-- A `CachedBlock` constructor that gives blocks 1 and 2 their hashes. -/
def cacheBlocksOneTwo (blockTemplate : BlockTemplate) : CachedBlock :=
  if blockTemplate = blockTwoTemplate then ⟨blockTwoTemplate, hashOf 2, hashOf 2⟩ else cacheBlockOne blockTemplate

/-- A response carrying the two requested blocks, block 2 with its transaction first. -/
theorem checkResponseBlocks_exactly_requested_twoBlocks :
    let cachedBlocks := [⟨blockTwoTemplate, hashOf 2, hashOf 2⟩, blockAt 1 1 100]
    let rawBlocks : List RawBlock := [⟨blockTwoTemplate.toBinaryArray.getD [], [[7]]⟩, ⟨blockOneBytes, []⟩]
    checkResponseBlocks (fun _ => false) (blockAt 0 100 0).block cacheBlocksOneTwo 0 rawBlocks {hashOf 1, hashOf 2} =
        .passed cachedBlocks ∅ ∧
      (cachedBlocks.map (·.blockHash)).Nodup ∧ (cachedBlocks.map (·.blockHash)).toFinset = {hashOf 1, hashOf 2} ∧
      List.Forall₂ (fun (cachedBlock : CachedBlock) (rawBlock : RawBlock) =>
        cachedBlock.block.transactionHashes.length = rawBlock.transactions.length) cachedBlocks rawBlocks := by
  intro cachedBlocks rawBlocks
  have hpassed : checkResponseBlocks (fun _ => false) (blockAt 0 100 0).block cacheBlocksOneTwo 0 rawBlocks
      {hashOf 1, hashOf 2} = .passed cachedBlocks ∅ := by
    decide +kernel
  exact ⟨hpassed, checkResponseBlocks_exactly_requested hpassed⟩

end Check

/-! ### Only requested blocks reach the core -/

/-- The block hashes a notification asks the peer for. -/
def Notify.requestedBlocks : Notify → List Hash
  | .requestGetObjects blocks => blocks
  | _ => []

/-- The block hashes a list of notifications asks for. -/
def Notify.requestedOf (notifies : List Notify) : Finset Hash :=
  (notifies.flatMap Notify.requestedBlocks).toFinset

@[simp] theorem Notify.requestedOf_nil : Notify.requestedOf [] = ∅ := rfl

@[simp] theorem Notify.requestedOf_append (notifies notifies' : List Notify) :
    Notify.requestedOf (notifies ++ notifies') = Notify.requestedOf notifies ∪ Notify.requestedOf notifies' := by
  simp [Notify.requestedOf, List.toFinset_append]

section Requests

variable {hasBlock : Hash → Bool} {context : CryptoNoteConnectionContext}

theorem requestMissingObjects_requested (checkHavingBlocks : Bool) :
    (requestMissingObjects hasBlock context checkHavingBlocks).2.1.requestedObjects ⊆
      context.requestedObjects ∪ Notify.requestedOf (requestMissingObjects hasBlock context checkHavingBlocks).2.2 := by
  unfold requestMissingObjects
  split_ifs
  · simp [Notify.requestedOf, Notify.requestedBlocks]
  all_goals exact Finset.subset_union_left

theorem handleResponseChainEntry_requested (arg : ResponseChainEntry) :
    (handleResponseChainEntry hasBlock context arg).1.requestedObjects ⊆
      context.requestedObjects ∪ Notify.requestedOf (handleResponseChainEntry hasBlock context arg).2 := by
  unfold handleResponseChainEntry
  split
  · exact Finset.subset_union_left
  · dsimp only
    split_ifs
    · exact Finset.subset_union_left
    all_goals exact requestMissingObjects_requested false

end Requests

section Objects

variable {env : CoreEnvironment} {stop : Bool}

theorem processObjects_spec : ∀ (blocks : List (CachedBlock × RawBlock)) (state : CoreState)
    (context : CryptoNoteConnectionContext) (chains : List (List PushedBlock)), MatchingInvariant env state chains →
    (∃ chains', MatchingInvariant env (processObjects env stop state context blocks).1 chains') ∧
      (processObjects env stop state context blocks).2.1.requestedObjects ⊆ context.requestedObjects ∧
      ∀ blockHash, Core.hasBlock (processObjects env stop state context blocks).1 blockHash = true →
        Core.hasBlock state blockHash = true ∨ blockHash ∈ blocks.map (·.1.blockHash)
  | [], state, context, chains, h => ⟨⟨chains, h⟩, subset_refl _, fun _ hhas => .inl hhas⟩
  | (cachedBlock, rawBlock) :: blocks, state, context, chains, h => by
    obtain ⟨chains', h'⟩ := h.addBlock cachedBlock rawBlock
    -- what the one block does to the core
    have hadded : ∀ blockHash, Core.hasBlock (Core.addBlock env state cachedBlock rawBlock).2 blockHash = true →
        Core.hasBlock state blockHash = true ∨ blockHash ∈ ((cachedBlock, rawBlock) :: blocks).map (·.1.blockHash) := by
      intro blockHash hhas
      rcases h.hasBlock_addBlock cachedBlock rawBlock hhas with hbefore | rfl
      · exact .inl hbefore
      · exact .inr List.mem_cons_self
    unfold processObjects
    split_ifs with hstop
    · exact ⟨⟨chains, h⟩, subset_refl _, fun _ hhas => .inl hhas⟩
    dsimp only
    split
    -- a block that fails validation or is orphaned ends the loop
    case h_1 | h_2 | h_3 | h_4 => exact ⟨⟨chains', h'⟩, subset_refl _, hadded⟩
    · split_ifs
      · exact ⟨⟨chains', h'⟩, Finset.empty_subset _, hadded⟩
      · -- the block went in: the rest of the blocks on the new core
        obtain ⟨hinv, hrequested, hrest⟩ := processObjects_spec blocks _ context chains' h'
        refine ⟨hinv, hrequested, fun blockHash hhas => ?_⟩
        rcases hrest blockHash hhas with hmid | hlater
        · exact hadded blockHash hmid
        · exact .inr (List.mem_cons_of_mem _ hlater)

/-- `handle_response_get_objects` keeps the core's invariant; `hasBlock` finds after it only hashes
it found before and requested ones; the hashes it leaves requested were requested before or are
asked for in what it posts. -/
theorem handleResponseGetObjects_spec {object : BlockTemplate} {cache : BlockTemplate → CachedBlock}
    {state : CoreState} {context : CryptoNoteConnectionContext} {chains : List (List PushedBlock)}
    (h : MatchingInvariant env state chains) (arg : ResponseGetObjects) :
    (∃ chains', MatchingInvariant env (handleResponseGetObjects env object cache stop state context arg).1 chains') ∧
      (handleResponseGetObjects env object cache stop state context arg).2.1.requestedObjects ⊆
        context.requestedObjects ∪ Notify.requestedOf (handleResponseGetObjects env object cache stop state context arg).2.2 ∧
      ∀ blockHash, Core.hasBlock (handleResponseGetObjects env object cache stop state context arg).1 blockHash = true →
        Core.hasBlock state blockHash = true ∨ blockHash ∈ context.requestedObjects := by
  have hsame : ∀ blockHash, Core.hasBlock state blockHash = true →
      Core.hasBlock state blockHash = true ∨ blockHash ∈ context.requestedObjects := fun _ hhas => .inl hhas
  unfold handleResponseGetObjects
  split_ifs with hheight
  · exact ⟨⟨chains, h⟩, Finset.subset_union_left, hsame⟩
  dsimp only
  split
  · -- a block failed: the hashes erased so far stay erased
    rename_i left hcheck
    exact ⟨⟨chains, h⟩, (checkResponseBlocks_shutdown hcheck).trans Finset.subset_union_left, hsame⟩
  · exact ⟨⟨chains, h⟩, Finset.empty_subset _, hsame⟩
  · rename_i cachedBlocks left hcheck
    obtain ⟨-, hmem, hleft, -⟩ := checkResponseBlocks_passed hcheck
    -- every block that went through the loop, and so every block the core gets, was requested
    obtain ⟨hinv, hrequested, hadded⟩ := @processObjects_spec env stop (cachedBlocks.zip
      (convertRawBlocksLegacyToRawBlocks arg.blocks)) state
      { context with remoteBlockchainHeight := arg.currentBlockchainHeight, requestedObjects := ∅ } chains h
    have hcore : ∀ blockHash, Core.hasBlock (processObjects env stop state
        { context with remoteBlockchainHeight := arg.currentBlockchainHeight, requestedObjects := ∅ }
        (cachedBlocks.zip (convertRawBlocksLegacyToRawBlocks arg.blocks))).1 blockHash = true →
        Core.hasBlock state blockHash = true ∨ blockHash ∈ context.requestedObjects := by
      intro blockHash hhas
      rcases hadded blockHash hhas with hbefore | hin
      · exact .inl hbefore
      · obtain ⟨pair, hpair, rfl⟩ := List.mem_map.mp hin
        exact .inr (hmem pair.1 (List.of_mem_zip hpair).1)
    split_ifs with hnonempty
    · -- something requested did not come: the connection goes, with the rest still requested
      exact ⟨⟨chains, h⟩, (hleft ▸ Finset.sdiff_subset).trans Finset.subset_union_left, hsame⟩
    · exact ⟨hinv, hrequested.trans (Finset.empty_subset _), hcore⟩
    · -- still synchronising: the next request adds only what it asks for
      refine ⟨hinv, (requestMissingObjects_requested true).trans ?_, hcore⟩
      rw [Finset.subset_empty.mp hrequested, Finset.empty_union]
      exact Finset.subset_union_right
    · exact ⟨hinv, hrequested.trans (Finset.empty_subset _), hcore⟩

end Objects

/-! ### Runs of one connection -/

/-- The runs of the synchronisation on one connection, from a core and a connection: the core, the
connection, the notifications posted, and the blocks others hand the core meanwhile (the other
connections, the miner, the RPC server), in any interleaving. -/
inductive SyncRun (env : CoreEnvironment) (object : BlockTemplate) (cache : BlockTemplate → CachedBlock)
    (state₀ : CoreState) (context₀ : CryptoNoteConnectionContext) :
    CoreState → CryptoNoteConnectionContext → List Notify → List Hash → Prop
  | start : SyncRun env object cache state₀ context₀ state₀ context₀ [] []
  | responseChainEntry {state : CoreState} {context : CryptoNoteConnectionContext} {posted : List Notify}
      {others : List Hash} (arg : ResponseChainEntry) :
      SyncRun env object cache state₀ context₀ state context posted others →
      SyncRun env object cache state₀ context₀ state (handleResponseChainEntry (Core.hasBlock state) context arg).1
        (posted ++ (handleResponseChainEntry (Core.hasBlock state) context arg).2) others
  | responseGetObjects {state : CoreState} {context : CryptoNoteConnectionContext} {posted : List Notify}
      {others : List Hash} (stop : Bool) (arg : ResponseGetObjects) :
      SyncRun env object cache state₀ context₀ state context posted others →
      SyncRun env object cache state₀ context₀ (handleResponseGetObjects env object cache stop state context arg).1
        (handleResponseGetObjects env object cache stop state context arg).2.1
        (posted ++ (handleResponseGetObjects env object cache stop state context arg).2.2) others
  | addBlock {state : CoreState} {context : CryptoNoteConnectionContext} {posted : List Notify}
      {others : List Hash} (cachedBlock : CachedBlock) (rawBlock : RawBlock) :
      SyncRun env object cache state₀ context₀ state context posted others →
      SyncRun env object cache state₀ context₀ (Core.addBlock env state cachedBlock rawBlock).2 context posted
        (others ++ [cachedBlock.blockHash])

section Runs

variable {env : CoreEnvironment} {object : BlockTemplate} {cache : BlockTemplate → CachedBlock}
  {state₀ state : CoreState} {context₀ context : CryptoNoteConnectionContext} {posted : List Notify}
  {others : List Hash}

theorem union_requestedOf_mono (requested : Finset Hash) (posted more : List Notify) :
    requested ∪ Notify.requestedOf posted ⊆ requested ∪ Notify.requestedOf (posted ++ more) := by
  rw [Notify.requestedOf_append, ← Finset.union_assoc]
  exact Finset.subset_union_left

theorem union_requestedOf_append_subset {requested requested₀ : Finset Hash} {posted : List Notify}
    (h : requested ⊆ requested₀ ∪ Notify.requestedOf posted) (more : List Notify) :
    requested ∪ Notify.requestedOf more ⊆ requested₀ ∪ Notify.requestedOf (posted ++ more) := by
  rw [Notify.requestedOf_append, ← Finset.union_assoc]
  exact Finset.union_subset_union h (subset_refl _)

theorem attribution_mono {atStart : Prop} {requested requested' : Finset Hash} {others others' : List Hash}
    {blockHash : Hash} (hrequested : requested ⊆ requested') (hothers : others ⊆ others') :
    atStart ∨ blockHash ∈ requested ∨ blockHash ∈ others → atStart ∨ blockHash ∈ requested' ∨ blockHash ∈ others' := by
  rintro (hstart | hin | hin)
  · exact .inl hstart
  · exact .inr (.inl (hrequested hin))
  · exact .inr (.inr (hothers hin))

theorem SyncRun.invariant {chains₀ : List (List PushedBlock)} (h₀ : MatchingInvariant env state₀ chains₀)
    (hrun : SyncRun env object cache state₀ context₀ state context posted others) :
    (∃ chains, MatchingInvariant env state chains) ∧
      context.requestedObjects ⊆ context₀.requestedObjects ∪ Notify.requestedOf posted ∧
      ∀ blockHash, Core.hasBlock state blockHash = true →
        Core.hasBlock state₀ blockHash = true ∨ blockHash ∈ context₀.requestedObjects ∪ Notify.requestedOf posted ∨
          blockHash ∈ others := by
  induction hrun with
  | start => exact ⟨⟨chains₀, h₀⟩, Finset.subset_union_left, fun _ hhas => .inl hhas⟩
  | @responseChainEntry state context posted others arg _ ih =>
    -- the core does not change; the new requests are posted
    obtain ⟨hinv, hrequested, hcore⟩ := ih
    refine ⟨hinv, (handleResponseChainEntry_requested arg).trans (union_requestedOf_append_subset hrequested _),
      fun blockHash hhas => ?_⟩
    exact attribution_mono (union_requestedOf_mono _ _ _) (List.Subset.refl _) (hcore blockHash hhas)
  | @responseGetObjects state context posted others stop arg _ ih =>
    -- the core gains only blocks the connection had requested
    obtain ⟨⟨chains, hinv⟩, hrequested, hcore⟩ := ih
    obtain ⟨hinv', hrequested', hcore'⟩ :=
      @handleResponseGetObjects_spec env stop object cache state context chains hinv arg
    refine ⟨hinv', hrequested'.trans (union_requestedOf_append_subset hrequested _), fun blockHash hhas => ?_⟩
    rcases hcore' blockHash hhas with hbefore | hin
    · exact attribution_mono (union_requestedOf_mono _ _ _) (List.Subset.refl _) (hcore blockHash hbefore)
    · exact .inr (.inl (union_requestedOf_mono _ _ _ (hrequested hin)))
  | addBlock cachedBlock rawBlock _ ih =>
    obtain ⟨⟨chains, hinv⟩, hrequested, hcore⟩ := ih
    refine ⟨hinv.addBlock cachedBlock rawBlock, hrequested, fun blockHash hhas => ?_⟩
    rcases hinv.hasBlock_addBlock cachedBlock rawBlock hhas with hbefore | rfl
    · exact attribution_mono (subset_refl _) (List.subset_append_left _ _) (hcore blockHash hbefore)
    · exact .inr (.inr (List.mem_append_right _ List.mem_cons_self))

/-- Over any run of the synchronisation on one connection, interleaved with any blocks others hand
the core, the core gains no block the connection did not ask its peer for: every hash `hasBlock`
finds at the end was found at the start, was requested at the start, is named in a
`NOTIFY_REQUEST_GET_OBJECTS` the connection posted, or was handed to the core by someone else. -/
theorem syncRun_adds_only_requested {genesisBlock : CachedBlock} {rawGenesis : RawBlock}
    (hgenesis : genesisBlock.getBlockIndex = 0) (hstart : Core.Reachable env genesisBlock rawGenesis state₀)
    (hrun : SyncRun env object cache state₀ context₀ state context posted others) {blockHash : Hash}
    (hhas : Core.hasBlock state blockHash = true) :
    Core.hasBlock state₀ blockHash = true ∨ blockHash ∈ context₀.requestedObjects ∨
      (∃ blocks, Notify.requestGetObjects blocks ∈ posted ∧ blockHash ∈ blocks) ∨ blockHash ∈ others := by
  obtain ⟨chains₀, h₀⟩ := hstart.matchingInvariant hgenesis
  rcases (hrun.invariant h₀).2.2 blockHash hhas with hbefore | hin | hothers
  · exact .inl hbefore
  · rcases Finset.mem_union.mp hin with hrequested | hposted
    · exact .inr (.inl hrequested)
    · -- a hash that some posted notification asks for
      obtain ⟨notify, hnotify, hblock⟩ := List.mem_flatMap.mp (List.mem_toFinset.mp hposted)
      cases notify with
      | requestGetObjects blocks => exact .inr (.inr (.inl ⟨blocks, hnotify, hblock⟩))
      | requestChain => exact absurd hblock List.not_mem_nil
      | requestTxPool => exact absurd hblock List.not_mem_nil
  · exact .inr (.inr (.inr hothers))

/-- A node holding only the genesis block learns that its peer's chain goes on with block `1`,
asks for it, receives it and adds it. -/
theorem syncRun_adds_only_requested_blockOne :
    let env := openEnvironment ⟨[], List.nodup_nil⟩ 1 true
    let state₀ := Core.init (blockAt 0 100 0) (rawOf 100)
    let context₀ : CryptoNoteConnectionContext := ⟨1, .synchronizing, [], ∅, 0, 0⟩
    let entry : ResponseChainEntry := ⟨0, 2, [hashOf 100, hashOf 1]⟩
    let objects : ResponseGetObjects := ⟨[⟨blockOneBytes, []⟩], 2⟩
    let entered := handleResponseChainEntry (Core.hasBlock state₀) context₀ entry
    let received := handleResponseGetObjects env (blockAt 0 100 0).block cacheBlockOne false state₀ entered.1 objects
    Core.hasBlock received.1 (hashOf 1) = true ∧
      (Core.hasBlock state₀ (hashOf 1) = true ∨ hashOf 1 ∈ context₀.requestedObjects ∨
        (∃ blocks, Notify.requestGetObjects blocks ∈ [] ++ entered.2 ++ received.2.2 ∧ hashOf 1 ∈ blocks) ∨
        hashOf 1 ∈ ([] : List Hash)) :=
  have hhas : Core.hasBlock (handleResponseGetObjects (openEnvironment ⟨[], List.nodup_nil⟩ 1 true) (blockAt 0 100 0).block
      cacheBlockOne false (Core.init (blockAt 0 100 0) (rawOf 100))
      (handleResponseChainEntry (Core.hasBlock (Core.init (blockAt 0 100 0) (rawOf 100))) ⟨1, .synchronizing, [], ∅, 0, 0⟩
        ⟨0, 2, [hashOf 100, hashOf 1]⟩).1 ⟨[⟨blockOneBytes, []⟩], 2⟩).1 (hashOf 1) = true := by
    decide +kernel
  ⟨hhas, syncRun_adds_only_requested rfl Core.Reachable.init
    ((SyncRun.start.responseChainEntry ⟨0, 2, [hashOf 100, hashOf 1]⟩).responseGetObjects false
      ⟨[⟨blockOneBytes, []⟩], 2⟩) hhas⟩

end Runs

end Crygcoin
