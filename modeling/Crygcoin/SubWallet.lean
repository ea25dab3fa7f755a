import Crygcoin.Transaction
import Mathlib.Data.UInt

namespace Crygcoin

/-! The inputs a wallet owns, as `SubWallet` of `SubWallet.cpp` keeps them: four lists, the
unspent inputs, the inputs locked by a send still in the pool, the spent inputs, and the amounts
coming back to the wallet from its own unconfirmed sends. The synchroniser moves inputs between
them as blocks are scanned, the sender locks them, and a fork or a cancelled send moves them back. -/

namespace WalletTypes

/-- `WalletTypes::TransactionInput`, with the fields the lists read. -/
structure TransactionInput where
  keyImage : KeyImage
  amount : UInt64
  /-- the height of the block whose transaction paid it to the wallet -/
  blockHeight : UInt64
  /-- the output key -/
  key : PublicKey
  /-- the height it was spent at, once spent -/
  spendHeight : UInt64
  unlockTime : UInt64
  /-- the transaction that created it -/
  parentTransactionHash : Hash
deriving DecidableEq, Repr

/-- `WalletTypes::UnconfirmedInput`: an amount one of the wallet's own sends pays back to it. -/
structure UnconfirmedInput where
  amount : UInt64
  key : PublicKey
  parentTransactionHash : Hash
deriving DecidableEq, Repr

end WalletTypes

open WalletTypes

def CRYPTONOTE_MAX_BLOCK_NUMBER : UInt64 := 500000000

def CRYPTONOTE_LOCKED_TX_ALLOWED_DELTA_BLOCKS : UInt64 := 1

def CRYPTONOTE_LOCKED_TX_ALLOWED_DELTA_SECONDS : UInt64 := 30 * CRYPTONOTE_LOCKED_TX_ALLOWED_DELTA_BLOCKS

/-- `Utilities::isInputUnlocked`, at the clock value `now` for `std::time(nullptr)`: an unlock time
from `CRYPTONOTE_MAX_BLOCK_NUMBER` on is a timestamp, below it a height. -/
def isInputUnlocked (unlockTime currentHeight now : UInt64) : Bool :=
  if unlockTime = 0 then true
  else if unlockTime ≥ CRYPTONOTE_MAX_BLOCK_NUMBER then
    now + CRYPTONOTE_LOCKED_TX_ALLOWED_DELTA_SECONDS ≥ unlockTime
  else currentHeight + CRYPTONOTE_LOCKED_TX_ALLOWED_DELTA_BLOCKS ≥ unlockTime

/-- `SubWallet`: the four lists of inputs. -/
structure SubWallet where
  unspentInputs : List WalletTypes.TransactionInput
  lockedInputs : List WalletTypes.TransactionInput
  spentInputs : List WalletTypes.TransactionInput
  unconfirmedIncomingAmounts : List UnconfirmedInput
deriving DecidableEq, Repr

open scoped List

theorem perm_cons_eraseP_of_find? {α : Type} {p : α → Bool} {l : List α} {x : α} (h : l.find? p = some x) :
    l.Perm (x :: l.eraseP p) := by
  induction l with
  | nil => simp at h
  | cons a l ih =>
    by_cases hp : p a
    · rw [List.find?_cons_of_pos hp, Option.some.injEq] at h
      subst h
      rw [List.eraseP_cons_of_pos hp]
    · rw [List.find?_cons_of_neg hp] at h
      rw [List.eraseP_cons_of_neg hp]
      exact ((ih h).cons a).trans (List.Perm.swap x a _)

theorem perm_move_of_perm_cons {α : Type} {l e : List α} {x : α} (h : l.Perm (x :: e)) (front back rest : List α) :
    (front ++ (e ++ (back ++ x :: rest))).Perm (front ++ (l ++ (back ++ rest))) := by
  refine List.Perm.append_left front ?_
  calc e ++ (back ++ x :: rest)
      _ ~ e ++ x :: (back ++ rest) := List.perm_middle.append_left e
      _ ~ x :: (e ++ (back ++ rest)) := List.perm_middle
      _ ~ l ++ (back ++ rest) := h.symm.append_right _

namespace SubWallet

/-- A subwallet that owns nothing yet. -/
def empty : SubWallet := ⟨[], [], [], []⟩

/-- `storeTransactionInput`: an input found in a block joins the unspent ones; if it is change
from one of the wallet's own sends, its unconfirmed amount goes. -/
def storeTransactionInput (wallet : SubWallet) (input : WalletTypes.TransactionInput) (isViewWallet : Bool) :
    SubWallet :=
  { wallet with
    unconfirmedIncomingAmounts :=
      if isViewWallet then wallet.unconfirmedIncomingAmounts
      else wallet.unconfirmedIncomingAmounts.filter fun stored => stored.key != input.key
    unspentInputs := wallet.unspentInputs ++ [input] }

def storeUnconfirmedIncomingInput (wallet : SubWallet) (input : UnconfirmedInput) : SubWallet :=
  { wallet with unconfirmedIncomingAmounts := wallet.unconfirmedIncomingAmounts ++ [input] }

/-- `getBalance`: the unlocked and the locked balance. The locked inputs of pending sends count
in neither; the unconfirmed amounts count as locked. -/
def getBalance (wallet : SubWallet) (currentHeight now : UInt64) : UInt64 × UInt64 :=
  let unlocked := wallet.unspentInputs.filter fun input => isInputUnlocked input.unlockTime currentHeight now
  let locked := wallet.unspentInputs.filter fun input => !isInputUnlocked input.unlockTime currentHeight now
  ((unlocked.map (·.amount)).sum,
    (locked.map (·.amount)).sum + (wallet.unconfirmedIncomingAmounts.map (·.amount)).sum)

/-- `markInputAsSpent`: the first input with the key image, unspent or else locked, moves to the
spent inputs with its spend height. -/
def markInputAsSpent (wallet : SubWallet) (keyImage : KeyImage) (spendHeight : UInt64) : Except String SubWallet :=
  match wallet.unspentInputs.find? (·.keyImage == keyImage) with
  | some input =>
    pure { wallet with
      spentInputs := wallet.spentInputs ++ [{ input with spendHeight }]
      unspentInputs := wallet.unspentInputs.eraseP (·.keyImage == keyImage) }
  | none =>
    match wallet.lockedInputs.find? (·.keyImage == keyImage) with
    | some input =>
      pure { wallet with
        spentInputs := wallet.spentInputs ++ [{ input with spendHeight }]
        lockedInputs := wallet.lockedInputs.eraseP (·.keyImage == keyImage) }
    | none => throw "Could not find key image to remove!"

/-- `markInputAsLocked`: the first unspent input with the key image moves to the locked inputs. -/
def markInputAsLocked (wallet : SubWallet) (keyImage : KeyImage) : Except String SubWallet :=
  match wallet.unspentInputs.find? (·.keyImage == keyImage) with
  | none => throw "Could not find key image to lock!"
  | some input =>
    pure { wallet with
      lockedInputs := wallet.lockedInputs ++ [input]
      unspentInputs := wallet.unspentInputs.eraseP (·.keyImage == keyImage) }

/-- `removeForkedInputs`: the locked inputs and the unconfirmed amounts are dropped, the unspent
inputs received at or above the fork go, and the spent inputs spent at or above the fork return to
the unspent ones with spend height 0, whatever height they were received at. -/
def removeForkedInputs (wallet : SubWallet) (forkHeight : UInt64) : SubWallet :=
  { wallet with
    lockedInputs := []
    unconfirmedIncomingAmounts := []
    unspentInputs := wallet.unspentInputs.filter (·.blockHeight < forkHeight) ++
      (wallet.spentInputs.filter (forkHeight ≤ ·.spendHeight)).map fun input => { input with spendHeight := 0 }
    spentInputs := wallet.spentInputs.filter (·.spendHeight < forkHeight) }

/-- `removeCancelledTransactions`: the locked inputs whose parent transaction is cancelled return to
the unspent ones, and the unconfirmed amounts of the cancelled transactions go. -/
def removeCancelledTransactions (wallet : SubWallet) (cancelledTransactions : List Hash) : SubWallet :=
  { wallet with
    unspentInputs := wallet.unspentInputs ++
      (wallet.lockedInputs.filter (·.parentTransactionHash ∈ cancelledTransactions)).map
        fun input => { input with spendHeight := 0 }
    lockedInputs := wallet.lockedInputs.filter (·.parentTransactionHash ∉ cancelledTransactions)
    unconfirmedIncomingAmounts :=
      wallet.unconfirmedIncomingAmounts.filter (·.parentTransactionHash ∉ cancelledTransactions) }

/-- What happens to a subwallet: the synchroniser stores an input or marks one spent at a height, a
send locks an input or stores an amount coming back. -/
inductive Event
  | storeInput (input : WalletTypes.TransactionInput)
  | spend (keyImage : KeyImage) (spendHeight : UInt64)
  | lock (keyImage : KeyImage)
  | storeUnconfirmed (input : UnconfirmedInput)
deriving DecidableEq, Repr

/-- One event, on a wallet that is not a view wallet. -/
def apply (wallet : SubWallet) : Event → Except String SubWallet
  | .storeInput input => pure (wallet.storeTransactionInput input false)
  | .spend keyImage spendHeight => wallet.markInputAsSpent keyImage spendHeight
  | .lock keyImage => wallet.markInputAsLocked keyImage
  | .storeUnconfirmed input => pure (wallet.storeUnconfirmedIncomingInput input)

/-- The events in order; the first that throws stops the run. -/
def run (wallet : SubWallet) (events : List Event) : Except String SubWallet :=
  events.foldlM apply wallet

/-- Every input the subwallet holds, in any of its three lists. -/
def inputs (wallet : SubWallet) : List WalletTypes.TransactionInput :=
  wallet.unspentInputs ++ wallet.lockedInputs ++ wallet.spentInputs

/-- An input as it was received: every field but the spend height, which only a spend sets. -/
def asReceived (input : WalletTypes.TransactionInput) : WalletTypes.TransactionInput :=
  { input with spendHeight := 0 }

@[simp] theorem asReceived_spendHeight (input : WalletTypes.TransactionInput) (spendHeight : UInt64) :
    asReceived { input with spendHeight } = asReceived input := rfl

/-- The inputs an event stores. -/
def Event.storedInputs : Event → List WalletTypes.TransactionInput
  | .storeInput input => [input]
  | _ => []

@[simp] theorem run_nil (wallet : SubWallet) : wallet.run [] = .ok wallet := rfl

theorem run_cons (wallet : SubWallet) (event : Event) (events : List Event) :
    wallet.run (event :: events) = (wallet.apply event).bind fun wallet => wallet.run events := rfl

section Steps

variable {wallet : SubWallet} {input : WalletTypes.TransactionInput} {rest : List WalletTypes.TransactionInput}
  {keyImage : KeyImage}

theorem markInputAsLocked_head (h : wallet.unspentInputs = input :: rest) (hkey : input.keyImage = keyImage) :
    wallet.markInputAsLocked keyImage =
      .ok { wallet with lockedInputs := wallet.lockedInputs ++ [input], unspentInputs := rest } := by
  subst hkey
  simp [markInputAsLocked, h, pure, Except.pure]

theorem markInputAsSpent_head (h : wallet.unspentInputs = input :: rest) (hkey : input.keyImage = keyImage)
    (spendHeight : UInt64) :
    wallet.markInputAsSpent keyImage spendHeight =
      .ok { wallet with spentInputs := wallet.spentInputs ++ [{ input with spendHeight }], unspentInputs := rest } := by
  subst hkey
  simp [markInputAsSpent, h, pure, Except.pure]

end Steps

section Runs

variable {wallet wallet' : SubWallet} {keyImage : KeyImage}

theorem markInputAsSpent_inputs {spendHeight : UInt64} (h : wallet.markInputAsSpent keyImage spendHeight = .ok wallet') :
    (wallet'.inputs.map asReceived).Perm (wallet.inputs.map asReceived) ∧
      wallet.spentInputs <+: wallet'.spentInputs := by
  unfold markInputAsSpent at h
  split at h
  · -- the first unspent input with the key image
    rename_i input hfound
    cases h
    have hmove := (perm_cons_eraseP_of_find? hfound).map asReceived
    refine ⟨?_, List.prefix_append _ _⟩
    simpa [inputs] using perm_move_of_perm_cons hmove [] (wallet.lockedInputs.map asReceived ++
      wallet.spentInputs.map asReceived) []
  · split at h
    · -- else the first locked input with the key image
      rename_i input hfound
      cases h
      have hmove := (perm_cons_eraseP_of_find? hfound).map asReceived
      refine ⟨?_, List.prefix_append _ _⟩
      simpa [inputs] using perm_move_of_perm_cons hmove (wallet.unspentInputs.map asReceived)
        (wallet.spentInputs.map asReceived) []
    · cases h

theorem markInputAsLocked_inputs (h : wallet.markInputAsLocked keyImage = .ok wallet') :
    (wallet'.inputs.map asReceived).Perm (wallet.inputs.map asReceived) ∧
      wallet'.spentInputs = wallet.spentInputs := by
  unfold markInputAsLocked at h
  split at h
  · cases h
  · rename_i input hfound
    cases h
    have hmove := (perm_cons_eraseP_of_find? hfound).map asReceived
    refine ⟨?_, rfl⟩
    simpa [inputs] using perm_move_of_perm_cons hmove [] (wallet.lockedInputs.map asReceived)
      (wallet.spentInputs.map asReceived)

theorem apply_inputs {event : Event} (h : wallet.apply event = .ok wallet') :
    (wallet'.inputs.map asReceived).Perm ((wallet.inputs ++ event.storedInputs).map asReceived) ∧
      wallet.spentInputs <+: wallet'.spentInputs := by
  cases event with
  | storeInput input =>
    cases h
    refine ⟨?_, List.prefix_refl _⟩
    simpa [inputs, storeTransactionInput, Event.storedInputs] using
      (perm_move_of_perm_cons (List.Perm.refl [asReceived input]) (wallet.unspentInputs.map asReceived)
        (wallet.lockedInputs.map asReceived ++ wallet.spentInputs.map asReceived) []).symm
  | spend keyImage spendHeight =>
    simpa [Event.storedInputs] using markInputAsSpent_inputs h
  | lock keyImage =>
    obtain ⟨hperm, hspent⟩ := markInputAsLocked_inputs h
    simpa [Event.storedInputs, hspent] using hperm
  | storeUnconfirmed input =>
    cases h
    exact ⟨by simp [inputs, storeUnconfirmedIncomingInput, Event.storedInputs], List.prefix_refl _⟩

/-- A run that does not throw loses no input, makes no copy of one and changes none but for its spend
height: its inputs are those it started with and those it stored. The spent inputs only grow. -/
theorem run_keeps_inputs {events : List Event} (h : wallet.run events = .ok wallet') :
    (wallet'.inputs.map asReceived).Perm ((wallet.inputs ++ events.flatMap Event.storedInputs).map asReceived) ∧
      wallet.spentInputs <+: wallet'.spentInputs := by
  -- induction on the events, from any wallet: the first event is one step
  induction events generalizing wallet with
  | nil =>
    cases h
    simp
  | cons event events ih =>
    rw [run_cons] at h
    cases hstep : wallet.apply event with
    | error message => rw [hstep] at h; cases h
    | ok stepped =>
      rw [hstep] at h
      obtain ⟨hperm, hspent⟩ := apply_inputs hstep
      obtain ⟨hrest, hrestSpent⟩ := ih h
      refine ⟨hrest.trans ?_, hspent.trans hrestSpent⟩
      simpa [List.map_append, List.append_assoc] using
        hperm.append_right ((events.flatMap Event.storedInputs).map asReceived)

/-- Two inputs received, the first locked by a send and then both spent. -/
theorem run_keeps_inputs_lockAndSpend :
    let first : WalletTypes.TransactionInput :=
      ⟨⟨Vector.replicate 32 1⟩, 100, 5, ⟨Vector.replicate 32 2⟩, 0, 0, ⟨Vector.replicate 32 3⟩⟩
    let second : WalletTypes.TransactionInput :=
      ⟨⟨Vector.replicate 32 4⟩, 250, 6, ⟨Vector.replicate 32 5⟩, 0, 0, ⟨Vector.replicate 32 6⟩⟩
    let events := [Event.storeInput first, .storeInput second, .lock first.keyImage, .spend second.keyImage 7,
      .spend first.keyImage 9]
    empty.run events = .ok ⟨[], [], [{ second with spendHeight := 7 }, { first with spendHeight := 9 }], []⟩ ∧
      ((SubWallet.mk [] [] [{ second with spendHeight := 7 }, { first with spendHeight := 9 }] []).inputs.map
          asReceived).Perm ((empty.inputs ++ events.flatMap Event.storedInputs).map asReceived) ∧
      empty.spentInputs <+: [{ second with spendHeight := 7 }, { first with spendHeight := 9 }] :=
  ⟨by decide, run_keeps_inputs (by decide)⟩

end Runs


section Fork

variable {wallet : SubWallet} {forkHeight : UInt64}

theorem removeForkedInputs_of_below (hunspent : ∀ x ∈ wallet.unspentInputs, x.blockHeight < forkHeight)
    (hspent : ∀ x ∈ wallet.spentInputs, x.spendHeight < forkHeight) :
    wallet.removeForkedInputs forkHeight = { wallet with lockedInputs := [], unconfirmedIncomingAmounts := [] } := by
  have hkeep : wallet.unspentInputs.filter (·.blockHeight < forkHeight) = wallet.unspentInputs :=
    List.filter_eq_self.mpr fun x hx => decide_eq_true (hunspent x hx)
  have hnone : wallet.spentInputs.filter (forkHeight ≤ ·.spendHeight) = [] :=
    List.filter_eq_nil_iff.mpr fun x hx => by simpa using hspent x hx
  have hstay : wallet.spentInputs.filter (·.spendHeight < forkHeight) = wallet.spentInputs :=
    List.filter_eq_self.mpr fun x hx => decide_eq_true (hspent x hx)
  rw [removeForkedInputs, hkeep, hnone, hstay, List.map_nil, List.append_nil]

end Fork

theorem getBalance_add (wallet : SubWallet) (currentHeight now : UInt64) :
    (wallet.getBalance currentHeight now).1 + (wallet.getBalance currentHeight now).2 =
      (wallet.unspentInputs.map (·.amount)).sum + (wallet.unconfirmedIncomingAmounts.map (·.amount)).sum := by
  have hsplit := List.sum_map_filter_add_sum_map_filter_not
    (fun input : WalletTypes.TransactionInput => isInputUnlocked input.unlockTime currentHeight now = true)
    (·.amount) wallet.unspentInputs
  simp only [Bool.not_eq_true] at hsplit
  rw [getBalance, ← add_assoc, ← hsplit]
  simp

section Cancel

variable {wallet : SubWallet} {cancelledTransactions : List Hash}

theorem removeCancelledTransactions_of_not_mem
    (hlocked : ∀ x ∈ wallet.lockedInputs, x.parentTransactionHash ∉ cancelledTransactions)
    (hunconfirmed : ∀ x ∈ wallet.unconfirmedIncomingAmounts, x.parentTransactionHash ∉ cancelledTransactions) :
    wallet.removeCancelledTransactions cancelledTransactions = wallet := by
  have hnone : wallet.lockedInputs.filter (·.parentTransactionHash ∈ cancelledTransactions) = [] :=
    List.filter_eq_nil_iff.mpr fun x hx => by simpa using hlocked x hx
  have hkeep : wallet.lockedInputs.filter (·.parentTransactionHash ∉ cancelledTransactions) = wallet.lockedInputs :=
    List.filter_eq_self.mpr fun x hx => decide_eq_true (hlocked x hx)
  have hstay : wallet.unconfirmedIncomingAmounts.filter (·.parentTransactionHash ∉ cancelledTransactions) =
      wallet.unconfirmedIncomingAmounts :=
    List.filter_eq_self.mpr fun x hx => decide_eq_true (hunconfirmed x hx)
  rw [removeCancelledTransactions, hnone, hkeep, hstay, List.map_nil, List.append_nil]

theorem removeCancelledTransactions_append_unconfirmed {added : List UnconfirmedInput}
    (hadded : ∀ x ∈ added, x.parentTransactionHash ∈ cancelledTransactions) :
    { wallet with unconfirmedIncomingAmounts := wallet.unconfirmedIncomingAmounts ++ added }.removeCancelledTransactions
      cancelledTransactions = wallet.removeCancelledTransactions cancelledTransactions := by
  have hgone : added.filter (·.parentTransactionHash ∉ cancelledTransactions) = [] :=
    List.filter_eq_nil_iff.mpr fun x hx => by simpa using hadded x hx
  simp only [removeCancelledTransactions, List.filter_append, hgone, List.append_nil]

end Cancel

/-- The rollback is not the replay of the events below the fork. An input stored and then locked
by a send still pending is in no list after the rollback, whatever the fork height; when it was
received below the fork, the replay of the events below the fork is the whole run, which keeps it
locked. An input received at the fork and spent above it is in no list of the replay, which has no
event at all, but unspent after the rollback; scanning the fork's blocks again then stores it a
second time, and its key image ends up both unspent and spent. -/
theorem removeForkedInputs_differs_from_replay (input : WalletTypes.TransactionInput) {forkHeight spendHeight : UInt64}
    (habove : forkHeight ≤ spendHeight) :
    (∃ wallet, empty.run [.storeInput input, .lock input.keyImage] = .ok wallet ∧ wallet.lockedInputs = [input] ∧
      (wallet.removeForkedInputs forkHeight).inputs = []) ∧
    ∃ wallet, empty.run [.storeInput { input with blockHeight := forkHeight }, .spend input.keyImage spendHeight] =
        .ok wallet ∧
      (wallet.removeForkedInputs forkHeight).unspentInputs = [{ input with blockHeight := forkHeight, spendHeight := 0 }] ∧
      ∃ rescanned, (wallet.removeForkedInputs forkHeight).run
          [.storeInput { input with blockHeight := forkHeight }, .spend input.keyImage spendHeight] = .ok rescanned ∧
        input.keyImage ∈ rescanned.unspentInputs.map (·.keyImage) ∧ input.keyImage ∈ rescanned.spentInputs.map (·.keyImage) := by
  refine ⟨⟨⟨[], [input], [], []⟩, ?_, rfl, ?_⟩, ?_⟩
  · -- the input is stored, then locked
    show (empty.storeTransactionInput input false).run [.lock input.keyImage] = _
    rw [run_cons, apply,
      markInputAsLocked_head (show (empty.storeTransactionInput input false).unspentInputs = input :: [] from rfl) rfl]
    rfl
  · -- nothing happened at or above the fork, yet the locked input goes
    rw [removeForkedInputs_of_below (fun x hx => absurd hx List.not_mem_nil) (fun x hx => absurd hx List.not_mem_nil)]
    rfl
  · -- the input is stored at the fork and spent above it
    let received : WalletTypes.TransactionInput := { input with blockHeight := forkHeight }
    have hrun : empty.run [.storeInput received, .spend input.keyImage spendHeight] =
        .ok ⟨[], [], [{ received with spendHeight }], []⟩ := by
      show (empty.storeTransactionInput received false).run [.spend input.keyImage spendHeight] = _
      rw [run_cons, apply,
        markInputAsSpent_head (show (empty.storeTransactionInput received false).unspentInputs = received :: [] from rfl)
          rfl]
      rfl
    -- the rollback returns it to the unspent inputs and forgets that it was spent
    have hrollback : (SubWallet.mk [] [] [{ received with spendHeight }] []).removeForkedInputs forkHeight =
        ⟨[{ received with spendHeight := 0 }], [], [], []⟩ := by
      simp [removeForkedInputs, habove, UInt64.not_lt.mpr habove]
    refine ⟨_, hrun, by rw [hrollback], ⟨[received], [], [{ received with spendHeight }], []⟩, ?_, ?_, ?_⟩
    · -- scanning again: the same input is stored next to its returned copy, and the copy is spent
      rw [hrollback]
      show (SubWallet.mk [{ received with spendHeight := 0 }, received] [] [] []).run
        [.spend input.keyImage spendHeight] = _
      rw [run_cons, apply, markInputAsSpent_head (show (SubWallet.mk [{ received with spendHeight := 0 }, received] [] [] []
        ).unspentInputs = { received with spendHeight := 0 } :: [received] from rfl) rfl]
      rfl
    · exact List.mem_singleton.mpr rfl
    · exact List.mem_singleton.mpr rfl

/-- An input of 100 received at height 5, a fork at height 10, a spend at height 12. -/
theorem removeForkedInputs_differs_from_replay_fork_at_ten :
    let input : WalletTypes.TransactionInput :=
      ⟨⟨Vector.replicate 32 1⟩, 100, 5, ⟨Vector.replicate 32 2⟩, 0, 0, ⟨Vector.replicate 32 3⟩⟩
    (10 : UInt64) ≤ 12 ∧
    (∃ wallet, empty.run [.storeInput input, .lock input.keyImage] = .ok wallet ∧ wallet.lockedInputs = [input] ∧
      (wallet.removeForkedInputs 10).inputs = []) ∧
    ∃ wallet, empty.run [.storeInput { input with blockHeight := 10 }, .spend input.keyImage 12] = .ok wallet ∧
      (wallet.removeForkedInputs 10).unspentInputs = [{ input with blockHeight := 10, spendHeight := 0 }] ∧
      ∃ rescanned, (wallet.removeForkedInputs 10).run
          [.storeInput { input with blockHeight := 10 }, .spend input.keyImage 12] = .ok rescanned ∧
        input.keyImage ∈ rescanned.unspentInputs.map (·.keyImage) ∧ input.keyImage ∈ rescanned.spentInputs.map (·.keyImage) :=
  ⟨by decide, removeForkedInputs_differs_from_replay _ (by decide)⟩

end SubWallet

end Crygcoin
