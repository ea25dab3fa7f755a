import Mathlib.Logic.Function.Basic
import Crygcoin.FisherYates

namespace Crygcoin

open scoped List

/-! `ShuffleGenerator<T>` (Common/ShuffleGenerator.h), the sparse Fisher–Yates shuffle of `[0, N)`
behind the decoy draws. Position `i` of its virtual array holds `selected[i]` when the map has
that key and `i` otherwise (`slot`); a call draws a position in `[0, count - 1]`, returns what it
holds, stores there what the last position holds, and shortens the array by one. That is one
`swapRemove` of the array `pending` (`pending_swapOut`), so the calls of a generator refine
`fisherYates` over `List.range N`, and the library's facts about it carry over.

`T` is `Nat`: the generator only compares it with `0`, decrements a positive count and uses it as
a key. The map is a function, since only its look-ups and stores are used. The number
`Random::randomValue<T>(0, --count)` returns is the call's argument. `SequenceEnded` is its
message; it is thrown before anything changes, as in the source. -/

structure ShuffleGenerator where
  selected : Nat → Option Nat
  count : Nat
  N : Nat

namespace ShuffleGenerator

/-- The constructor `ShuffleGenerator(T n)`. -/
def new (n : Nat) : ShuffleGenerator := ⟨fun _ => none, n, n⟩

/-- What `SequenceEnded` carries. -/
def sequenceEnded : String := "shuffle sequence ended"

/-- `operator()`; `value` is what `Random::randomValue<T>(0, --count)` returned. -/
def call (value : Nat) : EStateM String ShuffleGenerator Nat := do
  let g ← get
  if g.count = 0 then
    throw sequenceEnded
  let count := g.count - 1
  let rval := (g.selected count).getD count
  match g.selected value with
  | some lval =>
    set { g with count := count, selected := Function.update g.selected value (some rval) }
    pure lval
  | none =>
    set { g with count := count, selected := Function.update g.selected value (some rval) }
    pure value

def empty (g : ShuffleGenerator) : Bool := g.count == 0

def reset (g : ShuffleGenerator) : ShuffleGenerator := { g with count := g.N, selected := fun _ => none }

/-- The first `values.length` calls, the `i`-th drawing `values[i]`, as a caller's loop makes them. -/
def callSequence : List Nat → EStateM String ShuffleGenerator (List Nat)
  | [] => pure []
  | value :: values => do
    let drawn ← call value
    let rest ← callSequence values
    pure (drawn :: rest)

/-! The virtual array, and the state a successful call leaves. -/

/-- Position `i` of the virtual array. -/
def slot (g : ShuffleGenerator) (i : Nat) : Nat := (g.selected i).getD i

/-- The values not drawn yet: the virtual array at positions `[0, count)`. -/
def pending (g : ShuffleGenerator) : List Nat := (List.range g.count).map g.slot

/-- The state after a call that drew position `value`. -/
def swapOut (g : ShuffleGenerator) (value : Nat) : ShuffleGenerator :=
  { g with count := g.count - 1,
           selected := Function.update g.selected value (some (g.slot (g.count - 1))) }

@[simp] theorem swapOut_count (g : ShuffleGenerator) (value : Nat) : (g.swapOut value).count = g.count - 1 := rfl

@[simp] theorem swapOut_N (g : ShuffleGenerator) (value : Nat) : (g.swapOut value).N = g.N := rfl

@[simp] theorem length_pending (g : ShuffleGenerator) : g.pending.length = g.count := by
  simp [pending]

theorem getElem_pending (g : ShuffleGenerator) {i : Nat} (hi : i < g.pending.length) :
    g.pending[i] = g.slot i := by
  simp [pending]

@[simp] theorem pending_new (n : Nat) : (new n).pending = List.range n := by
  have hslot : (new n).slot = id := rfl
  show (List.range n).map (new n).slot = List.range n
  rw [hslot, List.map_id]

theorem call_run (g : ShuffleGenerator) (value : Nat) :
    (call value).run g =
      if g.count = 0 then .error sequenceEnded g else .ok (g.slot value) (g.swapOut value) := by
  by_cases hcount : g.count = 0
  · simp [call, hcount, EStateM.run_bind]
  · -- both branches of the look-up store the same swap; they differ only in what they return
    simp only [call, EStateM.run_bind, EStateM.run_get, hcount, if_false]
    cases hvalue : g.selected value with
    | none =>
      simp only [EStateM.run_bind, EStateM.run_set, EStateM.run_pure]
      simp [slot, swapOut, hvalue]
    | some lval =>
      simp only [EStateM.run_bind, EStateM.run_set, EStateM.run_pure]
      simp [slot, swapOut, hvalue]

theorem callSequence_cons_run (g : ShuffleGenerator) (value : Nat) (values : List Nat) :
    (callSequence (value :: values)).run g =
      if g.count = 0 then .error sequenceEnded g
      else match (callSequence values).run (g.swapOut value) with
        | .ok rest g' => .ok (g.slot value :: rest) g'
        | .error e g' => .error e g' := by
  by_cases hcount : g.count = 0
  · simp only [callSequence, EStateM.run_bind, call_run, hcount, if_true]
  · simp only [callSequence, EStateM.run_bind, call_run, hcount, if_false]
    cases (callSequence values).run (g.swapOut value) <;> rfl

theorem pending_swapOut {g : ShuffleGenerator} {value : Nat} (hvalue : value < g.count) :
    (g.swapOut value).pending = swapRemove g.pending value := by
  obtain ⟨count, hcount⟩ : ∃ count, g.count = count + 1 := ⟨g.count - 1, by omega⟩
  have hsplit : g.pending = (List.range count).map g.slot ++ [g.slot count] := by
    simp [pending, hcount, List.range_succ]
  rw [hsplit, swapRemove_concat]
  apply List.ext_getElem (by simp [hcount])
  intro i hi _
  have hi' : i < count := by simpa [hcount] using hi
  by_cases hdrawn : i = value
  · subst hdrawn
    simp [getElem_pending, slot, swapOut, hcount]
  · simp [getElem_pending, slot, swapOut, hcount, hdrawn, Ne.symm hdrawn]

theorem callSequence_run :
    ∀ {g : ShuffleGenerator} {values : List Nat}, DrawsFit g.count values →
      ∃ out g', fisherYates g.pending values = some out ∧ (callSequence values).run g = .ok out g' ∧
        g'.count = g.count - values.length ∧ g'.N = g.N
  | g, [], _ => ⟨[], g, rfl, rfl, by simp, rfl⟩
  | g, value :: values, hfit => by
    obtain ⟨hvalue, hrest⟩ := drawsFit_cons.mp hfit
    obtain ⟨out, g', hout, hrun, hcount, hN⟩ :=
      @callSequence_run (g.swapOut value) values (by simpa using hrest)
    refine ⟨g.slot value :: out, g', ?_, ?_, ?_, by simpa using hN⟩
    · have hlen : value < g.pending.length := by simpa using hvalue
      rw [fisherYates_cons_eq_some]
      refine ⟨hlen, out, by rwa [← pending_swapOut hvalue], by rw [getElem_pending]⟩
    · rw [callSequence_cons_run, if_neg (by omega), hrun]
    · simp only [hcount, swapOut_count, List.length_cons]
      omega

theorem N_of_callSequence_run :
    ∀ {g g' : ShuffleGenerator} {values : List Nat},
      ((∃ out, (callSequence values).run g = .ok out g') ∨ (∃ e, (callSequence values).run g = .error e g')) →
        g'.N = g.N
  | g, g', [], h => by
    rcases h with ⟨out, h⟩ | ⟨e, h⟩ <;> simp [callSequence] at h
    exact congrArg N h.2.symm
  | g, g', value :: values, h => by
    rw [callSequence_cons_run] at h
    by_cases hcount : g.count = 0
    · -- the first call throws and leaves the generator as it was
      rcases h with ⟨out, h⟩ | ⟨e, h⟩ <;> simp [hcount] at h
      exact congrArg N h.2.symm
    · simp only [hcount, if_false] at h
      cases hrun : (callSequence values).run (g.swapOut value) with
      | ok rest g2 =>
        have hg : g2 = g' := by
          rcases h with ⟨out, h⟩ | ⟨e, h⟩ <;> simp [hrun] at h
          exact h.2
        subst hg
        simpa using N_of_callSequence_run (.inl ⟨rest, hrun⟩)
      | error e g2 =>
        have hg : g2 = g' := by
          rcases h with ⟨out, h⟩ | ⟨e, h⟩ <;> simp [hrun] at h
          exact h.2
        subst hg
        simpa using N_of_callSequence_run (.inr ⟨e, hrun⟩)

theorem callSequence_run_new {n : Nat} {values : List Nat} (hfit : DrawsFit n values) {out : List Nat} :
    (∃ g, (callSequence values).run (new n) = .ok out g) ↔ fisherYates (List.range n) values = some out := by
  obtain ⟨out', g', hfy, hrun, -, -⟩ := callSequence_run (g := new n) hfit
  rw [pending_new] at hfy
  constructor
  · rintro ⟨g, h⟩
    rw [hrun] at h
    obtain ⟨rfl, -⟩ := EStateM.Result.ok.inj h
    exact hfy
  · intro h
    rw [hfy] at h
    cases Option.some.inj h
    exact ⟨g', hrun⟩

theorem reset_of_callSequence_run {n : Nat} {values : List Nat} {g : ShuffleGenerator}
    (h : (∃ out, (callSequence values).run (new n) = .ok out g) ∨ (∃ e, (callSequence values).run (new n) = .error e g)) :
    reset g = new n := by
  have hN : g.N = n := N_of_callSequence_run h
  cases g
  subst hN
  rfl

/-- `ShuffleGenerator(n)` draws a permutation. With the `i`-th random value in `[0, n - 1 - i]`,
the first `n` calls return `n` distinct values below `n`, an ordering of `[0, n)`, and the next
call throws `SequenceEnded`; `reset` after any calls gives a fresh generator. Random values are in
bijection with orderings: different values give different outputs, every ordering of `[0, n)` is
the output of `n` calls, and every duplicate-free selection from `[0, n)` that of its first
calls. -/
theorem shuffleGenerator_draws_permutation (n : Nat) :
    (∀ values : List Nat, values.length = n → DrawsFit n values →
      ∃ out g, (callSequence values).run (new n) = .ok out g ∧
        out.Nodup ∧ (∀ v ∈ out, v < n) ∧ out ~ List.range n ∧
        ∀ value, (call value).run g = .error sequenceEnded g) ∧
    (∀ (values : List Nat) (g : ShuffleGenerator),
      ((∃ out, (callSequence values).run (new n) = .ok out g) ∨
        (∃ e, (callSequence values).run (new n) = .error e g)) → reset g = new n) ∧
    (∀ (values values' out : List Nat) (g g' : ShuffleGenerator), DrawsFit n values → DrawsFit n values' →
      (callSequence values).run (new n) = .ok out g → (callSequence values').run (new n) = .ok out g' →
        values = values') ∧
    (∀ p : List Nat, p ~ List.range n →
      ∃ values, values.length = n ∧ DrawsFit n values ∧ ∃ g, (callSequence values).run (new n) = .ok p g) ∧
    (∀ p : List Nat, p.Nodup → (∀ v ∈ p, v < n) →
      ∃ values, values.length = p.length ∧ DrawsFit n values ∧ ∃ g, (callSequence values).run (new n) = .ok p g) := by
  refine ⟨?permutation, fun values g h => reset_of_callSequence_run h, ?injective, ?onto, ?selection⟩
  case permutation =>
    intro values hlen hfit
    obtain ⟨out, g, hfy, hrun, hcount, -⟩ := callSequence_run (g := new n) hfit
    rw [pending_new] at hfy
    obtain ⟨out', hfy', hlen'⟩ := fisherYates_of_drawsFit (l := List.range n) (by simpa using hfit)
    rw [hfy] at hfy'
    cases Option.some.inj hfy'
    -- n draws from n values: nothing is left, so what was taken is all of `[0, n)`
    have hperm : out ~ List.range n := fisherYates_perm hfy (by simp [hlen', hlen])
    have hempty : g.count = 0 := by simp [hcount, hlen, new]
    refine ⟨out, g, hrun, hperm.nodup_iff.mpr List.nodup_range, fun v hv => ?_, hperm, fun value => ?_⟩
    · simpa using hperm.subset hv
    · rw [call_run, if_pos hempty]
  case injective =>
    intro values values' out g g' hfit hfit' hrun hrun'
    have hfy := (callSequence_run_new hfit).mp ⟨g, hrun⟩
    have hfy' := (callSequence_run_new hfit').mp ⟨g', hrun'⟩
    exact fisherYates_injective List.nodup_range hfy hfy'
  case onto =>
    intro p hp
    obtain ⟨values, hfit, hlen, hfy⟩ := fisherYates_surjective List.nodup_range hp
    rw [List.length_range] at hfit hlen
    exact ⟨values, hlen, hfit, (callSequence_run_new hfit).mpr hfy⟩
  case selection =>
    intro p hp hlt
    have hsub : p ⊆ List.range n := fun v hv => List.mem_range.mpr (hlt v hv)
    obtain ⟨values, hfit, hlen, hfy⟩ := fisherYates_surjective_take List.nodup_range hp hsub
    rw [List.length_range] at hfit
    exact ⟨values, hlen, hfit, (callSequence_run_new hfit).mpr hfy⟩

theorem shuffleGenerator_draws_permutation_three :
    (∃ g, (callSequence [0, 0, 0]).run (new 3) = .ok [0, 2, 1] g ∧
      [0, 2, 1] ~ List.range 3 ∧ ∀ value, (call value).run g = .error sequenceEnded g) ∧
      ∃ values, values.length = 1 ∧ DrawsFit 3 values ∧ ∃ g, (callSequence values).run (new 3) = .ok [2] g := by
  obtain ⟨out, g, hrun, -, -, hperm, hended⟩ := (shuffleGenerator_draws_permutation 3).1 [0, 0, 0] rfl (by decide)
  have hout : out = [0, 2, 1] := by
    have hrun' : (callSequence [0, 0, 0]).run (new 3) = .ok [0, 2, 1] _ := rfl
    rw [hrun'] at hrun
    exact (EStateM.Result.ok.inj hrun).1.symm
  subst hout
  exact ⟨⟨g, hrun, hperm, hended⟩, (shuffleGenerator_draws_permutation 3).2.2.2.2 [2] (by decide) (by decide)⟩

end ShuffleGenerator

end Crygcoin
